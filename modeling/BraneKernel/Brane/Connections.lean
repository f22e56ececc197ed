import BraneKernel.Brane.Manager
import BraneKernel.Lib.Trace

namespace BraneKernel.Brane

inductive BraneCall
  | registerDiscovered (name : List Char) (braneType : BraneType) (transport : Transport)
      (caps : U32) (signal : BitVec 8)
  | connect (now : BraneMoment) (braneId : BraneId) (ownerTask : TaskId)
  | send (sessionId : SessionId)
  | disconnect (now : BraneMoment) (sessionId : SessionId)

inductive BraneReply
  | discovered (id : BraneId)
  | connected (id : SessionId)
  | done
  | failed (error : BraneError)

def BraneReply.of {α : Type} (f : α → BraneReply) : Except BraneError α → BraneReply
  | .ok a => f a
  | .error e => .failed e

def BraneReply.session : BraneReply → Option SessionId
  | .connected id => some id
  | _ => none

def BraneReply.brane : BraneReply → Option BraneId
  | .discovered id => some id
  | _ => none

def sessionIds (h : List (BraneCall × BraneReply)) : List SessionId := h.filterMap (·.2.session)

def braneIds (h : List (BraneCall × BraneReply)) : List BraneId := h.filterMap (·.2.brane)

namespace BraneManager

def call (s : BraneManager × AuditLog) : BraneCall → Option ((BraneManager × AuditLog) × BraneReply)
  | .registerDiscovered name braneType transport caps signal =>
    (s.1.registerDiscovered name braneType transport caps signal).map fun p ↦
      ((p.1, s.2), .of .discovered p.2)
  | .connect now braneId ownerTask =>
    (s.1.connect s.2 now braneId ownerTask).map fun p ↦ (p.1, .of .connected p.2)
  | .send sessionId => (s.1.send sessionId).map fun p ↦ ((p.1, s.2), .of (fun _ ↦ .done) p.2)
  | .disconnect now sessionId =>
    (s.1.disconnect s.2 now sessionId).map fun p ↦ (p.1, .of (fun _ ↦ .done) p.2)

def CallStep (s : BraneManager × AuditLog) (e : BraneCall × BraneReply)
    (s' : BraneManager × AuditLog) : Prop :=
  call s e.1 = some (s', e.2)

inductive Effect (s : BraneManager × AuditLog) : BraneReply → BraneManager × AuditLog → Prop
  | failed {e : BraneError} : Effect s (.failed e) s
  | discovered {info : BraneInfo} {slots : List (Option BraneInfo)} {id : BraneId}
      {size : slots.length = maxDiscovered} (numbered : info.id = s.1.totalDiscovered + 1)
      (counted : checkedSucc s.1.totalDiscovered = some id)
      (inserted : Slots.insert info s.1.discovered = some slots) :
    Effect s (.discovered id)
      ({ s.1 with discovered := slots, totalDiscovered := id, discoveredSize := size }, s.2)
  | connected {session : BraneSession} {slots : List (Option BraneSession)} {next : SessionId}
      {connections : U64} {log : AuditLog} {size : slots.length = maxSessions}
      (numbered : session.sessionId = s.1.nextSessionId) (state : session.state = .active)
      (free : s.1.isConnected session.remoteBrane = false)
      (advanced : checkedSucc s.1.nextSessionId = some next)
      (counted : checkedSucc s.1.totalConnections = some connections)
      (inserted : Slots.insert session s.1.sessions = some slots) :
    Effect s (.connected s.1.nextSessionId)
      ({ s.1 with
          sessions := slots
          nextSessionId := next
          totalConnections := connections
          sessionsSize := size }, log)
  | sent {sessionId : SessionId} {sent : U64} :
    Effect s .done
      ({ s.1 with
          sessions := Slots.modify (fun s ↦ s.sessionId == sessionId)
            (fun s ↦ { s with msgsSent := sent }) s.1.sessions
          sessionsSize := (Slots.length_modify _ _ _).trans s.1.sessionsSize }, s.2)
  | disconnected {sessionId : SessionId} {disconnections : U64} {log : AuditLog}
      (found : (Slots.find (fun s ↦ s.sessionId == sessionId) s.1.sessions).isSome = true)
      (counted : checkedSucc s.1.totalDisconnections = some disconnections) :
    Effect s .done
      ({ s.1 with
          sessions := Slots.clear (fun s ↦ s.sessionId == sessionId) s.1.sessions
          totalDisconnections := disconnections
          sessionsSize := (Slots.length_clear _ _).trans s.1.sessionsSize }, log)

variable {s s' : BraneManager × AuditLog} {m : BraneManager} {reply : BraneReply}

theorem call_effect {c : BraneCall} (h : call s c = some (s', reply)) : Effect s reply s' := by
  cases c with
  | registerDiscovered name braneType transport caps signal =>
    obtain ⟨⟨m, r⟩, hr, he⟩ := Option.map_eq_some_iff.mp h
    cases he
    unfold registerDiscovered at hr
    split at hr
    · cases hr
      exact .failed
    · next slots hinsert =>
      obtain ⟨id, hid, he⟩ := Option.map_eq_some_iff.mp hr
      cases he
      exact .discovered rfl hid hinsert
  | connect now braneId ownerTask =>
    obtain ⟨⟨s₁, r⟩, hr, he⟩ := Option.map_eq_some_iff.mp h
    cases he
    unfold connect at hr
    split at hr
    · cases hr
      exact .failed
    split_ifs at hr with hconnected
    · cases hr
      exact .failed
    split at hr
    · cases hr
      exact .failed
    · next slots hinsert =>
      obtain ⟨next, hnext, hr⟩ := Option.bind_eq_some_iff.mp hr
      obtain ⟨connections, hcounted, he⟩ := Option.map_eq_some_iff.mp hr
      cases he
      exact .connected rfl rfl (Bool.eq_false_iff.mpr hconnected) hnext hcounted hinsert
  | send sessionId =>
    obtain ⟨⟨m, r⟩, hr, he⟩ := Option.map_eq_some_iff.mp h
    cases he
    unfold send at hr
    split at hr
    · cases hr
      exact .failed
    split_ifs at hr
    · cases hr
      exact .failed
    · cases hr
      exact .failed
    · obtain ⟨sent, -, he⟩ := Option.map_eq_some_iff.mp hr
      cases he
      exact .sent
  | disconnect now sessionId =>
    obtain ⟨⟨s₁, r⟩, hr, he⟩ := Option.map_eq_some_iff.mp h
    cases he
    unfold disconnect at hr
    split at hr
    · cases hr
      exact .failed
    · next session hfind =>
      obtain ⟨disconnections, hcounted, he⟩ := Option.map_eq_some_iff.mp hr
      cases he
      exact .disconnected (by rw [hfind]; rfl) hcounted

structure Agrees (sessionIds : List SessionId) (braneIds : List BraneId) (m : BraneManager) :
    Prop where
  sessionIds : sessionIds.map BitVec.toNat = List.range' 1 m.totalConnections.toNat
  braneIds : braneIds.map BitVec.toNat = List.range' 1 m.totalDiscovered.toNat
  next : m.nextSessionId.toNat = m.totalConnections.toNat + 1
  sessions : Slots.Numbered (·.sessionId.toNat) m.totalConnections.toNat m.sessions
  branes : Slots.Numbered (·.id.toNat) m.totalDiscovered.toNat m.discovered
  remotes : (Slots.keys (·.remoteBrane) m.sessions).Nodup
  active : ∀ session, some session ∈ m.sessions → session.state = .active
  count : m.totalConnections.toNat = m.totalDisconnections.toNat + m.held.length
  discovered : m.totalDiscovered.toNat = m.discovered.reduceOption.length

theorem agrees_new : Agrees [] [] new where
  sessionIds := rfl
  braneIds := rfl
  next := rfl
  sessions := Slots.numbered_replicate _ _
  branes := Slots.numbered_replicate _ _
  remotes := by simp [new, Slots.keys]
  active := by simp [new]
  count := rfl
  discovered := rfl

theorem isConnected_iff {braneId : BraneId} : m.isConnected braneId = true ↔
    ∃ session, some session ∈ m.sessions ∧ session.remoteBrane = braneId ∧
      session.state = .active := by
  simp only [isConnected, List.any_eq_true, Option.any_eq_true, Bool.and_eq_true, beq_iff_eq]
  constructor
  · rintro ⟨_, hmem, session, rfl, hsession⟩
    exact ⟨session, hmem, hsession⟩
  · rintro ⟨session, hmem, hsession⟩
    exact ⟨some session, hmem, session, rfl, hsession⟩

theorem map_toNat_snoc {ids : List U64} {id : U64} {n : ℕ}
    (hids : ids.map BitVec.toNat = List.range' 1 n) (hid : id.toNat = n + 1) :
    (ids ++ [id]).map BitVec.toNat = List.range' 1 (n + 1) := by
  rw [List.map_append, hids, List.map_singleton, hid, List.range'_concat, Nat.one_mul,
    Nat.add_comm 1]

theorem Agrees.step {sids : List SessionId} {bids : List BraneId} (ha : Agrees sids bids s.1)
    (hs : Effect s reply s') :
    Agrees (sids ++ reply.session.toList) (bids ++ reply.brane.toList) s'.1 := by
  cases hs <;>
    simp only [BraneReply.session, BraneReply.brane, Option.toList_none, Option.toList_some,
      List.append_nil]
  case failed => exact ha
  case discovered info slots id size numbered counted inserted =>
    have hid : id.toNat = s.1.totalDiscovered.toNat + 1 := checkedSucc_toNat counted
    refine { ha with braneIds := ?_, branes := ?_, discovered := ?_ }
    · rw [hid]
      exact map_toNat_snoc ha.braneIds hid
    · rw [hid]
      exact ha.branes.insert ((numbered.trans (checkedSucc_eq counted)) ▸ hid) inserted
    · rw [hid, ha.discovered, Slots.length_reduceOption_insert inserted]
  case connected session slots next connections log size numbered state free advanced counted
      inserted =>
    have hconnections : connections.toNat = s.1.totalConnections.toNat + 1 :=
      checkedSucc_toNat counted
    have hfresh : session.remoteBrane ∉ Slots.keys (·.remoteBrane) s.1.sessions := by
      intro hmem
      obtain ⟨other, hother, hremote⟩ := Slots.mem_keys.mp hmem
      have hbusy := isConnected_iff.mpr ⟨other, hother, hremote, ha.active other hother⟩
      cases free.symm.trans hbusy
    refine { ha with
      sessionIds := ?_, next := ?_, sessions := ?_, remotes := ?_, active := ?_, count := ?_ }
    · rw [hconnections]
      exact map_toNat_snoc ha.sessionIds ha.next
    · rw [checkedSucc_toNat advanced, ha.next, hconnections]
    · rw [hconnections]
      exact ha.sessions.insert (numbered ▸ ha.next) inserted
    · exact (Slots.keys_insert inserted).nodup_iff.mpr (List.nodup_cons.mpr ⟨hfresh, ha.remotes⟩)
    · intro other hother
      rcases (Slots.mem_insert inserted).mp hother with hother | rfl
      · exact ha.active other hother
      · exact state
    · have hlength := Slots.length_reduceOption_insert inserted
      have hcount := ha.count
      simp only [held] at hcount ⊢
      omega
  case sent sessionId sent =>
    refine { ha with sessions := ?_, remotes := ?_, active := ?_, count := ?_ }
    · exact ha.sessions.modify fun _ _ ↦ rfl
    · have hkeys : Slots.keys BraneSession.remoteBrane
          (Slots.modify (fun s ↦ s.sessionId == sessionId) (fun s ↦ { s with msgsSent := sent })
            s.1.sessions) = Slots.keys BraneSession.remoteBrane s.1.sessions := by
        apply Slots.keys_modify
        intro _ _
        rfl
      exact hkeys ▸ ha.remotes
    · intro session hsession
      rcases Slots.mem_modify hsession with hsession | ⟨old, hold, -, rfl⟩
      · exact ha.active session hsession
      · exact ha.active old hold
    · rw [ha.count, held, held, Slots.length_reduceOption_modify]
  case disconnected sessionId disconnections log found counted =>
    refine { ha with sessions := ha.sessions.clear _, remotes := ?_, active := ?_, count := ?_ }
    · exact (Slots.keys_clear _ _ _).nodup ha.remotes
    · intro session hsession
      obtain ⟨i, hi⟩ := List.mem_iff_getElem?.mp hsession
      exact ha.active session (List.mem_of_getElem? (Slots.getElem?_clear hi))
    · have hlength := Slots.length_reduceOption_clear found
      have hdisconnections := checkedSucc_toNat counted
      have hcount := ha.count
      simp only [held] at hcount ⊢
      omega

theorem agrees_of_run {log : AuditLog} {h : List (BraneCall × BraneReply)}
    (hr : Trace.Run CallStep (new, log) h s) : Agrees (sessionIds h) (braneIds h) s.1 := by
  apply hr.history (I := fun h (s : BraneManager × AuditLog) ↦
    Agrees (sessionIds h) (braneIds h) s.1) agrees_new
  intro h s e s' ha hstep
  have hsessions : sessionIds (h ++ [e]) = sessionIds h ++ e.2.session.toList := by
    rw [sessionIds, List.filterMap_append]
    cases he : e.2.session <;> simp [sessionIds, he]
  have hbranes : braneIds (h ++ [e]) = braneIds h ++ e.2.brane.toList := by
    rw [braneIds, List.filterMap_append]
    cases he : e.2.brane <;> simp [braneIds, he]
  rw [hsessions, hbranes]
  exact ha.step (call_effect hstep)

theorem call_failed_unchanged {c : BraneCall} {e : BraneError}
    (h : call s c = some (s', .failed e)) : s' = s := by
  have heffect := call_effect h
  cases heffect
  rfl

/-- Only the session counter and the message counters can run out: the others
count what the tables hold, or never get ahead of the connections. -/
theorem Agrees.call_returns {sids : List SessionId} {bids : List BraneId} {c : BraneCall}
    (ha : Agrees sids bids s.1) (h : call s c = none) :
    s.1.nextSessionId = BitVec.allOnes 64 ∨
      ∃ session ∈ s.1.held, session.msgsSent = BitVec.allOnes 64 := by
  cases c with
  | registerDiscovered name braneType transport caps signal =>
    have hdiscovered := ha.discovered
    have hle : s.1.discovered.reduceOption.length ≤ 16 :=
      (List.reduceOption_length_le _).trans_eq s.1.discoveredSize
    rw [call, Option.map_eq_none_iff, registerDiscovered] at h
    split at h
    · cases h
    · have hlt : s.1.totalDiscovered.toNat < (17 : U64).toNat :=
        hdiscovered.trans_lt (Nat.lt_succ_of_le hle)
      exact absurd (Option.map_eq_none_iff.mp h) (checkedSucc_ne_none hlt)
  | connect now braneId ownerTask =>
    have hlt : s.1.totalConnections.toNat < s.1.nextSessionId.toNat := by
      rw [ha.next]
      exact Nat.lt_succ_self _
    rw [call, Option.map_eq_none_iff, BraneManager.connect] at h
    split at h
    · cases h
    split_ifs at h
    split at h
    · cases h
    · cases hadvanced : checkedSucc s.1.nextSessionId with
      | none => exact .inl (checkedSucc_eq_none hadvanced)
      | some next =>
        rw [hadvanced, Option.bind_some] at h
        exact absurd (Option.map_eq_none_iff.mp h) (checkedSucc_ne_none hlt)
  | send sessionId =>
    rw [call, Option.map_eq_none_iff, send] at h
    split at h
    · cases h
    next session hfind =>
    split_ifs at h
    exact .inr ⟨session, List.reduceOption_mem_iff.mpr (Slots.find_mem hfind).1,
      checkedSucc_eq_none (Option.map_eq_none_iff.mp h)⟩
  | disconnect now sessionId =>
    have hlt : s.1.totalDisconnections.toNat < s.1.nextSessionId.toNat := by
      rw [ha.next, ha.count]
      omega
    rw [call, Option.map_eq_none_iff, BraneManager.disconnect] at h
    split at h
    · cases h
    · exact absurd (Option.map_eq_none_iff.mp h) (checkedSucc_ne_none hlt)

theorem mem_of_numbered {α : Type} {key : α → U64} {ids : List U64} {n : ℕ} {slots : List (Option α)}
    (hids : ids.map BitVec.toNat = List.range' 1 n)
    (hslots : Slots.Numbered (fun a ↦ (key a).toNat) n slots) {a : α} (ha : a ∈ slots.reduceOption) :
    key a ∈ ids := by
  have hissued := hslots.issued (key a).toNat
    (Slots.mem_keys.mpr ⟨a, List.reduceOption_mem_iff.mp ha, rfl⟩)
  have hmem : (key a).toNat ∈ ids.map BitVec.toNat := by
    rw [hids, List.mem_range'_1]
    omega
  obtain ⟨id, hid, heq⟩ := List.mem_map.mp hmem
  exact BitVec.eq_of_toNat_eq heq ▸ hid

theorem nodup_of_numbered {α : Type} {key : α → U64} {n : ℕ} {slots : List (Option α)}
    (hslots : Slots.Numbered (fun a ↦ (key a).toNat) n slots) :
    (slots.reduceOption.map key).Nodup := by
  have hdistinct := hslots.distinct
  rw [Slots.keys_eq_map] at hdistinct
  rw [← Function.comp_def, ← List.map_map] at hdistinct
  exact hdistinct.of_map

/-- Over any history of calls each brane has at most one active session, no id is
handed out twice, the counters account for the sessions held, and a call that
fails leaves everything as it was. -/
theorem brane_sessions_accounted {log : AuditLog} {h : List (BraneCall × BraneReply)}
    (hr : Trace.Run CallStep (new, log) h s) :
    (s.1.activeSessions.map (·.remoteBrane)).Nodup ∧
    ((s.1.held.map (·.sessionId)).Nodup ∧ (∀ session ∈ s.1.held, session.sessionId ∈ sessionIds h) ∧
      (sessionIds h).Nodup) ∧
    ((s.1.discovered.reduceOption.map (·.id)).Nodup ∧
      (∀ info ∈ s.1.discovered.reduceOption, info.id ∈ braneIds h) ∧ (braneIds h).Nodup) ∧
    s.1.totalConnections.toNat = s.1.totalDisconnections.toNat + s.1.held.length ∧
    (∀ c e s', call s c = some (s', .failed e) → s' = s) ∧
    (∀ c, call s c = none → s.1.nextSessionId = BitVec.allOnes 64 ∨
      ∃ session ∈ s.1.held, session.msgsSent = BitVec.allOnes 64) := by
  have ha := agrees_of_run hr
  have hsessions : (sessionIds h).Nodup := by
    have hrange : (List.range' 1 s.1.totalConnections.toNat).Nodup := List.nodup_range'
    exact (ha.sessionIds ▸ hrange).of_map
  have hbranes : (braneIds h).Nodup := by
    have hrange : (List.range' 1 s.1.totalDiscovered.toNat).Nodup := List.nodup_range'
    exact (ha.braneIds ▸ hrange).of_map
  have hremotes := ha.remotes
  rw [Slots.keys_eq_map] at hremotes
  refine ⟨(List.filter_sublist.map _).nodup hremotes,
    ⟨nodup_of_numbered ha.sessions, fun _ ↦ mem_of_numbered ha.sessionIds ha.sessions, hsessions⟩,
    ⟨nodup_of_numbered ha.branes, fun _ ↦ mem_of_numbered ha.braneIds ha.branes, hbranes⟩,
    ha.count, fun _ _ _ hcall ↦ call_failed_unchanged hcall, fun _ ↦ ha.call_returns⟩

def reconnecting : List (BraneCall × BraneReply) :=
  [(.registerDiscovered "phone".toList .companion .bluetooth 3 90, .discovered 1),
    (.connect ⟨5, 5, 0⟩ 1 7, .connected 1),
    (.connect ⟨6, 6, 0⟩ 1 7, .failed .alreadyConnected),
    (.send 1, .done),
    (.disconnect ⟨8, 8, 0⟩ 1, .done),
    (.connect ⟨9, 9, 0⟩ 1 7, .connected 2)]

theorem brane_sessions_accounted_reconnecting : ∃ s,
    Trace.Run CallStep (new, .new) reconnecting s ∧ s.1.held.length = 1 ∧
    s.1.totalConnections.toNat = s.1.totalDisconnections.toNat + 1 := by
  obtain ⟨s, hrun, hheld⟩ : ∃ s, Trace.Run CallStep (new, .new) reconnecting s ∧
      s.1.held.length = 1 :=
    ⟨_, .cons rfl (.cons rfl (.cons rfl (.cons rfl (.cons rfl (.cons rfl .nil))))), rfl⟩
  obtain ⟨-, -, -, hcount, -⟩ := brane_sessions_accounted hrun
  exact ⟨s, hrun, hheld, hheld ▸ hcount⟩

end BraneManager

end BraneKernel.Brane
