import BraneKernel.Brane.Discovery
import BraneKernel.Socket

namespace BraneKernel

namespace DiscoverySubsystem

def initiateHandshake (C : Crypto) (ephemeralKey : EphemeralKey) (d : DiscoverySubsystem)
    (table : SocketTable) (peerIp : Bytes.Sized 4) (peerPort : U16) :
    Option ((DiscoverySubsystem × SocketTable) × Except SocketError U32) :=
  match table.create .tcp 1 with
  | none => none
  | some (table, .error e) => some ((d, table), .error e)
  | some (table, .ok tcpSocketId) =>
    let r := (BraneSession.new tcpSocketId ephemeralKey).buildHandshakeInit C
    match table.sendTo tcpSocketId r.2.toBytes peerIp peerPort with
    | none => none
    | some (table, .error e) => some ((d, table), .error e)
    | some (table, .ok _) =>
      some ((⟨Function.update d.sessions tcpSocketId (some r.1)⟩, table), .ok tcpSocketId)

structure Dial where
  ephemeralKey : EphemeralKey
  peerIp : Bytes.Sized 4
  peerPort : U16

def dial (C : Crypto) (s : DiscoverySubsystem × SocketTable) (a : Dial) :
    Option ((DiscoverySubsystem × SocketTable) × Except SocketError U32) :=
  s.1.initiateHandshake C a.ephemeralKey s.2 a.peerIp a.peerPort

def Failed (C : Crypto) (s : DiscoverySubsystem × SocketTable) (a : Dial)
    (s' : DiscoverySubsystem × SocketTable) : Prop :=
  ∃ error, dial C s a = some (s', .error error)

variable {C : Crypto} {d d' : DiscoverySubsystem} {table table' : SocketTable}

def failing (C : Crypto) (s : DiscoverySubsystem × SocketTable) (a : Dial) :
    Option (DiscoverySubsystem × SocketTable) :=
  (dial C s a).bind fun r ↦ if r.2.isOk then none else some r.1

theorem Failed.of_failing {s s' : DiscoverySubsystem × SocketTable} {a : Dial}
    (h : failing C s a = some s') : Failed C s a s' := by
  obtain ⟨⟨s₁, r⟩, hdial, hr⟩ := Option.bind_eq_some_iff.mp h
  cases r with
  | error e =>
    cases hr
    exact ⟨e, hdial⟩
  | ok id => cases hr

theorem dial_cases {a : Dial} {s : DiscoverySubsystem × SocketTable} {r : Except SocketError U32}
    (h : dial C (d, table) a = some (s, r)) :
    (∃ e, r = .error e ∧ s.1 = d ∧ table.create .tcp 1 = some (s.2, .error e)) ∨
    ∃ table₁ id packet, table.create .tcp 1 = some (table₁, .ok id) ∧
      ((∃ e, r = .error e ∧ s.1 = d ∧
          table₁.sendTo id packet a.peerIp a.peerPort = some (s.2, .error e)) ∨
        (r = .ok id ∧ table₁.sendTo id packet a.peerIp a.peerPort = some (s.2, .ok ()))) := by
  unfold dial initiateHandshake at h
  rcases hcreate : table.create .tcp 1 with _ | ⟨table₁, e | id⟩
  · rw [hcreate] at h
    cases h
  · rw [hcreate] at h
    cases h
    exact .inl ⟨e, rfl, rfl, rfl⟩
  · rw [hcreate] at h
    dsimp only at h
    split at h
    · cases h
    · next hsend =>
      cases h
      exact .inr ⟨table₁, id, _, rfl, .inl ⟨_, rfl, rfl, hsend⟩⟩
    · next hsend =>
      cases h
      exact .inr ⟨table₁, id, _, rfl, .inr ⟨rfl, hsend⟩⟩

theorem Failed.cases {a : Dial} (h : Failed C (d, table) a (d', table')) :
    d' = d ∧ ((table.activeCount = maxSockets ∧ table' = table) ∨
      table'.activeCount = table.activeCount + 1) := by
  obtain ⟨error, h⟩ := h
  rcases dial_cases h with ⟨e, -, hd, hcreate⟩ | ⟨table₁, id, packet, hcreate, hsend⟩
  · refine ⟨hd, .inl ?_⟩
    rcases SocketTable.create_cases hcreate with ⟨-, htable, hfull⟩ | ⟨_, _, hr, -⟩
    · exact ⟨(SocketTable.activeCount_eq_maxSockets_iff _).mpr hfull, htable⟩
    · cases hr
  · have hcount := SocketTable.activeCount_create hcreate
    rcases hsend with ⟨e, -, hd, hsend⟩ | ⟨hr, -⟩
    · rcases SocketTable.edit_cases hsend with ⟨-, rfl⟩ | ⟨_, _, _, hr, -⟩
      · exact ⟨hd, .inr hcount⟩
      · cases hr
    · cases hr

/-- Whatever was done with the sockets before, no handshake gets past its first packet. -/
theorem dial_fails {ops : List SocketTable.SocketOp}
    (h : Trace.Run SocketTable.Step .new ops table) {a : Dial}
    {s : DiscoverySubsystem × SocketTable} {r : Except SocketError U32}
    (hdial : dial C (d, table) a = some (s, r)) : Failed C (d, table) a s := by
  rcases dial_cases hdial with ⟨e, rfl, -⟩ | ⟨table₁, id, packet, hcreate, ⟨e, rfl, -⟩ | ⟨-, hsend⟩⟩
  · exact ⟨e, hdial⟩
  · exact ⟨e, hdial⟩
  · exact absurd hsend ((SocketTable.fresh_of_run h).not_sendTo_created hcreate)

theorem Failed.run {es : List Dial} (h : Trace.Run (Failed C) (d, table) es (d', table')) :
    d' = d ∧ table'.activeCount = min (table.activeCount + es.length) maxSockets ∧
      (es = [] ∨ table.activeCount = maxSockets → table' = table) := by
  refine h.history (I := fun es s ↦ s.1 = d ∧
    s.2.activeCount = min (table.activeCount + es.length) maxSockets ∧
      (es = [] ∨ table.activeCount = maxSockets → s.2 = table)) ?_ ?_
  · exact ⟨rfl, (Nat.min_eq_left table.activeCount_le).symm, fun _ ↦ rfl⟩
  · rintro es ⟨d₁, table₁⟩ a ⟨d₂, table₂⟩ ⟨rfl, hcount, hsame⟩ hstep
    have hle := table₂.activeCount_le
    have hlength : (es ++ [a]).length = es.length + 1 := List.length_append
    dsimp only at hcount hsame ⊢
    obtain ⟨rfl, ⟨hmax, rfl⟩ | hmore⟩ := hstep.cases
    · refine ⟨rfl, by omega, fun hfull ↦ hsame (.inr ?_)⟩
      exact hfull.resolve_left (List.append_ne_nil_of_right_ne_nil _ (List.cons_ne_nil _ _))
    · refine ⟨rfl, by omega, ?_⟩
      rintro (hnil | hmax)
      · exact absurd hnil (List.append_ne_nil_of_right_ne_nil _ (List.cons_ne_nil _ _))
      · have hcount' := congrArg SocketTable.activeCount (hsame (.inr hmax))
        omega

/-- Every failed attempt leaves a socket behind until the table is full, and only
then leaves the sockets as they were. -/
theorem failed_handshakes {es : List Dial} (h : Trace.Run (Failed C) (d, table) es (d', table')) :
    d'.sessions = d.sessions ∧
    table'.activeCount = min (table.activeCount + es.length) maxSockets ∧
    (table'.activeSockets = table.activeSockets ↔ es = [] ∨ table.activeCount = maxSockets) := by
  obtain ⟨rfl, hcount, hsame⟩ := Failed.run h
  refine ⟨rfl, hcount, fun hactive ↦ ?_, fun hnone ↦ by rw [hsame hnone]⟩
  have hlength : table'.activeCount = table.activeCount := congrArg List.length hactive
  have hle := table.activeCount_le
  rw [← List.length_eq_zero_iff]
  omega

def sampleDial : Dial where
  ephemeralKey := ⟨⟨List.replicate 32 0, rfl⟩⟩
  peerIp := ⟨[10, 0, 0, 2], rfl⟩
  peerPort := 9000

theorem dial_fails_sample : ∃ table s r, Trace.Run SocketTable.Step .new
      [.create .udp 2, .bind 1 sampleDial.peerIp 5353] table ∧ table.activeCount = 1 ∧
    dial .tagging (⟨fun _ ↦ none⟩, table) sampleDial = some (s, r) ∧
    Failed .tagging (⟨fun _ ↦ none⟩, table) sampleDial s := by
  obtain ⟨table, hrun, hcount, s, r, hdial⟩ : ∃ table, Trace.Run SocketTable.Step .new
      [.create .udp 2, .bind 1 sampleDial.peerIp 5353] table ∧ table.activeCount = 1 ∧
      ∃ s r, dial .tagging (⟨fun _ ↦ none⟩, table) sampleDial = some (s, r) :=
    ⟨_, .cons rfl (.cons rfl .nil), rfl, _, _, rfl⟩
  exact ⟨table, s, r, hrun, hcount, hdial, dial_fails hrun hdial⟩

theorem failed_handshakes_once : ∃ d table,
    Trace.Run (Failed .tagging) (⟨fun _ ↦ none⟩, .new) [sampleDial] (d, table) ∧
    d.sessions = (fun _ ↦ none) ∧ table.activeCount = 1 := by
  obtain ⟨⟨d, table⟩, hrun⟩ : ∃ s,
      Trace.Run (Failed .tagging) (⟨fun _ ↦ none⟩, .new) [sampleDial] s :=
    ⟨_, .cons ⟨.invalidState, rfl⟩ .nil⟩
  obtain ⟨hsessions, hcount, -⟩ := failed_handshakes hrun
  exact ⟨d, table, hrun, hsessions, hcount.trans (by decide)⟩

/-- After 32 failed attempts on an empty table no socket can be created. -/
theorem failed_handshakes_exhaust_sockets : ∃ d table,
    Trace.Run (Failed .tagging) (⟨fun _ ↦ none⟩, .new) (List.replicate 32 sampleDial) (d, table) ∧
    SocketTable.new.activeSockets = [] ∧ table.activeCount = maxSockets ∧
    (table.create .udp 2).map Prod.snd = some (.error .tableFull) := by
  obtain ⟨⟨d, table⟩, hfold, hvalues⟩ := Option.map_eq_some_iff.mp (show
    ((List.replicate 32 sampleDial).foldlM (failing .tagging) (⟨fun _ ↦ none⟩, .new)).map
      (fun s ↦ (s.2.activeCount, (s.2.create .udp 2).map Prod.snd)) =
      some (maxSockets, some (.error .tableFull)) by decide +kernel)
  obtain ⟨hcount, hcreate⟩ := Prod.mk.inj hvalues
  exact ⟨d, table, .of_next (fun _ _ _ h ↦ .of_failing h) hfold, rfl, hcount, hcreate⟩

end DiscoverySubsystem

end BraneKernel
