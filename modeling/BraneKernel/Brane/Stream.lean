import BraneKernel.Brane.Lifecycle

namespace BraneKernel

namespace SessionPacket

def isData (p : SessionPacket) : Bool := p.ptype = .encryptedData

def head (data : Bytes) : Option SessionPacket := (parse data).map Prod.fst

def heads (chunks : List Bytes) : List SessionPacket := chunks.filterMap head

/-- The bytes of packets that come in one read. -/
def chunk (packets : List SessionPacket) : Bytes := (packets.map toBytes).flatten

theorem head_chunk {packets : List SessionPacket} (hp : ∀ p ∈ packets, p.payload.length < 65536) :
    head (chunk packets) = packets.head? := by
  cases packets with
  | nil => rfl
  | cons p rest =>
    have hparse := (parse_toBytes_iff p (chunk rest)).mpr (hp p List.mem_cons_self)
    exact congrArg (Option.map Prod.fst) hparse

theorem heads_chunks {groups : List (List SessionPacket)}
    (hp : ∀ g ∈ groups, ∀ p ∈ g, p.payload.length < 65536) :
    heads (groups.map chunk) = groups.filterMap List.head? := by
  rw [heads, List.filterMap_map]
  exact List.filterMap_congr fun g hg ↦ head_chunk (hp g hg)

theorem heads_toBytes {packets : List SessionPacket}
    (hp : ∀ p ∈ packets, p.payload.length < 65536) : heads (packets.map toBytes) = packets := by
  rw [heads, List.filterMap_map, List.filterMap_congr (g := some), List.filterMap_some]
  intro p hmem
  have hhead : head (chunk [p]) = some p := head_chunk (by simpa using hp p hmem)
  rwa [chunk, List.map_singleton, List.flatten_singleton] at hhead

theorem countP_heads (groups : List (List SessionPacket)) : groups.flatten.countP isData =
    (groups.filterMap List.head?).countP isData +
      (groups.map List.tail).flatten.countP isData := by
  induction groups with
  | nil => rfl
  | cons g groups ih =>
    cases g with
    | nil => exact ih
    | cons p rest =>
      rw [List.filterMap_cons_some (List.head?_cons ..)]
      simp only [List.flatten_cons, List.map_cons, List.tail_cons, List.countP_append,
        List.countP_cons, ih]
      omega

end SessionPacket

/-- The kinds of packets that a session still acts on, in this state or in a later one. -/
def SessionState.actsOn : SessionState → SessionPacketType → Bool
  | .waitResponse, .handshakeResponse | .waitResponse, .capabilityExchange
  | .waitResponse, .encryptedData | .waitCapability, .capabilityExchange
  | .waitCapability, .encryptedData | .established, .encryptedData => true
  | _, _ => false

namespace BraneSession

variable {C : Crypto} {s s' : BraneSession} {now : U64} {p : SessionPacket}

theorem dispatch_ignored (h : s.state.actsOn p.ptype = false) :
    (s.dispatch C now p).map Prod.fst = some s := by
  obtain ⟨ptype, payload⟩ := p
  cases hs : s.state <;> cases ptype <;>
    simp_all [dispatch, processHandshakeResponse, processCapabilityExchange, decryptPayload,
      SessionState.actsOn]

theorem dispatch_actsOn (h : (s.dispatch C now p).map Prod.fst = some s') (t : SessionPacketType)
    (ht : s.state.actsOn t = false) : s'.state.actsOn t = false := by
  rw [dispatch_fst] at h
  cases hc : packetCall now p with
  | none =>
    rw [hc] at h
    cases h
    exact ht
  | some c =>
    rw [hc] at h
    obtain ⟨⟨_, r⟩, hcall, rfl⟩ := Option.map_eq_some_iff.mp h
    cases call_effect hcall with
    | keyed _ hs | established hs _ =>
      rw [hs] at ht
      cases t <;> first | rfl | cases ht
    | closed => rfl
    | offered _ | encrypted _ _ | decrypted _ _ | observed _ _ | refused _ _ => exact ht
    | init =>
      -- Opening a session is the one call that widens what it acts on, and no packet makes it.
      unfold packetCall at hc
      split at hc <;> cases hc

theorem dispatch_data (hs : s.state = .established) (hp : p.ptype = .encryptedData) :
    (s.dispatch C now p).map Prod.fst =
      (checkedSucc s.rxNonce).map fun n ↦ { s with rxNonce := n } := by
  have heq := congrArg (Option.map Prod.fst) (decryptPayload_eq (C := C) hs p.payload)
  rw [dispatch_fst, packetCall, hp]
  simpa [call, Option.map_map, Function.comp_def] using heq

def deliver (C : Crypto) (now : U64) (s : BraneSession) (ps : List SessionPacket) :
    Option BraneSession :=
  ps.foldlM (fun s p ↦ (s.dispatch C now p).map Prod.fst) s

theorem deliver_cons (p : SessionPacket) (ps : List SessionPacket) : s.deliver C now (p :: ps) =
    ((s.dispatch C now p).map Prod.fst).bind fun s' ↦ s'.deliver C now ps :=
  List.foldlM_cons ..

theorem deliver_ignored {ps : List SessionPacket} (h : ∀ p ∈ ps, s.state.actsOn p.ptype = false) :
    s.deliver C now ps = some s := by
  induction ps with
  | nil => rfl
  | cons p ps ih =>
    rw [List.forall_mem_cons] at h
    rw [deliver_cons, dispatch_ignored h.1, Option.bind_some, ih h.2]

theorem deliver_groups {groups : List (List SessionPacket)}
    (h : ∀ g ∈ groups, ∀ p ∈ g.tail, s.state.actsOn p.ptype = false) :
    s.deliver C now (groups.filterMap List.head?) = s.deliver C now groups.flatten := by
  induction groups generalizing s with
  | nil => rfl
  | cons g groups ih =>
    rw [List.forall_mem_cons] at h
    cases g with
    | nil => exact ih h.2
    | cons p rest =>
      rw [List.filterMap_cons_some (List.head?_cons ..), List.flatten_cons, List.cons_append,
        deliver_cons, deliver_cons]
      cases hs : (s.dispatch C now p).map Prod.fst with
      | none => rfl
      | some s' =>
        have hlater := dispatch_actsOn hs
        have hrest : s'.deliver C now (rest ++ groups.flatten) =
            (s'.deliver C now rest).bind fun s' ↦ s'.deliver C now groups.flatten :=
          List.foldlM_append
        have hignored : s'.deliver C now rest = some s' :=
          deliver_ignored fun q hq ↦ hlater _ (h.1 q hq)
        rw [Option.bind_some, Option.bind_some, hrest, hignored, Option.bind_some]
        exact ih fun g hg q hq ↦ hlater _ (h.2 g hg q hq)

/-- The receive counter moved on by `n`, if it does not overflow. -/
def advance (s : BraneSession) (n : ℕ) : Option BraneSession :=
  if 2 ^ 64 ≤ s.rxNonce.toNat + n then none
  else some { s with rxNonce := BitVec.ofNat 64 (s.rxNonce.toNat + n) }

theorem advance_zero (s : BraneSession) : s.advance 0 = some s := by
  have hlt := s.rxNonce.isLt
  rw [advance, if_neg (by omega), Nat.add_zero, BitVec.ofNat_toNat, BitVec.setWidth_eq]

theorem advance_succ (s : BraneSession) (n : ℕ) : s.advance (n + 1) =
    (checkedSucc s.rxNonce).bind fun m ↦ ({ s with rxNonce := m }).advance n := by
  cases hm : checkedSucc s.rxNonce with
  | none =>
    have hall : s.rxNonce.toNat = 2 ^ 64 - 1 := by
      rw [checkedSucc_eq_none hm, BitVec.toNat_allOnes]
    rw [advance, if_pos (by omega), Option.bind_none]
  | some m =>
    have hval := checkedSucc_toNat hm
    rw [Option.bind_some, advance, advance]
    dsimp only
    rw [hval, Nat.add_assoc, Nat.add_comm n 1]

theorem advance_eq_iff (s : BraneSession) (m n : ℕ) :
    s.advance m = s.advance (m + n) ↔ n = 0 ∨ 2 ^ 64 ≤ s.rxNonce.toNat + m := by
  constructor
  · intro h
    rw [or_iff_not_imp_right]
    intro hlt
    rw [advance, if_neg hlt, advance] at h
    split_ifs at h
    have hnonce := congrArg (fun s ↦ s.rxNonce.toNat) (Option.some.inj h)
    simp only [BitVec.toNat_ofNat] at hnonce
    omega
  · rintro (rfl | hge)
    · rfl
    · rw [advance, if_pos hge, advance, if_pos (by omega)]

theorem deliver_established (hs : s.state = .established) (ps : List SessionPacket) :
    s.deliver C now ps = s.advance (ps.countP SessionPacket.isData) := by
  induction ps generalizing s with
  | nil => exact (advance_zero s).symm
  | cons p ps ih =>
    rw [deliver_cons]
    by_cases hp : p.ptype = .encryptedData
    · rw [dispatch_data hs hp, List.countP_cons_of_pos (by simp [SessionPacket.isData, hp]), advance_succ]
      cases checkedSucc s.rxNonce with
      | none => rfl
      | some n => exact ih hs
    · have hignored : s.state.actsOn p.ptype = false := by
        rw [hs]
        cases ht : p.ptype <;> first | rfl | exact absurd ht hp
      rw [dispatch_ignored hignored, List.countP_cons_of_neg (by simp [SessionPacket.isData, hp])]
      exact ih hs

theorem receive_fst (C : Crypto) (now : U64) (s : BraneSession) (data : Bytes) :
    (s.receive C now data).map Prod.fst = s.deliver C now (SessionPacket.head data).toList := by
  rw [receive, SessionPacket.head]
  cases SessionPacket.parse data with
  | none => rfl
  | some r => exact ((deliver_cons r.1 []).trans (Option.bind_fun_some _)).symm

end BraneSession

namespace DiscoverySubsystem

open SessionPacket BraneSession

variable {C : Crypto} {now : U64} {d : DiscoverySubsystem} {socketId : BitVec 32}
  {s : BraneSession}

def feedData (C : Crypto) (now : U64) (d : DiscoverySubsystem) (socketId : BitVec 32)
    (chunks : List Bytes) : Option DiscoverySubsystem :=
  chunks.foldlM (fun d data ↦ (d.processSessionData C now socketId data).map Prod.fst) d

theorem feedData_sessions (hd : d.sessions socketId = some s) (chunks : List Bytes) :
    (d.feedData C now socketId chunks).map (fun d ↦ d.sessions socketId) =
      (s.deliver C now (heads chunks)).map some := by
  induction chunks generalizing d s with
  | nil => exact congrArg some hd
  | cons data chunks ih =>
    have hheads : heads (data :: chunks) = (head data).toList ++ heads chunks := by
      rw [heads, List.filterMap_cons]
      cases head data <;> rfl
    have hsplit : s.deliver C now (heads (data :: chunks)) =
        ((s.receive C now data).map Prod.fst).bind fun s' ↦ s'.deliver C now (heads chunks) := by
      rw [hheads, receive_fst]
      exact List.foldlM_append
    rw [hsplit, feedData, List.foldlM_cons, processSessionData, hd]
    dsimp only
    cases s.receive C now data with
    | none => rfl
    | some r => exact ih (Function.update_self ..)

/-- Reads that begin at packet boundaries leave a session as the packets one by one do, if every
packet behind the first of its read is of a kind the session no longer acts on. An established
session is left so only then, or if the packets at the starts of the reads already overflow its
receive counter. -/
theorem segmentation_boundaries (hd : d.sessions socketId = some s)
    {groups : List (List SessionPacket)}
    (hp : ∀ g ∈ groups, ∀ p ∈ g, p.payload.length < 65536) :
    ((∀ g ∈ groups, ∀ p ∈ g.tail, s.state.actsOn p.ptype = false) →
      (d.feedData C now socketId (groups.map chunk)).map (fun d ↦ d.sessions socketId) =
        (d.feedData C now socketId (groups.flatten.map toBytes)).map
          fun d ↦ d.sessions socketId) ∧
    (s.state = .established →
      ((d.feedData C now socketId (groups.map chunk)).map (fun d ↦ d.sessions socketId) =
          (d.feedData C now socketId (groups.flatten.map toBytes)).map
            (fun d ↦ d.sessions socketId) ↔
        (∀ g ∈ groups, ∀ p ∈ g.tail, p.ptype ≠ .encryptedData) ∨
          2 ^ 64 ≤ s.rxNonce.toNat + (groups.filterMap List.head?).countP isData)) := by
  have hflat : ∀ p ∈ groups.flatten, p.payload.length < 65536 := by
    simpa using fun p g hg hpg ↦ hp g hg p hpg
  rw [feedData_sessions hd, feedData_sessions hd, heads_chunks hp, heads_toBytes hflat]
  refine ⟨fun h ↦ by rw [deliver_groups h], fun hs ↦ ?_⟩
  rw [(Option.map_injective (Option.some_injective _)).eq_iff, deliver_established hs,
    deliver_established hs, countP_heads, advance_eq_iff, List.countP_eq_zero]
  refine or_congr_left ?_
  simp only [List.mem_flatten, List.mem_map, isData, decide_eq_true_eq]
  exact ⟨fun h g hg p hp ↦ h p ⟨_, ⟨g, hg, rfl⟩, hp⟩,
    fun h p ⟨_, ⟨g, hg, heq⟩, hp⟩ ↦ h g hg p (heq ▸ hp)⟩

def sampleSubsystem : DiscoverySubsystem :=
  ⟨Function.update (fun _ ↦ none) 7 (some BraneSession.sampleSession)⟩

def sampleData (n : U64) : SessionPacket :=
  ⟨.encryptedData, 1 :: Crypto.tag (BraneSession.sampleKey 3) (nonceOf n)⟩

theorem segmentation_disconnect :
    (sampleSubsystem.feedData .tagging 0 7
        [(sampleData 0).toBytes ++ (SessionPacket.mk .disconnect []).toBytes]).map
        (fun d ↦ d.sessions 7) =
      (sampleSubsystem.feedData .tagging 0 7
        ([sampleData 0, ⟨.disconnect, []⟩].map SessionPacket.toBytes)).map
        (fun d ↦ d.sessions 7) :=
  have hboth := segmentation_boundaries (C := .tagging) (d := sampleSubsystem) rfl
    (show ∀ g ∈ [[sampleData 0, ⟨.disconnect, []⟩]], ∀ p ∈ g, p.payload.length < 65536 by
      decide +kernel)
  hboth.1 (by decide +kernel)

/-- Two packets in one read: the second is dropped and the receive counter stays behind. -/
theorem coalesced_packet_lost :
    [(sampleData 0).toBytes ++ (sampleData 1).toBytes].flatten =
        ([sampleData 0, sampleData 1].map SessionPacket.toBytes).flatten ∧
      (sampleSubsystem.feedData .tagging 0 7
          [(sampleData 0).toBytes ++ (sampleData 1).toBytes]).map (fun d ↦ d.sessions 7) =
        some (some { BraneSession.sampleSession with rxNonce := 1 }) ∧
      (sampleSubsystem.feedData .tagging 0 7
          ([sampleData 0, sampleData 1].map SessionPacket.toBytes)).map (fun d ↦ d.sessions 7) =
        some (some { BraneSession.sampleSession with rxNonce := 2 }) ∧
      { BraneSession.sampleSession with rxNonce := 1 } ≠
        { BraneSession.sampleSession with rxNonce := 2 } := by
  decide +kernel

end DiscoverySubsystem

end BraneKernel
