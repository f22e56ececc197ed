import BraneKernel.Brane.Channel

namespace BraneKernel

inductive Arrival
  | genuine (plaintext ciphertext : Bytes)
  | forged (data : Bytes)

namespace Arrival

def bytes : Arrival → Bytes
  | .genuine _ c => c
  | .forged d => d

def isGenuine : Arrival → Bool
  | .genuine _ _ => true
  | .forged _ => false

end Arrival

/-- The packets of the peer are in order, each encrypted under the counter value
that is due, and whatever else arrives does not authenticate under it. -/
inductive Arrives (C : Crypto) (key : Key) : U64 → List Arrival → Prop
  | nil (n : U64) : Arrives C key n []
  | genuine {n n' : U64} {p c : Bytes} {rest : List Arrival} :
      C.encrypt key (nonceOf n) p = some c → checkedSucc n = some n' → Arrives C key n' rest →
      Arrives C key n (.genuine p c :: rest)
  | forged {n : U64} {d : Bytes} {rest : List Arrival} :
      C.decrypt key (nonceOf n) d = none → Arrives C key n rest →
      Arrives C key n (.forged d :: rest)

/-- Decryption inverts encryption, and accepts a ciphertext only under its own nonce. -/
structure Crypto.Authentic (C : Crypto) (key : Key) : Prop where
  inverts : ∀ {n p c}, C.encrypt key (nonceOf n) p = some c → C.decrypt key (nonceOf n) c = some p
  binds : ∀ {m n p q c}, C.encrypt key (nonceOf n) p = some c →
    C.decrypt key (nonceOf m) c = some q → m = n

theorem Crypto.authentic_tagging (key : Key) : Crypto.tagging.Authentic key where
  inverts {n p c} h := by
    cases h
    rw [decrypt_tagging, if_pos rfl]
  binds {m n p q c} h hd := by
    cases h
    rw [decrypt_tagging] at hd
    split_ifs at hd with htag
    exact (nonceOf_injective (Subtype.ext (List.append_cancel_right htag))).symm

theorem Arrives.due {C : Crypto} {key : Key} {n : U64} {pre post : List Arrival} {p c : Bytes}
    (h : Arrives C key n (pre ++ .genuine p c :: post)) :
    ∃ m m', C.encrypt key (nonceOf m) p = some c ∧ checkedSucc m = some m' ∧
      m.toNat = n.toNat + pre.countP Arrival.isGenuine := by
  induction pre generalizing n with
  | nil =>
    obtain ⟨⟩ | ⟨hc, hn, -⟩ := h
    exact ⟨n, _, hc, hn, rfl⟩
  | cons a pre ih =>
    cases h with
    | genuine hc hn hrest =>
      obtain ⟨m, m', hm, hm', hval⟩ := ih hrest
      refine ⟨m, m', hm, hm', ?_⟩
      rw [hval, checkedSucc_toNat hn, List.countP_cons_of_pos rfl]
      omega
    | forged _ hrest =>
      obtain ⟨m, m', hm, hm', hval⟩ := ih hrest
      exact ⟨m, m', hm, hm', by rw [hval, List.countP_cons_of_neg Bool.false_ne_true]⟩

namespace BraneSession

def feed (C : Crypto) (s : BraneSession) (arrivals : List Arrival) : Option BraneSession :=
  arrivals.foldlM (fun s a ↦ (s.decryptPayload C a.bytes).map Prod.fst) s

/-- Every packet of the peer decrypts to its plaintext. -/
def Delivers (C : Crypto) (s : BraneSession) (arrivals : List Arrival) : Prop :=
  ∀ pre p c post, arrivals = pre ++ .genuine p c :: post →
    ∃ s' s'', s.feed C pre = some s' ∧ s'.decryptPayload C c = some (s'', .ok p)

variable {C : Crypto} {s s' : BraneSession} {engine : SessionCrypto} {arrivals : List Arrival}

theorem feed_cons (a : Arrival) (rest : List Arrival) : s.feed C (a :: rest) =
    ((s.decryptPayload C a.bytes).map Prod.fst).bind fun s' ↦ s'.feed C rest :=
  List.foldlM_cons ..

section

variable (hs : s.state = .established) (he : s.cryptoEngine = some engine)
include hs he

theorem feed_some (h : s.feed C arrivals = some s') :
    s'.state = .established ∧ s'.cryptoEngine = some engine ∧
      s'.rxNonce.toNat = s.rxNonce.toNat + arrivals.length := by
  induction arrivals generalizing s with
  | nil =>
    cases h
    exact ⟨hs, he, rfl⟩
  | cons a rest ih =>
    rw [feed_cons] at h
    obtain ⟨t, ht, hrest⟩ := Option.bind_eq_some_iff.mp h
    obtain ⟨⟨t, r⟩, hr, rfl⟩ := Option.map_eq_some_iff.mp ht
    obtain ⟨n, hn, rfl, -⟩ := decryptPayload_inv hs he hr
    obtain ⟨hs', he', hval⟩ := ih (s := { s with rxNonce := n }) hs he hrest
    refine ⟨hs', he', ?_⟩
    rw [hval, checkedSucc_toNat hn, List.length_cons]
    omega

theorem feed_returns {m : U64} (hm : s.rxNonce.toNat + arrivals.length ≤ m.toNat) :
    ∃ s', s.feed C arrivals = some s' := by
  induction arrivals generalizing s with
  | nil => exact ⟨s, rfl⟩
  | cons a rest ih =>
    rw [List.length_cons] at hm
    obtain ⟨n, hn, hval⟩ := checkedSucc_of_lt (n := s.rxNonce) (m := m) (by omega)
    obtain ⟨s', hs'⟩ := ih (s := { s with rxNonce := n }) hs he (by dsimp only; omega)
    refine ⟨s', ?_⟩
    rw [feed_cons, decryptPayload_some hs he hn]
    exact hs'

theorem decrypt_due (hc : C.Authentic engine.key) (harr : Arrives C engine.key s.rxNonce arrivals)
    {pre post : List Arrival} {p c : Bytes} (heq : arrivals = pre ++ .genuine p c :: post) :
    (∃ s' s'', s.feed C pre = some s' ∧ s'.decryptPayload C c = some (s'', .ok p)) ↔
      ∀ a ∈ pre, a.isGenuine = true := by
  obtain ⟨m, m', henc, hm, hval⟩ := (heq ▸ harr).due
  rw [← List.countP_eq_length]
  constructor
  · intro h
    obtain ⟨s', s'', hfeed, hdec⟩ := h
    obtain ⟨hs', he', hrx⟩ := feed_some hs he hfeed
    obtain ⟨n, -, -, hok⟩ := decryptPayload_inv hs' he' hdec
    cases hd : C.decrypt engine.key (nonceOf s'.rxNonce) c with
    | none =>
      rw [hd] at hok
      cases hok
    | some q =>
      have hsame := congrArg BitVec.toNat (hc.binds henc hd)
      omega
  · intro h
    have hroom : s.rxNonce.toNat + pre.length ≤ m.toNat := by omega
    obtain ⟨s', hfeed⟩ := feed_returns (C := C) hs he hroom
    obtain ⟨hs', he', hrx⟩ := feed_some hs he hfeed
    have hsame : s'.rxNonce = m := BitVec.eq_of_toNat_eq (by omega)
    subst hsame
    exact ⟨s', _, hfeed, decryptPayload_ok hs' he' hm (hc.inverts henc)⟩

end

/-- Genuine packets all decrypt exactly when none of them comes after a packet
that fails authentication. -/
theorem delivers_iff (hs : s.state = .established) (he : s.cryptoEngine = some engine)
    (hc : C.Authentic engine.key) (harr : Arrives C engine.key s.rxNonce arrivals) :
    Delivers C s arrivals ↔ ∀ pre p c post, arrivals = pre ++ .genuine p c :: post →
      ∀ a ∈ pre, a.isGenuine = true := by
  constructor
  · intro h pre p c post heq
    exact (decrypt_due hs he hc harr heq).mp (h pre p c post heq)
  · intro h pre p c post heq
    exact (decrypt_due hs he hc harr heq).mpr (h pre p c post heq)

def samplePacket : Bytes := 1 :: Crypto.tag (sampleKey 3) (nonceOf 0)

theorem delivers_trailing : Delivers .tagging sampleSession [.genuine [1] samplePacket, .forged [9]] := by
  have harr : Arrives .tagging (sampleKey 3) 0 [.genuine [1] samplePacket, .forged [9]] :=
    .genuine rfl (show checkedSucc 0 = some 1 from rfl) (.forged (by decide +kernel) (.nil _))
  refine (delivers_iff rfl rfl (Crypto.authentic_tagging _) harr).mpr ?_
  intro pre p c post heq
  rcases pre with _ | ⟨a, _ | ⟨b, pre⟩⟩
  · exact nofun
  · simp at heq
  · simp at heq

/-- One forged packet moves the receive counter, and the genuine packet after it
no longer decrypts. -/
theorem forged_packet_desynchronises :
    Arrives .tagging (sampleKey 3) sampleSession.rxNonce [.forged [9], .genuine [1] samplePacket] ∧
      sampleSession.decryptPayload .tagging [9] =
        some ({ sampleSession with rxNonce := 1 }, .error .decryptionFailed) ∧
      ¬ Delivers .tagging sampleSession [.forged [9], .genuine [1] samplePacket] := by
  have hnext : checkedSucc 0 = some 1 := rfl
  refine ⟨.forged (by decide +kernel) (.genuine rfl hnext (.nil _)), by decide +kernel, ?_⟩
  intro h
  obtain ⟨s', s'', hfeed, hdec⟩ := h [.forged [9]] [1] samplePacket [] rfl
  have hs' : s' = { sampleSession with rxNonce := 1 } := by
    have hfeed' : sampleSession.feed .tagging [.forged [9]] = some { sampleSession with rxNonce := 1 } := by
      decide +kernel
    exact Option.some.inj (hfeed.symm.trans hfeed')
  subst hs'
  have hfail : ({ sampleSession with rxNonce := 1 }).decryptPayload .tagging samplePacket =
      some ({ sampleSession with rxNonce := 2 }, .error .decryptionFailed) := by decide +kernel
  cases hfail.symm.trans hdec

end BraneSession

end BraneKernel
