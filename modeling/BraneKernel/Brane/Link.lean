import BraneKernel.Brane.Channel
import Mathlib.Logic.Function.Basic

namespace BraneKernel

inductive Side
  | left | right
  deriving DecidableEq

/-- The two ends of a link, with the nonces drawn so far and the keys they went with. -/
structure Link where
  ends : Side → BraneSession
  log : List (Side × Key × Nonce)

namespace Link

def drawnBy (p : Side) (s : BraneSession) : List (Side × Key × Nonce) :=
  if s.state = .established then
    (s.cryptoEngine.map fun engine ↦ (p, engine.key, nonceOf s.txNonce)).toList
  else []

def encrypt (C : Crypto) (l : Link) (e : Side × Bytes) : Option Link :=
  ((l.ends e.1).encryptPayload C e.2).map fun r ↦
    ⟨Function.update l.ends e.1 r.1, l.log ++ drawnBy e.1 (l.ends e.1)⟩

def Step (C : Crypto) (l : Link) (e : Side × Bytes) (l' : Link) : Prop := l.encrypt C e = some l'

/-- Both ends have come out of a handshake with the same key. -/
structure Paired (ends : Side → BraneSession) (key : Key) : Prop where
  established : ∀ p, (ends p).state = .established
  keyed : ∀ p, (ends p).cryptoEngine = some ⟨key⟩
  fresh : ∀ p, (ends p).txNonce = 0

def rank (es : List (Side × Bytes)) (p : Side) (i : ℕ) : ℕ := (es.take i).countP (·.1 = p)

structure Numbered (key : Key) (es : List (Side × Bytes)) (l : Link) : Prop where
  established : ∀ p, (l.ends p).state = .established
  keyed : ∀ p, (l.ends p).cryptoEngine = some ⟨key⟩
  counter : ∀ p, (l.ends p).txNonce.toNat = es.countP (·.1 = p)
  length : l.log.length = es.length
  drawn : ∀ {i p data}, es[i]? = some (p, data) →
    ∃ m : U64, l.log[i]? = some (p, key, nonceOf m) ∧ m.toNat = rank es p i

variable {C : Crypto} {key : Key} {es : List (Side × Bytes)} {l l' : Link} {e : Side × Bytes}
  {ends : Side → BraneSession}

theorem Paired.numbered (h : Paired ends key) : Numbered key [] ⟨ends, []⟩ where
  established := h.established
  keyed := h.keyed
  counter p := by
    rw [h.fresh]
    rfl
  length := rfl
  drawn h := by simp at h

theorem rank_append {i : ℕ} (hi : i ≤ es.length) (p : Side) : rank (es ++ [e]) p i = rank es p i := by
  rw [rank, rank, List.take_append_of_le_length hi]

theorem Numbered.step_inv (h : Numbered key es l) (hs : l.Step C e l') :
    ∃ n, checkedSucc (l.ends e.1).txNonce = some n ∧
      l' = ⟨Function.update l.ends e.1 { l.ends e.1 with txNonce := n },
        l.log ++ [(e.1, key, nonceOf (l.ends e.1).txNonce)]⟩ := by
  obtain ⟨⟨s', r⟩, hr, rfl⟩ := Option.map_eq_some_iff.mp hs
  obtain ⟨n, hn, rfl⟩ := BraneSession.encryptPayload_inv (h.established e.1) (h.keyed e.1) hr
  have hdrawn : drawnBy e.1 (l.ends e.1) = [(e.1, key, nonceOf (l.ends e.1).txNonce)] := by
    rw [drawnBy, if_pos (h.established e.1), h.keyed e.1]
    rfl
  rw [hdrawn]
  exact ⟨n, hn, rfl⟩

theorem ends_update (ends : Side → BraneSession) (p q : Side) (n : U64) :
    (Function.update ends p { ends p with txNonce := n } q).state = (ends q).state ∧
    (Function.update ends p { ends p with txNonce := n } q).cryptoEngine = (ends q).cryptoEngine ∧
    (Function.update ends p { ends p with txNonce := n } q).txNonce =
      if p = q then n else (ends q).txNonce := by
  by_cases hq : p = q
  · subst hq
    simp
  · simp [hq, Ne.symm hq]

theorem Numbered.step (h : Numbered key es l) (hs : l.Step C e l') : Numbered key (es ++ [e]) l' := by
  obtain ⟨n, hn, rfl⟩ := h.step_inv hs
  have hval := checkedSucc_toNat hn
  refine ⟨fun q ↦ ?_, fun q ↦ ?_, fun q ↦ ?_, ?_, fun {i q data'} hi ↦ ?_⟩
  · exact (ends_update _ _ q n).1.trans (h.established q)
  · exact (ends_update _ _ q n).2.1.trans (h.keyed q)
  · rw [(ends_update _ _ q n).2.2, List.countP_append, ← h.counter q]
    split_ifs with hq
    · simpa [hq] using hval
    · simp [hq]
  · rw [List.length_append, List.length_append, h.length]
    rfl
  · rcases Nat.lt_trichotomy i es.length with hlt | rfl | hgt
    · rw [List.getElem?_append_left hlt] at hi
      obtain ⟨m, hm, hrank⟩ := h.drawn hi
      refine ⟨m, ?_, hrank.trans (rank_append hlt.le q).symm⟩
      rw [List.getElem?_append_left (h.length ▸ hlt), hm]
    · cases (List.getElem?_concat_length).symm.trans hi
      refine ⟨(l.ends q).txNonce, ?_, ?_⟩
      · rw [← h.length]
        exact List.getElem?_concat_length
      · rw [rank_append le_rfl, h.counter, rank, List.take_length]
    · cases (List.getElem?_eq_none (by simp; omega)).symm.trans hi

theorem numbered_run (h : Paired ends key) (hrun : Trace.Run (Step C) ⟨ends, []⟩ es l) :
    Numbered key es l := by
  apply hrun.history (I := Numbered key)
  · exact h.numbered
  · intro es l e l' hl hs
    exact hl.step hs

theorem rank_lt {i j : ℕ} {p : Side} {data : Bytes} (hij : i < j) (hi : es[i]? = some (p, data)) :
    rank es p i < rank es p j := by
  have hnext : rank es p (i + 1) = rank es p i + 1 := by
    rw [rank, List.take_add_one, hi, List.countP_append]
    simp [rank]
  have hle : rank es p (i + 1) ≤ rank es p j :=
    (List.take_prefix_take_left hij).sublist.countP_le
  omega

theorem Numbered.entry (h : Numbered key es l) {i : ℕ} {p : Side} {k : Key × Nonce}
    (hi : l.log[i]? = some (p, k)) :
    ∃ m data, es[i]? = some (p, data) ∧ k = (key, nonceOf m) ∧ m.toNat = rank es p i := by
  obtain ⟨hlt, -⟩ := List.getElem?_eq_some_iff.mp hi
  rw [h.length] at hlt
  have hes : es[i]? = some es[i] := List.getElem?_eq_getElem hlt
  obtain ⟨m, hm, hrank⟩ := h.drawn hes
  obtain ⟨rfl, rfl⟩ := Prod.mk.inj (Option.some.inj (hi.symm.trans hm))
  exact ⟨m, _, hes, rfl, hrank⟩

/-- Every encryption on a link draws a nonce. Two of the same side never share
it. Those of different sides share it exactly when each has the same number among
the calls of its own side. -/
theorem nonces_per_side (h : Paired ends key) (hrun : Trace.Run (Step C) ⟨ends, []⟩ es l) :
    l.log.length = es.length ∧ ∀ i j p q k k', i < j → l.log[i]? = some (p, k) →
      l.log[j]? = some (q, k') → (k = k' ↔ p ≠ q ∧ rank es p i = rank es q j) := by
  have hnum := numbered_run h hrun
  refine ⟨hnum.length, fun i j p q k k' hij hi hj ↦ ?_⟩
  obtain ⟨m, data, hes, rfl, hm⟩ := hnum.entry hi
  obtain ⟨m', data', hes', rfl, hm'⟩ := hnum.entry hj
  have hlt := rank_lt hij hes
  constructor
  · intro hk
    have hmm := congrArg BitVec.toNat (nonceOf_injective (Prod.mk.inj hk).2)
    refine ⟨?_, by omega⟩
    intro hpq
    subst hpq
    omega
  · intro hk
    rw [BitVec.eq_of_toNat_eq (show m.toNat = m'.toNat by omega)]

end Link

def Side.peer : Side → Side
  | .left => .right
  | .right => .left

namespace Link

open BraneSession (callAll new sampleKey sampleSession)

variable {C : Crypto} {ends : Side → BraneSession}

theorem paired_of_handshake (hagree : ∀ a b, C.agree a (C.publicKey b) = C.agree b (C.publicKey a))
    (secrets : Side → Key) (socketIds : Side → BitVec 32) {payloads : Side → Bytes}
    {negs : Side → CapabilityNegotiation} (times : Side → U64)
    (hneg : ∀ p, CapabilityNegotiation.fromBytes (payloads p) = some (negs p))
    (h : ∀ p, (new (socketIds p) ⟨secrets p⟩).callAll C [.buildHandshakeInit,
      .processHandshakeResponse (C.publicKey (secrets p.peer)).1,
      .processCapabilityExchange (payloads p) (times p)] = some (ends p)) :
    Paired ends (C.agree (secrets .left) (C.publicKey (secrets .right))) := by
  have hlen (key : Key) : ¬ key.1.length < 32 := by
    rw [key.2]
    omega
  have hslice (key : Key) := Bytes.slice_all key (by rw [key.2])
  simp only [callAll, BraneSession.call, BraneSession.buildHandshakeInit, new,
    BraneSession.processHandshakeResponse, hlen, hslice, BraneSession.processCapabilityExchange, hneg,
    EphemeralKey.diffieHellman, ne_eq, BitVec.ofNat_eq_ofNat, ite_not, List.foldlM_cons,
    List.foldlM_nil, Option.map_some, Option.pure_def, Option.bind_eq_bind, Option.bind_some,
    Option.some.injEq, ↓reduceDIte, ↓reduceIte] at h
  refine ⟨fun p ↦ ?_, fun p ↦ ?_, fun p ↦ ?_⟩
  · rw [← h]
  · rw [← h]
    cases p with
    | left => rfl
    | right => exact congrArg (fun key ↦ some (SessionCrypto.mk key)) (hagree _ _)
  · rw [← h]
    rfl

def sampleEnds : Side → BraneSession
  | .left => sampleSession
  | .right => { sampleSession with socketId := 8, ephemeralKey := ⟨sampleKey 2⟩ }

theorem paired_sample : Paired sampleEnds (sampleKey 3) := by
  have hagree (a b : Key) : Crypto.tagging.agree a (Crypto.tagging.publicKey b) =
      Crypto.tagging.agree b (Crypto.tagging.publicKey a) :=
    Subtype.ext (List.zipWith_comm_of_comm BitVec.xor_comm)
  have hkey : Crypto.tagging.agree (sampleKey 1) (Crypto.tagging.publicKey (sampleKey 2)) =
      sampleKey 3 := by decide +kernel
  rw [← hkey]
  have hneg (_ : Side) : CapabilityNegotiation.fromBytes (List.replicate 26 0) =
      some (.new ⟨List.replicate 16 0, List.length_replicate⟩ 0) := by decide +kernel
  refine paired_of_handshake hagree (fun p ↦ sampleKey (if p = .left then 1 else 2))
    (fun p ↦ if p = .left then 7 else 8) (fun _ ↦ 9) hneg fun p ↦ ?_
  cases p <;> decide +kernel

theorem nonces_per_side_left : ∃ l k k',
    Trace.Run (Step .tagging) ⟨sampleEnds, []⟩ [(.left, [1]), (.left, [2])] l ∧
      l.log[0]? = some (.left, k) ∧ l.log[1]? = some (.left, k') ∧ k ≠ k' := by
  have hlog : (([(.left, [1]), (.left, [2])] : List (Side × Bytes)).foldlM (Link.encrypt .tagging)
      ⟨sampleEnds, []⟩).map Link.log =
        some [(.left, sampleKey 3, nonceOf 0), (.left, sampleKey 3, nonceOf 1)] := by decide +kernel
  obtain ⟨l, hl, hlog⟩ := Option.map_eq_some_iff.mp hlog
  have hrun := Trace.Run.of_foldlM hl
  have hi : l.log[0]? = some (.left, sampleKey 3, nonceOf 0) := by rw [hlog]; rfl
  have hj : l.log[1]? = some (.left, sampleKey 3, nonceOf 1) := by rw [hlog]; rfl
  refine ⟨l, _, _, hrun, hi, hj, fun hk ↦ ?_⟩
  exact (((nonces_per_side paired_sample hrun).2 0 1 _ _ _ _ (by decide) hi hj).mp hk).1 rfl

/-- The first encryptions of the two sides share key and nonce. -/
theorem directions_share_nonce : ∃ l,
    Paired sampleEnds (sampleKey 3) ∧
      Trace.Run (Step .tagging) ⟨sampleEnds, []⟩ [(.left, [1]), (.right, [2])] l ∧
      l.log = [(.left, sampleKey 3, nonceOf 0), (.right, sampleKey 3, nonceOf 0)] := by
  have hlog : (([(.left, [1]), (.right, [2])] : List (Side × Bytes)).foldlM (Link.encrypt .tagging)
      ⟨sampleEnds, []⟩).map Link.log =
        some [(.left, sampleKey 3, nonceOf 0), (.right, sampleKey 3, nonceOf 0)] := by decide +kernel
  obtain ⟨l, hl, hlog⟩ := Option.map_eq_some_iff.mp hlog
  exact ⟨l, paired_sample, .of_foldlM hl, hlog⟩

end Link

end BraneKernel
