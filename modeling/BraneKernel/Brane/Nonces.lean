import BraneKernel.Brane.Lifecycle

namespace BraneKernel

namespace BraneSession

def used (s : BraneSession) : SessionCall → SessionReply → List (Key × Nonce)
  | .encryptPayload _, .packet _ =>
    (s.cryptoEngine.map fun e ↦ (e.key, nonceOf s.txNonce)).toList
  | _, _ => []

def derivedKey (C : Crypto) (s : BraneSession) : SessionCall → Option Key
  | .processHandshakeResponse payload =>
    if h : s.state = .waitResponse ∧ 0 + 32 ≤ payload.length then
      some (s.ephemeralKey.diffieHellman C (payload.slice 0 32 h.2))
    else none
  | _ => none

variable {s : BraneSession} {c : SessionCall} {r : SessionReply}

theorem used_error {e : SessionError} : s.used c (.error e) = [] := by
  cases c <;> rfl

theorem used_encrypt (data : Bytes) : s.used (.encryptPayload data) r = [] ∨
    ∃ e, s.cryptoEngine = some e ∧ s.used (.encryptPayload data) r = [(e.key, nonceOf s.txNonce)] := by
  cases r with
  | packet p =>
    cases he : s.cryptoEngine with
    | none => exact .inl (by rw [used, he]; rfl)
    | some e => exact .inr ⟨e, rfl, by rw [used, he]; rfl⟩
  | _ => exact .inl rfl

end BraneSession

structure Logged where
  session : BraneSession
  log : List (Key × Nonce)
  deriving DecidableEq

namespace Logged

open BraneSession (establishing sampleKey)

def call (C : Crypto) (l : Logged) (c : SessionCall) : Option Logged :=
  (l.session.call C c).map fun r ↦ ⟨r.1, l.log ++ l.session.used c r.2⟩

def Step (C : Crypto) (l : Logged) (c : SessionCall) (l' : Logged) : Prop := l.call C c = some l'

/-- The call does not go back to a key that has been encrypted under. -/
def FreshKey (C : Crypto) (l : Logged) (c : SessionCall) : Prop :=
  ∀ key ∈ l.session.derivedKey C c, ∀ entry ∈ l.log, entry.1 ≠ key

instance (C : Crypto) (l : Logged) (c : SessionCall) : Decidable (l.FreshKey C c) :=
  inferInstanceAs (Decidable (∀ key ∈ l.session.derivedKey C c, ∀ entry ∈ l.log, entry.1 ≠ key))

structure Distinct (l : Logged) : Prop where
  nodup : l.log.Nodup
  past : ∀ {e n}, l.session.cryptoEngine = some e → (e.key, n) ∈ l.log →
    ∃ m, n = nonceOf m ∧ m.toNat < l.session.txNonce.toNat

variable {C : Crypto} {l l' : Logged} {c : SessionCall}

theorem Distinct.encrypt (h : l.Distinct) {n : U64} (hn : checkedSucc l.session.txNonce = some n)
    (data : Bytes) (r : SessionReply) : Distinct
      ⟨{ l.session with txNonce := n }, l.log ++ l.session.used (.encryptPayload data) r⟩ := by
  have hval := checkedSucc_toNat hn
  rcases BraneSession.used_encrypt (s := l.session) (r := r) data with hu | ⟨e, he, hu⟩
  · rw [hu, List.append_nil]
    refine ⟨h.nodup, fun he hmem ↦ ?_⟩
    obtain ⟨m, hm, hlt⟩ := h.past he hmem
    exact ⟨m, hm, by dsimp only; omega⟩
  · rw [hu]
    refine ⟨?_, fun {e' n'} he' hmem ↦ ?_⟩
    · refine List.nodup_append.mpr ⟨h.nodup, List.nodup_singleton _, ?_⟩
      intro x hx y hy hxy
      obtain rfl := List.mem_singleton.mp hy
      subst hxy
      obtain ⟨m, hm, hlt⟩ := h.past he hx
      rw [nonceOf_injective hm] at hlt
      omega
    · dsimp only at he' hmem ⊢
      rcases List.mem_append.mp hmem with hmem | hmem
      · obtain ⟨m, hm, hlt⟩ := h.past he' hmem
        exact ⟨m, hm, by omega⟩
      · exact ⟨_, (Prod.mk.inj (List.mem_singleton.mp hmem)).2, by omega⟩

theorem Distinct.same (h : l.Distinct) {s : BraneSession} {pairs : List (Key × Nonce)}
    (he : s.cryptoEngine = l.session.cryptoEngine) (ht : s.txNonce = l.session.txNonce)
    (hp : pairs = []) : Distinct ⟨s, l.log ++ pairs⟩ := by
  rw [hp, List.append_nil]
  refine ⟨h.nodup, fun he' hmem ↦ ?_⟩
  dsimp only at he' ⊢
  rw [ht]
  exact h.past (he ▸ he') hmem

theorem Distinct.step (h : l.Distinct) (hfresh : l.FreshKey C c) (hs : l.Step C c l') :
    l'.Distinct := by
  obtain ⟨⟨s', r⟩, hr, rfl⟩ := Option.map_eq_some_iff.mp hs
  have heff := BraneSession.call_effect hr
  cases heff with
  | encrypted _ hn => exact h.encrypt hn _ _
  | @keyed payload hlen hstate =>
    -- The log has no pair of the new key, so the counter may start over.
    have hkey : l.session.derivedKey C (.processHandshakeResponse payload) = some _ :=
      dif_pos ⟨hstate, hlen⟩
    rw [show l.session.used (.processHandshakeResponse payload) .done = [] from rfl, List.append_nil]
    refine ⟨h.nodup, fun {e n} he hmem ↦ ?_⟩
    cases he
    exact absurd rfl (hfresh _ hkey _ hmem)
  | refused _ _ => exact h.same rfl rfl BraneSession.used_error
  | observed hc _ =>
    refine h.same rfl rfl ?_
    rcases hc with rfl | rfl <;> rfl
  | init | offered _ | established _ _ | decrypted _ _ | closed => exact h.same rfl rfl rfl

/-- As long as no handshake returns to a key that was encrypted under, no pair
of key and nonce is used twice. -/
theorem log_nodup {socketId : BitVec 32} {key : EphemeralKey} {calls : List SessionCall}
    (h : Trace.Run (Trace.Guarded (FreshKey C) (Step C)) ⟨.new socketId key, []⟩ calls l) :
    l.log.Nodup := by
  have hdistinct : l.Distinct := by
    apply h.invariant (I := Distinct)
    · exact ⟨List.nodup_nil, fun _ hmem ↦ absurd hmem List.not_mem_nil⟩
    · intro l c l' hl hs
      exact hl.step hs.1 hs.2
  exact hdistinct.nodup

def twoHandshakes (peer : Key) : List SessionCall :=
  establishing (sampleKey 2) ++ [.encryptPayload [1]] ++ establishing peer ++ [.encryptPayload [2]]

theorem log_nodup_two_peers : ∃ l, Trace.Run (Trace.Guarded (FreshKey .tagging) (Step .tagging))
      ⟨.new 7 ⟨sampleKey 1⟩, []⟩ (twoHandshakes (sampleKey 4)) l ∧ l.log.length = 2 ∧ l.log.Nodup := by
  have hlen : ((twoHandshakes (sampleKey 4)).foldlM
      (fun l c ↦ if FreshKey .tagging l c then Logged.call .tagging l c else none)
      ⟨.new 7 ⟨sampleKey 1⟩, []⟩).map (fun l ↦ l.log.length) = some 2 := by decide +kernel
  obtain ⟨l, hl, hlen⟩ := Option.map_eq_some_iff.mp hlen
  exact ⟨l, .of_guarded hl, hlen, log_nodup (.of_guarded hl)⟩

/-- A second handshake with the same peer starts the counter over under the same key. -/
theorem rehandshake_reuses_nonce : ∃ l, Trace.Run (Step .tagging)
      ⟨.new 7 ⟨sampleKey 1⟩, []⟩ (twoHandshakes (sampleKey 2)) l ∧
    l.log = [(sampleKey 3, nonceOf 0), (sampleKey 3, nonceOf 0)] ∧ ¬ l.log.Nodup := by
  have hlog : ((twoHandshakes (sampleKey 2)).foldlM (Logged.call .tagging)
      ⟨.new 7 ⟨sampleKey 1⟩, []⟩).map Logged.log =
        some [(sampleKey 3, nonceOf 0), (sampleKey 3, nonceOf 0)] := by decide +kernel
  obtain ⟨l, hl, hlog⟩ := Option.map_eq_some_iff.mp hlog
  exact ⟨l, .of_foldlM hl, hlog, by simp [hlog]⟩

end Logged

end BraneKernel
