import BraneKernel.Brane.Lifecycle

namespace BraneKernel

namespace Crypto

theorem length_tag (key : Key) (nonce : Nonce) : (tag key nonce).length = 16 := by
  rw [tag, List.length_append, List.length_take, nonce.2, key.2]
  rfl

theorem decrypt_tagging (key : Key) (nonce nonce' : Nonce) (plaintext : Bytes) :
    tagging.decrypt key nonce' (plaintext ++ tag key nonce) =
      if tag key nonce = tag key nonce' then some plaintext else none := by
  have hlen : (plaintext ++ tag key nonce).length - 16 = plaintext.length := by
    rw [List.length_append, length_tag]
    omega
  dsimp only [tagging]
  rw [hlen, List.drop_left' rfl, List.take_left' rfl]

end Crypto

namespace BraneSession

def encryptAll (C : Crypto) :
    BraneSession → List Bytes → Option (BraneSession × List (Except SessionError SessionPacket))
  | s, [] => some (s, [])
  | s, data :: rest =>
    match s.encryptPayload C data with
    | none => none
    | some (s', r) => (encryptAll C s' rest).map fun out ↦ (out.1, r :: out.2)

def decryptAll (C : Crypto) :
    BraneSession → List Bytes → Option (BraneSession × List (Except SessionError Bytes))
  | s, [] => some (s, [])
  | s, data :: rest =>
    match s.decryptPayload C data with
    | none => none
    | some (s', r) => (decryptAll C s' rest).map fun out ↦ (out.1, r :: out.2)

variable {C : Crypto} {s s' a b : BraneSession} {engine : SessionCrypto} {n : U64} {data c p : Bytes}

section

variable (hs : s.state = .established) (he : s.cryptoEngine = some engine)
include hs he

theorem encryptPayload_some (hn : checkedSucc s.txNonce = some n) (data : Bytes) :
    s.encryptPayload C data = some ({ s with txNonce := n },
      (C.encrypt engine.key (nonceOf s.txNonce) data).elim (.error .decryptionFailed)
        fun c ↦ .ok ⟨.encryptedData, c⟩) := by
  rw [encryptPayload, if_neg (not_not_intro hs), getTxNonce, hn]
  dsimp only [Option.map_some]
  rw [he]
  dsimp only
  cases C.encrypt engine.key (nonceOf s.txNonce) data <;> rfl

theorem encryptPayload_ok (hn : checkedSucc s.txNonce = some n)
    (hc : C.encrypt engine.key (nonceOf s.txNonce) data = some c) :
    s.encryptPayload C data = some ({ s with txNonce := n }, .ok ⟨.encryptedData, c⟩) := by
  rw [encryptPayload_some hs he hn, hc]
  rfl

theorem encryptPayload_inv {r : Except SessionError SessionPacket}
    (h : s.encryptPayload C data = some (s', r)) :
    ∃ n, checkedSucc s.txNonce = some n ∧ s' = { s with txNonce := n } := by
  cases hn : checkedSucc s.txNonce with
  | none => simp [encryptPayload, hs, getTxNonce, hn] at h
  | some n =>
    rw [encryptPayload_some hs he hn] at h
    exact ⟨n, rfl, (Prod.mk.inj (Option.some.inj h)).1.symm⟩

theorem encrypt_of_ok (h : s.encryptPayload C data = some (s', .ok ⟨.encryptedData, c⟩)) :
    C.encrypt engine.key (nonceOf s.txNonce) data = some c := by
  obtain ⟨n, hn, -⟩ := encryptPayload_inv hs he h
  rw [encryptPayload_some hs he hn] at h
  cases hc : C.encrypt engine.key (nonceOf s.txNonce) data with
  | none =>
    rw [hc] at h
    cases h
  | some c' =>
    rw [hc] at h
    cases h
    rfl

theorem decryptPayload_some (hn : checkedSucc s.rxNonce = some n) (data : Bytes) :
    s.decryptPayload C data = some ({ s with rxNonce := n },
      (C.decrypt engine.key (nonceOf s.rxNonce) data).elim (.error .decryptionFailed) .ok) := by
  rw [decryptPayload, if_neg (not_not_intro hs), getRxNonce, hn]
  dsimp only [Option.map_some]
  rw [he]
  dsimp only
  cases C.decrypt engine.key (nonceOf s.rxNonce) data <;> rfl

theorem decryptPayload_inv {r : Except SessionError Bytes}
    (h : s.decryptPayload C data = some (s', r)) :
    ∃ n, checkedSucc s.rxNonce = some n ∧ s' = { s with rxNonce := n } ∧
      r = (C.decrypt engine.key (nonceOf s.rxNonce) data).elim (.error .decryptionFailed) .ok := by
  cases hn : checkedSucc s.rxNonce with
  | none => simp [decryptPayload, hs, getRxNonce, hn] at h
  | some n =>
    rw [decryptPayload_some hs he hn] at h
    obtain ⟨hs', hr⟩ := Prod.mk.inj (Option.some.inj h)
    exact ⟨n, rfl, hs'.symm, hr.symm⟩

theorem decryptPayload_ok (hn : checkedSucc s.rxNonce = some n)
    (hp : C.decrypt engine.key (nonceOf s.rxNonce) data = some p) :
    s.decryptPayload C data = some ({ s with rxNonce := n }, .ok p) := by
  rw [decryptPayload_some hs he hn, hp]
  rfl

end

/-- Established sessions that share a key and agree on the next counter carry
any list of payloads the sender can encrypt, in order and unchanged. -/
theorem in_order_channel (ha : a.state = .established) (hb : b.state = .established)
    (hka : a.cryptoEngine = some engine) (hkb : b.cryptoEngine = some engine)
    (hsync : a.txNonce = b.rxNonce) {payloads : List Bytes}
    (hfit : a.txNonce.toNat + payloads.length < 2 ^ 64)
    (hinverts : ∀ nonce p c, C.encrypt engine.key nonce p = some c →
      C.decrypt engine.key nonce c = some p) :
    ∃ a' rs, a.encryptAll C payloads = some (a', rs) ∧
      ∀ cs, rs = cs.map (fun c ↦ .ok ⟨.encryptedData, c⟩) →
        ∃ b', b.decryptAll C cs = some (b', payloads.map .ok) ∧ a'.txNonce = b'.rxNonce := by
  induction payloads generalizing a b with
  | nil =>
    refine ⟨a, [], rfl, fun cs hcs ↦ ?_⟩
    rw [List.map_eq_nil_iff.mp hcs.symm]
    exact ⟨b, rfl, hsync⟩
  | cons p rest ih =>
    rw [List.length_cons] at hfit
    obtain ⟨n, hn, hval⟩ := checkedSucc_of_lt (n := a.txNonce) (m := BitVec.allOnes 64)
      (by rw [BitVec.toNat_allOnes]; omega)
    obtain ⟨a', rs, henc, hdec⟩ := ih (a := { a with txNonce := n })
      (b := { b with rxNonce := n }) ha hb hka hkb rfl (by dsimp only; omega)
    obtain ⟨r, hr⟩ : ∃ r, a.encryptPayload C p = some ({ a with txNonce := n }, r) :=
      ⟨_, encryptPayload_some ha hka hn p⟩
    have hrun : a.encryptAll C (p :: rest) = some (a', r :: rs) := by
      rw [encryptAll, hr]
      dsimp only
      rw [henc]
      rfl
    refine ⟨a', r :: rs, hrun, fun cs hcs ↦ ?_⟩
    obtain ⟨c, cs, rfl, hc, hrest⟩ := List.map_eq_cons_iff.mp hcs.symm
    obtain ⟨b', hb', hsync'⟩ := hdec cs hrest.symm
    have hp := hinverts _ _ _ (encrypt_of_ok ha hka (hc ▸ hr))
    rw [hsync] at hp
    refine ⟨b', ?_, hsync'⟩
    rw [decryptAll, decryptPayload_ok hb hkb (hsync ▸ hn) hp]
    dsimp only
    rw [hb']
    rfl

theorem in_order_channel_copy : ∃ a' b' cs,
    sampleSession.encryptAll .tagging [[1, 2], []] = some (a', cs.map fun c ↦ .ok ⟨.encryptedData, c⟩) ∧
      sampleSession.decryptAll .tagging cs = some (b', [[1, 2], []].map .ok) ∧
      a'.txNonce = b'.rxNonce := by
  have hinverts (nonce : Nonce) (p c : Bytes) (h : Crypto.tagging.encrypt (sampleKey 3) nonce p = some c) :
      Crypto.tagging.decrypt (sampleKey 3) nonce c = some p := by
    cases h
    rw [Crypto.decrypt_tagging, if_pos rfl]
  have hfit : sampleSession.txNonce.toNat + [[1, 2], ([] : Bytes)].length < 2 ^ 64 := by decide
  obtain ⟨a', rs, henc, hdec⟩ := in_order_channel (a := sampleSession) (b := sampleSession)
    rfl rfl rfl rfl rfl hfit hinverts
  have hsent : (sampleSession.encryptAll .tagging [[1, 2], []]).map Prod.snd =
      some ([1 :: 2 :: Crypto.tag (sampleKey 3) (nonceOf 0), Crypto.tag (sampleKey 3) (nonceOf 1)].map
        fun c ↦ .ok ⟨.encryptedData, c⟩) := by decide +kernel
  rw [henc] at hsent
  obtain rfl := Option.some.inj hsent
  obtain ⟨b', hb', hsync⟩ := hdec _ rfl
  exact ⟨a', b', _, henc, hb', hsync⟩

/-- A payload whose ciphertext has 65536 bytes is announced as empty. -/
theorem long_payload_truncated : ∃ data s' p, data.length = 65520 ∧
    sampleSession.encryptPayload .tagging data = some (s', .ok p) ∧
      SessionPacket.parse p.toBytes = some (⟨.encryptedData, []⟩, 4) ∧ p.toBytes.length = 65540 := by
  obtain ⟨data, hdata⟩ : ∃ data : Bytes, data.length = 65520 :=
    ⟨List.replicate 65520 0, List.length_replicate⟩
  have hlen : (data ++ Crypto.tag (sampleKey 3) (nonceOf 0)).length = 65536 := by
    rw [List.length_append, hdata, Crypto.length_tag]
  refine ⟨data, _, ⟨.encryptedData, data ++ Crypto.tag (sampleKey 3) (nonceOf 0)⟩, hdata,
    encryptPayload_ok (n := 1) rfl rfl rfl rfl, ?_, ?_⟩
  · have hparse := SessionPacket.parse_toBytes
      ⟨.encryptedData, data ++ Crypto.tag (sampleKey 3) (nonceOf 0)⟩ []
    simpa only [List.append_nil, hlen, Nat.mod_self, List.take_zero, Nat.add_zero] using hparse
  · rw [SessionPacket.length_toBytes, hlen]

end BraneSession

end BraneKernel
