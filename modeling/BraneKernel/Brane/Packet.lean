import BraneKernel.Lib.Bytes

namespace BraneKernel

inductive SessionPacketType
  | handshakeInit | handshakeResponse | capabilityExchange | encryptedData | alert | disconnect
  deriving DecidableEq

def SessionPacketType.toByte : SessionPacketType → BitVec 8
  | .handshakeInit => 1
  | .handshakeResponse => 2
  | .capabilityExchange => 3
  | .encryptedData => 4
  | .alert => 5
  | .disconnect => 6

def SessionPacketType.tryFrom (value : BitVec 8) : Option SessionPacketType :=
  match value.toNat with
  | 1 => some .handshakeInit
  | 2 => some .handshakeResponse
  | 3 => some .capabilityExchange
  | 4 => some .encryptedData
  | 5 => some .alert
  | 6 => some .disconnect
  | _ => none

theorem SessionPacketType.tryFrom_toByte (t : SessionPacketType) : tryFrom t.toByte = some t := by
  cases t <;> rfl

structure SessionPacket where
  ptype : SessionPacketType
  payload : Bytes
  deriving DecidableEq

namespace SessionPacket

variable (p : SessionPacket)

def toBytes : Bytes :=
  [p.ptype.toByte, 0] ++ Bytes.le 2 (BitVec.ofNat 16 p.payload.length).toNat ++ p.payload

def parse (data : Bytes) : Option (SessionPacket × ℕ) :=
  if h : data.length < 4 then none
  else
    match SessionPacketType.tryFrom (data.get ⟨0, by omega⟩) with
    | none => none
    | some ptype =>
      let payloadLen := Bytes.ofLe (data.slice 2 2 (by omega)).1
      if h' : data.length < 4 + payloadLen then none
      else some (⟨ptype, (data.slice 4 payloadLen (by omega)).1⟩, 4 + payloadLen)

theorem length_toBytes : p.toBytes.length = 4 + p.payload.length := by
  simp only [toBytes, List.length_append, List.length_cons, List.length_nil, Bytes.length_le]

theorem parse_cons (t z b₀ b₁ : BitVec 8) (rest : Bytes) :
    parse (t :: z :: b₀ :: b₁ :: rest) = (SessionPacketType.tryFrom t).bind fun ptype ↦
      if rest.length < Bytes.ofLe [b₀, b₁] then none
      else some (⟨ptype, rest.take (Bytes.ofLe [b₀, b₁])⟩, 4 + Bytes.ofLe [b₀, b₁]) := by
  have hlen : (t :: z :: b₀ :: b₁ :: rest).length = rest.length + 4 := rfl
  rw [parse, dif_neg (by omega)]
  cases ht : SessionPacketType.tryFrom t with
  | none => simp [ht]
  | some ptype =>
    have hslice : (Bytes.slice (t :: z :: b₀ :: b₁ :: rest) 2 2 (by omega)).1 = [b₀, b₁] := rfl
    simp only [List.get_eq_getElem, List.getElem_cons_zero, ht, Option.bind_some, hslice]
    split_ifs with h h'
    · rfl
    · exact absurd h (by omega)
    · exact absurd h (by omega)
    · rfl

theorem parse_toBytes (r : Bytes) :
    parse (p.toBytes ++ r) = some (⟨p.ptype, (p.payload ++ r).take (p.payload.length % 65536)⟩,
      4 + p.payload.length % 65536) := by
  obtain ⟨n, hn⟩ : ∃ n, (BitVec.ofNat 16 p.payload.length).toNat = n := ⟨_, rfl⟩
  have hread : Bytes.ofLe [BitVec.ofNat 8 n, BitVec.ofNat 8 (n / 256)] = p.payload.length % 65536 := by
    have hval : n = p.payload.length % 65536 := by
      rw [← hn, BitVec.toNat_ofNat]
    calc Bytes.ofLe [BitVec.ofNat 8 n, BitVec.ofNat 8 (n / 256)] = n % 65536 := Bytes.ofLe_le 2 n
      _ = p.payload.length % 65536 := by rw [hval, Nat.mod_mod]
  have hshort : ¬ (p.payload ++ r).length < p.payload.length % 65536 := by
    have hle : p.payload.length % 65536 ≤ p.payload.length := Nat.mod_le _ _
    rw [List.length_append]
    omega
  have hbytes : p.toBytes ++ r =
      p.ptype.toByte :: 0 :: BitVec.ofNat 8 n :: BitVec.ofNat 8 (n / 256) :: (p.payload ++ r) := by
    rw [toBytes, hn]
    rfl
  rw [hbytes, parse_cons, SessionPacketType.tryFrom_toByte, Option.bind_some, hread, if_neg hshort]

/-- A packet survives the wire exactly when its length fits the header. -/
theorem parse_toBytes_iff (p : SessionPacket) (r : Bytes) :
    parse (p.toBytes ++ r) = some (p, p.toBytes.length) ↔ p.payload.length < 65536 := by
  rw [parse_toBytes, length_toBytes]
  constructor
  · intro h
    have hlen : 4 + p.payload.length % 65536 = 4 + p.payload.length :=
      (Prod.mk.inj (Option.some.inj h)).2
    omega
  · intro h
    rw [Nat.mod_eq_of_lt h, List.take_left' rfl]

end SessionPacket

end BraneKernel
