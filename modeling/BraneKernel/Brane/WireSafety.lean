import BraneKernel.Brane.Wire

namespace BraneKernel

/-! ### Round trips -/

def Encoded {α β : Type} (enc : β → Bytes) (val : β → α) (bytes : α → Bytes) (a : α) : Prop :=
  ∃ b, enc b = bytes a ∧ val b = a

theorem encoded_list {α β : Type} {enc : β → Bytes} {val : β → α} {bytes : α → Bytes} {as : List α}
    (h : ∀ a ∈ as, Encoded enc val bytes a) :
    Encoded (fun bs : List β ↦ bs.flatMap enc) (List.map val) (fun as ↦ as.flatMap bytes) as := by
  induction as with
  | nil => exact ⟨[], rfl, rfl⟩
  | cons a as ih =>
    obtain ⟨b, hb, hv⟩ := h a List.mem_cons_self
    obtain ⟨bs, hbs, hvs⟩ := ih fun a ha ↦ h a (List.mem_cons_of_mem _ ha)
    dsimp only at hbs
    refine ⟨b :: bs, ?_, ?_⟩
    · dsimp only
      rw [List.flatMap_cons, List.flatMap_cons, hb, hbs]
    · rw [List.map_cons, hv, hvs]

theorem encoded_name {name : List Char} (h : (Utf8.encode name).length ≤ 255) :
    Encoded RawName.toBytes RawName.decode nameToBytes name :=
  ⟨⟨Utf8.encode name, Nat.lt_succ_of_le h⟩, rfl, Utf8.fromUtf8Lossy_encode name⟩

theorem encoded_offer {o : CapabilityOffer} (h : (Utf8.encode o.name).length ≤ 255) :
    Encoded RawOffer.toBytes RawOffer.decode CapabilityOffer.toBytes o := by
  obtain ⟨name, hb, hv⟩ := encoded_name h
  refine ⟨⟨name, o.permissionsBits, o.riskLevel⟩, ?_, ?_⟩
  · rw [RawOffer.toBytes, CapabilityOffer.toBytes, hb]
  · rw [RawOffer.decode, hv]

namespace CapabilityNegotiation

def names (n : CapabilityNegotiation) : List (List Char) :=
  n.offered.map CapabilityOffer.name ++ n.required

variable {n : CapabilityNegotiation}

/-- Every field is read back, and what follows the encoding is not looked at. -/
theorem fromBytes_toBytes (hoffered : n.offered.length ≤ 255)
    (hrequired : n.required.length ≤ 255)
    (hnames : ∀ name ∈ n.names, (Utf8.encode name).length ≤ 255) (rest : Bytes) :
    fromBytes (n.toBytes ++ rest) = some n := by
  obtain ⟨offers, ho, hov⟩ := encoded_list fun o ho ↦
    encoded_offer (hnames o.name (List.mem_append_left _ (List.mem_map_of_mem ho)))
  obtain ⟨required, hr, hrv⟩ := encoded_list fun name hname ↦
    encoded_name (hnames name (List.mem_append_right _ hname))
  have hlen : offers.length = n.offered.length := by rw [← hov, List.length_map]
  have hlen' : required.length = n.required.length := by rw [← hrv, List.length_map]
  dsimp only at ho hr
  let raw : RawNegotiation :=
    ⟨⟨offers, by omega⟩, ⟨required, by omega⟩, n.nodeId, n.timestamp⟩
  have hbytes : raw.toBytes = n.toBytes := by
    dsimp only [raw, RawNegotiation.toBytes]
    rw [toBytes, ho, hr, hlen, hlen']
  have hvalue : raw.decode = n := by rw [RawNegotiation.decode, hov, hrv]
  rw [← hbytes, ← hvalue]
  exact RawNegotiation.fromBytes_of_prefix (List.prefix_append ..)

theorem fromBytes_toBytes_two_offers :
    let n : CapabilityNegotiation :=
      ⟨[⟨"lecture".toList, 5, 0⟩, ⟨"écran".toList, 0x80000001, 3⟩], ["réseau".toList],
        ⟨List.replicate 16 0xA5, rfl⟩, 0xFFFFFFFFFFFFFFFE⟩
    fromBytes (n.toBytes ++ [0xFF, 0]) = some n :=
  fromBytes_toBytes (by decide) (by decide) (by decide +kernel) [0xFF, 0]

end CapabilityNegotiation

/-! ### Out-of-range indices

The readers once more, with an index or a range outside the bytes as a failure of its own: the
outer `none` is a panic, the inner one a rejected input. -/

namespace Indexed

def byte (data : Bytes) (i : ℕ) : Option (BitVec 8) := data[i]?

def range (data : Bytes) (start n : ℕ) : Option (Bytes.Sized n) :=
  if h : start + n ≤ data.length then some (data.slice start n h) else none

def nameFromBytes (data : Bytes) (offset : ℕ) : Option (Option (List Char × ℕ)) :=
  if data.length ≤ offset then some none
  else do
    let nameLen ← byte data offset
    if data.length < offset + 1 + nameLen.toNat then some none
    else do
      let name ← range data (offset + 1) nameLen.toNat
      some (some (Utf8.fromUtf8Lossy name.1, offset + 1 + nameLen.toNat))

def offerFromBytes (data : Bytes) (offset : ℕ) : Option (Option (CapabilityOffer × ℕ)) := do
  match ← nameFromBytes data offset with
  | none => some none
  | some (name, offset) =>
    if data.length < offset + 4 + 1 then some none
    else do
      let permBytes ← range data offset 4
      let riskLevel ← byte data (offset + 4)
      some (some (⟨name, BitVec.ofNat 32 (Bytes.ofLe permBytes.1), riskLevel⟩, offset + 5))

def readMany {α : Type} (read : ℕ → Option (Option (α × ℕ))) :
    ℕ → ℕ → Option (Option (List α × ℕ))
  | 0, offset => some (some ([], offset))
  | count + 1, offset => do
    match ← read offset with
    | none => some none
    | some (item, offset) =>
      let rest ← readMany read count offset
      some (rest.map fun r ↦ (item :: r.1, r.2))

def fromBytes (data : Bytes) : Option (Option CapabilityNegotiation) :=
  if data.length < 25 then some none
  else do
    let nodeId ← range data 0 16
    let tsBytes ← range data 16 8
    let offeredCount ← byte data 24
    match ← readMany (offerFromBytes data) offeredCount.toNat 25 with
    | none => some none
    | some (offered, offset) =>
      if data.length ≤ offset then some none
      else do
        let requiredCount ← byte data offset
        match ← readMany (nameFromBytes data) requiredCount.toNat (offset + 1) with
        | none => some none
        | some (required, _) =>
          some (some ⟨offered, required, nodeId, BitVec.ofNat 64 (Bytes.ofLe tsBytes.1)⟩)

variable {data : Bytes}

theorem byte_of_lt {i : ℕ} (h : i < data.length) : byte data i = some (data.get ⟨i, h⟩) :=
  List.getElem?_eq_getElem h

theorem range_of_le {start n : ℕ} (h : start + n ≤ data.length) :
    range data start n = some (data.slice start n h) := dif_pos h

theorem nameFromBytes_eq (offset : ℕ) :
    nameFromBytes data offset = some (BraneKernel.nameFromBytes data offset) := by
  unfold nameFromBytes BraneKernel.nameFromBytes
  by_cases h : data.length ≤ offset
  · rw [if_pos h, dif_pos h]
  · rw [if_neg h, dif_neg h, byte_of_lt (Nat.lt_of_not_le h), Option.bind_eq_bind, Option.bind_some]
    dsimp only
    split_ifs with h'
    · rfl
    · rw [range_of_le (Nat.le_of_not_lt h'), Option.bind_eq_bind, Option.bind_some]

theorem offerFromBytes_eq (offset : ℕ) :
    offerFromBytes data offset = some (CapabilityOffer.fromBytes data offset) := by
  unfold offerFromBytes CapabilityOffer.fromBytes
  rw [nameFromBytes_eq, Option.bind_eq_bind, Option.bind_some]
  cases BraneKernel.nameFromBytes data offset with
  | none => rfl
  | some found =>
    obtain ⟨name, offset⟩ := found
    dsimp only
    split_ifs with h
    · rfl
    · rw [range_of_le (by omega), Option.bind_eq_bind, Option.bind_some, byte_of_lt (by omega),
        Option.bind_eq_bind, Option.bind_some]

theorem readMany_eq {α : Type} {read : ℕ → Option (Option (α × ℕ))} {read' : ℕ → Option (α × ℕ)}
    (h : ∀ offset, read offset = some (read' offset)) (count offset : ℕ) :
    readMany read count offset = some (BraneKernel.readMany read' count offset) := by
  induction count generalizing offset with
  | zero => rfl
  | succ count ih =>
    rw [readMany, BraneKernel.readMany, h, Option.bind_eq_bind, Option.bind_some]
    cases read' offset with
    | none => rfl
    | some found =>
      dsimp only
      rw [ih, Option.bind_eq_bind, Option.bind_some]

theorem fromBytes_eq (data : Bytes) :
    fromBytes data = some (CapabilityNegotiation.fromBytes data) := by
  unfold fromBytes CapabilityNegotiation.fromBytes
  by_cases h : data.length < 25
  · rw [if_pos h, dif_pos h]
  · rw [if_neg h, dif_neg h, range_of_le (by omega), range_of_le (by omega),
      byte_of_lt (by omega)]
    dsimp only [Option.bind_eq_bind, Option.bind_some]
    rw [readMany_eq offerFromBytes_eq, Option.bind_some]
    cases BraneKernel.readMany (CapabilityOffer.fromBytes data) _ 25 with
    | none => rfl
    | some found =>
      dsimp only
      split_ifs with h'
      · rfl
      · rw [byte_of_lt (by omega), Option.bind_some, readMany_eq nameFromBytes_eq,
          Option.bind_some]
        cases BraneKernel.readMany (BraneKernel.nameFromBytes data) _ (found.2 + 1) with
        | none => rfl
        | some found => rfl

end Indexed

/-! ### Re-encoding -/

theorem RawName.toBytes_decode {name : RawName} (h : Utf8.Valid name.1) :
    nameToBytes name.decode = name.toBytes := by
  rw [nameToBytes, decode, h.encode_fromUtf8Lossy, toBytes]

theorem RawOffer.toBytes_decode {o : RawOffer} (h : Utf8.Valid o.name.1) :
    o.decode.toBytes = o.toBytes := by
  rw [CapabilityOffer.toBytes, decode, RawName.toBytes_decode h, toBytes]

theorem RawNegotiation.toBytes_decode {raw : RawNegotiation}
    (h : ∀ name ∈ raw.names, Utf8.Valid name.1) : raw.decode.toBytes = raw.toBytes := by
  have hoffered : (raw.offered.1.map RawOffer.decode).flatMap CapabilityOffer.toBytes =
      raw.offered.1.flatMap RawOffer.toBytes := by
    rw [List.flatMap_map]
    refine List.flatMap_congr fun o ho ↦ RawOffer.toBytes_decode ?_
    exact h o.name (List.mem_append_left _ (List.mem_map_of_mem ho))
  have hrequired : (raw.required.1.map RawName.decode).flatMap nameToBytes =
      raw.required.1.flatMap RawName.toBytes := by
    rw [List.flatMap_map]
    exact List.flatMap_congr fun name hname ↦
      RawName.toBytes_decode (h name (List.mem_append_right _ hname))
  rw [CapabilityNegotiation.toBytes, decode, hoffered, hrequired, List.length_map, List.length_map,
    toBytes]

/-- No index is out of range, and an accepted input starts with exactly one reading whose names
decode to the value; where they were valid, the value encodes to the bytes that were read. -/
theorem negotiation_parsing_faithful (data : Bytes) :
    Indexed.fromBytes data = some (CapabilityNegotiation.fromBytes data) ∧
      ∀ n, CapabilityNegotiation.fromBytes data = some n →
        (∃ raw : RawNegotiation, raw.toBytes <+: data) ∧
          ∀ raw : RawNegotiation, raw.toBytes <+: data →
            n = raw.decode ∧
              ((∀ name ∈ raw.names, Utf8.Valid name.1) → n.toBytes <+: data) := by
  refine ⟨Indexed.fromBytes_eq data, fun n h ↦ ⟨exists_raw_of_fromBytes h, ?_⟩⟩
  intro raw hraw
  have hn : n = raw.decode := by
    rw [RawNegotiation.fromBytes_of_prefix hraw] at h
    exact (Option.some.inj h).symm
  refine ⟨hn, fun hvalid ↦ ?_⟩
  rw [hn, RawNegotiation.toBytes_decode hvalid]
  exact hraw

end BraneKernel
