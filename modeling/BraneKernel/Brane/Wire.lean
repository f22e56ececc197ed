import BraneKernel.Brane.Capability

namespace BraneKernel

abbrev RawName := { bytes : Bytes // bytes.length < 256 }

def RawName.toBytes (name : RawName) : Bytes := BitVec.ofNat 8 name.1.length :: name.1

def RawName.decode (name : RawName) : List Char := Utf8.fromUtf8Lossy name.1

structure RawOffer where
  name : RawName
  permissionsBits : BitVec 32
  riskLevel : BitVec 8

def RawOffer.toBytes (o : RawOffer) : Bytes :=
  o.name.toBytes ++ Bytes.le 4 o.permissionsBits.toNat ++ [o.riskLevel]

def RawOffer.decode (o : RawOffer) : CapabilityOffer :=
  ⟨o.name.decode, o.permissionsBits, o.riskLevel⟩

structure RawNegotiation where
  offered : { offers : List RawOffer // offers.length < 256 }
  required : { names : List RawName // names.length < 256 }
  nodeId : Bytes.Sized 16
  timestamp : U64

namespace RawNegotiation

def toBytes (n : RawNegotiation) : Bytes :=
  n.nodeId.1 ++ Bytes.le 8 n.timestamp.toNat ++
    [BitVec.ofNat 8 n.offered.1.length] ++ n.offered.1.flatMap RawOffer.toBytes ++
    [BitVec.ofNat 8 n.required.1.length] ++ n.required.1.flatMap RawName.toBytes

def decode (n : RawNegotiation) : CapabilityNegotiation :=
  ⟨n.offered.1.map RawOffer.decode, n.required.1.map RawName.decode, n.nodeId, n.timestamp⟩

def names (n : RawNegotiation) : List RawName := n.offered.1.map RawOffer.name ++ n.required.1

end RawNegotiation

/-- A reader that takes in exactly the encodings `enc b`, and makes `val b` of them. -/
def Reads {α β : Type} (data : Bytes) (read : ℕ → Option (α × ℕ)) (enc : β → Bytes)
    (val : β → α) : Prop :=
  ∀ {offset a offset'}, read offset = some (a, offset') ↔
    ∃ b, enc b <+: data.drop offset ∧ val b = a ∧ offset + (enc b).length = offset'

variable {data : Bytes}

theorem RawName.toBytes_prefix_iff {name : RawName} {b : BitVec 8} {bytes : Bytes} :
    name.toBytes <+: b :: bytes ↔ name.1.length = b.toNat ∧ name.1 <+: bytes := by
  rw [toBytes, List.cons_prefix_cons]
  refine and_congr ?_ Iff.rfl
  constructor
  · intro h
    rw [← h, BitVec.toNat_ofNat, Nat.mod_eq_of_lt name.2]
  · intro h
    rw [h, BitVec.ofNat_toNat, BitVec.setWidth_eq]

theorem nameFromBytes_reads : Reads data (nameFromBytes data) RawName.toBytes RawName.decode := by
  intro offset text offset'
  unfold nameFromBytes
  by_cases h : data.length ≤ offset
  · rw [dif_pos h, List.drop_eq_nil_of_le h]
    simp [RawName.toBytes]
  · rw [dif_neg h, List.drop_eq_getElem_cons (Nat.lt_of_not_le h)]
    simp only [List.get_eq_getElem]
    split_ifs with h'
    · refine ⟨by simp, ?_⟩
      intro hname
      obtain ⟨name, hp, -, -⟩ := hname
      rw [RawName.toBytes_prefix_iff] at hp
      have hlen := hp.2.length_le
      rw [List.length_drop, hp.1] at hlen
      omega
    · have hlen : ((data.drop (offset + 1)).take data[offset].toNat).length = data[offset].toNat := by
        rw [List.length_take, List.length_drop]
        omega
      have hfit : ((data.drop (offset + 1)).take data[offset].toNat).length < 256 :=
        lt_of_eq_of_lt hlen data[offset].isLt
      rw [Option.some_inj, Prod.mk.injEq]
      constructor
      · intro he
        refine ⟨⟨_, hfit⟩, ?_, he.1, ?_⟩
        · exact RawName.toBytes_prefix_iff.mpr ⟨hlen, List.take_prefix ..⟩
        · rw [← he.2, RawName.toBytes, List.length_cons, hlen]
          omega
      · intro hname
        obtain ⟨name, hp, rfl, rfl⟩ := hname
        rw [RawName.toBytes_prefix_iff, List.prefix_iff_eq_take] at hp
        rw [RawName.toBytes, List.length_cons, RawName.decode, hp.2, hp.1, hlen]
        exact ⟨rfl, by omega⟩

theorem RawOffer.toBytes_prefix_iff {o : RawOffer} {offset : ℕ} :
    o.toBytes <+: data.drop offset ↔
      o.name.toBytes <+: data.drop offset ∧
        Bytes.le 4 o.permissionsBits.toNat <+: data.drop (offset + o.name.toBytes.length) ∧
        data[offset + o.name.toBytes.length + 4]? = some o.riskLevel := by
  rw [toBytes, Bytes.append_prefix_iff, Bytes.append_prefix_iff, Bytes.singleton_prefix_iff,
    List.getElem?_drop, List.getElem?_drop, List.drop_drop, List.length_append, Bytes.length_le,
    and_assoc, Nat.add_zero, Nat.add_assoc]

theorem fields_iff {offset : ℕ} {permissionsBits : BitVec 32} {riskLevel : BitVec 8} :
    Bytes.le 4 permissionsBits.toNat <+: data.drop offset ∧ data[offset + 4]? = some riskLevel ↔
      ∃ h : offset + 4 + 1 ≤ data.length,
        BitVec.ofNat 32 (Bytes.ofLe (data.slice offset 4 (by omega)).1) = permissionsBits ∧
          data.get ⟨offset + 4, h⟩ = riskLevel := by
  rw [Bytes.le_prefix_iff (by decide), List.getElem?_eq_some_iff, List.length_drop]
  constructor
  · intro h
    obtain ⟨⟨_, hp⟩, hlen, hr⟩ := h
    exact ⟨hlen, hp, hr⟩
  · intro h
    obtain ⟨hlen, hp, hr⟩ := h
    exact ⟨⟨by omega, hp⟩, hlen, hr⟩

theorem offer_reads :
    Reads data (CapabilityOffer.fromBytes data) RawOffer.toBytes RawOffer.decode := by
  intro offset o offset'
  unfold CapabilityOffer.fromBytes
  constructor
  · intro h
    split at h
    next => cases h
    next name offset₁ hn =>
      obtain ⟨raw, hp, rfl, rfl⟩ := nameFromBytes_reads.mp hn
      split_ifs at h with hlen
      cases h
      refine ⟨⟨raw, _, _⟩, ?_, rfl, ?_⟩
      · rw [RawOffer.toBytes_prefix_iff, fields_iff]
        exact ⟨hp, Nat.le_of_not_lt hlen, rfl, rfl⟩
      · simp [RawOffer.toBytes]
        omega
  · intro h
    obtain ⟨raw, hp, rfl, rfl⟩ := h
    rw [RawOffer.toBytes_prefix_iff, fields_iff] at hp
    obtain ⟨hn, hlen, hperm, hrisk⟩ := hp
    rw [nameFromBytes_reads.mpr ⟨raw.name, hn, rfl, rfl⟩]
    dsimp only
    rw [dif_neg (Nat.not_lt_of_le hlen), hperm, hrisk]
    simp [RawOffer.toBytes, RawOffer.decode]
    omega

theorem Reads.readMany {α β : Type} {read : ℕ → Option (α × ℕ)} {enc : β → Bytes} {val : β → α}
    (hread : Reads data read enc val) {count offset offset' : ℕ} {as : List α} :
    readMany read count offset = some (as, offset') ↔
      ∃ bs : List β, bs.length = count ∧ bs.flatMap enc <+: data.drop offset ∧ bs.map val = as ∧
        offset + (bs.flatMap enc).length = offset' := by
  induction count generalizing offset offset' as with
  | zero =>
    rw [BraneKernel.readMany, Option.some_inj, Prod.mk.injEq]
    constructor
    · intro h
      obtain ⟨rfl, rfl⟩ := h
      exact ⟨[], rfl, List.nil_prefix, rfl, rfl⟩
    · intro h
      obtain ⟨bs, hlen, -, rfl, rfl⟩ := h
      rw [List.length_eq_zero_iff.mp hlen]
      exact ⟨rfl, rfl⟩
  | succ count ih =>
    rw [BraneKernel.readMany]
    constructor
    · intro h
      split at h
      next => cases h
      next a offset₁ ha =>
        obtain ⟨b, hb, rfl, rfl⟩ := hread.mp ha
        obtain ⟨⟨as', offset₂⟩, hmany, he⟩ := Option.map_eq_some_iff.mp h
        cases he
        obtain ⟨bs, rfl, hbs, rfl, rfl⟩ := ih.mp hmany
        refine ⟨b :: bs, rfl, ?_, rfl, ?_⟩
        · rw [List.flatMap_cons, Bytes.append_prefix_iff, List.drop_drop]
          exact ⟨hb, hbs⟩
        · rw [List.flatMap_cons, List.length_append, Nat.add_assoc]
    · intro h
      obtain ⟨bs, hlen, hp, rfl, rfl⟩ := h
      obtain ⟨b, bs, rfl⟩ := List.exists_cons_of_length_eq_add_one hlen
      rw [List.flatMap_cons, Bytes.append_prefix_iff, List.drop_drop] at hp
      rw [hread.mpr ⟨b, hp.1, rfl, rfl⟩]
      dsimp only
      rw [ih.mpr ⟨bs, Nat.succ.inj hlen, hp.2, rfl, rfl⟩, Option.map_some, List.flatMap_cons,
        List.length_append, Nat.add_assoc, List.map_cons]

namespace RawNegotiation

variable {raw : RawNegotiation}

theorem toBytes_prefix_iff :
    raw.toBytes <+: data ↔
      raw.nodeId.1 <+: data ∧ Bytes.le 8 raw.timestamp.toNat <+: data.drop 16 ∧
        data[24]? = some (BitVec.ofNat 8 raw.offered.1.length) ∧
        raw.offered.1.flatMap RawOffer.toBytes <+: data.drop 25 ∧
        data[25 + (raw.offered.1.flatMap RawOffer.toBytes).length]? =
          some (BitVec.ofNat 8 raw.required.1.length) ∧
        raw.required.1.flatMap RawName.toBytes <+:
          data.drop (25 + (raw.offered.1.flatMap RawOffer.toBytes).length + 1) := by
  simp only [toBytes, Bytes.append_prefix_iff, Bytes.singleton_prefix_iff, List.getElem?_drop,
    List.length_append, Bytes.length_le, raw.nodeId.2, List.length_singleton, and_assoc,
    Nat.add_zero, Nat.reduceAdd]

theorem fromBytes_of_prefix (h : raw.toBytes <+: data) :
    CapabilityNegotiation.fromBytes data = some raw.decode := by
  obtain ⟨hid, hts, hcount, hoffers, hcount', hnames⟩ := toBytes_prefix_iff.mp h
  obtain ⟨hlen, hcount⟩ := List.getElem?_eq_some_iff.mp hcount
  obtain ⟨hlen', hcount'⟩ := List.getElem?_eq_some_iff.mp hcount'
  have hid : data.slice 0 16 (by omega) = raw.nodeId := by
    apply Subtype.ext
    rw [List.prefix_iff_eq_take, raw.nodeId.2] at hid
    exact hid.symm
  rw [Bytes.le_prefix_iff (by decide)] at hts
  have hoffers := offer_reads.readMany.mpr ⟨_, rfl, hoffers, rfl, rfl⟩
  have hnames := nameFromBytes_reads.readMany.mpr ⟨_, rfl, hnames, rfl, rfl⟩
  unfold CapabilityNegotiation.fromBytes
  rw [dif_neg (by omega)]
  simp only [List.get_eq_getElem, hcount, BitVec.toNat_ofNat, Nat.mod_eq_of_lt raw.offered.2,
    hoffers]
  rw [dif_neg (Nat.not_le_of_lt hlen')]
  simp only [hcount', BitVec.toNat_ofNat, Nat.mod_eq_of_lt raw.required.2, hnames, hid]
  rw [decode, ← hts.2]
  rfl

end RawNegotiation

theorem count_byte {i count : ℕ} {h : i < data.length} (hc : count = (data.get ⟨i, h⟩).toNat) :
    count < 256 ∧ data[i]? = some (BitVec.ofNat 8 count) := by
  subst hc
  refine ⟨BitVec.isLt _, ?_⟩
  rw [BitVec.ofNat_toNat, BitVec.setWidth_eq, List.get_eq_getElem]
  exact List.getElem?_eq_getElem h

theorem exists_raw_of_fromBytes {n : CapabilityNegotiation}
    (h : CapabilityNegotiation.fromBytes data = some n) :
    ∃ raw : RawNegotiation, raw.toBytes <+: data := by
  unfold CapabilityNegotiation.fromBytes at h
  by_cases hlen : data.length < 25
  · cases (dif_pos hlen).symm.trans h
  · rw [dif_neg hlen] at h
    dsimp only at h
    split at h
    next => cases h
    next offered offset hoffers =>
      obtain ⟨offers, hcount, hp, -, rfl⟩ := offer_reads.readMany.mp hoffers
      by_cases hlen' : data.length ≤ 25 + (offers.flatMap RawOffer.toBytes).length
      · cases (dif_pos hlen').symm.trans h
      · rw [dif_neg hlen'] at h
        split at h
        next => cases h
        next required _ hnames =>
          obtain ⟨names, hcount', hp', -, -⟩ := nameFromBytes_reads.readMany.mp hnames
          obtain ⟨hfit, hcount⟩ := count_byte hcount
          obtain ⟨hfit', hcount'⟩ := count_byte hcount'
          refine ⟨⟨⟨offers, hfit⟩, ⟨names, hfit'⟩, data.slice 0 16 (by omega),
            BitVec.ofNat 64 (Bytes.ofLe (data.slice 16 8 (by omega)).1)⟩, ?_⟩
          rw [RawNegotiation.toBytes_prefix_iff, Bytes.le_prefix_iff (by decide)]
          refine ⟨List.take_prefix .., ⟨?_, rfl⟩, hcount, hp, hcount', hp'⟩
          rw [List.length_drop]
          omega

end BraneKernel
