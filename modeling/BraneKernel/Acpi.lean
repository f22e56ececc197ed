import BraneKernel.Basic
import BraneKernel.Lib.Bytes

namespace BraneKernel.Acpi

def pkgLengthBytes (bytes : Bytes) : ℕ → ℕ → ℕ → ℕ → Option (ℕ × ℕ)
  | 0, _, length, cursor => some (length, cursor)
  | following + 1, index, length, cursor => do
    let value ← bytes[cursor]?
    pkgLengthBytes bytes following (index + 1) (length ||| value.toNat <<< (4 + index * 8)) (cursor + 1)

def parsePkgLength (bytes : Bytes) (cursor : ℕ) : Option (ℕ × ℕ) := do
  let lead ← bytes[cursor]?
  let following := (lead >>> 6).toNat
  let length := if following = 0 then (lead &&& 0x3f).toNat else (lead &&& 0x0f).toNat
  let (length, next) ← pkgLengthBytes bytes following 0 length (cursor + 1)
  return (cursor + length, next)

def parseAmlInteger (bytes : Bytes) (cursor : ℕ) : Option (U64 × ℕ) := do
  let opcode ← bytes[cursor]?
  if opcode = 0x00 then some (0, cursor + 1)
  else if opcode = 0x01 then some (1, cursor + 1)
  else if opcode = 0xff then some (BitVec.allOnes 64, cursor + 1)
  else if opcode = 0x0a then (Bytes.wordAt 64 bytes (cursor + 1) 1).map (·, cursor + 1 + 1)
  else if opcode = 0x0b then (Bytes.wordAt 64 bytes (cursor + 1) 2).map (·, cursor + 1 + 2)
  else if opcode = 0x0c then (Bytes.wordAt 64 bytes (cursor + 1) 4).map (·, cursor + 1 + 4)
  else if opcode = 0x0e then (Bytes.wordAt 64 bytes (cursor + 1) 8).map (·, cursor + 1 + 8)
  else none

inductive ScanTurn
  | next
  | leave
  | found (typa typb : BitVec 8)
  deriving DecidableEq

def sleepElements (aml : Bytes) (packageEnd cursor : ℕ) : ScanTurn :=
  match parseAmlInteger aml cursor with
  | none => .leave
  | some (typa, cursor) =>
    match parseAmlInteger aml cursor with
    | none => .leave
    | some (typb, cursor) =>
      if cursor ≤ packageEnd ∧ typa ≤ 7 ∧ typb ≤ 7 then .found (typa.setWidth 8) (typb.setWidth 8)
      else .next

def sleepTurn (aml name : Bytes) (index : ℕ) : Option ScanTurn :=
  if (aml.drop index).take 4 ≠ name then some .next
  else if aml[index + 4]? ≠ some 0x12 then some .next
  else
    match parsePkgLength aml (index + 4 + 1) with
    | none => some .leave
    | some (packageEnd, cursor) =>
      if aml.length < packageEnd ∨ packageEnd ≤ cursor then some .next
      else
        aml[cursor]?.bind fun elements ↦
          if elements < 2 then some .next else some (sleepElements aml packageEnd (cursor + 1))

def scanFrom (aml name : Bytes) : ℕ → ℕ → Option (Option (BitVec 8 × BitVec 8))
  | 0, _ => some none
  | n + 1, index =>
    (sleepTurn aml name index).bind fun
      | .next => scanFrom aml name n (index + 1)
      | .leave => some none
      | .found typa typb => some (some (typa, typb))

def sleepName (state : BitVec 8) : Bytes := [0x5F, 0x53, 0x30 + state, 0x5F]

/-- The outer `none` is a panic: an index out of range, or a digit past the last byte. -/
def scanSleepValues (aml : Bytes) (state : BitVec 8) : Option (Option (BitVec 8 × BitVec 8)) :=
  if state.toNat < 208 then scanFrom aml (sleepName state) (aml.length - 3) 0 else none

/-! Packages as the AML encoding lays them out. -/

def pkgSize (aml : Bytes) (start : ℕ) (lead : BitVec 8) : ℕ :=
  if lead.toNat / 64 = 0 then lead.toNat
  else lead.toNat % 16 + 16 * Bytes.ofLe ((aml.drop (start + 1)).take (lead.toNat / 64))

/-- The length of a package at `start`: a lead byte that counts the bytes after it, and
a number of which it holds the low bits. -/
structure PkgLength (aml : Bytes) (start packageEnd cursor : ℕ) (lead : BitVec 8) : Prop where
  lead_at : aml[start]? = some lead
  cursor_eq : cursor = start + 1 + lead.toNat / 64
  inside : cursor ≤ aml.length
  end_eq : packageEnd = start + pkgSize aml start lead

def storedIntegers : List (BitVec 8 × ℕ) := [(0x0a, 1), (0x0b, 2), (0x0c, 4), (0x0e, 8)]

inductive IntegerAt (aml : Bytes) (start : ℕ) : U64 → ℕ → Prop
  | zero (h : aml[start]? = some 0x00) : IntegerAt aml start 0 (start + 1)
  | one (h : aml[start]? = some 0x01) : IntegerAt aml start 1 (start + 1)
  | ones (h : aml[start]? = some 0xff) : IntegerAt aml start (BitVec.allOnes 64) (start + 1)
  | stored (opcode : BitVec 8) (n : ℕ) (hn : (opcode, n) ∈ storedIntegers)
      (h : aml[start]? = some opcode) (inside : start + 1 + n ≤ aml.length) :
      IntegerAt aml start (Bytes.field 64 aml (start + 1) n) (start + 1 + n)

structure Named (aml name : Bytes) (index : ℕ) : Prop where
  name_at : (aml.drop index).take 4 = name
  opcode_at : aml[index + 4]? = some 0x12

structure PackageAt (aml name : Bytes) (index packageEnd cursor : ℕ) : Prop
    extends Named aml name index where
  length_at : ∃ lead, PkgLength aml (index + 4 + 1) packageEnd cursor lead
  inside : packageEnd ≤ aml.length
  nonempty : cursor < packageEnd
  two : ∃ elements, aml[cursor]? = some elements ∧ 2 ≤ elements

def WellFormed (aml name : Bytes) (index : ℕ) (typa typb : U64) : Prop :=
  ∃ packageEnd cursor middle last, PackageAt aml name index packageEnd cursor ∧
    IntegerAt aml (cursor + 1) typa middle ∧ IntegerAt aml middle typb last ∧
    last ≤ packageEnd ∧ typa ≤ 7 ∧ typb ≤ 7

/-- A package whose length is cut off by the end of the AML, or whose first two
elements are not both integer constants. -/
def Unreadable (aml name : Bytes) (index : ℕ) : Prop :=
  (Named aml name index ∧
    ∀ packageEnd cursor lead, ¬ PkgLength aml (index + 4 + 1) packageEnd cursor lead) ∨
  ∃ packageEnd cursor, PackageAt aml name index packageEnd cursor ∧
    ∀ typa typb middle last,
      ¬ (IntegerAt aml (cursor + 1) typa middle ∧ IntegerAt aml middle typb last)

def Clear (aml name : Bytes) (index : ℕ) : Prop :=
  ¬ Unreadable aml name index ∧ ∀ typa typb, ¬ WellFormed aml name index typa typb

inductive Judged (aml name : Bytes) (index : ℕ) : ScanTurn → Prop
  | next (h : Clear aml name index) : Judged aml name index .next
  | leave (h : Unreadable aml name index)
      (hno : ∀ typa typb, ¬ WellFormed aml name index typa typb) : Judged aml name index .leave
  | found {typa typb : U64} (h : ¬ Unreadable aml name index)
      (hwell : WellFormed aml name index typa typb) :
      Judged aml name index (.found (typa.setWidth 8) (typb.setWidth 8))

def ScanTurn.result : ScanTurn → Option (BitVec 8 × BitVec 8)
  | .found typa typb => some (typa, typb)
  | _ => none

variable {aml name : Bytes} {start index : ℕ}

theorem pkgLengthBytes_eq (n index length cursor : ℕ) (hlength : length < 2 ^ (4 + index * 8))
    (hcursor : cursor ≤ aml.length) : pkgLengthBytes aml n index length cursor =
      if cursor + n ≤ aml.length then
        some (length + 2 ^ (4 + index * 8) * Bytes.ofLe ((aml.drop cursor).take n), cursor + n)
      else none := by
  induction n generalizing index length cursor with
  | zero => rw [pkgLengthBytes, List.take_zero, Bytes.ofLe, Nat.mul_zero, Nat.add_zero, Nat.add_zero,
      if_pos hcursor]
  | succ n ih =>
    rw [pkgLengthBytes]
    rcases Nat.lt_or_ge cursor aml.length with hmore | hend
    · have hvalue := aml[cursor].isLt
      have hpow : 2 ^ (4 + (index + 1) * 8) = 2 ^ (4 + index * 8) * 256 := by
        rw [Nat.add_mul, Nat.one_mul, ← Nat.add_assoc, Nat.pow_add]
      have hor : length ||| aml[cursor].toNat <<< (4 + index * 8) =
          length + 2 ^ (4 + index * 8) * aml[cursor].toNat := by
        rw [Nat.or_comm, ← Nat.shiftLeft_add_eq_or_of_lt hlength, Nat.shiftLeft_eq, Nat.mul_comm,
          Nat.add_comm]
      have hbound : length + 2 ^ (4 + index * 8) * aml[cursor].toNat < 2 ^ (4 + (index + 1) * 8) := by
        have hmul := Nat.mul_le_mul_left (2 ^ (4 + index * 8)) (Nat.succ_le_of_lt hvalue)
        rw [Nat.mul_succ] at hmul
        rw [hpow]
        omega
      have hnext : cursor + 1 + n = cursor + (n + 1) := by omega
      rw [List.getElem?_eq_getElem hmore]
      dsimp only [Option.bind_eq_bind, Option.bind_some]
      rw [hor, ih _ _ _ hbound hmore, hnext, List.drop_eq_getElem_cons hmore, List.take_succ_cons,
        Bytes.ofLe, hpow, Nat.mul_add, Nat.mul_assoc, Nat.add_assoc]
    · rw [List.getElem?_eq_none hend, if_neg (by omega)]
      rfl

theorem parsePkgLength_eq {lead : BitVec 8} (hlead : aml[start]? = some lead) :
    parsePkgLength aml start =
      if start + 1 + lead.toNat / 64 ≤ aml.length then
        some (start + pkgSize aml start lead, start + 1 + lead.toNat / 64)
      else none := by
  obtain ⟨hstart, -⟩ := List.getElem?_eq_some_iff.mp hlead
  have hfollowing : (lead >>> 6).toNat = lead.toNat / 64 := by
    rw [BitVec.toNat_ushiftRight, Nat.shiftRight_eq_div_pow]
  have hlow : (lead &&& 0x0f).toNat = lead.toNat % 16 := by
    rw [BitVec.toNat_and]
    exact Nat.and_two_pow_sub_one_eq_mod _ 4
  have hsmall : (lead &&& 0x3f).toNat = lead.toNat % 64 := by
    rw [BitVec.toNat_and]
    exact Nat.and_two_pow_sub_one_eq_mod _ 6
  unfold parsePkgLength pkgSize
  rw [hlead]
  dsimp only [Option.bind_eq_bind, Option.bind_some]
  rw [hfollowing, hlow, hsmall]
  by_cases hzero : lead.toNat / 64 = 0
  · have hlt : lead.toNat < 64 := Nat.lt_of_div_eq_zero (by decide) hzero
    rw [if_pos hzero, if_pos hzero, hzero, pkgLengthBytes, if_pos (by omega), Nat.mod_eq_of_lt hlt]
    rfl
  · have hlt : lead.toNat % 16 < 2 ^ (4 + 0 * 8) := Nat.mod_lt _ (by decide)
    rw [if_neg hzero, if_neg hzero, pkgLengthBytes_eq _ 0 _ _ hlt hstart]
    split_ifs <;> rfl

variable {cursor : ℕ}

theorem parsePkgLength_iff {packageEnd : ℕ} :
    parsePkgLength aml start = some (packageEnd, cursor) ↔
      ∃ lead, PkgLength aml start packageEnd cursor lead := by
  constructor
  · intro h
    obtain ⟨lead, hlead, -⟩ := Option.bind_eq_some_iff.mp h
    rw [parsePkgLength_eq hlead] at h
    split_ifs at h with hinside
    cases h
    exact ⟨lead, hlead, rfl, hinside, rfl⟩
  · rintro ⟨lead, hlead, rfl, hinside, rfl⟩
    rw [parsePkgLength_eq hlead, if_pos hinside]

variable {value : U64}

theorem wordAt_map_eq_some {n : ℕ}
    (h : (Bytes.wordAt 64 aml (start + 1) n).map (·, start + 1 + n) = some (value, cursor)) :
    start + 1 + n ≤ aml.length ∧ value = Bytes.field 64 aml (start + 1) n ∧ cursor = start + 1 + n := by
  obtain ⟨word, hword, heq⟩ := Option.map_eq_some_iff.mp h
  cases heq
  unfold Bytes.wordAt at hword
  split_ifs at hword with hinside
  exact ⟨hinside, (Option.some.inj hword).symm, rfl⟩

theorem parseAmlInteger_iff :
    parseAmlInteger aml start = some (value, cursor) ↔ IntegerAt aml start value cursor := by
  constructor
  · intro h
    obtain ⟨opcode, hopcode, h⟩ := Option.bind_eq_some_iff.mp h
    have hstored {n : ℕ} (hn : (opcode, n) ∈ storedIntegers)
        (h : (Bytes.wordAt 64 aml (start + 1) n).map (·, start + 1 + n) = some (value, cursor)) :
        IntegerAt aml start value cursor := by
      obtain ⟨hinside, rfl, rfl⟩ := wordAt_map_eq_some h
      exact .stored opcode _ hn hopcode hinside
    split_ifs at h with h00 h01 hff h0a h0b h0c h0e
    · cases h
      exact .zero (h00 ▸ hopcode)
    · cases h
      exact .one (h01 ▸ hopcode)
    · cases h
      exact .ones (hff ▸ hopcode)
    · exact hstored (by simp [storedIntegers, h0a]) h
    · exact hstored (by simp [storedIntegers, h0b]) h
    · exact hstored (by simp [storedIntegers, h0c]) h
    · exact hstored (by simp [storedIntegers, h0e]) h
  · intro h
    cases h with
    | zero h => simp [parseAmlInteger, h]
    | one h => simp [parseAmlInteger, h]
    | ones h => simp [parseAmlInteger, h]
    | stored opcode n hn h inside =>
      simp only [storedIntegers, List.mem_cons, Prod.mk.injEq, List.not_mem_nil, or_false] at hn
      obtain ⟨rfl, rfl⟩ | ⟨rfl, rfl⟩ | ⟨rfl, rfl⟩ | ⟨rfl, rfl⟩ := hn <;>
        simp [parseAmlInteger, h, Bytes.wordAt, inside]

theorem IntegerAt.unique {value' : U64} {cursor' : ℕ} (h : IntegerAt aml start value cursor)
    (h' : IntegerAt aml start value' cursor') : value = value' ∧ cursor = cursor' :=
  Prod.mk.inj (Option.some.inj ((parseAmlInteger_iff.mpr h).symm.trans (parseAmlInteger_iff.mpr h')))

namespace PackageAt

variable {packageEnd packageEnd' cursor cursor' middle last : ℕ} {typa typb typa' typb' : U64}

section

variable (h : PackageAt aml name index packageEnd cursor)
include h

theorem unique (h' : PackageAt aml name index packageEnd' cursor') :
    packageEnd = packageEnd' ∧ cursor = cursor' :=
  Prod.mk.inj (Option.some.inj
    ((parsePkgLength_iff.mpr h.length_at).symm.trans (parsePkgLength_iff.mpr h'.length_at)))

theorem not_unreadable (ha : IntegerAt aml (cursor + 1) typa middle)
    (hb : IntegerAt aml middle typb last) :
    ¬ Unreadable aml name index := by
  rintro (⟨-, hlength⟩ | ⟨_, _, h', hno⟩)
  · obtain ⟨lead, hlead⟩ := h.length_at
    exact hlength _ _ _ hlead
  · obtain ⟨rfl, rfl⟩ := h.unique h'
    exact hno _ _ _ _ ⟨ha, hb⟩

theorem wellFormed_iff (ha : IntegerAt aml (cursor + 1) typa middle)
    (hb : IntegerAt aml middle typb last) :
    WellFormed aml name index typa' typb' ↔
      (last ≤ packageEnd ∧ typa ≤ 7 ∧ typb ≤ 7) ∧ typa' = typa ∧ typb' = typb := by
  constructor
  · rintro ⟨_, _, _, _, h', ha', hb', hfits⟩
    obtain ⟨rfl, rfl⟩ := h.unique h'
    obtain ⟨rfl, rfl⟩ := ha.unique ha'
    obtain ⟨rfl, rfl⟩ := hb.unique hb'
    exact ⟨hfits, rfl, rfl⟩
  · rintro ⟨hfits, rfl, rfl⟩
    exact ⟨_, _, _, _, h, ha, hb, hfits⟩

theorem judged : Judged aml name index (sleepElements aml packageEnd (cursor + 1)) := by
  have hleave (hno : ∀ typa typb middle last,
      ¬ (IntegerAt aml (cursor + 1) typa middle ∧ IntegerAt aml middle typb last)) :
      Judged aml name index .leave := by
    refine .leave (.inr ⟨_, _, h, hno⟩) ?_
    rintro typa typb ⟨_, _, _, _, h', ha, hb, -⟩
    obtain ⟨rfl, rfl⟩ := h.unique h'
    exact hno _ _ _ _ ⟨ha, hb⟩
  unfold sleepElements
  cases ha : parseAmlInteger aml (cursor + 1) with
  | none =>
    refine hleave fun typa typb middle last hno ↦ ?_
    cases ha.symm.trans (parseAmlInteger_iff.mpr hno.1)
  | some a =>
    obtain ⟨typa, middle⟩ := a
    have hfirst := parseAmlInteger_iff.mp ha
    dsimp only
    cases hb : parseAmlInteger aml middle with
    | none =>
      refine hleave fun typa' typb middle' last hno ↦ ?_
      obtain ⟨rfl, rfl⟩ := hfirst.unique hno.1
      cases hb.symm.trans (parseAmlInteger_iff.mpr hno.2)
    | some b =>
      obtain ⟨typb, last⟩ := b
      have hsecond := parseAmlInteger_iff.mp hb
      have hread := h.not_unreadable hfirst hsecond
      dsimp only
      by_cases hfits : last ≤ packageEnd ∧ typa ≤ 7 ∧ typb ≤ 7
      · rw [if_pos hfits]
        exact .found hread ((h.wellFormed_iff hfirst hsecond).mpr ⟨hfits, rfl, rfl⟩)
      · rw [if_neg hfits]
        exact .next ⟨hread, fun _ _ hwell ↦ hfits ((h.wellFormed_iff hfirst hsecond).mp hwell).1⟩

end

end PackageAt

theorem no_package (hlength : Named aml name index → parsePkgLength aml (index + 4 + 1) ≠ none)
    (hno : ∀ packageEnd cursor, ¬ PackageAt aml name index packageEnd cursor) :
    Clear aml name index := by
  constructor
  · rintro (⟨hnamed, hcut⟩ | ⟨_, _, h, -⟩)
    · obtain ⟨⟨packageEnd, cursor⟩, heq⟩ := Option.ne_none_iff_exists'.mp (hlength hnamed)
      obtain ⟨lead, h⟩ := parsePkgLength_iff.mp heq
      exact hcut _ _ _ h
    · exact hno _ _ h
  · rintro typa typb ⟨_, _, _, _, h, -⟩
    exact hno _ _ h

theorem sleepTurn_judged (aml name : Bytes) (index : ℕ) :
    ∃ turn, sleepTurn aml name index = some turn ∧ Judged aml name index turn := by
  unfold sleepTurn
  by_cases hname : (aml.drop index).take 4 = name
  swap
  · rw [if_pos hname]
    exact ⟨_, rfl, .next (no_package (absurd ·.name_at hname) fun _ _ h ↦ hname h.name_at)⟩
  by_cases hopcode : aml[index + 4]? = some 0x12
  swap
  · rw [if_neg (not_not.mpr hname), if_pos hopcode]
    exact ⟨_, rfl, .next (no_package (absurd ·.opcode_at hopcode) fun _ _ h ↦ hopcode h.opcode_at)⟩
  rw [if_neg (not_not.mpr hname), if_neg (not_not.mpr hopcode)]
  have hnamed : Named aml name index := ⟨hname, hopcode⟩
  cases hlength : parsePkgLength aml (index + 4 + 1) with
  | none =>
    have hcut : ∀ packageEnd cursor lead, ¬ PkgLength aml (index + 4 + 1) packageEnd cursor lead := by
      intro packageEnd cursor lead h
      cases hlength.symm.trans (parsePkgLength_iff.mpr ⟨lead, h⟩)
    refine ⟨_, rfl, .leave (.inl ⟨hnamed, hcut⟩) ?_⟩
    rintro typa typb ⟨_, _, _, _, h, -⟩
    obtain ⟨lead, hlead⟩ := h.length_at
    exact hcut _ _ _ hlead
  | some p =>
    obtain ⟨packageEnd, cursor⟩ := p
    have hsome : Named aml name index → parsePkgLength aml (index + 4 + 1) ≠ none := by
      rw [hlength]
      exact fun _ ↦ nofun
    have hends {e c : ℕ} (h : PackageAt aml name index e c) : packageEnd = e ∧ cursor = c :=
      Prod.mk.inj (Option.some.inj (hlength.symm.trans (parsePkgLength_iff.mpr h.length_at)))
    dsimp only
    by_cases hbad : aml.length < packageEnd ∨ packageEnd ≤ cursor
    · rw [if_pos hbad]
      refine ⟨_, rfl, .next (no_package hsome fun _ _ h ↦ ?_)⟩
      obtain ⟨rfl, rfl⟩ := hends h
      have hinside := h.inside
      have hnonempty := h.nonempty
      omega
    obtain ⟨elements, helements⟩ : ∃ elements, aml[cursor]? = some elements :=
      ⟨_, List.getElem?_eq_getElem (by omega)⟩
    rw [if_neg hbad, helements, Option.bind_some]
    by_cases hfew : elements < 2
    · rw [if_pos hfew]
      refine ⟨_, rfl, .next (no_package hsome fun _ _ h ↦ ?_)⟩
      obtain ⟨rfl, rfl⟩ := hends h
      obtain ⟨elements', helements', htwo⟩ := h.two
      obtain rfl := Option.some.inj (helements.symm.trans helements')
      exact absurd hfew (BitVec.not_lt.mpr htwo)
    rw [if_neg hfew]
    have hpackage : PackageAt aml name index packageEnd cursor := {
      hnamed with
      length_at := parsePkgLength_iff.mp hlength
      inside := by omega
      nonempty := by omega
      two := ⟨elements, helements, BitVec.not_lt.mp hfew⟩ }
    exact ⟨_, rfl, hpackage.judged⟩

theorem scanFrom_cases (aml name : Bytes) (n index : ℕ) :
    (scanFrom aml name n index = some none ∧ ∀ i, index ≤ i → i < index + n → Clear aml name i) ∨
    ∃ i turn, (∀ j, index ≤ j → j < i → Clear aml name j) ∧ Judged aml name i turn ∧
      turn ≠ .next ∧ scanFrom aml name n index = some turn.result := by
  induction n generalizing index with
  | zero => exact .inl ⟨rfl, fun i hle hlt ↦ absurd hle (by omega)⟩
  | succ n ih =>
    obtain ⟨turn, hturn, hjudged⟩ := sleepTurn_judged aml name index
    rw [scanFrom, hturn, Option.bind_some]
    have hnone (j : ℕ) (hle : index ≤ j) (hlt : j < index) : Clear aml name j :=
      absurd hle (Nat.not_le.mpr hlt)
    cases hjudged with
    | leave h hno => exact .inr ⟨index, _, hnone, .leave h hno, nofun, rfl⟩
    | found h hwell => exact .inr ⟨index, _, hnone, .found h hwell, nofun, rfl⟩
    | next hclear =>
      have hcons {i : ℕ} (hrest : ∀ j, index + 1 ≤ j → j < i → Clear aml name j) :
          ∀ j, index ≤ j → j < i → Clear aml name j := by
        intro j hle hlt
        rcases Nat.eq_or_lt_of_le hle with rfl | hlt'
        · exact hclear
        · exact hrest j hlt' hlt
      obtain ⟨hscan, hrest⟩ | ⟨i, turn, hrest, hend⟩ := ih (index + 1)
      · exact .inl ⟨hscan, hcons fun j hle hlt ↦ hrest j hle (by omega)⟩
      · exact .inr ⟨i, turn, hcons hrest, hend⟩

def First (aml name : Bytes) (index : ℕ) (typa typb : U64) : Prop :=
  WellFormed aml name index typa typb ∧ ∀ j < index, ∀ a b, ¬ WellFormed aml name j a b

theorem exists_first {typa typb : U64} (h : WellFormed aml name index typa typb) :
    ∃ i a b, First aml name i a b := by
  classical
  have hex : ∃ i, ∃ a b, WellFormed aml name i a b := ⟨index, typa, typb, h⟩
  obtain ⟨a, b, hfind⟩ := Nat.find_spec hex
  exact ⟨_, a, b, hfind, fun j hlt a b hj ↦ Nat.find_min hex hlt ⟨a, b, hj⟩⟩

theorem WellFormed.index_lt {state : BitVec 8} {typa typb : U64}
    (h : WellFormed aml (sleepName state) index typa typb) : index < aml.length - 3 := by
  obtain ⟨_, _, _, _, hpackage, -⟩ := h
  have hlength := congrArg List.length hpackage.name_at
  rw [List.length_take, List.length_drop] at hlength
  change _ = 4 at hlength
  omega

theorem setWidth_small (h : value ≤ 7) : (value.setWidth 8).setWidth 64 = value := by
  apply BitVec.eq_of_toNat_eq
  have hle : value.toNat ≤ 7 := h
  rw [BitVec.toNat_setWidth, BitVec.toNat_setWidth]
  omega

/-- The scan does not panic, and what it finds is the first well-formed package. It
finds one whenever there is one exactly when nothing unreadable stands before. -/
theorem sleep_values (aml : Bytes) (state : BitVec 8) (hstate : state.toNat < 208) :
    ∃ result, scanSleepValues aml state = some result ∧
      (∀ typa typb, result = some (typa, typb) →
        ∃ index, First aml (sleepName state) index (typa.setWidth 64) (typb.setWidth 64)) ∧
      ((result = none → ∀ index typa typb, ¬ WellFormed aml (sleepName state) index typa typb) ↔
        ∀ index typa typb, First aml (sleepName state) index typa typb →
          ∀ j < index, ¬ Unreadable aml (sleepName state) j) := by
  unfold scanSleepValues
  rw [if_pos hstate]
  obtain ⟨hscan, hclear⟩ | ⟨i, _, hclear, ⟨-⟩ | ⟨hunreadable, hno⟩ | ⟨hread, hwell⟩, hne, hscan⟩ :=
    scanFrom_cases aml (sleepName state) (aml.length - 3) 0
  · have hnone (index : ℕ) (typa typb : U64) :
        ¬ WellFormed aml (sleepName state) index typa typb := fun h ↦
      (hclear index (Nat.zero_le _) (by rw [Nat.zero_add]; exact h.index_lt)).2 typa typb h
    exact ⟨none, hscan, nofun, fun _ index typa typb h ↦ absurd h.1 (hnone _ _ _), fun _ _ ↦ hnone⟩
  · exact absurd rfl hne
  · refine ⟨none, hscan, nofun, ?_, ?_⟩
    · exact fun h index typa typb hfirst ↦ absurd hfirst.1 (h rfl _ _ _)
    · intro h _ index typa typb hwell
      obtain ⟨first, a, b, hfirst⟩ := exists_first hwell
      have hlt : i < first := by
        rcases Nat.lt_trichotomy first i with hlt | rfl | hlt
        · exact absurd hfirst.1 ((hclear first (Nat.zero_le _) hlt).2 a b)
        · exact absurd hfirst.1 (hno a b)
        · exact hlt
      exact h first a b hfirst i hlt hunreadable
  · obtain ⟨_, _, _, _, -, -, -, -, ha, hb⟩ := id hwell
    refine ⟨_, hscan, ?_, fun _ index a b hfirst j hlt ↦ ?_, fun _ h ↦ nomatch h⟩
    · intro a b heq
      cases heq
      rw [setWidth_small ha, setWidth_small hb]
      exact ⟨i, hwell, fun j hlt ↦ (hclear j (Nat.zero_le _) hlt).2⟩
    · have hle : index ≤ i := Nat.not_lt.mp fun hlt ↦ hfirst.2 i hlt _ _ hwell
      exact (hclear j (Nat.zero_le _) (by omega)).1

def sleepPackage : Bytes := [0x5F, 0x53, 0x35, 0x5F, 0x12, 0x06, 0x02, 0x0A, 0x05, 0x0A, 0x05]

theorem sleep_values_five : ∃ index, First sleepPackage (sleepName 5) index 5 5 := by
  obtain ⟨result, hscan, hfound, -⟩ := sleep_values sleepPackage 5 (by decide)
  have hresult : scanSleepValues sleepPackage 5 = some (some (5, 5)) := by decide +kernel
  exact hfound 5 5 (Option.some.inj (hscan.symm.trans hresult))

def shadowedPackage : Bytes :=
  [0x5F, 0x53, 0x35, 0x5F, 0x12, 0x05, 0x02, 0x0D, 0x61, 0x00] ++ sleepPackage

/-- The scan gives up at the first package of the name, well formed or not. -/
theorem shadowed_package_missed : scanSleepValues shadowedPackage 5 = some none ∧
    WellFormed shadowedPackage (sleepName 5) 10 5 5 := by
  refine ⟨by decide +kernel, 21, 16, 19, 21, ?_, ?_, ?_, by decide, by decide, by decide⟩
  · exact {
      name_at := by decide
      opcode_at := by decide
      length_at := ⟨0x06, rfl, rfl, by decide, by decide⟩
      inside := by decide
      nonempty := by decide
      two := ⟨2, rfl, by decide⟩ }
  · exact .stored 0x0a 1 (by decide) rfl (by decide)
  · exact .stored 0x0a 1 (by decide) rfl (by decide)

end BraneKernel.Acpi
