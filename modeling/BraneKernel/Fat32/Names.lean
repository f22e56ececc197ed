import BraneKernel.Fat32.Scan

namespace BraneKernel

def slash : BitVec 8 := 0x2F

def unpadded (field : Bytes) : Bytes := field.takeWhile (· != space)

def ValidField (field : Bytes) : Prop :=
  (∀ b ∈ unpadded field, 0x21 ≤ b.toNat ∧ b.toNat ≤ 0x7E) ∧
    ∀ b ∈ field.dropWhile (· != space), b = space

instance (field : Bytes) : Decidable (ValidField field) := inferInstanceAs (Decidable (_ ∧ _))

structure ValidShortName (raw : Bytes) : Prop where
  base : ValidField (raw.take 8)
  extension : ValidField ((raw.drop 8).take 3)

instance (raw : Bytes) : Decidable (ValidShortName raw) :=
  decidable_of_iff (ValidField (raw.take 8) ∧ ValidField ((raw.drop 8).take 3))
    ⟨fun h ↦ ⟨h.1, h.2⟩, fun h ↦ ⟨h.base, h.extension⟩⟩

def base (raw : Bytes) : Bytes := unpadded (raw.take 8)

def listedExtension (raw : Bytes) : Bytes :=
  if DirectoryRecord.isDirectory (raw.getD 11 0) then [] else unpadded ((raw.drop 8).take 3)

def dotted : Bytes → Bytes
  | [] => []
  | b :: extension => dot :: b :: extension

theorem toAsciiLowercase_eq_iff {a b : BitVec 8} (h : b.toNat < 0x41 ∨ 0x5A < b.toNat ∧
    b.toNat < 0x61 ∨ 0x7A < b.toNat) : toAsciiLowercase a = b ↔ a = b := by
  have hlt := a.isLt
  rw [toAsciiLowercase]
  split_ifs with hupper
  · have hadd : (a + 0x20).toNat = a.toNat + 0x20 := by
      rw [BitVec.toNat_add, show (0x20 : BitVec 8).toNat = 0x20 from rfl]
      omega
    constructor
    · rintro rfl
      omega
    · rintro rfl
      omega
  · rfl

theorem map_dotted (extension : Bytes) :
    (dotted extension).map toAsciiLowercase = dotted (extension.map toAsciiLowercase) := by
  cases extension with
  | nil => rfl
  | cons b extension => rfl

/-- The first name's base spells out the second name's base, its dot and the start of its
extension. -/
def SpellsOut (base extension base' extension' : Bytes) : Prop :=
  extension' ≠ [] ∧ ∃ tail, base = base' ++ dot :: tail ∧ extension' = tail ++ dotted extension

theorem SpellsOut.append_eq {b e b' e' : Bytes} (h : SpellsOut b e b' e') :
    b ++ dotted e = b' ++ dotted e' := by
  obtain ⟨hne, tail, rfl, rfl⟩ := h
  cases htail : tail ++ dotted e with
  | nil => exact absurd htail hne
  | cons x rest => rw [dotted, ← htail, List.append_assoc, List.cons_append]

theorem spellsOut_of_append {b e b' e' rest : Bytes} (hne : rest ≠ []) (hb : b = b' ++ rest)
    (he : dotted e' = rest ++ dotted e) : SpellsOut b e b' e' := by
  cases rest with
  | nil => exact absurd rfl hne
  | cons x tail =>
    cases e' with
    | nil => simp [dotted] at he
    | cons y e' =>
      rw [dotted, List.cons_append, List.cons.injEq] at he
      exact ⟨by simp, tail, by rw [hb, ← he.1], he.2⟩

theorem dotted_injective : Function.Injective dotted := by
  intro e e' h
  cases e with
  | nil =>
    cases e' with
    | nil => rfl
    | cons b e' => simp [dotted] at h
  | cons a e =>
    cases e' with
    | nil => simp [dotted] at h
    | cons b e' =>
      rw [dotted, dotted, List.cons.injEq] at h
      exact h.2

theorem append_dotted_eq_iff (b e b' e' : Bytes) :
    b ++ dotted e = b' ++ dotted e' ↔
      (b = b' ∧ e = e') ∨ SpellsOut b e b' e' ∨ SpellsOut b' e' b e := by
  constructor
  · intro h
    rcases List.append_eq_append_iff.mp h with ⟨rest, hb, he⟩ | ⟨rest, hb, he⟩
    · rcases eq_or_ne rest [] with rfl | hne
      · rw [List.append_nil] at hb
        rw [List.nil_append] at he
        exact .inl ⟨hb.symm, dotted_injective he⟩
      · exact .inr (.inr (spellsOut_of_append hne hb he))
    · rcases eq_or_ne rest [] with rfl | hne
      · rw [List.append_nil] at hb
        rw [List.nil_append] at he
        exact .inl ⟨hb, (dotted_injective he).symm⟩
      · exact .inr (.inl (spellsOut_of_append hne hb he))
  · rintro (⟨rfl, rfl⟩ | h | h)
    · rfl
    · exact h.append_eq
    · exact h.append_eq.symm

/-- Two entries whose listed names cannot be told apart: bases and listed extensions agree, or one
base spells out the other name. -/
def Clash (a b : Bytes) : Prop :=
  let base₁ := (base a).map toAsciiLowercase
  let base₂ := (base b).map toAsciiLowercase
  let extension₁ := (listedExtension a).map toAsciiLowercase
  let extension₂ := (listedExtension b).map toAsciiLowercase
  (base₁ = base₂ ∧ extension₁ = extension₂) ∨ SpellsOut base₁ extension₁ base₂ extension₂ ∨
    SpellsOut base₂ extension₂ base₁ extension₁

instance (a b : Bytes) : Decidable (Clash a b) := decidable_of_iff _ (append_dotted_eq_iff ..)

namespace DirectoryRecord

theorem take_findIdx (l : Bytes) :
    l.take ((l.findIdx? (· == space)).getD l.length) = unpadded l := by
  induction l with
  | nil => rfl
  | cons b l ih =>
    rw [List.findIdx?_cons]
    by_cases hb : b = space
    · rw [if_pos (by simpa using hb), Option.getD_some, List.take_zero, unpadded,
        List.takeWhile_cons_of_neg (by simpa using hb)]
    · have hmap : ((l.findIdx? (· == space)).map (· + 1)).getD (b :: l).length =
          (l.findIdx? (· == space)).getD l.length + 1 := by
        cases l.findIdx? (· == space) with
        | none => rfl
        | some i => rfl
      rw [if_neg (by simpa using hb), hmap, List.take_succ_cons, ih, unpadded, unpadded,
        List.takeWhile_cons_of_pos (by simpa using hb)]

theorem sanitiseNameByte_printable {b : BitVec 8} (h : 0x21 ≤ b.toNat ∧ b.toNat ≤ 0x7E) :
    sanitiseNameByte b = b := by
  have hcontrol : isAsciiControl b = false := by
    rw [isAsciiControl, Bool.or_eq_false_iff, decide_eq_false_iff_not, beq_eq_false_iff_ne]
    omega
  rw [sanitiseNameByte, hcontrol, if_pos]
  rw [Bool.not_false, Bool.and_true, decide_eq_true_eq]
  omega

theorem copyShortName_valid {raw name : Bytes} (hlen : 32 ≤ raw.length)
    (hvalid : ValidField (raw.take 8)) (h : copyShortName (raw.take 11) = some name) :
    name = base raw ∧ base raw ≠ [] := by
  have htake : (raw.take 11).take 8 = raw.take 8 := List.take_take
  have height : (raw.take 8).length = 8 := by
    rw [List.length_take]
    omega
  have hbase := take_findIdx (raw.take 8)
  rw [height] at hbase
  rw [copyShortName, htake] at h
  dsimp only at h
  split_ifs at h with hshort hempty
  rw [hbase, Option.some.injEq] at h
  constructor
  · have hsame : ∀ b ∈ unpadded (raw.take 8),
        sanitiseNameByte (if b = 0x05 then 0xE5 else b) = id b := by
      intro b hb
      have hprintable := hvalid.1 b hb
      rw [if_neg, sanitiseNameByte_printable hprintable, id]
      rintro rfl
      exact absurd hprintable.1 (by decide)
    rw [← h, List.map_congr_left hsame, List.map_id, base]
  · rw [base, ← hbase, ne_eq, List.take_eq_nil_iff, not_or]
    refine ⟨hempty, ?_⟩
    intro hnil
    rw [hnil] at height
    exact absurd height (by decide)

theorem any_iff_unpadded_ne_nil {field : Bytes} (h : ValidField field) :
    field.any (· != space) = true ↔ unpadded field ≠ [] := by
  cases field with
  | nil => simp [unpadded]
  | cons b field =>
    by_cases hb : b = space
    · have hspaces : ∀ c ∈ b :: field, c = space := by
        have hdrop := h.2
        rwa [List.dropWhile_cons_of_neg (by simpa using hb)] at hdrop
      rw [unpadded, List.takeWhile_cons_of_neg (by simpa using hb), List.any_eq_true]
      constructor
      · rintro ⟨c, hc, hne⟩
        exact absurd (hspaces c hc) (by simpa using hne)
      · intro hne
        exact absurd rfl hne
    · rw [unpadded, List.takeWhile_cons_of_pos (by simpa using hb), List.any_cons]
      simp [hb]

theorem shownExtension_valid (attributes : BitVec 8) {field : Bytes} (h : ValidField field) :
    shownExtension attributes field =
      dotted (if isDirectory attributes then [] else unpadded field) := by
  cases hdirectory : isDirectory attributes with
  | true =>
    rw [shownExtension, hdirectory]
    rfl
  | false =>
    have hsame : (unpadded field).map sanitiseNameByte = unpadded field := by
      have hid : ∀ b ∈ unpadded field, sanitiseNameByte b = id b :=
        fun b hb ↦ sanitiseNameByte_printable (h.1 b hb)
      rw [List.map_congr_left hid, List.map_id]
    rw [shownExtension, hdirectory, Bool.not_false, Bool.true_and, ← unpadded, hsame,
      if_neg Bool.false_ne_true]
    have hany := any_iff_unpadded_ne_nil h
    cases hunpadded : unpadded field with
    | nil =>
      rw [hunpadded] at hany
      rw [if_neg (by simp [hany])]
      rfl
    | cons b rest =>
      rw [hunpadded] at hany
      rw [if_pos (hany.mpr (by simp))]
      rfl

theorem parse_valid {raw : Bytes} {record : DirectoryRecord} (h : parse raw = some record)
    (hvalid : ValidShortName raw) :
    record.name = base raw ++ dotted (listedExtension raw) ∧ base raw ≠ [] := by
  obtain ⟨hlen, name, hname, hrecord⟩ := parse_name h
  obtain ⟨rfl, hne⟩ := copyShortName_valid hlen hvalid.base hname
  have hattributes : raw.getD 11 0 = raw[11] := by
    rw [List.getD_eq_getElem?_getD, List.getElem?_eq_getElem (by omega), Option.getD_some]
  rw [hrecord, shownExtension_valid _ hvalid.extension, listedExtension, hattributes]
  exact ⟨rfl, hne⟩

theorem same_name_iff {a b : Bytes} {r r' : DirectoryRecord} (ha : parse a = some r)
    (hb : parse b = some r') (hvalid : ValidShortName a) (hvalid' : ValidShortName b) :
    SameIgnoringCase r.name r'.name ↔ Clash a b := by
  rw [(parse_valid ha hvalid).1, (parse_valid hb hvalid').1, SameIgnoringCase, List.map_append,
    List.map_append, map_dotted, map_dotted, append_dotted_eq_iff, Clash]

theorem length_name_le {raw : Bytes} {record : DirectoryRecord} (h : parse raw = some record)
    (hvalid : ValidShortName raw) : record.name.length ≤ 12 := by
  have hbase : (base raw).length ≤ 8 := by
    apply (List.takeWhile_prefix _).length_le.trans
    exact List.length_take_le ..
  have hextension : (listedExtension raw).length ≤ 3 := by
    rw [listedExtension]
    split_ifs
    · exact Nat.zero_le 3
    · apply (List.takeWhile_prefix _).length_le.trans
      exact List.length_take_le ..
  rw [(parse_valid h hvalid).1, List.length_append]
  cases hlisted : listedExtension raw with
  | nil =>
    rw [dotted, List.length_nil]
    omega
  | cons b rest =>
    rw [hlisted, List.length_cons] at hextension
    rw [dotted, List.length_cons, List.length_cons]
    omega

end DirectoryRecord

end BraneKernel
