import BraneKernel.Fat32.Directory

namespace BraneKernel

theorem sanitiseNameByte_lt (byte : BitVec 8) : (sanitiseNameByte byte).toNat < 0x80 := by
  rw [sanitiseNameByte]
  split_ifs with h
  · rw [Bool.and_eq_true, decide_eq_true_eq] at h
    exact h.1
  · decide

theorem copyShortName_ascii {source base : Bytes} (h : copyShortName source = some base) :
    ∀ b ∈ base, b.toNat < 0x80 := by
  rw [copyShortName] at h
  dsimp only at h
  split_ifs at h
  intro b hb
  rw [← Option.some.inj h] at hb
  obtain ⟨byte, -, rfl⟩ := List.mem_map.mp hb
  apply sanitiseNameByte_lt

namespace DirectoryRecord

theorem shownExtension_ascii (attributes : BitVec 8) (extension : Bytes) :
    ∀ b ∈ shownExtension attributes extension, b.toNat < 0x80 := by
  intro b hb
  rw [shownExtension] at hb
  split_ifs at hb
  · rcases List.mem_cons.mp hb with rfl | hb
    · decide
    · obtain ⟨byte, -, rfl⟩ := List.mem_map.mp hb
      apply sanitiseNameByte_lt
  · exact absurd hb List.not_mem_nil

variable {record : DirectoryRecord}

theorem parse_name {data : Bytes} (h : parse data = some record) :
    ∃ (_ : 32 ≤ data.length) (base : Bytes), copyShortName (data.take 11) = some base ∧
      record.name = base ++ shownExtension data[11] ((data.drop 8).take 3) := by
  rw [parse] at h
  split_ifs at h with hlen hmark
  dsimp only at h
  cases hbase : copyShortName (data.take 11) with
  | none =>
    rw [hbase, Option.map_none, ite_self] at h
    exact absurd h (by simp)
  | some base =>
    rw [hbase, Option.map_some, Option.ite_none_left_eq_some, Option.some.injEq] at h
    exact ⟨Nat.not_lt.mp hlen, base, rfl, by rw [← h.2]⟩

theorem parse_ascii {data : Bytes} (h : parse data = some record) :
    ∀ b ∈ record.name, b.toNat < 0x80 := by
  obtain ⟨_, base, hbase, hname⟩ := parse_name h
  intro b hb
  rw [hname] at hb
  rcases List.mem_append.mp hb with hb | hb
  · exact copyShortName_ascii hbase b hb
  · exact shownExtension_ascii _ _ b hb

theorem encode_nameStr {data : Bytes} (h : parse data = some record) :
    Utf8.encode record.nameStr = record.name := by
  have hvalid := Utf8.valid_of_ascii (parse_ascii h)
  rw [nameStr, hvalid.fromUtf8_eq, Option.getD_some, hvalid.encode_fromUtf8Lossy]

end DirectoryRecord

def SameIgnoringCase (left right : Bytes) : Prop :=
  left.map toAsciiLowercase = right.map toAsciiLowercase

instance (left right : Bytes) : Decidable (SameIgnoringCase left right) :=
  inferInstanceAs (Decidable (_ = _))

theorem namesEqual_iff (left right : List Char) :
    namesEqual left right = true ↔
      SameIgnoringCase (Utf8.encode left) (Utf8.encode right) := by
  rw [namesEqual, Bool.and_eq_true, beq_iff_eq, iff_comm]
  generalize Utf8.encode left = left, Utf8.encode right = right
  induction left generalizing right with
  | nil => cases right <;> simp [SameIgnoringCase]
  | cons a left ih =>
    cases right with
    | nil => simp [SameIgnoringCase]
    | cons b right =>
      have hrest := ih right
      rw [SameIgnoringCase] at hrest ⊢
      rw [List.map_cons, List.map_cons, List.cons.injEq, List.length_cons, List.length_cons,
        Nat.succ_inj, List.zip_cons_cons, List.all_cons, Bool.and_eq_true, beq_iff_eq, hrest]
      exact and_left_comm

end BraneKernel
