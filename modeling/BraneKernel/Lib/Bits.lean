import Mathlib.Tactic.Common

/-! Single bits of a word, as masks test, set and clear them, and words cut in two. -/

namespace Bits

variable {w i j : ℕ}

theorem getLsbD_one_shiftLeft (hj : j < w) : (1#w <<< i).getLsbD j = decide (j = i) := by
  rw [← BitVec.twoPow_eq, BitVec.getLsbD_twoPow]
  by_cases hi : j = i
  · subst hi
    simp [hj]
  · simp [hi, Ne.symm hi]

theorem and_mask_ne_zero_iff (x : BitVec w) (hi : i < w) :
    x &&& 1#w <<< i ≠ 0 ↔ x.getLsbD i = true := by
  rw [← BitVec.twoPow_eq, BitVec.and_twoPow]
  split_ifs with hbit
  · refine iff_of_true (fun hzero ↦ ?_) hbit
    have hmask := congrArg (fun y ↦ y.getLsbD i) hzero
    simp [hi] at hmask
  · exact iff_of_false (fun h ↦ h rfl) hbit

theorem getLsbD_or_mask (x : BitVec w) (hj : j < w) :
    (x ||| 1#w <<< i).getLsbD j = if j = i then true else x.getLsbD j := by
  rw [BitVec.getLsbD_or, getLsbD_one_shiftLeft hj]
  split_ifs with h
  · simp [h]
  · simp [h]

theorem getLsbD_and_not_mask (x : BitVec w) (hj : j < w) :
    (x &&& ~~~(1#w <<< i)).getLsbD j = if j = i then false else x.getLsbD j := by
  rw [BitVec.getLsbD_and, BitVec.getLsbD_not, getLsbD_one_shiftLeft hj]
  split_ifs with h
  · simp [h]
  · simp [h, hj]

theorem join_halves (v : BitVec 64) :
    ((v >>> 32).setWidth 32).setWidth 64 <<< 32 ||| (v.setWidth 32).setWidth 64 = v := by
  refine BitVec.eq_of_getLsbD_eq fun i hi ↦ ?_
  by_cases hlow : i < 32
  · simp [hlow, hi]
  · have hhigh : i - 32 < 32 := by omega
    have hsum : 32 + (i - 32) = i := by omega
    simp [hlow, hi, hhigh, hsum]

theorem and_not_eq_sub (x m : BitVec w) : x &&& ~~~m = x - (x &&& m) := by
  have hdisjoint : (x &&& ~~~m) &&& (x &&& m) = 0#w := by
    ext k hk
    cases hm : m[k] <;> simp [hm]
  have hsum : (x &&& ~~~m) + (x &&& m) = x := by
    rw [BitVec.add_eq_or_of_and_eq_zero _ _ hdisjoint]
    ext k hk
    cases hm : m[k] <;> simp [hm]
  exact BitVec.eq_sub_iff_add_eq.mpr hsum

theorem and_not_low {x : BitVec 64} (h : 16 ∣ x.toNat) : x &&& ~~~0xF#64 = x := by
  have hmask : ∀ j < 64, (0xF#64).getLsbD j = decide (j < 4) := by decide
  refine BitVec.eq_of_getLsbD_eq fun j hj ↦ ?_
  rw [BitVec.getLsbD_and, BitVec.getLsbD_not, hmask j hj]
  by_cases hlow : j < 4
  · obtain ⟨k, hk⟩ := h
    have hbit : x.getLsbD j = false := by
      have hbelow : ¬ j ≥ 4 := by omega
      rw [← BitVec.testBit_toNat, hk, show 16 * k = 2 ^ 4 * k from rfl, Nat.testBit_two_pow_mul]
      simp [hbelow]
    simp [hbit]
  · simp [hlow, hj]

/-- A flag in the low bits of an aligned address does not hide the address. -/
theorem or_and_not_low {x : BitVec 64} (h : 16 ∣ x.toNat) (hi : i < 4) :
    (x ||| 1#64 <<< i) &&& ~~~0xF#64 = x := by
  have hflag : ∀ i < 4, 1#64 <<< i &&& ~~~0xF#64 = 0#64 := by decide
  rw [BitVec.and_or_distrib_right, and_not_low h, hflag i hi, BitVec.or_zero]

theorem getLsbD_allOnes_shiftLeft (hj : j < w) :
    (BitVec.allOnes w <<< i).getLsbD j = decide (i ≤ j) := by
  have hsub : j - i < w := by omega
  rw [BitVec.getLsbD_shiftLeft, BitVec.getLsbD_allOnes]
  by_cases hi : i ≤ j
  · simp [hj, hi, hsub]
  · simp [hi, Nat.not_le.mp hi]

theorem not_allOnes_shiftLeft_add_one : ~~~(BitVec.allOnes w <<< i) + 1#w = BitVec.twoPow w i := by
  rw [← BitVec.neg_eq_not_add, ← BitVec.neg_one_eq_allOnes, BitVec.shiftLeft_neg, BitVec.neg_neg,
    BitVec.twoPow_eq]

theorem and_twoPow_sub_one {x : BitVec w} (hi : i < w) (h : ∀ j < i, x.getLsbD j = false) :
    x &&& (BitVec.twoPow w i - 1#w) = 0#w := by
  have hpos := Nat.two_pow_pos i
  have hlt : 2 ^ i < 2 ^ w := Nat.pow_lt_pow_right (by decide) hi
  have hone : (1#w).toNat = 1 := by
    rw [BitVec.toNat_ofNat]
    exact Nat.mod_eq_of_lt (by omega)
  have hmask : (BitVec.twoPow w i - 1#w).toNat = 2 ^ i - 1 := by
    rw [BitVec.toNat_sub_of_le, BitVec.toNat_twoPow_of_lt hi, hone]
    rw [BitVec.le_def, BitVec.toNat_twoPow_of_lt hi, hone]
    exact hpos
  refine BitVec.eq_of_getLsbD_eq fun j hj ↦ ?_
  rw [BitVec.getLsbD_and, BitVec.getLsbD_zero, ← BitVec.testBit_toNat (BitVec.twoPow w i - 1#w), hmask,
    Nat.testBit_two_pow_sub_one]
  by_cases hji : j < i
  · rw [h j hji, Bool.false_and]
  · simp [hji]

theorem setWidth_and_not {v : ℕ} (x m : BitVec w) :
    (x &&& ~~~m).setWidth v = x.setWidth v &&& ~~~(m.setWidth v) := by
  refine BitVec.eq_of_getLsbD_eq fun j hj ↦ ?_
  simp only [BitVec.getLsbD_setWidth, BitVec.getLsbD_and, BitVec.getLsbD_not, hj, decide_true,
    Bool.true_and]
  by_cases hw : j < w
  · simp [hw]
  · simp [BitVec.getLsbD_of_ge x j (by omega)]

theorem or_and_not_self (x m : BitVec w) : (x ||| m) &&& ~~~m = x &&& ~~~m := by
  rw [BitVec.and_or_distrib_right, BitVec.and_not_self]
  exact BitVec.or_zero

end Bits
