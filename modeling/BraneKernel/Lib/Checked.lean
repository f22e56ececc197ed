import Mathlib.Data.BitVec
import Mathlib.Tactic.Common

/-! Fixed-width arithmetic with the overflowing results left out. -/

namespace Checked

variable {w : ℕ} {a b c : BitVec w}

def add (a b : BitVec w) : Option (BitVec w) :=
  if a.toNat + b.toNat < 2 ^ w then some (a + b) else none

def sub (a b : BitVec w) : Option (BitVec w) := if b.toNat ≤ a.toNat then some (a - b) else none

def mul (a b : BitVec w) : Option (BitVec w) :=
  if a.toNat * b.toNat < 2 ^ w then some (a * b) else none

def saturatingSucc (a : BitVec w) : BitVec w := if a = BitVec.allOnes w then a else a + 1

theorem add_eq_some_iff : add a b = some c ↔ c.toNat = a.toNat + b.toNat := by
  unfold add
  split_ifs with h
  · rw [Option.some_inj, ← BitVec.toNat_inj, BitVec.toNat_add, Nat.mod_eq_of_lt h, eq_comm]
  · have hc := c.isLt
    simp only [false_iff]
    omega

theorem sub_eq_some_iff : sub a b = some c ↔ c.toNat + b.toNat = a.toNat := by
  unfold sub
  split_ifs with h
  · rw [Option.some_inj, ← BitVec.toNat_inj, BitVec.toNat_sub_of_le h]
    omega
  · simp only [false_iff]
    omega

theorem mul_eq_some_iff : mul a b = some c ↔ c.toNat = a.toNat * b.toNat := by
  unfold mul
  split_ifs with h
  · rw [Option.some_inj, ← BitVec.toNat_inj, BitVec.toNat_mul, Nat.mod_eq_of_lt h, eq_comm]
  · have hc := c.isLt
    simp only [false_iff]
    omega

theorem add_of_lt (h : a.toNat + b.toNat < 2 ^ w) :
    ∃ c, add a b = some c ∧ c.toNat = a.toNat + b.toNat := by
  have hs : add a b = some (a + b) := if_pos h
  exact ⟨_, hs, add_eq_some_iff.mp hs⟩

theorem sub_of_le (h : b.toNat ≤ a.toNat) :
    ∃ c, sub a b = some c ∧ c.toNat + b.toNat = a.toNat := by
  have hs : sub a b = some (a - b) := if_pos h
  exact ⟨_, hs, sub_eq_some_iff.mp hs⟩

theorem mul_of_lt (h : a.toNat * b.toNat < 2 ^ w) :
    ∃ c, mul a b = some c ∧ c.toNat = a.toNat * b.toNat := by
  have hs : mul a b = some (a * b) := if_pos h
  exact ⟨_, hs, mul_eq_some_iff.mp hs⟩

theorem saturatingSucc_toNat (h : a.toNat + 1 < 2 ^ w) :
    (saturatingSucc a).toNat = a.toNat + 1 := by
  have hne : a ≠ BitVec.allOnes w := by
    intro he
    rw [he, BitVec.toNat_allOnes] at h
    omega
  have hone : 1 < 2 ^ w := by omega
  have hbit : (1 : BitVec w).toNat = 1 := by
    rw [BitVec.ofNat_eq_ofNat, BitVec.toNat_ofNat, Nat.mod_eq_of_lt hone]
  rw [saturatingSucc, if_neg hne, BitVec.toNat_add, hbit, Nat.mod_eq_of_lt h]

theorem toNat_widen {v : ℕ} (h : w ≤ v) (a : BitVec w) : (a.setWidth v).toNat = a.toNat := by
  have hlt : a.toNat < 2 ^ v := a.isLt.trans_le (Nat.pow_le_pow_right Nat.two_pos h)
  rw [BitVec.toNat_setWidth, Nat.mod_eq_of_lt hlt]

theorem toNat_widen_shiftLeft {v k : ℕ} (h : w + k ≤ v) (a : BitVec w) :
    (a.setWidth v <<< k).toNat = a.toNat * 2 ^ k := by
  have hlt : a.toNat * 2 ^ k < 2 ^ v :=
    calc a.toNat * 2 ^ k < 2 ^ w * 2 ^ k := Nat.mul_lt_mul_of_pos_right a.isLt (Nat.two_pow_pos k)
      _ = 2 ^ (w + k) := (Nat.pow_add 2 w k).symm
      _ ≤ 2 ^ v := Nat.pow_le_pow_right Nat.two_pos h
  rw [BitVec.toNat_shiftLeft, toNat_widen (by omega), Nat.shiftLeft_eq, Nat.mod_eq_of_lt hlt]

end Checked
