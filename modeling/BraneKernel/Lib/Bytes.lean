import Mathlib.Data.BitVec
import Mathlib.Tactic.Common

abbrev Bytes := List (BitVec 8)

namespace Bytes

abbrev Sized (n : ℕ) := { bytes : Bytes // bytes.length = n }

variable (bytes : Bytes)

def slice (start n : ℕ) (h : start + n ≤ bytes.length) : Sized n :=
  ⟨(bytes.drop start).take n, by rw [List.length_take, List.length_drop]; omega⟩

theorem slice_all {n : ℕ} (bytes : Sized n) (h : 0 + n ≤ bytes.1.length) :
    slice bytes.1 0 n h = bytes :=
  Subtype.ext (List.take_of_length_le bytes.2.le)

def le : ℕ → ℕ → Bytes
  | 0, _ => []
  | w + 1, n => BitVec.ofNat 8 n :: le w (n / 256)

def ofLe : Bytes → ℕ
  | [] => 0
  | b :: bytes => b.toNat + 256 * ofLe bytes

@[simp] theorem length_le (w n : ℕ) : (le w n).length = w := by
  induction w generalizing n with
  | zero => rfl
  | succ w ih => rw [le, List.length_cons, ih]

theorem ofLe_le (w n : ℕ) : ofLe (le w n) = n % 256 ^ w := by
  induction w generalizing n with
  | zero => rw [le, ofLe, Nat.pow_zero, Nat.mod_one]
  | succ w ih =>
    have hpow : 256 ^ (w + 1) = 256 * 256 ^ w := Nat.pow_succ'
    rw [le, ofLe, ih, BitVec.toNat_ofNat, hpow, Nat.mod_mul]

theorem le_injective {w m n : ℕ} (hm : m < 256 ^ w) (hn : n < 256 ^ w) (h : le w m = le w n) :
    m = n := by
  have hread := congrArg ofLe h
  rwa [ofLe_le, ofLe_le, Nat.mod_eq_of_lt hm, Nat.mod_eq_of_lt hn] at hread

theorem ofLe_lt : ofLe bytes < 256 ^ bytes.length := by
  induction bytes with
  | nil => exact Nat.one_pos
  | cons b bytes ih =>
    have hb := b.isLt
    rw [ofLe, List.length_cons, Nat.pow_succ']
    omega

theorem le_ofLe : le bytes.length (ofLe bytes) = bytes := by
  induction bytes with
  | nil => rfl
  | cons b bytes ih =>
    have hb := b.isLt
    have hlow : BitVec.ofNat 8 (b.toNat + 256 * ofLe bytes) = b := by
      apply BitVec.eq_of_toNat_eq
      rw [BitVec.toNat_ofNat]
      omega
    have hhigh : (b.toNat + 256 * ofLe bytes) / 256 = ofLe bytes := by omega
    rw [ofLe, List.length_cons, le, hlow, hhigh, ih]

theorem le_prefix_iff {v w : ℕ} (hv : 2 ^ v = 256 ^ w) {n : BitVec v} {bytes : Bytes} :
    le w n.toNat <+: bytes ↔ w ≤ bytes.length ∧ BitVec.ofNat v (ofLe (bytes.take w)) = n := by
  constructor
  · intro h
    have hlen := h.length_le
    rw [length_le] at hlen
    have htake : bytes.take w = le w n.toNat := by
      rw [List.prefix_iff_eq_take, length_le] at h
      exact h.symm
    rw [htake, ofLe_le, ← hv, Nat.mod_eq_of_lt n.isLt, BitVec.ofNat_toNat, BitVec.setWidth_eq]
    exact ⟨hlen, rfl⟩
  · intro h
    obtain ⟨hlen, rfl⟩ := h
    have htake : (bytes.take w).length = w := List.length_take_of_le hlen
    have hfit : ofLe (bytes.take w) < 2 ^ v := by
      have hlt := ofLe_lt (bytes.take w)
      rwa [htake, ← hv] at hlt
    have hle := le_ofLe (bytes.take w)
    rw [htake] at hle
    rw [BitVec.toNat_ofNat, Nat.mod_eq_of_lt hfit, hle]
    exact List.take_prefix ..

def field (width : ℕ) (bytes : Bytes) (start n : ℕ) : BitVec width :=
  BitVec.ofNat width (ofLe ((bytes.drop start).take n))

def wordAt (width : ℕ) (bytes : Bytes) (start n : ℕ) : Option (BitVec width) :=
  if start + n ≤ bytes.length then some (field width bytes start n) else none

theorem field_window {bytes : Bytes} {offset length width start n : ℕ} (h : start + n ≤ length) :
    field width ((bytes.drop offset).take length) start n = field width bytes (offset + start) n := by
  rw [field, field, List.drop_take, List.take_take, List.drop_drop, Nat.min_eq_left (by omega)]

theorem field_byte {bytes : Bytes} {i : ℕ} (h : i < bytes.length) : field 8 bytes i 1 = bytes[i] := by
  rw [field, List.drop_eq_getElem_cons h, List.take_succ_cons, List.take_zero, ofLe, ofLe,
    Nat.mul_zero, Nat.add_zero, BitVec.ofNat_toNat, BitVec.setWidth_eq]

def be (w n : ℕ) : Bytes := (le w n).reverse

def ofBe : ℕ := ofLe bytes.reverse

@[simp] theorem length_be (w n : ℕ) : (be w n).length = w := by simp [be]

theorem ofBe_be (w n : ℕ) : ofBe (be w n) = n % 256 ^ w := by
  simp only [ofBe, be, List.reverse_reverse, ofLe_le]

theorem ofBe_lt : ofBe bytes < 256 ^ bytes.length := by
  simpa only [ofBe, List.length_reverse] using ofLe_lt bytes.reverse

theorem append_prefix_iff {a b l : Bytes} :
    a ++ b <+: l ↔ a <+: l ∧ b <+: l.drop a.length := by
  constructor
  · intro h
    obtain ⟨r, rfl⟩ := h
    rw [List.append_assoc, List.drop_left]
    exact ⟨List.prefix_append .., List.prefix_append ..⟩
  · intro h
    obtain ⟨⟨r, rfl⟩, hb⟩ := h
    rw [List.drop_left] at hb
    exact (List.prefix_append_right_inj a).mpr hb

theorem singleton_prefix_iff {b : BitVec 8} {l : Bytes} : [b] <+: l ↔ l[0]? = some b := by
  cases l with
  | nil => simp
  | cons c l => simp [List.cons_prefix_cons, eq_comm]

end Bytes
