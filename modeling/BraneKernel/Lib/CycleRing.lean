import Mathlib.Data.List.Basic
import Mathlib.Data.Nat.ModEq
import Mathlib.Tactic.Common

/-! Rings of `n` slots whose entries carry the parity of the lap they were
written in. Positions count the entries written; a reader that shares nothing
but the slots tells a new entry from the old one by its bit. -/

namespace CycleRing

variable {α : Type} {n k : ℕ}

def cycle (n k : ℕ) : Bool := k / n % 2 == 0

theorem cycle_of_lap {lap i : ℕ} (hi : i < n) : cycle n (n * lap + i) = (lap % 2 == 0) := by
  rw [cycle, Nat.mul_add_div (by omega), Nat.div_eq_of_lt hi, Nat.add_zero]

theorem not_parity (lap : ℕ) : (!(lap % 2 == 0)) = ((lap + 1) % 2 == 0) := by
  rcases Nat.mod_two_eq_zero_or_one lap with h | h
  · simp [h, Nat.add_mod]
  · simp [h, Nat.add_mod]

theorem cycle_add_lap (hn : 0 < n) (k : ℕ) : cycle n (k + n) = !cycle n k := by
  rw [cycle, Nat.add_div_right k hn, cycle, not_parity]

theorem exists_lap (hn : 0 < n) (k : ℕ) : ∃ lap i, i < n ∧ k = n * lap + i :=
  ⟨k / n, k % n, Nat.mod_lt k hn, (Nat.div_add_mod k n).symm⟩

theorem index_add {m : ℕ} (hn : 0 < n) (hm : k % n + m ≤ n) :
    (k + m) % n = if k % n + m = n then 0 else k % n + m := by
  obtain ⟨lap, i, hi, rfl⟩ := exists_lap hn k
  rw [Nat.mul_add_mod, Nat.mod_eq_of_lt hi] at *
  rw [Nat.add_assoc, Nat.mul_add_mod]
  split_ifs with hlast
  · rw [hlast, Nat.mod_self]
  · exact Nat.mod_eq_of_lt (by omega)

theorem cycle_add {m : ℕ} (hn : 0 < n) (hm : k % n + m ≤ n) :
    cycle n (k + m) = if k % n + m = n then !cycle n k else cycle n k := by
  obtain ⟨lap, i, hi, rfl⟩ := exists_lap hn k
  rw [Nat.mul_add_mod, Nat.mod_eq_of_lt hi] at *
  rw [cycle_of_lap hi, Nat.add_assoc]
  split_ifs with hlast
  · have hnext : n * lap + (i + m) = n * (lap + 1) + 0 := by rw [hlast, Nat.mul_succ, Nat.add_zero]
    rw [hnext, cycle_of_lap hn, not_parity]
  · rw [cycle_of_lap (by omega)]

/-- What the slots show of the entries written so far: the latest lap of them,
and no set bit where nothing was written. -/
structure Shows (n : ℕ) (bit : α → Bool) (slots : ℕ → α) (written : List α) : Prop where
  stamped (k : ℕ) (hk : k < written.length) : bit written[k] = cycle n k
  latest (k : ℕ) (hk : k < written.length) (hlap : written.length ≤ k + n) :
    slots (k % n) = written[k]
  blank (i : ℕ) (hi : i < n) (hnew : written.length ≤ i) : bit (slots i) = false

variable {bit : α → Bool} {slots slots' : ℕ → α} {written : List α} {x : α}

theorem shows_nil (h : ∀ i < n, bit (slots i) = false) : Shows n bit slots [] where
  stamped k hk := absurd hk (Nat.not_lt_zero k)
  latest k hk := absurd hk (Nat.not_lt_zero k)
  blank i hi _ := h i hi

theorem Shows.congr (h : Shows n bit slots written) (hn : 0 < n)
    (hslots : ∀ i < n, slots' i = slots i) : Shows n bit slots' written where
  stamped := h.stamped
  latest k hk hlap := (hslots _ (Nat.mod_lt k hn)).trans (h.latest k hk hlap)
  blank i hi hnew := by
    rw [hslots i hi]
    exact h.blank i hi hnew

theorem Shows.write (h : Shows n bit slots written) (hn : 0 < n)
    (hx : bit x = cycle n written.length)
    (hslots : ∀ i < n, slots' i = if i = written.length % n then x else slots i) :
    Shows n bit slots' (written ++ [x]) where
  stamped k hk := by
    by_cases hlast : k < written.length
    · rw [List.getElem_append_left hlast]
      exact h.stamped k hlast
    · obtain rfl : k = written.length := by
        rw [List.length_append, List.length_singleton] at hk
        omega
      rwa [List.getElem_concat_length rfl]
  latest k hk hlap := by
    rw [List.length_append, List.length_singleton] at hk hlap
    rw [hslots _ (Nat.mod_lt k hn)]
    by_cases hlast : k < written.length
    · -- two positions less than a lap apart never share a slot
      have hne : k % n ≠ written.length % n := by
        intro hslot
        have hdvd : n ∣ written.length - k := (Nat.modEq_iff_dvd' hlast.le).mp hslot
        have hle := Nat.le_of_dvd (by omega) hdvd
        omega
      rw [if_neg hne, List.getElem_append_left hlast]
      exact h.latest k hlast (by omega)
    · obtain rfl : k = written.length := by omega
      rw [if_pos rfl, List.getElem_concat_length rfl]
  blank i hi hnew := by
    rw [List.length_append, List.length_singleton] at hnew
    have hne : i ≠ written.length % n := by
      rw [Nat.mod_eq_of_lt (by omega)]
      omega
    rw [hslots i hi, if_neg hne]
    exact h.blank i hi (by omega)

theorem Shows.fresh_iff (h : Shows n bit slots written) (hn : 0 < n) (hk : k ≤ written.length)
    (hlap : written.length ≤ k + n) : bit (slots (k % n)) = cycle n k ↔ k < written.length := by
  constructor
  · intro hbit
    by_contra hnew
    obtain rfl : k = written.length := by omega
    by_cases hfirst : written.length < n
    · have hblank := h.blank _ hfirst le_rfl
      have htrue : cycle n written.length = true := by
        rw [cycle, Nat.div_eq_of_lt hfirst]
        rfl
      rw [Nat.mod_eq_of_lt hfirst, hblank, htrue] at hbit
      exact Bool.noConfusion hbit
    · -- the slot still shows the entry of the lap before
      obtain ⟨old, hold⟩ : ∃ old, written.length = old + n := ⟨written.length - n, by omega⟩
      have hlt : old < written.length := by omega
      have hslot : written.length % n = old % n := by rw [hold, Nat.add_mod_right]
      have hcycle : cycle n written.length = !cycle n old := by rw [hold, cycle_add_lap hn]
      rw [hslot, h.latest old hlt (by omega), h.stamped old hlt, hcycle] at hbit
      simp at hbit
  · intro hlt
    rw [h.latest k hlt hlap, h.stamped k hlt]

end CycleRing
