import Mathlib.Data.List.Basic
import Mathlib.Data.Nat.ModEq
import Mathlib.Tactic.Common

/-! Lists kept in a ring of cells: the oldest element stands at `head`, the others follow it
around the end of the cells. -/

namespace Ring

variable {α : Type} {cells : List (Option α)} {head : ℕ} {a : α} {l : List α}

def Holds (cells : List (Option α)) (head : ℕ) (l : List α) : Prop :=
  l.length ≤ cells.length ∧ ∀ i < l.length, cells[(head + i) % cells.length]? = some l[i]?

def read (cells : List (Option α)) (head count : ℕ) : List α :=
  (List.range count).filterMap fun i ↦ (cells[(head + i) % cells.length]?).join

theorem holds_nil (cells : List (Option α)) (head : ℕ) : Holds cells head [] :=
  ⟨Nat.zero_le _, fun _ hi ↦ absurd hi (Nat.not_lt_zero _)⟩

theorem index_ne {n i j : ℕ} (head : ℕ) (hi : i < n) (hj : j < n) (h : i ≠ j) :
    (head + i) % n ≠ (head + j) % n := by
  intro he
  have hmod : i % n = j % n := Nat.ModEq.add_left_cancel' head he
  rw [Nat.mod_eq_of_lt hi, Nat.mod_eq_of_lt hj] at hmod
  exact h hmod

theorem index_succ (n head i : ℕ) : ((head + 1) % n + i) % n = (head + (i + 1)) % n := by
  rw [Nat.mod_add_mod, Nat.add_assoc, Nat.add_comm 1 i]

theorem Holds.push (h : Holds cells head l) (hlt : l.length < cells.length) (a : α) :
    Holds (cells.set ((head + l.length) % cells.length) (some a)) head (l ++ [a]) := by
  have hpos : 0 < cells.length := Nat.zero_lt_of_lt hlt
  refine ⟨?_, fun i hi ↦ ?_⟩
  · rw [List.length_append, List.length_set]
    exact hlt
  · rw [List.length_append, List.length_singleton] at hi
    rw [List.length_set]
    rcases Nat.lt_succ_iff_lt_or_eq.mp hi with hi | rfl
    · rw [List.getElem?_set_ne (index_ne head hlt (hi.trans hlt) hi.ne'), h.2 i hi,
        List.getElem?_append_left hi]
    · rw [List.getElem?_set_self (Nat.mod_lt _ hpos), List.getElem?_concat_length]

section

variable (h : Holds cells head (a :: l))
include h

theorem Holds.head_eq :
    cells[head % cells.length]? = some (some a) :=
  h.2 0 (Nat.succ_pos _)

theorem Holds.tail :
    Holds cells ((head + 1) % cells.length) l := by
  refine ⟨Nat.le_of_succ_le h.1, fun i hi ↦ ?_⟩
  rw [index_succ, h.2 (i + 1) (Nat.succ_lt_succ hi), List.getElem?_cons_succ]

theorem Holds.pop :
    Holds (cells.set (head % cells.length) none) ((head + 1) % cells.length) l := by
  have hlen : l.length < cells.length := h.1
  refine ⟨?_, fun i hi ↦ ?_⟩
  · rw [List.length_set]
    exact hlen.le
  · have hne := index_ne head (Nat.zero_lt_of_lt hlen) (Nat.lt_of_le_of_lt hi hlen)
      (Nat.succ_ne_zero i).symm
    rw [Nat.add_zero] at hne
    rw [List.length_set, index_succ, List.getElem?_set_ne hne, h.2 (i + 1) (Nat.succ_lt_succ hi),
      List.getElem?_cons_succ]

theorem Holds.overwrite (b : α) :
    Holds (cells.set ((head + (a :: l).length) % cells.length) (some b))
      ((head + 1) % cells.length) (l ++ [b]) := by
  have hlt : l.length < cells.length := h.1
  have hidx : (head + (a :: l).length) % cells.length =
      ((head + 1) % cells.length + l.length) % cells.length := (index_succ ..).symm
  rw [hidx]
  exact h.tail.push hlt b

end

theorem filterMap_range (l : List α) {n : ℕ} {f : ℕ → Option α} (h : ∀ i < n, f i = l[i]?) :
    (List.range n).filterMap f = l.take n := by
  induction n with
  | zero => rfl
  | succ n ih =>
    rw [List.range_succ, List.filterMap_append, ih fun i hi ↦ h i (Nat.lt_succ_of_lt hi),
      List.take_add_one, List.filterMap_cons, h n (Nat.lt_succ_self n), List.filterMap_nil]
    cases l[n]? with
    | none => rfl
    | some a => rfl

theorem Holds.read_eq (h : Holds cells head l) : read cells head l.length = l := by
  rw [read, filterMap_range l, List.take_length]
  intro i hi
  rw [h.2 i hi, Option.join_some]

theorem Holds.read_back (h : Holds cells head l) (n : ℕ) :
    ((List.range (min n l.length)).filterMap fun i ↦
      (cells[(head + l.length - 1 - i) % cells.length]?).join) = l.reverse.take n := by
  rw [filterMap_range l.reverse]
  · rw [← List.length_reverse, ← List.take_eq_take_min]
  · intro i hi
    have hi : i < l.length := hi.trans_le (Nat.min_le_right ..)
    have hidx : head + l.length - 1 - i = head + (l.length - 1 - i) := by omega
    rw [hidx, h.2 _ (by omega), Option.join_some, List.getElem?_reverse hi]

section Newest

variable {written : List α} {count r : ℕ}

/-- Cells written in turn, the `k`-th value to cell `k` around the ring. -/
def Newest (cells : List (Option α)) (written : List α) : Prop :=
  ∀ k < written.length, written.length ≤ k + cells.length →
    cells[k % cells.length]? = some written[k]?

theorem newest_nil (cells : List (Option α)) : Newest cells [] :=
  fun _ hk ↦ absurd hk (Nat.not_lt_zero _)

theorem Newest.write (h : Newest cells written) (hpos : 0 < cells.length) (a : α) :
    Newest (cells.set (written.length % cells.length) (some a)) (written ++ [a]) := by
  intro k hk hlap
  rw [List.length_append, List.length_singleton] at hk hlap
  rw [List.length_set] at hlap ⊢
  rcases Nat.lt_succ_iff_lt_or_eq.mp hk with hk | rfl
  · have hne := index_ne k (j := written.length - k) hpos (by omega) (by omega)
    rw [Nat.add_zero, Nat.add_sub_cancel' hk.le] at hne
    rw [List.getElem?_set_ne hne.symm, h k hk (by omega), List.getElem?_append_left hk]
  · rw [List.getElem?_set_self (Nat.mod_lt _ hpos), List.getElem?_concat_length]

theorem Newest.exists_of_full (h : Newest cells written) (hfull : cells.length ≤ written.length)
    (hr : r < cells.length) : ∃ a, cells[r]? = some (some a) := by
  obtain ⟨lap, hlap⟩ : ∃ lap, lap = (written.length - 1 - r) / cells.length := ⟨_, rfl⟩
  have hdiv := Nat.div_add_mod (written.length - 1 - r) cells.length
  have hmod := Nat.mod_lt (written.length - 1 - r) (Nat.zero_lt_of_lt hr)
  rw [← hlap] at hdiv
  have hlt : cells.length * lap + r < written.length := by omega
  have hcell := h (cells.length * lap + r) hlt (by omega)
  rw [Nat.mul_add_mod, Nat.mod_eq_of_lt hr, List.getElem?_eq_getElem hlt] at hcell
  exact ⟨_, hcell⟩

theorem read_mod (cells : List (Option α)) (head count : ℕ) :
    read cells (head % cells.length) count = read cells head count := by
  simp only [read, Nat.mod_add_mod]

theorem Newest.read_eq (h : Newest cells written) (hcells : count ≤ cells.length)
    (hcount : count ≤ written.length) :
    read cells (written.length - count) count = written.drop (written.length - count) := by
  rw [read, filterMap_range (written.drop (written.length - count)), List.take_of_length_le]
  · rw [List.length_drop]
    omega
  · intro i hi
    rw [h _ (by omega) (by omega), Option.join_some, List.getElem?_drop]

theorem Newest.length_read (h : Newest cells written) (hpos : 0 < cells.length)
    (hfull : cells.length ≤ written.length) (head count : ℕ) :
    (read cells head count).length = count := by
  rw [read, List.length_filterMap_eq_countP, List.countP_eq_length.mpr, List.length_range]
  intro i _
  obtain ⟨a, ha⟩ := h.exists_of_full hfull (Nat.mod_lt (head + i) hpos)
  rw [ha]
  rfl

end Newest

end Ring
