import Mathlib.Data.List.FinRange
import Mathlib.Tactic.Common

/-! Searches through an index range that stop at the first hit, and scans for a
least element. -/

namespace Search

variable {β : Type} {n : ℕ} {f : Fin n → Option β} {b : β}

theorem first_hit (h : (List.finRange n).findSome? f = some b) :
    ∃ i, f i = some b ∧ ∀ j, j < i → f j = none := by
  obtain ⟨before, i, after, hsplit, hi, hbefore⟩ := List.findSome?_eq_some_iff.mp h
  refine ⟨i, hi, fun j hj ↦ hbefore j ?_⟩
  have hsorted := List.pairwise_lt_finRange n
  have hmem := List.mem_finRange j
  rw [hsplit, List.pairwise_append, List.pairwise_cons] at hsorted
  rw [hsplit, List.mem_append, List.mem_cons] at hmem
  rcases hmem with hmem | rfl | hmem
  · exact hmem
  · exact absurd hj (lt_irrefl j)
  · exact absurd hj (lt_asymm (hsorted.2.1.1 j hmem))

theorem no_hit (h : (List.finRange n).findSome? f = none) (i : Fin n) : f i = none :=
  List.findSome?_eq_none_iff.mp h i (List.mem_finRange i)

section Least

variable {α : Type} (value : α → ℕ)

def least (first : α) (rest : List α) : α :=
  rest.foldl (fun best a ↦ if value a < value best then a else best) first

theorem least_mem (first : α) (rest : List α) : least value first rest ∈ first :: rest := by
  induction rest generalizing first with
  | nil => exact List.mem_cons_self
  | cons a rest ih =>
    rw [least, List.foldl_cons]
    split_ifs
    · exact List.mem_cons_of_mem _ (ih a)
    · rcases List.mem_cons.mp (ih first) with h | h
      · exact List.mem_cons.mpr (.inl h)
      · exact List.mem_cons_of_mem _ (List.mem_cons_of_mem _ h)

theorem least_le (first : α) (rest : List α) :
    ∀ a ∈ first :: rest, value (least value first rest) ≤ value a := by
  induction rest generalizing first with
  | nil =>
    intro a ha
    rw [List.mem_singleton.mp ha]
    exact le_rfl
  | cons b rest ih =>
    intro a ha
    rw [least, List.foldl_cons]
    have hb := ih b
    have hfirst := ih first
    rw [least] at hb hfirst
    split_ifs with hlt
    · rcases List.mem_cons.mp ha with rfl | ha
      · exact (hb b List.mem_cons_self).trans hlt.le
      · exact hb a ha
    · rcases List.mem_cons.mp ha with rfl | ha
      · exact hfirst a List.mem_cons_self
      · rcases List.mem_cons.mp ha with rfl | ha
        · exact (hfirst first List.mem_cons_self).trans (Nat.not_lt.mp hlt)
        · exact hfirst a (List.mem_cons_of_mem _ ha)

end Least

end Search
