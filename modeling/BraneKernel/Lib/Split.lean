import Mathlib.Tactic.Common

/-! Cutting a list at the first few occurrences of a separator. -/

namespace Split

variable {α : Type} [DecidableEq α] {sep : α}

def cut (sep : α) : List α → List α × Option (List α)
  | [] => ([], none)
  | a :: l => if a = sep then ([], some l) else (a :: (cut sep l).1, (cut sep l).2)

def splitn (sep : α) : ℕ → List α → List (List α)
  | 0, _ => []
  | 1, l => [l]
  | n + 2, l => (cut sep l).1 :: ((cut sep l).2.elim [] (splitn sep (n + 1)))

theorem cut_append {piece : List α} (h : sep ∉ piece) (rest : List α) :
    cut sep (piece ++ sep :: rest) = (piece, some rest) := by
  induction piece with
  | nil => exact if_pos rfl
  | cons a piece ih =>
    rw [List.mem_cons, not_or] at h
    rw [List.cons_append, cut, if_neg (Ne.symm h.1), ih h.2]

theorem not_mem_cut (sep : α) (l : List α) : sep ∉ (cut sep l).1 := by
  induction l with
  | nil => exact List.not_mem_nil
  | cons a l ih =>
    rw [cut]
    split_ifs with h
    · exact List.not_mem_nil
    · rw [List.mem_cons, not_or]
      exact ⟨Ne.symm h, ih⟩

theorem splitn_append {piece : List α} (h : sep ∉ piece) (rest : List α) (n : ℕ) :
    splitn sep (n + 2) (piece ++ sep :: rest) = piece :: splitn sep (n + 1) rest := by
  rw [splitn, cut_append h]
  rfl

theorem not_mem_splitn {n i : ℕ} {l piece : List α} (hi : i ≤ n)
    (h : (splitn sep (n + 2) l)[i]? = some piece) : sep ∉ piece := by
  induction i generalizing n l with
  | zero =>
    rw [splitn, List.getElem?_cons_zero, Option.some_inj] at h
    rw [← h]
    exact not_mem_cut sep l
  | succ i ih =>
    obtain ⟨m, rfl⟩ := Nat.exists_eq_add_of_le hi
    rw [splitn, List.getElem?_cons_succ] at h
    cases hrest : (cut sep l).2 with
    | none =>
      rw [hrest] at h
      simp at h
    | some rest =>
      rw [hrest, Option.elim_some, Nat.add_right_comm i 1 m] at h
      exact ih (Nat.le_add_right i m) h

end Split
