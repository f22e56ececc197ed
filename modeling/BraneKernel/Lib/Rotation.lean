import Mathlib.Data.List.Nodup
import Mathlib.Data.List.Range
import Mathlib.Tactic.Common

namespace Rotation

variable {α : Type}

def window (x : ℕ → α) (k n : ℕ) : List α := (List.range n).map fun i ↦ x (k + i)

theorem window_snoc (x : ℕ → α) (k n : ℕ) : window x k (n + 1) = window x k n ++ [x (k + n)] := by
  simp [window, List.range_succ]

theorem window_cons (x : ℕ → α) (k n : ℕ) : window x k (n + 1) = x k :: window x (k + 1) n := by
  simp [window, List.range_succ_eq_map, Function.comp_def, Nat.add_right_comm k, Nat.add_assoc]

/-- Any run of as many selections as there are elements takes each element once. -/
def Fair (x : ℕ → α) (l : List α) : Prop := ∀ k, (window x k l.length).Perm l

theorem Fair.periodic {x : ℕ → α} {l : List α} (h : Fair x l) (hl : l ≠ []) (k : ℕ) :
    x (k + l.length) = x k := by
  obtain ⟨n, hn⟩ := Nat.exists_eq_succ_of_ne_zero (List.length_pos_iff.mpr hl).ne'
  have hfirst := h k
  have hsecond := h (k + 1)
  rw [hn, window_cons] at hfirst
  rw [hn, window_snoc] at hsecond
  have hperm : ([x k] ++ window x (k + 1) n).Perm ([x (k + 1 + n)] ++ window x (k + 1) n) :=
    (hfirst.trans hsecond.symm).trans List.perm_append_comm
  have heq := List.singleton_perm_singleton.mp ((List.perm_append_right_iff _).mp hperm)
  rw [heq, hn, Nat.succ_eq_add_one, Nat.add_right_comm, Nat.add_assoc]

variable [DecidableEq α]

def toBack (l : List α) (a : α) : List α := l.erase a ++ [a]

theorem toBack_perm {l : List α} {a : α} (h : a ∈ l) : (toBack l a).Perm l :=
  (List.perm_append_singleton _ _).trans (List.perm_cons_erase h).symm

theorem foldl_toBack {l as : List α} (hl : l.Nodup) (has : as.Nodup) (hsub : as ⊆ l) :
    as.foldl toBack l = l.filter (· ∉ as) ++ as := by
  induction as using List.reverseRecOn with
  | nil => simp
  | append_singleton as a ih =>
    have hnodup : as.Nodup := has.sublist (List.sublist_append_left as [a])
    have hfresh : a ∉ as := fun ha ↦ (List.nodup_append.mp has).2.2 a ha a (by simp) rfl
    have hin : a ∈ l.filter (· ∉ as) := by simp [hfresh, hsub (by simp : a ∈ as ++ [a])]
    rw [List.foldl_append, ih hnodup fun b hb ↦ hsub (List.mem_append_left _ hb), List.foldl_cons,
      List.foldl_nil, toBack, List.erase_append_left _ hin, (hl.filter _).erase_eq_filter,
      List.filter_filter, List.append_assoc]
    congr 1
    apply List.filter_congr
    intro b hb
    by_cases hba : b = a <;> simp [hba]

theorem foldl_toBack_of_perm {l as : List α} (hl : l.Nodup) (h : as.Perm l) :
    as.foldl toBack l = as := by
  rw [foldl_toBack hl (h.nodup_iff.mpr hl) h.subset]
  simpa using fun a ha ↦ h.mem_iff.mpr ha

section Selections

variable {t : ℕ → List α} {x : ℕ → α}

theorem foldl_window (ht : ∀ k, t (k + 1) = toBack (t k) (x k)) (k n : ℕ) :
    t (k + n) = (window x k n).foldl toBack (t k) := by
  induction n with
  | zero => rfl
  | succ n ih => rw [window_snoc, List.foldl_append, ← ih, List.foldl_cons, List.foldl_nil, ← ht,
      Nat.add_assoc]

theorem perm_start (ht : ∀ k, t (k + 1) = toBack (t k) (x k)) (hx : ∀ k, x k ∈ t k) (k : ℕ) :
    (t k).Perm (t 0) := by
  induction k with
  | zero => exact .refl _
  | succ k ih =>
    rw [ht]
    exact (toBack_perm (hx k)).trans ih

theorem Fair.front (hfair : Fair x (t 0)) (ht : ∀ k, t (k + 1) = toBack (t k) (x k))
    (hx : ∀ k, x k ∈ t k) (hnodup : (t 0).Nodup) (k : ℕ) :
    (t (k + (t 0).length))[0]? = some (x (k + (t 0).length)) := by
  have hne : t 0 ≠ [] := List.ne_nil_of_mem (hx 0)
  have hperm := perm_start ht hx k
  have horder : t (k + (t 0).length) = window x k (t 0).length := by
    rw [foldl_window ht]
    exact foldl_toBack_of_perm (hperm.nodup_iff.mpr hnodup) ((hfair k).trans hperm.symm)
  obtain ⟨n, hn⟩ := Nat.exists_eq_succ_of_ne_zero (List.length_pos_iff.mpr hne).ne'
  rw [hfair.periodic hne, horder, hn, Nat.succ_eq_add_one, window_cons]
  rfl

end Selections

end Rotation
