import Mathlib.Data.List.DropRight
import Mathlib.Data.List.Induction
import Mathlib.Tactic.Common

/-! Paths as texts with separators, and the components they name. -/

namespace Path

variable {α : Type} [DecidableEq α] {sep : α}

def components (sep : α) (path : List α) : List (List α) :=
  (path.splitOn sep).filter fun component ↦ component ≠ []

theorem components_nil (sep : α) : components sep [] = [] := by
  rw [components, List.splitOn_nil]
  rfl

theorem components_append (sep : α) (a b : List α) :
    components sep (a ++ sep :: b) = components sep a ++ components sep b := by
  rw [components, List.splitOn_append_cons_self, List.filter_append, components, components]

theorem components_cons (sep : α) (path : List α) :
    components sep (sep :: path) = components sep path := by
  have h := components_append sep [] path
  rwa [components_nil, List.nil_append, List.nil_append] at h

variable {component : List α}

theorem components_of_not_mem (h : sep ∉ component) (hne : component ≠ []) :
    components sep component = [component] := by
  rw [components, List.splitOn_eq_singleton h, List.filter_cons_of_pos (by simpa using hne),
    List.filter_nil]

variable {path : List α}

theorem not_mem_of_mem_splitOn {piece : List α} (h : piece ∈ path.splitOn sep) : sep ∉ piece := by
  induction path generalizing piece with
  | nil =>
    rw [List.splitOn_nil, List.mem_singleton] at h
    rw [h]
    exact List.not_mem_nil
  | cons a path ih =>
    rw [List.splitOn_cons_eq_if_modifyHead] at h
    split_ifs at h with ha
    · rcases List.mem_cons.mp h with rfl | h
      · exact List.not_mem_nil
      · exact ih h
    · cases hsplit : path.splitOn sep with
      | nil => exact absurd hsplit (List.splitOn_ne_nil sep path)
      | cons head rest =>
        rw [hsplit] at h ih
        rcases List.mem_cons.mp h with rfl | h
        · rw [List.mem_cons, not_or]
          exact ⟨fun heq ↦ ha (by rw [heq, beq_self_eq_true]), ih List.mem_cons_self⟩
        · exact ih (List.mem_cons_of_mem head h)

theorem ne_nil_of_mem_components (h : component ∈ components sep path) : component ≠ [] := by
  rw [components, List.mem_filter] at h
  simpa using h.2

theorem not_mem_of_mem_components (h : component ∈ components sep path) : sep ∉ component :=
  not_mem_of_mem_splitOn (List.mem_filter.mp h).1

/-- No component runs across the place between two texts. -/
def Boundary (sep : α) (a b : List α) : Prop :=
  (∀ x ∈ a.getLast?, x = sep) ∨ ∀ y ∈ b.head?, y = sep

instance (sep : α) (a b : List α) : Decidable (Boundary sep a b) :=
  inferInstanceAs (Decidable (_ ∨ _))

theorem components_append_of_boundary {a b : List α} (h : Boundary sep a b) :
    components sep (a ++ b) = components sep a ++ components sep b := by
  rcases h with h | h
  · rcases List.eq_nil_or_concat a with rfl | ⟨a, x, rfl⟩
    · rw [List.nil_append, components_nil, List.nil_append]
    · have hx : x = sep := h x (by simp)
      have hlast := components_append sep a []
      rw [hx, List.concat_eq_append, List.append_assoc, List.singleton_append, components_append,
        hlast, components_nil, List.append_nil]
  · cases b with
    | nil => rw [components_nil, List.append_nil, List.append_nil]
    | cons y b =>
      have hy : y = sep := h y rfl
      rw [hy, components_append, components_cons]

theorem exists_last_piece (sep : α) (a : List α) :
    ∃ start piece, a = start ++ piece ∧ sep ∉ piece ∧ ∀ x ∈ start.getLast?, x = sep := by
  induction a using List.reverseRecOn with
  | nil => exact ⟨[], [], rfl, List.not_mem_nil, by simp⟩
  | append_singleton a x ih =>
    by_cases hx : x = sep
    · exact ⟨a ++ [x], [], (List.append_nil _).symm, List.not_mem_nil, by simp [hx]⟩
    · obtain ⟨start, piece, rfl, hpiece, hstart⟩ := ih
      refine ⟨start, piece ++ [x], List.append_assoc .., ?_, hstart⟩
      simp [hpiece, Ne.symm hx]

theorem exists_first_piece (sep : α) (b : List α) :
    ∃ piece rest, b = piece ++ rest ∧ sep ∉ piece ∧ ∀ y ∈ rest.head?, y = sep := by
  induction b with
  | nil => exact ⟨[], [], rfl, List.not_mem_nil, by simp⟩
  | cons y b ih =>
    by_cases hy : y = sep
    · exact ⟨[], y :: b, rfl, List.not_mem_nil, by simp [hy]⟩
    · obtain ⟨piece, rest, rfl, hpiece, hrest⟩ := ih
      exact ⟨y :: piece, rest, rfl, by simp [hpiece, Ne.symm hy], hrest⟩

theorem components_of_not_boundary {a b : List α} (h : ¬ Boundary sep a b) :
    ∃ before u v after, v ≠ [] ∧ components sep a = before ++ [u] ∧
      components sep (a ++ b) = before ++ (u ++ v) :: after := by
  obtain ⟨start, u, rfl, hu, hstart⟩ := exists_last_piece sep a
  obtain ⟨v, rest, rfl, hv, hrest⟩ := exists_first_piece sep b
  rw [Boundary, not_or] at h
  have hu' : u ≠ [] := by
    rintro rfl
    exact h.1 (by rwa [List.append_nil])
  have hv' : v ≠ [] := by
    rintro rfl
    exact h.2 hrest
  have huv : sep ∉ u ++ v := by
    rw [List.mem_append, not_or]
    exact ⟨hu, hv⟩
  refine ⟨components sep start, u, v, components sep rest, hv', ?_, ?_⟩
  · rw [components_append_of_boundary (.inl hstart), components_of_not_mem hu hu']
  · rw [List.append_assoc, ← List.append_assoc u, components_append_of_boundary (.inl hstart),
      components_append_of_boundary (.inr hrest),
      components_of_not_mem huv (by simp [hu']), List.singleton_append]

theorem boundary_of_prefix {a b : List α}
    (h : components sep a <+: components sep (a ++ b)) : Boundary sep a b := by
  by_contra hnot
  obtain ⟨before, u, v, after, hv, ha, hab⟩ := components_of_not_boundary hnot
  rw [ha, hab, List.prefix_append_right_inj, List.cons_prefix_cons] at h
  exact hv (List.append_right_eq_self.mp h.1.symm)

theorem length_components_le (sep : α) (a b : List α) :
    (components sep a).length ≤ (components sep (a ++ b)).length := by
  by_cases h : Boundary sep a b
  · rw [components_append_of_boundary h, List.length_append]
    exact Nat.le_add_right ..
  · obtain ⟨before, u, v, after, -, ha, hab⟩ := components_of_not_boundary h
    rw [ha, hab, List.length_append, List.length_append, List.length_singleton, List.length_cons]
    omega

def trimStart (sep : α) (path : List α) : List α := path.dropWhile (· == sep)

def trimEnd (sep : α) (path : List α) : List α := path.rdropWhile (· == sep)

def splitLast (sep : α) : List α → Option (List α × List α)
  | [] => none
  | a :: path =>
    match splitLast sep path with
    | some (before, after) => some (a :: before, after)
    | none => if a = sep then some ([], path) else none

theorem components_trimStart (sep : α) (path : List α) :
    components sep (trimStart sep path) = components sep path := by
  induction path with
  | nil => rfl
  | cons a path ih =>
    by_cases ha : a = sep
    · rw [trimStart, List.dropWhile_cons_of_pos (by simpa using ha), ← trimStart, ih, ha,
        components_cons]
    · rw [trimStart, List.dropWhile_cons_of_neg (by simpa using ha)]

theorem components_trimEnd (sep : α) (path : List α) :
    components sep (trimEnd sep path) = components sep path := by
  induction path using List.reverseRecOn with
  | nil => rfl
  | append_singleton path x ih =>
    by_cases hx : x = sep
    · have hone := components_append sep path []
      rw [trimEnd, List.rdropWhile_concat_pos _ _ _ (by simpa using hx), ← trimEnd, ih, hx, hone,
        components_nil, List.append_nil]
    · rw [trimEnd, List.rdropWhile_concat_neg _ _ _ (by simpa using hx)]

theorem getLast_trimEnd (sep : α) (path : List α) : sep ∉ (trimEnd sep path).getLast? := by
  induction path using List.reverseRecOn with
  | nil => simp [trimEnd]
  | append_singleton path x ih =>
    by_cases hx : x = sep
    · rwa [trimEnd, List.rdropWhile_concat_pos _ _ _ (by simpa using hx)]
    · rw [trimEnd, List.rdropWhile_concat_neg _ _ _ (by simpa using hx), List.getLast?_concat,
        Option.mem_some_iff]
      exact hx

theorem not_mem_of_splitLast (h : splitLast sep path = none) : sep ∉ path := by
  induction path with
  | nil => exact List.not_mem_nil
  | cons a path ih =>
    rw [splitLast] at h
    cases hrest : splitLast sep path with
    | some pair =>
      rw [hrest] at h
      simp at h
    | none =>
      rw [hrest] at h
      dsimp only at h
      split_ifs at h with ha
      rw [List.mem_cons, not_or]
      exact ⟨Ne.symm ha, ih hrest⟩

theorem splitLast_eq_some {before after : List α} (h : splitLast sep path = some (before, after)) :
    path = before ++ sep :: after ∧ sep ∉ after := by
  induction path generalizing before with
  | nil => simp [splitLast] at h
  | cons a path ih =>
    rw [splitLast] at h
    cases hrest : splitLast sep path with
    | some pair =>
      rw [hrest, Option.some.injEq, Prod.mk.injEq] at h
      obtain ⟨rfl, rfl⟩ := h
      obtain ⟨hpath, hafter⟩ := ih hrest
      exact ⟨by rw [List.cons_append, ← hpath], hafter⟩
    | none =>
      rw [hrest] at h
      dsimp only at h
      split_ifs at h with ha
      rw [Option.some.injEq, Prod.mk.injEq] at h
      obtain ⟨rfl, rfl⟩ := h
      exact ⟨by rw [ha, List.nil_append], not_mem_of_splitLast hrest⟩

end Path
