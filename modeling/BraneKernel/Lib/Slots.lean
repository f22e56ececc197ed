import Mathlib.Data.List.Basic
import Mathlib.Data.List.ReduceOption
import Mathlib.Data.Option.Basic
import Mathlib.Tactic.Common

namespace Slots

variable {α β : Type}

def find (p : α → Bool) : List (Option α) → Option α
  | [] => none
  | none :: s => find p s
  | some a :: s => if p a then some a else find p s

def index (p : α → Bool) : List (Option α) → Option ℕ
  | [] => none
  | none :: s => (index p s).map (· + 1)
  | some a :: s => if p a then some 0 else (index p s).map (· + 1)

def modify (p : α → Bool) (f : α → α) : List (Option α) → List (Option α)
  | [] => []
  | none :: s => none :: modify p f s
  | some a :: s => if p a then some (f a) :: s else some a :: modify p f s

def clear (p : α → Bool) : List (Option α) → List (Option α)
  | [] => []
  | none :: s => none :: clear p s
  | some a :: s => if p a then none :: s else some a :: clear p s

def insert (a : α) : List (Option α) → Option (List (Option α))
  | [] => none
  | none :: s => some (some a :: s)
  | some b :: s => (insert a s).map (some b :: ·)

variable {p : α → Bool} {s t : List (Option α)} {a : α} {f : α → α} {key : α → β}

theorem find_mem (h : find p s = some a) :
    some a ∈ s ∧ p a = true := by
  induction s with
  | nil => simp [find] at h
  | cons x s ih =>
    cases x with
    | none => exact ⟨List.mem_cons_of_mem _ (ih h).1, (ih h).2⟩
    | some b =>
      by_cases hb : p b = true
      · simp only [find, hb, if_true, Option.some.injEq] at h
        exact ⟨by simp [h], h ▸ hb⟩
      · simp only [find, hb, Bool.false_eq_true, if_false] at h
        exact ⟨List.mem_cons_of_mem _ (ih h).1, (ih h).2⟩

theorem find_isSome (h : some a ∈ s) (ha : p a = true) : (find p s).isSome = true := by
  induction s with
  | nil => simp at h
  | cons x s ih =>
    cases x with
    | none => exact ih (by simpa using h)
    | some b =>
      by_cases hb : p b = true
      · simp [find, hb]
      · have hne : a ≠ b := fun he ↦ hb (he ▸ ha)
        simp only [find, hb, Bool.false_eq_true, if_false]
        exact ih (by simpa [hne] using h)

theorem index_isSome (p : α → Bool) (s : List (Option α)) :
    (index p s).isSome = (find p s).isSome := by
  induction s with
  | nil => rfl
  | cons x s ih =>
    cases x with
    | none => simpa [find, index] using ih
    | some a => by_cases ha : p a = true <;> simp [find, index, ha, ih]

variable {i : ℕ}

theorem index_spec (h : index p s = some i) : ∃ a, s[i]? = some (some a) ∧ p a = true := by
  induction s generalizing i with
  | nil => cases h
  | cons x s ih =>
    cases x with
    | none =>
      obtain ⟨j, hj, rfl⟩ := Option.map_eq_some_iff.mp h
      simpa using ih hj
    | some b =>
      unfold index at h
      split_ifs at h with hb
      · cases h
        exact ⟨b, by simp, hb⟩
      · obtain ⟨j, hj, rfl⟩ := Option.map_eq_some_iff.mp h
        simpa using ih hj

@[simp] theorem length_modify (p : α → Bool) (f : α → α) (s : List (Option α)) :
    (modify p f s).length = s.length := by
  induction s with
  | nil => rfl
  | cons x s ih =>
    cases x with
    | none => simp [modify, ih]
    | some a => by_cases ha : p a = true <;> simp [modify, ha, ih]

@[simp] theorem length_clear (p : α → Bool) (s : List (Option α)) :
    (clear p s).length = s.length := by
  induction s with
  | nil => rfl
  | cons x s ih =>
    cases x with
    | none => simp [clear, ih]
    | some a => by_cases ha : p a = true <;> simp [clear, ha, ih]

variable {b : α}

theorem mem_modify (h : some b ∈ modify p f s) :
    some b ∈ s ∨ ∃ a, some a ∈ s ∧ p a = true ∧ b = f a := by
  induction s with
  | nil => simp [modify] at h
  | cons x s ih =>
    cases x with
    | none =>
      rcases ih (by simpa [modify] using h) with hs | ⟨a, ha, hp, he⟩
      · exact .inl (List.mem_cons_of_mem _ hs)
      · exact .inr ⟨a, List.mem_cons_of_mem _ ha, hp, he⟩
    | some c =>
      by_cases hc : p c = true
      · simp only [modify, hc, if_true, List.mem_cons, Option.some.injEq] at h
        rcases h with he | hs
        · exact .inr ⟨c, by simp, hc, he⟩
        · exact .inl (List.mem_cons_of_mem _ hs)
      · simp only [modify, hc, Bool.false_eq_true, if_false, List.mem_cons] at h
        rcases h with he | hs
        · exact .inl (by simp [he])
        · rcases ih hs with hs | ⟨a, ha, hp, he⟩
          · exact .inl (List.mem_cons_of_mem _ hs)
          · exact .inr ⟨a, List.mem_cons_of_mem _ ha, hp, he⟩

theorem find_modify (hf : ∀ a, p a = true → p (f a) = true) (s : List (Option α)) :
    find p (modify p f s) = (find p s).map f := by
  induction s with
  | nil => rfl
  | cons x s ih =>
    cases x with
    | none => exact ih
    | some a =>
      by_cases ha : p a = true
      · simp [find, modify, ha, hf a ha]
      · simp [find, modify, ha, ih]

theorem find_modify_of_disjoint {q : α → Bool}
    (hq : ∀ a, p a = true → q a = false ∧ q (f a) = false) (s : List (Option α)) :
    find q (modify p f s) = find q s := by
  induction s with
  | nil => rfl
  | cons x s ih =>
    cases x with
    | none => exact ih
    | some a =>
      by_cases ha : p a = true
      · simp [find, modify, ha, hq a ha]
      · by_cases hb : q a = true <;> simp [find, modify, ha, hb, ih]

theorem modify_modify {g : α → α} (hf : ∀ a, p a = true → p (f a) = true) (s : List (Option α)) :
    modify p g (modify p f s) = modify p (g ∘ f) s := by
  induction s with
  | nil => rfl
  | cons x s ih =>
    cases x with
    | none => simp only [modify, ih]
    | some a =>
      by_cases ha : p a = true
      · simp only [modify, ha, hf a ha, if_true, Function.comp_apply]
      · simp only [modify, ha, Bool.false_eq_true, if_false, ih]

theorem modify_eq_self (h : ∀ a, find p s = some a → f a = a) : modify p f s = s := by
  induction s with
  | nil => rfl
  | cons x s ih =>
    cases x with
    | none => rw [modify, ih h]
    | some a =>
      by_cases ha : p a = true
      · rw [modify, if_pos ha, h a (if_pos ha)]
      · rw [modify, if_neg ha, ih fun b hb ↦ h b ((if_neg ha).trans hb)]

theorem index_map (p : β → Bool) (g : α → β) (s : List (Option α)) :
    index p (s.map (Option.map g)) = index (p ∘ g) s := by
  induction s with
  | nil => rfl
  | cons x s ih =>
    cases x with
    | none => simp only [List.map_cons, Option.map_none, index, ih]
    | some a =>
      by_cases ha : p (g a) = true
      · simp [index, ha]
      · simp only [List.map_cons, Option.map_some, index, ha, Function.comp_apply, ih]

theorem map_modify {g : α → β} (hg : ∀ a, find p s = some a → g (f a) = g a) :
    (modify p f s).map (Option.map g) = s.map (Option.map g) := by
  induction s with
  | nil => rfl
  | cons x s ih =>
    cases x with
    | none => simp [modify, ih hg]
    | some a =>
      by_cases ha : p a = true
      · simp [modify, ha, hg a (if_pos ha)]
      · simp [modify, ha, ih fun b hb ↦ hg b ((if_neg ha).trans hb)]

theorem insert_split (h : insert a s = some t) :
    ∃ full rest, s = full ++ none :: rest ∧ t = full ++ some a :: rest := by
  induction s generalizing t with
  | nil => simp [insert] at h
  | cons x s ih =>
    cases x with
    | none =>
      cases h
      exact ⟨[], s, rfl, rfl⟩
    | some b =>
      obtain ⟨u, hu, rfl⟩ := Option.map_eq_some_iff.mp h
      obtain ⟨full, rest, rfl, rfl⟩ := ih hu
      exact ⟨some b :: full, rest, rfl, rfl⟩

theorem length_insert (h : insert a s = some t) :
    t.length = s.length := by
  obtain ⟨full, rest, rfl, rfl⟩ := insert_split h
  rw [List.length_append, List.length_append, List.length_cons, List.length_cons]

theorem mem_insert (h : insert a s = some t) : some b ∈ t ↔ some b ∈ s ∨ b = a := by
  obtain ⟨full, rest, rfl, rfl⟩ := insert_split h
  simp only [List.mem_append, List.mem_cons, Option.some.injEq, reduceCtorEq, false_or]
  rw [or_assoc, or_comm (a := b = a)]

theorem find_append (p : α → Bool) (s t : List (Option α)) :
    find p (s ++ t) = (find p s).or (find p t) := by
  induction s with
  | nil => rfl
  | cons x s ih =>
    cases x with
    | none => exact ih
    | some a =>
      by_cases ha : p a = true
      · simp [find, ha]
      · simp [find, ha, ih]

theorem find_insert (h : insert a s = some t) :
    (p a = false → find p t = find p s) ∧
      (find p s = none → p a = true → find p t = some a) := by
  obtain ⟨full, rest, rfl, rfl⟩ := insert_split h
  rw [find_append, find_append]
  constructor
  · intro ha
    simp [find, ha]
  · intro hnone ha
    rw [Option.or_eq_none_iff] at hnone
    simp [find, ha, hnone.1]

theorem getElem?_insert (h : insert a s = some t) (hi : t[i]? = some (some b)) :
    s[i]? = some (some b) ∨ b = a := by
  obtain ⟨full, rest, rfl, rfl⟩ := insert_split h
  rw [List.getElem?_append] at hi ⊢
  split_ifs at hi ⊢
  · exact .inl hi
  · cases hk : i - full.length with
    | zero =>
      rw [hk] at hi
      exact .inr (by simpa using hi.symm)
    | succ k =>
      rw [hk] at hi
      exact .inl (by simpa using hi)

theorem getElem?_clear (h : (clear p s)[i]? = some (some b)) : s[i]? = some (some b) := by
  induction s generalizing i with
  | nil => exact h
  | cons x s ih =>
    cases x with
    | none =>
      cases i with
      | zero => simp [clear] at h
      | succ i => exact ih h
    | some a =>
      unfold clear at h
      split_ifs at h
      · cases i with
        | zero => simp at h
        | succ i => exact h
      · cases i with
        | zero => exact h
        | succ i => exact ih h

theorem getElem?_modify (h : (modify p f s)[i]? = some (some b)) :
    s[i]? = some (some b) ∨ ∃ a, s[i]? = some (some a) ∧ b = f a := by
  induction s generalizing i with
  | nil => exact .inl h
  | cons x s ih =>
    cases x with
    | none =>
      cases i with
      | zero => simp [modify] at h
      | succ i => exact ih h
    | some a =>
      unfold modify at h
      split_ifs at h
      · cases i with
        | zero => exact .inr ⟨a, rfl, by simpa using h.symm⟩
        | succ i => exact .inl h
      · cases i with
        | zero => exact .inl h
        | succ i => exact ih h

theorem getElem?_modify_ne (h : index p s ≠ some i) : (modify p f s)[i]? = s[i]? := by
  induction s generalizing i with
  | nil => rfl
  | cons x s ih =>
    cases x with
    | none =>
      cases i with
      | zero => rfl
      | succ i => exact ih fun hi ↦ h (by simp [index, hi])
    | some a =>
      unfold index at h
      unfold modify
      split_ifs at h ⊢
      · cases i with
        | zero => exact absurd rfl h
        | succ i => rfl
      · cases i with
        | zero => rfl
        | succ i => exact ih fun hi ↦ h (by simp [hi])

def keys (key : α → β) (s : List (Option α)) : List β := s.filterMap (Option.map key)

@[simp] theorem keys_none (key : α → β) (s : List (Option α)) :
    keys key (none :: s) = keys key s := rfl

@[simp] theorem keys_some (key : α → β) (a : α) (s : List (Option α)) :
    keys key (some a :: s) = key a :: keys key s := rfl

theorem mem_keys {k : β} :
    k ∈ keys key s ↔ ∃ a, some a ∈ s ∧ key a = k := by
  simp [keys, List.mem_filterMap]

theorem eq_of_key_eq (hs : (keys key s).Nodup) (ha : some a ∈ s) (hb : some b ∈ s)
    (h : key a = key b) : a = b := by
  induction s with
  | nil => simp at ha
  | cons x s ih =>
    cases x with
    | none => exact ih hs (by simpa using ha) (by simpa using hb)
    | some c =>
      obtain ⟨hc, hs⟩ := List.nodup_cons.mp hs
      rw [List.mem_cons, Option.some.injEq] at ha hb
      rcases ha with rfl | ha <;> rcases hb with rfl | hb
      · rfl
      · exact absurd (mem_keys.mpr ⟨b, hb, h.symm⟩) hc
      · exact absurd (mem_keys.mpr ⟨a, ha, h⟩) hc
      · exact ih hs ha hb

theorem keys_modify (hf : ∀ a, p a = true → key (f a) = key a) (s : List (Option α)) :
    keys key (modify p f s) = keys key s := by
  have hkeys : ∀ s : List (Option α), keys key s = (s.map (Option.map key)).filterMap id := by
    intro s
    rw [List.filterMap_map]
    rfl
  rw [hkeys, hkeys, map_modify fun a ha ↦ hf a (find_mem ha).2]

theorem keys_insert (h : insert a s = some t) :
    (keys key t).Perm (key a :: keys key s) := by
  obtain ⟨full, rest, rfl, rfl⟩ := insert_split h
  rw [keys, keys, List.filterMap_append, List.filterMap_append]
  exact List.perm_middle

theorem keys_clear (key : α → β) (p : α → Bool) (s : List (Option α)) :
    (keys key (clear p s)).Sublist (keys key s) := by
  induction s with
  | nil => exact .slnil
  | cons x s ih =>
    cases x with
    | none => exact ih
    | some a =>
      by_cases ha : p a = true
      · simp only [clear, ha, if_true, keys_none, keys_some]
        exact List.sublist_cons_self _ _
      · simp only [clear, ha, Bool.false_eq_true, if_false, keys_some]
        exact ih.cons_cons _

theorem mem_clear [DecidableEq β] {k : β} (hs : (keys key s).Nodup) :
    some b ∈ clear (fun a ↦ key a == k) s ↔ some b ∈ s ∧ key b ≠ k := by
  induction s with
  | nil => simp [clear]
  | cons x s ih =>
    cases x with
    | none => simpa [clear] using ih hs
    | some a =>
      obtain ⟨ha, hs⟩ := List.nodup_cons.mp hs
      by_cases hk : key a = k
      · have hout : some b ∈ s → key b ≠ k := fun hb he ↦
          ha (mem_keys.mpr ⟨b, hb, he.trans hk.symm⟩)
        simp only [clear, hk, beq_self_eq_true, if_true, List.mem_cons, reduceCtorEq, false_or,
          Option.some.injEq]
        constructor
        · exact fun hb ↦ ⟨.inr hb, hout hb⟩
        · rintro ⟨rfl | hb, hne⟩
          · exact absurd hk hne
          · exact hb
      · simp only [clear, beq_iff_eq, hk, if_false, List.mem_cons, Option.some.injEq, ih hs]
        constructor
        · rintro (rfl | ⟨hb, hne⟩)
          · exact ⟨.inl rfl, hk⟩
          · exact ⟨.inr hb, hne⟩
        · rintro ⟨rfl | hb, hne⟩
          · exact .inl rfl
          · exact .inr ⟨hb, hne⟩

theorem keys_eq_map (key : α → β) (s : List (Option α)) : keys key s = s.reduceOption.map key := by
  rw [List.reduceOption, List.map_filterMap]
  rfl

theorem length_reduceOption_insert (h : insert a s = some t) :
    t.reduceOption.length = s.reduceOption.length + 1 := by
  have hperm : (keys id t).Perm (a :: keys id s) := keys_insert h
  rw [keys_eq_map, keys_eq_map, List.map_id, List.map_id] at hperm
  exact hperm.length_eq

theorem length_reduceOption_clear (h : (find p s).isSome = true) :
    (clear p s).reduceOption.length + 1 = s.reduceOption.length := by
  induction s with
  | nil => simp [find] at h
  | cons x s ih =>
    cases x with
    | none => exact ih h
    | some a =>
      by_cases ha : p a = true
      · simp [clear, ha]
      · simp only [find, ha, Bool.false_eq_true, if_false] at h
        simp [clear, ha, ih h]

theorem length_reduceOption_modify (p : α → Bool) (f : α → α) (s : List (Option α)) :
    (modify p f s).reduceOption.length = s.reduceOption.length := by
  have hkeys : keys (fun _ ↦ ()) (modify p f s) = keys (fun _ ↦ ()) s := by
    apply keys_modify
    intro _ _
    rfl
  rw [keys_eq_map, keys_eq_map] at hkeys
  simpa using congrArg List.length hkeys

section Numbered

variable {key : α → ℕ} {n : ℕ} {s t : List (Option α)}

/-- A table whose entries are numbered by a counter that starts at one. -/
structure Numbered (key : α → ℕ) (n : ℕ) (s : List (Option α)) : Prop where
  distinct : (keys key s).Nodup
  issued : ∀ k ∈ keys key s, 0 < k ∧ k ≤ n

theorem numbered_replicate (key : α → ℕ) (size : ℕ) :
    Numbered key 0 (List.replicate size none) := by
  have hnil : keys key (List.replicate size none) = [] := by simp [keys]
  exact ⟨hnil ▸ List.nodup_nil, by simp [hnil]⟩

theorem Numbered.insert {a : α} (h : Numbered key n s) (hkey : key a = n + 1)
    (hs : insert a s = some t) : Numbered key (n + 1) t := by
  have hperm : (keys key t).Perm (key a :: keys key s) := keys_insert hs
  refine ⟨hperm.nodup_iff.mpr (List.nodup_cons.mpr ⟨fun hk ↦ ?_, h.distinct⟩), fun k hk ↦ ?_⟩
  · have hle := (h.issued _ hk).2
    omega
  · rcases List.mem_cons.mp (hperm.mem_iff.mp hk) with rfl | hk
    · omega
    · have hissued := h.issued k hk
      omega

theorem Numbered.clear (h : Numbered key n s) (p : α → Bool) : Numbered key n (clear p s) :=
  ⟨(keys_clear key p s).nodup h.distinct, fun k hk ↦ h.issued k ((keys_clear key p s).subset hk)⟩

theorem Numbered.modify {p : α → Bool} {f : α → α} (h : Numbered key n s)
    (hf : ∀ a, p a = true → key (f a) = key a) : Numbered key n (modify p f s) := by
  have hkeys := keys_modify hf s
  exact ⟨hkeys ▸ h.distinct, hkeys ▸ h.issued⟩

end Numbered

section Fill

variable {n : ℕ} {l : List α}

def fill (n : ℕ) (l : List α) : List (Option α) :=
  (l.take n).map some ++ List.replicate (n - l.length) none

theorem length_fill (n : ℕ) (l : List α) : (fill n l).length = n := by
  rw [fill, List.length_append, List.length_map, List.length_take, List.length_replicate]
  omega

theorem fill_nil (n : ℕ) : fill n ([] : List α) = List.replicate n none := by
  rw [fill, List.take_nil, List.length_nil, Nat.sub_zero]
  rfl

theorem set_fill (hroom : l.length < n) (a : α) :
    (fill n l).set l.length (some a) = fill n (l ++ [a]) := by
  obtain ⟨k, rfl⟩ : ∃ k, n = l.length + 1 + k := Nat.exists_eq_add_of_le hroom
  have hleft : l.length + 1 + k - l.length = k + 1 := by omega
  have hright : l.length + 1 + k - (l.length + 1) = k := by omega
  have hlength : (l ++ [a]).length = l.length + 1 := List.length_append
  rw [fill, fill, hlength, hleft, hright, List.take_of_length_le (by omega),
    List.take_of_length_le (by omega), List.set_append_right _ _ (Nat.le_of_eq (List.length_map _)),
    List.length_map, Nat.sub_self, List.replicate_succ, List.set_cons_zero, List.map_append,
    List.append_assoc]
  rfl

theorem fill_full (hfull : n ≤ l.length) (a : α) : fill n (l ++ [a]) = fill n l := by
  have hnone : n - (l.length + 1) = n - l.length := by omega
  rw [fill, fill, List.take_append_of_le_length hfull, List.length_append, List.length_singleton, hnone]

def push (slots : List (Option α)) (count : ℕ) : Option α → List (Option α) × ℕ
  | none => (slots, count)
  | some a => if count < slots.length then (slots.set count (some a), count + 1) else (slots, count)

theorem length_push (slots : List (Option α)) (count : ℕ) (o : Option α) :
    (push slots count o).1.length = slots.length := by
  cases o with
  | none => rfl
  | some a =>
    rw [push]
    split_ifs
    · exact List.length_set
    · rfl

theorem push_fill (n : ℕ) (l : List α) (o : Option α) :
    push (fill n l) (min l.length n) o = (fill n (l ++ o.toList), min (l ++ o.toList).length n) := by
  cases o with
  | none => rw [Option.toList_none, List.append_nil, push]
  | some a =>
    rw [Option.toList_some, List.length_append, List.length_singleton, push, length_fill]
    rcases Nat.lt_or_ge l.length n with hroom | hfull
    · rw [Nat.min_eq_left (Nat.le_of_lt hroom), Nat.min_eq_left hroom, if_pos hroom, set_fill hroom]
    · rw [Nat.min_eq_right hfull, Nat.min_eq_right (Nat.le_succ_of_le hfull), if_neg (Nat.lt_irrefl n),
        fill_full hfull]

end Fill

end Slots
