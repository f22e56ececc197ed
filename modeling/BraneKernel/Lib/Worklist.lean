import Mathlib.Data.List.Nodup
import Mathlib.Logic.Relation
import Mathlib.Tactic.Common

/-! Work lists: elements are visited in the order in which they are found, and a
visit may find more. -/

namespace Worklist

variable {α σ : Type*} {next : α → List α} {visit : σ → α → σ}
  {found more result : List α} {a b : α} {cursor n : ℕ}

/-- What a run from `cursor` leaves: everything from there on has been visited,
and nothing is found that the elements before did not lead to. -/
structure Explores (next : α → List α) (cursor : ℕ) (found result : List α) : Prop where
  extended : found <+: result
  nodup : result.Nodup
  closed : ∀ a ∈ result.drop cursor, ∀ b ∈ next a, b ∈ result
  sound : ∀ P : α → Prop, (∀ a ∈ found, P a) → (∀ a b, P a → b ∈ next a → P b) →
    ∀ a ∈ result, P a

theorem Explores.done (h : found.Nodup) (hc : found.length ≤ cursor) :
    Explores next cursor found found where
  extended := List.prefix_refl found
  nodup := h
  closed := by simp [List.drop_eq_nil_of_le hc]
  sound := fun _ hfound _ ↦ hfound

theorem drop_of_extended (h : found <+: result) (ha : found[cursor]? = some a) :
    result.drop cursor = a :: result.drop (cursor + 1) := by
  obtain ⟨hlt, rfl⟩ := List.getElem?_eq_some_iff.mp ha
  have hlt' : cursor < result.length := Nat.lt_of_lt_of_le hlt h.length_le
  rw [List.drop_eq_getElem_cons hlt', h.getElem hlt]

theorem Explores.mem_iff (h : Explores next 0 [a] result) :
    b ∈ result ↔ Relation.ReflTransGen (fun a b ↦ b ∈ next a) a b := by
  constructor
  · refine h.sound _ (fun c hc ↦ ?_) (fun c d hc hd ↦ hc.tail hd) b
    rw [List.mem_singleton.mp hc]
  · intro hab
    induction hab with
    | refl => exact h.extended.subset List.mem_cons_self
    | tail _ hstep ih => exact h.closed _ ih _ hstep

section

variable [DecidableEq α]

def push (found : List α) (a : α) : List α := if a ∈ found then found else found ++ [a]

def pushAll (found more : List α) : List α := more.foldl push found

def run (next : α → List α) (visit : σ → α → σ) : ℕ → ℕ → List α → σ → Option (List α × σ)
  | 0, cursor, found, s => if cursor < found.length then none else some (found, s)
  | fuel + 1, cursor, found, s =>
    match found[cursor]? with
    | none => some (found, s)
    | some a => run next visit fuel (cursor + 1) (pushAll found (next a)) (visit s a)

theorem mem_push : b ∈ push found a ↔ b ∈ found ∨ b = a := by
  unfold push
  split_ifs with h
  · exact ⟨.inl, fun hb ↦ hb.elim id fun he ↦ he ▸ h⟩
  · rw [List.mem_append, List.mem_singleton]

theorem nodup_push (h : found.Nodup) (a : α) : (push found a).Nodup := by
  unfold push
  split_ifs with ha
  · exact h
  · rw [← List.concat_eq_append]
    exact List.Nodup.concat ha h

theorem prefix_push (found : List α) (a : α) : found <+: push found a := by
  unfold push
  split_ifs
  · exact List.prefix_refl found
  · exact List.prefix_append found [a]

theorem pushAll_append (found more rest : List α) :
    pushAll found (more ++ rest) = pushAll (pushAll found more) rest := List.foldl_append

theorem mem_pushAll : b ∈ pushAll found more ↔ b ∈ found ∨ b ∈ more := by
  induction more generalizing found with
  | nil => simp [pushAll]
  | cons a more ih =>
    rw [pushAll, List.foldl_cons, ← pushAll, ih, mem_push, List.mem_cons, or_assoc]

theorem nodup_pushAll (h : found.Nodup) (more : List α) : (pushAll found more).Nodup := by
  induction more generalizing found with
  | nil => exact h
  | cons a more ih => exact ih (nodup_push h a)

theorem prefix_pushAll (found more : List α) : found <+: pushAll found more := by
  induction more generalizing found with
  | nil => exact List.prefix_refl found
  | cons a more ih => exact (prefix_push found a).trans (ih _)

theorem Explores.visited (ha : found[cursor]? = some a)
    (h : Explores next (cursor + 1) (pushAll found (next a)) result) :
    Explores next cursor found result where
  extended := (prefix_pushAll found (next a)).trans h.extended
  nodup := h.nodup
  closed := by
    have hfound := (prefix_pushAll found (next a)).trans h.extended
    rw [drop_of_extended hfound ha]
    intro c hc b hb
    rcases List.mem_cons.mp hc with rfl | hc
    · exact h.extended.subset (mem_pushAll.mpr (.inr hb))
    · exact h.closed c hc b hb
  sound P hP hnext := by
    have haP : P a := hP a (List.mem_of_getElem? ha)
    refine h.sound P (fun b hb ↦ ?_) hnext
    rcases mem_pushAll.mp hb with hb | hb
    · exact hP b hb
    · exact hnext a b haP hb

theorem run_explores (next : α → List α) (visit : σ → α → σ) (s : σ) {fuel : ℕ}
    (hbound : ∀ l : List α, l.Nodup → l.length ≤ n) (hfuel : n ≤ fuel + cursor)
    (hnodup : found.Nodup) (hcursor : cursor ≤ found.length) :
    ∃ result, run next visit fuel cursor found s =
        some (result, (result.drop cursor).foldl visit s) ∧ Explores next cursor found result := by
  induction fuel generalizing cursor found s with
  | zero =>
    have hle := hbound found hnodup
    refine ⟨found, ?_, .done hnodup (by omega)⟩
    rw [run, if_neg (by omega), List.drop_eq_nil_of_le (by omega), List.foldl_nil]
  | succ fuel ih =>
    cases ha : found[cursor]? with
    | none =>
      have hle := List.getElem?_eq_none_iff.mp ha
      refine ⟨found, ?_, .done hnodup hle⟩
      rw [run, ha, List.drop_eq_nil_of_le hle, List.foldl_nil]
    | some a =>
      obtain ⟨hlt, -⟩ := List.getElem?_eq_some_iff.mp ha
      have hlen := (prefix_pushAll found (next a)).length_le
      have hfuel' : n ≤ fuel + (cursor + 1) := by omega
      obtain ⟨result, hrun, hexp⟩ := ih (visit s a) hfuel' (nodup_pushAll hnodup (next a))
        (by omega)
      have hexp' := hexp.visited ha
      refine ⟨result, ?_, hexp'⟩
      rw [drop_of_extended hexp'.extended ha, List.foldl_cons, run, ha]
      exact hrun

end

end Worklist
