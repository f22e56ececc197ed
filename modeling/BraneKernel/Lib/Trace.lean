import Mathlib.Data.List.Induction
import Mathlib.Tactic.Common

namespace Trace

variable {σ ε : Type}

/-- The finite executions from `s`, with the latest event at the end. -/
inductive Run (step : σ → ε → σ → Prop) (s : σ) : List ε → σ → Prop
  | nil : Run step s [] s
  | snoc {es : List ε} {e : ε} {t u : σ} :
      Run step s es t → step t e u → Run step s (es ++ [e]) u

/-- A transition relation restricted to the steps whose event is admitted by
the state it is taken in. -/
def Guarded (ok : σ → ε → Prop) (step : σ → ε → σ → Prop) (s : σ) (e : ε) (t : σ) : Prop :=
  ok s e ∧ step s e t

variable {step : σ → ε → σ → Prop} {s t : σ} {es : List ε}

theorem Run.invariant {I : σ → Prop} (h : Run step s es t) (hs : I s)
    (hstep : ∀ t e u, I t → step t e u → I u) : I t := by
  induction h with
  | nil => exact hs
  | snoc _ he ih => exact hstep _ _ _ ih he

/-- An invariant that also reads the events performed so far. -/
theorem Run.history {I : List ε → σ → Prop} (h : Run step s es t) (hs : I [] s)
    (hstep : ∀ es t e u, I es t → step t e u → I (es ++ [e]) u) : I es t := by
  induction h with
  | nil => exact hs
  | snoc _ he ih => exact hstep _ _ _ _ ih he

theorem Run.cons {e : ε} {u : σ} (hstep : step s e t) (h : Run step t es u) :
    Run step s (e :: es) u := by
  induction h with
  | nil => exact .snoc .nil hstep
  | snoc _ he ih => exact ih.snoc he

theorem Run.append {es' : List ε} {u : σ} (h : Run step s es t) (h' : Run step t es' u) :
    Run step s (es ++ es') u := by
  induction h' with
  | nil => rwa [List.append_nil]
  | snoc _ he ih =>
    rw [← List.append_assoc]
    exact ih.snoc he

variable {next : σ → ε → Option σ}

theorem Run.of_next (hstep : ∀ s e t, next s e = some t → step s e t)
    (h : es.foldlM next s = some t) : Run step s es t := by
  induction es using List.reverseRecOn generalizing t with
  | nil => exact Option.some.inj h ▸ .nil
  | append_singleton es e ih =>
    rw [List.foldlM_append] at h
    obtain ⟨u, hu, hs⟩ := Option.bind_eq_some_iff.mp h
    exact (ih hu).snoc (hstep _ _ _ (by simpa using hs))

theorem Run.of_foldlM (h : es.foldlM next s = some t) :
    Run (fun s e t ↦ next s e = some t) s es t :=
  .of_next (fun _ _ _ hs ↦ hs) h

theorem Run.of_answers {ρ : Type} {next : σ → ε → Option (σ × ρ)}
    (h : es.foldlM (fun s e ↦ (next s e).map Prod.fst) s = some t) :
    Run (fun s e t ↦ ∃ r, next s e = some (t, r)) s es t := by
  refine .of_next (fun s e t hs ↦ ?_) h
  obtain ⟨r, hr, rfl⟩ := Option.map_eq_some_iff.mp hs
  exact ⟨r.2, hr⟩

theorem Run.of_guarded {ok : σ → ε → Prop} [∀ s e, Decidable (ok s e)]
    (h : es.foldlM (fun s e ↦ if ok s e then next s e else none) s = some t) :
    Run (Guarded ok fun s e t ↦ next s e = some t) s es t := by
  refine .of_next (fun s e t hs ↦ ?_) h
  split_ifs at hs with hok
  exact ⟨hok, hs⟩

def Since (a b : ε) (es : List ε) : Prop := ∃ pre post, es = pre ++ a :: post ∧ b ∉ post

theorem not_since_nil (a b : ε) : ¬ Since a b [] := by
  rintro ⟨pre, post, h, -⟩
  simp at h

theorem snoc_split {a e : ε} {pre post : List ε} (h : es ++ [e] = pre ++ a :: post) :
    (es = pre ∧ e = a ∧ post = []) ∨ ∃ rest, post = rest ++ [e] ∧ es = pre ++ a :: rest := by
  induction post using List.reverseRecOn with
  | nil =>
    obtain ⟨hes, he⟩ := List.append_inj' h rfl
    exact .inl ⟨hes, List.singleton_inj.mp he, rfl⟩
  | append_singleton rest last =>
    have hsnoc : es ++ [e] = (pre ++ a :: rest) ++ [last] := by
      rw [h, List.append_assoc, List.cons_append]
    obtain ⟨hes, he⟩ := List.append_inj' hsnoc rfl
    exact .inr ⟨rest, by rw [List.singleton_inj.mp he], hes⟩

theorem since_snoc {a b e : ε} : Since a b (es ++ [e]) ↔ e = a ∨ (Since a b es ∧ e ≠ b) := by
  constructor
  · rintro ⟨pre, post, h, hb⟩
    rcases snoc_split h with ⟨-, rfl, -⟩ | ⟨rest, rfl, rfl⟩
    · exact .inl rfl
    · rw [List.mem_append, List.mem_singleton, not_or] at hb
      exact .inr ⟨⟨pre, rest, rfl, hb.1⟩, Ne.symm hb.2⟩
  · rintro (rfl | ⟨⟨pre, post, rfl, hb⟩, hne⟩)
    · exact ⟨es, [], rfl, by simp⟩
    · exact ⟨pre, post ++ [e], by simp, by simp [hb, hne.symm]⟩

theorem Since.mem {a b : ε} (h : Since a b es) : a ∈ es := by
  obtain ⟨pre, post, rfl, -⟩ := h
  simp

end Trace
