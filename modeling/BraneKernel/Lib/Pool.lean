import BraneKernel.Lib.Trace

/-! Resources that the steps of a system take from a pool and give back. -/

namespace Pool

open Trace (Run)

variable {σ ε ι : Type} {free : σ → ι → Prop} {handed freed : ε → ι → Prop}
  {step : σ → ε → σ → Prop}

/-- A step hands out free resources only, and only what is given back becomes free. -/
structure Moves (free : σ → ι → Prop) (handed freed : ε → ι → Prop) (step : σ → ε → σ → Prop) :
    Prop where
  taken : ∀ {s e t i}, step s e t → handed e i → free s i ∧ ¬ free t i
  given : ∀ {s e t i}, step s e t → free t i → free s i ∨ freed e i

namespace Moves

variable {s t : σ} {es : List ε} {i : ι}

section

variable (h : Moves free handed freed step) (hrun : Run step s es t)
include h hrun

theorem returned (hfree : free t i) {pre post : List ε} {a : ε} (hes : es = pre ++ a :: post)
    (ha : handed a i) :
    ∃ c ∈ post, freed c i := by
  induction hrun generalizing post with
  | nil => simp at hes
  | @snoc es e t u hrun hstep ih =>
    rcases Trace.snoc_split hes with ⟨-, rfl, -⟩ | ⟨rest, rfl, hinit⟩
    · exact absurd hfree (h.taken hstep ha).2
    · rcases h.given hstep hfree with hbefore | hfreed
      · obtain ⟨c, hc, hfreed⟩ := ih hbefore hinit
        exact ⟨c, List.mem_append_left _ hc, hfreed⟩
      · exact ⟨e, List.mem_append_right _ List.mem_cons_self, hfreed⟩

theorem handed_twice {pre mid post : List ε} {a b : ε} (hes : es = pre ++ a :: mid ++ b :: post)
    (ha : handed a i) (hb : handed b i) : ∃ c ∈ mid, freed c i := by
  induction hrun generalizing post with
  | nil => simp at hes
  | @snoc es e t u hrun hstep ih =>
    rcases Trace.snoc_split hes with ⟨hinit, rfl, -⟩ | ⟨rest, -, hinit⟩
    · exact h.returned hrun (h.taken hstep hb).1 hinit ha
    · exact ih hinit

theorem from_start
    (hreturns : ∀ pre e post i, es = pre ++ e :: post → freed e i → ∃ c ∈ pre, handed c i) :
    (∀ i, free t i → free s i) ∧ ∀ e ∈ es, ∀ i, handed e i → free s i := by
  induction hrun with
  | nil => exact ⟨fun _ hi ↦ hi, fun e he ↦ absurd he List.not_mem_nil⟩
  | @snoc es last t u hrun hstep ih =>
    obtain ⟨hfree, hhanded⟩ := ih fun pre e post i hes ↦
      hreturns pre e (post ++ [last]) i (by rw [hes, List.append_assoc, List.cons_append])
    constructor
    · intro i hi
      rcases h.given hstep hi with hbefore | hfreed
      · exact hfree i hbefore
      · obtain ⟨c, hc, hci⟩ := hreturns es last [] i rfl hfreed
        exact hhanded c hc i hci
    · intro e he i hei
      rcases List.mem_append.mp he with hold | hnew
      · exact hhanded e hold i hei
      · rw [List.mem_singleton.mp hnew] at hei
        exact hfree i (h.taken hstep hei).1

end

end Moves

end Pool
