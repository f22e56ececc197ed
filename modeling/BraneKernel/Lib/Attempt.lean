import Mathlib.Tactic.Common

/-! Computations on a state that can fail and that keep, when they fail, what
they have done to the state. -/

structure Attempt (σ ε α : Type) where
  run : σ → σ × Except ε α

namespace Attempt

variable {σ ε α β : Type}

instance : Monad (Attempt σ ε) where
  pure a := ⟨fun s ↦ (s, .ok a)⟩
  bind x f := ⟨fun s ↦
    match x.run s with
    | (s, .ok a) => (f a).run s
    | (s, .error e) => (s, .error e)⟩

def ofExcept (r : Except ε α) : Attempt σ ε α := ⟨fun s ↦ (s, r)⟩

def fail (e : ε) : Attempt σ ε α := ofExcept (.error e)

def get : Attempt σ ε σ := ⟨fun s ↦ (s, .ok s)⟩

def modify (f : σ → σ) : Attempt σ ε Unit := ⟨fun s ↦ (f s, .ok ())⟩

def demand (e : ε) : Option α → Attempt σ ε α
  | none => fail e
  | some a => pure a

variable {x : Attempt σ ε α} {f : α → Attempt σ ε β} {s t : σ} {a : α} {e : ε}

@[simp] theorem run_pure (a : α) (s : σ) : (pure a : Attempt σ ε α).run s = (s, .ok a) := rfl

@[simp] theorem run_ofExcept (r : Except ε α) (s : σ) :
    (ofExcept r : Attempt σ ε α).run s = (s, r) := rfl

@[simp] theorem run_fail (e : ε) (s : σ) : (fail e : Attempt σ ε α).run s = (s, .error e) := rfl

@[simp] theorem run_modify (f : σ → σ) (s : σ) :
    (modify f : Attempt σ ε Unit).run s = (f s, .ok ()) := rfl

@[simp] theorem demand_some (e : ε) (a : α) : (demand e (some a) : Attempt σ ε α) = pure a := rfl

theorem run_bind_of_ok (h : x.run s = (t, .ok a)) : (x >>= f).run s = (f a).run t := by
  simp only [bind, h]

theorem run_bind_of_error (h : x.run s = (t, .error e)) : (x >>= f).run s = (t, .error e) := by
  simp only [bind, h]

theorem run_bind_eq_ok {b : β} :
    (x >>= f).run s = (t, .ok b) ↔ ∃ u a, x.run s = (u, .ok a) ∧ (f a).run u = (t, .ok b) := by
  rcases hrun : x.run s with ⟨u, e | a⟩
  · rw [run_bind_of_error hrun]
    exact ⟨nofun, nofun⟩
  · rw [run_bind_of_ok hrun]
    constructor
    · exact fun h ↦ ⟨u, a, rfl, h⟩
    · rintro ⟨u', a', hpair, h⟩
      cases hpair
      exact h

theorem run_demand_eq_ok {o : Option α} :
    (demand e o : Attempt σ ε α).run s = (t, .ok a) ↔ s = t ∧ o = some a := by
  cases o with
  | none => exact ⟨nofun, nofun⟩
  | some b => simp

@[simp] theorem run_get_bind (f : σ → Attempt σ ε β) (s : σ) : (get >>= f).run s = (f s).run s :=
  rfl

@[simp] theorem run_modify_bind (g : σ → σ) (f : Unit → Attempt σ ε β) (s : σ) :
    (modify g >>= f).run s = (f ()).run (g s) := rfl

@[simp] theorem run_pure_bind (a : α) (f : α → Attempt σ ε β) (s : σ) :
    (pure a >>= f).run s = (f a).run s := rfl

@[simp] theorem run_demand_none_bind (e : ε) (f : α → Attempt σ ε β) (s : σ) :
    (demand e none >>= f).run s = (s, .error e) := rfl

def errorOf : Except ε α → Option ε
  | .ok _ => none
  | .error e => some e

@[simp] theorem errorOf_ok (a : α) : errorOf (.ok a : Except ε α) = none := rfl

@[simp] theorem errorOf_error (e : ε) : errorOf (.error e : Except ε α) = some e := rfl

theorem errorOf_eq_some {r : Except ε α} : errorOf r = some e ↔ r = .error e := by
  cases r <;> simp

/-- Every run of `x` is a step of `R`, which reads the failure if there is one. -/
def Within (R : σ → Option ε → σ → Prop) (x : Attempt σ ε α) : Prop :=
  ∀ s, R s (errorOf (x.run s).2) (x.run s).1

section Within

variable {R : σ → Option ε → σ → Prop}

theorem Within.of_run (hx : Within R x) {r : Except ε α} (h : x.run s = (t, r)) :
    R s (errorOf r) t := by
  have hs := hx s
  rwa [h] at hs

theorem Within.bind (htrans : ∀ s t u o, R s none t → R t o u → R s o u) (hx : Within R x)
    (hf : ∀ a, Within R (f a)) : Within R (x >>= f) := by
  intro s
  rcases hrun : x.run s with ⟨t, a | a⟩
  · rw [run_bind_of_error hrun]
    exact hx.of_run hrun
  · rw [run_bind_of_ok hrun]
    exact htrans _ _ _ _ (hx.of_run hrun) (hf a t)

theorem within_pure (hrefl : ∀ s, R s none s) (a : α) : Within R (pure a : Attempt σ ε α) :=
  hrefl

theorem within_get (hrefl : ∀ s, R s none s) : Within R (get : Attempt σ ε σ) := hrefl

theorem within_fail (h : ∀ s, R s (some e) s) : Within R (fail e : Attempt σ ε α) := h

theorem within_modify {g : σ → σ} (h : ∀ s, R s none (g s)) :
    Within R (modify g : Attempt σ ε Unit) := h

theorem within_demand (hrefl : ∀ s, R s none s) (h : ∀ s, R s (some e) s) (o : Option α) :
    Within R (demand e o : Attempt σ ε α) := by
  cases o with
  | none => exact within_fail h
  | some a => exact within_pure hrefl a

end Within

end Attempt
