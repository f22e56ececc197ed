import Mathlib.Logic.Function.Basic
import Mathlib.Tactic.Common

/-! Files of independent registers that may drop writes, and writes that are
verified by reading the register back. -/

namespace CheckedWrite

variable {ρ β : Type}

structure Entry (ρ β : Type) where
  register : ρ
  value : β
  before : ρ → β

structure File (ρ β : Type) where
  stored : ρ → β
  drops : ℕ → Bool
  log : List (Entry ρ β)

namespace File

variable [DecidableEq ρ]

def write (f : File ρ β) (register : ρ) (value : β) : File ρ β :=
  { f with
    stored := if f.drops f.log.length then f.stored else Function.update f.stored register value
    log := f.log ++ [⟨register, value, f.stored⟩] }

variable [DecidableEq β]

def checkedWrite (f : File ρ β) (register : ρ) (value : β) : File ρ β × Bool :=
  (f.write register value, (f.write register value).stored register == value)

def checkedAll (f : File ρ β) : List (ρ × β) → File ρ β × Bool
  | [] => (f, true)
  | (register, value) :: rest =>
    match f.checkedWrite register value with
    | (f, false) => (f, false)
    | (f, true) => f.checkedAll rest

def checkedEach (f : File ρ β) : List (ρ × β) → File ρ β × Bool
  | [] => (f, true)
  | (register, value) :: rest =>
    let (f, held) := f.checkedWrite register value
    let (f, others) := f.checkedEach rest
    (f, held && others)

end File

def applied [DecidableEq ρ] (stored : ρ → β) (writes : List (ρ × β)) : ρ → β :=
  writes.foldl (fun stored w ↦ Function.update stored w.1 w.2) stored

/-- The writes from `f` to `f'` are to the registers of `rs`, and neither on the way
nor at the end has any other register changed. -/
structure Touches (rs : List ρ) (f f' : File ρ β) : Prop where
  frame : ∀ r, r ∉ rs → f'.stored r = f.stored r
  entries : ∃ new, f'.log = f.log ++ new ∧
    ∀ e ∈ new, e.register ∈ rs ∧ ∀ r, r ∉ rs → e.before r = f.stored r

variable {rs rs' : List ρ} {f f' f'' : File ρ β} {register : ρ} {value : β} {writes : List (ρ × β)}

theorem Touches.refl (rs : List ρ) (f : File ρ β) : Touches rs f f where
  frame _ _ := rfl
  entries := ⟨[], by rw [List.append_nil], nofun⟩

theorem Touches.trans (h : Touches rs f f') (h' : Touches rs f' f'') : Touches rs f f'' where
  frame r hr := (h'.frame r hr).trans (h.frame r hr)
  entries := by
    obtain ⟨new, hlog, hnew⟩ := h.entries
    obtain ⟨new', hlog', hnew'⟩ := h'.entries
    refine ⟨new ++ new', by rw [hlog', hlog, List.append_assoc], fun e he ↦ ?_⟩
    rcases List.mem_append.mp he with he | he
    · exact hnew e he
    · obtain ⟨hin, hbefore⟩ := hnew' e he
      exact ⟨hin, fun r hr ↦ (hbefore r hr).trans (h.frame r hr)⟩

section

variable [DecidableEq ρ]

theorem touches_write (f : File ρ β) (hin : register ∈ rs) :
    Touches rs f (f.write register value) where
  frame r hr := by
    have hne : r ≠ register := fun he ↦ hr (he ▸ hin)
    unfold File.write
    dsimp only
    split_ifs
    · rfl
    · exact Function.update_of_ne hne _ _
  entries := ⟨_, rfl, fun e he ↦ by
    rw [List.mem_singleton.mp he]
    exact ⟨hin, fun _ _ ↦ rfl⟩⟩

variable [DecidableEq β]

theorem stored_of_checkedWrite (h : f.checkedWrite register value = (f', true)) :
    f'.stored = Function.update f.stored register value := by
  obtain ⟨rfl, hheld⟩ := Prod.mk.inj h
  rw [beq_iff_eq] at hheld
  unfold File.write at hheld ⊢
  dsimp only at hheld ⊢
  split_ifs at hheld ⊢
  · rw [← hheld, Function.update_eq_self]
  · rfl

theorem touches_checkedAll (f : File ρ β) (h : ∀ w ∈ writes, w.1 ∈ rs) :
    Touches rs f (f.checkedAll writes).1 := by
  induction writes generalizing f with
  | nil => exact .refl rs f
  | cons w writes ih =>
    have hwrite : Touches rs f (f.write w.1 w.2) := touches_write f (h w List.mem_cons_self)
    unfold File.checkedAll
    split
    · next f' heq =>
      obtain ⟨rfl, -⟩ := Prod.mk.inj heq
      exact hwrite
    · next f' heq =>
      obtain ⟨rfl, -⟩ := Prod.mk.inj heq
      exact hwrite.trans (ih _ fun w' hw' ↦ h w' (List.mem_cons_of_mem _ hw'))

theorem touches_checkedEach (f : File ρ β) (h : ∀ w ∈ writes, w.1 ∈ rs) :
    Touches rs f (f.checkedEach writes).1 := by
  induction writes generalizing f with
  | nil => exact .refl rs f
  | cons w writes ih =>
    have hwrite : Touches rs f (f.write w.1 w.2) := touches_write f (h w List.mem_cons_self)
    exact hwrite.trans (ih _ fun w' hw' ↦ h w' (List.mem_cons_of_mem _ hw'))

theorem stored_of_checkedAll (h : f.checkedAll writes = (f', true)) :
    f'.stored = applied f.stored writes := by
  induction writes generalizing f with
  | nil =>
    cases h
    rfl
  | cons w writes ih =>
    unfold File.checkedAll at h
    split at h
    · cases h
    · next f₁ heq => rw [ih h, stored_of_checkedWrite heq, applied, applied, List.foldl_cons]

theorem stored_of_checkedEach (h : f.checkedEach writes = (f', true)) :
    f'.stored = applied f.stored writes := by
  induction writes generalizing f with
  | nil =>
    cases h
    rfl
  | cons w writes ih =>
    obtain ⟨rfl, hheld⟩ := Prod.mk.inj h
    rw [Bool.and_eq_true] at hheld
    have hfirst : (f.write w.1 w.2).stored = Function.update f.stored w.1 w.2 :=
      stored_of_checkedWrite (Prod.ext rfl hheld.1)
    rw [ih (Prod.ext rfl hheld.2), hfirst, applied, applied, List.foldl_cons]

theorem checkedAll_of_stores (hf : ∀ k, f.drops k = false) (writes : List (ρ × β)) :
    ∃ f', f.checkedAll writes = (f', true) := by
  induction writes generalizing f with
  | nil => exact ⟨f, rfl⟩
  | cons w writes ih =>
    have hheld : f.checkedWrite w.1 w.2 = (f.write w.1 w.2, true) := by
      rw [File.checkedWrite, File.write, hf]
      simp
    obtain ⟨f', hf'⟩ := ih (f := f.write w.1 w.2) hf
    refine ⟨f', ?_⟩
    rw [File.checkedAll, hheld]
    exact hf'

theorem checkedAll_append (f : File ρ β) (writes rest : List (ρ × β)) :
    f.checkedAll (writes ++ rest) =
      if (f.checkedAll writes).2 then (f.checkedAll writes).1.checkedAll rest
      else f.checkedAll writes := by
  induction writes generalizing f with
  | nil => rfl
  | cons w writes ih =>
    have hcons : ∀ ws, f.checkedAll (w :: ws) =
        if (f.checkedWrite w.1 w.2).2 then (f.checkedWrite w.1 w.2).1.checkedAll ws
        else f.checkedWrite w.1 w.2 := by
      intro ws
      rw [File.checkedAll]
      rcases f.checkedWrite w.1 w.2 with ⟨f', held⟩
      cases held <;> rfl
    rw [List.cons_append, hcons, hcons, ih]
    split_ifs <;> rfl

end

end CheckedWrite
