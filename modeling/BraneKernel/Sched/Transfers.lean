import BraneKernel.Sched.Ownership
import BraneKernel.Sched.PerCpu

namespace BraneKernel

open MultiCoreScheduler (Moves)

namespace Scheduling

variable {s s' : Scheduling} {cpu : ℕ}

/-- A tick either moves nothing or rotates one task of the CPU, possibly stolen. -/
inductive TickEffect (s : Scheduling) (cpu : ℕ) (s' : Scheduling) : Prop
  | same : (∀ t p, s'.multicore.Held t p ↔ s.multicore.Held t p) → TickEffect s cpu s'
  | rotated {t : TaskId} {dst : Option Place} : t ∈ (s.multicore.queues cpu).tasks →
      dst = none ∨ dst = some (.queue cpu) → Moves s.multicore s'.multicore t dst →
      TickEffect s cpu s'
  | stolen {t : TaskId} {dst : Option Place} {v : ℕ} :
      (s.multicore.runtime cpu).current = none → (s.multicore.queues cpu).tasks = [] →
      s.multicore.victim cpu = some v → (s.multicore.queues v).tasks.head? = some t →
      Moves s.multicore s'.multicore t dst → TickEffect s cpu s'

theorem noteEntered_eq (s : Scheduling) (cpu : ℕ) (t : TaskId) :
    (s.noteEntered cpu t).multicore = s.multicore ∧ (s.noteEntered cpu t).legacy = s.legacy := by
  unfold noteEntered
  split_ifs <;> exact ⟨rfl, rfl⟩

theorem noteEntered_perCpu (s : Scheduling) (t : TaskId) (hcpu : cpu < maxCpus) :
    (∀ c, c ≠ cpu → (s.noteEntered cpu t).perCpu c = s.perCpu c) ∧
      ((s.noteEntered cpu t).perCpu cpu).currentTask = some t := by
  rw [noteEntered, if_pos hcpu]
  exact ⟨fun c hc ↦ Function.update_of_ne hc _ _, by simp only [setCpu, Function.update_self]⟩

theorem completeForCpu_eq (s : Scheduling) (cpu : ℕ) :
    (s.completeForCpu cpu).1.multicore = (s.multicore.complete cpu).1 ∧
      (s.completeForCpu cpu).1.legacy = s.legacy := by
  unfold completeForCpu
  dsimp only
  split
  · dsimp only
    split_ifs <;> exact ⟨rfl, rfl⟩
  · exact ⟨rfl, rfl⟩

theorem dispatchForCpu_multicore {r : DispatchResult} (hs : s.dispatchForCpu cpu = some (s', r)) :
    s.multicore.dispatch cpu = some (s'.multicore, r) := by
  obtain ⟨⟨m, r'⟩, hd, he⟩ := Option.map_eq_some_iff.mp hs
  cases r' with
  | dispatched t | stole t =>
    cases he
    rw [hd, (noteEntered_eq { s with multicore := m } cpu t).1]
  | idle | busy | invalidCpu =>
    cases he
    exact hd

theorem rotated_eq (s : Scheduling) (cpu : ℕ) (t : TaskId) :
    ((s.noteEntered cpu t).completeForCpu cpu).1.multicore = (s.multicore.complete cpu).1 ∧
      ((s.noteEntered cpu t).completeForCpu cpu).1.legacy = s.legacy := by
  obtain ⟨hmc, hleg⟩ := noteEntered_eq s cpu t
  obtain ⟨hmc', hleg'⟩ := completeForCpu_eq (s.noteEntered cpu t) cpu
  exact ⟨hmc'.trans (by rw [hmc]), hleg'.trans hleg⟩

theorem accountTick_eq (s : Scheduling) (cpu : ℕ) (locked : Bool) :
    (s.accountTick cpu locked).multicore = s.multicore ∧
      ∀ t, (s.accountTick cpu locked).legacy.taskContextPtr t = s.legacy.taskContextPtr t := by
  obtain ⟨hmulti, -, hleg | ⟨-, -, hleg⟩⟩ := accountTick_spec s cpu locked
  · exact ⟨hmulti, fun _ ↦ by rw [hleg]⟩
  · exact ⟨hmulti, fun t ↦ by rw [hleg, Scheduler.taskContextPtr_tick]⟩

theorem timerTick_effect (h : s.multicore.Owned) {locked : Bool} {r : DispatchResult}
    (hs : s.timerTickForCpu cpu locked = some (s', r)) :
    s'.multicore.Owned ∧ (∀ t, s'.legacy.taskContextPtr t = s.legacy.taskContextPtr t) ∧
      TickEffect s cpu s' := by
  unfold timerTickForCpu at hs
  split_ifs at hs with hc
  swap
  · cases hs
    exact ⟨h, fun _ ↦ rfl, .same fun _ _ ↦ Iff.rfl⟩
  obtain ⟨hmulti, hptr⟩ := accountTick_eq s cpu locked
  generalize s.accountTick cpu locked = s₀ at hs hmulti hptr
  obtain ⟨m, r', hd, hown, heff⟩ := h.dispatch cpu true
  have hd' : s₀.multicore.dispatch cpu = some (m, r') := hmulti ▸ hd
  simp only [dispatchForCpu, hd', Option.map_some] at hs
  cases heff with
  | invalidCpu _ he | busy _ _ he =>
    cases hs
    exact ⟨hown, hptr, .same fun t p ↦ by rw [he]⟩
  | idle _ _ _ hsame =>
    cases hs
    exact ⟨hown, hptr, .same hsame⟩
  | @dispatched t _ hx hm =>
    obtain ⟨hmc, hleg⟩ := rotated_eq { s₀ with multicore := m } cpu t
    obtain ⟨dst, hdst, hm'⟩ := hm.complete hown
    rw [(Prod.mk.inj (Option.some.inj hs)).1] at hmc hleg
    exact ⟨hmc ▸ (hown.complete cpu).1, fun t ↦ hleg ▸ hptr t, .rotated hx hdst (hmc ▸ hm')⟩
  | @stole t v _ hi hnil hv hhead hm =>
    obtain ⟨hmc, hleg⟩ := rotated_eq { s₀ with multicore := m } cpu t
    obtain ⟨dst, -, hm'⟩ := hm.complete hown
    rw [(Prod.mk.inj (Option.some.inj hs)).1] at hmc hleg
    exact ⟨hmc ▸ (hown.complete cpu).1, fun t ↦ hleg ▸ hptr t, .stolen hi hnil hv hhead (hmc ▸ hm')⟩

inductive PrepareEffect (s : Scheduling) (cpu : ℕ) (s' : Scheduling) :
    Option (ContextPtr × ContextPtr) → Prop
  | same : (∀ t p, s'.multicore.Held t p ↔ s.multicore.Held t p) → PrepareEffect s cpu s' none
  | withdrawn {t : TaskId} {dst : Option Place} : t ∈ (s.multicore.queues cpu).tasks →
      dst = none ∨ dst = some (.queue cpu) → Moves s.multicore s'.multicore t dst →
      PrepareEffect s cpu s' none
  | entered {t : TaskId} {slot : ℕ} : t ∈ (s.multicore.queues cpu).tasks →
      s.legacy.taskContextPtr t = some slot →
      Moves s.multicore s'.multicore t (some (.running cpu)) →
      PrepareEffect s cpu s' (some (.idle cpu, .task slot))
  | left {t : TaskId} {dst : Option Place} : s.multicore.Held t (.running cpu) →
      dst = none ∨ dst = some (.queue cpu) → Moves s.multicore s'.multicore t dst →
      PrepareEffect s cpu s'
        (some (((s.legacy.taskContextPtr t).map ContextPtr.task).getD (.idle cpu), .idle cpu))

def Follows (s : Scheduling) (cpu : ℕ) (s' : Scheduling) (ptrs : Option (ContextPtr × ContextPtr)) :
    Prop :=
  (ptrs = none ∧ s'.perCpu = s.perCpu) ∨
    ((∀ c, c ≠ cpu → s'.perCpu c = s.perCpu c) ∧
      (s'.perCpu cpu).currentTask = (s'.multicore.runtime cpu).current)

theorem prepare_effect (h : s.multicore.Owned) {ptrs : Option (ContextPtr × ContextPtr)}
    (hs : s.prepareContextSwitchForCpu cpu = some (s', ptrs)) :
    s'.multicore.Owned ∧ s'.legacy = s.legacy ∧ PrepareEffect s cpu s' ptrs ∧
      Follows s cpu s' ptrs := by
  unfold prepareContextSwitchForCpu at hs
  split_ifs at hs with hcpu
  swap
  · cases hs
    exact ⟨h, rfl, .same fun _ _ ↦ Iff.rfl, .inl ⟨rfl, rfl⟩⟩
  unfold MultiCoreScheduler.boundedHandoff at hs
  split_ifs at hs
  · cases hs
    exact ⟨h, rfl, .same fun _ _ ↦ Iff.rfl, .inl ⟨rfl, rfl⟩⟩
  cases hcur : (s.multicore.runtime cpu).current with
  | some t =>
    simp only [hcur, Option.map_some] at hs
    cases hs
    obtain ⟨hown, ⟨hnone, -⟩ | ⟨x, dst, hx, hdst, hm⟩⟩ := h.complete cpu
    · cases hcur.symm.trans hnone
    · obtain rfl := Option.some.inj (hcur.symm.trans hx)
      have hrest : dst ≠ some (.running cpu) := by rcases hdst with rfl | rfl <;> simp
      refine ⟨hown, rfl, .left hcur hdst hm, .inr ⟨fun c hc ↦ ?_, ?_⟩⟩
      · exact Function.update_of_ne hc _ _
      · simp only [setCpu, Function.update_self, hm.current_left hrest hcur]
  | none =>
    obtain ⟨m, r, hd, hown, heff⟩ := h.dispatch cpu false
    simp only [hcur, hd, Option.map_some] at hs
    cases heff with
    | invalidCpu _ he =>
      cases hs
      exact ⟨hown, rfl, .same fun t p ↦ by rw [he], .inl ⟨rfl, rfl⟩⟩
    | busy _ hb => rw [hcur] at hb; cases hb
    | stole hallow => cases hallow
    | idle _ _ _ hsame =>
      cases hs
      exact ⟨hown, rfl, .same hsame, .inl ⟨rfl, rfl⟩⟩
    | @dispatched t _ hx hm =>
      dsimp only at hs
      split at hs
      · cases hs
        obtain ⟨dst, hdst, hm'⟩ := hm.complete hown
        exact ⟨(hown.complete cpu).1, rfl, .withdrawn hx hdst hm', .inl ⟨rfl, rfl⟩⟩
      · next slot hslot =>
        cases hs
        obtain ⟨hmc, hleg⟩ := noteEntered_eq { s with multicore := m } cpu t
        obtain ⟨hother, hself⟩ := noteEntered_perCpu { s with multicore := m } t hcpu.1
        refine ⟨hmc ▸ hown, hleg, .entered hx hslot (hmc ▸ hm), .inr ⟨hother, ?_⟩⟩
        rw [hmc, hself]
        exact (hm.held_iff.mpr rfl).symm

end Scheduling

end BraneKernel
