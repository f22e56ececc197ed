import BraneKernel.Sched.Agreement

namespace BraneKernel

namespace Scheduling

variable {s s' : Scheduling} {cpu : ℕ}

/-- The context of what a CPU runs: that of its task, or its idle loop when it
has none. -/
def ContextOf (s : Scheduling) (cpu : ℕ) : Option TaskId → ContextPtr → Prop
  | none, ptr => ptr = .idle cpu
  | some t, ptr => ∃ slot, s.legacy.taskContextPtr t = some slot ∧ ptr = .task slot

theorem owned_step {c : SchedulingCall} (h : s.multicore.Owned) (hs : s.Step c s') :
    s'.multicore.Owned := by
  cases c with
  | addTask | addTaskWithEntry =>
    obtain ⟨r, -, rfl⟩ := Option.map_eq_some_iff.mp hs
    exact h
  | removeTask | blockTask | unblockTask =>
    cases hs
    exact h
  | enqueueTask x =>
    cases hs
    exact (h.enqueue x).1
  | enqueueTaskOnCpu cpu x =>
    cases hs
    exact (h.enqueueOnCpu cpu x).1
  | dequeue cpu x =>
    cases hs
    exact (h.dequeue cpu x).1
  | dispatchForCpu cpu =>
    obtain ⟨⟨u, r⟩, hd, rfl⟩ := Option.map_eq_some_iff.mp hs
    obtain ⟨m, r', hd', hown, -⟩ := h.dispatch cpu true
    obtain ⟨rfl, -⟩ := Prod.mk.inj (Option.some.inj (hd'.symm.trans (dispatchForCpu_multicore hd)))
    exact hown
  | completeForCpu cpu =>
    cases hs
    rw [(completeForCpu_eq s cpu).1]
    exact (h.complete cpu).1
  | timerTickForCpu cpu locked =>
    obtain ⟨⟨u, r⟩, ht, rfl⟩ := Option.map_eq_some_iff.mp hs
    exact (timerTick_effect h ht).1
  | prepareContextSwitchForCpu cpu =>
    obtain ⟨⟨u, ptrs⟩, hp, rfl⟩ := Option.map_eq_some_iff.mp hs
    exact (prepare_effect h hp).1

theorem prepare_loads (h : s.multicore.Owned) {old new : ContextPtr}
    (hs : s.prepareContextSwitchForCpu cpu = some (s', some (old, new))) :
    (s'.perCpu cpu).currentTask = (s'.multicore.runtime cpu).current ∧
      s'.ContextOf cpu (s'.multicore.runtime cpu).current new := by
  obtain ⟨-, hleg, heff, ⟨hnone, -⟩ | ⟨-, hself⟩⟩ := prepare_effect h hs
  · cases hnone
  refine ⟨hself, ?_⟩
  cases heff with
  | @entered t slot _ hslot hm =>
    rw [show (s'.multicore.runtime cpu).current = some t from hm.held_iff.mpr rfl]
    exact ⟨slot, hleg ▸ hslot, rfl⟩
  | left ht hdst hm =>
    rw [hm.current_left (by rcases hdst with rfl | rfl <;> simp) ht]
    rfl

theorem prepare_saves (h : s.multicore.Owned) {old new : ContextPtr}
    (hs : s.prepareContextSwitchForCpu cpu = some (s', some (old, new)))
    (htask : ∀ t, (s.multicore.runtime cpu).current = some t → s.legacy.taskContextPtr t ≠ none) :
    s.ContextOf cpu (s.multicore.runtime cpu).current old ∧ old ≠ new := by
  obtain ⟨-, -, heff, -⟩ := prepare_effect h hs
  cases heff with
  | @entered t slot ht _ hm =>
    have hidle : (s.multicore.runtime cpu).current = none := by
      rw [Option.eq_none_iff_forall_ne_some]
      intro u hu
      have hne : u ≠ t := by
        rintro rfl
        exact h.not_running ht cpu hu
      have hu' : (s'.multicore.runtime cpu).current = some u :=
        (hm.held_ne hne).mpr (show s.multicore.Held u (.running cpu) from hu)
      have ht' : (s'.multicore.runtime cpu).current = some t := hm.held_iff.mpr rfl
      exact hne (Option.some.inj (hu'.symm.trans ht'))
    rw [hidle]
    exact ⟨rfl, nofun⟩
  | @left t dst ht _ _ =>
    have hrun : (s.multicore.runtime cpu).current = some t := ht
    obtain ⟨slot, hslot⟩ := Option.ne_none_iff_exists'.mp (htask t hrun)
    rw [hrun, hslot]
    exact ⟨⟨slot, hslot, rfl⟩, nofun⟩

/-- A prepared handoff loads the context of what the CPU now runs. It saves to that of what the CPU
ran if and only if this is still in the task table. -/
theorem handoff_names_contexts (s₀ : Scheduling) (cpus : ℕ) (calls : List SchedulingCall)
    (s s' : Scheduling) (h : Trace.Run Step (s₀.configureMulticore cpus).1 calls s) (cpu : ℕ)
    (old new : ContextPtr)
    (hs : s.prepareContextSwitchForCpu cpu = some (s', some (old, new))) :
    ((s'.perCpu cpu).currentTask = (s'.multicore.runtime cpu).current ∧
      s'.ContextOf cpu (s'.multicore.runtime cpu).current new) ∧
    ((∀ t, (s.multicore.runtime cpu).current = some t → s.legacy.taskContextPtr t ≠ none) ↔
      s.ContextOf cpu (s.multicore.runtime cpu).current old ∧ old ≠ new) := by
  have hown : s.multicore.Owned := h.invariant (owned_configured s₀ cpus)
    fun _ _ _ ho hstep ↦ owned_step ho hstep
  refine ⟨prepare_loads hown hs, prepare_saves hown hs, ?_⟩
  rintro ⟨hsaved, -⟩ t hrun hremoved
  rw [hrun] at hsaved
  obtain ⟨slot, hslot, -⟩ := hsaved
  cases hslot.symm.trans hremoved

theorem handoff_names_contexts_back : ∃ s s',
    Trace.Run Step (new.configureMulticore 1).1
      [.addTask [] .normal, .enqueueTaskOnCpu 0 1, .prepareContextSwitchForCpu 0] s ∧
    s.prepareContextSwitchForCpu 0 = some (s', some (.task 0, .idle 0)) ∧
    s.ContextOf 0 (some 1) (.task 0) ∧ s'.ContextOf 0 none (.idle 0) := by
  have hrun : Trace.Run Step (new.configureMulticore 1).1
    [.addTask [] .normal, .enqueueTaskOnCpu 0 1, .prepareContextSwitchForCpu 0] _ :=
    Trace.Run.of_foldlM rfl
  obtain ⟨⟨-, hloads⟩, hsaves⟩ := handoff_names_contexts new 1 _ _ _ hrun 0 (.task 0) (.idle 0) rfl
  refine ⟨_, _, hrun, rfl, (hsaves.mp fun t ht ↦ ?_).1, hloads⟩
  cases ht
  exact nofun

/-- The running task is removed from the table: the handoff names the idle
context twice, and the registers of the task overwrite it. -/
theorem removed_task_names_idle_twice : ∃ s s',
    Trace.Run Step (new.configureMulticore 1).1
      [.addTask [] .normal, .enqueueTaskOnCpu 0 1, .prepareContextSwitchForCpu 0,
        .removeTask 1] s ∧
    (s.multicore.runtime 0).current = some 1 ∧
    s.prepareContextSwitchForCpu 0 = some (s', some (.idle 0, .idle 0)) :=
  ⟨_, _, Trace.Run.of_foldlM rfl, rfl, rfl⟩

end Scheduling

end BraneKernel
