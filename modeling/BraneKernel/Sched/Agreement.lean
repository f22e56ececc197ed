import BraneKernel.Sched.Handoff

namespace BraneKernel

open MultiCoreScheduler

open MultiCoreScheduler (Moves)

inductive SchedulingCall
  | addTask (name : List (BitVec 8)) (priority : Priority)
  | addTaskWithEntry (name : List (BitVec 8)) (priority : Priority) (stack : KernelStack)
      (entry : U64)
  | removeTask (id : TaskId)
  | blockTask (id : TaskId)
  | unblockTask (id : TaskId)
  | enqueueTask (taskId : TaskId)
  | enqueueTaskOnCpu (cpu : ℕ) (taskId : TaskId)
  | dequeue (cpu : ℕ) (taskId : TaskId)
  | dispatchForCpu (cpu : ℕ)
  | completeForCpu (cpu : ℕ)
  | timerTickForCpu (cpu : ℕ) (locked : Bool)
  | prepareContextSwitchForCpu (cpu : ℕ)

namespace Scheduling

def call (s : Scheduling) : SchedulingCall → Option Scheduling
  | .addTask name priority =>
    (s.legacy.addTask name priority).map fun r ↦ { s with legacy := r.1 }
  | .addTaskWithEntry name priority stack entry =>
    (s.legacy.addTaskWithEntry name priority stack entry).map fun r ↦ { s with legacy := r.1 }
  | .removeTask id => some { s with legacy := (s.legacy.removeTask id).1 }
  | .blockTask id => some { s with legacy := (s.legacy.blockTask id).1 }
  | .unblockTask id => some { s with legacy := (s.legacy.unblockTask id).1 }
  | .enqueueTask taskId => some (s.enqueueTask taskId).1
  | .enqueueTaskOnCpu cpu taskId => some (s.enqueueTaskOnCpu cpu taskId).1
  | .dequeue cpu taskId => some { s with multicore := (s.multicore.dequeue cpu taskId).1 }
  | .dispatchForCpu cpu => (s.dispatchForCpu cpu).map (·.1)
  | .completeForCpu cpu => some (s.completeForCpu cpu).1
  | .timerTickForCpu cpu locked => (s.timerTickForCpu cpu locked).map (·.1)
  | .prepareContextSwitchForCpu cpu => (s.prepareContextSwitchForCpu cpu).map (·.1)

def Step (s : Scheduling) (c : SchedulingCall) (s' : Scheduling) : Prop := s.call c = some s'

/-- No task is dequeued while it runs, and a task that completes fits its queue. -/
def Orderly (s : Scheduling) : SchedulingCall → Prop
  | .dequeue cpu taskId => (s.multicore.runtime cpu).current ≠ some taskId
  | .completeForCpu cpu =>
    (s.multicore.runtime cpu).current ≠ none → (s.multicore.queues cpu).len < maxRunQueueTasks
  | _ => True

structure Agrees (s : Scheduling) : Prop where
  owned : s.multicore.Owned
  same : ∀ cpu, (s.perCpu cpu).initialized = true →
    (s.perCpu cpu).currentTask = (s.multicore.runtime cpu).current

end Scheduling

namespace MultiCoreScheduler

variable {s s' : MultiCoreScheduler} {t x : TaskId} {cpu c : ℕ} {dst : Option Place}

theorem Owned.running_lt (h : s.Owned) (hx : (s.runtime cpu).current = some x) : cpu < maxCpus := by
  by_contra hge
  have hcount := h.count_le
  cases ((h.beyond cpu (by omega)).2).symm.trans hx

theorem Moves.room (hm : Moves s s' x (some (.running cpu))) (h : s.Owned) (h' : s'.Owned)
    (hx : x ∈ (s.queues cpu).tasks ∨ (s.queues cpu).tasks = []) :
    (s'.queues cpu).len < maxRunQueueTasks := by
  have hsub : (s'.queues cpu).tasks ⊆ (s.queues cpu).tasks.erase x := by
    intro t ht
    have hheld : s'.Held t (.queue cpu) := ht
    have hne : t ≠ x := by
      rintro rfl
      cases hm.held_iff.mp hheld
    exact (List.mem_erase_of_ne hne).mpr ((hm.held_ne hne).mp hheld)
  have hle := ((h'.wellFormed cpu).nodup.subperm hsub).length_le
  rcases hx with hx | hnil
  · have hpos := List.length_pos_of_mem hx
    have hfit := (h.wellFormed cpu).fits
    rw [List.length_erase_of_mem hx] at hle
    unfold CpuRunQueue.len at hfit ⊢
    omega
  · rw [hnil, List.erase_nil] at hle
    exact Nat.lt_of_le_of_lt hle (by decide)

end MultiCoreScheduler

namespace Scheduling

variable {s s' : Scheduling} {cpu : ℕ}

theorem Agrees.of_records (h : s.Agrees) (cpu : ℕ) (hown : s'.multicore.Owned)
    (hcpu : (s'.perCpu cpu).initialized = true →
      (s'.perCpu cpu).currentTask = (s'.multicore.runtime cpu).current)
    (hslot : ∀ c, c ≠ cpu → s'.perCpu c = s.perCpu c)
    (hrun : ∀ c, c ≠ cpu →
      (s'.multicore.runtime c).current = (s.multicore.runtime c).current) : s'.Agrees := by
  refine ⟨hown, fun c hc ↦ ?_⟩
  by_cases he : c = cpu
  · subst he
    exact hcpu hc
  · rw [hslot c he, hrun c he]
    exact h.same c (hslot c he ▸ hc)

theorem Agrees.of_multicore (h : s.Agrees) (hown : s'.multicore.Owned) (hslot : s'.perCpu = s.perCpu)
    (hrun : ∀ c, (s'.multicore.runtime c).current = (s.multicore.runtime c).current) :
    s'.Agrees := by
  refine ⟨hown, fun c hc ↦ ?_⟩
  rw [hslot] at hc ⊢
  rw [hrun]
  exact h.same c hc

theorem Agrees.of_queued (h : s.Agrees) {m : MultiCoreScheduler} {x : TaskId} (hown : m.Owned)
    (heff : m = s.multicore ∨
      (∀ p, ¬ s.multicore.Held x p) ∧ ∃ cpu, Moves s.multicore m x (some (.queue cpu))) :
    ({ s with multicore := m } : Scheduling).Agrees := by
  refine h.of_multicore hown rfl fun c ↦ ?_
  rcases heff with rfl | ⟨hx, q, hm⟩
  · rfl
  · exact hm.current nofun (hx (.running c))

theorem agrees_dequeue (h : s.Agrees) (x : TaskId)
    (hx : (s.multicore.runtime cpu).current ≠ some x) :
    ({ s with multicore := (s.multicore.dequeue cpu x).1 } : Scheduling).Agrees := by
  obtain ⟨hown, heff⟩ := h.owned.dequeue cpu x
  refine h.of_multicore hown rfl fun c ↦ ?_
  unfold dequeue
  split_ifs <;> rfl

theorem Agrees.entered (h : s.Agrees) {m : MultiCoreScheduler} {t : TaskId} {v : ℕ} (hown : m.Owned)
    (ht : t ∈ (s.multicore.queues v).tasks) (hm : Moves s.multicore m t (some (.running cpu))) :
    (({ s with multicore := m } : Scheduling).noteEntered cpu t).Agrees := by
  have hrun : (m.runtime cpu).current = some t := hm.held_iff.mpr rfl
  have hcpu := hown.running_lt hrun
  obtain ⟨hmc, -⟩ := noteEntered_eq { s with multicore := m } cpu t
  obtain ⟨hother, hself⟩ := noteEntered_perCpu { s with multicore := m } t hcpu
  refine h.of_records cpu (hmc ▸ hown) (fun _ ↦ ?_) hother fun c hc ↦ ?_
  · rw [hself, hmc, hrun]
  · rw [hmc]
    refine hm.current (fun he ↦ ?_) (h.owned.not_running ht c)
    cases he
    exact hc rfl

theorem agrees_dispatch (h : s.Agrees) {r : DispatchResult}
    (hs : s.dispatchForCpu cpu = some (s', r)) : s'.Agrees ∧
      (∀ t, r = .dispatched t ∨ r = .stole t →
        (s'.multicore.queues cpu).len < maxRunQueueTasks) := by
  obtain ⟨m, r', hd, hown, heff⟩ := h.owned.dispatch cpu true
  have hd' : s.multicore.dispatch cpu = some (m, r') := hd
  simp only [dispatchForCpu, hd', Option.map_some] at hs
  cases heff with
  | invalidCpu _ he | busy _ _ he =>
    cases hs
    exact ⟨h.of_multicore hown rfl fun c ↦ by rw [he], by simp⟩
  | idle _ _ _ hsame =>
    cases hs
    exact ⟨h.of_multicore hown rfl (current_of_held hsame), by simp⟩
  | @dispatched t _ hx hm =>
    cases hs
    refine ⟨h.entered hown hx hm, fun _ _ ↦ ?_⟩
    rw [(noteEntered_eq { s with multicore := m } cpu t).1]
    exact hm.room h.owned hown (.inl hx)
  | @stole t v _ hi hnil hv hhead hm =>
    cases hs
    refine ⟨h.entered hown (List.mem_of_head? hhead) hm, fun _ _ ↦ ?_⟩
    rw [(noteEntered_eq { s with multicore := m } cpu t).1]
    exact hm.room h.owned hown (.inr hnil)

theorem completeForCpu_idle (hidle : (s.multicore.runtime cpu).current = none) :
    (s.completeForCpu cpu).1 = s := by
  have hcomplete : s.multicore.complete cpu = (s.multicore, .error .invalidCpu) ∨
      s.multicore.complete cpu = (s.multicore, .ok none) := by
    unfold complete
    rw [hidle]
    exact ite_eq_or_eq ..
  unfold completeForCpu
  rcases hcomplete with h | h <;> rw [h]

theorem completeForCpu_ok {t : TaskId} (hcpu : cpu < maxCpus)
    (hok : (s.multicore.complete cpu).2 = .ok (some t)) :
    (s.completeForCpu cpu).1 = setCpu { s with multicore := (s.multicore.complete cpu).1 } cpu
      { s.perCpu cpu with currentTask := none } := by
  unfold completeForCpu
  generalize s.multicore.complete cpu = completed at hok
  obtain ⟨multicore, result⟩ := completed
  cases hok
  exact if_pos hcpu

theorem agrees_complete (h : s.Agrees) (cpu : ℕ)
    (hroom : (s.multicore.runtime cpu).current ≠ none →
      (s.multicore.queues cpu).len < maxRunQueueTasks) : (s.completeForCpu cpu).1.Agrees := by
  cases hcur : (s.multicore.runtime cpu).current with
  | none =>
    rw [completeForCpu_idle hcur]
    exact h
  | some x =>
    obtain ⟨hown, ⟨-, hok, hm⟩ | ⟨hfull, -⟩⟩ := h.owned.putBack hcur
    swap
    · have hlt := hroom (by rw [hcur]; simp)
      omega
    have hcpu := h.owned.running_lt hcur
    rw [completeForCpu_ok hcpu hok]
    refine h.of_records cpu hown (fun _ ↦ ?_) (fun c hc ↦ Function.update_of_ne hc _ _) fun c hc ↦ ?_
    · simp only [setCpu, Function.update_self]
      exact (hm.current_left (by simp) hcur).symm
    · exact hm.current (by simp) (h.owned.not_running_ne hcur hc)

theorem agrees_accountTick (h : s.Agrees) (locked : Bool) : (s.accountTick cpu locked).Agrees := by
  obtain ⟨hmc, hslots, -⟩ := accountTick_spec s cpu locked
  refine h.of_records cpu (hmc ▸ h.owned) (fun hinit ↦ ?_) (fun c hc ↦ ?_) fun c _ ↦ by rw [hmc]
  · rw [hslots, Function.update_self] at hinit ⊢
    rw [hmc]
    exact h.same cpu hinit
  · rw [hslots, Function.update_of_ne hc]

theorem agrees_timerTick (h : s.Agrees) {locked : Bool} {r : DispatchResult}
    (hs : s.timerTickForCpu cpu locked = some (s', r)) : s'.Agrees := by
  unfold timerTickForCpu at hs
  split_ifs at hs
  swap
  · cases hs
    exact h
  obtain ⟨⟨u, r'⟩, hd, hu⟩ := Option.map_eq_some_iff.mp hs
  obtain ⟨hagree, hroom⟩ := agrees_dispatch (agrees_accountTick h locked) hd
  cases r' with
  | dispatched t =>
    cases hu
    exact agrees_complete hagree cpu fun _ ↦ hroom t (.inl rfl)
  | stole t =>
    cases hu
    exact agrees_complete hagree cpu fun _ ↦ hroom t (.inr rfl)
  | idle | busy _ | invalidCpu =>
    cases hu
    exact hagree

variable {ptrs : Option (ContextPtr × ContextPtr)}

theorem PrepareEffect.current (h : s.multicore.Owned) (heff : PrepareEffect s cpu s' ptrs) {c : ℕ}
    (hc : c = cpu → ptrs = none) :
    (s'.multicore.runtime c).current = (s.multicore.runtime c).current := by
  cases heff with
  | same hsame => exact current_of_held hsame c
  | withdrawn ht hdst hm =>
    exact hm.current (by rcases hdst with rfl | rfl <;> simp) (h.not_running ht c)
  | entered ht _ hm =>
    refine hm.current (fun he ↦ ?_) (h.not_running ht c)
    cases he
    cases hc rfl
  | left ht hdst hm =>
    refine hm.current (by rcases hdst with rfl | rfl <;> simp) (h.not_running_ne ht fun he ↦ ?_)
    cases hc he

theorem agrees_prepare (h : s.Agrees) (hs : s.prepareContextSwitchForCpu cpu = some (s', ptrs)) :
    s'.Agrees := by
  obtain ⟨hown, -, heff, ⟨hnone, hslots⟩ | ⟨hother, hself⟩⟩ := prepare_effect h.owned hs
  · exact h.of_multicore hown hslots fun c ↦ heff.current h.owned fun _ ↦ hnone
  · exact h.of_records cpu hown (fun _ ↦ hself) hother
      fun c hc ↦ heff.current h.owned fun he ↦ absurd he hc

theorem agrees_step {c : SchedulingCall} (h : s.Agrees) (hok : s.Orderly c) (hs : s.Step c s') :
    s'.Agrees := by
  cases c with
  | addTask | addTaskWithEntry =>
    obtain ⟨r, -, rfl⟩ := Option.map_eq_some_iff.mp hs
    exact ⟨h.owned, h.same⟩
  | removeTask | blockTask | unblockTask =>
    cases hs
    exact ⟨h.owned, h.same⟩
  | enqueueTask x =>
    cases hs
    obtain ⟨hown, heff⟩ := h.owned.enqueue x
    exact h.of_queued hown heff
  | enqueueTaskOnCpu cpu x =>
    cases hs
    obtain ⟨hown, heff⟩ := h.owned.enqueueOnCpu cpu x
    exact h.of_queued hown heff
  | dequeue cpu x =>
    cases hs
    exact agrees_dequeue h x hok
  | dispatchForCpu cpu =>
    obtain ⟨⟨u, r⟩, hd, rfl⟩ := Option.map_eq_some_iff.mp hs
    exact (agrees_dispatch h hd).1
  | completeForCpu cpu =>
    cases hs
    exact agrees_complete h cpu hok
  | timerTickForCpu cpu locked =>
    obtain ⟨⟨u, r⟩, hd, rfl⟩ := Option.map_eq_some_iff.mp hs
    exact agrees_timerTick h hd
  | prepareContextSwitchForCpu cpu =>
    obtain ⟨⟨u, ptrs⟩, hp, rfl⟩ := Option.map_eq_some_iff.mp hs
    exact agrees_prepare h hp

theorem owned_configured (s : Scheduling) (cpus : ℕ) :
    (s.configureMulticore cpus).1.multicore.Owned := by
  rw [Machine.configureMulticore_multicore]
  exact owned_configure _ _

theorem agrees_configure (s : Scheduling) (cpus : ℕ)
    (h : ∀ c, (s.multicore.configure cpus).cpuCount ≤ c → (s.perCpu c).initialized = true →
      (s.perCpu c).currentTask = none) : (s.configureMulticore cpus).1.Agrees := by
  have hcount := (owned_configure s.multicore cpus).count_le
  have hfold (c : ℕ) : ∀ (n : ℕ) (s : Scheduling), n ≤ maxCpus →
      ((List.range n).foldl (fun s cpu ↦ (s.initCpuScheduler cpu).1) s).perCpu c =
        if c < n then { CpuSchedulerSnapshot.new with initialized := true } else s.perCpu c := by
    intro n s hn
    induction n with
    | zero => rfl
    | succ n ih =>
      rw [List.range_succ, List.foldl_append, List.foldl_cons, List.foldl_nil, initCpuScheduler,
        if_pos (by omega)]
      by_cases hc : c = n
      · subst hc
        rw [if_pos c.lt_succ_self]
        simp only [setCpu, Function.update_self]
      · simp only [setCpu, Function.update_of_ne hc, ih (by omega)]
        split_ifs <;> first | rfl | omega
  refine ⟨owned_configured s cpus, fun c hc ↦ ?_⟩
  have hslot : (s.configureMulticore cpus).1.perCpu c = _ := hfold c _ _ hcount
  rw [hslot] at hc ⊢
  rw [Machine.configureMulticore_multicore]
  split_ifs at hc ⊢ with hlt
  · rfl
  · exact h c (Nat.le_of_not_lt hlt) hc

/-- In every orderly run the slot that names the caller of a system call is the
task that the run queues have running there. -/
theorem current_task_is_running (s : Scheduling) (cpus : ℕ)
    (hidle : ∀ c, (s.multicore.configure cpus).cpuCount ≤ c → (s.perCpu c).initialized = true →
      (s.perCpu c).currentTask = none)
    (calls : List SchedulingCall) (s' : Scheduling)
    (h : Trace.Run (Trace.Guarded Orderly Step) (s.configureMulticore cpus).1 calls s') :
    ∀ cpu, (s'.perCpu cpu).initialized = true →
      (s'.perCpu cpu).currentTask = (s'.multicore.runtime cpu).current :=
  (h.invariant (agrees_configure s cpus hidle) fun _ _ _ hs hstep ↦
    agrees_step hs hstep.1 hstep.2).same

theorem current_task_is_running_again : ∃ s',
    Trace.Run (Trace.Guarded Orderly Step) (new.configureMulticore 2).1
      [.enqueueTaskOnCpu 0 1, .enqueueTaskOnCpu 0 2, .dispatchForCpu 0, .completeForCpu 0,
        .timerTickForCpu 1 false, .dequeue 0 2, .dispatchForCpu 0] s' ∧
    (s'.perCpu 0).currentTask = some 1 ∧
    ∀ cpu, (s'.perCpu cpu).initialized = true →
      (s'.perCpu cpu).currentTask = (s'.multicore.runtime cpu).current := by
  have h₁ : Trace.Run (Trace.Guarded Orderly Step) (new.configureMulticore 2).1
      [.enqueueTaskOnCpu 0 1] _ := .snoc .nil (And.intro trivial rfl)
  have h₂ := h₁.snoc (And.intro (show Orderly _ (.enqueueTaskOnCpu 0 2) from trivial) rfl)
  have h₃ := h₂.snoc (And.intro (show Orderly _ (.dispatchForCpu 0) from trivial) rfl)
  have h₄ := h₃.snoc (And.intro (show Orderly _ (.completeForCpu 0) from fun _ ↦ by decide) rfl)
  have h₅ := h₄.snoc (And.intro (show Orderly _ (.timerTickForCpu 1 false) from trivial) rfl)
  have h₆ := h₅.snoc (And.intro (show Orderly _ (.dequeue 0 2) from nofun) rfl)
  have h₇ := h₆.snoc (And.intro (show Orderly _ (.dispatchForCpu 0) from trivial) rfl)
  exact ⟨_, h₇, rfl, current_task_is_running new 2 (fun c _ hc ↦ rfl) _ _ h₇⟩

/-- Dequeuing the running task clears one record and leaves the other. -/
theorem dequeue_leaves_current_task : ∃ s',
    Trace.Run Step (new.configureMulticore 2).1
      [.enqueueTaskOnCpu 0 1, .dispatchForCpu 0, .dequeue 0 1] s' ∧
    (s'.perCpu 0).initialized = true ∧ (s'.perCpu 0).currentTask = some 1 ∧
    (s'.multicore.runtime 0).current = none :=
  ⟨_, Trace.Run.of_foldlM rfl, rfl, rfl, rfl⟩

end Scheduling

end BraneKernel
