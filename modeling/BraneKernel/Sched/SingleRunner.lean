import BraneKernel.Lib.Trace
import BraneKernel.Sched.Legacy

namespace BraneKernel

namespace Scheduler

def runningAt (tasks : List (Option Task)) (i : ℕ) : Bool :=
  (tasks[i]?).join.any (·.state == .running)

def SingleRunner (s : Scheduler) : Prop := ∀ i, runningAt s.tasks i = true → i = s.current

inductive LegacyOp
  | addTask (name : List (BitVec 8)) (priority : Priority)
  | addTaskWithEntry (name : List (BitVec 8)) (priority : Priority) (stack : KernelStack) (entry : U64)
  | removeTask (id : TaskId)
  | blockTask (id : TaskId)
  | unblockTask (id : TaskId)
  | tick
  | prepareSwitch

def perform (s : Scheduler) : LegacyOp → Option Scheduler
  | .addTask name priority => (s.addTask name priority).map Prod.fst
  | .addTaskWithEntry name priority stack entry =>
    (s.addTaskWithEntry name priority stack entry).map Prod.fst
  | .removeTask id => some (s.removeTask id).1
  | .blockTask id => some (s.blockTask id).1
  | .unblockTask id => some (s.unblockTask id).1
  | .tick => some s.tick
  | .prepareSwitch => some s.prepareSwitch.1

/-- A switch finds both contexts: the current slot is occupied, or there is no
task to switch to. -/
def Switchable (s : Scheduler) : Prop := s.currentTaskId.isSome = true ∨ s.nextReady = none

def admits (s : Scheduler) : LegacyOp → Prop
  | .prepareSwitch => s.Switchable
  | _ => True

variable {s s' : Scheduler} {tasks tasks' : List (Option Task)} {i j : ℕ}

theorem runningAt_iff :
    runningAt tasks i = true ↔ ∃ t, tasks[i]? = some (some t) ∧ t.state = .running := by
  rw [runningAt, Option.any_eq_true]
  simp only [Option.join_eq_some_iff, beq_iff_eq]

theorem runningAt_insert {t : Task} (ht : t.state ≠ .running)
    (h : Slots.insert t tasks = some tasks') (hi : runningAt tasks' i = true) :
    runningAt tasks i = true := by
  obtain ⟨b, hb, hrun⟩ := runningAt_iff.mp hi
  rcases Slots.getElem?_insert h hb with hb | rfl
  · exact runningAt_iff.mpr ⟨b, hb, hrun⟩
  · exact absurd hrun ht

theorem runningAt_clear {p : Task → Bool} (hi : runningAt (Slots.clear p tasks) i = true) :
    runningAt tasks i = true := by
  obtain ⟨b, hb, hrun⟩ := runningAt_iff.mp hi
  exact runningAt_iff.mpr ⟨b, Slots.getElem?_clear hb, hrun⟩

theorem runningAt_modify {p : Task → Bool} {f : Task → Task} (hf : ∀ t, (f t).state ≠ .running)
    (hi : runningAt (Slots.modify p f tasks) i = true) : runningAt tasks i = true := by
  obtain ⟨b, hb, hrun⟩ := runningAt_iff.mp hi
  rcases Slots.getElem?_modify hb with hb | ⟨a, -, rfl⟩
  · exact runningAt_iff.mpr ⟨b, hb, hrun⟩
  · exact absurd hrun (hf a)

theorem runningAt_modify_ne {f : Option Task → Option Task} (hj : i ≠ j) :
    runningAt (tasks.modify i f) j = runningAt tasks j := by
  simp [runningAt, hj]

theorem runningAt_preempt (h : runningAt (preempt tasks i) j = true) :
    runningAt tasks j = true ∧ j ≠ i := by
  by_cases hj : i = j
  · subst hj
    obtain ⟨t, ht, hrun⟩ := runningAt_iff.mp h
    rw [preempt, List.getElem?_modify_eq] at ht
    obtain ⟨x, -, hx⟩ := Option.map_eq_some_iff.mp ht
    obtain ⟨u, -, rfl⟩ := Option.map_eq_some_iff.mp hx
    split_ifs at hrun
    exact absurd hrun ‹_›
  · rw [preempt, runningAt_modify_ne hj] at h
    exact ⟨h, Ne.symm hj⟩

theorem runningAt_markRunning (h : runningAt (markRunning tasks i) j = true) :
    runningAt tasks j = true ∨ j = i := by
  by_cases hj : i = j
  · exact .inr hj.symm
  · rw [markRunning, runningAt_modify_ne hj] at h
    exact .inl h

theorem SingleRunner.of_retained (hs : s.SingleRunner) (hcur : s'.current = s.current)
    (h : ∀ i, runningAt s'.tasks i = true → runningAt s.tasks i = true) : s'.SingleRunner := by
  intro i hi
  rw [hcur]
  exact hs i (h i hi)

theorem SingleRunner.preempt_idle (hs : s.SingleRunner) :
    runningAt (preempt s.tasks s.current) i ≠ true := by
  intro h
  obtain ⟨hi, hne⟩ := runningAt_preempt h
  exact hne (hs i hi)

theorem SingleRunner.mark_only (hs : s.SingleRunner)
    (h : runningAt (markRunning (preempt s.tasks s.current) j) i = true) : i = j := by
  rcases runningAt_markRunning h with h | rfl
  · exact absurd h hs.preempt_idle
  · rfl

theorem SingleRunner.tick (hs : s.SingleRunner) : s.tick.SingleRunner := by
  intro i hi
  unfold Scheduler.tick at hi ⊢
  dsimp only at hi ⊢
  split at hi
  · exact hs.mark_only hi
  · exact absurd hi hs.preempt_idle

theorem scanReady_ready {k : ℕ} (h : scanReady tasks i k = some j) : readyAt tasks j = true := by
  induction k generalizing i with
  | zero => cases h
  | succ k ih =>
    unfold scanReady at h
    split_ifs at h with hr
    · exact Option.some.inj h ▸ hr
    · exact ih h

theorem contextAt_markSwitch (s : Scheduler) (next i : ℕ) :
    (s.markSwitch next).contextAt i = (idAt s.tasks i).map fun _ ↦ i := by
  have hid : idAt (s.markSwitch next).tasks i = idAt s.tasks i := by
    rw [idAt_eq, idAt_eq, markSwitch, map_id_markRunning, map_id_preempt]
  rw [← hid, contextAt, idAt, Option.map_map]
  rfl

theorem idAt_of_readyAt (h : readyAt tasks i = true) : (idAt tasks i).isSome = true := by
  rw [readyAt, Option.any_eq_true] at h
  obtain ⟨t, ht, -⟩ := h
  rw [idAt, ht]
  rfl

theorem prepareSwitch_cases (s : Scheduler) :
    (s.nextReady = none ∧ s.prepareSwitch = (s, none)) ∨
    (∃ next, s.nextReady = some next ∧ s.currentTaskId = none ∧
      s.prepareSwitch = (s.markSwitch next, none)) ∨
    ∃ (next : ℕ) (hb : next < maxTasks), s.nextReady = some next ∧ s.currentTaskId.isSome = true ∧
      s.prepareSwitch = ({ s.markSwitch next with current := next, bound := hb },
        some (s.current, next)) := by
  unfold prepareSwitch
  split
  · next hnone => exact .inl ⟨hnone, rfl⟩
  · next next hnext =>
    obtain ⟨id', hid'⟩ := Option.isSome_iff_exists.mp (idAt_of_readyAt (scanReady_ready hnext))
    right
    rw [contextAt_markSwitch, contextAt_markSwitch, hid']
    cases hid : idAt s.tasks s.current with
    | none => exact .inl ⟨next, hnext, hid, rfl⟩
    | some id => exact .inr ⟨next, nextReady_lt hnext, hnext, by rw [currentTaskId, hid]; rfl, rfl⟩

theorem prepareSwitch_none (hs : s.Switchable) (h : s.prepareSwitch.2 = none) :
    s.prepareSwitch.1 = s := by
  rcases prepareSwitch_cases s with ⟨-, he⟩ | ⟨next, hn, hc, he⟩ | ⟨next, hb, -, -, he⟩
  · rw [he]
  · rcases hs with hs | hs
    · rw [hc] at hs
      cases hs
    · cases hn.symm.trans hs
  · rw [he] at h
    cases h

theorem SingleRunner.prepareSwitch (hs : s.SingleRunner) (hok : s.Switchable) :
    s.prepareSwitch.1.SingleRunner := by
  rcases prepareSwitch_cases s with ⟨-, he⟩ | ⟨next, -, -, he⟩ | ⟨next, hb, -, -, he⟩
  · rwa [he]
  · rwa [prepareSwitch_none hok (by rw [he])]
  · rw [he]
    exact fun i hi ↦ hs.mark_only hi

variable {name : List (BitVec 8)} {priority : Priority}

theorem SingleRunner.addTask {r : Option TaskId} (hs : s.SingleRunner)
    (h : s.addTask name priority = some (s', r)) : s'.SingleRunner := by
  unfold Scheduler.addTask at h
  split at h
  · cases h
    exact hs
  · next tasks hins =>
    obtain ⟨next, -, he⟩ := Option.map_eq_some_iff.mp h
    cases he
    exact hs.of_retained rfl fun i ↦ runningAt_insert (by simp [Task.newBoot]) hins

theorem newWithStack_ready {id : TaskId} {stack : KernelStack} {entry : U64} {t : Task}
    (h : Task.newWithStack id name priority stack entry = some t) : t.state = .ready := by
  obtain ⟨ctx, -, rfl⟩ := Option.map_eq_some_iff.mp h
  rfl

theorem SingleRunner.addTaskWithEntry {stack : KernelStack} {entry : U64} {r : Option TaskId}
    (hs : s.SingleRunner) (h : s.addTaskWithEntry name priority stack entry = some (s', r)) :
    s'.SingleRunner := by
  unfold Scheduler.addTaskWithEntry at h
  split at h
  · next next t hsucc hnew =>
    split at h
    · cases h
      exact hs
    · next tasks hins =>
      cases h
      exact hs.of_retained rfl fun i ↦ runningAt_insert (by simp [newWithStack_ready hnew]) hins
  · split_ifs at h
    cases h
    exact hs

theorem SingleRunner.perform {op : LegacyOp} (hs : s.SingleRunner) (hok : s.admits op)
    (h : s.perform op = some s') : s'.SingleRunner := by
  cases op with
  | addTask name priority =>
    obtain ⟨r, hr, rfl⟩ := Option.map_eq_some_iff.mp h
    exact hs.addTask hr
  | addTaskWithEntry name priority stack entry =>
    obtain ⟨r, hr, rfl⟩ := Option.map_eq_some_iff.mp h
    exact hs.addTaskWithEntry hr
  | removeTask id =>
    cases h
    exact hs.of_retained rfl fun i ↦ runningAt_clear
  | blockTask id =>
    cases h
    exact hs.of_retained rfl fun i ↦ runningAt_modify fun t ↦ by simp
  | unblockTask id =>
    cases h
    exact hs.of_retained rfl fun i ↦ runningAt_modify fun t ↦ by simp
  | tick =>
    cases h
    exact hs.tick
  | prepareSwitch =>
    cases h
    exact hs.prepareSwitch hok

theorem singleRunner_new : SingleRunner new := by
  intro i hi
  obtain ⟨t, ht, -⟩ := runningAt_iff.mp hi
  cases List.eq_of_mem_replicate (List.mem_of_getElem? ht)

/-- In every run of admitted calls only the current task can be `running`, and a switch that finds no
other task changes nothing. -/
theorem legacy_runs_one_task {ops : List LegacyOp} {s : Scheduler}
    (h : Trace.Run (Trace.Guarded admits fun s op t ↦ s.perform op = some t) new ops s) :
    (∀ i t, s.tasks[i]? = some (some t) → t.state = .running → i = s.current) ∧
      (s.Switchable → s.prepareSwitch.2 = none → s.prepareSwitch.1 = s) := by
  have hs : s.SingleRunner :=
    h.invariant singleRunner_new fun t op u ht hstep ↦ ht.perform hstep.1 hstep.2
  exact ⟨fun i t ht hrun ↦ hs i (runningAt_iff.mpr ⟨t, ht, hrun⟩), prepareSwitch_none⟩

instance (s : Scheduler) : Decidable s.Switchable :=
  inferInstanceAs (Decidable (s.currentTaskId.isSome = true ∨ s.nextReady = none))

instance (s : Scheduler) : (op : LegacyOp) → Decidable (s.admits op)
  | .prepareSwitch => inferInstanceAs (Decidable s.Switchable)
  | .addTask _ _ | .addTaskWithEntry _ _ _ _ | .removeTask _ | .blockTask _ | .unblockTask _
  | .tick => .isTrue trivial

theorem legacy_runs_one_task_switched : ∃ s : Scheduler,
    Trace.Run (Trace.Guarded admits fun s op t ↦ s.perform op = some t) new
      [.addTask [] .normal, .addTask [] .normal, .tick, .removeTask 2, .tick, .addTask [] .low,
        .prepareSwitch] s ∧
    runningAt s.tasks 1 = true ∧ s.current = 1 ∧ s.Switchable ∧
    ∀ i t, s.tasks[i]? = some (some t) → t.state = .running → i = s.current := by
  obtain ⟨s, hs, hvalues⟩ := Option.map_eq_some_iff.mp
    (show ([LegacyOp.addTask [] .normal, .addTask [] .normal, .tick, .removeTask 2, .tick,
        .addTask [] .low, .prepareSwitch].foldlM
          (fun s op ↦ if admits s op then perform s op else none) new).map
        (fun s ↦ (runningAt s.tasks 1, s.current, decide s.Switchable)) = some (true, 1, true) by
      decide +kernel)
  rw [Prod.mk.injEq, Prod.mk.injEq, decide_eq_true_eq] at hvalues
  have hrun := Trace.Run.of_guarded hs
  exact ⟨s, hrun, hvalues.1, hvalues.2.1, hvalues.2.2, (legacy_runs_one_task hrun).1⟩

/-- The running task is removed. A switch then answers `none` and has left a task
running that is not in the current slot; the next tick makes another one run. -/
theorem failed_switch_runs_two_tasks : ∃ s : Scheduler,
    Trace.Run (fun s op t ↦ s.perform op = some t) new
      [.addTask [] .normal, .addTask [] .normal, .addTask [] .normal, .tick, .removeTask 2] s ∧
    s.prepareSwitch.2 = none ∧ s.prepareSwitch.1.tasks ≠ s.tasks ∧
    runningAt s.prepareSwitch.1.tasks 2 = true ∧ s.prepareSwitch.1.current = 1 ∧
    runningAt s.prepareSwitch.1.tick.tasks 0 = true ∧
    runningAt s.prepareSwitch.1.tick.tasks 2 = true := by
  refine ⟨_, Trace.Run.of_foldlM rfl, by decide +kernel, by decide +kernel, by decide +kernel,
    by decide +kernel, by decide +kernel, by decide +kernel⟩

end Scheduler

end BraneKernel
