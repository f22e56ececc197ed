import BraneKernel.Sched.Legacy
import BraneKernel.Sched.MultiCore

namespace BraneKernel

structure CpuSchedulerSnapshot where
  initialized : Bool
  currentTask : Option TaskId
  savedContext : TaskContext
  contextSwitches : U64
  timerTicks : U64
  deriving DecidableEq

def CpuSchedulerSnapshot.new : CpuSchedulerSnapshot := ⟨false, none, .empty, 0, 0⟩

/-- A pointer to a saved register context: a slot of the task table, or the idle
context of a CPU. -/
inductive ContextPtr
  | task (slot : ℕ)
  | idle (cpu : ℕ)
  deriving DecidableEq

/-- The scheduler state behind the three locks. The array `perCpu` has `maxCpus`
slots. -/
structure Scheduling where
  legacy : Scheduler
  multicore : MultiCoreScheduler
  perCpu : ℕ → CpuSchedulerSnapshot

namespace Scheduling

def new : Scheduling := ⟨.new, .new, fun _ ↦ .new⟩

def setCpu (s : Scheduling) (cpu : ℕ) (state : CpuSchedulerSnapshot) : Scheduling :=
  { s with perCpu := Function.update s.perCpu cpu state }

def initCpuScheduler (s : Scheduling) (cpu : ℕ) : Scheduling × Bool :=
  if cpu < maxCpus then (s.setCpu cpu { CpuSchedulerSnapshot.new with initialized := true }, true)
  else (s, false)

def configureMulticore (s : Scheduling) (cpuCount : ℕ) : Scheduling × ℕ :=
  let multicore := s.multicore.configure cpuCount
  ((List.range multicore.cpuCount).foldl (fun s cpu ↦ (s.initCpuScheduler cpu).1)
    { s with multicore := multicore }, multicore.cpuCount)

def enqueueTask (s : Scheduling) (taskId : TaskId) : Scheduling × Except RunQueueError ℕ :=
  let (multicore, result) := s.multicore.enqueue taskId
  ({ s with multicore := multicore }, result)

def enqueueTaskOnCpu (s : Scheduling) (cpu : ℕ) (taskId : TaskId) :
    Scheduling × Except RunQueueError Unit :=
  let (multicore, result) := s.multicore.enqueueOnCpu cpu taskId
  ({ s with multicore := multicore }, result)

def cpuSchedulerSnapshot (s : Scheduling) (cpu : ℕ) : Option CpuSchedulerSnapshot :=
  if cpu < maxCpus then some (s.perCpu cpu) else none

def noteEntered (s : Scheduling) (cpu : ℕ) (taskId : TaskId) : Scheduling :=
  if cpu < maxCpus then
    s.setCpu cpu { s.perCpu cpu with
      currentTask := some taskId
      contextSwitches := (s.perCpu cpu).contextSwitches + 1 }
  else s

def dispatchForCpu (s : Scheduling) (cpu : ℕ) : Option (Scheduling × DispatchResult) :=
  (s.multicore.dispatch cpu).map fun (multicore, result) ↦
    let s := { s with multicore := multicore }
    match result with
    | .dispatched taskId | .stole taskId => (s.noteEntered cpu taskId, result)
    | _ => (s, result)

def completeForCpu (s : Scheduling) (cpu : ℕ) : Scheduling × Option TaskId :=
  let (multicore, result) := s.multicore.complete cpu
  let s := { s with multicore := multicore }
  match result with
  | .ok (some taskId) =>
    (if cpu < maxCpus then s.setCpu cpu { s.perCpu cpu with currentTask := none } else s,
      some taskId)
  | _ => (s, none)

/-- Select a successor for one CPU and name the contexts to save to and load
from. The outer `none` is the failing `expect` of a steal. -/
def prepareContextSwitchForCpu (s : Scheduling) (cpu : ℕ) :
    Option (Scheduling × Option (ContextPtr × ContextPtr)) :=
  if cpu < maxCpus ∧ (s.perCpu cpu).initialized = true then
    (s.multicore.boundedHandoff cpu false).map fun (multicore, previous, result) ↦
      let s := { s with multicore := multicore }
      match result with
      | .busy _ | .invalidCpu => (s, none)
      | .dispatched next | .stole next =>
        let oldPtr := ((previous.bind s.legacy.taskContextPtr).map ContextPtr.task).getD (.idle cpu)
        match s.legacy.taskContextPtr next with
        | none => ({ s with multicore := (s.multicore.complete cpu).1 }, none)
        | some slot => (s.noteEntered cpu next, some (oldPtr, .task slot))
      | .idle =>
        match previous with
        | none => (s, none)
        | some taskId =>
          let oldPtr := ((s.legacy.taskContextPtr taskId).map ContextPtr.task).getD (.idle cpu)
          (s.setCpu cpu { s.perCpu cpu with
            currentTask := none
            contextSwitches := (s.perCpu cpu).contextSwitches + 1 }, some (oldPtr, .idle cpu))
  else some (s, none)

/-- The accounting of a timer quantum. `locked` says that the interrupted code
holds the lock of the task table, in which case the boot CPU defers its tick. -/
def accountTick (s : Scheduling) (cpu : ℕ) (locked : Bool) : Scheduling :=
  let s := s.setCpu cpu { s.perCpu cpu with timerTicks := (s.perCpu cpu).timerTicks + 1 }
  if cpu = 0 ∧ locked = false then { s with legacy := s.legacy.tick } else s

def timerTickForCpu (s : Scheduling) (cpu : ℕ) (locked : Bool) :
    Option (Scheduling × DispatchResult) :=
  if cpu < maxCpus then
    ((s.accountTick cpu locked).dispatchForCpu cpu).map fun (s, result) ↦
      match result with
      | .dispatched _ | .stole _ => ((s.completeForCpu cpu).1, result)
      | _ => (s, result)
  else some (s, .invalidCpu)

/-- Nothing but the run queues and one slot of `perCpu` has changed, and the slot is as initialised
as before. -/
structure Confined (cpu : ℕ) (s s' : Scheduling) : Prop where
  legacy : s'.legacy = s.legacy
  others : ∀ c, c ≠ cpu → s'.perCpu c = s.perCpu c
  initialized : (s'.perCpu cpu).initialized = (s.perCpu cpu).initialized

variable {s s' s'' : Scheduling} {cpu : ℕ}

theorem Confined.of_slot (h : s'.legacy = s.legacy) {state : CpuSchedulerSnapshot}
    (hslot : s'.perCpu = Function.update s.perCpu cpu state)
    (hinit : state.initialized = (s.perCpu cpu).initialized) : Confined cpu s s' where
  legacy := h
  others c hc := by rw [hslot, Function.update_of_ne hc]
  initialized := by rw [hslot, Function.update_self, hinit]

theorem Confined.of_multicore (s : Scheduling) (cpu : ℕ) (multicore : MultiCoreScheduler) :
    Confined cpu s { s with multicore := multicore } := ⟨rfl, fun _ _ ↦ rfl, rfl⟩

theorem Confined.trans (h : Confined cpu s s') (h' : Confined cpu s' s'') : Confined cpu s s'' where
  legacy := h'.legacy.trans h.legacy
  others c hc := (h'.others c hc).trans (h.others c hc)
  initialized := h'.initialized.trans h.initialized

theorem confined_noteEntered (s : Scheduling) (cpu : ℕ) (t : TaskId) :
    Confined cpu s (s.noteEntered cpu t) := by
  unfold noteEntered
  split_ifs
  · exact .of_slot rfl rfl rfl
  · exact ⟨rfl, fun _ _ ↦ rfl, rfl⟩

variable {r : DispatchResult}

theorem confined_dispatch (h : s.dispatchForCpu cpu = some (s', r)) : Confined cpu s s' := by
  obtain ⟨⟨multicore, result⟩, -, h⟩ := Option.map_eq_some_iff.mp h
  have hmulti := Confined.of_multicore s cpu multicore
  cases result with
  | dispatched t | stole t =>
    cases h
    exact hmulti.trans (confined_noteEntered _ cpu t)
  | idle | busy _ | invalidCpu =>
    cases h
    exact hmulti

theorem confined_complete (s : Scheduling) (cpu : ℕ) : Confined cpu s (s.completeForCpu cpu).1 := by
  have hmulti := Confined.of_multicore s cpu (s.multicore.complete cpu).1
  unfold completeForCpu
  dsimp only
  split
  · split_ifs
    · exact hmulti.trans (.of_slot rfl rfl rfl)
    · exact hmulti
  · exact hmulti

theorem confined_prepare {ptrs : Option (ContextPtr × ContextPtr)}
    (h : s.prepareContextSwitchForCpu cpu = some (s', ptrs)) : Confined cpu s s' := by
  unfold prepareContextSwitchForCpu at h
  split_ifs at h
  · obtain ⟨⟨multicore, previous, result⟩, -, h⟩ := Option.map_eq_some_iff.mp h
    have hmulti := Confined.of_multicore s cpu multicore
    cases result with
    | busy _ | invalidCpu =>
      cases h
      exact hmulti
    | dispatched t | stole t =>
      dsimp only at h
      split at h
      · cases h
        exact .of_multicore s cpu _
      · cases h
        exact hmulti.trans (confined_noteEntered _ cpu t)
    | idle =>
      cases previous with
      | none =>
        cases h
        exact hmulti
      | some t =>
        cases h
        exact hmulti.trans (.of_slot rfl rfl rfl)
  · cases h
    exact ⟨rfl, fun _ _ ↦ rfl, rfl⟩

theorem dispatchForCpu_busy {t : TaskId} (hbusy : (s.multicore.runtime cpu).current = some t)
    (h : s.dispatchForCpu cpu = some (s', r)) : s' = s ∧ (r = .busy t ∨ r = .invalidCpu) := by
  obtain ⟨⟨multicore, result⟩, hd, h⟩ := Option.map_eq_some_iff.mp h
  simp only [MultiCoreScheduler.dispatch, MultiCoreScheduler.dispatchExcludingMode, hbusy] at hd
  split_ifs at hd
  · cases hd
    cases h
    exact ⟨rfl, .inr rfl⟩
  · cases hd
    cases h
    exact ⟨rfl, .inl rfl⟩

theorem accountTick_spec (s : Scheduling) (cpu : ℕ) (locked : Bool) :
    (s.accountTick cpu locked).multicore = s.multicore ∧
      (s.accountTick cpu locked).perCpu = Function.update s.perCpu cpu
        { s.perCpu cpu with timerTicks := (s.perCpu cpu).timerTicks + 1 } ∧
      ((s.accountTick cpu locked).legacy = s.legacy ∨
        cpu = 0 ∧ locked = false ∧ (s.accountTick cpu locked).legacy = s.legacy.tick) := by
  unfold accountTick
  dsimp only
  split_ifs with hboot
  · exact ⟨rfl, rfl, .inr ⟨hboot.1, hboot.2, rfl⟩⟩
  · exact ⟨rfl, rfl, .inl rfl⟩

/-- What a timer interrupt does to the legacy cursor and to the slot of its CPU. -/
theorem timerTick_slot {locked : Bool} (h : s.timerTickForCpu cpu locked = some (s', r)) :
    (s'.legacy = s.legacy ∨ cpu = 0 ∧ locked = false ∧ s'.legacy = s.legacy.tick) ∧
      (∀ c, c ≠ cpu → s'.perCpu c = s.perCpu c) ∧
      (s'.perCpu cpu).initialized = (s.perCpu cpu).initialized ∧
      ((s.multicore.runtime cpu).current ≠ none →
        (s'.perCpu cpu).currentTask = (s.perCpu cpu).currentTask) := by
  unfold timerTickForCpu at h
  split_ifs at h
  · obtain ⟨⟨u, r'⟩, hd, hu⟩ := Option.map_eq_some_iff.mp h
    obtain ⟨hmulti, hslots, hlegacy⟩ := accountTick_spec s cpu locked
    have hconf : Confined cpu (s.accountTick cpu locked) s' := by
      cases r' with
      | dispatched t | stole t =>
        cases hu
        exact (confined_dispatch hd).trans (confined_complete u cpu)
      | idle | busy _ | invalidCpu =>
        cases hu
        exact confined_dispatch hd
    refine ⟨hconf.legacy ▸ hlegacy, fun c hc ↦ ?_, ?_, fun hbusy ↦ ?_⟩
    · rw [hconf.others c hc, hslots, Function.update_of_ne hc]
    · rw [hconf.initialized, hslots, Function.update_self]
    · obtain ⟨t, ht⟩ := Option.ne_none_iff_exists'.mp hbusy
      obtain ⟨rfl, rfl | rfl⟩ := dispatchForCpu_busy (hmulti ▸ ht) hd <;>
      · cases hu
        rw [hslots, Function.update_self]
  · cases h
    exact ⟨.inl rfl, fun _ _ ↦ rfl, rfl, fun _ ↦ rfl⟩

end Scheduling

end BraneKernel
