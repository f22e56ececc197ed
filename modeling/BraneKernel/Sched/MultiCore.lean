import BraneKernel.Sched.RunQueue
import Mathlib.Logic.Function.Basic

namespace BraneKernel

def maxCpus : ℕ := 32

inductive DispatchResult
  | dispatched (taskId : TaskId)
  | stole (taskId : TaskId)
  | idle
  | invalidCpu
  | busy (taskId : TaskId)
  deriving DecidableEq

structure CpuRuntimeSnapshot where
  current : Option TaskId
  dispatches : U64
  steals : U64
  idleDispatches : U64
  deriving DecidableEq

def CpuRuntimeSnapshot.new : CpuRuntimeSnapshot := ⟨none, 0, 0, 0⟩

structure MultiCoreScheduler where
  queues : ℕ → CpuRunQueue
  runtime : ℕ → CpuRuntimeSnapshot
  cpuCount : ℕ
  nextAssignment : ℕ

namespace MultiCoreScheduler

def new : MultiCoreScheduler := ⟨fun _ ↦ .new, fun _ ↦ .new, 1, 0⟩

def configure (_ : MultiCoreScheduler) (cpuCount : ℕ) : MultiCoreScheduler :=
  ⟨fun _ ↦ .new, fun _ ↦ .new, max 1 (min cpuCount maxCpus), 0⟩

variable (s : MultiCoreScheduler)

def setQueue (cpu : ℕ) (q : CpuRunQueue) : MultiCoreScheduler :=
  { s with queues := Function.update s.queues cpu q }

def setRuntime (cpu : ℕ) (r : CpuRuntimeSnapshot) : MultiCoreScheduler :=
  { s with runtime := Function.update s.runtime cpu r }

def owns (taskId : TaskId) : Bool :=
  (List.range s.cpuCount).any (fun cpu ↦ (s.queues cpu).contains taskId) ||
    (List.range s.cpuCount).any (fun cpu ↦ (s.runtime cpu).current == some taskId)

def selectCpu : ℕ :=
  (List.range' 1 (s.cpuCount - 1)).foldl
    (fun selected offset ↦
      let candidate := (s.nextAssignment + offset) % s.cpuCount
      if (s.queues candidate).len < (s.queues selected).len then candidate else selected)
    (s.nextAssignment % s.cpuCount)

def enqueue (s : MultiCoreScheduler) (taskId : TaskId) :
    MultiCoreScheduler × Except RunQueueError ℕ :=
  if taskId = 0 then (s, .error .invalidTask)
  else if s.owns taskId then (s, .error .duplicate)
  else
    let selected := s.selectCpu
    match (s.queues selected).enqueue taskId with
    | .error e => (s, .error e)
    | .ok q =>
      ({ s.setQueue selected q with nextAssignment := (selected + 1) % s.cpuCount }, .ok selected)

def enqueueOnCpu (cpu : ℕ) (taskId : TaskId) : MultiCoreScheduler × Except RunQueueError Unit :=
  if s.cpuCount ≤ cpu then (s, .error .invalidCpu)
  else if taskId = 0 then (s, .error .invalidTask)
  else if s.owns taskId then (s, .error .duplicate)
  else
    match (s.queues cpu).enqueue taskId with
    | .error e => (s, .error e)
    | .ok q => (s.setQueue cpu q, .ok ())

def dequeue (cpu : ℕ) (taskId : TaskId) : MultiCoreScheduler × Except RunQueueError Bool :=
  if s.cpuCount ≤ cpu then (s, .error .invalidCpu)
  else if (s.runtime cpu).current = some taskId then
    (s.setRuntime cpu { s.runtime cpu with current := none }, .ok true)
  else
    let (q, removed) := (s.queues cpu).remove taskId
    (s.setQueue cpu q, .ok removed)

def pickNext (cpu : ℕ) : MultiCoreScheduler × Except RunQueueError (Option TaskId) :=
  if s.cpuCount ≤ cpu then (s, .error .invalidCpu)
  else
    match (s.queues cpu).next with
    | none => (s, .ok none)
    | some (taskId, q) => (s.setQueue cpu q, .ok (some taskId))

def busiest (candidates : List ℕ) : Option ℕ :=
  candidates.foldl
    (fun best cpu ↦
      match best with
      | none => some cpu
      | some b => if (s.queues b).len < (s.queues cpu).len then some cpu else some b)
    none

def victim (thiefCpu : ℕ) : Option ℕ :=
  s.busiest ((List.range s.cpuCount).filter fun cpu ↦ cpu != thiefCpu && (s.queues cpu).len != 0)

/-- Steal the oldest task of the busiest peer. `none` is the failing `expect`. -/
def steal (thiefCpu : ℕ) : Option (MultiCoreScheduler × Except RunQueueError (Option TaskId)) :=
  if s.cpuCount ≤ thiefCpu then some (s, .error .invalidCpu)
  else if (s.queues thiefCpu).len = maxRunQueueTasks then some (s, .error .full)
  else
    match s.victim thiefCpu with
    | none => some (s, .ok none)
    | some victim =>
      let taskId := (s.queues victim).tasks.headD 0
      let s := s.setQueue victim ((s.queues victim).remove taskId).1
      match (s.queues thiefCpu).enqueue taskId with
      | .ok q => some (s.setQueue thiefCpu q, .ok (some taskId))
      | .error _ => none

def enter (cpu : ℕ) (taskId : TaskId) (steals : U64) : MultiCoreScheduler :=
  s.setRuntime cpu
    { s.runtime cpu with
      current := some taskId
      dispatches := (s.runtime cpu).dispatches + 1
      steals := (s.runtime cpu).steals + steals }

def stayIdle (cpu : ℕ) : MultiCoreScheduler :=
  s.setRuntime cpu { s.runtime cpu with idleDispatches := (s.runtime cpu).idleDispatches + 1 }

def dispatchExcludingMode (cpu : ℕ) (excluded : Option TaskId) (allowSteal : Bool) :
    Option (MultiCoreScheduler × DispatchResult) :=
  if s.cpuCount ≤ cpu then some (s, .invalidCpu)
  else
    match (s.runtime cpu).current with
    | some taskId => some (s, .busy taskId)
    | none =>
      match (s.queues cpu).popNextExcluding excluded with
      | (some taskId, q) => some ((s.setQueue cpu q).enter cpu taskId 0, .dispatched taskId)
      | (none, q) =>
        let s := s.setQueue cpu q
        if allowSteal then
          match s.steal cpu with
          | none => none
          | some (s, .ok (some taskId)) =>
            let (popped, q) := (s.queues cpu).popNextExcluding excluded
            let selected := popped.getD taskId
            some ((s.setQueue cpu q).enter cpu selected 1, .stole selected)
          | some (s, _) => some (s.stayIdle cpu, .idle)
        else some (s.stayIdle cpu, .idle)

def dispatch (cpu : ℕ) : Option (MultiCoreScheduler × DispatchResult) :=
  s.dispatchExcludingMode cpu none true

def complete (cpu : ℕ) : MultiCoreScheduler × Except RunQueueError (Option TaskId) :=
  if s.cpuCount ≤ cpu then (s, .error .invalidCpu)
  else
    match (s.runtime cpu).current with
    | none => (s, .ok none)
    | some taskId =>
      let s := s.setRuntime cpu { s.runtime cpu with current := none }
      match (s.queues cpu).enqueue taskId with
      | .error e => (s, .error e)
      | .ok q => (s.setQueue cpu q, .ok (some taskId))

def boundedHandoff (cpu : ℕ) (allowSteal : Bool) :
    Option (MultiCoreScheduler × Option TaskId × DispatchResult) :=
  if s.cpuCount ≤ cpu then some (s, none, .invalidCpu)
  else
    match (s.runtime cpu).current with
    | some taskId => some ((s.complete cpu).1, some taskId, .idle)
    | none => (s.dispatchExcludingMode cpu none allowSteal).map fun (s, result) ↦ (s, none, result)

end MultiCoreScheduler

end BraneKernel
