import BraneKernel.Context
import BraneKernel.Lib.Slots
import BraneKernel.Sched.RunQueue

namespace BraneKernel

inductive TaskState
  | ready | running | blocked | finished
  deriving DecidableEq

inductive Priority
  | idle | low | normal | high | realtime | system
  deriving DecidableEq

structure Task where
  id : TaskId
  name : List (BitVec 8)
  priority : Priority
  state : TaskState
  ticks : U64
  ctx : TaskContext
  stack : Option U64
  deriving DecidableEq

def Task.newBoot (id : TaskId) (name : List (BitVec 8)) (priority : Priority) : Task :=
  ⟨id, name.take 32, priority, .ready, 0, .empty, none⟩

def Task.newWithStack (id : TaskId) (name : List (BitVec 8)) (priority : Priority)
    (stack : KernelStack) (entry : U64) : Option Task :=
  (TaskContext.newTask stack.top entry).map fun ctx ↦
    ⟨id, name.take 32, priority, .ready, 0, ctx, some stack.base⟩

/-- The task table with the cooperative round-robin cursor of the boot CPU. -/
structure Scheduler where
  tasks : List (Option Task)
  current : ℕ
  nextId : TaskId
  tickCount : U64
  size : tasks.length = maxTasks
  bound : current < maxTasks

namespace Scheduler

def new : Scheduler where
  tasks := List.replicate maxTasks none
  current := 0
  nextId := 1
  tickCount := 0
  size := List.length_replicate
  bound := by decide

variable (s : Scheduler)

def addTask (name : List (BitVec 8)) (priority : Priority) : Option (Scheduler × Option TaskId) :=
  match h : Slots.insert (Task.newBoot s.nextId name priority) s.tasks with
  | none => some (s, none)
  | some tasks => (checkedSucc s.nextId).map fun next ↦
      ({ s with tasks := tasks, nextId := next, size := (Slots.length_insert h).trans s.size },
        some s.nextId)

def addTaskWithEntry (name : List (BitVec 8)) (priority : Priority) (stack : KernelStack)
    (entry : U64) : Option (Scheduler × Option TaskId) :=
  match checkedSucc s.nextId, Task.newWithStack s.nextId name priority stack entry with
  | some next, some task =>
    match h : Slots.insert task s.tasks with
    | none => some (s, none)
    | some tasks =>
      some ({ s with tasks := tasks, nextId := next, size := (Slots.length_insert h).trans s.size },
        some s.nextId)
  | _, _ => if s.tasks.all Option.isSome then some (s, none) else none

def removeTask (id : TaskId) : Scheduler × Bool :=
  ({ s with
      tasks := Slots.clear (fun t ↦ t.id == id) s.tasks
      size := (Slots.length_clear _ _).trans s.size },
    (Slots.find (fun t ↦ t.id == id) s.tasks).isSome)

def blockTask (id : TaskId) : Scheduler × Bool :=
  ({ s with
      tasks := Slots.modify (fun t ↦ t.id == id) (fun t ↦ { t with state := .blocked }) s.tasks
      size := (Slots.length_modify _ _ _).trans s.size },
    (Slots.find (fun t ↦ t.id == id) s.tasks).isSome)

def unblockTask (id : TaskId) : Scheduler × Bool :=
  ({ s with
      tasks := Slots.modify (fun t ↦ t.id == id && t.state == .blocked)
        (fun t ↦ { t with state := .ready }) s.tasks
      size := (Slots.length_modify _ _ _).trans s.size },
    (Slots.find (fun t ↦ t.id == id && t.state == .blocked) s.tasks).isSome)

def readyAt (tasks : List (Option Task)) (i : ℕ) : Bool :=
  (tasks[i]?).join.any (·.state == .ready)

def scanReady (tasks : List (Option Task)) : ℕ → ℕ → Option ℕ
  | _, 0 => none
  | i, k + 1 => if readyAt tasks i then some i else scanReady tasks ((i + 1) % maxTasks) k

theorem scanReady_lt {tasks : List (Option Task)} {i k j : ℕ} (hi : i < maxTasks)
    (h : scanReady tasks i k = some j) : j < maxTasks := by
  induction k generalizing i with
  | zero => cases h
  | succ k ih =>
    unfold scanReady at h
    split_ifs at h
    · exact Option.some.inj h ▸ hi
    · exact ih (Nat.mod_lt _ (by decide)) h

def preempt (tasks : List (Option Task)) (i : ℕ) : List (Option Task) :=
  tasks.modify i (Option.map fun t ↦ if t.state = .running then { t with state := .ready } else t)

def markRunning (tasks : List (Option Task)) (i : ℕ) : List (Option Task) :=
  tasks.modify i (Option.map fun t ↦ { t with state := .running, ticks := t.ticks + 1 })

/-- The loop of the source leaves the cursor where it was once it has wrapped
around, which takes `maxTasks` probes. -/
def tick : Scheduler :=
  let tasks := preempt s.tasks s.current
  match h : scanReady tasks ((s.current + 1) % maxTasks) maxTasks with
  | some i =>
    { tasks := markRunning tasks i
      current := i
      nextId := s.nextId
      tickCount := s.tickCount + 1
      size := by simp [markRunning, tasks, preempt, s.size]
      bound := scanReady_lt (Nat.mod_lt _ (by decide)) h }
  | none =>
    { tasks := tasks
      current := s.current
      nextId := s.nextId
      tickCount := s.tickCount + 1
      size := by simp [tasks, preempt, s.size]
      bound := s.bound }

def nextReady : Option ℕ :=
  scanReady s.tasks ((s.current + 1) % maxTasks) (maxTasks - 1)

theorem nextReady_lt {s : Scheduler} {i : ℕ} (h : s.nextReady = some i) : i < maxTasks :=
  scanReady_lt (Nat.mod_lt _ (by decide)) h

def contextAt (i : ℕ) : Option ℕ := (s.tasks[i]?).join.map fun _ ↦ i

def markSwitch (next : ℕ) : Scheduler :=
  { s with
    tasks := markRunning (preempt s.tasks s.current) next
    size := by simp [markRunning, preempt, s.size] }

/-- The states change before the two context pointers are known to exist; the
cursor moves after. -/
def prepareSwitch : Scheduler × Option (ℕ × ℕ) :=
  match h : s.nextReady with
  | none => (s, none)
  | some next =>
    match (s.markSwitch next).contextAt s.current, (s.markSwitch next).contextAt next with
    | some old, some new =>
      ({ s.markSwitch next with current := next, bound := nextReady_lt h }, some (old, new))
    | _, _ => (s.markSwitch next, none)

def taskContextPtr (id : TaskId) : Option ℕ :=
  Slots.index (fun t ↦ t.id == id) s.tasks

def idAt (tasks : List (Option Task)) (i : ℕ) : Option TaskId :=
  (tasks[i]?).join.map (·.id)

def currentTaskId : Option TaskId := idAt s.tasks s.current

def totalTicks : U64 := s.tickCount

def activeCount : ℕ := s.tasks.countP (·.isSome)

theorem map_id_modify {f : Task → Task} (hf : ∀ t, (f t).id = t.id) (tasks : List (Option Task))
    (i : ℕ) : (tasks.modify i (Option.map f)).map (Option.map Task.id) =
      tasks.map (Option.map Task.id) := by
  induction tasks generalizing i with
  | nil => simp
  | cons x tasks ih =>
    cases i with
    | zero => cases x <;> simp [hf]
    | succ i => simp [ih]

variable (tasks : List (Option Task))

@[simp] theorem map_id_preempt (i : ℕ) :
    (preempt tasks i).map (Option.map Task.id) = tasks.map (Option.map Task.id) := by
  apply map_id_modify
  intro t
  split_ifs <;> rfl

@[simp] theorem map_id_markRunning (i : ℕ) :
    (markRunning tasks i).map (Option.map Task.id) = tasks.map (Option.map Task.id) := by
  apply map_id_modify
  intro t
  rfl

theorem map_id_tick : s.tick.tasks.map (Option.map Task.id) = s.tasks.map (Option.map Task.id) := by
  unfold tick
  dsimp only
  split
  · rw [map_id_markRunning, map_id_preempt]
  · exact map_id_preempt _ _

theorem taskContextPtr_injective {s : Scheduler} {id id' : TaskId} {slot : ℕ}
    (h : s.taskContextPtr id = some slot) (h' : s.taskContextPtr id' = some slot) : id = id' := by
  obtain ⟨t, ht, hid⟩ := Slots.index_spec h
  obtain ⟨t', ht', hid'⟩ := Slots.index_spec h'
  obtain rfl := Option.some.inj (Option.some.inj (ht.symm.trans ht'))
  rw [beq_iff_eq] at hid hid'
  exact hid.symm.trans hid'

theorem taskContextPtr_eq (id : TaskId) :
    s.taskContextPtr id = Slots.index (· == id) (s.tasks.map (Option.map Task.id)) :=
  (Slots.index_map (· == id) Task.id s.tasks).symm

theorem taskContextPtr_tick (id : TaskId) : s.tick.taskContextPtr id = s.taskContextPtr id := by
  rw [taskContextPtr_eq, taskContextPtr_eq, map_id_tick]

theorem idAt_eq (i : ℕ) : idAt tasks i = ((tasks.map (Option.map Task.id))[i]?).join := by
  rw [idAt, List.getElem?_map]
  cases tasks[i]? <;> rfl

theorem scanReady_succ (i k : ℕ) (hi : i < maxTasks) :
    scanReady tasks i (k + 1) = (scanReady tasks i k <|>
      if readyAt tasks ((i + k) % maxTasks) then some ((i + k) % maxTasks) else none) := by
  induction k generalizing i with
  | zero => simp [scanReady, Nat.mod_eq_of_lt hi]
  | succ k ih =>
    have hk : ((i + 1) % maxTasks + k) % maxTasks = (i + (k + 1)) % maxTasks := by
      rw [Nat.mod_add_mod]
      congr 1
      omega
    rw [scanReady, ih _ (Nat.mod_lt _ (by decide)), hk, scanReady]
    split_ifs <;> simp

theorem scanReady_congr {tasks tasks' : List (Option Task)} {i k : ℕ} (hi : i < maxTasks)
    (h : ∀ j < k, readyAt tasks' ((i + j) % maxTasks) = readyAt tasks ((i + j) % maxTasks)) :
    scanReady tasks' i k = scanReady tasks i k := by
  induction k with
  | zero => rfl
  | succ k ih =>
    rw [scanReady_succ _ _ _ hi, scanReady_succ _ _ _ hi, ih fun j hj ↦ h j (by omega),
      h k (by omega)]

theorem readyAt_preempt_ne {tasks : List (Option Task)} {i j : ℕ} (h : j ≠ i) :
    readyAt (preempt tasks i) j = readyAt tasks j := by
  simp [readyAt, preempt, h.symm]

theorem currentTaskId_tick {s : Scheduler} (h : s.nextReady = none) :
    s.tick.currentTaskId = s.currentTaskId := by
  have hb := s.bound
  have hi : (s.current + 1) % maxTasks < maxTasks := Nat.mod_lt _ (by decide)
  have hscan : scanReady (preempt s.tasks s.current) ((s.current + 1) % maxTasks)
      (maxTasks - 1) = none := by
    rw [← h, nextReady]
    refine scanReady_congr hi fun j hj ↦ readyAt_preempt_ne ?_
    simp only [maxTasks] at hb hj ⊢
    omega
  have hcur : s.tick.current = s.current := by
    have hlast : ((s.current + 1) % maxTasks + (maxTasks - 1)) % maxTasks = s.current := by
      simp only [maxTasks] at hb ⊢
      omega
    have hall : scanReady (preempt s.tasks s.current) ((s.current + 1) % maxTasks) maxTasks = _ :=
      scanReady_succ (preempt s.tasks s.current) _ (maxTasks - 1) hi
    rw [hscan, hlast] at hall
    unfold tick
    dsimp only
    split
    · next i hi =>
      rw [hall] at hi
      have hif : readyAt (preempt s.tasks s.current) s.current = true ∧ s.current = i := by
        simpa using hi
      exact hif.2.symm
    · rfl
  rw [currentTaskId, currentTaskId, idAt_eq, idAt_eq, map_id_tick, hcur]

end Scheduler

end BraneKernel
