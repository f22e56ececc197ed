import BraneKernel.Lib.Trace
import BraneKernel.Syscall.Updates

namespace BraneKernel

theorem ProcessUpdate.live {caller pid : Pid} {frame : UserContext} {f : Process → Process}
    (h : ProcessUpdate caller frame pid f) :
    (∀ p, (f p).live = p.live) ∨ pid = caller ∧ ∀ p, (f p).state = .terminated := by
  cases h with
  | terminate => exact .inr ⟨rfl, fun _ ↦ rfl⟩
  | _ => exact .inl fun _ ↦ rfl

theorem ProcessUpdate.terminated {caller pid : Pid} {frame : UserContext} {f : Process → Process}
    (h : ProcessUpdate caller frame pid f) {p : Process} (hp : p.state = .terminated) :
    (f p).state = .terminated := by
  cases h <;> first | exact hp | rfl

namespace ProcessTable

def Terminated (t : ProcessTable) (pid : Pid) : Prop :=
  ∃ p, t.get pid = some p ∧ p.state = .terminated

variable {t t' : ProcessTable} {caller pid q : Pid} {frame : UserContext} {taskId : TaskId}

theorem Terminated.updated (h : t.Terminated pid) (hu : Updated caller frame t t') :
    t'.Terminated pid := by
  refine hu.invariant (P := (·.Terminated pid)) h ?_
  rintro t q f hf ⟨p, hp, hs⟩
  have hpid := fun p ↦ (hf.keeps p).1
  by_cases hq : pid = q
  · subst hq
    exact ⟨f p, by rw [get_modify hpid, hp]; rfl, hf.terminated hs⟩
  · exact ⟨p, by rw [get_modify_ne hpid hq, hp], hs⟩

theorem getPidByTaskId_updated (h : t.getPidByTaskId taskId = some pid)
    (hu : Updated caller frame t t') : t'.getPidByTaskId taskId = some pid ∨ t'.Terminated pid := by
  refine hu.invariant (P := fun t ↦ t.getPidByTaskId taskId = some pid ∨ t.Terminated pid)
    (.inl h) ?_
  rintro t q f hf (hown | hterm)
  · have hpid := fun p ↦ (hf.keeps p).1
    rcases hf.live with hlive | ⟨rfl, hdead⟩
    · exact .inl ((getPidByTaskId_modify hpid (fun p ↦ (hf.keeps p).2) hlive taskId).trans hown)
    · by_cases hq : q = pid
      · subst hq
        obtain ⟨p, hp⟩ := get_of_getPidByTaskId hown
        exact .inr ⟨f p, get_modify_of hp hpid, hdead p⟩
      · refine .inl (getPidByTaskId_modify_ne (fun p ↦ ?_) hq hown)
        rw [Process.live, hdead p]
        rfl
  · exact .inr (hterm.updated (.step .refl hf))

end ProcessTable

namespace Kernel

/-- What happens around a task that keeps its CPU: syscalls, its own and those of other CPUs, timer
interrupts, and register switches. The boot CPU also switches by the legacy scheduler. -/
inductive Activity
  | syscall (cpu : ℕ) (ctx : SyscallContext) (frame : UserContext)
  | timer (cpu : ℕ) (locked : Bool)
  | switch (cpu : ℕ)
  | bootSwitch

def act (k : Kernel) : Activity → Option Kernel
  | .syscall cpu ctx frame => some (k.dispatch cpu ctx frame).kernel
  | .timer cpu locked =>
    (k.scheduling.timerTickForCpu cpu locked).map fun r ↦ { k with scheduling := r.1 }
  | .switch cpu =>
    (k.scheduling.prepareContextSwitchForCpu cpu).map fun r ↦ { k with scheduling := r.1 }
  | .bootSwitch =>
    some { k with scheduling :=
      { k.scheduling with legacy := k.scheduling.legacy.prepareSwitch.1 } }

def Acts (k : Kernel) (a : Activity) (k' : Kernel) : Prop := k.act a = some k'

def KeepsCursor (k : Kernel) (cpuId : ℕ) : Prop :=
  (k.scheduling.perCpu cpuId).initialized = true ∨ k.scheduling.legacy.nextReady = none

/-- No register switch of this CPU. The legacy cursor is moved, by a yield or by the timer of the
boot CPU, only if this CPU has its own scheduler slot or no other task is ready. The timer of a CPU
with its own slot finds the task entered in the run queues. -/
def KeepsCaller (cpuId : ℕ) (k : Kernel) : Activity → Prop
  | .syscall _ ctx _ => SyscallNumber.fromRaw ctx.number = some .yield → k.KeepsCursor cpuId
  | .timer cpu locked =>
    (cpu = 0 → locked = false → k.KeepsCursor cpuId) ∧
      (cpu = cpuId → (k.scheduling.perCpu cpuId).initialized = true →
        (k.scheduling.multicore.runtime cpuId).current ≠ none)
  | .switch cpu => cpu ≠ cpuId
  | .bootSwitch => cpuId ≠ 0

variable {k k' : Kernel} {cpuId cpu : ℕ} {ctx : SyscallContext} {frame : UserContext}
  {who : CallerContext} {a : Activity}

theorem executingTask_eq
    (hinit : (k'.scheduling.perCpu cpuId).initialized = (k.scheduling.perCpu cpuId).initialized)
    (hslot : (k.scheduling.perCpu cpuId).initialized = true →
      (k'.scheduling.perCpu cpuId).currentTask = (k.scheduling.perCpu cpuId).currentTask)
    (hlegacy : (k.scheduling.perCpu cpuId).initialized = true ∨ cpuId ≠ 0 ∨
      k'.scheduling.legacy.currentTaskId = k.scheduling.legacy.currentTaskId) :
    k'.executingTask cpuId = k.executingTask cpuId := by
  simp only [executingTask, Scheduling.cpuSchedulerSnapshot]
  by_cases hc : cpuId < maxCpus
  · simp only [hc, if_true, hinit]
    split_ifs with h hboot
    · exact hslot h
    · exact (hlegacy.resolve_left h).resolve_left (not_not.mpr hboot)
    · rfl
  · simp only [hc, if_false]

theorem KeepsCursor.tick {s : Scheduling} (h : k.KeepsCursor cpuId)
    (hs : s.legacy = k.scheduling.legacy.tick) :
    (k.scheduling.perCpu cpuId).initialized = true ∨ cpuId ≠ 0 ∨
      s.legacy.currentTaskId = k.scheduling.legacy.currentTaskId := by
  rcases h with h | h
  · exact .inl h
  · exact .inr (.inr (by rw [hs, Scheduler.currentTaskId_tick h]))

theorem executingTask_act (hok : KeepsCaller cpuId k a) (h : k.Acts a k') :
    k'.executingTask cpuId = k.executingTask cpuId := by
  cases a with
  | syscall cpu ctx frame =>
    cases h
    rcases dispatch_scheduling k cpu ctx frame with hs | ⟨hy, hs⟩
    · simp only [executingTask, hs]
    · refine executingTask_eq (by rw [hs]) (fun _ ↦ by rw [hs]) ((hok hy).tick ?_)
      rw [hs]
  | timer cpu locked =>
    obtain ⟨⟨s, r⟩, htick, rfl⟩ := Option.map_eq_some_iff.mp h
    obtain ⟨hlegacy, hothers, hinit, hbusy⟩ := Scheduling.timerTick_slot htick
    have hcursor : (k.scheduling.perCpu cpuId).initialized = true ∨ cpuId ≠ 0 ∨
        s.legacy.currentTaskId = k.scheduling.legacy.currentTaskId := by
      rcases hlegacy with hs | ⟨hboot, hfree, hs⟩
      · exact .inr (.inr (by rw [hs]))
      · exact (hok.1 hboot hfree).tick hs
    by_cases hcpu : cpuId = cpu
    · subst hcpu
      exact executingTask_eq hinit (fun hown ↦ hbusy (hok.2 rfl hown)) hcursor
    · exact executingTask_eq (by rw [hothers _ hcpu]) (fun _ ↦ by rw [hothers _ hcpu]) hcursor
  | switch cpu =>
    obtain ⟨⟨s, r⟩, hswitch, rfl⟩ := Option.map_eq_some_iff.mp h
    have hconf := Scheduling.confined_prepare hswitch
    have hother := hconf.others _ (Ne.symm hok)
    exact executingTask_eq (by rw [hother]) (fun _ ↦ by rw [hother])
      (.inr (.inr (by rw [hconf.legacy])))
  | bootSwitch =>
    cases h
    exact executingTask_eq rfl (fun _ ↦ rfl) (.inr (.inl hok))

theorem act_processes (h : k.Acts a k') :
    k'.processes = k.processes ∨ ∃ pid frame, Updated pid frame k.processes k'.processes := by
  cases a with
  | syscall cpu ctx frame =>
    cases h
    cases hcap : k.captureCallerContextForCpu cpu with
    | none => exact .inl (dispatch_anonymous hcap)
    | some who => exact .inr ⟨who.pid, frame, dispatch_updated hcap⟩
  | timer | switch =>
    obtain ⟨r, -, rfl⟩ := Option.map_eq_some_iff.mp h
    exact .inl rfl
  | bootSwitch =>
    cases h
    exact .inl rfl

theorem capture_act (hok : KeepsCaller cpuId k a) (hact : k.Acts a k')
    (h : k.captureCallerContextForCpu cpuId = some who) :
    k'.captureCallerContextForCpu cpuId = some who ∨ k'.processes.Terminated who.pid := by
  obtain ⟨taskId, ht, hcap⟩ := Option.bind_eq_some_iff.mp h
  obtain ⟨pid, hp, rfl⟩ := Option.map_eq_some_iff.mp hcap
  have hpid : k'.processes.getPidByTaskId taskId = some pid ∨ k'.processes.Terminated pid := by
    rcases act_processes hact with he | ⟨_, _, hu⟩
    · exact .inl (he ▸ hp)
    · exact ProcessTable.getPidByTaskId_updated hp hu
  refine hpid.imp_left fun hp' ↦ ?_
  rw [captureCallerContextForCpu, executingTask_act hok hact, ht, Option.bind_some, hp']
  rfl

theorem terminated_act {pid : Pid} (h : k.processes.Terminated pid) (hact : k.Acts a k') :
    k'.processes.Terminated pid := by
  rcases act_processes hact with he | ⟨_, _, hu⟩
  · exact he ▸ h
  · exact h.updated hu

/-- Whatever the CPUs do meanwhile, a task is resolved as the same caller until a register switch of
its CPU, for as long as its process is not terminated and neither a yield nor a timer interrupt moves
the legacy cursor it is resolved by. -/
theorem caller_stable (k k' : Kernel) (cpuId : ℕ) (who : CallerContext) (activities : List Activity)
    (hstart : k.captureCallerContextForCpu cpuId = some who)
    (hrun : Trace.Run (Trace.Guarded (KeepsCaller cpuId) Acts) k activities k')
    (hlive : ¬ k'.processes.Terminated who.pid) :
    k'.captureCallerContextForCpu cpuId = some who := by
  have h := hrun.invariant
    (I := fun k ↦ k.captureCallerContextForCpu cpuId = some who ∨ k.processes.Terminated who.pid)
    (.inl hstart) ?_
  · exact h.resolve_right hlive
  · rintro k a k' (hcap | hdead) ⟨hok, hact⟩
    · exact capture_act hok hact hcap
    · exact .inr (terminated_act hdead hact)

/-- Two boot tasks, each with a process of its own, before any CPU has a scheduler
slot. The first task is running. -/
def twoUsers : Kernel where
  processes := (((ProcessTable.new.create [] none 1).bind fun r ↦ r.1.create [] none 2).map
    (·.1)).getD .new
  signals := .new
  capabilities := .new
  scheduling := { Scheduling.new with
    legacy := (((Scheduler.new.addTask [] .normal).bind fun r ↦ r.1.addTask [] .normal).map
      (·.1.tick.tick)).getD .new }
  audit := .new

/-- The same two tasks once the first was entered on its CPU by the run queues. -/
def switchedUsers : Kernel :=
  { twoUsers with
    scheduling :=
      { twoUsers.scheduling with
        multicore := MultiCoreScheduler.new.enter 0 1 0
        perCpu := Function.update twoUsers.scheduling.perCpu 0
          { CpuSchedulerSnapshot.new with initialized := true, currentTask := some 1 } } }

theorem caller_stable_yield : ∃ k',
    Trace.Run (Trace.Guarded (KeepsCaller 0) Acts) switchedUsers
      [.timer 0 false, .syscall 0 ⟨1, 0, 0, 0, 0, 0⟩ .empty, .switch 1] k' ∧
    k'.captureCallerContextForCpu 0 = some ⟨1, 1, 0⟩ := by
  have h₁ : Trace.Run (Trace.Guarded (KeepsCaller 0) Acts) switchedUsers [.timer 0 false] _ :=
    .snoc .nil (And.intro ⟨fun _ _ ↦ .inl rfl, fun _ _ ↦ by decide⟩ rfl)
  have h₂ := h₁.snoc (And.intro (show KeepsCaller 0 _ (.syscall 0 ⟨1, 0, 0, 0, 0, 0⟩ .empty) from
    fun _ ↦ .inl rfl) rfl)
  have h₃ := h₂.snoc (And.intro (show KeepsCaller 0 _ (.switch 1) from Nat.one_ne_zero) rfl)
  obtain ⟨k', hrun, hstate⟩ : ∃ k', Trace.Run (Trace.Guarded (KeepsCaller 0) Acts) switchedUsers
      [.timer 0 false, .syscall 0 ⟨1, 0, 0, 0, 0, 0⟩ .empty, .switch 1] k' ∧
      (k'.processes.get 1).map (·.state) = some .creating := ⟨_, h₃, by decide +kernel⟩
  refine ⟨k', hrun, caller_stable _ _ 0 ⟨1, 1, 0⟩ _ (by decide +kernel) hrun ?_⟩
  rintro ⟨p, hp, hs⟩
  rw [hp, Option.map_some, hs] at hstate
  cases hstate

/-- A yield makes the first user the second one, although both processes are live. So does a timer
interrupt. -/
theorem yield_changes_caller :
    twoUsers.captureCallerContextForCpu 0 = some ⟨1, 1, 0⟩ ∧
    (twoUsers.dispatch 0 ⟨1, 0, 0, 0, 0, 0⟩ .empty).kernel.captureCallerContextForCpu 0 =
      some ⟨2, 2, 0⟩ ∧
    ((twoUsers.dispatch 0 ⟨1, 0, 0, 0, 0, 0⟩ .empty).kernel.processes.get 1).map (·.state) =
      some .creating ∧
    (twoUsers.act (.timer 0 false)).map (·.captureCallerContextForCpu 0) =
      some (some ⟨2, 2, 0⟩) := by
  decide +kernel

end Kernel

end BraneKernel
