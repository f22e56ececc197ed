import BraneKernel.Lib.Trace
import BraneKernel.Signal.Delivery
import BraneKernel.Syscall.Updates

namespace BraneKernel

namespace Kernel

/-- What can happen between two dispatches: the process lifecycle, signals sent
and delivered by the kernel, and whatever the rest of the kernel does to the
scheduler and to the capability table. -/
inductive Event
  | syscall (cpuId : ℕ) (ctx : SyscallContext) (frame : UserContext)
  | create (name : List (BitVec 8)) (parent : Option Pid) (schedulerTask : TaskId)
  | start (pid : Pid)
  | terminate (pid : Pid) (exitCode : ℤ)
  | send (pid : Pid) (sig : Signal)
  | deliver (pid : Pid)
  | environment (scheduling : Scheduling) (capabilities : Security.CapabilityManager)

def next (k : Kernel) : Event → Option Kernel
  | .syscall cpuId ctx frame => some (k.dispatch cpuId ctx frame).kernel
  | .create name parent schedulerTask =>
    (k.processes.create name parent schedulerTask).map fun r ↦ { k with processes := r.1 }
  | .start pid => some { k with processes := (k.processes.start pid).1 }
  | .terminate pid exitCode => some { k with processes := (k.processes.terminate pid exitCode).1 }
  | .send pid sig => some { k with processes := (SignalManager.send k.processes pid sig).1 }
  | .deliver pid => some { k with processes := (k.signals.deliverPending k.processes pid).1 }
  | .environment scheduling capabilities =>
    some { k with scheduling := scheduling, capabilities := capabilities }

def Step (k : Kernel) (e : Event) (k' : Kernel) : Prop := k.next e = some k'

def Fresh (k : Kernel) : Prop := k.processes = .new ∧ k.signals = .new

variable {k k' : Kernel}

theorem Fresh.no_process (h : k.Fresh) (p : Process) : some p ∉ k.processes.processes := by
  rw [h.1]
  intro hp
  cases List.eq_of_mem_replicate hp

theorem table_step {P : ProcessTable → Prop} {e : Event} (hstep : k.Step e k') (hk : P k.processes)
    (hupd : ∀ cpuId ctx frame caller t pid f, e = .syscall cpuId ctx frame →
      ProcessUpdate caller frame pid f → P t → P (t.modify pid f))
    (hpend : ∀ t pid (pending : Process → U64), P t →
      P (t.modify pid fun p ↦ { p with signalPending := pending p }))
    (hstate : ∀ t pid state (code : Process → ℤ), P t →
      P (t.modify pid fun p ↦ { p with state := state, exitCode := code p }))
    (hnew : ∀ t t' name parent task, Slots.insert (ProcessTable.newProcess t name parent task)
      t.processes = some t'.processes → checkedSucc t.nextPid = some t'.nextPid → P t → P t') :
    P k'.processes := by
  unfold Step next at hstep
  cases e with
  | syscall cpuId ctx frame =>
    cases hstep
    cases hcap : k.captureCallerContextForCpu cpuId with
    | none => rwa [dispatch_anonymous hcap]
    | some who =>
      exact (dispatch_updated hcap).invariant hk fun t pid f ↦ hupd cpuId ctx frame _ t pid f rfl
  | create name parent task =>
    obtain ⟨⟨t, r⟩, hc, rfl⟩ := Option.map_eq_some_iff.mp hstep
    rcases ProcessTable.create_cases hc with rfl | ⟨hins, hnext⟩
    · exact hk
    · exact hnew _ _ _ _ _ hins hnext hk
  | start pid =>
    cases hstep
    exact hstate _ pid .ready (·.exitCode) hk
  | terminate pid code =>
    cases hstep
    exact hstate _ pid .terminated (fun _ ↦ code) hk
  | send pid sig =>
    cases hstep
    rcases SignalManager.send_cases k.processes pid sig with ⟨e, he⟩ | ⟨-, he⟩
    · simpa only [he] using hk
    · simp only [he]
      exact hpend _ pid (fun p ↦ p.signalPending ||| sig.bit) hk
  | deliver pid =>
    cases hstep
    exact k.signals.deliverPending_invariant k.processes pid hk
      (fun t sig ↦ hpend t pid fun p ↦ p.signalPending &&& ~~~sig.bit)
      fun t code ↦ hstate t pid .terminated fun _ ↦ code
  | environment scheduling capabilities =>
    cases hstep
    exact hk

theorem forall_process_step {P : Process → Prop} {e : Event} (hstep : k.Step e k')
    (hk : ∀ p, some p ∈ k.processes.processes → P p)
    (hupd : ∀ cpuId ctx frame caller pid f p, e = .syscall cpuId ctx frame →
      ProcessUpdate caller frame pid f → P p → P (f p))
    (hpend : ∀ p pending, P p → P { p with signalPending := pending })
    (hstate : ∀ p state code, P p → P { p with state := state, exitCode := code })
    (hnew : ∀ t name parent task, P (ProcessTable.newProcess t name parent task)) :
    ∀ p, some p ∈ k'.processes.processes → P p := by
  refine table_step (P := fun t ↦ ∀ p, some p ∈ t.processes → P p) hstep hk ?_ ?_ ?_ ?_
  · exact fun _ _ _ _ _ _ _ he hu ht ↦
      ProcessTable.forall_modify ht fun p _ ↦ hupd _ _ _ _ _ _ p he hu
  · exact fun _ _ _ ht ↦ ProcessTable.forall_modify ht fun p _ ↦ hpend p _
  · exact fun _ _ _ _ ht ↦ ProcessTable.forall_modify ht fun p _ ↦ hstate p _ _
  · intro t t' name parent task hins _ ht p hp
    rcases (Slots.mem_insert hins).mp hp with hp | rfl
    · exact ht p hp
    · exact hnew t name parent task

theorem forall_action_step {P : ℕ → SignalAction → Prop} {e : Event} (hstep : k.Step e k')
    (hk : ∀ slot n, P n ((k.signals.tables slot).actions n))
    (hset : ∀ cpuId ctx frame sig, e = .syscall cpuId ctx frame →
      SyscallNumber.fromRaw ctx.number = some .sigAction →
      (k.captureCallerContextForCpu cpuId).isSome = true →
      Signal.tryFrom (ctx.arg1.setWidth 8) = .ok sig → sig ≠ .kill → sig ≠ .stop →
      P sig.number (actionFor ctx.arg2)) :
    ∀ slot n, P n ((k'.signals.tables slot).actions n) := by
  unfold Step next at hstep
  cases e with
  | syscall cpuId ctx frame =>
    cases hstep
    rcases dispatch_cases k cpuId ctx frame with ⟨_, _, _, he, -⟩ | ⟨syscall, spec, who, _, hadm, he⟩
    · rw [← (countEntry_frame k (k.captureCallerContextForCpu cpuId)).1] at hk
      rwa [he]
    · have hdec := hadm.decodes
      rw [← (countEntry_frame k (some who)).1] at hk
      rw [he, (serve_frame _ _ _ _ _ _ _ _).1]
      have heff := runHandler_effect (k.countEntry (some who)) who ctx frame syscall
      generalize (k.countEntry (some who)).runHandler who ctx frame syscall = r at heff ⊢
      cases heff with
      | @sigAction sig slot hsig hkill hstop _ =>
        intro slot' n
        by_cases hslot : slot' = slot
        · subst hslot
          by_cases hnum : n = sig.number
          · subst hnum
            have hcaller : (k.captureCallerContextForCpu cpuId).isSome = true := by
              rw [hadm.identified]
              rfl
            simpa using hset cpuId ctx frame sig rfl hdec hcaller hsig hkill hstop
          · simpa [hnum] using hk slot' n
        · simpa [hslot] using hk slot' n
      | _ => exact hk
  | create name parent task =>
    obtain ⟨⟨t, r⟩, -, rfl⟩ := Option.map_eq_some_iff.mp hstep
    exact hk
  | _ =>
    cases hstep
    exact hk

end Kernel

end BraneKernel
