import BraneKernel.Syscall.Dispatch

namespace BraneKernel.Kernel

/-- What the handler of a syscall can do to the kernel and to the user frame. -/
inductive HandlerEffect (k : Kernel) (caller : CallerContext) (ctx : SyscallContext)
    (frame : UserContext) : SyscallNumber → Kernel × UserContext × SyscallResult → Prop
  | keep {syscall : SyscallNumber} {result : SyscallResult} :
      HandlerEffect k caller ctx frame syscall (k, frame, result)
  | yield : HandlerEffect k caller ctx frame .yield (k.handleYield, frame, .ok 0)
  | kill {sig : Signal} : Signal.tryFrom (ctx.arg2.setWidth 8) = .ok sig →
      HandlerEffect k caller ctx frame .kill
        ({ k with processes := k.processes.modify ctx.arg1 fun p ↦
            { p with signalPending := p.signalPending ||| sig.bit } }, frame, .ok 0)
  | sigAction {sig : Signal} {slot : ℕ} : Signal.tryFrom (ctx.arg1.setWidth 8) = .ok sig →
      sig ≠ .kill → sig ≠ .stop → k.processes.slotOf caller.pid = some slot →
      HandlerEffect k caller ctx frame .sigAction
        ({ k with signals := ⟨Function.update k.signals.tables slot
            ⟨Function.update (k.signals.tables slot).actions sig.number (actionFor ctx.arg2)⟩⟩ },
          frame, .ok 0)
  | sigReturn {proc : Process} {saved : UserContext} : k.processes.get caller.pid = some proc →
      proc.savedContext = some saved →
      HandlerEffect k caller ctx frame .sigReturn
        ({ k with processes := k.processes.modify caller.pid fun p ↦ { p with savedContext := none } },
          saved, .ok saved.rax)
  | sigProcMask {proc : Process} {mask : U64} : k.processes.get caller.pid = some proc →
      maskFor ctx.arg1 ctx.arg2 proc.signalBlocked = some mask →
      HandlerEffect k caller ctx frame .sigProcMask
        ({ k with processes := k.processes.modify caller.pid fun p ↦
            { p with signalBlocked := mask &&& ~~~cannotBlock } }, frame, .ok proc.signalBlocked)

section

variable (k : Kernel) (caller : CallerContext) (ctx : SyscallContext) (frame : UserContext)

theorem handleKill_effect : HandlerEffect k caller ctx frame .kill
      ((k.handleKill ctx).1, frame, (k.handleKill ctx).2) := by
  unfold handleKill
  split
  · next sig hsig =>
    rcases SignalManager.send_cases k.processes ctx.arg1 sig with ⟨e, he⟩ | ⟨-, he⟩
    · simp only [he]
      exact .keep
    · simp only [he]
      exact .kill hsig
  · exact .keep

theorem handleSigaction_effect : HandlerEffect k caller ctx frame .sigAction
      ((k.handleSigaction ctx caller).1, frame, (k.handleSigaction ctx caller).2) := by
  unfold handleSigaction
  split
  · next sig hsig =>
    rcases k.signals.setAction_cases k.processes caller.pid sig (actionFor ctx.arg2) with
      ⟨e, he⟩ | ⟨slot, hkill, hstop, hslot, he⟩
    · simp only [he]
      exact .keep
    · simp only [he]
      exact .sigAction hsig hkill hstop hslot
  · exact .keep

theorem handleSigreturn_effect :
    HandlerEffect k caller ctx frame .sigReturn (k.handleSigreturn caller frame) := by
  unfold handleSigreturn
  cases hget : k.processes.get caller.pid with
  | none => exact .keep
  | some proc =>
    dsimp only
    cases hsaved : proc.savedContext with
    | none => exact .keep
    | some saved => exact .sigReturn hget hsaved

theorem handleSigprocmask_effect : HandlerEffect k caller ctx frame .sigProcMask
      ((k.handleSigprocmask ctx caller).1, frame, (k.handleSigprocmask ctx caller).2) := by
  unfold handleSigprocmask
  cases hget : k.processes.get caller.pid with
  | none => exact .keep
  | some proc =>
    dsimp only
    cases hmask : maskFor ctx.arg1 ctx.arg2 proc.signalBlocked with
    | none => exact .keep
    | some mask => exact .sigProcMask hget hmask

theorem runHandler_effect (syscall : SyscallNumber) :
    HandlerEffect k caller ctx frame syscall (k.runHandler caller ctx frame syscall) := by
  cases syscall with
  | yield => exact .yield
  | kill => exact handleKill_effect k caller ctx frame
  | sigAction => exact handleSigaction_effect k caller ctx frame
  | sigReturn => exact handleSigreturn_effect k caller ctx frame
  | sigProcMask => exact handleSigprocmask_effect k caller ctx frame
  | _ => exact .keep

theorem runHandler_audit (syscall : SyscallNumber) :
    (k.runHandler caller ctx frame syscall).1.audit = k.audit := by
  have h := runHandler_effect k caller ctx frame syscall
  generalize k.runHandler caller ctx frame syscall = r at h ⊢
  cases h <;> rfl

end

end BraneKernel.Kernel
