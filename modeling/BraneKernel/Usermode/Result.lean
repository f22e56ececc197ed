import BraneKernel.Syscall.Answers
import BraneKernel.Syscall.Identity
import BraneKernel.Usermode.Entry

namespace BraneKernel

def SyscallResult.tag : SyscallResult → U64
  | ok _ => 0
  | err _ => 1

theorem SyscallResult.tag_eq_toRaw_iff (result : SyscallResult) :
    result.tag = result.toRaw ↔ result = .ok 0 := by
  cases result with
  | ok value =>
    constructor
    · exact fun h ↦ congrArg ok (Eq.symm h)
    · exact fun h ↦ (SyscallResult.ok.inj h).symm
  | err error => cases error <;> decide

namespace Usermode

open Reg

def dispatched (k : Kernel) (cpuId : ℕ) (e : Processor) : Kernel.Outcome :=
  k.dispatch cpuId (readSyscallContext e.mem (e.regs rdi)) (readUserContext e.mem (e.regs rdi + 48))

/-- `dispatch` returns: the frame is rewritten in place and the result is passed as
a pair of words, its tag in `rax` and its payload in `rdx`. -/
structure DispatchReturns (k : Kernel) (cpuId : ℕ) (e e' : Processor) : Prop extends
    Returns e e' where
  frame : readUserContext e'.mem (e.regs rdi + 48) = (dispatched k cpuId e).frame
  tag : e'.regs rax = (dispatched k cpuId e).result.tag
  payload : e'.regs rdx = (dispatched k cpuId e).result.toRaw

variable {k : Kernel} {cpuId : ℕ} {c e e' : Processor}

theorem dispatched_entryCode (k : Kernel) (cpuId : ℕ) (c : Processor) :
    dispatched k cpuId (c.exec entryCode) = k.dispatch cpuId (contextOf c.regs) (frameOf c.regs) := by
  rw [dispatched, (exec_entryCode c).context, (exec_entryCode c).frame]

theorem exec_exitCode_rax (h : DispatchReturns k cpuId e e') :
    (e'.exec exitCode).regs rax = (dispatched k cpuId e).result.tag :=
  (congrArg UserContext.rax (exec_exitCode e').1).trans h.tag

/-- The user receives the raw result exactly when the answer is `Ok(0)`, that is for
an admitted call whose handler answers so. -/
theorem result_passed_iff (k : Kernel) (cpuId : ℕ) (c e' : Processor)
    (h : DispatchReturns k cpuId (c.syscall.exec entryCode) e')
    (hd : (dispatched k cpuId (c.syscall.exec entryCode)).delivered = none) :
    (e'.exec exitCode).regs rax =
        (dispatched k cpuId (c.syscall.exec entryCode)).result.toRaw ↔
      ∃ syscall spec caller capabilityUsed,
        k.Admitted cpuId (contextOf c.syscall.regs) syscall spec caller capabilityUsed ∧
        k.Answers caller (contextOf c.syscall.regs) 0 syscall := by
  rw [exec_exitCode_rax h, SyscallResult.tag_eq_toRaw_iff]
  rw [dispatched_entryCode] at hd ⊢
  exact Kernel.dispatch_ok hd

theorem exists_dispatchReturns
    (h : readUserContext e.mem (e.regs rdi + 48) = (dispatched k cpuId e).frame) :
    ∃ e', DispatchReturns k cpuId e e' := by
  refine ⟨(e.set rdx (dispatched k cpuId e).result.toRaw).set rax (dispatched k cpuId e).result.tag,
    ⟨?_, rfl⟩, ?_, Processor.set_self, ?_⟩
  · rw [Processor.set_of_ne (by decide), Processor.set_of_ne (by decide)]
  · rw [Processor.set_mem, Processor.set_mem, h]
  · rw [Processor.set_of_ne (by decide), Processor.set_self]

theorem exists_dispatchReturns_entryCode
    (h : (k.dispatch cpuId (contextOf c.regs) (frameOf c.regs)).frame = frameOf c.regs) :
    ∃ e', DispatchReturns k cpuId (c.exec entryCode) e' := by
  apply exists_dispatchReturns
  rw [dispatched_entryCode, h, (exec_entryCode c).frame]

def issuing (number : SyscallNumber) : Processor := writing.set rax number.toRaw

theorem result_passed_exit : ∃ e',
    DispatchReturns Kernel.twoUsers 0 ((issuing .exit).syscall.exec entryCode) e' ∧
    (e'.exec exitCode).regs rax =
      (dispatched Kernel.twoUsers 0 ((issuing .exit).syscall.exec entryCode)).result.toRaw := by
  obtain ⟨e', he'⟩ : ∃ e',
      DispatchReturns Kernel.twoUsers 0 ((issuing .exit).syscall.exec entryCode) e' :=
    exists_dispatchReturns_entryCode (by decide +kernel)
  refine ⟨e', he', (result_passed_iff _ _ _ _ he' ?_).mpr ?_⟩
  · rw [dispatched_entryCode]
    decide +kernel
  · exact ⟨.exit, _, ⟨1, 1, 0⟩, none, ⟨rfl, rfl, by decide, by decide +kernel, rfl⟩, rfl⟩

/-- A process that asks for its pid, which is 1, receives 0. -/
theorem pid_answered_zero : ∃ e',
    DispatchReturns Kernel.twoUsers 0 ((issuing .getPid).syscall.exec entryCode) e' ∧
    (dispatched Kernel.twoUsers 0 ((issuing .getPid).syscall.exec entryCode)).delivered = none ∧
    (dispatched Kernel.twoUsers 0 ((issuing .getPid).syscall.exec entryCode)).result.toRaw = 1 ∧
    (e'.exec exitCode).regs rax = 0 := by
  obtain ⟨e', he'⟩ : ∃ e',
      DispatchReturns Kernel.twoUsers 0 ((issuing .getPid).syscall.exec entryCode) e' :=
    exists_dispatchReturns_entryCode (by decide +kernel)
  refine ⟨e', he', ?_, ?_, (exec_exitCode_rax he').trans ?_⟩
  all_goals
    rw [dispatched_entryCode]
    decide +kernel

end Usermode

end BraneKernel
