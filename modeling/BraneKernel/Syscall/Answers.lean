import BraneKernel.Syscall.Mediation
import Mathlib.Data.BitVec

namespace BraneKernel.Kernel

variable {k : Kernel} {cpuId : ℕ} {ctx : SyscallContext} {frame : UserContext}
  {caller : CallerContext}

def Answers (k : Kernel) (caller : CallerContext) (ctx : SyscallContext) (value : U64) :
    SyscallNumber → Prop
  | .exit | .yield | .send => value = 0
  | .getPid => value = caller.pid
  | .write => ctx.arg1 = 1 ∧ value = ctx.arg3
  | .getTime => value = k.scheduling.legacy.totalTicks
  | .getSystemInfo => value = BitVec.ofNat 64 k.scheduling.legacy.activeCount
  | .kill => value = 0 ∧ (∃ sig, Signal.tryFrom (ctx.arg2.setWidth 8) = .ok sig) ∧
      ∃ p, k.processes.get ctx.arg1 = some p ∧ p.state ≠ .terminated
  | .sigAction => value = 0 ∧
      ∃ sig, Signal.tryFrom (ctx.arg1.setWidth 8) = .ok sig ∧ sig ≠ .kill ∧ sig ≠ .stop
  | .sigReturn => ∃ p, k.processes.get caller.pid = some p ∧ p.savedContext.map (·.rax) = some value
  | .sigProcMask => (ctx.arg1 = 1 ∨ ctx.arg1 = 2 ∨ ctx.arg1 = 3) ∧
      ∃ p, k.processes.get caller.pid = some p ∧ p.signalBlocked = value
  | _ => False

variable {value : U64}

theorem handleKill_ok : (k.handleKill ctx).2 = .ok value ↔ k.Answers caller ctx value .kill := by
  unfold handleKill SignalManager.send Answers
  cases Signal.tryFrom (ctx.arg2.setWidth 8) with
  | error e => simp
  | ok sig =>
    cases k.processes.get ctx.arg1 with
    | none => simp
    | some p => by_cases hterm : p.state = .terminated <;> simp [hterm, @eq_comm _ value 0#64]

theorem handleSigaction_ok (hlive : ∃ p, k.processes.get caller.pid = some p) :
    (k.handleSigaction ctx caller).2 = .ok value ↔ k.Answers caller ctx value .sigAction := by
  obtain ⟨p, hp⟩ := hlive
  obtain ⟨slot, hslot⟩ := Option.isSome_iff_exists.mp (ProcessTable.slotOf_isSome hp)
  unfold handleSigaction SignalManager.setAction Answers
  cases Signal.tryFrom (ctx.arg1.setWidth 8) with
  | error e => simp
  | ok sig =>
    by_cases hkeep : sig = .kill ∨ sig = .stop
    · rcases hkeep with rfl | rfl <;> simp
    · simp_all [sig.number_lt, @eq_comm _ value 0#64]

theorem handleSigreturn_ok :
    (k.handleSigreturn caller frame).2.2 = .ok value ↔ k.Answers caller ctx value .sigReturn := by
  unfold handleSigreturn Answers
  cases hget : k.processes.get caller.pid with
  | none => simp
  | some proc => cases hsaved : proc.savedContext <;> simp [hsaved]

theorem handleSigprocmask_ok :
    (k.handleSigprocmask ctx caller).2 = .ok value ↔ k.Answers caller ctx value .sigProcMask := by
  unfold handleSigprocmask Answers
  cases hget : k.processes.get caller.pid with
  | none => simp
  | some proc =>
    unfold maskFor
    split_ifs <;> simp_all

theorem runHandler_ok (hlive : ∃ p, k.processes.get caller.pid = some p)
    (syscall : SyscallNumber) :
    (k.runHandler caller ctx frame syscall).2.2 = .ok value ↔ k.Answers caller ctx value syscall := by
  have hvalue (v : U64) : SyscallResult.ok v = .ok value ↔ value = v := by
    rw [SyscallResult.ok.injEq, eq_comm]
  cases syscall with
  | kill => exact handleKill_ok
  | sigAction => exact handleSigaction_ok hlive
  | sigReturn => exact handleSigreturn_ok
  | sigProcMask => exact handleSigprocmask_ok
  | write =>
    unfold runHandler handleWrite Answers
    split_ifs with h <;> simp_all
  | getPid | exit | yield | send | getTime | getSystemInfo => exact hvalue _
  | _ => simp [runHandler, Answers]

variable {capabilityUsed : Option CapabilityId}

theorem serve_result {syscall : SyscallNumber} {spec : SyscallSpec}
    (h : (k.serve cpuId caller ctx frame syscall spec capabilityUsed).delivered = none) :
    (k.serve cpuId caller ctx frame syscall spec capabilityUsed).result =
      (k.runHandler caller ctx frame syscall).2.2 := by
  unfold serve at h ⊢
  dsimp only at h ⊢
  split_ifs at h ⊢
  · unfold deliverSignal at h ⊢
    split
    · next hd =>
      rw [hd] at h
      cases h
    · rfl
  · rfl

theorem Admitted.runHandler_ok {syscall : SyscallNumber} {spec : SyscallSpec}
    (h : k.Admitted cpuId ctx syscall spec caller capabilityUsed) :
    ((k.countEntry (some caller)).runHandler caller ctx frame syscall).2.2 = .ok value ↔
      k.Answers caller ctx value syscall := by
  rw [Kernel.runHandler_ok h.exists_get]
  cases syscall with
  | kill =>
    exact and_congr_right fun _ ↦ and_congr_right fun _ ↦
      exists_get_countEntry (fun _ _ ↦ Iff.rfl) _
  | sigReturn => exact exists_get_countEntry (fun _ _ ↦ Iff.rfl) _
  | sigProcMask => exact and_congr_right fun _ ↦ exists_get_countEntry (fun _ _ ↦ Iff.rfl) _
  | _ => exact Iff.rfl

theorem dispatch_ok (h : (k.dispatch cpuId ctx frame).delivered = none) :
    (k.dispatch cpuId ctx frame).result = .ok value ↔
      ∃ syscall spec caller capabilityUsed,
        k.Admitted cpuId ctx syscall spec caller capabilityUsed ∧
          k.Answers caller ctx value syscall := by
  rcases dispatch_cases k cpuId ctx frame with ⟨_, _, _, he, hnone⟩ |
    ⟨syscall, spec, caller, capabilityUsed, hadm, he⟩
  · rw [he]
    refine ⟨nofun, ?_⟩
    rintro ⟨syscall, spec, caller, capabilityUsed, hadm, -⟩
    exact absurd hadm (hnone _ _ _ _)
  · rw [he] at h ⊢
    rw [serve_result h, hadm.runHandler_ok]
    refine ⟨fun hvalue ↦ ⟨syscall, spec, caller, capabilityUsed, hadm, hvalue⟩, ?_⟩
    rintro ⟨syscall', _, caller', _, hadm', hvalue⟩
    obtain rfl := Option.some.inj (hadm.decodes.symm.trans hadm'.decodes)
    obtain rfl := Option.some.inj (hadm.identified.symm.trans hadm'.identified)
    exact hvalue

end BraneKernel.Kernel
