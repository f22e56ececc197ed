import BraneKernel.Syscall.Identity

namespace BraneKernel

namespace Signal

def Defined (n : U64) : Prop := ∃ sig : Signal, sig.number = n.toNat

theorem tryFrom_number {val : BitVec 8} {sig : Signal} (h : tryFrom val = .ok sig) :
    sig.number = val.toNat := by
  unfold tryFrom at h
  split at h <;> cases h <;> exact Eq.symm ‹_›

end Signal

namespace SyscallContext

def signalArgument (ctx : SyscallContext) : SyscallNumber → Option U64
  | .kill => some ctx.arg2
  | .sigAction => some ctx.arg1
  | _ => none

/-- What the handlers refuse: the low byte is no signal number, or it is one whose action cannot
be set. -/
def SignalRefused (syscall : SyscallNumber) (n : U64) : Prop :=
  ∀ sig, Signal.tryFrom (n.setWidth 8) = .ok sig →
    syscall = .sigAction ∧ (sig = .kill ∨ sig = .stop)

theorem signalRefused_of_not_defined {syscall : SyscallNumber} {n : U64} (hlow : n.toNat < 256)
    (h : ¬ Signal.Defined n) : SignalRefused syscall n := by
  intro sig hsig
  have hnum := Signal.tryFrom_number hsig
  rw [BitVec.toNat_setWidth, Nat.mod_eq_of_lt hlow] at hnum
  exact absurd ⟨sig, hnum⟩ h

end SyscallContext

namespace Kernel

variable {k : Kernel} {cpuId : ℕ} {ctx : SyscallContext} {frame : UserContext}
  {who : CallerContext} {syscall : SyscallNumber} {n : U64} {pid : Pid}

theorem runHandler_refused (harg : ctx.signalArgument syscall = some n)
    (h : SyscallContext.SignalRefused syscall n) :
    k.runHandler who ctx frame syscall = (k, frame, .err .invalidArgument) := by
  cases syscall with
  | kill =>
    cases harg
    simp only [runHandler, handleKill]
    cases hsig : Signal.tryFrom (ctx.arg2.setWidth 8) with
    | error e => rfl
    | ok sig => cases (h sig hsig).1
  | sigAction =>
    cases harg
    simp only [runHandler, handleSigaction]
    cases hsig : Signal.tryFrom (ctx.arg1.setWidth 8) with
    | error e => rfl
    | ok sig => simp only [SignalManager.setAction, if_pos (h sig hsig).2]
  | _ => cases harg

theorem refused_of_runHandler (harg : ctx.signalArgument syscall = some n)
    (hlive : ∃ p, k.processes.get who.pid = some p)
    (h : (k.runHandler who ctx frame syscall).2.2 = .err .invalidArgument) :
    SyscallContext.SignalRefused syscall n := by
  intro sig hsig
  cases syscall with
  | kill =>
    cases harg
    simp only [runHandler, handleKill, hsig] at h
    split at h <;> cases h
  | sigAction =>
    cases harg
    refine ⟨rfl, ?_⟩
    by_contra hother
    obtain ⟨p, hp⟩ := hlive
    obtain ⟨slot, hslot⟩ := Option.isSome_iff_exists.mp (ProcessTable.slotOf_isSome hp)
    simp [runHandler, handleSigaction, hsig, SignalManager.setAction, hother, hslot,
      sig.number_lt] at h
  | _ => cases harg

theorem deliverSignal_other {ran : SyscallNumber × SyscallResult} (h : pid ≠ who.pid) :
    (k.deliverSignal who frame ran).kernel.processes.get pid = k.processes.get pid := by
  have hd := k.signals.deliverPending_invariant k.processes who.pid
    (P := fun t ↦ t.get pid = k.processes.get pid) rfl
    (fun t sig ht ↦ ProcessTable.get_modify_other ht (fun _ ↦ rfl) h)
    (fun t code ht ↦ ProcessTable.get_modify_other ht (fun _ ↦ rfl) h)
  unfold deliverSignal
  split
  · next he =>
    rw [he] at hd
    exact ProcessTable.get_modify_other hd (fun _ ↦ rfl) h
  · next he =>
    rw [he] at hd
    exact hd

theorem countEntry_other (h : pid ≠ who.pid) :
    (k.countEntry (some who)).processes.get pid = k.processes.get pid :=
  ProcessTable.get_modify_other rfl (fun _ ↦ rfl) h

/-- An admitted signal call answers `InvalidArgument` exactly when the low byte of its argument is
refused, which it is if the argument is below 256 and no signal number. A call that is refused there
or not admitted registers no action, and of the processes only the caller's record changes, by the
count of syscalls and by signals that were already waiting for it. -/
theorem undefined_signal_refused (k : Kernel) (cpuId : ℕ) (ctx : SyscallContext)
    (frame : UserContext) (hdec : SyscallNumber.fromRaw ctx.number = some syscall)
    (harg : ctx.signalArgument syscall = some n) :
    (n.toNat < 256 → ¬ Signal.Defined n → SyscallContext.SignalRefused syscall n) ∧
    (∀ spec who capabilityUsed, k.Admitted cpuId ctx syscall spec who capabilityUsed →
      ((k.dispatch cpuId ctx frame).ran = some (syscall, .err .invalidArgument) ↔
        SyscallContext.SignalRefused syscall n)) ∧
    ((∀ spec who capabilityUsed, k.Admitted cpuId ctx syscall spec who capabilityUsed →
        SyscallContext.SignalRefused syscall n) →
      (k.dispatch cpuId ctx frame).kernel.signals = k.signals ∧
      (∀ pid, (∀ who, k.captureCallerContextForCpu cpuId = some who → pid ≠ who.pid) →
        (k.dispatch cpuId ctx frame).kernel.processes.get pid = k.processes.get pid) ∧
      ∀ who, k.captureCallerContextForCpu cpuId = some who →
        SignalManager.pendingFor k.processes who.pid = 0 →
        (k.dispatch cpuId ctx frame).kernel.processes = (k.countEntry (some who)).processes ∧
        ∀ spec capabilityUsed, k.Admitted cpuId ctx syscall spec who capabilityUsed →
          (k.dispatch cpuId ctx frame).result = .err .invalidArgument) := by
  refine ⟨SyscallContext.signalRefused_of_not_defined, fun spec who used hadm ↦ ?_, fun hrefused ↦ ?_⟩
  · rw [hadm.dispatch_eq, (serve_spec _ cpuId who ctx frame syscall spec used).1]
    constructor
    · intro h
      exact refused_of_runHandler harg hadm.exists_get (Prod.ext_iff.mp (Option.some.inj h)).2
    · intro h
      rw [runHandler_refused harg h]
  · rcases dispatch_cases k cpuId ctx frame with ⟨_, _, _, he, hnone⟩ |
      ⟨syscall', spec, who, capabilityUsed, hadm, he⟩
    · rw [he]
      refine ⟨(countEntry_frame k _).1, fun pid hpid ↦ ?_,
        fun who hwho _ ↦ ⟨by rw [hwho]; rfl, fun _ _ h ↦ absurd h (hnone _ _ _ _)⟩⟩
      cases hwho : k.captureCallerContextForCpu cpuId with
      | none => rfl
      | some who => exact countEntry_other (hpid who hwho)
    · obtain rfl := Option.some.inj (hdec.symm.trans hadm.decodes)
      have hsyscall := hrefused _ _ _ hadm
      have hkind : syscall ≠ .exit ∧ syscall ≠ .sigReturn := by
        constructor <;> rintro rfl <;> cases harg
      obtain ⟨audit, hserve⟩ : ∃ audit,
          (k.countEntry (some who)).serve cpuId who ctx frame syscall spec capabilityUsed =
            { k.countEntry (some who) with audit := audit }.deliverSignal who frame
              (syscall, .err .invalidArgument) := by
        unfold serve
        rw [runHandler_refused harg hsyscall]
        dsimp only
        rw [if_pos hkind]
        exact ⟨_, rfl⟩
      rw [he]
      refine ⟨?_, fun pid hpid ↦ ?_, fun who' hwho' hquiet ↦ ?_⟩
      · rw [(serve_frame _ _ _ _ _ _ _ _).1, runHandler_refused harg hsyscall]
        exact (countEntry_frame k _).1
      · have hne := hpid who hadm.identified
        rw [hserve, deliverSignal_other hne]
        exact countEntry_other hne
      · obtain rfl := Option.some.inj (hwho'.symm.trans hadm.identified)
        have hpending : SignalManager.pendingFor (k.countEntry (some who')).processes who'.pid = 0 := by
          have hget : (k.countEntry (some who')).processes.get who'.pid =
              (k.processes.get who'.pid).map _ := ProcessTable.get_modify fun _ ↦ rfl
          rw [← hquiet, SignalManager.pendingFor, hget, SignalManager.pendingFor]
          cases k.processes.get who'.pid <;> rfl
        rw [hserve, deliverSignal, SignalManager.deliverPending, if_pos hpending]
        exact ⟨rfl, fun _ _ _ ↦ rfl⟩

theorem undefined_signal_refused_four :
    ¬ Signal.Defined 4 ∧
    (twoUsers.dispatch 0 ⟨70, 1, 4, 0, 0, 0⟩ .empty).result = .err .invalidArgument ∧
    (twoUsers.dispatch 0 ⟨70, 1, 4, 0, 0, 0⟩ .empty).kernel.signals = twoUsers.signals ∧
    (twoUsers.dispatch 0 ⟨70, 1, 4, 0, 0, 0⟩ .empty).kernel.processes.get 2 =
      twoUsers.processes.get 2 := by
  have hn : ¬ Signal.Defined 4 := by
    rintro ⟨sig, hsig⟩
    cases sig <;> exact absurd hsig (by decide)
  have hcaller : twoUsers.captureCallerContextForCpu 0 = some ⟨1, 1, 0⟩ := by decide +kernel
  obtain ⟨hlow, -, hrefused⟩ := undefined_signal_refused twoUsers 0 ⟨70, 1, 4, 0, 0, 0⟩ .empty
    (show SyscallNumber.fromRaw 70 = some .kill from rfl) rfl
  obtain ⟨hsignals, hothers, hquiet⟩ := hrefused fun _ _ _ _ ↦ hlow (by decide) hn
  refine ⟨hn, (hquiet _ hcaller (by decide +kernel)).2 _ none
    ⟨rfl, rfl, by decide, hcaller, by decide +kernel⟩, hsignals, hothers 2 fun who hwho ↦ ?_⟩
  obtain rfl := Option.some.inj (hwho.symm.trans hcaller)
  decide

/-- The handlers look at the low byte only: 0x10A is taken for signal 10, as the
signal to send and as the signal to handle. -/
theorem high_bits_ignored :
    ¬ Signal.Defined 0x10A ∧
    (twoUsers.dispatch 0 ⟨70, 1, 0x10A, 0, 0, 0⟩ .empty).ran = some (.kill, .ok 0) ∧
    (((twoUsers.dispatch 0 ⟨73, 1, 0x400, 0, 0, 0⟩ .empty).kernel.dispatch 0
      ⟨70, 1, 0x10A, 0, 0, 0⟩ .empty).kernel.processes.get 1).map (·.signalPending) = some 0x400 ∧
    (twoUsers.dispatch 0 ⟨71, 0x10A, 0x400000, 0, 0, 0⟩ .empty).result = .ok 0 ∧
    ((twoUsers.dispatch 0 ⟨71, 0x10A, 0x400000, 0, 0, 0⟩ .empty).kernel.signals.tables 0).actions 10 =
      .handler 0x400000 := by
  refine ⟨?_, by decide +kernel, by decide +kernel, by decide +kernel, by decide +kernel⟩
  rintro ⟨sig, hsig⟩
  cases sig <;> exact absurd hsig (by decide)

end Kernel

end BraneKernel
