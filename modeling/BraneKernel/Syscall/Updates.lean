import BraneKernel.Syscall.Mediation

namespace BraneKernel

/-- The changes that a syscall of process `caller`, entered with `frame`, makes to
process records. Only pending signals are ever set in another process. -/
inductive ProcessUpdate (caller : Pid) (frame : UserContext) : Pid → (Process → Process) → Prop
  | count : ProcessUpdate caller frame caller fun p ↦
      { p with syscallCount := Checked.saturatingSucc p.syscallCount }
  | pend (pid : Pid) (sig : Signal) : ProcessUpdate caller frame pid fun p ↦
      { p with signalPending := p.signalPending ||| sig.bit }
  | mask (mask : U64) : ProcessUpdate caller frame caller fun p ↦
      { p with signalBlocked := mask &&& ~~~Kernel.cannotBlock }
  | resume : ProcessUpdate caller frame caller fun p ↦ { p with savedContext := none }
  | clear (sig : Signal) : ProcessUpdate caller frame caller fun p ↦
      { p with signalPending := p.signalPending &&& ~~~sig.bit }
  | terminate (exitCode : ℤ) : ProcessUpdate caller frame caller fun p ↦
      { p with state := .terminated, exitCode := exitCode }
  | save (rax : U64) : ProcessUpdate caller frame caller fun p ↦
      { p with savedContext := some { frame with rax := rax } }

inductive Updated (caller : Pid) (frame : UserContext) (t : ProcessTable) : ProcessTable → Prop
  | refl : Updated caller frame t t
  | step {t' : ProcessTable} {pid : Pid} {f : Process → Process} : Updated caller frame t t' →
      ProcessUpdate caller frame pid f → Updated caller frame t (t'.modify pid f)

variable {caller : Pid} {frame : UserContext} {t t' : ProcessTable}

theorem Updated.invariant {P : ProcessTable → Prop} (h : Updated caller frame t t') (ht : P t)
    (hstep : ∀ t pid f, ProcessUpdate caller frame pid f → P t → P (t.modify pid f)) : P t' := by
  induction h with
  | refl => exact ht
  | step _ hu ih => exact hstep _ _ _ hu ih

theorem ProcessUpdate.keeps {pid : Pid} {f : Process → Process} (h : ProcessUpdate caller frame pid f)
    (p : Process) : (f p).pid = p.pid ∧ (f p).schedulerTask = p.schedulerTask := by
  cases h <;> exact ⟨rfl, rfl⟩

namespace Kernel

variable {k : Kernel} {cpuId : ℕ} {ctx : SyscallContext} {who : CallerContext}

theorem runHandler_updated (k : Kernel) (who : CallerContext) (ctx : SyscallContext)
    (frame : UserContext) (syscall : SyscallNumber) (h : Updated who.pid frame t k.processes) :
    Updated who.pid frame t (k.runHandler who ctx frame syscall).1.processes := by
  have he := runHandler_effect k who ctx frame syscall
  generalize k.runHandler who ctx frame syscall = r at he
  cases he with
  | keep | yield | sigAction => exact h
  | kill => exact h.step (.pend _ _)
  | sigReturn => exact h.step .resume
  | sigProcMask => exact h.step (.mask _)

theorem runHandler_frame (k : Kernel) (who : CallerContext) (ctx : SyscallContext)
    (frame : UserContext) {syscall : SyscallNumber} (h : syscall ≠ .sigReturn) :
    (k.runHandler who ctx frame syscall).2.1 = frame := by
  have he := runHandler_effect k who ctx frame syscall
  generalize k.runHandler who ctx frame syscall = r at he
  cases he with
  | sigReturn => exact absurd rfl h
  | _ => rfl

theorem deliverSignal_updated (k : Kernel) (who : CallerContext) (frame : UserContext)
    (ran : SyscallNumber × SyscallResult) (h : Updated who.pid frame t k.processes) :
    Updated who.pid frame t (k.deliverSignal who frame ran).kernel.processes := by
  have hd := k.signals.deliverPending_invariant k.processes who.pid (P := Updated who.pid frame t)
    h (fun t sig ht ↦ ht.step (.clear sig)) (fun t code ht ↦ ht.step (.terminate code))
  unfold deliverSignal
  split
  · next he =>
    rw [he] at hd
    exact hd.step (.save _)
  · next he =>
    rw [he] at hd
    exact hd

theorem dispatch_updated (h : k.captureCallerContextForCpu cpuId = some who) :
    Updated who.pid frame k.processes (k.dispatch cpuId ctx frame).kernel.processes := by
  have hcount : Updated who.pid frame k.processes (k.countEntry (some who)).processes :=
    .step .refl .count
  rcases dispatch_cases k cpuId ctx frame with ⟨_, _, _, he, -⟩ |
    ⟨syscall, spec, who', capabilityUsed, hadm, he⟩
  · rw [he, h]
    exact hcount
  · obtain rfl := Option.some.inj (h.symm.trans hadm.identified)
    have hrun := runHandler_updated _ who ctx frame syscall hcount
    rw [he]
    unfold serve
    dsimp only
    split_ifs with hs
    · rw [runHandler_frame _ _ _ _ hs.2]
      exact deliverSignal_updated _ who frame _ hrun
    · exact hrun

theorem dispatch_anonymous (h : k.captureCallerContextForCpu cpuId = none) :
    (k.dispatch cpuId ctx frame).kernel.processes = k.processes := by
  rcases dispatch_cases k cpuId ctx frame with ⟨_, _, _, he, -⟩ | ⟨_, _, who, _, hadm, -⟩
  · rw [he, h]
    rfl
  · cases h.symm.trans hadm.identified

theorem serve_frame (k : Kernel) (cpuId : ℕ) (who : CallerContext) (ctx : SyscallContext)
    (frame : UserContext) (syscall : SyscallNumber) (spec : SyscallSpec)
    (capabilityUsed : Option CapabilityId) :
    (k.serve cpuId who ctx frame syscall spec capabilityUsed).kernel.signals =
        (k.runHandler who ctx frame syscall).1.signals ∧
      (k.serve cpuId who ctx frame syscall spec capabilityUsed).kernel.scheduling =
        (k.runHandler who ctx frame syscall).1.scheduling := by
  unfold serve
  dsimp only
  split_ifs
  · unfold deliverSignal
    split <;> exact ⟨rfl, rfl⟩
  · exact ⟨rfl, rfl⟩

theorem countEntry_frame (k : Kernel) (entry : Option CallerContext) :
    (k.countEntry entry).signals = k.signals ∧ (k.countEntry entry).scheduling = k.scheduling := by
  cases entry <;> exact ⟨rfl, rfl⟩

theorem dispatch_scheduling (k : Kernel) (cpuId : ℕ) (ctx : SyscallContext) (frame : UserContext) :
    (k.dispatch cpuId ctx frame).kernel.scheduling = k.scheduling ∨
      SyscallNumber.fromRaw ctx.number = some .yield ∧
        (k.dispatch cpuId ctx frame).kernel.scheduling =
          { k.scheduling with legacy := k.scheduling.legacy.tick } := by
  rcases dispatch_cases k cpuId ctx frame with ⟨_, _, _, he, -⟩ | ⟨syscall, spec, who, _, hadm, he⟩
  · rw [he]
    exact .inl (countEntry_frame k _).2
  · rw [he, (serve_frame _ _ _ _ _ _ _ _).2, ← (countEntry_frame k (some who)).2]
    have hdec := hadm.decodes
    have heff := runHandler_effect (k.countEntry (some who)) who ctx frame syscall
    generalize (k.countEntry (some who)).runHandler who ctx frame syscall = r at heff ⊢
    cases heff with
    | yield => exact .inr ⟨hdec, rfl⟩
    | _ => exact .inl rfl

end Kernel

end BraneKernel
