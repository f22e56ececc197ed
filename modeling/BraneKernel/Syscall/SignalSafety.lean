import BraneKernel.Syscall.Identity
import BraneKernel.Syscall.Signals

namespace BraneKernel.Kernel

variable {k k' : Kernel} {e : Event}

structure Unmaskable (k : Kernel) : Prop where
  masks : ∀ p, some p ∈ k.processes.processes →
    p.signalBlocked.getLsbD 9 = false ∧ p.signalBlocked.getLsbD 19 = false
  actions : ∀ slot, (k.signals.tables slot).actions 9 = .default ∧
    (k.signals.tables slot).actions 19 = .default

theorem getLsbD_unblockable (mask : U64) : (mask &&& ~~~cannotBlock).getLsbD 9 = false ∧
    (mask &&& ~~~cannotBlock).getLsbD 19 = false := by
  simp only [cannotBlock, BitVec.getLsbD_and, BitVec.getLsbD_not, BitVec.getLsbD_or,
    Signal.getLsbD_bit, Signal.number]
  simp

theorem Fresh.unmaskable (h : k.Fresh) : k.Unmaskable where
  masks p hp := absurd hp (h.no_process p)
  actions slot := by
    rw [h.2]
    exact ⟨rfl, rfl⟩

theorem Unmaskable.step (h : k.Unmaskable) (hstep : k.Step e k') : k'.Unmaskable where
  masks := by
    refine forall_process_step hstep h.masks ?_ (fun _ _ hp ↦ hp) (fun _ _ _ hp ↦ hp) ?_
    · intro _ _ _ _ _ _ _ _ hu hp
      cases hu with
      | mask mask => exact getLsbD_unblockable mask
      | _ => exact hp
    · exact fun _ _ _ _ ↦ ⟨by simp [ProcessTable.newProcess], by simp [ProcessTable.newProcess]⟩
  actions slot := by
    have hact := forall_action_step (P := fun n a ↦ n = 9 ∨ n = 19 → a = .default) hstep
      (fun slot n hn ↦ ?_) fun _ _ _ sig _ _ _ _ hkill hstop hn ↦ ?_
    · exact ⟨hact slot 9 (.inl rfl), hact slot 19 (.inr rfl)⟩
    · rcases hn with rfl | rfl
      · exact (h.actions slot).1
      · exact (h.actions slot).2
    · rcases hn with hn | hn
      · exact absurd (Signal.number_injective (b := .kill) hn) hkill
      · exact absurd (Signal.number_injective (b := .stop) hn) hstop

/-- In every state reached, `kill` and `stop` can be neither blocked nor handled,
and the next delivery to a live process with `kill` pending terminates it. -/
theorem kill_and_stop_inescapable (k₀ k : Kernel) (es : List Event) (h₀ : k₀.Fresh)
    (hrun : Trace.Run Step k₀ es k) :
    k.Unmaskable ∧ ∀ pid p, k.processes.get pid = some p → p.live = true →
      p.signalPending.getLsbD 9 = true →
      ∃ p', (k.signals.deliverPending k.processes pid).1.get pid = some p' ∧
        p'.state = .terminated ∧ p'.exitCode = 137 := by
  have h : k.Unmaskable := hrun.invariant h₀.unmaskable fun _ _ _ hk hs ↦ hk.step hs
  refine ⟨h, fun pid p hp _ hpend ↦ ?_⟩
  exact SignalManager.deliverPending_kill hp hpend (h.masks p (ProcessTable.get_mem hp)).1
    fun slot ↦ (h.actions slot).1

def new : Kernel := ⟨.new, .new, .new, .new, .new⟩

theorem kill_delivered : ∃ k, Trace.Run Step new [.create [] none 1, .send 1 .kill] k ∧
    ∃ p', (k.signals.deliverPending k.processes 1).1.get 1 = some p' ∧
      p'.state = .terminated ∧ p'.exitCode = 137 := by
  have hrun : Trace.Run Step new [.create [] none 1, .send 1 .kill] _ := Trace.Run.of_foldlM rfl
  exact ⟨_, hrun, (kill_and_stop_inescapable _ _ _ ⟨rfl, rfl⟩ hrun).2 1 _ rfl (by decide) (by decide)⟩

theorem dispatch_rcx (k : Kernel) (cpuId : ℕ) (ctx : SyscallContext) (frame : UserContext) :
    (k.dispatch cpuId ctx frame).frame.rcx = frame.rcx ∨
    (∃ p, some p ∈ k.processes.processes ∧
      p.savedContext = some (k.dispatch cpuId ctx frame).frame) ∨
    ∃ slot n, ((k.dispatch cpuId ctx frame).kernel.signals.tables slot).actions n =
      .handler (k.dispatch cpuId ctx frame).frame.rcx := by
  rcases dispatch_cases k cpuId ctx frame with ⟨_, _, _, he, -⟩ | ⟨syscall, spec, who, _, -, he⟩
  · rw [he]
    exact .inl rfl
  · rw [he]
    have heff := runHandler_effect (k.countEntry (some who)) who ctx frame syscall
    unfold serve
    dsimp only
    split_ifs with hs
    · rw [runHandler_frame _ _ _ _ hs.2]
      unfold deliverSignal
      split
      · next hd =>
        exact .inr (.inr ((SignalManager.deliverPending_handler (congrArg Prod.snd hd)).imp
          fun slot hslot ↦ ⟨_, hslot⟩))
      · exact .inl rfl
    · generalize (k.countEntry (some who)).runHandler who ctx frame syscall = r at heff
      cases heff with
      | sigReturn hget hsaved =>
        obtain ⟨p, hp, hsaved⟩ := (exists_get_countEntry (P := fun p ↦ p.savedContext = _)
          (fun _ _ ↦ Iff.rfl) _).mp ⟨_, hget, hsaved⟩
        exact .inr (.inl ⟨p, ProcessTable.get_mem hp, hsaved⟩)
      | _ => exact .inl rfl

/-- Frames enter with a return address in user space, and so do the handler
addresses that are registered. -/
def UserAddresses (k : Kernel) : Event → Prop
  | .syscall cpuId ctx frame =>
    frame.rcx ≤ userAddressMax ∧
      (SyscallNumber.fromRaw ctx.number = some .sigAction →
        (k.captureCallerContextForCpu cpuId).isSome = true →
        (∃ sig, Signal.tryFrom (ctx.arg1.setWidth 8) = .ok sig ∧ sig ≠ .kill ∧ sig ≠ .stop) →
        ctx.arg2 ≤ userAddressMax)
  | _ => True

structure UserOnly (k : Kernel) : Prop where
  saved : ∀ p, some p ∈ k.processes.processes →
    ∀ ctx, p.savedContext = some ctx → ctx.rcx ≤ userAddressMax
  handlers : ∀ slot n, ∀ address, (k.signals.tables slot).actions n = .handler address →
    address ≤ userAddressMax

theorem Fresh.userOnly (h : k.Fresh) : k.UserOnly where
  saved p hp := absurd hp (h.no_process p)
  handlers slot n address ha := by
    rw [h.2] at ha
    cases ha

theorem actionFor_handler {address a : U64} (h : actionFor address = .handler a) : a = address := by
  unfold actionFor at h
  split_ifs at h
  exact (SignalAction.handler.inj h).symm

theorem UserOnly.step (h : k.UserOnly) (hok : k.UserAddresses e) (hstep : k.Step e k') :
    k'.UserOnly where
  saved := by
    refine forall_process_step hstep h.saved ?_ (fun _ _ hp ↦ hp) (fun _ _ _ hp ↦ hp) ?_
    · rintro cpuId ctx frame caller pid f p rfl hu hp
      cases hu with
      | resume => exact nofun
      | save rax =>
        rintro saved hs
        cases hs
        exact hok.1
      | _ => exact hp
    · exact fun _ _ _ _ _ hs ↦ by simp [ProcessTable.newProcess] at hs
  handlers := by
    refine forall_action_step (P := fun _ a ↦ ∀ address, a = .handler address →
      address ≤ userAddressMax) hstep h.handlers ?_
    rintro cpuId ctx frame sig rfl hn hc hs hkill hstop address ha
    rw [actionFor_handler ha]
    exact hok.2 hn hc ⟨sig, hs, hkill, hstop⟩

/-- In every run that registers only handlers in user space, no dispatch leaves a
return address outside it, neither in the frame nor in a saved context. -/
theorem redirects_in_user_space (k₀ k : Kernel) (es : List Event) (h₀ : k₀.Fresh)
    (hrun : Trace.Run (Trace.Guarded UserAddresses Step) k₀ es k)
    (cpuId : ℕ) (ctx : SyscallContext) (frame : UserContext)
    (hok : k.UserAddresses (.syscall cpuId ctx frame)) :
    (k.dispatch cpuId ctx frame).frame.rcx ≤ userAddressMax ∧
      ∀ p, some p ∈ (k.dispatch cpuId ctx frame).kernel.processes.processes →
        ∀ saved, p.savedContext = some saved → saved.rcx ≤ userAddressMax := by
  have h : k.UserOnly := hrun.invariant h₀.userOnly fun _ _ _ hk hs ↦ hk.step hs.1 hs.2
  have h' : (k.dispatch cpuId ctx frame).kernel.UserOnly := h.step hok rfl
  refine ⟨?_, h'.saved⟩
  rcases dispatch_rcx k cpuId ctx frame with he | ⟨p, hp, hs⟩ | ⟨slot, n, ha⟩
  · rw [he]
    exact hok.1
  · exact h.saved p hp _ hs
  · exact h'.handlers slot n _ ha

theorem redirects_in_user_space_usr1 : ∃ k,
    Trace.Run (Trace.Guarded UserAddresses Step) new
      [.create [] none 1, .environment twoUsers.scheduling .new,
        .syscall 0 ⟨71, 10, 0x400000, 0, 0, 0⟩ .empty] k ∧
    (k.dispatch 0 ⟨70, 1, 10, 0, 0, 0⟩ .empty).frame.rcx = 0x400000 ∧
    (k.dispatch 0 ⟨70, 1, 10, 0, 0, 0⟩ .empty).frame.rcx ≤ userAddressMax := by
  have h₁ : Trace.Run (Trace.Guarded UserAddresses Step) new [.create [] none 1] _ :=
    .snoc .nil (And.intro trivial rfl)
  have h₂ := h₁.snoc (And.intro (show UserAddresses _
    (.environment twoUsers.scheduling .new) from trivial) rfl)
  have h₃ := h₂.snoc (And.intro (show UserAddresses _
    (.syscall 0 ⟨71, 10, 0x400000, 0, 0, 0⟩ .empty) from ⟨by decide, fun _ _ _ ↦ by decide⟩) rfl)
  exact ⟨_, h₃, by decide +kernel, (redirects_in_user_space _ _ _ ⟨rfl, rfl⟩ h₃ 0
    ⟨70, 1, 10, 0, 0, 0⟩ .empty ⟨by decide, fun hn ↦ absurd hn (by decide)⟩).1⟩

/-- A handler address in the kernel half is registered and then returned to. -/
theorem redirect_leaves_user_space : ∃ k,
    Trace.Run Step new
      [.create [] none 1, .environment twoUsers.scheduling .new,
        .syscall 0 ⟨71, 10, 0xFFFF800000000000, 0, 0, 0⟩ .empty] k ∧
    UserContext.empty.rcx ≤ userAddressMax ∧
    (k.dispatch 0 ⟨70, 1, 10, 0, 0, 0⟩ .empty).frame.rcx = 0xFFFF800000000000 ∧
    ¬ (k.dispatch 0 ⟨70, 1, 10, 0, 0, 0⟩ .empty).frame.rcx ≤ userAddressMax :=
  ⟨_, Trace.Run.of_foldlM rfl, by decide, by decide +kernel, by decide +kernel⟩

end BraneKernel.Kernel
