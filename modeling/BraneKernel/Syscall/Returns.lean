import BraneKernel.Syscall.Answers
import BraneKernel.Syscall.SignalSafety

namespace BraneKernel

open SyscallResult SignalManager

namespace SyscallError

variable (error : SyscallError)

def raw : U64 := (err error).toRaw

theorem raw_ge : 2 ^ 64 - 100 ≤ error.raw.toNat := by
  cases error <;> decide

theorem raw_ne_zero : error.raw ≠ 0 := by
  cases error <;> decide

theorem getLsbD_raw_kill : error.raw.getLsbD 9 = true := by
  cases error <;> decide

end SyscallError

namespace Kernel

variable {k : Kernel} {cpuId : ℕ} {ctx : SyscallContext} {frame : UserContext}
  {caller : CallerContext} {syscall : SyscallNumber} {spec : SyscallSpec} {value : U64}

theorem deliverSignal_redirected {ran : SyscallNumber × SyscallResult}
    (h : (k.deliverSignal caller frame ran).delivered ≠ none) :
    (k.deliverSignal caller frame ran).result = .ok 0 := by
  unfold deliverSignal at h ⊢
  split
  · rfl
  · next hd =>
    rw [hd] at h
    exact absurd rfl h

theorem dispatch_redirected (h : (k.dispatch cpuId ctx frame).delivered ≠ none) :
    (k.dispatch cpuId ctx frame).result = .ok 0 := by
  rcases dispatch_cases k cpuId ctx frame with ⟨_, _, _, he, -⟩ | ⟨_, _, _, _, -, he⟩
  · rw [he] at h
    exact absurd rfl h
  · rw [he] at h ⊢
    unfold serve at h ⊢
    dsimp only at h ⊢
    split_ifs at h ⊢
    · exact deliverSignal_redirected h
    · exact absurd rfl h

theorem activeCount_lt (k : Kernel) : k.scheduling.legacy.activeCount < 2 ^ 64 - 100 := by
  have hcount := List.countP_le_length (p := Option.isSome) (l := k.scheduling.legacy.tasks)
  rw [k.scheduling.legacy.size] at hcount
  exact hcount.trans_lt (by decide)

theorem answers_raw (error : SyscallError) (h : k.Answers caller ctx error.raw syscall) :
    syscall ∈ [SyscallNumber.getPid, .write, .getTime, .sigReturn] ∨
      (syscall = .sigProcMask ∧ ¬ k.Unmaskable) := by
  have hlarge := error.raw_ge
  have hzero := error.raw_ne_zero
  cases syscall with
  | getPid | write | getTime | sigReturn => exact .inl (by decide)
  | exit | yield | send => exact absurd h hzero
  | kill | sigAction => exact absurd h.1 hzero
  | getSystemInfo =>
    have hvalue : error.raw = BitVec.ofNat 64 k.scheduling.legacy.activeCount := h
    have hcount := k.activeCount_lt
    rw [hvalue, BitVec.toNat_ofNat, Nat.mod_eq_of_lt (by omega)] at hlarge
    omega
  | sigProcMask =>
    obtain ⟨-, p, hp, hmask⟩ := h
    refine .inr ⟨rfl, fun hun ↦ ?_⟩
    have hbit := (hun.masks p (ProcessTable.get_mem hp)).1
    rw [hmask, error.getLsbD_raw_kill] at hbit
    cases hbit
  | _ => exact h.elim

theorem answers_raw_ne {error : SyscallError} (h : k.Answers caller ctx error.raw syscall) :
    syscall ≠ .kill ∧ syscall ≠ .sigAction := by
  constructor <;> rintro rfl <;> exact error.raw_ne_zero h.1

def blockedAfter (ctx : SyscallContext) (syscall : SyscallNumber) (blocked : U64) : U64 :=
  if syscall = .sigProcMask then
    ((maskFor ctx.arg1 ctx.arg2 blocked).map (· &&& ~~~cannotBlock)).getD blocked
  else blocked

def masked (k : Kernel) (caller : CallerContext) (ctx : SyscallContext) (syscall : SyscallNumber) :
    ProcessTable :=
  k.processes.modify caller.pid fun p ↦
    { p with signalBlocked := blockedAfter ctx syscall p.signalBlocked }

/-- The signal that decides the delivery after the call has a handler. The pending signals and the
actions are those before the call, which only `kill` and `sigAction` change. -/
def Caught (k : Kernel) (caller : CallerContext) (ctx : SyscallContext) (syscall : SyscallNumber) :
    Prop :=
  syscall ≠ .exit ∧ syscall ≠ .sigReturn ∧ ∃ sig address,
    k.signals.decisive (k.masked caller ctx syscall) caller.pid = some sig ∧
      k.signals.getAction (k.masked caller ctx syscall) caller.pid sig = .handler address

theorem deliverSignal_delivered (k : Kernel) (caller : CallerContext) (frame : UserContext)
    (ran : SyscallNumber × SyscallResult) :
    (k.deliverSignal caller frame ran).delivered =
      (k.signals.deliverPending k.processes caller.pid).2 := by
  unfold deliverSignal
  split <;> next hd => rw [hd]

theorem runHandler_signals (ctx : SyscallContext) (frame : UserContext) (hkill : syscall ≠ .kill)
    (haction : syscall ≠ .sigAction) (hreturn : syscall ≠ .sigReturn) {p : Process}
    (hp : k.processes.get caller.pid = some p) :
    (k.runHandler caller ctx frame syscall).1.signals = k.signals ∧
      (k.runHandler caller ctx frame syscall).1.processes.slotOf caller.pid =
        k.processes.slotOf caller.pid ∧
      pendingFor (k.runHandler caller ctx frame syscall).1.processes caller.pid =
        p.signalPending &&& ~~~(blockedAfter ctx syscall p.signalBlocked) := by
  have hkeep (h : blockedAfter ctx syscall p.signalBlocked = p.signalBlocked) :
      pendingFor k.processes caller.pid =
        p.signalPending &&& ~~~(blockedAfter ctx syscall p.signalBlocked) := by
    rw [h, pendingFor, hp]
  cases syscall with
  | kill => exact absurd rfl hkill
  | sigAction => exact absurd rfl haction
  | sigReturn => exact absurd rfl hreturn
  | sigProcMask =>
    simp only [runHandler, handleSigprocmask, hp, blockedAfter, if_true] at hkeep ⊢
    cases hmask : maskFor ctx.arg1 ctx.arg2 p.signalBlocked with
    | none =>
      rw [hmask] at hkeep
      exact ⟨rfl, rfl, hkeep rfl⟩
    | some mask =>
      exact ⟨rfl, ProcessTable.slotOf_modify fun _ ↦ rfl,
        pendingFor_modify_self hp fun _ ↦ rfl⟩
  | _ => exact ⟨rfl, rfl, hkeep rfl⟩

theorem Admitted.delivered_iff {capabilityUsed : Option CapabilityId}
    (hadm : k.Admitted cpuId ctx syscall spec caller capabilityUsed) (hkill : syscall ≠ .kill)
    (haction : syscall ≠ .sigAction) :
    (k.dispatch cpuId ctx frame).delivered ≠ none ↔ k.Caught caller ctx syscall := by
  obtain ⟨p, hp⟩ := captured_get hadm.identified
  rw [hadm.dispatch_eq]
  unfold serve Caught
  dsimp only
  split_ifs with hkind
  · have hcount : (k.countEntry (some caller)).processes.get caller.pid = _ :=
      ProcessTable.get_modify_of hp fun _ ↦ rfl
    have hentry : (k.countEntry (some caller)).processes.slotOf caller.pid =
        k.processes.slotOf caller.pid := ProcessTable.slotOf_modify fun _ ↦ rfl
    have hmasked : (k.masked caller ctx syscall).slotOf caller.pid =
        k.processes.slotOf caller.pid := ProcessTable.slotOf_modify fun _ ↦ rfl
    have hpending : pendingFor (k.masked caller ctx syscall) caller.pid = _ :=
      pendingFor_modify_self hp fun _ ↦ rfl
    obtain ⟨hsignals, hslot, hpending'⟩ :=
      runHandler_signals ctx frame hkill haction hkind.2 hcount
    have hslot' := (hslot.trans hentry).trans hmasked.symm
    rw [and_iff_right hkind.1, and_iff_right hkind.2, Option.ne_none_iff_exists', Prod.exists,
      deliverSignal_delivered]
    refine exists_congr fun sig ↦ exists_congr fun address ↦ ?_
    rw [← decisive_congr (hpending'.trans hpending.symm) hslot',
      ← getAction_congr hslot', ← (countEntry_frame k (some caller)).1, ← hsignals]
    exact deliverPending_handler_iff
  · exact iff_of_false (fun h ↦ h rfl) fun h ↦ hkind ⟨h.1, h.2.1⟩

/-- A returned `Ok(v)` is told from every error by its raw value, unless the handler's own answer is
the code of an error and no signal handler takes its place. The old mask of `sigProcMask` is none as
long as `kill` cannot be blocked. -/
theorem ok_distinct_iff (k : Kernel) (cpuId : ℕ) (ctx : SyscallContext) (frame : UserContext)
    (v : U64) (h : (k.dispatch cpuId ctx frame).result = .ok v) :
    ((∀ e, (ok v).toRaw ≠ (err e).toRaw) ↔
      ∀ e syscall spec caller capabilityUsed,
        k.Admitted cpuId ctx syscall spec caller capabilityUsed →
        k.Answers caller ctx (err e).toRaw syscall → k.Caught caller ctx syscall) ∧
    ∀ e syscall caller, k.Answers caller ctx (err e).toRaw syscall →
      syscall ∈ [SyscallNumber.getPid, .write, .getTime, .sigReturn] ∨
        (syscall = .sigProcMask ∧ ¬ k.Unmaskable) := by
  refine ⟨⟨fun hne e syscall spec caller capabilityUsed hadm hans ↦ ?_, fun hcond e heq ↦ ?_⟩,
    fun e _ _ hans ↦ answers_raw e hans⟩
  · rw [← hadm.delivered_iff (answers_raw_ne hans).1 (answers_raw_ne hans).2]
    intro hd
    have hok := (dispatch_ok hd).mpr ⟨syscall, spec, caller, capabilityUsed, hadm, hans⟩
    rw [h] at hok
    exact hne e (ok.inj hok)
  · have hv : v = e.raw := heq
    by_cases hd : (k.dispatch cpuId ctx frame).delivered = none
    · obtain ⟨syscall, spec, caller, capabilityUsed, hadm, hans⟩ := (dispatch_ok hd).mp h
      rw [hv] at hans
      have hcaught := hcond e syscall spec caller capabilityUsed hadm hans
      rw [← hadm.delivered_iff (answers_raw_ne hans).1 (answers_raw_ne hans).2] at hcaught
      exact hcaught hd
    · have hlarge := e.raw_ge
      rw [dispatch_redirected hd, ok.injEq] at h
      rw [← hv, ← h] at hlarge
      exact absurd hlarge (by decide)

theorem ok_distinct_iff_getPid :
    (twoUsers.dispatch 0 ⟨2, 0, 0, 0, 0, 0⟩ .empty).result = .ok 1 ∧
    ∀ e, (ok 1).toRaw ≠ (err e).toRaw := by
  have hres : (twoUsers.dispatch 0 ⟨2, 0, 0, 0, 0, 0⟩ .empty).result = .ok 1 := by decide +kernel
  refine ⟨hres, (ok_distinct_iff _ _ _ _ _ hres).1.mpr fun e syscall spec caller used hadm h ↦ ?_⟩
  obtain rfl := Option.some.inj (hadm.decodes.symm.trans
    (show SyscallNumber.fromRaw 2 = some .getPid from rfl))
  have hcaller : twoUsers.captureCallerContextForCpu 0 = some ⟨1, 1, 0⟩ := by decide +kernel
  obtain rfl := Option.some.inj (hadm.identified.symm.trans hcaller)
  have hraw : e.raw = 1 := h
  have hlarge := e.raw_ge
  rw [hraw] at hlarge
  exact absurd hlarge (by decide)

def writer : Kernel :=
  { twoUsers with
    capabilities := ((Security.CapabilityManager.new.grant 1 (.service vfsServiceId) .write .low
      true).map (·.1)).getD .new }

/-- A write of the largest length is answered like an unknown syscall. -/
theorem written_length_reads_as_error :
    (writer.dispatch 0 ⟨20, 1, 0, BitVec.allOnes 64, 0, 0⟩ .empty).result =
      .ok (BitVec.allOnes 64) ∧
    (ok (BitVec.allOnes 64)).toRaw = (err .invalidSyscall).toRaw := by
  decide +kernel

theorem answers_copied (hspec : syscallSpec syscall = some spec) (hcopies : spec.maxCopyBytes ≠ 0)
    (h : k.Answers caller ctx value syscall) : value = 0 ∨ (syscall = .write ∧ value = ctx.arg3) := by
  cases syscall with
  | write => exact .inr ⟨rfl, h.2⟩
  | send => exact .inl h
  | exit | yield | getPid | getTime | getSystemInfo | kill | sigAction | sigReturn | sigProcMask =>
    cases hspec
    exact absurd rfl hcopies
  | _ => exact h.elim

theorem dispatch_answer (h : (k.dispatch cpuId ctx frame).answer = .ok value) :
    ∃ syscall spec caller capabilityUsed,
      k.Admitted cpuId ctx syscall spec caller capabilityUsed ∧
        k.Answers caller ctx value syscall := by
  rcases dispatch_cases k cpuId ctx frame with ⟨_, _, _, he, -⟩ |
    ⟨syscall, spec, caller, capabilityUsed, hadm, he⟩
  · rw [he] at h
    cases h
  · obtain ⟨hran, -⟩ := serve_spec (k.countEntry (some caller)) cpuId caller ctx frame syscall spec
      capabilityUsed
    rw [he, Outcome.answer, hran] at h
    exact ⟨syscall, spec, caller, capabilityUsed, hadm, hadm.runHandler_ok.mp h⟩

/-- A call with a copy budget reports no more bytes than that, neither in the result nor in the one
saved for a signal handler's return, exactly when it is no write that is served or the length it was
given is within the budget. -/
theorem copied_within_budget (k : Kernel) (cpuId : ℕ) (ctx : SyscallContext) (frame : UserContext)
    (syscall : SyscallNumber) (spec : SyscallSpec)
    (hdec : SyscallNumber.fromRaw ctx.number = some syscall)
    (hspec : syscallSpec syscall = some spec) (hcopies : spec.maxCopyBytes ≠ 0) :
    (∀ n, (k.dispatch cpuId ctx frame).result = .ok n ∨
        (k.dispatch cpuId ctx frame).answer = .ok n → n.toNat ≤ spec.maxCopyBytes) ↔
      (syscall = .write → (∃ caller used, k.Admitted cpuId ctx syscall spec caller used) →
        ctx.arg1 = 1 → ctx.arg3.toNat ≤ spec.maxCopyBytes) := by
  constructor
  · rintro hall rfl ⟨caller, used, hadm⟩ hfd
    have hran : ((k.countEntry (some caller)).runHandler caller ctx frame .write).2.2 =
        .ok ctx.arg3 := hadm.runHandler_ok.mpr ⟨hfd, rfl⟩
    refine hall ctx.arg3 (.inr ?_)
    rw [Outcome.answer, hadm.dispatch_eq, (serve_spec _ _ _ _ _ _ _ _).1, hran]
    rfl
  · intro hlength n h
    have hanswers : n = 0 ∨ ∃ caller used, k.Admitted cpuId ctx syscall spec caller used ∧
        k.Answers caller ctx n syscall := by
      have hsame {syscall' : SyscallNumber} {spec' : SyscallSpec} {caller : CallerContext}
          {used : Option CapabilityId} (hadm : k.Admitted cpuId ctx syscall' spec' caller used)
          (hans : k.Answers caller ctx n syscall') :
          ∃ caller used, k.Admitted cpuId ctx syscall spec caller used ∧
            k.Answers caller ctx n syscall := by
        obtain rfl := Option.some.inj (hdec.symm.trans hadm.decodes)
        obtain rfl := Option.some.inj (hspec.symm.trans hadm.listed)
        exact ⟨caller, used, hadm, hans⟩
      rcases h with h | h
      · by_cases hd : (k.dispatch cpuId ctx frame).delivered = none
        · obtain ⟨_, _, _, _, hadm, hans⟩ := (dispatch_ok hd).mp h
          exact .inr (hsame hadm hans)
        · rw [dispatch_redirected hd, ok.injEq] at h
          exact .inl h.symm
      · obtain ⟨_, _, _, _, hadm, hans⟩ := dispatch_answer h
        exact .inr (hsame hadm hans)
    rcases hanswers with rfl | ⟨caller, used, hadm, hans⟩
    · exact Nat.zero_le _
    · rcases answers_copied hspec hcopies hans with rfl | ⟨rfl, rfl⟩
      · exact Nat.zero_le _
      · exact hlength rfl ⟨caller, used, hadm⟩ hans.1

theorem copied_within_budget_full :
    (writer.dispatch 0 ⟨20, 1, 0, 65536, 0, 0⟩ .empty).result = .ok 65536 ∧
    (65536 : U64).toNat ≤ maxCopyBuffer := by
  have hres : (writer.dispatch 0 ⟨20, 1, 0, 65536, 0, 0⟩ .empty).result = .ok 65536 := by
    decide +kernel
  exact ⟨hres, (copied_within_budget writer 0 ⟨20, 1, 0, 65536, 0, 0⟩ .empty .write _ rfl rfl
    (by decide)).mpr (fun _ _ _ ↦ by decide) 65536 (.inl hres)⟩

/-- The length of a write is reported as copied whatever it is. -/
theorem write_exceeds_budget :
    (syscallSpec .write).map (·.maxCopyBytes) = some 65536 ∧
    (writer.dispatch 0 ⟨20, 1, 0, 65537, 0, 0⟩ .empty).result = .ok 65537 := by
  decide +kernel

end Kernel

end BraneKernel
