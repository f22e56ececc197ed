import BraneKernel.Syscall.Effects

namespace BraneKernel.Kernel

/-- Mediation lets the syscall through: its number decodes to a call that has a
handler, the executing CPU has a caller, and the rule of the call accepts it. -/
structure Admitted (k : Kernel) (cpuId : ℕ) (ctx : SyscallContext) (syscall : SyscallNumber)
    (spec : SyscallSpec) (caller : CallerContext) (capabilityUsed : Option CapabilityId) : Prop where
  decodes : SyscallNumber.fromRaw ctx.number = some syscall
  listed : syscallSpec syscall = some spec
  handled : spec.state ≠ .unimplemented
  identified : k.captureCallerContextForCpu cpuId = some caller
  authorized : k.authorize spec.authorization caller ctx = .ok capabilityUsed

def Outcome.answer (o : Outcome) : SyscallResult := (o.ran.map (·.2)).getD o.result

variable {k : Kernel} {cpuId : ℕ} {ctx : SyscallContext} {frame : UserContext}
  {caller : CallerContext} (entry : Option CallerContext)

theorem authorize_countEntry (rule : AuthorizationRule) :
    (k.countEntry entry).authorize rule caller ctx = k.authorize rule caller ctx := by
  cases entry with
  | none => rfl
  | some entry =>
    let f (p : Process) : Process := { p with syscallCount := Checked.saturatingSucc p.syscallCount }
    have htask (pid : Pid) : (k.countEntry (some entry)).processes.getTaskIdByPid pid =
        k.processes.getTaskIdByPid pid :=
      ProcessTable.getTaskIdByPid_modify (f := f) (fun _ ↦ rfl) fun _ ↦ rfl
    have hchild : (k.countEntry (some entry)).targetIsSelfOrChild caller ctx =
        k.targetIsSelfOrChild caller ctx :=
      ProcessTable.isSelfOrChild_modify (f := f) (fun _ ↦ rfl) (fun _ ↦ rfl) _
    cases rule <;> simp only [authorize, checkCapability, resolveCapabilityScope, htask, hchild] <;> rfl

theorem dispatch_cases (k : Kernel) (cpuId : ℕ) (ctx : SyscallContext) (frame : UserContext) :
    (∃ entry auditClass error, k.dispatch cpuId ctx frame =
        (k.countEntry (k.captureCallerContextForCpu cpuId)).reject cpuId entry ctx.number auditClass
          frame error ∧
      ∀ syscall spec caller capabilityUsed, ¬ k.Admitted cpuId ctx syscall spec caller capabilityUsed) ∨
    ∃ syscall spec caller capabilityUsed, k.Admitted cpuId ctx syscall spec caller capabilityUsed ∧
      k.dispatch cpuId ctx frame = (k.countEntry (some caller)).serve cpuId caller ctx frame syscall
        spec capabilityUsed := by
  unfold dispatch
  dsimp only
  cases hdec : SyscallNumber.fromRaw ctx.number with
  | none =>
    refine .inl ⟨_, _, _, rfl, fun _ _ _ _ h ↦ ?_⟩
    cases hdec.symm.trans h.decodes
  | some syscall =>
    have hraw := SyscallNumber.toRaw_of_fromRaw hdec
    obtain ⟨spec, hspec, -⟩ := syscallSpec_isSome syscall
    simp only [hspec, hraw]
    split_ifs with hun
    · refine .inl ⟨_, _, _, rfl, fun _ _ _ _ h ↦ h.handled ?_⟩
      obtain rfl := Option.some.inj (hdec.symm.trans h.decodes)
      exact Option.some.inj (hspec.symm.trans h.listed) ▸ hun
    · cases hcaller : k.captureCallerContextForCpu cpuId with
      | none =>
        refine .inl ⟨_, _, _, rfl, fun _ _ _ _ h ↦ ?_⟩
        cases hcaller.symm.trans h.identified
      | some caller =>
        simp only [authorize_countEntry]
        cases hauth : k.authorize spec.authorization caller ctx with
        | error e =>
          refine .inl ⟨_, _, _, rfl, fun _ _ _ _ h ↦ ?_⟩
          obtain rfl := Option.some.inj (hdec.symm.trans h.decodes)
          obtain rfl := Option.some.inj (hspec.symm.trans h.listed)
          obtain rfl := Option.some.inj (hcaller.symm.trans h.identified)
          cases hauth.symm.trans h.authorized
        | ok capabilityUsed =>
          exact .inr ⟨syscall, spec, caller, capabilityUsed, ⟨hdec, hspec, hun, hcaller, hauth⟩, rfl⟩

theorem captured_get (h : k.captureCallerContextForCpu cpuId = some caller) :
    ∃ p, k.processes.get caller.pid = some p := by
  obtain ⟨taskId, -, h⟩ := Option.bind_eq_some_iff.mp h
  obtain ⟨pid, hp, rfl⟩ := Option.map_eq_some_iff.mp h
  exact ProcessTable.get_of_getPidByTaskId hp

theorem exists_get_countEntry {P : Process → Prop} (hP : ∀ p n, P { p with syscallCount := n } ↔ P p)
    (pid : Pid) : (∃ p, (k.countEntry (some caller)).processes.get pid = some p ∧ P p) ↔
      ∃ p, k.processes.get pid = some p ∧ P p := by
  let f (p : Process) : Process := { p with syscallCount := Checked.saturatingSucc p.syscallCount }
  have hf (p : Process) : (f p).pid = p.pid := rfl
  show (∃ p, (k.processes.modify caller.pid f).get pid = some p ∧ P p) ↔ _
  by_cases hq : pid = caller.pid
  · subst hq
    rw [ProcessTable.get_modify hf]
    cases k.processes.get caller.pid <;> simp [f, hP]
  · rw [ProcessTable.get_modify_ne hf hq]

variable {capabilityUsed : Option CapabilityId}

theorem Admitted.exists_get {syscall : SyscallNumber} {spec : SyscallSpec}
    (h : k.Admitted cpuId ctx syscall spec caller capabilityUsed) :
    ∃ p, (k.countEntry (some caller)).processes.get caller.pid = some p := by
  simpa using (exists_get_countEntry (P := fun _ ↦ True) (fun _ _ ↦ Iff.rfl) _).mpr
    ((captured_get h.identified).imp fun _ hp ↦ ⟨hp, trivial⟩)

theorem countEntry_audit (k : Kernel) (entry : Option CallerContext) :
    (k.countEntry entry).audit = k.audit := by cases entry <;> rfl

theorem serve_spec (k : Kernel) (cpuId : ℕ) (caller : CallerContext) (ctx : SyscallContext)
    (frame : UserContext) (syscall : SyscallNumber) (spec : SyscallSpec)
    (capabilityUsed : Option CapabilityId) :
    (k.serve cpuId caller ctx frame syscall spec capabilityUsed).ran =
        some (syscall, (k.runHandler caller ctx frame syscall).2.2) ∧
      (k.serve cpuId caller ctx frame syscall spec capabilityUsed).kernel.audit =
        ((k.runHandler caller ctx frame syscall).1.logSyscall cpuId (some caller) syscall.toRaw
          (some spec.auditClass) capabilityUsed
          (auditResult (k.runHandler caller ctx frame syscall).2.2)).audit := by
  unfold serve
  dsimp only
  split_ifs
  · unfold deliverSignal
    split <;> exact ⟨rfl, rfl⟩
  · exact ⟨rfl, rfl⟩

theorem dispatch_audit (k : Kernel) (cpuId : ℕ) (ctx : SyscallContext) (frame : UserContext) :
    ∃ tick origin auditClass capabilityUsed, (k.dispatch cpuId ctx frame).kernel.audit =
      k.audit.recordAt tick origin (.syscallCompleted ctx.number auditClass) capabilityUsed
        (auditResult (k.dispatch cpuId ctx frame).answer) := by
  rcases dispatch_cases k cpuId ctx frame with ⟨entry, auditClass, error, he, -⟩ |
    ⟨syscall, spec, caller, capabilityUsed, hadm, he⟩
  · refine ⟨(k.countEntry (k.captureCallerContextForCpu cpuId)).scheduling.legacy.totalTicks,
      auditOrigin cpuId entry, auditClass, none, ?_⟩
    rw [he, ← countEntry_audit k (k.captureCallerContextForCpu cpuId)]
    rfl
  · obtain ⟨hran, haudit⟩ := serve_spec (k.countEntry (some caller)) cpuId caller ctx frame syscall
      spec capabilityUsed
    refine ⟨((k.countEntry (some caller)).runHandler caller ctx frame syscall).1.scheduling.legacy.totalTicks,
      auditOrigin cpuId (some caller), some spec.auditClass, capabilityUsed, ?_⟩
    rw [he, haudit, logSyscall, SyscallNumber.toRaw_of_fromRaw hadm.decodes]
    dsimp only
    rw [runHandler_audit, countEntry_audit, Outcome.answer, hran]
    rfl

theorem Admitted.dispatch_eq {syscall : SyscallNumber} {spec : SyscallSpec}
    (h : k.Admitted cpuId ctx syscall spec caller capabilityUsed) :
    k.dispatch cpuId ctx frame = (k.countEntry (some caller)).serve cpuId caller ctx frame syscall
      spec capabilityUsed := by
  rcases dispatch_cases k cpuId ctx frame with ⟨_, _, _, -, hnone⟩ | ⟨_, _, _, _, hadm, he⟩
  · exact absurd h (hnone _ _ _ _)
  · obtain rfl := Option.some.inj (hadm.decodes.symm.trans h.decodes)
    obtain rfl := Option.some.inj (hadm.listed.symm.trans h.listed)
    obtain rfl := Option.some.inj (hadm.identified.symm.trans h.identified)
    obtain rfl := Except.ok.inj (hadm.authorized.symm.trans h.authorized)
    exact he

/-- A handler runs for every admitted call, and only for one of a live process. Its result is the
audited one, and its kernel is left as it is but for the record and the signal delivered after it.
Without a handler only the caller's `syscallCount` and the audit log change. Every dispatch appends
one event, the newest of the log. -/
theorem dispatch_mediated (k : Kernel) (cpuId : ℕ) (ctx : SyscallContext) (frame : UserContext) :
    (∀ syscall result, (k.dispatch cpuId ctx frame).ran = some (syscall, result) →
      ∃ spec caller capabilityUsed, k.Admitted cpuId ctx syscall spec caller capabilityUsed ∧
        (k.executingTask cpuId = some caller.taskId ∧ ∃ p, some p ∈ k.processes.processes ∧
          p.pid = caller.pid ∧ p.schedulerTask = caller.taskId ∧ p.live = true) ∧
        result = ((k.countEntry (some caller)).runHandler caller ctx frame syscall).2.2) ∧
    (∀ syscall spec caller capabilityUsed,
      k.Admitted cpuId ctx syscall spec caller capabilityUsed →
      ∃ k' frame' result,
        (k.countEntry (some caller)).runHandler caller ctx frame syscall = (k', frame', result) ∧
        (k.dispatch cpuId ctx frame).ran = some (syscall, result) ∧
        ∃ logged, logged = k'.logSyscall cpuId (some caller) ctx.number (some spec.auditClass)
            capabilityUsed (auditResult result) ∧
          (syscall = .exit ∨ syscall = .sigReturn →
            k.dispatch cpuId ctx frame = ⟨logged, frame', result, some (syscall, result), none⟩) ∧
          (syscall ≠ .exit → syscall ≠ .sigReturn →
            k.dispatch cpuId ctx frame = logged.deliverSignal caller frame' (syscall, result))) ∧
    ((k.dispatch cpuId ctx frame).ran = none →
      (k.dispatch cpuId ctx frame).frame = frame ∧ ∃ audit, (k.dispatch cpuId ctx frame).kernel =
        { k.countEntry (k.captureCallerContextForCpu cpuId) with audit := audit }) ∧
    (∃ tick origin auditClass capabilityUsed, (k.dispatch cpuId ctx frame).kernel.audit =
      k.audit.recordAt tick origin (.syscallCompleted ctx.number auditClass) capabilityUsed
        (auditResult (k.dispatch cpuId ctx frame).answer)) ∧
    ((k.dispatch cpuId ctx frame).kernel.audit.lastN 1).map AuditEvent.result =
      [auditResult (k.dispatch cpuId ctx frame).answer] := by
  obtain ⟨tick, origin, auditClass, used, haudit⟩ := dispatch_audit k cpuId ctx frame
  have hlast : ((k.dispatch cpuId ctx frame).kernel.audit.lastN 1).map AuditEvent.result =
      [auditResult (k.dispatch cpuId ctx frame).answer] := by
    rw [haudit, AuditLog.lastN_one_recordAt]
    rfl
  refine ⟨fun syscall result hran ↦ ?_, fun syscall spec caller capabilityUsed hadm ↦ ?_,
    fun hran ↦ ?_, ⟨tick, origin, auditClass, used, haudit⟩, hlast⟩
  · rcases dispatch_cases k cpuId ctx frame with ⟨_, _, _, he, -⟩ |
      ⟨syscall', spec, caller, capabilityUsed, hadm, he⟩
    · rw [he] at hran
      cases hran
    · rw [he, (serve_spec _ cpuId caller ctx frame syscall' spec capabilityUsed).1] at hran
      cases hran
      obtain ⟨taskId, htask, hcaller⟩ := Option.bind_eq_some_iff.mp hadm.identified
      obtain ⟨pid, hpid, rfl⟩ := Option.map_eq_some_iff.mp hcaller
      exact ⟨spec, _, capabilityUsed, hadm, ⟨htask, ProcessTable.getPidByTaskId_live hpid⟩, rfl⟩
  · obtain ⟨⟨k', frame', result⟩, hrun⟩ : ∃ r,
      (k.countEntry (some caller)).runHandler caller ctx frame syscall = r := ⟨_, rfl⟩
    have hserve : k.dispatch cpuId ctx frame = _ := hadm.dispatch_eq
    have hran := (serve_spec (k.countEntry (some caller)) cpuId caller ctx frame syscall spec
      capabilityUsed).1
    rw [← hserve, hrun] at hran
    rw [serve, hrun, SyscallNumber.toRaw_of_fromRaw hadm.decodes] at hserve
    refine ⟨k', frame', result, hrun, hran, _, rfl, fun hkind ↦ ?_, fun hexit hreturn ↦ ?_⟩
    · rw [hserve]
      exact if_neg fun hother ↦ hkind.elim hother.1 hother.2
    · rw [hserve]
      exact if_pos ⟨hexit, hreturn⟩
  · rcases dispatch_cases k cpuId ctx frame with ⟨_, _, _, he, -⟩ |
      ⟨syscall', spec, caller, capabilityUsed, hadm, he⟩
    · rw [he]
      exact ⟨rfl, _, rfl⟩
    · rw [he, (serve_spec _ cpuId caller ctx frame syscall' spec capabilityUsed).1] at hran
      cases hran

end BraneKernel.Kernel
