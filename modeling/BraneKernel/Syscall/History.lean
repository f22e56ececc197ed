import BraneKernel.Audit.History
import BraneKernel.Security.History
import BraneKernel.Syscall.Identity
import BraneKernel.Syscall.Signals

namespace BraneKernel

open Security

def AuthorizationRule.requirements : AuthorizationRule → List CapabilityRequirement
  | .capability r | .selfOrCapability r | .selfOrChildOrCapability r => [r]
  | .dualCapability first second => [first, second]
  | _ => []

namespace Kernel

variable {k k' : Kernel} {cpuId : ℕ} {ctx : SyscallContext} {frame : UserContext}
  {syscall : SyscallNumber} {caller : CallerContext} {r : CapabilityRequirement}

/-- An event of the kernel, or a record that another part of it makes. -/
inductive AuditStep : Kernel → Event ⊕ AuditRecord → Kernel → Prop
  | event {k k' : Kernel} {e : Event} : k.Step e k' → AuditStep k (.inl e) k'
  | record {k : Kernel} (r : AuditRecord) :
    AuditStep k (.inr r) { k with audit := k.audit.record r }

def records : Event ⊕ AuditRecord → Bool
  | .inl (.syscall ..) | .inr _ => true
  | _ => false

theorem audit_step {e : Event ⊕ AuditRecord} (h : AuditStep k e k') :
    (records e = true ∧ ∃ r, k'.audit = k.audit.record r) ∨
      (records e = false ∧ k'.audit = k.audit) := by
  cases h with
  | record r => exact .inl ⟨rfl, r, rfl⟩
  | @event _ e h =>
    cases e with
    | syscall cpuId ctx frame =>
      cases h
      obtain ⟨tick, origin, auditClass, used, haudit⟩ := dispatch_audit k cpuId ctx frame
      exact .inl ⟨rfl, ⟨tick, origin, _, used, _⟩, haudit⟩
    | create =>
      obtain ⟨_, -, rfl⟩ := Option.map_eq_some_iff.mp h
      exact .inr ⟨rfl, rfl⟩
    | _ =>
      cases h
      exact .inr ⟨rfl, rfl⟩

theorem keeps_run {es : List (Event ⊕ AuditRecord)} (h : Trace.Run AuditStep k es k')
    {rs : List AuditRecord} (hkeeps : k.audit.Keeps rs) :
    ∃ more : List AuditRecord, more.length = es.countP records ∧ k'.audit.Keeps (rs ++ more) := by
  refine h.history (I := fun es k ↦ ∃ more : List AuditRecord,
    more.length = es.countP records ∧ k.audit.Keeps (rs ++ more)) ⟨[], rfl, by simpa⟩ ?_
  rintro es k e k' ⟨more, hlength, hk⟩ hstep
  rcases audit_step hstep with ⟨he, r, hr⟩ | ⟨he, hr⟩
  · refine ⟨more ++ [r], by simp [he, hlength], ?_⟩
    rw [hr, ← List.append_assoc]
    exact hk.record r
  · exact ⟨more, by simp [he, hlength], hr ▸ hk⟩

/-- A syscall is found in the audit log, behind the later records, until as many have
come as the log holds. Its number counts the records before it, modulo `2 ^ 64`. -/
theorem syscall_stays_audited {k₀ k₁ k₂ : Kernel} {es₁ es₂ : List (Event ⊕ AuditRecord)}
    (h₀ : k₀.audit = .new) (h₁ : Trace.Run AuditStep k₀ es₁ k₁) (cpuId : ℕ)
    (ctx : SyscallContext) (frame : UserContext)
    (h₂ : Trace.Run AuditStep (k₁.dispatch cpuId ctx frame).kernel es₂ k₂)
    (hlate : es₂.countP records < auditLogSize) :
    ∃ e, (k₂.audit.lastN auditLogSize)[es₂.countP records]? = some e ∧
      e.seq = BitVec.ofNat 64 (es₁.countP records + 1) ∧
      (∃ auditClass, e.action = .syscallCompleted ctx.number auditClass) ∧
      e.result = auditResult (k₁.dispatch cpuId ctx frame).answer := by
  obtain ⟨before, hbefore, hkeeps⟩ := keeps_run h₁ (h₀ ▸ AuditLog.keeps_new)
  obtain ⟨tick, origin, auditClass, used, haudit⟩ := dispatch_audit k₁ cpuId ctx frame
  let r : AuditRecord := ⟨tick, origin, .syscallCompleted ctx.number auditClass, used,
    auditResult (k₁.dispatch cpuId ctx frame).answer⟩
  have hdispatched : (k₁.dispatch cpuId ctx frame).kernel.audit.Keeps (before ++ [r]) := by
    rw [haudit]
    exact hkeeps.record r
  obtain ⟨after, hafter, hlast⟩ := keeps_run h₂ hdispatched
  refine ⟨r.event (BitVec.ofNat 64 (before.length + 1)), ?_, by rw [← hbefore]; rfl, ⟨_, rfl⟩, rfl⟩
  rw [hlast.lastN_eq, AuditLog.take_reverse_kept, Nat.min_self, List.getElem?_take_of_lt hlate,
    ← hafter, List.getElem?_reverse (by simp [AuditRecord.length_history]; omega)]
  simp [AuditRecord.history]

def asks (syscall : SyscallNumber) : SyscallContext := ⟨syscall.toRaw, 0, 0, 0, 0, 0⟩

theorem syscall_stays_audited_pid :
    let k₁ := (twoUsers.dispatch 0 (asks .getTime) .empty).kernel
    let k₂ := ((k₁.dispatch 0 (asks .getPid) .empty).kernel.dispatch 0 (asks .getTime) .empty).kernel
    ∃ e, (k₂.audit.lastN auditLogSize)[1]? = some e ∧ e.seq = 2 ∧
      e.result = auditResult (k₁.dispatch 0 (asks .getPid) .empty).answer := by
  intro k₁ k₂
  have hbefore : Trace.Run AuditStep twoUsers [.inl (.syscall 0 (asks .getTime) .empty)] k₁ :=
    .snoc .nil (.event rfl)
  have hafter : Trace.Run AuditStep (k₁.dispatch 0 (asks .getPid) .empty).kernel
      [.inl (.syscall 0 (asks .getTime) .empty)] k₂ := .snoc .nil (.event rfl)
  obtain ⟨e, hlast, hseq, -, hresult⟩ :=
    syscall_stays_audited rfl hbefore 0 (asks .getPid) .empty hafter (by decide)
  exact ⟨e, hlast, hseq, hresult⟩

theorem capabilities_dispatch (k : Kernel) (cpuId : ℕ) (ctx : SyscallContext)
    (frame : UserContext) : (k.dispatch cpuId ctx frame).kernel.capabilities = k.capabilities := by
  have hcount (entry : Option CallerContext) :
      (k.countEntry entry).capabilities = k.capabilities := by cases entry <;> rfl
  rcases dispatch_cases k cpuId ctx frame with ⟨_, _, _, he, -⟩ | ⟨syscall, _, caller, _, -, he⟩
  · rw [he]
    exact hcount _
  · have heffect := runHandler_effect (k.countEntry (some caller)) caller ctx frame syscall
    rw [he, serve]
    generalize (k.countEntry (some caller)).runHandler caller ctx frame syscall = r at heffect
    have hrun : r.1.capabilities = k.capabilities := by cases heffect <;> exact hcount (some caller)
    dsimp only
    split_ifs
    · rw [deliverSignal]
      split <;> exact hrun
    · exact hrun

/-- A call on the capability manager, or any event of the kernel that is not one. -/
inductive CapabilityStep : Kernel → Option (Call × Reply) → Kernel → Prop
  | call {k : Kernel} {e : Call × Reply} {m : CapabilityManager} :
    CallStep k.capabilities e m → CapabilityStep k (some e) { k with capabilities := m }
  | event {k k' : Kernel} {e : Event ⊕ AuditRecord} (h : AuditStep k e k')
      (hown : ∀ s m, e = .inl (.environment s m) → m = k.capabilities) : CapabilityStep k none k'

theorem capabilities_step {e : Event ⊕ AuditRecord} (h : AuditStep k e k')
    (hown : ∀ s m, e = .inl (.environment s m) → m = k.capabilities) :
    k'.capabilities = k.capabilities := by
  cases h with
  | record r => rfl
  | @event _ e h =>
    cases e with
    | syscall =>
      cases h
      exact capabilities_dispatch _ _ _ _
    | create =>
      obtain ⟨_, -, rfl⟩ := Option.map_eq_some_iff.mp h
      rfl
    | environment s m =>
      cases h
      exact hown s m rfl
    | _ =>
      cases h
      rfl

theorem checkCapability_of_authorize {rule : AuthorizationRule} {id : CapabilityId}
    (h : k.authorize rule caller ctx = .ok (some id)) (hr : r ∈ rule.requirements) :
    ∃ id, k.checkCapability r caller ctx = .ok id := by
  cases hcheck : k.checkCapability r caller ctx with
  | ok used => exact ⟨used, rfl⟩
  | error e =>
    cases rule with
    | dualCapability first second =>
      simp only [authorize] at h
      obtain rfl | rfl := List.mem_pair.mp hr
      · simp [hcheck] at h
      · split at h <;> simp [hcheck, Except.map] at h
    | capability =>
      obtain rfl := List.mem_singleton.mp hr
      simp [authorize, hcheck, Except.map] at h
    | selfOrCapability | selfOrChildOrCapability =>
      obtain rfl := List.mem_singleton.mp hr
      simp only [authorize, hcheck, Except.map] at h
      split_ifs at h
      cases h
    | _ => cases hr

/-- A capability that was granted to the caller's task, and not revoked since, meets the
requirement. -/
def Meets (k : Kernel) (calls : List (Call × Reply)) (caller : CallerContext)
    (ctx : SyscallContext) (r : CapabilityRequirement) : Prop :=
  ∃ cap, k.resolveCapabilityScope r caller ctx = .ok cap.scope ∧ InForce calls cap ∧
    cap.owner = caller.taskId ∧
    ∀ i, (capabilityBits r.permission).getLsbD i = true → cap.permissions.getLsbD i = true

theorem Admitted.meets {calls : List (Call × Reply)} (h : Agrees calls k.capabilities)
    {spec : SyscallSpec} {id : CapabilityId}
    (hadm : k.Admitted cpuId ctx syscall spec caller (some id))
    (hr : r ∈ spec.authorization.requirements) : k.Meets calls caller ctx r := by
  obtain ⟨used, hcheck⟩ := checkCapability_of_authorize hadm.authorized hr
  simp only [checkCapability] at hcheck
  split at hcheck
  · cases hcheck
  · next scope hscope =>
    have hok : ∃ id, k.capabilities.check caller.taskId (capabilityBits r.permission) scope =
        .ok id := by
      split at hcheck
      · exact ⟨_, ‹_›⟩
      · cases hcheck
    obtain ⟨cap, hmem, howner, rfl, hbits⟩ := (k.capabilities.check_ok_iff _ _ _).mp hok
    exact ⟨cap, hscope, (h.occupied cap).mp hmem, howner, hbits⟩

/-- A handler that runs on the strength of capabilities has every one that its rule asks
for, granted to the caller's task and not revoked. -/
theorem capabilities_used_in_force {k₀ : Kernel} {es : List (Option (Call × Reply))}
    (h₀ : k₀.capabilities = .new) (h : Trace.Run CapabilityStep k₀ es k) {result : SyscallResult}
    (hran : (k.dispatch cpuId ctx frame).ran = some (syscall, result)) :
    ∃ spec caller used, k.Admitted cpuId ctx syscall spec caller used ∧
      (used ≠ none → ∀ r ∈ spec.authorization.requirements,
        k.Meets es.reduceOption caller ctx r) := by
  have hagrees : Agrees es.reduceOption k.capabilities := by
    refine h.history (I := fun es k ↦ Agrees es.reduceOption k.capabilities)
      (h₀ ▸ agrees_new) ?_
    intro es k e k' ha hstep
    cases hstep with
    | call hcall => simpa [List.reduceOption, List.filterMap_append] using ha.step hcall
    | event hevent hown =>
      rw [capabilities_step hevent hown]
      simpa [List.reduceOption, List.filterMap_append] using ha
  rcases dispatch_cases k cpuId ctx frame with
    ⟨_, _, _, he, -⟩ | ⟨syscall', spec, caller, used, hadm, he⟩
  · rw [he] at hran
    cases hran
  · rw [he, (serve_spec _ cpuId caller ctx frame syscall' spec used).1] at hran
    cases hran
    refine ⟨spec, caller, used, hadm, fun hused r hr ↦ ?_⟩
    obtain ⟨id, rfl⟩ := Option.ne_none_iff_exists'.mp hused
    exact hadm.meets hagrees hr

def writeGrant : Capability := ⟨1, 1, .service 1, CapPermissions.write, .low, true⟩

def writeCall : SyscallContext := ⟨SyscallNumber.write.toRaw, 1, 0, 0, 0, 0⟩

theorem capabilities_used_in_force_write : ∃ k,
    Trace.Run CapabilityStep twoUsers [some (granting writeGrant)] k ∧
    (k.dispatch 0 writeCall .empty).ran = some (.write, .ok 0) ∧
    ∃ spec caller used, k.Admitted 0 writeCall .write spec caller used := by
  let k : Kernel :=
    { twoUsers with
      capabilities := ⟨some writeGrant :: List.replicate 255 none, 2,
        congrArg (· + 1) List.length_replicate⟩ }
  have hrun : Trace.Run CapabilityStep twoUsers [some (granting writeGrant)] k :=
    .snoc .nil (.call rfl)
  have hran : (k.dispatch 0 writeCall .empty).ran = some (.write, .ok 0) := by decide +kernel
  obtain ⟨spec, caller, used, hadm, -⟩ := capabilities_used_in_force rfl hrun hran
  exact ⟨k, hrun, hran, spec, caller, used, hadm⟩

end Kernel

end BraneKernel
