import BraneKernel.Syscall.SignalSafety

namespace BraneKernel

open ProcessTable UserContext

namespace ProcessTable

def savedOf (t : ProcessTable) (pid : Pid) : Option UserContext :=
  (t.get pid).bind (·.savedContext)

variable {t t' : ProcessTable} {pid q : Pid} {f : Process → Process}

theorem savedOf_modify (hf : ∀ p, (f p).pid = p.pid) (hs : ∀ p, (f p).savedContext = p.savedContext) :
    (t.modify q f).savedOf pid = t.savedOf pid := by
  unfold savedOf
  by_cases hq : pid = q
  · subst hq
    simp [get_modify hf, Option.bind_map, hs]
  · rw [get_modify_ne hf hq]

theorem savedOf_modify_ne (hf : ∀ p, (f p).pid = p.pid) (hq : pid ≠ q) :
    (t.modify q f).savedOf pid = t.savedOf pid := by
  rw [savedOf, get_modify_ne hf hq, savedOf]

variable {ctx : Option UserContext}

theorem savedOf_set (hf : ∀ p, (f p).pid = p.pid) (hs : ∀ p, (f p).savedContext = ctx)
    (h : (t.get pid).isSome = true) :
    (t.modify pid f).savedOf pid = ctx := by
  obtain ⟨p, hp⟩ := Option.isSome_iff_exists.mp h
  simp [savedOf, get_modify hf, hp, hs]

theorem isSome_get_modify (hf : ∀ p, (f p).pid = p.pid) :
    ((t.modify pid f).get pid).isSome = (t.get pid).isSome := by
  rw [get_modify hf, Option.isSome_map]

theorem holds_modify (hf : ∀ p, (f p).pid = p.pid) (hs : ∀ p, (f p).savedContext = p.savedContext)
    (h : t.savedOf pid = ctx ∧ (t.get pid).isSome = true) :
    (t.modify pid f).savedOf pid = ctx ∧ ((t.modify pid f).get pid).isSome = true :=
  ⟨(savedOf_modify hf hs).trans h.1, (isSome_get_modify hf).trans h.2⟩

def PidsBelow (t : ProcessTable) : Prop :=
  ∀ p, some p ∈ t.processes → p.pid.toNat < t.nextPid.toNat

theorem PidsBelow.modify (h : t.PidsBelow) (hf : ∀ p, (f p).pid = p.pid) :
    (t.modify q f).PidsBelow :=
  forall_modify h fun p _ hp ↦ (hf p).symm ▸ hp

theorem PidsBelow.create {name : List (BitVec 8)} {parent : Option Pid} {task : TaskId}
    (h : t.PidsBelow) (hins : Slots.insert (t.newProcess name parent task) t.processes =
      some t'.processes) (hnext : checkedSucc t.nextPid = some t'.nextPid) : t'.PidsBelow :=
  below_create h hins hnext

theorem PidsBelow.modify_saved (hf : ∀ p, (f p).pid = p.pid)
    (hs : ∀ p, (f p).savedContext = p.savedContext) (h : t.PidsBelow ∧ t.savedOf pid = ctx) :
    (t.modify q f).PidsBelow ∧ (t.modify q f).savedOf pid = ctx :=
  ⟨h.1.modify hf, (savedOf_modify hf hs).trans h.2⟩

theorem savedOf_create {name : List (BitVec 8)} {parent : Option Pid} {task : TaskId}
    (h : t.PidsBelow) (hins : Slots.insert (t.newProcess name parent task) t.processes =
      some t'.processes) : t'.savedOf pid = t.savedOf pid := by
  by_cases hpid : pid = t.nextPid
  · rw [hpid, savedOf, get_create h hins, savedOf, get_nextPid h]
    rfl
  · rw [savedOf, get_create_ne hins hpid, savedOf]

end ProcessTable

namespace Kernel

variable {k k' : Kernel} {cpuId : ℕ} {ctx : SyscallContext} {frame : UserContext}
  {who : CallerContext} {pid : Pid}

theorem savedOf_updated {t t' : ProcessTable} {caller : Pid} (h : Updated caller frame t t')
    (hne : pid ≠ caller) : t'.savedOf pid = t.savedOf pid := by
  refine h.invariant (P := fun u ↦ u.savedOf pid = t.savedOf pid) rfl fun u q f hu ih ↦ ?_
  rw [← ih]
  cases hu with
  | pend q sig => exact savedOf_modify (fun _ ↦ rfl) fun _ ↦ rfl
  | _ => exact savedOf_modify_ne (fun _ ↦ rfl) hne

theorem handleSigreturn_saved (k : Kernel) (who : CallerContext) (frame : UserContext) :
    (k.handleSigreturn who frame).1.processes.savedOf who.pid = none := by
  unfold handleSigreturn
  cases hget : k.processes.get who.pid with
  | none => simp [savedOf, hget]
  | some proc =>
    dsimp only
    cases hsaved : proc.savedContext with
    | none => simp [savedOf, hget, hsaved]
    | some saved =>
      exact savedOf_set (fun _ ↦ rfl) (fun _ ↦ rfl) (by rw [hget]; rfl)

theorem runHandler_saved (k : Kernel) (who : CallerContext) (ctx : SyscallContext)
    (frame : UserContext) {syscall : SyscallNumber} (h : syscall ≠ .sigReturn) :
    (k.runHandler who ctx frame syscall).1.processes.savedOf pid = k.processes.savedOf pid := by
  have he := runHandler_effect k who ctx frame syscall
  generalize k.runHandler who ctx frame syscall = r at he
  cases he with
  | keep | yield | sigAction => rfl
  | kill | sigProcMask => exact savedOf_modify (fun _ ↦ rfl) fun _ ↦ rfl
  | sigReturn => exact absurd rfl h

theorem runHandler_get (k : Kernel) (who : CallerContext) (ctx : SyscallContext)
    (frame : UserContext) (syscall : SyscallNumber) (h : (k.processes.get pid).isSome = true) :
    ((k.runHandler who ctx frame syscall).1.processes.get pid).isSome = true := by
  refine (runHandler_updated k who ctx frame syscall .refl).invariant
    (P := fun t ↦ (t.get pid).isSome = true) h fun t q f hu ht ↦ ?_
  have hf := fun p ↦ (hu.keeps p).1
  by_cases hq : pid = q
  · subst hq
    rwa [isSome_get_modify hf]
  · rwa [get_modify_ne hf hq]

theorem deliverSignal_saved (k : Kernel) (who : CallerContext) (frame : UserContext)
    (ran : SyscallNumber × SyscallResult) (hget : (k.processes.get who.pid).isSome = true) :
    (k.deliverSignal who frame ran).kernel.processes.savedOf who.pid =
      match (k.deliverSignal who frame ran).delivered with
      | some _ => some { frame with rax := ran.2.toRaw }
      | none => k.processes.savedOf who.pid := by
  obtain ⟨hsaved, hget'⟩ := k.signals.deliverPending_invariant k.processes who.pid
    (P := fun t ↦ t.savedOf who.pid = k.processes.savedOf who.pid ∧ (t.get who.pid).isSome = true)
    ⟨rfl, hget⟩
    (fun t sig ht ↦ by
      dsimp only [SignalManager.clearPending]
      exact holds_modify (fun _ ↦ rfl) (fun _ ↦ rfl) ht)
    (fun t code ht ↦ by
      dsimp only [terminate]
      exact holds_modify (fun _ ↦ rfl) (fun _ ↦ rfl) ht)
  unfold deliverSignal
  split
  · next hd =>
    rw [hd] at hget'
    exact savedOf_set (fun _ ↦ rfl) (fun _ ↦ rfl) hget'
  · next hd =>
    rw [hd] at hsaved
    exact hsaved

/-- The contexts of a process that deliveries have interrupted and no `sigReturn`
has restored yet, innermost first, after one more event. -/
def stackAfter (pid : Pid) (k : Kernel) (stack : List UserContext) : Event → List UserContext
  | .syscall cpuId ctx frame =>
    if (k.captureCallerContextForCpu cpuId).map (·.pid) = some pid then
      match (k.dispatch cpuId ctx frame).ran, (k.dispatch cpuId ctx frame).delivered with
      | some (_, result), some _ => { frame with rax := result.toRaw } :: stack
      | some (.sigReturn, _), none => stack.tail
      | _, _ => stack
    else stack
  | _ => stack

def nestedNext (pid : Pid) (s : Kernel × List UserContext) (e : Event) :
    Option (Kernel × List UserContext) :=
  (s.1.next e).map fun k ↦ (k, stackAfter pid s.1 s.2 e)

def NestedStep (pid : Pid) (s : Kernel × List UserContext) (e : Event)
    (s' : Kernel × List UserContext) : Prop := nestedNext pid s e = some s'

/-- The next `sigReturn` of the process restores the innermost interrupted context,
with the result of the interrupted syscall. -/
def Restores (pid : Pid) (s : Kernel × List UserContext) : Prop :=
  ∀ cpuId ctx frame who top rest, s.1.captureCallerContextForCpu cpuId = some who → who.pid = pid →
    SyscallNumber.fromRaw ctx.number = some .sigReturn → s.2 = top :: rest →
    (s.1.dispatch cpuId ctx frame).frame = top ∧ (s.1.dispatch cpuId ctx frame).result = .ok top.rax

def NoReentry (pid : Pid) (s : Kernel × List UserContext) : Event → Prop
  | .syscall cpuId ctx frame =>
    (s.1.captureCallerContextForCpu cpuId).map (·.pid) = some pid →
      (s.1.processes.savedOf pid).isSome = true → (s.1.dispatch cpuId ctx frame).delivered = none
  | _ => True

structure Tracks (pid : Pid) (s : Kernel × List UserContext) : Prop where
  below : s.1.processes.PidsBelow
  stack : s.2 = (s.1.processes.savedOf pid).toList

theorem countEntry_saved (k : Kernel) (entry : Option CallerContext) :
    (k.countEntry entry).processes.savedOf pid = k.processes.savedOf pid := by
  cases entry with
  | none => rfl
  | some who => exact savedOf_modify (fun _ ↦ rfl) fun _ ↦ rfl

theorem serve_saved (k : Kernel) (cpuId : ℕ) (who : CallerContext) (ctx : SyscallContext)
    (frame : UserContext) (syscall : SyscallNumber) (spec : SyscallSpec)
    (capabilityUsed : Option CapabilityId) (hget : (k.processes.get who.pid).isSome = true) :
    (k.serve cpuId who ctx frame syscall spec capabilityUsed).kernel.processes.savedOf who.pid =
      match (k.serve cpuId who ctx frame syscall spec capabilityUsed).delivered with
      | some _ => some { frame with rax := (k.runHandler who ctx frame syscall).2.2.toRaw }
      | none => if syscall = .sigReturn then none else k.processes.savedOf who.pid := by
  by_cases hret : syscall = .sigReturn
  · subst hret
    exact handleSigreturn_saved k who frame
  · by_cases hexit : syscall = .exit
    · subst hexit
      rfl
    · unfold serve
      dsimp only
      rw [if_pos ⟨hexit, hret⟩, if_neg hret, runHandler_frame _ _ _ _ hret,
        ← runHandler_saved k who ctx frame hret]
      exact deliverSignal_saved _ who frame _ (runHandler_get k who ctx frame syscall hget)

theorem dispatch_saved (h : k.captureCallerContextForCpu cpuId = some who) :
    (k.dispatch cpuId ctx frame).kernel.processes.savedOf who.pid =
      match (k.dispatch cpuId ctx frame).ran, (k.dispatch cpuId ctx frame).delivered with
      | some (_, result), some _ => some { frame with rax := result.toRaw }
      | some (.sigReturn, _), none => none
      | _, _ => k.processes.savedOf who.pid := by
  rcases dispatch_cases k cpuId ctx frame with ⟨_, _, _, he, -⟩ |
    ⟨syscall, spec, who', capabilityUsed, hadm, he⟩
  · rw [he]
    exact countEntry_saved k _
  · obtain rfl := Option.some.inj (h.symm.trans hadm.identified)
    have hget : ((k.countEntry (some who)).processes.get who.pid).isSome = true := by
      refine (isSome_get_modify ?_).trans (Option.isSome_iff_exists.mpr (captured_get h))
      exact fun _ ↦ rfl
    have hsaved := serve_saved _ cpuId who ctx frame syscall spec capabilityUsed hget
    rw [countEntry_saved] at hsaved
    rw [he, hsaved, (serve_spec _ cpuId who ctx frame syscall spec capabilityUsed).1]
    cases ((k.countEntry (some who)).serve cpuId who ctx frame syscall spec
      capabilityUsed).delivered with
    | some d => rfl
    | none =>
      by_cases hret : syscall = .sigReturn
      · subst hret
        rfl
      · simp [hret]

variable {s : Kernel × List UserContext}

theorem Tracks.restores (h : Tracks pid s) : Restores pid s := by
  rintro cpuId ctx frame who top rest hcap rfl hn hstack
  rcases dispatch_cases s.1 cpuId ctx frame with ⟨_, _, _, -, hrej⟩ |
    ⟨syscall, spec, who', capabilityUsed, hadm, he⟩
  · exact absurd ⟨hn, rfl, by decide, hcap, rfl⟩
      (hrej .sigReturn ⟨.sigReturn, .incomplete, .selfOnly, .signal, maxCopyNone⟩ who none)
  obtain rfl := Option.some.inj (hcap.symm.trans hadm.identified)
  obtain rfl := Option.some.inj (hn.symm.trans hadm.decodes)
  have hsaved : s.1.processes.savedOf who.pid = some top := by
    have htop := h.stack.symm.trans hstack
    cases hs : s.1.processes.savedOf who.pid with
    | none => simp [hs] at htop
    | some c =>
      rw [hs] at htop
      rw [(List.cons.inj htop).1]
  rw [← countEntry_saved s.1 (some who)] at hsaved
  obtain ⟨proc, hget, hctx⟩ := Option.bind_eq_some_iff.mp hsaved
  rw [he]
  simp [serve, runHandler, handleSigreturn, hget, hctx]

theorem Tracks.syscall (h : Tracks pid s) (hok : NoReentry pid s (.syscall cpuId ctx frame)) :
    stackAfter pid s.1 s.2 (.syscall cpuId ctx frame) =
      ((s.1.dispatch cpuId ctx frame).kernel.processes.savedOf pid).toList := by
  dsimp only [stackAfter]
  split_ifs with hpid
  · obtain ⟨who, hcap, rfl⟩ := Option.map_eq_some_iff.mp hpid
    rw [dispatch_saved hcap]
    split
    · next hd =>
      -- A delivery finds the slot empty, so the new context is alone on the stack.
      have hnone : s.1.processes.savedOf who.pid = none := by
        cases hs : s.1.processes.savedOf who.pid with
        | none => rfl
        | some c =>
          rw [hok hpid (by rw [hs]; rfl)] at hd
          cases hd
      rw [h.stack, hnone]
      rfl
    · rw [h.stack]
      cases s.1.processes.savedOf who.pid <;> rfl
    · exact h.stack
  · rw [h.stack]
    congr 1
    cases hcap : s.1.captureCallerContextForCpu cpuId with
    | none => rw [dispatch_anonymous hcap]
    | some who =>
      rw [hcap] at hpid
      exact (savedOf_updated (dispatch_updated hcap) fun he ↦ hpid (by rw [he]; rfl)).symm

theorem Tracks.below_step {e : Event} (h : Tracks pid s) (hk : s.1.Step e k') :
    k'.processes.PidsBelow := by
  refine table_step hk h.below ?_ ?_ ?_ ?_
  · exact fun _ _ _ _ _ _ _ _ hu ht ↦ ht.modify fun p ↦ (hu.keeps p).1
  · exact fun _ _ _ ht ↦ ht.modify fun _ ↦ rfl
  · exact fun _ _ _ _ ht ↦ ht.modify fun _ ↦ rfl
  · exact fun _ _ _ _ _ hins hnext ht ↦ ht.create hins hnext

theorem Tracks.saved_step {e : Event} (h : Tracks pid s) (hk : s.1.Step e k')
    (he : ∀ cpuId ctx frame, e ≠ .syscall cpuId ctx frame) :
    k'.processes.savedOf pid = s.1.processes.savedOf pid := by
  refine (table_step (P := fun t ↦ t.PidsBelow ∧ t.savedOf pid = s.1.processes.savedOf pid)
    hk ⟨h.below, rfl⟩ ?_ ?_ ?_ ?_).2
  · exact fun cpuId ctx frame _ _ _ _ hs ↦ absurd hs (he cpuId ctx frame)
  · exact fun _ _ _ ↦ ProcessTable.PidsBelow.modify_saved (fun _ ↦ rfl) fun _ ↦ rfl
  · exact fun _ _ _ _ ↦ ProcessTable.PidsBelow.modify_saved (fun _ ↦ rfl) fun _ ↦ rfl
  · exact fun _ _ _ _ _ hins hnext ht ↦ ⟨ht.1.create hins hnext,
      (savedOf_create ht.1 hins).trans ht.2⟩

theorem Tracks.step {s' : Kernel × List UserContext} {e : Event} (h : Tracks pid s)
    (hok : NoReentry pid s e) (hstep : NestedStep pid s e s') : Tracks pid s' := by
  obtain ⟨k', hk, rfl⟩ := Option.map_eq_some_iff.mp hstep
  refine ⟨h.below_step hk, ?_⟩
  cases e with
  | syscall cpuId ctx frame =>
    cases hk
    exact h.syscall hok
  | _ => exact h.stack.trans (congrArg _ (h.saved_step hk nofun).symm)

theorem Fresh.tracks (h : k.Fresh) (pid : Pid) : Tracks pid (k, []) where
  below p hp := absurd hp (h.no_process p)
  stack := by
    cases hget : k.processes.get pid with
    | none => simp [savedOf, hget]
    | some p => exact absurd (get_mem hget) (h.no_process p)

/-- In every run that delivers no handler to a process inside another of its
handlers, each `sigReturn` restores the context its delivery interrupted. -/
theorem frames_restored (pid : Pid) (k₀ : Kernel) (es : List Event) (s : Kernel × List UserContext)
    (h₀ : k₀.Fresh) (hrun : Trace.Run (Trace.Guarded (NoReentry pid) (NestedStep pid)) (k₀, []) es s) :
    Restores pid s :=
  (hrun.invariant (h₀.tracks pid) fun _ _ _ hs hstep ↦ hs.step hstep.1 hstep.2).restores

theorem frames_restored_once : ∃ s,
    Trace.Run (Trace.Guarded (NoReentry 1) (NestedStep 1)) (new, [])
      [.create [] none 1, .environment twoUsers.scheduling .new,
        .syscall 0 ⟨71, 10, 0x400000, 0, 0, 0⟩ .empty,
        .syscall 0 ⟨70, 1, 10, 0, 0, 0⟩ { empty with rcx := 0x1000 }] s ∧
    s.2 = [{ empty with rcx := 0x1000 }] ∧
    (s.1.dispatch 0 ⟨72, 0, 0, 0, 0, 0⟩ .empty).frame = { empty with rcx := 0x1000 } := by
  have h₁ : Trace.Run (Trace.Guarded (NoReentry 1) (NestedStep 1)) (new, []) [.create [] none 1] _ :=
    .snoc .nil (And.intro trivial rfl)
  have h₂ := h₁.snoc (And.intro (show NoReentry 1 _
    (.environment twoUsers.scheduling .new) from trivial) rfl)
  have h₃ := h₂.snoc (And.intro (show NoReentry 1 _
    (.syscall 0 ⟨71, 10, 0x400000, 0, 0, 0⟩ .empty) from fun _ _ ↦ by decide +kernel) rfl)
  have h₄ := h₃.snoc (And.intro (show NoReentry 1 _
    (.syscall 0 ⟨70, 1, 10, 0, 0, 0⟩ { empty with rcx := 0x1000 }) from
      fun _ hs ↦ absurd hs (by decide +kernel)) rfl)
  exact ⟨_, h₄, by decide +kernel, (frames_restored 1 _ _ _ ⟨rfl, rfl⟩ h₄ 0 ⟨72, 0, 0, 0, 0, 0⟩ .empty
    ⟨1, 1, 0⟩ { empty with rcx := 0x1000 } [] (by decide +kernel) rfl (by decide)
    (by decide +kernel)).1⟩

/-- A second signal arrives inside the handler of the first. The `sigReturn` of the
outer handler has nothing to restore. -/
theorem outer_frame_lost : ∃ s,
    Trace.Run (NestedStep 1) (new, [])
      [.create [] none 1, .environment twoUsers.scheduling .new,
        .syscall 0 ⟨71, 10, 0x400000, 0, 0, 0⟩ .empty,
        .syscall 0 ⟨71, 12, 0x500000, 0, 0, 0⟩ .empty,
        .syscall 0 ⟨70, 1, 10, 0, 0, 0⟩ { empty with rcx := 0x1000 },
        .syscall 0 ⟨70, 1, 12, 0, 0, 0⟩ { empty with rcx := 0x400004 },
        .syscall 0 ⟨72, 0, 0, 0, 0, 0⟩ { empty with rcx := 0x500004 }] s ∧
    s.2 = [{ empty with rcx := 0x1000 }] ∧
    (s.1.dispatch 0 ⟨72, 0, 0, 0, 0, 0⟩ .empty).result = .err .invalidArgument ∧
    ¬ Restores 1 s := by
  refine ⟨_, Trace.Run.of_foldlM rfl, by decide +kernel, by decide +kernel, fun h ↦ ?_⟩
  have hr := (h 0 ⟨72, 0, 0, 0, 0, 0⟩ .empty ⟨1, 1, 0⟩ { empty with rcx := 0x1000 } []
    (by decide +kernel) rfl (by decide) (by decide +kernel)).1
  revert hr
  decide +kernel

end Kernel

end BraneKernel
