import BraneKernel.Ai
import BraneKernel.Lib.Trace

namespace BraneKernel

namespace AiEngine

inductive AiOp
  | setMode (mode : AiMode)
  | setActuationCap (cap : CapabilityId)
  | observe (now : AiMoment) (o : Observation)

def AiOp.action : AiOp → Option AiAction
  | .observe _ o => o.action
  | _ => none

def perform (s : AiEngine × AuditLog) : AiOp → Option (AiEngine × AuditLog)
  | .setMode mode => some (s.1.setMode mode, s.2)
  | .setActuationCap cap => some (s.1.setActuationCap cap, s.2)
  | .observe now o => (s.1.observe s.2 now o).map Prod.fst

def Step (s : AiEngine × AuditLog) (op : AiOp) (s' : AiEngine × AuditLog) : Prop :=
  perform s op = some s'

/-- Alerts are raised where the engine may act only after a capability was bound. -/
def admits (s : AiEngine × AuditLog) (op : AiOp) : Prop :=
  op.action = some .alertUser → s.1.mode = .actRestricted → s.1.actuationCap.isSome = true

def authorised (r : AuditRecord) : Bool := r.action == .aiActionAuthorized 0

def refused (r : AuditRecord) : Bool := r.action == .aiActionDenied 0

structure Quiet (s s' : AiEngine × AuditLog) : Prop where
  executed : s'.1.totalActionsExecuted = s.1.totalActionsExecuted
  denied : s'.1.totalActionsDenied = s.1.totalActionsDenied
  log : s'.2 = s.2

structure Executes (s s' : AiEngine × AuditLog) (r : AuditRecord) : Prop where
  executed : s'.1.totalActionsExecuted.toNat = s.1.totalActionsExecuted.toNat + 1
  denied : s'.1.totalActionsDenied = s.1.totalActionsDenied
  log : s'.2 = s.2.record r
  authorised : authorised r = true
  capability : r.capabilityUsed = s.1.actuationCap

structure Denies (s s' : AiEngine × AuditLog) (r : AuditRecord) : Prop where
  executed : s'.1.totalActionsExecuted = s.1.totalActionsExecuted
  denied : s'.1.totalActionsDenied.toNat = s.1.totalActionsDenied.toNat + 1
  log : s'.2 = s.2.record r
  refused : refused r = true

inductive Effect (s : AiEngine × AuditLog) (op : AiOp) (s' : AiEngine × AuditLog) : Prop
  | quiet : Quiet s s' →
      (s.1.mode = .actRestricted → op.action = none ∨ op.action = some .none) → Effect s op s'
  | executes {r : AuditRecord} : s.1.mode = .actRestricted → op.action = some .alertUser →
      Executes s s' r → Effect s op s'
  | denies {r : AuditRecord} : s.1.mode = .actRestricted → Denies s s' r → Effect s op s'

variable {s s' : AiEngine × AuditLog} {op : AiOp}

theorem tryExecute_cases {e : AiEngine} {log : AuditLog} {now : AiMoment} {action : AiAction}
    (h : e.tryExecute log now action = some s') :
    (action = .none ∧ s' = (e, log)) ∨
    (action = .alertUser ∧
      Executes (e, log) s' (e.auditRecord now (.aiActionAuthorized 0) .success)) ∨
    Denies (e, log) s' (e.auditRecord now (.aiActionDenied 0) .denied) := by
  cases action with
  | none =>
    cases h
    exact .inl ⟨rfl, rfl⟩
  | alertUser =>
    obtain ⟨executed, hnext, rfl⟩ := Option.map_eq_some_iff.mp h
    exact .inr (.inl ⟨rfl, checkedSucc_toNat hnext, rfl, rfl, rfl, rfl⟩)
  | _ =>
    obtain ⟨denied, hnext, rfl⟩ := Option.map_eq_some_iff.mp h
    exact .inr (.inr ⟨rfl, checkedSucc_toNat hnext, rfl, rfl⟩)

theorem observe_effect {now : AiMoment} {o : Observation} {id : U64}
    (h : s.1.observe s.2 now o = some (s', id)) : Effect s (.observe now o) s' := by
  unfold observe at h
  split at h
  · next hoff =>
    cases h
    exact .quiet ⟨rfl, rfl, rfl⟩ fun hact ↦ absurd (hoff.symm.trans hact) (by decide)
  obtain ⟨noted, hnote, h⟩ := Option.bind_eq_some_iff.mp h
  obtain ⟨-, hcap, hexecuted, hdenied⟩ := note_keeps hnote
  split at h
  · next hact =>
    split at h
    · next action haction =>
      obtain ⟨s₁, htry, hs⟩ := Option.map_eq_some_iff.mp h
      cases hs
      -- the action is tried on the engine that has noted it, with the same counts
      rcases tryExecute_cases htry with ⟨rfl, rfl⟩ | ⟨rfl, hex⟩ | hden
      · exact .quiet ⟨hexecuted, hdenied, rfl⟩ fun _ ↦ .inr haction
      · exact .executes hact haction ⟨hexecuted ▸ hex.executed, hex.denied.trans hdenied, hex.log,
          hex.authorised, hcap⟩
      · exact .denies hact ⟨hden.executed.trans hexecuted, hdenied ▸ hden.denied, hden.log,
          hden.refused⟩
    · next haction =>
      cases h
      exact .quiet ⟨hexecuted, hdenied, rfl⟩ fun _ ↦ .inl haction
  · next hact =>
    cases h
    exact .quiet ⟨hexecuted, hdenied, rfl⟩ fun h ↦ absurd h hact

theorem step_effect (h : Step s op s') : Effect s op s' := by
  cases op with
  | setMode mode =>
    cases h
    exact .quiet ⟨rfl, rfl, rfl⟩ fun _ ↦ .inl rfl
  | setActuationCap cap =>
    cases h
    exact .quiet ⟨rfl, rfl, rfl⟩ fun _ ↦ .inl rfl
  | observe now o =>
    obtain ⟨⟨_, id⟩, hobserve, rfl⟩ := Option.map_eq_some_iff.mp h
    exact observe_effect hobserve

theorem record_ne (log : AuditLog) (r : AuditRecord) : log.record r ≠ log := by
  intro h
  have htotal : log.totalEvents + 1 = log.totalEvents := congrArg AuditLog.totalEvents h
  bv_omega

theorem action_eq_of_record_eq {log : AuditLog} {r r' : AuditRecord}
    (h : log.record r = log.record r') : r.action = r'.action := by
  have hlast : [r.event log.nextSeq] = [r'.event log.nextSeq] :=
    ((log.lastN_one_recordAt _ _ _ _ _).symm.trans (congrArg (AuditLog.lastN · 1) h)).trans
      (log.lastN_one_recordAt _ _ _ _ _)
  exact congrArg AuditEvent.action (List.cons.inj hlast).1

/-- Where `p` holds every alert was admitted. -/
structure Audited (p : Prop) (rs₀ rs : List AuditRecord) (s : AiEngine × AuditLog) : Prop where
  keeps : s.2.Keeps (rs₀ ++ rs)
  executed : s.1.totalActionsExecuted.toNat = rs.countP authorised
  denied : s.1.totalActionsDenied.toNat = rs.countP refused
  bound : p → ∀ r ∈ rs, authorised r = true → r.capabilityUsed.isSome = true

namespace Audited

variable {p : Prop} {rs₀ rs : List AuditRecord}

section

variable (h : Audited p rs₀ rs s)
include h

theorem quiet (hs : Quiet s s') : Audited p rs₀ rs s' where
  keeps := hs.log ▸ h.keeps
  executed := hs.executed ▸ h.executed
  denied := hs.denied ▸ h.denied
  bound := h.bound

variable {r : AuditRecord}

theorem recorded (hlog : s'.2 = s.2.record r)
    (hexecuted : s'.1.totalActionsExecuted.toNat =
      s.1.totalActionsExecuted.toNat + if authorised r then 1 else 0)
    (hdenied : s'.1.totalActionsDenied.toNat =
      s.1.totalActionsDenied.toNat + if refused r then 1 else 0)
    (hbound : p → authorised r = true → r.capabilityUsed.isSome = true) :
    Audited p rs₀ (rs ++ [r]) s' where
  keeps := by
    rw [hlog, ← List.append_assoc]
    exact h.keeps.record r
  executed := by rw [hexecuted, h.executed, List.countP_append, List.countP_singleton]
  denied := by rw [hdenied, h.denied, List.countP_append, List.countP_singleton]
  bound hp r' hr' hauth := by
    rcases List.mem_append.mp hr' with hr' | hr'
    · exact h.bound hp r' hr' hauth
    · obtain rfl := List.mem_singleton.mp hr'
      exact hbound hp hauth

theorem executes (hs : Executes s s' r) (hcap : p → s.1.actuationCap.isSome = true) :
    Audited p rs₀ (rs ++ [r]) s' := by
  have hrefused : refused r = false := by
    rw [refused, beq_iff_eq.mp hs.authorised]
    rfl
  refine h.recorded hs.log ?_ ?_ fun hp _ ↦ hs.capability ▸ hcap hp
  · rw [hs.executed, if_pos hs.authorised]
  · rw [hs.denied, hrefused, if_neg Bool.false_ne_true, Nat.add_zero]

theorem denies (hs : Denies s s' r) : Audited p rs₀ (rs ++ [r]) s' := by
  have hauth : authorised r = false := by
    rw [authorised, beq_iff_eq.mp hs.refused]
    rfl
  refine h.recorded hs.log ?_ ?_ fun _ hauth' ↦ ?_
  · rw [hs.executed, hauth, if_neg Bool.false_ne_true, Nat.add_zero]
  · rw [hs.denied, if_pos hs.refused]
  · exact absurd (hauth.symm.trans hauth') Bool.false_ne_true

theorem step (hok : p → admits s op) (hstep : Step s op s') : ∃ rs', Audited p rs₀ rs' s' := by
  cases step_effect hstep with
  | quiet hs _ => exact ⟨rs, h.quiet hs⟩
  | executes hact haction hs => exact ⟨_, h.executes hs fun hp ↦ hok hp haction hact⟩
  | denies _ hs => exact ⟨_, h.denies hs⟩

end

end Audited

theorem audited_of_run {p : Prop} {step : AiEngine × AuditLog → AiOp → AiEngine × AuditLog → Prop}
    (hstep : ∀ s op s', step s op s' → (p → admits s op) ∧ Step s op s') {log : AuditLog}
    {rs₀ : List AuditRecord} {es : List AiOp} (hlog : log.Keeps rs₀)
    (h : Trace.Run step (new, log) es s) : ∃ rs, Audited p rs₀ rs s := by
  refine h.invariant (I := fun s ↦ ∃ rs, Audited p rs₀ rs s) ⟨[], ?_⟩ fun _ _ _ ht he ↦ ?_
  · exact ⟨by rwa [List.append_nil], rfl, rfl, by simp⟩
  · obtain ⟨rs, hrs⟩ := ht
    exact hrs.step (hstep _ _ _ he).1 (hstep _ _ _ he).2

/-- Actions are executed or denied where the engine may act and nowhere else, each counted
and audited once. If no alert comes there before a capability is bound, what was executed
carries a capability. -/
theorem actuation_gated {log : AuditLog} {rs₀ : List AuditRecord} {es : List AiOp}
    (hlog : log.Keeps rs₀) (h : Trace.Run Step (new, log) es s) :
    (∃ rs, s.2.Keeps (rs₀ ++ rs) ∧ s.1.totalActionsExecuted.toNat = rs.countP authorised ∧
      s.1.totalActionsDenied.toNat = rs.countP refused ∧
      (Trace.Run (Trace.Guarded admits Step) (new, log) es s →
        ∀ r ∈ rs, authorised r = true → r.capabilityUsed.isSome = true)) ∧
    ∀ op s', Step s op s' →
      ((s'.1.totalActionsExecuted ≠ s.1.totalActionsExecuted ∨
          ∃ r, s'.2 = s.2.record r ∧ authorised r = true) →
        s.1.mode = .actRestricted ∧ (admits s op → s.1.actuationCap.isSome = true)) ∧
      (s.1.mode ≠ .actRestricted → Quiet s s') ∧
      ∀ action, op.action = some action → action ≠ .none → s.1.mode = .actRestricted →
        ∃ r, Executes s s' r ∨ Denies s s' r := by
  have haudited : ∃ rs,
      Audited (Trace.Run (Trace.Guarded admits Step) (new, log) es s) rs₀ rs s := by
    by_cases hguarded : Trace.Run (Trace.Guarded admits Step) (new, log) es s
    · exact audited_of_run (fun _ _ _ he ↦ ⟨fun _ ↦ he.1, he.2⟩) hlog hguarded
    · obtain ⟨rs, hrs⟩ := audited_of_run (fun _ _ _ he ↦ ⟨False.elim, he⟩) hlog h
      exact ⟨rs, hrs.keeps, hrs.executed, hrs.denied, fun hg ↦ absurd hg hguarded⟩
  obtain ⟨rs, hrs⟩ := haudited
  refine ⟨⟨rs, hrs.keeps, hrs.executed, hrs.denied, hrs.bound⟩, fun op s' hstep ↦ ?_⟩
  cases step_effect hstep with
  | quiet hs hnone =>
    refine ⟨?_, fun _ ↦ hs, fun action haction hne hact ↦ ?_⟩
    · rintro (hex | ⟨r, hr, -⟩)
      · exact absurd hs.executed hex
      · exact absurd (hr.symm.trans hs.log) (record_ne _ r)
    · rcases hnone hact with hnil | hnil
      · cases haction.symm.trans hnil
      · exact absurd (Option.some.inj (haction.symm.trans hnil)) hne
  | executes hact haction hs =>
    exact ⟨fun _ ↦ ⟨hact, fun hok ↦ hok haction hact⟩, fun hother ↦ absurd hact hother,
      fun _ _ _ _ ↦ ⟨_, .inl hs⟩⟩
  | denies hact hs =>
    refine ⟨?_, fun hother ↦ absurd hact hother, fun _ _ _ _ ↦ ⟨_, .inr hs⟩⟩
    rintro (hex | ⟨r, hr, hauth⟩)
    · exact absurd hs.executed hex
    · have hsame := action_eq_of_record_eq (hr.symm.trans hs.log)
      rw [beq_iff_eq.mp hauth, beq_iff_eq.mp hs.refused] at hsame
      cases hsame

def alert : AiOp := .observe ⟨0, 0, 0⟩ ⟨.security, .high, "probe".toList, some .alertUser⟩

theorem actuation_gated_alert : ∃ s rs,
    Trace.Run (Trace.Guarded admits Step) (new, .new)
      [.setActuationCap 5, .setMode .actRestricted, alert] s ∧
    s.2.Keeps ([] ++ rs) ∧ rs.countP authorised = 1 ∧
    ∀ r ∈ rs, authorised r = true → r.capabilityUsed.isSome = true := by
  obtain ⟨s, hrun, hguarded, hcount⟩ : ∃ s,
      Trace.Run Step (new, .new) [.setActuationCap 5, .setMode .actRestricted, alert] s ∧
      Trace.Run (Trace.Guarded admits Step) (new, .new)
        [.setActuationCap 5, .setMode .actRestricted, alert] s ∧
      s.1.totalActionsExecuted.toNat = 1 :=
    ⟨_, .cons rfl (.cons rfl (.cons rfl .nil)),
      .cons ⟨fun h ↦ absurd h (by decide), rfl⟩ (.cons ⟨fun h ↦ absurd h (by decide), rfl⟩
        (.cons ⟨fun _ _ ↦ rfl, rfl⟩ .nil)), rfl⟩
  obtain ⟨⟨rs, hkeeps, hexecuted, -, hbound⟩, -⟩ := actuation_gated AuditLog.keeps_new hrun
  exact ⟨s, rs, hguarded, hkeeps, hexecuted.symm.trans hcount, hbound hguarded⟩

/-- An alert is executed and audited as authorised although no capability was bound. -/
theorem alert_without_capability : ∃ s s' r,
    Trace.Run Step (new, .new) [.setMode .actRestricted] s ∧ s.1.actuationCap = none ∧
    Step s alert s' ∧ s'.1.totalActionsExecuted.toNat = s.1.totalActionsExecuted.toNat + 1 ∧
    s'.2 = s.2.record r ∧ authorised r = true ∧ r.capabilityUsed = none :=
  ⟨_, _, _, .cons rfl .nil, rfl, rfl, rfl, rfl, rfl, rfl⟩

end AiEngine

end BraneKernel
