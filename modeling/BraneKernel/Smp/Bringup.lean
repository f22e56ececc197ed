import BraneKernel.Lib.Trace
import BraneKernel.Smp.BootPlan
import Mathlib.Data.List.Nodup

namespace BraneKernel

namespace CpuBootPlan

inductive PlanOp
  | assignBsp (apicId : U32)
  | markStarting (apicId : U32)
  | markOnline (apicId : U32)
  | markFailed (apicId : U32)
  | markUnresponsive (apicId : U32)
  deriving DecidableEq

def perform (plan : CpuBootPlan) : PlanOp → CpuBootPlan × Except CpuPlanError ℕ
  | .assignBsp apicId => plan.assignBsp apicId
  | .markStarting apicId => plan.markStarting apicId
  | .markOnline apicId => plan.markOnline apicId
  | .markFailed apicId => plan.markFailed apicId
  | .markUnresponsive apicId => plan.markUnresponsive apicId

def Step (plan : CpuBootPlan) (e : PlanOp × Except CpuPlanError ℕ) (plan' : CpuBootPlan) : Prop :=
  plan.perform e.1 = (plan', e.2)

def Assigns (e : PlanOp × Except CpuPlanError ℕ) : Prop :=
  ∃ apicId index, e = (.assignBsp apicId, .ok index)

/-- The moves of one processor. Only the boot processor skips `starting`. -/
inductive Transition (bsp : Prop) : CpuLifecycle → CpuLifecycle → Prop
  | start : Transition bsp .discovered .starting
  | online : Transition bsp .starting .online
  | fail : Transition bsp .starting .failed
  | lose : Transition bsp .online .failed
  | boot : bsp → Transition bsp .discovered .online

/-- The boot processor is not chosen among those that have failed. -/
def admits (plan : CpuBootPlan) (e : PlanOp × Except CpuPlanError ℕ) : Prop :=
  match e.1 with
  | .assignBsp apicId => plan.bspIndex = none →
      ∀ cpu ∈ plan.cpus, isEnabled apicId cpu = true → cpu.lifecycle ≠ .failed
  | _ => True

variable {plan plan' : CpuBootPlan} {e : PlanOp × Except CpuPlanError ℕ} {apicId : U32} {i : ℕ}

structure Moved (plan : CpuBootPlan) (index : ℕ) (cpu : CpuDescriptor) (lifecycle : CpuLifecycle)
    (plan' : CpuBootPlan) : Prop where
  found : plan.cpus[index]? = some cpu
  enabled : cpu.enabled = true
  cpus : plan'.cpus = plan.cpus.modify index fun cpu ↦ { cpu with lifecycle := lifecycle }

variable {index : ℕ} {cpu : CpuDescriptor} {lifecycle : CpuLifecycle}
  {es : List (PlanOp × Except CpuPlanError ℕ)}

theorem findIdx_enabled (h : plan.cpus.findIdx? (isEnabled apicId) = some index) :
    ∃ cpu, plan.cpus[index]? = some cpu ∧ isEnabled apicId cpu = true := by
  obtain ⟨hlt, hcpu, -⟩ := List.findIdx?_eq_some_iff_getElem.mp h
  exact ⟨_, List.getElem?_eq_getElem hlt, hcpu⟩

theorem isEnabled_enabled (h : isEnabled apicId cpu = true) :
    cpu.enabled = true := by
  rw [isEnabled, Bool.and_eq_true] at h
  exact h.1

/-- What a call can do: fail and leave the plan as it is, move a processor along
its lifecycle, or put the first boot processor online. -/
inductive Effect (plan : CpuBootPlan) : PlanOp × Except CpuPlanError ℕ → CpuBootPlan → Prop
  | refused {op : PlanOp} {error : CpuPlanError} : Effect plan (op, .error error) plan
  | marked {op : PlanOp} {index : ℕ} {cpu : CpuDescriptor} {lifecycle : CpuLifecycle}
      {plan' : CpuBootPlan} : (∀ apicId, op ≠ .assignBsp apicId) → plan'.bspIndex = plan.bspIndex →
      Transition False cpu.lifecycle lifecycle → Moved plan index cpu lifecycle plan' →
      Effect plan (op, .ok index) plan'
  | assigned {apicId : U32} {index : ℕ} {cpu : CpuDescriptor} {plan' : CpuBootPlan} :
      plan.bspIndex = none → plan'.bspIndex = some index → isEnabled apicId cpu = true →
      Moved plan index cpu .online plan' → Effect plan (.assignBsp apicId, .ok index) plan'

theorem mark_effect {op : PlanOp} {expected : CpuLifecycle} (hop : ∀ apicId, op ≠ .assignBsp apicId)
    (ht : Transition False expected lifecycle) :
    Effect plan (op, (plan.mark apicId expected lifecycle).2)
      (plan.mark apicId expected lifecycle).1 := by
  unfold mark findEnabled
  cases hfind : plan.cpus.findIdx? (isEnabled apicId) with
  | none => exact .refused
  | some index =>
    obtain ⟨cpu, hcpu, hen⟩ := findIdx_enabled hfind
    dsimp only
    split_ifs with hstate
    · rw [hcpu, Option.map_some, Option.some_inj] at hstate
      subst hstate
      exact .marked hop rfl ht ⟨hcpu, isEnabled_enabled hen, rfl⟩
    · exact .refused

theorem assignBsp_effect :
    Effect plan (.assignBsp apicId, (plan.assignBsp apicId).2) (plan.assignBsp apicId).1 := by
  unfold assignBsp
  split_ifs with hbsp
  · exact .refused
  · rw [Bool.not_eq_true, Option.isSome_eq_false_iff, Option.isNone_iff_eq_none] at hbsp
    cases hfind : plan.cpus.findIdx? (isEnabled apicId) with
    | none => exact .refused
    | some index =>
      obtain ⟨cpu, hcpu, hen⟩ := findIdx_enabled hfind
      exact .assigned hbsp rfl hen ⟨hcpu, isEnabled_enabled hen, rfl⟩

theorem step_effect (h : Step plan e plan') : Effect plan e plan' := by
  obtain ⟨op, r⟩ := e
  obtain ⟨rfl, rfl⟩ := Prod.mk.inj (show ((plan.perform op).1, (plan.perform op).2) = _ from h)
  cases op with
  | assignBsp apicId => exact assignBsp_effect
  | markStarting apicId => exact mark_effect (by simp) .start
  | markOnline apicId => exact mark_effect (by simp) .online
  | markFailed apicId => exact mark_effect (by simp) .fail
  | markUnresponsive apicId => exact mark_effect (by simp) .lose

theorem Moved.getElem? (h : Moved plan index cpu lifecycle plan') (i : ℕ) :
    plan'.cpus[i]? = if i = index then some { cpu with lifecycle := lifecycle } else plan.cpus[i]? := by
  rw [h.cpus]
  split_ifs with hi
  · rw [hi, List.getElem?_modify_eq, h.found, Option.map_eq_map, Option.map_some]
  · rw [List.getElem?_modify_ne _ _ (Ne.symm hi)]

theorem Moved.cases {cpu' : CpuDescriptor} (h : Moved plan index cpu' lifecycle plan')
    (hi : plan.cpus[i]? = some cpu) :
    plan'.cpus[i]? = some cpu ∨
    i = index ∧ cpu = cpu' ∧ plan'.cpus[i]? = some { cpu with lifecycle := lifecycle } := by
  rw [h.getElem? i]
  split_ifs with hindex
  · subst hindex
    obtain rfl := Option.some.inj (hi.symm.trans h.found)
    exact .inr ⟨rfl, rfl, rfl⟩
  · exact .inl hi

/-- Distinct APIC ids, no enabled processor `disabled`, and at most one boot
processor assigned so far. -/
structure Sound (es : List (PlanOp × Except CpuPlanError ℕ)) (plan : CpuBootPlan) : Prop where
  distinct : (plan.cpus.map CpuDescriptor.apicId).Nodup
  disabled : ∀ cpu ∈ plan.cpus, cpu.enabled = true → cpu.lifecycle ≠ .disabled
  unassigned : plan.bspIndex = none → ∀ e ∈ es, ¬ Assigns e
  once : es.Pairwise fun e e' ↦ ¬ (Assigns e ∧ Assigns e')

theorem Sound.append {entry : CpuEntry} (h : Sound [] plan)
    (hnew : plan.cpus.any (·.apicId == entry.apicId) = false)
    (hcpus : plan'.cpus = plan.cpus ++ [describe entry]) : Sound [] plan' where
  distinct := by
    have hfresh : ∀ cpu ∈ plan.cpus, cpu.apicId ≠ entry.apicId := by simpa using hnew
    rw [hcpus, List.map_append, List.nodup_append]
    refine ⟨h.distinct, by simp, fun a ha b hb hab ↦ ?_⟩
    obtain ⟨cpu, hcpu, rfl⟩ := List.mem_map.mp ha
    obtain rfl : b = entry.apicId := by simpa [describe] using hb
    exact hfresh cpu hcpu hab
  disabled cpu hcpu hen := by
    rw [hcpus, List.mem_append, List.mem_singleton] at hcpu
    rcases hcpu with hcpu | rfl
    · exact h.disabled cpu hcpu hen
    · have hentry : entry.enabled = true := hen
      simp [describe, hentry]
  unassigned _ := by simp
  once := .nil

theorem Sound.collect {entries : List CpuEntry} (h : Sound [] plan)
    (hc : plan.collect entries = .ok plan') : Sound [] plan' := by
  induction entries generalizing plan with
  | nil => exact Except.ok.inj hc ▸ h
  | cons entry rest ih =>
    unfold CpuBootPlan.collect at hc
    split at hc
    · exact Except.ok.inj hc ▸ h
    · split at hc
      · cases hc
      · next hdup => exact ih (h.append (Bool.not_eq_true _ ▸ hdup) rfl) hc

theorem sound_fromMadt {info : MadtInfo} (h : fromMadt info = .ok plan) : Sound [] plan := by
  have hempty : Sound [] empty := ⟨List.nodup_nil, by simp [empty], by simp, .nil⟩
  unfold fromMadt at h
  split at h
  · cases h
  · next plan' hc =>
    split_ifs at h
    exact Except.ok.inj h ▸ hempty.collect hc

theorem Moved.map_apicId (h : Moved plan index cpu lifecycle plan') :
    plan'.cpus.map CpuDescriptor.apicId = plan.cpus.map CpuDescriptor.apicId := by
  apply List.ext_getElem?
  intro i
  rw [List.getElem?_map, List.getElem?_map, h.getElem? i]
  split_ifs with hi
  · rw [hi, h.found]
    rfl
  · rfl

theorem Moved.disabled (h : Moved plan index cpu lifecycle plan') (hl : lifecycle ≠ .disabled)
    (hs : ∀ cpu ∈ plan.cpus, cpu.enabled = true → cpu.lifecycle ≠ .disabled) :
    ∀ cpu ∈ plan'.cpus, cpu.enabled = true → cpu.lifecycle ≠ .disabled := by
  intro cpu' hcpu' hen
  obtain ⟨i, hi⟩ := List.mem_iff_getElem?.mp hcpu'
  rw [h.getElem? i] at hi
  split_ifs at hi
  · cases hi
    exact hl
  · exact hs cpu' (List.mem_of_getElem? hi) hen

theorem Transition.target {bsp : Prop} {l l' : CpuLifecycle} (h : Transition bsp l l') :
    l' ≠ .disabled ∧ l ≠ .disabled ∧ l ≠ .failed := by
  cases h <;> simp

theorem Transition.mono {p q : Prop} {l l' : CpuLifecycle} (h : Transition p l l') (hpq : p → q) :
    Transition q l l' := by
  cases h with
  | start => exact .start
  | online => exact .online
  | fail => exact .fail
  | lose => exact .lose
  | boot hp => exact .boot (hpq hp)

theorem Sound.step (h : Sound es plan) (hstep : Step plan e plan') : Sound (es ++ [e]) plan' := by
  have honce : (∀ e' ∈ es, ¬ (Assigns e' ∧ Assigns e)) →
      (es ++ [e]).Pairwise fun e e' ↦ ¬ (Assigns e ∧ Assigns e') := by
    intro hlast
    exact List.pairwise_append.mpr ⟨h.once, List.pairwise_singleton _ _, by simpa using hlast⟩
  have hquiet : ¬ Assigns e → plan'.bspIndex = plan.bspIndex →
      (plan'.bspIndex = none → ∀ e' ∈ es ++ [e], ¬ Assigns e') ∧
      (es ++ [e]).Pairwise fun e e' ↦ ¬ (Assigns e ∧ Assigns e') := by
    intro he hbsp
    refine ⟨fun hnone e' he' ↦ ?_, honce fun e' _ hboth ↦ he hboth.2⟩
    rw [List.mem_append, List.mem_singleton] at he'
    rcases he' with he' | rfl
    · exact h.unassigned (hbsp ▸ hnone) e' he'
    · exact he
  cases step_effect hstep with
  | refused =>
    obtain ⟨hun, hpair⟩ := hquiet (by rintro ⟨_, _, ha⟩; cases ha) rfl
    exact ⟨h.distinct, h.disabled, hun, hpair⟩
  | marked hop hbsp ht hmoved =>
    obtain ⟨hun, hpair⟩ :=
      hquiet (by rintro ⟨apicId, _, ha⟩; exact hop apicId (Prod.mk.inj ha).1) hbsp
    exact ⟨hmoved.map_apicId ▸ h.distinct, hmoved.disabled ht.target.1 h.disabled, hun, hpair⟩
  | assigned hnone hsome hen hmoved =>
    refine ⟨hmoved.map_apicId ▸ h.distinct, hmoved.disabled (by simp) h.disabled, ?_, ?_⟩
    · rw [hsome]
      exact fun hn ↦ by cases hn
    · exact honce fun e' he' hboth ↦ h.unassigned hnone e' he' hboth.1

theorem Sound.moves (h : Sound es plan) (hok : plan.admits e) (hstep : Step plan e plan')
    (hi : plan.cpus[i]? = some cpu) : plan'.cpus[i]? = some cpu ∨
      ∃ lifecycle, plan'.cpus[i]? = some { cpu with lifecycle := lifecycle } ∧
        Transition (plan'.bspIndex = some i) cpu.lifecycle lifecycle := by
  cases step_effect hstep with
  | refused => exact .inl hi
  | @marked _ index cpu' lifecycle plan' hop hbsp ht hmoved =>
    rcases hmoved.cases hi with hsame | ⟨-, rfl, hnew⟩
    · exact .inl hsame
    · exact .inr ⟨lifecycle, hnew, ht.mono False.elim⟩
  | @assigned apicId index cpu' plan' hnone hsome hen hmoved =>
    rcases hmoved.cases hi with hsame | ⟨rfl, rfl, hnew⟩
    · exact .inl hsame
    · have hmem := List.mem_of_getElem? hi
      cases hl : cpu.lifecycle with
      | disabled => exact absurd hl (h.disabled cpu hmem hmoved.enabled)
      | failed => exact absurd hl (hok hnone cpu hmem hen)
      | discovered => exact .inr ⟨.online, hnew, .boot hsome⟩
      | starting => exact .inr ⟨.online, hnew, .online⟩
      | online =>
        left
        rw [hnew, ← hl]

theorem Sound.settled (h : Sound es plan) (hok : plan.admits e) (hstep : Step plan e plan')
    (hi : plan.cpus[i]? = some cpu) (hend : cpu.lifecycle = .disabled ∨ cpu.lifecycle = .failed) :
    plan'.cpus[i]? = some cpu := by
  rcases h.moves hok hstep hi with hsame | ⟨lifecycle, -, ht⟩
  · exact hsame
  · obtain ⟨-, hdisabled, hfailed⟩ := ht.target
    rcases hend with hend | hend
    · exact absurd hend hdisabled
    · exact absurd hend hfailed

theorem Sound.run {es' : List (PlanOp × Except CpuPlanError ℕ)} (h : Sound es plan)
    (hrun : Trace.Run Step plan es' plan') : Sound (es ++ es') plan' := by
  refine hrun.history (I := fun es' plan' ↦ Sound (es ++ es') plan') ?_ ?_
  · rwa [List.append_nil]
  · intro es' plan₁ e plan₂ hs hstep
    rw [← List.append_assoc]
    exact hs.step hstep

/-- The processors of a plan keep distinct identities, one of them is made the boot
processor at most, and a call that fails changes nothing. As long as no failed processor is
made the boot processor, a processor takes the listed transitions only, and one that is
disabled or failed stays so. -/
theorem bringup_lifecycle {info : MadtInfo} {plan₀ plan : CpuBootPlan}
    {es : List (PlanOp × Except CpuPlanError ℕ)} (h₀ : fromMadt info = .ok plan₀)
    (h : Trace.Run Step plan₀ es plan) :
    (plan.cpus.map CpuDescriptor.apicId).Nodup ∧
    (es.Pairwise fun e e' ↦ ¬ (Assigns e ∧ Assigns e')) ∧
    (∀ e plan', Step plan e plan' → (∀ error, e.2 = .error error → plan' = plan) ∧
      (plan.admits e → ∀ i cpu, plan.cpus[i]? = some cpu → plan'.cpus[i]? = some cpu ∨
        ∃ lifecycle, plan'.cpus[i]? = some { cpu with lifecycle := lifecycle } ∧
          Transition (plan'.bspIndex = some i) cpu.lifecycle lifecycle)) ∧
    ∀ es' plan', Trace.Run (Trace.Guarded admits Step) plan es' plan' →
      ∀ (i : ℕ) (cpu : CpuDescriptor), plan.cpus[i]? = some cpu →
        cpu.lifecycle = .disabled ∨ cpu.lifecycle = .failed → plan'.cpus[i]? = some cpu := by
  have hs : Sound es plan := List.nil_append es ▸ (sound_fromMadt h₀).run h
  refine ⟨hs.distinct, hs.once, fun e plan' hstep ↦ ⟨fun error he ↦ ?_, fun hok i cpu hi ↦
    hs.moves hok hstep hi⟩, fun es' plan' hrun i cpu hi hend ↦ ?_⟩
  · cases step_effect hstep with
    | refused => rfl
    | marked => cases he
    | assigned => cases he
  · have hboth : Sound (es ++ es') plan' ∧ plan'.cpus[i]? = some cpu := by
      refine hrun.history (I := fun es' plan' ↦ Sound (es ++ es') plan' ∧
        plan'.cpus[i]? = some cpu) ?_ ?_
      · exact ⟨by rwa [List.append_nil], hi⟩
      · rintro es' plan₁ e plan₂ ⟨hs, hi⟩ ⟨hok, hstep⟩
        rw [← List.append_assoc]
        exact ⟨hs.step hstep, hs.settled hok hstep hi hend⟩
    exact hboth.2

def twoCpus : MadtInfo where
  cpus := some ⟨0, 2, true⟩ :: some ⟨1, 7, true⟩ :: List.replicate 30 none
  cpuCount := 2
  size := rfl

theorem bringup_lifecycle_unresponsive : ∃ plan₀ plan plan',
    fromMadt twoCpus = .ok plan₀ ∧
    Trace.Run Step plan₀ [(.assignBsp 2, .ok 0), (.markStarting 7, .ok 1), (.markOnline 7, .ok 1),
      (.markUnresponsive 7, .ok 1)] plan ∧
    Trace.Run (Trace.Guarded admits Step) plan [(.markStarting 7, .error .invalidState)] plan' ∧
    plan.cpus[1]? = some ⟨1, 7, true, .failed⟩ ∧ plan'.cpus[1]? = some ⟨1, 7, true, .failed⟩ := by
  obtain ⟨plan₀, plan, plan', h₀, hrun, hrest, hcpu⟩ : ∃ plan₀ plan plan',
      fromMadt twoCpus = .ok plan₀ ∧
      Trace.Run Step plan₀ [(.assignBsp 2, .ok 0), (.markStarting 7, .ok 1),
        (.markOnline 7, .ok 1), (.markUnresponsive 7, .ok 1)] plan ∧
      Trace.Run (Trace.Guarded admits Step) plan [(.markStarting 7, .error .invalidState)] plan' ∧
      plan.cpus[1]? = some ⟨1, 7, true, .failed⟩ :=
    ⟨_, _, _, rfl, .cons rfl (.cons rfl (.cons rfl (.cons rfl .nil))),
      .cons ⟨trivial, rfl⟩ .nil, rfl⟩
  exact ⟨plan₀, plan, plan', h₀, hrun, hrest, hcpu,
    (bringup_lifecycle h₀ hrun).2.2.2 _ _ hrest 1 _ hcpu (.inr rfl)⟩

/-- A processor that failed to start is made the boot processor, and is online. -/
theorem failed_cpu_put_online : ∃ plan₀ plan plan',
    fromMadt twoCpus = .ok plan₀ ∧
    Trace.Run Step plan₀ [(.markStarting 7, .ok 1), (.markFailed 7, .ok 1)] plan ∧
    plan.cpus[1]? = some ⟨1, 7, true, .failed⟩ ∧
    Step plan (.assignBsp 7, .ok 1) plan' ∧ plan'.cpus[1]? = some ⟨1, 7, true, .online⟩ :=
  ⟨_, _, _, rfl, .cons rfl (.cons rfl .nil), rfl, rfl, rfl⟩

end CpuBootPlan

end BraneKernel
