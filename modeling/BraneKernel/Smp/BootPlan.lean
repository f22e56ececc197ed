import BraneKernel.Sched.MultiCore
import Mathlib.Data.List.ReduceOption

namespace BraneKernel

structure CpuEntry where
  processorUid : U32
  apicId : U32
  enabled : Bool
  deriving DecidableEq

structure MadtInfo where
  cpus : List (Option CpuEntry)
  cpuCount : ℕ
  size : cpus.length = 32

inductive CpuLifecycle
  | disabled | discovered | starting | online | failed
  deriving DecidableEq

structure CpuDescriptor where
  processorUid : U32
  apicId : U32
  enabled : Bool
  lifecycle : CpuLifecycle
  deriving DecidableEq

/-- The occupied part of the array of processors; its length is `cpu_count`. -/
structure CpuBootPlan where
  cpus : List CpuDescriptor
  enabledCpuCount : ℕ
  bspIndex : Option ℕ
  fits : cpus.length ≤ maxCpus

inductive CpuPlanError
  | noEnabledCpu
  | duplicateApicId (apicId : U32)
  | bspAlreadyAssigned
  | bspNotFound (apicId : U32)
  | invalidState
  deriving DecidableEq

namespace CpuBootPlan

def describe (entry : CpuEntry) : CpuDescriptor :=
  ⟨entry.processorUid, entry.apicId, entry.enabled,
    if entry.enabled then .discovered else .disabled⟩

theorem fits_append {cpus : List CpuDescriptor} (cpu : CpuDescriptor) (hfits : cpus.length ≤ maxCpus)
    (hroom : cpus.length ≠ maxCpus) : (cpus ++ [cpu]).length ≤ maxCpus := by
  rw [List.length_append, List.length_singleton]
  omega

def collect (plan : CpuBootPlan) : List CpuEntry → Except CpuPlanError CpuBootPlan
  | [] => .ok plan
  | entry :: rest =>
    if hroom : plan.cpus.length = maxCpus then .ok plan
    else if plan.cpus.any (·.apicId == entry.apicId) then .error (.duplicateApicId entry.apicId)
    else
      collect
        { plan with
          cpus := plan.cpus ++ [describe entry]
          enabledCpuCount := if entry.enabled then plan.enabledCpuCount + 1 else plan.enabledCpuCount
          fits := fits_append _ plan.fits hroom }
        rest

def empty : CpuBootPlan := ⟨[], 0, none, Nat.zero_le _⟩

def fromMadt (info : MadtInfo) : Except CpuPlanError CpuBootPlan :=
  match empty.collect (info.cpus.take info.cpuCount).reduceOption with
  | .error e => .error e
  | .ok plan => if plan.enabledCpuCount = 0 then .error .noEnabledCpu else .ok plan

def isEnabled (apicId : U32) (cpu : CpuDescriptor) : Bool := cpu.enabled && cpu.apicId == apicId

variable (plan : CpuBootPlan)

def setLifecycle (index : ℕ) (lifecycle : CpuLifecycle) : CpuBootPlan :=
  { plan with
    cpus := plan.cpus.modify index fun cpu ↦ { cpu with lifecycle := lifecycle }
    fits := Nat.le_trans (Nat.le_of_eq (List.length_modify _ _ _)) plan.fits }

def assignBsp (apicId : U32) : CpuBootPlan × Except CpuPlanError ℕ :=
  if plan.bspIndex.isSome then (plan, .error .bspAlreadyAssigned)
  else
    match plan.cpus.findIdx? (isEnabled apicId) with
    | none => (plan, .error (.bspNotFound apicId))
    | some index => ({ plan.setLifecycle index .online with bspIndex := some index }, .ok index)

def findEnabled (apicId : U32) : Except CpuPlanError ℕ :=
  match plan.cpus.findIdx? (isEnabled apicId) with
  | some index => .ok index
  | none => .error (.bspNotFound apicId)

def mark (apicId : U32) (expected lifecycle : CpuLifecycle) : CpuBootPlan × Except CpuPlanError ℕ :=
  match plan.findEnabled apicId with
  | .error e => (plan, .error e)
  | .ok index =>
    if (plan.cpus[index]?).map (·.lifecycle) = some expected then
      (plan.setLifecycle index lifecycle, .ok index)
    else (plan, .error .invalidState)

def markStarting (apicId : U32) : CpuBootPlan × Except CpuPlanError ℕ :=
  plan.mark apicId .discovered .starting

def markOnline (apicId : U32) : CpuBootPlan × Except CpuPlanError ℕ :=
  plan.mark apicId .starting .online

def markFailed (apicId : U32) : CpuBootPlan × Except CpuPlanError ℕ :=
  plan.mark apicId .starting .failed

def markUnresponsive (apicId : U32) : CpuBootPlan × Except CpuPlanError ℕ :=
  plan.mark apicId .online .failed

end CpuBootPlan

end BraneKernel
