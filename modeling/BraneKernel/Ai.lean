import BraneKernel.Audit.History
import BraneKernel.Lib.Checked
import BraneKernel.Lib.Utf8

namespace BraneKernel

inductive AiMode
  | disabled | observeOnly | suggest | actRestricted
  deriving DecidableEq

inductive AiCategory
  | resource | security | performance | braneHealth | scheduling | anomaly
  deriving DecidableEq

inductive AiSeverity
  | info | low | medium | high | critical
  deriving DecidableEq

inductive AiAction
  | adjustPriority (task : TaskId) (priority : BitVec 8)
  | suspendTask (task : TaskId)
  | reclaimMemory (task : TaskId) (bytes : U64)
  | disconnectBrane (brane : U64)
  | alertUser
  | none
  deriving DecidableEq

def maxAiMessage : ℕ := 128

structure AiInsight where
  id : U64
  category : AiCategory
  severity : AiSeverity
  message : Bytes
  suggestedAction : Option AiAction
  tick : U64
  short : message.length ≤ maxAiMessage
  deriving DecidableEq

def maxInsights : ℕ := 64

structure AiEngine where
  mode : AiMode
  insights : List (Option AiInsight)
  nextId : U64
  totalObservations : U64
  totalSuggestions : U64
  totalActionsExecuted : U64
  totalActionsDenied : U64
  actuationCap : Option CapabilityId
  size : insights.length = maxInsights

/-- What `observe` reads of the scheduler and the processor: the ticks at the
insight, and those and the processor at the audit record. -/
structure AiMoment where
  tick : U64
  auditTick : U64
  cpuId : BitVec 16

structure Observation where
  category : AiCategory
  severity : AiSeverity
  message : List Char
  action : Option AiAction

namespace AiEngine

def new : AiEngine where
  mode := .observeOnly
  insights := List.replicate maxInsights none
  nextId := 1
  totalObservations := 0
  totalSuggestions := 0
  totalActionsExecuted := 0
  totalActionsDenied := 0
  actuationCap := none
  size := List.length_replicate

def setMode (e : AiEngine) (mode : AiMode) : AiEngine := { e with mode := mode }

def setActuationCap (e : AiEngine) (cap : CapabilityId) : AiEngine :=
  { e with actuationCap := some cap }

def auditRecord (e : AiEngine) (now : AiMoment) (action : AuditAction) (result : AuditResult) :
    AuditRecord :=
  ⟨now.auditTick, ⟨some 0, none, now.cpuId⟩, action, e.actuationCap, result⟩

def tryExecute (e : AiEngine) (log : AuditLog) (now : AiMoment) :
    AiAction → Option (AiEngine × AuditLog)
  | .alertUser => (checkedSucc e.totalActionsExecuted).map fun executed ↦
    ({ e with totalActionsExecuted := executed },
      log.record (e.auditRecord now (.aiActionAuthorized 0) .success))
  | .none => some (e, log)
  | _ => (checkedSucc e.totalActionsDenied).map fun denied ↦
    ({ e with totalActionsDenied := denied },
      log.record (e.auditRecord now (.aiActionDenied 0) .denied))

def insight (e : AiEngine) (now : AiMoment) (o : Observation) : AiInsight where
  id := e.nextId
  category := o.category
  severity := o.severity
  message := (Utf8.encode o.message).take maxAiMessage
  suggestedAction := o.action
  tick := now.tick
  short := List.length_take_le _ _

def note (e : AiEngine) (now : AiMoment) (o : Observation) : Option AiEngine :=
  (checkedSucc e.totalObservations).bind fun observations ↦
  (checkedSucc e.nextId).bind fun nextId ↦
  (Checked.sub e.nextId 1).bind fun place ↦
  (if o.action.isSome then checkedSucc e.totalSuggestions else some e.totalSuggestions).map
    fun suggestions ↦
      { e with
        totalObservations := observations
        nextId := nextId
        insights := e.insights.set (place.toNat % maxInsights) (some (e.insight now o))
        totalSuggestions := suggestions
        size := List.length_set.trans e.size }

def observe (e : AiEngine) (log : AuditLog) (now : AiMoment) (o : Observation) :
    Option ((AiEngine × AuditLog) × U64) :=
  if e.mode = .disabled then some ((e, log), 0)
  else
    (e.note now o).bind fun noted ↦
      if e.mode = .actRestricted then
        match o.action with
        | some action => (noted.tryExecute log now action).map fun s ↦ (s, e.nextId)
        | none => some ((noted, log), e.nextId)
      else some ((noted, log), e.nextId)

def lastInsights (e : AiEngine) (n : U64) : Option (List AiInsight) :=
  let start := if e.nextId > n then (e.nextId.toNat - 1 - n.toNat) % maxInsights else 0
  let take := min n.toNat e.totalObservations.toNat
  (List.range take).filterMapM fun i ↦
    (Checked.add (BitVec.ofNat 64 start) (BitVec.ofNat 64 i)).map fun idx ↦
      (e.insights[idx.toNat % maxInsights]?).join

variable {e e' : AiEngine} {now : AiMoment} {o : Observation}

theorem note_keeps (h : e.note now o = some e') :
    e'.mode = e.mode ∧ e'.actuationCap = e.actuationCap ∧
      e'.totalActionsExecuted = e.totalActionsExecuted ∧
      e'.totalActionsDenied = e.totalActionsDenied := by
  obtain ⟨_, -, h⟩ := Option.bind_eq_some_iff.mp h
  obtain ⟨_, -, h⟩ := Option.bind_eq_some_iff.mp h
  obtain ⟨_, -, h⟩ := Option.bind_eq_some_iff.mp h
  obtain ⟨_, -, rfl⟩ := Option.map_eq_some_iff.mp h
  exact ⟨rfl, rfl, rfl, rfl⟩

end AiEngine

end BraneKernel
