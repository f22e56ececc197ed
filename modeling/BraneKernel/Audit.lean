import BraneKernel.Basic
import Mathlib.Data.Int.Notation

namespace BraneKernel

inductive AuditClass
  | process | memory | io | ipc | capability | system | brane | signal
  deriving DecidableEq

structure AuditOrigin where
  taskId : Option TaskId
  pid : Option Pid
  cpuId : BitVec 16
  deriving DecidableEq

inductive AuditAction
  | syscallInvoked (number : U64)
  | syscallCompleted (number : U64) (auditClass : Option AuditClass)
  | capabilityChecked (id : CapabilityId)
  | capabilityGranted (id : CapabilityId)
  | capabilityRevoked (id : CapabilityId)
  | ipcMessageSent (dest : TaskId)
  | ipcMessageReceived (sender : TaskId)
  | braneConnected (id : U64)
  | braneDisconnected (id : U64)
  | aiActionRequested (id : U64)
  | aiActionAuthorized (id : U64)
  | aiActionDenied (id : U64)
  | policyEvaluated (id : U64)
  | taskCreated (id : TaskId)
  | taskTerminated (id : TaskId)
  deriving DecidableEq

inductive AuditResult
  | success
  | denied
  | error (code : ℤ)
  | escalated
  deriving DecidableEq

structure AuditEvent where
  seq : U64
  tick : U64
  source : Option TaskId
  pid : Option Pid
  cpuId : BitVec 16
  action : AuditAction
  capabilityUsed : Option CapabilityId
  result : AuditResult
  deriving DecidableEq

def auditLogSize : ℕ := 512

structure AuditLog where
  events : List (Option AuditEvent)
  head : ℕ
  count : ℕ
  nextSeq : U64
  totalEvents : U64
  overwritten : U64
  size : events.length = auditLogSize

namespace AuditLog

def new : AuditLog where
  events := List.replicate auditLogSize none
  head := 0
  count := 0
  nextSeq := 1
  totalEvents := 0
  overwritten := 0
  size := List.length_replicate

def recordAt (l : AuditLog) (tick : U64) (origin : AuditOrigin) (action : AuditAction)
    (capabilityUsed : Option CapabilityId) (result : AuditResult) : AuditLog :=
  let event : AuditEvent :=
    { seq := l.nextSeq
      tick := tick
      source := origin.taskId
      pid := origin.pid
      cpuId := origin.cpuId
      action := action
      capabilityUsed := capabilityUsed
      result := result }
  { events := l.events.set ((l.head + l.count) % auditLogSize) (some event)
    head := if l.count < auditLogSize then l.head else (l.head + 1) % auditLogSize
    count := if l.count < auditLogSize then l.count + 1 else l.count
    nextSeq := l.nextSeq + 1
    totalEvents := l.totalEvents + 1
    overwritten := if l.count < auditLogSize then l.overwritten else l.overwritten + 1
    size := by simp [l.size] }

def lastN (l : AuditLog) (n : ℕ) : List AuditEvent :=
  (List.range (min n l.count)).filterMap fun i ↦
    (l.events[(l.head + l.count - 1 - i) % auditLogSize]?).join

theorem lastN_one_recordAt (l : AuditLog) (tick : U64) (origin : AuditOrigin) (action : AuditAction)
    (capabilityUsed : Option CapabilityId) (result : AuditResult) :
    (l.recordAt tick origin action capabilityUsed result).lastN 1 =
      [⟨l.nextSeq, tick, origin.taskId, origin.pid, origin.cpuId, action, capabilityUsed,
        result⟩] := by
  have hlt : (l.head + l.count) % auditLogSize < l.events.length := by
    rw [l.size]
    exact Nat.mod_lt _ (by decide)
  by_cases hc : l.count < auditLogSize
  · have hmin : min 1 (l.count + 1) = 1 := by omega
    have hidx : l.head + (l.count + 1) - 1 = l.head + l.count := by omega
    simp only [lastN, recordAt, hc, if_true, hmin]
    simp [hidx, hlt]
  · have hmin : min 1 l.count = 1 := by simp only [auditLogSize] at hc; omega
    have hidx : ((l.head + 1) % auditLogSize + l.count - 1) % auditLogSize =
        (l.head + l.count) % auditLogSize := by
      simp only [auditLogSize] at hc ⊢
      omega
    simp [lastN, recordAt, hc, hmin, hidx, hlt]

end AuditLog

end BraneKernel
