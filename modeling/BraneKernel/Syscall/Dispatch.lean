import BraneKernel.Security
import BraneKernel.Signal
import BraneKernel.Sched.PerCpu
import BraneKernel.Syscall.Spec

namespace BraneKernel

open Security (CapScope CapPermissions CapabilityManager)

/-- The kernel state behind the locks that the syscall path takes. -/
structure Kernel where
  processes : ProcessTable
  signals : SignalManager
  capabilities : CapabilityManager
  scheduling : Scheduling
  audit : AuditLog

structure SyscallContext where
  number : U64
  arg1 : U64
  arg2 : U64
  arg3 : U64
  arg4 : U64
  arg5 : U64
  deriving DecidableEq

structure CallerContext where
  taskId : TaskId
  pid : Pid
  cpuId : BitVec 16
  deriving DecidableEq

def vfsServiceId : U64 := 1

def capabilityBits : CapabilityPermission → CapPermissions
  | .read => .read
  | .write => .write
  | .execute => .execute
  | .grant => .grant
  | .revoke => .revoke
  | .ipcSend => .ipcSend
  | .ipcRecv => .ipcRecv
  | .braneConnect => .braneConnect
  | .braneDiscover => .braneDiscover
  | .processCreate => .processCreate
  | .processSignal => .processSignal
  | .memoryMap => .memoryMap
  | .braneSend => .braneSend
  | .braneRecv => .braneRecv

namespace Kernel

variable (k : Kernel)

def resolveCapabilityScope (requirement : CapabilityRequirement) (caller : CallerContext)
    (ctx : SyscallContext) : Except SyscallError CapScope :=
  match requirement.scope with
  | .system => .ok .system
  | .selfProcess => .ok (.process caller.taskId)
  | .vfsService => .ok (.service vfsServiceId)
  | .targetProcess | .destinationProcess =>
    match k.processes.getTaskIdByPid ctx.arg1 with
    | some taskId => .ok (.process taskId)
    | none => .error .permissionDenied
  | .braneTarget => .ok (.brane ctx.arg1)

def checkCapability (requirement : CapabilityRequirement) (caller : CallerContext)
    (ctx : SyscallContext) : Except SyscallError CapabilityId :=
  match k.resolveCapabilityScope requirement caller ctx with
  | .error e => .error e
  | .ok scope =>
    match k.capabilities.check caller.taskId (capabilityBits requirement.permission) scope with
    | .ok id => .ok id
    | .error _ => .error .permissionDenied

def targetIsSelfOrChild (caller : CallerContext) (ctx : SyscallContext) : Bool :=
  k.processes.isSelfOrChild caller.pid ctx.arg1

def authorize (rule : AuthorizationRule) (caller : CallerContext) (ctx : SyscallContext) :
    Except SyscallError (Option CapabilityId) :=
  match rule with
  | .anyone | .selfOnly => .ok none
  | .selfOrChild =>
    if k.targetIsSelfOrChild caller ctx then .ok none else .error .permissionDenied
  | .capability requirement => (k.checkCapability requirement caller ctx).map some
  | .selfOrCapability requirement =>
    if ctx.arg1 = caller.pid then .ok none
    else (k.checkCapability requirement caller ctx).map some
  | .selfOrChildOrCapability requirement =>
    if k.targetIsSelfOrChild caller ctx then .ok none
    else (k.checkCapability requirement caller ctx).map some
  | .dualCapability first second =>
    match k.checkCapability first caller ctx with
    | .error e => .error e
    | .ok firstId => (k.checkCapability second caller ctx).map fun _ ↦ some firstId
  | .handleOwner | .deny => .error .permissionDenied

def executingTask (cpuId : ℕ) : Option TaskId :=
  match k.scheduling.cpuSchedulerSnapshot cpuId with
  | none => none
  | some state =>
    if state.initialized then state.currentTask
    else if cpuId = 0 then k.scheduling.legacy.currentTaskId
    else none

def captureCallerContextForCpu (cpuId : ℕ) : Option CallerContext :=
  (k.executingTask cpuId).bind fun taskId ↦
    (k.processes.getPidByTaskId taskId).map fun pid ↦ ⟨taskId, pid, BitVec.ofNat 16 cpuId⟩

def auditOrigin (cpuId : ℕ) : Option CallerContext → AuditOrigin
  | some caller => ⟨some caller.taskId, some caller.pid, caller.cpuId⟩
  | none => ⟨none, none, BitVec.ofNat 16 cpuId⟩

def logSyscall (cpuId : ℕ) (caller : Option CallerContext) (number : U64)
    (auditClass : Option AuditClass) (capabilityUsed : Option CapabilityId) (result : AuditResult) :
    Kernel :=
  { k with
    audit := k.audit.recordAt k.scheduling.legacy.totalTicks (auditOrigin cpuId caller)
      (.syscallCompleted number auditClass) capabilityUsed result }

def handleYield : Kernel :=
  { k with scheduling := { k.scheduling with legacy := k.scheduling.legacy.tick } }

def handleWrite (ctx : SyscallContext) : SyscallResult :=
  if ctx.arg1 ≠ 1 then .err .invalidArgument else .ok ctx.arg3

def handleGetTime : SyscallResult :=
  .ok k.scheduling.legacy.totalTicks

def handleGetSystemInfo : SyscallResult :=
  .ok (BitVec.ofNat 64 k.scheduling.legacy.activeCount)

def handleKill (ctx : SyscallContext) : Kernel × SyscallResult :=
  match Signal.tryFrom (ctx.arg2.setWidth 8) with
  | .ok sig =>
    match SignalManager.send k.processes ctx.arg1 sig with
    | (processes, .ok _) => ({ k with processes := processes }, .ok 0)
    | (processes, .error _) => ({ k with processes := processes }, .err .notFound)
  | .error _ => (k, .err .invalidArgument)

def actionFor (address : U64) : SignalAction :=
  if address = 0 then .default else if address = 1 then .ignore else .handler address

def handleSigaction (ctx : SyscallContext) (caller : CallerContext) : Kernel × SyscallResult :=
  match Signal.tryFrom (ctx.arg1.setWidth 8) with
  | .ok sig =>
    match k.signals.setAction k.processes caller.pid sig (actionFor ctx.arg2) with
    | (signals, .ok _) => ({ k with signals := signals }, .ok 0)
    | (signals, .error _) => ({ k with signals := signals }, .err .invalidArgument)
  | .error _ => (k, .err .invalidArgument)

def handleSigreturn (caller : CallerContext) (frame : UserContext) :
    Kernel × UserContext × SyscallResult :=
  match k.processes.get caller.pid with
  | some proc =>
    match proc.savedContext with
    | some saved =>
      ({ k with processes := k.processes.modify caller.pid fun p ↦ { p with savedContext := none } },
        saved, .ok saved.rax)
    | none => (k, frame, .err .invalidArgument)
  | none => (k, frame, .err .notFound)

def maskFor (how set mask : U64) : Option U64 :=
  if how = 1 then some (mask ||| set)
  else if how = 2 then some (mask &&& ~~~set)
  else if how = 3 then some set
  else none

def cannotBlock : U64 := Signal.kill.bit ||| Signal.stop.bit

def handleSigprocmask (ctx : SyscallContext) (caller : CallerContext) : Kernel × SyscallResult :=
  match k.processes.get caller.pid with
  | some proc =>
    match maskFor ctx.arg1 ctx.arg2 proc.signalBlocked with
    | some mask =>
      ({ k with processes := k.processes.modify caller.pid fun p ↦
          { p with signalBlocked := mask &&& ~~~cannotBlock } }, .ok proc.signalBlocked)
    | none => (k, .err .invalidArgument)
  | none => (k, .err .notFound)

def runHandler (caller : CallerContext) (ctx : SyscallContext) (frame : UserContext) :
    SyscallNumber → Kernel × UserContext × SyscallResult
  | .exit => (k, frame, .ok 0)
  | .yield => (k.handleYield, frame, .ok 0)
  | .getPid => (k, frame, .ok caller.pid)
  | .write => (k, frame, handleWrite ctx)
  | .send => (k, frame, .ok 0)
  | .recv => (k, frame, .err .noMessage)
  | .getTime => (k, frame, k.handleGetTime)
  | .getSystemInfo => (k, frame, k.handleGetSystemInfo)
  | .kill => let (k, result) := k.handleKill ctx; (k, frame, result)
  | .sigAction => let (k, result) := k.handleSigaction ctx caller; (k, frame, result)
  | .sigReturn => k.handleSigreturn caller frame
  | .sigProcMask => let (k, result) := k.handleSigprocmask ctx caller; (k, frame, result)
  | _ => (k, frame, .err .invalidSyscall)

/-- What a dispatch leaves behind. `ran` and `delivered` record the handler that
ran with its own result, and the signal handler the frame was redirected to. -/
structure Outcome where
  kernel : Kernel
  frame : UserContext
  result : SyscallResult
  ran : Option (SyscallNumber × SyscallResult)
  delivered : Option (Signal × U64)

def countEntry (caller : Option CallerContext) : Kernel :=
  match caller with
  | some caller =>
    { k with processes := k.processes.modify caller.pid fun p ↦
        { p with syscallCount := Checked.saturatingSucc p.syscallCount } }
  | none => k

def reject (cpuId : ℕ) (caller : Option CallerContext) (number : U64)
    (auditClass : Option AuditClass) (frame : UserContext) (error : SyscallError) : Outcome :=
  { kernel := k.logSyscall cpuId caller number auditClass none (auditResult (.err error))
    frame := frame
    result := .err error
    ran := none
    delivered := none }

/-- Redirect the user frame to a signal handler, if a signal with one is pending.
The interrupted frame is saved with the result of the syscall in `rax`. -/
def deliverSignal (caller : CallerContext) (frame : UserContext)
    (ran : SyscallNumber × SyscallResult) : Outcome :=
  match k.signals.deliverPending k.processes caller.pid with
  | (processes, some (sig, address)) =>
    { kernel := { k with processes := processes.modify caller.pid fun p ↦
        { p with savedContext := some { frame with rax := ran.2.toRaw } } }
      frame := { frame with rcx := address, rdi := BitVec.ofNat 64 sig.number }
      result := .ok 0
      ran := some ran
      delivered := some (sig, address) }
  | (processes, none) =>
    { kernel := { k with processes := processes }
      frame := frame
      result := ran.2
      ran := some ran
      delivered := none }

/-- The part of a dispatch after mediation: the handler, the audit event with its
result, and signal delivery unless the call is `exit` or `sigReturn`. -/
def serve (cpuId : ℕ) (caller : CallerContext) (ctx : SyscallContext) (frame : UserContext)
    (syscall : SyscallNumber) (spec : SyscallSpec) (capabilityUsed : Option CapabilityId) :
    Outcome :=
  let (k, frame, result) := k.runHandler caller ctx frame syscall
  let k := k.logSyscall cpuId (some caller) syscall.toRaw (some spec.auditClass) capabilityUsed
    (auditResult result)
  if syscall ≠ .exit ∧ syscall ≠ .sigReturn then k.deliverSignal caller frame (syscall, result)
  else
    { kernel := k
      frame := frame
      result := result
      ran := some (syscall, result)
      delivered := none }

def dispatch (cpuId : ℕ) (ctx : SyscallContext) (frame : UserContext) : Outcome :=
  let caller := k.captureCallerContextForCpu cpuId
  let k := k.countEntry caller
  match SyscallNumber.fromRaw ctx.number with
  | none => k.reject cpuId caller ctx.number none frame .invalidSyscall
  | some syscall =>
    match syscallSpec syscall with
    | none => k.reject cpuId caller syscall.toRaw none frame .invalidSyscall
    | some spec =>
      if spec.state = .unimplemented then
        k.reject cpuId caller syscall.toRaw (some spec.auditClass) frame .invalidSyscall
      else
        match caller with
        | none => k.reject cpuId none syscall.toRaw (some spec.auditClass) frame .internal
        | some caller =>
          match k.authorize spec.authorization caller ctx with
          | .error error =>
            k.reject cpuId (some caller) syscall.toRaw (some spec.auditClass) frame error
          | .ok capabilityUsed => k.serve cpuId caller ctx frame syscall spec capabilityUsed

end Kernel

end BraneKernel
