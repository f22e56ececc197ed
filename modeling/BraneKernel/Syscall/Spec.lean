import BraneKernel.Audit

namespace BraneKernel

inductive SyscallNumber
  | exit | yield | getPid | fork | exec | waitPid
  | mmap | munmap
  | write | read | open | close
  | send | recv | sendRecv
  | requestCap | releaseCap | checkCap
  | getTime | getSystemInfo
  | braneDiscover | braneConnect | braneSend | braneRecv
  | kill | sigAction | sigReturn | sigProcMask
  deriving DecidableEq

namespace SyscallNumber

def toRaw : SyscallNumber → U64
  | exit => 0
  | yield => 1
  | getPid => 2
  | fork => 3
  | exec => 4
  | waitPid => 5
  | mmap => 10
  | munmap => 11
  | write => 20
  | read => 21
  | SyscallNumber.open => 22
  | close => 23
  | send => 30
  | recv => 31
  | sendRecv => 32
  | requestCap => 40
  | releaseCap => 41
  | checkCap => 42
  | getTime => 50
  | getSystemInfo => 51
  | braneDiscover => 60
  | braneConnect => 61
  | braneSend => 62
  | braneRecv => 63
  | kill => 70
  | sigAction => 71
  | sigReturn => 72
  | sigProcMask => 73

def fromRaw (n : U64) : Option SyscallNumber :=
  match n.toNat with
  | 0 => some exit
  | 1 => some yield
  | 2 => some getPid
  | 3 => some fork
  | 4 => some exec
  | 5 => some waitPid
  | 10 => some mmap
  | 11 => some munmap
  | 20 => some write
  | 21 => some read
  | 22 => some SyscallNumber.open
  | 23 => some close
  | 30 => some send
  | 31 => some recv
  | 32 => some sendRecv
  | 40 => some requestCap
  | 41 => some releaseCap
  | 42 => some checkCap
  | 50 => some getTime
  | 51 => some getSystemInfo
  | 60 => some braneDiscover
  | 61 => some braneConnect
  | 62 => some braneSend
  | 63 => some braneRecv
  | 70 => some kill
  | 71 => some sigAction
  | 72 => some sigReturn
  | 73 => some sigProcMask
  | _ => none

theorem toRaw_of_fromRaw {n : U64} {s : SyscallNumber} (h : fromRaw n = some s) : s.toRaw = n := by
  unfold fromRaw at h
  split at h <;> cases h
  all_goals
    next hn =>
    apply BitVec.eq_of_toNat_eq
    rw [hn]
    rfl

end SyscallNumber

/-- `incomplete` is the `Partial` of the source. -/
inductive HandlerState
  | implemented | incomplete | unimplemented
  deriving DecidableEq

inductive CapabilityPermission
  | read | write | execute | grant | revoke
  | ipcSend | ipcRecv
  | braneConnect | braneDiscover | braneSend | braneRecv
  | processCreate | processSignal | memoryMap
  deriving DecidableEq

inductive CapabilityScope
  | system | selfProcess | targetProcess | destinationProcess | vfsService | braneTarget
  deriving DecidableEq

structure CapabilityRequirement where
  permission : CapabilityPermission
  scope : CapabilityScope
  deriving DecidableEq

/-- `anyone` is the `Public` of the source. -/
inductive AuthorizationRule
  | deny
  | anyone
  | selfOnly
  | selfOrChild
  | handleOwner
  | capability (requirement : CapabilityRequirement)
  | selfOrCapability (requirement : CapabilityRequirement)
  | selfOrChildOrCapability (requirement : CapabilityRequirement)
  | dualCapability (first second : CapabilityRequirement)
  deriving DecidableEq

structure SyscallSpec where
  number : SyscallNumber
  state : HandlerState
  authorization : AuthorizationRule
  auditClass : AuditClass
  maxCopyBytes : ℕ
  deriving DecidableEq

def maxCopyNone : ℕ := 0
def maxCopyPath : ℕ := 4 * 1024
def maxCopyIpc : ℕ := 4 * 1024
def maxCopyBuffer : ℕ := 64 * 1024

def cap (permission : CapabilityPermission) (scope : CapabilityScope) : AuthorizationRule :=
  .capability ⟨permission, scope⟩

def syscallSpecs : List SyscallSpec :=
  [ ⟨.exit, .incomplete, .selfOnly, .process, maxCopyNone⟩,
    ⟨.yield, .implemented, .selfOnly, .process, maxCopyNone⟩,
    ⟨.getPid, .implemented, .selfOnly, .process, maxCopyNone⟩,
    ⟨.fork, .unimplemented, cap .processCreate .system, .process, maxCopyNone⟩,
    ⟨.exec, .unimplemented, cap .execute .vfsService, .process, maxCopyPath⟩,
    ⟨.waitPid, .unimplemented, .selfOrChild, .process, maxCopyNone⟩,
    ⟨.mmap, .unimplemented, cap .memoryMap .selfProcess, .memory, maxCopyNone⟩,
    ⟨.munmap, .unimplemented, cap .memoryMap .selfProcess, .memory, maxCopyNone⟩,
    ⟨.write, .incomplete, cap .write .vfsService, .io, maxCopyBuffer⟩,
    ⟨.read, .unimplemented, cap .read .vfsService, .io, maxCopyBuffer⟩,
    ⟨.open, .unimplemented, cap .read .vfsService, .io, maxCopyPath⟩,
    ⟨.close, .unimplemented, .handleOwner, .io, maxCopyNone⟩,
    ⟨.send, .incomplete, cap .ipcSend .destinationProcess, .ipc, maxCopyIpc⟩,
    ⟨.recv, .incomplete, cap .ipcRecv .selfProcess, .ipc, maxCopyIpc⟩,
    ⟨.sendRecv, .unimplemented,
      .dualCapability ⟨.ipcSend, .destinationProcess⟩ ⟨.ipcRecv, .selfProcess⟩, .ipc, maxCopyIpc⟩,
    ⟨.requestCap, .unimplemented, .selfOnly, .capability, maxCopyIpc⟩,
    ⟨.releaseCap, .unimplemented, .handleOwner, .capability, maxCopyNone⟩,
    ⟨.checkCap, .unimplemented, .selfOnly, .capability, maxCopyNone⟩,
    ⟨.getTime, .implemented, .anyone, .system, maxCopyNone⟩,
    ⟨.getSystemInfo, .implemented, .anyone, .system, maxCopyNone⟩,
    ⟨.braneDiscover, .unimplemented, cap .braneDiscover .system, .brane, maxCopyBuffer⟩,
    ⟨.braneConnect, .unimplemented, cap .braneConnect .braneTarget, .brane, maxCopyPath⟩,
    ⟨.braneSend, .unimplemented, cap .braneSend .braneTarget, .brane, maxCopyBuffer⟩,
    ⟨.braneRecv, .unimplemented, cap .braneRecv .braneTarget, .brane, maxCopyBuffer⟩,
    ⟨.kill, .incomplete, .selfOrChildOrCapability ⟨.processSignal, .targetProcess⟩, .signal,
      maxCopyNone⟩,
    ⟨.sigAction, .incomplete, .selfOnly, .signal, maxCopyNone⟩,
    ⟨.sigReturn, .incomplete, .selfOnly, .signal, maxCopyNone⟩,
    ⟨.sigProcMask, .implemented, .selfOnly, .signal, maxCopyNone⟩ ]

def syscallSpec (number : SyscallNumber) : Option SyscallSpec :=
  syscallSpecs.find? (·.number == number)

theorem syscallSpec_isSome (number : SyscallNumber) :
    ∃ spec, syscallSpec number = some spec ∧ spec.number = number := by
  cases number <;> exact ⟨_, rfl, rfl⟩

def userCanonicalBits : ℕ := 48

def userAddressMax : U64 := (1#64 <<< (userCanonicalBits - 1)) - 1

inductive SyscallError
  | invalidSyscall | invalidArgument | permissionDenied | notFound | outOfMemory
  | wouldBlock | noMessage | invalidDestination | braneNotConnected | internal
  deriving DecidableEq

def SyscallError.code : SyscallError → ℤ
  | invalidSyscall => -1
  | invalidArgument => -2
  | permissionDenied => -3
  | notFound => -4
  | outOfMemory => -5
  | wouldBlock => -6
  | noMessage => -7
  | invalidDestination => -8
  | braneNotConnected => -9
  | internal => -100

inductive SyscallResult
  | ok (value : U64)
  | err (error : SyscallError)
  deriving DecidableEq

def SyscallResult.toRaw : SyscallResult → U64
  | ok value => value
  | err error => BitVec.ofInt 64 error.code

def auditResult : SyscallResult → AuditResult
  | .ok _ => .success
  | .err .permissionDenied => .denied
  | .err error => .error error.code

end BraneKernel
