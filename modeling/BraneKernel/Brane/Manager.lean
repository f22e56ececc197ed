import BraneKernel.Audit.History
import BraneKernel.Lib.Slots
import BraneKernel.Lib.Utf8

namespace BraneKernel.Brane

abbrev BraneId := U64
abbrev SessionId := U64

inductive BraneType
  | companion | peer | iot | unknown
  deriving DecidableEq

inductive Transport
  | tcpIp | bluetooth | ble | usbDirect | loopback
  deriving DecidableEq

inductive AuthStatus
  | pending | challengeSent | authenticated | failed
  deriving DecidableEq

inductive SessionState
  | discovering | pairing | active | suspended | disconnecting | disconnected
  deriving DecidableEq

def maxBraneName : ℕ := 32

structure BraneInfo where
  id : BraneId
  braneType : BraneType
  name : Bytes
  transport : Transport
  advertisedCaps : U32
  signalQuality : BitVec 8
  short : name.length ≤ maxBraneName

structure BraneSession where
  sessionId : SessionId
  remoteBrane : BraneId
  braneType : BraneType
  transport : Transport
  authStatus : AuthStatus
  state : SessionState
  ownerTask : TaskId
  capabilityGranted : Option CapabilityId
  msgsSent : U64
  msgsReceived : U64
  establishedAt : U64

inductive BraneError
  | notFound | alreadyConnected | authenticationFailed | notAuthenticated | sessionFull
  | payloadTooLarge | notConnected | permissionDenied | transportUnavailable | timeout
  deriving DecidableEq

def maxDiscovered : ℕ := 16
def maxSessions : ℕ := 8

structure BraneManager where
  localId : BraneId
  discovered : List (Option BraneInfo)
  sessions : List (Option BraneSession)
  nextSessionId : SessionId
  totalDiscovered : U64
  totalConnections : U64
  totalDisconnections : U64
  discoveredSize : discovered.length = maxDiscovered
  sessionsSize : sessions.length = maxSessions

/-- What a call reads of the scheduler and the processor: the ticks at the
session, and those and the processor at the audit record. -/
structure BraneMoment where
  tick : U64
  auditTick : U64
  cpuId : BitVec 16

def logBraneConnect (log : AuditLog) (now : BraneMoment) (source : TaskId) (braneId : BraneId)
    (result : AuditResult) : AuditLog :=
  log.record ⟨now.auditTick, ⟨some source, none, now.cpuId⟩, .braneConnected braneId, none, result⟩

namespace BraneManager

def new : BraneManager where
  localId := 0
  discovered := List.replicate maxDiscovered none
  sessions := List.replicate maxSessions none
  nextSessionId := 1
  totalDiscovered := 0
  totalConnections := 0
  totalDisconnections := 0
  discoveredSize := List.length_replicate
  sessionsSize := List.length_replicate

variable (m : BraneManager)

def newInfo (name : List Char) (braneType : BraneType) (transport : Transport) (caps : U32)
    (signal : BitVec 8) : BraneInfo where
  id := m.totalDiscovered + 1
  braneType := braneType
  name := (Utf8.encode name).take maxBraneName
  transport := transport
  advertisedCaps := caps
  signalQuality := signal
  short := List.length_take_le _ _

def registerDiscovered (name : List Char) (braneType : BraneType) (transport : Transport)
    (caps : U32) (signal : BitVec 8) : Option (BraneManager × Except BraneError BraneId) :=
  match h : Slots.insert (m.newInfo name braneType transport caps signal) m.discovered with
  | none => some (m, .error .sessionFull)
  | some slots => (checkedSucc m.totalDiscovered).map fun id ↦
      ({ m with
          discovered := slots
          totalDiscovered := id
          discoveredSize := (Slots.length_insert h).trans m.discoveredSize }, .ok id)

def newSession (info : BraneInfo) (braneId : BraneId) (ownerTask : TaskId) (tick : U64) :
    BraneSession where
  sessionId := m.nextSessionId
  remoteBrane := braneId
  braneType := info.braneType
  transport := info.transport
  authStatus := .authenticated
  state := .active
  ownerTask := ownerTask
  capabilityGranted := none
  msgsSent := 0
  msgsReceived := 0
  establishedAt := tick

def isConnected (braneId : BraneId) : Bool :=
  m.sessions.any fun slot ↦ slot.any fun s ↦ s.remoteBrane == braneId && s.state == .active

def connect (log : AuditLog) (now : BraneMoment) (braneId : BraneId) (ownerTask : TaskId) :
    Option ((BraneManager × AuditLog) × Except BraneError SessionId) :=
  match Slots.find (fun b ↦ b.id == braneId) m.discovered with
  | none => some ((m, log), .error .notFound)
  | some info =>
    if m.isConnected braneId then some ((m, log), .error .alreadyConnected)
    else
      match h : Slots.insert (m.newSession info braneId ownerTask now.tick) m.sessions with
      | none => some ((m, log), .error .sessionFull)
      | some slots =>
        (checkedSucc m.nextSessionId).bind fun next ↦
        (checkedSucc m.totalConnections).map fun connections ↦
          (({ m with
              sessions := slots
              nextSessionId := next
              totalConnections := connections
              sessionsSize := (Slots.length_insert h).trans m.sessionsSize },
            logBraneConnect log now ownerTask braneId .success), .ok m.nextSessionId)

def send (sessionId : SessionId) : Option (BraneManager × Except BraneError Unit) :=
  match Slots.find (fun s ↦ s.sessionId == sessionId) m.sessions with
  | none => some (m, .error .notFound)
  | some session =>
    if session.state ≠ .active then some (m, .error .notConnected)
    else if session.authStatus ≠ .authenticated then some (m, .error .notAuthenticated)
    else (checkedSucc session.msgsSent).map fun sent ↦
      ({ m with
          sessions := Slots.modify (fun s ↦ s.sessionId == sessionId)
            (fun s ↦ { s with msgsSent := sent }) m.sessions
          sessionsSize := (Slots.length_modify _ _ _).trans m.sessionsSize }, .ok ())

def disconnect (log : AuditLog) (now : BraneMoment) (sessionId : SessionId) :
    Option ((BraneManager × AuditLog) × Except BraneError Unit) :=
  match Slots.find (fun s ↦ s.sessionId == sessionId) m.sessions with
  | none => some ((m, log), .error .notFound)
  | some session => (checkedSucc m.totalDisconnections).map fun disconnections ↦
      (({ m with
          sessions := Slots.clear (fun s ↦ s.sessionId == sessionId) m.sessions
          totalDisconnections := disconnections
          sessionsSize := (Slots.length_clear _ _).trans m.sessionsSize },
        logBraneConnect log now session.ownerTask session.remoteBrane .success), .ok ())

def held : List BraneSession := m.sessions.reduceOption

def activeSessions : List BraneSession :=
  m.held.filter fun s ↦ s.state == .active

end BraneManager

end BraneKernel.Brane
