import BraneKernel.Brane.Calls
import Mathlib.Logic.Function.Basic

namespace BraneKernel

structure DiscoverySubsystem where
  sessions : BitVec 32 → Option BraneSession

namespace BraneSession

variable (C : Crypto)

def dispatch (now : U64) (s : BraneSession) (pkt : SessionPacket) :
    Option (BraneSession × Except String Unit) :=
  match pkt.ptype with
  | .handshakeResponse =>
    let r := s.processHandshakeResponse C pkt.payload
    some (r.1, r.2.mapError SessionError.text)
  | .capabilityExchange =>
    let r := s.processCapabilityExchange pkt.payload now
    some (r.1, r.2.mapError SessionError.text)
  | .encryptedData =>
    match s.decryptPayload C pkt.payload with
    | none => none
    | some (s, .ok _) => some (s, .ok ())
    | some (s, .error _) => some (s, .error "Decryption failed")
  | _ => some (s, .error "Unexpected packet type")

/-- Process the bytes of one read. Only the packet at their start is looked at. -/
def receive (now : U64) (s : BraneSession) (data : Bytes) :
    Option (BraneSession × Except String Unit) :=
  match SessionPacket.parse data with
  | none => some (s, .error "Failed to parse packet")
  | some (pkt, _) => s.dispatch C now pkt

end BraneSession

namespace DiscoverySubsystem

def processSessionData (C : Crypto) (now : U64) (d : DiscoverySubsystem) (socketId : BitVec 32)
    (data : Bytes) : Option (DiscoverySubsystem × Except String Unit) :=
  match d.sessions socketId with
  | none => some (d, .error "Session not found")
  | some session => (session.receive C now data).map fun r ↦
    (⟨Function.update d.sessions socketId (some r.1)⟩, r.2)

end DiscoverySubsystem

namespace BraneSession

def packetCall (now : U64) (pkt : SessionPacket) : Option SessionCall :=
  match pkt.ptype with
  | .handshakeResponse => some (.processHandshakeResponse pkt.payload)
  | .capabilityExchange => some (.processCapabilityExchange pkt.payload now)
  | .encryptedData => some (.decryptPayload pkt.payload)
  | _ => none

variable {C : Crypto} {s : BraneSession} {now : U64}

theorem dispatch_fst (pkt : SessionPacket) : (s.dispatch C now pkt).map Prod.fst =
    (packetCall now pkt).elim (some s) fun c ↦ (s.call C c).map Prod.fst := by
  unfold dispatch packetCall
  cases pkt.ptype with
  | encryptedData =>
    dsimp only [Option.elim, call]
    rcases s.decryptPayload C pkt.payload with _ | ⟨s', _ | _⟩ <;> rfl
  | _ => rfl

end BraneSession

end BraneKernel
