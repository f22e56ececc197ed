import BraneKernel.Brane.Capability
import BraneKernel.Brane.Packet

namespace BraneKernel

abbrev Key := Bytes.Sized 32
abbrev Nonce := Bytes.Sized 12

/-- The X25519 and ChaCha20-Poly1305 implementations. An X25519 secret is given
by the seed it is generated from. -/
structure Crypto where
  publicKey : Key → Key
  agree : Key → Key → Key
  encrypt : Key → Nonce → Bytes → Option Bytes
  decrypt : Key → Nonce → Bytes → Option Bytes

namespace Crypto

def tag (key : Key) (nonce : Nonce) : Bytes := nonce.1 ++ key.1.take 4

def tagging : Crypto where
  publicKey seed := seed
  agree secret peer := ⟨List.zipWith (· ^^^ ·) secret.1 peer.1, by
    rw [List.length_zipWith, secret.2, peer.2, Nat.min_self]⟩
  encrypt key nonce plaintext := some (plaintext ++ tag key nonce)
  decrypt key nonce ciphertext :=
    if ciphertext.drop (ciphertext.length - 16) = tag key nonce then
      some (ciphertext.take (ciphertext.length - 16))
    else none

end Crypto

inductive SessionError
  | invalidState | invalidPayloadSize | decryptionFailed | serializationError
  | cryptoEngineNotReady | unexpectedPacket
  deriving DecidableEq

def SessionError.text : SessionError → String
  | .invalidState => "Invalid session state"
  | .invalidPayloadSize => "Invalid payload size"
  | .decryptionFailed => "Decryption failed"
  | .serializationError => "Serialization error"
  | .cryptoEngineNotReady => "Crypto engine not ready"
  | .unexpectedPacket => "Unexpected packet type"

inductive SessionState
  | init | waitResponse | waitCapability | established | closed
  deriving DecidableEq

structure EphemeralKey where
  secret : Key
  deriving DecidableEq

def EphemeralKey.toPublic (C : Crypto) (k : EphemeralKey) : Key := C.publicKey k.secret

def EphemeralKey.diffieHellman (C : Crypto) (k : EphemeralKey) (peerPub : Key) : Key :=
  C.agree k.secret peerPub

/-- The AEAD engine, keyed with the shared secret itself. -/
structure SessionCrypto where
  key : Key
  deriving DecidableEq

structure BraneSession where
  socketId : BitVec 32
  state : SessionState
  remoteNodeId : Option (Bytes.Sized 16)
  ephemeralKey : EphemeralKey
  cryptoEngine : Option SessionCrypto
  localCapabilities : Option CapabilityNegotiation
  remoteCapabilities : Option CapabilityNegotiation
  txNonce : U64
  rxNonce : U64
  establishedAt : U64
  deriving DecidableEq

/-- The counter in little-endian order, padded to 12 bytes. -/
def nonceOf (counter : U64) : Nonce :=
  ⟨Bytes.le 8 counter.toNat ++ [0, 0, 0, 0], by rw [List.length_append, Bytes.length_le]; rfl⟩

theorem nonceOf_injective {m n : U64} (h : nonceOf m = nonceOf n) : m = n := by
  have hbytes := List.append_cancel_right (Subtype.mk.inj h)
  exact BitVec.eq_of_toNat_eq (Bytes.le_injective m.isLt n.isLt hbytes)

namespace BraneSession

def new (socketId : BitVec 32) (ephemeralKey : EphemeralKey) : BraneSession :=
  ⟨socketId, .init, none, ephemeralKey, none, none, none, 0, 0, 0⟩

def buildHandshakeInit (C : Crypto) (s : BraneSession) : BraneSession × SessionPacket :=
  ({ s with state := .waitResponse }, ⟨.handshakeInit, (s.ephemeralKey.toPublic C).1⟩)

def processHandshakeResponse (C : Crypto) (s : BraneSession) (payload : Bytes) :
    BraneSession × Except SessionError Unit :=
  if s.state ≠ .waitResponse then (s, .error .invalidState)
  else if h : payload.length < 32 then (s, .error .invalidPayloadSize)
  else
    let peerPub := payload.slice 0 32 (by omega)
    ({ s with
        cryptoEngine := some ⟨s.ephemeralKey.diffieHellman C peerPub⟩
        txNonce := 0
        rxNonce := 0
        state := .waitCapability }, .ok ())

def defaultOffers : List CapabilityOffer :=
  [⟨"BRANE_CONNECT".toList, 1 <<< 7, 1⟩, ⟨"IPC_SEND".toList, 1 <<< 5, 0⟩,
    ⟨"IPC_RECV".toList, 1 <<< 6, 0⟩]

variable (s : BraneSession)

def buildCapabilityExchange (ourNodeId : Bytes.Sized 16) (now : U64) :
    BraneSession × Except SessionError SessionPacket :=
  if s.state ≠ .waitCapability then (s, .error .invalidState)
  else
    let neg := { CapabilityNegotiation.new ourNodeId now with offered := defaultOffers }
    ({ s with localCapabilities := some neg }, .ok ⟨.capabilityExchange, neg.toBytes⟩)

def processCapabilityExchange (payload : Bytes) (now : U64) :
    BraneSession × Except SessionError Unit :=
  if s.state ≠ .waitCapability then (s, .error .invalidState)
  else
    match CapabilityNegotiation.fromBytes payload with
    | none => (s, .error .serializationError)
    | some neg =>
      ({ s with
          remoteNodeId := some neg.nodeId
          remoteCapabilities := some neg
          state := .established
          establishedAt := now }, .ok ())

def getTxNonce : Option (Nonce × BraneSession) :=
  (checkedSucc s.txNonce).map fun n ↦ (nonceOf s.txNonce, { s with txNonce := n })

def getRxNonce : Option (Nonce × BraneSession) :=
  (checkedSucc s.rxNonce).map fun n ↦ (nonceOf s.rxNonce, { s with rxNonce := n })

def encryptPayload (C : Crypto) (s : BraneSession) (data : Bytes) :
    Option (BraneSession × Except SessionError SessionPacket) :=
  if s.state ≠ .established then some (s, .error .invalidState)
  else
    match s.getTxNonce with
    | none => none
    | some (nonce, s) =>
      match s.cryptoEngine with
      | none => some (s, .error .cryptoEngineNotReady)
      | some engine =>
        match C.encrypt engine.key nonce data with
        | none => some (s, .error .decryptionFailed)
        | some ciphertext => some (s, .ok ⟨.encryptedData, ciphertext⟩)

def decryptPayload (C : Crypto) (s : BraneSession) (data : Bytes) :
    Option (BraneSession × Except SessionError Bytes) :=
  if s.state ≠ .established then some (s, .error .invalidState)
  else
    match s.getRxNonce with
    | none => none
    | some (nonce, s) =>
      match s.cryptoEngine with
      | none => some (s, .error .cryptoEngineNotReady)
      | some engine =>
        match C.decrypt engine.key nonce data with
        | none => some (s, .error .decryptionFailed)
        | some plaintext => some (s, .ok plaintext)

def close : BraneSession × SessionPacket :=
  ({ s with state := .closed }, ⟨.disconnect, []⟩)

def isEstablished : Bool :=
  s.state = .established && s.cryptoEngine.isSome

def summary : BitVec 32 × SessionState × Bool :=
  (s.socketId, s.state, s.isEstablished)

end BraneSession

end BraneKernel
