import BraneKernel.Brane.Session
import BraneKernel.Lib.Trace

namespace BraneKernel

inductive SessionCall
  | buildHandshakeInit
  | processHandshakeResponse (payload : Bytes)
  | buildCapabilityExchange (ourNodeId : Bytes.Sized 16) (now : U64)
  | processCapabilityExchange (payload : Bytes) (now : U64)
  | encryptPayload (data : Bytes)
  | decryptPayload (data : Bytes)
  | close
  | isEstablished
  | summary
  deriving DecidableEq

inductive SessionReply
  | packet (p : SessionPacket)
  | plaintext (bytes : Bytes)
  | done
  | established (flag : Bool)
  | summary (socketId : BitVec 32) (state : SessionState) (flag : Bool)
  | error (e : SessionError)
  deriving DecidableEq

def SessionReply.ofExcept {α : Type} (f : α → SessionReply) : Except SessionError α → SessionReply
  | .ok a => f a
  | .error e => .error e

namespace BraneSession

variable (C : Crypto)

def call (s : BraneSession) : SessionCall → Option (BraneSession × SessionReply)
  | .buildHandshakeInit => some ((s.buildHandshakeInit C).1, .packet (s.buildHandshakeInit C).2)
  | .processHandshakeResponse payload =>
    some ((s.processHandshakeResponse C payload).1,
      .ofExcept (fun _ ↦ .done) (s.processHandshakeResponse C payload).2)
  | .buildCapabilityExchange id now =>
    some ((s.buildCapabilityExchange id now).1, .ofExcept .packet (s.buildCapabilityExchange id now).2)
  | .processCapabilityExchange payload now =>
    some ((s.processCapabilityExchange payload now).1,
      .ofExcept (fun _ ↦ .done) (s.processCapabilityExchange payload now).2)
  | .encryptPayload data => (s.encryptPayload C data).map fun r ↦ (r.1, .ofExcept .packet r.2)
  | .decryptPayload data => (s.decryptPayload C data).map fun r ↦ (r.1, .ofExcept .plaintext r.2)
  | .close => some (s.close.1, .packet s.close.2)
  | .isEstablished => some (s, .established s.isEstablished)
  | .summary => some (s, .summary s.summary.1 s.summary.2.1 s.summary.2.2)

def Step (s : BraneSession) (c : SessionCall) (s' : BraneSession) : Prop :=
  ∃ r, s.call C c = some (s', r)

def engineReply (s : BraneSession) (f : SessionCrypto → Option SessionReply) : SessionReply :=
  match s.cryptoEngine with
  | none => .error .cryptoEngineNotReady
  | some engine => (f engine).getD (.error .decryptionFailed)

inductive CallEffect (s : BraneSession) : SessionCall → BraneSession → SessionReply → Prop
  | init : CallEffect s .buildHandshakeInit { s with state := .waitResponse }
      (.packet ⟨.handshakeInit, (s.ephemeralKey.toPublic C).1⟩)
  | keyed {payload : Bytes} (h : 0 + 32 ≤ payload.length) : s.state = .waitResponse →
      CallEffect s (.processHandshakeResponse payload)
        { s with
          cryptoEngine := some ⟨s.ephemeralKey.diffieHellman C (payload.slice 0 32 h)⟩
          txNonce := 0
          rxNonce := 0
          state := .waitCapability } .done
  | offered {id : Bytes.Sized 16} {now : U64} {neg : CapabilityNegotiation} :
      s.state = .waitCapability → CallEffect s (.buildCapabilityExchange id now)
        { s with localCapabilities := some neg } (.packet ⟨.capabilityExchange, neg.toBytes⟩)
  | established {payload : Bytes} {now : U64} {neg : CapabilityNegotiation} :
      s.state = .waitCapability → CapabilityNegotiation.fromBytes payload = some neg →
      CallEffect s (.processCapabilityExchange payload now)
        { s with
          remoteNodeId := some neg.nodeId
          remoteCapabilities := some neg
          state := .established
          establishedAt := now } .done
  | encrypted {data : Bytes} {n : U64} : s.state = .established → checkedSucc s.txNonce = some n →
      CallEffect s (.encryptPayload data) { s with txNonce := n }
        (s.engineReply fun e ↦ (C.encrypt e.key (nonceOf s.txNonce) data).map
          fun c ↦ .packet ⟨.encryptedData, c⟩)
  | decrypted {data : Bytes} {n : U64} : s.state = .established → checkedSucc s.rxNonce = some n →
      CallEffect s (.decryptPayload data) { s with rxNonce := n }
        (s.engineReply fun e ↦ (C.decrypt e.key (nonceOf s.rxNonce) data).map .plaintext)
  | closed : CallEffect s .close { s with state := .closed } (.packet ⟨.disconnect, []⟩)
  | observed {c : SessionCall} {r : SessionReply} : c = .isEstablished ∨ c = .summary →
      (∀ e, r ≠ .error e) → CallEffect s c s r
  | refused {c : SessionCall} {e : SessionError} : e ≠ .cryptoEngineNotReady →
      c ≠ .buildHandshakeInit → CallEffect s c s (.error e)

variable {C} {s s' : BraneSession} {c : SessionCall} {r : SessionReply}

theorem encryptPayload_eq (hs : s.state = .established) (data : Bytes) :
    (s.encryptPayload C data).map (fun r ↦ (r.1, SessionReply.ofExcept .packet r.2)) =
      (checkedSucc s.txNonce).map fun n ↦ ({ s with txNonce := n },
        s.engineReply fun e ↦ (C.encrypt e.key (nonceOf s.txNonce) data).map
          fun c ↦ .packet ⟨.encryptedData, c⟩) := by
  rw [encryptPayload, if_neg (not_not_intro hs), getTxNonce]
  cases checkedSucc s.txNonce with
  | none => rfl
  | some n =>
    dsimp only [Option.map_some, engineReply]
    cases s.cryptoEngine with
    | none => rfl
    | some engine => dsimp only; cases C.encrypt engine.key (nonceOf s.txNonce) data <;> rfl

theorem decryptPayload_eq (hs : s.state = .established) (data : Bytes) :
    (s.decryptPayload C data).map (fun r ↦ (r.1, SessionReply.ofExcept .plaintext r.2)) =
      (checkedSucc s.rxNonce).map fun n ↦ ({ s with rxNonce := n },
        s.engineReply fun e ↦ (C.decrypt e.key (nonceOf s.rxNonce) data).map .plaintext) := by
  rw [decryptPayload, if_neg (not_not_intro hs), getRxNonce]
  cases checkedSucc s.rxNonce with
  | none => rfl
  | some n =>
    dsimp only [Option.map_some, engineReply]
    cases s.cryptoEngine with
    | none => rfl
    | some engine => dsimp only; cases C.decrypt engine.key (nonceOf s.rxNonce) data <;> rfl

theorem call_effect (h : s.call C c = some (s', r)) : CallEffect C s c s' r := by
  cases c with
  | buildHandshakeInit =>
    cases h
    exact .init
  | processHandshakeResponse payload =>
    cases h
    unfold processHandshakeResponse
    split_ifs with hs hlen
    · exact .refused (by simp) (by simp)
    · exact .refused (by simp) (by simp)
    · exact .keyed (by omega) (not_not.mp hs)
  | buildCapabilityExchange id now =>
    cases h
    unfold buildCapabilityExchange
    split_ifs with hs
    · exact .refused (by simp) (by simp)
    · exact .offered (not_not.mp hs)
  | processCapabilityExchange payload now =>
    cases h
    unfold processCapabilityExchange
    split_ifs with hs
    · exact .refused (by simp) (by simp)
    · cases hneg : CapabilityNegotiation.fromBytes payload with
      | none => exact .refused (by simp) (by simp)
      | some neg => exact .established (not_not.mp hs) hneg
  | encryptPayload data =>
    by_cases hs : s.state = .established
    · rw [call, encryptPayload_eq hs] at h
      obtain ⟨n, hn, he⟩ := Option.map_eq_some_iff.mp h
      cases he
      exact .encrypted hs hn
    · rw [call, encryptPayload, if_pos hs] at h
      cases h
      exact .refused (by simp) (by simp)
  | decryptPayload data =>
    by_cases hs : s.state = .established
    · rw [call, decryptPayload_eq hs] at h
      obtain ⟨n, hn, he⟩ := Option.map_eq_some_iff.mp h
      cases he
      exact .decrypted hs hn
    · rw [call, decryptPayload, if_pos hs] at h
      cases h
      exact .refused (by simp) (by simp)
  | close =>
    cases h
    exact .closed
  | isEstablished =>
    cases h
    exact .observed (.inl rfl) (by simp)
  | summary =>
    cases h
    exact .observed (.inr rfl) (by simp)

end BraneSession

end BraneKernel
