import BraneKernel.Brane.Discovery

namespace BraneKernel

namespace BraneSession

/-- Past the handshake there is an engine, and an established session knows its
peer under one node id. -/
structure Coherent (s : BraneSession) : Prop where
  engine : s.state = .waitCapability ∨ s.state = .established → s.cryptoEngine.isSome = true
  peer : s.state = .established →
    ∃ neg, s.remoteCapabilities = some neg ∧ s.remoteNodeId = some neg.nodeId

variable {C : Crypto} {s s' : BraneSession} {c : SessionCall} {r : SessionReply}

theorem coherent_of_unkeyed (hw : s.state ≠ .waitCapability) (he : s.state ≠ .established) :
    s.Coherent := by
  refine ⟨fun h ↦ ?_, fun h ↦ absurd h he⟩
  rcases h with h | h
  · exact absurd h hw
  · exact absurd h he

theorem CallEffect.coherent (hs : s.Coherent) (h : CallEffect C s c s' r) : s'.Coherent := by
  cases h with
  | init => exact coherent_of_unkeyed nofun nofun
  | keyed _ _ => exact ⟨fun _ ↦ rfl, nofun⟩
  | offered _ => exact ⟨hs.engine, hs.peer⟩
  | established hwait _ => exact ⟨fun _ ↦ hs.engine (.inl hwait), fun _ ↦ ⟨_, rfl, rfl⟩⟩
  | encrypted _ _ => exact ⟨hs.engine, hs.peer⟩
  | decrypted _ _ => exact ⟨hs.engine, hs.peer⟩
  | closed => exact coherent_of_unkeyed nofun nofun
  | observed _ _ => exact hs
  | refused _ _ => exact hs

theorem engineReply_ready {α : Type} (h : s.cryptoEngine.isSome = true)
    {f : SessionCrypto → Option α} {g : α → SessionReply}
    (hg : ∀ a, g a ≠ .error .cryptoEngineNotReady) :
    s.engineReply (fun e ↦ (f e).map g) ≠ .error .cryptoEngineNotReady := by
  obtain ⟨engine, he⟩ := Option.isSome_iff_exists.mp h
  rw [engineReply, he]
  dsimp only
  cases hfe : f engine with
  | none => exact nofun
  | some a => exact hg a

theorem CallEffect.ready (hs : s.Coherent) (h : CallEffect C s c s' r) :
    r ≠ .error .cryptoEngineNotReady := by
  cases h with
  | encrypted hest _ => exact engineReply_ready (hs.engine (.inr hest)) fun _ ↦ nofun
  | decrypted hest _ => exact engineReply_ready (hs.engine (.inr hest)) fun _ ↦ nofun
  | observed _ hr => exact hr _
  | refused he _ => exact fun h ↦ he (SessionReply.error.inj h)
  | init | keyed _ _ | offered _ | established _ _ | closed => exact nofun

/-- Every reachable session is coherent, so its engine is always ready when it
is asked for, and a refused call leaves the phase unchanged. -/
theorem session_coherent {socketId : BitVec 32} {key : EphemeralKey} {calls : List SessionCall}
    (h : Trace.Run (Step C) (new socketId key) calls s) :
    s.Coherent ∧ ∀ c s' r, s.call C c = some (s', r) →
      r ≠ .error .cryptoEngineNotReady ∧ ∀ e, r = .error e → s'.state = s.state := by
  have hs : s.Coherent := by
    refine h.invariant (coherent_of_unkeyed nofun nofun) ?_
    rintro s c s' hs ⟨r, hr⟩
    exact (call_effect hr).coherent hs
  refine ⟨hs, fun c s' r hr ↦ ⟨(call_effect hr).ready hs, fun e he ↦ ?_⟩⟩
  cases call_effect hr with
  | encrypted _ _ => rfl
  | decrypted _ _ => rfl
  | observed _ _ => rfl
  | refused _ _ => rfl
  | init | keyed _ _ | offered _ | established _ _ | closed => cases he

def callAll (C : Crypto) (s : BraneSession) (calls : List SessionCall) : Option BraneSession :=
  calls.foldlM (fun s c ↦ (s.call C c).map Prod.fst) s

theorem run_callAll {calls : List SessionCall} (h : s.callAll C calls = some s') :
    Trace.Run (Step C) s calls s' :=
  Trace.Run.of_answers h

def establishing (peer : Key) : List SessionCall :=
  [.buildHandshakeInit, .processHandshakeResponse peer.1,
    .processCapabilityExchange (List.replicate 26 0) 9]

def sampleKey (b : BitVec 8) : Key := ⟨List.replicate 32 b, List.length_replicate⟩

def sampleSession : BraneSession :=
  { new 7 ⟨sampleKey 1⟩ with
    state := .established
    remoteNodeId := some ⟨List.replicate 16 0, List.length_replicate⟩
    remoteCapabilities := some (.new ⟨List.replicate 16 0, List.length_replicate⟩ 0)
    cryptoEngine := some ⟨sampleKey 3⟩
    establishedAt := 9 }

theorem callAll_sample :
    (new 7 ⟨sampleKey 1⟩).callAll .tagging (establishing (sampleKey 2)) = some sampleSession := by
  decide +kernel

theorem session_coherent_established : Trace.Run (Step .tagging) (new 7 ⟨sampleKey 1⟩)
      (establishing (sampleKey 2)) sampleSession ∧ sampleSession.Coherent :=
  ⟨run_callAll callAll_sample, (session_coherent (run_callAll callAll_sample)).1⟩

end BraneSession

inductive SessionInput
  | call (c : SessionCall)
  | packet (now : U64) (data : Bytes)
  deriving DecidableEq

inductive SessionOutput
  | reply (r : SessionReply)
  | processed (r : Except String Unit)

def SessionInput.exchanges : SessionInput → SessionOutput → Bool
  | .call (.encryptPayload _), .reply (.packet _) => true
  | .call (.decryptPayload _), .reply (.plaintext _) => true
  | .packet _ data, .processed (.ok _) =>
    (SessionPacket.parse data).any fun r ↦ r.1.ptype = .encryptedData
  | _, _ => false

namespace BraneSession

def input (C : Crypto) (s : BraneSession) : SessionInput → Option (BraneSession × SessionOutput)
  | .call c => (s.call C c).map fun r ↦ (r.1, .reply r.2)
  | .packet now data => (s.receive C now data).map fun r ↦ (r.1, .processed r.2)

/-- The session is closed, and remains so through all inputs without a payload
passing. -/
def StaysClosed (C : Crypto) : BraneSession → List SessionInput → Prop
  | s, [] => s.state = .closed
  | s, i :: is => s.state = .closed ∧
    ∃ s' o, s.input C i = some (s', o) ∧ i.exchanges o = false ∧ StaysClosed C s' is

variable {C : Crypto} {s : BraneSession} {i : SessionInput}

theorem StaysClosed.closed {is : List SessionInput} (h : StaysClosed C s is) :
    s.state = .closed := by
  cases is with
  | nil => exact h
  | cons i is => exact h.1

section

variable (hs : s.state = .closed)
include hs

theorem receive_closed (now : U64) (data : Bytes) :
    ∃ text, s.receive C now data = some (s, .error text) := by
  unfold receive
  cases SessionPacket.parse data with
  | none => exact ⟨_, rfl⟩
  | some r =>
    dsimp only
    unfold dispatch
    cases r.1.ptype with
    | handshakeResponse =>
      rw [processHandshakeResponse, if_pos (by simp [hs])]
      exact ⟨_, rfl⟩
    | capabilityExchange =>
      rw [processCapabilityExchange, if_pos (by simp [hs])]
      exact ⟨_, rfl⟩
    | encryptedData =>
      rw [decryptPayload, if_pos (by simp [hs])]
      exact ⟨_, rfl⟩
    | handshakeInit | alert | disconnect => exact ⟨_, rfl⟩

theorem call_closed {c : SessionCall} (hc : c ≠ .buildHandshakeInit) :
    ∃ s' r, s.call C c = some (s', r) ∧ (SessionInput.call c).exchanges (.reply r) = false ∧
      s'.state = .closed := by
  have hne : s.state ≠ .waitResponse ∧ s.state ≠ .waitCapability ∧ s.state ≠ .established := by
    rw [hs]
    exact ⟨nofun, nofun, nofun⟩
  cases c with
  | buildHandshakeInit => exact absurd rfl hc
  | processHandshakeResponse payload =>
    rw [call, processHandshakeResponse, if_pos hne.1]
    exact ⟨_, _, rfl, rfl, hs⟩
  | buildCapabilityExchange id now =>
    rw [call, buildCapabilityExchange, if_pos hne.2.1]
    exact ⟨_, _, rfl, rfl, hs⟩
  | processCapabilityExchange payload now =>
    rw [call, processCapabilityExchange, if_pos hne.2.1]
    exact ⟨_, _, rfl, rfl, hs⟩
  | encryptPayload data =>
    rw [call, encryptPayload, if_pos hne.2.2]
    exact ⟨_, _, rfl, rfl, hs⟩
  | decryptPayload data =>
    rw [call, decryptPayload, if_pos hne.2.2]
    exact ⟨_, _, rfl, rfl, hs⟩
  | close => exact ⟨_, _, rfl, rfl, rfl⟩
  | isEstablished => exact ⟨_, _, rfl, rfl, hs⟩
  | summary => exact ⟨_, _, rfl, rfl, hs⟩

theorem staysClosed_of_closed {is : List SessionInput} (h : .call .buildHandshakeInit ∉ is) :
    StaysClosed C s is := by
  induction is generalizing s with
  | nil => exact hs
  | cons i is ih =>
    rw [List.mem_cons, not_or] at h
    cases i with
    | packet now data =>
      obtain ⟨text, ht⟩ := receive_closed (C := C) hs now data
      refine ⟨hs, s, .processed (.error text), ?_, rfl, ih hs h.2⟩
      rw [input, ht]
      rfl
    | call c =>
      obtain ⟨s', r, hr, hx, hs'⟩ := call_closed (C := C) hs fun he ↦ h.1 (congrArg _ he.symm)
      refine ⟨hs, s', .reply r, ?_, hx, ih hs' h.2⟩
      rw [input, hr]
      rfl

end

theorem StaysClosed.not_mem {is : List SessionInput} (h : StaysClosed C s is) :
    .call .buildHandshakeInit ∉ is := by
  induction is generalizing s with
  | nil => exact List.not_mem_nil
  | cons i is ih =>
    obtain ⟨-, s', o, hi, -, hrest⟩ := h
    rw [List.mem_cons, not_or]
    refine ⟨fun he ↦ ?_, ih hrest⟩
    subst he
    cases hi
    cases hrest.closed

/-- A closed session is taken through a new handshake and encrypts again. -/
theorem closed_session_reopens :
    Trace.Run (Step .tagging) (new 7 ⟨sampleKey 1⟩).close.1 (establishing (sampleKey 2)) sampleSession ∧
      sampleSession.state = .established ∧
      (sampleSession.encryptPayload .tagging [1]).map Prod.snd =
        some (.ok ⟨.encryptedData, 1 :: Crypto.tag (sampleKey 3) (nonceOf 0)⟩) ∧
      ¬ StaysClosed .tagging (new 7 ⟨sampleKey 1⟩).close.1 ((establishing (sampleKey 2)).map .call) := by
  refine ⟨run_callAll (by decide +kernel), rfl, by decide +kernel, ?_⟩
  intro h
  exact h.not_mem List.mem_cons_self

/-- After `close` the session stays closed exactly as long as no handshake is
started on it. -/
theorem close_final_iff (C : Crypto) (s : BraneSession) (is : List SessionInput) :
    StaysClosed C s.close.1 is ↔ .call .buildHandshakeInit ∉ is :=
  ⟨fun h ↦ h.not_mem, fun h ↦ staysClosed_of_closed rfl h⟩

end BraneSession

end BraneKernel
