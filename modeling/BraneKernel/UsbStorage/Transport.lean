import BraneKernel.UsbStorage.Command

namespace BraneKernel

inductive RecoveryAction
  | bulkOnlyReset | clearHaltIn | clearHaltOut | synchronizeIn | synchronizeOut
  deriving DecidableEq

def resetRecoveryPlan : List RecoveryAction :=
  [.bulkOnlyReset, .clearHaltIn, .clearHaltOut, .synchronizeIn, .synchronizeOut]

/-- A transport and the device behind it, with states in `τ`. A receiving call may write anything
into the buffer it is given, whatever it returns. -/
structure BulkOnlyTransport (τ : Type) where
  bulkOut : τ → Bytes → τ × Except UsbStorageError ℕ
  bulkIn : {n : ℕ} → τ → Bytes.Sized n → τ × Bytes.Sized n × Except UsbStorageError ℕ
  bulkInCsw : {n : ℕ} → τ → Bytes.Sized n → τ × Bytes.Sized n × Except UsbStorageError ℕ
  resetRecovery : τ → List RecoveryAction → τ × Except UsbStorageError Unit

abbrev BounceBuffer := Bytes.Sized bounceBufferBytes

def BounceBuffer.front (bounce : BounceBuffer) {n : ℕ} (h : n ≤ bounceBufferBytes) :
    Bytes.Sized n :=
  bounce.1.slice 0 n (by rwa [Nat.zero_add, bounce.2])

def BounceBuffer.overwrite (bounce : BounceBuffer) {n : ℕ} (h : n ≤ bounceBufferBytes)
    (data : Bytes.Sized n) : BounceBuffer :=
  ⟨data.1 ++ bounce.1.drop n, by
    rw [List.length_append, List.length_drop, data.2, bounce.2, Nat.add_sub_cancel' h]⟩

structure UsbMassStorageState where
  nextTag : U32
  bounce : BounceBuffer
  available : Bool

namespace UsbMassStorageState

def new : UsbMassStorageState where
  nextTag := 1
  bounce := ⟨List.replicate bounceBufferBytes 0, List.length_replicate⟩
  available := true

variable {τ : Type} (T : BulkOnlyTransport τ)

abbrev Outcome (τ : Type) := UsbMassStorageState × τ × Except UsbStorageError ℕ

variable (s : UsbMassStorageState)

def recover (t : τ) : UsbMassStorageState × τ :=
  match T.resetRecovery t resetRecoveryPlan with
  | (t, .ok ()) => (s, t)
  | (t, .error _) => ({ s with available := false }, t)

def failWith (t : τ) (error : UsbStorageError) : Outcome τ :=
  let (s, t) := recover T s t
  (s, t, .error error)

def checkStatus (t : τ) (tag : U32) (transferLength : ℕ) (actualDataLength : ℕ) (csw : Bytes) :
    Outcome τ :=
  match CommandStatusWrapper.parse csw tag transferLength with
  | .error e => failWith T s t e
  | .ok csw =>
    if actualDataLength + csw.residue.toNat ≠ transferLength then failWith T s t .invalidCsw
    else
      match csw.status with
      | .passed => (s, t, .ok actualDataLength)
      | .failed => (s, t, .error .commandFailed)
      | .phaseError => failWith T s t .phaseError

def statusStage (t : τ) (tag : U32) (transferLength : ℕ) (actualDataLength : ℕ) : Outcome τ :=
  let csw : Bytes.Sized cswBytes := ⟨List.replicate cswBytes 0, List.length_replicate⟩
  match T.bulkInCsw t csw with
  | (t, _, .error e) => failWith T s t e
  | (t, csw, .ok cswLength) =>
    if cswLength ≠ cswBytes then failWith T s t .invalidCsw
    else checkStatus T s t tag transferLength actualDataLength csw.1

def dataStage (t : τ) (tag : U32) (direction : DataDirection) (transferLength : ℕ)
    (h : transferLength ≤ bounceBufferBytes) : Outcome τ :=
  if direction = .in ∧ transferLength ≠ 0 then
    match T.bulkIn t (s.bounce.front h) with
    | (t, data, .error e) => failWith T { s with bounce := s.bounce.overwrite h data } t e
    | (t, data, .ok length) =>
      statusStage T { s with bounce := s.bounce.overwrite h data } t tag transferLength length
  else statusStage T s t tag transferLength 0

def commandStage (t : τ) (cbw : CommandBlockWrapper) (direction : DataDirection)
    (transferLength : ℕ) (h : transferLength ≤ bounceBufferBytes) : Outcome τ :=
  match T.bulkOut t cbw.toBytes.1 with
  | (t, .error e) => failWith T s t e
  | (t, .ok cbwLength) =>
    if cbwLength ≠ cbwBytes then failWith T s t .shortTransfer
    else dataStage T s t cbw.tag direction transferLength h

/-- A sum of lengths that overflows `usize` is no transfer length, so lengths are added as natural
numbers. -/
def executeWith (t : τ) (command : ScsiCommand) (direction : DataDirection) (transferLength : ℕ) :
    Outcome τ :=
  if ¬ s.available then (s, t, .error .unavailable)
  else if h : transferLength > bounceBufferBytes ∨ (direction = .none ∧ transferLength ≠ 0) then
    (s, t, .error .invalidCommand)
  else
    let tag := s.nextTag
    let s := { s with nextTag := s.nextTag + 1 }
    match CommandBlockWrapper.new tag transferLength direction command with
    | .error e => (s, t, .error e)
    | .ok cbw =>
      commandStage T s t cbw direction transferLength (Nat.le_of_not_lt fun hlt ↦ h (.inl hlt))

def requestSense (s : UsbMassStorageState) (t : τ) :
    UsbMassStorageState × τ × Except UsbStorageError SenseData :=
  match executeWith T s t .requestSense .in requestSenseBytes with
  | (s, t, .error e) => (s, t, .error e)
  | (s, t, .ok actual) => (s, t, SenseData.parse (s.bounce.1.take actual))

def read10 (s : UsbMassStorageState) (t : τ) (lba : U32) (blocks : U16) : Outcome τ :=
  let bytes := blocks.toNat * logicalBlockSize
  match ScsiCommand.read10 lba blocks with
  | .error e => (s, t, .error e)
  | .ok command =>
    match executeWith T s t command .in bytes with
    | (s, t, .ok actual) =>
      if actual = bytes then (s, t, .ok actual) else (s, t, .error .shortTransfer)
    | (s, t, .error e) =>
      if e = .commandFailed then
        let (s, t, _) := requestSense T s t
        (s, t, .error .commandFailed)
      else (s, t, .error e)

end UsbMassStorageState

end BraneKernel
