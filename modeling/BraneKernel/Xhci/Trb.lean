import BraneKernel.Basic
import BraneKernel.Lib.Bits
import BraneKernel.Lib.Bytes

namespace BraneKernel

def trbTypeNormal : U32 := 1
def trbTypeSetupStage : U32 := 2
def trbTypeDataStage : U32 := 3
def trbTypeStatusStage : U32 := 4
def trbTypeLink : U32 := 6
def trbTypeAddressDeviceCommand : U32 := 11
def trbTypeConfigureEndpointCommand : U32 := 12
def trbTypeResetEndpointCommand : U32 := 14
def trbTypeSetTrDequeuePointerCommand : U32 := 16
def trbTypeTransferEvent : U32 := 32
def trbTypeCommandCompletionEvent : U32 := 33
def trbTypePortStatusChangeEvent : U32 := 34
def trbCycle : U32 := 1#32 <<< 0
def linkTrbToggleCycle : U32 := 1#32 <<< 1
def trbInterruptOnShortPacket : U32 := 1#32 <<< 2
def trbChain : U32 := 1#32 <<< 4
def trbInterruptOnCompletion : U32 := 1#32 <<< 5
def trbImmediateData : U32 := 1#32 <<< 6
def trbTypeShift : ℕ := 10
def trbTypeMask : U32 := 0x3F
def trbDirectionIn : U32 := 1#32 <<< 16
def setupTransferTypeShift : ℕ := 16
def setupTransferTypeNoData : U32 := 0
def setupTransferTypeOut : U32 := 2
def setupTransferTypeIn : U32 := 3
def completionCodeSuccess : BitVec 8 := 1
def completionCodeShortPacket : BitVec 8 := 13

inductive TransferDirection
  | none | out | in
  deriving DecidableEq

structure UsbSetupPacket where
  requestType : BitVec 8
  request : BitVec 8
  value : U16
  index : U16
  length : U16
  deriving DecidableEq

def UsbSetupPacket.toBytes (packet : UsbSetupPacket) : Bytes :=
  [packet.requestType, packet.request] ++ Bytes.le 2 packet.value.toNat ++
    Bytes.le 2 packet.index.toNat ++ Bytes.le 2 packet.length.toNat

/-- A transfer request block, the 16-byte entry of every xHCI ring. -/
structure Trb where
  parameter : U64
  status : U32
  control : U32
  deriving DecidableEq

def trbBytes : ℕ := 16

namespace Trb

def link (ringPhysicalBase : U64) : Trb where
  parameter := ringPhysicalBase
  status := 0
  control := (trbTypeLink <<< trbTypeShift) ||| linkTrbToggleCycle ||| trbCycle

def resetEndpointCommand (slotId endpointId : BitVec 8) : Trb where
  parameter := 0
  status := 0
  control := (trbTypeResetEndpointCommand <<< trbTypeShift) |||
    ((endpointId.setWidth 32 &&& 0x1F) <<< 16) ||| (slotId.setWidth 32 <<< 24)

def setTrDequeuePointerCommand (dequeuePointer : U64) (slotId endpointId : BitVec 8) : Trb where
  parameter := dequeuePointer
  status := 0
  control := (trbTypeSetTrDequeuePointerCommand <<< trbTypeShift) |||
    ((endpointId.setWidth 32 &&& 0x1F) <<< 16) ||| (slotId.setWidth 32 <<< 24)

def setupStage (packet : UsbSetupPacket) (direction : TransferDirection) : Trb :=
  let transferType : U32 :=
    match direction with
    | .none => setupTransferTypeNoData
    | .out => setupTransferTypeOut
    | .in => setupTransferTypeIn
  { parameter := BitVec.ofNat 64 (Bytes.ofLe packet.toBytes)
    status := 8
    control := (trbTypeSetupStage <<< trbTypeShift) ||| trbImmediateData ||| trbChain |||
      (transferType <<< setupTransferTypeShift) }

def directionBit : TransferDirection → U32
  | .in => trbDirectionIn
  | .none | .out => 0

def dataStage (buffer : U64) (length : U16) (direction : TransferDirection) : Trb where
  parameter := buffer
  status := length.setWidth 32
  control := (trbTypeDataStage <<< trbTypeShift) ||| trbChain ||| trbInterruptOnShortPacket |||
    directionBit direction

def statusStage (direction : TransferDirection) : Trb where
  parameter := 0
  status := 0
  control := (trbTypeStatusStage <<< trbTypeShift) ||| trbInterruptOnCompletion |||
    directionBit direction

def normal (buffer : U64) (length : U16) : Trb where
  parameter := buffer
  status := length.setWidth 32
  control := (trbTypeNormal <<< trbTypeShift) ||| trbInterruptOnShortPacket |||
    trbInterruptOnCompletion

variable (trb : Trb)

def withCycle (cycle : Bool) : Trb :=
  { trb with
    control :=
      if cycle then (trb.control &&& ~~~trbCycle) ||| trbCycle else trb.control &&& ~~~trbCycle }

def cycle : Bool := trb.control &&& trbCycle ≠ 0

def trbType : U32 := (trb.control >>> trbTypeShift) &&& trbTypeMask

def completionCode : BitVec 8 := (trb.status >>> 24).setWidth 8

def slotId : BitVec 8 := (trb.control >>> 24).setWidth 8

def endpointId : BitVec 8 := ((trb.control >>> 16) &&& 0x1F).setWidth 8

def transferLength : U32 := trb.status &&& 0x00FFFFFF

theorem cycle_eq : trb.cycle = trb.control.getLsbD 0 := by
  rw [Bool.eq_iff_iff, cycle, decide_eq_true_iff]
  exact Bits.and_mask_ne_zero_iff (i := 0) trb.control (by decide)

theorem getLsbD_withCycle (c : Bool) {i : ℕ} (hi : i < 32) :
    (trb.withCycle c).control.getLsbD i = if i = 0 then c else trb.control.getLsbD i := by
  cases c with
  | false =>
    simp only [withCycle, Bool.false_eq_true, if_false]
    exact Bits.getLsbD_and_not_mask trb.control hi
  | true =>
    simp only [withCycle, if_true, trbCycle]
    rw [Bits.getLsbD_or_mask _ hi, Bits.getLsbD_and_not_mask _ hi]
    split_ifs <;> rfl

@[simp] theorem cycle_withCycle (c : Bool) : (trb.withCycle c).cycle = c := by
  rw [cycle_eq, getLsbD_withCycle trb c (by decide), if_pos rfl]

@[simp] theorem withCycle_withCycle (c d : Bool) :
    (trb.withCycle c).withCycle d = trb.withCycle d := by
  have hcontrol : ((trb.withCycle c).withCycle d).control = (trb.withCycle d).control := by
    refine BitVec.eq_of_getLsbD_eq fun i hi ↦ ?_
    rw [getLsbD_withCycle _ d hi, getLsbD_withCycle _ c hi, getLsbD_withCycle _ d hi]
    split_ifs <;> rfl
  rw [withCycle, withCycle, mk.injEq]
  exact ⟨rfl, rfl, hcontrol⟩

@[simp] theorem withCycle_cycle : trb.withCycle trb.cycle = trb := by
  have hcontrol : (trb.withCycle trb.cycle).control = trb.control := by
    refine BitVec.eq_of_getLsbD_eq fun i hi ↦ ?_
    rw [getLsbD_withCycle _ _ hi, cycle_eq]
    split_ifs with hzero
    · rw [hzero]
    · rfl
  rw [withCycle, mk.injEq]
  exact ⟨rfl, rfl, hcontrol⟩

theorem link_withCycle (base : U64) : (link base).withCycle true = link base := by
  have hcycle : (link base).cycle = true := by
    simp only [cycle_eq, link]
    decide
  rw [← hcycle, withCycle_cycle]

end Trb

end BraneKernel
