import BraneKernel.Lib.Bytes
import BraneKernel.Xhci.Registers

namespace BraneKernel

def logicalBlockSize : ℕ := 512
def bounceBufferBytes : ℕ := 4096
def cbwBytes : ℕ := 31
def cswBytes : ℕ := 13
def requestSenseBytes : ℕ := 18
def readCapacityBytes : ℕ := 8
def cbwSignature : U32 := 0x43425355
def cswSignature : U32 := 0x53425355
def cbwDirectionIn : BitVec 8 := 0x80

inductive UsbStorageError
  | alreadyInitialized | notFound | transport (e : XhciInitError) | invalidCommand | invalidCsw
  | shortTransfer | commandFailed | phaseError | unsupportedDevice | unsupportedGeometry
  | notReady | unavailable
  deriving DecidableEq

inductive DataDirection
  | none | in
  deriving DecidableEq

structure ScsiCommand where
  bytes : Bytes.Sized 16
  len : BitVec 8

namespace ScsiCommand

def scsiRequestSense : BitVec 8 := 0x03
def scsiRead10 : BitVec 8 := 0x28

def requestSense : ScsiCommand where
  bytes := ⟨[scsiRequestSense, 0, 0, 0, BitVec.ofNat 8 requestSenseBytes] ++ List.replicate 11 0,
    by decide⟩
  len := 6

def read10 (lba : U32) (blocks : U16) : Except UsbStorageError ScsiCommand :=
  if blocks = 0 then .error .invalidCommand
  else
    .ok
      { bytes := ⟨[scsiRead10, 0] ++ Bytes.be 4 lba.toNat ++ [0] ++ Bytes.be 2 blocks.toNat ++
          List.replicate 7 0, by simp⟩
        len := 10 }

end ScsiCommand

structure CommandBlockWrapper where
  tag : U32
  transferLength : U32
  flags : BitVec 8
  lun : BitVec 8
  command : ScsiCommand

namespace CommandBlockWrapper

def new (tag : U32) (transferLength : ℕ) (direction : DataDirection) (command : ScsiCommand) :
    Except UsbStorageError CommandBlockWrapper :=
  if ¬ (1 ≤ command.len.toNat ∧ command.len.toNat ≤ 16) ∨
      command.len.toNat > command.bytes.1.length then .error .invalidCommand
  else if transferLength > 0xFFFFFFFF then .error .invalidCommand
  else
    .ok
      { tag
        transferLength := BitVec.ofNat 32 transferLength
        flags := if direction = .in then cbwDirectionIn else 0
        lun := 0
        command }

def toBytes (cbw : CommandBlockWrapper) : Bytes.Sized cbwBytes :=
  ⟨Bytes.le 4 cbwSignature.toNat ++ Bytes.le 4 cbw.tag.toNat ++
    Bytes.le 4 cbw.transferLength.toNat ++ [cbw.flags, cbw.lun, cbw.command.len] ++
    cbw.command.bytes.1, by simp [cbw.command.bytes.2, cbwBytes]⟩

end CommandBlockWrapper

inductive CommandStatus
  | passed | failed | phaseError
  deriving DecidableEq

def CommandStatus.ofByte (byte : BitVec 8) : Option CommandStatus :=
  if byte = 0 then some .passed
  else if byte = 1 then some .failed
  else if byte = 2 then some .phaseError
  else none

structure CommandStatusWrapper where
  residue : U32
  status : CommandStatus

def leWord (bytes : Bytes) (start : ℕ) : U32 :=
  BitVec.ofNat 32 (Bytes.ofLe ((bytes.drop start).take 4))

def CommandStatusWrapper.parse (bytes : Bytes) (expectedTag : U32) (transferLength : ℕ) :
    Except UsbStorageError CommandStatusWrapper :=
  if bytes.length ≠ cswBytes then .error .invalidCsw
  else
    let signature := leWord bytes 0
    let tag := leWord bytes 4
    let residue := leWord bytes 8
    if signature ≠ cswSignature ∨ tag ≠ expectedTag ∨ residue.toNat > transferLength then
      .error .invalidCsw
    else
      match (bytes.drop 12).head?.bind CommandStatus.ofByte with
      | some status => .ok { residue, status }
      | none => .error .invalidCsw

structure SenseData where
  responseCode : BitVec 8
  key : BitVec 8
  asc : BitVec 8
  ascq : BitVec 8

def SenseData.parse (bytes : Bytes) : Except UsbStorageError SenseData :=
  match bytes with
  | b0 :: _ :: b2 :: _ :: _ :: _ :: _ :: _ :: _ :: _ :: _ :: _ :: b12 :: b13 :: _ =>
    if b0 &&& 0x7F = 0x70 ∨ b0 &&& 0x7F = 0x71 then
      .ok ⟨b0 &&& 0x7F, b2 &&& 0x0F, b12, b13⟩
    else .error .unsupportedDevice
  | _ => .error .unsupportedDevice

structure Capacity where
  blockCount : U64
  blockSize : U32

def Capacity.parse (bytes : Bytes) : Except UsbStorageError Capacity :=
  if bytes.length ≠ readCapacityBytes then .error .unsupportedGeometry
  else
    let lastLba := Bytes.ofBe (bytes.take 4)
    let blockSize := Bytes.ofBe ((bytes.drop 4).take 4)
    if lastLba = 0xFFFFFFFF ∨ blockSize ≠ logicalBlockSize then .error .unsupportedGeometry
    else .ok ⟨BitVec.ofNat 64 (lastLba + 1), BitVec.ofNat 32 blockSize⟩

end BraneKernel
