import BraneKernel.Basic
import BraneKernel.Lib.Bytes
import BraneKernel.Lib.Checked

namespace BraneKernel

inductive BlockError
  | registryFull | duplicateName | invalidDevice | invalidGeometry | invalidBuffer | outOfRange
  | readOnly | busy | unsupported | io
  deriving DecidableEq

structure BlockDeviceInfo where
  blockSize : BitVec 32
  blockCount : U64

def validateTransfer (info : BlockDeviceInfo) (lba : U64) (bufferLen : ℕ) :
    Except BlockError Unit :=
  if bufferLen = 0 ∨ bufferLen % info.blockSize.toNat ≠ 0 then .error .invalidBuffer
  else
    match Checked.add lba (BitVec.ofNat 64 (bufferLen / info.blockSize.toNat)) with
    | none => .error .outOfRange
    | some stop => if stop > info.blockCount then .error .outOfRange else .ok ()

/-- A registered device. The driver either fills the whole buffer or fails. -/
structure BlockDeviceHandle where
  info : BlockDeviceInfo
  readBlocks : U64 → (n : ℕ) → Except BlockError (Bytes.Sized n)

def BlockDeviceHandle.read (device : BlockDeviceHandle) (lba : U64) (n : ℕ) :
    Except BlockError (Bytes.Sized n) :=
  match validateTransfer device.info lba n with
  | .error e => .error e
  | .ok () => device.readBlocks lba n

theorem BlockDeviceHandle.read_one {device : BlockDeviceHandle} {lba : U64} {n : ℕ} (hn : 0 < n)
    (hsize : device.info.blockSize.toNat = n) (h : lba.toNat < device.info.blockCount.toNat) :
    device.read lba n = device.readBlocks lba n := by
  have hb := device.info.blockCount.isLt
  have hone : (BitVec.ofNat 64 1).toNat = 1 := by decide
  have haligned : ¬ (n = 0 ∨ n % device.info.blockSize.toNat ≠ 0) := by
    rw [hsize, Nat.mod_self]
    omega
  obtain ⟨stop, hadd, hstop⟩ := Checked.add_of_lt
    (show lba.toNat + (BitVec.ofNat 64 1).toNat < 2 ^ 64 by omega)
  have hin : ¬ stop > device.info.blockCount := by
    rw [gt_iff_lt, BitVec.lt_def]
    omega
  have hvalid : validateTransfer device.info lba n = .ok () := by
    rw [validateTransfer, if_neg haligned, hsize, Nat.div_self hn, hadd]
    exact if_neg hin
  rw [BlockDeviceHandle.read, hvalid]

end BraneKernel
