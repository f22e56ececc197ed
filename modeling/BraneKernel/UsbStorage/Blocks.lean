import BraneKernel.Block
import BraneKernel.Lib.Chunks
import BraneKernel.UsbStorage.Transport

namespace BraneKernel

structure UsbMassStorageDevice where
  state : UsbMassStorageState
  blockCount : U64

def mapBlockError : UsbStorageError → BlockError
  | .transport .busy => .busy
  | .invalidCommand | .unsupportedGeometry => .unsupported
  | .unavailable | .notFound | .transport _ | .invalidCsw | .shortTransfer | .commandFailed
  | .phaseError | .unsupportedDevice | .notReady | .alreadyInitialized => .io

namespace UsbMassStorageDevice

def validateRead (device : UsbMassStorageDevice) (lba : U64) (bytes : ℕ) :
    Except BlockError Unit :=
  if bytes = 0 ∨ bytes % logicalBlockSize ≠ 0 then .error .invalidBuffer
  else
    let blocks := BitVec.ofNat 64 (bytes / logicalBlockSize)
    if (Checked.add lba blocks).all (fun stop ↦ stop > device.blockCount) ∨ lba > 0xFFFFFFFF then
      .error .outOfRange
    else .ok ()

def narrow (n : U64) : Option U32 :=
  if n ≤ 0xFFFFFFFF then some (n.setWidth 32) else none

variable {τ : Type} (T : BulkOnlyTransport τ)

/-- The loop of `read_blocks`: the states, the output and the result. A copy between slices of
different lengths panics. -/
def readChunks (lba : U64) (s : UsbMassStorageState) (t : τ) (completedBlocks : ℕ) :
    List Bytes → Option (UsbMassStorageState × τ × Bytes × Except BlockError Unit)
  | [] => some (s, t, [], .ok ())
  | chunk :: rest =>
    let blocks := chunk.length / logicalBlockSize
    match (Checked.add lba (BitVec.ofNat 64 completedBlocks)).bind narrow with
    | none => some (s, t, chunk ++ rest.flatten, .error .outOfRange)
    | some chunkLba =>
      match s.read10 T t chunkLba (BitVec.ofNat 16 blocks) with
      | (s, t, .error e) => some (s, t, chunk ++ rest.flatten, .error (mapBlockError e))
      | (s, t, .ok actual) =>
        if (s.bounce.1.take actual).length ≠ chunk.length then none
        else
          match readChunks lba s t (completedBlocks + blocks) rest with
          | none => none
          | some (s', t', output, result) => some (s', t', s.bounce.1.take actual ++ output, result)

def readBlocks (device : UsbMassStorageDevice) (t : τ) (lba : U64) (output : Bytes) :
    Option (UsbMassStorageDevice × τ × Bytes × Except BlockError Unit) :=
  match device.validateRead lba output.length with
  | .error e => some (device, t, output, .error e)
  | .ok () =>
    match readChunks T lba device.state t 0 (Chunks.chunks bounceBufferBytes output) with
    | none => none
    | some (state, t, output, result) => some ({ device with state }, t, output, result)

end UsbMassStorageDevice

end BraneKernel
