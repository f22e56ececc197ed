import BraneKernel.Block
import BraneKernel.Dma
import BraneKernel.Lib.Chunks
import Mathlib.Logic.Function.Basic

namespace BraneKernel

structure VirtqDescriptor where
  address : U64
  length : U32
  flags : U16
  next : U16

structure VirtqUsedElement where
  id : U32
  length : U32

structure VirtioBlockRequestHeader where
  requestType : U32
  reserved : U32
  sector : U64
  deriving DecidableEq

/-- The memory that driver and device share. The parts of the queue are named by their index, the
parts of a request by their physical address. -/
structure QueueMemory where
  descriptors : ℕ → VirtqDescriptor
  availableRing : ℕ → U16
  availableIndex : U16
  usedRing : ℕ → VirtqUsedElement
  usedIndex : U16
  headers : U64 → VirtioBlockRequestHeader
  buffers : U64 → Bytes
  statuses : U64 → BitVec 8

namespace Virtio

def sectorSize : ℕ := 512
def maxPollSpins : ℕ := 10000000

def typeIn : U32 := 0
def typeOut : U32 := 1
def typeFlush : U32 := 4

def statusOk : BitVec 8 := 0
def statusUnsupp : BitVec 8 := 2

def descNext : U16 := 1
def descWrite : U16 := 2

def requestHeaderOffset : U64 := 0
def requestDataOffset : U64 := 16
def requestStatusOffset : U64 := 528

def queueNotify : U16 := 0x10

/-- A request that the device has taken up, with the descriptors linked from its head. -/
structure Request where
  head : U16
  linked : List VirtqDescriptor
  header : VirtioBlockRequestHeader

/-- The device: the available entries it has taken up, the requests it has not completed, its
sectors, and the requests it has completed with their statuses. -/
structure Device where
  queueSize : U16
  seen : U16
  inFlight : List Request
  medium : U64 → Bytes
  completions : List (VirtioBlockRequestHeader × BitVec 8)

def follow (descriptors : ℕ → VirtqDescriptor) : ℕ → ℕ → List VirtqDescriptor
  | 0, _ => []
  | fuel + 1, index =>
    if (descriptors index).flags &&& descNext = 0 then [descriptors index]
    else descriptors index :: follow descriptors fuel (descriptors index).next.toNat

def Request.read (m : QueueMemory) (queueSize head : U16) : Request where
  head
  linked := follow m.descriptors queueSize.toNat head.toNat
  header := m.headers (m.descriptors head.toNat).address

def Request.data? (r : Request) : Option U64 :=
  match r.linked with
  | [_, data, _] => some data.address
  | _ => none

def Request.move (r : Request) (buffers medium : U64 → Bytes) : (U64 → Bytes) × (U64 → Bytes) :=
  match r.data? with
  | none => (buffers, medium)
  | some data =>
    if r.header.requestType = typeIn then
      (Function.update buffers data (medium r.header.sector), medium)
    else if r.header.requestType = typeOut then
      (buffers, Function.update medium r.header.sector (buffers data))
    else (buffers, medium)

inductive DeviceStep
  | fetch
  | complete (status : BitVec 8)

def fetch (m : QueueMemory) (d : Device) : Device :=
  if d.seen = m.availableIndex then d
  else
    let head := m.availableRing (d.seen.toNat % d.queueSize.toNat)
    { d with seen := d.seen + 1, inFlight := d.inFlight ++ [.read m d.queueSize head] }

def finish (m : QueueMemory) (d : Device) (r : Request) (status : BitVec 8) :
    QueueMemory × Device :=
  let (buffers, medium) :=
    if status = statusOk then r.move m.buffers d.medium else (m.buffers, d.medium)
  let statuses :=
    match r.linked.getLast? with
    | none => m.statuses
    | some last => Function.update m.statuses last.address status
  let element : VirtqUsedElement := { id := r.head.setWidth 32, length := 0 }
  ({ m with
      buffers
      statuses
      usedRing := Function.update m.usedRing (m.usedIndex.toNat % d.queueSize.toNat) element
      usedIndex := m.usedIndex + 1 },
    { d with medium, completions := d.completions ++ [(r.header, status)] })

def DeviceStep.apply (e : DeviceStep) (m : QueueMemory) (d : Device) : QueueMemory × Device :=
  match e with
  | fetch => (m, Virtio.fetch m d)
  | complete status =>
    match d.inFlight with
    | [] => (m, d)
    | r :: rest => finish m { d with inFlight := rest } r status

end Virtio

/-- The queue's memory lies in a region that its layout fits, and so does a request in a page; the
ports of the device are in the range of ports. -/
structure VirtioBlockState where
  ioBase : U16
  request : DmaRegion
  queueSize : U16
  availableIndex : U16
  lastUsedIndex : U16
  ports : ioBase.toNat + 0x18 < 0x10000
  page : request.len.toNat = frameSize ∧ request.physicalStart.toNat + frameSize ≤ 0x100000000 ∧
    request.virtualStart.toNat + frameSize < 0x10000000000000000
  size : 3 ≤ queueSize.toNat ∧ isPowerOfTwo queueSize = true

/-- Driver, shared memory, device, and the number of polls made. -/
structure VirtioWorld where
  driver : VirtioBlockState
  memory : QueueMemory
  device : Virtio.Device
  polls : ℕ

namespace VirtioBlockState

open Virtio

variable (s : VirtioBlockState)

def requestPhysical (offset : U64) : Except BlockError U64 :=
  match s.request.physicalAt offset with
  | none => .error .io
  | some address => .ok address

def requestCell (offset : U64) : U64 := s.request.physicalStart + offset

def ioPort (offset : U16) : Except BlockError U16 :=
  match Checked.add s.ioBase offset with
  | none => .error .io
  | some port => .ok port

def writeRequestHeader (requestType : U32) (sector : U64) (m : QueueMemory) : QueueMemory :=
  { m with
    headers := Function.update m.headers (s.requestCell requestHeaderOffset)
      { requestType, reserved := 0, sector } }

def resetRequestStatus (m : QueueMemory) : QueueMemory :=
  { m with statuses := Function.update m.statuses (s.requestCell requestStatusOffset) 0xFF }

def clearRequest (m : QueueMemory) : QueueMemory :=
  { m with
    headers := Function.update m.headers (s.requestCell requestHeaderOffset) ⟨0, 0, 0⟩
    buffers := Function.update m.buffers (s.requestCell requestDataOffset)
      (List.replicate Virtio.sectorSize 0)
    statuses := Function.update m.statuses (s.requestCell requestStatusOffset) 0 }

def rwDescriptors (headerAddress dataAddress statusAddress : U64) (deviceWritesData : Bool) :
    List VirtqDescriptor :=
  [{ address := headerAddress, length := 16, flags := descNext, next := 1 },
    { address := dataAddress
      length := BitVec.ofNat 32 Virtio.sectorSize
      flags := descNext ||| if deviceWritesData then descWrite else 0
      next := 2 },
    { address := statusAddress, length := 1, flags := descWrite, next := 0 }]

def writeDescriptors (descriptors : List VirtqDescriptor) (m : QueueMemory) : QueueMemory :=
  { m with
    descriptors := descriptors.zipIdx.foldl (fun ds d ↦ Function.update ds d.2 d.1)
      m.descriptors }

def prepareRwDescriptors (requestType : U32) (sector : U64) (deviceWritesData : Bool)
    (m : QueueMemory) : QueueMemory × Except BlockError Unit :=
  let m := s.resetRequestStatus (s.writeRequestHeader requestType sector m)
  match s.requestPhysical requestHeaderOffset with
  | .error e => (m, .error e)
  | .ok header =>
    match s.requestPhysical requestDataOffset with
    | .error e => (m, .error e)
    | .ok data =>
      match s.requestPhysical requestStatusOffset with
      | .error e => (m, .error e)
      | .ok status =>
        (writeDescriptors (rwDescriptors header data status deviceWritesData) m, .ok ())

/-- `submit_flush` up to the publication. The head links straight to the status. -/
def prepareFlush (m : QueueMemory) : QueueMemory × Except BlockError Unit :=
  let m := s.resetRequestStatus (s.writeRequestHeader typeFlush 0 m)
  match s.requestPhysical requestHeaderOffset with
  | .error e => (m, .error e)
  | .ok header =>
    match s.requestPhysical requestStatusOffset with
    | .error e => (m, .error e)
    | .ok status =>
      let first : VirtqDescriptor :=
        { address := header, length := 16, flags := descNext, next := 2 }
      let last : VirtqDescriptor := { address := status, length := 1, flags := descWrite, next := 0 }
      ({ m with
          descriptors := Function.update (Function.update m.descriptors 0 first) 2 last }, .ok ())

end VirtioBlockState

namespace VirtioWorld

open Virtio

variable (schedule : ℕ → List DeviceStep) (w : VirtioWorld)

def tick (steps : List DeviceStep) : VirtioWorld :=
  steps.foldl (fun w e ↦
    let (memory, device) := e.apply w.memory w.device
    { w with memory, device }) w

def poll (expected : U16) : ℕ → VirtioWorld → VirtioWorld × Bool
  | 0, w => (w, false)
  | fuel + 1, w =>
    let w := { w.tick (schedule w.polls) with polls := w.polls + 1 }
    if w.memory.usedIndex = expected then (w, true) else poll expected fuel w

def slot (index size : U16) : ℕ := index.toNat &&& (size.toNat - 1)

def statusResult (status : BitVec 8) : Except BlockError Unit :=
  if status = statusOk then .ok ()
  else if status = statusUnsupp then .error .unsupported
  else .error .io

/-- `publish_and_wait` up to the notification. -/
def publish : VirtioWorld :=
  let index := w.driver.availableIndex + 1
  { w with
    driver := { w.driver with availableIndex := index }
    memory :=
      { w.memory with
        availableRing := Function.update w.memory.availableRing
          (slot w.driver.availableIndex w.driver.queueSize) 0
        availableIndex := index } }

/-- `publish_and_wait` from the completion on. -/
def collect (expected : U16) (w : VirtioWorld) : VirtioWorld × Except BlockError Unit :=
  let used := w.memory.usedRing (slot w.driver.lastUsedIndex w.driver.queueSize)
  let w := { w with driver := { w.driver with lastUsedIndex := expected } }
  if used.id ≠ 0 then (w, .error .io)
  else
    match w.driver.request.pointerAt 1 requestStatusOffset with
    | none => (w, .error .io)
    | some _ => (w, statusResult (w.memory.statuses (w.driver.requestCell requestStatusOffset)))

def publishAndWait : VirtioWorld × Except BlockError Unit :=
  let w := w.publish
  match w.driver.ioPort queueNotify with
  | .error e => (w, .error e)
  | .ok _ =>
    let expected := w.driver.lastUsedIndex + 1
    match poll schedule expected maxPollSpins w with
    | (w, false) => (w, .error .busy)
    | (w, true) => w.collect expected

def submitRead (sector : U64) (w : VirtioWorld) : VirtioWorld × Except BlockError Bytes :=
  let m := w.driver.clearRequest w.memory
  match w.driver.prepareRwDescriptors typeIn sector true m with
  | (memory, .error e) => ({ w with memory }, .error e)
  | (memory, .ok ()) =>
    match publishAndWait schedule { w with memory } with
    | (w, .error e) => (w, .error e)
    | (w, .ok ()) => (w, .ok (w.memory.buffers (w.driver.requestCell requestDataOffset)))

def submitWrite (sector : U64) (input : Bytes) (w : VirtioWorld) :
    VirtioWorld × Except BlockError Unit :=
  let m := { w.memory with
    buffers := Function.update w.memory.buffers (w.driver.requestCell requestDataOffset) input }
  match w.driver.prepareRwDescriptors typeOut sector false m with
  | (memory, .error e) => ({ w with memory }, .error e)
  | (memory, .ok ()) => publishAndWait schedule { w with memory }

def submitFlush : VirtioWorld × Except BlockError Unit :=
  match w.driver.prepareFlush w.memory with
  | (memory, .error e) => ({ w with memory }, .error e)
  | (memory, .ok ()) => publishAndWait schedule { w with memory }

end VirtioWorld

structure VirtioBlockDevice where
  capacitySectors : U64
  readOnly : Bool
  supportsFlush : Bool

namespace VirtioBlockDevice

open Virtio

def validateTransfer (device : VirtioBlockDevice) (lba : U64) (bytes : ℕ) :
    Except BlockError Unit :=
  if bytes = 0 ∨ bytes % Virtio.sectorSize ≠ 0 then .error .invalidBuffer
  else
    match Checked.add lba (BitVec.ofNat 64 (bytes / Virtio.sectorSize)) with
    | none => .error .outOfRange
    | some stop => if stop > device.capacitySectors then .error .outOfRange else .ok ()

variable (schedule : ℕ → List DeviceStep)

def readSectors (lba : U64) : ℕ → List Bytes → VirtioWorld →
    VirtioWorld × Bytes × Except BlockError Unit
  | _, [], w => (w, [], .ok ())
  | index, sector :: rest, w =>
    match Checked.add lba (BitVec.ofNat 64 index) with
    | none => (w, sector ++ rest.flatten, .error .outOfRange)
    | some sectorLba =>
      match w.submitRead schedule sectorLba with
      | (w, .error e) => (w, sector ++ rest.flatten, .error e)
      | (w, .ok data) =>
        let (w, buffer, result) := readSectors lba (index + 1) rest w
        (w, data ++ buffer, result)

variable (device : VirtioBlockDevice)

def readBlocks (lba : U64) (buffer : Bytes) (w : VirtioWorld) :
    VirtioWorld × Bytes × Except BlockError Unit :=
  match device.validateTransfer lba buffer.length with
  | .error e => (w, buffer, .error e)
  | .ok () => readSectors schedule lba 0 (Chunks.chunksExact Virtio.sectorSize buffer) w

def writeSectors (lba : U64) : ℕ → List Bytes → VirtioWorld → VirtioWorld × Except BlockError Unit
  | _, [], w => (w, .ok ())
  | index, sector :: rest, w =>
    match Checked.add lba (BitVec.ofNat 64 index) with
    | none => (w, .error .outOfRange)
    | some sectorLba =>
      match w.submitWrite schedule sectorLba sector with
      | (w, .error e) => (w, .error e)
      | (w, .ok ()) => writeSectors lba (index + 1) rest w

def writeBlocks (lba : U64) (data : Bytes) (w : VirtioWorld) :
    VirtioWorld × Except BlockError Unit :=
  if device.readOnly then (w, .error .readOnly)
  else
    match device.validateTransfer lba data.length with
    | .error e => (w, .error e)
    | .ok () => writeSectors schedule lba 0 (Chunks.chunksExact Virtio.sectorSize data) w

def flush (w : VirtioWorld) : VirtioWorld × Except BlockError Unit :=
  if ¬ device.supportsFlush then (w, .error .unsupported) else w.submitFlush schedule

end VirtioBlockDevice

end BraneKernel
