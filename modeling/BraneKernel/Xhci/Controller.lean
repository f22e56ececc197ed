import BraneKernel.Lib.Attempt
import BraneKernel.Xhci.Events
import BraneKernel.Xhci.Ring

namespace BraneKernel

namespace Xhci

def maxPollSpins : ℕ := 10000000
def eventHandlerBusy : U64 := 1#64 <<< 3
def usbRequestTypeClassInterfaceOut : BitVec 8 := 0x21
def usbRequestTypeEndpointOut : BitVec 8 := 0x02
def massStorageRequestReset : BitVec 8 := 0xFF
def usbRequestClearFeature : BitVec 8 := 1
def usbFeatureEndpointHalt : U16 := 0

end Xhci

structure XhciDevice where
  slotId : BitVec 8
  deviceContext : DmaRegion
  endpointZeroRing : DmaRegion
  endpointZeroCursor : RingCursor
  descriptorBuffer : DmaRegion
  hidEndpointId : BitVec 8
  hidTransferRing : Option DmaRegion
  hidTransferCursor : RingCursor
  hidReportBuffer : Option DmaRegion
  hidTransferPending : Bool
  massStorageInterface : BitVec 8
  massStorageBulkInAddress : BitVec 8
  massStorageBulkOutAddress : BitVec 8
  massStorageBulkInId : BitVec 8
  massStorageBulkOutId : BitVec 8
  massStorageBulkInRing : Option DmaRegion
  massStorageBulkOutRing : Option DmaRegion
  massStorageBulkInCursor : RingCursor
  massStorageBulkOutCursor : RingCursor

structure XhciController where
  mmio : MmioMapping
  layout : RegisterLayout
  commandRing : DmaRegion
  eventRing : DmaRegion
  contextSize : ℕ
  commandEnqueueIndex : ℕ
  commandCycle : Bool
  eventDequeueIndex : ℕ
  eventCycle : Bool
  events : EventDispatchState
  firstDevice : Option XhciDevice

/-- The memory that the driver and the controller share: the blocks of the
rings, the words of the device contexts and the bytes of the buffers. -/
structure XhciMemory where
  trbs : U64 → Trb
  words : U64 → U32
  bytes : U64 → BitVec 8

/-- The driver with the shared memory, its register writes so far, the latest
first, and the number of its polls. -/
structure XhciWorld extends XhciController where
  memory : XhciMemory
  mmioWrites : List (U64 × U32)
  polls : ℕ

/-- What the hardware does to the memory before each poll. -/
abbrev XhciHardware := ℕ → XhciMemory → XhciMemory

abbrev XhciAction := Attempt XhciWorld XhciInitError

namespace XhciWorld

open Attempt

def writeMmioU32 (offset : U64) (value : U32) : XhciAction Unit := do
  let w ← get
  let address ← demand .registerOutsideBar (w.mmio.virtualAddress offset 4)
  modify fun w ↦ { w with mmioWrites := (address, value) :: w.mmioWrites }

def writeMmioU64 (offset : U64) (value : U64) : XhciAction Unit := do
  let w ← get
  let _ ← demand .registerOutsideBar (w.mmio.virtualAddress offset 8)
  writeMmioU32 offset (value.setWidth 32)
  writeMmioU32 (offset + 4) ((value >>> 32).setWidth 32)

def writeTrb (pointer : U64) (trb : Trb) (w : XhciWorld) : XhciWorld :=
  { w with memory := { w.memory with trbs := Function.update w.memory.trbs pointer trb } }

def writeTrbs (writes : List (U64 × Trb)) (w : XhciWorld) : XhciWorld :=
  { w with
    memory :=
      { w.memory with
        trbs := writes.foldl (fun m write ↦ Function.update m write.1 write.2) w.memory.trbs } }

def clearDma (region : DmaRegion) (bytes : ℕ) : XhciAction Unit := do
  if bytes > region.len.toNat then fail .invalidCapabilities
  else
    let start := region.virtualStart.toNat
    modify fun w ↦
      { w with
        memory :=
          { w.memory with
            bytes := fun a ↦
              if start ≤ a.toNat ∧ a.toNat < start + bytes then 0 else w.memory.bytes a } }

def readDmaU32 (region : DmaRegion) (offset : ℕ) : XhciAction U32 := do
  let w ← get
  let pointer ← demand .invalidCapabilities (region.pointerAt 4 (BitVec.ofNat 64 offset))
  return w.memory.words pointer

def enqueueTd (ring : DmaRegion) (cursor : RingCursor) (trbs : List Trb) :
    XhciAction (RingCursor × U64) := do
  let (cursor, writes, result) := enqueueTransferTd ring cursor trbs
  modify (writeTrbs writes)
  let final ← ofExcept result
  return (cursor, final)

def advanceCommandRing : XhciAction Unit := do
  modify fun w ↦ { w with commandEnqueueIndex := w.commandEnqueueIndex + 1 }
  let w ← get
  if w.commandEnqueueIndex = commandRingUsableTrbs then
    let linkPointer ← demand .invalidCapabilities (w.commandRing.trbPointer commandRingUsableTrbs)
    modify (writeTrb linkPointer ((Trb.link w.commandRing.physicalStart).withCycle w.commandCycle))
    modify fun w ↦ { w with commandEnqueueIndex := 0, commandCycle := !w.commandCycle }

def nextEvent (w : XhciWorld) : XhciWorld :=
  { w with
    eventDequeueIndex :=
      if w.eventDequeueIndex + 1 = eventRingTrbs then 0 else w.eventDequeueIndex + 1
    eventCycle := if w.eventDequeueIndex + 1 = eventRingTrbs then !w.eventCycle else w.eventCycle }

def advanceEventRing : XhciAction Unit := do
  modify nextEvent
  let w ← get
  let dequeue ← demand .invalidCapabilities (w.eventRing.trbPhysical w.eventDequeueIndex)
  writeMmioU64 (w.layout.runtime RegisterLayout.erdp) (dequeue ||| Xhci.eventHandlerBusy)

def dispatchOneEvent : XhciAction Bool := do
  let w ← get
  let eventPointer ← demand .invalidCapabilities (w.eventRing.trbPointer w.eventDequeueIndex)
  let event := w.memory.trbs eventPointer
  if event.cycle ≠ w.eventCycle then return false
  else
    modify fun w ↦ { w with events := w.events.dispatch event }
    advanceEventRing
    return true

variable (hardware : XhciHardware)

/-- The hardware acts, then the driver looks at the event ring. -/
def poll : XhciAction Bool := do
  modify fun w ↦ { w with memory := hardware w.polls w.memory, polls := w.polls + 1 }
  dispatchOneEvent

/-- The loop of `submit_command`. -/
def waitForCommand : ℕ → XhciAction Trb
  | 0 => fail .commandCompletionTimeout
  | spins + 1 => do
    let _ ← poll hardware
    let w ← get
    match w.events.command.bind (·.completion) with
    | none => waitForCommand spins
    | some event =>
      modify fun w ↦ { w with events := { w.events with command := none } }
      if event.completionCode ≠ completionCodeSuccess then
        fail (.commandFailed event.completionCode)
      else return event

def expectedSlot (command : Trb) : Option (BitVec 8) :=
  if command.trbType = trbTypeAddressDeviceCommand ∨
      command.trbType = trbTypeConfigureEndpointCommand ∨
      command.trbType = trbTypeResetEndpointCommand ∨
      command.trbType = trbTypeSetTrDequeuePointerCommand then some command.slotId
  else none

/-- `submit_command` up to its loop. -/
def startCommand (command : Trb) : XhciAction Unit := do
  let w ← get
  if w.events.command.isSome then fail .busy
  else
    let physical ← demand .invalidCapabilities (w.commandRing.trbPhysical w.commandEnqueueIndex)
    let pointer ← demand .invalidCapabilities (w.commandRing.trbPointer w.commandEnqueueIndex)
    modify (writeTrb pointer (command.withCycle w.commandCycle))
    modify fun w ↦
      { w with
        events := { w.events with command := some ⟨physical, expectedSlot command, none⟩ } }
    advanceCommandRing
    writeMmioU32 w.layout.doorbellBase 0

def submitCommand (command : Trb) : XhciAction Trb := do
  startCommand command
  waitForCommand hardware Xhci.maxPollSpins

def transferResult (pending : PendingTransfer) (event : Trb) : Except XhciInitError U16 :=
  if event.completionCode = completionCodeSuccess then .ok pending.requestedLength
  else if event.completionCode = completionCodeShortPacket then
    if event.transferLength.toNat < 65536 then
      match Checked.sub pending.requestedLength (event.transferLength.setWidth 16) with
      | none => .error .invalidTransferCompletion
      | some actual => .ok actual
    else .error .invalidTransferCompletion
  else .error (.transferFailed event.completionCode)

/-- `wait_for_transfer` with the given number of polls. -/
def waitForTransfer (owner : TransferOwner) : ℕ → XhciAction U16
  | 0 => fail .transferTimeout
  | spins + 1 => do
    let _ ← poll hardware
    let w ← get
    match w.events.transfer with
    | none => waitForTransfer owner spins
    | some pending =>
      match pending.completion with
      | none => waitForTransfer owner spins
      | some event =>
        if pending.owner = owner then
          modify fun w ↦ { w with events := { w.events with transfer := none } }
          ofExcept (transferResult pending event)
        else waitForTransfer owner spins

def ringFor (pending : PendingTransfer) (target : U32) : XhciAction Unit := do
  modify fun w ↦ { w with events := { w.events with transfer := some pending } }
  let w ← get
  writeMmioU32 (w.layout.doorbell pending.slotId) target

def controlDirection (packet : UsbSetupPacket) : TransferDirection :=
  if packet.length = 0 then .none
  else if packet.requestType &&& usbEndpointDirectionIn ≠ 0 then .in
  else .out

def controlStages (buffer : U64) (packet : UsbSetupPacket) : List Trb :=
  let direction := controlDirection packet
  let statusDirection : TransferDirection := if direction = .in then .out else .in
  if direction = .none then [.setupStage packet direction, .statusStage statusDirection]
  else
    [.setupStage packet direction, .dataStage buffer packet.length direction,
      .statusStage statusDirection]

def dataStagePointer (direction : TransferDirection) (finalPointer : U64) :
    XhciAction (Option U64) :=
  if direction = .none then pure none
  else do
    let pointer ← demand .invalidCapabilities (Checked.sub finalPointer (BitVec.ofNat 64 trbBytes))
    return some pointer

def storeControlCursor (cursor : RingCursor) (device : XhciDevice) : XhciDevice :=
  { device with endpointZeroCursor := cursor }

def prepareControlTransfer (packet : UsbSetupPacket) : XhciAction PendingTransfer := do
  let w ← get
  let device ← demand .invalidCapabilities w.firstDevice
  clearDma device.descriptorBuffer packet.length.toNat
  let (cursor, finalPointer) ← enqueueTd device.endpointZeroRing device.endpointZeroCursor
    (controlStages device.descriptorBuffer.physicalStart packet)
  let shortPacketPointer ← dataStagePointer (controlDirection packet) finalPointer
  modify fun w ↦ { w with firstDevice := w.firstDevice.map (storeControlCursor cursor) }
  return {
    owner := .control
    trbPointer := finalPointer
    shortPacketPointer
    slotId := device.slotId
    endpointId := 1
    requestedLength := packet.length
    completion := none }

/-- `control_transfer` up to its wait. -/
def startControlTransfer (packet : UsbSetupPacket) : XhciAction Unit := do
  let w ← get
  if w.events.transfer.isSome then fail .busy
  else if packet.length.toNat > frameSize then fail .descriptorTooLarge
  else
    let pending ← prepareControlTransfer packet
    ringFor pending 1

def controlTransfer (packet : UsbSetupPacket) : XhciAction U16 := do
  startControlTransfer packet
  waitForTransfer hardware .control Xhci.maxPollSpins

structure BulkEndpoint where
  ring : DmaRegion
  cursor : RingCursor
  endpointId : BitVec 8
  owner : TransferOwner

def bulkEndpoint (device : XhciDevice) : TransferDirection → XhciAction BulkEndpoint
  | .in => do
    let ring ← demand .massStorageNotFound device.massStorageBulkInRing
    return ⟨ring, device.massStorageBulkInCursor, device.massStorageBulkInId, .bulkIn⟩
  | .out => do
    let ring ← demand .massStorageNotFound device.massStorageBulkOutRing
    return ⟨ring, device.massStorageBulkOutCursor, device.massStorageBulkOutId, .bulkOut⟩
  | .none => fail .invalidTransferCompletion

def storeBulkCursor (direction : TransferDirection) (cursor : RingCursor) (device : XhciDevice) :
    XhciDevice :=
  match direction with
  | .in => { device with massStorageBulkInCursor := cursor }
  | .out => { device with massStorageBulkOutCursor := cursor }
  | .none => device

def prepareBulkTransfer (direction : TransferDirection) (length : U16) (buffer : DmaRegion) :
    XhciAction PendingTransfer := do
  let w ← get
  let device ← demand .massStorageNotFound w.firstDevice
  let endpoint ← bulkEndpoint device direction
  let (cursor, finalPointer) ← enqueueTd endpoint.ring endpoint.cursor
    [.normal buffer.physicalStart length]
  modify fun w ↦ { w with firstDevice := w.firstDevice.map (storeBulkCursor direction cursor) }
  return {
    owner := endpoint.owner
    trbPointer := finalPointer
    shortPacketPointer := none
    slotId := device.slotId
    endpointId := endpoint.endpointId
    requestedLength := length
    completion := none }

/-- `submit_bulk_transfer` up to its wait. -/
def startBulkTransfer (direction : TransferDirection) (length : U16) (buffer : DmaRegion) :
    XhciAction TransferOwner := do
  let w ← get
  if w.events.transfer.isSome then fail .busy
  else if length = 0 ∨ length.toNat > frameSize then fail .invalidTransferCompletion
  else
    let pending ← prepareBulkTransfer direction length buffer
    ringFor pending (pending.endpointId.setWidth 32)
    return pending.owner

def submitBulkTransfer (direction : TransferDirection) (length : U16) (buffer : DmaRegion) :
    XhciAction (U16 × DmaRegion) := do
  let owner ← startBulkTransfer direction length buffer
  let actual ← waitForTransfer hardware owner Xhci.maxPollSpins
  return (actual, buffer)

def storageRing (device : XhciDevice) (endpointId : BitVec 8) :
    XhciAction (DmaRegion × RingCursor) :=
  if endpointId = device.massStorageBulkInId then do
    let ring ← demand .massStorageNotFound device.massStorageBulkInRing
    return (ring, device.massStorageBulkInCursor)
  else if endpointId = device.massStorageBulkOutId then do
    let ring ← demand .massStorageNotFound device.massStorageBulkOutRing
    return (ring, device.massStorageBulkOutCursor)
  else fail .invalidCapabilities

def synchronizeMassStorageEndpoint (endpointId : BitVec 8) : XhciAction Unit := do
  let w ← get
  let device ← demand .massStorageNotFound w.firstDevice
  let (ring, cursor) ← storageRing device endpointId
  let state ← readDmaU32 device.deviceContext (w.contextSize * endpointId.toNat)
  if state &&& 0x7 ≠ 2 then return ()
  else
    let _ ← submitCommand hardware (.resetEndpointCommand device.slotId endpointId)
    let physical ← demand .invalidCapabilities (ring.trbPhysical cursor.enqueueIndex)
    let dequeue := physical ||| if cursor.cycle then 1 else 0
    let _ ← submitCommand hardware
      (.setTrDequeuePointerCommand dequeue device.slotId endpointId)
    return ()

def massStorageReset (interface : BitVec 8) : UsbSetupPacket :=
  ⟨Xhci.usbRequestTypeClassInterfaceOut, Xhci.massStorageRequestReset, 0, interface.setWidth 16, 0⟩

def clearEndpointHalt (endpointAddress : BitVec 8) : UsbSetupPacket :=
  ⟨Xhci.usbRequestTypeEndpointOut, Xhci.usbRequestClearFeature, Xhci.usbFeatureEndpointHalt,
    endpointAddress.setWidth 16, 0⟩

def resetMassStorageTransport : XhciAction Unit := do
  let w ← get
  if w.events.transfer.isSome then fail .busy
  else
    let device ← demand .massStorageNotFound w.firstDevice
    let _ ← controlTransfer hardware (massStorageReset device.massStorageInterface)
    let _ ← controlTransfer hardware (clearEndpointHalt device.massStorageBulkInAddress)
    let _ ← controlTransfer hardware (clearEndpointHalt device.massStorageBulkOutAddress)
    synchronizeMassStorageEndpoint hardware device.massStorageBulkInId
    synchronizeMassStorageEndpoint hardware device.massStorageBulkOutId

def armHidTransfer : XhciAction Unit := do
  let w ← get
  if w.events.transfer.isSome then fail .busy
  else
    let device ← demand .invalidCapabilities w.firstDevice
    let ring ← demand .hidKeyboardNotFound device.hidTransferRing
    let reportBuffer ← demand .hidKeyboardNotFound device.hidReportBuffer
    if device.hidTransferPending then fail .busy
    else
      let length : U16 := BitVec.ofNat 16 hidBootReportBytes
      clearDma reportBuffer hidBootReportBytes
      let (cursor, finalPointer) ← enqueueTd ring device.hidTransferCursor
        [.normal reportBuffer.physicalStart length]
      modify fun w ↦
        { w with
          firstDevice := w.firstDevice.map fun d ↦
            { d with hidTransferCursor := cursor, hidTransferPending := true } }
      ringFor
        { owner := .hid
          trbPointer := finalPointer
          shortPacketPointer := none
          slotId := device.slotId
          endpointId := device.hidEndpointId
          requestedLength := length
          completion := none } (device.hidEndpointId.setWidth 32)

end XhciWorld

end BraneKernel
