import BraneKernel.Dma

namespace BraneKernel

inductive MmioMapError
  | notMemoryBar | invalidSize | addressOverflow | apertureTooLarge | windowExhausted
  | mappingConflict | mappingTableFull | mapFailed
  deriving DecidableEq

structure MmioMapping where
  physicalBase : U64
  virtualBase : U64
  size : U64
  mappedPhysicalBase : U64
  mappedVirtualBase : U64
  mappedLen : U64
  deriving DecidableEq

namespace MmioMapping

def contains (mapping : MmioMapping) (offset width : U64) : Bool :=
  width ≠ 0 &&
    match Checked.add offset width with
    | none => false
    | some stop => stop ≤ mapping.size

def virtualAddress (mapping : MmioMapping) (offset width : U64) : Option U64 :=
  if mapping.contains offset width then Checked.add mapping.virtualBase offset else none

end MmioMapping

inductive XhciInitError
  | alreadyInitialized | missingBar0 | mmioMap (e : MmioMapError) | dma (e : DmaError)
  | registerOutsideBar | invalidCapabilityLength | invalidCapabilities | invalidRegisterLayout
  | unsupportedPageSize | scratchpadArrayTooLarge | controllerNotReadyTimeout
  | controllerHaltTimeout | controllerResetTimeout | controllerStartTimeout
  | commandCompletionTimeout | invalidCommandCompletion | commandFailed (code : BitVec 8) | busy
  | ringFull | transferTimeout | invalidTransferCompletion | transferFailed (code : BitVec 8)
  | invalidDescriptor | descriptorTooLarge | hidKeyboardNotFound | massStorageNotFound
  | invalidHidReport | invalidExtendedCapability | portResetTimeout | portNotEnabled
  | controllerError
  deriving DecidableEq

def usbEndpointDirectionIn : BitVec 8 := 0x80
def hidBootReportBytes : ℕ := 8

structure RegisterLayout where
  operationalBase : U64
  runtimeBase : U64
  doorbellBase : U64
  deriving DecidableEq

namespace RegisterLayout

def crcr : U64 := 0x18
def dcbaap : U64 := 0x30
def config : U64 := 0x38
def erdp : U64 := 0x38

variable (layout : RegisterLayout)

def required : List (U64 × U64) :=
  [(layout.operationalBase + config, 4), (layout.operationalBase + crcr, 8),
    (layout.operationalBase + dcbaap, 8), (layout.runtimeBase + erdp, 8), (layout.doorbellBase, 4)]

def new (mmio : MmioMapping) (capabilityLength : BitVec 8) (runtimeOffset doorbellOffset : U32) :
    Except XhciInitError RegisterLayout :=
  let layout : RegisterLayout :=
    { operationalBase := capabilityLength.setWidth 64
      runtimeBase := (runtimeOffset &&& ~~~0x1F).setWidth 64
      doorbellBase := (doorbellOffset &&& ~~~0x03).setWidth 64 }
  if layout.runtimeBase = 0 ∨ layout.doorbellBase = 0 ∨
      layout.required.any fun r ↦ !mmio.contains r.1 r.2 then .error .invalidRegisterLayout
  else .ok layout

def runtime (offset : U64) : U64 := layout.runtimeBase + offset

def doorbell (slotId : BitVec 8) : U64 :=
  layout.doorbellBase + slotId.setWidth 64 * 4

end RegisterLayout

end BraneKernel
