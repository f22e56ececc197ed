import BraneKernel.Pci.Ecam

namespace BraneKernel

def invalidVendorId : U16 := 0xFFFF
def maxPciBars : ℕ := 6

abbrev PciConfigSpace := PciAddress → U16 → U32

inductive PciBar
  | unused
  | io (base : U32)
  | memory32 (base : U32) (prefetchable : Bool)
  | memory64 (base : U64) (prefetchable : Bool)
  | upperHalf64
  | reserved (raw : U32)
  deriving DecidableEq

namespace PciBar

def base : PciBar → Option U64
  | .io base | .memory32 base _ => some (base.setWidth 64)
  | .memory64 base _ => some base
  | .unused | .upperHalf64 | .reserved _ => none

def isMemory : PciBar → Bool
  | .memory32 _ _ | .memory64 _ _ => true
  | _ => false

end PciBar

abbrev PerBar (α : Type) := { entries : List α // entries.length = maxPciBars }

structure PciDevice where
  address : PciAddress
  vendorId : U16
  deviceId : U16
  command : U16
  status : U16
  revisionId : BitVec 8
  programmingInterface : BitVec 8
  subclass : BitVec 8
  classCode : BitVec 8
  headerType : BitVec 8
  multifunction : Bool
  subsystemVendorId : U16
  subsystemId : U16
  bars : PerBar PciBar
  barSizes : PerBar U64
  interruptLine : BitVec 8
  interruptPin : BitVec 8
  secondaryBus : Option (BitVec 8)
  deriving DecidableEq

def PciDevice.isPciBridge (d : PciDevice) : Bool := d.classCode == 0x06 && d.subclass == 0x04

namespace PciConfigSpace

variable (config : PciConfigSpace)

def readU16 (address : PciAddress) (offset : U16) : U16 :=
  ((config address (offset &&& 0xFC) >>> ((offset &&& 2) * 8)) &&& 0xFFFF).setWidth 16

def functionExists (address : PciAddress) : Bool :=
  config.readU16 address 0x00 != invalidVendorId

def rawBar (address : PciAddress) (index : ℕ) : U32 :=
  config address (0x10 + BitVec.ofNat 16 index * 4)

/-- The registers from `index` on, of which `n` are left. The last one cannot be
the low half of a 64-bit base. -/
def decodeBarsFrom (config : PciConfigSpace) (address : PciAddress) : ℕ → ℕ → List PciBar
  | 0, _ => []
  | n + 1, index =>
    let raw := config.rawBar address index
    let prefetchable := raw &&& 0x8 != 0
    if raw = 0 ∨ raw = BitVec.allOnes 32 then .unused :: decodeBarsFrom config address n (index + 1)
    else if raw &&& 1 ≠ 0 then
      .io (raw &&& 0xFFFFFFFC) :: decodeBarsFrom config address n (index + 1)
    else if (raw >>> 1) &&& 0x3 = 0 ∨ (raw >>> 1) &&& 0x3 = 1 then
      .memory32 (raw &&& 0xFFFFFFF0) prefetchable :: decodeBarsFrom config address n (index + 1)
    else
      match n with
      | 0 => [.reserved raw]
      | n + 1 =>
        if (raw >>> 1) &&& 0x3 = 2 then
          let upper := config.rawBar address (index + 1)
          .memory64 (upper.setWidth 64 <<< 32 ||| (raw &&& 0xFFFFFFF0).setWidth 64) prefetchable ::
            .upperHalf64 :: decodeBarsFrom config address n (index + 2)
        else .reserved raw :: decodeBarsFrom config address (n + 1) (index + 1)

theorem length_decodeBarsFrom (address : PciAddress) (n index : ℕ) :
    (config.decodeBarsFrom address n index).length = n := by
  fun_induction decodeBarsFrom config address n index <;> simp_all

def decodeBars (address : PciAddress) (headerType : BitVec 8) : PerBar PciBar :=
  let limit := if headerType &&& 0x7F = 0 then 6 else if headerType &&& 0x7F = 1 then 2 else 0
  ⟨config.decodeBarsFrom address limit 0 ++ List.replicate (maxPciBars - limit) .unused, by
    rw [List.length_append, length_decodeBarsFrom, List.length_replicate]
    simp only [limit, maxPciBars]
    split_ifs <;> rfl⟩

def readDevice (address : PciAddress) : Option PciDevice :=
  let identity := config address 0x00
  if identity.setWidth 16 = invalidVendorId then none
  else
    let commandStatus := config address 0x04
    let classRevision := config address 0x08
    let rawHeaderType := (config address 0x0C >>> 16).setWidth 8
    let headerType := rawHeaderType &&& 0x7F
    let subsystem := if headerType = 0 then config address 0x2C else 0
    let interrupt := config address 0x3C
    let secondary := (config address 0x18 >>> 8).setWidth 8
    some
      { address := address
        vendorId := identity.setWidth 16
        deviceId := (identity >>> 16).setWidth 16
        command := commandStatus.setWidth 16
        status := (commandStatus >>> 16).setWidth 16
        revisionId := classRevision.setWidth 8
        programmingInterface := (classRevision >>> 8).setWidth 8
        subclass := (classRevision >>> 16).setWidth 8
        classCode := (classRevision >>> 24).setWidth 8
        headerType := headerType
        multifunction := rawHeaderType &&& 0x80 != 0
        subsystemVendorId := subsystem.setWidth 16
        subsystemId := (subsystem >>> 16).setWidth 16
        bars := config.decodeBars address headerType
        barSizes := ⟨List.replicate maxPciBars 0, List.length_replicate⟩
        interruptLine := interrupt.setWidth 8
        interruptPin := (interrupt >>> 8).setWidth 8
        secondaryBus := if headerType = 1 ∧ secondary ≠ 0 then some secondary else none }

theorem functionExists_eq (address : PciAddress) :
    config.functionExists address = (config.readDevice address).isSome := by
  have hlow : config.readU16 address 0x00 = (config address 0x00).setWidth 16 := by
    have hmask : (0xFFFF#32).setWidth 16 = BitVec.allOnes 16 := by decide
    have hshift : config address (0 &&& 0xFC) >>> ((0 &&& 2 : U16) * 8) = config address 0 :=
      BitVec.ushiftRight_zero _
    rw [readU16, hshift, BitVec.setWidth_and]
    exact (congrArg _ hmask).trans (BitVec.and_allOnes)
  rw [functionExists, hlow, readDevice]
  dsimp only
  by_cases h : (config address 0x00).setWidth 16 = invalidVendorId
  · rw [if_pos h, h]
    rfl
  · rw [if_neg h]
    exact bne_iff_ne.mpr h

theorem readDevice_address {config : PciConfigSpace} {address : PciAddress} {d : PciDevice}
    (h : config.readDevice address = some d) : d.address = address := by
  unfold readDevice at h
  dsimp only at h
  split_ifs at h <;> (obtain rfl := Option.some.inj h; rfl)

end PciConfigSpace

end BraneKernel
