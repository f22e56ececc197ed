import BraneKernel.Lib.Bytes
import BraneKernel.Lib.Records
import BraneKernel.Xhci.Registers

namespace BraneKernel

open Records (Turn Result IsRecord)

def usbDescriptorConfiguration : BitVec 8 := 2
def usbDescriptorInterface : BitVec 8 := 4
def usbDescriptorEndpoint : BitVec 8 := 5
def usbClassHid : BitVec 8 := 0x03
def hidSubclassBoot : BitVec 8 := 0x01
def hidProtocolKeyboard : BitVec 8 := 0x01
def usbEndpointTransferTypeMask : BitVec 8 := 0x03
def usbEndpointTransferInterrupt : BitVec 8 := 0x03
def usbEndpointTransferBulk : BitVec 8 := 0x02
def usbClassMassStorage : BitVec 8 := 0x08
def massStorageSubclassScsi : BitVec 8 := 0x06
def massStorageProtocolBulkOnly : BitVec 8 := 0x50

structure HidKeyboardDescriptor where
  configurationValue : BitVec 8
  interfaceNumber : BitVec 8
  endpointAddress : BitVec 8
  maxPacketSize : U16
  interval : BitVec 8
  deriving DecidableEq

structure MassStorageDescriptor where
  configurationValue : BitVec 8
  interfaceNumber : BitVec 8
  bulkInAddress : BitVec 8
  bulkInMaxPacketSize : U16
  bulkOutAddress : BitVec 8
  bulkOutMaxPacketSize : U16
  deriving DecidableEq

def readU16 (bytes : Bytes) (offset : ℕ) : Option U16 := do
  let low ← bytes[offset]?
  let high ← bytes[offset + 1]?
  return high ++ low

def configurationTotalLength (bytes : Bytes) : Option (Except XhciInitError U16) :=
  if bytes.length < 9 then some (.error .invalidDescriptor)
  else do
    let length ← bytes[0]?
    let kind ← bytes[1]?
    if length < 9 ∨ kind ≠ usbDescriptorConfiguration then some (.error .invalidDescriptor)
    else
      match readU16 bytes 2 with
      | none => some (.error .invalidDescriptor)
      | some total =>
        if total < 9 then some (.error .invalidDescriptor)
        else if frameSize < total.toNat then some (.error .descriptorTooLarge)
        else some (.ok total)

def configurationHeader (bytes : Bytes) : Option (Except XhciInitError (ℕ × BitVec 8)) := do
  match ← configurationTotalLength bytes with
  | .error e => some (.error e)
  | .ok total =>
    if bytes.length < total.toNat then some (.error .invalidDescriptor)
    else
      let length ← bytes[0]?
      if length < 9 ∨ total.toNat < length.toNat then some (.error .invalidDescriptor)
      else
        let configurationValue ← bytes[5]?
        if configurationValue = 0 then some (.error .invalidDescriptor)
        else some (.ok (total.toNat, configurationValue))

section Loop

variable {σ β : Type}

/-- The loop of both parsers over the descriptors before `total`. `none` is a slice
out of range, or a loop that has not ended after `fuel` turns. -/
def descriptorLoop (bytes : Bytes) (total : ℕ) (turn : σ → Bytes → Option (Turn σ β)) :
    ℕ → ℕ → σ → Option (Result σ β)
  | 0, _, _ => none
  | fuel + 1, offset, s =>
    if total ≤ offset then some (.ended s)
    else
      match bytes[offset]?, bytes[offset + 1]? with
      | some length, some _ =>
        if length.toNat < 2 then some .malformed
        else if total < offset + length.toNat then some .malformed
        else if bytes.length < offset + length.toNat then none
        else
          (turn s ((bytes.drop offset).take length.toNat)).bind
            (Turn.resume fun s ↦ descriptorLoop bytes total turn fuel (offset + length.toNat) s)
      | _, _ => some .malformed

def parseConfiguration {γ : Type} (turn : BitVec 8 → σ → Bytes → Option (Turn σ β)) (start : σ)
    (finish : BitVec 8 → Result σ β → Except XhciInitError γ) (bytes : Bytes) :
    Option (Except XhciInitError γ) :=
  (configurationHeader bytes).bind fun
    | .error e => some (.error e)
    | .ok (total, configurationValue) =>
      (descriptorLoop bytes total (turn configurationValue) (total + 1) 0 start).map
        (finish configurationValue)

def descriptorSize (length _ : BitVec 8) : ℕ := length.toNat

variable {bytes : Bytes} {total : ℕ} {turn : σ → Bytes → Option (Turn σ β)} {s : σ}

theorem descriptorLoop_eq (htotal : total ≤ bytes.length) (fuel offset : ℕ) (s : σ) :
    descriptorLoop bytes total turn fuel offset s =
      Records.scan descriptorSize turn fuel s ((bytes.take total).drop offset) := by
  induction fuel generalizing offset s with
  | zero => rfl
  | succ fuel ih =>
    rw [descriptorLoop]
    by_cases hend : total ≤ offset
    · rw [if_pos hend, Records.scan_end hend]
    rw [if_neg hend]
    obtain ⟨length, hlength⟩ : ∃ length, bytes[offset]? = some length :=
      ⟨_, List.getElem?_eq_getElem (by omega)⟩
    rw [hlength]
    cases hkind : bytes[offset + 1]? with
    | none =>
      have hshort := List.getElem?_eq_none_iff.mp hkind
      rw [Records.scan_short (by omega) (by omega) htotal]
    | some kind =>
      dsimp only
      rcases Nat.lt_or_ge (offset + 1) total with hmore | hmore
      · rw [Records.scan_window hlength hkind hmore htotal, descriptorSize]
        by_cases hsmall : length.toNat < 2
        · rw [if_pos hsmall, if_neg (by omega)]
        by_cases hlarge : total < offset + length.toNat
        · rw [if_neg hsmall, if_pos hlarge, if_neg (by omega)]
        rw [if_neg hsmall, if_neg hlarge, if_neg (by omega), if_pos (by omega)]
        simp only [ih]
      · rw [Records.scan_short (by omega) hmore htotal]
        by_cases hsmall : length.toNat < 2
        · rw [if_pos hsmall]
        · rw [if_neg hsmall, if_pos (by omega)]

end Loop

structure UsbInterface where
  number : BitVec 8
  alternate : BitVec 8
  endpoints : BitVec 8
  classCode : BitVec 8
  subclass : BitVec 8
  protocol : BitVec 8
  deriving DecidableEq

structure UsbEndpoint where
  address : BitVec 8
  attributes : BitVec 8
  maxPacketSize : U16
  interval : BitVec 8
  deriving DecidableEq

def readInterface (descriptor : Bytes) : Option UsbInterface := do
  let number ← descriptor[2]?
  let alternate ← descriptor[3]?
  let endpoints ← descriptor[4]?
  let classCode ← descriptor[5]?
  let subclass ← descriptor[6]?
  let protocol ← descriptor[7]?
  return ⟨number, alternate, endpoints, classCode, subclass, protocol⟩

def readEndpoint (descriptor : Bytes) : Option UsbEndpoint := do
  let address ← descriptor[2]?
  let attributes ← descriptor[3]?
  let maxPacketSize ← readU16 descriptor 4
  let interval ← descriptor[6]?
  return ⟨address, attributes, maxPacketSize &&& 0x07FF, interval⟩

namespace UsbInterface

def isBootKeyboard (i : UsbInterface) : Bool :=
  i.alternate == 0 && i.classCode == usbClassHid && i.subclass == hidSubclassBoot &&
    i.protocol == hidProtocolKeyboard

def isScsiBulkOnly (i : UsbInterface) : Bool :=
  i.alternate == 0 && i.classCode == usbClassMassStorage && i.subclass == massStorageSubclassScsi &&
    i.protocol == massStorageProtocolBulkOnly

end UsbInterface

namespace UsbEndpoint

variable (e : UsbEndpoint)

def isIn : Bool := e.address &&& usbEndpointDirectionIn != 0

def isHidInterrupt : Bool :=
  e.isIn && e.address &&& 0x0F != 0 &&
    e.attributes &&& usbEndpointTransferTypeMask == usbEndpointTransferInterrupt &&
    decide (BitVec.ofNat 16 hidBootReportBytes ≤ e.maxPacketSize) && decide (e.maxPacketSize ≤ 1024) &&
    e.interval != 0

def isBulk : Bool :=
  !(e.address &&& 0x0F == 0 || e.address &&& 0x70 != 0 ||
    e.attributes &&& usbEndpointTransferTypeMask != usbEndpointTransferBulk ||
    e.maxPacketSize == 0 || decide (1024 < e.maxPacketSize))

end UsbEndpoint

/-- One descriptor of `parse_hid_keyboard_configuration`. The state is the number of
the boot keyboard interface the endpoints belong to. -/
def hidTurn (configurationValue : BitVec 8) (keyboard : Option (BitVec 8)) (descriptor : Bytes) :
    Option (Turn (Option (BitVec 8)) (Except XhciInitError HidKeyboardDescriptor)) := do
  let kind ← descriptor[1]?
  if kind = usbDescriptorInterface then
    if descriptor.length < 9 then some (.stop (.error .invalidDescriptor))
    else
      let i ← readInterface descriptor
      some (.go (if i.isBootKeyboard then some i.number else none))
  else if kind = usbDescriptorEndpoint then
    if descriptor.length < 7 then some (.stop (.error .invalidDescriptor))
    else
      match keyboard with
      | none => some (.go none)
      | some interfaceNumber =>
        let e ← readEndpoint descriptor
        if e.isHidInterrupt then
          some (.stop (.ok ⟨configurationValue, interfaceNumber, e.address, e.maxPacketSize,
            e.interval⟩))
        else some (.go (some interfaceNumber))
  else some (.go keyboard)

def hidResult {σ : Type} :
    Result σ (Except XhciInitError HidKeyboardDescriptor) → Except XhciInitError HidKeyboardDescriptor
  | .ended _ => .error .hidKeyboardNotFound
  | .stopped result => result
  | .malformed => .error .invalidDescriptor

def parseHidKeyboardConfiguration (bytes : Bytes) :
    Option (Except XhciInitError HidKeyboardDescriptor) :=
  parseConfiguration hidTurn none (fun _ ↦ hidResult) bytes

structure MassStorageScan where
  selectedInterface : Option (BitVec 8)
  bulkIn : Option (BitVec 8 × U16)
  bulkOut : Option (BitVec 8 × U16)
  deriving DecidableEq

/-- One descriptor of `parse_mass_storage_configuration`. Stopping with a state is
the `break` of the source. -/
def massStorageTurn (s : MassStorageScan) (descriptor : Bytes) :
    Option (Turn MassStorageScan (Except XhciInitError MassStorageScan)) := do
  let kind ← descriptor[1]?
  if kind = usbDescriptorInterface then
    if descriptor.length < 9 then some (.stop (.error .invalidDescriptor))
    else
      let i ← readInterface descriptor
      if i.isScsiBulkOnly then
        if s.selectedInterface.isSome ∨ i.endpoints ≠ 2 then
          some (.stop (.error .invalidDescriptor))
        else some (.go ⟨some i.number, none, none⟩)
      else if s.selectedInterface.isSome then some (.stop (.ok s))
      else some (.go s)
  else if kind = usbDescriptorEndpoint ∧ s.selectedInterface.isSome then
    if descriptor.length < 7 then some (.stop (.error .invalidDescriptor))
    else
      let e ← readEndpoint descriptor
      if e.isBulk = false then some (.stop (.error .invalidDescriptor))
      else if e.isIn then
        if s.bulkIn.isSome then some (.stop (.error .invalidDescriptor))
        else some (.go { s with bulkIn := some (e.address, e.maxPacketSize) })
      else
        if s.bulkOut.isSome then some (.stop (.error .invalidDescriptor))
        else some (.go { s with bulkOut := some (e.address, e.maxPacketSize) })
  else some (.go s)

def MassStorageScan.finish (s : MassStorageScan) (configurationValue : BitVec 8) :
    Except XhciInitError MassStorageDescriptor :=
  match s with
  | ⟨some interfaceNumber, some (inAddress, inSize), some (outAddress, outSize)⟩ =>
    .ok ⟨configurationValue, interfaceNumber, inAddress, inSize, outAddress, outSize⟩
  | _ => .error .massStorageNotFound

def massStorageResult (configurationValue : BitVec 8) :
    Result MassStorageScan (Except XhciInitError MassStorageScan) →
      Except XhciInitError MassStorageDescriptor
  | .ended s => s.finish configurationValue
  | .stopped (.ok s) => s.finish configurationValue
  | .stopped (.error e) => .error e
  | .malformed => .error .invalidDescriptor

def parseMassStorageConfiguration (bytes : Bytes) :
    Option (Except XhciInitError MassStorageDescriptor) :=
  parseConfiguration (fun _ ↦ massStorageTurn) ⟨none, none, none⟩ massStorageResult bytes

def endpointId (endpointAddress : BitVec 8) : Option (BitVec 8) :=
  let number := endpointAddress &&& 0x0F
  if number = 0 then some 1
  else if endpointAddress &&& usbEndpointDirectionIn ≠ 0 then some (number * 2 + 1)
  else some (number * 2)

structure ConfigurationHeader (bytes : Bytes) (total : ℕ) (configurationValue : BitVec 8) :
    Prop where
  length : ∃ length, bytes[0]? = some length ∧ 9 ≤ length.toNat ∧ length.toNat ≤ total
  kind : bytes[1]? = some usbDescriptorConfiguration
  declared : (readU16 bytes 2).map (·.toNat) = some total
  page : total ≤ frameSize
  inside : total ≤ bytes.length
  value : bytes[5]? = some configurationValue
  nonzero : configurationValue ≠ 0

theorem ConfigurationHeader.unique {bytes : Bytes} {total total' : ℕ} {v v' : BitVec 8}
    (h : ConfigurationHeader bytes total v) (h' : ConfigurationHeader bytes total' v') :
    total = total' ∧ v = v' :=
  ⟨Option.some.inj (h.declared.symm.trans h'.declared),
    Option.some.inj (h.value.symm.trans h'.value)⟩

theorem readU16_eq_some (bytes : Bytes) (offset : ℕ) (h : offset + 1 < bytes.length) :
    ∃ value, readU16 bytes offset = some value := by
  refine ⟨bytes[offset + 1] ++ bytes[offset], ?_⟩
  rw [readU16, List.getElem?_eq_getElem (by omega), List.getElem?_eq_getElem h]
  rfl

structure DeclaredTotal (bytes : Bytes) (total : U16) : Prop where
  length : ∃ length, bytes[0]? = some length ∧ 9 ≤ length.toNat
  kind : bytes[1]? = some usbDescriptorConfiguration
  declared : readU16 bytes 2 = some total
  nine : 9 ≤ total.toNat
  page : total.toNat ≤ frameSize
  inside : 9 ≤ bytes.length

theorem ConfigurationHeader.declaredTotal {bytes : Bytes} {total : ℕ} {v : BitVec 8}
    (h : ConfigurationHeader bytes total v) : ∃ t, DeclaredTotal bytes t ∧ t.toNat = total := by
  obtain ⟨t, ht, rfl⟩ := Option.map_eq_some_iff.mp h.declared
  obtain ⟨length, hlength, hlow, hhigh⟩ := h.length
  have hinside := h.inside
  exact ⟨t, ⟨⟨length, hlength, hlow⟩, h.kind, ht, by omega, h.page, by omega⟩, rfl⟩

theorem configurationTotalLength_cases (bytes : Bytes) :
    (∃ total, configurationTotalLength bytes = some (.ok total) ∧ DeclaredTotal bytes total) ∨
    ∃ e, configurationTotalLength bytes = some (.error e) ∧ ∀ total, ¬ DeclaredTotal bytes total := by
  unfold configurationTotalLength
  by_cases hnine : bytes.length < 9
  · rw [if_pos hnine]
    exact .inr ⟨_, rfl, fun total h ↦ absurd h.inside (by omega)⟩
  obtain ⟨length, hlength⟩ : ∃ length, bytes[0]? = some length :=
    ⟨_, List.getElem?_eq_getElem (by omega)⟩
  obtain ⟨kind, hkind⟩ : ∃ kind, bytes[1]? = some kind := ⟨_, List.getElem?_eq_getElem (by omega)⟩
  obtain ⟨total, htotal⟩ := readU16_eq_some bytes 2 (by omega)
  have hsame {t : U16} (h : DeclaredTotal bytes t) : total = t :=
    Option.some.inj (htotal.symm.trans h.declared)
  rw [if_neg hnine, hlength, hkind, htotal]
  dsimp only [Option.bind_eq_bind, Option.bind_some]
  by_cases hstart : length < 9 ∨ kind ≠ usbDescriptorConfiguration
  · rw [if_pos hstart]
    refine .inr ⟨_, rfl, fun t h ↦ ?_⟩
    obtain ⟨length', hlength', hlow⟩ := h.length
    obtain rfl := Option.some.inj (hlength.symm.trans hlength')
    rcases hstart with hshort | hkind'
    · exact absurd (BitVec.lt_def.mp hshort) (Nat.not_lt.mpr hlow)
    · exact hkind' (Option.some.inj (hkind.symm.trans h.kind))
  rw [not_or, not_not] at hstart
  obtain ⟨hlow, rfl⟩ := hstart
  rw [if_neg fun h ↦ h.elim hlow fun h ↦ h rfl]
  by_cases hsmall : total < 9
  · rw [if_pos hsmall]
    refine .inr ⟨_, rfl, fun t h ↦ ?_⟩
    obtain rfl := hsame h
    exact absurd (BitVec.lt_def.mp hsmall) (Nat.not_lt.mpr h.nine)
  rw [if_neg hsmall]
  by_cases hpage : frameSize < total.toNat
  · rw [if_pos hpage]
    refine .inr ⟨_, rfl, fun t h ↦ ?_⟩
    obtain rfl := hsame h
    exact absurd h.page (Nat.not_le.mpr hpage)
  · rw [if_neg hpage]
    exact .inl ⟨total, rfl, ⟨length, hlength, BitVec.not_lt.mp hlow⟩, hkind, htotal,
      BitVec.not_lt.mp hsmall, Nat.not_lt.mp hpage, Nat.not_lt.mp hnine⟩

theorem configurationHeader_cases (bytes : Bytes) :
    (∃ total value, configurationHeader bytes = some (.ok (total, value)) ∧
      ConfigurationHeader bytes total value) ∨
    ∃ e, configurationHeader bytes = some (.error e) ∧
      ∀ total value, ¬ ConfigurationHeader bytes total value := by
  unfold configurationHeader
  obtain ⟨total, heq, htotal⟩ | ⟨e, heq, hnone⟩ := configurationTotalLength_cases bytes
  swap
  · rw [heq]
    refine .inr ⟨e, rfl, fun total value h ↦ ?_⟩
    obtain ⟨t, ht, -⟩ := h.declaredTotal
    exact hnone t ht
  obtain ⟨length, hlength, hlow⟩ := htotal.length
  have hnine := htotal.inside
  obtain ⟨value, hvalue⟩ : ∃ value, bytes[5]? = some value := ⟨_, List.getElem?_eq_getElem (by omega)⟩
  have hunique (total' : ℕ) (value' : BitVec 8) (h : ConfigurationHeader bytes total' value') :
      length.toNat ≤ total.toNat ∧ total.toNat ≤ bytes.length ∧ value ≠ 0 := by
    obtain ⟨length', hlength', -, hbound⟩ := h.length
    obtain ⟨t, ht, rfl⟩ := h.declaredTotal
    obtain rfl := Option.some.inj (htotal.declared.symm.trans ht.declared)
    obtain rfl := Option.some.inj (hlength.symm.trans hlength')
    obtain rfl := Option.some.inj (hvalue.symm.trans h.value)
    exact ⟨hbound, h.inside, h.nonzero⟩
  have hshort : ¬ length < 9 := BitVec.not_lt.mpr hlow
  rw [heq, hlength, hvalue]
  dsimp only [Option.bind_eq_bind, Option.bind_some]
  by_cases hinside : bytes.length < total.toNat
  · rw [if_pos hinside]
    exact .inr ⟨_, rfl, fun total' value' h ↦ absurd (hunique total' value' h).2.1 (by omega)⟩
  rw [if_neg hinside]
  by_cases hlong : total.toNat < length.toNat
  · rw [if_pos (.inr hlong)]
    exact .inr ⟨_, rfl, fun total' value' h ↦ absurd (hunique total' value' h).1 (by omega)⟩
  rw [if_neg fun h ↦ h.elim hshort hlong]
  by_cases hzero : value = 0
  · rw [if_pos hzero]
    exact .inr ⟨_, rfl, fun total' value' h ↦ (hunique total' value' h).2.2 hzero⟩
  · rw [if_neg hzero]
    refine .inl ⟨total.toNat, value, rfl, ⟨length, hlength, hlow, by omega⟩, htotal.kind, ?_,
      htotal.page, by omega, hvalue, hzero⟩
    rw [htotal.declared, Option.map_some]

section Parse

variable {σ β γ : Type} (turn : BitVec 8 → σ → Bytes → Option (Turn σ β)) (start : σ)
  (finish : BitVec 8 → Result σ β → Except XhciInitError γ)

theorem parseConfiguration_cases (bytes : Bytes) :
    (∃ total v, ConfigurationHeader bytes total v ∧ parseConfiguration turn start finish bytes =
      (Records.scan descriptorSize (turn v) (total + 1) start (bytes.take total)).map (finish v)) ∨
    ((∀ total v, ¬ ConfigurationHeader bytes total v) ∧
      ∃ e, parseConfiguration turn start finish bytes = some (.error e)) := by
  unfold parseConfiguration
  obtain ⟨total, v, he, hheader⟩ | ⟨e, he, hnone⟩ := configurationHeader_cases bytes
  · refine .inl ⟨total, v, hheader, ?_⟩
    rw [he, Option.bind_some]
    dsimp only
    rw [descriptorLoop_eq hheader.inside, List.drop_zero]
  · refine .inr ⟨hnone, e, ?_⟩
    rw [he, Option.bind_some]

theorem length_take_lt (bytes : Bytes) (total : ℕ) : (bytes.take total).length < total + 1 := by
  rw [List.length_take]
  omega

theorem parseConfiguration_ne_none {turn : BitVec 8 → σ → Bytes → Option (Turn σ β)}
    (hturn : ∀ v s r, IsRecord descriptorSize r → turn v s r ≠ none) (bytes : Bytes) :
    parseConfiguration turn start finish bytes ≠ none := by
  obtain ⟨total, v, -, hparse⟩ | ⟨-, e, hparse⟩ := parseConfiguration_cases turn start
    finish bytes
  · rw [hparse, ne_eq, Option.map_eq_none_iff]
    exact Records.scan_ne_none (hturn v) (length_take_lt bytes total)
  · rw [hparse]
    exact nofun

end Parse

def isInterface (r : Bytes) : Bool := r[1]? == some usbDescriptorInterface

def isEndpoint (r : Bytes) : Bool := r[1]? == some usbDescriptorEndpoint

theorem isEndpoint_of_isInterface {r : Bytes} (h : isInterface r = true) : isEndpoint r = false := by
  rw [isInterface, beq_iff_eq] at h
  rw [isEndpoint, h]
  rfl

theorem exists_kind {size : BitVec 8 → BitVec 8 → ℕ} {r : Bytes} (h : IsRecord size r) :
    ∃ kind, r[1]? = some kind := by
  obtain ⟨a, b, l, rfl, -⟩ := h
  exact ⟨b, rfl⟩

theorem kind_ne_interface {r : Bytes} {kind : BitVec 8} (hkind : r[1]? = some kind)
    (h : isInterface r = false) : kind ≠ usbDescriptorInterface := by
  rintro rfl
  rw [isInterface, hkind, beq_self_eq_true] at h
  cases h

theorem readInterface_eq_some (descriptor : Bytes) (h : 9 ≤ descriptor.length) :
    ∃ i, readInterface descriptor = some i := by
  have hget (k : ℕ) (hk : k < 9) : descriptor[k]? = some descriptor[k] :=
    List.getElem?_eq_getElem (by omega)
  simp only [readInterface, hget 2 (by decide), hget 3 (by decide), hget 4 (by decide),
    hget 5 (by decide), hget 6 (by decide), hget 7 (by decide)]
  exact ⟨_, rfl⟩

theorem readEndpoint_eq_some (descriptor : Bytes) (h : 7 ≤ descriptor.length) :
    ∃ e, readEndpoint descriptor = some e := by
  obtain ⟨size, hsize⟩ := readU16_eq_some descriptor 4 (by omega)
  have hget (k : ℕ) (hk : k < 7) : descriptor[k]? = some descriptor[k] :=
    List.getElem?_eq_getElem (by omega)
  simp only [readEndpoint, hget 2 (by decide), hget 3 (by decide), hsize, hget 6 (by decide)]
  exact ⟨_, rfl⟩

end BraneKernel
