import BraneKernel.Xhci.ControlRing

namespace BraneKernel

namespace Xhci

def runtimeEventBudget : ℕ := 16
def portRegisterBase : U64 := 0x400
def portRegisterStride : U64 := 0x10
def portsc : U64 := 0
def portscCurrentConnectStatus : U32 := 1#32 <<< 0

end Xhci

def RegisterLayout.port (layout : RegisterLayout) (portId : BitVec 8) (offset : U64) :
    Except XhciInitError U64 :=
  if portId = 0 then .error .invalidCapabilities
  else
    let first := Checked.add layout.operationalBase Xhci.portRegisterBase
    let base := first.bind (Checked.add · ((portId - 1).setWidth 64 * Xhci.portRegisterStride))
    (base.bind (Checked.add · offset)).elim (.error .invalidRegisterLayout) .ok

structure HidReportCompletion where
  slotId : BitVec 8
  endpointAddress : BitVec 8
  actualLength : U16
  report : Bytes
  deriving DecidableEq

namespace XhciWorld

open Attempt

def bytesOf (region : DmaRegion) (memory : XhciMemory) : ℕ → Option Bytes
  | 0 => some []
  | n + 1 => do
    let bytes ← bytesOf region memory n
    let pointer ← region.pointerAt 1 (BitVec.ofNat 64 n)
    some (bytes ++ [memory.bytes pointer])

def copyFromDma (region : DmaRegion) (memory : XhciMemory) (n : ℕ) : Option Bytes :=
  if n > region.len.toNat then none else bytesOf region memory n

def drainEvents (hardware : XhciHardware) : ℕ → XhciAction Unit
  | 0 => pure ()
  | budget + 1 => do
    let seen ← poll hardware
    if seen then drainEvents hardware budget else pure ()

end XhciWorld

structure HidWorld extends XhciWorld where
  portId : BitVec 8
  hidEndpointAddress : BitVec 8
  hidKeyboardReady : Bool

abbrev HidAction := Attempt HidWorld (Option XhciInitError)

namespace HidWorld

open Attempt

def lift {α : Type} (x : XhciAction α) : HidAction α where
  run h := ({ h with toXhciWorld := (x.run h.toXhciWorld).1 }, (x.run h.toXhciWorld).2.mapError some)

def setTransferPending (pending : Bool) (h : HidWorld) : HidWorld :=
  { h with firstDevice := h.firstDevice.map fun d ↦ { d with hidTransferPending := pending } }

def clearTransfer (h : HidWorld) : HidWorld :=
  { h with events := { h.events with transfer := none } }

def clearChangedPort (bit : U64) (h : HidWorld) : HidWorld :=
  { h with events := { h.events with changedPorts := h.events.changedPorts &&& ~~~bit } }

def loseKeyboard (h : HidWorld) : HidWorld := { h with hidKeyboardReady := false }

def completedReport (events : EventDispatchState) : Option (PendingTransfer × Trb) :=
  events.transfer.bind fun pending ↦
    if pending.owner = .hid then pending.completion.map (pending, ·) else none

/-- The length of the report. The flag is cleared for a failed transfer, but not
when the residual of a short packet cannot be right. -/
def reportLength (pending : PendingTransfer) (event : Trb) : HidAction U16 :=
  if event.completionCode = completionCodeSuccess then pure pending.requestedLength
  else if event.completionCode = completionCodeShortPacket then
    if event.transferLength.toNat < 65536 then
      demand (some .invalidTransferCompletion)
        (Checked.sub pending.requestedLength (event.transferLength.setWidth 16))
    else fail (some .invalidTransferCompletion)
  else do
    modify (setTransferPending false)
    modify loseKeyboard
    fail (some (.transferFailed event.completionCode))

def disconnected (portStatus : U32) : HidAction Bool := do
  let h ← get
  if h.portId = 0 ∨ 64 < h.portId then fail none
  else
    let changedBit := 1#64 <<< (h.portId - 1).toNat
    if h.events.changedPorts &&& changedBit = 0 then return false
    else
      modify (clearChangedPort changedBit)
      let offset ← ofExcept ((h.layout.port h.portId Xhci.portsc).mapError some)
      let _ ← demand (some .registerOutsideBar) (h.mmio.virtualAddress offset 4)
      return portStatus &&& Xhci.portscCurrentConnectStatus = 0

/-- The report is copied before the buffer is handed back to the device. -/
def rearm (pending : PendingTransfer) (reportBuffer : DmaRegion) (actualLength : U16) :
    HidAction (Option HidReportCompletion) := do
  let h ← get
  let validReport := hidBootReportBytes ≤ actualLength.toNat
  let report ← demand (some .invalidCapabilities)
    (if validReport then XhciWorld.copyFromDma reportBuffer h.memory hidBootReportBytes
      else some (List.replicate hidBootReportBytes 0))
  lift XhciWorld.armHidTransfer
  if validReport then
    return some ⟨pending.slotId, h.hidEndpointAddress, actualLength, report⟩
  else fail (some .invalidHidReport)

/-- `poll_hid_report` once a report has arrived -/
def finishReport (portStatus : U32) (pending : PendingTransfer) (event : Trb) :
    HidAction (Option HidReportCompletion) := do
  modify clearTransfer
  let actualLength ← reportLength pending event
  let h ← get
  let device ← demand (some .invalidCapabilities) h.firstDevice
  modify (setTransferPending false)
  let reportBuffer ← demand (some .hidKeyboardNotFound) device.hidReportBuffer
  let gone ← disconnected portStatus
  if gone then
    modify loseKeyboard
    return none
  else rearm pending reportBuffer actualLength

def pollHidReport (hardware : XhciHardware) (portStatus : U32) :
    HidAction (Option HidReportCompletion) := do
  lift (XhciWorld.drainEvents hardware Xhci.runtimeEventBudget)
  let h ← get
  match completedReport h.events with
  | none => return none
  | some (pending, event) => finishReport portStatus pending event

end HidWorld

namespace XhciWorld

open Attempt

variable {w : XhciWorld} {device : XhciDevice} {region : DmaRegion} (hardware : XhciHardware)

theorem frameSize_le (h : region.HoldsRing) : frameSize ≤ region.len.toNat := by
  obtain ⟨o, a, hplaced⟩ := h
  exact hplaced.room

theorem copyFromDma_of_le (h : region.HoldsRing) (memory : XhciMemory) {n : ℕ}
    (hn : n ≤ frameSize) : ∃ bytes, copyFromDma region memory n = some bytes := by
  obtain ⟨o, a, hplaced⟩ := id h
  rw [copyFromDma, if_neg (Nat.not_lt.mpr (hn.trans (frameSize_le h)))]
  induction n with
  | zero => exact ⟨[], rfl⟩
  | succ n ih =>
    obtain ⟨bytes, hbytes⟩ := ih (by omega)
    have hoffset : (BitVec.ofNat 64 n).toNat = n := by
      rw [BitVec.toNat_ofNat, Nat.mod_eq_of_lt]
      rw [frameSize] at hn
      omega
    have hsome : (region.pointerAt 1 (BitVec.ofNat 64 n)).isSome = true := by
      rw [hplaced.isSome_pointerAt_iff, hoffset]
      exact hn.trans (frameSize_le h)
    obtain ⟨pointer, hpointer⟩ := Option.isSome_iff_exists.mp hsome
    refine ⟨bytes ++ [memory.bytes pointer], ?_⟩
    rw [bytesOf, hbytes, hpointer]
    rfl

structure Drained (w w' : XhciWorld) : Prop extends Polled w w' where
  mmio : w'.mmio = w.mmio
  layout : w'.layout = w.layout

theorem Ready.drained_poll (h : w.Ready) :
    ∃ w' seen, (XhciWorld.poll hardware).run w = (w', .ok seen) ∧ Drained w w' := by
  obtain ⟨w', seen, hpoll, hpolled⟩ := h.poll hardware
  have hends := hpoll.symm.trans (h.poll_eq hardware)
  split_ifs at hends <;>
    (obtain ⟨rfl, -⟩ := Prod.mk.inj hends; exact ⟨_, seen, hpoll, hpolled, rfl, rfl⟩)

theorem Drained.trans {t w' : XhciWorld} (h : Drained w t) (h' : Drained t w') : Drained w w' where
  ready := h'.ready
  firstDevice := h'.firstDevice.trans h.firstDevice
  command := h'.command.trans h.command
  owner := h'.owner.trans h.owner
  mmio := h'.mmio.trans h.mmio
  layout := h'.layout.trans h.layout

theorem Ready.drainEvents (h : w.Ready) (budget : ℕ) :
    ∃ w', (XhciWorld.drainEvents hardware budget).run w = (w', .ok ()) ∧ Drained w w' := by
  induction budget generalizing w with
  | zero => exact ⟨w, rfl, ⟨h, rfl, rfl, rfl⟩, rfl, rfl⟩
  | succ budget ih =>
    obtain ⟨t, seen, hpoll, hdrained⟩ := h.drained_poll hardware
    rw [XhciWorld.drainEvents, run_bind_of_ok hpoll]
    cases seen with
    | false => exact ⟨t, rfl, hdrained⟩
    | true =>
      obtain ⟨w', hrun, hrest⟩ := ih hdrained.ready
      exact ⟨w', hrun, hdrained.trans hrest⟩

structure HidRing (device : XhciDevice) (ring reportBuffer : DmaRegion) (k : ℕ) : Prop where
  transferRing : device.hidTransferRing = some ring
  holdsRing : ring.HoldsRing
  cursor : device.hidTransferCursor = .past k
  buffer : device.hidReportBuffer = some reportBuffer
  holdsReport : reportBuffer.HoldsRing

theorem HidRing.enqueue {ring reportBuffer : DmaRegion} {k : ℕ}
    (hring : HidRing device ring reportBuffer k) (w : XhciWorld) (trb : Trb) :
    ∃ memory, (enqueueTd ring device.hidTransferCursor [trb]).run w =
      ({ w with memory }, .ok (.past (k + 1),
        ring.slotPhysical (k % commandRingUsableTrbs + 1 - 1))) := by
  have hfits : ¬ ([trb] = [] ∨
      k % commandRingUsableTrbs + [trb].length > commandRingUsableTrbs) := by
    have hlt := Nat.mod_lt k (show 0 < commandRingUsableTrbs by decide)
    rw [List.length_singleton]
    rintro (hnil | hfull)
    · exact absurd hnil (List.cons_ne_nil _ _)
    · exact absurd hlt (Nat.not_lt.mpr (Nat.le_of_lt_succ hfull))
  rw [enqueueTd_run, hring.cursor, enqueueTransferTd_past hring.holdsRing, if_neg hfits]
  exact ⟨_, rfl⟩

theorem Ready.armHidTransfer {ring reportBuffer : DmaRegion} {k : ℕ} (h : w.Ready)
    (hdevice : w.firstDevice = some device) (hring : HidRing device ring reportBuffer k)
    (hfree : w.events.transfer = none) (hpending : device.hidTransferPending = false) :
    ∃ w' pending, XhciWorld.armHidTransfer.run w = (w', .ok ()) ∧ w'.Ready ∧
      w'.firstDevice =
        some { device with hidTransferCursor := .past (k + 1), hidTransferPending := true } ∧
      w'.events.transfer = some pending ∧ pending.owner = .hid ∧
      w'.mmio = w.mmio ∧ w'.layout = w.layout := by
  have hroom : hidBootReportBytes ≤ reportBuffer.len.toNat :=
    (by decide : hidBootReportBytes ≤ frameSize).trans (frameSize_le hring.holdsReport)
  obtain ⟨memory, hclear⟩ := clearDma_run hroom w
  let final := ring.slotPhysical (k % commandRingUsableTrbs + 1 - 1)
  obtain ⟨memory', henqueue⟩ := hring.enqueue { w with memory }
    (Trb.normal reportBuffer.physicalStart (BitVec.ofNat 16 hidBootReportBytes))
  let staged : XhciWorld :=
    { w with
      memory := memory'
      firstDevice :=
        some { device with hidTransferCursor := .past (k + 1), hidTransferPending := true } }
  have hstaged : staged.Ready :=
    { h with
      doorbells := by
        intro d hd
        cases hd
        exact h.doorbells device hdevice }
  let pending : PendingTransfer :=
    ⟨.hid, final, none, device.slotId, device.hidEndpointId,
      BitVec.ofNat 16 hidBootReportBytes, none⟩
  have hslot : pending.slotId = device.slotId := rfl
  have hdoorbell := hstaged.ringFor_eq rfl hslot (device.hidEndpointId.setWidth 32)
  refine ⟨staged.armed pending (device.hidEndpointId.setWidth 32), pending, ?_,
    hstaged.armed pending _, rfl, rfl, rfl, rfl, rfl⟩
  have hidle : ¬ w.events.transfer.isSome = true := by simp [hfree]
  simp only [XhciWorld.armHidTransfer, run_get_bind, if_neg hidle, hdevice, demand_some,
    run_pure_bind, hring.transferRing, hring.buffer, hpending, Bool.false_eq_true, if_false]
  rw [run_bind_of_ok hclear, run_bind_of_ok henqueue]
  simp only [run_modify_bind, hdevice, Option.map_some]
  exact hdoorbell

end XhciWorld

namespace HidWorld

open Attempt

variable {h h' : HidWorld} {device : XhciDevice} {pending : PendingTransfer} {event : Trb}

def Armed (h : HidWorld) : Prop := ∃ pending, h.events.transfer = some pending ∧ pending.owner = .hid

/-- What enumeration leaves for a keyboard: its ring and its buffer, and a port
whose register lies inside the BAR. -/
structure Wired (h : HidWorld) (device : XhciDevice) : Prop where
  ready : h.toXhciWorld.Ready
  firstDevice : h.firstDevice = some device
  rings : ∃ ring reportBuffer k, XhciWorld.HidRing device ring reportBuffer k
  port : ∃ offset, h.layout.port h.portId Xhci.portsc = .ok offset ∧ h.mmio.contains offset 4 = true

/-- The flag and the record agree, and a keyboard that is ready has a transfer armed. -/
structure Agrees (h : HidWorld) : Prop where
  wired : ∃ device, h.Wired device ∧ (device.hidTransferPending = true ↔ h.Armed)
  alive : h.Armed ∨ h.hidKeyboardReady = false

structure Idle (h : HidWorld) (device : XhciDevice) : Prop extends Wired h device where
  transfer : h.events.transfer = none
  pending : device.hidTransferPending = false

theorem Idle.not_armed (hidle : h.Idle device) : ¬ h.Armed := by
  rintro ⟨pending, hsome, -⟩
  cases hidle.transfer.symm.trans hsome

theorem Idle.agrees_lose (hidle : h.Idle device) : h.loseKeyboard.Agrees where
  wired := by
    refine ⟨device, { hidle.toWired with }, ?_⟩
    rw [hidle.pending]
    exact iff_of_false Bool.false_ne_true hidle.not_armed
  alive := .inr rfl

theorem Wired.idle (hwired : h.Wired device) (hfree : h.events.transfer = none) :
    (h.setTransferPending false).Idle { device with hidTransferPending := false } where
  ready :=
    { hwired.ready with
      doorbells := by
        intro d hd
        simp only [setTransferPending, hwired.firstDevice, Option.map_some, Option.some.injEq] at hd
        cases hd
        exact hwired.ready.doorbells device hwired.firstDevice }
  firstDevice := by
    simp only [setTransferPending, hwired.firstDevice, Option.map_some]
  rings := by
    obtain ⟨ring, reportBuffer, k, hrings⟩ := hwired.rings
    exact ⟨ring, reportBuffer, k, { hrings with }⟩
  port := hwired.port
  transfer := hfree
  pending := rfl

def Fits (pending : PendingTransfer) (event : Trb) : Prop :=
  event.completionCode = completionCodeShortPacket →
    event.transferLength.toNat ≤ pending.requestedLength.toNat

theorem reportLength_run (hfits : Fits pending event) (h : HidWorld) :
    (∃ length, (reportLength pending event).run h = (h, .ok length)) ∨
      ∃ e, (reportLength pending event).run h =
        ((h.setTransferPending false).loseKeyboard, .error (some e)) := by
  unfold reportLength
  by_cases hsuccess : event.completionCode = completionCodeSuccess
  · rw [if_pos hsuccess]
    exact .inl ⟨_, rfl⟩
  rw [if_neg hsuccess]
  by_cases hshort : event.completionCode = completionCodeShortPacket
  · have hle := hfits hshort
    have hlt : event.transferLength.toNat < 65536 := hle.trans_lt pending.requestedLength.isLt
    have hresidual : (event.transferLength.setWidth 16).toNat = event.transferLength.toNat := by
      rw [BitVec.toNat_setWidth, Nat.mod_eq_of_lt hlt]
    obtain ⟨length, hlength, -⟩ := Checked.sub_of_le (hresidual.trans_le hle)
    rw [if_pos hshort, if_pos hlt, hlength]
    exact .inl ⟨length, rfl⟩
  · rw [if_neg hshort]
    exact .inr ⟨_, rfl⟩

theorem Idle.disconnected (hidle : h.Idle device) (portStatus : U32) :
    ((HidWorld.disconnected portStatus).run h = (h, .error none) ∧ 64 < h.portId) ∨
      ∃ h' gone, (HidWorld.disconnected portStatus).run h = (h', .ok gone) ∧ h'.Idle device := by
  obtain ⟨offset, hoffset, hinside⟩ := hidle.port
  have hnonzero : h.portId ≠ 0 := by
    intro hzero
    rw [RegisterLayout.port, if_pos hzero] at hoffset
    cases hoffset
  simp only [HidWorld.disconnected, run_get_bind, hnonzero, false_or]
  by_cases hhigh : 64 < h.portId
  · rw [if_pos hhigh]
    exact .inl ⟨rfl, hhigh⟩
  rw [if_neg hhigh]
  right
  by_cases hchanged : h.events.changedPorts &&& 1#64 <<< (h.portId - 1).toNat = 0
  · rw [if_pos hchanged]
    exact ⟨h, false, rfl, hidle⟩
  · rw [if_neg hchanged, run_modify_bind, hoffset, run_bind_of_ok (a := offset) rfl,
      hidle.ready.mapped.virtualAddress_eq hinside]
    exact ⟨_, _, rfl, { hidle with ready := { hidle.ready with } }⟩

theorem Idle.rearm (hidle : h.Idle device) {ring reportBuffer : DmaRegion} {k : ℕ}
    (hring : XhciWorld.HidRing device ring reportBuffer k) (pending : PendingTransfer)
    (actualLength : U16) :
    ∃ h' r, (HidWorld.rearm pending reportBuffer actualLength).run h = (h', r) ∧ r ≠ .error none ∧
      h'.Agrees := by
  obtain ⟨w', record, hrun, hready, hdevice, htransfer, howner, hmmio, hlayout⟩ :=
    hidle.ready.armHidTransfer hidle.firstDevice hring hidle.transfer hidle.pending
  have hcopy : ∃ report,
      (if hidBootReportBytes ≤ actualLength.toNat then
        XhciWorld.copyFromDma reportBuffer h.memory hidBootReportBytes
      else some (List.replicate hidBootReportBytes 0)) = some report := by
    split_ifs
    · exact XhciWorld.copyFromDma_of_le hring.holdsReport h.memory (by decide)
    · exact ⟨_, rfl⟩
  obtain ⟨report, hreport⟩ := hcopy
  have hlift : (lift XhciWorld.armHidTransfer).run h = ({ h with toXhciWorld := w' }, .ok ()) := by
    simp only [lift, hrun]
    rfl
  have hagrees : Agrees { h with toXhciWorld := w' } := by
    have harmed : Armed { h with toXhciWorld := w' } := ⟨record, htransfer, howner⟩
    refine ⟨⟨_, ⟨hready, hdevice, ⟨ring, reportBuffer, k + 1, { hring with cursor := rfl }⟩, ?_⟩,
      iff_of_true rfl harmed⟩, .inl harmed⟩
    dsimp only
    rw [hmmio, hlayout]
    exact hidle.port
  simp only [HidWorld.rearm, run_get_bind, hreport, demand_some, run_pure_bind]
  rw [run_bind_of_ok hlift]
  split_ifs <;> exact ⟨_, _, rfl, nofun, hagrees⟩

theorem Wired.finishReport (hwired : h.Wired device) (hfits : Fits pending event)
    (portStatus : U32) :
    ∃ h' r, (HidWorld.finishReport portStatus pending event).run h = (h', r) ∧
      (r ≠ .error none → h'.Agrees) ∧ (r = .error none → 64 < h.portId) := by
  have hcleared : h.clearTransfer.Wired device := { hwired with ready := { hwired.ready with } }
  have hidle := hcleared.idle rfl
  simp only [HidWorld.finishReport, run_modify_bind]
  obtain ⟨length, hlength⟩ | ⟨e, hfailed⟩ := reportLength_run hfits h.clearTransfer
  · rw [run_bind_of_ok hlength]
    obtain ⟨ring, reportBuffer, k, hring⟩ := hidle.rings
    have hbuffer : device.hidReportBuffer = some reportBuffer := hring.buffer
    simp only [run_get_bind, hcleared.firstDevice, demand_some, run_pure_bind, run_modify_bind, hbuffer]
    obtain ⟨hpanic, hhigh⟩ | ⟨h₁, gone, hgone, hidle₁⟩ := hidle.disconnected portStatus
    · rw [run_bind_of_error hpanic]
      exact ⟨_, _, rfl, fun hne ↦ absurd rfl hne, fun _ ↦ hhigh⟩
    · rw [run_bind_of_ok hgone]
      cases gone with
      | true => exact ⟨_, _, rfl, fun _ ↦ hidle₁.agrees_lose, nofun⟩
      | false =>
        obtain ⟨h₂, r, hrun, hreturns, hagrees⟩ := hidle₁.rearm hring pending length
        exact ⟨h₂, r, hrun, fun _ ↦ hagrees, fun hpanic ↦ absurd hpanic hreturns⟩
  · rw [run_bind_of_error hfailed]
    exact ⟨_, _, rfl, fun _ ↦ hidle.agrees_lose, nofun⟩

def drained (h : HidWorld) (hardware : XhciHardware) : HidWorld :=
  { h with
    toXhciWorld :=
      ((XhciWorld.drainEvents hardware Xhci.runtimeEventBudget).run h.toXhciWorld).1 }

theorem armed_iff_owner : h.Armed ↔ h.events.transfer.map PendingTransfer.owner = some .hid :=
  Option.map_eq_some_iff.symm

theorem Agrees.drained (hagrees : h.Agrees) (hardware : XhciHardware) :
    (lift (XhciWorld.drainEvents hardware Xhci.runtimeEventBudget)).run h =
      (h.drained hardware, .ok ()) ∧ (h.drained hardware).Agrees := by
  obtain ⟨⟨device, hwired, hflag⟩, halive⟩ := hagrees
  obtain ⟨w', hrun, hdrained⟩ := hwired.ready.drainEvents hardware Xhci.runtimeEventBudget
  have hworld : h.drained hardware = { h with toXhciWorld := w' } := by
    rw [HidWorld.drained, hrun]
  have harmed : (h.drained hardware).Armed ↔ h.Armed := by
    rw [armed_iff_owner, armed_iff_owner, hworld]
    exact iff_of_eq (congrArg (· = _) hdrained.owner)
  have hlift : (lift (XhciWorld.drainEvents hardware Xhci.runtimeEventBudget)).run h =
      ({ h with toXhciWorld := w' }, .ok ()) := by
    simp only [lift, hrun]
    rfl
  have hport : ∃ offset, w'.layout.port h.portId Xhci.portsc = .ok offset ∧
      w'.mmio.contains offset 4 = true := by
    rw [hdrained.mmio, hdrained.layout]
    exact hwired.port
  rw [hworld] at harmed ⊢
  exact ⟨hlift, ⟨device, ⟨hdrained.ready, hdrained.firstDevice.trans hwired.firstDevice,
    hwired.rings, hport⟩, hflag.trans harmed.symm⟩, halive.imp_left harmed.mpr⟩

/-- The report that a call takes, if any, has a possible length. -/
def TakesPossible (h : HidWorld) (hardware : XhciHardware) : Prop :=
  ∀ pending event, completedReport (h.drained hardware).events = some (pending, event) →
    Fits pending event

theorem Agrees.poll (hagrees : h.Agrees) {hardware : XhciHardware}
    (hpossible : h.TakesPossible hardware) (portStatus : U32) :
    ∃ h' r, (pollHidReport hardware portStatus).run h = (h', r) ∧
      (r ≠ .error none → h'.Agrees) ∧ (r = .error none → 64 < h.portId) := by
  obtain ⟨hdrain, hagrees'⟩ := hagrees.drained hardware
  simp only [pollHidReport, run_bind_of_ok hdrain, run_get_bind]
  cases hreport : completedReport (h.drained hardware).events with
  | none => exact ⟨_, _, rfl, fun _ ↦ hagrees', nofun⟩
  | some report =>
    obtain ⟨pending, event⟩ := report
    obtain ⟨device, hwired, -⟩ := hagrees'.wired
    exact hwired.finishReport (hpossible pending event hreport) portStatus

end HidWorld

structure HidPoll where
  hardware : XhciHardware
  portStatus : U32
  result : Except (Option XhciInitError) (Option HidReportCompletion)

namespace HidWorld

def Step (h : HidWorld) (p : HidPoll) (h' : HidWorld) : Prop :=
  (pollHidReport p.hardware p.portStatus).run h = (h', p.result) ∧ p.result ≠ .error none

/-- After any calls the keyboard is armed or known to be lost, as long as no report
is shorter than nothing. Only a port beyond the 64 that are tracked makes a call panic. -/
theorem keyboard_armed_or_lost {h₀ h : HidWorld} {device₀ : XhciDevice} {calls : List HidPoll}
    (hwired : h₀.Wired device₀) (hflag : device₀.hidTransferPending = true) (harmed : h₀.Armed)
    (hrun : Trace.Run (Trace.Guarded (fun h p ↦ h.TakesPossible p.hardware) Step) h₀ calls h) :
    (∃ device, h.firstDevice = some device ∧ (device.hidTransferPending = true ↔ h.Armed)) ∧
    (h.Armed ∨ h.hidKeyboardReady = false) ∧
    ∀ hardware portStatus, h.TakesPossible hardware → h.portId ≤ 64 →
      ((pollHidReport hardware portStatus).run h).2 ≠ .error none := by
  have hagrees : h.Agrees := by
    refine hrun.invariant ⟨⟨device₀, hwired, iff_of_true hflag harmed⟩, .inl harmed⟩ ?_
    rintro h p h' hagrees ⟨hpossible, hcall, hreturns⟩
    obtain ⟨h₁, r, hrun, hok, -⟩ := hagrees.poll hpossible p.portStatus
    obtain ⟨rfl, rfl⟩ := Prod.mk.inj (hrun.symm.trans hcall)
    exact hok hreturns
  obtain ⟨device, hwired', hiff⟩ := hagrees.wired
  refine ⟨⟨device, hwired'.firstDevice, hiff⟩, hagrees.alive, ?_⟩
  intro hardware portStatus hpossible hport hpanic
  obtain ⟨h₁, r, hrun, -, hhigh⟩ := hagrees.poll hpossible portStatus
  rw [hrun] at hpanic
  exact absurd (hhigh hpanic) (BitVec.not_lt.mpr hport)

def firstReport : PendingTransfer := ⟨.hid, 0x17000, none, 1, 3, 8, none⟩

def keyboard : XhciDevice :=
  { XhciDevice.storage with
    hidEndpointId := 3
    hidTransferRing := some (frameAt 0x17000)
    hidTransferCursor := .past 1
    hidReportBuffer := some (frameAt 0x18000)
    hidTransferPending := true
    massStorageBulkInRing := none
    massStorageBulkOutRing := none }

def started : HidWorld :=
  { XhciWorld.started with
    events := { EventDispatchState.new with transfer := some firstReport }
    firstDevice := some keyboard
    portId := 1
    hidEndpointAddress := 0x81
    hidKeyboardReady := true }

theorem wired_started : started.Wired keyboard where
  ready :=
    { XhciWorld.sound_started with
      commandRing := holdsRing_frameAt (by decide) (by decide)
      commandIndex := by decide
      doorbells := by
        intro device hdevice
        cases hdevice
        decide }
  firstDevice := rfl
  rings := ⟨frameAt 0x17000, frameAt 0x18000, 1,
    { transferRing := rfl
      holdsRing := holdsRing_frameAt (by decide) (by decide)
      cursor := rfl
      buffer := rfl
      holdsReport := holdsRing_frameAt (by decide) (by decide) }⟩
  port := ⟨0x420, by decide, by decide⟩

def shortPacket (residual : U32) : XhciHardware := fun _ memory ↦
  { memory with
    trbs := Function.update memory.trbs ((frameAt 0x11000).slot 0)
      ⟨0x17000, 0x0D000000 ||| residual, 0x01038001⟩ }

theorem keyboard_armed_or_lost_short : ∃ h,
    Trace.Run (Trace.Guarded (fun h p ↦ h.TakesPossible p.hardware) Step) started
      [⟨shortPacket 2, 1, .error (some .invalidHidReport)⟩] h ∧
    (h.Armed ∨ h.hidKeyboardReady = false) := by
  have hresult : ((pollHidReport (shortPacket 2) 1).run started).2 =
      .error (some .invalidHidReport) := by decide +kernel
  have hreport : completedReport (started.drained (shortPacket 2)).events =
      some (firstReport.complete ⟨0x17000, 0x0D000002, 0x01038001⟩,
        ⟨0x17000, 0x0D000002, 0x01038001⟩) := by decide +kernel
  have hpossible : started.TakesPossible (shortPacket 2) := by
    intro pending event h
    cases hreport.symm.trans h
    intro _
    decide
  have hrun : Trace.Run (Trace.Guarded (fun h p ↦ h.TakesPossible p.hardware) Step) started
      [⟨shortPacket 2, 1, .error (some .invalidHidReport)⟩]
      ((pollHidReport (shortPacket 2) 1).run started).1 :=
    .cons ⟨hpossible, Prod.ext rfl hresult, nofun⟩ .nil
  exact ⟨_, hrun, (keyboard_armed_or_lost wired_started rfl ⟨firstReport, rfl, rfl⟩ hrun).2.1⟩

/-- A residual of nine bytes of eight leaves the flag set without a record: the
keyboard counts as ready, and no transfer is armed. -/
theorem impossible_residual_loses_keyboard : ∃ h,
    started.Wired keyboard ∧ keyboard.hidTransferPending = true ∧ started.Armed ∧
    Trace.Run Step started
      [⟨shortPacket 9, 1, .error (some .invalidTransferCompletion)⟩] h ∧
    h.firstDevice.map XhciDevice.hidTransferPending = some true ∧ ¬ h.Armed ∧
    h.hidKeyboardReady = true := by
  have hresult : ((pollHidReport (shortPacket 9) 1).run started).2 =
      .error (some .invalidTransferCompletion) := by decide +kernel
  have htransfer : ((pollHidReport (shortPacket 9) 1).run started).1.events.transfer = none := by
    decide +kernel
  refine ⟨((pollHidReport (shortPacket 9) 1).run started).1, wired_started, rfl,
    ⟨firstReport, rfl, rfl⟩, .cons ⟨Prod.ext rfl hresult, nofun⟩ .nil, ?_, ?_, ?_⟩
  · decide +kernel
  · rintro ⟨pending, hsome, -⟩
    cases htransfer.symm.trans hsome
  · decide +kernel

end HidWorld

end BraneKernel
