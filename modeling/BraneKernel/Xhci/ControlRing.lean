import BraneKernel.Xhci.Recovery

namespace BraneKernel

open XhciWorld

namespace XhciWorld

open Attempt

variable {w w' : XhciWorld} {device : XhciDevice} {packet : UsbSetupPacket} {k : ℕ}

def stageCount (packet : UsbSetupPacket) : ℕ := if controlDirection packet = .none then 2 else 3

theorem length_controlStages (buffer : U64) (packet : UsbSetupPacket) :
    (controlStages buffer packet).length = stageCount packet := by
  simp only [controlStages, stageCount]
  split_ifs <;> rfl

theorem stageCount_pos (packet : UsbSetupPacket) : 2 ≤ stageCount packet := by
  rw [stageCount]
  split_ifs <;> decide

theorem controlStages_ne_nil (buffer : U64) (packet : UsbSetupPacket) :
    controlStages buffer packet ≠ [] := by
  rw [← List.length_pos_iff, length_controlStages]
  exact Nat.zero_lt_two.trans_le (stageCount_pos packet)

structure ControlRing (device : XhciDevice) (k : ℕ) : Prop where
  ring : device.endpointZeroRing.HoldsRing
  buffer : frameSize ≤ device.descriptorBuffer.len.toNat
  cursor : device.endpointZeroCursor = .past k

theorem clearDma_run {region : DmaRegion} {bytes : ℕ} (h : bytes ≤ region.len.toNat)
    (w : XhciWorld) : ∃ memory, (clearDma region bytes).run w = ({ w with memory }, .ok ()) := by
  rw [clearDma, if_neg (Nat.not_lt.mpr h)]
  exact ⟨_, rfl⟩

theorem dataStagePointer_run {final : U64} (h : trbBytes ≤ final.toNat)
    (direction : TransferDirection) (w : XhciWorld) :
    ∃ pointer, (dataStagePointer direction final).run w = (w, .ok pointer) := by
  have hbytes : (BitVec.ofNat 64 trbBytes).toNat = trbBytes := rfl
  rw [dataStagePointer]
  split_ifs
  · exact ⟨none, rfl⟩
  · obtain ⟨pointer, hpointer, -⟩ := Checked.sub_of_le (b := BitVec.ofNat 64 trbBytes) (hbytes.trans_le h)
    simp only [hpointer, demand_some]
    exact ⟨some pointer, rfl⟩

def controlRecord (device : XhciDevice) (packet : UsbSetupPacket) (k : ℕ)
    (shortPacketPointer : Option U64) : PendingTransfer where
  owner := .control
  trbPointer := device.endpointZeroRing.slotPhysical
    (k % commandRingUsableTrbs + stageCount packet - 1)
  shortPacketPointer
  slotId := device.slotId
  endpointId := 1
  requestedLength := packet.length
  completion := none

def staged (w : XhciWorld) (device : XhciDevice) (k : ℕ) (memory : XhciMemory) : XhciWorld :=
  { w with memory, firstDevice := some (storeControlCursor (.past k) device) }

structure Resting (w : XhciWorld) (k : ℕ) : Prop where
  ready : w.Ready
  free : w.events.transfer = none
  device : ∃ device, w.firstDevice = some device ∧ ControlRing device k

theorem Resting.start_full (h : Resting w k) (hlength : packet.length.toNat ≤ frameSize)
    (hfull : commandRingUsableTrbs < k % commandRingUsableTrbs + stageCount packet) :
    ∃ memory, (startControlTransfer packet).run w = ({ w with memory }, .error .ringFull) := by
  obtain ⟨device, hdevice, hring⟩ := h.device
  obtain ⟨memory, hclear⟩ := clearDma_run (hlength.trans hring.buffer) w
  let stages := controlStages device.descriptorBuffer.physicalStart packet
  have hrefused : stages = [] ∨
      k % commandRingUsableTrbs + stages.length > commandRingUsableTrbs := by
    rw [length_controlStages]
    exact .inr hfull
  have henqueue : (enqueueTd device.endpointZeroRing device.endpointZeroCursor stages).run
      { w with memory } = ({ w with memory }, .error .ringFull) := by
    rw [enqueueTd_run, hring.cursor, enqueueTransferTd_past hring.ring, if_pos hrefused]
    rfl
  have hprepare : (prepareControlTransfer packet).run w = ({ w with memory }, .error .ringFull) := by
    simp only [prepareControlTransfer, run_get_bind, hdevice, demand_some, run_pure_bind]
    rw [run_bind_of_ok hclear, run_bind_of_error henqueue]
  exact ⟨memory, (startControlTransfer_free h.free hlength).trans (run_bind_of_error hprepare)⟩

theorem Ready.staged (h : w.Ready) (hdevice : w.firstDevice = some device) (k : ℕ)
    (memory : XhciMemory) : (w.staged device k memory).Ready :=
  { h with
    doorbells := fun d hd ↦ by
      cases hd
      exact h.doorbells device hdevice }

theorem Resting.start_fits (h : Resting w k) (hdevice : w.firstDevice = some device)
    (hring : ControlRing device k) (hlength : packet.length.toNat ≤ frameSize)
    (hfits : k % commandRingUsableTrbs + stageCount packet ≤ commandRingUsableTrbs) :
    ∃ memory short, (startControlTransfer packet).run w =
      ((w.staged device (k + stageCount packet) memory).armed
        (controlRecord device packet k short) 1, .ok ()) := by
  obtain ⟨memory, hclear⟩ := clearDma_run (hlength.trans hring.buffer) w
  let stages := controlStages device.descriptorBuffer.physicalStart packet
  have hcount : stages.length = stageCount packet := length_controlStages _ _
  have haccepted : ¬ (stages = [] ∨
      k % commandRingUsableTrbs + stages.length > commandRingUsableTrbs) := by
    rw [hcount, not_or, Nat.not_lt]
    exact ⟨controlStages_ne_nil _ _, hfits⟩
  have hcount_pos := stageCount_pos packet
  let final := device.endpointZeroRing.slotPhysical
    (k % commandRingUsableTrbs + stageCount packet - 1)
  obtain ⟨memory', henqueue⟩ : ∃ memory',
      (enqueueTd device.endpointZeroRing device.endpointZeroCursor stages).run { w with memory } =
        ({ w with memory := memory' }, .ok (.past (k + stageCount packet), final)) := by
    rw [enqueueTd_run, hring.cursor, enqueueTransferTd_past hring.ring, if_neg haccepted, hcount]
    exact ⟨_, rfl⟩
  have hfinal : trbBytes ≤ final.toNat := by
    have hslot : k % commandRingUsableTrbs + stageCount packet - 1 < commandRingTrbs := by
      rw [commandRingUsableTrbs_eq] at hfits ⊢
      simp only [show commandRingTrbs = 256 from rfl]
      omega
    rw [hring.ring.toNat_slotPhysical hslot]
    exact (Nat.le_mul_of_pos_left trbBytes (by omega)).trans (Nat.le_add_left _ _)
  obtain ⟨short, hshort⟩ :=
    dataStagePointer_run hfinal (controlDirection packet) { w with memory := memory' }
  have hprepare : (prepareControlTransfer packet).run w =
      (w.staged device (k + stageCount packet) memory',
        .ok (controlRecord device packet k short)) := by
    simp only [prepareControlTransfer, run_get_bind, hdevice, demand_some, run_pure_bind]
    rw [run_bind_of_ok hclear, run_bind_of_ok henqueue, run_bind_of_ok hshort]
    simp only [run_modify_bind, run_pure, hdevice, Option.map_some]
    rfl
  have hready := h.ready.staged hdevice (k + stageCount packet) memory'
  refine ⟨memory', short, ?_⟩
  rw [startControlTransfer_free h.free hlength, run_bind_of_ok hprepare, hready.ringFor_eq rfl rfl]

/-- A control transfer that the device completes, after any change of the memory. -/
inductive ControlStep : XhciWorld → UsbSetupPacket → XhciWorld → Prop
  | completed {w w' : XhciWorld} {packet : UsbSetupPacket} (memory : XhciMemory)
      (hardware : XhciHardware) {result : Except XhciInitError U16}
      (run : (controlTransfer hardware packet).run { w with memory } = (w', result))
      (completed : Completed result) : ControlStep w packet w'

theorem Resting.transfer_fits (h : Resting w k) (hlength : packet.length.toNat ≤ frameSize)
    (hfits : k % commandRingUsableTrbs + stageCount packet ≤ commandRingUsableTrbs)
    (hardware : XhciHardware) :
    ((startControlTransfer packet).run w).2 = .ok () ∧
    ∃ w' result, (controlTransfer hardware packet).run w = (w', result) ∧
      (result = .error .transferTimeout ∨
        Completed result ∧ Resting w' (k + stageCount packet)) := by
  obtain ⟨device, hdevice, hring⟩ := h.device
  obtain ⟨memory, short, hstart⟩ := h.start_fits hdevice hring hlength hfits
  have hready := h.ready.staged hdevice (k + stageCount packet) memory
  obtain ⟨w', result, hwait, hready', hdevice', -, hend⟩ :=
    (hready.armed (controlRecord device packet k short) 1).waitForTransfer hardware
      (rfl : _ = some TransferOwner.control) Xhci.maxPollSpins
  refine ⟨by rw [hstart], w', result, ?_, ?_⟩
  · rw [controlTransfer, run_bind_of_ok hstart, hwait]
  · obtain ⟨htimeout, -⟩ | ⟨hcompleted, hnone⟩ := hend
    · exact .inl htimeout
    · exact .inr ⟨hcompleted, hready', hnone, _, hdevice', { hring with cursor := rfl }⟩

theorem Resting.transfer_full (h : Resting w k) (hlength : packet.length.toNat ≤ frameSize)
    (hfull : commandRingUsableTrbs < k % commandRingUsableTrbs + stageCount packet)
    (hardware : XhciHardware) :
    ∃ memory, (controlTransfer hardware packet).run w = ({ w with memory }, .error .ringFull) := by
  obtain ⟨memory, hstart⟩ := h.start_full hlength hfull
  exact ⟨memory, run_bind_of_error hstart⟩

theorem Resting.step (h : Resting w k) (hstep : ControlStep w packet w') :
    Resting w' (k + stageCount packet) := by
  obtain ⟨memory, hardware, hrun, hcompleted⟩ := hstep
  have hmoved : Resting { w with memory } k := { h with ready := { h.ready with } }
  by_cases hlength : packet.length.toNat ≤ frameSize
  · by_cases hfits : k % commandRingUsableTrbs + stageCount packet ≤ commandRingUsableTrbs
    · obtain ⟨-, w₁, result, htransfer, hend⟩ := hmoved.transfer_fits hlength hfits hardware
      obtain ⟨rfl, rfl⟩ := Prod.mk.inj (htransfer.symm.trans hrun)
      obtain rfl | ⟨-, hresting⟩ := hend
      · simp [Completed] at hcompleted
      · exact hresting
    · obtain ⟨memory', hfull⟩ := hmoved.transfer_full hlength (Nat.not_le.mp hfits) hardware
      obtain rfl := (Prod.mk.inj (hfull.symm.trans hrun)).2
      simp [Completed] at hcompleted
  · have hlarge := startControlTransfer_large hmoved.free (Nat.not_le.mp hlength)
    obtain rfl := (Prod.mk.inj ((run_bind_of_error hlarge).symm.trans hrun)).2
    simp [Completed] at hcompleted

end XhciWorld

/-- A control transfer is refused exactly when its stages do not fit before the Link of the
endpoint-zero ring: the stages of one transfer never cross it. -/
theorem control_ring_admits {w₀ w : XhciWorld} (hready : w₀.Ready)
    (hfree : w₀.events.transfer = none) {device : XhciDevice}
    (hdevice : w₀.firstDevice = some device) (hring : device.endpointZeroRing.HoldsRing)
    (hbuffer : frameSize ≤ device.descriptorBuffer.len.toNat)
    (hcursor : device.endpointZeroCursor = .new) {packets : List UsbSetupPacket}
    (h : Trace.Run XhciWorld.ControlStep w₀ packets w) {packet : UsbSetupPacket}
    (hlength : packet.length.toNat ≤ frameSize) (hardware : XhciHardware) :
    (((startControlTransfer packet).run w).2 = .ok () ↔
      (packets.map stageCount).sum % 255 + stageCount packet ≤ 255) ∧
    (((controlTransfer hardware packet).run w).2 = .error .ringFull ↔
      255 < (packets.map stageCount).sum % 255 + stageCount packet) := by
  have hresting : XhciWorld.Resting w (packets.map stageCount).sum := by
    refine h.history (I := fun packets w ↦ XhciWorld.Resting w (packets.map _).sum) ?_ ?_
    · exact ⟨hready, hfree, device, hdevice, hring, hbuffer, hcursor⟩
    · intro packets w packet w' hresting hstep
      simpa using hresting.step hstep
  rw [← commandRingUsableTrbs_eq]
  by_cases hfits : (packets.map stageCount).sum % commandRingUsableTrbs +
      stageCount packet ≤ commandRingUsableTrbs
  · obtain ⟨hstart, w', result, htransfer, hend⟩ := hresting.transfer_fits hlength hfits hardware
    refine ⟨by simp [hstart, hfits], ?_⟩
    rw [htransfer]
    obtain rfl | ⟨hcompleted, -⟩ := hend
    · simp [hfits]
    · obtain ⟨actual, rfl⟩ | ⟨code, rfl⟩ | rfl := hcompleted <;> simp [hfits]
  · obtain ⟨memory, hstart⟩ := hresting.start_full hlength (Nat.not_le.mp hfits)
    obtain ⟨memory', htransfer⟩ := hresting.transfer_full hlength (Nat.not_le.mp hfits) hardware
    rw [hstart, htransfer]
    simpa using hfits

theorem EventDispatchState.dispatch_completes {s : EventDispatchState} {event : Trb}
    {pending : PendingTransfer} (h : s.transfer = some pending)
    (hevent : event.CompletesTransfer pending) :
    s.dispatch event = { s with transfer := some (pending.complete event) } := by
  obtain ⟨htype, haccepted⟩ := hevent
  have haccepts := PendingTransfer.accepts_iff.mpr haccepted
  have hother : event.trbType ≠ trbTypeCommandCompletionEvent := by
    rw [htype]
    decide
  simp only [dispatch, accept, if_neg hother, if_pos htype, acceptTransfer, h, haccepts, if_true]

def controlCompleted (k : ℕ) : Trb :=
  ⟨(frameAt 0x13000).slotPhysical (2 * k + 1), 0x01000000, 0x01018001⟩

def XhciHardware.prompt : XhciHardware := fun k memory ↦
  { memory with
    trbs := Function.update memory.trbs ((frameAt 0x11000).slot k) (controlCompleted k) }

namespace XhciWorld

open Attempt

structure Paced (w : XhciWorld) (k : ℕ) : Prop where
  polls : w.polls = k
  index : w.eventDequeueIndex = k
  cycle : w.eventCycle = true
  eventRing : w.eventRing = frameAt 0x11000

structure Answered (w : XhciWorld) (k : ℕ) : Prop where
  resting : Resting w (2 * k)
  paced : Paced w k
  device : w.firstDevice = some (storeControlCursor (.past (2 * k)) .storage)

variable {w w' : XhciWorld} {k : ℕ}

variable {packet : UsbSetupPacket}

theorem completesTransfer_controlCompleted (hlength : packet.length = 0) (hk : k < 127)
    (short : Option U64) :
    (controlCompleted k).CompletesTransfer
      (controlRecord (storeControlCursor (.past (2 * k)) .storage) packet (2 * k) short) := by
  have hcount : stageCount packet = 2 := by simp [stageCount, controlDirection, hlength]
  have hlast : 2 * k % commandRingUsableTrbs + 2 - 1 = 2 * k + 1 := by
    rw [commandRingUsableTrbs_eq]
    omega
  refine ⟨?_, .inl ?_, ?_, ?_⟩
  · simp only [Trb.trbType, controlCompleted]
    decide
  · have hring : (frameAt 0x13000).HoldsRing := holdsRing_frameAt (by decide) (by decide)
    have hslot : 2 * k + 1 < 256 := by omega
    have hpointer : (controlCompleted k).pointer = (frameAt 0x13000).slotPhysical (2 * k + 1) :=
      Bits.and_not_low (hring.dvd_slotPhysical hslot)
    rw [hpointer, controlRecord, hcount, hlast]
    rfl
  · simp only [Trb.slotId, controlCompleted, controlRecord, storeControlCursor, XhciDevice.storage]
    decide
  · simp only [Trb.endpointId, controlCompleted, controlRecord]
    decide

theorem poll_prompt (h : w.Sound) (hk : k < 127) (hpaced : Paced w k) :
    ∃ w', (poll .prompt).run w = (w', .ok true) ∧
      w'.events = w.events.dispatch (controlCompleted k) ∧ w'.firstDevice = w.firstDevice ∧
      Paced w' (k + 1) := by
  have hnext : ¬ k + 1 = eventRingTrbs := by
    rw [show eventRingTrbs = 256 from rfl]
    omega
  have hevent : (w.ticked .prompt).currentEvent = controlCompleted k := by
    simp only [currentEvent, ticked, hpaced.eventRing, hpaced.index, hpaced.polls,
      XhciHardware.prompt, Function.update_self]
  have hfresh : (w.ticked .prompt).currentEvent.cycle = (w.ticked .prompt).eventCycle := by
    rw [hevent, Trb.cycle_eq]
    exact Eq.trans (by simp only [controlCompleted]; decide) hpaced.cycle.symm
  refine ⟨(w.ticked .prompt).take, ?_, ?_, rfl, ?_, ?_, ?_, hpaced.eventRing⟩
  · exact (h.poll_eq .prompt).trans (if_pos hfresh)
  · exact congrArg w.events.dispatch hevent
  · exact congrArg (· + 1) hpaced.polls
  · simp only [take, publish, wrote, nextEvent, ticked, hpaced.index, if_neg hnext]
  · simp only [take, publish, wrote, nextEvent, ticked, hpaced.index, if_neg hnext, hpaced.cycle]

theorem Answered.transfer (h : Answered w k) (hk : k < 127) (hlength : packet.length = 0) :
    ∃ w', ControlStep w packet w' ∧ Answered w' (k + 1) := by
  have hcount : stageCount packet = 2 := by simp [stageCount, controlDirection, hlength]
  have hsmall : packet.length.toNat ≤ frameSize := by simp [hlength]
  have hfits : 2 * k % commandRingUsableTrbs + stageCount packet ≤ commandRingUsableTrbs := by
    rw [hcount, commandRingUsableTrbs_eq]
    omega
  let device := storeControlCursor (.past (2 * k)) XhciDevice.storage
  have hring : ControlRing device (2 * k) := by
    obtain ⟨other, hother, hring⟩ := h.resting.device
    obtain rfl := Option.some.inj (h.device.symm.trans hother)
    exact hring
  obtain ⟨memory, short, hstart⟩ := h.resting.start_fits h.device hring hsmall hfits
  let pending := controlRecord device packet (2 * k) short
  have hready := (h.resting.ready.staged h.device (2 * k + stageCount packet) memory).armed
    pending 1
  obtain ⟨w₁, hpoll, hevents, hdevice, hpaced⟩ := poll_prompt hready.toSound hk
    ⟨h.paced.polls, h.paced.index, h.paced.cycle, h.paced.eventRing⟩
  have hcompletes := completesTransfer_controlCompleted hlength hk short
  have htransfer : w₁.events.transfer = some (pending.complete (controlCompleted k)) := by
    rw [hevents, EventDispatchState.dispatch_completes rfl hcompletes]
  obtain ⟨spins, hspins⟩ : ∃ spins, Xhci.maxPollSpins = spins + 1 :=
    Nat.exists_eq_add_one.mpr (by decide)
  have howner : (pending.complete (controlCompleted k)).owner = .control := rfl
  have hevent : (pending.complete (controlCompleted k)).completion = some (controlCompleted k) := rfl
  have hrun : (controlTransfer .prompt packet).run w =
      ({ w₁ with events := { w₁.events with transfer := none } },
        transferResult (pending.complete (controlCompleted k)) (controlCompleted k)) := by
    rw [controlTransfer, run_bind_of_ok hstart, hspins, waitForTransfer, run_bind_of_ok hpoll]
    simp only [run_get_bind, htransfer, howner, hevent, if_true, run_modify_bind, run_ofExcept]
  have hstep : ControlStep w packet { w₁ with events := { w₁.events with transfer := none } } :=
    .completed w.memory .prompt hrun (completed_transferResult _ _)
  have hresting := h.resting.step hstep
  rw [hcount] at hresting
  refine ⟨_, hstep, hresting, { hpaced with }, hdevice.trans ?_⟩
  rw [hcount]
  rfl

theorem exists_answered (hlength : packet.length = 0) (hk : k ≤ 127) :
    ∃ w, Trace.Run ControlStep started (List.replicate k packet) w ∧ Answered w k := by
  induction k with
  | zero =>
    have hring : ControlRing XhciDevice.storage 0 :=
      { ring := holdsRing_frameAt (by decide) (by decide)
        buffer := by decide
        cursor := rfl }
    exact ⟨started, .nil,
      { resting := ⟨ready_started, rfl, _, rfl, hring⟩
        paced := ⟨rfl, rfl, rfl, rfl⟩
        device := rfl }⟩
  | succ k ih =>
    obtain ⟨w, hrun, hanswered⟩ := ih (Nat.le_of_succ_le hk)
    obtain ⟨w', hstep, hanswered'⟩ := hanswered.transfer hk hlength
    rw [List.replicate_succ']
    exact ⟨w', hrun.snoc hstep, hanswered'⟩

end XhciWorld

theorem control_ring_admits_again : ∃ w,
    Trace.Run XhciWorld.ControlStep .started
      (List.replicate 126 (clearEndpointHalt 0x81)) w ∧
    ((startControlTransfer (massStorageReset 0)).run w).2 = .ok () := by
  have hlength : (clearEndpointHalt 0x81).length = 0 := rfl
  obtain ⟨w, hrun, -⟩ := exists_answered (k := 126) hlength (by decide)
  have hring : XhciDevice.storage.endpointZeroRing.HoldsRing :=
    holdsRing_frameAt (by decide) (by decide)
  have hadmits := control_ring_admits ready_started rfl rfl hring (by decide) rfl hrun
    (by decide : (massStorageReset 0).length.toNat ≤ frameSize) .idle
  refine ⟨w, hrun, hadmits.1.mpr ?_⟩
  rw [List.map_replicate, List.sum_replicate_nat]
  decide

/-- After 127 transfers of two stages one block is left, and no transfer ever fits it. -/
theorem control_ring_wedges : ∃ w,
    Trace.Run XhciWorld.ControlStep .started
      (List.replicate 127 (clearEndpointHalt 0x81)) w ∧
    ∀ hardware,
      (∀ packet : UsbSetupPacket, packet.length.toNat ≤ frameSize →
        ((controlTransfer hardware packet).run w).2 = .error .ringFull) ∧
      ((resetMassStorageTransport hardware).run w).2 = .error .ringFull := by
  have hlength : (clearEndpointHalt 0x81).length = 0 := rfl
  obtain ⟨w, hrun, hanswered⟩ := exists_answered (k := 127) hlength le_rfl
  have hfull (hardware : XhciHardware) (packet : UsbSetupPacket)
      (hsmall : packet.length.toNat ≤ frameSize) :
      ∃ w', (controlTransfer hardware packet).run w = (w', .error .ringFull) := by
    have hcount := stageCount_pos packet
    have hnone : commandRingUsableTrbs <
        2 * 127 % commandRingUsableTrbs + stageCount packet := by
      rw [commandRingUsableTrbs_eq]
      omega
    obtain ⟨memory, htransfer⟩ := hanswered.resting.transfer_full hsmall hnone hardware
    exact ⟨_, htransfer⟩
  refine ⟨w, hrun, fun hardware ↦ ⟨fun packet hsmall ↦ ?_, ?_⟩⟩
  · obtain ⟨w', htransfer⟩ := hfull hardware packet hsmall
    rw [htransfer]
  · obtain ⟨w', htransfer⟩ := hfull hardware (massStorageReset 0) (by decide)
    simp only [resetMassStorageTransport, Attempt.run_get_bind, hanswered.resting.free,
      Option.isSome_none, Bool.false_eq_true, if_false, hanswered.device, Attempt.demand_some,
      Attempt.run_pure_bind]
    exact congrArg Prod.snd (Attempt.run_bind_of_error htransfer)

end BraneKernel
