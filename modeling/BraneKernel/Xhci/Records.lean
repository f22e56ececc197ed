import BraneKernel.Xhci.EventRing

namespace BraneKernel

namespace EventDispatchState

theorem isSome_command_dispatch (s : EventDispatchState) (event : Trb) :
    (s.dispatch event).command.isSome = s.command.isSome := by
  obtain hsame | ⟨pending, hpending, e, -, -, hnow⟩ := (dispatch_dispatched s event).creditsCommand
  · rw [hsame]
  · rw [hnow, hpending]
    rfl

theorem owner_transfer_dispatch (s : EventDispatchState) (event : Trb) :
    (s.dispatch event).transfer.map PendingTransfer.owner =
      s.transfer.map PendingTransfer.owner := by
  obtain hsame | ⟨pending, hpending, e, -, -, hnow⟩ := (dispatch_dispatched s event).creditsTransfer
  · rw [hsame]
  · rw [hnow, hpending]
    rfl

end EventDispatchState

namespace XhciWorld

open Attempt

variable {w w' : XhciWorld} (hardware : XhciHardware)

/-- What initialisation and enumeration leave: besides the event ring a command
ring, and doorbells inside the BAR. -/
structure Ready (w : XhciWorld) : Prop extends Sound w where
  commandRing : w.commandRing.HoldsRing
  commandIndex : w.commandEnqueueIndex < commandRingUsableTrbs
  doorbells (device : XhciDevice) (h : w.firstDevice = some device) :
    w.mmio.contains (w.layout.doorbell device.slotId) 4 = true

structure Polled (w w' : XhciWorld) : Prop where
  ready : w'.Ready
  firstDevice : w'.firstDevice = w.firstDevice
  command : w'.events.command.isSome = w.events.command.isSome
  owner : w'.events.transfer.map PendingTransfer.owner =
    w.events.transfer.map PendingTransfer.owner

theorem Ready.dispatchOneEvent (h : w.Ready) :
    ∃ w' seen, dispatchOneEvent.run w = (w', .ok seen) ∧ Polled w w' := by
  rw [h.dispatchOneEvent_eq]
  split_ifs with hcycle
  · refine ⟨_, true, rfl, { h.toSound.take, h with }, rfl, ?_, ?_⟩
    · exact EventDispatchState.isSome_command_dispatch _ _
    · exact EventDispatchState.owner_transfer_dispatch _ _
  · exact ⟨_, false, rfl, h, rfl, rfl, rfl⟩

theorem Ready.ticked (h : w.Ready) : (w.ticked hardware).Ready := { h with }

theorem Ready.poll (h : w.Ready) :
    ∃ w' seen, (poll hardware).run w = (w', .ok seen) ∧ Polled w w' := by
  obtain ⟨w', seen, hdispatch, hpolled⟩ := (h.ticked hardware).dispatchOneEvent
  exact ⟨w', seen, (w.run_poll hardware).trans hdispatch, { hpolled with }⟩

/-- A failure that says nothing about the records. -/
def Plain (o : Option XhciInitError) : Prop :=
  o ≠ some .busy ∧ o ≠ some .commandCompletionTimeout ∧ o ≠ some .transferTimeout

theorem Polled.isSome_transfer (h : Polled w w') :
    w'.events.transfer.isSome = w.events.transfer.isSome := by
  have howner := congrArg Option.isSome h.owner
  rwa [Option.isSome_map, Option.isSome_map] at howner

theorem Ready.waitForCommand (h : w.Ready) (hpending : w.events.command.isSome = true) (spins : ℕ) :
    ∃ w' result, (waitForCommand hardware spins).run w = (w', result) ∧ w'.Ready ∧
      w'.events.transfer.isSome = w.events.transfer.isSome ∧
      (result = .error .commandCompletionTimeout ∧ w'.events.command.isSome = true ∨
        Plain (errorOf result) ∧ w'.events.command = none) := by
  induction spins generalizing w with
  | zero => exact ⟨w, _, rfl, h, rfl, .inl ⟨rfl, hpending⟩⟩
  | succ spins ih =>
    obtain ⟨w₁, seen, hpoll, hpolled⟩ := h.poll hardware
    simp only [XhciWorld.waitForCommand, run_bind_of_ok hpoll, run_get_bind]
    cases hcompletion : w₁.events.command.bind (·.completion) with
    | none =>
      obtain ⟨w', result, hrun, hready, hkept, hend⟩ :=
        ih hpolled.ready (hpolled.command.trans hpending)
      exact ⟨w', result, hrun, hready, hkept.trans hpolled.isSome_transfer, hend⟩
    | some event =>
      have hcleared : Ready { w₁ with events := { w₁.events with command := none } } :=
        { hpolled.ready with }
      simp only [run_modify_bind]
      split_ifs <;>
        exact ⟨_, _, rfl, hcleared, hpolled.isSome_transfer, .inr ⟨by simp [Plain], rfl⟩⟩

def Completed (result : Except XhciInitError U16) : Prop :=
  (∃ actual, result = .ok actual) ∨ (∃ code, result = .error (.transferFailed code)) ∨
    result = .error .invalidTransferCompletion

theorem completed_transferResult (pending : PendingTransfer) (event : Trb) :
    Completed (transferResult pending event) := by
  rw [transferResult]
  split_ifs
  · simp [Completed]
  · cases Checked.sub pending.requestedLength (event.transferLength.setWidth 16) <;>
      simp [Completed]
  · simp [Completed]
  · simp [Completed]

theorem Completed.plain {result : Except XhciInitError U16} (h : Completed result) :
    Plain (errorOf result) := by
  obtain ⟨actual, rfl⟩ | ⟨code, rfl⟩ | rfl := h <;> simp [Plain]

theorem Ready.waitForTransfer {owner : TransferOwner} (h : w.Ready)
    (hpending : w.events.transfer.map PendingTransfer.owner = some owner) (spins : ℕ) :
    ∃ w' result, (waitForTransfer hardware owner spins).run w = (w', result) ∧ w'.Ready ∧
      w'.firstDevice = w.firstDevice ∧
      w'.events.command.isSome = w.events.command.isSome ∧
      (result = .error .transferTimeout ∧ w'.events.transfer.isSome = true ∨
        Completed result ∧ w'.events.transfer = none) := by
  induction spins generalizing w with
  | zero =>
    have hsome : w.events.transfer.isSome = true := by
      rw [← Option.isSome_map (f := PendingTransfer.owner), hpending]
      rfl
    exact ⟨w, _, rfl, h, rfl, rfl, .inl ⟨rfl, hsome⟩⟩
  | succ spins ih =>
    obtain ⟨w₁, seen, hpoll, hpolled⟩ := h.poll hardware
    have howner := hpolled.owner.trans hpending
    have hagain := ih hpolled.ready howner
    rw [hpolled.firstDevice, hpolled.command] at hagain
    simp only [XhciWorld.waitForTransfer, run_bind_of_ok hpoll, run_get_bind]
    obtain ⟨pending, htransfer, rfl⟩ := Option.map_eq_some_iff.mp howner
    cases hcompletion : pending.completion with
    | none => simpa only [htransfer, hcompletion] using hagain
    | some event =>
      have hcleared : Ready { w₁ with events := { w₁.events with transfer := none } } :=
        { hpolled.ready with }
      simp only [htransfer, hcompletion, if_true, run_modify_bind, run_ofExcept]
      exact ⟨_, _, rfl, hcleared, hpolled.firstDevice, hpolled.command,
        .inr ⟨completed_transferResult pending event, rfl⟩⟩

/-- How a request that needs a record ends: refused while the record is taken, in a
timeout that leaves it taken, or with the record free again. -/
inductive Ended (timeout : XhciInitError) : Bool → Option XhciInitError → Bool → Prop
  | refused : Ended timeout true (some .busy) true
  | waited : Ended timeout false (some timeout) true
  | done {o : Option XhciInitError} (plain : Plain o) : Ended timeout false o false

structure CommandEnds (w : XhciWorld) (o : Option XhciInitError) (w' : XhciWorld) : Prop where
  ready : w'.Ready
  transfer : w'.events.transfer.isSome = w.events.transfer.isSome
  ended : Ended .commandCompletionTimeout w.events.command.isSome o w'.events.command.isSome

structure TransferEnds (w : XhciWorld) (o : Option XhciInitError) (w' : XhciWorld) : Prop where
  ready : w'.Ready
  command : w'.events.command.isSome = w.events.command.isSome
  ended : Ended .transferTimeout w.events.transfer.isSome o w'.events.transfer.isSome

structure Left (w : XhciWorld) (o : Option XhciInitError) (w' : XhciWorld) : Prop where
  ready : w'.Ready
  command : w'.events.command.isSome = true ↔
    w.events.command.isSome = true ∨ o = some .commandCompletionTimeout
  transfer : w'.events.transfer.isSome = true ↔
    w.events.transfer.isSome = true ∨ o = some .transferTimeout
  busy : o = some .busy → w.events.command.isSome = true ∨ w.events.transfer.isSome = true

def Leaves (w : XhciWorld) (o : Option XhciInitError) (w' : XhciWorld) : Prop :=
  w.Ready → Left w o w'

variable {o : Option XhciInitError} {timeout : XhciInitError}

theorem Ended.busy_iff {before after : Bool} (htimeout : timeout ≠ .busy)
    (h : Ended timeout before o after) : o = some .busy ↔ before = true := by
  cases h with
  | refused => simp
  | waited => simp [htimeout]
  | done plain => simp [plain.1]

theorem Ended.after_iff {before after : Bool} (htimeout : Plain o → o ≠ some timeout)
    (h : Ended timeout before o after) : after = true ↔ before = true ∨ o = some timeout := by
  cases h with
  | refused => simp
  | waited => simp
  | done plain => simp [htimeout plain]

theorem Ended.ne_other {other : XhciInitError} {before after : Bool} (hother : other ≠ timeout)
    (hbusy : other ≠ .busy) (hplain : Plain o → o ≠ some other) (h : Ended timeout before o after) :
    o ≠ some other := by
  cases h with
  | refused => simp [hbusy.symm]
  | waited => simp [hother.symm]
  | done plain => exact hplain plain

theorem CommandEnds.left (h : CommandEnds w o w') : Left w o w' where
  ready := h.ready
  command := h.ended.after_iff (·.2.1)
  transfer := by
    rw [h.transfer, or_iff_left (h.ended.ne_other (by simp) (by simp) (·.2.2))]
  busy hbusy := .inl ((h.ended.busy_iff (by simp)).mp hbusy)

theorem TransferEnds.left (h : TransferEnds w o w') : Left w o w' where
  ready := h.ready
  command := by
    rw [h.command, or_iff_left (h.ended.ne_other (by simp) (by simp) (·.2.1))]
  transfer := h.ended.after_iff (·.2.2)
  busy hbusy := .inr ((h.ended.busy_iff (by simp)).mp hbusy)

theorem Left.of_plain (hplain : Plain o) (hready : w'.Ready)
    (hevents : w'.events = w.events) : Left w o w' where
  ready := hready
  command := by simp [hevents, hplain.2.1]
  transfer := by simp [hevents, hplain.2.2]
  busy h := absurd h hplain.1

theorem leaves_refl (w : XhciWorld) : Leaves w none w :=
  fun h ↦ .of_plain (by simp [Plain]) h rfl

theorem leaves_trans (w t w' : XhciWorld) (o : Option XhciInitError) (h : Leaves w none t)
    (h' : Leaves t o w') : Leaves w o w' := by
  intro hready
  have hleft := h hready
  have hleft' := h' hleft.ready
  have hcommand := hleft.command
  have htransfer := hleft.transfer
  simp only [reduceCtorEq, or_false] at hcommand htransfer
  exact
    { ready := hleft'.ready
      command := by rw [hleft'.command, hcommand]
      transfer := by rw [hleft'.transfer, htransfer]
      busy := by
        rw [← hcommand, ← htransfer]
        exact hleft'.busy }

theorem leaves_plain {e : XhciInitError} (h : Plain (some e)) (w : XhciWorld) :
    Leaves w (some e) w :=
  fun hready ↦ .of_plain h hready rfl

theorem Ready.advanceCommandRing (h : w.Ready) :
    ∃ w', advanceCommandRing.run w = (w', .ok ()) ∧ w'.Ready ∧ w'.events = w.events ∧
      w'.layout = w.layout := by
  have hlink := h.commandRing.trbPointer_eq (i := commandRingUsableTrbs) (by decide)
  have hfirst : 0 < commandRingUsableTrbs := by decide
  simp only [XhciWorld.advanceCommandRing, run_modify_bind, run_get_bind]
  split_ifs with hlast
  · simp only [hlink, demand_some, run_pure_bind, run_modify_bind, run_modify]
    exact ⟨_, rfl, { h with commandIndex := hfirst }, rfl, rfl⟩
  · have hindex : w.commandEnqueueIndex + 1 < commandRingUsableTrbs :=
      lt_of_le_of_ne h.commandIndex hlast
    exact ⟨_, rfl, { h with commandIndex := hindex }, rfl, rfl⟩

def place (command : Trb) (w : XhciWorld) : XhciWorld :=
  { w.writeTrb (w.commandRing.slot w.commandEnqueueIndex) (command.withCycle w.commandCycle) with
    events :=
      { w.events with
        command := some
          ⟨w.commandRing.slotPhysical w.commandEnqueueIndex, expectedSlot command, none⟩ } }

theorem startCommand_eq (hring : w.commandRing.HoldsRing)
    (hindex : w.commandEnqueueIndex < commandRingUsableTrbs) (hfree : w.events.command = none)
    (command : Trb) :
    (startCommand command).run w =
      (advanceCommandRing >>= fun _ ↦ writeMmioU32 w.layout.doorbellBase 0).run
        (w.place command) := by
  have hslot : w.commandEnqueueIndex < commandRingTrbs := hindex.trans (by decide)
  have hphysical := hring.trbPhysical_eq hslot
  have hpointer := hring.trbPointer_eq hslot
  simp only [startCommand, run_get_bind, hfree, Option.isSome_none, Bool.false_eq_true, if_false,
    hphysical, hpointer, demand_some, run_pure_bind, run_modify_bind]
  rfl

theorem Ready.startCommand (h : w.Ready) (hfree : w.events.command = none) (command : Trb) :
    ∃ w', (startCommand command).run w = (w', .ok ()) ∧ w'.Ready ∧
      w'.events = (w.place command).events := by
  have hplaced : (w.place command).Ready := { h with }
  obtain ⟨w', hadvance, hready, hevents, hlayout⟩ := hplaced.advanceCommandRing
  have hdoorbell : w'.mmio.contains w.layout.doorbellBase 4 = true := by
    obtain ⟨_, _, _, hnew⟩ := hready.layout
    exact hlayout ▸ (RegisterLayout.contains_of_new hnew).2
  refine ⟨w'.wrote w.layout.doorbellBase 0, ?_, { hready with }, hevents⟩
  rw [startCommand_eq h.commandRing h.commandIndex hfree, run_bind_of_ok hadvance,
    writeMmioU32_eq hready.mapped hdoorbell]

theorem submitCommand_busy (h : w.events.command.isSome = true) (command : Trb) :
    (submitCommand hardware command).run w = (w, .error .busy) := by
  have hstart : (XhciWorld.startCommand command).run w = (w, .error .busy) := by
    simp only [XhciWorld.startCommand, run_get_bind, h, if_true, run_fail]
  rw [submitCommand, run_bind_of_error hstart]

theorem Ready.submitCommand (h : w.Ready) (command : Trb) :
    ∃ w' result, (submitCommand hardware command).run w = (w', result) ∧
      CommandEnds w (errorOf result) w' := by
  cases hcommand : w.events.command with
  | some pending =>
    refine ⟨w, _, submitCommand_busy hardware (by simp [hcommand]) command, h, rfl, ?_⟩
    simpa [hcommand] using Ended.refused
  | none =>
    obtain ⟨w₁, hstart, hready, hevents⟩ := h.startCommand hcommand command
    obtain ⟨w', result, hwait, hready', htransfer, hend⟩ :=
      hready.waitForCommand hardware (by rw [hevents]; rfl) Xhci.maxPollSpins
    refine ⟨w', result, ?_, hready', ?_, ?_⟩
    · rw [XhciWorld.submitCommand, run_bind_of_ok hstart, hwait]
    · rw [htransfer, hevents]
      rfl
    · obtain ⟨rfl, hsome⟩ | ⟨hplain, hnone⟩ := hend
      · simpa [hcommand, hsome] using Ended.waited
      · simpa [hcommand, hnone] using Ended.done hplain

theorem plain_stageTrbs (ring : DmaRegion) (c : Bool) (i : ℕ) (physical : U64) (trbs : List Trb) :
    Plain (errorOf (stageTrbs ring c i physical trbs).2) := by
  fun_induction stageTrbs ring c i physical trbs with
  | case1 => simp [Plain]
  | case2 i physical trb trbs pointer next hpointer hphysical rest ih => exact ih
  | case3 => simp [Plain]

theorem plain_enqueueTransferTd (ring : DmaRegion) (cursor : RingCursor) (trbs : List Trb) :
    Plain (errorOf (enqueueTransferTd ring cursor trbs).2.2) := by
  fun_cases enqueueTransferTd ring cursor trbs with
  | case1 e hreserve =>
    simp only [RingCursor.reserve] at hreserve
    split_ifs at hreserve
    obtain rfl := Except.error.inj hreserve
    simp [Plain]
  | case2 next reservation hreserve writes e hstage =>
    have hplain := plain_stageTrbs ring reservation.cycle reservation.startIndex 0 trbs
    rw [hstage] at hplain
    exact hplain
  | case3 => simp [Plain]
  | case4 => simp [Plain]
  | case5 => simp [Plain]

theorem enqueueTd_run (ring : DmaRegion) (cursor : RingCursor) (trbs : List Trb) (w : XhciWorld) :
    (enqueueTd ring cursor trbs).run w =
      (w.writeTrbs (enqueueTransferTd ring cursor trbs).2.1,
        (enqueueTransferTd ring cursor trbs).2.2.map
          ((enqueueTransferTd ring cursor trbs).1, ·)) := by
  rw [enqueueTd]
  rcases enqueueTransferTd ring cursor trbs with ⟨next, writes, e | final⟩ <;> rfl

/-- What the steps before the record do. -/
structure Keeps (w : XhciWorld) (o : Option XhciInitError) (w' : XhciWorld) : Prop where
  plain : Plain o
  ready : w.Ready → w'.Ready
  events : w'.events = w.events
  firstDevice : w'.firstDevice = w.firstDevice

theorem keeps_same (hplain : Plain o) (w : XhciWorld) : Keeps w o w := ⟨hplain, id, rfl, rfl⟩

theorem keeps_clearDma (region : DmaRegion) (bytes : ℕ) : Within Keeps (clearDma region bytes) := by
  rw [clearDma]
  split_ifs
  · exact within_fail (keeps_same (by simp [Plain]))
  · exact within_modify fun _ ↦ ⟨by simp [Plain], fun h ↦ { h with }, rfl, rfl⟩

theorem keeps_enqueueTd (ring : DmaRegion) (cursor : RingCursor) (trbs : List Trb) :
    Within Keeps (enqueueTd ring cursor trbs) := by
  intro w
  have hplain := plain_enqueueTransferTd ring cursor trbs
  rw [enqueueTd_run]
  refine ⟨?_, fun h ↦ { h with }, rfl, rfl⟩
  cases hresult : (enqueueTransferTd ring cursor trbs).2.2 with
  | error e =>
    rw [hresult] at hplain
    exact hplain
  | ok final => simp [Except.map, Plain]

variable (direction : TransferDirection)

theorem keeps_dataStagePointer (final : U64) : Within Keeps (dataStagePointer direction final) := by
  intro w
  rw [dataStagePointer]
  split_ifs
  · exact keeps_same (by simp [Plain]) w
  · cases Checked.sub final (BitVec.ofNat 64 trbBytes) <;> exact keeps_same (by simp [Plain]) w

inductive Prepared (w : XhciWorld) (owner : TransferOwner) :
    XhciWorld × Except XhciInitError PendingTransfer → Prop
  | failed {w' : XhciWorld} {e : XhciInitError} (plain : Plain (some e))
      (ready : w.Ready → w'.Ready) (events : w'.events = w.events) : Prepared w owner (w', .error e)
  | made {w' : XhciWorld} {pending : PendingTransfer} {device : XhciDevice}
      (found : w'.firstDevice = some device) (slot : pending.slotId = device.slotId)
      (owned : pending.owner = owner) (ready : w.Ready → w'.Ready)
      (events : w'.events = w.events) : Prepared w owner (w', .ok pending)

variable {device : XhciDevice} {pending : PendingTransfer} {owner : TransferOwner}

theorem Prepared.after {r : XhciWorld × Except XhciInitError PendingTransfer} (hkeeps : Keeps w o w')
    (h : Prepared w' owner r) : Prepared w owner r := by
  cases h with
  | failed plain ready events =>
    exact .failed plain (ready ∘ hkeeps.ready) (events.trans hkeeps.events)
  | made found slot owned ready events =>
    exact .made found slot owned (ready ∘ hkeeps.ready) (events.trans hkeeps.events)

theorem Prepared.bind {α : Type} {x : XhciAction α} {f : α → XhciAction PendingTransfer}
    (hx : Within Keeps x) (hdevice : w.firstDevice = some device)
    (hf : ∀ a t, t.firstDevice = some device → Prepared t owner ((f a).run t)) :
    Prepared w owner ((x >>= f).run w) := by
  rcases hrun : x.run w with ⟨t, e | a⟩
  · rw [run_bind_of_error hrun]
    have hkeeps := hx.of_run hrun
    exact .failed hkeeps.plain hkeeps.ready hkeeps.events
  · rw [run_bind_of_ok hrun]
    have hkeeps := hx.of_run hrun
    exact .after hkeeps (hf a t (hkeeps.firstDevice.trans hdevice))

theorem Prepared.store (hdevice : w.firstDevice = some device) {f : XhciDevice → XhciDevice}
    (hf : (f device).slotId = device.slotId) (hslot : pending.slotId = device.slotId)
    (howner : pending.owner = owner) :
    Prepared w owner ({ w with firstDevice := w.firstDevice.map f }, .ok pending) := by
  have hfound : w.firstDevice.map f = some (f device) := by rw [hdevice, Option.map_some]
  refine .made hfound (hslot.trans hf.symm) howner (fun h ↦ { h with doorbells := ?_ }) rfl
  intro d hd
  obtain rfl := Option.some.inj (hfound.symm.trans hd)
  rw [hf]
  exact h.doorbells device hdevice

theorem prepared_prepareControlTransfer (packet : UsbSetupPacket) (w : XhciWorld) :
    Prepared w .control ((prepareControlTransfer packet).run w) := by
  simp only [prepareControlTransfer, run_get_bind]
  cases hdevice : w.firstDevice with
  | none => exact .failed (by simp [Plain]) id rfl
  | some device =>
    simp only [demand_some, run_pure_bind]
    refine .bind (keeps_clearDma _ _) hdevice fun _ t ht ↦ ?_
    refine .bind (keeps_enqueueTd _ _ _) ht fun next t ht ↦ ?_
    refine .bind (keeps_dataStagePointer _ _) ht fun short t ht ↦ ?_
    exact .store ht rfl rfl rfl

theorem bulkEndpoint_run (device : XhciDevice) (direction : TransferDirection) (w : XhciWorld) :
    (∃ e, Plain (some e) ∧ (bulkEndpoint device direction).run w = (w, .error e)) ∨
      ∃ endpoint, (bulkEndpoint device direction).run w = (w, .ok endpoint) := by
  cases direction with
  | none => exact .inl ⟨_, by simp [Plain], rfl⟩
  | «in» =>
    rw [bulkEndpoint]
    cases device.massStorageBulkInRing with
    | none => exact .inl ⟨_, by simp [Plain], rfl⟩
    | some ring => exact .inr ⟨_, rfl⟩
  | out =>
    rw [bulkEndpoint]
    cases device.massStorageBulkOutRing with
    | none => exact .inl ⟨_, by simp [Plain], rfl⟩
    | some ring => exact .inr ⟨_, rfl⟩

theorem prepared_prepareBulkTransfer (length : U16) (buffer : DmaRegion) (w : XhciWorld) :
    ∃ owner, Prepared w owner ((prepareBulkTransfer direction length buffer).run w) := by
  simp only [prepareBulkTransfer, run_get_bind]
  cases hdevice : w.firstDevice with
  | none => exact ⟨.control, .failed (by simp [Plain]) id rfl⟩
  | some device =>
    simp only [demand_some, run_pure_bind]
    obtain ⟨e, hplain, hendpoint⟩ | ⟨endpoint, hendpoint⟩ := bulkEndpoint_run device direction w
    · rw [run_bind_of_error hendpoint]
      exact ⟨.control, .failed hplain id rfl⟩
    · rw [run_bind_of_ok hendpoint]
      refine ⟨endpoint.owner, .bind (keeps_enqueueTd _ _ _) hdevice fun next t ht ↦ ?_⟩
      exact .store ht (by cases direction <;> rfl) rfl rfl

def armed (pending : PendingTransfer) (target : U32) (w : XhciWorld) : XhciWorld :=
  wrote (w.layout.doorbell pending.slotId) target
    { w with events := { w.events with transfer := some pending } }

theorem Ready.armed (h : w.Ready) (pending : PendingTransfer) (target : U32) :
    (w.armed pending target).Ready :=
  { h with }

theorem Ready.ringFor_eq (h : w.Ready) (hdevice : w.firstDevice = some device)
    (hslot : pending.slotId = device.slotId) (target : U32) :
    (ringFor pending target).run w = (w.armed pending target, .ok ()) := by
  have hinside : w.mmio.contains (w.layout.doorbell pending.slotId) 4 = true :=
    hslot ▸ h.doorbells device hdevice
  simp only [ringFor, run_modify_bind, run_get_bind]
  exact writeMmioU32_eq (w := { w with events := { w.events with transfer := some pending } })
    h.mapped hinside target

theorem TransferEnds.of_plain (hfree : w.events.transfer = none) (hplain : Plain o)
    (hready : w'.Ready) (hevents : w'.events = w.events) : TransferEnds w o w' where
  ready := hready
  command := by rw [hevents]
  ended := by
    rw [hevents, hfree]
    exact .done hplain

theorem TransferEnds.of_busy (h : w.Ready) (hbusy : w.events.transfer.isSome = true) :
    TransferEnds w (some .busy) w where
  ready := h
  command := rfl
  ended := by
    rw [hbusy]
    exact .refused

theorem Ready.wait_armed {w₀ : XhciWorld} (h : w.Ready) (hfree : w₀.events.transfer = none)
    (hevents : w.events = w₀.events) (pending : PendingTransfer) (target : U32) (spins : ℕ) :
    ∃ w' result,
      (XhciWorld.waitForTransfer hardware pending.owner spins).run (w.armed pending target) =
        (w', result) ∧ TransferEnds w₀ (errorOf result) w' := by
  obtain ⟨w', result, hwait, hready, -, hcommand, hend⟩ :=
    (h.armed pending target).waitForTransfer hardware (rfl : _ = some pending.owner) spins
  refine ⟨w', result, hwait, hready, ?_, ?_⟩
  · rw [hcommand, ← hevents]
    rfl
  · rw [hfree]
    obtain ⟨rfl, hsome⟩ | ⟨hcompleted, hnone⟩ := hend
    · rw [hsome]
      exact .waited
    · rw [hnone]
      exact .done hcompleted.plain

theorem startControlTransfer_busy (h : w.events.transfer.isSome = true) (packet : UsbSetupPacket) :
    (startControlTransfer packet).run w = (w, .error .busy) := by
  simp only [startControlTransfer, run_get_bind, h, if_true, run_fail]

theorem startControlTransfer_large {packet : UsbSetupPacket} (hfree : w.events.transfer = none)
    (hlarge : frameSize < packet.length.toNat) :
    (startControlTransfer packet).run w = (w, .error .descriptorTooLarge) := by
  simp only [startControlTransfer, run_get_bind, hfree, Option.isSome_none, Bool.false_eq_true,
    if_false, if_pos hlarge, run_fail]

theorem startControlTransfer_free {packet : UsbSetupPacket} (hfree : w.events.transfer = none)
    (hlength : packet.length.toNat ≤ frameSize) :
    (startControlTransfer packet).run w =
      (prepareControlTransfer packet >>= fun pending ↦ ringFor pending 1).run w := by
  simp only [startControlTransfer, run_get_bind, hfree, Option.isSome_none, Bool.false_eq_true,
    if_false, if_neg (Nat.not_lt.mpr hlength)]

theorem Ready.controlTransfer (h : w.Ready) (packet : UsbSetupPacket) :
    ∃ w' result, (controlTransfer hardware packet).run w = (w', result) ∧
      TransferEnds w (errorOf result) w' := by
  by_cases hbusy : w.events.transfer.isSome = true
  · exact ⟨w, _, run_bind_of_error (startControlTransfer_busy hbusy packet), .of_busy h hbusy⟩
  have hfree : w.events.transfer = none := by simpa using hbusy
  by_cases hlarge : frameSize < packet.length.toNat
  · exact ⟨w, _, run_bind_of_error (startControlTransfer_large hfree hlarge),
      .of_plain hfree (by simp [Plain]) h rfl⟩
  have hstart := startControlTransfer_free hfree (Nat.not_lt.mp hlarge)
  have hprepared := prepared_prepareControlTransfer packet w
  generalize hrun : (prepareControlTransfer packet).run w = prepared at hprepared
  cases hprepared with
  | failed plain ready events =>
    exact ⟨_, _, run_bind_of_error (hstart.trans (run_bind_of_error hrun)),
      .of_plain hfree plain (ready h) events⟩
  | @made w₁ pending device found slot owned ready events =>
    have hring := (ready h).ringFor_eq found slot 1
    obtain ⟨w', result, hwait, hends⟩ :=
      (ready h).wait_armed hardware hfree events pending 1 Xhci.maxPollSpins
    refine ⟨w', result, ?_, hends⟩
    rw [XhciWorld.controlTransfer, run_bind_of_ok (hstart.trans ((run_bind_of_ok hrun).trans hring)),
      ← owned, hwait]

theorem Ready.submitBulkTransfer (h : w.Ready) (direction : TransferDirection) (length : U16)
    (buffer : DmaRegion) :
    ∃ w' result, (submitBulkTransfer hardware direction length buffer).run w = (w', result) ∧
      TransferEnds w (errorOf result) w' := by
  by_cases hbusy : w.events.transfer.isSome = true
  · have hstart : (startBulkTransfer direction length buffer).run w = (w, .error .busy) := by
      simp only [startBulkTransfer, run_get_bind, hbusy, if_true, run_fail]
    exact ⟨w, _, run_bind_of_error hstart, .of_busy h hbusy⟩
  have hfree : w.events.transfer = none := by simpa using hbusy
  by_cases hlength : length = 0 ∨ length.toNat > frameSize
  · have hstart : (startBulkTransfer direction length buffer).run w =
        (w, .error .invalidTransferCompletion) := by
      simp only [startBulkTransfer, run_get_bind, hbusy, hlength, if_true, Bool.false_eq_true,
        if_false, run_fail]
    exact ⟨w, _, run_bind_of_error hstart, .of_plain hfree (by simp [Plain]) h rfl⟩
  have hstart : (startBulkTransfer direction length buffer).run w =
      (do
        let pending ← prepareBulkTransfer direction length buffer
        ringFor pending (pending.endpointId.setWidth 32)
        return pending.owner : XhciAction TransferOwner).run w := by
    simp only [startBulkTransfer, run_get_bind, hbusy, hlength, Bool.false_eq_true, if_false]
  obtain ⟨owner, hprepared⟩ := prepared_prepareBulkTransfer direction length buffer w
  generalize hrun : (prepareBulkTransfer direction length buffer).run w = prepared at hprepared
  cases hprepared with
  | failed plain ready events =>
    exact ⟨_, _, run_bind_of_error (hstart.trans (run_bind_of_error hrun)),
      .of_plain hfree plain (ready h) events⟩
  | @made w₁ pending device found slot owned ready events =>
    have hring := (ready h).ringFor_eq found slot (pending.endpointId.setWidth 32)
    obtain ⟨w', result, hwait, hends⟩ := (ready h).wait_armed hardware hfree events pending
      (pending.endpointId.setWidth 32) Xhci.maxPollSpins
    have howner := hstart.trans ((run_bind_of_ok hrun).trans (run_bind_of_ok hring))
    rw [XhciWorld.submitBulkTransfer, run_bind_of_ok howner]
    cases result with
    | error e => exact ⟨w', _, run_bind_of_error hwait, hends⟩
    | ok actual => exact ⟨w', _, run_bind_of_ok hwait, hends⟩

theorem leaves_submitCommand (command : Trb) : Within Leaves (submitCommand hardware command) := by
  intro w h
  obtain ⟨w', result, hrun, hends⟩ := h.submitCommand hardware command
  rw [hrun]
  exact hends.left

theorem leaves_controlTransfer (packet : UsbSetupPacket) :
    Within Leaves (controlTransfer hardware packet) := by
  intro w h
  obtain ⟨w', result, hrun, hends⟩ := h.controlTransfer hardware packet
  rw [hrun]
  exact hends.left

theorem leaves_submitBulkTransfer (length : U16) (buffer : DmaRegion) :
    Within Leaves (submitBulkTransfer hardware direction length buffer) := by
  intro w h
  obtain ⟨w', result, hrun, hends⟩ := h.submitBulkTransfer hardware direction length buffer
  rw [hrun]
  exact hends.left

theorem leaves_demand {α : Type} {e : XhciInitError} (h : Plain (some e)) (a : Option α) :
    Within Leaves (demand e a : XhciAction α) :=
  within_demand leaves_refl (leaves_plain h) a

theorem leaves_storageRing (device : XhciDevice) (endpointId : BitVec 8) :
    Within Leaves (storageRing device endpointId) := by
  rw [storageRing]
  split_ifs
  · exact (leaves_demand (by simp [Plain]) _).bind leaves_trans fun _ ↦ within_pure leaves_refl _
  · exact (leaves_demand (by simp [Plain]) _).bind leaves_trans fun _ ↦ within_pure leaves_refl _
  · exact within_fail (leaves_plain (by simp [Plain]))

theorem leaves_readDmaU32 (region : DmaRegion) (offset : ℕ) :
    Within Leaves (readDmaU32 region offset) :=
  (within_get leaves_refl).bind leaves_trans fun _ ↦
    (leaves_demand (by simp [Plain]) _).bind leaves_trans fun _ ↦ within_pure leaves_refl _

theorem leaves_synchronizeMassStorageEndpoint (endpointId : BitVec 8) :
    Within Leaves (synchronizeMassStorageEndpoint hardware endpointId) := by
  refine (within_get leaves_refl).bind leaves_trans fun w ↦ ?_
  refine (leaves_demand (by simp [Plain]) _).bind leaves_trans fun device ↦ ?_
  refine (leaves_storageRing device endpointId).bind leaves_trans fun ring ↦ ?_
  refine (leaves_readDmaU32 _ _).bind leaves_trans fun state ↦ ?_
  split
  · exact within_pure leaves_refl _
  · refine (leaves_submitCommand hardware _).bind leaves_trans fun _ ↦ ?_
    refine (leaves_demand (by simp [Plain]) _).bind leaves_trans fun physical ↦ ?_
    exact (leaves_submitCommand hardware _).bind leaves_trans fun _ ↦ within_pure leaves_refl _

theorem resetMassStorageTransport_busy (h : w.events.transfer.isSome = true) :
    (resetMassStorageTransport hardware).run w = (w, .error .busy) := by
  simp only [resetMassStorageTransport, run_get_bind, h, if_true, run_fail]

theorem leaves_resetMassStorageTransport :
    Within Leaves (resetMassStorageTransport hardware) := by
  intro w
  by_cases hbusy : w.events.transfer.isSome = true
  · rw [resetMassStorageTransport_busy hardware hbusy]
    exact fun h ↦ (TransferEnds.of_busy h hbusy).left
  · simp only [resetMassStorageTransport, run_get_bind, hbusy, Bool.false_eq_true, if_false]
    refine (leaves_demand (by simp [Plain]) _).bind leaves_trans (fun device ↦ ?_) w
    refine (leaves_controlTransfer hardware _).bind leaves_trans fun _ ↦ ?_
    refine (leaves_controlTransfer hardware _).bind leaves_trans fun _ ↦ ?_
    refine (leaves_controlTransfer hardware _).bind leaves_trans fun _ ↦ ?_
    refine (leaves_synchronizeMassStorageEndpoint hardware _).bind leaves_trans fun _ ↦ ?_
    exact leaves_synchronizeMassStorageEndpoint hardware _

theorem leaves_dispatchOneEvent : Within Leaves dispatchOneEvent := by
  intro w h
  obtain ⟨w', seen, hdispatch, hpolled⟩ := h.dispatchOneEvent
  rw [hdispatch]
  exact
    { ready := hpolled.ready
      command := by simp [hpolled.command]
      transfer := by simp [hpolled.isSome_transfer]
      busy := by simp }

end XhciWorld

end BraneKernel
