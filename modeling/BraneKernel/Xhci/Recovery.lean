import BraneKernel.Xhci.Records

namespace BraneKernel

open XhciWorld

inductive XhciCall
  | command (command : Trb)
  | control (packet : UsbSetupPacket)
  | bulk (direction : TransferDirection) (length : U16) (buffer : DmaRegion)
  | reset
  | dispatch

inductive XhciEvent
  | call (call : XhciCall) (failure : Option XhciInitError)
  | hardware

namespace XhciWorld

open Attempt

def perform (hardware : XhciHardware) : XhciCall → XhciAction Unit
  | .command command => do let _ ← submitCommand hardware command
  | .control packet => do let _ ← controlTransfer hardware packet
  | .bulk direction length buffer => do
    let _ ← submitBulkTransfer hardware direction length buffer
  | .reset => resetMassStorageTransport hardware
  | .dispatch => do let _ ← dispatchOneEvent

inductive Step : XhciWorld → XhciEvent → XhciWorld → Prop
  | call {w w' : XhciWorld} {call : XhciCall} (hardware : XhciHardware)
      {result : Except XhciInitError Unit} (h : (perform hardware call).run w = (w', result)) :
    Step w (.call call (errorOf result)) w'
  | hardware {w : XhciWorld} (memory : XhciMemory) : Step w .hardware { w with memory }

theorem leaves_perform (hardware : XhciHardware) (call : XhciCall) :
    Within Leaves (perform hardware call) := by
  cases call with
  | command command =>
    exact (leaves_submitCommand hardware command).bind leaves_trans fun _ ↦ within_pure leaves_refl _
  | control packet =>
    exact (leaves_controlTransfer hardware packet).bind leaves_trans fun _ ↦ within_pure leaves_refl _
  | bulk direction length buffer =>
    exact (leaves_submitBulkTransfer hardware direction length buffer).bind leaves_trans
      fun _ ↦ within_pure leaves_refl _
  | reset => exact leaves_resetMassStorageTransport hardware
  | dispatch =>
    exact leaves_dispatchOneEvent.bind leaves_trans fun _ ↦ within_pure leaves_refl _

/-- Each record is taken exactly when a request that needs it has timed out. -/
structure Recorded (es : List XhciEvent) (w : XhciWorld) : Prop where
  ready : w.Ready
  command : w.events.command.isSome = true ↔
    ∃ call, .call call (some .commandCompletionTimeout) ∈ es
  transfer : w.events.transfer.isSome = true ↔ ∃ call, .call call (some .transferTimeout) ∈ es

variable {es : List XhciEvent} {w w' : XhciWorld}

theorem Recorded.step (h : Recorded es w) {e : XhciEvent} (hstep : Step w e w') :
    Recorded (es ++ [e]) w' := by
  cases hstep with
  | @call _ call hardware result hrun =>
    have hleft := (leaves_perform hardware call).of_run hrun h.ready
    exact
      { ready := hleft.ready
        command := by
          rw [hleft.command, h.command]
          simp [exists_or, eq_comm]
        transfer := by
          rw [hleft.transfer, h.transfer]
          simp [exists_or, eq_comm] }
  | hardware memory =>
    exact
      { ready := { h.ready with }
        command := by simpa using h.command
        transfer := by simpa using h.transfer }

end XhciWorld

/-- A request is refused as busy exactly when an earlier one of its kind has timed out: no later
event frees the record. -/
theorem busy_iff_timed_out {w₀ w : XhciWorld} (hready : w₀.Ready) (hcommand : w₀.events.command = none)
    (htransfer : w₀.events.transfer = none) {es : List XhciEvent}
    (h : Trace.Run XhciWorld.Step w₀ es w) (hardware : XhciHardware) :
    (∀ command, ((submitCommand hardware command).run w).2 = .error .busy ↔
      ∃ call, .call call (some .commandCompletionTimeout) ∈ es) ∧
    (∀ packet, ((controlTransfer hardware packet).run w).2 = .error .busy ↔
      ∃ call, .call call (some .transferTimeout) ∈ es) ∧
    (∀ direction length buffer,
      ((submitBulkTransfer hardware direction length buffer).run w).2 = .error .busy ↔
        ∃ call, .call call (some .transferTimeout) ∈ es) ∧
    ((∃ call, .call call (some .transferTimeout) ∈ es) →
      (resetMassStorageTransport hardware).run w = (w, .error .busy)) ∧
    ((∀ call, .call call (some .commandCompletionTimeout) ∉ es ∧
        .call call (some .transferTimeout) ∉ es) →
      ((resetMassStorageTransport hardware).run w).2 ≠ .error .busy) := by
  have hrecorded : XhciWorld.Recorded es w :=
    h.history ⟨hready, by simp [hcommand], by simp [htransfer]⟩
      fun _ _ _ _ hrecorded hstep ↦ hrecorded.step hstep
  refine ⟨fun command ↦ ?_, fun packet ↦ ?_, fun direction length buffer ↦ ?_, fun htimeout ↦ ?_,
    fun hnone hbusy ↦ ?_⟩
  · obtain ⟨w', result, hrun, hends⟩ := hrecorded.ready.submitCommand hardware command
    rw [hrun, ← Attempt.errorOf_eq_some, hends.ended.busy_iff (by simp), hrecorded.command]
  · obtain ⟨w', result, hrun, hends⟩ := hrecorded.ready.controlTransfer hardware packet
    rw [hrun, ← Attempt.errorOf_eq_some, hends.ended.busy_iff (by simp), hrecorded.transfer]
  · obtain ⟨w', result, hrun, hends⟩ :=
      hrecorded.ready.submitBulkTransfer hardware direction length buffer
    rw [hrun, ← Attempt.errorOf_eq_some, hends.ended.busy_iff (by simp), hrecorded.transfer]
  · exact resetMassStorageTransport_busy hardware (hrecorded.transfer.mpr htimeout)
  · have hleft := leaves_resetMassStorageTransport hardware w hrecorded.ready
    obtain hsome | hsome := hleft.busy (Attempt.errorOf_eq_some.mpr hbusy)
    · obtain ⟨call, hcall⟩ := hrecorded.command.mp hsome
      exact (hnone call).1 hcall
    · obtain ⟨call, hcall⟩ := hrecorded.transfer.mp hsome
      exact (hnone call).2 hcall

theorem XhciWorld.ready_started : started.Ready where
  toSound := sound_started
  commandRing := holdsRing_frameAt (by decide) (by decide)
  commandIndex := by decide
  doorbells := by
    intro device h
    cases h
    decide

def XhciHardware.idle : XhciHardware := fun _ memory ↦ memory

theorem XhciWorld.Sound.waitForTransfer_idle {w : XhciWorld} (h : w.Sound)
    (hnone : w.currentEvent.cycle ≠ w.eventCycle) {pending : PendingTransfer}
    (hpending : w.events.transfer = some pending) (hopen : pending.completion = none)
    (owner : TransferOwner) (spins : ℕ) :
    (waitForTransfer .idle owner spins).run w =
      ({ w with polls := w.polls + spins }, .error .transferTimeout) := by
  induction spins generalizing w with
  | zero => rfl
  | succ spins ih =>
    have hticked : Sound { w with polls := w.polls + 1 } := h.ticked .idle
    have hpoll : (poll .idle).run w = ({ w with polls := w.polls + 1 }, .ok false) :=
      (h.poll_eq .idle).trans (if_neg hnone)
    simp only [waitForTransfer, Attempt.run_bind_of_ok hpoll, Attempt.run_get_bind, hpending, hopen,
      ih hticked hnone hpending]
    rw [Nat.add_assoc, Nat.add_comm 1 spins]

namespace XhciWorld

def reading : XhciWorld := ((startBulkTransfer .in 512 (frameAt 0x17000)).run started).1

theorem sound_reading : reading.Sound := { sound_started with }

def unanswered : XhciWorld := { reading with polls := reading.polls + Xhci.maxPollSpins }

theorem run_unanswered : Trace.Run Step started
    [.call (.bulk .in 512 (frameAt 0x17000)) (some .transferTimeout)] unanswered := by
  have hstart : (startBulkTransfer .in 512 (frameAt 0x17000)).run started =
      (reading, .ok .bulkIn) := rfl
  have hnone : reading.currentEvent.cycle ≠ reading.eventCycle := by decide
  have hwait : (waitForTransfer .idle .bulkIn Xhci.maxPollSpins).run reading =
      (unanswered, .error .transferTimeout) :=
    sound_reading.waitForTransfer_idle hnone rfl rfl .bulkIn Xhci.maxPollSpins
  have hbulk : (submitBulkTransfer .idle .in 512 (frameAt 0x17000)).run started =
      (unanswered, .error .transferTimeout) := by
    rw [submitBulkTransfer, Attempt.run_bind_of_ok hstart, Attempt.run_bind_of_error hwait]
  have hperform : (perform .idle (.bulk .in 512 (frameAt 0x17000))).run started =
      (unanswered, .error .transferTimeout) := by
    rw [perform, Attempt.run_bind_of_error hbulk]
  exact .snoc .nil (.call .idle hperform)

def readCompleted : Trb := ⟨0x15000, 0x01000000, 0x01038001⟩

def answered : XhciWorld :=
  take (unanswered.writeTrb (unanswered.eventRing.slot 0) readCompleted)

end XhciWorld

theorem busy_iff_timed_out_read :
    Trace.Run XhciWorld.Step .started
      [.call (.bulk .in 512 (frameAt 0x17000)) (some .transferTimeout)] .unanswered ∧
    ∀ hardware,
      (∀ packet, ((controlTransfer hardware packet).run .unanswered).2 = .error .busy) ∧
      ∀ command, ((submitCommand hardware command).run .unanswered).2 ≠ .error .busy := by
  have hrun := run_unanswered
  refine ⟨hrun, fun hardware ↦ ?_⟩
  obtain ⟨hcommand, hcontrol, -⟩ :=
    busy_iff_timed_out ready_started rfl rfl hrun hardware
  refine ⟨fun packet ↦ (hcontrol packet).mpr ⟨_, List.mem_singleton_self _⟩, fun command hbusy ↦ ?_⟩
  obtain ⟨call, hcall⟩ := (hcommand command).mp hbusy
  simp at hcall

/-- The completion of a read that has timed out arrives, and the record stays taken. -/
theorem late_completion_stays_busy :
    Trace.Run XhciWorld.Step .started
      [.call (.bulk .in 512 (frameAt 0x17000)) (some .transferTimeout), .hardware,
        .call .dispatch none] .answered ∧
    (answered.events.transfer.bind (·.completion)) = some readCompleted ∧
    ∀ hardware,
      (resetMassStorageTransport hardware).run .answered = (.answered, .error .busy) := by
  have hposted : XhciWorld.Sound (unanswered.writeTrb
      (unanswered.eventRing.slot 0) readCompleted) :=
    { sound_reading with }
  have hfresh : (unanswered.writeTrb (unanswered.eventRing.slot 0)
      readCompleted).currentEvent.cycle = unanswered.eventCycle := by
    decide
  have hdispatch : (perform .idle .dispatch).run (unanswered.writeTrb
      (unanswered.eventRing.slot 0) readCompleted) = (.answered, .ok ()) := by
    rw [perform, Attempt.run_bind_of_ok (hposted.dispatchOneEvent_eq.trans (if_pos hfresh))]
    rfl
  have hcompleted : (answered.events.transfer.bind (·.completion)) =
      some readCompleted := by
    decide
  have hsome : answered.events.transfer.isSome = true := by decide
  refine ⟨?_, hcompleted, fun hardware ↦ resetMassStorageTransport_busy hardware hsome⟩
  exact (run_unanswered.snoc (.hardware _)).snoc (.call .idle hdispatch)

end BraneKernel
