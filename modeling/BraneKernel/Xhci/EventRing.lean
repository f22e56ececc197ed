import BraneKernel.Xhci.Controller

namespace BraneKernel

open RegisterLayout

namespace MmioMapping

variable {mapping : MmioMapping} {offset width : U64}

theorem contains_iff : mapping.contains offset width = true ↔
    width ≠ 0 ∧ offset.toNat + width.toNat ≤ mapping.size.toNat := by
  have hsize := mapping.size.isLt
  unfold contains
  cases hstop : Checked.add offset width with
  | none =>
    have hoverflow : ¬ offset.toNat + width.toNat < 2 ^ 64 := by
      intro hlt
      obtain ⟨stop, hsome, -⟩ := Checked.add_of_lt hlt
      simp [hsome] at hstop
    simp only [Bool.and_false, Bool.false_eq_true, false_iff]
    omega
  | some stop =>
    rw [Checked.add_eq_some_iff] at hstop
    simp [BitVec.le_def, hstop]

def Mapped (mapping : MmioMapping) : Prop :=
  (Checked.add mapping.virtualBase mapping.size).isSome = true

theorem Mapped.virtualAddress_eq (h : mapping.Mapped) (hinside : mapping.contains offset width) :
    mapping.virtualAddress offset width = some (mapping.virtualBase + offset) := by
  obtain ⟨stop, hstop⟩ := Option.isSome_iff_exists.mp h
  rw [Checked.add_eq_some_iff] at hstop
  have hwidth := contains_iff.mp hinside
  have hlt := stop.isLt
  rw [virtualAddress, if_pos hinside, Checked.add, if_pos (by omega)]

theorem contains_half (h : mapping.contains offset 8 = true) {skip : U64} (hskip : skip.toNat ≤ 4) :
    mapping.contains (offset + skip) 4 = true := by
  rw [contains_iff] at h ⊢
  refine ⟨by decide, ?_⟩
  have h8 : (8 : U64).toNat = 8 := rfl
  have h4 : (4 : U64).toNat = 4 := rfl
  have hsize := mapping.size.isLt
  rw [BitVec.toNat_add, Nat.mod_eq_of_lt (by omega)]
  omega

theorem contains_low (h : mapping.contains offset 8 = true) : mapping.contains offset 4 = true := by
  have hlow : mapping.contains (offset + 0#64) 4 = true := contains_half h (by decide)
  rwa [BitVec.add_zero] at hlow

theorem contains_high (h : mapping.contains offset 8 = true) :
    mapping.contains (offset + 4) 4 = true :=
  contains_half h (by decide)

end MmioMapping

theorem RegisterLayout.contains_of_new {mmio : MmioMapping} {capabilityLength : BitVec 8}
    {runtimeOffset doorbellOffset : U32} {layout : RegisterLayout}
    (h : new mmio capabilityLength runtimeOffset doorbellOffset = .ok layout) :
    mmio.contains (layout.runtime erdp) 8 = true ∧ mmio.contains layout.doorbellBase 4 = true := by
  simp only [new] at h
  split_ifs at h with hinvalid
  cases h
  simp only [not_or, List.any_eq_true, not_exists, not_and, Bool.not_eq_true', Bool.not_eq_false,
    required] at hinvalid
  exact ⟨hinvalid.2.2 (_, 8) (by simp), hinvalid.2.2 (_, 4) (by simp)⟩

namespace XhciWorld

open Attempt

variable {w : XhciWorld} {offset : U64}

/-- What initialisation leaves for the event ring: registers inside the BAR and
a ring of one frame. -/
structure Sound (w : XhciWorld) : Prop where
  mapped : w.mmio.Mapped
  layout : ∃ capabilityLength runtimeOffset doorbellOffset,
    new w.mmio capabilityLength runtimeOffset doorbellOffset = .ok w.layout
  eventRing : w.eventRing.HoldsRing
  eventIndex : w.eventDequeueIndex < eventRingTrbs

def wrote (offset : U64) (value : U32) (w : XhciWorld) : XhciWorld :=
  { w with mmioWrites := (w.mmio.virtualBase + offset, value) :: w.mmioWrites }

theorem writeMmioU32_eq (hmapped : w.mmio.Mapped) (h : w.mmio.contains offset 4) (value : U32) :
    (writeMmioU32 offset value).run w = (w.wrote offset value, .ok ()) := by
  simp only [writeMmioU32, run_get_bind, hmapped.virtualAddress_eq h, demand_some, run_pure_bind,
    run_modify, wrote]

theorem writeMmioU64_eq (hmapped : w.mmio.Mapped) (h : w.mmio.contains offset 8) (value : U64) :
    (writeMmioU64 offset value).run w =
      ((w.wrote offset (value.setWidth 32)).wrote (offset + 4) ((value >>> 32).setWidth 32),
        .ok ()) := by
  have hlow := writeMmioU32_eq hmapped (MmioMapping.contains_low h) (value.setWidth 32)
  have hhigh := writeMmioU32_eq (w := w.wrote offset (value.setWidth 32)) hmapped
    (MmioMapping.contains_high h) ((value >>> 32).setWidth 32)
  simp only [writeMmioU64, run_get_bind, hmapped.virtualAddress_eq h, demand_some, run_pure_bind,
    run_bind_of_ok hlow, hhigh]

def currentEvent (w : XhciWorld) : Trb := w.memory.trbs (w.eventRing.slot w.eventDequeueIndex)

def publish (w : XhciWorld) : XhciWorld :=
  let dequeue := w.eventRing.slotPhysical w.eventDequeueIndex ||| Xhci.eventHandlerBusy
  (w.wrote (w.layout.runtime erdp) (dequeue.setWidth 32)).wrote
    (w.layout.runtime erdp + 4) ((dequeue >>> 32).setWidth 32)

def take (w : XhciWorld) : XhciWorld :=
  publish (nextEvent { w with events := w.events.dispatch w.currentEvent })

theorem Sound.nextEvent (h : w.Sound) : w.nextEvent.Sound where
  mapped := h.mapped
  layout := h.layout
  eventRing := h.eventRing
  eventIndex := by
    have hindex := h.eventIndex
    simp only [XhciWorld.nextEvent]
    split_ifs with hlast
    · decide
    · omega

theorem Sound.take (h : w.Sound) : w.take.Sound := by
  have hdispatched : Sound { w with events := w.events.dispatch w.currentEvent } := { h with }
  exact { hdispatched.nextEvent with }

theorem Sound.contains_erdp (h : w.Sound) :
    w.mmio.contains (w.layout.runtime erdp) 8 = true := by
  obtain ⟨_, _, _, hlayout⟩ := h.layout
  exact (contains_of_new hlayout).1

theorem Sound.advanceEventRing_eq (h : w.Sound) :
    advanceEventRing.run w = (w.nextEvent.publish, .ok ()) := by
  have hnext := h.nextEvent
  have hphysical := hnext.eventRing.trbPhysical_eq hnext.eventIndex
  simp only [advanceEventRing, run_modify_bind, run_get_bind, hphysical, demand_some, run_pure_bind,
    writeMmioU64_eq hnext.mapped hnext.contains_erdp, publish]

theorem Sound.dispatchOneEvent_eq (h : w.Sound) : dispatchOneEvent.run w =
    if w.currentEvent.cycle = w.eventCycle then (w.take, .ok true) else (w, .ok false) := by
  have hpointer := h.eventRing.trbPointer_eq h.eventIndex
  have hevent : w.memory.trbs (w.eventRing.slot w.eventDequeueIndex) = w.currentEvent := rfl
  have hdispatched : Sound { w with events := w.events.dispatch w.currentEvent } := { h with }
  simp only [dispatchOneEvent, run_get_bind, hpointer, demand_some, run_pure_bind, hevent]
  by_cases hcycle : w.currentEvent.cycle = w.eventCycle
  · rw [if_pos hcycle, if_neg (not_not.mpr hcycle), run_modify_bind,
      run_bind_of_ok hdispatched.advanceEventRing_eq]
    rfl
  · rw [if_neg hcycle, if_pos hcycle]
    rfl

def ticked (w : XhciWorld) (hardware : XhciHardware) : XhciWorld :=
  { w with memory := hardware w.polls w.memory, polls := w.polls + 1 }

theorem run_poll (w : XhciWorld) (hardware : XhciHardware) :
    (poll hardware).run w = dispatchOneEvent.run (w.ticked hardware) := by
  rw [poll, run_modify_bind, ticked]

theorem Sound.ticked (h : w.Sound) (hardware : XhciHardware) : (w.ticked hardware).Sound :=
  { h with }

theorem Sound.poll_eq (h : w.Sound) (hardware : XhciHardware) : (poll hardware).run w =
    if (w.ticked hardware).currentEvent.cycle = (w.ticked hardware).eventCycle then
      ((w.ticked hardware).take, .ok true)
    else (w.ticked hardware, .ok false) := by
  rw [run_poll, (h.ticked hardware).dispatchOneEvent_eq]

def register (w : XhciWorld) (offset : U64) : Option U32 :=
  w.mmioWrites.lookup (w.mmio.virtualBase + offset)

def dequeuePointer (w : XhciWorld) : Option U64 :=
  match w.register (w.layout.runtime erdp),
    w.register (w.layout.runtime erdp + 4) with
  | some low, some high => some ((high.setWidth 64 <<< 32 ||| low.setWidth 64) &&& ~~~0xF)
  | _, _ => none

theorem register_wrote (w : XhciWorld) (offset : U64) (value : U32) :
    (w.wrote offset value).register offset = some value :=
  List.lookup_cons_self

theorem register_wrote_of_ne (w : XhciWorld) {offset other : U64} (h : other ≠ offset) (value : U32) :
    (w.wrote offset value).register other = w.register other := by
  have hkey : (w.mmio.virtualBase + other == w.mmio.virtualBase + offset) = false := by
    rw [beq_eq_false_iff_ne, ne_eq, BitVec.add_right_inj]
    exact h
  simp only [register, wrote, List.lookup_cons, hkey]

theorem Sound.dequeuePointer_publish (h : w.Sound) :
    w.publish.dequeuePointer = some (w.eventRing.slotPhysical w.eventDequeueIndex) := by
  have hne : w.layout.runtime erdp ≠ w.layout.runtime erdp + 4 := by
    rw [ne_eq, BitVec.self_eq_add_right]
    decide
  have haligned : 16 ∣ (w.eventRing.slotPhysical w.eventDequeueIndex).toNat :=
    h.eventRing.dvd_slotPhysical h.eventIndex
  let dequeue := w.eventRing.slotPhysical w.eventDequeueIndex ||| Xhci.eventHandlerBusy
  have hlow : w.publish.register (w.layout.runtime erdp) =
      some (dequeue.setWidth 32) := by
    rw [publish, register_wrote_of_ne _ hne, register_wrote]
  have hhigh : w.publish.register (w.layout.runtime erdp + 4) =
      some ((dequeue >>> 32).setWidth 32) := register_wrote _ _ _
  have hlayout : w.publish.layout = w.layout := rfl
  simp only [dequeuePointer, hlayout, hlow, hhigh, Bits.join_halves]
  exact congrArg some (Bits.or_and_not_low haligned (by decide))

end XhciWorld

/-- The driver and a controller that fills the event ring; `published` counts
the events whose passing the driver has announced in ERDP. -/
structure EventWorld where
  world : XhciWorld
  posted : List Trb
  published : ℕ

inductive EventRingEvent
  | post (event : Trb)
  | dispatch (event : Trb) (result : Except XhciInitError Bool)

namespace EventRingEvent

def posts : EventRingEvent → List Trb
  | .post event => [event]
  | .dispatch _ _ => []

def dispatches : EventRingEvent → List Trb
  | .dispatch event (.ok true) => [event]
  | _ => []

end EventRingEvent

namespace EventWorld

def initial (world : XhciWorld) : EventWorld := ⟨world, [], 0⟩

/-- The controller writes the next event into the next slot with the cycle bit
of its lap, and only where ERDP says that the driver is past the old one. -/
inductive Step : EventWorld → EventRingEvent → EventWorld → Prop
  | post {w : EventWorld} {event : Trb}
      (stamp : event.cycle = CycleRing.cycle eventRingTrbs w.posted.length)
      (free : w.posted.length < w.published + eventRingTrbs) :
    Step w (.post event)
      { w with
        world := w.world.writeTrb
          (w.world.eventRing.slot (w.posted.length % eventRingTrbs)) event
        posted := w.posted ++ [event] }
  | dispatch {w : EventWorld} {world : XhciWorld} {result : Except XhciInitError Bool}
      (h : XhciWorld.dispatchOneEvent.run w.world = (world, result)) :
    Step w (.dispatch w.world.currentEvent result)
      { w with
        world
        published := w.published + (if result = .ok true then 1 else 0) }

/-- Where the driver stands when it has dispatched the first `published` events. -/
structure InStep (w₀ : XhciWorld) (es : List EventRingEvent) (w : EventWorld) : Prop where
  sound : w.world.Sound
  posted : es.flatMap EventRingEvent.posts = w.posted
  dispatched : es.flatMap EventRingEvent.dispatches = w.posted.take w.published
  ahead : w.published ≤ w.posted.length ∧ w.posted.length ≤ w.published + 256
  index : w.world.eventDequeueIndex = w.published % 256
  cycle : w.world.eventCycle = CycleRing.cycle 256 w.published
  slots : CycleRing.Shows 256 Trb.cycle
    (fun i ↦ w.world.memory.trbs (w.world.eventRing.slot i)) w.posted
  events : w.world.events =
    (es.flatMap EventRingEvent.dispatches).foldl EventDispatchState.dispatch w₀.events
  erdp : w.published ≠ 0 → w.world.dequeuePointer =
    some (w.world.eventRing.slotPhysical w.world.eventDequeueIndex)

variable {w₀ : XhciWorld} {es : List EventRingEvent} {w : EventWorld}

section

variable (h : InStep w₀ es w)
include h

theorem InStep.post {event : Trb}
    (stamp : event.cycle = CycleRing.cycle eventRingTrbs w.posted.length)
    (free : w.posted.length < w.published + eventRingTrbs) :
    InStep w₀ (es ++ [.post event])
      { w with
        world := w.world.writeTrb
          (w.world.eventRing.slot (w.posted.length % eventRingTrbs)) event
        posted := w.posted ++ [event] } where
  sound := { h.sound with }
  posted := by
    rw [List.flatMap_append, h.posted]
    rfl
  dispatched := by
    rw [List.flatMap_append, h.dispatched, List.take_append_of_le_length h.ahead.1]
    exact List.append_nil _
  ahead := by
    have hahead := h.ahead
    have hfree : w.posted.length < w.published + 256 := free
    simp only [List.length_append, List.length_singleton]
    omega
  index := h.index
  cycle := h.cycle
  slots := by
    refine h.slots.write (by decide) stamp fun i hi ↦ ?_
    exact h.sound.eventRing.update_slot hi (Nat.mod_lt _ (by decide)) _ event
  events := by
    simp only [List.flatMap_append, List.flatMap_singleton, EventRingEvent.dispatches,
      List.append_nil]
    exact h.events
  erdp := h.erdp

theorem InStep.fresh_iff :
    w.world.currentEvent.cycle = w.world.eventCycle ↔ w.published < w.posted.length := by
  have hfresh := h.slots.fresh_iff (k := w.published) (by decide) h.ahead.1 h.ahead.2
  rw [← h.index, ← h.cycle] at hfresh
  exact hfresh

theorem InStep.dispatchOneEvent_eq :
    XhciWorld.dispatchOneEvent.run w.world =
      if w.published < w.posted.length then (w.world.take, .ok true) else (w.world, .ok false) := by
  simp only [h.sound.dispatchOneEvent_eq, h.fresh_iff]

theorem InStep.take (hnew : w.published < w.posted.length) :
    InStep w₀ (es ++ [.dispatch w.world.currentEvent (.ok true)])
      { w with world := w.world.take, published := w.published + 1 } := by
  have hahead := h.ahead
  have hdispatched : XhciWorld.Sound
      { w.world with events := w.world.events.dispatch w.world.currentEvent } := { h.sound with }
  have hevent : w.world.currentEvent = w.posted[w.published] := by
    have hlatest := h.slots.latest w.published hnew h.ahead.2
    rw [← h.index] at hlatest
    exact hlatest
  have hslot : w.published % 256 + 1 ≤ 256 := Nat.mod_lt _ (by decide)
  exact
    { sound := h.sound.take
      posted := by
        rw [List.flatMap_append, h.posted]
        exact List.append_nil _
      dispatched := by
        simp only [List.flatMap_append, h.dispatched, List.flatMap_singleton,
          EventRingEvent.dispatches, hevent, List.take_concat_get']
      ahead := by
        simp only
        omega
      index := by
        rw [CycleRing.index_add (by decide) hslot, ← h.index]
        rfl
      cycle := by
        rw [CycleRing.cycle_add (by decide) hslot, ← h.index, ← h.cycle]
        rfl
      slots := h.slots
      events := by
        rw [List.flatMap_append, List.foldl_append, ← h.events]
        rfl
      erdp := fun _ ↦ hdispatched.nextEvent.dequeuePointer_publish }

theorem InStep.step {e : EventRingEvent} {w' : EventWorld} (hstep : Step w e w') :
    InStep w₀ (es ++ [e]) w' := by
  cases hstep with
  | post stamp free => exact h.post stamp free
  | dispatch hrun =>
    rw [h.dispatchOneEvent_eq] at hrun
    split_ifs at hrun with hnew
    · cases hrun
      exact h.take hnew
    · cases hrun
      exact
        { h with
          posted := by
            rw [List.flatMap_append, h.posted]
            exact List.append_nil _
          dispatched := by
            rw [List.flatMap_append, h.dispatched]
            exact List.append_nil _
          events := by
            simp only [List.flatMap_append, List.flatMap_singleton, EventRingEvent.dispatches,
              List.append_nil]
            exact h.events }

end

theorem inStep_initial (hw : w₀.Sound) (hindex : w₀.eventDequeueIndex = 0)
    (hcycle : w₀.eventCycle = true)
    (hzeroed : ∀ i < eventRingTrbs, w₀.memory.trbs (w₀.eventRing.slot i) = ⟨0, 0, 0⟩) :
    InStep w₀ [] (.initial w₀) where
  sound := hw
  posted := rfl
  dispatched := rfl
  ahead := by simp [initial]
  index := hindex
  cycle := hcycle.trans (by simp [initial, CycleRing.cycle])
  slots := CycleRing.shows_nil fun i hi ↦ by
    simp only [initial, hzeroed i hi]
    rfl
  events := rfl
  erdp := fun hzero ↦ absurd rfl hzero

end EventWorld

/-- The events dispatched are the first of those posted, in order and each once, and a call says
whether there are more. -/
theorem event_ring_loses_nothing {w₀ : XhciWorld} (hw : w₀.Sound)
    (hindex : w₀.eventDequeueIndex = 0) (hcycle : w₀.eventCycle = true)
    (hzeroed : ∀ i < eventRingTrbs, w₀.memory.trbs (w₀.eventRing.slot i) = ⟨0, 0, 0⟩)
    {es : List EventRingEvent} {w : EventWorld}
    (h : Trace.Run EventWorld.Step (.initial w₀) es w) :
    es.flatMap EventRingEvent.dispatches <+: es.flatMap EventRingEvent.posts ∧
    w.world.events =
      (es.flatMap EventRingEvent.dispatches).foldl EventDispatchState.dispatch w₀.events ∧
    (XhciWorld.dispatchOneEvent.run w.world).2 = .ok (decide
      ((es.flatMap EventRingEvent.dispatches).length < (es.flatMap EventRingEvent.posts).length)) ∧
    (es.flatMap EventRingEvent.dispatches ≠ [] → w.world.dequeuePointer =
      some (w.world.eventRing.slotPhysical w.world.eventDequeueIndex)) := by
  have hinStep : EventWorld.InStep w₀ es w :=
    h.history (EventWorld.inStep_initial hw hindex hcycle hzeroed)
      fun _ _ _ _ hinStep hstep ↦ hinStep.step hstep
  have hlength : (es.flatMap EventRingEvent.dispatches).length = w.published := by
    rw [hinStep.dispatched, List.length_take_of_le hinStep.ahead.1]
  refine ⟨?_, hinStep.events, ?_, fun hsome ↦ hinStep.erdp ?_⟩
  · rw [hinStep.dispatched, hinStep.posted]
    exact List.take_prefix _ _
  · rw [hlength, hinStep.posted, hinStep.dispatchOneEvent_eq]
    split_ifs with hnew
    · simp [hnew]
    · simp [hnew]
  · rwa [← hlength, ne_eq, List.length_eq_zero_iff]

def frameAt (address : U64) : DmaRegion := ⟨address, address, 0x1000⟩

theorem holdsRing_frameAt {address : U64} (hpage : frameSize ∣ address.toNat)
    (hbelow : address.toNat + 0x1000 ≤ legacyDmaLimit.toNat) : (frameAt address).HoldsRing :=
  ⟨0, 1,
    { page := hpage
      whole := dvd_refl frameSize
      aligned := Nat.one_dvd _
      below := hbelow
      room := le_refl frameSize
      direct := by simp [frameAt]
      fits := by
        have hlimit : legacyDmaLimit.toNat < 2 ^ 64 := by decide
        exact hbelow.trans_lt hlimit }⟩

def XhciDevice.storage : XhciDevice where
  slotId := 1
  deviceContext := frameAt 0x12000
  endpointZeroRing := frameAt 0x13000
  endpointZeroCursor := .new
  descriptorBuffer := frameAt 0x14000
  hidEndpointId := 0
  hidTransferRing := none
  hidTransferCursor := .new
  hidReportBuffer := none
  hidTransferPending := false
  massStorageInterface := 0
  massStorageBulkInAddress := 0x81
  massStorageBulkOutAddress := 0x02
  massStorageBulkInId := 3
  massStorageBulkOutId := 4
  massStorageBulkInRing := some (frameAt 0x15000)
  massStorageBulkOutRing := some (frameAt 0x16000)
  massStorageBulkInCursor := .new
  massStorageBulkOutCursor := .new

def XhciWorld.started : XhciWorld where
  mmio := ⟨0xFE000000, 0xFFFF900000000000, 0x4000, 0xFE000000, 0xFFFF900000000000, 0x4000⟩
  layout := ⟨0x20, 0x600, 0x800⟩
  commandRing := frameAt 0x10000
  eventRing := frameAt 0x11000
  contextSize := 32
  commandEnqueueIndex := 0
  commandCycle := true
  eventDequeueIndex := 0
  eventCycle := true
  events := .new
  firstDevice := some .storage
  memory := ⟨fun _ ↦ ⟨0, 0, 0⟩, fun _ ↦ 0, fun _ ↦ 0⟩
  mmioWrites := []
  polls := 0

theorem XhciWorld.sound_started : started.Sound where
  mapped := by
    rw [MmioMapping.Mapped]
    decide
  layout := ⟨0x20, 0x600, 0x800, rfl⟩
  eventRing := holdsRing_frameAt (by decide) (by decide)
  eventIndex := by decide

def portThreeChanged : Trb := ⟨0x03000000, 0, 0x8801⟩

theorem event_ring_loses_nothing_port : ∃ w, Trace.Run EventWorld.Step (.initial .started)
    [.post portThreeChanged, .dispatch portThreeChanged (.ok true)] w ∧
    w.world.events = EventDispatchState.new.dispatch portThreeChanged ∧
    w.world.events.changedPorts = 4 ∧ w.world.dequeuePointer = some 0x11010 := by
  have hsound := XhciWorld.sound_started
  let w₁ : EventWorld :=
    ⟨XhciWorld.started.writeTrb (XhciWorld.started.eventRing.slot 0) portThreeChanged,
      [portThreeChanged], 0⟩
  have hpost : EventWorld.Step (.initial .started) (.post portThreeChanged) w₁ :=
    .post (by decide) (by decide)
  have hevent : w₁.world.currentEvent = portThreeChanged := by
    simp [w₁, XhciWorld.currentEvent, XhciWorld.writeTrb, XhciWorld.started]
  have hsound₁ : w₁.world.Sound := { hsound with }
  have hdispatch : XhciWorld.dispatchOneEvent.run w₁.world = (w₁.world.take, .ok true) := by
    rw [hsound₁.dispatchOneEvent_eq, if_pos]
    rw [hevent]
    decide
  have hrun : Trace.Run EventWorld.Step (.initial .started)
      [.post portThreeChanged, .dispatch w₁.world.currentEvent (.ok true)] ⟨w₁.world.take, _, _⟩ :=
    .cons hpost (.cons (.dispatch hdispatch) .nil)
  rw [hevent] at hrun
  obtain ⟨-, hevents, -, herdp⟩ :=
    event_ring_loses_nothing hsound rfl rfl (fun _ _ ↦ rfl) hrun
  exact ⟨_, hrun, hevents, hevents ▸ by decide, herdp (List.cons_ne_nil _ _)⟩

end BraneKernel
