import BraneKernel.Xhci.Keyboard
import BraneKernel.Xhci.Suspend

namespace BraneKernel

namespace PendingVectors

def interruptTopHalf (vector : BitVec 8) (pending : U16) : U16 :=
  match PciVectorRegistry.index vector with
  | .ok i => pending ||| 1#16 <<< i.val
  | .error _ => pending

def requeueInterruptPending (vector : BitVec 8) (pending : U16) : U16 :=
  interruptTopHalf vector pending

def takeInterruptPending (vector : BitVec 8) (pending : U16) : Bool × U16 :=
  match PciVectorRegistry.index vector with
  | .ok i => (pending &&& 1#16 <<< i.val != 0, pending &&& ~~~(1#16 <<< i.val))
  | .error _ => (false, pending)

def interruptPending (vector : BitVec 8) (pending : U16) : Bool :=
  match PciVectorRegistry.index vector with
  | .ok i => pending &&& 1#16 <<< i.val != 0
  | .error _ => false

theorem interruptPending_requeue {vector : BitVec 8} {i : Fin pciVectorCount}
    (h : PciVectorRegistry.index vector = .ok i) (pending : U16) :
    interruptPending vector (requeueInterruptPending vector pending) = true := by
  have hbit : ((pending ||| 1#16 <<< i.val) &&& 1#16 <<< i.val).getLsbD i.val = true := by
    have hi : i.val < 16 := i.isLt
    simp [hi]
  simp only [interruptPending, requeueInterruptPending, interruptTopHalf, h, bne_iff_ne]
  intro hzero
  simp [hzero] at hbit

end PendingVectors

namespace RegisterLayout

variable {mmio : MmioMapping} {layout : RegisterLayout}

theorem contains_summaries {capabilityLength : BitVec 8} {runtimeOffset doorbellOffset : U32}
    (h : RegisterLayout.new mmio capabilityLength runtimeOffset doorbellOffset = .ok layout) :
    mmio.contains (S3Register.iman.offset layout) 4 = true ∧
      mmio.contains (S3Register.usbsts.offset layout) 4 = true := by
  simp only [RegisterLayout.new] at h
  split_ifs at h with hinvalid
  cases h
  simp only [not_or, List.any_eq_true, not_exists, not_and, Bool.not_eq_true', Bool.not_eq_false,
    required, erdp, config, List.forall_mem_cons] at hinvalid
  obtain ⟨-, -, hoperational, -, -, hruntime, -⟩ := hinvalid
  have hlow := capabilityLength.isLt
  have hmid := (runtimeOffset &&& ~~~0x1F).isLt
  simp only [MmioMapping.contains_iff, S3Register.offset, runtime, operational] at *
  simp only [BitVec.ofNat_eq_ofNat, BitVec.toNat_add, BitVec.toNat_setWidth,
    BitVec.toNat_ofNat] at *
  exact ⟨⟨by decide, by omega⟩, by decide, by omega⟩

end RegisterLayout

/-- What happens before each access of the driver: the events that the controller
has, the interrupts that are taken, and what a register answers. -/
structure ServiceHardware where
  events : ℕ → List Trb
  vectors : ℕ → List (BitVec 8)
  registers : ℕ → U32

/-- The event ring with what its interrupt needs. The writes to the interrupt
summaries are kept apart from those to the ring. -/
structure ServiceWorld extends EventWorld where
  interruptMode : PciInterruptMode
  pendingVectors : U16
  summaryWrites : List (S3Register × U32)
  accesses : ℕ

abbrev ServiceAction := Attempt ServiceWorld XhciInitError

/-- A controller that finds the ring full drops the event. -/
def EventWorld.receive (w : EventWorld) (event : Trb) : EventWorld :=
  if w.posted.length < w.published + eventRingTrbs then
    let stamped := event.withCycle (CycleRing.cycle eventRingTrbs w.posted.length)
    { w with
      world := w.world.writeTrb (w.world.eventRing.slot (w.posted.length % eventRingTrbs)) stamped
      posted := w.posted ++ [stamped] }
  else w

namespace ServiceWorld

open Attempt PendingVectors

variable (hardware : ServiceHardware)

def arrive (s : ServiceWorld) : ServiceWorld :=
  { s with
    toEventWorld := (hardware.events s.accesses).foldl EventWorld.receive s.toEventWorld
    pendingVectors := (hardware.vectors s.accesses).foldr interruptTopHalf s.pendingVectors
    accesses := s.accesses + 1 }

def dispatchOneEvent : ServiceAction Bool := do
  modify (arrive hardware)
  ⟨fun s ↦
    let (world, result) := XhciWorld.dispatchOneEvent.run s.world
    ({ s with world, published := s.published + if result = .ok true then 1 else 0 }, result)⟩

def readMmioU32 (r : S3Register) : ServiceAction U32 := do
  modify (arrive hardware)
  let s ← get
  let _ ← demand .registerOutsideBar (s.world.mmio.virtualAddress (r.offset s.world.layout) 4)
  return hardware.registers s.accesses

def writeMmioU32 (r : S3Register) (value : U32) : ServiceAction Unit := do
  modify (arrive hardware)
  let s ← get
  let _ ← demand .registerOutsideBar (s.world.mmio.virtualAddress (r.offset s.world.layout) 4)
  modify fun s ↦ { s with summaryWrites := (r, value) :: s.summaryWrites }

def clearSummary (r : S3Register) (bit : U32) (written : U32 → U32) : ServiceAction Unit := do
  let value ← readMmioU32 hardware r
  if value &&& bit ≠ 0 then writeMmioU32 hardware r (written value)

def acknowledgeInterrupt : ServiceAction Unit := do
  clearSummary hardware .iman 1 (· ||| 1)
  clearSummary hardware .usbsts Xhci.usbstsEventInterrupt fun _ ↦ Xhci.usbstsEventInterrupt

def dispatchEvents : ℕ → ServiceAction ℕ
  | 0 => return 0
  | budget + 1 => do
    if ← dispatchOneEvent hardware then return (← dispatchEvents budget) + 1 else return 0

def finalPass (handled : ℕ) : ServiceAction ℕ := do
  if handled < Xhci.runtimeEventBudget then
    if ← dispatchOneEvent hardware then
      acknowledgeInterrupt hardware
      return handled + 1
    else return handled
  else return handled

def service : ServiceAction ℕ := do
  let handled ← dispatchEvents hardware Xhci.runtimeEventBudget
  acknowledgeInterrupt hardware
  let handled ← finalPass hardware handled
  if handled = Xhci.runtimeEventBudget then
    modify fun s ↦
      { s with pendingVectors := requeueInterruptPending pciVectorFirst s.pendingVectors }
  return handled

def serviceInterruptOnce : ServiceAction ℕ := do
  let s ← get
  let (pending, rest) := takeInterruptPending pciVectorFirst s.pendingVectors
  modify fun s ↦ { s with pendingVectors := rest }
  if !pending ∧ s.interruptMode = .polling then return 0 else service hardware

variable {w₀ : XhciWorld} {s s' s'' : ServiceWorld} {n m : ℕ}

def InService (w₀ : XhciWorld) (s : ServiceWorld) : Prop :=
  ∃ es, EventWorld.InStep w₀ es s.toEventWorld

/-- `n` events are dispatched, while the controller may add others. -/
structure Serves (w₀ : XhciWorld) (n : ℕ) (s s' : ServiceWorld) : Prop where
  inService : InService w₀ s'
  mode : s'.interruptMode = s.interruptMode
  posted : s.posted.length ≤ s'.posted.length
  published : s'.published = s.published + n

theorem InService.serves (h : InService w₀ s) : Serves w₀ 0 s s := ⟨h, rfl, le_rfl, rfl⟩

theorem Serves.trans (h : Serves w₀ n s s') (h' : Serves w₀ m s' s'') :
    Serves w₀ (n + m) s s'' where
  inService := h'.inService
  mode := h'.mode.trans h.mode
  posted := h.posted.trans h'.posted
  published := by rw [h'.published, h.published, Nat.add_assoc]

theorem InService.receive (h : InService w₀ s) (event : Trb) :
    Serves w₀ 0 s { s with toEventWorld := s.receive event } := by
  obtain ⟨es, hes⟩ := h
  rw [EventWorld.receive]
  split_ifs with hfree
  · exact ⟨⟨_, hes.post (Trb.cycle_withCycle _ _) hfree⟩, rfl, by simp, rfl⟩
  · exact ⟨⟨es, hes⟩, rfl, le_rfl, rfl⟩

theorem InService.arrive (h : InService w₀ s) : Serves w₀ 0 s (s.arrive hardware) := by
  have hfold : ∀ events : List Trb, Serves w₀ 0 s
      { s with toEventWorld := events.foldl EventWorld.receive s.toEventWorld } := by
    intro events
    induction events using List.reverseRecOn with
    | nil => exact h.serves
    | append_singleton events event ih =>
      rw [List.foldl_append]
      exact ih.trans (ih.inService.receive event)
  exact { hfold (hardware.events s.accesses) with }

theorem InService.dispatchOneEvent (h : InService w₀ s) : ∃ s' seen,
    (dispatchOneEvent hardware).run s = (s', .ok seen) ∧
      Serves w₀ (if seen then 1 else 0) s s' ∧ (seen = false → s.posted.length ≤ s'.published) := by
  have harrive := h.arrive hardware
  obtain ⟨es, hes⟩ := harrive.inService
  have hrun := hes.dispatchOneEvent_eq
  by_cases hnew : (s.arrive hardware).published < (s.arrive hardware).posted.length
  · rw [if_pos hnew] at hrun
    let next := { s.arrive hardware with
      world := (s.arrive hardware).world.take, published := (s.arrive hardware).published + 1 }
    have hnext : Serves w₀ 1 (s.arrive hardware) next := ⟨⟨_, hes.take hnew⟩, rfl, le_rfl, rfl⟩
    refine ⟨next, true, ?_, harrive.trans hnext, by simp⟩
    simp [ServiceWorld.dispatchOneEvent, hrun, next]
  · rw [if_neg hnew] at hrun
    refine ⟨s.arrive hardware, false, ?_, harrive, fun _ ↦ harrive.posted.trans (not_lt.mp hnew)⟩
    simp [ServiceWorld.dispatchOneEvent, hrun]

theorem InService.address (h : InService w₀ s) {r : S3Register} (hr : r = .iman ∨ r = .usbsts) :
    ∃ a, s.world.mmio.virtualAddress (r.offset s.world.layout) 4 = some a := by
  obtain ⟨es, hes⟩ := h
  obtain ⟨_, _, _, hlayout⟩ := hes.sound.layout
  have hinside := RegisterLayout.contains_summaries hlayout
  obtain rfl | rfl := hr
  · exact ⟨_, hes.sound.mapped.virtualAddress_eq hinside.1⟩
  · exact ⟨_, hes.sound.mapped.virtualAddress_eq hinside.2⟩

theorem InService.clearSummary (h : InService w₀ s) {r : S3Register}
    (hr : r = .iman ∨ r = .usbsts) (bit : U32) (written : U32 → U32) :
    ∃ s', (clearSummary hardware r bit written).run s = (s', .ok ()) ∧ Serves w₀ 0 s s' := by
  have harrive := h.arrive hardware
  have hagain := harrive.inService.arrive hardware
  obtain ⟨a, ha⟩ := harrive.inService.address hr
  obtain ⟨b, hb⟩ := hagain.inService.address hr
  have hread : (readMmioU32 hardware r).run s =
      (s.arrive hardware, .ok (hardware.registers (s.arrive hardware).accesses)) := by
    simp only [readMmioU32, run_modify_bind, run_get_bind, ha, demand_some, run_pure_bind, run_pure]
  rw [ServiceWorld.clearSummary, run_bind_of_ok hread]
  split_ifs
  · simp only [writeMmioU32, run_modify_bind, run_get_bind, hb, demand_some, run_pure_bind,
      run_modify]
    exact ⟨_, rfl, { harrive.trans hagain with }⟩
  · exact ⟨_, rfl, harrive⟩

theorem InService.acknowledgeInterrupt (h : InService w₀ s) :
    ∃ s', (acknowledgeInterrupt hardware).run s = (s', .ok ()) ∧ Serves w₀ 0 s s' := by
  obtain ⟨s₁, hrun₁, h₁⟩ := h.clearSummary hardware (.inl rfl) 1 (· ||| 1)
  obtain ⟨s₂, hrun₂, h₂⟩ := h₁.inService.clearSummary hardware (.inr rfl)
    Xhci.usbstsEventInterrupt fun _ ↦ Xhci.usbstsEventInterrupt
  exact ⟨s₂, (run_bind_of_ok hrun₁).trans hrun₂, h₁.trans h₂⟩

theorem InService.dispatchEvents (h : InService w₀ s) (budget : ℕ) : ∃ s' k,
    (dispatchEvents hardware budget).run s = (s', .ok k) ∧ Serves w₀ k s s' ∧ k ≤ budget ∧
      (k < budget → s.posted.length ≤ s'.published) := by
  induction budget generalizing s with
  | zero => exact ⟨s, 0, rfl, h.serves, le_rfl, by simp⟩
  | succ budget ih =>
    obtain ⟨s₁, seen, hrun, hserves, hempty⟩ := h.dispatchOneEvent hardware
    rw [ServiceWorld.dispatchEvents, run_bind_of_ok hrun]
    cases seen with
    | false => exact ⟨s₁, 0, rfl, hserves, Nat.zero_le _, fun _ ↦ hempty rfl⟩
    | true =>
      obtain ⟨s₂, k, hrest, hmore, hle, hdone⟩ := ih hserves.inService
      refine ⟨s₂, k + 1, ?_, Nat.add_comm k 1 ▸ hserves.trans hmore, by omega, fun hlt ↦ ?_⟩
      · rw [if_pos rfl, run_bind_of_ok hrest, run_pure]
      · exact hserves.posted.trans (hdone (by omega))

theorem InService.finalPass (h : InService w₀ s) (handled : ℕ) : ∃ s' k,
    (finalPass hardware handled).run s = (s', .ok (handled + k)) ∧ Serves w₀ k s s' ∧
      (handled ≤ Xhci.runtimeEventBudget → handled + k ≤ Xhci.runtimeEventBudget) := by
  rw [ServiceWorld.finalPass]
  split_ifs with hroom
  · obtain ⟨s₁, seen, hrun, hserves, -⟩ := h.dispatchOneEvent hardware
    rw [run_bind_of_ok hrun]
    cases seen with
    | false => exact ⟨s₁, 0, rfl, hserves, id⟩
    | true =>
      obtain ⟨s₂, hack, hsame⟩ := hserves.inService.acknowledgeInterrupt hardware
      refine ⟨s₂, 1, ?_, hserves.trans hsame, fun _ ↦ hroom⟩
      rw [if_pos rfl, run_bind_of_ok hack, run_pure]
  · exact ⟨s, 0, rfl, h.serves, id⟩

structure Pass (w₀ : XhciWorld) (handled : ℕ) (s s' : ServiceWorld) : Prop extends
    Serves w₀ handled s s' where
  budget : handled ≤ Xhci.runtimeEventBudget
  drained : handled < Xhci.runtimeEventBudget → s.posted.length ≤ s'.published
  requeued : handled = Xhci.runtimeEventBudget →
    interruptPending pciVectorFirst s'.pendingVectors = true

theorem InService.service (h : InService w₀ s) :
    ∃ s' handled, (service hardware).run s = (s', .ok handled) ∧ Pass w₀ handled s s' := by
  obtain ⟨s₁, k, hrun, h₁, hle, hdone⟩ :=
    h.dispatchEvents hardware Xhci.runtimeEventBudget
  obtain ⟨s₂, hack, h₂⟩ := h₁.inService.acknowledgeInterrupt hardware
  obtain ⟨s₃, m, hfinal, h₃, hmore⟩ := h₂.inService.finalPass hardware k
  have hserves := h₁.trans (h₂.trans h₃)
  rw [Nat.zero_add] at hserves
  have hdrained : k + m < Xhci.runtimeEventBudget → s.posted.length ≤ s₃.published := by
    intro hlt
    have hpublished := (h₂.trans h₃).published
    have := hdone (by omega)
    omega
  rw [ServiceWorld.service, run_bind_of_ok hrun, run_bind_of_ok hack, run_bind_of_ok hfinal]
  split_ifs with hfull
  · exact ⟨_, _, rfl, { hserves with }, hmore hle, hdrained, fun _ ↦ interruptPending_requeue rfl _⟩
  · exact ⟨_, _, rfl, hserves, hmore hle, hdrained, fun heq ↦ absurd heq hfull⟩

theorem InService.serviceInterruptOnce (h : InService w₀ s) (hmode : s.interruptMode ≠ .polling) :
    ∃ s' handled, (serviceInterruptOnce hardware).run s = (s', .ok handled) ∧
      Pass w₀ handled s s' := by
  let taken := { s with
    pendingVectors := (takeInterruptPending pciVectorFirst s.pendingVectors).2 }
  obtain ⟨s', handled, hrun, hpass⟩ := InService.service hardware (s := taken) h
  refine ⟨s', handled, ?_, { hpass with }⟩
  rw [ServiceWorld.serviceInterruptOnce, run_get_bind, run_modify_bind, if_neg (hmode ·.2), hrun]

/-- A pass of the main loop, or what happens between two of them. The event is the
number of passes. -/
inductive Turn : ServiceWorld → ℕ → ServiceWorld → Prop
  | pass {s s' : ServiceWorld} {r : Except XhciInitError ℕ} (hardware : ServiceHardware) :
    (serviceInterruptOnce hardware).run s = (s', r) → Turn s 1 s'
  | other {s : ServiceWorld} {e : EventRingEvent} {w : EventWorld} {pendingVectors : U16}
      {accesses : ℕ} :
    EventWorld.Step s.toEventWorld e w →
      Turn s 0 { s with toEventWorld := w, pendingVectors, accesses }

theorem Turn.serves (hturn : Turn s m s') (h : InService w₀ s)
    (hmode : s.interruptMode ≠ .polling) : ∃ n, Serves w₀ n s s' ∧
      (s.posted.length ≤ s'.published ∨ Xhci.runtimeEventBudget * m ≤ n) := by
  cases hturn with
  | pass hardware hrun =>
    obtain ⟨_, handled, hok, hpass⟩ := h.serviceInterruptOnce hardware hmode
    cases hok.symm.trans hrun
    exact ⟨handled, hpass.toServes, hpass.budget.lt_or_eq.imp hpass.drained Eq.ge⟩
  | @other _ w _ _ hstep =>
    obtain ⟨es, hes⟩ := h
    refine ⟨w.published - s.published, ⟨⟨_, hes.step hstep⟩, rfl, ?_, ?_⟩, .inr (Nat.zero_le _)⟩
    · cases hstep <;> simp
    · cases hstep <;> simp

end ServiceWorld

/-- However passes of the main loop and what the controller does interleave, no pass
fails, and sixteen of them dispatch all that was in the ring. -/
theorem events_served {w₀ : XhciWorld} {s s' : ServiceWorld} (h : s.InService w₀)
    (hmode : s.interruptMode ≠ .polling) {passes : List ℕ}
    (hrun : Trace.Run ServiceWorld.Turn s passes s') :
    s'.InService w₀ ∧
    (∀ hardware, ∃ t handled, (ServiceWorld.serviceInterruptOnce hardware).run s' =
      (t, .ok handled) ∧ ServiceWorld.Pass w₀ handled s' t) ∧
    min s.posted.length (s.published + 16 * passes.sum) ≤ s'.published ∧
    (16 ≤ passes.sum → s.posted.length ≤ s'.published) := by
  obtain ⟨n, hserves, hserved⟩ := hrun.history
    (I := fun ks t ↦ ∃ n, ServiceWorld.Serves w₀ n s t ∧
      (s.posted.length ≤ t.published ∨ Xhci.runtimeEventBudget * ks.sum ≤ n))
    ⟨0, h.serves, .inr le_rfl⟩ fun ks t k u ht hturn ↦ by
      obtain ⟨n, hserves, hserved⟩ := ht
      obtain ⟨m, hmore, hturned⟩ := hturn.serves hserves.inService (hserves.mode ▸ hmode)
      have hposted := hserves.posted
      have hpublished := hmore.published
      refine ⟨n + m, hserves.trans hmore, ?_⟩
      rw [List.sum_append, List.sum_singleton, Nat.mul_add]
      omega
  have hpublished := hserves.published
  rw [Xhci.runtimeEventBudget] at hserved
  refine ⟨hserves.inService, fun hardware ↦ ?_, by omega, fun hpasses ↦ ?_⟩
  · exact hserves.inService.serviceInterruptOnce hardware (hserves.mode ▸ hmode)
  · obtain ⟨es, hes⟩ := h
    have hahead := hes.ahead
    omega

def ServiceWorld.port : ServiceWorld :=
  ⟨(EventWorld.initial .started).receive portThreeChanged, .msi, 0, [], 0⟩

theorem events_served_port : ∃ s', Trace.Run ServiceWorld.Turn .port [1] s' ∧
    s'.InService .started ∧ 1 ≤ s'.published := by
  have hstart : ServiceWorld.InService .started ⟨.initial .started, .msi, 0, [], 0⟩ :=
    ⟨[], EventWorld.inStep_initial XhciWorld.sound_started rfl rfl fun _ _ ↦ rfl⟩
  have hport : ServiceWorld.port.InService .started := (hstart.receive portThreeChanged).inService
  obtain ⟨s', handled, hpass, -⟩ := hport.serviceInterruptOnce ⟨fun _ ↦ [], fun _ ↦ [], fun _ ↦ 0⟩
    (by decide)
  have hrun : Trace.Run ServiceWorld.Turn .port [1] s' := .snoc .nil (.pass _ hpass)
  obtain ⟨hin, -, hserved, -⟩ := events_served hport (by decide) hrun
  exact ⟨s', hrun, hin, hserved⟩

end BraneKernel
