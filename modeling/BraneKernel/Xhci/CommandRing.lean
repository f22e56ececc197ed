import BraneKernel.Xhci.Records

namespace BraneKernel

def DmaRegion.linkWrites (ring : DmaRegion) (k : ℕ) : List (U64 × Trb) :=
  if k % commandRingUsableTrbs + 1 = commandRingUsableTrbs then
    [(ring.slot commandRingUsableTrbs, (Trb.link ring.physicalStart).withCycle
      (CycleRing.cycle commandRingUsableTrbs k))]
  else []

namespace RingCursor

def singles : ℕ → Except XhciInitError RingCursor
  | 0 => .ok .new
  | n + 1 => do
    let cursor ← singles n
    let (next, _) ← cursor.reserve 1
    return next

/-- One block on a transfer ring: `reserve(1)` takes the cursor to `next`, and `link` is
what `enqueue_transfer_td` writes once the block is in its slot. -/
structure Turn (ring : DmaRegion) (cursor next : RingCursor) (link : List (U64 × Trb)) : Prop where
  reserved : ∃ reservation, cursor.reserve 1 = .ok (next, reservation) ∧
    link = if reservation.reachedLink then
      [(ring.slot commandRingUsableTrbs,
        (Trb.link ring.physicalStart).withCycle reservation.cycle)] else []
  enqueued (trb : Trb) : enqueueTransferTd ring cursor [trb] =
    (next, (ring.slot cursor.enqueueIndex, trb.withCycle cursor.cycle) :: link,
      .ok (ring.slotPhysical cursor.enqueueIndex))

theorem reserve_one (k : ℕ) : (past k).reserve 1 =
    .ok (past (k + 1), ⟨k % commandRingUsableTrbs, CycleRing.cycle commandRingUsableTrbs k,
      k % commandRingUsableTrbs + 1 = commandRingUsableTrbs⟩) := by
  have hlt : k % commandRingUsableTrbs < commandRingUsableTrbs := Nat.mod_lt k (by decide)
  rw [reserve_past, if_neg (by omega)]

theorem singles_eq (n : ℕ) : singles n = .ok (past n) := by
  induction n with
  | zero => rfl
  | succ n ih =>
    rw [singles, ih]
    simp only [bind, Except.bind, reserve_one]
    rfl

theorem turn_past {ring : DmaRegion} (h : ring.HoldsRing) (k : ℕ) :
    Turn ring (past k) (past (k + 1)) (ring.linkWrites k) where
  reserved := by
    refine ⟨_, reserve_one k, ?_⟩
    simp only [DmaRegion.linkWrites, decide_eq_true_eq]
  enqueued trb := by
    have hlt : k % commandRingUsableTrbs < commandRingUsableTrbs := Nat.mod_lt k (by decide)
    have hfits : ¬ ([trb] = [] ∨
        k % commandRingUsableTrbs + [trb].length > commandRingUsableTrbs) := by
      rw [List.length_singleton]
      simp only [List.cons_ne_nil, false_or]
      omega
    rw [enqueueTransferTd_past h, if_neg hfits]
    rfl

end RingCursor

namespace XhciWorld

open Attempt

variable {w w' : XhciWorld} {k : ℕ}

def commandCursor (w : XhciWorld) : RingCursor := ⟨w.commandEnqueueIndex, w.commandCycle⟩

def withCommandCursor (w : XhciWorld) (cursor : RingCursor) : XhciWorld :=
  { w with commandEnqueueIndex := cursor.enqueueIndex, commandCycle := cursor.cycle }

structure Unmoved (w w' : XhciWorld) : Prop where
  ring : w'.commandRing = w.commandRing
  cursor : w'.commandCursor = w.commandCursor

theorem Unmoved.refl (w : XhciWorld) : Unmoved w w := ⟨rfl, rfl⟩

theorem Unmoved.trans {w'' : XhciWorld} (h : Unmoved w w') (h' : Unmoved w' w'') : Unmoved w w'' :=
  ⟨h'.ring.trans h.ring, h'.cursor.trans h.cursor⟩

def Stays {α : Type} (x : XhciAction α) : Prop := Within (fun w _ w' ↦ Unmoved w w') x

section Stays

variable {α β : Type}

theorem Stays.bind {x : XhciAction α} {f : α → XhciAction β} (hx : Stays x) (hf : ∀ a, Stays (f a)) :
    Stays (x >>= f) :=
  Within.bind (fun _ _ _ _ h h' ↦ h.trans h') hx hf

theorem stays_pure (a : α) : Stays (pure a) := within_pure Unmoved.refl a

theorem stays_get : Stays get := within_get Unmoved.refl

theorem stays_fail (e : XhciInitError) : Stays (fail e : XhciAction α) := within_fail Unmoved.refl

theorem stays_demand (e : XhciInitError) (o : Option α) : Stays (demand e o : XhciAction α) :=
  within_demand Unmoved.refl Unmoved.refl o

theorem stays_modify {g : XhciWorld → XhciWorld} (h : ∀ w, Unmoved w (g w)) : Stays (modify g) :=
  within_modify h

theorem stays_writeMmioU32 (offset : U64) (value : U32) : Stays (writeMmioU32 offset value) :=
  stays_get.bind fun _ ↦ (stays_demand _ _).bind fun _ ↦ stays_modify fun _ ↦ ⟨rfl, rfl⟩

theorem stays_writeMmioU64 (offset value : U64) : Stays (writeMmioU64 offset value) :=
  stays_get.bind fun _ ↦ (stays_demand _ _).bind fun _ ↦
    (stays_writeMmioU32 _ _).bind fun _ ↦ stays_writeMmioU32 _ _

theorem stays_advanceEventRing : Stays advanceEventRing := by
  refine .bind (stays_modify fun _ ↦ ⟨rfl, rfl⟩) fun _ ↦ stays_get.bind fun w ↦ ?_
  exact (stays_demand _ _).bind fun _ ↦ stays_writeMmioU64 _ _

theorem stays_dispatchOneEvent : Stays dispatchOneEvent := by
  refine stays_get.bind fun w ↦ (stays_demand _ _).bind fun pointer ↦ ?_
  dsimp only
  split_ifs
  · exact stays_pure false
  · refine .bind (stays_modify fun _ ↦ ⟨rfl, rfl⟩) fun _ ↦ ?_
    exact stays_advanceEventRing.bind fun _ ↦ stays_pure true

theorem stays_poll (hardware : XhciHardware) : Stays (poll hardware) :=
  .bind (stays_modify fun _ ↦ ⟨rfl, rfl⟩) fun _ ↦ stays_dispatchOneEvent

theorem stays_waitForCommand (hardware : XhciHardware) (spins : ℕ) :
    Stays (waitForCommand hardware spins) := by
  induction spins with
  | zero => exact stays_fail _
  | succ spins ih =>
    refine (stays_poll hardware).bind fun _ ↦ stays_get.bind fun w ↦ ?_
    split
    · exact ih
    · refine .bind (stays_modify fun _ ↦ ⟨rfl, rfl⟩) fun _ ↦ ?_
      split_ifs
      · exact stays_fail _
      · exact stays_pure _

end Stays

inductive CommandEvent
  | submit (command : Trb)
  | other

def CommandEvent.submits : CommandEvent → Bool
  | .submit _ => true
  | .other => false

/-- A command is submitted, whatever comes of it, or the driver does what leaves it
where it stands on the command ring. A submission that finds another command under
way is of the second kind. -/
inductive CommandStep : XhciWorld → CommandEvent → XhciWorld → Prop
  | submit {w w' : XhciWorld} {hardware : XhciHardware} {command : Trb}
      {result : Except XhciInitError Trb} (free : w.events.command = none)
      (run : (submitCommand hardware command).run w = (w', result)) :
      CommandStep w (.submit command) w'
  | other {w w' : XhciWorld} (unmoved : Unmoved w w') : CommandStep w .other w'

structure OnCommandRing (ring : DmaRegion) (k : ℕ) (w : XhciWorld) : Prop where
  ring : w.commandRing = ring
  cursor : w.commandCursor = .past k

variable {ring : DmaRegion} {es : List CommandEvent}

theorem OnCommandRing.unmoved (h : OnCommandRing ring k w) (hunmoved : Unmoved w w') :
    OnCommandRing ring k w' :=
  ⟨hunmoved.ring.trans h.ring, hunmoved.cursor.trans h.cursor⟩

theorem OnCommandRing.advance (h : OnCommandRing ring k w) (hring : ring.HoldsRing) :
    advanceCommandRing.run w =
      ((w.writeTrbs (ring.linkWrites k)).withCommandCursor (.past (k + 1)), .ok ()) := by
  obtain ⟨rfl, hcursor⟩ := h
  have hlink := hring.trbPointer_eq (i := commandRingUsableTrbs) (by decide)
  have hpositive : 0 < commandRingUsableTrbs := by decide
  have hfits : k % commandRingUsableTrbs + 1 ≤ commandRingUsableTrbs := Nat.mod_lt k hpositive
  obtain ⟨hindex, hcycle⟩ := RingCursor.mk.inj hcursor
  simp only [advanceCommandRing, run_modify_bind, run_get_bind, DmaRegion.linkWrites,
    RingCursor.past, CycleRing.index_add hpositive hfits, CycleRing.cycle_add hpositive hfits,
    hindex]
  split_ifs with hlast
  · simp only [hlink, demand_some, run_pure_bind, run_modify_bind, run_modify, hcycle, writeTrb,
      writeTrbs, withCommandCursor, List.foldl_cons, List.foldl_nil]
  · simp only [← hcycle]
    rfl

section Submit

variable (h : OnCommandRing ring k w) (hring : ring.HoldsRing) (hfree : w.events.command = none)
  (command : Trb)
include h hring hfree

theorem OnCommandRing.startCommand :
    OnCommandRing ring (k + 1) ((startCommand command).run w).1 := by
  have hplaced : OnCommandRing ring k (w.place command) := h.unmoved ⟨rfl, rfl⟩
  have hindex : w.commandEnqueueIndex < commandRingUsableTrbs := by
    rw [(RingCursor.mk.inj h.cursor).1]
    exact Nat.mod_lt k (by decide)
  rw [startCommand_eq (h.ring ▸ hring) hindex hfree, run_bind_of_ok (hplaced.advance hring)]
  have hadvanced : OnCommandRing ring (k + 1)
      (((w.place command).writeTrbs (ring.linkWrites k)).withCommandCursor (.past (k + 1))) :=
    ⟨h.ring, rfl⟩
  exact hadvanced.unmoved (stays_writeMmioU32 _ _ _)

theorem OnCommandRing.submitCommand (hardware : XhciHardware) :
    OnCommandRing ring (k + 1) ((submitCommand hardware command).run w).1 := by
  have hstarted := h.startCommand hring hfree command
  rw [XhciWorld.submitCommand]
  rcases hstart : (XhciWorld.startCommand command).run w with ⟨w₁, e | _⟩
  · rw [run_bind_of_error hstart]
    rwa [hstart] at hstarted
  · rw [run_bind_of_ok hstart]
    rw [hstart] at hstarted
    exact hstarted.unmoved (stays_waitForCommand _ _ _)

end Submit

theorem onCommandRing_run (hring : w.commandRing.HoldsRing) (hnew : w.commandCursor = .new)
    (hrun : Trace.Run CommandStep w es w') :
    OnCommandRing w.commandRing (es.countP CommandEvent.submits) w' := by
  refine hrun.history (I := fun es w' ↦ OnCommandRing w.commandRing (es.countP _) w')
    ⟨rfl, hnew⟩ fun es t e u h hstep ↦ ?_
  rw [List.countP_append]
  cases hstep with
  | @submit _ hardware command _ free run =>
    have hsubmitted := h.submitCommand hring free command hardware
    rwa [run] at hsubmitted
  | other unmoved => exact h.unmoved unmoved

end XhciWorld

/-- However many commands were submitted, the driver stands on the command ring where as
many single reservations take the cursor of a transfer ring, and `advance_command_ring`
does what that ring does after its block. -/
theorem command_ring_as_transfer_ring {w w' : XhciWorld} {es : List XhciWorld.CommandEvent}
    (hring : w.commandRing.HoldsRing) (hnew : w.commandCursor = .new)
    (hrun : Trace.Run XhciWorld.CommandStep w es w') :
    ∃ cursor next link,
      RingCursor.singles (es.countP XhciWorld.CommandEvent.submits) = .ok cursor ∧
      w'.commandCursor = cursor ∧ RingCursor.Turn w.commandRing cursor next link ∧
      XhciWorld.advanceCommandRing.run w' =
        ((w'.writeTrbs link).withCommandCursor next, .ok ()) := by
  have hon := XhciWorld.onCommandRing_run hring hnew hrun
  exact ⟨_, _, _, RingCursor.singles_eq _, hon.cursor, RingCursor.turn_past hring _,
    hon.advance hring⟩

theorem command_ring_as_transfer_ring_started :
    ∃ w, Trace.Run XhciWorld.CommandStep .started [.other, .submit ⟨0, 0, 0x2400⟩] w ∧
      w.commandCursor = ⟨1, true⟩ := by
  have hring : XhciWorld.started.commandRing.HoldsRing := holdsRing_frameAt (by decide) (by decide)
  have hrun : Trace.Run XhciWorld.CommandStep .started [.other, .submit ⟨0, 0, 0x2400⟩]
      ((XhciWorld.submitCommand (fun _ memory ↦ memory) ⟨0, 0, 0x2400⟩).run .started).1 :=
    .cons (.other (.refl _)) (.cons (.submit rfl (Prod.mk.eta).symm) .nil)
  obtain ⟨cursor, next, link, hsingles, hcursor, -⟩ := command_ring_as_transfer_ring hring rfl hrun
  obtain rfl : ⟨1, true⟩ = cursor := Except.ok.inj hsingles
  exact ⟨_, hrun, hcursor⟩

end BraneKernel
