import BraneKernel.Lib.Checked
import BraneKernel.Xhci.Trb

namespace BraneKernel

inductive TransferOwner
  | control | hid | bulkIn | bulkOut
  deriving DecidableEq

structure PendingCommand where
  trbPointer : U64
  expectedSlot : Option (BitVec 8)
  completion : Option Trb
  deriving DecidableEq

structure PendingTransfer where
  owner : TransferOwner
  trbPointer : U64
  shortPacketPointer : Option U64
  slotId : BitVec 8
  endpointId : BitVec 8
  requestedLength : U16
  completion : Option Trb
  deriving DecidableEq

structure EventDispatchState where
  command : Option PendingCommand
  transfer : Option PendingTransfer
  changedPorts : U64
  unexpectedEvents : U32
  deriving DecidableEq

namespace Trb

def pointer (event : Trb) : U64 := event.parameter &&& ~~~0xF

def portId (event : Trb) : BitVec 8 := (event.parameter >>> 24).setWidth 8

end Trb

def PendingCommand.accepts (pending : PendingCommand) (event : Trb) : Bool :=
  event.pointer == pending.trbPointer && pending.expectedSlot.all (event.slotId == ·)

def PendingTransfer.accepts (pending : PendingTransfer) (event : Trb) : Bool :=
  (event.pointer == pending.trbPointer ||
      event.completionCode == completionCodeShortPacket &&
        pending.shortPacketPointer == some event.pointer) &&
    event.slotId == pending.slotId && event.endpointId == pending.endpointId

def PendingCommand.complete (pending : PendingCommand) (event : Trb) : PendingCommand :=
  { pending with completion := some event }

def PendingTransfer.complete (pending : PendingTransfer) (event : Trb) : PendingTransfer :=
  { pending with completion := some event }

namespace EventDispatchState

def new : EventDispatchState := ⟨none, none, 0, 0⟩

variable (s : EventDispatchState)

def acceptCommand (event : Trb) : EventDispatchState × Bool :=
  match s.command with
  | none => (s, false)
  | some pending =>
    if pending.accepts event then
      ({ s with command := some (pending.complete event) }, true)
    else (s, false)

def acceptTransfer (event : Trb) : EventDispatchState × Bool :=
  match s.transfer with
  | none => (s, false)
  | some pending =>
    if pending.accepts event then
      ({ s with transfer := some (pending.complete event) }, true)
    else (s, false)

def acceptPort (event : Trb) : EventDispatchState × Bool :=
  if 1 ≤ event.portId ∧ event.portId ≤ 64 then
    ({ s with changedPorts := s.changedPorts ||| 1#64 <<< (event.portId - 1).toNat }, true)
  else (s, false)

def accept (event : Trb) : EventDispatchState × Bool :=
  if event.trbType = trbTypeCommandCompletionEvent then s.acceptCommand event
  else if event.trbType = trbTypeTransferEvent then s.acceptTransfer event
  else if event.trbType = trbTypePortStatusChangeEvent then s.acceptPort event
  else (s, false)

def dispatch (event : Trb) : EventDispatchState :=
  match s.accept event with
  | (s, true) => s
  | (s, false) => { s with unexpectedEvents := Checked.saturatingSucc s.unexpectedEvents }

end EventDispatchState

namespace Trb

def CompletesCommand (event : Trb) (pending : PendingCommand) : Prop :=
  event.trbType = trbTypeCommandCompletionEvent ∧ event.pointer = pending.trbPointer ∧
    ∀ slot, pending.expectedSlot = some slot → event.slotId = slot

/-- An event reports the last block of a transfer or, with the short packet
code, the block of its data stage. -/
def CompletesTransfer (event : Trb) (pending : PendingTransfer) : Prop :=
  event.trbType = trbTypeTransferEvent ∧
    (event.pointer = pending.trbPointer ∨
      event.completionCode = completionCodeShortPacket ∧
        pending.shortPacketPointer = some event.pointer) ∧
    event.slotId = pending.slotId ∧ event.endpointId = pending.endpointId

def ReportsPort (event : Trb) (port : ℕ) : Prop :=
  event.trbType = trbTypePortStatusChangeEvent ∧ event.portId.toNat = port ∧ 1 ≤ port ∧ port ≤ 64

end Trb

theorem PendingCommand.accepts_iff {pending : PendingCommand} {event : Trb} :
    pending.accepts event = true ↔ event.pointer = pending.trbPointer ∧
      ∀ slot, pending.expectedSlot = some slot → event.slotId = slot := by
  cases hslot : pending.expectedSlot <;> simp [accepts, hslot]

theorem PendingTransfer.accepts_iff {pending : PendingTransfer} {event : Trb} :
    pending.accepts event = true ↔ (event.pointer = pending.trbPointer ∨
      event.completionCode = completionCodeShortPacket ∧
        pending.shortPacketPointer = some event.pointer) ∧
      event.slotId = pending.slotId ∧ event.endpointId = pending.endpointId := by
  simp [accepts, and_assoc]

namespace EventDispatchState

variable {s : EventDispatchState} {event : Trb}

/-- The four kinds of outcome of an event. -/
inductive Dispatched (s : EventDispatchState) (event : Trb) : EventDispatchState → Prop
  | command {pending : PendingCommand} (h : s.command = some pending)
      (hevent : event.CompletesCommand pending) :
    Dispatched s event { s with command := some (pending.complete event) }
  | transfer {pending : PendingTransfer} (h : s.transfer = some pending)
      (hevent : event.CompletesTransfer pending) :
    Dispatched s event { s with transfer := some (pending.complete event) }
  | port {port : ℕ} {ports : U64} (hevent : event.ReportsPort port)
      (h : ∀ i < 64, ports.getLsbD i = if i + 1 = port then true else s.changedPorts.getLsbD i) :
    Dispatched s event { s with changedPorts := ports }
  | unexpected {n : U32} (hcommand : ∀ pending ∈ s.command, ¬ event.CompletesCommand pending)
      (htransfer : ∀ pending ∈ s.transfer, ¬ event.CompletesTransfer pending)
      (hport : ∀ port, ¬ event.ReportsPort port)
      (h : n.toNat = min (s.unexpectedEvents.toNat + 1) 0xFFFFFFFF) :
    Dispatched s event { s with unexpectedEvents := n }

theorem toNat_saturatingSucc (n : U32) :
    (Checked.saturatingSucc n).toNat = min (n.toNat + 1) 0xFFFFFFFF := by
  have hn := n.isLt
  by_cases hlast : n.toNat + 1 < 2 ^ 32
  · rw [Checked.saturatingSucc_toNat hlast]
    omega
  · have hones : n = BitVec.allOnes 32 := by
      apply BitVec.eq_of_toNat_eq
      rw [BitVec.toNat_allOnes]
      omega
    rw [Checked.saturatingSucc, if_pos hones, hones]
    rfl

theorem dispatched_unexpected
    (hcommand : event.trbType = trbTypeCommandCompletionEvent →
      ∀ pending ∈ s.command, pending.accepts event = false)
    (htransfer : event.trbType = trbTypeTransferEvent →
      ∀ pending ∈ s.transfer, pending.accepts event = false)
    (hport : event.trbType = trbTypePortStatusChangeEvent →
      ¬ (1 ≤ event.portId ∧ event.portId ≤ 64)) :
    Dispatched s event
      { s with unexpectedEvents := Checked.saturatingSucc s.unexpectedEvents } := by
  refine .unexpected (fun pending hpending hevent ↦ ?_) (fun pending hpending hevent ↦ ?_)
    (fun port hevent ↦ ?_) (toNat_saturatingSucc _)
  · have haccepts := PendingCommand.accepts_iff.mpr hevent.2
    simp [hcommand hevent.1 pending hpending] at haccepts
  · have haccepts := PendingTransfer.accepts_iff.mpr hevent.2
    simp [htransfer hevent.1 pending hpending] at haccepts
  · obtain ⟨htype, rfl, hlow, hhigh⟩ := hevent
    exact hport htype ⟨BitVec.le_def.mpr hlow, BitVec.le_def.mpr hhigh⟩

theorem dispatch_dispatched (s : EventDispatchState) (event : Trb) :
    Dispatched s event (s.dispatch event) := by
  have hkinds : trbTypeCommandCompletionEvent ≠ trbTypeTransferEvent ∧
    trbTypeCommandCompletionEvent ≠ trbTypePortStatusChangeEvent ∧
    trbTypeTransferEvent ≠ trbTypePortStatusChangeEvent := by decide
  unfold dispatch accept
  split_ifs with hcommand htransfer hport
  · unfold acceptCommand
    cases hpending : s.command with
    | none => apply dispatched_unexpected <;> simp [hcommand, hpending, hkinds]
    | some pending =>
      by_cases haccepts : pending.accepts event
      · simp only [haccepts, if_true]
        exact .command hpending ⟨hcommand, PendingCommand.accepts_iff.mp haccepts⟩
      · simp only [haccepts]
        apply dispatched_unexpected <;> simp [hcommand, hpending, haccepts, hkinds]
  · unfold acceptTransfer
    cases hpending : s.transfer with
    | none => apply dispatched_unexpected <;> simp [htransfer, hpending, hkinds, hkinds.1.symm]
    | some pending =>
      by_cases haccepts : pending.accepts event
      · simp only [haccepts, if_true]
        exact .transfer hpending ⟨htransfer, PendingTransfer.accepts_iff.mp haccepts⟩
      · simp only [haccepts]
        apply dispatched_unexpected <;> simp [htransfer, hpending, haccepts, hkinds, hkinds.1.symm]
  · unfold acceptPort
    by_cases hrange : 1 ≤ event.portId ∧ event.portId ≤ 64
    · have hlow : 1 ≤ event.portId.toNat := BitVec.le_def.mp hrange.1
      have hhigh : event.portId.toNat ≤ 64 := BitVec.le_def.mp hrange.2
      have hbit : (event.portId - 1).toNat + 1 = event.portId.toNat := by
        rw [BitVec.toNat_sub_of_le hrange.1]
        exact Nat.sub_add_cancel hlow
      simp only [hrange, and_self, if_true]
      refine .port ⟨hport, rfl, hlow, hhigh⟩ fun i hi ↦ ?_
      rw [Bits.getLsbD_or_mask _ hi]
      simp only [← hbit, Nat.add_right_cancel_iff]
    · simp only [hrange, if_false]
      exact dispatched_unexpected (absurd · hcommand) (absurd · htransfer) fun _ ↦ hrange
  · exact dispatched_unexpected (absurd · hcommand) (absurd · htransfer) (absurd · hport)

/-- A record after a sequence of events is the one before it or holds a
completion that one of the events reported for it. -/
def Credits {ρ : Type} (record : EventDispatchState → Option ρ) (Completes : Trb → ρ → Prop)
    (complete : ρ → Trb → ρ) (s : EventDispatchState) (es : List Trb)
    (s' : EventDispatchState) : Prop :=
  record s' = record s ∨ ∃ pending, record s = some pending ∧
    ∃ event ∈ es, Completes event pending ∧ record s' = some (complete pending event)

theorem credits_foldl {ρ : Type} {record : EventDispatchState → Option ρ}
    {Completes : Trb → ρ → Prop} {complete : ρ → Trb → ρ}
    (hcompletes : ∀ e e' pending, Completes e (complete pending e') ↔ Completes e pending)
    (hcomplete : ∀ e e' pending, complete (complete pending e') e = complete pending e)
    (hstep : ∀ s event, Credits record Completes complete s [event] (s.dispatch event))
    (s : EventDispatchState) (es : List Trb) :
    Credits record Completes complete s es (es.foldl dispatch s) := by
  induction es using List.reverseRecOn with
  | nil => exact .inl rfl
  | append_singleton es event ih =>
    rw [List.foldl_append]
    have hlast : event ∈ es ++ [event] := by simp
    rcases hstep (es.foldl dispatch s) event with hsame | ⟨pending, hpending, e, he, hevent, hnow⟩
    · obtain hbefore | ⟨pending, hpending, e, he, hevent, hbefore⟩ := ih
      · exact .inl (hsame.trans hbefore)
      · exact .inr ⟨pending, hpending, e, List.mem_append_left _ he, hevent, hsame.trans hbefore⟩
    · obtain rfl := List.mem_singleton.mp he
      obtain hbefore | ⟨old, hold, e', -, -, hbefore⟩ := ih
      · exact .inr ⟨pending, hbefore.symm.trans hpending, e, hlast, hevent, hnow⟩
      · obtain rfl := Option.some.inj (hbefore.symm.trans hpending)
        rw [hcompletes] at hevent
        rw [hcomplete] at hnow
        exact .inr ⟨old, hold, e, hlast, hevent, hnow⟩

def CreditsCommand : EventDispatchState → List Trb → EventDispatchState → Prop :=
  Credits command Trb.CompletesCommand PendingCommand.complete

def CreditsTransfer : EventDispatchState → List Trb → EventDispatchState → Prop :=
  Credits transfer Trb.CompletesTransfer PendingTransfer.complete

theorem Dispatched.creditsCommand {s' : EventDispatchState} (h : Dispatched s event s') :
    CreditsCommand s [event] s' := by
  cases h with
  | command hpending hevent => exact .inr ⟨_, hpending, event, by simp, hevent, rfl⟩
  | transfer => exact .inl rfl
  | port => exact .inl rfl
  | unexpected => exact .inl rfl

theorem Dispatched.creditsTransfer {s' : EventDispatchState} (h : Dispatched s event s') :
    CreditsTransfer s [event] s' := by
  cases h with
  | command => exact .inl rfl
  | transfer hpending hevent => exact .inr ⟨_, hpending, event, by simp, hevent, rfl⟩
  | port => exact .inl rfl
  | unexpected => exact .inl rfl

theorem creditsCommand_foldl (s : EventDispatchState) (es : List Trb) :
    CreditsCommand s es (es.foldl dispatch s) := by
  refine credits_foldl (fun _ _ _ ↦ ?_) (fun _ _ _ ↦ ?_)
    (fun s event ↦ (dispatch_dispatched s event).creditsCommand) s es
  · rfl
  · rfl

theorem creditsTransfer_foldl (s : EventDispatchState) (es : List Trb) :
    CreditsTransfer s es (es.foldl dispatch s) := by
  refine credits_foldl (fun _ _ _ ↦ ?_) (fun _ _ _ ↦ ?_)
    (fun s event ↦ (dispatch_dispatched s event).creditsTransfer) s es
  · rfl
  · rfl

end EventDispatchState

open EventDispatchState in
/-- A record is completed only by an event that reports its own request, and every event has one of
the four outcomes. -/
theorem completions_credited (s : EventDispatchState) (es : List Trb) :
    CreditsCommand s es (es.foldl dispatch s) ∧ CreditsTransfer s es (es.foldl dispatch s) ∧
      ∀ event, Dispatched (es.foldl dispatch s) event ((es ++ [event]).foldl dispatch s) := by
  refine ⟨creditsCommand_foldl s es, creditsTransfer_foldl s es, fun event ↦ ?_⟩
  rw [List.foldl_append]
  exact dispatch_dispatched _ event

/-- An unexpected event is not counted once the counter has reached its largest value. -/
theorem unexpected_event_saturates :
    EventDispatchState.dispatch ⟨none, none, 0, 0xFFFFFFFF⟩ ⟨0, 0, 0⟩ =
      ⟨none, none, 0, 0xFFFFFFFF⟩ := by
  decide

end BraneKernel
