import BraneKernel.Lib.Bits
import BraneKernel.Process

namespace BraneKernel

inductive Signal
  | hup | int | quit | kill | usr1 | usr2 | term | chld | cont | stop
  deriving DecidableEq

namespace Signal

def number : Signal → ℕ
  | hup => 1
  | int => 2
  | quit => 3
  | kill => 9
  | usr1 => 10
  | usr2 => 12
  | term => 15
  | chld => 17
  | cont => 18
  | stop => 19

def tryFrom (val : BitVec 8) : Except String Signal :=
  match val.toNat with
  | 1 => .ok hup
  | 2 => .ok int
  | 3 => .ok quit
  | 9 => .ok kill
  | 10 => .ok usr1
  | 12 => .ok usr2
  | 15 => .ok term
  | 17 => .ok chld
  | 18 => .ok cont
  | 19 => .ok stop
  | _ => .error "Invalid signal number"

def bit (sig : Signal) : U64 := 1#64 <<< sig.number

theorem number_lt (sig : Signal) : sig.number < 32 := by cases sig <;> decide

theorem number_injective {a b : Signal} (h : a.number = b.number) : a = b := by
  cases a <;> cases b <;> simp_all [number]

theorem getLsbD_bit (sig : Signal) (i : ℕ) : sig.bit.getLsbD i = decide (i = sig.number) := by
  have hn := sig.number_lt
  rw [bit, ← BitVec.twoPow_eq, BitVec.getLsbD_twoPow, ← Bool.decide_and, decide_eq_decide]
  omega

theorem and_bit_ne_zero (mask : U64) (sig : Signal) :
    mask &&& sig.bit ≠ 0 ↔ mask.getLsbD sig.number = true := by
  have hn := sig.number_lt
  rw [bit]
  exact Bits.and_mask_ne_zero_iff mask (by omega)

end Signal

inductive SignalAction
  | default
  | ignore
  | handler (address : U64)
  deriving DecidableEq

structure SignalTable where
  actions : ℕ → SignalAction

def SignalTable.new : SignalTable := ⟨fun _ ↦ .default⟩

structure SignalManager where
  tables : ℕ → SignalTable

namespace SignalManager

def new : SignalManager := ⟨fun _ ↦ .new⟩

def send (t : ProcessTable) (pid : Pid) (sig : Signal) : ProcessTable × Except String Unit :=
  match t.get pid with
  | some proc =>
    if proc.state = .terminated then (t, .error "Process already terminated")
    else (t.modify pid fun p ↦ { p with signalPending := p.signalPending ||| sig.bit }, .ok ())
  | none => (t, .error "Process not found")

def setAction (m : SignalManager) (t : ProcessTable) (pid : Pid) (sig : Signal)
    (action : SignalAction) : SignalManager × Except String Unit :=
  if sig = .kill ∨ sig = .stop then
    (m, .error "SIGKILL and SIGSTOP cannot be caught or ignored")
  else
    match t.slotOf pid with
    | some slot =>
      if sig.number < 32 then
        (⟨Function.update m.tables slot
          ⟨Function.update (m.tables slot).actions sig.number action⟩⟩, .ok ())
      else (m, .error "Signal number out of range")
    | none => (m, .error "Process not found")

def getAction (m : SignalManager) (t : ProcessTable) (pid : Pid) (sig : Signal) : SignalAction :=
  match t.slotOf pid with
  | some slot => if sig.number < 32 then (m.tables slot).actions sig.number else .default
  | none => .default

def pendingFor (t : ProcessTable) (pid : Pid) : U64 :=
  match t.get pid with
  | some proc => proc.signalPending &&& ~~~proc.signalBlocked
  | none => 0

def clearPending (t : ProcessTable) (pid : Pid) (sig : Signal) : ProcessTable :=
  t.modify pid fun p ↦ { p with signalPending := p.signalPending &&& ~~~sig.bit }

def signalsToCheck : List Signal :=
  [.kill, .term, .int, .quit, .hup, .usr1, .usr2, .chld, .cont, .stop]

def deliverLoop (m : SignalManager) (pid : Pid) (pendingMask : U64) :
    List Signal → ProcessTable → ProcessTable × Option (Signal × U64)
  | [], t => (t, none)
  | sig :: rest, t =>
    if pendingMask &&& sig.bit ≠ 0 then
      let t := clearPending t pid sig
      match m.getAction t pid sig with
      | .ignore => deliverLoop m pid pendingMask rest t
      | .default =>
        match sig with
        | .chld | .cont => deliverLoop m pid pendingMask rest t
        | .stop => deliverLoop m pid pendingMask rest t
        | _ => ((t.terminate pid (128 + sig.number)).1, none)
      | .handler address => (t, some (sig, address))
    else deliverLoop m pid pendingMask rest t

def deliverPending (m : SignalManager) (t : ProcessTable) (pid : Pid) :
    ProcessTable × Option (Signal × U64) :=
  let pendingMask := pendingFor t pid
  if pendingMask = 0 then (t, none) else deliverLoop m pid pendingMask signalsToCheck t

variable (m : SignalManager) (t : ProcessTable) (pid : Pid)

theorem send_cases (sig : Signal) : (∃ e, send t pid sig = (t, .error e)) ∨
    (∃ proc, t.get pid = some proc ∧ proc.state ≠ .terminated) ∧ send t pid sig =
      (t.modify pid fun p ↦ { p with signalPending := p.signalPending ||| sig.bit }, .ok ()) := by
  unfold send
  cases hget : t.get pid with
  | none => exact .inl ⟨_, rfl⟩
  | some proc =>
    by_cases hterm : proc.state = .terminated
    · exact .inl ⟨_, if_pos hterm⟩
    · exact .inr ⟨⟨proc, rfl, hterm⟩, if_neg hterm⟩

theorem setAction_cases (sig : Signal) (action : SignalAction) :
    (∃ e, m.setAction t pid sig action = (m, .error e)) ∨
    ∃ slot, sig ≠ .kill ∧ sig ≠ .stop ∧ t.slotOf pid = some slot ∧ m.setAction t pid sig action =
      (⟨Function.update m.tables slot
        ⟨Function.update (m.tables slot).actions sig.number action⟩⟩, .ok ()) := by
  unfold setAction
  by_cases hkeep : sig = .kill ∨ sig = .stop
  · exact .inl ⟨_, if_pos hkeep⟩
  · rw [if_neg hkeep]
    cases hslot : t.slotOf pid with
    | none => exact .inl ⟨_, rfl⟩
    | some slot =>
      exact .inr ⟨slot, fun h ↦ hkeep (.inl h), fun h ↦ hkeep (.inr h), rfl, if_pos sig.number_lt⟩

theorem deliverPending_invariant {P : ProcessTable → Prop} (ht : P t)
    (hclear : ∀ t sig, P t → P (clearPending t pid sig))
    (hterm : ∀ t code, P t → P (t.terminate pid code).1) : P (m.deliverPending t pid).1 := by
  have hloop : ∀ mask sigs t, P t → P (m.deliverLoop pid mask sigs t).1 := by
    intro mask sigs
    induction sigs with
    | nil => exact fun t ht ↦ ht
    | cons sig rest ih =>
      intro t ht
      have hc := hclear t sig ht
      unfold deliverLoop
      split_ifs
      · dsimp only
        split
        · exact ih _ hc
        · split
          · exact ih _ hc
          · exact ih _ hc
          · exact ih _ hc
          · exact hterm _ _ hc
        · exact hc
      · exact ih _ ht
  unfold deliverPending
  dsimp only
  split_ifs
  · exact ht
  · exact hloop _ _ _ ht

end SignalManager

end BraneKernel
