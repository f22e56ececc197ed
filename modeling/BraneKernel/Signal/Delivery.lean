import BraneKernel.Signal

namespace BraneKernel

namespace SignalManager

def ignored (m : SignalManager) (t : ProcessTable) (pid : Pid) (sig : Signal) : Bool :=
  match m.getAction t pid sig with
  | .ignore => true
  | .default => sig == .chld || sig == .cont || sig == .stop
  | .handler _ => false

def waiting (t : ProcessTable) (pid : Pid) : List Signal :=
  signalsToCheck.filter fun sig ↦ (pendingFor t pid).getLsbD sig.number

def decisive (m : SignalManager) (t : ProcessTable) (pid : Pid) : Option Signal :=
  (waiting t pid).find? fun sig ↦ !m.ignored t pid sig

def cleared (m : SignalManager) (t : ProcessTable) (pid : Pid) : List Signal :=
  (waiting t pid).takeWhile (m.ignored t pid) ++ (m.decisive t pid).toList

def handlerFor (m : SignalManager) (t : ProcessTable) (pid : Pid) (sig : Signal) :
    Option (Signal × U64) :=
  match m.getAction t pid sig with
  | .handler address => some (sig, address)
  | _ => none

def clearAll (sigs : List Signal) (p : Process) : Process :=
  { p with signalPending := sigs.foldl (fun pending sig ↦ pending &&& ~~~sig.bit) p.signalPending }

def conclude (m : SignalManager) (t : ProcessTable) (pid : Pid) (sig : Option Signal) (p : Process) :
    Process :=
  match sig with
  | none => p
  | some sig =>
    if m.getAction t pid sig = .default then
      { p with state := .terminated, exitCode := 128 + sig.number }
    else p

variable {m : SignalManager} {t : ProcessTable} {pid : Pid} {sig : Signal} {mask : U64}
  {rest : List Signal}

theorem getAction_congr {t' : ProcessTable} (hslot : t.slotOf pid = t'.slotOf pid) :
    m.getAction t pid = m.getAction t' pid := by
  funext sig
  rw [getAction, hslot, getAction]

@[simp] theorem getAction_clearPending (sig' : Signal) :
    m.getAction (clearPending t pid sig') pid = m.getAction t pid :=
  getAction_congr (ProcessTable.slotOf_modify fun _ ↦ rfl)

theorem ignored_clearPending (sig' : Signal) :
    m.ignored (clearPending t pid sig') pid = m.ignored t pid := by
  funext sig
  simp only [ignored, getAction_clearPending]

theorem pendingFor_modify_self {p : Process} {f : Process → Process} (hp : t.get pid = some p)
    (hf : ∀ p, (f p).pid = p.pid) :
    pendingFor (t.modify pid f) pid = (f p).signalPending &&& ~~~(f p).signalBlocked := by
  rw [pendingFor, ProcessTable.get_modify_of hp hf]

theorem decisive_congr {t' : ProcessTable} (hpending : pendingFor t pid = pendingFor t' pid)
    (hslot : t.slotOf pid = t'.slotOf pid) : m.decisive t pid = m.decisive t' pid := by
  simp only [decisive, waiting, hpending, ignored, getAction_congr hslot]

theorem deliverLoop_skip (h : mask.getLsbD sig.number = false) :
    m.deliverLoop pid mask (sig :: rest) t = m.deliverLoop pid mask rest t := by
  rw [deliverLoop, if_neg]
  rw [Signal.and_bit_ne_zero, h]
  exact Bool.false_ne_true

theorem deliverLoop_ignored (h : mask.getLsbD sig.number = true) (hi : m.ignored t pid sig = true) :
    m.deliverLoop pid mask (sig :: rest) t =
      m.deliverLoop pid mask rest (clearPending t pid sig) := by
  rw [deliverLoop, if_pos ((Signal.and_bit_ne_zero _ _).mpr h)]
  dsimp only
  rw [getAction_clearPending]
  unfold ignored at hi
  cases ha : m.getAction t pid sig with
  | ignore => rfl
  | default =>
    rw [ha] at hi
    cases sig <;> first | rfl | cases hi
  | handler address =>
    rw [ha] at hi
    cases hi

theorem deliverLoop_fatal (h : mask.getLsbD sig.number = true) (hi : m.ignored t pid sig = false)
    (ha : m.getAction t pid sig = .default) : m.deliverLoop pid mask (sig :: rest) t =
      (((clearPending t pid sig).terminate pid (128 + sig.number)).1, none) := by
  rw [deliverLoop, if_pos ((Signal.and_bit_ne_zero _ _).mpr h)]
  dsimp only
  rw [getAction_clearPending, ha]
  rw [ignored, ha] at hi
  cases sig <;> first | rfl | cases hi

variable {address : U64}

theorem deliverLoop_handler (h : mask.getLsbD sig.number = true)
    (ha : m.getAction t pid sig = .handler address) : m.deliverLoop pid mask (sig :: rest) t =
      (clearPending t pid sig, some (sig, address)) := by
  rw [deliverLoop, if_pos ((Signal.and_bit_ne_zero _ _).mpr h)]
  dsimp only
  rw [getAction_clearPending, ha]

theorem clearPending_eq : clearPending t pid sig = t.modify pid (clearAll [sig]) := rfl

theorem clearAll_pid (sigs : List Signal) (p : Process) : (clearAll sigs p).pid = p.pid := rfl

theorem conclude_pid (first : Option Signal) (p : Process) :
    (m.conclude t pid first p).pid = p.pid := by
  unfold conclude
  split
  · rfl
  · split_ifs <;> rfl

theorem conclude_default (ha : m.getAction t pid sig = .default) :
    m.conclude t pid (some sig) = fun p ↦
      { p with state := .terminated, exitCode := 128 + sig.number } := by
  funext p
  exact if_pos ha

theorem conclude_handler (ha : m.getAction t pid sig = .handler address) :
    m.conclude t pid (some sig) = id := by
  funext p
  exact if_neg (by rw [ha]; exact SignalAction.noConfusion)

theorem conclude_clearPending (first : Option Signal) (sig' : Signal) :
    m.conclude (clearPending t pid sig') pid first = m.conclude t pid first := by
  funext p
  simp only [conclude, getAction_clearPending]

theorem handlerFor_clearPending (sig' : Signal) :
    m.handlerFor (clearPending t pid sig') pid = m.handlerFor t pid := by
  funext sig
  simp only [handlerFor, getAction_clearPending]

theorem deliverLoop_eq (m : SignalManager) (pid : Pid) (mask : U64) (sigs : List Signal)
    (t : ProcessTable) : m.deliverLoop pid mask sigs t =
      let found := sigs.filter fun sig ↦ mask.getLsbD sig.number
      let first := found.find? fun sig ↦ !m.ignored t pid sig
      (t.modify pid (m.conclude t pid first ∘
          clearAll (found.takeWhile (m.ignored t pid) ++ first.toList)),
        first.bind (m.handlerFor t pid)) := by
  dsimp only
  induction sigs generalizing t with
  | nil => exact Prod.ext (ProcessTable.modify_eq_self fun _ _ ↦ rfl).symm rfl
  | cons sig rest ih =>
    cases hbit : mask.getLsbD sig.number with
    | false =>
      rw [deliverLoop_skip hbit, ih, List.filter_cons, hbit]
      rfl
    | true =>
      rw [List.filter_cons, hbit, if_pos rfl, List.find?_cons, List.takeWhile_cons]
      cases hi : m.ignored t pid sig with
      | true =>
        rw [deliverLoop_ignored hbit hi, ih, ignored_clearPending, handlerFor_clearPending,
          conclude_clearPending, clearPending_eq, ProcessTable.modify_modify (clearAll_pid _)]
        rfl
      | false =>
        change _ = (t.modify pid (m.conclude t pid (some sig) ∘ clearAll [sig]),
          m.handlerFor t pid sig)
        cases ha : m.getAction t pid sig with
        | ignore =>
          rw [ignored, ha] at hi
          cases hi
        | default =>
          have hnone : m.handlerFor t pid sig = none := by rw [handlerFor, ha]
          rw [deliverLoop_fatal hbit hi ha, clearPending_eq, ProcessTable.terminate,
            ProcessTable.modify_modify (clearAll_pid _), conclude_default ha, hnone]
        | handler address =>
          have hsome : m.handlerFor t pid sig = some (sig, address) := by rw [handlerFor, ha]
          rw [deliverLoop_handler hbit ha, clearPending_eq, conclude_handler ha, hsome]
          rfl

theorem deliverPending_eq (m : SignalManager) (t : ProcessTable) (pid : Pid) :
    m.deliverPending t pid =
      (t.modify pid (m.conclude t pid (m.decisive t pid) ∘ clearAll (m.cleared t pid)),
        (m.decisive t pid).bind (m.handlerFor t pid)) := by
  by_cases h : pendingFor t pid = 0
  · have hwait : waiting t pid = [] := by simp [waiting, h]
    rw [deliverPending, if_pos h, cleared, decisive, hwait]
    exact Prod.ext (ProcessTable.modify_eq_self fun _ _ ↦ rfl).symm rfl
  · rw [deliverPending, if_neg h, deliverLoop_eq]
    rfl

theorem get_deliverPending (m : SignalManager) {p : Process} (hp : t.get pid = some p) :
    (m.deliverPending t pid).1.get pid =
      some (m.conclude t pid (m.decisive t pid) (clearAll (m.cleared t pid) p)) := by
  rw [deliverPending_eq]
  exact ProcessTable.get_modify_of hp fun q ↦ conclude_pid _ _

theorem deliverPending_handler_iff :
    (m.deliverPending t pid).2 = some (sig, address) ↔
      m.decisive t pid = some sig ∧ m.getAction t pid sig = .handler address := by
  rw [deliverPending_eq, Option.bind_eq_some_iff]
  constructor
  · rintro ⟨sig', hd, hh⟩
    unfold handlerFor at hh
    split at hh
    · next a ha =>
      cases hh
      exact ⟨hd, ha⟩
    · cases hh
  · rintro ⟨hd, ha⟩
    exact ⟨sig, hd, by rw [handlerFor, ha]⟩

theorem deliverPending_handler (h : (m.deliverPending t pid).2 = some (sig, address)) :
    ∃ slot, (m.tables slot).actions sig.number = .handler address := by
  obtain ⟨-, ha⟩ := deliverPending_handler_iff.mp h
  unfold getAction at ha
  split at ha
  · next slot _ =>
    rw [if_pos sig.number_lt] at ha
    exact ⟨slot, ha⟩
  · cases ha

theorem deliverPending_kill {p : Process} (hp : t.get pid = some p)
    (hpend : p.signalPending.getLsbD Signal.kill.number = true)
    (hblock : p.signalBlocked.getLsbD Signal.kill.number = false)
    (haction : ∀ slot, (m.tables slot).actions Signal.kill.number = .default) :
    ∃ p', (m.deliverPending t pid).1.get pid = some p' ∧ p'.state = .terminated ∧
      p'.exitCode = 137 := by
  have hbit : (pendingFor t pid).getLsbD Signal.kill.number = true := by
    rw [pendingFor, hp]
    simp only [BitVec.getLsbD_and, BitVec.getLsbD_not, hpend, hblock]
    rfl
  have hact : m.getAction t pid .kill = .default := by
    unfold getAction
    split
    · rw [if_pos Signal.kill.number_lt, haction]
    · rfl
  -- `kill` is the first signal checked
  have hdecisive : m.decisive t pid = some .kill := by
    have hfatal : m.ignored t pid .kill = false := by
      rw [ignored, hact]
      rfl
    rw [decisive, waiting, signalsToCheck, List.filter_cons_of_pos, List.find?_cons_of_pos]
    · rw [hfatal]
      rfl
    · exact hbit
  have hget := get_deliverPending m hp
  rw [hdecisive, conclude_default hact] at hget
  exact ⟨_, hget, rfl, rfl⟩

theorem getLsbD_clearAll (sigs : List Signal) (p : Process) (i : ℕ) :
    (clearAll sigs p).signalPending.getLsbD i = true ↔
      p.signalPending.getLsbD i = true ∧ ∀ sig ∈ sigs, sig.number ≠ i := by
  unfold clearAll
  dsimp only
  generalize p.signalPending = pending
  induction sigs generalizing pending with
  | nil => simp
  | cons sig rest ih =>
    have hlt := sig.number_lt
    rw [List.foldl_cons, ih, BitVec.getLsbD_and, BitVec.getLsbD_not, Signal.getLsbD_bit]
    simp only [Bool.and_eq_true, Bool.not_eq_true', decide_eq_true_eq, decide_eq_false_iff_not,
      List.forall_mem_cons]
    constructor
    · rintro ⟨⟨hp, -, hne⟩, hrest⟩
      exact ⟨hp, Ne.symm hne, hrest⟩
    · rintro ⟨hp, hne, hrest⟩
      exact ⟨⟨hp, BitVec.lt_of_getLsbD hp, Ne.symm hne⟩, hrest⟩

/-- A delivery touches one process. There it clears the decisive signal and the
ignored ones before it, and only a decisive signal with its default action
changes anything else. -/
theorem delivery_loses_nothing (m : SignalManager) (t : ProcessTable) (pid : Pid) :
    (∀ i, t.slotOf pid ≠ some i →
      (m.deliverPending t pid).1.processes[i]? = t.processes[i]?) ∧
    (∀ p, t.get pid = some p → ∃ p', (m.deliverPending t pid).1.get pid = some p' ∧
      (∀ i, p'.signalPending.getLsbD i = true ↔
        p.signalPending.getLsbD i = true ∧ ∀ sig ∈ m.cleared t pid, sig.number ≠ i) ∧
      p' = { p with
        signalPending := p'.signalPending, state := p'.state, exitCode := p'.exitCode } ∧
      (∀ sig, m.decisive t pid = some sig → m.getAction t pid sig = .default →
        p'.state = .terminated ∧ p'.exitCode = 128 + sig.number) ∧
      ((∀ sig, m.decisive t pid = some sig → m.getAction t pid sig ≠ .default) →
        p'.state = p.state ∧ p'.exitCode = p.exitCode)) ∧
    ∀ sig address, (m.deliverPending t pid).2 = some (sig, address) ↔
      m.decisive t pid = some sig ∧ m.getAction t pid sig = .handler address := by
  refine ⟨fun i hi ↦ ?_, fun p hp ↦ ⟨_, get_deliverPending m hp, ?_⟩,
    fun sig address ↦ deliverPending_handler_iff⟩
  · rw [deliverPending_eq]
    exact Slots.getElem?_modify_ne hi
  · cases hd : m.decisive t pid with
    | none =>
      exact ⟨getLsbD_clearAll _ p, rfl, fun _ h ↦ (by cases h), fun _ ↦ ⟨rfl, rfl⟩⟩
    | some sig =>
      by_cases ha : m.getAction t pid sig = .default
      · rw [conclude_default ha]
        refine ⟨getLsbD_clearAll _ p, rfl, fun _ h _ ↦ ?_, fun h ↦ absurd ha (h sig rfl)⟩
        cases h
        exact ⟨rfl, rfl⟩
      · have hsame : m.conclude t pid (some sig) (clearAll (m.cleared t pid) p) =
            clearAll (m.cleared t pid) p := if_neg ha
        rw [hsame]
        refine ⟨getLsbD_clearAll _ p, rfl, fun _ h ha' ↦ ?_, fun _ ↦ ⟨rfl, rfl⟩⟩
        cases h
        exact absurd ha' ha

def signalled : ProcessTable :=
  ((ProcessTable.new.create [] none 3).elim .new Prod.fst).modify 1 fun p ↦
    { p with
      signalPending := Signal.chld.bit ||| Signal.usr1.bit ||| Signal.usr2.bit ||| Signal.kill.bit
      signalBlocked := Signal.kill.bit }

theorem delivery_loses_nothing_handled :
    let m := (SignalManager.new.setAction signalled 1 .usr1 .ignore).1
    let m := (m.setAction signalled 1 .usr2 (.handler 0x1000)).1
    m.cleared signalled 1 = [.usr1, .usr2] ∧
      (m.deliverPending signalled 1).2 = some (.usr2, 0x1000) ∧
      ∃ p', (m.deliverPending signalled 1).1.get 1 = some p' ∧
        p'.signalPending.getLsbD Signal.chld.number = true ∧
        p'.signalPending.getLsbD Signal.kill.number = true := by
  intro m₁ m
  have hcleared : m.cleared signalled 1 = [.usr1, .usr2] := by decide +kernel
  obtain ⟨-, hproc, hanswer⟩ := delivery_loses_nothing m signalled 1
  obtain ⟨p', hp', hbits, -⟩ := hproc _ rfl
  refine ⟨hcleared, (hanswer _ _).mpr (by decide +kernel), p', hp', ?_, ?_⟩
  · exact (hbits _).mpr ⟨by decide +kernel, by rw [hcleared]; decide⟩
  · exact (hbits _).mpr ⟨by decide +kernel, by rw [hcleared]; decide⟩

end SignalManager

end BraneKernel
