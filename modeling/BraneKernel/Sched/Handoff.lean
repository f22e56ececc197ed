import BraneKernel.Lib.Trace
import BraneKernel.Sched.Transfers

namespace BraneKernel

open MultiCoreScheduler (Moves)

/-- What a CPU is doing with its registers: running on a context, or between the
selection of a handoff and the assembly that saves to `old` and loads `new`. -/
inductive Phase
  | running (ptr : ContextPtr)
  | switching (old new : ContextPtr)
  deriving DecidableEq

structure Machine where
  sched : Scheduling
  phase : ℕ → Phase

inductive HandoffEvent
  | enqueue (taskId : TaskId)
  | enqueueOn (cpu : ℕ) (taskId : TaskId)
  | timerTick (cpu : ℕ) (locked : Bool)
  | prepare (cpu : ℕ)
  | switch (cpu : ℕ)

namespace Machine

def booted (legacy : Scheduler) (cpus : ℕ) : Machine :=
  ⟨(Scheduling.configureMulticore ⟨legacy, .new, fun _ ↦ .new⟩ cpus).1, fun cpu ↦ .running (.idle cpu)⟩

/-- One step of an interleaving. A CPU that has prepared a handoff can only go on
to switch, while its interrupts and the other CPUs proceed. -/
def next (m : Machine) : HandoffEvent → Option Machine
  | .enqueue taskId => some { m with sched := (m.sched.enqueueTask taskId).1 }
  | .enqueueOn cpu taskId => some { m with sched := (m.sched.enqueueTaskOnCpu cpu taskId).1 }
  | .timerTick cpu locked =>
    (m.sched.timerTickForCpu cpu locked).map fun r ↦ { m with sched := r.1 }
  | .prepare cpu =>
    match m.phase cpu with
    | .switching _ _ => none
    | .running _ => (m.sched.prepareContextSwitchForCpu cpu).map fun r ↦
      match r.2 with
      | none => { m with sched := r.1 }
      | some (old, new) => ⟨r.1, Function.update m.phase cpu (.switching old new)⟩
  | .switch cpu =>
    match m.phase cpu with
    | .switching _ new => some { m with phase := Function.update m.phase cpu (.running new) }
    | .running _ => none

def Step (m : Machine) (e : HandoffEvent) (m' : Machine) : Prop := m.next e = some m'

/-- The registers of the context are still in the CPU: it is running on them, or
is about to save them. -/
def Uses (phase : Phase) (ptr : ContextPtr) : Prop :=
  phase = .running ptr ∨ ∃ new, phase = .switching ptr new

def Exclusive (m : Machine) : Prop :=
  ∀ cpu other old slot, cpu ≠ other → m.phase cpu = .switching old (.task slot) →
    ¬ Uses (m.phase other) (.task slot)

/-- The CPU has put the task back on its queue and not yet saved its registers. -/
def AwaitsSave (m : Machine) (cpu : ℕ) (t : TaskId) : Prop :=
  ∃ slot new, m.sched.legacy.taskContextPtr t = some slot ∧ m.phase cpu = .switching (.task slot) new

/-- A tick that falls through to a steal does not steal a task that awaits its
save, and a task that awaits its save is not enqueued after its queue dropped it. -/
def Undisturbed (m : Machine) : HandoffEvent → Prop
  | .enqueue t | .enqueueOn _ t => (∃ cpu, m.AwaitsSave cpu t) → m.sched.multicore.owns t = true
  | .timerTick cpu _ =>
    (m.sched.multicore.runtime cpu).current = none → (m.sched.multicore.queues cpu).tasks = [] →
      ∀ v t, m.sched.multicore.victim cpu = some v →
        (m.sched.multicore.queues v).tasks.head? = some t → ¬ ∃ other, m.AwaitsSave other t
  | .prepare _ | .switch _ => True

variable {m m' : Machine} {cpu : ℕ}

/-- A task whose registers a CPU has is running there, or can only be found on
the queue of that CPU while its registers are about to be saved. -/
structure Coherent (m : Machine) : Prop where
  owned : m.sched.multicore.Owned
  running : ∀ {cpu slot}, m.phase cpu = .running (.task slot) →
    ∃ t, m.sched.legacy.taskContextPtr t = some slot ∧ m.sched.multicore.Held t (.running cpu)
  entering : ∀ {cpu old slot}, m.phase cpu = .switching old (.task slot) →
    ∃ t, m.sched.legacy.taskContextPtr t = some slot ∧ m.sched.multicore.Held t (.running cpu)
  leaving : ∀ {cpu t}, m.AwaitsSave cpu t → ∀ p, m.sched.multicore.Held t p → p = .queue cpu

variable {s' : Scheduling} {x : TaskId} {dst : Option Place}

section

variable (h : m.Coherent)
include h

theorem Coherent.exclusive : m.Exclusive := by
  intro cpu other old slot hne hp huse
  obtain ⟨t, ht, hheld⟩ := h.entering hp
  rcases huse with hr | ⟨new, hw⟩
  · obtain ⟨t', ht', hheld'⟩ := h.running hr
    obtain rfl := Scheduler.taskContextPtr_injective ht ht'
    exact hne (Place.running.inj (h.owned.single hheld hheld'))
  · cases h.leaving ⟨slot, new, ht, hw⟩ _ hheld

section

variable (hown : s'.multicore.Owned)
  (hptr : ∀ t, s'.legacy.taskContextPtr t = m.sched.legacy.taskContextPtr t)
include hown hptr

theorem Coherent.of_sched
    (hrun : ∀ t cpu, m.sched.multicore.Held t (.running cpu) → s'.multicore.Held t (.running cpu))
    (hwait : ∀ t cpu, m.AwaitsSave cpu t → ∀ p, s'.multicore.Held t p → p = .queue cpu) :
    Coherent { m with sched := s' } where
  owned := hown
  running hp := by
    obtain ⟨t, ht, hheld⟩ := h.running hp
    exact ⟨t, (hptr t).trans ht, hrun t _ hheld⟩
  entering hp := by
    obtain ⟨t, ht, hheld⟩ := h.entering hp
    exact ⟨t, (hptr t).trans ht, hrun t _ hheld⟩
  leaving := by
    rintro cpu t ⟨slot, new, ht, hp⟩
    exact hwait t cpu ⟨slot, new, (hptr t).symm.trans ht, hp⟩

theorem Coherent.of_same (hsame : ∀ t p, s'.multicore.Held t p ↔ m.sched.multicore.Held t p) :
    Coherent { m with sched := s' } :=
  h.of_sched hown hptr (fun t _ ht ↦ (hsame t _).mpr ht)
    fun t _ hw p hp ↦ h.leaving hw p ((hsame t p).mp hp)

theorem Coherent.of_moves (hm : Moves m.sched.multicore s'.multicore x dst)
    (hx : ∀ cpu, ¬ m.sched.multicore.Held x (.running cpu))
    (hw : ∀ cpu, m.AwaitsSave cpu x → ∀ p, dst = some p → p = .queue cpu) :
    Coherent { m with sched := s' } := by
  refine h.of_sched hown hptr ?_ ?_
  · intro t cpu ht
    exact (hm.held_ne fun he ↦ hx cpu (he ▸ ht)).mpr ht
  · intro t cpu hwait p hp
    by_cases he : t = x
    · subst he
      exact hw cpu hwait p (hm.held_iff.mp hp)
    · exact h.leaving hwait p ((hm.held_ne he).mp hp)

end

theorem Coherent.not_running {t : TaskId} {c : ℕ} (ht : t ∈ (m.sched.multicore.queues c).tasks)
    (cpu : ℕ) :
    ¬ m.sched.multicore.Held t (.running cpu) := fun hr ↦ by
  cases h.owned.single (p := .queue c) ht hr

theorem Coherent.of_rotation (hown : s'.multicore.Owned)
    (hptr : ∀ t, s'.legacy.taskContextPtr t = m.sched.legacy.taskContextPtr t)
    (hm : Moves m.sched.multicore s'.multicore x dst)
    (hx : x ∈ (m.sched.multicore.queues cpu).tasks) (hdst : dst = none ∨ dst = some (.queue cpu)) :
    Coherent { m with sched := s' } := by
  refine h.of_moves hown hptr hm (h.not_running hx) fun c hw p hp ↦ ?_
  have hc := h.leaving hw (.queue cpu) hx
  rcases hdst with rfl | rfl
  · cases hp
  · exact Option.some.inj hp ▸ hc

theorem coherent_enqueue
    (hleg : s'.legacy = m.sched.legacy) (hown : s'.multicore.Owned)
    (heff : s'.multicore = m.sched.multicore ∨ (∀ p, ¬ m.sched.multicore.Held x p) ∧
      ∃ cpu, Moves m.sched.multicore s'.multicore x (some (.queue cpu)))
    (hok : (∃ cpu, m.AwaitsSave cpu x) → m.sched.multicore.owns x = true) :
    Coherent { m with sched := s' } := by
  rcases heff with he | ⟨hx, cpu, hm⟩
  · exact h.of_same hown (fun t ↦ by rw [hleg]) fun t p ↦ by rw [he]
  · refine h.of_moves hown (fun t ↦ by rw [hleg]) hm (fun c ↦ hx _) fun c hw ↦ ?_
    obtain ⟨p, hp⟩ := h.owned.owns_iff.mp (hok ⟨c, hw⟩)
    exact absurd hp (hx p)

theorem coherent_timerTick {locked : Bool} {r : DispatchResult}
    (hok : m.Undisturbed (.timerTick cpu locked))
    (hs : m.sched.timerTickForCpu cpu locked = some (s', r)) : Coherent { m with sched := s' } := by
  obtain ⟨hown, hptr, heff⟩ := Scheduling.timerTick_effect h.owned hs
  cases heff with
  | same hsame => exact h.of_same hown hptr hsame
  | rotated hx hdst hm => exact h.of_rotation hown hptr hm hx hdst
  | stolen hi hnil hv hhead hm =>
    have hmem := List.mem_of_mem_head? (Option.mem_def.mpr hhead)
    exact h.of_moves hown hptr hm (h.not_running hmem)
      fun c hw ↦ absurd ⟨c, hw⟩ (hok hi hnil _ _ hv hhead)

theorem Coherent.set_phase {phase : Phase}
    (hrun : ∀ slot, phase = .running (.task slot) →
      ∃ t, m.sched.legacy.taskContextPtr t = some slot ∧ m.sched.multicore.Held t (.running cpu))
    (hent : ∀ old slot, phase = .switching old (.task slot) →
      ∃ t, m.sched.legacy.taskContextPtr t = some slot ∧ m.sched.multicore.Held t (.running cpu))
    (hleave : ∀ t slot new, m.sched.legacy.taskContextPtr t = some slot →
      phase = .switching (.task slot) new → ∀ p, m.sched.multicore.Held t p → p = .queue cpu) :
    Coherent { m with phase := Function.update m.phase cpu phase } where
  owned := h.owned
  running {c slot} hp := by
    by_cases hc : c = cpu
    · subst hc
      exact hrun slot (by simpa using hp)
    · exact h.running (by simpa [hc] using hp)
  entering {c old slot} hp := by
    by_cases hc : c = cpu
    · subst hc
      exact hent old slot (by simpa using hp)
    · exact h.entering (by simpa [hc] using hp)
  leaving := by
    rintro c t ⟨slot, new, ht, hp⟩
    by_cases hc : c = cpu
    · subst hc
      exact hleave t slot new ht (by simpa using hp)
    · exact h.leaving ⟨slot, new, ht, by simpa [hc] using hp⟩

theorem Coherent.still_running {t : TaskId} {c : ℕ} (hx : m.sched.multicore.Held x (.running cpu))
    (hm : Moves m.sched.multicore s'.multicore x dst) (hc : c ≠ cpu)
    (hheld : m.sched.multicore.Held t (.running c)) : s'.multicore.Held t (.running c) := by
  refine (hm.held_ne ?_).mpr hheld
  rintro rfl
  exact hc (Place.running.inj (h.owned.single hheld hx))

theorem coherent_prepare {ptr : ContextPtr} {ptrs : Option (ContextPtr × ContextPtr)}
    (hphase : m.phase cpu = .running ptr)
    (hs : m.sched.prepareContextSwitchForCpu cpu = some (s', ptrs)) :
    match ptrs with
    | none => Coherent { m with sched := s' }
    | some (old, new) => Coherent ⟨s', Function.update m.phase cpu (.switching old new)⟩ := by
  obtain ⟨hown, hleg, heff, -⟩ := Scheduling.prepare_effect h.owned hs
  have hptr : ∀ t, s'.legacy.taskContextPtr t = m.sched.legacy.taskContextPtr t :=
    fun t ↦ by rw [hleg]
  cases heff with
  | same hsame => exact h.of_same hown hptr hsame
  | withdrawn hx hdst hm => exact h.of_rotation hown hptr hm hx hdst
  | @left x dst hx hdst hm =>
    refine ⟨hown, fun {c slot} hp ↦ ?_, fun {c old slot} hp ↦ ?_, ?_⟩
    · have hc : c ≠ cpu := by
        rintro rfl
        simp at hp
      have hp' : m.phase c = .running (.task slot) := by simpa [hc] using hp
      obtain ⟨t, ht, hheld⟩ := h.running hp'
      exact ⟨t, hleg ▸ ht, h.still_running hx hm hc hheld⟩
    · have hc : c ≠ cpu := by
        rintro rfl
        simp at hp
      have hp' : m.phase c = .switching old (.task slot) := by simpa [hc] using hp
      obtain ⟨t, ht, hheld⟩ := h.entering hp'
      exact ⟨t, hleg ▸ ht, h.still_running hx hm hc hheld⟩
    · rintro c t ⟨slot, new, ht, hp⟩ p hheld
      dsimp only at ht hp hheld
      rw [hleg] at ht
      by_cases hc : c = cpu
      · subst hc
        have hslot : m.sched.legacy.taskContextPtr x = some slot := by
          cases hpx : m.sched.legacy.taskContextPtr x with
          | none => simp [hpx] at hp
          | some slot' => simp [hpx] at hp; simp [hp.1]
        obtain rfl := Scheduler.taskContextPtr_injective ht hslot
        rcases hdst with rfl | rfl
        · exact absurd hheld (hm.gone p)
        · exact (Option.some.inj (hm.held_iff.mp hheld)).symm
      · have hw : m.AwaitsSave c t := ⟨slot, new, ht, by simpa [hc] using hp⟩
        have hne : t ≠ x := by
          rintro rfl
          cases h.leaving hw _ hx
        exact h.leaving hw p ((hm.held_ne hne).mp hheld)
  | @entered t slot hx hslot hm =>
    have hmid : Coherent { m with sched := s' } := by
      refine h.of_moves hown hptr hm (h.not_running hx) fun c hw ↦ ?_
      obtain rfl := Place.queue.inj (h.leaving hw (.queue cpu) hx)
      obtain ⟨_, _, -, hsw⟩ := hw
      cases hphase.symm.trans hsw
    refine hmid.set_phase nofun ?_ nofun
    rintro old slot' he
    cases he
    exact ⟨t, (hptr t).trans hslot, hm.held_iff.mpr rfl⟩

theorem coherent_step {e : HandoffEvent} (hok : m.Undisturbed e) (hstep : m.Step e m') :
    m'.Coherent := by
  unfold Step next at hstep
  cases e with
  | enqueue t =>
    cases hstep
    obtain ⟨hown, heff⟩ := h.owned.enqueue t
    exact coherent_enqueue h rfl hown heff hok
  | enqueueOn cpu t =>
    cases hstep
    obtain ⟨hown, heff⟩ := h.owned.enqueueOnCpu cpu t
    exact coherent_enqueue h rfl hown heff hok
  | timerTick cpu locked =>
    obtain ⟨⟨s', r⟩, hs, rfl⟩ := Option.map_eq_some_iff.mp hstep
    exact coherent_timerTick h hok hs
  | prepare cpu =>
    dsimp only at hstep
    split at hstep
    · cases hstep
    · next ptr hphase =>
      obtain ⟨⟨s', ptrs⟩, hs, rfl⟩ := Option.map_eq_some_iff.mp hstep
      have hc := coherent_prepare h hphase hs
      cases ptrs <;> exact hc
  | switch cpu =>
    dsimp only at hstep
    split at hstep
    · next old new hphase =>
      cases hstep
      refine h.set_phase (fun slot he ↦ ?_) nofun nofun
      cases he
      exact h.entering hphase
    · cases hstep

end

theorem configureMulticore_multicore (s : Scheduling) (cpus : ℕ) :
    (s.configureMulticore cpus).1.multicore = s.multicore.configure cpus := by
  have hfold : ∀ (l : List ℕ) (s : Scheduling),
      (l.foldl (fun s cpu ↦ (s.initCpuScheduler cpu).1) s).multicore = s.multicore := by
    intro l
    induction l with
    | nil => exact fun s ↦ rfl
    | cons c l ih =>
      intro s
      rw [List.foldl_cons, ih]
      unfold Scheduling.initCpuScheduler
      split_ifs <;> rfl
  exact hfold _ _

theorem coherent_booted (legacy : Scheduler) (cpus : ℕ) : (booted legacy cpus).Coherent where
  owned := by
    rw [booted, configureMulticore_multicore]
    exact MultiCoreScheduler.owned_configure _ _
  running hp := by simp [booted] at hp
  entering hp := by simp [booted] at hp
  leaving := by
    rintro cpu t ⟨slot, new, -, hp⟩
    simp [booted] at hp

/-- In every interleaving that leaves tasks alone until their registers are
saved, no CPU is given a context that another one still has. -/
theorem handoffs_exclusive (legacy : Scheduler) (cpus : ℕ) (es : List HandoffEvent) (m : Machine)
    (h : Trace.Run (Trace.Guarded Undisturbed Step) (booted legacy cpus) es m) : m.Exclusive :=
  (h.invariant (coherent_booted legacy cpus)
    fun _ _ _ hm hs ↦ coherent_step hm hs.1 hs.2).exclusive

def oneTask : Scheduler := ((Scheduler.new.addTask [] .normal).map (·.1)).getD .new

theorem handoffs_exclusive_quantum : ∃ m,
    Trace.Run (Trace.Guarded Undisturbed Step) (booted oneTask 2)
      [.enqueueOn 0 1, .prepare 0, .switch 0, .prepare 0] m ∧
    m.phase 0 = .switching (.task 0) (.idle 0) ∧ m.Exclusive := by
  have hok : (booted oneTask 2).Undisturbed (.enqueueOn 0 1) := by
    rintro ⟨cpu, slot, new, -, hp⟩
    simp [booted] at hp
  have h₁ : Trace.Run (Trace.Guarded Undisturbed Step) (booted oneTask 2) [.enqueueOn 0 1] _ :=
    .snoc .nil (And.intro hok rfl)
  have h₂ := h₁.snoc (And.intro (show Undisturbed _ (.prepare 0) from trivial) rfl)
  have h₃ := h₂.snoc (And.intro (show Undisturbed _ (.switch 0) from trivial) rfl)
  have h₄ := h₃.snoc (And.intro (show Undisturbed _ (.prepare 0) from trivial) rfl)
  exact ⟨_, h₄, rfl, handoffs_exclusive _ _ _ _ h₄⟩

/-- A timer tick steals the task that CPU 0 has put back but not yet saved, and
CPU 1 is given its context. -/
theorem stolen_before_saved : ∃ m,
    Trace.Run Step (booted oneTask 2)
      [.enqueueOn 0 1, .prepare 0, .switch 0, .prepare 0, .timerTick 1 false, .prepare 1] m ∧
    m.phase 0 = .switching (.task 0) (.idle 0) ∧ m.phase 1 = .switching (.idle 1) (.task 0) ∧
    ¬ m.Exclusive := by
  refine ⟨_, Trace.Run.of_foldlM rfl, rfl, rfl, fun h ↦ ?_⟩
  exact h 1 0 (.idle 1) 0 (by decide) rfl (.inr ⟨.idle 0, rfl⟩)

end Machine

end BraneKernel
