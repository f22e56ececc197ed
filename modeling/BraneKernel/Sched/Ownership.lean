import BraneKernel.Lib.Search
import BraneKernel.Sched.MultiCore

namespace BraneKernel

inductive Place
  | queue (cpu : ℕ)
  | running (cpu : ℕ)
  deriving DecidableEq

def Place.cpu : Place → ℕ
  | .queue cpu => cpu
  | .running cpu => cpu

namespace MultiCoreScheduler

def Held (s : MultiCoreScheduler) (t : TaskId) : Place → Prop
  | .queue cpu => t ∈ (s.queues cpu).tasks
  | .running cpu => (s.runtime cpu).current = some t

/-- Well-formed queues on at most `maxCpus` CPUs, and nothing beyond them. Each
task is in at most one place. -/
structure Owned (s : MultiCoreScheduler) : Prop where
  count_pos : 0 < s.cpuCount
  count_le : s.cpuCount ≤ maxCpus
  wellFormed : ∀ cpu, (s.queues cpu).WellFormed
  nonzero : ∀ cpu t, (s.runtime cpu).current = some t → t ≠ 0
  beyond : ∀ cpu, s.cpuCount ≤ cpu → (s.queues cpu).tasks = [] ∧ (s.runtime cpu).current = none
  single : ∀ {t p p'}, s.Held t p → s.Held t p' → p = p'

theorem owned_configure (s : MultiCoreScheduler) (n : ℕ) : (s.configure n).Owned where
  count_pos := by simp only [configure]; omega
  count_le := by simp only [configure, maxCpus]; omega
  wellFormed _ := CpuRunQueue.wellFormed_new
  nonzero _ _ h := by cases h
  beyond _ _ := ⟨rfl, rfl⟩
  single {_ p _} h _ := by cases p <;> simp [Held, configure, CpuRunQueue.new,
    CpuRuntimeSnapshot.new] at h

/-- Task `x` ends up in `dst`, or nowhere, and every other task stays where it was. -/
def Moves (s s' : MultiCoreScheduler) (x : TaskId) (dst : Option Place) : Prop :=
  ∀ t p, s'.Held t p ↔ if t = x then dst = some p else s.Held t p

variable {s s' s'' : MultiCoreScheduler} {t x : TaskId} {p : Place} {cpu c : ℕ} {q : CpuRunQueue}
  {r : CpuRuntimeSnapshot} {dst dst' : Option Place}

theorem Moves.trans (h : Moves s s' x dst) (h' : Moves s' s'' x dst') : Moves s s'' x dst' := by
  intro t p
  rw [h' t p]
  split_ifs with ht
  · rfl
  · rw [h t p, if_neg ht]

theorem Moves.held_iff (h : Moves s s' x dst) : s'.Held x p ↔ dst = some p := by
  rw [h x p, if_pos rfl]

theorem Moves.held_ne (h : Moves s s' x dst) (ht : t ≠ x) : s'.Held t p ↔ s.Held t p := by
  rw [h t p, if_neg ht]

theorem Moves.single (h : Moves s s' x dst) (hs : s.Owned) {p' : Place} (hp : s'.Held t p)
    (hp' : s'.Held t p') : p = p' := by
  rw [h t] at hp hp'
  split_ifs at hp hp'
  · exact Option.some.inj (hp.symm.trans hp')
  · exact hs.single hp hp'

theorem setQueue_self (s : MultiCoreScheduler) (cpu : ℕ) : s.setQueue cpu (s.queues cpu) = s := by
  simp [MultiCoreScheduler.setQueue]

theorem held_setQueue :
    (s.setQueue cpu q).Held t p ↔ if p = .queue cpu then t ∈ q.tasks else s.Held t p := by
  cases p with
  | queue c =>
    by_cases hc : c = cpu
    · subst hc
      simp [Held, setQueue]
    · simp [Held, setQueue, hc]
  | running c => simp [Held, setQueue]

theorem held_setRuntime : (s.setRuntime cpu r).Held t p ↔
    if p = .running cpu then r.current = some t else s.Held t p := by
  cases p with
  | queue c => simp [Held, setRuntime]
  | running c =>
    by_cases hc : c = cpu
    · subst hc
      simp [Held, setRuntime]
    · simp [Held, setRuntime, hc]

theorem Owned.lt_of_held (h : s.Owned) (hp : s.Held t p) : p.cpu < s.cpuCount := by
  refine Nat.lt_of_not_le fun hc ↦ ?_
  cases p with
  | queue cpu => simp [Held, (h.beyond cpu hc).1] at hp
  | running cpu => simp [Held, (h.beyond cpu hc).2] at hp

theorem Owned.owns_iff (h : s.Owned) : s.owns t = true ↔ ∃ p, s.Held t p := by
  simp only [owns, Bool.or_eq_true, List.any_eq_true, List.mem_range, CpuRunQueue.contains,
    List.contains_iff_mem, beq_iff_eq]
  constructor
  · rintro (⟨cpu, -, hc⟩ | ⟨cpu, -, hc⟩)
    · exact ⟨.queue cpu, hc⟩
    · exact ⟨.running cpu, hc⟩
  · rintro ⟨p, hp⟩
    have hc := h.lt_of_held hp
    cases p with
    | queue cpu => exact .inl ⟨cpu, hc, hp⟩
    | running cpu => exact .inr ⟨cpu, hc, hp⟩

section Moves

theorem Owned.setQueue (h : s.Owned) (hc : cpu < s.cpuCount) (hq : q.WellFormed)
    (hm : Moves s (s.setQueue cpu q) x dst) : (s.setQueue cpu q).Owned where
  count_pos := h.count_pos
  count_le := h.count_le
  wellFormed c := by
    by_cases hcc : c = cpu
    · subst hcc
      simpa [MultiCoreScheduler.setQueue] using hq
    · simpa [MultiCoreScheduler.setQueue, hcc] using h.wellFormed c
  nonzero := h.nonzero
  beyond c hb := by
    have hne : c ≠ cpu := fun he ↦ Nat.not_le_of_lt hc (he ▸ hb)
    simpa [MultiCoreScheduler.setQueue, hne] using h.beyond c hb
  single := hm.single h

theorem Owned.setRuntime (h : s.Owned) (hc : cpu < s.cpuCount) (hr : ∀ t, r.current = some t → t ≠ 0)
    (hm : Moves s (s.setRuntime cpu r) x dst) : (s.setRuntime cpu r).Owned where
  count_pos := h.count_pos
  count_le := h.count_le
  wellFormed := h.wellFormed
  nonzero c t ht := by
    by_cases hcc : c = cpu
    · subst hcc
      exact hr t (by simpa [MultiCoreScheduler.setRuntime] using ht)
    · exact h.nonzero c t (by simpa [MultiCoreScheduler.setRuntime, hcc] using ht)
  beyond c hb := by
    have hne : c ≠ cpu := fun he ↦ Nat.not_le_of_lt hc (he ▸ hb)
    simpa [MultiCoreScheduler.setRuntime, hne] using h.beyond c hb
  single := hm.single h

theorem moves_at {place : Place} (haway : ∀ p, p ≠ place → (s.Held x p ↔ dst = some p))
    (hother : ∀ t p, p ≠ place → (s'.Held t p ↔ s.Held t p))
    (hplace : ∀ t, s'.Held t place ↔ if t = x then dst = some place else s.Held t place) :
    Moves s s' x dst := by
  intro t p
  by_cases hp : p = place
  · subst hp
    exact hplace t
  · rw [hother t p hp]
    split_ifs with ht
    · subst ht
      exact haway p hp
    · rfl

theorem moves_in {place : Place} (hx : ∀ p, ¬ s.Held x p)
    (hother : ∀ t p, p ≠ place → (s'.Held t p ↔ s.Held t p))
    (hplace : ∀ t, s'.Held t place ↔ t = x ∨ s.Held t place) : Moves s s' x (some place) := by
  refine moves_at (fun p hp ↦ ?_) hother fun t ↦ ?_
  · exact iff_of_false (hx p) fun he ↦ hp (Option.some.inj he).symm
  · rw [hplace]
    split_ifs with ht
    · simp [ht]
    · simp [ht]

theorem Owned.moves_out {place : Place} (h : s.Owned) (hx : s.Held x place)
    (hother : ∀ t p, p ≠ place → (s'.Held t p ↔ s.Held t p))
    (hplace : ∀ t, s'.Held t place ↔ t ≠ x ∧ s.Held t place) : Moves s s' x none := by
  refine moves_at (fun p hp ↦ ?_) hother fun t ↦ ?_
  · exact iff_of_false (fun hh ↦ hp (h.single hh hx)) (Option.some_ne_none p).symm
  · rw [hplace]
    split_ifs with ht
    · simp [ht]
    · simp [ht]

theorem Owned.push (h : s.Owned) (hc : cpu < s.cpuCount) (hx : ∀ p, ¬ s.Held x p)
    (hq : (s.queues cpu).enqueue x = .ok q) :
    (s.setQueue cpu q).Owned ∧ Moves s (s.setQueue cpu q) x (some (.queue cpu)) := by
  obtain ⟨-, -, -, hq'⟩ := CpuRunQueue.enqueue_ok hq
  have hm : Moves s (s.setQueue cpu q) x (some (.queue cpu)) := by
    refine moves_in hx (fun t p hp ↦ ?_) fun t ↦ ?_
    · rw [held_setQueue, if_neg hp]
    · rw [held_setQueue, if_pos rfl, hq', List.mem_append, List.mem_singleton, or_comm]
      rfl
  exact ⟨h.setQueue hc ((h.wellFormed cpu).enqueue hq) hm, hm⟩

theorem Owned.pull (h : s.Owned) (hx : s.Held x (.queue cpu)) (hq : q.WellFormed)
    (ht : q.tasks = (s.queues cpu).tasks.erase x) :
    (s.setQueue cpu q).Owned ∧ Moves s (s.setQueue cpu q) x none := by
  have hm : Moves s (s.setQueue cpu q) x none := by
    refine h.moves_out hx (fun t p hp ↦ ?_) fun t ↦ ?_
    · rw [held_setQueue, if_neg hp]
    · rw [held_setQueue, if_pos rfl, ht, (h.wellFormed cpu).nodup.mem_erase_iff]
      rfl
  exact ⟨h.setQueue (h.lt_of_held hx) hq hm, hm⟩

theorem Owned.start (h : s.Owned) (hc : cpu < s.cpuCount) (hx : ∀ p, ¬ s.Held x p) (h0 : x ≠ 0)
    (hi : (s.runtime cpu).current = none) (hr : r.current = some x) :
    (s.setRuntime cpu r).Owned ∧ Moves s (s.setRuntime cpu r) x (some (.running cpu)) := by
  have hm : Moves s (s.setRuntime cpu r) x (some (.running cpu)) := by
    refine moves_in hx (fun t p hp ↦ ?_) fun t ↦ ?_
    · rw [held_setRuntime, if_neg hp]
    · rw [held_setRuntime, if_pos rfl, hr, Held, hi]
      simp [eq_comm]
  refine ⟨h.setRuntime hc (fun t ht ↦ ?_) hm, hm⟩
  obtain rfl := Option.some.inj (hr.symm.trans ht)
  exact h0

theorem Owned.stop (h : s.Owned) (hx : s.Held x (.running cpu)) (hr : r.current = none) :
    (s.setRuntime cpu r).Owned ∧ Moves s (s.setRuntime cpu r) x none := by
  have hm : Moves s (s.setRuntime cpu r) x none := by
    have hcur : (s.runtime cpu).current = some x := hx
    refine h.moves_out hx (fun t p hp ↦ ?_) fun t ↦ ?_
    · rw [held_setRuntime, if_neg hp]
    · rw [held_setRuntime, if_pos rfl, hr, Held, hcur]
      refine iff_of_false (Option.some_ne_none t).symm ?_
      rintro ⟨hne, he⟩
      exact hne (Option.some.inj he).symm
  exact ⟨h.setRuntime (h.lt_of_held hx) (fun t ht ↦ by rw [hr] at ht; cases ht) hm, hm⟩

theorem Moves.gone (h : Moves s s' x none) (p : Place) : ¬ s'.Held x p := by
  rw [h.held_iff]
  exact nofun

end Moves

theorem current_of_held (h : ∀ t p, s'.Held t p ↔ s.Held t p) (c : ℕ) :
    (s'.runtime c).current = (s.runtime c).current :=
  Option.ext fun t ↦ h t (.running c)

theorem Moves.current (hm : Moves s s' x dst) (hdst : dst ≠ some (.running c))
    (hx : (s.runtime c).current ≠ some x) : (s'.runtime c).current = (s.runtime c).current := by
  ext t
  rw [show ((s'.runtime c).current = some t ↔ _) from hm t (.running c)]
  split_ifs with ht
  · subst ht
    exact ⟨fun h ↦ absurd h hdst, fun h ↦ absurd h hx⟩
  · rfl

theorem Moves.current_left (hm : Moves s s' x dst) (hdst : dst ≠ some (.running c))
    (hx : (s.runtime c).current = some x) : (s'.runtime c).current = none := by
  rw [Option.eq_none_iff_forall_ne_some]
  intro t ht
  have hheld := (hm t (.running c)).mp ht
  split_ifs at hheld with he
  · exact hdst hheld
  · exact he (Option.some.inj ((show (s.runtime c).current = some t from hheld).symm.trans hx))

theorem Owned.not_running (h : s.Owned) (hx : x ∈ (s.queues cpu).tasks) (c : ℕ) :
    (s.runtime c).current ≠ some x := by
  intro hrun
  cases h.single (show s.Held x (.queue cpu) from hx) (show s.Held x (.running c) from hrun)

theorem Owned.not_running_ne (h : s.Owned) (hx : (s.runtime cpu).current = some x) (hc : c ≠ cpu) :
    (s.runtime c).current ≠ some x := by
  intro hrun
  cases h.single (show s.Held x (.running cpu) from hx) (show s.Held x (.running c) from hrun)
  exact hc rfl

theorem mem_of_foldl {f : Option ℕ → ℕ → Option ℕ} {l : List ℕ} {b : Option ℕ} {v : ℕ}
    (hf : ∀ b a, f b a = b ∨ f b a = some a) (h : l.foldl f b = some v) : b = some v ∨ v ∈ l := by
  induction l generalizing b with
  | nil => exact .inl h
  | cons c l ih =>
    rcases ih h with hb | hv
    · rcases hf b c with hkeep | htake
      · exact .inl (hkeep.symm.trans hb)
      · have hc : c = v := Option.some.inj (htake.symm.trans hb)
        exact .inr (hc ▸ List.mem_cons_self)
    · exact .inr (List.mem_cons_of_mem _ hv)

theorem busiest_mem {v : ℕ} {candidates : List ℕ} (h : s.busiest candidates = some v) :
    v ∈ candidates := by
  unfold busiest at h
  refine (mem_of_foldl ?_ h).resolve_left nofun
  intro b a
  cases b with
  | none => exact .inr rfl
  | some b =>
    dsimp only
    split_ifs
    · exact .inr rfl
    · exact .inl rfl

theorem victim_spec {v : ℕ} (h : s.victim cpu = some v) :
    v < s.cpuCount ∧ v ≠ cpu ∧ ∃ t, (s.queues v).tasks.head? = some t := by
  have hm := busiest_mem h
  simp only [List.mem_filter, List.mem_range, Bool.and_eq_true, bne_iff_ne] at hm
  refine ⟨hm.1, hm.2.1, ?_⟩
  cases ht : (s.queues v).tasks with
  | nil => exact absurd (by simp [CpuRunQueue.len, ht]) hm.2.2
  | cons t l => exact ⟨t, rfl⟩

theorem Owned.steal (h : s.Owned) (cpu : ℕ) :
    (∃ r, s.steal cpu = some (s, r) ∧ ∀ t, r ≠ .ok (some t)) ∨
    ∃ v t q s', cpu < s.cpuCount ∧ s.victim cpu = some v ∧ (s.queues v).tasks.head? = some t ∧
      s.steal cpu = some (s', .ok (some t)) ∧ s'.Owned ∧ Moves s s' t (some (.queue cpu)) ∧
      s'.cpuCount = s.cpuCount ∧ s'.runtime = s.runtime ∧ s'.queues cpu = q ∧
      q.tasks = (s.queues cpu).tasks ++ [t] := by
  unfold MultiCoreScheduler.steal
  split_ifs with hc hf
  · exact .inl ⟨_, rfl, nofun⟩
  · exact .inl ⟨_, rfl, nofun⟩
  cases hv : s.victim cpu with
  | none => exact .inl ⟨_, rfl, nofun⟩
  | some v =>
    obtain ⟨-, hne, t, ht⟩ := victim_spec hv
    have hmem : t ∈ (s.queues v).tasks := List.mem_of_mem_head? (by simp [ht])
    have hhead : (s.queues v).tasks.headD 0 = t := by
      rw [List.headD_eq_head?_getD, ht]
      rfl
    obtain ⟨hown, hpull⟩ := h.pull (show s.Held t (.queue v) from hmem)
      ((h.wellFormed v).remove t) (CpuRunQueue.remove_tasks _ t)
    have hthief : (s.setQueue v ((s.queues v).remove t).1).queues cpu = s.queues cpu := by
      simp [MultiCoreScheduler.setQueue, hne.symm]
    have hroom : (s.queues cpu).len < maxRunQueueTasks :=
      Nat.lt_of_le_of_ne (h.wellFormed cpu).fits hf
    have hfresh : t ∉ (s.queues cpu).tasks := fun hin ↦
      hne (Place.queue.inj (h.single (show s.Held t (.queue v) from hmem)
        (show s.Held t (.queue cpu) from hin)))
    have henq := CpuRunQueue.enqueue_of_room ((h.wellFormed v).nonzero t hmem) hfresh hroom
    have henq' : ((s.setQueue v ((s.queues v).remove t).1).queues cpu).enqueue t = _ :=
      (congrArg (·.enqueue t) hthief).trans henq
    obtain ⟨hown', hpush⟩ := hown.push (Nat.lt_of_not_le hc) hpull.gone henq'
    refine .inr ⟨v, t, ⟨(s.queues cpu).tasks ++ [t], (s.queues cpu).cursor⟩, _,
      Nat.lt_of_not_le hc, rfl, ht, ?_, hown', hpull.trans hpush, rfl, rfl, ?_, rfl⟩
    · simp only [hhead, hthief, henq]
    · simp [MultiCoreScheduler.setQueue]

inductive DispatchEffect (s : MultiCoreScheduler) (cpu : ℕ) (allowSteal : Bool)
    (s' : MultiCoreScheduler) : DispatchResult → Prop
  | invalidCpu : s.cpuCount ≤ cpu → s' = s → DispatchEffect s cpu allowSteal s' .invalidCpu
  | busy {t : TaskId} : cpu < s.cpuCount → (s.runtime cpu).current = some t → s' = s →
      DispatchEffect s cpu allowSteal s' (.busy t)
  | dispatched {t : TaskId} : (s.runtime cpu).current = none → t ∈ (s.queues cpu).tasks →
      Moves s s' t (some (.running cpu)) → DispatchEffect s cpu allowSteal s' (.dispatched t)
  | stole {t : TaskId} {v : ℕ} : allowSteal = true → (s.runtime cpu).current = none →
      (s.queues cpu).tasks = [] → s.victim cpu = some v → (s.queues v).tasks.head? = some t →
      Moves s s' t (some (.running cpu)) → DispatchEffect s cpu allowSteal s' (.stole t)
  | idle : cpu < s.cpuCount → (s.runtime cpu).current = none → (s.queues cpu).tasks = [] →
      (∀ t p, s'.Held t p ↔ s.Held t p) → DispatchEffect s cpu allowSteal s' .idle

theorem Owned.still (h : s.Owned) (hheld : ∀ t p, s'.Held t p ↔ s.Held t p) : Moves s s' 0 none := by
  intro t p
  rw [hheld]
  split_ifs with ht
  · subst ht
    refine ⟨fun hp ↦ ?_, nofun⟩
    cases p with
    | queue c => exact absurd rfl ((h.wellFormed c).nonzero 0 hp)
    | running c => exact absurd rfl (h.nonzero c 0 hp)
  · rfl

theorem Owned.stayIdle (h : s.Owned) (hc : cpu < s.cpuCount) :
    (s.stayIdle cpu).Owned ∧ ∀ t p, (s.stayIdle cpu).Held t p ↔ s.Held t p := by
  have hheld : ∀ t p, (s.stayIdle cpu).Held t p ↔ s.Held t p := by
    intro t p
    rw [MultiCoreScheduler.stayIdle, held_setRuntime]
    split_ifs with hp
    · subst hp
      rfl
    · rfl
  exact ⟨h.setRuntime hc (fun t ht ↦ h.nonzero cpu t ht) (h.still hheld), hheld⟩

theorem Owned.enter (h : s.Owned) {n : ℕ} (hc : cpu < s.cpuCount) (hi : (s.runtime cpu).current = none)
    (hx : s.Held x (.queue cpu)) (hq : q.WellFormed) (ht : q.tasks = (s.queues cpu).tasks.erase x) :
    ((s.setQueue cpu q).enter cpu x n).Owned ∧
      Moves s ((s.setQueue cpu q).enter cpu x n) x (some (.running cpu)) := by
  obtain ⟨hown, hpull⟩ := h.pull hx hq ht
  have h0 := (h.wellFormed cpu).nonzero x hx
  obtain ⟨hown', hstart⟩ := hown.start (r := { s.runtime cpu with
    current := some x
    dispatches := (s.runtime cpu).dispatches + 1
    steals := (s.runtime cpu).steals + n }) hc hpull.gone h0 hi rfl
  exact ⟨hown', hpull.trans hstart⟩

theorem Owned.dispatch (h : s.Owned) (cpu : ℕ) (allowSteal : Bool) :
    ∃ s' r, s.dispatchExcludingMode cpu none allowSteal = some (s', r) ∧ s'.Owned ∧
      DispatchEffect s cpu allowSteal s' r := by
  unfold dispatchExcludingMode
  by_cases hc : s.cpuCount ≤ cpu
  · exact ⟨s, .invalidCpu, if_pos hc, h, .invalidCpu hc rfl⟩
  rw [if_neg hc]
  have hlt := Nat.lt_of_not_le hc
  cases hi : (s.runtime cpu).current with
  | some t => exact ⟨_, _, rfl, h, .busy hlt hi rfl⟩
  | none =>
    rcases CpuRunQueue.popNext_cases (h.wellFormed cpu) with ⟨hnil, hpop⟩ | ⟨x, q, hpop, hx, hq, ht⟩
    · obtain ⟨hidle, hsame⟩ := h.stayIdle hlt
      simp only [hpop, setQueue_self]
      cases allowSteal with
      | false => exact ⟨_, _, rfl, hidle, .idle hlt hi hnil hsame⟩
      | true =>
        rcases h.steal cpu with ⟨r, hs, hr⟩ |
          ⟨v, t, q₁, s₁, -, hv, hhead, hs, hown, hm, hcount, hrt, hq₁, htasks⟩
        · simp only [hs, if_true]
          exact ⟨_, _, rfl, hidle, .idle hlt hi hnil hsame⟩
        · have hone : (s₁.queues cpu).tasks = [t] := by rw [hq₁, htasks, hnil]; rfl
          obtain ⟨q, hpop', hq, ht⟩ := CpuRunQueue.popNext_singleton (hown.wellFormed cpu) hone
          obtain ⟨hown', hm'⟩ := hown.enter (n := 1) (hcount ▸ hlt) (hrt ▸ hi)
            (hm.held_iff.mpr rfl) hq ht
          simp only [hs, hpop', if_true, Option.getD_some]
          exact ⟨_, _, rfl, hown', .stole rfl hi hnil hv hhead (hm.trans hm')⟩
    · obtain ⟨hown, hm⟩ := h.enter (n := 0) hlt hi hx hq ht
      simp only [hpop]
      exact ⟨_, _, rfl, hown, .dispatched hi hx hm⟩

theorem Owned.putBack (h : s.Owned) (hx : (s.runtime cpu).current = some x) :
    (s.complete cpu).1.Owned ∧
    ((s.queues cpu).len < maxRunQueueTasks ∧ (s.complete cpu).2 = .ok (some x) ∧
        Moves s (s.complete cpu).1 x (some (.queue cpu)) ∨
      (s.queues cpu).len = maxRunQueueTasks ∧ (s.complete cpu).2 = .error .full ∧
        Moves s (s.complete cpu).1 x none) := by
  have hc : ¬ s.cpuCount ≤ cpu := by
    intro hc
    cases ((h.beyond cpu hc).2).symm.trans hx
  have hfresh : x ∉ (s.queues cpu).tasks := by
    intro hin
    cases h.single (show s.Held x (.queue cpu) from hin) (show s.Held x (.running cpu) from hx)
  obtain ⟨hown, hstop⟩ := h.stop (r := { s.runtime cpu with current := none }) hx rfl
  rw [MultiCoreScheduler.complete, if_neg hc, hx]
  dsimp only
  rcases Nat.lt_or_eq_of_le (h.wellFormed cpu).fits with hroom | hfull
  · have henq := CpuRunQueue.enqueue_of_room (h.nonzero cpu x hx) hfresh hroom
    obtain ⟨hown', hpush⟩ := hown.push (Nat.lt_of_not_le hc) hstop.gone henq
    rw [show ((s.setRuntime cpu { s.runtime cpu with current := none }).queues cpu).enqueue x = _ from henq]
    exact ⟨hown', .inl ⟨hroom, rfl, hstop.trans hpush⟩⟩
  · have henq := CpuRunQueue.enqueue_full (h.nonzero cpu x hx) hfresh hfull
    rw [show ((s.setRuntime cpu { s.runtime cpu with current := none }).queues cpu).enqueue x = _ from henq]
    exact ⟨hown, .inr ⟨hfull, rfl, hstop⟩⟩

theorem complete_idle (hi : (s.runtime cpu).current = none) : (s.complete cpu).1 = s := by
  unfold MultiCoreScheduler.complete
  split_ifs
  · rfl
  · rw [hi]

theorem Owned.complete (h : s.Owned) (cpu : ℕ) : (s.complete cpu).1.Owned ∧
    (((s.runtime cpu).current = none ∧ (s.complete cpu).1 = s) ∨
      ∃ x dst, (s.runtime cpu).current = some x ∧ (dst = none ∨ dst = some (.queue cpu)) ∧
        Moves s (s.complete cpu).1 x dst) := by
  cases hi : (s.runtime cpu).current with
  | none => exact ⟨(complete_idle hi).symm ▸ h, .inl ⟨rfl, complete_idle hi⟩⟩
  | some x =>
    obtain ⟨hown, ⟨-, -, hm⟩ | ⟨-, -, hm⟩⟩ := h.putBack hi
    · exact ⟨hown, .inr ⟨x, _, rfl, .inr rfl, hm⟩⟩
    · exact ⟨hown, .inr ⟨x, _, rfl, .inl rfl, hm⟩⟩

theorem Moves.complete (hm : Moves s s' x (some (.running cpu))) (hown : s'.Owned) :
    ∃ dst, (dst = none ∨ dst = some (.queue cpu)) ∧ Moves s (s'.complete cpu).1 x dst := by
  have hcur : (s'.runtime cpu).current = some x := hm.held_iff.mpr rfl
  obtain ⟨-, ⟨hnone, -⟩ | ⟨y, dst, hy, hdst, hm'⟩⟩ := hown.complete cpu
  · cases hcur.symm.trans hnone
  · obtain rfl := Option.some.inj (hcur.symm.trans hy)
    exact ⟨dst, hdst, hm.trans hm'⟩

theorem selectCpu_eq (s : MultiCoreScheduler) :
    s.selectCpu = Search.least (fun cpu ↦ (s.queues cpu).len) (s.nextAssignment % s.cpuCount)
      ((List.range' 1 (s.cpuCount - 1)).map fun offset ↦ (s.nextAssignment + offset) % s.cpuCount) := by
  rw [Search.least, List.foldl_map]
  rfl

theorem Owned.selectCpu_lt (h : s.Owned) : s.selectCpu < s.cpuCount := by
  have hpos := h.count_pos
  rw [selectCpu_eq]
  rcases List.mem_cons.mp (Search.least_mem (fun cpu ↦ (s.queues cpu).len) _ _) with heq | hmem
  · rw [heq]
    exact Nat.mod_lt _ hpos
  · obtain ⟨offset, -, heq⟩ := List.mem_map.mp hmem
    rw [← heq]
    exact Nat.mod_lt _ hpos

theorem Owned.enqueue (h : s.Owned) (x : TaskId) : (s.enqueue x).1.Owned ∧
    ((s.enqueue x).1 = s ∨
      (∀ p, ¬ s.Held x p) ∧ ∃ cpu, Moves s (s.enqueue x).1 x (some (.queue cpu))) := by
  unfold MultiCoreScheduler.enqueue
  split_ifs with h0 hd
  · exact ⟨h, .inl rfl⟩
  · exact ⟨h, .inl rfl⟩
  · dsimp only
    split
    · exact ⟨h, .inl rfl⟩
    · next q hq =>
      have hx : ∀ p, ¬ s.Held x p := fun p hp ↦ hd (h.owns_iff.mpr ⟨p, hp⟩)
      obtain ⟨hown, hm⟩ := h.push h.selectCpu_lt hx hq
      exact ⟨⟨hown.count_pos, hown.count_le, hown.wellFormed, hown.nonzero, hown.beyond,
        hown.single⟩, .inr ⟨hx, _, hm⟩⟩

theorem Owned.enqueueOnCpu (h : s.Owned) (cpu : ℕ) (x : TaskId) : (s.enqueueOnCpu cpu x).1.Owned ∧
    ((s.enqueueOnCpu cpu x).1 = s ∨
      (∀ p, ¬ s.Held x p) ∧ ∃ cpu', Moves s (s.enqueueOnCpu cpu x).1 x (some (.queue cpu'))) := by
  unfold MultiCoreScheduler.enqueueOnCpu
  split_ifs with hc h0 hd
  · exact ⟨h, .inl rfl⟩
  · exact ⟨h, .inl rfl⟩
  · exact ⟨h, .inl rfl⟩
  · split
    · exact ⟨h, .inl rfl⟩
    · next q hq =>
      have hx : ∀ p, ¬ s.Held x p := fun p hp ↦ hd (h.owns_iff.mpr ⟨p, hp⟩)
      obtain ⟨hown, hm⟩ := h.push (Nat.lt_of_not_le hc) hx hq
      exact ⟨hown, .inr ⟨hx, _, hm⟩⟩

theorem Owned.dequeue (h : s.Owned) (cpu : ℕ) (x : TaskId) : (s.dequeue cpu x).1.Owned ∧
    ((s.dequeue cpu x).1 = s ∨
      Moves s (s.dequeue cpu x).1 x none ∧ (s.dequeue cpu x).2 = .ok true) := by
  unfold MultiCoreScheduler.dequeue
  split_ifs with hc hr
  · exact ⟨h, .inl rfl⟩
  · obtain ⟨hown, hm⟩ := h.stop (r := { s.runtime cpu with current := none }) hr rfl
    exact ⟨hown, .inr ⟨hm, rfl⟩⟩
  · by_cases hx : x ∈ (s.queues cpu).tasks
    · obtain ⟨hown, hm⟩ := h.pull (show s.Held x (.queue cpu) from hx)
        ((h.wellFormed cpu).remove x) (CpuRunQueue.remove_tasks _ x)
      exact ⟨hown, .inr ⟨hm, by simp [CpuRunQueue.remove, CpuRunQueue.contains, hx]⟩⟩
    · have hkeep : (s.queues cpu).remove x = (s.queues cpu, false) := by
        simp [CpuRunQueue.remove, CpuRunQueue.contains, hx]
      have hself := setQueue_self s cpu
      have hown : (s.setQueue cpu (s.queues cpu)).Owned := by
        rw [hself]
        exact h
      rw [hkeep]
      exact ⟨hown, .inl hself⟩

theorem Owned.pickNext (h : s.Owned) (cpu : ℕ) :
    (s.pickNext cpu).1.Owned ∧ ∀ t p, (s.pickNext cpu).1.Held t p ↔ s.Held t p := by
  unfold MultiCoreScheduler.pickNext
  split_ifs with hc
  · exact ⟨h, fun _ _ ↦ Iff.rfl⟩
  cases hn : (s.queues cpu).next with
  | none => exact ⟨h, fun _ _ ↦ Iff.rfl⟩
  | some r =>
    obtain ⟨-, htasks, -⟩ := CpuRunQueue.next_spec hn
    have hheld : ∀ t p, (s.setQueue cpu r.2).Held t p ↔ s.Held t p := by
      intro t p
      rw [held_setQueue, htasks]
      split_ifs with hp
      · subst hp
        rfl
      · rfl
    exact ⟨h.setQueue (Nat.lt_of_not_le hc) ((h.wellFormed cpu).next hn) (h.still hheld), hheld⟩

end MultiCoreScheduler

end BraneKernel
