import BraneKernel.Lib.Rotation
import BraneKernel.Sched.Operations
import Mathlib.Data.List.Perm.Basic

namespace BraneKernel

open Rotation

namespace CpuRunQueue

def selected (q : CpuRunQueue) : TaskId := q.tasks.getD q.cursor 0

def rotated (q : CpuRunQueue) : CpuRunQueue :=
  ⟨toBack q.tasks q.selected, (q.cursor + 1) % q.len % (q.len - 1)⟩

variable {q : CpuRunQueue}

section

variable (hq : q.WellFormed) (hne : q.tasks ≠ [])
include hq hne

theorem WellFormed.cursor_lt : q.cursor < q.len := by
  have hpos : 0 < q.len := List.length_pos_iff.mpr hne
  rcases hq.cursor with hc | hc <;> omega

theorem WellFormed.getElem?_cursor :
    q.tasks[q.cursor]? = some q.selected := by
  have hc : q.cursor < q.tasks.length := hq.cursor_lt hne
  rw [selected, List.getD_eq_getElem?_getD, List.getElem?_eq_getElem hc, Option.getD_some]

theorem WellFormed.selected_mem : q.selected ∈ q.tasks :=
  List.mem_of_getElem? (hq.getElem?_cursor hne)

theorem popNext_selected :
    q.popNextExcluding none = (some q.selected,
      ⟨q.tasks.erase q.selected, (q.cursor + 1) % q.len % (q.len - 1)⟩) := by
  have hpos : q.len ≠ 0 := by simpa [len] using hne
  have hmem := hq.selected_mem hne
  have hnext : q.next = some (q.selected, ⟨q.tasks, (q.cursor + 1) % q.len⟩) := by
    rw [next, if_neg hpos, Nat.mod_eq_of_lt (hq.cursor_lt hne), hq.getElem?_cursor hne]
    rfl
  have hlen : (q.tasks.erase q.selected).length = q.len - 1 := List.length_erase_of_mem hmem
  have hcursor : (if q.len - 1 = 0 then 0 else (q.cursor + 1) % q.len % (q.len - 1)) =
      (q.cursor + 1) % q.len % (q.len - 1) := by
    split_ifs with h
    · rw [show q.len = 1 by omega, Nat.mod_one, Nat.zero_mod]
    · rfl
  obtain ⟨n, hn⟩ := Nat.exists_eq_succ_of_ne_zero hpos
  have hin : contains ⟨q.tasks, (q.cursor + 1) % q.len⟩ q.selected = true := by
    simpa [contains] using hmem
  rw [popNextExcluding, hn, popLoop, hnext]
  dsimp only
  rw [if_pos (by simp), remove, if_pos hin]
  dsimp only
  rw [hlen, hcursor, ← hn]

theorem putBack_selected :
    enqueue ⟨q.tasks.erase q.selected, (q.cursor + 1) % q.len % (q.len - 1)⟩ q.selected =
      .ok q.rotated := by
  have hmem := hq.selected_mem hne
  have hlen : (q.tasks.erase q.selected).length = q.len - 1 := List.length_erase_of_mem hmem
  have hfits := hq.fits
  have hpos : 0 < q.len := List.length_pos_iff.mpr hne
  refine enqueue_of_room (hq.nonzero _ hmem) hq.nodup.not_mem_erase ?_
  rw [len, hlen]
  omega

theorem WellFormed.rotated : q.rotated.WellFormed := by
  rcases popNext_cases hq with ⟨hnil, -⟩ | ⟨x, q', hpop, -, hq', -⟩
  · exact absurd hnil hne
  · cases (popNext_selected hq hne).symm.trans hpop
    exact hq'.enqueue (putBack_selected hq hne)

theorem iterate_rotated (k : ℕ) :
    (rotated^[k] q).WellFormed ∧ (rotated^[k] q).tasks ≠ [] := by
  induction k with
  | zero => exact ⟨hq, hne⟩
  | succ k ih =>
    rw [Function.iterate_succ_apply']
    exact ⟨ih.1.rotated ih.2, List.concat_ne_nil _ _⟩

end

def selections (q : CpuRunQueue) (k : ℕ) : TaskId := (rotated^[k] q).selected

theorem selections_add (q : CpuRunQueue) (k i : ℕ) :
    q.selections (k + i) = (rotated^[k] q).selections i := by
  rw [selections, selections, Nat.add_comm, Function.iterate_add_apply]

theorem tasks_succ (q : CpuRunQueue) (k : ℕ) :
    (rotated^[k + 1] q).tasks = toBack (rotated^[k] q).tasks (q.selections k) := by
  rw [Function.iterate_succ_apply']
  rfl

theorem window_selections (q : CpuRunQueue) (k n : ℕ) :
    window q.selections k n = window (rotated^[k] q).selections 0 n := by
  simp only [window, selections_add, Nat.zero_add]

section Turns

variable (hq : q.WellFormed) (hne : q.tasks ≠ [])

include hq hne

theorem selections_mem (k : ℕ) : q.selections k ∈ (rotated^[k] q).tasks := by
  obtain ⟨hq', hne'⟩ := iterate_rotated hq hne k
  exact hq'.selected_mem hne'

theorem perm_rotated (k : ℕ) : (rotated^[k] q).tasks.Perm q.tasks :=
  perm_start (t := fun k ↦ (rotated^[k] q).tasks) (tasks_succ q) (selections_mem hq hne) k

theorem cursor_of_front (h : q.tasks[0]? = some q.selected) : q.cursor = 0 := by
  have hpos : 0 < q.tasks.length := List.length_pos_iff.mpr hne
  exact ((List.getElem?_inj hpos hq.nodup).mp (h.trans (hq.getElem?_cursor hne).symm)).symm

theorem selections_front (hfair : Rotation.Fair q.selections q.tasks) (k : ℕ) :
    (rotated^[k + q.len] q).cursor = 0 := by
  obtain ⟨hq', hne'⟩ := iterate_rotated hq hne (k + q.len)
  exact cursor_of_front hq' hne' (hfair.front (t := fun k ↦ (rotated^[k] q).tasks) (tasks_succ q)
    (selections_mem hq hne) hq.nodup k)

theorem len_le_two_of_fair (hfair : Rotation.Fair q.selections q.tasks) : q.len ≤ 2 := by
  by_contra hlen
  have hnow : (rotated^[q.len] q).cursor = 0 := by
    simpa using selections_front hq hne hfair 0
  have hthen : (rotated^[q.len] q).rotated.cursor = 0 := by
    have hone := selections_front hq hne hfair 1
    rwa [Nat.add_comm, Function.iterate_succ_apply'] at hone
  have hsame : (rotated^[q.len] q).len = q.len := (perm_rotated hq hne q.len).length_eq
  have hone : (0 + 1) % q.len = 1 := Nat.mod_eq_of_lt (by omega)
  rw [rotated, hnow, hsame, hone, Nat.mod_eq_of_lt (by omega)] at hthen
  cases hthen

theorem window_of_len_le_two (hlen : q.len ≤ 2) :
    (window q.selections 0 q.len).Perm q.tasks := by
  have hcursor := hq.cursor_lt hne
  obtain ⟨tasks, cursor⟩ := q
  match tasks with
  | [a] =>
    obtain rfl : cursor = 0 := by simpa [len] using hcursor
    exact .refl _
  | [a, b] =>
    have hab : a ≠ b := by simpa using hq.nodup
    obtain rfl | rfl : cursor = 0 ∨ cursor = 1 := by
      simp only [len, List.length_cons, List.length_nil] at hcursor
      omega
    · simp [window, selections, rotated, selected, toBack, len, List.range_succ]
    · simpa [window, selections, rotated, selected, toBack, len, List.range_succ,
        List.erase_cons, hab] using List.Perm.swap a b []
  | a :: b :: c :: tasks => simp [len] at hlen

theorem fair_iff : Rotation.Fair q.selections q.tasks ↔ q.len ≤ 2 := by
  refine ⟨len_le_two_of_fair hq hne, fun hlen k ↦ ?_⟩
  obtain ⟨hq', hne'⟩ := iterate_rotated hq hne k
  have hperm := perm_rotated hq hne k
  have hsame : (rotated^[k] q).len = q.len := hperm.length_eq
  have hturn := window_of_len_le_two hq' hne' (hsame ▸ hlen)
  rw [hsame, ← window_selections] at hturn
  exact hturn.trans hperm

end Turns

end CpuRunQueue

namespace MultiCoreScheduler

open CpuRunQueue

def turns (cpu : ℕ) : ℕ → MultiCoreScheduler → Option (MultiCoreScheduler × List DispatchResult)
  | 0, s => some (s, [])
  | k + 1, s =>
    (s.dispatch cpu).bind fun (s, result) ↦
      (turns cpu k (s.complete cpu).1).map fun (s, results) ↦ (s, result :: results)

/-- After any number of turns, as many turns as there are tasks select each of
the tasks once. -/
def RoundRobin (s : MultiCoreScheduler) (cpu : ℕ) : Prop :=
  ∀ k, ∃ s₁ s₂ before after, s.turns cpu k = some (s₁, before) ∧
    s₁.turns cpu (s.queues cpu).len = some (s₂, after) ∧
    after.Perm ((s.queues cpu).tasks.map .dispatched)

variable {s : MultiCoreScheduler} {cpu : ℕ}

theorem complete_entered {q q' : CpuRunQueue} {x : TaskId} (hc : cpu < s.cpuCount)
    (hq : q.enqueue x = .ok q') : ∃ s', (((s.setQueue cpu q).enter cpu x 0).complete cpu).1 = s' ∧
      s'.cpuCount = s.cpuCount ∧ (s'.runtime cpu).current = none ∧ s'.queues cpu = q' := by
  have hcount : ¬ ((s.setQueue cpu q).enter cpu x 0).cpuCount ≤ cpu := Nat.not_le.mpr hc
  have hcur : (((s.setQueue cpu q).enter cpu x 0).runtime cpu).current = some x := by
    simp [enter, setRuntime]
  have hqueue : ∀ r, ((((s.setQueue cpu q).enter cpu x 0).setRuntime cpu r).queues cpu) = q := by
    simp [enter, setRuntime, setQueue]
  rw [complete, if_neg hcount, hcur]
  dsimp only
  rw [hqueue, hq]
  exact ⟨_, rfl, rfl, by simp [setQueue, setRuntime], by simp [setQueue]⟩

section

variable (hc : cpu < s.cpuCount) (hidle : (s.runtime cpu).current = none)
  (hq : (s.queues cpu).WellFormed) (hne : (s.queues cpu).tasks ≠ [])
include hc hidle hq hne

theorem turn :
    ∃ s' s'', s.dispatch cpu = some (s', .dispatched (s.queues cpu).selected) ∧
      (s'.complete cpu).1 = s'' ∧ s''.cpuCount = s.cpuCount ∧ (s''.runtime cpu).current = none ∧
      s''.queues cpu = (s.queues cpu).rotated := by
  have hcount : ¬ s.cpuCount ≤ cpu := Nat.not_le.mpr hc
  obtain ⟨s'', hs''⟩ := complete_entered hc (putBack_selected hq hne)
  refine ⟨_, s'', ?_, hs''⟩
  rw [dispatch, dispatchExcludingMode, if_neg hcount, hidle]
  dsimp only
  rw [popNext_selected hq hne]

theorem turns_spec (k : ℕ) :
    ∃ s', s.turns cpu k =
        some (s', (window (s.queues cpu).selections 0 k).map .dispatched) ∧
      s'.cpuCount = s.cpuCount ∧ (s'.runtime cpu).current = none ∧
      s'.queues cpu = rotated^[k] (s.queues cpu) := by
  induction k generalizing s with
  | zero => exact ⟨s, rfl, rfl, hidle, rfl⟩
  | succ k ih =>
    obtain ⟨s₁, s₂, hd, hs₂, hcount, hidle₂, hq₂⟩ := turn hc hidle hq hne
    obtain ⟨hwf, hne₂⟩ := iterate_rotated hq hne 1
    obtain ⟨s', hs', hcount', hidle', hq'⟩ :=
      ih (s := s₂) (hcount ▸ hc) hidle₂ (hq₂ ▸ hwf) (hq₂ ▸ hne₂)
    refine ⟨s', ?_, hcount'.trans hcount, hidle', ?_⟩
    · have hw := window_selections (s.queues cpu) 1 k
      rw [turns, hd, Option.bind_some]
      dsimp only
      rw [hs₂, hs', hq₂, Option.map_some, window_cons, Nat.zero_add, hw]
      rfl
    · rw [hq', hq₂]
      rfl

theorem roundRobin_iff_fair :
    s.RoundRobin cpu ↔ Rotation.Fair (s.queues cpu).selections (s.queues cpu).tasks := by
  have hinj : Function.Injective DispatchResult.dispatched := fun a b h ↦
    DispatchResult.dispatched.inj h
  have hwindow : ∀ k, ∃ s₁ s₂ before, s.turns cpu k = some (s₁, before) ∧
      s₁.turns cpu (s.queues cpu).len = some (s₂, (window (s.queues cpu).selections k
        (s.queues cpu).len).map .dispatched) := by
    intro k
    obtain ⟨s₁, hs₁, hcount, hidle₁, hq₁⟩ := turns_spec hc hidle hq hne k
    obtain ⟨hwf, hne₁⟩ := iterate_rotated hq hne k
    obtain ⟨s₂, hs₂, -⟩ := turns_spec (s := s₁) (hcount ▸ hc) hidle₁ (hq₁ ▸ hwf) (hq₁ ▸ hne₁)
      (s.queues cpu).len
    rw [hq₁, ← window_selections] at hs₂
    exact ⟨s₁, s₂, _, hs₁, hs₂⟩
  constructor
  · intro h k
    obtain ⟨s₁, s₂, before, hs₁, hs₂⟩ := hwindow k
    obtain ⟨s₁', s₂', before', after, hs₁', hs₂', hperm⟩ := h k
    obtain ⟨rfl, -⟩ := Prod.mk.inj (Option.some.inj (hs₁.symm.trans hs₁'))
    obtain ⟨-, rfl⟩ := Prod.mk.inj (Option.some.inj (hs₂.symm.trans hs₂'))
    exact (List.map_perm_map_iff hinj).mp hperm
  · intro h k
    obtain ⟨s₁, s₂, before, hs₁, hs₂⟩ := hwindow k
    exact ⟨s₁, s₂, before, _, hs₁, hs₂, (h k).map _⟩

end

/-- Tasks that only run and return to the queue of their CPU take turns exactly
when there are no more than two of them. -/
theorem round_robin_iff_two (hc : cpu < s.cpuCount) (hidle : (s.runtime cpu).current = none)
    (hq : (s.queues cpu).WellFormed) (hne : (s.queues cpu).tasks ≠ []) :
    s.RoundRobin cpu ↔ (s.queues cpu).len ≤ 2 :=
  (roundRobin_iff_fair hc hidle hq hne).trans (fair_iff hq hne)

theorem round_robin_iff_two_pair : ∃ s,
    new.execAll [.configure 1, .enqueueOnCpu 0 7, .enqueueOnCpu 0 8] = some s ∧
      (s.queues 0).tasks = [7, 8] ∧ s.RoundRobin 0 := by
  obtain ⟨s, hs, hvalues⟩ := Option.map_eq_some_iff.mp
    (show (new.execAll [.configure 1, .enqueueOnCpu 0 7, .enqueueOnCpu 0 8]).map
        (fun s ↦ (s.cpuCount, (s.runtime 0).current, (s.queues 0).tasks)) =
      some (1, none, [7, 8]) by decide +kernel)
  rw [Prod.mk.injEq, Prod.mk.injEq] at hvalues
  obtain ⟨hcount, hidle, htasks⟩ := hvalues
  have hown := owned_run (run_execAll hs)
  refine ⟨s, hs, htasks, (round_robin_iff_two (by omega) hidle (hown.wellFormed 0) ?_).mpr ?_⟩
  · rw [htasks]
    exact List.cons_ne_nil _ _
  · rw [len, htasks]
    decide

/-- With three tasks, the second to the fourth dispatch select the last task
twice and the first not at all. -/
theorem three_tasks_take_no_turns : ∃ s s₁ s₂ before,
    new.execAll [.configure 1, .enqueueOnCpu 0 7, .enqueueOnCpu 0 8, .enqueueOnCpu 0 9] = some s ∧
      (s.queues 0).tasks = [7, 8, 9] ∧ s.turns 0 1 = some (s₁, before) ∧
      s₁.turns 0 3 = some (s₂, [.dispatched 9, .dispatched 8, .dispatched 9]) ∧
      ¬ s.RoundRobin 0 := by
  refine ⟨_, _, _, _, rfl, rfl, rfl, rfl, fun h ↦ ?_⟩
  obtain ⟨s₁, s₂, before, after, hs₁, hs₂, hperm⟩ := h 1
  cases hs₁
  cases hs₂
  exact absurd hperm (by decide +kernel)

end MultiCoreScheduler

end BraneKernel
