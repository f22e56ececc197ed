import BraneKernel.Basic
import Mathlib.Data.List.Basic
import Mathlib.Data.List.Nodup

namespace BraneKernel

def maxTasks : ℕ := 64

def maxRunQueueTasks : ℕ := maxTasks

inductive RunQueueError
  | invalidCpu | invalidTask | full | duplicate
  deriving DecidableEq

/-- The entries of a per-CPU queue, oldest first, with the round-robin cursor. -/
structure CpuRunQueue where
  tasks : List TaskId
  cursor : ℕ
  deriving DecidableEq

namespace CpuRunQueue

def new : CpuRunQueue := ⟨[], 0⟩

def len (q : CpuRunQueue) : ℕ := q.tasks.length

def contains (q : CpuRunQueue) (taskId : TaskId) : Bool := q.tasks.contains taskId

def enqueue (q : CpuRunQueue) (taskId : TaskId) : Except RunQueueError CpuRunQueue :=
  if taskId = 0 then .error .invalidTask
  else if q.contains taskId then .error .duplicate
  else if q.len = maxRunQueueTasks then .error .full
  else .ok ⟨q.tasks ++ [taskId], q.cursor⟩

def remove (q : CpuRunQueue) (taskId : TaskId) : CpuRunQueue × Bool :=
  if q.contains taskId then
    let tasks := q.tasks.erase taskId
    (⟨tasks, if tasks.length = 0 then 0 else q.cursor % tasks.length⟩, true)
  else (q, false)

def next (q : CpuRunQueue) : Option (TaskId × CpuRunQueue) :=
  if q.len = 0 then none
  else (q.tasks[q.cursor % q.len]?).map fun taskId ↦ (taskId, ⟨q.tasks, (q.cursor + 1) % q.len⟩)

def popLoop (excluded : Option TaskId) : ℕ → CpuRunQueue → Option TaskId × CpuRunQueue
  | 0, q => (none, q)
  | n + 1, q =>
    match q.next with
    | none => (none, q)
    | some (taskId, q) =>
      if some taskId ≠ excluded then (some taskId, (q.remove taskId).1) else popLoop excluded n q

def popNextExcluding (q : CpuRunQueue) (excluded : Option TaskId) : Option TaskId × CpuRunQueue :=
  popLoop excluded q.len q

/-- Distinct non-zero entries, no more than fit, and a cursor inside the queue. -/
structure WellFormed (q : CpuRunQueue) : Prop where
  nodup : q.tasks.Nodup
  nonzero : ∀ t ∈ q.tasks, t ≠ 0
  fits : q.len ≤ maxRunQueueTasks
  cursor : q.cursor < q.len ∨ q.cursor = 0

theorem wellFormed_new : WellFormed new :=
  ⟨List.nodup_nil, by simp [new], by simp [new, len], .inr rfl⟩

variable {q q' : CpuRunQueue} {t x : TaskId}

theorem enqueue_ok (h : q.enqueue x = .ok q') :
    x ≠ 0 ∧ x ∉ q.tasks ∧ q.len ≠ maxRunQueueTasks ∧ q' = ⟨q.tasks ++ [x], q.cursor⟩ := by
  unfold enqueue at h
  split_ifs at h with h0 hd hf
  cases h
  exact ⟨h0, by simpa [contains] using hd, hf, rfl⟩

theorem enqueue_of_room (h0 : x ≠ 0) (hx : x ∉ q.tasks) (hl : q.len < maxRunQueueTasks) :
    q.enqueue x = .ok ⟨q.tasks ++ [x], q.cursor⟩ := by
  have hd : ¬ q.contains x = true := by simpa [contains] using hx
  rw [enqueue, if_neg h0, if_neg hd, if_neg (by omega)]

theorem enqueue_full (h0 : x ≠ 0) (hx : x ∉ q.tasks) (hl : q.len = maxRunQueueTasks) :
    q.enqueue x = .error .full := by
  have hd : ¬ q.contains x = true := by simpa [contains] using hx
  rw [enqueue, if_neg h0, if_neg hd, if_pos hl]

theorem WellFormed.enqueue (hq : q.WellFormed) (h : q.enqueue x = .ok q') : q'.WellFormed := by
  obtain ⟨h0, hx, hl, rfl⟩ := enqueue_ok h
  have hfits := hq.fits
  refine ⟨?_, ?_, ?_, ?_⟩
  · rw [List.nodup_append]
    exact ⟨hq.nodup, by simp, fun a ha b hb he ↦ hx (by simp_all)⟩
  · intro t ht
    rw [List.mem_append, List.mem_singleton] at ht
    rcases ht with ht | rfl
    · exact hq.nonzero t ht
    · exact h0
  · simp only [len, List.length_append, List.length_singleton] at hfits hl ⊢
    omega
  · rcases hq.cursor with hc | hc
    · exact .inl (by simp only [len, List.length_append, List.length_singleton] at hc ⊢; omega)
    · exact .inr hc

theorem remove_tasks (q : CpuRunQueue) (x : TaskId) : (q.remove x).1.tasks = q.tasks.erase x := by
  unfold remove
  split_ifs with h
  · rfl
  · have hx : x ∉ q.tasks := by simpa [contains] using h
    exact (List.erase_of_not_mem hx).symm

theorem WellFormed.remove (hq : q.WellFormed) (x : TaskId) : (q.remove x).1.WellFormed := by
  have htasks := remove_tasks q x
  have hsub : (q.tasks.erase x).length ≤ q.tasks.length := List.length_erase_le
  refine ⟨?_, ?_, ?_, ?_⟩
  · rw [htasks]
    exact hq.nodup.erase x
  · rw [htasks]
    exact fun t ht ↦ hq.nonzero t (List.mem_of_mem_erase ht)
  · rw [len, htasks]
    exact Nat.le_trans hsub hq.fits
  · unfold CpuRunQueue.remove
    split_ifs with h
    · dsimp only [len]
      split_ifs with h0
      · exact .inr rfl
      · exact .inl (Nat.mod_lt _ (by omega))
    · exact hq.cursor

theorem next_spec (h : q.next = some (x, q')) :
    x ∈ q.tasks ∧ q'.tasks = q.tasks ∧ q'.cursor < q.len := by
  unfold next at h
  split_ifs at h with h0
  obtain ⟨y, hy, he⟩ := Option.map_eq_some_iff.mp h
  cases he
  exact ⟨List.mem_of_getElem? hy, rfl, Nat.mod_lt _ (by omega)⟩

theorem next_isSome (h : q.tasks ≠ []) : ∃ x q', q.next = some (x, q') := by
  have h0 : q.len ≠ 0 := by simpa [len] using h
  have hlt : q.cursor % q.len < q.tasks.length := Nat.mod_lt _ (by omega)
  exact ⟨_, _, by rw [next, if_neg h0, List.getElem?_eq_getElem hlt]; rfl⟩

theorem WellFormed.next (hq : q.WellFormed) (h : q.next = some (x, q')) : q'.WellFormed := by
  obtain ⟨-, ht, hc⟩ := next_spec h
  refine ⟨?_, ?_, ?_, .inl ?_⟩
  · rw [ht]; exact hq.nodup
  · rw [ht]; exact hq.nonzero
  · rw [len, ht]; exact hq.fits
  · rw [len, ht]; exact hc

theorem popNext_cases (hq : q.WellFormed) :
    (q.tasks = [] ∧ q.popNextExcluding none = (none, q)) ∨
    ∃ x q', q.popNextExcluding none = (some x, q') ∧ x ∈ q.tasks ∧ q'.WellFormed ∧
      q'.tasks = q.tasks.erase x := by
  by_cases h : q.tasks = []
  · exact .inl ⟨h, by simp [popNextExcluding, len, h, popLoop]⟩
  · obtain ⟨x, q₁, hn⟩ := next_isSome h
    obtain ⟨n, hl⟩ : ∃ n, q.len = n + 1 :=
      Nat.exists_eq_succ_of_ne_zero (by simpa [len] using h)
    obtain ⟨hx, ht, -⟩ := next_spec hn
    refine .inr ⟨x, (q₁.remove x).1, ?_, hx, (hq.next hn).remove x, ?_⟩
    · simp [popNextExcluding, hl, popLoop, hn]
    · rw [remove_tasks, ht]

theorem popNext_singleton {q : CpuRunQueue} {t : TaskId} (h : q.WellFormed) (hone : q.tasks = [t]) :
    ∃ q', q.popNextExcluding none = (some t, q') ∧ q'.WellFormed ∧ q'.tasks = q.tasks.erase t := by
  rcases popNext_cases h with ⟨hnil, -⟩ | ⟨x, q', hpop, hx, hq, htasks⟩
  · cases hone.symm.trans hnil
  · rw [hone, List.mem_singleton] at hx
    subst hx
    exact ⟨q', hpop, hq, htasks⟩

end CpuRunQueue

end BraneKernel
