import BraneKernel.Sched.Operations

namespace BraneKernel.MultiCoreScheduler

variable {s s' : MultiCoreScheduler} {x : TaskId} {cpu : ℕ}

theorem selectCpu_le (h : cpu < s.cpuCount) :
    (s.queues s.selectCpu).len ≤ (s.queues cpu).len := by
  rw [selectCpu_eq]
  refine Search.least_le (fun cpu ↦ (s.queues cpu).len) _ _ cpu ?_
  have hstart : s.nextAssignment % s.cpuCount < s.cpuCount := Nat.mod_lt _ (by omega)
  rcases Nat.lt_trichotomy cpu (s.nextAssignment % s.cpuCount) with hlt | heq | hgt
  · refine List.mem_cons_of_mem _ (List.mem_map.mpr
      ⟨cpu + s.cpuCount - s.nextAssignment % s.cpuCount, ?_, ?_⟩)
    · rw [List.mem_range'_1]
      omega
    · rw [← Nat.mod_add_mod, Nat.add_sub_of_le (by omega), Nat.add_mod_right, Nat.mod_eq_of_lt h]
  · exact List.mem_cons.mpr (.inl heq)
  · refine List.mem_cons_of_mem _ (List.mem_map.mpr
      ⟨cpu - s.nextAssignment % s.cpuCount, ?_, ?_⟩)
    · rw [List.mem_range'_1]
      omega
    · rw [← Nat.mod_add_mod, Nat.add_sub_of_le (by omega), Nat.mod_eq_of_lt h]

theorem enqueue_cases (s : MultiCoreScheduler) (x : TaskId) :
    (∃ e, s.enqueue x = (s, .error e) ∧
      (e = .full → (s.queues s.selectCpu).len = maxRunQueueTasks)) ∨
    s.enqueue x =
      ({ s.setQueue s.selectCpu ⟨(s.queues s.selectCpu).tasks ++ [x], (s.queues s.selectCpu).cursor⟩ with
        nextAssignment := (s.selectCpu + 1) % s.cpuCount }, .ok s.selectCpu) := by
  unfold enqueue
  split_ifs with h0 hd
  · exact .inl ⟨_, rfl, nofun⟩
  · exact .inl ⟨_, rfl, nofun⟩
  · dsimp only
    cases hq : (s.queues s.selectCpu).enqueue x with
    | ok q =>
      obtain ⟨-, -, -, rfl⟩ := CpuRunQueue.enqueue_ok hq
      exact .inr rfl
    | error e =>
      refine .inl ⟨e, rfl, ?_⟩
      unfold CpuRunQueue.enqueue at hq
      split_ifs at hq with hc hf
      · obtain rfl := Except.error.inj hq
        exact nofun
      · exact fun _ ↦ hf

/-- No queue of an active CPU is longer than another by more than one. -/
def Level (s : MultiCoreScheduler) : Prop :=
  ∀ a b, a < s.cpuCount → b < s.cpuCount → (s.queues a).len ≤ (s.queues b).len + 1

theorem level_configure (s : MultiCoreScheduler) (n : ℕ) : (s.configure n).Level :=
  fun _ _ _ _ ↦ Nat.zero_le _

theorem Level.enqueue (h : s.Level) (x : TaskId) : (s.enqueue x).1.Level := by
  rcases enqueue_cases s x with ⟨e, he, -⟩ | he
  · rw [he]
    exact h
  · rw [he]
    intro a b ha hb
    have hleast : (s.queues s.selectCpu).tasks.length ≤ (s.queues b).tasks.length := selectCpu_le hb
    have hlevel : (s.queues a).tasks.length ≤ (s.queues b).tasks.length + 1 := h a b ha hb
    dsimp only [setQueue, CpuRunQueue.len]
    rw [Function.update_apply, Function.update_apply]
    split_ifs with hsa hsb hsb
    · exact Nat.le_succ _
    · rw [List.length_append, List.length_singleton]
      exact Nat.succ_le_succ hleast
    · rw [List.length_append, List.length_singleton, ← hsb]
      exact Nat.le_succ_of_le hlevel
    · exact hlevel

theorem level_run {n : ℕ} {xs : List TaskId}
    (h : Trace.Run Step (s.configure n) (xs.map .enqueue) s') : s'.Level := by
  have hall := h.history (I := fun ops t ↦ (∀ op ∈ ops, ∃ x, op = .enqueue x) → t.Level)
    (fun _ ↦ level_configure s n) ?_
  · apply hall
    intro op hop
    obtain ⟨x, -, rfl⟩ := List.mem_map.mp hop
    exact ⟨x, rfl⟩
  · intro ops t op u ih hstep hops
    obtain ⟨x, rfl⟩ := hops op (by simp)
    obtain ⟨reply, hreply⟩ := hstep
    cases hreply
    exact (ih fun op hop ↦ hops op (by simp [hop])).enqueue x

/-- In every reachable state an `enqueue` puts the task at the end of a shortest active queue,
`Full` means that all of them are full, and enqueues alone keep a configured scheduler level. -/
theorem load_balanced (ops : List SchedOp) (s : MultiCoreScheduler)
    (h : Trace.Run Step new ops s) :
    (∀ x cpu, (s.enqueue x).2 = .ok cpu →
      cpu < s.cpuCount ∧ (∀ c < s.cpuCount, (s.queues cpu).len ≤ (s.queues c).len) ∧
      ((s.enqueue x).1.queues cpu).tasks = (s.queues cpu).tasks ++ [x] ∧
      ∀ c ≠ cpu, (s.enqueue x).1.queues c = s.queues c) ∧
    (∀ x, (s.enqueue x).2 = .error .full →
      ∀ c < s.cpuCount, (s.queues c).len = maxRunQueueTasks) ∧
    ∀ (n : ℕ) (xs : List TaskId) s', Trace.Run Step (s.configure n) (xs.map .enqueue) s' →
      ∀ a b, a < s'.cpuCount → b < s'.cpuCount → (s'.queues a).len ≤ (s'.queues b).len + 1 := by
  have hown := owned_run h
  refine ⟨fun x cpu hok ↦ ?_, fun x hfull c hc ↦ ?_, fun n xs s' hrun ↦ level_run hrun⟩
  · rcases enqueue_cases s x with ⟨e, he, -⟩ | he
    · rw [he] at hok
      cases hok
    · rw [he] at hok ⊢
      cases hok
      refine ⟨hown.selectCpu_lt, fun c hc ↦ selectCpu_le hc, ?_, fun c hc ↦ ?_⟩
      · dsimp only [setQueue]
        rw [Function.update_self]
      · exact Function.update_of_ne hc _ _
  · rcases enqueue_cases s x with ⟨e, he, hlen⟩ | he
    · rw [he] at hfull
      have hmax := hlen (Except.error.inj hfull)
      exact le_antisymm (hown.wellFormed c).fits (hmax ▸ selectCpu_le hc)
    · rw [he] at hfull
      cases hfull

theorem load_balanced_three :
    ∃ s, new.execAll [.configure 3, .enqueue 1, .enqueue 2, .enqueue 3, .enqueue 4] = some s ∧
      (s.enqueue 5).2 = .ok 1 ∧ ∀ c < s.cpuCount, (s.queues 1).len ≤ (s.queues c).len := by
  have hreply : (new.execAll [.configure 3, .enqueue 1, .enqueue 2, .enqueue 3, .enqueue 4]).map
      (fun s ↦ (s.enqueue 5).2) = some (.ok 1) := by decide +kernel
  obtain ⟨s, hs, hreply⟩ := Option.map_eq_some_iff.mp hreply
  exact ⟨s, hs, hreply, ((load_balanced _ s (run_execAll hs)).1 5 1 hreply).2.1⟩

end BraneKernel.MultiCoreScheduler
