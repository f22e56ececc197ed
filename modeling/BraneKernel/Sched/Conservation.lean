import BraneKernel.Sched.Operations

namespace BraneKernel

namespace MultiCoreScheduler

variable {s s' : MultiCoreScheduler} {op : SchedOp} {reply : SchedReply}

/-- No task is gained or lost other than by asking for it, and an error changes
nothing. -/
structure Conserves (s : MultiCoreScheduler) (op : SchedOp) (s' : MultiCoreScheduler)
    (reply : SchedReply) : Prop where
  error : reply.isError = true → s' = s
  grows : ∀ t, s'.owns t = true → s.owns t = true ∨ (op.Enqueues t ∧ reply.isError = false)
  shrinks : ∀ t, s.owns t = true → s'.owns t = true ∨ (∃ n, op = .configure n) ∨
    ∃ cpu, op = .dequeue cpu t ∧ reply = .removed (.ok true)

theorem Moves.owns_iff {x : TaskId} {dst : Option Place} (hm : Moves s s' x dst) (h : s.Owned)
    (h' : s'.Owned) (t : TaskId) :
    s'.owns t = true ↔ if t = x then dst.isSome = true else s.owns t = true := by
  rw [h'.owns_iff]
  split_ifs with htx
  · subst htx
    simp only [hm.held_iff, Option.isSome_iff_exists]
  · rw [h.owns_iff]
    exact exists_congr fun p ↦ hm.held_ne htx

theorem Moves.owns_of_owns {x t : TaskId} {dst : Place} (hm : Moves s s' x (some dst)) (h : s.Owned)
    (h' : s'.Owned) (ht : s.owns t = true) : s'.owns t = true := by
  rw [hm.owns_iff h h']
  split_ifs
  · rfl
  · exact ht

theorem OpEffect.conserves (h : s.Owned) (h' : s'.Owned) (he : OpEffect s op s' reply)
    (hroom : s.HasRoom op) : Conserves s op s' reply := by
  cases he with
  | same hsame herr _ =>
    have hown (t : TaskId) : s'.owns t = true ↔ s.owns t = true := by
      rw [h.owns_iff, h'.owns_iff]
      exact exists_congr (hsame t)
    exact ⟨herr, fun t ht ↦ .inl ((hown t).mp ht), fun t ht ↦ .inl ((hown t).mpr ht)⟩
  | @enqueued x cpu hop hr _ _ hm =>
    refine ⟨fun herr ↦ absurd herr (by simp [hr]), fun t ht ↦ ?_,
      fun t ht ↦ .inl (hm.owns_of_owns h h' ht)⟩
    rw [hm.owns_iff h h'] at ht
    split_ifs at ht with htx
    · exact .inr ⟨htx ▸ hop, hr⟩
    · exact .inl ht
  | @moved x src dst hr _ hsrc hm =>
    refine ⟨fun herr ↦ absurd herr (by simp [hr]), fun t ht ↦ .inl ?_,
      fun t ht ↦ .inl (hm.owns_of_owns h h' ht)⟩
    rw [hm.owns_iff h h'] at ht
    split_ifs at ht with htx
    · exact h.owns_iff.mpr ⟨src, htx ▸ hsrc⟩
    · exact ht
  | @removed x cpu hop hr hm =>
    refine ⟨fun herr ↦ absurd herr (by simp [hr, SchedReply.isError]), fun t ht ↦ .inl ?_,
      fun t ht ↦ ?_⟩
    · rw [hm.owns_iff h h'] at ht
      split_ifs at ht with htx
      · cases ht
      · exact ht
    · by_cases htx : t = x
      · exact .inr (.inr ⟨cpu, htx ▸ hop, hr⟩)
      · exact .inl ((hm.owns_iff h h' t).mpr (by rwa [if_neg htx]))
  | @lost x cpu hop hx hfull _ =>
    have hrun : (s.runtime cpu).current = some x := hx
    have hlt := hroom cpu hop (by simp [hrun])
    omega
  | @reset n hop hr hnone =>
    refine ⟨fun herr ↦ absurd herr (by simp [hr]), fun t ht ↦ ?_, fun t _ ↦ .inr (.inl ⟨n, hop⟩)⟩
    obtain ⟨p, hp⟩ := h'.owns_iff.mp ht
    exact absurd hp (hnone t p)

theorem OpEffect.hasRoom (h : s.Owned) (h' : s'.Owned) (he : OpEffect s op s' reply)
    (hcons : Conserves s op s' reply) : s.HasRoom op := by
  cases he with
  | same _ _ hroom => exact hroom
  | enqueued _ _ hroom => exact hroom
  | moved _ hroom => exact hroom
  | removed hop _ _ => exact hasRoom_of_putsBack (hop ▸ rfl)
  | reset hop _ _ => exact hasRoom_of_putsBack (hop ▸ rfl)
  | lost hop hx _ hm =>
    exfalso
    rcases hcons.shrinks _ (h.owns_iff.mpr ⟨_, hx⟩) with hown | ⟨n, rfl⟩ | ⟨c, rfl, -⟩
    · obtain ⟨p, hp⟩ := h'.owns_iff.mp hown
      exact hm.gone p hp
    · cases hop
    · cases hop

/-- In every reachable state an operation conserves the tasks exactly when it
does not put a running task back on a full queue. -/
theorem conserves_iff {ops : List SchedOp} (h : Trace.Run Step new ops s)
    (hs : s.exec op = some (s', reply)) : Conserves s op s' reply ↔ s.HasRoom op := by
  have hown := owned_run h
  obtain ⟨hown', heff⟩ := hown.of_exec hs
  exact ⟨heff.hasRoom hown hown', heff.conserves hown hown'⟩

theorem conserves_complete : ∃ s s' reply, Trace.Run Step new [.enqueue 7, .dispatch 0] s ∧
    s.exec (.complete 0) = some (s', reply) ∧ Conserves s (.complete 0) s' reply := by
  have hlen : (new.execAll [.enqueue 7, .dispatch 0]).map (fun s ↦ (s.queues 0).len) = some 0 := by
    decide +kernel
  obtain ⟨s, hs, hlen⟩ := Option.map_eq_some_iff.mp hlen
  refine ⟨s, _, _, run_execAll hs, rfl, (conserves_iff (run_execAll hs) rfl).mpr ?_⟩
  intro cpu hcpu _
  obtain rfl : 0 = cpu := Option.some.inj hcpu
  rw [hlen]
  decide

def loadedTasks (n : ℕ) : List TaskId := (List.range n).map fun i ↦ BitVec.ofNat 64 (i + 1)

def loaded (n : ℕ) : MultiCoreScheduler := new.setQueue 0 ⟨loadedTasks n, 0⟩

theorem not_mem_loadedTasks {n : ℕ} (hn : n < maxRunQueueTasks) :
    BitVec.ofNat 64 (n + 1) ∉ loadedTasks n := by
  intro h
  obtain ⟨i, hi, he⟩ := List.mem_map.mp h
  rw [List.mem_range] at hi
  have hval := congrArg BitVec.toNat he
  simp only [BitVec.toNat_ofNat, maxRunQueueTasks, maxTasks] at hval hn
  omega

theorem exec_loaded {n : ℕ} (hn : n < maxRunQueueTasks) :
    (loaded n).exec (.enqueue (BitVec.ofNat 64 (n + 1))) = some (loaded (n + 1), .assigned (.ok 0)) := by
  have hfresh := not_mem_loadedTasks hn
  have h0 : BitVec.ofNat 64 (n + 1) ≠ 0 := by
    intro h
    have hval : (n + 1) % 18446744073709551616 = 0 := by simpa using congrArg BitVec.toNat h
    simp only [maxRunQueueTasks, maxTasks] at hn
    omega
  have hq : (loaded n).queues 0 = ⟨loadedTasks n, 0⟩ := by simp [loaded, setQueue]
  have hlen : (⟨loadedTasks n, 0⟩ : CpuRunQueue).len < maxRunQueueTasks := by
    simpa [CpuRunQueue.len, loadedTasks] using hn
  have henq := CpuRunQueue.enqueue_of_room (q := ⟨loadedTasks n, 0⟩) h0 hfresh hlen
  have hown : ¬ (loaded n).owns (BitVec.ofNat 64 (n + 1)) = true := by
    simp [owns, CpuRunQueue.contains, hfresh, loaded, setQueue, new, CpuRuntimeSnapshot.new]
  have hsel : (loaded n).selectCpu = 0 := rfl
  have hnext : loadedTasks n ++ [BitVec.ofNat 64 (n + 1)] = loadedTasks (n + 1) := by
    simp [loadedTasks, List.range_succ]
  simp only [exec, enqueue, if_neg h0, if_neg hown, hsel, hq, henq, hnext]
  simp [loaded, setQueue, new]

theorem execAll_loaded {n : ℕ} (hn : n ≤ maxRunQueueTasks) :
    new.execAll ((loadedTasks n).map .enqueue) = some (loaded n) := by
  induction n with
  | zero => simp [execAll, loadedTasks, loaded, setQueue, new, CpuRunQueue.new]
  | succ n ih =>
    have hstep := exec_loaded (show n < maxRunQueueTasks by omega)
    have hmap : (loadedTasks (n + 1)).map SchedOp.enqueue =
        (loadedTasks n).map SchedOp.enqueue ++ [.enqueue (BitVec.ofNat 64 (n + 1))] := by
      simp [loadedTasks, List.range_succ]
    rw [execAll] at ih ⊢
    rw [hmap, List.foldlM_append, ih (by omega)]
    simp [hstep]

/-- One CPU dispatches the first of 64 tasks, a further task fills its queue, and
the task that completes is dropped with an error. -/
theorem complete_loses_task : ∃ s s', Trace.Run Step new
      ((loadedTasks 64).map .enqueue ++ [.dispatch 0, .enqueue 65]) s ∧
    s.exec (.complete 0) = some (s', .task (.error .full)) ∧ s.owns 1 = true ∧ s'.owns 1 = false ∧
    ¬ Conserves s (.complete 0) s' (.task (.error .full)) := by
  have hrun : ((loaded 64).execAll [.dispatch 0, .enqueue 65]).map (fun s ↦
      ((s.complete 0).2, s.owns 1, (s.complete 0).1.owns 1)) =
        some (.error .full, true, false) := by decide +kernel
  obtain ⟨s, hs, hout⟩ := Option.map_eq_some_iff.mp hrun
  obtain ⟨herr, hout⟩ := Prod.mk.inj hout
  obtain ⟨hbefore, hlost⟩ := Prod.mk.inj hout
  have hafter : new.execAll ((loadedTasks 64).map .enqueue ++ [.dispatch 0, .enqueue 65]) = some s := by
    have hloaded := execAll_loaded (n := 64) (Nat.le_refl _)
    rw [execAll] at hloaded ⊢
    rw [List.foldlM_append, hloaded]
    exact hs
  refine ⟨s, (s.complete 0).1, run_execAll hafter, ?_, hbefore, hlost, fun hcons ↦ ?_⟩
  · rw [exec, herr]
  · rcases hcons.shrinks 1 hbefore with hkept | ⟨n, hop⟩ | ⟨cpu, hop, -⟩
    · cases hlost.symm.trans hkept
    · cases hop
    · cases hop

end MultiCoreScheduler

end BraneKernel
