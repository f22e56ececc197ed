import BraneKernel.Lib.Trace
import BraneKernel.Sched.Ownership

namespace BraneKernel

inductive SchedOp
  | configure (cpuCount : ℕ)
  | enqueue (taskId : TaskId)
  | enqueueOnCpu (cpu : ℕ) (taskId : TaskId)
  | dequeue (cpu : ℕ) (taskId : TaskId)
  | pickNext (cpu : ℕ)
  | steal (cpu : ℕ)
  | dispatch (cpu : ℕ)
  | boundedHandoff (cpu : ℕ) (allowSteal : Bool)
  | complete (cpu : ℕ)

inductive SchedReply
  | cpus (cpuCount : ℕ)
  | assigned (r : Except RunQueueError ℕ)
  | queued (r : Except RunQueueError Unit)
  | removed (r : Except RunQueueError Bool)
  | task (r : Except RunQueueError (Option TaskId))
  | dispatch (r : DispatchResult)
  | handoff (previous : Option TaskId) (r : DispatchResult)

def DispatchResult.isError : DispatchResult → Bool
  | .invalidCpu | .busy _ => true
  | .dispatched _ | .stole _ | .idle => false

def SchedReply.isError : SchedReply → Bool
  | .assigned (.error _) | .queued (.error _) | .removed (.error _) | .task (.error _) => true
  | .dispatch r | .handoff _ r => r.isError
  | _ => false

def SchedOp.Enqueues (op : SchedOp) (t : TaskId) : Prop :=
  op = .enqueue t ∨ ∃ cpu, op = .enqueueOnCpu cpu t

def SchedOp.putsBack : SchedOp → Option ℕ
  | .complete cpu | .boundedHandoff cpu _ => some cpu
  | _ => none

namespace MultiCoreScheduler

def exec (s : MultiCoreScheduler) : SchedOp → Option (MultiCoreScheduler × SchedReply)
  | .configure n => some (s.configure n, .cpus (s.configure n).cpuCount)
  | .enqueue taskId => some ((s.enqueue taskId).1, .assigned (s.enqueue taskId).2)
  | .enqueueOnCpu cpu taskId =>
    some ((s.enqueueOnCpu cpu taskId).1, .queued (s.enqueueOnCpu cpu taskId).2)
  | .dequeue cpu taskId => some ((s.dequeue cpu taskId).1, .removed (s.dequeue cpu taskId).2)
  | .pickNext cpu => some ((s.pickNext cpu).1, .task (s.pickNext cpu).2)
  | .steal cpu => (s.steal cpu).map fun r ↦ (r.1, .task r.2)
  | .dispatch cpu => (s.dispatch cpu).map fun r ↦ (r.1, .dispatch r.2)
  | .boundedHandoff cpu allowSteal =>
    (s.boundedHandoff cpu allowSteal).map fun r ↦ (r.1, .handoff r.2.1 r.2.2)
  | .complete cpu => some ((s.complete cpu).1, .task (s.complete cpu).2)

def Step (s : MultiCoreScheduler) (op : SchedOp) (s' : MultiCoreScheduler) : Prop :=
  ∃ reply, s.exec op = some (s', reply)

/-- The queue that has to take the running task back is not full. -/
def HasRoom (s : MultiCoreScheduler) (op : SchedOp) : Prop :=
  ∀ cpu, op.putsBack = some cpu → (s.runtime cpu).current ≠ none →
    (s.queues cpu).len < maxRunQueueTasks

inductive OpEffect (s : MultiCoreScheduler) (op : SchedOp) (s' : MultiCoreScheduler)
    (reply : SchedReply) : Prop
  | same : (∀ t p, s'.Held t p ↔ s.Held t p) → (reply.isError = true → s' = s) → s.HasRoom op →
      OpEffect s op s' reply
  | enqueued {x : TaskId} {cpu : ℕ} : op.Enqueues x → reply.isError = false → s.HasRoom op →
      (∀ p, ¬ s.Held x p) → Moves s s' x (some (.queue cpu)) → OpEffect s op s' reply
  | moved {x : TaskId} {src dst : Place} : reply.isError = false → s.HasRoom op → s.Held x src →
      Moves s s' x (some dst) → OpEffect s op s' reply
  | removed {x : TaskId} {cpu : ℕ} : op = .dequeue cpu x → reply = .removed (.ok true) →
      Moves s s' x none → OpEffect s op s' reply
  | lost {x : TaskId} {cpu : ℕ} : op.putsBack = some cpu → s.Held x (.running cpu) →
      (s.queues cpu).len = maxRunQueueTasks → Moves s s' x none → OpEffect s op s' reply
  | reset {n : ℕ} : op = .configure n → reply.isError = false → (∀ t p, ¬ s'.Held t p) →
      OpEffect s op s' reply

variable {s s' : MultiCoreScheduler} {op : SchedOp} {reply : SchedReply} {cpu : ℕ} {x : TaskId}

theorem OpEffect.unchanged (h : s.HasRoom op) : OpEffect s op s reply :=
  .same (fun _ _ ↦ Iff.rfl) (fun _ ↦ rfl) h

theorem OpEffect.of_eq (hs : s' = s) (h : s.HasRoom op) : OpEffect s op s' reply := by
  rw [hs]
  exact .unchanged h

variable {e : RunQueueError}

theorem enqueue_error (h : (s.enqueue x).2 = .error e) : (s.enqueue x).1 = s := by
  unfold enqueue at h ⊢
  split_ifs at h ⊢
  · rfl
  · rfl
  · dsimp only at h ⊢
    split at h
    · rfl
    · cases h

theorem enqueueOnCpu_error (h : (s.enqueueOnCpu cpu x).2 = .error e) :
    (s.enqueueOnCpu cpu x).1 = s := by
  unfold enqueueOnCpu at h ⊢
  split_ifs at h ⊢
  · rfl
  · rfl
  · rfl
  · split at h
    · rfl
    · cases h

theorem pickNext_error (h : (s.pickNext cpu).2 = .error e) : (s.pickNext cpu).1 = s := by
  unfold pickNext at h ⊢
  split_ifs at h ⊢
  · rfl
  · split at h <;> cases h

theorem hasRoom_of_putsBack (h : op.putsBack = none) : s.HasRoom op := by
  intro cpu hcpu
  cases h.symm.trans hcpu

theorem hasRoom_of_idle (h : op.putsBack = some cpu) (hi : (s.runtime cpu).current = none) :
    s.HasRoom op := by
  intro cpu' hcpu' hrun
  obtain rfl := Option.some.inj (h.symm.trans hcpu')
  exact absurd hi hrun

theorem Owned.effect_dispatch (h : s.Owned) (cpu : ℕ) (allowSteal : Bool) (hroom : s.HasRoom op) :
    ∃ s' r, s.dispatchExcludingMode cpu none allowSteal = some (s', r) ∧ s'.Owned ∧
      ∀ reply : SchedReply, reply.isError = r.isError → OpEffect s op s' reply := by
  obtain ⟨s', r, hd, hown, heff⟩ := h.dispatch cpu allowSteal
  refine ⟨s', r, hd, hown, fun reply hreply ↦ ?_⟩
  cases heff with
  | invalidCpu _ he | busy _ _ he =>
    subst he
    exact .unchanged hroom
  | idle _ _ _ hsame =>
    refine .same hsame (fun herr ↦ ?_) hroom
    cases hreply.symm.trans herr
  | @dispatched t _ hmem hm =>
    have hx : s.Held t (.queue cpu) := hmem
    exact .moved hreply hroom hx hm
  | @stole t v _ _ _ _ hhead hm =>
    have hx : s.Held t (.queue v) := List.mem_of_mem_head? (by simp [hhead])
    exact .moved hreply hroom hx hm

theorem Owned.effect_putBack (h : s.Owned) (hop : op.putsBack = some cpu)
    (hx : s.Held x (.running cpu))
    (hreply : (s.complete cpu).2 = .ok (some x) → reply.isError = false) :
    OpEffect s op (s.complete cpu).1 reply := by
  obtain ⟨-, ⟨hlen, hok, hm⟩ | ⟨hfull, -, hm⟩⟩ := h.putBack hx
  · refine .moved (hreply hok) ?_ hx hm
    intro cpu' hcpu' _
    obtain rfl := Option.some.inj (hop.symm.trans hcpu')
    exact hlen
  · exact .lost hop hx hfull hm

theorem Owned.exec_boundedHandoff (h : s.Owned) (cpu : ℕ) (allowSteal : Bool) :
    ∃ s' reply, s.exec (.boundedHandoff cpu allowSteal) = some (s', reply) ∧ s'.Owned ∧
      OpEffect s (.boundedHandoff cpu allowSteal) s' reply := by
  by_cases hc : s.cpuCount ≤ cpu
  · refine ⟨s, .handoff none .invalidCpu, ?_, h, .unchanged ?_⟩
    · simp [MultiCoreScheduler.exec, boundedHandoff, hc]
    · exact hasRoom_of_idle rfl (h.beyond cpu hc).2
  cases hi : (s.runtime cpu).current with
  | some x =>
    refine ⟨(s.complete cpu).1, .handoff (some x) .idle, ?_, (h.complete cpu).1,
      h.effect_putBack rfl hi fun _ ↦ rfl⟩
    simp [MultiCoreScheduler.exec, boundedHandoff, hc, hi]
  | none =>
    have hroom : s.HasRoom (.boundedHandoff cpu allowSteal) := hasRoom_of_idle rfl hi
    obtain ⟨s', r, hd, hown, heff⟩ := h.effect_dispatch cpu allowSteal hroom
    refine ⟨s', .handoff none r, ?_, hown, heff _ rfl⟩
    simp [MultiCoreScheduler.exec, boundedHandoff, hc, hi, hd]

theorem Owned.exec (h : s.Owned) (op : SchedOp) :
    ∃ s' reply, s.exec op = some (s', reply) ∧ s'.Owned ∧ OpEffect s op s' reply := by
  cases op with
  | configure n =>
    refine ⟨_, _, rfl, owned_configure s n, .reset rfl rfl ?_⟩
    intro t p hp
    cases p <;> simp [Held, MultiCoreScheduler.configure, CpuRunQueue.new,
      CpuRuntimeSnapshot.new] at hp
  | enqueue x =>
    obtain ⟨hown, hsame | ⟨hx, cpu, hm⟩⟩ := h.enqueue x
    · exact ⟨_, _, rfl, hown, .of_eq hsame (hasRoom_of_putsBack rfl)⟩
    · refine ⟨_, _, rfl, hown, .enqueued (.inl rfl) ?_ (hasRoom_of_putsBack rfl) hx hm⟩
      cases hr : (s.enqueue x).2 with
      | ok _ => rfl
      | error e => exact absurd (enqueue_error hr ▸ hm.held_iff.mpr rfl) (hx _)
  | enqueueOnCpu cpu x =>
    obtain ⟨hown, hsame | ⟨hx, cpu', hm⟩⟩ := h.enqueueOnCpu cpu x
    · exact ⟨_, _, rfl, hown, .of_eq hsame (hasRoom_of_putsBack rfl)⟩
    · refine ⟨_, _, rfl, hown, .enqueued (.inr ⟨cpu, rfl⟩) ?_ (hasRoom_of_putsBack rfl) hx hm⟩
      cases hr : (s.enqueueOnCpu cpu x).2 with
      | ok _ => rfl
      | error e => exact absurd (enqueueOnCpu_error hr ▸ hm.held_iff.mpr rfl) (hx _)
  | dequeue cpu x =>
    obtain ⟨hown, hsame | ⟨hm, hr⟩⟩ := h.dequeue cpu x
    · exact ⟨_, _, rfl, hown, .of_eq hsame (hasRoom_of_putsBack rfl)⟩
    · exact ⟨_, _, rfl, hown, .removed rfl (congrArg SchedReply.removed hr) hm⟩
  | pickNext cpu =>
    obtain ⟨hown, hsame⟩ := h.pickNext cpu
    refine ⟨_, _, rfl, hown, .same hsame (fun herr ↦ ?_) (hasRoom_of_putsBack rfl)⟩
    cases hr : (s.pickNext cpu).2 with
    | ok _ => rw [hr] at herr; cases herr
    | error e => exact pickNext_error hr
  | steal cpu =>
    rcases h.steal cpu with ⟨r, hs, -⟩ | ⟨v, t, q, s', -, -, hhead, hs, hown, hm, -⟩
    · exact ⟨s, .task r, congrArg (Option.map _) hs, h, .unchanged (hasRoom_of_putsBack rfl)⟩
    · have hx : s.Held t (.queue v) := List.mem_of_mem_head? (by simp [hhead])
      exact ⟨s', .task (.ok (some t)), congrArg (Option.map _) hs, hown,
        .moved rfl (hasRoom_of_putsBack rfl) hx hm⟩
  | dispatch cpu =>
    have hroom : s.HasRoom (.dispatch cpu) := hasRoom_of_putsBack rfl
    obtain ⟨s', r, hd, hown, heff⟩ := h.effect_dispatch cpu true hroom
    exact ⟨s', .dispatch r, congrArg (Option.map _) hd, hown, heff _ rfl⟩
  | boundedHandoff cpu allowSteal =>
    exact h.exec_boundedHandoff cpu allowSteal
  | complete cpu =>
    refine ⟨_, _, rfl, (h.complete cpu).1, ?_⟩
    cases hi : (s.runtime cpu).current with
    | none =>
      rw [complete_idle hi]
      exact .unchanged (hasRoom_of_idle rfl hi)
    | some x => exact h.effect_putBack rfl hi fun hok ↦ by rw [hok]; rfl

theorem Owned.of_exec (h : s.Owned) (hs : s.exec op = some (s', reply)) :
    s'.Owned ∧ OpEffect s op s' reply := by
  obtain ⟨u, r, he, hown, heff⟩ := h.exec op
  obtain ⟨rfl, rfl⟩ := Prod.mk.inj (Option.some.inj (he.symm.trans hs))
  exact ⟨hown, heff⟩

theorem owned_new : new.Owned := owned_configure new 1

theorem owned_run {ops : List SchedOp} (h : Trace.Run Step new ops s) : s.Owned := by
  apply h.invariant owned_new
  intro s op s' hown hs
  obtain ⟨reply, hs⟩ := hs
  exact (hown.of_exec hs).1

/-- In every reachable state each task has at most one place, the queues are
well formed, no `expect` of a steal fails, and a dispatch that steals pops what
it stole without the fallback. -/
theorem single_ownership {ops : List SchedOp} (h : Trace.Run Step new ops s) :
    s.Owned ∧ (∀ op, s.exec op ≠ none) ∧
      ∀ cpu q s' t, (s.runtime cpu).current = none →
        (s.queues cpu).popNextExcluding none = (none, q) →
        (s.setQueue cpu q).steal cpu = some (s', .ok (some t)) →
        ((s'.queues cpu).popNextExcluding none).1 = some t := by
  have hown := owned_run h
  refine ⟨hown, fun op ↦ ?_, fun cpu q s' x _ hpop hs ↦ ?_⟩
  · obtain ⟨s', reply, he, -, -⟩ := hown.exec op
    rw [he]
    exact nofun
  · rcases CpuRunQueue.popNext_cases (hown.wellFormed cpu) with ⟨hnil, hpop'⟩ | ⟨y, _, hpop', -⟩
    swap
    · cases hpop'.symm.trans hpop
    obtain ⟨-, rfl⟩ := Prod.mk.inj (hpop'.symm.trans hpop)
    rw [setQueue_self] at hs
    rcases hown.steal cpu with ⟨r, hs', hr⟩ | ⟨v, t, q, u, -, -, -, hs', hown', -, -, -, hq, htasks⟩
    · obtain ⟨-, rfl⟩ := Prod.mk.inj (Option.some.inj (hs'.symm.trans hs))
      exact absurd rfl (hr x)
    · obtain ⟨rfl, hx⟩ := Prod.mk.inj (Option.some.inj (hs'.symm.trans hs))
      obtain rfl : t = x := by simpa using hx
      have hone : (u.queues cpu).tasks = [t] := by rw [hq, htasks, hnil]; rfl
      obtain ⟨q', hpop', -⟩ := CpuRunQueue.popNext_singleton (hown'.wellFormed cpu) hone
      rw [hpop']

def execAll (s : MultiCoreScheduler) (ops : List SchedOp) : Option MultiCoreScheduler :=
  ops.foldlM (fun s op ↦ (s.exec op).map Prod.fst) s

theorem run_execAll {ops : List SchedOp} (h : s.execAll ops = some s') : Trace.Run Step s ops s' :=
  Trace.Run.of_answers h

theorem single_ownership_stolen :
    ∃ s, new.execAll [.configure 2, .enqueueOnCpu 0 7, .dispatch 1] = some s ∧
      (s.runtime 1).current = some 7 ∧ s.Owned := by
  have hcur : (new.execAll [.configure 2, .enqueueOnCpu 0 7, .dispatch 1]).map
      (fun s ↦ (s.runtime 1).current) = some (some 7) := by decide +kernel
  obtain ⟨s, hs, hcur⟩ := Option.map_eq_some_iff.mp hcur
  exact ⟨s, hs, hcur, (single_ownership (run_execAll hs)).1⟩

end MultiCoreScheduler

end BraneKernel
