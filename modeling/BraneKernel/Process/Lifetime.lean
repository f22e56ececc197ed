import BraneKernel.Lib.Trace
import BraneKernel.Signal.Delivery

namespace BraneKernel

namespace ProcessTable

/-- The calls that start and end processes. A delivery runs with whatever actions
are registered at the time. -/
inductive LifeEvent
  | create (name : List (BitVec 8)) (parent : Option Pid) (schedulerTask : TaskId)
  | start (pid : Pid)
  | terminate (pid : Pid) (exitCode : ℤ)
  | send (pid : Pid) (sig : Signal)
  | deliver (signals : SignalManager) (pid : Pid)

def next (t : ProcessTable) : LifeEvent → Option (ProcessTable × Option Pid)
  | .create name parent schedulerTask => t.create name parent schedulerTask
  | .start pid => some ((t.start pid).1, none)
  | .terminate pid exitCode => some ((t.terminate pid exitCode).1, none)
  | .send pid sig => some ((SignalManager.send t pid sig).1, none)
  | .deliver signals pid => some ((signals.deliverPending t pid).1, none)

def Step (t : ProcessTable) (e : LifeEvent × Option Pid) (t' : ProcessTable) : Prop :=
  t.next e.1 = some (t', e.2)

def created (es : List (LifeEvent × Option Pid)) : List Pid := es.filterMap Prod.snd

def Ended (t : ProcessTable) (pid : Pid) (exitCode : ℤ) : Prop :=
  ∃ p, t.get pid = some p ∧ p.state = .terminated ∧ p.exitCode = exitCode

/-- The call leaves processes that have ended alone: it does not start one, and ends
one again, itself or by a signal, only with its own exit code. -/
def spares (t : ProcessTable) (e : LifeEvent × Option Pid) : Prop :=
  match e.1 with
  | .start pid => ∀ code, ¬ t.Ended pid code
  | .terminate pid exitCode => ∀ code, t.Ended pid code → exitCode = code
  | .deliver signals pid => ∀ code, t.Ended pid code → ∀ sig, signals.decisive t pid = some sig →
      signals.getAction t pid sig = .default → 128 + sig.number = code
  | _ => True

variable {t t' : ProcessTable} {e : LifeEvent × Option Pid} {es : List (LifeEvent × Option Pid)}
  {pid q : Pid} {code : ℤ} {f : Process → Process}

/-- What no call but a successful `create` changes. -/
def SamePids (t t' : ProcessTable) : Prop :=
  Slots.keys Process.pid t'.processes = Slots.keys Process.pid t.processes ∧ t'.nextPid = t.nextPid

theorem SamePids.refl (t : ProcessTable) : SamePids t t := ⟨rfl, rfl⟩

theorem SamePids.modify (h : SamePids t t') (hf : ∀ p, (f p).pid = p.pid) :
    SamePids t (t'.modify q f) :=
  ⟨(Slots.keys_modify (fun p _ ↦ hf p) _).trans h.1, h.2⟩

theorem step_cases (h : Step t e t') : (e.2 = none ∧ SamePids t t') ∨
    ∃ name parent task,
      Slots.insert (t.newProcess name parent task) t.processes = some t'.processes ∧
      checkedSucc t.nextPid = some t'.nextPid ∧ e.2 = some t.nextPid := by
  obtain ⟨e, r⟩ := e
  cases e with
  | create name parent task =>
    rcases create_answer h with ⟨rfl, hr⟩ | hnew
    · exact .inl ⟨hr, .refl _⟩
    · exact .inr ⟨name, parent, task, hnew⟩
  | start pid =>
    cases h
    exact .inl ⟨rfl, (SamePids.refl t).modify fun _ ↦ rfl⟩
  | terminate pid exitCode =>
    cases h
    exact .inl ⟨rfl, (SamePids.refl t).modify fun _ ↦ rfl⟩
  | send pid sig =>
    cases h
    rcases SignalManager.send_cases t pid sig with ⟨e, he⟩ | ⟨-, he⟩
    · rw [he]
      exact .inl ⟨rfl, .refl _⟩
    · rw [he]
      exact .inl ⟨rfl, (SamePids.refl t).modify fun _ ↦ rfl⟩
  | deliver signals pid =>
    cases h
    exact .inl ⟨rfl, signals.deliverPending_invariant t pid (.refl t)
      (fun u sig hu ↦ hu.modify fun _ ↦ rfl) fun u code hu ↦ hu.modify fun _ ↦ rfl⟩

/-- The pids in the table are those answered so far, each once, and the next one
is larger than all of them. -/
structure Numbered (es : List (LifeEvent × Option Pid)) (t : ProcessTable) : Prop where
  pids : (Slots.keys Process.pid t.processes).Perm (created es)
  nodup : (created es).Nodup
  below : ∀ pid ∈ created es, pid.toNat < t.nextPid.toNat

theorem numbered_new : Numbered [] new where
  pids := by decide
  nodup := List.nodup_nil
  below := by simp [created]

theorem Numbered.step (h : Numbered es t) (hstep : Step t e t') : Numbered (es ++ [e]) t' := by
  have hsnoc : created (es ++ [e]) = created es ++ e.2.toList := by
    rw [created, List.filterMap_append]
    cases he : e.2 <;> simp [created, he]
  rcases step_cases hstep with ⟨hr, hpids, hnext⟩ | ⟨name, parent, task, hins, hnext, hr⟩
  · rw [hr, Option.toList_none, List.append_nil] at hsnoc
    exact ⟨by rw [hpids, hsnoc]; exact h.pids, hsnoc ▸ h.nodup, by rw [hsnoc, hnext]; exact h.below⟩
  · rw [hr, Option.toList_some] at hsnoc
    have hsucc := checkedSucc_toNat hnext
    refine ⟨?_, ?_, ?_⟩
    · rw [hsnoc]
      exact (Slots.keys_insert hins).trans
        ((h.pids.cons t.nextPid).trans (List.perm_append_singleton _ _).symm)
    · rw [hsnoc, List.nodup_append]
      refine ⟨h.nodup, by simp, fun a ha b hb ↦ ?_⟩
      rw [List.mem_singleton.mp hb]
      rintro rfl
      exact Nat.lt_irrefl _ (h.below _ ha)
    · intro pid hpid
      rw [hsnoc, List.mem_append, List.mem_singleton] at hpid
      rcases hpid with hpid | rfl
      · have := h.below pid hpid
        omega
      · omega

theorem numbered_run (h : Trace.Run Step new es t) : Numbered es t :=
  h.history numbered_new fun _ _ _ _ hn hs ↦ hn.step hs

theorem Numbered.ne_next (h : Numbered es t) (hp : t.Ended pid code) : t.nextPid ≠ pid := by
  obtain ⟨p, hp, -⟩ := hp
  have hin : pid ∈ created es :=
    h.pids.mem_iff.mp (Slots.mem_keys.mpr ⟨p, get_mem hp, get_pid hp⟩)
  rintro rfl
  exact Nat.lt_irrefl _ (h.below _ hin)

theorem Ended.modify_ne (h : t.Ended pid code) (hf : ∀ p, (f p).pid = p.pid) (hq : pid ≠ q) :
    (t.modify q f).Ended pid code := by
  obtain ⟨p, hp, hend⟩ := h
  exact ⟨p, (get_modify_ne hf hq).trans hp, hend⟩

theorem Ended.modify_pending (h : t.Ended pid code) (pending : Process → U64) :
    (t.modify q fun p ↦ { p with signalPending := pending p }).Ended pid code := by
  by_cases hq : pid = q
  · subst hq
    obtain ⟨p, hp, hend⟩ := h
    exact ⟨_, get_modify_of hp fun _ ↦ rfl, hend⟩
  · exact h.modify_ne (fun _ ↦ rfl) hq

theorem Ended.step (h : t.Ended pid code) (hn : Numbered es t) (hok : t.spares e)
    (hstep : Step t e t') : t'.Ended pid code := by
  obtain ⟨e, r⟩ := e
  cases e with
  | create name parent task =>
    rcases create_answer hstep with ⟨rfl, -⟩ | ⟨hins, -⟩
    · exact h
    · have hne := hn.ne_next h
      obtain ⟨p, hp, hend⟩ := h
      exact ⟨p, (get_create_ne hins hne.symm).trans hp, hend⟩
  | start q =>
    cases hstep
    exact h.modify_ne (fun _ ↦ rfl) fun hq ↦ hok code (hq ▸ h)
  | terminate q exitCode =>
    cases hstep
    by_cases hq : pid = q
    · subst hq
      have hsame := hok code h
      obtain ⟨p, hp, -⟩ := h
      exact ⟨_, get_modify_of hp fun _ ↦ rfl, rfl, hsame⟩
    · exact h.modify_ne (fun _ ↦ rfl) hq
  | send q sig =>
    cases hstep
    rcases SignalManager.send_cases t q sig with ⟨e, he⟩ | ⟨-, he⟩
    · rwa [he]
    · rw [he]
      exact h.modify_pending fun p ↦ p.signalPending ||| sig.bit
  | deliver signals q =>
    cases hstep
    by_cases hq : pid = q
    · subst hq
      have hsame := hok code h
      obtain ⟨p, hp, hend⟩ := h
      refine ⟨_, signals.get_deliverPending hp, ?_⟩
      cases hd : signals.decisive t pid with
      | none => exact hend
      | some sig =>
        by_cases ha : signals.getAction t pid sig = .default
        · rw [SignalManager.conclude_default ha]
          exact ⟨rfl, hsame sig hd ha⟩
        · rw [SignalManager.conclude, if_neg ha]
          exact hend
    · exact signals.deliverPending_invariant t q (P := (·.Ended pid code)) h
        (fun u sig hu ↦ hu.modify_ne (fun _ ↦ rfl) hq) fun u c hu ↦ hu.modify_ne (fun _ ↦ rfl) hq

/-- No pid is given out twice or held by two processes, and a process that has
ended stays ended with its exit code as long as the calls spare it. -/
theorem termination_is_final (h : Trace.Run Step new es t) :
    (created es).Nodup ∧ (Slots.keys Process.pid t.processes).Nodup ∧
      ∀ pid code, t.Ended pid code → ∀ es' t',
        Trace.Run (Trace.Guarded spares Step) t es' t' → t'.Ended pid code := by
  have hn := numbered_run h
  refine ⟨hn.nodup, hn.pids.nodup_iff.mpr hn.nodup, fun pid code hend es' t' h' ↦ ?_⟩
  have hboth : Numbered (es ++ es') t' ∧ t'.Ended pid code := by
    refine h'.history (I := fun es' t' ↦ Numbered (es ++ es') t' ∧ t'.Ended pid code) ?_ ?_
    · exact ⟨by rwa [List.append_nil], hend⟩
    · rintro es' u e u' ⟨hn, hend⟩ ⟨hok, hstep⟩
      rw [← List.append_assoc]
      exact ⟨hn.step hstep, hend.step hn hok hstep⟩
  exact hboth.2

theorem termination_is_final_restarted : ∃ t t' : ProcessTable,
    Trace.Run Step new
      [(.create [] none 3, some 1), (.send 1 .chld, none), (.terminate 1 7, none)] t ∧
    Trace.Run (Trace.Guarded spares Step) t
      [(.create [] (some 1) 4, some 2), (.start 2, none), (.deliver .new 1, none)] t' ∧
    t.Ended 1 7 ∧ t'.Ended 1 7 := by
  obtain ⟨t, t', hrun, hend, hrest⟩ : ∃ t t' : ProcessTable,
      Trace.Run Step new
        [(.create [] none 3, some 1), (.send 1 .chld, none), (.terminate 1 7, none)] t ∧
      t.Ended 1 7 ∧ Trace.Run (Trace.Guarded spares Step) t
        [(.create [] (some 1) 4, some 2), (.start 2, none), (.deliver .new 1, none)] t' := by
    refine ⟨_, _, .cons rfl (.cons rfl (.cons rfl .nil)), ⟨_, rfl, rfl, rfl⟩,
      .cons ⟨trivial, rfl⟩ (.cons ⟨?_, rfl⟩ (.cons ⟨?_, rfl⟩ .nil))⟩
    · rintro code ⟨p, hp, hend, -⟩
      cases hp
      cases hend
    · intro code _ sig hsig
      cases (show SignalManager.new.decisive _ 1 = none from rfl).symm.trans hsig
  exact ⟨t, t', hrun, hrest, hend, (termination_is_final hrun).2.2 1 7 hend _ _ hrest⟩

/-- A process that ended with code 7 while a signal was pending: it can be
started again, ended again with another code, and ended by the signal. -/
theorem ended_process_changes : ∃ t : ProcessTable,
    Trace.Run Step new
      [(.create [] none 3, some 1), (.send 1 .term, none), (.terminate 1 7, none)] t ∧
    t.Ended 1 7 ∧ (((t.start 1).1.get 1).map (·.state) = some .ready) ∧
    (t.terminate 1 8).1.Ended 1 8 ∧
    (SignalManager.new.deliverPending t 1).1.Ended 1 143 :=
  ⟨_, .snoc (.snoc (.snoc .nil rfl) rfl) rfl, ⟨_, rfl, rfl, rfl⟩, rfl, ⟨_, rfl, rfl, rfl⟩,
    ⟨_, rfl, rfl, rfl⟩⟩

end ProcessTable

end BraneKernel
