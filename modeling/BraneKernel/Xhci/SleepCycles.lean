import BraneKernel.Xhci.EventRing
import BraneKernel.Xhci.Suspend

namespace BraneKernel

structure S3System where
  controller : Option S3World
  pendingToken : Option XhciS3Token

/-- The calls with their results. Between them a controller is found, or the driver
and the hardware do anything that leaves the record of sleep alone. -/
inductive S3Event
  | attach (w : S3World)
  | drive (w : S3World)
  | prepare (hardware : S3Hardware) (result : Except XhciS3Error (Option XhciS3Token))
  | resume (token : XhciS3Token) (hardware : S3Hardware) (result : XhciS3Resume)
  | resumePending (hardware : S3Hardware) (result : Option XhciS3Resume)

namespace S3System

def prepareForS3 (s : S3System) (hardware : S3Hardware) :
    S3System × Except XhciS3Error (Option XhciS3Token) :=
  match s.controller with
  | none => (s, .ok none)
  | some w =>
    match w.quiesceForS3 hardware with
    | (w, .error e) => ({ s with controller := some w }, .error e)
    | (w, .ok token) => (⟨some w, some token⟩, .ok (some token))

def resumeFromS3 (s : S3System) (hardware : S3Hardware) (token : XhciS3Token) :
    S3System × XhciS3Resume :=
  let pendingToken :=
    if s.pendingToken.any (·.generation == token.generation) then none else s.pendingToken
  match s.controller with
  | none => (⟨none, pendingToken⟩, .quarantined)
  | some w =>
    (⟨some (w.resumeFromS3 hardware token).1, pendingToken⟩, (w.resumeFromS3 hardware token).2)

def resumePendingS3 (s : S3System) (hardware : S3Hardware) : S3System × Option XhciS3Resume :=
  match s.pendingToken with
  | none => (s, none)
  | some token =>
    match s.controller with
    | none => (⟨none, none⟩, some .quarantined)
    | some w =>
      (⟨some (w.resumeFromS3 hardware token).1, none⟩, some (w.resumeFromS3 hardware token).2)

def Step (s : S3System) : S3Event → S3System → Prop
  | .attach w, s' => s.controller = none ∧ w.s3State = .active ∧ w.s3Generation = 0 ∧
      w.s3Snapshot = none ∧ s' = { s with controller := some w }
  | .drive w', s' => ∃ w, s.controller = some w ∧ w'.s3State = w.s3State ∧
      w'.s3Generation = w.s3Generation ∧ w'.s3Snapshot = w.s3Snapshot ∧
      s' = { s with controller := some w' }
  | .prepare hardware result, s' => s.prepareForS3 hardware = (s', result)
  | .resume token hardware result, s' => s.resumeFromS3 hardware token = (s', result)
  | .resumePending hardware result, s' => s.resumePendingS3 hardware = (s', result)

end S3System

namespace S3Event

def granted : S3Event → Option XhciS3Token
  | .prepare _ (.ok token) => token
  | _ => none

def woke : S3Event → Option XhciS3Resume
  | .resume _ _ result => some result
  | .resumePending _ result => result
  | _ => none

def Wakes (e : S3Event) : Prop := ∃ result, e.woke = some result ∧ result ≠ .quarantined

end S3Event

inductive SleepPhase
  | absent | awake | asleep (token : XhciS3Token) | quarantined
  deriving DecidableEq

namespace SleepPhase

inductive Step : SleepPhase → S3Event → SleepPhase → Prop
  | attach {w : S3World} : Step .absent (.attach w) .awake
  | stay {p : SleepPhase} {e : S3Event} : e.granted = none → e.woke = none → Step p e p
  | broken {e : S3Event} : e.granted = none → e.woke = none → Step .awake e .quarantined
  | sleep {e : S3Event} {token : XhciS3Token} : e.granted = some token → e.woke = none →
      Step .awake e (.asleep token)
  | wake {e : S3Event} {token : XhciS3Token} : e.granted = none → e.Wakes →
      Step (.asleep token) e .awake
  | lost {p : SleepPhase} {e : S3Event} : e.granted = none → e.woke = some .quarantined →
      Step p e .quarantined
  | missing {e : S3Event} : e.granted = none → e.woke = some .quarantined → Step .absent e .absent

variable {p : SleepPhase} {es : List S3Event}

theorem quarantined_forever (h : Trace.Run Step .quarantined es p) : p = .quarantined := by
  refine h.invariant (I := (· = .quarantined)) rfl ?_
  rintro p e p' rfl hstep
  cases hstep with
  | stay => rfl
  | lost => rfl

def lastToken (es : List S3Event) : Option XhciS3Token := (es.filterMap S3Event.granted).getLast?

variable {e : S3Event}

/-- A controller sleeps under the token granted last, which has not woken it yet. -/
structure Cycles (es : List S3Event) (p : SleepPhase) : Prop where
  latest : ∀ token, p = .asleep token → lastToken es = some token
  unused : ∀ pre a post, es = pre ++ a :: post → a.Wakes → (∀ q ∈ post, q.granted = none) →
    ∀ token, p ≠ .asleep token
  once : ∀ pre a mid b post, es = pre ++ a :: (mid ++ b :: post) → a.Wakes → b.Wakes →
    ∃ q ∈ mid, q.granted ≠ none

variable {p' : SleepPhase}

theorem Step.asleep_of_wakes (h : Step p e p') (he : e.Wakes) : ∃ token, p = .asleep token := by
  obtain ⟨result, hwoke, hresult⟩ := he
  cases h with
  | attach => cases hwoke
  | stay _ hnone | broken _ hnone | sleep _ hnone => cases hnone.symm.trans hwoke
  | wake => exact ⟨_, rfl⟩
  | lost _ hlost | missing _ hlost =>
    cases hlost.symm.trans hwoke
    exact absurd rfl hresult

theorem Step.asleep_after {token : XhciS3Token} (h : Step p e p') (hp' : p' = .asleep token) :
    e.granted = some token ∨ (e.granted = none ∧ e.woke = none ∧ p = .asleep token) := by
  cases h with
  | attach | broken | wake | lost | missing => cases hp'
  | stay hgranted hwoke => exact .inr ⟨hgranted, hwoke, hp'⟩
  | sleep hgranted =>
    cases hp'
    exact .inl hgranted

theorem Cycles.step (h : Cycles es p) (hstep : Step p e p') :
    Cycles (es ++ [e]) p' where
  latest token hp' := by
    rcases hstep.asleep_after hp' with hgranted | ⟨hgranted, -, hp⟩
    · simp [lastToken, hgranted]
    · simpa [lastToken, hgranted] using h.latest token hp
  unused pre a post hes ha hnone token hp' := by
    rcases hstep.asleep_after hp' with hgranted | ⟨hgranted, hwoke, hp⟩
    · rcases Trace.snoc_split hes with ⟨-, rfl, rfl⟩ | ⟨rest, rfl, -⟩
      · obtain ⟨before, hbefore⟩ := hstep.asleep_of_wakes ha
        subst hbefore hp'
        cases hstep with
        | stay hother => cases hother.symm.trans hgranted
      · cases (hnone e (List.mem_append_right _ List.mem_cons_self)).symm.trans hgranted
    · rcases Trace.snoc_split hes with ⟨-, rfl, rfl⟩ | ⟨rest, rfl, hrest⟩
      · obtain ⟨result, hresult, -⟩ := ha
        cases hwoke.symm.trans hresult
      · exact h.unused pre a rest hrest ha (fun q hq ↦ hnone q (List.mem_append_left _ hq)) token hp
  once pre a mid b post hes ha hb := by
    have hassoc : pre ++ a :: (mid ++ b :: post) = (pre ++ a :: mid) ++ b :: post := by
      rw [List.append_assoc, List.cons_append]
    rcases Trace.snoc_split (hes.trans hassoc) with ⟨hbefore, rfl, -⟩ | ⟨rest, -, hrest⟩
    · by_contra hnone
      push Not at hnone
      obtain ⟨token, hp⟩ := hstep.asleep_of_wakes hb
      exact h.unused pre a mid hbefore ha hnone token hp
    · rw [List.append_assoc, List.cons_append] at hrest
      exact h.once pre a mid b rest hrest ha hb

theorem cycles_run (h : Trace.Run Step .absent es p) : Cycles es p := by
  refine h.history (I := Cycles) ⟨nofun, ?_, ?_⟩ fun es p e p' hcycles hstep ↦ hcycles.step hstep
  · intro pre a post hes
    simp at hes
  · intro pre a mid b post hes
    simp at hes

end SleepPhase

def S3World.phase (w : S3World) : SleepPhase :=
  match w.s3State with
  | .quiesced => .asleep ⟨w.s3Generation⟩
  | .quarantined => .quarantined
  | .absent | .active | .pollingFallback => .awake

namespace S3World

variable {w : S3World}

theorem phase_quiesced (h : w.s3State = .quiesced) : w.phase = .asleep ⟨w.s3Generation⟩ := by
  rw [phase, h]

theorem phase_quarantined (h : w.s3State = .quarantined) : w.phase = .quarantined := by
  rw [phase, h]

theorem phase_awake (h : w.s3State ≠ .quarantined) (h' : w.s3State ≠ .quiesced) :
    w.phase = .awake := by
  unfold phase
  cases hstate : w.s3State with
  | quarantined => exact absurd hstate h
  | quiesced => exact absurd hstate h'
  | absent | active | pollingFallback => rfl

theorem Quiesces.step {w' : S3World} {result : Except XhciS3Error XhciS3Token}
    (h : Quiesces w w' result) (hardware : S3Hardware) :
    SleepPhase.Step w.phase (.prepare hardware (result.map some)) w'.phase := by
  cases h with
  | refused haccessed =>
    obtain ⟨new, reads, rfl, -⟩ := haccessed
    exact .stay rfl rfl
  | failed _ hquarantined hquiesced hfailed =>
    rw [phase_awake hquarantined hquiesced, phase_quarantined hfailed]
    exact .broken rfl rfl
  | stopped _ hquarantined hquiesced hstopped =>
    rw [phase_awake hquarantined hquiesced, phase_quiesced hstopped]
    exact .sleep rfl rfl

theorem Resumes.step {hardware : S3Hardware} {token : XhciS3Token} {w' : S3World}
    {result : XhciS3Resume} {e : S3Event} (h : Resumes hardware w token w' result)
    (hgranted : e.granted = none) (hwoke : e.woke = some result) :
    SleepPhase.Step w.phase e w'.phase := by
  cases h with
  | refused hstate | failed _ hstate =>
    rw [phase_quarantined hstate]
    exact .lost hgranted hwoke
  | resumed hresumable hquarantined hquiesced hresult =>
    rw [phase_quiesced hresumable.quiesced, phase_awake hquarantined hquiesced]
    exact .wake hgranted ⟨_, hwoke, hresult⟩

end S3World

namespace S3System

variable {s s' : S3System} {e : S3Event}

def phase (s : S3System) : SleepPhase := s.controller.elim .absent S3World.phase

theorem phase_step (h : s.Step e s') : SleepPhase.Step s.phase e s'.phase := by
  obtain ⟨controller, pendingToken⟩ := s
  cases e with
  | attach w =>
    obtain ⟨rfl, hstate, -, -, rfl⟩ := h
    have hawake : w.phase = .awake := by rw [S3World.phase, hstate]
    simp only [phase, Option.elim, hawake]
    exact .attach
  | drive w' =>
    obtain ⟨w, rfl, hstate, hgeneration, -, rfl⟩ := h
    have hsame : w'.phase = w.phase := by
      rw [S3World.phase, S3World.phase, hstate, hgeneration]
    simp only [phase, Option.elim, hsame]
    exact .stay rfl rfl
  | prepare hardware result =>
    unfold Step prepareForS3 at h
    cases controller with
    | none =>
      cases h
      exact .stay rfl rfl
    | some w =>
      have hstep := (S3World.quiesces_quiesceForS3 hardware w).step hardware
      rcases hquiesce : w.quiesceForS3 hardware with ⟨w', e | token⟩
      all_goals
        rw [hquiesce] at hstep
        simp only [hquiesce] at h
        cases h
        exact hstep
  | resume token hardware result =>
    unfold Step resumeFromS3 at h
    cases controller with
    | none =>
      cases h
      exact .missing rfl rfl
    | some w =>
      cases h
      exact (S3World.resumes_resumeFromS3 hardware w token).step rfl rfl
  | resumePending hardware result =>
    unfold Step resumePendingS3 at h
    cases pendingToken with
    | none =>
      cases h
      exact .stay rfl rfl
    | some token =>
      cases controller with
      | none =>
        cases h
        exact .missing rfl rfl
      | some w =>
        cases h
        exact (S3World.resumes_resumeFromS3 hardware w token).step rfl rfl

theorem phase_run {es : List S3Event} (h : Trace.Run Step s es s') :
    Trace.Run SleepPhase.Step s.phase es s'.phase := by
  induction h with
  | nil => exact .nil
  | snoc _ hstep ih => exact ih.snoc (phase_step hstep)

/-- Sleep is fail-safe, whatever the registers answer and whichever tokens are shown. -/
theorem s3_fail_safe {events : List S3Event} (h : Trace.Run Step ⟨none, none⟩ events s) :
    (∀ es s', Trace.Run Step s es s' → s.phase = .quarantined → s'.phase = .quarantined) ∧
    (∀ w hardware token, s.controller = some w →
      ((w.resumeFromS3 hardware token).1.running = true ∨
        ∃ new, (w.resumeFromS3 hardware token).1.writes = new ++ w.writes ∧ ∃ x ∈ new, x.Starts) →
      SleepPhase.lastToken events = some token ∧
        ∃ snapshot, S3World.Resumable hardware w token snapshot) ∧
    (∀ pre a mid b post, events = pre ++ a :: (mid ++ b :: post) → a.Wakes → b.Wakes →
      ∃ q ∈ mid, q.granted ≠ none) ∧
    ∀ w hardware, s.controller = some w →
      ((w.quiesceForS3 hardware).1.writes ≠ w.writes ∨
        (w.quiesceForS3 hardware).1.running ≠ w.running) →
      w.events.command = none ∧ w.events.transfer = none ∧
        ∀ device, w.firstDevice = some device → device.hidTransferPending = false := by
  have hcycles : SleepPhase.Cycles events s.phase := SleepPhase.cycles_run (phase_run h)
  refine ⟨fun es s' hrun hphase ↦ ?_, fun w hardware token hw hstarts ↦ ?_, hcycles.once,
    fun w hardware _ hstops ↦ S3World.idle_of_stops hstops⟩
  · have habstract := phase_run hrun
    rw [hphase] at habstract
    exact SleepPhase.quarantined_forever habstract
  · obtain ⟨snapshot, hresumable⟩ := S3World.resumable_of_starts hstarts
    refine ⟨hcycles.latest token ?_, snapshot, hresumable⟩
    rw [phase, hw, hresumable.latest]
    exact S3World.phase_quiesced hresumable.quiesced

def restingController : S3World :=
  { XhciWorld.started.toXhciController with
    dcbaa := frameAt 0x19000
    eventRingSegmentTable := frameAt 0x1A000
    enabledSlots := 8
    interruptMode := .polling
    interruptVector := 0
    running := true
    s3State := .active
    s3Generation := 0
    s3Snapshot := none
    writes := []
    reads := 0 }

def retainingRegisters : S3Hardware := fun n ↦
  [1, 0x10000, 0, 0x19000, 0, 8, 0x1A000, 0, 0x11000, 0, 0, 1, 1,
    1, 0x10000, 0, 0x19000, 0, 8, 0x1A000, 0, 0x11000, 0, 1, 0].getD n 0

def awake : S3System := ⟨some restingController, none⟩

theorem s3_fail_safe_cycle : ∃ s, Trace.Run Step ⟨none, none⟩
    [.attach restingController, .prepare retainingRegisters (.ok (some ⟨1⟩)),
      .resume ⟨1⟩ retainingRegisters .retained] s ∧
    ∀ es s', Trace.Run Step s es s' → s.phase = .quarantined → s'.phase = .quarantined := by
  have hprepare : (awake.prepareForS3 retainingRegisters).2 = .ok (some ⟨1⟩) := by decide +kernel
  have hresume : ((awake.prepareForS3 retainingRegisters).1.resumeFromS3 retainingRegisters ⟨1⟩).2 =
      .retained := by decide +kernel
  have hrun : Trace.Run Step ⟨none, none⟩
      [.attach restingController, .prepare retainingRegisters (.ok (some ⟨1⟩)),
        .resume ⟨1⟩ retainingRegisters .retained]
      ((awake.prepareForS3 retainingRegisters).1.resumeFromS3 retainingRegisters ⟨1⟩).1 :=
    .cons (t := awake) ⟨rfl, rfl, rfl, rfl, rfl⟩
      (.cons (Prod.ext rfl hprepare) (.cons (Prod.ext rfl hresume) .nil))
  exact ⟨_, hrun, (s3_fail_safe hrun).1⟩

end S3System

end BraneKernel
