import BraneKernel.Virtio.Queue

namespace BraneKernel

open Virtio

namespace VirtioBlockState

variable (s : VirtioBlockState)

theorem slot_eq_mod (index : U16) :
    VirtioWorld.slot index s.queueSize = index.toNat % s.queueSize.toNat := by
  obtain ⟨hthree, hsize⟩ := s.size
  obtain ⟨-, hand⟩ := Bool.and_eq_true_iff.mp hsize
  have hone : (s.queueSize - 1).toNat = s.queueSize.toNat - 1 := by
    rw [BitVec.toNat_sub_of_le]
    · rfl
    · rw [BitVec.le_def]
      exact Nat.le_trans (by decide) hthree
  have hpower : s.queueSize.toNat.isPowerOfTwo := by
    rw [← Nat.and_sub_one_eq_zero_iff_isPowerOfTwo (by omega), ← hone, ← BitVec.toNat_and,
      of_decide_eq_true hand]
    rfl
  obtain ⟨k, hk⟩ := hpower
  rw [VirtioWorld.slot, hk, Nat.and_two_pow_sub_one_eq_mod]

theorem ioPort_queueNotify : ∃ port, s.ioPort queueNotify = .ok port := by
  have hports := s.ports
  obtain ⟨port, hport, -⟩ := Checked.add_of_lt
    (show s.ioBase.toNat + queueNotify.toNat < 2 ^ 16 by
      simp only [queueNotify, BitVec.ofNat_eq_ofNat, BitVec.toNat_ofNat]
      omega)
  exact ⟨port, by rw [ioPort, hport]⟩

theorem requestPhysical_eq {offset : U64} (h : offset.toNat < frameSize) :
    s.requestPhysical offset = .ok (s.requestCell offset) := by
  obtain ⟨hlen, hstart, -⟩ := s.page
  have hin : ¬ offset ≥ s.request.len := by
    rw [ge_iff_le, BitVec.le_def]
    omega
  have hadd : Checked.add s.request.physicalStart offset = some (s.requestCell offset) :=
    if_pos (by omega)
  simp only [requestPhysical, DmaRegion.physicalAt, if_neg hin, hadd]

theorem pointerAt_status : ∃ pointer, s.request.pointerAt 1 requestStatusOffset = some pointer := by
  obtain ⟨hlen, -, hvirtual⟩ := s.page
  have hin : ¬ requestStatusOffset + 1 > s.request.len := by
    rw [gt_iff_lt, BitVec.lt_def, hlen]
    decide
  have hoffset : requestStatusOffset.toNat = 528 := rfl
  obtain ⟨pointer, hpointer, -⟩ := Checked.add_of_lt
    (show s.request.virtualStart.toNat + requestStatusOffset.toNat < 2 ^ 64 by
      simp only [frameSize] at hvirtual
      omega)
  have hstop : Checked.add requestStatusOffset 1 = some (requestStatusOffset + 1) := by decide
  exact ⟨pointer, by simp only [DmaRegion.pointerAt, hstop, if_neg hin, hpointer]⟩

def transfer (requestType : U32) (sector : U64) (deviceWritesData : Bool) : Request where
  head := 0
  linked := rwDescriptors (s.requestCell requestHeaderOffset) (s.requestCell requestDataOffset)
    (s.requestCell requestStatusOffset) deviceWritesData
  header := { requestType, reserved := 0, sector }

/-- The memory in which the device finds a request. -/
structure Prepared (m : QueueMemory) (r : Request) (m' : QueueMemory) : Prop where
  available : m'.availableIndex = m.availableIndex
  used : m'.usedIndex = m.usedIndex
  read : .read m' s.queueSize 0 = r
  status : r.linked.getLast?.map VirtqDescriptor.address =
    some (s.requestCell requestStatusOffset)

def rwMemory (requestType : U32) (sector : U64) (deviceWritesData : Bool) (m : QueueMemory) :
    QueueMemory :=
  writeDescriptors
    (rwDescriptors (s.requestCell requestHeaderOffset) (s.requestCell requestDataOffset)
      (s.requestCell requestStatusOffset) deviceWritesData)
    (s.resetRequestStatus (s.writeRequestHeader requestType sector m))

theorem prepareRwDescriptors_eq (requestType : U32) (sector : U64) (deviceWritesData : Bool)
    (m : QueueMemory) : s.prepareRwDescriptors requestType sector deviceWritesData m =
      (s.rwMemory requestType sector deviceWritesData m, .ok ()) := by
  have hheader := s.requestPhysical_eq (show requestHeaderOffset.toNat < frameSize by decide)
  have hdata := s.requestPhysical_eq (show requestDataOffset.toNat < frameSize by decide)
  have hstatus := s.requestPhysical_eq (show requestStatusOffset.toNat < frameSize by decide)
  simp only [prepareRwDescriptors, hheader, hdata, hstatus, rwMemory]

theorem rwMemory_prepared (requestType : U32) (sector : U64) (deviceWritesData : Bool)
    (m : QueueMemory) : s.Prepared m (s.transfer requestType sector deviceWritesData)
      (s.rwMemory requestType sector deviceWritesData m) := by
  refine ⟨rfl, rfl, ?_, rfl⟩
  obtain ⟨n, hn⟩ : ∃ n, s.queueSize.toNat = n + 3 := ⟨_, (Nat.sub_add_cancel s.size.1).symm⟩
  simp only [Request.read, transfer, hn, Request.mk.injEq, true_and]
  constructor
  · cases deviceWritesData <;>
      simp [follow, rwMemory, writeDescriptors, rwDescriptors, descNext, descWrite, Function.update]
  · simp [rwMemory, writeDescriptors, rwDescriptors, Function.update, resetRequestStatus,
      writeRequestHeader]

def flushRequest : Request where
  head := 0
  linked :=
    [{ address := s.requestCell requestHeaderOffset, length := 16, flags := descNext, next := 2 },
      { address := s.requestCell requestStatusOffset, length := 1, flags := descWrite, next := 0 }]
  header := { requestType := typeFlush, reserved := 0, sector := 0 }

theorem prepareFlush_eq (m : QueueMemory) :
    ∃ m', s.prepareFlush m = (m', .ok ()) ∧ s.Prepared m s.flushRequest m' := by
  have hheader := s.requestPhysical_eq (show requestHeaderOffset.toNat < frameSize by decide)
  have hstatus := s.requestPhysical_eq (show requestStatusOffset.toNat < frameSize by decide)
  obtain ⟨n, hn⟩ : ∃ n, s.queueSize.toNat = n + 3 := ⟨_, (Nat.sub_add_cancel s.size.1).symm⟩
  simp only [prepareFlush, hheader, hstatus]
  refine ⟨_, rfl, rfl, rfl, ?_, rfl⟩
  simp only [Request.read, flushRequest, hn, Request.mk.injEq, true_and]
  constructor
  · simp [follow, Function.update, descNext, descWrite]
  · simp [Function.update, resetRequestStatus, writeRequestHeader]

end VirtioBlockState

namespace Virtio

inductive Underway (m : QueueMemory) (d : Device) (r : Request) : QueueMemory × Device → Prop
  | published : Underway m d r (m, d)
  | fetched : Underway m d r (m, { d with seen := m.availableIndex, inFlight := [r] })
  | completed (status : BitVec 8) :
    Underway m d r (finish m { d with seen := m.availableIndex } r status)

variable {m : QueueMemory} {d : Device} {r : Request} {s : QueueMemory × Device}

structure Opened (m : QueueMemory) (d : Device) (r : Request) : Prop where
  idle : d.inFlight = []
  next : d.seen + 1 = m.availableIndex
  entry : .read m d.queueSize (m.availableRing (d.seen.toNat % d.queueSize.toNat)) = r

theorem Opened.fetch_eq (ho : Opened m d r) :
    fetch m d = { d with seen := m.availableIndex, inFlight := [r] } := by
  have hne : d.seen ≠ m.availableIndex := by
    rw [← ho.next]
    simp
  simp only [fetch, if_neg hne, ho.idle, ho.entry, ho.next, List.nil_append]

theorem Opened.finish_eq (ho : Opened m d r) (status : BitVec 8) :
    (DeviceStep.complete status).apply m { d with seen := m.availableIndex, inFlight := [r] } =
      finish m { d with seen := m.availableIndex } r status := by
  simp only [DeviceStep.apply, ho.idle]

theorem Underway.apply (ho : Opened m d r) (h : Underway m d r s) (e : DeviceStep) :
    Underway m d r (e.apply s.1 s.2) := by
  cases h with
  | published =>
    cases e with
    | fetch =>
      simp only [DeviceStep.apply, ho.fetch_eq]
      exact .fetched
    | complete status =>
      simp only [DeviceStep.apply, ho.idle]
      exact .published
  | fetched =>
    cases e with
    | fetch =>
      simp only [DeviceStep.apply, fetch, if_true]
      exact .fetched
    | complete status =>
      rw [ho.finish_eq]
      exact .completed status
  | completed status =>
    cases e with
    | fetch =>
      simp only [DeviceStep.apply, fetch, finish, if_true]
      exact .completed status
    | complete status' =>
      simp only [DeviceStep.apply, finish, ho.idle]
      have hcompleted := Underway.completed (m := m) (d := d) (r := r) status
      simpa only [finish, ho.idle] using hcompleted

@[simp] theorem finish_usedRing (status : BitVec 8) :
    (finish m d r status).1.usedRing = Function.update m.usedRing
      (m.usedIndex.toNat % d.queueSize.toNat) ⟨r.head.setWidth 32, 0⟩ := rfl

theorem finish_statuses {last : VirtqDescriptor} (h : r.linked.getLast? = some last)
    (status : BitVec 8) : (finish m d r status).1.statuses last.address = status := by
  simp only [finish, h]
  exact Function.update_self ..

/-- Whether steps complete a request, where `inFlight` says whether one has been taken up and
another one waits to be. -/
def completes : Bool → List DeviceStep → Bool
  | _, [] => false
  | _, .fetch :: steps => completes true steps
  | inFlight, .complete _ :: steps => inFlight || completes inFlight steps

theorem completes_of_append {inFlight : Bool} {steps rest : List DeviceStep}
    (h : completes inFlight (steps ++ rest) = false) : completes inFlight steps = false := by
  induction steps generalizing inFlight with
  | nil => rfl
  | cons e steps ih =>
    cases e with
    | fetch => exact ih h
    | complete status =>
      obtain ⟨hidle, hrest⟩ := Bool.or_eq_false_iff.mp h
      exact Bool.or_eq_false_iff.mpr ⟨hidle, ih hrest⟩

theorem completes_false_of_true {steps : List DeviceStep} (h : completes true steps = false) :
    completes false steps = false := by
  cases steps with
  | nil => rfl
  | cons e steps =>
    cases e with
    | fetch => exact h
    | complete status => cases h

/-- The steps of the polls from `start` on. -/
def window (schedule : ℕ → List DeviceStep) (start polls : ℕ) : List DeviceStep :=
  (List.range' start polls).flatMap schedule

/-- Whenever a call waits, the device takes a request up and completes one. -/
def Prompt (schedule : ℕ → List DeviceStep) : Prop :=
  ∀ start, completes false (window schedule start maxPollSpins) = true

theorem Underway.open_or_finished (h : Underway m d r s) :
    (s.1.usedIndex = m.usedIndex ∧ s.2.completions = d.completions) ∨
      s.1.usedIndex = m.usedIndex + 1 ∧
        ∃ status, s = finish m { d with seen := m.availableIndex } r status := by
  cases h with
  | published => exact .inl ⟨rfl, rfl⟩
  | fetched => exact .inl ⟨rfl, rfl⟩
  | completed status => exact .inr ⟨rfl, status, rfl⟩

end Virtio

namespace VirtioWorld

variable (schedule : ℕ → List DeviceStep) {w : VirtioWorld} {m : QueueMemory} {d : Device}
  {r : Request}

/-- The world after one step of the device. -/
def stepped (w : VirtioWorld) (e : DeviceStep) : VirtioWorld :=
  { w with memory := (e.apply w.memory w.device).1, device := (e.apply w.memory w.device).2 }

theorem tick_cons (e : DeviceStep) (steps : List DeviceStep) :
    w.tick (e :: steps) = (w.stepped e).tick steps := rfl

theorem completions_fetch (m : QueueMemory) (d : Device) :
    (fetch m d).completions = d.completions := by
  unfold fetch
  split <;> rfl

theorem stepped_complete_idle (h : w.device.inFlight = []) (status : BitVec 8) :
    w.stepped (.complete status) = w := by
  simp only [stepped, DeviceStep.apply, h]

theorem tick_underway (ho : Opened m d r) (h : Underway m d r (w.memory, w.device))
    (steps : List DeviceStep) :
    ∃ s, Underway m d r s ∧ w.tick steps = { w with memory := s.1, device := s.2 } := by
  induction steps generalizing w with
  | nil => exact ⟨_, h, rfl⟩
  | cons e steps ih =>
    obtain ⟨s, hs, htick⟩ := ih (w := w.stepped e) (h.apply ho e)
    exact ⟨s, hs, by rw [tick_cons, htick]; rfl⟩

theorem tick_polls (polls : ℕ) (steps : List DeviceStep) :
    tick { w with polls } steps = { w.tick steps with polls } := by
  induction steps generalizing w with
  | nil => rfl
  | cons e steps ih => exact ih (w := w.stepped e)

theorem tick_fifo (w : VirtioWorld) (steps : List DeviceStep) :
    ∃ done taken, (w.tick steps).device.completions = w.device.completions ++ done ∧
      (w.tick steps).memory.usedIndex = w.memory.usedIndex + BitVec.ofNat 16 done.length ∧
      done.map Prod.fst ++ (w.tick steps).device.inFlight.map Request.header =
        w.device.inFlight.map Request.header ++ taken := by
  induction steps generalizing w with
  | nil => exact ⟨[], [], by simp [tick], by simp [tick], by simp [tick]⟩
  | cons e steps ih =>
    obtain ⟨done, taken, hdone, hused, hfifo⟩ := ih (w.stepped e)
    rw [tick_cons]
    unfold stepped at hdone hused hfifo ⊢
    cases e with
    | fetch =>
      by_cases hseen : w.device.seen = w.memory.availableIndex
      · simp only [DeviceStep.apply, fetch, if_pos hseen] at hdone hused hfifo ⊢
        exact ⟨done, taken, hdone, hused, hfifo⟩
      · simp only [DeviceStep.apply, fetch, if_neg hseen] at hdone hused hfifo ⊢
        rw [List.map_append, List.append_assoc] at hfifo
        exact ⟨done, _, hdone, hused, hfifo⟩
    | complete status =>
      cases hflight : w.device.inFlight with
      | nil =>
        simp only [DeviceStep.apply, hflight] at hdone hused hfifo ⊢
        exact ⟨done, taken, hdone, hused, hfifo⟩
      | cons r rest =>
        simp only [DeviceStep.apply, hflight, finish] at hdone hused hfifo ⊢
        refine ⟨(r.header, status) :: done, taken, ?_, ?_, ?_⟩
        · rw [hdone, List.append_assoc]
          rfl
        · rw [hused, List.length_cons, Nat.add_comm done.length, BitVec.ofNat_add,
            ← BitVec.add_assoc]
          rfl
        · rw [List.map_cons, List.cons_append, hfifo]
          rfl

theorem tick_silent {inFlight : Bool} {steps : List DeviceStep}
    (h : completes inFlight steps = false) (hidle : inFlight = false → w.device.inFlight = []) :
    (w.tick steps).device.completions = w.device.completions := by
  induction steps generalizing w inFlight with
  | nil => rfl
  | cons e steps ih =>
    cases e with
    | fetch =>
      rw [tick_cons, ih h (by simp)]
      exact completions_fetch ..
    | complete status =>
      obtain ⟨hnone, hrest⟩ := Bool.or_eq_false_iff.mp h
      rw [tick_cons, stepped_complete_idle (hidle hnone)]
      exact ih hrest hidle

theorem tick_completes {inFlight : Bool} {steps : List DeviceStep}
    (h : completes inFlight steps = true) (hbusy : inFlight = true → w.device.inFlight ≠ [])
    (hnext : w.device.inFlight = [] → w.device.seen ≠ w.memory.availableIndex) :
    (w.tick steps).device.completions ≠ w.device.completions := by
  induction steps generalizing w inFlight with
  | nil => cases h
  | cons e steps ih =>
    rw [tick_cons]
    cases e with
    | fetch =>
      have htaken : (fetch w.memory w.device).inFlight ≠ [] := by
        unfold fetch
        split_ifs with hseen
        · exact fun hidle ↦ hnext hidle hseen
        · exact List.append_ne_nil_of_right_ne_nil _ (List.cons_ne_nil _ _)
      rw [← completions_fetch w.memory w.device]
      exact ih h (fun _ ↦ htaken) fun hidle ↦ absurd hidle htaken
    | complete status =>
      cases hflight : w.device.inFlight with
      | nil =>
        have hnone : inFlight = false := Bool.eq_false_iff.mpr fun htrue ↦ hbusy htrue hflight
        rw [stepped_complete_idle hflight]
        rw [hnone] at h
        exact ih h (by simp) hnext
      | cons r rest =>
        obtain ⟨done, -, hdone, -⟩ := tick_fifo (w.stepped (.complete status)) steps
        rw [hdone]
        simp [stepped, DeviceStep.apply, hflight, finish]

/-- The world after so many polls. -/
def waited (w : VirtioWorld) (polls : ℕ) : VirtioWorld :=
  { w.tick (window schedule w.polls polls) with polls := w.polls + polls }

theorem waited_succ (polls : ℕ) : w.waited schedule (polls + 1) =
    waited schedule { w.tick (schedule w.polls) with polls := w.polls + 1 } polls := by
  have hsplit : window schedule w.polls (polls + 1) =
      schedule w.polls ++ window schedule (w.polls + 1) polls := by
    rw [window, List.range'_succ, List.flatMap_cons, window]
  have htick : w.tick (schedule w.polls ++ window schedule (w.polls + 1) polls) =
      (w.tick (schedule w.polls)).tick (window schedule (w.polls + 1) polls) :=
    List.foldl_append
  have hpolls := tick_polls (w := w.tick (schedule w.polls)) (w.polls + 1)
    (window schedule (w.polls + 1) polls)
  rw [waited, waited]
  dsimp only
  rw [hsplit, htick, hpolls, Nat.add_assoc, Nat.add_comm 1]

theorem poll_cases (expected : U16) (fuel : ℕ) (w : VirtioWorld) : ∃ n ≤ fuel,
    ((w.waited schedule n).memory.usedIndex = expected ∧
      poll schedule expected fuel w = (w.waited schedule n, true)) ∨
    n = fuel ∧ (fuel ≠ 0 → (w.waited schedule n).memory.usedIndex ≠ expected) ∧
      poll schedule expected fuel w = (w.waited schedule n, false) := by
  induction fuel generalizing w with
  | zero => exact ⟨0, le_rfl, .inr ⟨rfl, by simp, rfl⟩⟩
  | succ fuel ih =>
    rw [poll]
    dsimp only
    split_ifs with hused
    · refine ⟨1, by omega, .inl ?_⟩
      rw [waited_succ]
      exact ⟨hused, rfl⟩
    · obtain ⟨n, hn, ⟨hmatch, hpoll⟩ | ⟨rfl, hmiss, hpoll⟩⟩ :=
        ih { w.tick (schedule w.polls) with polls := w.polls + 1 }
      · refine ⟨n + 1, by omega, .inl ?_⟩
        rw [waited_succ]
        exact ⟨hmatch, hpoll⟩
      · refine ⟨n + 1, le_rfl, .inr ⟨rfl, fun _ ↦ ?_, ?_⟩⟩
        · rw [waited_succ]
          rcases Nat.eq_zero_or_pos n with rfl | hpos
          · exact hused
          · exact hmiss hpos.ne'
        · rw [waited_succ, hpoll]

theorem publishAndWait_cases (w : VirtioWorld) : ∃ n ≤ maxPollSpins,
    ((w.publish.waited schedule n).memory.usedIndex = w.driver.lastUsedIndex + 1 ∧
      w.publishAndWait schedule =
        (w.publish.waited schedule n).collect (w.driver.lastUsedIndex + 1)) ∨
    n = maxPollSpins ∧
      (w.publish.waited schedule n).memory.usedIndex ≠ w.driver.lastUsedIndex + 1 ∧
      w.publishAndWait schedule = (w.publish.waited schedule n, .error .busy) := by
  obtain ⟨port, hport⟩ := w.publish.driver.ioPort_queueNotify
  have hlast : w.publish.driver.lastUsedIndex = w.driver.lastUsedIndex := rfl
  obtain ⟨n, hn, ⟨hmatch, hpoll⟩ | ⟨rfl, hmiss, hpoll⟩⟩ :=
    poll_cases schedule (w.driver.lastUsedIndex + 1) maxPollSpins w.publish
  · exact ⟨n, hn, .inl ⟨hmatch, by simp only [publishAndWait, hport, hlast, hpoll]⟩⟩
  · exact ⟨maxPollSpins, le_rfl, .inr ⟨rfl, hmiss (by decide),
      by simp only [publishAndWait, hport, hlast, hpoll]⟩⟩

/-- The device has taken up every published request. -/
structure Taken (w : VirtioWorld) : Prop where
  seen : w.device.seen = w.driver.availableIndex
  available : w.memory.availableIndex = w.driver.availableIndex
  size : w.device.queueSize = w.driver.queueSize

/-- No request is abandoned: all are completed, and the driver has collected all completions. -/
structure Quiet (w : VirtioWorld) : Prop extends Taken w where
  idle : w.device.inFlight = []
  used : w.memory.usedIndex = w.driver.lastUsedIndex

/-- The driver does not expect the used index that it finds, and the device completes nothing while
the driver waits. -/
structure Stalled (w : VirtioWorld) : Prop where
  apart : w.memory.usedIndex ≠ w.driver.lastUsedIndex + 1
  silent : completes (!w.device.inFlight.isEmpty) (window schedule w.polls maxPollSpins) = false

theorem Quiet.tick (h : Quiet w) (steps : List DeviceStep) : w.tick steps = w := by
  induction steps with
  | nil => rfl
  | cons e steps ih =>
    have hstay : w.stepped e = w := by
      cases e with
      | fetch => simp only [stepped, DeviceStep.apply, fetch, h.seen, h.available, if_true]
      | complete status => exact stepped_complete_idle h.idle status
    rw [tick_cons, hstay]
    exact ih

inductive Answer (w : VirtioWorld) (r : Request) : VirtioWorld × Except BlockError Unit → Prop
  | busy {w' : VirtioWorld} (h : w'.device.completions = w.device.completions)
      (hlate : ¬ Prompt schedule) : Answer w r (w', .error .busy)
  | passed {w' : VirtioWorld} (hquiet : Quiet w') (hrequest : w'.driver.request = w.driver.request)
      (h : w'.device.completions = w.device.completions ++ [(r.header, statusOk)])
      (hmoved : (w'.memory.buffers, w'.device.medium) = r.move w.memory.buffers w.device.medium) :
    Answer w r (w', .ok ())
  | failed {w' : VirtioWorld} (hquiet : Quiet w') {status : BitVec 8} {e : BlockError}
      (hresult : statusResult status = .error e)
      (h : w'.device.completions = w.device.completions ++ [(r.header, status)]) :
    Answer w r (w', .error e)

theorem statusResult_cases (status : BitVec 8) :
    (status = statusOk ∧ statusResult status = .ok ()) ∨ ∃ e ≠ .busy,
      statusResult status = .error e := by
  unfold statusResult
  split_ifs with hok
  · exact .inl ⟨hok, rfl⟩
  · exact .inr ⟨_, by simp, rfl⟩
  · exact .inr ⟨_, by simp, rfl⟩

theorem statusResult_ne_busy (status : BitVec 8) : statusResult status ≠ .error .busy := by
  obtain ⟨-, hok⟩ | ⟨e, hbusy, hfailed⟩ := statusResult_cases status
  · simp [hok]
  · simpa [hfailed] using hbusy

theorem Quiet.opened (h : Quiet w) (hr : .read w.memory w.driver.queueSize 0 = r) :
    Opened w.publish.memory w.publish.device r := by
  refine ⟨h.idle, by rw [publish, h.seen], ?_⟩
  have hentry : w.publish.memory.availableRing
      (w.device.seen.toNat % w.device.queueSize.toNat) = 0 := by
    rw [h.seen, h.size, ← w.driver.slot_eq_mod]
    exact Function.update_self ..
  rw [← hr, ← h.size, ← hentry]
  rfl

theorem collect_finish {status : BitVec 8} (hmemory : w.memory = (finish m d r status).1)
    (hhead : r.head = 0) (hused : m.usedIndex = w.driver.lastUsedIndex)
    (hsize : d.queueSize = w.driver.queueSize)
    (hstatus : r.linked.getLast?.map VirtqDescriptor.address =
      some (w.driver.requestCell requestStatusOffset)) (expected : U16) :
    w.collect expected = ({ w with driver := { w.driver with lastUsedIndex := expected } },
      statusResult status) := by
  obtain ⟨last, hlast, haddress⟩ := Option.map_eq_some_iff.mp hstatus
  have hid : (w.memory.usedRing (slot w.driver.lastUsedIndex w.driver.queueSize)).id = 0 := by
    rw [VirtioBlockState.slot_eq_mod, hmemory, finish_usedRing, hused, hsize, Function.update_self,
      hhead]
    rfl
  have hwritten : w.memory.statuses (w.driver.requestCell requestStatusOffset) = status := by
    rw [hmemory, ← haddress, finish_statuses hlast]
  obtain ⟨pointer, hpointer⟩ := w.driver.pointerAt_status
  simp only [collect, hid, hpointer, ne_eq, not_true_eq_false, if_false]
  exact Prod.ext rfl (congrArg statusResult hwritten)

theorem Quiet.prepared (h : Quiet w) {m : QueueMemory} (hm : w.driver.Prepared w.memory r m) :
    Quiet { w with memory := m } :=
  ⟨⟨h.seen, hm.available.trans h.available, h.size⟩, h.idle, hm.used.trans h.used⟩

theorem Quiet.answer (h : Quiet w) {m : QueueMemory} (hm : w.driver.Prepared w.memory r m) :
    Answer schedule { w with memory := m } r (publishAndWait schedule { w with memory := m }) := by
  set u : VirtioWorld := { w with memory := m }
  have hquiet : Quiet u := h.prepared hm
  have hopened := hquiet.opened hm.read
  have hused : u.publish.memory.usedIndex = u.driver.lastUsedIndex := hquiet.used
  obtain ⟨n, -, hcases⟩ := publishAndWait_cases schedule u
  obtain ⟨s, hs, htick⟩ := tick_underway hopened .published (window schedule u.polls n)
  have hwaited : u.publish.waited schedule n =
      { u.publish with memory := s.1, device := s.2, polls := u.polls + n } := by
    rw [waited]
    exact congrArg (fun v : VirtioWorld ↦ { v with polls := u.polls + n }) htick
  rw [hwaited] at hcases
  rcases hcases with ⟨hmatch, hresult⟩ | ⟨rfl, hmiss, hresult⟩
  · obtain ⟨hsame, -⟩ | ⟨-, status, rfl⟩ := hs.open_or_finished
    · rw [hsame, hused] at hmatch
      simp at hmatch
    · have hhead : r.head = 0 := by rw [← hm.read]; rfl
      rw [hresult, collect_finish (w := { u.publish with memory := _, device := _, polls := _ })
        (d := { u.publish.device with seen := u.publish.memory.availableIndex }) rfl hhead hused
        hquiet.size hm.status]
      obtain ⟨rfl, hok⟩ | ⟨e, -, hfailed⟩ := statusResult_cases status
      · rw [hok]
        exact .passed ⟨⟨rfl, rfl, hquiet.size⟩, hquiet.idle, congrArg (· + 1) hused⟩ rfl rfl rfl
      · rw [hfailed]
        refine .failed ?_ hfailed rfl
        exact ⟨⟨rfl, rfl, hquiet.size⟩, hquiet.idle, congrArg (· + 1) hused⟩
  · obtain ⟨-, hsame⟩ | ⟨hdone, -⟩ := hs.open_or_finished
    · rw [hresult]
      refine .busy hsame fun hprompt ↦ ?_
      -- A prompt device has completed the request by the last poll.
      refine tick_completes (w := u.publish) (hprompt u.polls) (by simp) (fun _ ↦ ?_) ?_
      · rw [← hopened.next]
        simp
      · rw [← hsame]
        exact congrArg (fun v : VirtioWorld ↦ v.device.completions) htick
    · rw [hused] at hdone
      exact absurd hdone hmiss

theorem Stalled.publishAndWait_busy (h : Stalled schedule w) :
    ∃ w', w.publishAndWait schedule = (w', .error .busy) ∧
      w'.device.completions = w.device.completions := by
  obtain ⟨n, hn, hcases⟩ := publishAndWait_cases schedule w
  have hsplit : window schedule w.polls maxPollSpins =
      window schedule w.polls n ++ window schedule (w.polls + n) (maxPollSpins - n) := by
    rw [window, window, window, ← List.flatMap_append, List.range'_append_1,
      Nat.add_sub_cancel' hn]
  have hsilent := h.silent
  rw [hsplit] at hsilent
  have hsame : (w.publish.waited schedule n).device.completions = w.device.completions :=
    tick_silent (w := w.publish) (completes_of_append hsilent) (by simp [publish])
  rcases hcases with ⟨hmatch, -⟩ | ⟨-, -, hresult⟩
  · obtain ⟨done, -, hdone, hused, -⟩ := tick_fifo w.publish (window schedule w.polls n)
    obtain rfl : done = [] := List.append_right_eq_self.mp (hdone.symm.trans hsame)
    exact absurd (hused.symm.trans hmatch) (by simpa [publish] using h.apart)
  · exact ⟨_, hresult, hsame⟩

theorem Stalled.not_prompt (h : Stalled schedule w) : ¬ Prompt schedule := by
  intro hprompt
  have hsilent := h.silent
  cases hidle : w.device.inFlight.isEmpty with
  | true =>
    rw [hidle, Bool.not_true, hprompt] at hsilent
    cases hsilent
  | false =>
    rw [hidle, Bool.not_false] at hsilent
    have hnone := completes_false_of_true hsilent
    rw [hprompt] at hnone
    cases hnone

theorem Stalled.prepared (h : Stalled schedule w) {m : QueueMemory}
    (hm : w.driver.Prepared w.memory r m) : Stalled schedule { w with memory := m } :=
  ⟨hm.used.symm ▸ h.apart, h.silent⟩

/-- The memory with a read of the sector prepared. -/
def readMemory (w : VirtioWorld) (sector : U64) : QueueMemory :=
  w.driver.rwMemory typeIn sector true (w.driver.clearRequest w.memory)

theorem readMemory_prepared (w : VirtioWorld) (sector : U64) :
    w.driver.Prepared w.memory (w.driver.transfer typeIn sector true) (w.readMemory sector) :=
  have h := w.driver.rwMemory_prepared typeIn sector true (w.driver.clearRequest w.memory)
  ⟨h.available, h.used, h.read, h.status⟩

theorem submitRead_eq {w' : VirtioWorld} {result : Except BlockError Unit} {sector : U64}
    (h : publishAndWait schedule { w with memory := w.readMemory sector } = (w', result)) :
    w.submitRead schedule sector =
      (w', result.map fun _ ↦ w'.memory.buffers (w'.driver.requestCell requestDataOffset)) := by
  rw [readMemory] at h
  simp only [submitRead, VirtioBlockState.prepareRwDescriptors_eq, h]
  cases result <;> rfl

theorem submitWrite_eq (w : VirtioWorld) (sector : U64) (input : Bytes) : ∃ m,
    w.driver.Prepared w.memory (w.driver.transfer typeOut sector false) m ∧
    w.submitWrite schedule sector input = publishAndWait schedule { w with memory := m } := by
  have h := w.driver.rwMemory_prepared typeOut sector false
    { w.memory with buffers :=
        Function.update w.memory.buffers (w.driver.requestCell requestDataOffset) input }
  refine ⟨_, ⟨h.available, h.used, h.read, h.status⟩, ?_⟩
  simp only [submitWrite, VirtioBlockState.prepareRwDescriptors_eq]

theorem submitFlush_eq (w : VirtioWorld) : ∃ m,
    w.driver.Prepared w.memory w.driver.flushRequest m ∧
    w.submitFlush schedule = publishAndWait schedule { w with memory := m } := by
  obtain ⟨m, hprepare, hm⟩ := w.driver.prepareFlush_eq w.memory
  exact ⟨m, hm, by simp only [submitFlush, hprepare]⟩

end VirtioWorld

end BraneKernel
