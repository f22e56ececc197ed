import BraneKernel.Virtio.Requests

namespace BraneKernel

open VirtioWorld

open Virtio

namespace VirtioBlockDevice

open VirtioWorld (Quiet Stalled publishAndWait)

inductive Reports : List VirtioBlockRequestHeader → List (VirtioBlockRequestHeader × BitVec 8) →
    Except BlockError Unit → Prop
  | nil : Reports [] [] (.ok ())
  | passed {header : VirtioBlockRequestHeader} {headers : List VirtioBlockRequestHeader}
      {done : List (VirtioBlockRequestHeader × BitVec 8)} {result : Except BlockError Unit}
      (h : Reports headers done result) :
    Reports (header :: headers) ((header, statusOk) :: done) result
  | failed {header : VirtioBlockRequestHeader} {headers : List VirtioBlockRequestHeader}
      {status : BitVec 8} {e : BlockError} (h : statusResult status = .error e) :
    Reports (header :: headers) [(header, status)] (.error e)
  | busy {header : VirtioBlockRequestHeader} {headers : List VirtioBlockRequestHeader} :
    Reports (header :: headers) [] (.error .busy)

def headers (requestType : U32) (lba : U64) (index n : ℕ) : List VirtioBlockRequestHeader :=
  (List.range' index n).map fun i ↦ ⟨requestType, 0, lba + BitVec.ofNat 64 i⟩

/-- The call that made the requests has reported their completions, and has left the queue quiet
unless it timed out, which a prompt device does not let happen. -/
structure Handled (schedule : ℕ → List DeviceStep) (w : VirtioWorld)
    (hs : List VirtioBlockRequestHeader) (w' : VirtioWorld) (result : Except BlockError Unit) :
    Prop where
  reported : ∃ done, w'.device.completions = w.device.completions ++ done ∧ Reports hs done result
  quiet : result ≠ .error .busy → Quiet w'
  late : result = .error .busy → ¬ Prompt schedule

variable {schedule : ℕ → List DeviceStep} {lba : U64} {index : ℕ} {w w' : VirtioWorld}
  {header : VirtioBlockRequestHeader} {hs : List VirtioBlockRequestHeader}
  {result : Except BlockError Unit} {done : List (VirtioBlockRequestHeader × BitVec 8)}

theorem Reports.singleton (h : Reports [header] done result) : (done = [] ∧ result = .error .busy) ∨
      ∃ status, done = [(header, status)] ∧ result = statusResult status := by
  cases h with
  | passed h =>
    cases h
    exact .inr ⟨statusOk, rfl, rfl⟩
  | failed h => exact .inr ⟨_, rfl, h.symm⟩
  | busy => exact .inl ⟨rfl, rfl⟩

theorem Handled.nil (h : Quiet w) : Handled schedule w [] w (.ok ()) :=
  ⟨⟨[], by simp, .nil⟩, fun _ ↦ h, by simp⟩

theorem Handled.busy (h : w'.device.completions = w.device.completions)
    (hlate : ¬ Prompt schedule) : Handled schedule w (header :: hs) w' (.error .busy) :=
  ⟨⟨[], by rw [h, List.append_nil], .busy⟩, by simp, fun _ ↦ hlate⟩

theorem Handled.failed (hquiet : Quiet w') {status : BitVec 8} {e : BlockError}
    (hresult : statusResult status = .error e)
    (h : w'.device.completions = w.device.completions ++ [(header, status)]) :
    Handled schedule w (header :: hs) w' (.error e) :=
  ⟨⟨_, h, .failed hresult⟩, fun _ ↦ hquiet,
    fun hbusy ↦ absurd (hresult.trans hbusy) (statusResult_ne_busy status)⟩

theorem Handled.cons {w'' : VirtioWorld} (h : Handled schedule w' hs w'' result)
    (hcompletions : w'.device.completions = w.device.completions ++ [(header, statusOk)]) :
    Handled schedule w (header :: hs) w'' result := by
  obtain ⟨done, hdone, hreports⟩ := h.reported
  refine ⟨⟨(header, statusOk) :: done, ?_, .passed hreports⟩, h.quiet, h.late⟩
  rw [hdone, hcompletions, List.append_assoc]
  rfl

variable (schedule)

theorem sector_add (h : lba.toNat + index < 2 ^ 64) :
    Checked.add lba (BitVec.ofNat 64 index) = some (lba + BitVec.ofNat 64 index) := by
  apply if_pos
  rwa [BitVec.toNat_ofNat, Nat.mod_eq_of_lt (by omega)]

theorem readSectors_handled (lba : U64) (index : ℕ) (h : Quiet w) (sectors : List Bytes)
    (hrange : lba.toNat + index + sectors.length < 2 ^ 64) :
    ∃ w' buffer result, readSectors schedule lba index sectors w = (w', buffer, result) ∧
      Handled schedule w (headers typeIn lba index sectors.length) w' result ∧
      (result = .ok () → buffer = (List.range' index sectors.length).flatMap fun i ↦
        w.device.medium (lba + BitVec.ofNat 64 i)) := by
  induction sectors generalizing index w with
  | nil => exact ⟨w, [], .ok (), rfl, .nil h, fun _ ↦ rfl⟩
  | cons sector rest ih =>
    rw [List.length_cons] at hrange
    have hanswer := h.answer schedule (w.readMemory_prepared (lba + BitVec.ofNat 64 index))
    rcases ho : publishAndWait schedule { w with memory := w.readMemory _ } with ⟨w', result⟩
    rw [ho] at hanswer
    simp only [readSectors, sector_add (show lba.toNat + index < 2 ^ 64 by omega),
      submitRead_eq schedule ho]
    cases hanswer with
    | busy hcompletions hlate => exact ⟨_, _, _, rfl, .busy hcompletions hlate, by simp⟩
    | failed hquiet hresult hcompletions =>
      exact ⟨_, _, _, rfl, .failed hquiet hresult hcompletions, by simp⟩
    | passed hquiet hrequest hcompletions hmoved =>
      obtain ⟨hbuffers, hmedium⟩ := Prod.mk.inj hmoved
      have hdata : w'.memory.buffers (w'.driver.requestCell requestDataOffset) =
          w.device.medium (lba + BitVec.ofNat 64 index) := by
        rw [VirtioBlockState.requestCell, hrequest, hbuffers]
        exact Function.update_self ..
      obtain ⟨w'', buffer, result, hread, hhandled, hrest⟩ := ih (index + 1) hquiet (by omega)
      refine ⟨w'', _, result, by simp only [hread, Except.map, hdata]; rfl,
        hhandled.cons hcompletions, ?_⟩
      intro hok
      rw [hrest hok, hmedium, List.length_cons, List.range'_succ, List.flatMap_cons]

theorem writeSectors_handled (lba : U64) (index : ℕ) (h : Quiet w) (sectors : List Bytes)
    (hrange : lba.toNat + index + sectors.length < 2 ^ 64) :
    ∃ w' result, writeSectors schedule lba index sectors w = (w', result) ∧
      Handled schedule w (headers typeOut lba index sectors.length) w' result := by
  induction sectors generalizing index w with
  | nil => exact ⟨w, .ok (), rfl, .nil h⟩
  | cons sector rest ih =>
    rw [List.length_cons] at hrange
    obtain ⟨m, hm, hwrite⟩ := w.submitWrite_eq schedule (lba + BitVec.ofNat 64 index) sector
    have hanswer := h.answer schedule hm
    rw [← hwrite] at hanswer
    simp only [writeSectors, sector_add (show lba.toNat + index < 2 ^ 64 by omega)]
    generalize w.submitWrite schedule (lba + BitVec.ofNat 64 index) sector = o at hanswer
    cases hanswer with
    | busy hcompletions hlate => exact ⟨_, _, rfl, .busy hcompletions hlate⟩
    | failed hquiet hresult hcompletions =>
      exact ⟨_, _, rfl, .failed hquiet hresult hcompletions⟩
    | passed hquiet _ hcompletions _ =>
      obtain ⟨w'', result, hrest, hhandled⟩ := ih (index + 1) hquiet (by omega)
      exact ⟨w'', result, by simp only [hrest], hhandled.cons hcompletions⟩

abbrev Slice := { bytes : Bytes // bytes.length < 0x10000000000000000 }

inductive Call
  | read (lba : U64) (buffer : Slice)
  | write (lba : U64) (data : Slice)
  | flush

def requests (device : VirtioBlockDevice) : Call → Except BlockError (List VirtioBlockRequestHeader)
  | .read lba buffer =>
    match device.validateTransfer lba buffer.1.length with
    | .error e => .error e
    | .ok () => .ok (headers typeIn lba 0 (buffer.1.length / Virtio.sectorSize))
  | .write lba data =>
    if device.readOnly then .error .readOnly
    else
      match device.validateTransfer lba data.1.length with
      | .error e => .error e
      | .ok () => .ok (headers typeOut lba 0 (data.1.length / Virtio.sectorSize))
  | .flush =>
    if device.supportsFlush then .ok [⟨typeFlush, 0, 0⟩] else .error .unsupported

def perform (device : VirtioBlockDevice) (w : VirtioWorld) :
    Call → VirtioWorld × Bytes × Except BlockError Unit
  | .read lba buffer => device.readBlocks schedule lba buffer.1 w
  | .write lba data =>
    let (w, result) := device.writeBlocks schedule lba data.1 w
    (w, [], result)
  | .flush =>
    let (w, result) := device.flush schedule w
    (w, [], result)

variable {device : VirtioBlockDevice}

theorem length_chunksExact (n : ℕ) (l : Bytes) :
    (Chunks.chunksExact n l).length = l.length / n := by
  rw [Chunks.chunksExact, List.length_map, List.length_range]

theorem validateTransfer_cases (device : VirtioBlockDevice) (lba : U64) (buffer : Slice) :
    (∃ e ≠ .busy, device.validateTransfer lba buffer.1.length = .error e) ∨
      device.validateTransfer lba buffer.1.length = .ok () ∧
        ∃ sector rest, Chunks.chunksExact Virtio.sectorSize buffer.1 = sector :: rest ∧
          buffer.1.length / Virtio.sectorSize = rest.length + 1 ∧
          lba.toNat + 0 + (rest.length + 1) < 2 ^ 64 := by
  unfold validateTransfer
  split_ifs with haligned
  · exact .inl ⟨_, by simp, rfl⟩
  · have hbytes := buffer.2
    obtain ⟨n, hn⟩ : ∃ n, buffer.1.length / Virtio.sectorSize = n + 1 := by
      apply Nat.exists_eq_succ_of_ne_zero
      simp only [Virtio.sectorSize] at haligned ⊢
      omega
    obtain ⟨sector, rest, hchunks⟩ := List.exists_cons_of_length_eq_add_one
      ((length_chunksExact Virtio.sectorSize buffer.1).trans hn)
    have hlength := length_chunksExact Virtio.sectorSize buffer.1
    rw [hchunks, List.length_cons] at hlength
    cases hadd : Checked.add lba (BitVec.ofNat 64 (buffer.1.length / Virtio.sectorSize)) with
    | none => exact .inl ⟨_, by simp, rfl⟩
    | some stop =>
      have hstop := Checked.add_eq_some_iff.mp hadd
      have hlt := stop.isLt
      rw [BitVec.toNat_ofNat, Nat.mod_eq_of_lt ((Nat.div_le_self _ _).trans_lt hbytes)] at hstop
      dsimp only
      split_ifs
      · exact .inl ⟨_, by simp, rfl⟩
      · exact .inr ⟨rfl, sector, rest, hchunks, hlength.symm, by omega⟩

/-- What a call does: it is refused, or it submits the requests that it makes. -/
inductive Performs (device : VirtioBlockDevice) (w : VirtioWorld) : Call → Prop
  | refused {c : Call} (buffer : Bytes) (e : BlockError) (he : e ≠ .busy)
      (hrequests : device.requests c = .error e)
      (h : device.perform schedule w c = (w, buffer, .error e)) : Performs device w c
  | read {lba : U64} {buffer : Slice} (sector : Bytes) (rest : List Bytes)
      (hlength : buffer.1.length / Virtio.sectorSize = rest.length + 1)
      (hrange : lba.toNat + 0 + (rest.length + 1) < 2 ^ 64)
      (hrequests : device.requests (.read lba buffer) =
        .ok (headers typeIn lba 0 (rest.length + 1)))
      (h : device.perform schedule w (.read lba buffer) =
        readSectors schedule lba 0 (sector :: rest) w) : Performs device w (.read lba buffer)
  | write {lba : U64} {data : Slice} (sector : Bytes) (rest : List Bytes)
      (hrange : lba.toNat + 0 + (rest.length + 1) < 2 ^ 64)
      (hrequests : device.requests (.write lba data) =
        .ok (headers typeOut lba 0 (rest.length + 1)))
      (h : ∀ w' result, writeSectors schedule lba 0 (sector :: rest) w = (w', result) →
        device.perform schedule w (.write lba data) = (w', [], result)) :
    Performs device w (.write lba data)
  | flush (hrequests : device.requests .flush = .ok [⟨typeFlush, 0, 0⟩])
      (h : ∀ w' result, w.submitFlush schedule = (w', result) →
        device.perform schedule w .flush = (w', [], result)) : Performs device w .flush

theorem performs (device : VirtioBlockDevice) (w : VirtioWorld) (c : Call) :
    Performs schedule device w c := by
  cases c with
  | read lba buffer =>
    obtain ⟨e, he, hvalid⟩ | ⟨hvalid, sector, rest, hchunks, hlength, hrange⟩ :=
      device.validateTransfer_cases lba buffer
    · exact .refused buffer.1 e he (by simp only [requests, hvalid])
        (by simp only [perform, readBlocks, hvalid])
    · exact .read sector rest hlength hrange (by simp only [requests, hvalid, hlength])
        (by simp only [perform, readBlocks, hvalid, hchunks])
  | write lba data =>
    cases hreadOnly : device.readOnly with
    | true =>
      exact .refused [] .readOnly (by simp) (by simp [requests, hreadOnly])
        (by simp only [perform, writeBlocks, hreadOnly, if_true])
    | false =>
      obtain ⟨e, he, hvalid⟩ | ⟨hvalid, sector, rest, hchunks, hlength, hrange⟩ :=
        device.validateTransfer_cases lba data
      · exact .refused [] e he (by simp [requests, hreadOnly, hvalid])
          (by simp only [perform, writeBlocks, hreadOnly, hvalid, Bool.false_eq_true, if_false])
      · refine .write sector rest hrange (by simp [requests, hreadOnly, hvalid, hlength]) ?_
        intro w' result hw
        simp only [perform, writeBlocks, hreadOnly, hvalid, hchunks, hw, Bool.false_eq_true,
          if_false]
  | flush =>
    cases hflush : device.supportsFlush with
    | false =>
      exact .refused [] .unsupported (by simp) (by simp [requests, hflush])
        (by simp [perform, flush, hflush])
    | true =>
      exact .flush (by simp [requests, hflush]) fun w' result hw ↦ by
        simp [perform, flush, hflush, hw]

/-- A call that is refused does nothing; another one reports the completions of its own requests,
and a read that succeeds delivers the sectors it asked for. -/
structure Answered (device : VirtioBlockDevice) (w : VirtioWorld) (c : Call) : Prop where
  refused (e : BlockError) (h : device.requests c = .error e) :
    (device.perform schedule w c).1 = w ∧ (device.perform schedule w c).2.2 = .error e
  handled (hs : List VirtioBlockRequestHeader) (h : device.requests c = .ok hs) :
    Handled schedule w hs (device.perform schedule w c).1 (device.perform schedule w c).2.2
  delivered (lba : U64) (output : Slice) (hc : c = .read lba output)
    (h : (device.perform schedule w c).2.2 = .ok ()) :
    (device.perform schedule w c).2.1 =
      (List.range (output.1.length / Virtio.sectorSize)).flatMap fun i ↦
        w.device.medium (lba + BitVec.ofNat 64 i)

variable {c : Call} {buffer : Bytes}

theorem answered_of_refused {e : BlockError} (h : device.requests c = .error e)
    (hperform : device.perform schedule w c = (w, buffer, .error e)) :
    Answered schedule device w c where
  refused e' h' := by
    obtain rfl := Except.error.inj (h.symm.trans h')
    rw [hperform]
    exact ⟨rfl, rfl⟩
  handled hs h' := by simp [h] at h'
  delivered _ _ _ hok := by simp [hperform] at hok

theorem answered_of_handled (h : device.requests c = .ok hs)
    (hperform : device.perform schedule w c = (w', buffer, result))
    (hhandled : Handled schedule w hs w' result)
    (hdelivered : ∀ lba output, c = .read lba output → result = .ok () →
      buffer = (List.range (output.1.length / Virtio.sectorSize)).flatMap fun i ↦
        w.device.medium (lba + BitVec.ofNat 64 i)) :
    Answered schedule device w c where
  refused e h' := by simp [h] at h'
  handled hs' h' := by
    obtain rfl := Except.ok.inj (h.symm.trans h')
    rwa [hperform]
  delivered := by
    rw [hperform]
    exact hdelivered

theorem perform_answered (device : VirtioBlockDevice) (h : Quiet w) (c : Call) :
    Answered schedule device w c := by
  cases performs schedule device w c with
  | refused _ _ _ hrequests hperform => exact answered_of_refused schedule hrequests hperform
  | read sector rest hlength hrange hrequests hperform =>
    obtain ⟨w', out, result, hread, hhandled, hdata⟩ :=
      readSectors_handled schedule _ 0 h (sector :: rest) hrange
    refine answered_of_handled schedule hrequests (hperform.trans hread) hhandled ?_
    intro lba' output hc hok
    cases hc
    rw [hdata hok, List.range_eq_range', hlength]
    rfl
  | write sector rest hrange hrequests hperform =>
    obtain ⟨w', result, hwrite, hhandled⟩ :=
      writeSectors_handled schedule _ 0 h (sector :: rest) hrange
    exact answered_of_handled schedule hrequests (hperform w' result hwrite) hhandled (by simp)
  | flush hrequests hperform =>
    obtain ⟨m, hm, hflush⟩ := w.submitFlush_eq schedule
    have hanswer := h.answer schedule hm
    rw [← hflush] at hanswer
    rcases ho : w.submitFlush schedule with ⟨w', result⟩
    rw [ho] at hanswer
    refine answered_of_handled schedule hrequests (hperform w' result ho) ?_ (by simp)
    cases hanswer with
    | busy hcompletions hlate => exact .busy hcompletions hlate
    | failed hquiet hresult hcompletions => exact .failed hquiet hresult hcompletions
    | passed hquiet _ hcompletions _ => exact .cons (.nil hquiet) hcompletions

theorem add_zero_index (lba : U64) : Checked.add lba (BitVec.ofNat 64 0) = some lba := by
  rw [Checked.add_eq_some_iff]
  rfl

theorem readBlocks_first {input : Slice}
    (h : device.requests (.read lba input) = .ok (header :: hs))
    (ho : publishAndWait schedule { w with memory := w.readMemory lba } = (w', result))
    (hlast : hs = [] ∨ ∃ e, result = .error e) :
    ∃ output, device.perform schedule w (.read lba input) = (w', output, result) := by
  cases performs schedule device w (.read lba input) with
  | refused _ _ _ hrequests _ => simp [h] at hrequests
  | read sector rest hlength hrange hrequests hperform =>
    obtain ⟨rfl, rfl⟩ := List.cons.inj (Except.ok.inj (h.symm.trans hrequests))
    rw [hperform]
    simp only [readSectors, add_zero_index, submitRead_eq schedule ho]
    cases result with
    | error e => exact ⟨_, rfl⟩
    | ok _ =>
      obtain rfl : rest = [] := by simpa using hlast
      exact ⟨_, rfl⟩

/-- The call's first request, and that the call ends with it if it has no other one or this one
fails. -/
theorem perform_first (h : device.requests c = .ok (header :: hs)) (w : VirtioWorld) :
    ∃ m r, w.driver.Prepared w.memory r m ∧ r.header = header ∧
      ∀ w' result, publishAndWait schedule { w with memory := m } = (w', result) →
        hs = [] ∨ (∃ e, result = .error e) → ∃ buffer,
          device.perform schedule w c = (w', buffer, result) := by
  cases performs schedule device w c with
  | refused _ _ _ hrequests _ => simp [h] at hrequests
  | @read lba _ sector rest _ _ hrequests _ =>
    obtain ⟨rfl, rfl⟩ := List.cons.inj (Except.ok.inj (h.symm.trans hrequests))
    exact ⟨_, _, w.readMemory_prepared lba, by simp; rfl, fun _ _ ↦ readBlocks_first schedule h⟩
  | @write lba _ sector rest hrange hrequests hperform =>
    obtain ⟨rfl, rfl⟩ := List.cons.inj (Except.ok.inj (h.symm.trans hrequests))
    obtain ⟨m, hm, hwrite⟩ := w.submitWrite_eq schedule lba sector
    refine ⟨m, _, hm, by simp; rfl, fun w' result ho hlast ↦ ⟨[], hperform w' result ?_⟩⟩
    simp only [writeSectors, add_zero_index, hwrite, ho]
    cases result with
    | error e => rfl
    | ok _ =>
      obtain rfl : rest = [] := by simpa using hlast
      rfl
  | flush hrequests hperform =>
    obtain ⟨rfl, rfl⟩ := List.cons.inj (Except.ok.inj (h.symm.trans hrequests))
    obtain ⟨m, hm, hflush⟩ := w.submitFlush_eq schedule
    exact ⟨m, _, hm, rfl, fun w' result ho _ ↦ ⟨[], hperform w' result (hflush.trans ho)⟩⟩

theorem requests_cases (device : VirtioBlockDevice) (w : VirtioWorld) (c : Call) :
    (∃ buffer e, e ≠ .busy ∧ device.requests c = .error e ∧
      device.perform schedule w c = (w, buffer, .error e)) ∨
    ∃ header hs, device.requests c = .ok (header :: hs) := by
  cases performs schedule device w c with
  | refused buffer e he hrequests hperform => exact .inl ⟨buffer, e, he, hrequests, hperform⟩
  | read _ _ _ _ hrequests _ => exact .inr ⟨_, _, hrequests⟩
  | write _ _ _ hrequests _ => exact .inr ⟨_, _, hrequests⟩
  | flush hrequests _ => exact .inr ⟨_, _, hrequests⟩

theorem stalled_answered (device : VirtioBlockDevice) (h : Stalled schedule w) (c : Call) :
    Answered schedule device w c := by
  obtain ⟨buffer, e, -, hrequests, hperform⟩ | ⟨header, hs, hrequests⟩ :=
    requests_cases schedule device w c
  · exact answered_of_refused schedule hrequests hperform
  · obtain ⟨m, r, hm, -, hfirst⟩ := perform_first schedule hrequests w
    obtain ⟨w', hbusy, hsame⟩ := (h.prepared schedule hm).publishAndWait_busy schedule
    obtain ⟨buffer, hperform⟩ := hfirst w' _ hbusy (.inr ⟨_, rfl⟩)
    exact answered_of_handled schedule hrequests hperform (.busy hsame (h.not_prompt schedule))
      (by simp)

theorem collect_spec (expected : U16) (w : VirtioWorld) :
    (w.collect expected).1.device = w.device ∧ (w.collect expected).2 ≠ .error .busy := by
  rw [collect]
  dsimp only
  split_ifs
  · simp
  · split
    · simp
    · exact ⟨rfl, statusResult_ne_busy _⟩

theorem quiet_or_stalled (htaken : w.Taken) {m : QueueMemory} {r : Request}
    (hm : w.driver.Prepared w.memory r m)
    (hother : ∀ r' ∈ w.device.inFlight, r'.header ≠ r.header)
    (ho : publishAndWait schedule { w with memory := m } = (w', result))
    (hdone : w'.device.completions = w.device.completions ++ done)
    (hreports : Reports [r.header] done result) : Quiet w ∨ Stalled schedule w := by
  set u : VirtioWorld := { w with memory := m } with hu
  obtain ⟨n, -, hcases⟩ := u.publishAndWait_cases schedule
  obtain ⟨made, taken, hmade, hused, hfifo⟩ := u.publish.tick_fifo (window schedule w.polls n)
  have hindex : u.publish.memory.usedIndex = w.memory.usedIndex := hm.used
  rw [hindex] at hused
  rcases hcases with ⟨hmatch, hcollect⟩ | ⟨rfl, hmiss, hbusy⟩
  · -- The driver collects a completion, which can only be that of its own request.
    left
    rw [ho] at hcollect
    obtain ⟨hdevice, hresult⟩ := collect_spec (w.driver.lastUsedIndex + 1)
      (u.publish.waited schedule n)
    obtain rfl : done = made := List.append_cancel_left (hdone.symm.trans
      ((congrArg (fun o ↦ o.1.device.completions) hcollect).trans
        ((congrArg Device.completions hdevice).trans hmade)))
    obtain ⟨-, rfl⟩ | ⟨status, rfl, -⟩ := hreports.singleton
    · exact absurd (congrArg Prod.snd hcollect).symm hresult
    · have hlast : w.memory.usedIndex = w.driver.lastUsedIndex := by
        have hsum := hused.symm.trans hmatch
        simpa using hsum
      refine ⟨htaken, ?_, hlast⟩
      cases hflight : w.device.inFlight with
      | nil => rfl
      | cons r' rest =>
        have hhead : u.publish.device.inFlight = r' :: rest := hflight
        rw [hhead, List.map_cons, List.map_cons, List.cons_append, List.cons_append,
          List.cons.injEq] at hfifo
        exact absurd hfifo.1.symm (hother r' (by simp [hflight]))
  · -- The driver gives up, and nothing was completed.
    right
    rw [ho, Prod.mk.injEq] at hbusy
    obtain ⟨rfl, rfl⟩ := hbusy
    obtain rfl : done = made := List.append_cancel_left (hdone.symm.trans hmade)
    obtain ⟨rfl, -⟩ | ⟨status, -, hstatus⟩ := hreports.singleton
    · constructor
      · intro hexpected
        rw [hexpected, List.length_nil, BitVec.add_zero] at hused
        exact hmiss hused
      · rw [← Bool.not_eq_true]
        intro hcompletes
        have hnext : u.publish.device.seen ≠ u.publish.memory.availableIndex := by
          have hseen : u.publish.device.seen = w.driver.availableIndex := htaken.seen
          rw [hseen]
          simp [u, publish]
        have hflight : (!w.device.inFlight.isEmpty) = true → u.publish.device.inFlight ≠ [] := by
          simp [u, publish]
        exact tick_completes hcompletes hflight (fun _ ↦ hnext)
          (hmade.trans (List.append_nil _))
    · exact absurd hstatus.symm (statusResult_ne_busy status)

inductive Event
  | call (c : Call)
  | device (steps : List DeviceStep)

def act (device : VirtioBlockDevice) (w : VirtioWorld) : Event → VirtioWorld
  | .call c => (device.perform schedule w c).1
  | .device steps => w.tick steps

theorem Answered.quiet {c : Call} (h : Answered schedule device w c) (hprompt : Prompt schedule)
    (hw : Quiet w) :
    Quiet (device.perform schedule w c).1 ∧ (device.perform schedule w c).2.2 ≠ .error .busy := by
  obtain ⟨buffer, e, he, hrequests, hperform⟩ | ⟨header, hs, hrequests⟩ :=
    requests_cases schedule device w c
  · rw [hperform]
    exact ⟨hw, by simpa using he⟩
  · have hhandled := h.handled _ hrequests
    have hbusy : (device.perform schedule w c).2.2 ≠ .error .busy :=
      fun hresult ↦ hhandled.late hresult hprompt
    exact ⟨hhandled.quiet hbusy, hbusy⟩

theorem quiet_of_run (device : VirtioBlockDevice) (hprompt : Prompt schedule) (h : Quiet w)
    (es : List Event) : Quiet (es.foldl (act schedule device) w) := by
  induction es generalizing w with
  | nil => exact h
  | cons e es ih =>
    apply ih
    cases e with
    | call c => exact ((perform_answered schedule device h c).quiet schedule hprompt h).1
    | device steps => rwa [act, h.tick steps]

end VirtioBlockDevice

open VirtioBlockDevice in
/-- A call is answered by its own completions if no request was abandoned before it, or if the used
index is not the one it expects and the device completes nothing while it waits. For a call of one
request only then, provided the abandoned requests have been taken up and are other ones. A prompt
device answers every call of every run so, and none with `Busy`. -/
theorem virtio_own_completions (device : VirtioBlockDevice) (schedule : ℕ → List DeviceStep)
    (w : VirtioWorld) :
    (∀ c, w.Quiet ∨ w.Stalled schedule → Answered schedule device w c) ∧
    (∀ c header, device.requests c = .ok [header] → w.Taken →
      (∀ r ∈ w.device.inFlight, r.header ≠ header) →
      (Answered schedule device w c ↔ w.Quiet ∨ w.Stalled schedule)) ∧
    (Prompt schedule → w.Quiet → ∀ (es : List Event) (c : Call),
      Answered schedule device (es.foldl (act schedule device) w) c ∧
      (device.perform schedule (es.foldl (act schedule device) w) c).2.2 ≠ .error .busy) := by
  have hif (c : Call) (h : w.Quiet ∨ w.Stalled schedule) : Answered schedule device w c := by
    rcases h with hquiet | hstalled
    · exact perform_answered schedule device hquiet c
    · exact stalled_answered schedule device hstalled c
  refine ⟨hif, fun c header hrequests htaken hother ↦ ⟨fun h ↦ ?_, hif c⟩, ?_⟩
  · obtain ⟨m, r, hm, rfl, hfirst⟩ := perform_first schedule hrequests w
    rcases ho : publishAndWait schedule { w with memory := m } with ⟨w', result⟩
    obtain ⟨buffer, hperform⟩ := hfirst w' result ho (.inl rfl)
    obtain ⟨done, hdone, hreports⟩ := (h.handled _ hrequests).reported
    rw [hperform] at hdone hreports
    exact quiet_or_stalled schedule htaken hm hother ho hdone hreports
  · intro hprompt hquiet es c
    have hafter := quiet_of_run schedule device hprompt hquiet es
    have hanswered := perform_answered schedule device hafter c
    exact ⟨hanswered, (hanswered.quiet schedule hprompt hafter).2⟩

def VirtioWorld.initial (medium : U64 → Bytes) : VirtioWorld where
  driver :=
    { ioBase := 0xC000
      request := { physicalStart := 0x2000, virtualStart := 0x2000, len := 0x1000 }
      queueSize := 8
      availableIndex := 0
      lastUsedIndex := 0
      ports := by decide
      page := by decide
      size := by decide }
  memory :=
    { descriptors := fun _ ↦ ⟨0, 0, 0, 0⟩
      availableRing := fun _ ↦ 0
      availableIndex := 0
      usedRing := fun _ ↦ ⟨0, 0⟩
      usedIndex := 0
      headers := fun _ ↦ ⟨0, 0, 0⟩
      buffers := fun _ ↦ []
      statuses := fun _ ↦ 0 }
  device := { queueSize := 8, seen := 0, inFlight := [], medium, completions := [] }
  polls := 0

theorem VirtioWorld.initial_quiet (medium : U64 → Bytes) : (initial medium).Quiet :=
  ⟨⟨rfl, rfl, rfl⟩, rfl, rfl⟩

def hundredSectors : VirtioBlockDevice := ⟨100, false, true⟩

def sectorBuffer : VirtioBlockDevice.Slice :=
  ⟨List.replicate Virtio.sectorSize 0, by rw [List.length_replicate]; decide⟩

def numberedSector (sector : U64) : Bytes := List.replicate Virtio.sectorSize (sector.setWidth 8)

open VirtioBlockDevice in
theorem virtio_own_completions_prompt :
    let schedule : ℕ → List DeviceStep := fun _ ↦ [.fetch, .complete statusOk]
    let es : List Event :=
      [.call (.read 7 sectorBuffer), .device [.fetch], .call (.write 3 sectorBuffer)]
    let w := es.foldl (act schedule hundredSectors) (.initial numberedSector)
    Answered schedule hundredSectors w (.read 3 sectorBuffer) ∧
      (hundredSectors.perform schedule w (.read 3 sectorBuffer)).2.2 ≠ .error .busy := by
  have hprompt : Prompt fun _ ↦ [.fetch, .complete statusOk] := by
    intro start
    obtain ⟨n, hn⟩ := Nat.exists_eq_succ_of_ne_zero (show maxPollSpins ≠ 0 by decide)
    rw [window, hn, List.range'_succ]
    rfl
  exact (virtio_own_completions hundredSectors _ _).2.2 hprompt
    (initial_quiet numberedSector) _ _

theorem VirtioWorld.publishAndWait_timeout (schedule : ℕ → List DeviceStep) {w : VirtioWorld}
    (hidle : ∀ k, w.polls < k → k < w.polls + maxPollSpins → schedule k = [])
    (hnow : w.memory.usedIndex ≠ w.driver.lastUsedIndex + 1)
    (hlater : (w.publish.tick (schedule w.polls)).memory.usedIndex ≠
      w.driver.lastUsedIndex + 1) :
    w.publishAndWait schedule =
      ({ w.publish.tick (schedule w.polls) with polls := w.polls + maxPollSpins },
        .error .busy) := by
  have hwindow (k : ℕ) (hk : k + 1 ≤ maxPollSpins) :
      window schedule w.polls (k + 1) = schedule w.polls := by
    have hrest : (List.range' (w.polls + 1) k).flatMap schedule = [] := by
      rw [List.flatMap_eq_nil_iff]
      intro i hi
      rw [List.mem_range'_1] at hi
      exact hidle i (by omega) (by omega)
    rw [window, List.range'_succ, List.flatMap_cons, hrest, List.append_nil]
  obtain ⟨n, hn, ⟨hmatch, -⟩ | ⟨rfl, -, hbusy⟩⟩ := w.publishAndWait_cases schedule
  · cases n with
    | zero => exact absurd hmatch hnow
    | succ k =>
      have hsteps := hwindow k hn
      exact absurd hmatch (by simpa only [waited, publish, hsteps] using hlater)
  · obtain ⟨k, hk⟩ := Nat.exists_eq_succ_of_ne_zero (show maxPollSpins ≠ 0 by decide)
    have hsteps : window schedule w.polls maxPollSpins = schedule w.polls :=
      hk ▸ hwindow k hk.ge
    simp only [hbusy, waited, publish, hsteps]

def lateSchedule (steps : List DeviceStep) (poll : ℕ) : List DeviceStep :=
  if poll = 0 then [.fetch] else if poll = maxPollSpins then steps else []

theorem lateSchedule_after {steps : List DeviceStep} {k : ℕ} (hzero : k ≠ 0)
    (hlate : k ≠ maxPollSpins) : lateSchedule steps k = [] := by
  rw [lateSchedule, if_neg hzero, if_neg hlate]

def firstRead : VirtioWorld :=
  { initial numberedSector with
    memory := (initial numberedSector).readMemory 0 }

/-- The world in which the read of sector 0 has timed out after the device had taken it up. -/
def abandonedRead : VirtioWorld :=
  { firstRead.publish.tick [.fetch] with polls := maxPollSpins }

theorem first_read_abandoned (steps : List DeviceStep) : ∃ buffer,
    hundredSectors.perform (lateSchedule steps) (.initial numberedSector) (.read 0 sectorBuffer) =
      (abandonedRead, buffer, .error .busy) := by
  have hwaiting : (firstRead.publish.tick [.fetch]).memory.usedIndex ≠
      firstRead.driver.lastUsedIndex + 1 := by decide +kernel
  have hbusy : firstRead.publishAndWait (lateSchedule steps) = (abandonedRead, .error .busy) :=
    publishAndWait_timeout _
      (fun k hlo hhi ↦ lateSchedule_after (Nat.ne_of_gt hlo)
        (Nat.ne_of_lt (by simpa [firstRead, initial] using hhi)))
      (by decide +kernel) hwaiting
  have hrequests : hundredSectors.requests (.read 0 sectorBuffer) = .ok [⟨typeIn, 0, 0⟩] := by
    decide +kernel
  exact VirtioBlockDevice.readBlocks_first _ hrequests hbusy (.inl rfl)

/-- The completion of a read that timed out answers the next read, which delivers the wrong sector;
and if both reads are completed at once, the next one is `Busy`. -/
theorem virtio_late_completion :
    (∃ w₁ w₂ buffer,
      hundredSectors.perform (lateSchedule [.complete statusOk]) (.initial numberedSector)
        (.read 0 sectorBuffer) = (w₁, buffer, .error .busy) ∧
      hundredSectors.perform (lateSchedule [.complete statusOk]) w₁ (.read 1 sectorBuffer) =
        (w₂, numberedSector 0, .ok ()) ∧
      w₁.device.medium = numberedSector ∧ numberedSector 0 ≠ numberedSector 1) ∧
    ∃ w₁ w₂ buffer₁ buffer₂,
      hundredSectors.perform (lateSchedule [.complete statusOk, .fetch, .complete statusOk])
        (.initial numberedSector) (.read 0 sectorBuffer) = (w₁, buffer₁, .error .busy) ∧
      hundredSectors.perform (lateSchedule [.complete statusOk, .fetch, .complete statusOk]) w₁
        (.read 1 sectorBuffer) = (w₂, buffer₂, .error .busy) ∧
      w₁.polls = maxPollSpins ∧ w₂.device.completions =
        [(⟨typeIn, 0, 0⟩, statusOk), (⟨typeIn, 0, 1⟩, statusOk)] := by
  constructor
  · obtain ⟨buffer, hfirst⟩ := first_read_abandoned [.complete statusOk]
    have hsecond : (hundredSectors.perform (lateSchedule [.complete statusOk]) abandonedRead
        (.read 1 sectorBuffer)).2 = (numberedSector 0, .ok ()) := by decide +kernel
    rcases hperform : hundredSectors.perform (lateSchedule [.complete statusOk]) abandonedRead
      (.read 1 sectorBuffer) with ⟨w₂, answer⟩
    rw [hperform] at hsecond
    exact ⟨abandonedRead, w₂, buffer, hfirst, hsecond ▸ hperform, rfl, by decide +kernel⟩
  · obtain ⟨buffer₁, hfirst⟩ :=
      first_read_abandoned [.complete statusOk, .fetch, .complete statusOk]
    have hbusy := publishAndWait_timeout
      (lateSchedule [.complete statusOk, .fetch, .complete statusOk])
      (w := { abandonedRead with memory := abandonedRead.readMemory 1 })
      (fun k hlo hhi ↦ lateSchedule_after (Nat.ne_of_gt (Nat.zero_lt_of_lt hlo))
        (Nat.ne_of_gt hlo)) (by decide +kernel) (by decide +kernel)
    have hrequests : hundredSectors.requests (.read 1 sectorBuffer) = .ok [⟨typeIn, 0, 1⟩] := by
      decide +kernel
    obtain ⟨buffer₂, hsecond⟩ :=
      VirtioBlockDevice.readBlocks_first _ hrequests hbusy (.inl rfl)
    exact ⟨abandonedRead, _, buffer₁, buffer₂, hfirst, hsecond, rfl, by decide +kernel⟩

end BraneKernel
