import BraneKernel.Lib.Trace
import BraneKernel.Memory.AddressSpace

namespace BraneKernel

open AddressSpaceState

open Trace

structure PinState where
  table : ProcessTable
  outstanding : List AddressSpacePin

inductive PinEvent (P : Paging)
  | create (name : List (BitVec 8)) (parent : Option Pid) (schedulerTask : TaskId)
  | terminate (pid : Pid) (exitCode : ℤ)
  | pin (pid : Pid)
  | release (pin : AddressSpacePin)
  | bump (pid : Pid)
  | pinAndValidate (pid : Pid) (mapper : P.OffsetPageTable) (virt : U64 → PageTable)
      (range : UserRange)

inductive PinAnswer
  | created (pid : Option Pid)
  | terminated (found : Bool)
  | pinned (r : Except AddressSpaceError AddressSpacePin)
  | released (r : Except AddressSpaceError Unit)
  | bumped (r : Except AddressSpaceError U64)
  | validated (r : Except PinnedUserRangeError PinnedUserRange)
  deriving DecidableEq

def PinAnswer.Failed : PinAnswer → Prop
  | created pid => pid = none
  | terminated found => found = false
  | pinned r => ∃ e, r = .error e
  | released r => ∃ e, r = .error e
  | bumped r => ∃ e, r = .error e
  | validated r => ∃ e, r = .error e

namespace PinState

def new : PinState := ⟨.new, []⟩

variable {P : Paging}

/-- A pin is moved into the call that releases it. `none` is a panic. -/
def next (s : PinState) : PinEvent P → Option (PinState × PinAnswer)
  | .create name parent schedulerTask =>
    (s.table.create name parent schedulerTask).map fun r ↦ (⟨r.1, s.outstanding⟩, .created r.2)
  | .terminate pid exitCode =>
    let r := s.table.terminate pid exitCode
    some (⟨r.1, s.outstanding⟩, .terminated r.2)
  | .pin pid =>
    let r := s.table.pinAddressSpace pid
    some (⟨r.1, s.outstanding ++ r.2.toOption.toList⟩, .pinned r.2)
  | .release pin =>
    let r := s.table.releaseAddressSpacePin pin
    some (⟨r.1, s.outstanding.erase pin⟩, .released r.2)
  | .bump pid =>
    let r := s.table.bumpAddressSpaceGeneration pid
    some (⟨r.1, s.outstanding⟩, .bumped r.2)
  | .pinAndValidate pid mapper virt range =>
    (pinAndValidateUserRangeIn P s.table pid mapper virt range).map fun r ↦
      (⟨r.1, s.outstanding ++ (r.2.toOption.map PinnedUserRange.pin).toList⟩, .validated r.2)

/-- Pins cannot be made up or copied: only one that is outstanding can be released. -/
def Owned (s : PinState) : PinEvent P → Prop
  | .release pin => pin ∈ s.outstanding
  | _ => True

instance (s : PinState) : (e : PinEvent P) → Decidable (s.Owned e)
  | .release pin => inferInstanceAs (Decidable (pin ∈ s.outstanding))
  | .create .. | .terminate .. | .pin _ | .bump _ | .pinAndValidate .. => isTrue trivial

def Step (s : PinState) (x : PinEvent P × PinAnswer) (s' : PinState) : Prop :=
  s.Owned x.1 ∧ s.next x.1 = some (s', x.2)

def held (pins : List AddressSpacePin) (pid : Pid) : ℕ := pins.countP (·.pid = pid)

structure Sound (s : PinState) : Prop where
  counted : ∀ pid a, s.table.space pid = some a → a.pins.toNat = held s.outstanding pid
  current : ∀ pin ∈ s.outstanding, ∃ a, s.table.space pin.pid = some a ∧
    a.generation = pin.generation
  fresh : s.table.Fresh

inductive Effect (s : PinState) : PinAnswer → PinState → Prop
  | failed {r : PinAnswer} : r.Failed → Effect s r s
  | created {name : List (BitVec 8)} {parent : Option Pid} {schedulerTask : TaskId}
      {table : ProcessTable} {pid : Pid} :
      s.table.create name parent schedulerTask = some (table, some pid) →
      Effect s (.created (some pid)) ⟨table, s.outstanding⟩
  | terminated (pid : Pid) (exitCode : ℤ) :
      Effect s (.terminated true) ⟨(s.table.terminate pid exitCode).1, s.outstanding⟩
  | pinned {r : PinAnswer} {pid : Pid} {a a' : AddressSpaceState} {pin : AddressSpacePin} :
      ¬ r.Failed → s.table.space pid = some a → a.pin pid = .ok (a', pin) →
      Effect s r ⟨s.table.modify pid (Process.setAddressSpace a'), s.outstanding ++ [pin]⟩
  | released {pin : AddressSpacePin} {a a' : AddressSpaceState} :
      pin ∈ s.outstanding → s.table.space pin.pid = some a → a.release pin = .ok (a', ()) →
      Effect s (.released (.ok ()))
        ⟨s.table.modify pin.pid (Process.setAddressSpace a'), s.outstanding.erase pin⟩
  | bumped {pid : Pid} {a a' : AddressSpaceState} {generation : U64} :
      s.table.space pid = some a → a.bumpGeneration = .ok (a', generation) →
      Effect s (.bumped (.ok generation))
        ⟨s.table.modify pid (Process.setAddressSpace a'), s.outstanding⟩

variable {s s' : PinState} {r : PinAnswer}

theorem Sound.releasable (hs : s.Sound) {pin : AddressSpacePin} (h : pin ∈ s.outstanding) :
    ∃ a a', s.table.space pin.pid = some a ∧ a.generation = pin.generation ∧
      a.release pin = .ok (a', ()) := by
  obtain ⟨a, hspace, hgen⟩ := hs.current pin h
  have hpos : 0 < a.pins.toNat := by
    rw [hs.counted _ _ hspace]
    exact List.countP_pos_iff.mpr ⟨pin, h, by simp⟩
  obtain ⟨a', hop⟩ := release_of_current hgen hpos
  exact ⟨a, a', hspace, hgen, hop⟩

theorem terminate_effect (s : PinState) (pid : Pid) (exitCode : ℤ) :
    s.Effect (.terminated (s.table.terminate pid exitCode).2)
      ⟨(s.table.terminate pid exitCode).1, s.outstanding⟩ := by
  cases hp : s.table.get pid with
  | none =>
    have hsame : (s.table.terminate pid exitCode).1 = s.table := by
      refine ProcessTable.modify_eq_self fun p hget ↦ ?_
      cases hp.symm.trans hget
    rw [hsame, ProcessTable.terminate, hp]
    exact .failed rfl
  | some p =>
    have hfound : (s.table.terminate pid exitCode).2 = true := by
      rw [ProcessTable.terminate, hp]
      rfl
    rw [hfound]
    exact .terminated pid exitCode

variable {pid : Pid}

theorem pinAndValidate_effect {mapper : P.OffsetPageTable} {virt : U64 → PageTable}
    {range : UserRange} {table : ProcessTable} {res : Except PinnedUserRangeError PinnedUserRange}
    (h : pinAndValidateUserRangeIn P s.table pid mapper virt range = some (table, res)) :
    s.Effect (.validated res)
      ⟨table, s.outstanding ++ (res.toOption.map PinnedUserRange.pin).toList⟩ := by
  unfold pinAndValidateUserRangeIn at h
  rcases s.table.onAddressSpace_cases pid (fun a ↦ a.pin pid) with
    ⟨e, he⟩ | ⟨a, a', pin, hspace, hop, he⟩
  · rw [ProcessTable.pinAddressSpace, he] at h
    cases h
    simp only [Except.toOption, Option.map_none, Option.toList_none, List.append_nil]
    exact .failed ⟨_, rfl⟩
  · rw [ProcessTable.pinAddressSpace, he] at h
    obtain ⟨verdict, -, hv⟩ := Option.map_eq_some_iff.mp h
    cases verdict with
    | error e =>
      cases hv
      rw [ProcessTable.release_after_pin hspace hop]
      simp only [Except.toOption, Option.map_none, Option.toList_none, List.append_nil]
      exact .failed ⟨_, rfl⟩
    | ok _ =>
      cases hv
      exact .pinned (by simp [PinAnswer.Failed]) hspace hop

theorem next_effect (hs : s.Sound) {e : PinEvent P} (ho : s.Owned e) (h : s.next e = some (s', r)) :
    s.Effect r s' := by
  cases e with
  | create name parent schedulerTask =>
    obtain ⟨⟨table, pid⟩, hc, he⟩ := Option.map_eq_some_iff.mp h
    cases he
    cases pid with
    | none =>
      rw [ProcessTable.create_none hc]
      exact .failed rfl
    | some pid => exact .created hc
  | terminate pid exitCode =>
    cases h
    apply terminate_effect
  | pin pid =>
    cases h
    rcases s.table.onAddressSpace_cases pid (fun a ↦ a.pin pid) with
      ⟨e, he⟩ | ⟨a, a', pin, hspace, hop, he⟩
    · rw [ProcessTable.pinAddressSpace, he]
      simp only [Except.toOption, Option.toList_none, List.append_nil]
      exact .failed ⟨e, rfl⟩
    · rw [ProcessTable.pinAddressSpace, he]
      exact .pinned (by simp [PinAnswer.Failed]) hspace hop
  | release pin =>
    cases h
    obtain ⟨a, a', hspace, -, hop⟩ := hs.releasable ho
    rw [ProcessTable.releaseAddressSpacePin, ProcessTable.onAddressSpace_ok hspace hop]
    exact .released ho hspace hop
  | bump pid =>
    cases h
    rcases s.table.onAddressSpace_cases pid bumpGeneration with
      ⟨e, he⟩ | ⟨a, a', generation, hspace, hop, he⟩
    · rw [ProcessTable.bumpAddressSpaceGeneration, he]
      exact .failed ⟨e, rfl⟩
    · rw [ProcessTable.bumpAddressSpaceGeneration, he]
      exact .bumped hspace hop
  | pinAndValidate pid mapper virt range =>
    obtain ⟨⟨table, res⟩, hv, he⟩ := Option.map_eq_some_iff.mp h
    cases he
    exact pinAndValidate_effect hv

theorem sound_new : new.Sound where
  counted pid a h := by
    obtain ⟨p, hp, -⟩ := Option.map_eq_some_iff.mp h
    have hmem := ProcessTable.get_mem hp
    simp [new, ProcessTable.new] at hmem
  current pin h := by simp [new] at h
  fresh p hp := by simp [new, ProcessTable.new] at hp

theorem held_snoc (pins : List AddressSpacePin) (pin : AddressSpacePin) (pid : Pid) :
    held (pins ++ [pin]) pid = held pins pid + if pin.pid = pid then 1 else 0 := by
  rw [held, List.countP_append, List.countP_singleton]
  simp [held]

variable {pins : List AddressSpacePin}

theorem held_erase {pin : AddressSpacePin} (h : pin ∈ pins) (pid : Pid) :
    held (pins.erase pin) pid + (if pin.pid = pid then 1 else 0) = held pins pid := by
  have hperm := (List.perm_cons_erase h).countP_eq (fun q ↦ decide (q.pid = pid))
  rw [List.countP_cons] at hperm
  simp only [decide_eq_true_eq] at hperm
  rw [held, held, hperm]

theorem held_eq_zero_iff : held pins pid = 0 ↔ ∀ pin ∈ pins, pin.pid ≠ pid := by
  rw [held, List.countP_eq_zero]
  simp

theorem Sound.set (hs : s.Sound) {a a' : AddressSpaceState} (ha : s.table.space pid = some a)
    (hown : a'.pins.toNat = held pins pid)
    (hother : ∀ q, q ≠ pid → held pins q = held s.outstanding q)
    (hgen : ∀ pin ∈ pins, pin.pid = pid → a'.generation = pin.generation)
    (hout : ∀ pin ∈ pins, pin.pid ≠ pid → pin ∈ s.outstanding) :
    Sound ⟨s.table.modify pid (Process.setAddressSpace a'), pins⟩ where
  counted q b hb := by
    rw [ProcessTable.space_set] at hb
    split_ifs at hb with hq
    · subst hq
      rw [ha] at hb
      cases hb
      exact hown
    · rw [hs.counted q b hb]
      exact (hother q hq).symm
  current pin hpin := by
    rw [ProcessTable.space_set]
    split_ifs with hq
    · subst hq
      rw [ha]
      exact ⟨a', rfl, hgen pin hpin rfl⟩
    · exact hs.current pin (hout pin hpin hq)
  fresh := hs.fresh.modify (Process.setAddressSpace_pid a')

section Changes

variable {pid : Pid} {a a' : AddressSpaceState} {pin : AddressSpacePin}

theorem Sound.generation_eq (hs : s.Sound) (ha : s.table.space pid = some a)
    (hpin : pin ∈ s.outstanding) (he : pin.pid = pid) : a.generation = pin.generation := by
  obtain ⟨b, hb, hgen⟩ := hs.current pin hpin
  rw [he, ha] at hb
  cases hb
  exact hgen

theorem Sound.created {name : List (BitVec 8)} {parent : Option Pid} {schedulerTask : TaskId}
    {table : ProcessTable} (hs : s.Sound)
    (hc : s.table.create name parent schedulerTask = some (table, some pid)) :
    Sound ⟨table, s.outstanding⟩ := by
  have hspace := ProcessTable.space_create hs.fresh hc
  refine ⟨?_, ?_, hs.fresh.create hc⟩
  · intro q b hb
    rw [hspace] at hb
    split_ifs at hb with hq
    · cases hb
      refine (held_eq_zero_iff.mpr fun pin hpin he ↦ ?_).symm
      obtain ⟨b, hb, -⟩ := hs.current pin hpin
      exact hs.fresh.space hb (he.trans hq)
    · exact hs.counted q b hb
  · intro pin hpin
    obtain ⟨b, hb, hgen⟩ := hs.current pin hpin
    refine ⟨b, ?_, hgen⟩
    rw [hspace, if_neg (hs.fresh.space hb), hb]

theorem Sound.terminated (hs : s.Sound) (pid : Pid) (exitCode : ℤ) :
    Sound ⟨(s.table.terminate pid exitCode).1, s.outstanding⟩ := by
  have hspace : ∀ q, (s.table.terminate pid exitCode).1.space q = s.table.space q :=
    fun q ↦ ProcessTable.space_modify (fun _ ↦ rfl) fun _ ↦ rfl
  refine ⟨?_, ?_, hs.fresh.modify fun _ ↦ rfl⟩
  · intro q b hb
    rw [hspace] at hb
    exact hs.counted q b hb
  · intro pin hpin
    rw [hspace]
    exact hs.current pin hpin

theorem Sound.pinned (hs : s.Sound) (ha : s.table.space pid = some a)
    (hop : a.pin pid = .ok (a', pin)) :
    Sound ⟨s.table.modify pid (Process.setAddressSpace a'), s.outstanding ++ [pin]⟩ := by
  obtain ⟨hpins, hgen, rfl⟩ := pin_ok hop
  have hcount := hs.counted _ _ ha
  apply hs.set ha
  · rw [held_snoc, if_pos rfl]
    omega
  · intro q hq
    rw [held_snoc, if_neg (Ne.symm hq), Nat.add_zero]
  · intro pin hpin he
    rcases List.mem_append.mp hpin with hpin | hpin
    · exact hgen.trans (hs.generation_eq ha hpin he)
    · rw [List.mem_singleton.mp hpin]
      exact hgen
  · intro pin hpin he
    rcases List.mem_append.mp hpin with hpin | hpin
    · exact hpin
    · exact absurd (congrArg AddressSpacePin.pid (List.mem_singleton.mp hpin)) he

theorem Sound.released (hs : s.Sound) (hpin : pin ∈ s.outstanding)
    (ha : s.table.space pin.pid = some a) (hop : a.release pin = .ok (a', ())) :
    Sound ⟨s.table.modify pin.pid (Process.setAddressSpace a'), s.outstanding.erase pin⟩ := by
  obtain ⟨hpins, hgen⟩ := release_ok hop
  have hcount := hs.counted _ _ ha
  apply hs.set ha
  · have herase := held_erase hpin pin.pid
    rw [if_pos rfl] at herase
    omega
  · intro q hq
    have herase := held_erase hpin q
    rwa [if_neg (Ne.symm hq)] at herase
  · intro p hp he
    exact hgen.trans (hs.generation_eq ha (List.mem_of_mem_erase hp) he)
  · intro p hp _
    exact List.mem_of_mem_erase hp

theorem Sound.bumped {generation : U64} (hs : s.Sound) (ha : s.table.space pid = some a)
    (hop : a.bumpGeneration = .ok (a', generation)) :
    Sound ⟨s.table.modify pid (Process.setAddressSpace a'), s.outstanding⟩ := by
  obtain ⟨hzero, hpins, -⟩ := bump_ok hop
  have hcount := hs.counted _ _ ha
  have hnone : ∀ pin ∈ s.outstanding, pin.pid ≠ pid := by
    rw [← held_eq_zero_iff, ← hcount, hzero]
    rfl
  apply hs.set ha
  · rw [hpins]
    exact hcount
  · intro q _
    rfl
  · intro pin hpin he
    exact absurd he (hnone pin hpin)
  · intro pin hpin _
    exact hpin

end Changes

theorem Sound.effect (hs : s.Sound) (he : s.Effect r s') : s'.Sound := by
  cases he with
  | failed _ => exact hs
  | created hc => exact hs.created hc
  | terminated pid exitCode => exact hs.terminated pid exitCode
  | pinned _ hspace hop => exact hs.pinned hspace hop
  | released hpin hspace hop => exact hs.released hpin hspace hop
  | bumped hspace hop => exact hs.bumped hspace hop

theorem Effect.failed_eq (he : s.Effect r s') (hr : r.Failed) : s' = s := by
  cases he with
  | failed _ => rfl
  | pinned hok => exact absurd hr hok
  | _ => simp [PinAnswer.Failed] at hr

theorem Effect.generation (hs : s.Sound) (he : s.Effect r s') {a : AddressSpaceState}
    (ha : s.table.space pid = some a) :
    ∃ a', s'.table.space pid = some a' ∧ (a'.generation = a.generation ∨
      a'.generation.toNat = a.generation.toNat + 1 ∧ held s.outstanding pid = 0 ∧
        held s'.outstanding pid = 0) := by
  cases he with
  | failed _ => exact ⟨a, ha, .inl rfl⟩
  | created hc =>
    refine ⟨a, ?_, .inl rfl⟩
    rw [ProcessTable.space_create hs.fresh hc, if_neg (hs.fresh.space ha), ha]
  | terminated q exitCode =>
    refine ⟨a, ?_, .inl rfl⟩
    rw [← ha]
    exact ProcessTable.space_modify (fun _ ↦ rfl) fun _ ↦ rfl
  | @pinned _ q b b' pin hr hspace hop =>
    obtain ⟨-, hgen, -⟩ := pin_ok hop
    rcases ProcessTable.space_set_cases ha hspace b' with ⟨rfl, -, hset⟩ | hset
    · exact ⟨b', hset, .inl hgen⟩
    · exact ⟨a, hset, .inl rfl⟩
  | @released pin b b' hpin hspace hop =>
    obtain ⟨-, hgen⟩ := release_ok hop
    rcases ProcessTable.space_set_cases ha hspace b' with ⟨rfl, -, hset⟩ | hset
    · exact ⟨b', hset, .inl hgen⟩
    · exact ⟨a, hset, .inl rfl⟩
  | @bumped q b b' generation hspace hop =>
    obtain ⟨hzero, -, -, hgen⟩ := bump_ok hop
    rcases ProcessTable.space_set_cases ha hspace b' with ⟨rfl, -, hset⟩ | hset
    · have hnone : held s.outstanding pid = 0 := by
        rw [← hs.counted _ _ ha, hzero]
        rfl
      exact ⟨b', hset, .inr ⟨hgen, hnone, hnone⟩⟩
    · exact ⟨a, hset, .inl rfl⟩

theorem bump_generation {g : U64} (h : s.next (P := P) (.bump pid) = some (s', .bumped (.ok g))) :
    ∃ a a', s.table.space pid = some a ∧ s'.table.space pid = some a' ∧ a'.generation = g ∧
      g.toNat = a.generation.toNat + 1 := by
  obtain ⟨rfl, hanswer⟩ := Prod.mk.inj (Option.some.inj h)
  rcases s.table.onAddressSpace_cases pid bumpGeneration with
    ⟨e, he⟩ | ⟨a, a', generation, hspace, hop, he⟩
  · rw [ProcessTable.bumpAddressSpaceGeneration, he] at hanswer
    cases hanswer
  · obtain ⟨-, -, hgen, hnext⟩ := bump_ok hop
    rw [ProcessTable.bumpAddressSpaceGeneration, he] at hanswer ⊢
    cases hanswer
    refine ⟨a, a', hspace, ?_, hgen, hgen ▸ hnext⟩
    rw [ProcessTable.space_set, if_pos rfl, hspace, Option.map_some]

theorem run_sound {log : List (PinEvent P × PinAnswer)} (h : Run Step new log s) : s.Sound :=
  h.invariant sound_new fun _ _ _ hs hx ↦ hs.effect (next_effect hs hx.1 hx.2)

/-- Along every history, the count of each address space is the number of its pins outstanding, all
of the current generation. Whatever call comes next, a generation only moves up and only without
pins, a bump that succeeds moves it and answers with it, and a call that fails changes nothing. -/
theorem address_space_pins {log : List (PinEvent P × PinAnswer)} (h : Run Step new log s) :
    (∀ pid p, s.table.get pid = some p →
      p.addressSpace.pins.toNat = s.outstanding.countP (·.pid = pid)) ∧
    (∀ pin ∈ s.outstanding, ∃ p, s.table.get pin.pid = some p ∧
      p.addressSpace.generation = pin.generation ∧
      (s.table.releaseAddressSpacePin pin).2 = .ok ()) ∧
    ∀ (x : PinEvent P × PinAnswer) s', Step s x s' →
      (∀ pid p, s.table.get pid = some p → ∃ p', s'.table.get pid = some p' ∧
        (p'.addressSpace.generation = p.addressSpace.generation ∨
          p'.addressSpace.generation.toNat = p.addressSpace.generation.toNat + 1 ∧
            s.outstanding.countP (·.pid = pid) = 0 ∧ s'.outstanding.countP (·.pid = pid) = 0)) ∧
      (∀ pid g, x = (.bump pid, .bumped (.ok g)) → ∃ p p', s.table.get pid = some p ∧
        s'.table.get pid = some p' ∧ p'.addressSpace.generation = g ∧
          g.toNat = p.addressSpace.generation.toNat + 1) ∧
      (x.2.Failed → s' = s) := by
  have hs := run_sound h
  have hspace : ∀ pid p, s.table.get pid = some p → s.table.space pid = some p.addressSpace := by
    intro pid p hp
    rw [ProcessTable.space, hp]
    rfl
  refine ⟨fun pid p hp ↦ hs.counted _ _ (hspace pid p hp), fun pin hpin ↦ ?_, fun x s' hx ↦ ?_⟩
  · obtain ⟨a, a', ha, hgen, hop⟩ := hs.releasable hpin
    obtain ⟨p, hp, rfl⟩ := Option.map_eq_some_iff.mp ha
    refine ⟨p, hp, hgen, ?_⟩
    rw [ProcessTable.releaseAddressSpacePin, ProcessTable.onAddressSpace_ok ha hop]
  · have he := next_effect hs hx.1 hx.2
    refine ⟨fun pid p hp ↦ ?_, ?_, he.failed_eq⟩
    · obtain ⟨a', ha', hgen⟩ := he.generation hs (hspace pid p hp)
      obtain ⟨p', hp', rfl⟩ := Option.map_eq_some_iff.mp ha'
      exact ⟨p', hp', hgen⟩
    · rintro pid g rfl
      obtain ⟨a, a', ha, ha', hgen⟩ := bump_generation hx.2
      obtain ⟨p, hp, rfl⟩ := Option.map_eq_some_iff.mp ha
      obtain ⟨p', hp', rfl⟩ := Option.map_eq_some_iff.mp ha'
      exact ⟨p, p', hp, hp', hgen⟩

theorem address_space_pins_busy :
    let log : List (PinEvent Paging.words × PinAnswer) :=
      [(.create [] none 17, .created (some 1)), (.bump 1, .bumped (.ok 2)),
        (.pin 1, .pinned (.ok ⟨1, 2⟩)), (.bump 1, .bumped (.error .busy))]
    ∃ s, Run Step new log s ∧ ∀ pid p, s.table.get pid = some p →
      p.addressSpace.pins.toNat = s.outstanding.countP (·.pid = pid) := by
  intro log
  obtain ⟨s, hs⟩ := Option.isSome_iff_exists.mp (show (log.foldlM
    (fun s (x : PinEvent Paging.words × PinAnswer) ↦
      if Owned s x.1 then (next s x.1).bind fun r ↦ if r.2 = x.2 then some r.1 else none
      else none) new).isSome = true by decide +kernel)
  have hrun : Run Step new log s := by
    refine .of_next (fun s x s' hx ↦ ?_) hs
    split_ifs at hx with hown
    obtain ⟨r, hr, hx⟩ := Option.bind_eq_some_iff.mp hx
    split_ifs at hx with ha
    exact ⟨hown, hr.trans (congrArg some (Prod.ext (Option.some.inj hx) ha))⟩
  exact ⟨s, hrun, (address_space_pins hrun).1⟩

end PinState

end BraneKernel
