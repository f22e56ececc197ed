import BraneKernel.Memory.Paging
import BraneKernel.Process

namespace BraneKernel

structure AddressSpacePin where
  pid : Pid
  generation : U64
  deriving DecidableEq

inductive AddressSpaceError
  | notFound | busy | invalidPin | pinCountExhausted | generationExhausted
  deriving DecidableEq

namespace AddressSpaceState

variable (s : AddressSpaceState)

def pin (pid : Pid) : Except AddressSpaceError (AddressSpaceState × AddressSpacePin) :=
  match Checked.add s.pins 1 with
  | none => .error .pinCountExhausted
  | some pins => .ok ({ s with pins := pins }, ⟨pid, s.generation⟩)

def release (pin : AddressSpacePin) : Except AddressSpaceError (AddressSpaceState × Unit) :=
  if pin.generation ≠ s.generation ∨ s.pins = 0 then .error .invalidPin
  else .ok ({ s with pins := s.pins - 1 }, ())

def bumpGeneration : Except AddressSpaceError (AddressSpaceState × U64) :=
  if s.pins ≠ 0 then .error .busy
  else
    match Checked.add s.generation 1 with
    | none => .error .generationExhausted
    | some generation => .ok ({ s with generation := generation }, generation)

end AddressSpaceState

def Process.setAddressSpace (s : AddressSpaceState) (p : Process) : Process :=
  { p with addressSpace := s }

theorem Process.setAddressSpace_pid (s : AddressSpaceState) (p : Process) :
    (p.setAddressSpace s).pid = p.pid := rfl

namespace ProcessTable

variable (t : ProcessTable)

/-- An operation on the address space of one process. Nothing is written when it fails. -/
def onAddressSpace {α : Type} (pid : Pid)
    (op : AddressSpaceState → Except AddressSpaceError (AddressSpaceState × α)) :
    ProcessTable × Except AddressSpaceError α :=
  match t.get pid with
  | none => (t, .error .notFound)
  | some process =>
    match op process.addressSpace with
    | .error e => (t, .error e)
    | .ok (s, a) => (t.modify pid (Process.setAddressSpace s), .ok a)

def pinAddressSpace (pid : Pid) : ProcessTable × Except AddressSpaceError AddressSpacePin :=
  t.onAddressSpace pid fun s ↦ s.pin pid

def releaseAddressSpacePin (pin : AddressSpacePin) : ProcessTable × Except AddressSpaceError Unit :=
  t.onAddressSpace pin.pid fun s ↦ s.release pin

def bumpAddressSpaceGeneration (pid : Pid) : ProcessTable × Except AddressSpaceError U64 :=
  t.onAddressSpace pid AddressSpaceState.bumpGeneration

end ProcessTable

inductive PinnedUserRangeError
  | addressSpace (e : AddressSpaceError)
  | pages (e : UserPageValidationError)
  deriving DecidableEq

structure PinnedUserRange where
  pin : AddressSpacePin
  range : UserRange
  deriving DecidableEq

def pinAndValidateUserRangeIn (P : Paging) (table : ProcessTable) (pid : Pid)
    (mapper : P.OffsetPageTable) (virt : U64 → PageTable) (range : UserRange) :
    Option (ProcessTable × Except PinnedUserRangeError PinnedUserRange) :=
  match table.pinAddressSpace pid with
  | (table, .error e) => some (table, .error (.addressSpace e))
  | (table, .ok pin) =>
    (validateUserRange P mapper virt range).map fun
      | .error e => ((table.releaseAddressSpacePin pin).1, .error (.pages e))
      | .ok () => (table, .ok ⟨pin, range⟩)

namespace ProcessTable

variable {α : Type} {t : ProcessTable} {pid q : Pid}

def space (t : ProcessTable) (pid : Pid) : Option AddressSpaceState :=
  (t.get pid).map (·.addressSpace)

theorem space_modify {f : Process → Process} (hf : ∀ p, (f p).pid = p.pid)
    (hs : ∀ p, (f p).addressSpace = p.addressSpace) : (t.modify pid f).space q = t.space q := by
  unfold space
  by_cases hq : q = pid
  · subst hq
    rw [get_modify hf, Option.map_map]
    exact congrArg (Option.map · _) (funext hs)
  · rw [get_modify_ne hf hq]

theorem space_set (s : AddressSpaceState) :
    (t.modify pid (Process.setAddressSpace s)).space q =
      if q = pid then (t.space q).map fun _ ↦ s else t.space q := by
  unfold space
  split_ifs with hq
  · subst hq
    rw [get_modify (Process.setAddressSpace_pid s), Option.map_map, Option.map_map]
    rfl
  · rw [get_modify_ne (Process.setAddressSpace_pid s) hq]

theorem space_set_cases {a b : AddressSpaceState} (ha : t.space pid = some a)
    (hb : t.space q = some b) (b' : AddressSpaceState) :
    a = b ∧ pid = q ∧ (t.modify q (Process.setAddressSpace b')).space pid = some b' ∨
      (t.modify q (Process.setAddressSpace b')).space pid = some a := by
  rw [space_set, ha]
  split_ifs with hq
  · subst hq
    rw [ha] at hb
    exact .inl ⟨Option.some.inj hb, rfl, rfl⟩
  · exact .inr rfl

theorem onAddressSpace_cases (t : ProcessTable) (pid : Pid)
    (op : AddressSpaceState → Except AddressSpaceError (AddressSpaceState × α)) :
    (∃ e, t.onAddressSpace pid op = (t, .error e)) ∨
      ∃ s s' a, t.space pid = some s ∧ op s = .ok (s', a) ∧
        t.onAddressSpace pid op = (t.modify pid (Process.setAddressSpace s'), .ok a) := by
  unfold onAddressSpace
  cases hp : t.get pid with
  | none => exact .inl ⟨_, rfl⟩
  | some p =>
    dsimp only
    cases ho : op p.addressSpace with
    | error e => exact .inl ⟨_, rfl⟩
    | ok r => exact .inr ⟨p.addressSpace, r.1, r.2, by rw [space, hp]; rfl, ho, rfl⟩

theorem onAddressSpace_ok
    {op : AddressSpaceState → Except AddressSpaceError (AddressSpaceState × α)}
    {s s' : AddressSpaceState} {a : α} (hs : t.space pid = some s) (ho : op s = .ok (s', a)) :
    t.onAddressSpace pid op = (t.modify pid (Process.setAddressSpace s'), .ok a) := by
  obtain ⟨p, hp, rfl⟩ := Option.map_eq_some_iff.mp hs
  rw [onAddressSpace, hp]
  dsimp only
  rw [ho]

end ProcessTable

/-! ### One address space -/

namespace AddressSpaceState

variable {a a' : AddressSpaceState} {pid : Pid} {pin : AddressSpacePin}

theorem pin_ok (h : a.pin pid = .ok (a', pin)) :
    a'.pins.toNat = a.pins.toNat + 1 ∧ a'.generation = a.generation ∧
      pin = ⟨pid, a.generation⟩ := by
  unfold AddressSpaceState.pin at h
  split at h
  next => cases h
  next pins hadd =>
    cases h
    exact ⟨Checked.add_eq_some_iff.mp hadd, rfl, rfl⟩

theorem release_ok (h : a.release pin = .ok (a', ())) :
    a'.pins.toNat + 1 = a.pins.toNat ∧ a'.generation = a.generation := by
  unfold release at h
  split_ifs at h with hbad
  cases h
  have hpos : a.pins.toNat ≠ 0 := fun hz ↦ hbad (.inr (BitVec.eq_of_toNat_eq hz))
  have hone : (1 : BitVec 32).toNat ≤ a.pins.toNat := Nat.one_le_iff_ne_zero.mpr hpos
  refine ⟨?_, rfl⟩
  rw [BitVec.toNat_sub_of_le hone]
  exact Nat.sub_add_cancel hone

theorem bump_ok {generation : U64} (h : a.bumpGeneration = .ok (a', generation)) :
    a.pins = 0 ∧ a'.pins = a.pins ∧ a'.generation = generation ∧
      a'.generation.toNat = a.generation.toNat + 1 := by
  unfold bumpGeneration at h
  split_ifs at h with hbusy
  split at h
  next => cases h
  next g hadd =>
    cases h
    exact ⟨not_not.mp hbusy, rfl, rfl, Checked.add_eq_some_iff.mp hadd⟩

theorem release_of_current (hg : a.generation = pin.generation) (hp : 0 < a.pins.toNat) :
    ∃ a', a.release pin = .ok (a', ()) := by
  refine ⟨_, if_neg ?_⟩
  rw [not_or, not_not]
  refine ⟨hg.symm, fun hz ↦ ?_⟩
  rw [hz] at hp
  exact Nat.lt_irrefl 0 hp

theorem release_pin (h : a.pin pid = .ok (a', pin)) : a'.release pin = .ok (a, ()) := by
  obtain ⟨hpins, hgen, rfl⟩ := pin_ok h
  obtain ⟨a'', hr⟩ : ∃ a'', a'.release ⟨pid, a.generation⟩ = .ok (a'', ()) :=
    release_of_current hgen (by omega)
  obtain ⟨hpins', hgen'⟩ := release_ok hr
  have heq : a'' = a := by
    cases a''
    cases a
    simp only [mk.injEq]
    exact ⟨hgen'.trans hgen, BitVec.eq_of_toNat_eq (by simp only at *; omega)⟩
  rw [hr, heq]

end AddressSpaceState

/-! ### The table -/

namespace ProcessTable

variable {t t' : ProcessTable}

def Fresh (t : ProcessTable) : Prop :=
  ∀ p, some p ∈ t.processes → p.pid.toNat < t.nextPid.toNat

variable {name : List (BitVec 8)} {parent : Option Pid} {schedulerTask : TaskId} {pid : Pid}

theorem create_none (h : t.create name parent schedulerTask = some (t', none)) : t' = t := by
  rcases create_answer h with ⟨ht, -⟩ | ⟨-, -, hr⟩
  · exact ht
  · cases hr

theorem release_after_pin {a a' : AddressSpaceState} {pin : AddressSpacePin}
    (hs : t.space pid = some a) (hp : a.pin pid = .ok (a', pin)) :
    ((t.modify pid (Process.setAddressSpace a')).releaseAddressSpacePin pin).1 = t := by
  have hpin : pin.pid = pid := by rw [(AddressSpaceState.pin_ok hp).2.2]
  have hs' : (t.modify pid (Process.setAddressSpace a')).space pin.pid = some a' := by
    rw [hpin, space_set, if_pos rfl, hs, Option.map_some]
  rw [releaseAddressSpacePin, onAddressSpace_ok hs' (AddressSpaceState.release_pin hp), hpin]
  rw [modify_modify (Process.setAddressSpace_pid a')]
  refine modify_eq_self fun p hget ↦ ?_
  rw [space, hget, Option.map_some, Option.some_inj] at hs
  rw [← hs]
  rfl

theorem Fresh.space (hf : t.Fresh) {a : AddressSpaceState} (h : t.space pid = some a) :
    pid ≠ t.nextPid := by
  rintro rfl
  rw [ProcessTable.space, get_nextPid hf] at h
  cases h

theorem Fresh.modify (hf : t.Fresh) {f : Process → Process} (hpid : ∀ p, (f p).pid = p.pid) :
    (t.modify pid f).Fresh :=
  forall_modify hf fun p _ hp ↦ by rwa [hpid]

theorem create_some (h : t.create name parent schedulerTask = some (t', some pid)) :
    Slots.insert (t.newProcess name parent schedulerTask) t.processes = some t'.processes ∧
      checkedSucc t.nextPid = some t'.nextPid := by
  rcases create_answer h with ⟨-, hr⟩ | ⟨hslots, hnext, -⟩
  · cases hr
  · exact ⟨hslots, hnext⟩

theorem Fresh.create (hf : t.Fresh) (h : t.create name parent schedulerTask = some (t', some pid)) :
    t'.Fresh := by
  obtain ⟨hinsert, hnext⟩ := create_some h
  exact below_create hf hinsert hnext

theorem space_create (hf : t.Fresh) (h : t.create name parent schedulerTask = some (t', some pid))
    (q : Pid) :
    t'.space q = if q = t.nextPid then some ⟨1, 0⟩ else t.space q := by
  obtain ⟨hinsert, -⟩ := create_some h
  unfold space
  split_ifs with hq
  · rw [hq, get_create hf hinsert]
    rfl
  · rw [get_create_ne hinsert hq]

end ProcessTable

end BraneKernel
