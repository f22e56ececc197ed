import BraneKernel.Context
import BraneKernel.Lib.Slots
import Mathlib.Data.List.ReduceOption
import Mathlib.Data.Int.Notation

namespace BraneKernel

inductive ProcessState
  | creating | ready | running | blocked | sleeping | zombie | terminated
  deriving DecidableEq

structure ProcessMemory where
  codeStart : U64
  codeSize : U64
  stackTop : U64
  stackSize : U64
  heapStart : U64
  heapEnd : U64
  deriving DecidableEq

structure AddressSpaceState where
  generation : U64
  pins : BitVec 32
  deriving DecidableEq

structure Process where
  pid : Pid
  parentPid : Option Pid
  name : List (BitVec 8)
  state : ProcessState
  schedulerTask : TaskId
  capabilities : List (Option CapabilityId)
  memory : ProcessMemory
  addressSpace : AddressSpaceState
  exitCode : ℤ
  cpuTicks : U64
  syscallCount : U64
  signalPending : U64
  signalBlocked : U64
  savedContext : Option UserContext
  deriving DecidableEq

def Process.live (p : Process) : Bool := p.state != .terminated && p.state != .zombie

def maxProcesses : ℕ := 128

structure ProcessTable where
  processes : List (Option Process)
  nextPid : Pid
  size : processes.length = maxProcesses

namespace ProcessTable

def new : ProcessTable where
  processes := List.replicate maxProcesses none
  nextPid := 1
  size := List.length_replicate

def get (t : ProcessTable) (pid : Pid) : Option Process :=
  Slots.find (fun p ↦ p.pid == pid) t.processes

def modify (t : ProcessTable) (pid : Pid) (f : Process → Process) : ProcessTable where
  processes := Slots.modify (fun p ↦ p.pid == pid) f t.processes
  nextPid := t.nextPid
  size := by simp [t.size]

def newProcess (t : ProcessTable) (name : List (BitVec 8)) (parent : Option Pid)
    (schedulerTask : TaskId) : Process :=
  { pid := t.nextPid
    parentPid := parent
    name := name.take 32
    state := .creating
    schedulerTask := schedulerTask
    capabilities := List.replicate 8 none
    memory :=
      { codeStart := 0x00400000
        codeSize := 0
        stackTop := 0x00800000
        stackSize := 4096 * 16
        heapStart := 0x01000000
        heapEnd := 0x01000000 }
    addressSpace := { generation := 1, pins := 0 }
    exitCode := 0
    cpuTicks := 0
    syscallCount := 0
    signalPending := 0
    signalBlocked := 0
    savedContext := none }

/-- Create a process in the first free slot. The outer `none` is the overflow
of the pid counter, the inner one a full table. -/
def create (t : ProcessTable) (name : List (BitVec 8)) (parent : Option Pid)
    (schedulerTask : TaskId) : Option (ProcessTable × Option Pid) :=
  match h : Slots.insert (t.newProcess name parent schedulerTask) t.processes with
  | none => some (t, none)
  | some slots => (checkedSucc t.nextPid).map fun next ↦
      (⟨slots, next, (Slots.length_insert h).trans t.size⟩, some t.nextPid)

def start (t : ProcessTable) (pid : Pid) : ProcessTable × Bool :=
  (t.modify pid fun p ↦ { p with state := .ready }, (t.get pid).isSome)

def terminate (t : ProcessTable) (pid : Pid) (exitCode : ℤ) : ProcessTable × Bool :=
  (t.modify pid fun p ↦ { p with state := .terminated, exitCode := exitCode }, (t.get pid).isSome)

def getTaskIdByPid (t : ProcessTable) (pid : Pid) : Option TaskId :=
  (t.get pid).map (·.schedulerTask)

def isSelfOrChild (t : ProcessTable) (callerPid targetPid : Pid) : Bool :=
  targetPid == callerPid || (t.get targetPid).bind (·.parentPid) == some callerPid

def slotOf (t : ProcessTable) (pid : Pid) : Option ℕ :=
  Slots.index (fun p ↦ p.pid == pid) t.processes

def liveOwners (t : ProcessTable) (taskId : TaskId) : List Pid :=
  ((t.processes.reduceOption).filter fun p ↦ p.schedulerTask == taskId && p.live).map (·.pid)

def getPidByTaskId (t : ProcessTable) (taskId : TaskId) : Option Pid :=
  match t.liveOwners taskId with
  | [pid] => some pid
  | _ => none

variable {t : ProcessTable} {pid q : Pid} {f : Process → Process} {p : Process}

theorem get_pid (h : t.get pid = some p) : p.pid = pid := by
  simpa using (Slots.find_mem h).2

theorem get_mem (h : t.get pid = some p) : some p ∈ t.processes :=
  (Slots.find_mem h).1

theorem get_modify (hf : ∀ p, (f p).pid = p.pid) :
    (t.modify pid f).get pid = (t.get pid).map f :=
  Slots.find_modify (fun p hp ↦ by simpa [hf p] using hp) _

theorem get_modify_of (hp : t.get pid = some p) (hf : ∀ p, (f p).pid = p.pid) :
    (t.modify pid f).get pid = some (f p) := by
  rw [get_modify hf, hp, Option.map_some]

theorem get_modify_ne (hf : ∀ p, (f p).pid = p.pid) (hq : q ≠ pid) :
    (t.modify pid f).get q = t.get q := by
  refine Slots.find_modify_of_disjoint (fun p hp ↦ ?_) _
  have hp : p.pid = pid := by simpa using hp
  simp [hf p, hp, hq.symm]

theorem get_modify_other {r : Option Process} (h : t.get q = r) (hf : ∀ p, (f p).pid = p.pid)
    (hq : q ≠ pid) : (t.modify pid f).get q = r :=
  (get_modify_ne hf hq).trans h

theorem modify_eq_self (h : ∀ p, t.get pid = some p → f p = p) : t.modify pid f = t := by
  have hs := Slots.modify_eq_self h
  cases t
  simp only [modify, mk.injEq, and_true]
  exact hs

theorem modify_modify {g : Process → Process} (hf : ∀ p, (f p).pid = p.pid) :
    (t.modify pid f).modify pid g = t.modify pid (g ∘ f) := by
  simp only [modify, mk.injEq, and_true]
  exact Slots.modify_modify (fun p hp ↦ by rwa [hf]) _

theorem slotOf_modify (hf : ∀ p, (f p).pid = p.pid) : (t.modify pid f).slotOf q = t.slotOf q := by
  have hslot : ∀ t : ProcessTable,
      t.slotOf q = Slots.index (· == q) (t.processes.map (Option.map Process.pid)) := fun t ↦
    (Slots.index_map (· == q) Process.pid t.processes).symm
  rw [hslot, hslot, modify, Slots.map_modify fun p _ ↦ hf p]

theorem mem_modify (h : some p ∈ (t.modify pid f).processes) :
    some p ∈ t.processes ∨ ∃ a, some a ∈ t.processes ∧ a.pid = pid ∧ p = f a := by
  rcases Slots.mem_modify h with h | ⟨a, ha, hp, he⟩
  · exact .inl h
  · exact .inr ⟨a, ha, by simpa using hp, he⟩

theorem forall_modify {P : Process → Prop} (h : ∀ p, some p ∈ t.processes → P p)
    (hf : ∀ p, some p ∈ t.processes → P p → P (f p)) :
    ∀ p, some p ∈ (t.modify pid f).processes → P p := by
  intro p hp
  rcases mem_modify hp with hp | ⟨a, ha, -, rfl⟩
  · exact h p hp
  · exact hf a ha (h a ha)

theorem create_answer {t' : ProcessTable} {name : List (BitVec 8)} {parent : Option Pid}
    {schedulerTask : TaskId} {r : Option Pid}
    (h : t.create name parent schedulerTask = some (t', r)) :
    t' = t ∧ r = none ∨
    Slots.insert (t.newProcess name parent schedulerTask) t.processes = some t'.processes ∧
      checkedSucc t.nextPid = some t'.nextPid ∧ r = some t.nextPid := by
  unfold create at h
  split at h
  · cases h
    exact .inl ⟨rfl, rfl⟩
  · next slots hs =>
    obtain ⟨next, hn, he⟩ := Option.map_eq_some_iff.mp h
    cases he
    exact .inr ⟨hs, hn, rfl⟩

theorem create_cases {t' : ProcessTable} {name : List (BitVec 8)} {parent : Option Pid}
    {schedulerTask : TaskId} {r : Option Pid}
    (h : t.create name parent schedulerTask = some (t', r)) :
    t' = t ∨ Slots.insert (t.newProcess name parent schedulerTask) t.processes = some t'.processes ∧
      checkedSucc t.nextPid = some t'.nextPid := by
  rcases create_answer h with ⟨ht, -⟩ | ⟨hs, hn, -⟩
  · exact .inl ht
  · exact .inr ⟨hs, hn⟩

section Created

variable {t' : ProcessTable} {name : List (BitVec 8)} {parent : Option Pid} {schedulerTask : TaskId}

theorem get_create_ne
    (hins : Slots.insert (t.newProcess name parent schedulerTask) t.processes = some t'.processes)
    (hq : q ≠ t.nextPid) : t'.get q = t.get q :=
  (Slots.find_insert hins).1 (beq_eq_false_iff_ne.mpr hq.symm)

section

variable (hbelow : ∀ p, some p ∈ t.processes → p.pid.toNat < t.nextPid.toNat)
include hbelow

theorem get_nextPid :
    t.get t.nextPid = none := by
  rw [Option.eq_none_iff_forall_ne_some]
  intro p hp
  have hlt := hbelow p (get_mem hp)
  rw [get_pid hp] at hlt
  exact Nat.lt_irrefl _ hlt

theorem get_create
    (hins : Slots.insert (t.newProcess name parent schedulerTask) t.processes = some t'.processes) :
    t'.get t.nextPid = some (t.newProcess name parent schedulerTask) :=
  (Slots.find_insert hins).2 (get_nextPid hbelow) (beq_self_eq_true t.nextPid)

theorem below_create
    (hins : Slots.insert (t.newProcess name parent schedulerTask) t.processes = some t'.processes)
    (hnext : checkedSucc t.nextPid = some t'.nextPid) :
    ∀ p, some p ∈ t'.processes → p.pid.toNat < t'.nextPid.toNat := by
  intro p hp
  rw [checkedSucc_toNat hnext]
  rcases (Slots.mem_insert hins).mp hp with hp | rfl
  · exact Nat.lt_succ_of_lt (hbelow p hp)
  · exact Nat.lt_succ_self _

end

end Created

theorem slotOf_isSome (h : t.get pid = some p) : (t.slotOf pid).isSome = true := by
  rw [slotOf, Slots.index_isSome]
  exact Option.isSome_iff_exists.mpr ⟨p, h⟩

theorem getTaskIdByPid_modify (hf : ∀ p, (f p).pid = p.pid)
    (ht : ∀ p, (f p).schedulerTask = p.schedulerTask) :
    (t.modify pid f).getTaskIdByPid q = t.getTaskIdByPid q := by
  unfold getTaskIdByPid
  by_cases hq : q = pid
  · subst hq
    simp [get_modify hf, Function.comp_def, ht]
  · rw [get_modify_ne hf hq]

theorem isSelfOrChild_modify (hf : ∀ p, (f p).pid = p.pid) (hp : ∀ p, (f p).parentPid = p.parentPid)
    (caller : Pid) :
    (t.modify pid f).isSelfOrChild caller q = t.isSelfOrChild caller q := by
  unfold isSelfOrChild
  by_cases hq : q = pid
  · subst hq
    simp [get_modify hf, Option.bind_map, hp]
  · rw [get_modify_ne hf hq]

def ownerOf (taskId : TaskId) (p : Process) : Option Pid :=
  if p.schedulerTask == taskId && p.live then some p.pid else none

theorem liveOwners_eq (t : ProcessTable) (taskId : TaskId) :
    t.liveOwners taskId =
      ((t.processes.map (Option.map (ownerOf taskId))).reduceOption).reduceOption := by
  rw [List.reduceOption_map, liveOwners]
  induction t.processes.reduceOption with
  | nil => rfl
  | cons p ps ih =>
    by_cases hp : (p.schedulerTask == taskId && p.live) = true
    · simp [ownerOf, hp, ih]
    · simp [ownerOf, hp, ih]

theorem getPidByTaskId_modify (hf : ∀ p, (f p).pid = p.pid)
    (ht : ∀ p, (f p).schedulerTask = p.schedulerTask) (hl : ∀ p, (f p).live = p.live)
    (taskId : TaskId) : (t.modify pid f).getPidByTaskId taskId = t.getPidByTaskId taskId := by
  have hm := Slots.map_modify (p := fun p ↦ p.pid == pid) (f := f) (g := ownerOf taskId)
    (s := t.processes) fun p _ ↦ by simp [ownerOf, hf, ht, hl]
  simp only [getPidByTaskId, liveOwners_eq, modify, hm]

variable {taskId : TaskId}

theorem getPidByTaskId_eq_some :
    t.getPidByTaskId taskId = some pid ↔ t.liveOwners taskId = [pid] := by
  unfold getPidByTaskId
  split <;> simp_all

theorem mem_liveOwners : q ∈ t.liveOwners taskId ↔
    ∃ p, some p ∈ t.processes ∧ p.pid = q ∧ p.schedulerTask = taskId ∧ p.live = true := by
  rw [liveOwners, List.mem_map]
  refine exists_congr fun p ↦ ?_
  rw [List.mem_filter, List.reduceOption_mem_iff, Bool.and_eq_true, beq_iff_eq]
  exact ⟨fun h ↦ ⟨h.1.1, h.2, h.1.2⟩, fun h ↦ ⟨⟨h.1, h.2.2⟩, h.2.1⟩⟩

theorem getPidByTaskId_modify_ne (hdead : ∀ p, (f p).live = false) (hq : q ≠ pid)
    (h : t.getPidByTaskId taskId = some pid) : (t.modify q f).getPidByTaskId taskId = some pid := by
  rw [getPidByTaskId_eq_some] at h ⊢
  rw [liveOwners_eq, modify, Slots.map_modify, ← liveOwners_eq, h]
  intro p hp
  have hnone : ownerOf taskId p = none := by
    refine if_neg fun howns ↦ hq ?_
    rw [Bool.and_eq_true, beq_iff_eq] at howns
    have hmem : q ∈ t.liveOwners taskId := mem_liveOwners.mpr ⟨p, get_mem hp, get_pid hp, howns⟩
    rwa [h, List.mem_singleton] at hmem
  rw [hnone, ownerOf, hdead, Bool.and_false, if_neg Bool.false_ne_true]

theorem getPidByTaskId_live (h : t.getPidByTaskId taskId = some pid) :
    ∃ p, some p ∈ t.processes ∧ p.pid = pid ∧ p.schedulerTask = taskId ∧ p.live = true := by
  rw [getPidByTaskId_eq_some] at h
  rw [← mem_liveOwners, h]
  exact List.mem_singleton_self pid

theorem get_of_getPidByTaskId (h : t.getPidByTaskId taskId = some pid) :
    ∃ p, t.get pid = some p := by
  obtain ⟨p, hp, rfl, -⟩ := getPidByTaskId_live h
  exact Option.isSome_iff_exists.mp (Slots.find_isSome hp (by simp))

end ProcessTable

end BraneKernel
