import BraneKernel.Basic
import BraneKernel.Lib.Slots

namespace BraneKernel.Security

inductive RiskLevel
  | low | medium | high | critical
  deriving DecidableEq

inductive CapScope
  | process (task : TaskId)
  | service (id : U64)
  | system
  | brane (id : U64)
  deriving DecidableEq

abbrev CapPermissions := BitVec 32

namespace CapPermissions

def read : CapPermissions := 1#32 <<< 0
def write : CapPermissions := 1#32 <<< 1
def execute : CapPermissions := 1#32 <<< 2
def grant : CapPermissions := 1#32 <<< 3
def revoke : CapPermissions := 1#32 <<< 4
def ipcSend : CapPermissions := 1#32 <<< 5
def ipcRecv : CapPermissions := 1#32 <<< 6
def braneConnect : CapPermissions := 1#32 <<< 7
def braneDiscover : CapPermissions := 1#32 <<< 8
def processCreate : CapPermissions := 1#32 <<< 9
def processSignal : CapPermissions := 1#32 <<< 10
def memoryMap : CapPermissions := 1#32 <<< 11
def braneSend : CapPermissions := 1#32 <<< 12
def braneRecv : CapPermissions := 1#32 <<< 13

def has (self perm : CapPermissions) : Bool := self &&& perm == perm

theorem has_iff (self perm : CapPermissions) :
    has self perm = true ↔ ∀ i, perm.getLsbD i = true → self.getLsbD i = true := by
  rw [has, beq_iff_eq]
  constructor
  · intro h i hi
    rw [← h, BitVec.getLsbD_and, Bool.and_eq_true] at hi
    exact hi.1
  · intro h
    apply BitVec.eq_of_getLsbD_eq
    intro i _
    rw [BitVec.getLsbD_and]
    cases hp : perm.getLsbD i with
    | false => simp
    | true => simp [h i hp]

end CapPermissions

structure Capability where
  id : CapabilityId
  owner : TaskId
  scope : CapScope
  permissions : CapPermissions
  riskLevel : RiskLevel
  revocable : Bool
  deriving DecidableEq

inductive CapError
  | notFound | permissionDenied | alreadyRevoked | tableFull | invalidScope
  deriving DecidableEq

def maxCapabilities : ℕ := 256

structure CapabilityManager where
  capabilities : List (Option Capability)
  nextId : CapabilityId
  size : capabilities.length = maxCapabilities

namespace CapabilityManager

def new : CapabilityManager where
  capabilities := List.replicate maxCapabilities none
  nextId := 1
  size := List.length_replicate

variable (m : CapabilityManager)

def grant (owner : TaskId) (scope : CapScope) (permissions : CapPermissions)
    (riskLevel : RiskLevel) (revocable : Bool) :
    Option (CapabilityManager × Except CapError CapabilityId) :=
  match h : Slots.insert ⟨m.nextId, owner, scope, permissions, riskLevel, revocable⟩
      m.capabilities with
  | none => some (m, .error .tableFull)
  | some slots => (checkedSucc m.nextId).map fun next ↦
      (⟨slots, next, (Slots.length_insert h).trans m.size⟩, .ok m.nextId)

def check (task : TaskId) (required : CapPermissions) (scope : CapScope) :
    Except CapError CapabilityId :=
  match Slots.find (fun c ↦ c.owner == task && c.scope == scope &&
      CapPermissions.has c.permissions required) m.capabilities with
  | some cap => .ok cap.id
  | none => .error .permissionDenied

def revoke (capId : CapabilityId) : CapabilityManager × Except CapError Unit :=
  match Slots.find (fun c ↦ c.id == capId) m.capabilities with
  | none => (m, .error .notFound)
  | some cap =>
    if cap.revocable then
      (⟨Slots.clear (fun c ↦ c.id == capId) m.capabilities, m.nextId, by simp [m.size]⟩, .ok ())
    else (m, .error .permissionDenied)

theorem check_ok_iff (task : TaskId) (required : CapPermissions) (scope : CapScope) :
    (∃ id, m.check task required scope = .ok id) ↔
      ∃ cap, some cap ∈ m.capabilities ∧ cap.owner = task ∧ cap.scope = scope ∧
        ∀ i, required.getLsbD i = true → cap.permissions.getLsbD i = true := by
  unfold check
  constructor
  · rintro ⟨id, h⟩
    split at h
    · next cap hf =>
      obtain ⟨hm, hp⟩ := Slots.find_mem hf
      simp only [Bool.and_eq_true, beq_iff_eq, CapPermissions.has_iff] at hp
      exact ⟨cap, hm, hp.1.1, hp.1.2, hp.2⟩
    · cases h
  · rintro ⟨cap, hm, ho, hs, hp⟩
    have hf := Slots.find_isSome (p := fun c ↦ c.owner == task && c.scope == scope &&
      CapPermissions.has c.permissions required) hm (by
        simp only [Bool.and_eq_true, beq_iff_eq, CapPermissions.has_iff]
        exact ⟨⟨ho, hs⟩, hp⟩)
    obtain ⟨c, hc⟩ := Option.isSome_iff_exists.mp hf
    exact ⟨c.id, by rw [hc]⟩

theorem grant_cases {m m' : CapabilityManager} {owner : TaskId} {scope : CapScope}
    {permissions : CapPermissions} {riskLevel : RiskLevel} {revocable : Bool}
    {r : Except CapError CapabilityId}
    (h : m.grant owner scope permissions riskLevel revocable = some (m', r)) :
    (m' = m ∧ r = .error .tableFull) ∨
    (r = .ok m.nextId ∧ checkedSucc m.nextId = some m'.nextId ∧
      Slots.insert ⟨m.nextId, owner, scope, permissions, riskLevel, revocable⟩ m.capabilities =
        some m'.capabilities) := by
  unfold grant at h
  split at h
  · cases h
    exact .inl ⟨rfl, rfl⟩
  · next slots hs =>
    obtain ⟨next, hn, he⟩ := Option.map_eq_some_iff.mp h
    cases he
    exact .inr ⟨rfl, hn, hs⟩

theorem revoke_cases (capId : CapabilityId) :
    ((m.revoke capId).1 = m ∧ (m.revoke capId).2 ≠ .ok () ) ∨
    ((m.revoke capId).2 = .ok () ∧ (m.revoke capId).1.nextId = m.nextId ∧
      (m.revoke capId).1.capabilities = Slots.clear (fun c ↦ c.id == capId) m.capabilities ∧
      ∃ cap, some cap ∈ m.capabilities ∧ cap.id = capId ∧ cap.revocable = true) := by
  unfold revoke
  split
  · exact .inl ⟨rfl, by simp⟩
  · next cap hf =>
    obtain ⟨hm, hid⟩ := Slots.find_mem hf
    split_ifs with hr
    · exact .inr ⟨rfl, rfl, rfl, cap, hm, by simpa using hid, hr⟩
    · exact .inl ⟨rfl, by simp⟩

end CapabilityManager

end BraneKernel.Security
