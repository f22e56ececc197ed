import BraneKernel.Basic
import BraneKernel.Lib.Slots
import BraneKernel.Lib.Utf8

namespace BraneKernel

abbrev ModuleId := U64

inductive ModuleStatus
  | loaded | running | suspended | unloading
  | failed (code : BitVec 32)
  deriving DecidableEq

inductive ModuleError
  | notFound | alreadyLoaded | tableFull | hasDependents | invalidImage
  deriving DecidableEq

def maxModuleName : ℕ := 32

def maxModuleDeps : ℕ := 4

structure ModuleInfo where
  id : ModuleId
  name : Bytes.Sized maxModuleName
  nameLen : ℕ
  versionMajor : BitVec 8
  versionMinor : BitVec 8
  versionPatch : BitVec 8
  status : ModuleStatus
  dependsOn : List (Option ModuleId)
  fits : nameLen ≤ maxModuleName
  size : dependsOn.length = maxModuleDeps
  deriving DecidableEq

namespace ModuleInfo

def nameStr (m : ModuleInfo) : List Char :=
  (Utf8.fromUtf8 (m.name.1.take m.nameLen)).getD "???".toList

def padded {α : Type} (n : ℕ) (fill : α) (values : List α) : List α :=
  values.take n ++ List.replicate (n - values.length) fill

theorem length_padded {α : Type} (n : ℕ) (fill : α) (values : List α) :
    (padded n fill values).length = n := by
  rw [padded, List.length_append, List.length_take, List.length_replicate]
  omega

/-- The record of a module just loaded. Only its first four dependencies are kept. -/
def create (id : ModuleId) (name : List Char) (version : BitVec 8 × BitVec 8 × BitVec 8)
    (deps : List ModuleId) : ModuleInfo where
  id := id
  name := ⟨padded maxModuleName 0 (Utf8.encode name), length_padded _ _ _⟩
  nameLen := min (Utf8.encode name).length maxModuleName
  versionMajor := version.1
  versionMinor := version.2.1
  versionPatch := version.2.2
  status := .loaded
  dependsOn := padded maxModuleDeps none (deps.map some)
  fits := Nat.min_le_right _ _
  size := length_padded _ _ _

theorem some_mem_dependsOn_create {id dep : ModuleId} {name : List Char}
    {version : BitVec 8 × BitVec 8 × BitVec 8} {deps : List ModuleId} :
    some dep ∈ (create id name version deps).dependsOn ↔ dep ∈ deps.take maxModuleDeps := by
  change some dep ∈ padded maxModuleDeps none (deps.map some) ↔ _
  rw [padded, List.mem_append, ← List.map_take, List.mem_map]
  constructor
  · rintro (⟨dep', hmem, hdep⟩ | hnone)
    · rwa [← Option.some.inj hdep]
    · cases List.eq_of_mem_replicate hnone
  · exact fun hmem ↦ .inl ⟨dep, hmem, rfl⟩

end ModuleInfo

def maxModules : ℕ := 32

structure ModuleLoader where
  modules : List (Option ModuleInfo)
  nextId : ModuleId
  size : modules.length = maxModules

namespace ModuleLoader

def new : ModuleLoader := ⟨List.replicate maxModules none, 1, List.length_replicate⟩

def info (t : ModuleLoader) (id : ModuleId) : Option ModuleInfo :=
  Slots.find (fun m ↦ m.id == id) t.modules

def load (t : ModuleLoader) (name : List Char) (version : BitVec 8 × BitVec 8 × BitVec 8)
    (deps : List ModuleId) : Option (ModuleLoader × Except ModuleError ModuleId) :=
  if (Slots.find (fun m ↦ m.nameStr == name) t.modules).isSome then
    some (t, .error .alreadyLoaded)
  else
    match h : Slots.insert (.create t.nextId name version deps) t.modules with
    | none => some (t, .error .tableFull)
    | some modules => (checkedSucc t.nextId).map fun nextId ↦
      (⟨modules, nextId, (Slots.length_insert h).trans t.size⟩, .ok t.nextId)

def setStatus (t : ModuleLoader) (id : ModuleId) (status : ModuleStatus) :
    ModuleLoader × Except ModuleError Unit :=
  if (t.info id).isSome then
    ({ t with
        modules := Slots.modify (fun m ↦ m.id == id) (fun m ↦ { m with status := status }) t.modules
        size := (Slots.length_modify _ _ _).trans t.size }, .ok ())
  else (t, .error .notFound)

def start (t : ModuleLoader) (id : ModuleId) : ModuleLoader × Except ModuleError Unit :=
  t.setStatus id .running

def suspend (t : ModuleLoader) (id : ModuleId) : ModuleLoader × Except ModuleError Unit :=
  t.setStatus id .suspended

def hasDependents (t : ModuleLoader) (id : ModuleId) : Bool :=
  (Slots.find (fun m ↦ m.id != id && m.dependsOn.contains (some id)) t.modules).isSome

def unload (t : ModuleLoader) (id : ModuleId) : ModuleLoader × Except ModuleError Unit :=
  if t.hasDependents id then (t, .error .hasDependents)
  else if (t.info id).isSome then
    ({ t with
        modules := Slots.clear (fun m ↦ m.id == id) t.modules
        size := (Slots.length_clear _ _).trans t.size }, .ok ())
  else (t, .error .notFound)

variable {t : ModuleLoader} {id : ModuleId}

theorem info_isSome_iff :
    (t.info id).isSome = true ↔ id ∈ Slots.keys ModuleInfo.id t.modules := by
  rw [Slots.mem_keys]
  constructor
  · intro h
    obtain ⟨m, hm⟩ := Option.isSome_iff_exists.mp h
    obtain ⟨hmem, hid⟩ := Slots.find_mem hm
    exact ⟨m, hmem, beq_iff_eq.mp hid⟩
  · rintro ⟨m, hmem, hid⟩
    exact Slots.find_isSome hmem (beq_iff_eq.mpr hid)

end ModuleLoader

end BraneKernel
