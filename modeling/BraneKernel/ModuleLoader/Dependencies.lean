import BraneKernel.Lib.Trace
import BraneKernel.ModuleLoader
import Mathlib.Data.List.Perm.Basic

namespace BraneKernel

namespace ModuleLoader

inductive LoaderOp
  | load (name : List Char) (version : BitVec 8 × BitVec 8 × BitVec 8) (deps : List ModuleId)
  | start (id : ModuleId)
  | suspend (id : ModuleId)
  | unload (id : ModuleId)
  deriving DecidableEq

abbrev Call := LoaderOp × Except ModuleError ModuleId

def perform (t : ModuleLoader) : LoaderOp → Option (ModuleLoader × Except ModuleError ModuleId)
  | .load name version deps => t.load name version deps
  | .start id => some ((t.start id).1, (t.start id).2.map fun _ ↦ id)
  | .suspend id => some ((t.suspend id).1, (t.suspend id).2.map fun _ ↦ id)
  | .unload id => some ((t.unload id).1, (t.unload id).2.map fun _ ↦ id)

def Step (t : ModuleLoader) (e : Call) (t' : ModuleLoader) : Prop :=
  t.perform e.1 = some (t', e.2)

/-- A module is loaded with at most four dependencies, each of them loaded. -/
def admits (t : ModuleLoader) : Call → Prop
  | (.load _ _ deps, .ok _) =>
    deps.length ≤ maxModuleDeps ∧ ∀ dep ∈ deps, (t.info dep).isSome = true
  | _ => True

inductive Effect (t : ModuleLoader) : Call → ModuleLoader → Prop
  | refused (op : LoaderOp) (error : ModuleError) : Effect t (op, .error error) t
  | loaded (name : List Char) (version : BitVec 8 × BitVec 8 × BitVec 8) (deps : List ModuleId)
      {t' : ModuleLoader} :
      Slots.insert (.create t.nextId name version deps) t.modules = some t'.modules →
      t'.nextId.toNat = t.nextId.toNat + 1 →
      Effect t (.load name version deps, .ok t.nextId) t'
  | marked (op : LoaderOp) (id : ModuleId) (status : ModuleStatus) {t' : ModuleLoader} :
      (∀ name version deps, op ≠ .load name version deps) → t'.nextId = t.nextId →
      t'.modules =
        Slots.modify (fun m ↦ m.id == id) (fun m ↦ { m with status := status }) t.modules →
      Effect t (op, .ok id) t'
  | unloaded (id : ModuleId) {t' : ModuleLoader} :
      (∀ m, some m ∈ t.modules → m.id ≠ id → some id ∉ m.dependsOn) → t'.nextId = t.nextId →
      t'.modules = Slots.clear (fun m ↦ m.id == id) t.modules →
      Effect t (.unload id, .ok id) t'

/-- What the table keeps of the calls made so far. -/
structure Sound (es : List Call) (t : ModuleLoader) : Prop where
  distinct : (Slots.keys ModuleInfo.id t.modules).Nodup
  below : ∀ m, some m ∈ t.modules → m.id.toNat < t.nextId.toNat
  recorded : ∀ name version deps id, (.load name version deps, .ok id) ∈ es →
    id.toNat < t.nextId.toNat ∧
      ∀ m, some m ∈ t.modules → m.id = id → ∀ dep ∈ deps, some dep ∈ m.dependsOn
  kept : ∀ m, some m ∈ t.modules → ∀ dep, some dep ∈ m.dependsOn → (t.info dep).isSome = true

variable {t t' : ModuleLoader} {e : Call} {es : List Call}

theorem load_effect {name : List Char} {version : BitVec 8 × BitVec 8 × BitVec 8}
    {deps : List ModuleId} {r : Except ModuleError ModuleId}
    (h : t.load name version deps = some (t', r)) : Effect t (.load name version deps, r) t' := by
  unfold load at h
  split at h
  · cases h
    exact .refused _ _
  · split at h
    · cases h
      exact .refused _ _
    · next modules hins =>
      obtain ⟨nextId, hnext, hr⟩ := Option.map_eq_some_iff.mp h
      cases hr
      exact .loaded name version deps hins (checkedSucc_toNat hnext)

theorem setStatus_effect (op : LoaderOp) (hop : ∀ name version deps, op ≠ .load name version deps)
    (id : ModuleId) (status : ModuleStatus) :
    Effect t (op, (t.setStatus id status).2.map fun _ ↦ id) (t.setStatus id status).1 := by
  unfold setStatus
  split
  · exact .marked op id status hop rfl rfl
  · exact .refused op _

theorem unload_effect (id : ModuleId) :
    Effect t (.unload id, (t.unload id).2.map fun _ ↦ id) (t.unload id).1 := by
  unfold unload
  split
  · exact .refused _ _
  · next hdep =>
    split
    · refine .unloaded id (fun m hm hne hmem ↦ hdep (Slots.find_isSome hm ?_)) rfl rfl
      rw [Bool.and_eq_true, bne_iff_ne, List.contains_iff_mem]
      exact ⟨hne, hmem⟩
    · exact .refused _ _

theorem step_effect (h : Step t e t') : Effect t e t' := by
  obtain ⟨op, r⟩ := e
  cases op with
  | load name version deps => exact load_effect h
  | start id =>
    cases h
    exact setStatus_effect _ (fun _ _ _ h ↦ by cases h) id .running
  | suspend id =>
    cases h
    exact setStatus_effect _ (fun _ _ _ h ↦ by cases h) id .suspended
  | unload id =>
    cases h
    exact unload_effect id

theorem sound_new : Sound [] new where
  distinct := by decide
  below m hm := by
    obtain h := List.eq_of_mem_replicate hm
    cases h
  recorded := by simp
  kept m hm := by
    obtain h := List.eq_of_mem_replicate hm
    cases h

namespace Sound

theorem refused (h : Sound es t) (op : LoaderOp) (error : ModuleError) :
    Sound (es ++ [(op, .error error)]) t where
  distinct := h.distinct
  below := h.below
  recorded name version deps id hmem := by
    rcases List.mem_append.mp hmem with hmem | hmem
    · exact h.recorded name version deps id hmem
    · cases List.mem_singleton.mp hmem
  kept := h.kept

section Loaded

variable {name : List Char} {version : BitVec 8 × BitVec 8 × BitVec 8} {deps : List ModuleId}
  (h : Sound es t)
  (hins : Slots.insert (.create t.nextId name version deps) t.modules = some t'.modules)

include h hins

theorem distinct_loaded : (Slots.keys ModuleInfo.id t'.modules).Nodup := by
  have hkeys : (Slots.keys ModuleInfo.id t'.modules).Perm
      (t.nextId :: Slots.keys ModuleInfo.id t.modules) := Slots.keys_insert hins
  rw [hkeys.nodup_iff, List.nodup_cons]
  refine ⟨fun hmem ↦ ?_, h.distinct⟩
  obtain ⟨m, hm, hid⟩ := Slots.mem_keys.mp hmem
  exact absurd (hid ▸ h.below m hm) (lt_irrefl _)

theorem kept_loaded (hdeps : ∀ dep ∈ deps, (t.info dep).isSome = true) {m : ModuleInfo}
    (hm : some m ∈ t'.modules) {dep : ModuleId} (hdep : some dep ∈ m.dependsOn) :
    (t'.info dep).isSome = true := by
  have hold : (t.info dep).isSome = true := by
    rcases (Slots.mem_insert hins).mp hm with hm | rfl
    · exact h.kept m hm dep hdep
    · exact hdeps dep (List.mem_of_mem_take (ModuleInfo.some_mem_dependsOn_create.mp hdep))
  rw [info_isSome_iff] at hold ⊢
  exact (Slots.keys_insert hins).mem_iff.mpr (List.mem_cons_of_mem _ hold)

theorem loaded (hok : t.admits (.load name version deps, .ok t.nextId))
    (hnext : t'.nextId.toNat = t.nextId.toNat + 1) :
    Sound (es ++ [(.load name version deps, .ok t.nextId)]) t' where
  distinct := h.distinct_loaded hins
  below m hm := by
    rw [hnext]
    rcases (Slots.mem_insert hins).mp hm with hm | rfl
    · exact Nat.lt_succ_of_lt (h.below m hm)
    · exact Nat.lt_succ_self _
  recorded name' version' deps' id hmem := by
    rw [hnext]
    rcases List.mem_append.mp hmem with hmem | hmem
    · obtain ⟨hlt, hrec⟩ := h.recorded name' version' deps' id hmem
      refine ⟨Nat.lt_succ_of_lt hlt, fun m hm hid ↦ ?_⟩
      rcases (Slots.mem_insert hins).mp hm with hm | rfl
      · exact hrec m hm hid
      · exact absurd (hid ▸ hlt) (lt_irrefl _)
    · cases List.mem_singleton.mp hmem
      refine ⟨Nat.lt_succ_self _, fun m hm hid dep hdep ↦ ?_⟩
      rcases (Slots.mem_insert hins).mp hm with hm | rfl
      · exact absurd (hid ▸ h.below m hm) (lt_irrefl _)
      · rw [ModuleInfo.some_mem_dependsOn_create, List.take_of_length_le hok.1]
        exact hdep
  kept m hm dep hdep := h.kept_loaded hins hok.2 hm hdep

end Loaded

theorem of_old {op : LoaderOp} {id : ModuleId} (h : Sound es t)
    (hop : ∀ name version deps, op ≠ .load name version deps)
    (hnext : t'.nextId = t.nextId) (hdistinct : (Slots.keys ModuleInfo.id t'.modules).Nodup)
    (hold : ∀ m, some m ∈ t'.modules →
      (∃ a, some a ∈ t.modules ∧ a.id = m.id ∧ a.dependsOn = m.dependsOn) ∧
        ∀ dep, some dep ∈ m.dependsOn → (t.info dep).isSome = true → (t'.info dep).isSome = true) :
    Sound (es ++ [(op, .ok id)]) t' := by
  refine ⟨hdistinct, fun m hm ↦ ?_, fun name version deps id' hmem ↦ ?_, fun m hm dep hdep ↦ ?_⟩
  · obtain ⟨⟨a, ha, hid, -⟩, -⟩ := hold m hm
    rw [hnext, ← hid]
    exact h.below a ha
  · rcases List.mem_append.mp hmem with hmem | hmem
    · obtain ⟨hlt, hrec⟩ := h.recorded name version deps id' hmem
      refine ⟨hnext ▸ hlt, fun m hm hid ↦ ?_⟩
      obtain ⟨⟨a, ha, hsame, hdeps⟩, -⟩ := hold m hm
      rw [← hdeps]
      exact hrec a ha (hsame.trans hid)
    · exact absurd (Prod.mk.inj (List.mem_singleton.mp hmem)).1.symm (hop name version deps)
  · obtain ⟨⟨a, ha, -, hdeps⟩, hstay⟩ := hold m hm
    exact hstay dep hdep (h.kept a ha dep (hdeps ▸ hdep))

theorem marked {op : LoaderOp} {id : ModuleId} {status : ModuleStatus} (h : Sound es t)
    (hop : ∀ name version deps, op ≠ .load name version deps) (hnext : t'.nextId = t.nextId)
    (hmodules : t'.modules =
      Slots.modify (fun m ↦ m.id == id) (fun m ↦ { m with status := status }) t.modules) :
    Sound (es ++ [(op, .ok id)]) t' := by
  have hkeys : Slots.keys ModuleInfo.id t'.modules = Slots.keys ModuleInfo.id t.modules := by
    rw [hmodules, Slots.keys_modify]
    intro m _
    rfl
  refine h.of_old hop hnext (hkeys ▸ h.distinct) fun m hm ↦ ⟨?_, fun dep _ hdep ↦ ?_⟩
  · rw [hmodules] at hm
    rcases Slots.mem_modify hm with hm | ⟨a, ha, -, rfl⟩
    · exact ⟨m, hm, rfl, rfl⟩
    · exact ⟨a, ha, rfl, rfl⟩
  · rw [info_isSome_iff] at hdep ⊢
    rwa [hkeys]

theorem unloaded {id : ModuleId} (h : Sound es t)
    (hfree : ∀ m, some m ∈ t.modules → m.id ≠ id → some id ∉ m.dependsOn)
    (hnext : t'.nextId = t.nextId)
    (hmodules : t'.modules = Slots.clear (fun m ↦ m.id == id) t.modules) :
    Sound (es ++ [(.unload id, .ok id)]) t' := by
  have hmem : ∀ m, some m ∈ t'.modules ↔ some m ∈ t.modules ∧ m.id ≠ id := by
    intro m
    rw [hmodules]
    exact Slots.mem_clear h.distinct
  have hdistinct : (Slots.keys ModuleInfo.id t'.modules).Nodup := by
    rw [hmodules]
    exact h.distinct.sublist (Slots.keys_clear _ _ _)
  refine h.of_old (fun _ _ _ hop ↦ by cases hop) hnext hdistinct fun m hm ↦ ?_
  obtain ⟨hm, hne⟩ := (hmem m).mp hm
  refine ⟨⟨m, hm, rfl, rfl⟩, fun dep hdep hloaded ↦ ?_⟩
  rw [info_isSome_iff, Slots.mem_keys] at hloaded ⊢
  obtain ⟨a, ha, rfl⟩ := hloaded
  exact ⟨a, (hmem a).mpr ⟨ha, fun hid ↦ hfree m hm hne (hid ▸ hdep)⟩, rfl⟩

theorem step (h : Sound es t) (hstep : Trace.Guarded admits Step t e t') :
    Sound (es ++ [e]) t' := by
  obtain ⟨hok, hstep⟩ := hstep
  cases step_effect hstep with
  | refused op error => exact h.refused op error
  | loaded name version deps hins hnext => exact h.loaded hins hok hnext
  | marked op id status hop hnext hmodules => exact h.marked hop hnext hmodules
  | unloaded id hfree hnext hmodules => exact h.unloaded hfree hnext hmodules

end Sound

theorem sound_of_run (h : Trace.Run (Trace.Guarded admits Step) new es t) : Sound es t :=
  h.history (I := Sound) sound_new fun _ _ _ _ hs hstep ↦ hs.step hstep

/-- While a module is loaded, so are the modules it was loaded with as dependencies. -/
theorem dependencies_stay_loaded {name : List Char} {version : BitVec 8 × BitVec 8 × BitVec 8}
    {deps : List ModuleId} {id : ModuleId}
    (h : Trace.Run (Trace.Guarded admits Step) new es t)
    (hload : (.load name version deps, .ok id) ∈ es) (hid : (t.info id).isSome = true) :
    ∀ dep ∈ deps, (t.info dep).isSome = true := by
  have hs := sound_of_run h
  obtain ⟨m, hm, hm'⟩ := Slots.mem_keys.mp (info_isSome_iff.mp hid)
  intro dep hdep
  exact hs.kept m hm dep ((hs.recorded _ _ _ _ hload).2 m hm hm' dep hdep)

theorem dependencies_stay_loaded_two : ∃ t, Trace.Run (Trace.Guarded admits Step) new
    [(.load ['a'] (1, 0, 0) [], .ok 1), (.load ['b'] (1, 0, 0) [1], .ok 2),
      (.unload 1, .error .hasDependents)] t ∧
    ∀ dep ∈ [1], (t.info dep).isSome = true := by
  obtain ⟨t, hrun, hid⟩ : ∃ t, Trace.Run (Trace.Guarded admits Step) new
      [(.load ['a'] (1, 0, 0) [], .ok 1), (.load ['b'] (1, 0, 0) [1], .ok 2),
        (.unload 1, .error .hasDependents)] t ∧ (t.info 2).isSome = true := by
    refine ⟨_, .cons ⟨⟨by decide, by simp⟩, rfl⟩ (.cons ⟨⟨by decide, ?_⟩, rfl⟩
      (.cons ⟨trivial, rfl⟩ .nil)), rfl⟩
    intro dep hdep
    obtain rfl := List.mem_singleton.mp hdep
    rfl
  exact ⟨t, hrun, dependencies_stay_loaded hrun (List.mem_cons_of_mem _ List.mem_cons_self) hid⟩

/-- The fifth dependency of a loaded module is unloaded. -/
theorem fifth_dependency_unloaded : ∃ t, Trace.Run Step new
    [(.load ['a'] (1, 0, 0) [], .ok 1), (.load ['b'] (1, 0, 0) [], .ok 2),
      (.load ['c'] (1, 0, 0) [], .ok 3), (.load ['d'] (1, 0, 0) [], .ok 4),
      (.load ['e'] (1, 0, 0) [], .ok 5), (.load ['f'] (1, 0, 0) [1, 2, 3, 4, 5], .ok 6),
      (.unload 5, .ok 5)] t ∧
    (t.info 6).isSome = true ∧ (t.info 5).isSome = false :=
  ⟨_, .cons rfl (.cons rfl (.cons rfl (.cons rfl (.cons rfl (.cons rfl (.cons rfl .nil)))))),
    rfl, rfl⟩

-- A module is loaded with a dependency on one that never was.
example : ((new.load ['a'] (1, 0, 0) [9]).map fun r ↦ (r.2, (r.1.info 9).isSome)) =
    some (.ok 1, false) := by
  decide +kernel

end ModuleLoader

end BraneKernel
