import BraneKernel.RamFs.Links
import Mathlib.Data.Fintype.Card

namespace BraneKernel.RamFs

open Path (components)
open Trace (Run Guarded)

variable {fs : RamFs}

def usedInodes (fs : RamFs) : Finset InodeIndex := {i | (fs.inodes i).used = true}

theorem mem_usedInodes {i : InodeIndex} : i ∈ fs.usedInodes ↔ (fs.inodes i).used = true := by
  simp [usedInodes]

/-- The used inodes form a tree under inode 0, and the counter counts them. -/
structure IsTree (fs : RamFs) : Prop where
  root : (fs.inodes 0).used = true ∧ (fs.inodes 0).nodeType = .directory
  parent : ∀ c, c ≠ 0 → (fs.inodes c).used = true →
    (fs.inodes (fs.inodes c).parent).used = true ∧
      (fs.inodes (fs.inodes c).parent).nodeType = .directory
  once : ∀ c, c ≠ 0 → (fs.inodes c).used = true →
    ∀ i, (fs.inodes i).children.count c = if i = (fs.inodes c).parent then 1 else 0
  listed : ∀ i, ∀ c ∈ (fs.inodes i).children, (fs.inodes c).used = true
  leaf : ∀ i, (fs.inodes i).nodeType ≠ .directory → (fs.inodes i).children = []
  room : ∀ i, (fs.inodes i).children.length ≤ maxChildren
  counted : fs.inodeCount = fs.usedInodes.card
  acyclic : ∃ rank : InodeIndex → ℕ, ∀ i, ∀ c ∈ (fs.inodes i).children, rank i < rank c

structure Rooted (fs : RamFs) : Prop where
  linked : fs.Linked
  used : (fs.inodes 0).used = true
  counted : fs.inodeCount = fs.usedInodes.card

theorem Rooted.isTree (h : fs.Rooted) : fs.IsTree where
  root := ⟨h.used, h.linked.root⟩
  parent c hc hused := by
    have hlisted := h.linked.listed c hc hused
    obtain ⟨hdir, hroot | hparent⟩ := h.linked.directory _ (List.ne_nil_of_mem hlisted)
    · rw [hroot]
      exact ⟨h.used, h.linked.root⟩
    · exact ⟨hparent, hdir⟩
  once c hc hused i := by
    split_ifs with hi
    · rw [hi]
      exact List.count_eq_one_of_mem (h.linked.nodup _) (h.linked.listed c hc hused)
    · apply List.count_eq_zero_of_not_mem
      intro hmem
      exact hi (h.linked.child i c hmem).2.2.symm
  listed i c hc := (h.linked.child i c hc).2.1
  leaf i hi := by
    by_contra hne
    exact hi (h.linked.directory i hne).1
  room := h.linked.room
  counted := h.counted
  acyclic := h.linked.ranked

theorem Rooted.new : RamFs.new.Rooted := by
  refine ⟨.new, rfl, ?_⟩
  have hroot : RamFs.new.usedInodes = {0} := by
    ext i
    rw [mem_usedInodes, Finset.mem_singleton]
    constructor
    · intro hused
      by_contra hne
      rw [new_of_ne hne] at hused
      exact Bool.false_ne_true hused
    · rintro rfl
      rfl
  rw [hroot]
  rfl

theorem Takes.usedInodes_link {parent new : InodeIndex} (h : fs.Takes parent new)
    (nodeType : NodeType) (name : List Char) :
    (fs.link parent new nodeType name).usedInodes = insert new fs.usedInodes := by
  ext i
  rw [mem_usedInodes, Finset.mem_insert, mem_usedInodes]
  by_cases hi : i = new
  · rw [hi, link_self fs parent nodeType name h.ne_parent]
    exact iff_of_true rfl (.inl rfl)
  · rw [link_of_ne fs parent nodeType name hi]
    simp [hi]

theorem usedInodes_unlink (idx : InodeIndex) (count : ℕ) :
    (fs.unlink idx count).usedInodes = fs.usedInodes.erase idx := by
  ext i
  rw [mem_usedInodes, Finset.mem_erase, mem_usedInodes, unlink_inodes]
  by_cases hi : i = idx
  · simp [hi]
  · simp [hi]

/-- The removals that do not take the root away: only the two spellings that `remove` refuses
name the root, or the root is not empty. -/
def RootKept (fs : RamFs) : RamFsEvent → Prop
  | .remove path =>
    components '/' path = [] → path = ['/'] ∨ path = [] ∨ fs.root.children ≠ []
  | _ => True

instance (fs : RamFs) : (e : RamFsEvent) → Decidable (fs.RootKept e)
  | .create _ _ => .isTrue trivial
  | .write _ _ _ => .isTrue trivial
  | .remove path => inferInstanceAs
    (Decidable (components '/' path = [] → path = ['/'] ∨ path = [] ∨ fs.root.children ≠ []))

theorem Linked.ne_root (h : fs.Linked) {names : List (List Char)} {idx : InodeIndex}
    (hne : names ≠ []) (hwalk : fs.walk names 0 = .ok idx) : idx ≠ 0 := by
  rcases walk_reaches hwalk with ⟨hnil, -⟩ | ⟨-, k, hk⟩
  · exact absurd hnil hne
  · exact (h.child k idx hk).1

section Step

variable {e : RamFsEvent} {fs' : RamFs}

theorem Linked.root_changes (h : fs.Linked) (hstep : fs.Changes e fs') :
    (fs'.inodes 0).used = (fs.inodes 0).used ∨ (fs'.inodes 0).used = false ∧
      ∃ path count, e = .remove path ∧ fs.Removes path 0 count := by
  cases hstep with
  | refuse => exact .inl rfl
  | create hc =>
    rw [link_of_ne _ _ _ _ (h.takes hc).ne_root.symm]
    exact .inl rfl
  | write hfound hfile hend => exact .inl (stored_field Inode.used rfl 0)
  | @remove path idx count hr =>
    rw [unlink_inodes]
    dsimp only
    split_ifs with hidx
    · subst hidx
      exact .inr ⟨rfl, path, count, rfl, hr⟩
    · exact .inl rfl

theorem Rooted.used_changes (h : fs.Rooted) (hkept : fs.RootKept e) (hstep : fs.Changes e fs') :
    (fs'.inodes 0).used = true := by
  rcases h.linked.root_changes hstep with heq | ⟨-, path, count, rfl, hr⟩
  · rw [heq]
    exact h.used
  · refine absurd rfl (h.linked.ne_root (fun hnil ↦ ?_) hr.found)
    rcases hkept hnil with hslash | hempty | hchildren
    · exact hr.notRoot.1 hslash
    · exact hr.notRoot.2 hempty
    · exact hchildren (h.linked.removable hr).leaf

theorem Rooted.counted_changes (h : fs.Rooted) (hstep : fs.Changes e fs') :
    fs'.inodeCount = fs'.usedInodes.card := by
  cases hstep with
  | refuse => exact h.counted
  | create hc =>
    have htakes := h.linked.takes hc
    rw [htakes.usedInodes_link, Finset.card_insert_of_notMem, ← h.counted]
    · rfl
    · rw [mem_usedInodes, htakes.unused]
      exact Bool.false_ne_true
  | @write path offset data idx hfound hfile hend =>
    have hsame : (fs.stored idx offset.toNat data hend).usedInodes = fs.usedInodes := by
      ext i
      rw [mem_usedInodes, mem_usedInodes, stored_field Inode.used rfl]
    rw [hsame]
    exact h.counted
  | @remove path idx count hr =>
    have hused : (fs.inodes idx).used = true := by
      rcases (h.linked.removable hr).alive with hzero | hused
      · rw [hzero]
        exact h.used
      · exact hused
    have hcount := h.counted
    rw [hr.counted] at hcount
    rw [usedInodes_unlink, Finset.card_erase_of_mem (mem_usedInodes.mpr hused), ← hcount]
    rfl

theorem Rooted.changes (h : fs.Rooted) (hkept : fs.RootKept e) (hstep : fs.Changes e fs') :
    fs'.Rooted :=
  ⟨h.linked.changes hstep, h.used_changes hkept hstep, h.counted_changes hstep⟩

theorem Linked.root_used (h : fs.Linked) (hstep : fs.Changes e fs')
    (hused : (fs'.inodes 0).used = true) : (fs.inodes 0).used = true := by
  rcases h.root_changes hstep with heq | ⟨hremoved, -⟩
  · rwa [heq] at hused
  · rw [hremoved] at hused
    exact absurd hused Bool.false_ne_true

theorem not_used_of_not_rootKept (hkept : ¬ fs.RootKept e)
    (hnext : fs.next e = some fs') : (fs'.inodes 0).used = false := by
  cases e with
  | create path nodeType => exact absurd trivial hkept
  | write path offset data => exact absurd trivial hkept
  | remove path =>
    rw [RootKept, Classical.not_imp, not_or, not_or, not_not] at hkept
    obtain ⟨hnil, hslash, hne, hchildren⟩ := hkept
    rw [next, remove, if_neg (not_or.mpr ⟨hslash, hne⟩), resolvePath_eq, hnil, walk] at hnext
    dsimp only at hnext
    rw [if_neg (fun hfull ↦ hfull.2 hchildren)] at hnext
    cases hcount : fs.inodeCount with
    | zero =>
      rw [hcount] at hnext
      simp at hnext
    | succ count =>
      rw [hcount, Option.map_some, Option.some.injEq] at hnext
      rw [← hnext, unlink_inodes]
      simp

end Step

theorem Rooted.of_run {es : List RamFsEvent}
    (h : Run (Guarded RootKept fun fs e fs' ↦ fs.next e = some fs') RamFs.new es fs) :
    fs.Rooted :=
  h.invariant Rooted.new fun _ _ _ hr hstep ↦ hr.changes hstep.1 (next_changes hstep.2)

/-- A reachable file system is a tree exactly when no call of its history has removed the root
through another spelling of it. -/
theorem tree_iff_root_kept {es : List RamFsEvent}
    (h : Run (fun fs e fs' ↦ fs.next e = some fs') RamFs.new es fs) :
    fs.IsTree ↔ Run (Guarded RootKept fun fs e fs' ↦ fs.next e = some fs') RamFs.new es fs := by
  constructor
  · intro htree
    have hused := htree.root.1
    clear htree
    induction h with
    | nil => exact .nil
    | @snoc es e fs fs' hrun hnext ih =>
      have hbefore := (linked_of_run hrun).root_used (next_changes hnext) hused
      refine (ih hbefore).snoc ⟨?_, hnext⟩
      by_contra hkept
      rw [not_used_of_not_rootKept hkept hnext] at hused
      exact Bool.false_ne_true hused
  · intro hkept
    exact (Rooted.of_run hkept).isTree

def treeLog : List RamFsEvent :=
  [.create ['/', 'a'] .directory, .create ['a', '/', '/', 'b', '/'] .file,
    .write ['/', 'a', '/', 'b'] 2 [7], .remove ['/', '/'], .create ['/', 'c'] .file,
    .remove ['/', '/', 'a', '/', 'b']]

theorem tree_iff_root_kept_log : ∃ fs,
    Run (fun fs e fs' ↦ RamFs.next fs e = some fs') RamFs.new treeLog fs ∧ fs.IsTree := by
  obtain ⟨fs, hfs⟩ := Option.isSome_iff_exists.mp
    (show (treeLog.foldlM (fun fs e ↦ if RootKept fs e then fs.next e else none)
      RamFs.new).isSome = true by decide +kernel)
  have hkept := Run.of_guarded hfs
  have hrun : Run (fun fs e fs' ↦ RamFs.next fs e = some fs') RamFs.new treeLog fs := by
    refine .of_next (fun fs e fs' hnext ↦ ?_) hfs
    split_ifs at hnext
    exact hnext
  exact ⟨fs, hrun, (tree_iff_root_kept hrun).mpr hkept⟩

/-- Only the path `/` itself is refused, and `//` resolves to the root as well. -/
theorem double_slash_removes_root :
    ∃ fs, RamFs.new.next (.remove ['/', '/']) = some fs ∧ ¬ fs.IsTree := by
  obtain ⟨fs, hfs, hused⟩ := Option.map_eq_some_iff.mp
    (show (RamFs.new.next (.remove ['/', '/'])).map (fun fs ↦ (fs.inodes 0).used) = some false by
      decide +kernel)
  refine ⟨fs, hfs, fun htree ↦ ?_⟩
  rw [htree.root.1] at hused
  exact Bool.false_ne_true hused.symm

end BraneKernel.RamFs
