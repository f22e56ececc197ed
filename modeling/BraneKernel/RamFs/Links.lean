import BraneKernel.Lib.Trace
import BraneKernel.RamFs.Paths

namespace BraneKernel.RamFs

variable {fs : RamFs}

theorem new_of_ne {i : InodeIndex} (h : i ≠ 0) : RamFs.new.inodes i = Inode.empty := by
  rw [new]
  dsimp only
  rw [Function.update_of_ne h]

theorem children_new (i : InodeIndex) : (RamFs.new.inodes i).children = [] := by
  by_cases hi : i = 0
  · subst hi
    rfl
  · rw [new_of_ne hi]
    rfl

section Fields

variable (fs) (parent : InodeIndex) {new i : InodeIndex} (nodeType : NodeType) (name : List Char)

theorem link_self (h : new ≠ parent) :
    (fs.link parent new nodeType name).inodes new =
      { Inode.empty with used := true, nodeType, parent }.setName name := by
  rw [link]
  dsimp only
  rw [Function.update_of_ne h, Function.update_self]

theorem link_of_ne (h : i ≠ new) :
    (fs.link parent new nodeType name).inodes i =
      { fs.inodes i with
        children := (fs.inodes i).children ++ if i = parent then [new] else [] } := by
  rw [link]
  dsimp only
  by_cases hi : i = parent
  · subst hi
    rw [Function.update_self, Function.update_of_ne h, if_pos rfl]
  · rw [Function.update_of_ne hi, Function.update_of_ne h, if_neg hi, List.append_nil]

theorem unlink_inodes (idx i : InodeIndex) (count : ℕ) :
    (fs.unlink idx count).inodes i =
      { fs.inodes i with
        used := if i = idx then false else (fs.inodes i).used
        children := if i = (fs.inodes idx).parent then (fs.inodes i).children.erase idx
          else (fs.inodes i).children } := by
  rw [unlink]
  dsimp only
  generalize (fs.inodes idx).parent = parent
  by_cases hp : i = parent
  · subst hp
    by_cases hi : i = idx
    · subst hi
      rw [Function.update_self, Function.update_self, if_pos rfl, if_pos rfl]
    · rw [Function.update_of_ne hi, Function.update_self, if_neg hi, if_pos rfl]
  · by_cases hi : i = idx
    · subst hi
      rw [Function.update_self, Function.update_of_ne hp, if_pos rfl, if_neg hp]
    · rw [Function.update_of_ne hi, Function.update_of_ne hp, if_neg hi, if_neg hp]

end Fields

/-- The links between inodes are consistent. Whether the root is marked as used does not matter
here, since no walk looks at the mark. -/
structure Linked (fs : RamFs) : Prop where
  root : (fs.inodes 0).nodeType = .directory
  nodup : ∀ i, (fs.inodes i).children.Nodup
  child : ∀ i, ∀ c ∈ (fs.inodes i).children,
    c ≠ 0 ∧ (fs.inodes c).used = true ∧ (fs.inodes c).parent = i
  listed : ∀ c, c ≠ 0 → (fs.inodes c).used = true →
    c ∈ (fs.inodes (fs.inodes c).parent).children
  directory : ∀ i, (fs.inodes i).children ≠ [] →
    (fs.inodes i).nodeType = .directory ∧ (i = 0 ∨ (fs.inodes i).used = true)
  room : ∀ i, (fs.inodes i).children.length ≤ maxChildren
  ranked : ∃ rank : InodeIndex → ℕ, ∀ i, ∀ c ∈ (fs.inodes i).children, rank i < rank c

namespace Linked

theorem new : RamFs.new.Linked := by
  have hused : ∀ c, c ≠ 0 → (RamFs.new.inodes c).used = false := by
    intro c hc
    rw [new_of_ne hc]
    rfl
  constructor
  · rfl
  · intro i
    rw [children_new]
    exact List.nodup_nil
  · intro i c hc
    rw [children_new] at hc
    exact absurd hc List.not_mem_nil
  · intro c hc h
    rw [hused c hc] at h
    exact absurd h Bool.false_ne_true
  · intro i hi
    exact absurd (children_new i) hi
  · intro i
    rw [children_new]
    exact Nat.zero_le _
  · refine ⟨fun _ ↦ 0, fun i c hc ↦ ?_⟩
    rw [children_new] at hc
    exact absurd hc List.not_mem_nil

theorem of_same {fs' : RamFs} (h : fs.Linked)
    (hused : ∀ i, (fs'.inodes i).used = (fs.inodes i).used)
    (htype : ∀ i, (fs'.inodes i).nodeType = (fs.inodes i).nodeType)
    (hparent : ∀ i, (fs'.inodes i).parent = (fs.inodes i).parent)
    (hchildren : ∀ i, (fs'.inodes i).children = (fs.inodes i).children) : fs'.Linked := by
  constructor
  · rw [htype]
    exact h.root
  · intro i
    rw [hchildren]
    exact h.nodup i
  · intro i c hc
    rw [hchildren] at hc
    rw [hused, hparent]
    exact h.child i c hc
  · intro c hc hu
    rw [hused] at hu
    rw [hparent, hchildren]
    exact h.listed c hc hu
  · intro i hi
    rw [hchildren] at hi
    rw [htype, hused]
    exact h.directory i hi
  · intro i
    rw [hchildren]
    exact h.room i
  · obtain ⟨rank, hrank⟩ := h.ranked
    refine ⟨rank, fun i c hc ↦ ?_⟩
    rw [hchildren] at hc
    exact hrank i c hc

theorem ne_of_unused (h : fs.Linked) {i c : InodeIndex} (hc : c ∈ (fs.inodes i).children)
    {new : InodeIndex} (hunused : (fs.inodes new).used = false) : c ≠ new := by
  rintro rfl
  obtain ⟨-, hused, -⟩ := h.child i c hc
  rw [hunused] at hused
  exact Bool.false_ne_true hused

end Linked

structure Takes (fs : RamFs) (parent new : InodeIndex) : Prop where
  linked : fs.Linked
  directory : (fs.inodes parent).nodeType = .directory
  alive : parent = 0 ∨ (fs.inodes parent).used = true
  room : (fs.inodes parent).children.length < maxChildren
  ne_root : new ≠ 0
  unused : (fs.inodes new).used = false

namespace Takes

variable {parent new i c : InodeIndex} (nodeType : NodeType) (name : List Char)

section

variable (h : fs.Takes parent new)
include h

theorem ne_of_alive (hi : i = 0 ∨ (fs.inodes i).used = true) :
    i ≠ new := by
  rintro rfl
  rcases hi with hzero | hused
  · exact h.ne_root hzero
  · rw [h.unused] at hused
    exact Bool.false_ne_true hused

theorem ne_parent : new ≠ parent := (h.ne_of_alive h.alive).symm

theorem children_new : (fs.inodes new).children = [] := by
  by_contra hne
  rcases (h.linked.directory new hne).2 with hroot | hused
  · exact h.ne_root hroot
  · rw [h.unused] at hused
    exact Bool.false_ne_true hused

theorem children_link (i : InodeIndex) :
    ((fs.link parent new nodeType name).inodes i).children =
      (fs.inodes i).children ++ if i = parent then [new] else [] := by
  by_cases hi : i = new
  · rw [hi, link_self fs parent nodeType name h.ne_parent, h.children_new, if_neg h.ne_parent]
    rfl
  · rw [link_of_ne fs parent nodeType name hi]

theorem mem_children :
    c ∈ ((fs.link parent new nodeType name).inodes i).children ↔
      c ∈ (fs.inodes i).children ∨ i = parent ∧ c = new := by
  rw [h.children_link nodeType name, List.mem_append]
  split_ifs with hi
  · simp [hi]
  · simp [hi]

theorem child (hc : c ∈ (fs.inodes i).children) :
    (fs.link parent new nodeType name).inodes c =
      { fs.inodes c with
        children := (fs.inodes c).children ++ if c = parent then [new] else [] } :=
  link_of_ne fs parent nodeType name (h.linked.ne_of_unused hc h.unused)

theorem nodup_link (i : InodeIndex) :
    ((fs.link parent new nodeType name).inodes i).children.Nodup := by
  rw [h.children_link nodeType name]
  split_ifs
  · apply (h.linked.nodup i).append (List.nodup_singleton new)
    rw [List.disjoint_singleton]
    intro hmem
    exact h.linked.ne_of_unused hmem h.unused rfl
  · rw [List.append_nil]
    exact h.linked.nodup i

theorem room_link (i : InodeIndex) :
    ((fs.link parent new nodeType name).inodes i).children.length ≤ maxChildren := by
  rw [h.children_link nodeType name, List.length_append]
  split_ifs with hi
  · rw [hi]
    exact h.room
  · exact h.linked.room i

theorem ranked_link : ∃ rank : InodeIndex → ℕ,
    ∀ i, ∀ c ∈ ((fs.link parent new nodeType name).inodes i).children, rank i < rank c := by
  obtain ⟨rank, hrank⟩ := h.linked.ranked
  refine ⟨Function.update rank new (rank parent + 1), fun i c hc ↦ ?_⟩
  rcases (h.mem_children nodeType name).mp hc with hold | ⟨rfl, rfl⟩
  · have hi : i ≠ new := by
      rintro rfl
      rw [h.children_new] at hold
      exact List.not_mem_nil hold
    rw [Function.update_of_ne hi, Function.update_of_ne (h.linked.ne_of_unused hold h.unused)]
    exact hrank i c hold
  · rw [Function.update_self, Function.update_of_ne h.ne_parent.symm]
    exact Nat.lt_succ_self _

theorem link : (fs.link parent new nodeType name).Linked := by
  have hself := link_self fs parent nodeType name h.ne_parent
  have hother {i : InodeIndex} (hi : i ≠ new) := link_of_ne fs parent nodeType name hi
  refine ⟨?_, h.nodup_link nodeType name, ?_, ?_, ?_, h.room_link nodeType name,
    h.ranked_link nodeType name⟩
  · rw [hother h.ne_root.symm]
    exact h.linked.root
  · intro i c hc
    rcases (h.mem_children nodeType name).mp hc with hold | ⟨rfl, rfl⟩
    · rw [h.child nodeType name hold]
      exact h.linked.child i c hold
    · rw [hself]
      exact ⟨h.ne_root, rfl, rfl⟩
  · intro c hc hused
    rw [h.mem_children nodeType name]
    by_cases hnew : c = new
    · rw [hnew, hself]
      exact .inr ⟨rfl, rfl⟩
    · rw [hother hnew] at hused ⊢
      exact .inl (h.linked.listed c hc hused)
  · intro i hi
    have halive : (fs.inodes i).nodeType = .directory ∧ (i = 0 ∨ (fs.inodes i).used = true) := by
      obtain ⟨c, hc⟩ := List.exists_mem_of_ne_nil _ hi
      rcases (h.mem_children nodeType name).mp hc with hold | ⟨rfl, -⟩
      · exact h.linked.directory i (List.ne_nil_of_mem hold)
      · exact ⟨h.directory, h.alive⟩
    rw [hother (h.ne_of_alive halive.2)]
    exact halive

end

end Takes

theorem Linked.takes (h : fs.Linked) {path : List Char} {parents : List (List Char)}
    {name : List Char} {parent new : InodeIndex} (hc : fs.Creates path parents name parent new) :
    fs.Takes parent new :=
  ⟨h, hc.directory, walk_used hc.found, hc.room, (allocInode_some hc.free).1,
    (allocInode_some hc.free).2⟩

structure Removable (fs : RamFs) (idx : InodeIndex) : Prop where
  linked : fs.Linked
  alive : idx = 0 ∨ (fs.inodes idx).used = true
  leaf : (fs.inodes idx).children = []

namespace Removable

variable {idx i c : InodeIndex} (count : ℕ)

theorem mem_children (h : fs.Removable idx) :
    c ∈ ((fs.unlink idx count).inodes i).children ↔ c ∈ (fs.inodes i).children ∧ c ≠ idx := by
  rw [unlink_inodes]
  dsimp only
  split_ifs with hi
  · rw [(h.linked.nodup i).mem_erase_iff, and_comm]
  · constructor
    · intro hc
      refine ⟨hc, ?_⟩
      rintro rfl
      exact hi (h.linked.child i c hc).2.2.symm
    · intro hc
      exact hc.1

theorem children_sublist :
    ((fs.unlink idx count).inodes i).children.Sublist (fs.inodes i).children := by
  rw [unlink_inodes]
  dsimp only
  split_ifs
  · exact List.erase_sublist
  · exact List.Sublist.refl _

theorem ne_of_mem_children (h : fs.Removable idx) (hc : c ∈ (fs.inodes i).children) :
    i ≠ idx := by
  rintro rfl
  rw [h.leaf] at hc
  exact List.not_mem_nil hc

theorem unlink (h : fs.Removable idx) : (fs.unlink idx count).Linked := by
  have hinodes (i : InodeIndex) := unlink_inodes fs idx i count
  constructor
  · rw [hinodes]
    exact h.linked.root
  · intro i
    exact (h.linked.nodup i).sublist (children_sublist count)
  · intro i c hc
    obtain ⟨hold, hne⟩ := (h.mem_children count).mp hc
    rw [hinodes]
    dsimp only
    rw [if_neg hne]
    exact h.linked.child i c hold
  · intro c hc hused
    rw [h.mem_children count]
    rw [hinodes] at hused ⊢
    dsimp only at hused ⊢
    split_ifs at hused with hidx
    exact ⟨h.linked.listed c hc hused, hidx⟩
  · intro i hi
    obtain ⟨c, hc⟩ := List.exists_mem_of_ne_nil _ hi
    have hold := (children_sublist count).subset hc
    rw [hinodes]
    dsimp only
    rw [if_neg (h.ne_of_mem_children hold)]
    exact h.linked.directory i (List.ne_nil_of_mem hold)
  · intro i
    exact (children_sublist count).length_le.trans (h.linked.room i)
  · obtain ⟨rank, hrank⟩ := h.linked.ranked
    refine ⟨rank, fun i c hc ↦ ?_⟩
    exact hrank i c ((children_sublist count).subset hc)

end Removable

theorem Linked.removable (h : fs.Linked) {path : List Char} {idx : InodeIndex} {count : ℕ}
    (hr : fs.Removes path idx count) : fs.Removable idx := by
  refine ⟨h, walk_used hr.found, ?_⟩
  by_contra hne
  exact hne (hr.empty (h.directory idx hne).1)

theorem stored_field {α : Type} (field : Inode → α) {idx : InodeIndex} {offset : ℕ} {data : Bytes}
    {h : offset + data.length ≤ maxFileSize}
    (hfield : field ((fs.inodes idx).store offset data h) = field (fs.inodes idx)) (i : InodeIndex) :
    field ((fs.stored idx offset data h).inodes i) = field (fs.inodes i) := by
  rw [stored]
  dsimp only
  by_cases hi : i = idx
  · rw [hi, Function.update_self, hfield]
  · rw [Function.update_of_ne hi]

theorem Linked.changes (h : fs.Linked) {e : RamFsEvent} {fs' : RamFs} (hstep : fs.Changes e fs') :
    fs'.Linked := by
  cases hstep with
  | refuse => exact h
  | create hc => exact (h.takes hc).link _ _
  | write hfound hfile hend =>
    exact h.of_same (stored_field Inode.used rfl) (stored_field Inode.nodeType rfl)
      (stored_field Inode.parent rfl) (stored_field Inode.children rfl)
  | remove hr => exact (h.removable hr).unlink _

theorem linked_of_run {es : List RamFsEvent}
    (h : Trace.Run (fun fs e fs' ↦ fs.next e = some fs') RamFs.new es fs) : fs.Linked :=
  h.invariant Linked.new fun _ _ _ hl hstep ↦ hl.changes (next_changes hstep)

end BraneKernel.RamFs
