import BraneKernel.RamFs.Links

namespace BraneKernel

theorem Inode.nameStr_setName_iff {inode : Inode} {name : List Char} (hne : name ≠ []) :
    (inode.setName name).nameStr = name ↔ (Utf8.encode name).length ≤ maxName := by
  rw [nameStr, setName]
  dsimp only
  constructor
  · intro h
    cases htext : Utf8.fromUtf8 ((Utf8.encode name).take maxName) with
    | none =>
      rw [htext] at h
      exact absurd h.symm hne
    | some text =>
      rw [htext, Option.getD_some] at h
      have henc := Utf8.encode_of_fromUtf8 htext
      rw [h] at henc
      rw [henc, List.length_take]
      exact Nat.min_le_left _ _
  · intro h
    rw [List.take_of_length_le h, Utf8.fromUtf8_encode, Option.getD_some]

namespace RamFs

open Path (components)
open Trace (Run Guarded)

variable {fs : RamFs} {path name : List Char} {parents : List (List Char)}
  {parent new i j : InodeIndex}

/-- The last component fits into the name field of an inode. -/
def ShortName (path : List Char) : Prop :=
  ∀ name ∈ (components '/' path).getLast?, (Utf8.encode name).length ≤ maxName

instance : DecidablePred ShortName := fun path ↦
  inferInstanceAs (Decidable (∀ name ∈ (components '/' path).getLast?,
    (Utf8.encode name).length ≤ maxName))

def SiblingsDistinct (fs : RamFs) : Prop :=
  ∀ i, ∀ c ∈ (fs.inodes i).children, ∀ d ∈ (fs.inodes i).children, c ≠ d →
    (fs.inodes c).nameStr ≠ (fs.inodes d).nameStr

/-- A created node is seen at its path, and nothing else has changed. -/
structure Visible (fs fs' : RamFs) (path : List Char) (nodeType : NodeType) : Prop where
  stat : ∃ info, fs'.stat path = .ok info ∧ info.nodeType = nodeType ∧ info.size = 0
  unique : ∀ again, fs'.create path again = (fs', .error .alreadyExists)
  siblings : fs.SiblingsDistinct → fs'.SiblingsDistinct
  others : ∀ other idx, fs.resolvePath other = .ok idx → fs'.resolvePath other = .ok idx ∧
    { fs'.inodes idx with children := (fs.inodes idx).children } = fs.inodes idx

theorem Creates.shortName_iff (hc : fs.Creates path parents name parent new) :
    ShortName path ↔ (Utf8.encode name).length ≤ maxName := by
  rw [ShortName, hc.named, List.getLast?_concat]
  simp

theorem Creates.name_ne_nil (hc : fs.Creates path parents name parent new) : name ≠ [] := by
  have hmem : name ∈ components '/' path := by
    rw [hc.named]
    simp
  exact Path.ne_nil_of_mem_components hmem

namespace Takes

variable (h : fs.Takes parent new) (nodeType : NodeType) (text : List Char)
include h

theorem lookup_link (hi : i ≠ new) :
    (fs.link parent new nodeType text).lookup
        ((fs.link parent new nodeType text).inodes i) name =
      (fs.lookup (fs.inodes i) name).or
        ((if i = parent then [new] else []).find? fun c ↦
          ((fs.link parent new nodeType text).inodes c).used &&
            ((fs.link parent new nodeType text).inodes c).nameStr == name) := by
  rw [lookup, link_of_ne fs parent nodeType text hi, List.find?_append]
  congr 1
  rw [lookup, ← List.head?_filter, ← List.head?_filter]
  congr 1
  apply List.filter_congr
  intro c hc
  rw [h.child nodeType text hc]
  rfl

theorem lookup_of_some {child : InodeIndex} (hi : i ≠ new)
    (hchild : fs.lookup (fs.inodes i) name = some child) :
    (fs.link parent new nodeType text).lookup
      ((fs.link parent new nodeType text).inodes i) name = some child := by
  rw [h.lookup_link nodeType text hi, hchild, Option.some_or]

theorem lookup_new (hfresh : fs.lookup (fs.inodes parent) text = none) (hne : text ≠ []) :
    (fs.link parent new nodeType text).lookup
        ((fs.link parent new nodeType text).inodes parent) text =
      if (Utf8.encode text).length ≤ maxName then some new else none := by
  rw [h.lookup_link nodeType text h.ne_parent.symm, hfresh, Option.none_or, if_pos rfl,
    List.find?_singleton, link_self fs parent nodeType text h.ne_parent]
  by_cases hshort : (Utf8.encode text).length ≤ maxName
  · rw [if_pos hshort, (Inode.nameStr_setName_iff hne).mpr hshort]
    simp [Inode.setName]
  · rw [if_neg hshort, beq_false_of_ne ((Inode.nameStr_setName_iff hne).not.mpr hshort)]
    simp

theorem walk_link {names : List (List Char)} (hi : i ≠ new) (hwalk : fs.walk names i = .ok j) :
    (fs.link parent new nodeType text).walk names i = .ok j := by
  induction names generalizing i with
  | nil => exact hwalk
  | cons name names ih =>
    obtain ⟨hdir, child, hchild, htail⟩ := walk_cons_ok hwalk
    have hmem := (lookup_some hchild).1
    rw [walk_cons, h.lookup_of_some nodeType text hi hchild]
    · exact ih (h.linked.ne_of_unused hmem h.unused) htail
    · rw [link_of_ne fs parent nodeType text hi]
      exact hdir

theorem siblings_link (hshort : (Utf8.encode text).length ≤ maxName) (hne : text ≠ [])
    (hfresh : fs.lookup (fs.inodes parent) text = none) (hdistinct : fs.SiblingsDistinct) :
    (fs.link parent new nodeType text).SiblingsDistinct := by
  have hold {i c : InodeIndex} (hc : c ∈ (fs.inodes i).children) :
      ((fs.link parent new nodeType text).inodes c).nameStr = (fs.inodes c).nameStr := by
    rw [h.child nodeType text hc]
    rfl
  have hnew : ((fs.link parent new nodeType text).inodes new).nameStr = text := by
    rw [link_self fs parent nodeType text h.ne_parent]
    exact (Inode.nameStr_setName_iff hne).mpr hshort
  have hunlike {c : InodeIndex} (hc : c ∈ (fs.inodes parent).children) :
      (fs.inodes c).nameStr ≠ text := by
    intro heq
    have hmiss := List.find?_eq_none.mp hfresh c hc
    rw [(h.linked.child parent c hc).2.1, heq, beq_self_eq_true] at hmiss
    exact hmiss rfl
  intro i c hc d hd hcd
  rcases (h.mem_children nodeType text).mp hc with hcold | ⟨rfl, rfl⟩
  · rcases (h.mem_children nodeType text).mp hd with hdold | ⟨rfl, rfl⟩
    · rw [hold hcold, hold hdold]
      exact hdistinct i c hcold d hdold hcd
    · rw [hold hcold, hnew]
      exact hunlike hcold
  · rcases (h.mem_children nodeType text).mp hd with hdold | ⟨-, rfl⟩
    · rw [hnew, hold hdold]
      exact (hunlike hdold).symm
    · exact absurd rfl hcd

end Takes

section Created

variable {nodeType : NodeType}

theorem Linked.resolve_created (h : fs.Linked) (hc : fs.Creates path parents name parent new) :
    (fs.link parent new nodeType name).resolvePath path =
      if (Utf8.encode name).length ≤ maxName then .ok new else .error .notFound := by
  have htakes := h.takes hc
  have hparent := htakes.walk_link nodeType name htakes.ne_root.symm hc.found
  have hdir : ((fs.link parent new nodeType name).inodes parent).nodeType = .directory := by
    rw [link_of_ne fs parent nodeType name htakes.ne_parent.symm]
    exact hc.directory
  rw [resolvePath_eq, hc.named, walk_append hparent, walk_cons hdir,
    htakes.lookup_new nodeType name hc.fresh hc.name_ne_nil]
  split_ifs with hshort
  · rfl
  · rfl

theorem Linked.visible (h : fs.Linked) (hc : fs.Creates path parents name parent new)
    (hshort : (Utf8.encode name).length ≤ maxName) :
    fs.Visible (fs.link parent new nodeType name) path nodeType := by
  have htakes := h.takes hc
  have hpath : (fs.link parent new nodeType name).resolvePath path = .ok new := by
    rw [h.resolve_created hc, if_pos hshort]
  constructor
  · rw [stat, hpath]
    refine ⟨_, rfl, ?_⟩
    rw [link_self fs parent nodeType name htakes.ne_parent]
    exact ⟨rfl, rfl⟩
  · intro again
    rw [create, hpath]
  · exact htakes.siblings_link nodeType name hshort hc.name_ne_nil hc.fresh
  · intro other idx hother
    rw [resolvePath_eq] at hother ⊢
    refine ⟨htakes.walk_link nodeType name htakes.ne_root.symm hother, ?_⟩
    rw [link_of_ne fs parent nodeType name (htakes.ne_of_alive (walk_used hother))]

theorem Linked.visible_iff (h : fs.Linked) {fs' : RamFs}
    (hcreate : fs.create path nodeType = (fs', .ok ())) :
    fs.Visible fs' path nodeType ↔ ShortName path := by
  rcases fs.create_cases path nodeType with ⟨e, he⟩ | ⟨parents, name, parent, new, hc, he⟩
  · rw [he] at hcreate
    simp at hcreate
  · rw [he, Prod.mk.injEq] at hcreate
    rw [← hcreate.1, hc.shortName_iff]
    constructor
    · intro hvisible
      by_contra hlong
      obtain ⟨info, hinfo, -⟩ := hvisible.stat
      rw [stat, h.resolve_created hc, if_neg hlong] at hinfo
      simp at hinfo
    · exact h.visible hc

end Created

def NamesShort : RamFsEvent → Prop
  | .create path _ => ShortName path
  | _ => True

instance : DecidablePred NamesShort
  | .create path _ => inferInstanceAs (Decidable (ShortName path))
  | .write _ _ _ => .isTrue trivial
  | .remove _ => .isTrue trivial

theorem Linked.siblings_changes (h : fs.Linked) {e : RamFsEvent} {fs' : RamFs}
    (hshort : NamesShort e) (hstep : fs.Changes e fs') (hdistinct : fs.SiblingsDistinct) :
    fs'.SiblingsDistinct := by
  cases hstep with
  | refuse => exact hdistinct
  | create hc =>
    exact (h.takes hc).siblings_link _ _ (hc.shortName_iff.mp hshort) hc.name_ne_nil hc.fresh
      hdistinct
  | write hfound hfile hend =>
    intro i c hc d hd hcd
    rw [stored_field Inode.children rfl] at hc hd
    rw [stored_field Inode.nameStr rfl, stored_field Inode.nameStr rfl]
    exact hdistinct i c hc d hd hcd
  | remove hr =>
    intro i c hc d hd hcd
    have hc := (((h.removable hr).mem_children _).mp hc).1
    have hd := (((h.removable hr).mem_children _).mp hd).1
    rw [unlink_inodes, unlink_inodes]
    exact hdistinct i c hc d hd hcd

theorem siblingsDistinct_new : RamFs.new.SiblingsDistinct := by
  intro i c hc
  rw [children_new] at hc
  exact absurd hc List.not_mem_nil

/-- A created node is seen under its path exactly when its name was not cut short, and sibling
names are pairwise different where no name was. -/
theorem created_visible_iff {es : List RamFsEvent}
    (h : Run (fun fs e fs' ↦ RamFs.next fs e = some fs') RamFs.new es fs) :
    (∀ path nodeType fs', fs.create path nodeType = (fs', .ok ()) →
      (fs.Visible fs' path nodeType ↔ ShortName path)) ∧
    ((∀ e ∈ es, NamesShort e) → fs.SiblingsDistinct) := by
  constructor
  · intro path nodeType fs' hcreate
    exact (linked_of_run h).visible_iff hcreate
  · induction h with
    | nil => exact fun _ ↦ siblingsDistinct_new
    | @snoc es e fs fs' hrun hnext ih =>
      intro hshort
      have hbefore := ih fun e he ↦ hshort e (List.mem_append_left _ he)
      have hlast := hshort e (List.mem_append_right _ List.mem_cons_self)
      exact (linked_of_run hrun).siblings_changes hlast (next_changes hnext) hbefore

theorem created_visible_iff_nested : ∃ fs fs',
    Run (fun fs e fs' ↦ RamFs.next fs e = some fs') RamFs.new
      [.create ['/', 'a'] .directory, .create ['b'] .file] fs ∧
    fs.create ['/', 'a', '/', '/', 'b', '/'] .file = (fs', .ok ()) ∧
    fs.Visible fs' ['/', 'a', '/', '/', 'b', '/'] .file ∧ fs.SiblingsDistinct := by
  obtain ⟨fs, hfs, hok⟩ := Option.map_eq_some_iff.mp
    (show ([RamFsEvent.create ['/', 'a'] .directory, .create ['b'] .file].foldlM RamFs.next
        RamFs.new).map (fun fs ↦ (fs.create ['/', 'a', '/', '/', 'b', '/'] .file).2.isOk) =
      some true by decide +kernel)
  have hrun := Run.of_foldlM hfs
  have hcreate : fs.create ['/', 'a', '/', '/', 'b', '/'] .file =
      ((fs.create ['/', 'a', '/', '/', 'b', '/'] .file).1, .ok ()) := by
    rcases fs.create_cases ['/', 'a', '/', '/', 'b', '/'] .file with
      ⟨e, he⟩ | ⟨parents, name, parent, new, -, he⟩
    · rw [he] at hok
      exact absurd hok Bool.false_ne_true
    · rw [he]
  refine ⟨fs, _, hrun, hcreate, ?_, ?_⟩
  · apply ((created_visible_iff hrun).1 _ _ _ hcreate).mpr
    decide +kernel
  · apply (created_visible_iff hrun).2
    decide +kernel

def longPath : List Char := '/' :: List.replicate 65 'a'

/-- The name is cut when it is stored and not when it is looked up. -/
theorem long_name_not_found : ∃ fs fs', RamFs.new.create longPath .file = (fs, .ok ()) ∧
    fs.stat longPath = .error .notFound ∧ fs.create longPath .file = (fs', .ok ()) ∧
    ¬ fs'.SiblingsDistinct := by
  refine ⟨(RamFs.new.create longPath .file).1,
    ((RamFs.new.create longPath .file).1.create longPath .file).1, Prod.ext rfl ?_, ?_,
    Prod.ext rfl ?_, fun hdistinct ↦ hdistinct 0 1 ?_ 2 ?_ ?_ ?_⟩
  all_goals decide +kernel

end RamFs

end BraneKernel
