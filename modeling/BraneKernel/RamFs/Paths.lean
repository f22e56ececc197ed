import BraneKernel.RamFs.Inodes

namespace BraneKernel.RamFs

open Path (components)

variable {fs : RamFs} {path name : List Char} {i j : InodeIndex}

theorem resolvePath_eq (fs : RamFs) (path : List Char) :
    fs.resolvePath path = fs.walk (components '/' path) 0 := by
  rw [resolvePath, Path.components_trimStart]
  split_ifs with h
  · rcases h with rfl | rfl
    · rw [Path.components_cons, Path.components_nil, walk]
    · rw [Path.components_nil, walk]
  · rfl

theorem components_splitPath (h : components '/' path ≠ []) :
    components '/' path = components '/' (splitPath path).1 ++ [(splitPath path).2] := by
  have htrim := Path.components_trimEnd '/' path
  have hlast := Path.getLast_trimEnd '/' path
  rw [splitPath]
  cases hsplit : Path.splitLast '/' (Path.trimEnd '/' path) with
  | none =>
    have hmem := Path.not_mem_of_splitLast hsplit
    have hne : Path.trimEnd '/' path ≠ [] := by
      intro hnil
      rw [hnil, Path.components_nil] at htrim
      exact h htrim.symm
    rw [← htrim, Path.components_of_not_mem hmem hne, Path.components_cons, Path.components_nil,
      List.nil_append]
  | some pair =>
    obtain ⟨parent, name⟩ := pair
    obtain ⟨hpath, hname⟩ := Path.splitLast_eq_some hsplit
    have hne : name ≠ [] := by
      rintro rfl
      rw [hpath, List.getLast?_append_cons] at hlast
      simp at hlast
    have hparent : components '/' (if parent = [] then ['/'] else parent) =
        components '/' parent := by
      split_ifs with hnil
      · rw [hnil, Path.components_cons]
      · rfl
    dsimp only
    rw [hparent, ← htrim, hpath, Path.components_append, Path.components_of_not_mem hname hne]

theorem lookup_some {dir : Inode} {child : InodeIndex} (h : fs.lookup dir name = some child) :
    child ∈ dir.children ∧ (fs.inodes child).used = true ∧ (fs.inodes child).nameStr = name := by
  have hfound := List.find?_some h
  rw [Bool.and_eq_true, beq_iff_eq] at hfound
  exact ⟨List.mem_of_find?_eq_some h, hfound⟩

section Walk

variable {rest : List (List Char)}

theorem walk_cons (hdir : (fs.inodes i).nodeType = .directory) :
    fs.walk (name :: rest) i =
      match fs.lookup (fs.inodes i) name with
      | some child => fs.walk rest child
      | none => .error .notFound := by
  rw [walk]
  exact if_neg (not_not.mpr hdir)

theorem walk_cons_ok (h : fs.walk (name :: rest) i = .ok j) :
    (fs.inodes i).nodeType = .directory ∧ ∃ child,
      fs.lookup (fs.inodes i) name = some child ∧ fs.walk rest child = .ok j := by
  by_cases hdir : (fs.inodes i).nodeType = .directory
  · rw [walk_cons hdir] at h
    cases hchild : fs.lookup (fs.inodes i) name with
    | none =>
      rw [hchild] at h
      simp at h
    | some child =>
      rw [hchild] at h
      exact ⟨hdir, child, rfl, h⟩
  · rw [walk, if_pos hdir] at h
    simp at h

theorem walk_append {before : List (List Char)} (h : fs.walk before i = .ok j) :
    fs.walk (before ++ rest) i = fs.walk rest j := by
  induction before generalizing i with
  | nil =>
    rw [walk, Except.ok.injEq] at h
    rw [List.nil_append, h]
  | cons name before ih =>
    obtain ⟨hdir, child, hchild, htail⟩ := walk_cons_ok h
    rw [List.cons_append, walk_cons hdir, hchild]
    exact ih htail

theorem walk_reaches (h : fs.walk rest i = .ok j) :
    rest = [] ∧ j = i ∨ (fs.inodes j).used = true ∧ ∃ k, j ∈ (fs.inodes k).children := by
  induction rest generalizing i with
  | nil =>
    rw [walk, Except.ok.injEq] at h
    exact .inl ⟨rfl, h.symm⟩
  | cons name rest ih =>
    obtain ⟨-, child, hchild, htail⟩ := walk_cons_ok h
    obtain ⟨hmem, hused, -⟩ := lookup_some hchild
    rcases ih htail with ⟨-, rfl⟩ | hj
    · exact .inr ⟨hused, i, hmem⟩
    · exact .inr hj

theorem walk_used (h : fs.walk rest i = .ok j) : j = i ∨ (fs.inodes j).used = true := by
  rcases walk_reaches h with ⟨-, hj⟩ | ⟨hused, -⟩
  · exact .inl hj
  · exact .inr hused

end Walk

theorem allocInode_some {new : InodeIndex} (h : fs.allocInode = some new) :
    new ≠ 0 ∧ (fs.inodes new).used = false := by
  have hfree := List.find?_some h
  have hmem := List.mem_of_find?_eq_some h
  refine ⟨?_, by simpa using hfree⟩
  rintro rfl
  revert hmem
  decide +kernel

structure Creates (fs : RamFs) (path : List Char) (parents : List (List Char)) (name : List Char)
    (parent new : InodeIndex) : Prop where
  named : components '/' path = parents ++ [name]
  found : fs.walk parents 0 = .ok parent
  directory : (fs.inodes parent).nodeType = .directory
  room : (fs.inodes parent).children.length < maxChildren
  fresh : fs.lookup (fs.inodes parent) name = none
  free : fs.allocInode = some new

theorem create_cases (fs : RamFs) (path : List Char) (nodeType : NodeType) :
    (∃ e, fs.create path nodeType = (fs, .error e)) ∨
      ∃ parents name parent new, fs.Creates path parents name parent new ∧
        fs.create path nodeType = (fs.link parent new nodeType name, .ok ()) := by
  rw [create]
  cases hexists : fs.resolvePath path with
  | ok idx => exact .inl ⟨_, rfl⟩
  | error e =>
    dsimp only
    cases hparent : fs.resolvePath (splitPath path).1 with
    | error e => exact .inl ⟨_, rfl⟩
    | ok parent =>
      dsimp only
      split_ifs with hdir hroom
      · exact .inl ⟨_, rfl⟩
      · exact .inl ⟨_, rfl⟩
      · cases hfree : fs.allocInode with
        | none => exact .inl ⟨_, rfl⟩
        | some new =>
          rw [resolvePath_eq] at hexists hparent
          have hne : components '/' path ≠ [] := by
            intro hnil
            rw [hnil, walk] at hexists
            simp at hexists
          have hpath := components_splitPath hne
          have hdirectory := not_not.mp hdir
          refine .inr ⟨_, _, parent, new, ⟨hpath, hparent, hdirectory, ?_, ?_, hfree⟩, rfl⟩
          · exact Nat.lt_of_not_le hroom
          · rw [hpath, walk_append hparent, walk_cons hdirectory] at hexists
            cases hlookup : fs.lookup (fs.inodes parent) (splitPath path).2 with
            | none => rfl
            | some child =>
              rw [hlookup] at hexists
              simp [walk] at hexists

def stored (fs : RamFs) (idx : InodeIndex) (offset : ℕ) (data : Bytes)
    (h : offset + data.length ≤ maxFileSize) : RamFs :=
  { fs with inodes := Function.update fs.inodes idx ((fs.inodes idx).store offset data h) }

theorem write_cases (fs : RamFs) (path : List Char) (offset : U64) (data : Bytes) :
    fs.write path offset data = none ∨ (∃ e, fs.write path offset data = some (fs, .error e)) ∨
      ∃ idx, ∃ h : offset.toNat + data.length ≤ maxFileSize,
        fs.walk (components '/' path) 0 = .ok idx ∧ (fs.inodes idx).nodeType = .file ∧
        fs.write path offset data = some (fs.stored idx offset.toNat data h, .ok data.length) := by
  rw [write, resolvePath_eq]
  cases hwalk : fs.walk (components '/' path) 0 with
  | error e => exact .inr (.inl ⟨e, rfl⟩)
  | ok idx =>
    dsimp only
    split_ifs with hfile hword hspace
    · exact .inr (.inl ⟨_, rfl⟩)
    · exact .inl rfl
    · exact .inr (.inl ⟨_, rfl⟩)
    · exact .inr (.inr ⟨idx, Nat.le_of_not_lt hspace, rfl, not_not.mp hfile, rfl⟩)

structure Removes (fs : RamFs) (path : List Char) (idx : InodeIndex) (count : ℕ) : Prop where
  notRoot : path ≠ ['/'] ∧ path ≠ []
  found : fs.walk (components '/' path) 0 = .ok idx
  empty : (fs.inodes idx).nodeType = .directory → (fs.inodes idx).children = []
  counted : fs.inodeCount = count + 1

theorem remove_cases (fs : RamFs) (path : List Char) :
    fs.remove path = none ∨ (∃ e, fs.remove path = some (fs, .error e)) ∨
      ∃ idx count, fs.Removes path idx count ∧
        fs.remove path = some (fs.unlink idx count, .ok ()) := by
  rw [remove, resolvePath_eq]
  split_ifs with hroot
  · exact .inr (.inl ⟨_, rfl⟩)
  · rw [not_or] at hroot
    cases hwalk : fs.walk (components '/' path) 0 with
    | error e => exact .inr (.inl ⟨e, rfl⟩)
    | ok idx =>
      dsimp only
      split_ifs with hfull
      · exact .inr (.inl ⟨_, rfl⟩)
      · rw [not_and, not_not] at hfull
        cases hcount : fs.inodeCount with
        | zero => exact .inl rfl
        | succ count => exact .inr (.inr ⟨idx, count, ⟨hroot, hwalk, hfull, hcount⟩, rfl⟩)

inductive Changes (fs : RamFs) : RamFsEvent → RamFs → Prop
  | refuse {e : RamFsEvent} : Changes fs e fs
  | create {path name : List Char} {nodeType : NodeType} {parents : List (List Char)}
      {parent new : InodeIndex} (h : fs.Creates path parents name parent new) :
      Changes fs (.create path nodeType) (fs.link parent new nodeType name)
  | write {path : List Char} {offset : U64} {data : Bytes} {idx : InodeIndex}
      (found : fs.walk (components '/' path) 0 = .ok idx)
      (file : (fs.inodes idx).nodeType = .file)
      (h : offset.toNat + data.length ≤ maxFileSize) :
      Changes fs (.write path offset data) (fs.stored idx offset.toNat data h)
  | remove {path : List Char} {idx : InodeIndex} {count : ℕ} (h : fs.Removes path idx count) :
      Changes fs (.remove path) (fs.unlink idx count)

theorem next_changes {e : RamFsEvent} {fs' : RamFs} (h : fs.next e = some fs') :
    fs.Changes e fs' := by
  cases e with
  | create path nodeType =>
    rw [next, Option.some.injEq] at h
    rcases fs.create_cases path nodeType with ⟨e, he⟩ | ⟨parents, name, parent, new, hc, he⟩
    · rw [he] at h
      exact h ▸ .refuse
    · rw [he] at h
      exact h ▸ .create hc
  | write path offset data =>
    rw [next] at h
    rcases fs.write_cases path offset data with he | ⟨e, he⟩ | ⟨idx, hend, hwalk, hfile, he⟩
    · rw [he] at h
      simp at h
    · rw [he, Option.map_some, Option.some.injEq] at h
      exact h ▸ .refuse
    · rw [he, Option.map_some, Option.some.injEq] at h
      exact h ▸ .write hwalk hfile hend
  | remove path =>
    rw [next] at h
    rcases fs.remove_cases path with he | ⟨e, he⟩ | ⟨idx, count, hr, he⟩
    · rw [he] at h
      simp at h
    · rw [he, Option.map_some, Option.some.injEq] at h
      exact h ▸ .refuse
    · rw [he, Option.map_some, Option.some.injEq] at h
      exact h ▸ .remove hr

end BraneKernel.RamFs
