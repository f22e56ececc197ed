import BraneKernel.RamFs.Links

namespace BraneKernel.RamFs

variable {fs : RamFs} {idx : InodeIndex}

def entry (fs : RamFs) (child : InodeIndex) : DirEntry :=
  ⟨(fs.inodes child).name, (fs.inodes child).nodeType⟩

def readdir (fs : RamFs) (path : List Char) (entries : List DirEntry) :
    List DirEntry × Except VfsError ℕ :=
  match fs.resolvePath path with
  | .error e => (entries, .error e)
  | .ok idx =>
    let inode := fs.inodes idx
    if inode.nodeType ≠ .directory then (entries, .error .notADirectory)
    else
      let count := min inode.children.length entries.length
      ((inode.children.take count).map fs.entry ++ entries.drop count, .ok count)

theorem Linked.mem_children_iff (h : fs.Linked) (c : InodeIndex) :
    c ∈ (fs.inodes idx).children ↔
      c ≠ 0 ∧ (fs.inodes c).used = true ∧ (fs.inodes c).parent = idx := by
  refine ⟨h.child idx c, ?_⟩
  rintro ⟨hroot, hused, rfl⟩
  exact h.listed c hroot hused

theorem Linked.walk_name_iff (h : fs.Linked) (hdir : (fs.inodes idx).nodeType = .directory)
    (name : List Char) : (∃ c, fs.walk [name] idx = .ok c) ↔
      ∃ c ∈ (fs.inodes idx).children, (fs.inodes c).nameStr = name := by
  have hfound : (∃ c, fs.walk [name] idx = .ok c) ↔
      (fs.lookup (fs.inodes idx) name).isSome = true := by
    rw [walk, if_neg (not_not.mpr hdir)]
    cases fs.lookup (fs.inodes idx) name <;> simp [walk]
  rw [hfound, lookup, List.find?_isSome]
  constructor
  · rintro ⟨c, hc, hname⟩
    simp only [Bool.and_eq_true, beq_iff_eq] at hname
    exact ⟨c, hc, hname.2⟩
  · rintro ⟨c, hc, rfl⟩
    exact ⟨c, hc, by simp [(h.child idx c hc).2.1]⟩

/-- A directory is listed as it is: every node in it once and no other, and the names
listed are those that can be looked up. -/
theorem readdir_lists_directory {es : List RamFsEvent}
    (h : Trace.Run (fun fs e fs' ↦ fs.next e = some fs') RamFs.new es fs) {path : List Char}
    (hidx : fs.resolvePath path = .ok idx) (hdir : (fs.inodes idx).nodeType = .directory)
    (entries : List DirEntry) :
    ∃ listed : List InodeIndex, listed.Nodup ∧
      (∀ c, c ∈ listed ↔ c ≠ 0 ∧ (fs.inodes c).used = true ∧ (fs.inodes c).parent = idx) ∧
      (∀ name, (∃ c, fs.walk [name] idx = .ok c) ↔ ∃ c ∈ listed, (fs.inodes c).nameStr = name) ∧
      fs.readdir path entries =
        ((listed.map fs.entry).take entries.length ++ entries.drop listed.length,
          .ok (min listed.length entries.length)) := by
  have hlinked := linked_of_run h
  refine ⟨(fs.inodes idx).children, hlinked.nodup idx, hlinked.mem_children_iff,
    hlinked.walk_name_iff hdir, ?_⟩
  rw [readdir, hidx]
  dsimp only
  rw [if_neg (not_not.mpr hdir)]
  rcases le_total (fs.inodes idx).children.length entries.length with hle | hle
  · rw [min_eq_left hle, List.take_length, List.take_of_length_le (by simpa using hle)]
  · rw [min_eq_right hle, List.drop_length, List.drop_of_length_le hle, List.map_take]

theorem readdir_lists_directory_file : ∃ fs,
    Trace.Run (fun fs e fs' ↦ RamFs.next fs e = some fs') RamFs.new [.create ['a'] .file] fs ∧
    (fs.inodes 1).nameStr = ['a'] ∧
    fs.readdir ['/'] [⟨[], .directory⟩] = ([fs.entry 1], .ok 1) := by
  have hrun : Trace.Run (fun fs e fs' ↦ RamFs.next fs e = some fs') RamFs.new
      [.create ['a'] .file] (RamFs.new.create ['a'] .file).1 := .snoc .nil rfl
  have hroot : (RamFs.new.create ['a'] .file).1.resolvePath ['/'] = .ok 0 := rfl
  obtain ⟨listed, hnodup, hmem, -, hread⟩ :=
    readdir_lists_directory hrun hroot (linked_of_run hrun).root [⟨[], .directory⟩]
  have honly (c : InodeIndex) : c ∈ listed ↔ c ∈ [1] := (hmem c).trans (by revert c; decide +kernel)
  have hlisted := (List.perm_ext_iff_of_nodup hnodup (List.nodup_singleton 1)).mpr honly
  obtain rfl := List.perm_singleton.mp hlisted
  exact ⟨_, hrun, by decide +kernel, hread⟩

end BraneKernel.RamFs
