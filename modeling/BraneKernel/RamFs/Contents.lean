import BraneKernel.Lib.WriteLog
import BraneKernel.RamFs.Links

namespace BraneKernel.RamFs

open Path (components)
open Trace (Run)

abbrev Journal := InodeIndex → List (ℕ × Bytes)

def record (fs : RamFs) (journal : Journal) : RamFsEvent → Journal
  | .create path nodeType =>
    match (fs.create path nodeType).2, fs.allocInode with
    | .ok (), some new => Function.update journal new []
    | _, _ => journal
  | .write path offset data =>
    match fs.write path offset data, fs.resolvePath path with
    | some (_, .ok _), .ok idx => Function.update journal idx ((offset.toNat, data) :: journal idx)
    | _, _ => journal
  | .remove _ => journal

def journaled (state : RamFs × Journal) (e : RamFsEvent) : Option (RamFs × Journal) :=
  (state.1.next e).map fun fs ↦ (fs, state.1.record state.2 e)

structure Holds (inode : Inode) (log : List (ℕ × Bytes)) : Prop where
  length : inode.dataLen = WriteLog.largestEnd log
  data : inode.data.1 = (List.range maxFileSize).map (WriteLog.lastWritten 0 log)

variable {inode : Inode}

theorem Holds.empty (hlength : inode.dataLen = 0) (hdata : inode.data = Inode.empty.data) :
    Holds inode [] := by
  refine ⟨hlength, ?_⟩
  rw [hdata]
  exact WriteLog.replicate_eq 0 maxFileSize

variable {log : List (ℕ × Bytes)}

theorem Holds.store (h : Holds inode log) {offset : ℕ} {data : Bytes}
    (hend : offset + data.length ≤ maxFileSize) :
    Holds (inode.store offset data hend) ((offset, data) :: log) := by
  constructor
  · rw [Inode.store, WriteLog.largestEnd, ← h.length]
  · rw [Inode.store]
    dsimp only
    rw [h.data]
    exact WriteLog.splice_eq 0 log hend

theorem Holds.of_same {inode' : Inode} (h : Holds inode log)
    (hlength : inode'.dataLen = inode.dataLen) (hdata : inode'.data = inode.data) :
    Holds inode' log := by
  refine ⟨hlength.trans h.length, ?_⟩
  rw [hdata]
  exact h.data

theorem Holds.contents (h : Holds inode log) :
    inode.data.1.take inode.dataLen = WriteLog.contents 0 log := by
  have hfits := inode.fits
  rw [h.length] at hfits
  rw [h.data, h.length]
  exact WriteLog.take_largestEnd 0 hfits

variable {fs : RamFs} {path : List Char} {idx : InodeIndex}

theorem read_eq (hpath : fs.resolvePath path = .ok idx) (hfile : (fs.inodes idx).nodeType = .file)
    (offset : U64) (buf : Bytes) :
    let bytes := (((fs.inodes idx).data.1.take (fs.inodes idx).dataLen).drop offset.toNat).take
      buf.length
    fs.read path offset buf = (Chunks.splice buf 0 bytes, .ok bytes.length) := by
  intro bytes
  have hfits := (fs.inodes idx).fits
  have hsize := (fs.inodes idx).data.2
  have hbytes : bytes = ((fs.inodes idx).data.1.drop offset.toNat).take
      (min buf.length ((fs.inodes idx).dataLen - offset.toNat)) := by
    rw [← List.take_take, ← List.drop_take]
  have hcount : bytes.length = min buf.length ((fs.inodes idx).dataLen - offset.toNat) := by
    rw [hbytes, List.length_take, List.length_drop, hsize]
    omega
  rw [read, hpath]
  dsimp only
  rw [if_neg (not_not.mpr hfile)]
  split_ifs with hend
  · rw [hcount, hbytes, Nat.sub_eq_zero_of_le hend, Nat.min_zero, List.take_zero,
      Chunks.splice_nil]
  · rw [hcount, hbytes]
    rfl

section Journal

variable {journal : Journal}

theorem holds_new (i : InodeIndex) : Holds (RamFs.new.inodes i) [] := by
  by_cases hi : i = 0
  · subst hi
    exact .empty rfl rfl
  · rw [new_of_ne hi]
    exact .empty rfl rfl

theorem Linked.holds_next (h : fs.Linked) {e : RamFsEvent} {fs' : RamFs}
    (hnext : fs.next e = some fs') (hholds : ∀ i, Holds (fs.inodes i) (journal i))
    (i : InodeIndex) : Holds (fs'.inodes i) (fs.record journal e i) := by
  cases e with
  | create path nodeType =>
    rw [next, Option.some.injEq] at hnext
    rcases fs.create_cases path nodeType with ⟨e, he⟩ | ⟨parents, name, parent, new, hc, he⟩
    · rw [he] at hnext
      rw [← hnext, record, he]
      exact hholds i
    · rw [he] at hnext
      rw [← hnext, record, he, hc.free]
      dsimp only
      by_cases hi : i = new
      · subst hi
        rw [Function.update_self, link_self fs parent nodeType name (h.takes hc).ne_parent]
        exact .empty rfl rfl
      · rw [Function.update_of_ne hi, link_of_ne fs parent nodeType name hi]
        exact (hholds i).of_same rfl rfl
  | write path offset data =>
    rw [next] at hnext
    rcases fs.write_cases path offset data with he | ⟨e, he⟩ | ⟨idx, hend, hwalk, -, he⟩
    · rw [he] at hnext
      simp at hnext
    · rw [he, Option.map_some, Option.some.injEq] at hnext
      rw [← hnext, record, he]
      exact hholds i
    · rw [he, Option.map_some, Option.some.injEq] at hnext
      rw [← hnext, record, he, resolvePath_eq, hwalk, stored]
      dsimp only
      by_cases hi : i = idx
      · subst hi
        rw [Function.update_self, Function.update_self]
        exact (hholds i).store hend
      · rw [Function.update_of_ne hi, Function.update_of_ne hi]
        exact hholds i
  | remove path =>
    rw [next] at hnext
    rcases fs.remove_cases path with he | ⟨e, he⟩ | ⟨idx, count, -, he⟩
    · rw [he] at hnext
      simp at hnext
    · rw [he, Option.map_some, Option.some.injEq] at hnext
      rw [← hnext]
      exact hholds i
    · rw [he, Option.map_some, Option.some.injEq] at hnext
      rw [← hnext, unlink_inodes]
      exact (hholds i).of_same rfl rfl

theorem exists_journal {es : List RamFsEvent}
    (h : Run (fun fs e fs' ↦ RamFs.next fs e = some fs') RamFs.new es fs) :
    ∃ journal, Run (fun s e t ↦ journaled s e = some t) (RamFs.new, fun _ ↦ []) es (fs, journal) ∧
      ∀ i, Holds (fs.inodes i) (journal i) := by
  induction h with
  | nil => exact ⟨_, .nil, holds_new⟩
  | @snoc es e fs fs' hrun hnext ih =>
    obtain ⟨journal, hjournal, hholds⟩ := ih
    refine ⟨fs.record journal e, hjournal.snoc ?_, ?_⟩
    · rw [journaled, hnext, Option.map_some]
    · exact (linked_of_run hrun).holds_next hnext hholds

end Journal

/-- A read returns what the writes since the file's creation have left, and a write changes no
other inode. -/
theorem reads_see_writes {es : List RamFsEvent}
    (h : Run (fun fs e fs' ↦ RamFs.next fs e = some fs') RamFs.new es fs) :
    ∃ journal, Run (fun s e t ↦ journaled s e = some t) (RamFs.new, fun _ ↦ []) es (fs, journal) ∧
      (∀ path idx, fs.resolvePath path = .ok idx → (fs.inodes idx).nodeType = .file →
        ∀ offset buf,
          let bytes := ((WriteLog.contents 0 (journal idx)).drop offset.toNat).take buf.length
          fs.read path offset buf = (Chunks.splice buf 0 bytes, .ok bytes.length)) ∧
      ∀ path offset data fs' n, fs.write path offset data = some (fs', .ok n) →
        ∃ idx, fs.resolvePath path = .ok idx ∧ ∀ i, i ≠ idx → fs'.inodes i = fs.inodes i := by
  obtain ⟨journal, hjournal, hholds⟩ := exists_journal h
  refine ⟨journal, hjournal, ?_, ?_⟩
  · intro path idx hpath hfile offset buf
    rw [← (hholds idx).contents]
    exact read_eq hpath hfile offset buf
  · intro path offset data fs' n hwrite
    rcases fs.write_cases path offset data with he | ⟨e, he⟩ | ⟨idx, hend, hwalk, -, he⟩
    · rw [he] at hwrite
      simp at hwrite
    · rw [he] at hwrite
      simp at hwrite
    · rw [he, Option.some.injEq, Prod.mk.injEq] at hwrite
      rw [resolvePath_eq, ← hwrite.1]
      exact ⟨idx, hwalk, fun i hi ↦ Function.update_of_ne hi _ _⟩

def rewrittenLog : List RamFsEvent :=
  [.create ['a'] .file, .write ['a'] 0 [1, 2, 3], .remove ['a'], .create ['b'] .file,
    .write ['b'] 2 [4, 5], .write ['/', 'b'] 5 [6], .write ['b'] 3 [7]]

theorem reads_see_writes_reused : ∃ fs journal,
    Run (fun s e t ↦ journaled s e = some t) (RamFs.new, fun _ ↦ []) rewrittenLog (fs, journal) ∧
      fs.read ['b'] 1 (List.replicate 8 255) = ([0, 4, 7, 0, 6, 255, 255, 255], .ok 5) ∧
      ((WriteLog.contents 0 (journal 1)).drop 1).take 8 = [0, 4, 7, 0, 6] := by
  obtain ⟨fs, hfs, hvalues⟩ := Option.map_eq_some_iff.mp
    (show (rewrittenLog.foldlM RamFs.next RamFs.new).map (fun fs ↦
        (fs.resolvePath ['b'], (fs.inodes 1).nodeType, fs.read ['b'] 1 (List.replicate 8 255))) =
      some (.ok 1, .file, [0, 4, 7, 0, 6, 255, 255, 255], .ok 5) by decide +kernel)
  rw [Prod.mk.injEq, Prod.mk.injEq] at hvalues
  obtain ⟨hpath, hfile, hread⟩ := hvalues
  obtain ⟨journal, hjournal, hreads, -⟩ := reads_see_writes (Run.of_foldlM hfs)
  refine ⟨fs, journal, hjournal, hread, ?_⟩
  have hbytes := hreads ['b'] 1 hpath hfile 1 (List.replicate 8 255)
  dsimp only at hbytes
  rw [hread, Chunks.splice_zero, Prod.mk.injEq, Except.ok.injEq] at hbytes
  have htake := congrArg (List.take 5) hbytes.1
  rw [List.take_left' hbytes.2.symm] at htake
  exact htake.symm

/-- What a call of `write` does to a file when it returns. -/
structure Stores (fs : RamFs) (idx : InodeIndex) (offset : ℕ) (data : Bytes) (fs' : RamFs)
    (result : Except VfsError ℕ) : Prop where
  noSpace : result = .error .noSpace ↔ maxFileSize < offset + data.length
  unchanged : result = .error .noSpace → fs' = fs
  stored : ∀ h : offset + data.length ≤ maxFileSize,
    result = .ok data.length ∧ fs' = fs.stored idx offset data h

/-- A write to a file returns exactly when the end of the write is a machine word. -/
theorem write_total_iff (hpath : fs.resolvePath path = .ok idx)
    (hfile : (fs.inodes idx).nodeType = .file) (offset : U64) (data : Bytes) :
    (∃ fs' result, fs.write path offset data = some (fs', result) ∧
      fs.Stores idx offset.toNat data fs' result) ↔ offset.toNat + data.length < 2 ^ 64 := by
  rw [write, hpath]
  dsimp only
  rw [if_neg (not_not.mpr hfile)]
  by_cases hword : 2 ^ 64 ≤ offset.toNat + data.length
  · rw [if_pos hword]
    refine iff_of_false ?_ (Nat.not_lt.mpr hword)
    rintro ⟨fs', result, hnone, -⟩
    simp at hnone
  · rw [if_neg hword]
    refine iff_of_true ?_ (Nat.lt_of_not_le hword)
    split_ifs with hspace
    · refine ⟨_, _, rfl, iff_of_true rfl hspace, fun _ ↦ rfl, ?_⟩
      intro h
      exact absurd hspace (Nat.not_lt.mpr h)
    · refine ⟨_, _, rfl, iff_of_false ?_ hspace, ?_, fun _ ↦ ⟨rfl, rfl⟩⟩
      · simp
      · intro hresult
        simp at hresult

theorem write_total_iff_full : ∃ fs fs' result, RamFs.new.next (.create ['a'] .file) = some fs ∧
    fs.write ['a'] 4000 (List.replicate 97 1) = some (fs', result) ∧
    fs.Stores 1 4000 (List.replicate 97 1) fs' result := by
  obtain ⟨fs, hfs, hvalues⟩ := Option.map_eq_some_iff.mp
    (show (RamFs.new.next (.create ['a'] .file)).map (fun fs ↦
      (fs.resolvePath ['a'], (fs.inodes 1).nodeType)) = some (.ok 1, .file) by decide +kernel)
  rw [Prod.mk.injEq] at hvalues
  obtain ⟨fs', result, hwrite, hstores⟩ :=
    (write_total_iff hvalues.1 hvalues.2 4000 (List.replicate 97 1)).mpr (by decide)
  exact ⟨fs, fs', result, hfs, hwrite, hstores⟩

/-- The end of the write is computed before it is compared with the size of a file. -/
theorem write_end_overflows : ∃ fs, RamFs.new.next (.create ['a'] .file) = some fs ∧
    fs.resolvePath ['a'] = .ok 1 ∧ (fs.inodes 1).nodeType = .file ∧
    fs.write ['a'] (BitVec.allOnes 64) [0] = none := by
  obtain ⟨fs, hfs, hvalues⟩ := Option.map_eq_some_iff.mp
    (show (RamFs.new.next (.create ['a'] .file)).map (fun fs ↦ (fs.resolvePath ['a'],
        (fs.inodes 1).nodeType, (fs.write ['a'] (BitVec.allOnes 64) [0]).isNone)) =
      some (.ok 1, .file, true) by decide +kernel)
  rw [Prod.mk.injEq, Prod.mk.injEq, Option.isNone_iff_eq_none] at hvalues
  exact ⟨fs, hfs, hvalues⟩

end BraneKernel.RamFs
