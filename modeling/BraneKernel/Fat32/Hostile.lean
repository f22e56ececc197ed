import BraneKernel.Fat32.Exact
import BraneKernel.Fat32.Loops

namespace BraneKernel.Fat32Fs

variable {fs : Fat32Fs} {cluster : U32} {firstLba : U64}

section Read

variable {wanted written clusterOffset : ℕ} {buffer : Bytes}

theorem followCluster_cases (fs : Fat32Fs) (cluster : U32) :
    fs.followCluster cluster = some (.error .ioError) ∨
      ∃ next, fs.followCluster cluster = some (.ok next) ∧
        fs.nextCluster cluster = some (.ok (some next)) := by
  obtain ⟨link, hlink⟩ := Option.isSome_iff_exists.mp (fs.nextCluster_isSome cluster)
  rw [followCluster, hlink, Option.bind_eq_bind, Option.bind_some]
  rcases link with e | (_ | next)
  · exact .inl rfl
  · exact .inl rfl
  · exact .inr ⟨next, rfl, rfl⟩

theorem readSectors_cases (h : ¬ fs.geometry.BadCluster cluster)
    (hfirst : firstLba.toNat = fs.sectorLba cluster 0) (n i sectorOffset written : ℕ)
    (buffer : Bytes) (hin : i + n ≤ fs.geometry.sectorsPerCluster.toNat)
    (hoffset : sectorOffset < sectorSize) (hw : written < wanted)
    (hb : wanted ≤ buffer.length) :
    ∃ buffer' step, fs.readSectors firstLba wanted n i sectorOffset written buffer =
        some (buffer', step) ∧ buffer'.length = buffer.length ∧
      (step = .finished (.error .ioError) ∨
        (step = .finished (.ok wanted) ∧ wanted - written ≤ n * sectorSize - sectorOffset) ∨
        (step = .more (written + (n * sectorSize - sectorOffset)) ∧
          n * sectorSize - sectorOffset < wanted - written)) := by
  induction n generalizing i sectorOffset written buffer with
  | zero =>
    refine ⟨buffer, .more written, rfl, rfl, .inr (.inr ?_)⟩
    rw [Nat.zero_mul, Nat.zero_sub, Nat.add_zero]
    exact ⟨rfl, Nat.sub_pos_of_lt hw⟩
  | succ n ih =>
    obtain ⟨lba, hadd, hread⟩ := fs.readSector_at h hfirst (show i < _ by omega)
    rw [readSectors, hadd, Option.bind_eq_bind, Option.bind_some, readSector, hread]
    cases fs.device.readBlocks (BitVec.ofNat 64 (fs.sectorLba cluster i)) sectorSize with
    | error e => exact ⟨buffer, .finished (.error .ioError), rfl, rfl, .inl rfl⟩
    | ok sector =>
      have hsector := sector.2
      have hfits : written + min (sectorSize - sectorOffset) (wanted - written) ≤
          buffer.length := by omega
      have hcopied : ((sector.1.drop sectorOffset).take
          (min (sectorSize - sectorOffset) (wanted - written))).length =
          min (sectorSize - sectorOffset) (wanted - written) := by
        rw [List.length_take, List.length_drop]
        omega
      have hlength := Chunks.length_splice (hcopied.symm ▸ hfits)
      dsimp only
      rw [copyFromSlice_eq hfits (by omega), Option.bind_eq_bind, Option.bind_some,
        Nat.add_one_mul]
      by_cases hlast : wanted - written ≤ sectorSize - sectorOffset
      · rw [Nat.min_eq_right hlast] at hlength ⊢
        rw [if_pos (by omega), Nat.add_sub_cancel' hw.le]
        exact ⟨_, _, rfl, hlength, .inr (.inl ⟨rfl, by omega⟩)⟩
      · have hcount : sectorSize - sectorOffset ≤ wanted - written := by omega
        rw [Nat.min_eq_left hcount] at hlength ⊢
        rw [if_neg (by omega)]
        obtain ⟨buffer', step, hstep, hlen, hcases⟩ := ih (i + 1) 0
          (written + (sectorSize - sectorOffset)) _ (by omega) (by decide) (by omega)
          (by rwa [hlength])
        refine ⟨buffer', step, hstep, hlen.trans hlength, ?_⟩
        rcases hcases with hcase | ⟨hcase, hle⟩ | ⟨hcase, hlt⟩
        · exact .inl hcase
        · exact .inr (.inl ⟨hcase, by omega⟩)
        · refine .inr (.inr ⟨?_, by omega⟩)
          rw [hcase]
          congr 1
          omega

theorem read_turn (fs : Fat32Fs) (cluster : U32) (hoffset : clusterOffset < fs.clusterSize)
    (hw : written < wanted) (hb : wanted ≤ buffer.length) :
    (∃ buffer' result, (result = .error .ioError ∨
        result = .ok wanted ∧ wanted - written ≤ fs.clusterSize - clusterOffset) ∧
      ∀ fuel traversed,
        fs.readClusters wanted (fuel + 1) cluster clusterOffset traversed written buffer =
          some (buffer', result)) ∨
    ∃ buffer', buffer'.length = buffer.length ∧
      fs.clusterSize - clusterOffset < wanted - written ∧
      ∀ fuel traversed,
        fs.readClusters wanted (fuel + 1) cluster clusterOffset traversed written buffer =
          if traversed + 1 > fs.geometry.clusterCount.toNat then some (buffer', .error .ioError)
          else (fs.followCluster cluster).bind fun link ↦
            match link with
            | .error e => some (buffer', .error e)
            | .ok next => fs.readClusters wanted fuel next 0 (traversed + 1)
                (written + (fs.clusterSize - clusterOffset)) buffer' := by
  simp only [readClusters, if_pos hw]
  rcases fs.clusterLba_cases cluster with ⟨e, hlba⟩ | ⟨hgood, firstLba, hlba, hfirst⟩
  · simp only [hlba, Option.bind_eq_bind, Option.bind_some]
    exact .inl ⟨buffer, .error .ioError, .inl rfl, fun _ _ ↦ rfl⟩
  · have hsector : clusterOffset / sectorSize < fs.geometry.sectorsPerCluster.toNat :=
      (Nat.div_lt_iff_lt_mul (by decide)).mpr hoffset
    have hrest : (fs.geometry.sectorsPerCluster.toNat - clusterOffset / sectorSize) * sectorSize -
        clusterOffset % sectorSize = fs.clusterSize - clusterOffset := by
      rw [Nat.sub_mul, ← clusterSize, Nat.sub_sub, Nat.div_add_mod']
    obtain ⟨buffer', step, hstep, hlength, hcases⟩ := readSectors_cases hgood hfirst
      (fs.geometry.sectorsPerCluster.toNat - clusterOffset / sectorSize)
      (clusterOffset / sectorSize) (clusterOffset % sectorSize) written buffer (by omega)
      (Nat.mod_lt _ (by decide)) hw hb
    simp only [hlba, Option.bind_eq_bind, Option.bind_some, hstep]
    rw [hrest] at hcases
    rcases hcases with rfl | ⟨rfl, hle⟩ | ⟨rfl, hlt⟩
    · exact .inl ⟨buffer', .error .ioError, .inl rfl, fun _ _ ↦ rfl⟩
    · exact .inl ⟨buffer', .ok wanted, .inr ⟨rfl, hle⟩, fun _ _ ↦ rfl⟩
    · exact .inr ⟨buffer', hlength, hlt, fun _ _ ↦ rfl⟩

/-- A chain of clusters the last of which has no next one. -/
structure Ends (fs : Fat32Fs) (clusters : List U32) : Prop where
  linked : clusters.IsChain fun c d ↦ fs.nextCluster c = some (.ok (some d))
  ended : ∀ cluster ∈ clusters.getLast?, ∀ next, fs.nextCluster cluster ≠ some (.ok (some next))

theorem Ends.next {next : U32} {rest : List U32} (h : fs.Ends (cluster :: rest))
    (hnext : fs.nextCluster cluster = some (.ok (some next))) :
    ∃ rest', rest = next :: rest' ∧ fs.Ends (next :: rest') := by
  cases rest with
  | nil => exact absurd hnext (h.ended cluster rfl next)
  | cons next' rest =>
    obtain ⟨hnext', hrest⟩ := List.isChain_cons_cons.mp h.linked
    obtain rfl : next = next' := by simpa using hnext.symm.trans hnext'
    have hended := h.ended
    rw [List.getLast?_cons_cons] at hended
    exact ⟨rest, rfl, hrest, hended⟩

theorem readClusters_total (fuel traversed clusterOffset written : ℕ) (buffer : Bytes)
    (htraversed : traversed ≤ fs.geometry.clusterCount.toNat)
    (hfuel : fs.geometry.clusterCount.toNat < traversed + fuel)
    (hoffset : clusterOffset < fs.clusterSize) (hw : written < wanted)
    (hb : wanted ≤ buffer.length) :
    ∃ buffer' result, (∀ extra, fs.readClusters wanted (fuel + extra) cluster clusterOffset
        traversed written buffer = some (buffer', result)) ∧
      ∀ rest, fs.Ends (cluster :: rest) →
        (rest.length + 1) * fs.clusterSize - clusterOffset < wanted - written →
        result = .error .ioError := by
  induction fuel generalizing cluster traversed clusterOffset written buffer with
  | zero => omega
  | succ fuel ih =>
    rcases fs.read_turn cluster hoffset hw hb with
      ⟨buffer', result, hresult, hturn⟩ | ⟨buffer', hlength, hlt, hturn⟩
    · refine ⟨buffer', result, fun extra ↦ by rw [Nat.add_right_comm, hturn], ?_⟩
      rintro rest - hshort
      rw [Nat.add_one_mul] at hshort
      exact hresult.resolve_right fun hok ↦ by omega
    · simp only [Nat.add_right_comm fuel 1, hturn]
      by_cases hlast : traversed + 1 > fs.geometry.clusterCount.toNat
      · exact ⟨buffer', .error .ioError, fun _ ↦ if_pos hlast, fun _ _ _ ↦ rfl⟩
      · simp only [if_neg hlast]
        rcases fs.followCluster_cases cluster with herror | ⟨next, hfollow, hnext⟩
        · simp only [herror, Option.bind_some]
          exact ⟨buffer', .error .ioError, fun _ ↦ rfl, fun _ _ _ ↦ rfl⟩
        · simp only [hfollow, Option.bind_some]
          obtain ⟨buffer'', result, hresult, herror⟩ := @ih next (traversed + 1) 0
            (written + (fs.clusterSize - clusterOffset)) buffer' (by omega) (by omega)
            fs.clusterSize_pos (by omega) (by omega)
          refine ⟨buffer'', result, hresult, fun rest hends hshort ↦ ?_⟩
          obtain ⟨rest, rfl, htail⟩ := hends.next hnext
          rw [List.length_cons, Nat.add_one_mul (rest.length + 1)] at hshort
          exact herror rest htail (by omega)

/-- The first loop of a read when it may pass over at most `visits` clusters, and how many visits
it leaves. -/
def skipWithin (fs : Fat32Fs) (visits clustersToSkip : ℕ) (cluster : U32) (traversed : ℕ) :
    Option (ℕ × Except VfsError (U32 × ℕ)) :=
  match clustersToSkip, visits with
  | 0, visits => some (visits, .ok (cluster, traversed))
  | _ + 1, 0 => none
  | n + 1, visits + 1 => do
    match ← fs.followCluster cluster with
    | .error e => some (visits, .error e)
    | .ok next =>
      if traversed + 1 > fs.geometry.clusterCount.toNat then some (visits, .error .ioError)
      else fs.skipWithin visits n next (traversed + 1)

/-- `read_file` when its two loops may together visit at most `visits` clusters. -/
def readFileWithin (fs : Fat32Fs) (visits : ℕ) (record : DirectoryRecord) (offset : ℕ)
    (buffer : Bytes) : Option (Bytes × Except VfsError ℕ) :=
  if record.nodeType ≠ .file then some (buffer, .error .notAFile)
  else
    let fileSize := record.size.toNat
    if offset ≥ fileSize ∨ buffer = [] then some (buffer, .ok 0)
    else if record.firstCluster < 2 then some (buffer, .error .ioError)
    else do
      match ← fs.skipWithin visits (offset / fs.clusterSize) record.firstCluster 0 with
      | (_, .error e) => some (buffer, .error e)
      | (visits, .ok (cluster, traversed)) =>
        fs.readClusters (min buffer.length (fileSize - offset)) visits cluster
          (offset % fs.clusterSize) traversed 0 buffer

theorem skipClusters_total (k visits traversed : ℕ)
    (htraversed : traversed ≤ fs.geometry.clusterCount.toNat)
    (hvisits : visits + traversed = fs.geometry.clusterCount.toNat + 1) :
    (∃ left, fs.skipClusters k cluster traversed = some (.error .ioError) ∧
      fs.skipWithin visits k cluster traversed = some (left, .error .ioError)) ∨
    ∃ left last total, fs.skipClusters k cluster traversed = some (.ok (last, total)) ∧
      fs.skipWithin visits k cluster traversed = some (left, .ok (last, total)) ∧
      total ≤ fs.geometry.clusterCount.toNat ∧
      left + total = fs.geometry.clusterCount.toNat + 1 ∧
      ∀ rest, fs.Ends (cluster :: rest) →
        ∃ rest', k + rest'.length = rest.length ∧ fs.Ends (last :: rest') := by
  induction k generalizing cluster visits traversed with
  | zero =>
    refine .inr ⟨visits, cluster, traversed, rfl, ?_, htraversed, hvisits, fun rest hends ↦ ?_⟩
    · rw [skipWithin]
    · exact ⟨rest, Nat.zero_add _, hends⟩
  | succ k ih =>
    obtain ⟨visits, rfl⟩ := Nat.exists_eq_succ_of_ne_zero (show visits ≠ 0 by omega)
    rw [skipClusters, skipWithin]
    rcases fs.followCluster_cases cluster with herror | ⟨next, hfollow, hnext⟩
    · rw [herror, Option.bind_eq_bind, Option.bind_some]
      exact .inl ⟨visits, rfl, rfl⟩
    · rw [hfollow]
      dsimp only [Option.bind_eq_bind, Option.bind_some]
      by_cases hlast : traversed + 1 > fs.geometry.clusterCount.toNat
      · rw [if_pos hlast, if_pos hlast]
        exact .inl ⟨visits, rfl, rfl⟩
      · rw [if_neg hlast, if_neg hlast]
        rcases @ih next visits (traversed + 1) (by omega) (by omega) with
          hfails | ⟨left, last, total, hskip, hwithin, htotal, hleft, hends⟩
        · exact .inl hfails
        · refine .inr ⟨left, last, total, hskip, hwithin, htotal, hleft, fun rest hrest ↦ ?_⟩
          obtain ⟨rest, rfl, htail⟩ := hrest.next hnext
          obtain ⟨rest', hlength, hends'⟩ := hends rest htail
          refine ⟨rest', ?_, hends'⟩
          rw [List.length_cons]
          omega

theorem readFile_total (fs : Fat32Fs) (record : DirectoryRecord) (offset : ℕ) (buffer : Bytes) :
    ∃ buffer' result, fs.readFile record offset buffer = some (buffer', result) ∧
      fs.readFileWithin (fs.geometry.clusterCount.toNat + 1) record offset buffer =
        some (buffer', result) ∧
      ∀ clusters, fs.Ends clusters → clusters.head? = some record.firstCluster →
        record.nodeType = .file → offset < record.size.toNat → buffer ≠ [] →
        clusters.length * fs.clusterSize <
          offset + min buffer.length (record.size.toNat - offset) →
        result = .error .ioError := by
  rw [readFile, readFileWithin]
  dsimp only
  split_ifs with hfile hnothing hfirst
  · exact ⟨_, _, rfl, rfl, fun _ _ _ hfile' ↦ absurd hfile' hfile⟩
  · refine ⟨_, _, rfl, rfl, fun _ _ _ _ hoffset hbuffer _ ↦ ?_⟩
    exact absurd hnothing (not_or.mpr ⟨Nat.not_le.mpr hoffset, hbuffer⟩)
  · exact ⟨_, _, rfl, rfl, fun _ _ _ _ _ _ _ ↦ rfl⟩
  · rw [not_or, ge_iff_le, Nat.not_le] at hnothing
    have hpos := List.length_pos_iff.mpr hnothing.2
    rcases skipClusters_total (offset / fs.clusterSize) (fs.geometry.clusterCount.toNat + 1) 0
      (Nat.zero_le _) rfl with
      ⟨left, hskip, hwithin⟩ | ⟨left, last, total, hskip, hwithin, htotal, hleft, hends⟩
    · rw [hskip, hwithin]
      exact ⟨_, _, rfl, rfl, fun _ _ _ _ _ _ _ ↦ rfl⟩
    · obtain ⟨buffer', result, hresult, herror⟩ := readClusters_total left total
        (offset % fs.clusterSize) 0 buffer htotal (by omega) (Nat.mod_lt _ fs.clusterSize_pos)
        (show 0 < min buffer.length (record.size.toNat - offset) by omega) (Nat.min_le_left ..)
      refine ⟨buffer', result, ?_, ?_, fun clusters hclusters hhead _ _ _ hshort ↦ ?_⟩
      · rw [hskip, ← hleft]
        exact hresult total
      · rw [hwithin]
        exact hresult 0
      · obtain ⟨rest, rfl⟩ := List.head?_eq_some_iff.mp hhead
        obtain ⟨rest', hlength, hends'⟩ := hends rest hclusters
        have hoff := Nat.div_add_mod' offset fs.clusterSize
        rw [List.length_cons, ← hlength, Nat.add_assoc, Nat.add_mul] at hshort
        exact herror rest' hends' (by omega)

end Read

/-- Scans and reads end after at most one visit more than there are clusters. A directory without
an end is an error unless the visitor has declined a record, a read past the end of its chain is an
error, and valid chains are not. -/
theorem terminates_on_hostile_media (fs : Fat32Fs) :
    (∀ (σ : Type) (visitor : σ → DirectoryRecord → σ × Bool) (start : U32) (s : σ),
      ∃ result, fs.scanDirectory start visitor s = some result ∧
        ∀ visits ≥ fs.geometry.clusterCount.toNat + 1,
          fs.scanClusters visitor visits start 0 s = some result) ∧
    (∀ record offset buffer, ∃ result, fs.readFile record offset buffer = some result ∧
      fs.readFileWithin (fs.geometry.clusterCount.toNat + 1) record offset buffer =
        some result) ∧
    (∀ (σ : Type) (visitor : σ → DirectoryRecord → σ × Bool) (start : U32) (s : σ),
      fs.LoopsForever start → ∃ t go result, fs.scanDirectory start visitor s = some (t, result) ∧
        fs.scanDirectory start (Visit.noting visitor) (s, true) = some ((t, go), result) ∧
        ((∃ e, result = .error e) ∨ go = false ∧ Declines visitor t)) ∧
    (∀ record offset buffer clusters, fs.Ends clusters →
      clusters.head? = some record.firstCluster → record.nodeType = .file →
      offset < record.size.toNat → buffer ≠ [] →
      clusters.length * fs.clusterSize <
        offset + min buffer.length (record.size.toNat - offset) →
      ∃ buffer', fs.readFile record offset buffer = some (buffer', .error .ioError)) ∧
    (∀ (σ : Type) (visitor : σ → DirectoryRecord → σ × Bool) (start : U32) (s : σ),
      fs.DirectoryChain start → ∃ t, fs.scanDirectory start visitor s = some (t, .ok ())) ∧
    ∀ record offset buffer, fs.FileChain record → record.nodeType = .file →
      ∃ buffer', fs.readFile record offset buffer =
        some (buffer', .ok (min buffer.length (record.size.toNat - offset))) := by
  refine ⟨?_, ?_, ?_, ?_, ?_, ?_⟩
  · intro σ visitor start s
    obtain ⟨result, hresult⟩ := fs.scanDirectory_total start visitor s
    refine ⟨result, hresult 0, fun visits hvisits ↦ ?_⟩
    obtain ⟨extra, rfl⟩ := Nat.exists_eq_add_of_le hvisits
    exact hresult extra
  · intro record offset buffer
    obtain ⟨_, _, hread, hwithin, -⟩ := fs.readFile_total record offset buffer
    exact ⟨_, hread, hwithin⟩
  · intro σ visitor start s hloop
    exact hloop.scanDirectory_eq visitor s
  · intro record offset buffer clusters hends hhead hfile hoffset hbuffer hshort
    obtain ⟨buffer', result, hread, -, herror⟩ := fs.readFile_total record offset buffer
    obtain rfl := herror clusters hends hhead hfile hoffset hbuffer hshort
    exact ⟨buffer', hread⟩
  · intro σ visitor start s chain
    exact ⟨_, chain.scanDirectory_eq s⟩
  · intro record offset buffer chain hfile
    exact ⟨_, readFile_eq chain hfile offset buffer⟩

/-- A volume with one cluster in its root directory, which the file allocation table links to
itself. -/
def loopVolume (root : Bytes) : Fat32Fs := volume (List.replicate 8 0 ++ [2, 0, 0, 0]) root

theorem terminates_on_hostile_media_loop :
    ∃ count e, (loopVolume (List.replicate 512 0xE5)).scanDirectory 2 (fun n _ ↦ (n + 1, true)) 0 =
      some (count, .error e) := by
  have hloop : (loopVolume (List.replicate 512 0xE5)).LoopsForever 2 :=
    loopsForever_self (by decide +kernel) (by decide +kernel)
  obtain ⟨count, -, -, hscan, -, ⟨e, rfl⟩ | ⟨-, u, record, hstop⟩⟩ :=
    (terminates_on_hostile_media (loopVolume _)).2.2.1 ℕ (fun n _ ↦ (n + 1, true)) 2 0 hloop
  · exact ⟨count, e, hscan⟩
  · simp at hstop

/-- A name before the loop is found, and an array for one entry is filled: both visitors end the
scan themselves. -/
theorem loop_not_reported :
    let fs := loopVolume
      (emptyEntry [0x41, 32, 32, 32, 32, 32, 32, 32, 32, 32, 32] 0x20 0 ++ List.replicate 480 0xE5)
    fs.LoopsForever 2 ∧ fs.findEntry 2 ['A'] = some (.ok (some ⟨[0x41], .file, 0, 0⟩)) ∧
      fs.readdir ['/'] [⟨[], .device⟩] = some ([⟨[0x41], .file⟩], .ok 1) := by
  refine ⟨loopsForever_self ?_ ?_, ?_, ?_⟩ <;> decide +kernel

end BraneKernel.Fat32Fs
