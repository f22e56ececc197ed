import BraneKernel.Fat32.Contents
import BraneKernel.Fat32.ShortName

namespace BraneKernel

open DirectoryRecord

namespace Fat32Fs

variable {fs : Fat32Fs} {cluster : U32} {firstLba : U64} {σ : Type}
  {visitor : σ → DirectoryRecord → σ × Bool}

structure DirectoryChain (fs : Fat32Fs) (start : U32) where
  clusters : List U32
  head : clusters.head? = some start
  linked : clusters.IsChain fun c d ↦ fs.nextCluster c = some (.ok (some d))
  ended : ∀ cluster ∈ clusters.getLast?, fs.nextCluster cluster = some (.ok none)
  readable : ∀ cluster ∈ clusters, fs.Readable cluster
  acyclic : clusters.Nodup

def slots (fs : Fat32Fs) (clusters : List U32) : List Bytes :=
  Chunks.chunksExact 32 (clusters.flatMap fs.clusterBytes)

def beforeEnd (slots : List Bytes) : List Bytes := slots.takeWhile fun raw ↦ raw.head? ≠ some 0x00

namespace DirectoryChain

variable {start : U32}

def slots (chain : fs.DirectoryChain start) : List Bytes := fs.slots chain.clusters

def records (chain : fs.DirectoryChain start) : List DirectoryRecord :=
  (beforeEnd chain.slots).filterMap parse

end DirectoryChain

theorem run_visitSlot (slots : List Bytes) (s : σ) :
    (Visit.run (visitSlot visitor) slots s).1 =
      (Visit.run visitor ((beforeEnd slots).filterMap parse) s).1 := by
  induction slots generalizing s with
  | nil => rfl
  | cons raw slots ih =>
    by_cases hend : raw.head? = some 0x00
    · have hstop : visitSlot visitor s raw = (s, false) := if_pos hend
      rw [Visit.run_cons_stop hstop, beforeEnd, List.takeWhile_cons_of_neg (by simpa using hend),
        List.filterMap_nil, Visit.run_nil]
    · rw [beforeEnd, List.takeWhile_cons_of_pos (by simpa using hend), ← beforeEnd]
      cases hparse : parse raw with
      | none =>
        have hgo : visitSlot visitor s raw = (s, true) := by rw [visitSlot, if_neg hend, hparse]
        rw [Visit.run_cons_go hgo, ih, List.filterMap_cons_none hparse]
      | some record =>
        have hslot : visitSlot visitor s raw = visitor s record := by
          rw [visitSlot, if_neg hend, hparse]
        rw [List.filterMap_cons_some hparse]
        rcases hv : visitor s record with ⟨t, go⟩
        cases go with
        | false => rw [Visit.run_cons_stop (hslot.trans hv), Visit.run_cons_stop hv]
        | true => rw [Visit.run_cons_go (hslot.trans hv), Visit.run_cons_go hv, ih]

def scanned (visit : σ × Bool) : σ × ScanStep :=
  (visit.1, if visit.2 then .more else .finished (.ok ()))

namespace Readable

theorem scanSectors_from (h : fs.Readable cluster)
    (hfirst : firstLba.toNat = fs.sectorLba cluster 0) (n i : ℕ) (s : σ)
    (hin : i + n ≤ fs.geometry.sectorsPerCluster.toNat) :
    fs.scanSectors visitor firstLba n i s = some (scanned (Visit.run (visitSlot visitor)
      ((List.range' i n).flatMap fun k ↦
        Chunks.chunksExact 32 (fs.sectorBytes (fs.sectorLba cluster k))) s)) := by
  induction n generalizing i s with
  | zero => rfl
  | succ n ih =>
    obtain ⟨lba, sector, hadd, hsector, hdata⟩ := h.readSector_eq hfirst (show i < _ by omega)
    rw [scanSectors, hadd, Option.bind_eq_bind, Option.bind_some, hsector, List.range'_succ,
      List.flatMap_cons, ← hdata]
    dsimp only
    rcases hv : Visit.run (visitSlot visitor) (Chunks.chunksExact 32 sector.1) s with ⟨t, go⟩
    cases go with
    | false => rw [Visit.run_append_stop hv]; rfl
    | true =>
      rw [Visit.run_append_go hv]
      exact ih (i + 1) t (by omega)

theorem scanSectors_eq (h : fs.Readable cluster)
    (hfirst : firstLba.toNat = fs.sectorLba cluster 0) (s : σ) :
    fs.scanSectors visitor firstLba fs.geometry.sectorsPerCluster.toNat 0 s =
      some (scanned (Visit.run (visitSlot visitor)
        (Chunks.chunksExact 32 (fs.clusterBytes cluster)) s)) := by
  rw [clusterBytes, Chunks.chunksExact_flatMap (by decide), List.range_eq_range']
  · exact h.scanSectors_from hfirst _ 0 s (Nat.zero_add _).le
  · intro i hi
    rw [h.length_sectorBytes i hi]
    exact (show sectorSize = 16 * 32 by decide)

variable {fuel traversed : ℕ} {s t : σ}

theorem scanClusters_stop (h : fs.Readable cluster)
    (hv : Visit.run (visitSlot visitor) (Chunks.chunksExact 32 (fs.clusterBytes cluster)) s =
      (t, false)) :
    fs.scanClusters visitor (fuel + 1) cluster traversed s = some (t, .ok ()) := by
  obtain ⟨firstLba, hlba, hfirst⟩ := h.clusterLba_eq
  rw [scanClusters, hlba, Option.bind_eq_bind, Option.bind_some]
  dsimp only
  rw [h.scanSectors_eq hfirst, hv, Option.bind_eq_bind, Option.bind_some, scanned]
  rfl

theorem scanClusters_go (h : fs.Readable cluster)
    (hv : Visit.run (visitSlot visitor) (Chunks.chunksExact 32 (fs.clusterBytes cluster)) s =
      (t, true))
    (htraversed : traversed + 1 ≤ fs.geometry.clusterCount.toNat) :
    fs.scanClusters visitor (fuel + 1) cluster traversed s =
      (fs.nextCluster cluster).bind fun link ↦
        match link with
        | .error e => some (t, .error e)
        | .ok none => some (t, .ok ())
        | .ok (some next) => fs.scanClusters visitor fuel next (traversed + 1) t := by
  obtain ⟨firstLba, hlba, hfirst⟩ := h.clusterLba_eq
  rw [scanClusters, hlba, Option.bind_eq_bind, Option.bind_some]
  dsimp only
  rw [h.scanSectors_eq hfirst, hv, Option.bind_eq_bind, Option.bind_some, scanned]
  dsimp only
  rw [if_pos rfl]
  dsimp only
  rw [if_neg (Nat.not_lt.mpr htraversed)]
  rfl

end Readable

theorem slots_cons (rest : List U32) (h : fs.Readable cluster) :
    fs.slots (cluster :: rest) =
      Chunks.chunksExact 32 (fs.clusterBytes cluster) ++ fs.slots rest := by
  have hlength : (fs.clusterBytes cluster).length =
      fs.geometry.sectorsPerCluster.toNat * 16 * 32 := by
    rw [h.length_clusterBytes, clusterSize, Nat.mul_assoc]
    rfl
  rw [slots, List.flatMap_cons, Chunks.chunksExact_append (by decide) hlength, slots]

theorem scanClusters_eq (rest : List U32) (fuel traversed : ℕ) (s : σ)
    (hlinked : (cluster :: rest).IsChain fun c d ↦ fs.nextCluster c = some (.ok (some d)))
    (hended : ∀ c ∈ (cluster :: rest).getLast?, fs.nextCluster c = some (.ok none))
    (hreadable : ∀ c ∈ cluster :: rest, fs.Readable c) (hfuel : rest.length < fuel)
    (htraversed : traversed + rest.length < fs.geometry.clusterCount.toNat) :
    fs.scanClusters visitor fuel cluster traversed s =
      some ((Visit.run (visitSlot visitor) (fs.slots (cluster :: rest)) s).1, .ok ()) := by
  induction rest generalizing cluster fuel traversed s with
  | nil =>
    have hhead := hreadable cluster List.mem_cons_self
    obtain ⟨fuel, rfl⟩ := Nat.exists_eq_succ_of_ne_zero (Nat.ne_of_gt hfuel)
    have hnext := hended cluster rfl
    rw [List.length_nil, Nat.add_zero] at htraversed
    have hnil : fs.slots [] = [] := Chunks.chunksExact_nil 32
    rw [slots_cons [] hhead, hnil, List.append_nil]
    rcases hv : Visit.run (visitSlot visitor) (Chunks.chunksExact 32 (fs.clusterBytes cluster)) s
      with ⟨t, go⟩
    cases go with
    | false => rw [hhead.scanClusters_stop hv]
    | true => rw [hhead.scanClusters_go hv htraversed, hnext, Option.bind_some]
  | cons next rest ih =>
    have hhead := hreadable cluster List.mem_cons_self
    obtain ⟨hnext, hrest⟩ := List.isChain_cons_cons.mp hlinked
    obtain ⟨fuel, rfl⟩ := Nat.exists_eq_succ_of_ne_zero (Nat.ne_of_gt (Nat.zero_lt_of_lt hfuel))
    rw [List.length_cons] at hfuel htraversed
    rw [List.getLast?_cons_cons] at hended
    rw [slots_cons _ hhead]
    rcases hv : Visit.run (visitSlot visitor) (Chunks.chunksExact 32 (fs.clusterBytes cluster)) s
      with ⟨t, go⟩
    cases go with
    | false => rw [hhead.scanClusters_stop hv, Visit.run_append_stop hv]
    | true =>
      rw [hhead.scanClusters_go hv (by omega), hnext, Option.bind_some, Visit.run_append_go hv]
      apply ih
      · exact hrest
      · exact hended
      · intro c hc
        exact hreadable c (List.mem_cons_of_mem cluster hc)
      · omega
      · omega

namespace DirectoryChain

variable {start : U32} (chain : fs.DirectoryChain start)

theorem scanDirectory_eq (s : σ) :
    fs.scanDirectory start visitor s =
      some ((Visit.run visitor chain.records s).1, .ok ()) := by
  obtain ⟨rest, hclusters⟩ : ∃ rest, chain.clusters = start :: rest :=
    List.head?_eq_some_iff.mp chain.head
  have hlinked := chain.linked
  have hended := chain.ended
  have hreadable := chain.readable
  have hcount := length_le_clusterCount chain.acyclic chain.readable
  rw [hclusters] at hlinked hended hreadable
  rw [hclusters, List.length_cons] at hcount
  rw [scanDirectory, scanClusters_eq rest _ 0 s hlinked hended hreadable (by omega) (by omega),
    run_visitSlot, records, slots, hclusters]

theorem findEntry_eq (component : List Char) :
    fs.findEntry start component = some (.ok (chain.records.find? fun record ↦
      decide (SameIgnoringCase record.name (Utf8.encode component)))) := by
  have hsame : ∀ record ∈ chain.records, namesEqual record.nameStr component =
      decide (SameIgnoringCase record.name (Utf8.encode component)) := by
    intro record hmem
    obtain ⟨raw, -, hparse⟩ := List.mem_filterMap.mp hmem
    rw [Bool.eq_iff_iff, namesEqual_iff, decide_eq_true_eq,
      encode_nameStr hparse]
  rw [findEntry, chain.scanDirectory_eq, Option.bind_eq_bind, Option.bind_some]
  dsimp only
  rw [Visit.run_finder, ← List.head?_filter, ← List.head?_filter, List.filter_congr hsame]

end DirectoryChain

/-- Listing a directory copies its records in order, as many as fit, and a lookup finds the first
record of the name. The records are those of the slots before the end mark. -/
theorem directory_scans_exact (fs : Fat32Fs) (start : U32) (chain : fs.DirectoryChain start) :
    (∀ path entries, fs.directoryCluster path = some (.ok start) →
      fs.readdir path entries =
        some ((chain.records.map entry).take entries.length ++
          entries.drop chain.records.length, .ok (min entries.length chain.records.length))) ∧
    ∀ component, fs.findEntry start component = some (.ok (chain.records.find? fun record ↦
      decide (SameIgnoringCase record.name (Utf8.encode component)))) := by
  refine ⟨fun path entries hpath ↦ ?_, chain.findEntry_eq⟩
  have hfill := Visit.run_filler entry chain.records entries 0 (Nat.zero_le _)
  rw [Nat.sub_zero, Nat.zero_add, Chunks.splice_zero, List.length_take, List.length_map] at hfill
  rw [readdir, hpath, Option.bind_eq_bind, Option.bind_some]
  dsimp only
  rw [chain.scanDirectory_eq, Option.bind_eq_bind, Option.bind_some, hfill]
  dsimp only
  rw [Nat.min_def]
  split_ifs with hle
  · rw [List.drop_of_length_le (Nat.le_refl _), List.drop_of_length_le hle]
  · rfl

def rootGeometry : Fat32Geometry := ⟨0, 32, 1232, 1, 66000, 2⟩

theorem rootGeometry_mounted :
    Fat32Geometry.parse Fat32Geometry.sampleBoot 0 none 67232 = some (.ok rootGeometry) := by
  decide

def volume (fat data : Bytes) : Fat32Fs where
  device :=
    { info := ⟨512, 67232⟩
      readBlocks := fun lba n ↦ .ok
        ⟨List.ofFn fun i : Fin n ↦ if lba = 32 then fat.getD i.1 0 else data.getD i.1 0,
          List.length_ofFn⟩ }
  bootSector := Fat32Geometry.sampleBoot
  geometry := rootGeometry
  blockSize := rfl
  mounted := ⟨0, none, rootGeometry_mounted⟩

def rootVolume (root : Bytes) : Fat32Fs :=
  volume (List.replicate 8 0 ++ List.replicate 4 0xFF) root

theorem rootVolume_reads (root : Bytes) (lba : U64) (n : ℕ) :
    ∃ sector, (rootVolume root).device.readBlocks lba n = .ok sector :=
  ⟨_, rfl⟩

theorem rootVolume_fat (root : Bytes) :
    (rootVolume root).readSector 32 = (rootVolume []).readSector 32 := by
  have hread (root : Bytes) : (rootVolume root).device.read 32 sectorSize =
      (rootVolume root).device.readBlocks 32 sectorSize :=
    BlockDeviceHandle.read_one (by decide) rfl
      (show (32 : U64).toNat < (67232 : U64).toNat by decide)
  rw [readSector, readSector, hread, hread]
  rfl

theorem rootVolume_ended (root : Bytes) :
    (rootVolume root).nextCluster 2 = some (.ok none) := by
  have hempty : (rootVolume []).nextCluster 2 = some (.ok none) := by decide +kernel
  have hgood : ¬ rootGeometry.BadCluster 2 := by decide
  have hposition : rootGeometry.fatPosition 2 = some (32, 8) := by decide
  rw [← hempty]
  change Fat32Geometry.nextCluster rootGeometry (rootVolume root).readSector 2 =
    Fat32Geometry.nextCluster rootGeometry (rootVolume []).readSector 2
  rw [Fat32Geometry.nextCluster, Fat32Geometry.nextCluster, if_neg hgood, if_neg hgood, hposition,
    Option.bind_eq_bind, Option.bind_some, Option.bind_some]
  dsimp only
  rw [rootVolume_fat]

def rootChain (root : Bytes) : (rootVolume root).DirectoryChain 2 where
  clusters := [2]
  head := rfl
  linked := .singleton 2
  ended := by
    intro cluster hcluster
    rw [List.getLast?_singleton, Option.mem_some_iff] at hcluster
    rw [← hcluster]
    exact rootVolume_ended root
  readable := by
    intro cluster hcluster
    have hvalid : 2 ≤ cluster.toNat ∧ cluster.toNat ≤ 66000 + 1 := by
      obtain rfl := List.mem_singleton.mp hcluster
      decide
    exact ⟨hvalid, fun i _ ↦ rootVolume_reads root _ _⟩
  acyclic := List.nodup_singleton 2

def emptyEntry (shortName : Bytes) (attributes cluster : BitVec 8) : Bytes :=
  shortName ++ attributes :: (List.replicate 14 0 ++ cluster :: List.replicate 5 0)

theorem directory_scans_exact_files :
    let fs := rootVolume (emptyEntry [0xE5, 0x4C, 0x44, 32, 32, 32, 32, 32, 32, 32, 32] 0 0 ++
      emptyEntry [0x41, 32, 32, 32, 32, 32, 32, 32, 0x42, 32, 32] 0x20 0 ++
      emptyEntry [0x43, 32, 32, 32, 32, 32, 32, 32, 32, 32, 32] 0x20 0)
    fs.readdir ['/'] [⟨[], .device⟩] = some ([⟨[0x41, 0x2E, 0x42], .file⟩], .ok 1) ∧
      fs.findEntry 2 ['c'] = some (.ok (some ⟨[0x43], .file, 0, 0⟩)) := by
  intro fs
  have hscan := directory_scans_exact fs 2 (rootChain _)
  refine ⟨(hscan.1 ['/'] _ (by decide)).trans ?_, (hscan.2 ['c']).trans ?_⟩
  · decide +kernel
  · decide +kernel

end Fat32Fs

end BraneKernel
