import BraneKernel.Fat32.Read
import Mathlib.Data.List.Perm.Subperm

namespace BraneKernel.Fat32Fs

open Chunks (splice)

variable {fs : Fat32Fs} {cluster : U32} {firstLba : U64}

def sectorBytes (fs : Fat32Fs) (lba : ℕ) : Bytes :=
  match fs.device.readBlocks (BitVec.ofNat 64 lba) sectorSize with
  | .ok sector => sector.1
  | .error _ => []

def sectorLba (fs : Fat32Fs) (cluster : U32) (i : ℕ) : ℕ :=
  fs.geometry.dataLba.toNat + (cluster.toNat - 2) * fs.geometry.sectorsPerCluster.toNat + i

def clusterBytes (fs : Fat32Fs) (cluster : U32) : Bytes :=
  (List.range fs.geometry.sectorsPerCluster.toNat).flatMap
    fun i ↦ fs.sectorBytes (fs.sectorLba cluster i)

def ahead (fs : Fat32Fs) (cluster : U32) (sectorIndex remaining sectorOffset : ℕ) : Bytes :=
  ((List.range' sectorIndex remaining).flatMap
    fun i ↦ fs.sectorBytes (fs.sectorLba cluster i)).drop sectorOffset

structure Readable (fs : Fat32Fs) (cluster : U32) : Prop where
  valid : 2 ≤ cluster.toNat ∧ cluster.toNat ≤ fs.geometry.clusterCount.toNat + 1
  reads : ∀ i < fs.geometry.sectorsPerCluster.toNat, ∃ sector,
    fs.device.readBlocks (BitVec.ofNat 64 (fs.sectorLba cluster i)) sectorSize = .ok sector

/-- The clusters that hold a file, in order: linked by the FAT, without a cycle, and enough for the
file's size. An empty file may have none. -/
structure FileChain (fs : Fat32Fs) (record : DirectoryRecord) where
  clusters : List U32
  head : ∀ cluster ∈ clusters.head?, cluster = record.firstCluster
  linked : clusters.IsChain fun c d ↦ fs.nextCluster c = some (.ok (some d))
  readable : ∀ cluster ∈ clusters, fs.Readable cluster
  acyclic : clusters.Nodup
  enough : record.size.toNat ≤ clusters.length * fs.clusterSize

def FileChain.bytes {record : DirectoryRecord} (chain : fs.FileChain record) : Bytes :=
  chain.clusters.flatMap fs.clusterBytes

def FileChain.slice {record : DirectoryRecord} (chain : fs.FileChain record) (offset n : ℕ) :
    Bytes :=
  ((chain.bytes.take record.size.toNat).drop offset).take n

theorem sectorBytes_eq {lba : ℕ} {sector : Sector}
    (h : fs.device.readBlocks (BitVec.ofNat 64 lba) sectorSize = .ok sector) :
    fs.sectorBytes lba = sector.1 := by
  rw [sectorBytes, h]

theorem readSector_at (fs : Fat32Fs) (h : ¬ fs.geometry.BadCluster cluster)
    (hfirst : firstLba.toNat = fs.sectorLba cluster 0) {i : ℕ}
    (hi : i < fs.geometry.sectorsPerCluster.toNat) :
    ∃ lba, Checked.add firstLba (BitVec.ofNat 64 i) = some lba ∧
      fs.device.read lba sectorSize =
        fs.device.readBlocks (BitVec.ofNat 64 (fs.sectorLba cluster i)) sectorSize := by
  have hcluster := fs.laid.cluster_stop h
  have hstop := fs.laid.stop
  have hdevice := fs.laid.device
  have hb := fs.device.info.blockCount.isLt
  rw [sectorLba] at hfirst
  have hat : (BitVec.ofNat 64 i).toNat = i := by
    rw [BitVec.toNat_ofNat]
    omega
  obtain ⟨lba, hadd, hlba⟩ := Checked.add_of_lt
    (show firstLba.toNat + (BitVec.ofNat 64 i).toNat < 2 ^ 64 by omega)
  have hsame : lba.toNat = fs.sectorLba cluster i := by
    rw [hlba, hat, hfirst, sectorLba, Nat.add_zero]
  refine ⟨lba, hadd, ?_⟩
  rw [BlockDeviceHandle.read_one (by decide) (by rw [fs.blockSize]; rfl)]
  · rw [← hsame, BitVec.ofNat_toNat, BitVec.setWidth_eq]
  · rw [sectorLba] at hsame
    omega

namespace Readable

section

variable (h : fs.Readable cluster)
include h

theorem not_bad : ¬ fs.geometry.BadCluster cluster := by
  have hvalid := h.valid
  rw [fs.laid.badCluster_iff]
  omega

theorem length_sectorBytes :
    ∀ i ∈ List.range fs.geometry.sectorsPerCluster.toNat,
      (fs.sectorBytes (fs.sectorLba cluster i)).length = sectorSize := by
  intro i hi
  obtain ⟨sector, hsector⟩ := h.reads i (List.mem_range.mp hi)
  rw [sectorBytes_eq hsector, sector.2]

theorem length_clusterBytes :
    (fs.clusterBytes cluster).length = fs.clusterSize := by
  rw [clusterBytes, Chunks.length_flatMap h.length_sectorBytes, List.length_range, clusterSize]

theorem drop_clusterBytes (offset : ℕ) :
    (fs.clusterBytes cluster).drop offset = fs.ahead cluster (offset / sectorSize)
      (fs.geometry.sectorsPerCluster.toNat - offset / sectorSize) (offset % sectorSize) := by
  have hsplit : offset = offset / sectorSize * sectorSize + offset % sectorSize :=
    (Nat.div_add_mod' offset sectorSize).symm
  have hrange : (List.range fs.geometry.sectorsPerCluster.toNat).drop (offset / sectorSize) =
      List.range' (offset / sectorSize)
        (fs.geometry.sectorsPerCluster.toNat - offset / sectorSize) := by
    rw [List.range_eq_range', List.drop_range', Nat.zero_add, Nat.mul_one]
  rw [ahead, ← hrange, ← Chunks.drop_flatMap h.length_sectorBytes, List.drop_drop, ← hsplit,
    clusterBytes]

theorem clusterLba_eq :
    ∃ firstLba, fs.geometry.clusterLba cluster = some (.ok firstLba) ∧
      firstLba.toNat = fs.sectorLba cluster 0 :=
  fs.laid.clusterLba_spec h.not_bad

theorem readSector_eq (hfirst : firstLba.toNat = fs.sectorLba cluster 0) {i : ℕ}
    (hi : i < fs.geometry.sectorsPerCluster.toNat) :
    ∃ lba sector, Checked.add firstLba (BitVec.ofNat 64 i) = some lba ∧
      fs.readSector lba = .ok sector ∧ sector.1 = fs.sectorBytes (fs.sectorLba cluster i) := by
  obtain ⟨sector, hsector⟩ := h.reads i hi
  obtain ⟨lba, hadd, hread⟩ := fs.readSector_at h.not_bad hfirst hi
  refine ⟨lba, sector, hadd, ?_, (sectorBytes_eq hsector).symm⟩
  rw [readSector, hread, hsector]

end

end Readable

theorem length_le_clusterCount {clusters : List U32} (hnodup : clusters.Nodup)
    (hreadable : ∀ c ∈ clusters, fs.Readable c) :
    clusters.length ≤ fs.geometry.clusterCount.toNat := by
  have hmap : (clusters.map BitVec.toNat).Nodup :=
    hnodup.map (fun _ _ h ↦ BitVec.eq_of_toNat_eq h)
  have hsubset : clusters.map BitVec.toNat ⊆ List.range' 2 fs.geometry.clusterCount.toNat := by
    intro n hn
    obtain ⟨cluster, hmem, rfl⟩ := List.mem_map.mp hn
    have hvalid := (hreadable cluster hmem).valid
    rw [List.mem_range'_1]
    omega
  have hle := (hmap.subperm hsubset).length_le
  rwa [List.length_map, List.length_range'] at hle

variable {written : ℕ}

theorem copyFromSlice_eq {buffer source : Bytes} {start count : ℕ}
    (hb : written + count ≤ buffer.length) (hs : start + count ≤ source.length) :
    copyFromSlice buffer written source start count =
      some (splice buffer written ((source.drop start).take count)) :=
  if_pos ⟨hb, hs⟩

def copied (wanted written : ℕ) (data buffer : Bytes) : Bytes × ReadStep :=
  if wanted - written ≤ data.length then
    (splice buffer written (data.take (wanted - written)), .finished (.ok wanted))
  else (splice buffer written data, .more (written + data.length))

variable {wanted : ℕ}

theorem copied_nil (buffer : Bytes) (h : written < wanted) :
    copied wanted written [] buffer = (buffer, .more written) := by
  have hmore : ¬ wanted - written ≤ ([] : Bytes).length := by
    rw [List.length_nil]
    omega
  rw [copied, if_neg hmore, Chunks.splice_nil, List.length_nil, Nat.add_zero]

theorem copied_of_le {a : Bytes} (b buffer : Bytes) (h : wanted - written ≤ a.length) :
    copied wanted written (a ++ b) buffer =
      (splice buffer written (a.take (wanted - written)), .finished (.ok wanted)) := by
  have hwhole : wanted - written ≤ (a ++ b).length := by
    rw [List.length_append]
    omega
  rw [copied, if_pos hwhole, List.take_append_of_le_length h]

theorem copied_append {a buffer : Bytes} (b : Bytes) (h : a.length < wanted - written)
    (hb : written + a.length ≤ buffer.length) :
    copied wanted written (a ++ b) buffer =
      copied wanted (written + a.length) b (splice buffer written a) := by
  have hall : a.take (wanted - written) = a := List.take_of_length_le h.le
  rw [copied, copied, List.length_append, Chunks.splice_splice hb, Chunks.splice_splice hb]
  by_cases hlast : wanted - (written + a.length) ≤ b.length
  · rw [if_pos hlast, if_pos (by omega), List.take_append, hall, Nat.sub_add_eq]
  · rw [if_neg hlast, if_neg (by omega), Nat.add_assoc]

theorem Readable.readSectors_ahead (h : fs.Readable cluster)
    (hfirst : firstLba.toNat = fs.sectorLba cluster 0) (n i sectorOffset written : ℕ)
    (buffer : Bytes) (hin : n ≤ fs.geometry.sectorsPerCluster.toNat - i)
    (hoffset : sectorOffset < sectorSize) (hw : written < wanted) (hb : wanted ≤ buffer.length) :
    fs.readSectors firstLba wanted n i sectorOffset written buffer =
      some (copied wanted written (fs.ahead cluster i n sectorOffset) buffer) := by
  induction n generalizing i sectorOffset written buffer with
  | zero =>
    have hnil : fs.ahead cluster i 0 sectorOffset = [] := List.drop_nil
    rw [readSectors, hnil, copied_nil buffer hw]
  | succ n ih =>
    obtain ⟨lba, sector, hadd, hsector, hdata⟩ := h.readSector_eq hfirst (show i < _ by omega)
    have hlen : sector.1.length = sectorSize := sector.2
    have htail : (sector.1.drop sectorOffset).length = sectorSize - sectorOffset := by
      rw [List.length_drop, hlen]
    have hahead : fs.ahead cluster i (n + 1) sectorOffset =
        sector.1.drop sectorOffset ++ fs.ahead cluster (i + 1) n 0 := by
      rw [ahead, List.range'_succ, List.flatMap_cons, ← hdata,
        List.drop_append_of_le_length (by omega), ahead, List.drop_zero]
    rw [readSectors, hadd, Option.bind_eq_bind, Option.bind_some, hsector]
    dsimp only
    rw [copyFromSlice_eq (by omega) (by omega), Option.bind_eq_bind, Option.bind_some, hahead]
    by_cases hlast : wanted - written ≤ sectorSize - sectorOffset
    · -- The request ends in this sector.
      rw [Nat.min_eq_right hlast, if_pos (by omega), copied_of_le _ _ (by omega),
        Nat.add_sub_cancel' hw.le]
    · have hcount : sectorSize - sectorOffset ≤ wanted - written := by omega
      have hfits : written + (sector.1.drop sectorOffset).length ≤ buffer.length := by omega
      rw [Nat.min_eq_left hcount, if_neg (by omega), List.take_of_length_le htail.le, ← htail,
        copied_append _ (by omega) hfits]
      apply ih
      · omega
      · decide
      · omega
      · rwa [Chunks.length_splice hfits]

theorem Readable.readSectors_eq (h : fs.Readable cluster)
    (hfirst : firstLba.toNat = fs.sectorLba cluster 0) (clusterOffset : ℕ) {buffer : Bytes}
    (hw : written < wanted) (hb : wanted ≤ buffer.length) :
    fs.readSectors firstLba wanted
      (fs.geometry.sectorsPerCluster.toNat - clusterOffset / sectorSize)
      (clusterOffset / sectorSize) (clusterOffset % sectorSize) written buffer =
      some (copied wanted written ((fs.clusterBytes cluster).drop clusterOffset) buffer) := by
  rw [h.drop_clusterBytes]
  exact h.readSectors_ahead hfirst _ _ _ _ _ le_rfl (Nat.mod_lt _ (by decide)) hw hb

end BraneKernel.Fat32Fs
