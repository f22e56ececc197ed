import BraneKernel.Fat32.Contents
import Mathlib.Data.List.Chain

namespace BraneKernel.Fat32Fs

open Chunks (splice)

variable {fs : Fat32Fs} {cluster : U32}

theorem followCluster_eq {next : U32} (h : fs.nextCluster cluster = some (.ok (some next))) :
    fs.followCluster cluster = some (.ok next) := by
  rw [followCluster, h, Option.bind_eq_bind, Option.bind_some]

section Turn

variable {wanted fuel clusterOffset traversed written : ℕ} {buffer : Bytes}

theorem Readable.readClusters_last (h : fs.Readable cluster) (hw : written < wanted)
    (hb : wanted ≤ buffer.length)
    (hlast : wanted - written ≤ ((fs.clusterBytes cluster).drop clusterOffset).length) :
    fs.readClusters wanted (fuel + 1) cluster clusterOffset traversed written buffer =
      some (splice buffer written
        (((fs.clusterBytes cluster).drop clusterOffset).take (wanted - written)), .ok wanted) := by
  obtain ⟨firstLba, hlba, hfirst⟩ := h.clusterLba_eq
  rw [readClusters, if_pos hw, hlba, Option.bind_eq_bind, Option.bind_some]
  dsimp only
  rw [h.readSectors_eq hfirst clusterOffset hw hb, Option.bind_eq_bind, Option.bind_some, copied,
    if_pos hlast]

end Turn

theorem Readable.drop_flatMap (h : fs.Readable cluster) (rest : List U32) {clusterOffset : ℕ}
    (hoffset : clusterOffset < fs.clusterSize) :
    ((cluster :: rest).flatMap fs.clusterBytes).drop clusterOffset =
      (fs.clusterBytes cluster).drop clusterOffset ++ rest.flatMap fs.clusterBytes := by
  have hle : clusterOffset ≤ (fs.clusterBytes cluster).length := by
    rw [h.length_clusterBytes]
    exact hoffset.le
  rw [List.flatMap_cons, List.drop_append_of_le_length hle]

theorem readClusters_eq {wanted : ℕ} (rest : List U32) (fuel clusterOffset traversed written : ℕ)
    (buffer : Bytes)
    (hlinked : (cluster :: rest).IsChain fun c d ↦ fs.nextCluster c = some (.ok (some d)))
    (hreadable : ∀ c ∈ cluster :: rest, fs.Readable c) (hfuel : rest.length < fuel)
    (htraversed : traversed + rest.length ≤ fs.geometry.clusterCount.toNat)
    (hw : written < wanted) (hb : wanted ≤ buffer.length) (hoffset : clusterOffset < fs.clusterSize)
    (henough : wanted - written ≤
      (((cluster :: rest).flatMap fs.clusterBytes).drop clusterOffset).length) :
    fs.readClusters wanted fuel cluster clusterOffset traversed written buffer =
      some (splice buffer written
        ((((cluster :: rest).flatMap fs.clusterBytes).drop clusterOffset).take (wanted - written)),
        .ok wanted) := by
  induction rest generalizing cluster fuel clusterOffset traversed written buffer with
  | nil =>
    have hhead := hreadable cluster List.mem_cons_self
    obtain ⟨fuel, rfl⟩ := Nat.exists_eq_succ_of_ne_zero (Nat.ne_of_gt hfuel)
    rw [hhead.drop_flatMap [] hoffset, List.flatMap_nil, List.append_nil] at henough ⊢
    exact hhead.readClusters_last hw hb henough
  | cons next rest ih =>
    have hhead := hreadable cluster List.mem_cons_self
    obtain ⟨hnext, hrest⟩ := List.isChain_cons_cons.mp hlinked
    obtain ⟨fuel, rfl⟩ := Nat.exists_eq_succ_of_ne_zero (Nat.ne_of_gt (Nat.zero_lt_of_lt hfuel))
    rw [hhead.drop_flatMap _ hoffset] at henough ⊢
    rw [List.length_cons] at hfuel htraversed
    by_cases hlast : wanted - written ≤ ((fs.clusterBytes cluster).drop clusterOffset).length
    · rw [hhead.readClusters_last hw hb hlast, List.take_append_of_le_length hlast]
    · have hmore := Nat.not_le.mp hlast
      have hfits : written + ((fs.clusterBytes cluster).drop clusterOffset).length ≤
          buffer.length := by omega
      have hall : ((fs.clusterBytes cluster).drop clusterOffset).take (wanted - written) =
          (fs.clusterBytes cluster).drop clusterOffset := List.take_of_length_le hmore.le
      rw [List.length_append] at henough
      obtain ⟨firstLba, hlba, hfirst⟩ := hhead.clusterLba_eq
      rw [readClusters, if_pos hw, hlba, Option.bind_eq_bind, Option.bind_some]
      dsimp only
      rw [hhead.readSectors_eq hfirst clusterOffset hw hb, Option.bind_eq_bind, Option.bind_some,
        copied, if_neg hlast]
      dsimp only
      rw [if_neg (by omega), followCluster_eq hnext, Option.bind_eq_bind, Option.bind_some]
      dsimp only
      rw [ih fuel 0, List.drop_zero, Chunks.splice_splice hfits, List.take_append, hall,
        Nat.sub_add_eq]
      · exact hrest
      · intro c hc
        exact hreadable c (List.mem_cons_of_mem cluster hc)
      · omega
      · omega
      · omega
      · rwa [Chunks.length_splice hfits]
      · omega
      · rw [List.drop_zero]
        omega

theorem skipClusters_eq (k : ℕ) (rest : List U32) (traversed : ℕ)
    (hlinked : (cluster :: rest).IsChain fun c d ↦ fs.nextCluster c = some (.ok (some d)))
    (hk : k ≤ rest.length) (htraversed : traversed + rest.length ≤ fs.geometry.clusterCount.toNat) :
    ∃ next rest', (cluster :: rest).drop k = next :: rest' ∧
      fs.skipClusters k cluster traversed = some (.ok (next, traversed + k)) := by
  induction k generalizing cluster rest traversed with
  | zero => exact ⟨cluster, rest, List.drop_zero, by rw [skipClusters, Nat.add_zero]⟩
  | succ k ih =>
    cases rest with
    | nil => exact absurd hk (Nat.not_succ_le_zero k)
    | cons next rest =>
      obtain ⟨hnext, hrest⟩ := List.isChain_cons_cons.mp hlinked
      rw [List.length_cons] at hk htraversed
      obtain ⟨last, rest', hdrop, hskip⟩ := ih rest (traversed + 1) hrest (by omega) (by omega)
      refine ⟨last, rest', by rw [List.drop_succ_cons, hdrop], ?_⟩
      rw [skipClusters, followCluster_eq hnext, Option.bind_eq_bind, Option.bind_some]
      dsimp only
      rw [if_neg (by omega), hskip, Nat.add_right_comm, Nat.add_assoc]

namespace FileChain

variable {record : DirectoryRecord} (chain : fs.FileChain record)

theorem length_clusters_le : chain.clusters.length ≤ fs.geometry.clusterCount.toNat :=
  length_le_clusterCount chain.acyclic chain.readable

theorem length_bytes : chain.bytes.length = chain.clusters.length * fs.clusterSize := by
  apply Chunks.length_flatMap
  intro cluster hmem
  exact (chain.readable cluster hmem).length_clusterBytes

theorem length_slice (offset n : ℕ) :
    (chain.slice offset n).length = min n (record.size.toNat - offset) := by
  have henough := chain.enough
  rw [slice, List.length_take, List.length_drop, List.length_take, chain.length_bytes,
    Nat.min_eq_left henough]

theorem slice_eq (offset n : ℕ) :
    chain.slice offset n = (chain.bytes.drop offset).take (min n (record.size.toNat - offset)) := by
  rw [slice, List.drop_take, List.take_take]

theorem drop_bytes (offset : ℕ) :
    chain.bytes.drop offset =
      ((chain.clusters.drop (offset / fs.clusterSize)).flatMap fs.clusterBytes).drop
        (offset % fs.clusterSize) := by
  have hlengths : ∀ cluster ∈ chain.clusters,
      (fs.clusterBytes cluster).length = fs.clusterSize := by
    intro cluster hmem
    exact (chain.readable cluster hmem).length_clusterBytes
  rw [← Chunks.drop_flatMap hlengths, List.drop_drop, Nat.div_add_mod', bytes]

end FileChain

theorem clusterSize_pos (fs : Fat32Fs) : 0 < fs.clusterSize :=
  Nat.mul_pos fs.laid.sectors (by decide)

variable {record : DirectoryRecord}

section

variable (chain : fs.FileChain record)
include chain

theorem FileChain.exists_cons (h : 0 < record.size.toNat) :
    ∃ rest, chain.clusters = record.firstCluster :: rest := by
  have henough := chain.enough
  have hhead := chain.head
  cases hclusters : chain.clusters with
  | nil =>
    rw [hclusters, List.length_nil, Nat.zero_mul] at henough
    omega
  | cons cluster rest =>
    rw [hclusters] at hhead
    exact ⟨rest, by rw [hhead cluster rfl]⟩

theorem FileChain.locate {offset : ℕ} (h : offset < record.size.toNat) :
    ∃ next rest, chain.clusters.drop (offset / fs.clusterSize) = next :: rest ∧
      offset / fs.clusterSize + rest.length < fs.geometry.clusterCount.toNat ∧
      fs.skipClusters (offset / fs.clusterSize) record.firstCluster 0 =
        some (.ok (next, offset / fs.clusterSize)) := by
  obtain ⟨rest, hclusters⟩ := chain.exists_cons (Nat.zero_lt_of_lt h)
  have hlinked := chain.linked
  have hcount := chain.length_clusters_le
  have henough := chain.enough
  rw [hclusters] at hlinked
  rw [hclusters, List.length_cons] at hcount henough
  have hk : offset / fs.clusterSize ≤ rest.length :=
    Nat.lt_succ_iff.mp ((Nat.div_lt_iff_lt_mul fs.clusterSize_pos).mpr (h.trans_le henough))
  obtain ⟨next, rest', hdrop, hskip⟩ := skipClusters_eq _ rest 0 hlinked hk (by omega)
  have hlength : offset / fs.clusterSize + rest'.length = rest.length := by
    have hlen := congrArg List.length hdrop
    rw [List.length_drop, List.length_cons, List.length_cons] at hlen
    omega
  rw [Nat.zero_add] at hskip
  refine ⟨next, rest', ?_, ?_, hskip⟩
  · rw [hclusters, hdrop]
  · rw [hlength]
    exact hcount

theorem FileChain.not_firstCluster_lt (h : 0 < record.size.toNat) :
    ¬ record.firstCluster < 2 := by
  obtain ⟨rest, hclusters⟩ := chain.exists_cons h
  have hreadable := chain.readable
  rw [hclusters] at hreadable
  exact Nat.not_lt.mpr (hreadable _ List.mem_cons_self).valid.1

theorem readFile_inside (hfile : record.nodeType = .file) {offset : ℕ} {buffer : Bytes}
    (hoffset : offset < record.size.toNat) (hbuffer : buffer ≠ []) :
    fs.readFile record offset buffer =
      some (splice buffer 0 (chain.slice offset buffer.length),
        .ok (min buffer.length (record.size.toNat - offset))) := by
  obtain ⟨next, rest, hdrop, hcount, hskip⟩ := chain.locate hoffset
  have hfirst := chain.not_firstCluster_lt (Nat.zero_lt_of_lt hoffset)
  have henough := chain.enough
  have hpos := List.length_pos_iff.mpr hbuffer
  have hsome : ¬ (offset ≥ record.size.toNat ∨ buffer = []) := by
    rintro (hpast | hempty)
    · omega
    · exact hbuffer hempty
  have hbytes := chain.drop_bytes offset
  rw [hdrop] at hbytes
  rw [readFile, if_neg (not_not.mpr hfile)]
  dsimp only
  rw [if_neg hsome, if_neg hfirst, hskip, Option.bind_eq_bind, Option.bind_some]
  dsimp only
  rw [readClusters_eq rest, ← hbytes, Nat.sub_zero, chain.slice_eq]
  · rw [← hdrop]
    exact chain.linked.drop _
  · intro c hc
    rw [← hdrop] at hc
    exact chain.readable c (List.mem_of_mem_drop hc)
  · exact Nat.lt_succ_of_le ((Nat.le_add_left ..).trans hcount.le)
  · exact hcount.le
  · omega
  · exact Nat.min_le_left ..
  · exact Nat.mod_lt _ fs.clusterSize_pos
  · rw [← hbytes, List.length_drop, chain.length_bytes]
    omega

theorem readFile_eq (hfile : record.nodeType = .file) (offset : ℕ) (buffer : Bytes) :
    fs.readFile record offset buffer =
      some (chain.slice offset buffer.length ++
        buffer.drop (min buffer.length (record.size.toNat - offset)),
        .ok (min buffer.length (record.size.toNat - offset))) := by
  have hlen := chain.length_slice offset buffer.length
  by_cases hsome : offset ≥ record.size.toNat ∨ buffer = []
  · have hzero : min buffer.length (record.size.toNat - offset) = 0 := by
      rcases hsome with hpast | rfl
      · omega
      · rw [List.length_nil, Nat.zero_min]
    rw [hzero] at hlen ⊢
    rw [readFile, if_neg (not_not.mpr hfile)]
    dsimp only
    rw [if_pos hsome, List.eq_nil_of_length_eq_zero hlen, List.nil_append, List.drop_zero]
  · rw [not_or, ge_iff_le, Nat.not_le] at hsome
    rw [readFile_inside chain hfile hsome.1 hsome.2, Chunks.splice_zero, hlen]

end

/-- A read returns the requested bytes of the file, as many as there are, and leaves the rest of
the buffer as it was. -/
theorem read_file_exact (fs : Fat32Fs) (record : DirectoryRecord)
    (hfile : record.nodeType = .file) (chain : fs.FileChain record) (offset : ℕ)
    (buffer : Bytes) :
    fs.readFile record offset buffer =
      some (chain.slice offset buffer.length ++
        buffer.drop (min buffer.length (record.size.toNat - offset)),
        .ok (min buffer.length (record.size.toNat - offset))) ∧
    (chain.slice offset buffer.length).length =
      min buffer.length (record.size.toNat - offset) :=
  ⟨readFile_eq chain hfile offset buffer, chain.length_slice offset buffer.length⟩

def sampleFs : Fat32Fs where
  device :=
    { info := ⟨512, 67232⟩
      readBlocks := fun lba n ↦ .ok
        ⟨List.ofFn fun i : Fin n ↦
          if lba = 32 then (if i.1 = 12 then 5 else 0) else lba.setWidth 8, List.length_ofFn⟩ }
  bootSector := Fat32Geometry.sampleBoot
  geometry := ⟨0, 32, 1232, 1, 66000, 2⟩
  blockSize := rfl
  mounted := ⟨0, none, by decide⟩

theorem sampleFs_reads (lba : U64) (n : ℕ) :
    ∃ sector, sampleFs.device.readBlocks lba n = .ok sector :=
  ⟨_, rfl⟩

def sampleFile : DirectoryRecord := ⟨[], .file, 3, 600⟩

def sampleChain : sampleFs.FileChain sampleFile where
  clusters := [3, 5]
  head := by simp [sampleFile]
  linked := by
    have hnext : sampleFs.nextCluster 3 = some (.ok (some 5)) := by decide +kernel
    exact .cons_cons hnext (.singleton 5)
  readable := by
    intro cluster hcluster
    have hvalid : 2 ≤ cluster.toNat ∧ cluster.toNat ≤ 66000 + 1 := by
      obtain rfl | rfl := List.mem_pair.mp hcluster <;> decide
    exact ⟨hvalid, fun i _ ↦ sampleFs_reads _ _⟩
  acyclic := by decide
  enough := by decide

theorem read_file_exact_two_clusters :
    sampleFs.readFile sampleFile 510 [0, 0, 0, 0] = some ([209, 209, 211, 211], .ok 4) := by
  rw [(read_file_exact sampleFs sampleFile rfl sampleChain 510 [0, 0, 0, 0]).1]
  decide +kernel

end BraneKernel.Fat32Fs
