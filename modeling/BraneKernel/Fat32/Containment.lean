import BraneKernel.Fat32.Layout
import Mathlib.Order.Interval.Set.Basic

namespace BraneKernel.Fat32Geometry

variable {boot : Fat32BootSector} {g : Fat32Geometry} {cluster : U32}
variable {partitionLba deviceBlocks : U64}

def firstFat (g : Fat32Geometry) (boot : Fat32BootSector) : Set ℕ :=
  Set.Ico g.fatLba.toNat (g.fatLba.toNat + boot.sectorsPerFat32.toNat)

def fatArea (g : Fat32Geometry) (boot : Fat32BootSector) : Set ℕ :=
  Set.Ico g.fatLba.toNat
    (g.fatLba.toNat + boot.fatCount.toNat * boot.sectorsPerFat32.toNat)

def dataArea (g : Fat32Geometry) : Set ℕ :=
  Set.Ico g.dataLba.toNat
    (g.dataLba.toNat + g.clusterCount.toNat * g.sectorsPerCluster.toNat)

def volume (boot : Fat32BootSector) (partitionLba : U64) : Set ℕ :=
  Set.Ico partitionLba.toNat (partitionLba.toNat + boot.totalSectors.toNat)

namespace Laid

variable (h : g.Laid boot partitionLba deviceBlocks)
include h

theorem fat_le_data : g.fatLba.toNat + boot.sectorsPerFat32.toNat ≤ g.dataLba.toNat := by
  have hle := Nat.mul_le_mul_right boot.sectorsPerFat32.toNat h.copies
  have hdata := h.data
  omega

theorem clusterCount_lt : g.clusterCount.toNat + 1 < 2 ^ 32 := by
  have hle := Nat.mul_le_mul_left g.clusterCount.toNat h.sectors
  have hfat := h.fat
  have hdata := h.fat_le_data
  have hstop := h.stop
  have hentries := h.entries
  have ht := boot.totalSectors.isLt
  omega

theorem badCluster_iff :
    g.BadCluster cluster ↔ cluster.toNat < 2 ∨ g.clusterCount.toNat + 1 < cluster.toNat := by
  rw [BadCluster, gt_iff_lt, BitVec.lt_def, BitVec.lt_def,
    Checked.saturatingSucc_toNat h.clusterCount_lt]
  rfl

theorem cluster_stop (hc : ¬ g.BadCluster cluster) :
    (cluster.toNat - 2) * g.sectorsPerCluster.toNat + g.sectorsPerCluster.toNat ≤
      g.clusterCount.toNat * g.sectorsPerCluster.toNat := by
  rw [h.badCluster_iff] at hc
  have hle := Nat.mul_le_mul_right g.sectorsPerCluster.toNat
    (show cluster.toNat - 2 + 1 ≤ g.clusterCount.toNat by omega)
  rwa [Nat.add_one_mul] at hle

theorem clusterLba_spec (hc : ¬ g.BadCluster cluster) :
    ∃ lba, g.clusterLba cluster = some (.ok lba) ∧
      lba.toNat = g.dataLba.toNat + (cluster.toNat - 2) * g.sectorsPerCluster.toNat := by
  have hstop := h.cluster_stop hc
  have hlast := h.stop
  have hdevice := h.device
  have hd := deviceBlocks.isLt
  have htwo : (2 : U32).toNat ≤ cluster.toNat := by
    rw [h.badCluster_iff] at hc
    rw [show (2 : U32).toNat = 2 from rfl]
    omega
  obtain ⟨index, hsub, hindex⟩ := Checked.sub_of_le htwo
  have hat : index.toNat = cluster.toNat - 2 := by
    rw [← hindex]
    exact (Nat.add_sub_cancel ..).symm
  have hwide := Checked.toNat_widen (show 32 ≤ 64 by omega) index
  have hspc := Checked.toNat_widen (show 32 ≤ 64 by omega) g.sectorsPerCluster
  obtain ⟨sectors, hmul, hsectors⟩ := Checked.mul_of_lt
    (show (index.setWidth 64).toNat * (g.sectorsPerCluster.setWidth 64).toNat < 2 ^ 64 by
      rw [hwide, hspc, hat]
      omega)
  rw [hwide, hspc, hat] at hsectors
  obtain ⟨lba, hadd, hlba⟩ := Checked.add_of_lt
    (show g.dataLba.toNat + sectors.toNat < 2 ^ 64 by omega)
  refine ⟨lba, ?_, by rw [hlba, hsectors]⟩
  rw [clusterLba, if_neg hc]
  simp only [hsub, hmul, hadd, Option.bind_eq_bind, Option.bind_some]

theorem fatArea_subset : g.fatArea boot ⊆ volume boot partitionLba := by
  have hstop := h.stop
  have hfat := h.fat
  have hdata := h.data
  apply Set.Ico_subset_Ico <;> omega

theorem dataArea_subset : g.dataArea ⊆ volume boot partitionLba := by
  have hfat := h.fat
  have hdata := h.data
  apply Set.Ico_subset_Ico _ h.stop
  omega

theorem volume_subset : volume boot partitionLba ⊆ Set.Iio deviceBlocks.toNat := by
  intro lba hlba
  exact hlba.2.trans_le h.device

theorem fatPosition_mem (hc : ¬ g.BadCluster cluster) :
    ∃ lba offset, g.fatPosition cluster = some (lba, offset) ∧ lba.toNat ∈ g.firstFat boot ∧
      offset + 4 ≤ sectorSize := by
  have hentries := h.entries
  have hdata := h.fat_le_data
  have hb := g.dataLba.isLt
  have hwide := Checked.toNat_widen (show 32 ≤ 64 by omega) cluster
  have hcluster := cluster.isLt
  rw [h.badCluster_iff] at hc
  obtain ⟨fatOffset, hmul, hoffset⟩ := Checked.mul_of_lt
    (show (cluster.setWidth 64).toNat * (4 : U64).toNat < 2 ^ 64 by
      rw [hwide, show (4 : U64).toNat = 4 from rfl]
      omega)
  rw [hwide, show (4 : U64).toNat = 4 from rfl] at hoffset
  have hdiv : (fatOffset / 512).toNat = cluster.toNat / 128 := by
    rw [BitVec.toNat_udiv, hoffset, show (512 : U64).toNat = 512 from rfl]
    omega
  have hmod : (fatOffset % 512).toNat = cluster.toNat % 128 * 4 := by
    rw [BitVec.toNat_umod, hoffset, show (512 : U64).toNat = 512 from rfl]
    omega
  obtain ⟨lba, hadd, hlba⟩ := Checked.add_of_lt
    (show g.fatLba.toNat + (fatOffset / 512).toNat < 2 ^ 64 by omega)
  refine ⟨lba, cluster.toNat % 128 * 4, ?_, ⟨?_, ?_⟩, ?_⟩
  · rw [fatPosition]
    simp only [hmul, hadd, hmod, Option.bind_eq_bind, Option.bind_some]
  · omega
  · omega
  · rw [sectorSize]
    omega

theorem nextCluster_isSome (readSector : U64 → Except Fat32Error Sector) (cluster : U32) :
    (g.nextCluster readSector cluster).isSome := by
  rw [nextCluster]
  split_ifs with hc
  · rfl
  obtain ⟨lba, offset, hpos, -, hoffset⟩ := h.fatPosition_mem hc
  rw [hpos, Option.bind_eq_bind, Option.bind_some]
  dsimp only
  cases readSector lba with
  | error e => rfl
  | ok sector =>
    have hin : offset + 4 ≤ sector.1.length := by rwa [sector.2]
    dsimp only
    rw [dif_pos hin]
    rfl

end Laid

/-- No arithmetic of the geometry overflows, and every sector it computes lies in its area of the
volume. A lookup in the FAT depends on no sector outside the first FAT. -/
theorem stays_in_volume (boot : Fat32BootSector) (partitionLba : U64)
    (partitionSectors : Option U64) (deviceBlocks : U64) :
    ∃ res, parse boot partitionLba partitionSectors deviceBlocks = some res ∧
      ∀ g, res = .ok g →
        (∀ lba ∈ g.fatArea boot, lba ∉ g.dataArea) ∧ g.firstFat boot ⊆ g.fatArea boot ∧
        g.fatArea boot ⊆ volume boot partitionLba ∧ g.dataArea ⊆ volume boot partitionLba ∧
        (∀ sectors, partitionSectors = some sectors →
          volume boot partitionLba ⊆
            Set.Ico partitionLba.toNat (partitionLba.toNat + sectors.toNat)) ∧
        volume boot partitionLba ⊆ Set.Iio deviceBlocks.toNat ∧
        ∀ cluster,
          (∃ res, g.clusterLba cluster = some res ∧ ∀ lba, res = .ok lba →
            ∀ i : U64, i.toNat < g.sectorsPerCluster.toNat →
              ∃ sector, Checked.add lba i = some sector ∧ sector.toNat ∈ g.dataArea) ∧
          (¬ g.BadCluster cluster → ∃ lba offset, g.fatPosition cluster = some (lba, offset) ∧
            lba.toNat ∈ g.firstFat boot ∧ offset + 4 ≤ sectorSize) ∧
          (∀ readSector, (g.nextCluster readSector cluster).isSome) ∧
          ∀ readSector readSector' : U64 → Except Fat32Error Sector,
            (∀ lba, lba.toNat ∈ g.firstFat boot → readSector lba = readSector' lba) →
            g.nextCluster readSector cluster = g.nextCluster readSector' cluster := by
  obtain ⟨res, hres, hok⟩ := parse_spec boot partitionLba partitionSectors deviceBlocks
  refine ⟨res, hres, ?_⟩
  intro g hg
  obtain ⟨h, hpart⟩ := hok g hg
  refine ⟨?_, ?_, h.fatArea_subset, h.dataArea_subset, fun sectors hs ↦ ?_, h.volume_subset,
    fun cluster ↦ ⟨?_, h.fatPosition_mem, (h.nextCluster_isSome · cluster), ?_⟩⟩
  · rw [fatArea, dataArea, ← h.data]
    intro lba hfat hdata
    exact absurd hfat.2 (Nat.not_lt.mpr hdata.1)
  · apply Set.Ico_subset_Ico_right
    rw [← h.data]
    exact h.fat_le_data
  · exact Set.Ico_subset_Ico_right (Nat.add_le_add_left (hpart sectors hs) _)
  · by_cases hc : g.BadCluster cluster
    · exact ⟨_, if_pos hc, by simp⟩
    obtain ⟨lba, hlba, hat⟩ := h.clusterLba_spec hc
    refine ⟨_, hlba, ?_⟩
    intro lba' hl i hi
    cases hl
    have hcluster := h.cluster_stop hc
    have hstop := h.stop
    have hdevice := h.device
    have hd := deviceBlocks.isLt
    obtain ⟨sector, hadd, hsector⟩ := Checked.add_of_lt (show lba.toNat + i.toNat < 2 ^ 64 by omega)
    refine ⟨sector, hadd, ?_, ?_⟩ <;> omega
  · intro readSector readSector' hread
    rw [nextCluster, nextCluster]
    split_ifs with hc
    · rfl
    obtain ⟨lba, offset, hpos, hmem, -⟩ := h.fatPosition_mem hc
    rw [hpos, Option.bind_eq_bind, Option.bind_some, Option.bind_some]
    dsimp only
    rw [hread lba hmem]

def sampleBoot : Fat32BootSector where
  bytesPerSector := 512
  sectorsPerCluster := 1
  reservedSectors := 32
  fatCount := 2
  rootDirEntries := 0
  totalSectors16 := 0
  sectorsPerFat16 := 0
  totalSectors32 := 67232
  sectorsPerFat32 := 600
  fsVersion := 0
  rootCluster := 2

theorem stays_in_volume_sample :
    ∃ g, parse sampleBoot 2048 (some 70000) 80000 = some (.ok g) ∧
      g.dataArea ⊆ volume sampleBoot 2048 ∧ volume sampleBoot 2048 ⊆ Set.Iio 80000 := by
  obtain ⟨res, hres, hok⟩ := stays_in_volume sampleBoot 2048 (some 70000) 80000
  have hparse : parse sampleBoot 2048 (some 70000) 80000 =
      some (.ok ⟨2048, 2080, 3280, 1, 66000, 2⟩) := by decide
  rw [hparse] at hres
  obtain ⟨-, -, -, hdata, -, hdevice, -⟩ := hok _ (Option.some.inj hres).symm
  exact ⟨_, hparse, hdata, hdevice⟩

end BraneKernel.Fat32Geometry
