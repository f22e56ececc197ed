import BraneKernel.Fat32.Geometry

namespace BraneKernel.Fat32Geometry

variable {boot : Fat32BootSector} {partitionLba deviceBlocks firstDataSector : U64}
variable {partitionSectors : Option U64}

structure Laid (g : Fat32Geometry) (boot : Fat32BootSector) (partitionLba deviceBlocks : U64) :
    Prop where
  start : g.partitionLba = partitionLba
  fat : g.fatLba.toNat = partitionLba.toNat + boot.reservedSectors.toNat
  data : g.dataLba.toNat = g.fatLba.toNat + boot.fatCount.toNat * boot.sectorsPerFat32.toNat
  stop : g.dataLba.toNat + g.clusterCount.toNat * g.sectorsPerCluster.toNat ≤
    partitionLba.toNat + boot.totalSectors.toNat
  device : partitionLba.toNat + boot.totalSectors.toNat ≤ deviceBlocks.toNat
  entries : g.clusterCount.toNat + 2 ≤ boot.sectorsPerFat32.toNat * 128
  copies : 0 < boot.fatCount.toNat
  sectors : 0 < g.sectorsPerCluster.toNat

structure Bounded (boot : Fat32BootSector) (partitionLba deviceBlocks firstDataSector : U64) :
    Prop where
  sectors : 0 < boot.sectorsPerCluster.toNat
  copies : 0 < boot.fatCount.toNat
  first : firstDataSector.toNat =
    boot.reservedSectors.toNat + boot.fatCount.toNat * boot.sectorsPerFat32.toNat
  room : firstDataSector.toNat < boot.totalSectors.toNat
  device : partitionLba.toNat + boot.totalSectors.toNat ≤ deviceBlocks.toNat

theorem clusters_le {sectors : U64} {n : BitVec 8} (h : sectors.toNat < 2 ^ 32) :
    ((sectors / n.setWidth 64).setWidth 32).toNat * n.toNat ≤ sectors.toNat := by
  have hle := Nat.div_le_self sectors.toNat n.toNat
  rw [BitVec.toNat_setWidth, BitVec.toNat_udiv, Checked.toNat_widen (by omega),
    Nat.mod_eq_of_lt (by omega)]
  exact Nat.div_mul_le_self ..

theorem entries_spec (boot : Fat32BootSector) (clusterCount : U32) :
    ∃ fatEntries neededEntries,
      Checked.mul (boot.sectorsPerFat32.setWidth 64) (512 / 4) = some fatEntries ∧
      Checked.add (clusterCount.setWidth 64) 2 = some neededEntries ∧
      (¬ fatEntries < neededEntries →
        clusterCount.toNat + 2 ≤ boot.sectorsPerFat32.toNat * 128) := by
  have hf := boot.sectorsPerFat32.isLt
  have hc := clusterCount.isLt
  have hfat := Checked.toNat_widen (show 32 ≤ 64 by omega) boot.sectorsPerFat32
  have hwide := Checked.toNat_widen (show 32 ≤ 64 by omega) clusterCount
  obtain ⟨fatEntries, hmul, hentries⟩ := Checked.mul_of_lt
    (show (boot.sectorsPerFat32.setWidth 64).toNat * (512 / 4 : U64).toNat < 2 ^ 64 by
      rw [hfat]
      exact (Nat.mul_le_mul_right 128 hf.le).trans_lt (by decide))
  obtain ⟨neededEntries, hadd, hneeded⟩ := Checked.add_of_lt
    (show (clusterCount.setWidth 64).toNat + (2 : U64).toNat < 2 ^ 64 by
      rw [hwide, show (2 : U64).toNat = 2 from rfl]
      omega)
  refine ⟨fatEntries, neededEntries, hmul, hadd, ?_⟩
  intro hentry
  have hle := BitVec.le_def.mp (BitVec.not_lt.mp hentry)
  rwa [hneeded, hentries, hwide, hfat] at hle

theorem layout_spec (h : Bounded boot partitionLba deviceBlocks firstDataSector) :
    ∃ res, layout boot partitionLba (boot.totalSectors.setWidth 64) firstDataSector = some res ∧
      ∀ g, res = .ok g → g.Laid boot partitionLba deviceBlocks := by
  have hroom := h.room
  have ht := boot.totalSectors.isLt
  have htotal := Checked.toNat_widen (show 32 ≤ 64 by omega) boot.totalSectors
  obtain ⟨dataSectors, hsub, hdata⟩ :=
    Checked.sub_of_le (show firstDataSector.toNat ≤ (boot.totalSectors.setWidth 64).toNat by omega)
  rw [layout, hsub, Option.bind_eq_bind, Option.bind_some]
  have hused := clusters_le (n := boot.sectorsPerCluster)
    (show dataSectors.toNat < 2 ^ 32 by omega)
  generalize (dataSectors / boot.sectorsPerCluster.setWidth 64).setWidth 32 = clusterCount at hused
  dsimp only
  split_ifs with hsmall
  · exact ⟨_, rfl, by simp⟩
  obtain ⟨fatEntries, neededEntries, hmul, hadd, hfits⟩ := entries_spec boot clusterCount
  rw [hmul, Option.bind_some, hadd, Option.bind_some]
  split_ifs with hentry
  · exact ⟨_, rfl, by simp⟩
  have hd := deviceBlocks.isLt
  have hfirst := h.first
  have hdevice := h.device
  have hreserved := Checked.toNat_widen (show 16 ≤ 64 by omega) boot.reservedSectors
  obtain ⟨fatLba, hfatLba, hfatAt⟩ := Checked.add_of_lt
    (show partitionLba.toNat + (boot.reservedSectors.setWidth 64).toNat < 2 ^ 64 by omega)
  obtain ⟨dataLba, hdataLba, hdataAt⟩ := Checked.add_of_lt
    (show partitionLba.toNat + firstDataSector.toNat < 2 ^ 64 by omega)
  rw [hreserved] at hfatAt
  rw [hfatLba, Option.bind_some, hdataLba, Option.bind_some]
  refine ⟨_, rfl, ?_⟩
  intro g hg
  cases hg
  have hspc := Checked.toNat_widen (show 8 ≤ 32 by omega) boot.sectorsPerCluster
  constructor
  · rfl
  · exact hfatAt
  · rw [hdataAt, hfatAt, h.first, Nat.add_assoc]
  · rw [hdataAt, hspc]
    dsimp only
    omega
  · exact h.device
  · exact hfits hentry
  · exact h.copies
  · rw [hspc]
    exact h.sectors

theorem parse_spec (boot : Fat32BootSector) (partitionLba : U64) (partitionSectors : Option U64)
    (deviceBlocks : U64) :
    ∃ res, parse boot partitionLba partitionSectors deviceBlocks = some res ∧
      ∀ g, res = .ok g → g.Laid boot partitionLba deviceBlocks ∧
        ∀ sectors, partitionSectors = some sectors →
          boot.totalSectors.toNat ≤ sectors.toNat := by
  rw [parse]
  split_ifs with hs
  · exact ⟨_, rfl, by simp⟩
  cases hmul : Checked.mul (boot.fatCount.setWidth 64) (boot.sectorsPerFat32.setWidth 64) with
  | none => exact ⟨_, rfl, by simp⟩
  | some fatSectors =>
    cases hadd : Checked.add (boot.reservedSectors.setWidth 64) fatSectors with
    | none =>
      simp only [hadd]
      exact ⟨_, rfl, by simp⟩
    | some firstDataSector =>
      have hfirst := Checked.add_eq_some_iff.mp hadd
      rw [Checked.mul_eq_some_iff.mp hmul, Checked.toNat_widen (by omega),
        Checked.toNat_widen (by omega), Checked.toNat_widen (by omega)] at hfirst
      simp only [hadd]
      split_ifs with hb
      · exact ⟨_, rfl, by simp⟩
      have htotal := Checked.toNat_widen (show 32 ≤ 64 by omega) boot.totalSectors
      simp only [Unsupported, not_or] at hs
      simp only [OutOfBounds, not_or] at hb
      obtain ⟨hroom, hpart, hdevice⟩ := hb
      have hbounded : Bounded boot partitionLba deviceBlocks firstDataSector := by
        refine ⟨?_, ?_, hfirst, ?_, ?_⟩
        · exact Nat.pos_of_ne_zero (fun h ↦ hs.2.1 (BitVec.eq_of_toNat_eq h))
        · exact Nat.pos_of_ne_zero (fun h ↦ hs.2.2.2.2.2.1 (BitVec.eq_of_toNat_eq h))
        · rw [← htotal]
          exact BitVec.lt_def.mp (BitVec.not_le.mp hroom)
        · cases hsum : Checked.add partitionLba (boot.totalSectors.setWidth 64) with
          | none =>
            rw [hsum] at hdevice
            exact absurd rfl hdevice
          | some stop =>
            rw [hsum, Option.all_some, decide_eq_true_eq] at hdevice
            have hstop := Checked.add_eq_some_iff.mp hsum
            rw [← htotal, ← hstop]
            exact BitVec.le_def.mp (BitVec.not_lt.mp hdevice)
      obtain ⟨res, hres, hlaid⟩ := layout_spec hbounded
      refine ⟨res, hres, fun g hg ↦ ⟨hlaid g hg, fun sectors h ↦ ?_⟩⟩
      rw [h, Option.any_some, decide_eq_true_eq] at hpart
      rw [← htotal]
      exact BitVec.le_def.mp (BitVec.not_lt.mp hpart)

end BraneKernel.Fat32Geometry
