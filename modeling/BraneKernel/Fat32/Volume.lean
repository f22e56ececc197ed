import BraneKernel.Block
import BraneKernel.Fat32.Containment

namespace BraneKernel

/-- A mounted volume: its geometry was accepted for the device it is on. -/
structure Fat32Fs where
  device : BlockDeviceHandle
  bootSector : Fat32BootSector
  geometry : Fat32Geometry
  blockSize : device.info.blockSize = 512
  mounted : ∃ partitionLba partitionSectors, Fat32Geometry.parse bootSector partitionLba
    partitionSectors device.info.blockCount = some (.ok geometry)

namespace Fat32Fs

def ofBootSector (device : BlockDeviceHandle) (hsize : device.info.blockSize = 512) (data : Sector)
    (partitionLba : U64) (partitionSectors : Option U64) : Option (Option Fat32Fs) :=
  match Fat32BootSector.parse data.1 with
  | none => some none
  | some bootSector =>
    match h : Fat32Geometry.parse bootSector partitionLba partitionSectors
      device.info.blockCount with
    | none => none
    | some (.error _) => some none
    | some (.ok geometry) =>
      some (some ⟨device, bootSector, geometry, hsize, partitionLba, partitionSectors, h⟩)

/-- One turn of the loop over the partition table. The inner `none` continues the loop. -/
def ofPartition (device : BlockDeviceHandle) (hsize : device.info.blockSize = 512)
    (sector : Sector) (index : Fin 4) : Option (Except Fat32Error (Option Fat32Fs)) :=
  match PartitionEntry.parse (Sector.partition sector index) with
  | none => some (.ok none)
  | some partition =>
    if ¬ partition.isFat32 ∨ partition.startLba = 0 ∨ partition.sectorCount = 0 then
      some (.ok none)
    else
      let startLba : U64 := partition.startLba.setWidth 64
      if startLba ≥ device.info.blockCount then some (.ok none)
      else
        match device.read startLba sectorSize with
        | .error _ => some (.error .io)
        | .ok bootData =>
          (ofBootSector device hsize bootData startLba
            (some (partition.sectorCount.setWidth 64))).map .ok

def scanPartitions (device : BlockDeviceHandle) (hsize : device.info.blockSize = 512)
    (sector : Sector) : List (Fin 4) → Option (Except Fat32Error Fat32Fs)
  | [] => some (.error .noFat32Volume)
  | index :: rest => do
    match ← ofPartition device hsize sector index with
    | .error e => some (.error e)
    | .ok none => scanPartitions device hsize sector rest
    | .ok (some fs) => some (.ok fs)

def fromDevice (device : BlockDeviceHandle) : Option (Except Fat32Error Fat32Fs) :=
  if hsize : device.info.blockSize = 512 then
    match device.read 0 sectorSize with
    | .error _ => some (.error .io)
    | .ok sector => do
      match ← ofBootSector device hsize sector 0 none with
      | some fs => some (.ok fs)
      | none => scanPartitions device hsize sector [0, 1, 2, 3]
  else some (.error .unsupportedGeometry)

def readSector (fs : Fat32Fs) (lba : U64) : Except Fat32Error Sector :=
  match fs.device.read lba sectorSize with
  | .error _ => .error .io
  | .ok sector => .ok sector

def nextCluster (fs : Fat32Fs) (cluster : U32) : Option (Except Fat32Error (Option U32)) :=
  fs.geometry.nextCluster fs.readSector cluster

section

variable (device : BlockDeviceHandle) (hsize : device.info.blockSize = 512)

theorem ofBootSector_spec (data : Sector) (partitionLba : U64) (partitionSectors : Option U64) :
    ∃ found, ofBootSector device hsize data partitionLba partitionSectors = some found ∧
      ∀ fs, found = some fs → fs.device = device := by
  rw [ofBootSector]
  cases Fat32BootSector.parse data.1 with
  | none => exact ⟨none, rfl, by simp⟩
  | some bootSector =>
    obtain ⟨res, hres, -⟩ := Fat32Geometry.parse_spec bootSector partitionLba partitionSectors
      device.info.blockCount
    dsimp only
    split
    · next hnone =>
      rw [hres] at hnone
      exact absurd hnone (by simp)
    · exact ⟨none, rfl, by simp⟩
    · exact ⟨_, rfl, by simp⟩

theorem ofPartition_spec (sector : Sector) (index : Fin 4) :
    ∃ found, ofPartition device hsize sector index = some found ∧
      ∀ fs, found = .ok (some fs) → fs.device = device := by
  rw [ofPartition]
  cases PartitionEntry.parse (Sector.partition sector index) with
  | none => exact ⟨_, rfl, by simp⟩
  | some partition =>
    dsimp only
    split_ifs
    · exact ⟨_, rfl, by simp⟩
    · exact ⟨_, rfl, by simp⟩
    · cases device.read (partition.startLba.setWidth 64) sectorSize with
      | error e => exact ⟨_, rfl, by simp⟩
      | ok bootData =>
        obtain ⟨found, hfound, hdevice⟩ := ofBootSector_spec device hsize bootData
          (partition.startLba.setWidth 64) (some (partition.sectorCount.setWidth 64))
        exact ⟨.ok found, by simp [hfound], by simpa using hdevice⟩

theorem scanPartitions_spec (sector : Sector) (indices : List (Fin 4)) :
    ∃ r, scanPartitions device hsize sector indices = some r ∧
      ∀ fs, r = .ok fs → fs.device = device := by
  induction indices with
  | nil => exact ⟨_, rfl, by simp⟩
  | cons index rest ih =>
    obtain ⟨found, hfound, hdevice⟩ := ofPartition_spec device hsize sector index
    rw [scanPartitions, hfound, Option.bind_eq_bind, Option.bind_some]
    rcases found with e | (_ | fs)
    · exact ⟨_, rfl, by simp⟩
    · exact ih
    · exact ⟨_, rfl, by simpa using hdevice⟩

theorem fromDevice_spec :
    ∃ r, fromDevice device = some r ∧ ∀ fs, r = .ok fs → fs.device = device := by
  rw [fromDevice]
  split_ifs with hsize
  · cases device.read 0 sectorSize with
    | error e => exact ⟨_, rfl, by simp⟩
    | ok sector =>
      obtain ⟨found, hfound, hdevice⟩ := ofBootSector_spec device hsize sector 0 none
      dsimp only
      rw [hfound, Option.bind_eq_bind, Option.bind_some]
      cases found with
      | some fs => exact ⟨_, rfl, by simpa using hdevice⟩
      | none => apply scanPartitions_spec
  · exact ⟨_, rfl, by simp⟩

end

theorem laid (fs : Fat32Fs) :
    fs.geometry.Laid fs.bootSector fs.geometry.partitionLba fs.device.info.blockCount := by
  obtain ⟨partitionLba, partitionSectors, hmounted⟩ := fs.mounted
  obtain ⟨res, hres, hok⟩ := Fat32Geometry.parse_spec fs.bootSector partitionLba partitionSectors
    fs.device.info.blockCount
  rw [hmounted] at hres
  have hlaid := (hok _ (Option.some.inj hres).symm).1
  rwa [hlaid.start]

/-- Whatever a device holds, mounting ends with an error or with a volume inside it. -/
theorem fromDevice_inside (device : BlockDeviceHandle) :
    ∃ r, fromDevice device = some r ∧ ∀ fs, r = .ok fs → fs.device = device ∧
      fs.geometry.fatArea fs.bootSector ∪ fs.geometry.dataArea ⊆
        Fat32Geometry.volume fs.bootSector fs.geometry.partitionLba ∧
      Fat32Geometry.volume fs.bootSector fs.geometry.partitionLba ⊆
        Set.Iio device.info.blockCount.toNat := by
  obtain ⟨r, hr, hdevice⟩ := fromDevice_spec device
  refine ⟨r, hr, fun fs hfs ↦ ?_⟩
  obtain rfl := hdevice fs hfs
  exact ⟨rfl, Set.union_subset fs.laid.fatArea_subset fs.laid.dataArea_subset,
    fs.laid.volume_subset⟩

end Fat32Fs

end BraneKernel
