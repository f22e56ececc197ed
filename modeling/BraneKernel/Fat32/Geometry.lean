import BraneKernel.Fat32.BootSector
import BraneKernel.Lib.Checked

namespace BraneKernel

def fat32MinClusters : U32 := 65525
def fat32EntryMask : U32 := 0x0FFFFFFF
def fat32BadCluster : U32 := 0x0FFFFFF7
def fat32EndOfChain : U32 := 0x0FFFFFF8

structure Fat32Geometry where
  partitionLba : U64
  fatLba : U64
  dataLba : U64
  sectorsPerCluster : U32
  clusterCount : U32
  rootCluster : U32
  deriving DecidableEq

namespace Fat32Geometry

def Unsupported (boot : Fat32BootSector) : Prop :=
  boot.bytesPerSector ≠ 512 ∨ boot.sectorsPerCluster = 0 ∨
    ¬ isPowerOfTwo boot.sectorsPerCluster ∨ boot.sectorsPerCluster > 128 ∨
    boot.reservedSectors = 0 ∨ boot.fatCount = 0 ∨ boot.rootDirEntries ≠ 0 ∨
    boot.sectorsPerFat16 ≠ 0 ∨ boot.sectorsPerFat32 = 0 ∨ boot.fsVersion ≠ 0 ∨
    boot.rootCluster < 2

instance (boot : Fat32BootSector) : Decidable (Unsupported boot) :=
  inferInstanceAs (Decidable (_ ∨ _))

def OutOfBounds (totalSectors firstDataSector partitionLba : U64) (partitionSectors : Option U64)
    (deviceBlocks : U64) : Prop :=
  totalSectors ≤ firstDataSector ∨ partitionSectors.any (totalSectors > ·) = true ∨
    (Checked.add partitionLba totalSectors).all (· > deviceBlocks) = true

instance (t f p : U64) (s : Option U64) (d : U64) : Decidable (OutOfBounds t f p s d) :=
  inferInstanceAs (Decidable (_ ∨ _))

/-- The part of `parse` that follows the checks of the volume's bounds. Here and below the outer
`none` is an arithmetic panic. -/
def layout (boot : Fat32BootSector) (partitionLba totalSectors firstDataSector : U64) :
    Option (Except Fat32Error Fat32Geometry) := do
  let dataSectors ← Checked.sub totalSectors firstDataSector
  let clusterCount := (dataSectors / boot.sectorsPerCluster.setWidth 64).setWidth 32
  if clusterCount < fat32MinClusters ∨ boot.rootCluster > Checked.saturatingSucc clusterCount then
    some (.error .unsupportedGeometry)
  else
    let fatEntries ← Checked.mul (boot.sectorsPerFat32.setWidth 64) (512 / 4)
    let neededEntries ← Checked.add (clusterCount.setWidth 64) 2
    if fatEntries < neededEntries then some (.error .corruptFilesystem)
    else
      let fatLba ← Checked.add partitionLba (boot.reservedSectors.setWidth 64)
      let dataLba ← Checked.add partitionLba firstDataSector
      some (.ok
        { partitionLba, fatLba, dataLba, clusterCount
          sectorsPerCluster := boot.sectorsPerCluster.setWidth 32
          rootCluster := boot.rootCluster })

def parse (boot : Fat32BootSector) (partitionLba : U64) (partitionSectors : Option U64)
    (deviceBlocks : U64) : Option (Except Fat32Error Fat32Geometry) :=
  if Unsupported boot then some (.error .unsupportedGeometry)
  else
    let totalSectors : U64 := boot.totalSectors.setWidth 64
    match Checked.mul (boot.fatCount.setWidth 64) (boot.sectorsPerFat32.setWidth 64) with
    | none => some (.error .corruptFilesystem)
    | some fatSectors =>
      match Checked.add (boot.reservedSectors.setWidth 64) fatSectors with
      | none => some (.error .corruptFilesystem)
      | some firstDataSector =>
        if OutOfBounds totalSectors firstDataSector partitionLba partitionSectors deviceBlocks then
          some (.error .corruptFilesystem)
        else layout boot partitionLba totalSectors firstDataSector

variable (g : Fat32Geometry)

def BadCluster (cluster : U32) : Prop :=
  cluster < 2 ∨ cluster > Checked.saturatingSucc g.clusterCount

instance (g : Fat32Geometry) (cluster : U32) : Decidable (g.BadCluster cluster) :=
  inferInstanceAs (Decidable (_ ∨ _))

def clusterLba (cluster : U32) : Option (Except Fat32Error U64) :=
  if g.BadCluster cluster then some (.error .corruptFilesystem)
  else do
    let index ← Checked.sub cluster 2
    let sectors ← Checked.mul (index.setWidth 64) (g.sectorsPerCluster.setWidth 64)
    let lba ← Checked.add g.dataLba sectors
    some (.ok lba)

def fatPosition (cluster : U32) : Option (U64 × ℕ) := do
  let fatOffset ← Checked.mul (cluster.setWidth 64) 4
  let fatSector ← Checked.add g.fatLba (fatOffset / 512)
  some (fatSector, (fatOffset % 512).toNat)

def fatLink (entry : U32) : Except Fat32Error (Option U32) :=
  let value := entry &&& fat32EntryMask
  if value ≥ fat32EndOfChain then .ok none
  else if g.BadCluster value ∨ value = fat32BadCluster then .error .corruptFilesystem
  else .ok (some value)

def nextCluster (readSector : U64 → Except Fat32Error Sector) (cluster : U32) :
    Option (Except Fat32Error (Option U32)) :=
  if g.BadCluster cluster then some (.error .corruptFilesystem)
  else do
    let (fatSector, entryOffset) ← g.fatPosition cluster
    match readSector fatSector with
    | .error e => some (.error e)
    | .ok sector =>
      -- The four entry bytes are indexed, so an entry past the sector's end would panic.
      if h : entryOffset + 4 ≤ sector.1.length then
        some (g.fatLink (le32 sector.1 entryOffset h))
      else none

end Fat32Geometry

end BraneKernel
