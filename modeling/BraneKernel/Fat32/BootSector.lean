import BraneKernel.Basic
import BraneKernel.Lib.Bytes

namespace BraneKernel

inductive Fat32Error
  | deviceNotFound | io | noFat32Volume | unsupportedGeometry | corruptFilesystem
  deriving DecidableEq

def sectorSize : ℕ := 512
def mbrPartitionTableOffset : ℕ := 446
def mbrPartitionEntrySize : ℕ := 16

abbrev Sector := Bytes.Sized sectorSize

def le16 (data : Bytes) (start : ℕ) (h : start + 2 ≤ data.length) : U16 :=
  BitVec.ofNat 16 (Bytes.ofLe (data.slice start 2 h).1)

def le32 (data : Bytes) (start : ℕ) (h : start + 4 ≤ data.length) : U32 :=
  BitVec.ofNat 32 (Bytes.ofLe (data.slice start 4 h).1)

structure PartitionEntry where
  partitionType : BitVec 8
  startLba : U32
  sectorCount : U32

namespace PartitionEntry

def parse (data : Bytes) : Option PartitionEntry :=
  if h : data.length < 16 then none
  else if data[4] = 0 then none
  else some
    { partitionType := data[4]
      startLba := le32 data 8 (by omega)
      sectorCount := le32 data 12 (by omega) }

def isFat32 (p : PartitionEntry) : Bool :=
  p.partitionType == 0x0B || p.partitionType == 0x0C || p.partitionType == 0x1B ||
    p.partitionType == 0x1C

end PartitionEntry

def Sector.partition (sector : Sector) (index : Fin 4) : Bytes :=
  (sector.1.slice (mbrPartitionTableOffset + index * mbrPartitionEntrySize) 16 (by
    rw [sector.2, mbrPartitionTableOffset, mbrPartitionEntrySize, sectorSize]
    omega)).1

structure Fat32BootSector where
  bytesPerSector : U16
  sectorsPerCluster : BitVec 8
  reservedSectors : U16
  fatCount : BitVec 8
  rootDirEntries : U16
  totalSectors16 : U16
  sectorsPerFat16 : U16
  totalSectors32 : U32
  sectorsPerFat32 : U32
  fsVersion : U16
  rootCluster : U32
  deriving DecidableEq

namespace Fat32BootSector

def parse (data : Bytes) : Option Fat32BootSector :=
  if h : data.length < 512 then none
  else if data[510] ≠ 0x55 ∨ data[511] ≠ 0xAA then none
  else some
    { bytesPerSector := le16 data 11 (by omega)
      sectorsPerCluster := data[13]
      reservedSectors := le16 data 14 (by omega)
      fatCount := data[16]
      rootDirEntries := le16 data 17 (by omega)
      totalSectors16 := le16 data 19 (by omega)
      sectorsPerFat16 := le16 data 22 (by omega)
      totalSectors32 := le32 data 32 (by omega)
      sectorsPerFat32 := le32 data 36 (by omega)
      fsVersion := le16 data 42 (by omega)
      rootCluster := le32 data 44 (by omega) }

def totalSectors (boot : Fat32BootSector) : U32 :=
  if boot.totalSectors16 ≠ 0 then boot.totalSectors16.setWidth 32 else boot.totalSectors32

end Fat32BootSector

end BraneKernel
