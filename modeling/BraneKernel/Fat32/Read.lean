import BraneKernel.Fat32.Volume
import BraneKernel.Lib.Chunks
import BraneKernel.Vfs

namespace BraneKernel

structure DirectoryRecord where
  name : Bytes
  nodeType : NodeType
  firstCluster : U32
  size : U32
  deriving DecidableEq

/-- `buffer[written..written + count].copy_from_slice(&source[start..start + count])`, where a range
outside its slice panics. -/
def copyFromSlice (buffer : Bytes) (written : ℕ) (source : Bytes) (start count : ℕ) :
    Option Bytes :=
  if written + count ≤ buffer.length ∧ start + count ≤ source.length then
    some (Chunks.splice buffer written ((source.drop start).take count))
  else none

inductive ReadStep
  | finished (result : Except VfsError ℕ)
  | more (written : ℕ)

namespace Fat32Fs

def followCluster (fs : Fat32Fs) (cluster : U32) : Option (Except VfsError U32) := do
  match ← fs.nextCluster cluster with
  | .ok (some next) => some (.ok next)
  | _ => some (.error .ioError)

def skipClusters (fs : Fat32Fs) (clustersToSkip : ℕ) (cluster : U32) (traversed : ℕ) :
    Option (Except VfsError (U32 × ℕ)) :=
  match clustersToSkip with
  | 0 => some (.ok (cluster, traversed))
  | n + 1 => do
    match ← fs.followCluster cluster with
    | .error e => some (.error e)
    | .ok next =>
      if traversed + 1 > fs.geometry.clusterCount.toNat then some (.error .ioError)
      else fs.skipClusters n next (traversed + 1)

def readSectors (fs : Fat32Fs) (firstLba : U64) (wanted remaining sectorIndex sectorOffset
    written : ℕ) (buffer : Bytes) : Option (Bytes × ReadStep) :=
  match remaining with
  | 0 => some (buffer, .more written)
  | remaining + 1 => do
    let lba ← Checked.add firstLba (BitVec.ofNat 64 sectorIndex)
    match fs.readSector lba with
    | .error _ => some (buffer, .finished (.error .ioError))
    | .ok sector =>
      let count := min (sectorSize - sectorOffset) (wanted - written)
      let buffer ← copyFromSlice buffer written sector.1 sectorOffset count
      if written + count = wanted then some (buffer, .finished (.ok (written + count)))
      else fs.readSectors firstLba wanted remaining (sectorIndex + 1) 0 (written + count) buffer

/-- The outer loop of `read_file`. Every turn raises `traversed`, which may not pass the number of
clusters, so `fuel` bounds the turns without cutting a read short. -/
def readClusters (fs : Fat32Fs) (wanted fuel : ℕ) (cluster : U32) (clusterOffset traversed
    written : ℕ) (buffer : Bytes) : Option (Bytes × Except VfsError ℕ) :=
  match fuel with
  | 0 => none
  | fuel + 1 =>
    if written < wanted then do
      match ← fs.geometry.clusterLba cluster with
      | .error _ => some (buffer, .error .ioError)
      | .ok firstLba =>
        let firstSector := clusterOffset / sectorSize
        match ← fs.readSectors firstLba wanted (fs.geometry.sectorsPerCluster.toNat - firstSector)
          firstSector (clusterOffset % sectorSize) written buffer with
        | (buffer, .finished result) => some (buffer, result)
        | (buffer, .more written) =>
          if traversed + 1 > fs.geometry.clusterCount.toNat then some (buffer, .error .ioError)
          else
            match ← fs.followCluster cluster with
            | .error e => some (buffer, .error e)
            | .ok next => fs.readClusters wanted fuel next 0 (traversed + 1) written buffer
    else some (buffer, .ok written)

def clusterSize (fs : Fat32Fs) : ℕ := fs.geometry.sectorsPerCluster.toNat * sectorSize

def readFile (fs : Fat32Fs) (record : DirectoryRecord) (offset : ℕ) (buffer : Bytes) :
    Option (Bytes × Except VfsError ℕ) :=
  if record.nodeType ≠ .file then some (buffer, .error .notAFile)
  else
    let fileSize := record.size.toNat
    if offset ≥ fileSize ∨ buffer = [] then some (buffer, .ok 0)
    else if record.firstCluster < 2 then some (buffer, .error .ioError)
    else do
      match ← fs.skipClusters (offset / fs.clusterSize) record.firstCluster 0 with
      | .error e => some (buffer, .error e)
      | .ok (cluster, traversed) =>
        fs.readClusters (min buffer.length (fileSize - offset))
          (fs.geometry.clusterCount.toNat + 1) cluster (offset % fs.clusterSize) traversed 0 buffer

end Fat32Fs

end BraneKernel
