import BraneKernel.Fat32.Read
import BraneKernel.Lib.Path
import BraneKernel.Lib.Utf8
import BraneKernel.Lib.Visit

namespace BraneKernel

def isAsciiControl (byte : BitVec 8) : Bool := byte.toNat < 0x20 || byte.toNat == 0x7F

def sanitiseNameByte (byte : BitVec 8) : BitVec 8 :=
  if byte.toNat < 0x80 && !isAsciiControl byte then byte else 0x5F

def space : BitVec 8 := 0x20
def dot : BitVec 8 := 0x2E

def copyShortName (source : Bytes) : Option Bytes :=
  if source.length < 8 then none
  else
    let base := source.take 8
    let baseLen := (base.findIdx? (· == space)).getD 8
    if baseLen = 0 then none
    else some ((base.take baseLen).map fun byte ↦
      sanitiseNameByte (if byte = 0x05 then 0xE5 else byte))

namespace DirectoryRecord

def isLongNameOrLabel (attributes : BitVec 8) : Bool :=
  attributes &&& 0x0F == 0x0F || attributes &&& 0x08 != 0

def isDirectory (attributes : BitVec 8) : Bool := attributes &&& 0x10 != 0

def shownExtension (attributes : BitVec 8) (extension : Bytes) : Bytes :=
  if !isDirectory attributes && extension.any (· != space) then
    dot :: (extension.takeWhile (· != space)).map sanitiseNameByte
  else []

def parse (data : Bytes) : Option DirectoryRecord :=
  if h : data.length < 32 then none
  else if data[0] = 0x00 ∨ data[0] = 0xE5 then none
  else
    let attributes := data[11]
    if isLongNameOrLabel attributes then none
    else
      (copyShortName (data.take 11)).map fun base ↦
        { name := base ++ shownExtension attributes ((data.drop 8).take 3)
          nodeType := if isDirectory attributes then .directory else .file
          firstCluster := (le16 data 20 (by omega)).setWidth 32 <<< 16 |||
            (le16 data 26 (by omega)).setWidth 32
          size := le32 data 28 (by omega) }

def nameStr (record : DirectoryRecord) : List Char := (Utf8.fromUtf8 record.name).getD []

end DirectoryRecord

def toAsciiLowercase (byte : BitVec 8) : BitVec 8 :=
  if 0x41 ≤ byte.toNat ∧ byte.toNat ≤ 0x5A then byte + 0x20 else byte

def namesEqual (left right : List Char) : Bool :=
  (Utf8.encode left).length == (Utf8.encode right).length &&
    ((Utf8.encode left).zip (Utf8.encode right)).all fun (a, b) ↦
      toAsciiLowercase a == toAsciiLowercase b

def DirectoryRecord.entry (record : DirectoryRecord) : DirEntry :=
  ⟨record.name, record.nodeType⟩

inductive ScanStep
  | finished (result : Except Fat32Error Unit)
  | more

namespace Fat32Fs

variable {σ : Type}

def visitSlot (visitor : σ → DirectoryRecord → σ × Bool) (s : σ) (raw : Bytes) : σ × Bool :=
  if raw.head? = some 0x00 then (s, false)
  else
    match DirectoryRecord.parse raw with
    | some record => visitor s record
    | none => (s, true)

def scanSectors (fs : Fat32Fs) (visitor : σ → DirectoryRecord → σ × Bool) (firstLba : U64)
    (remaining sectorIndex : ℕ) (s : σ) : Option (σ × ScanStep) :=
  match remaining with
  | 0 => some (s, .more)
  | remaining + 1 => do
    let lba ← Checked.add firstLba (BitVec.ofNat 64 sectorIndex)
    match fs.readSector lba with
    | .error e => some (s, .finished (.error e))
    | .ok sector =>
      match Visit.run (visitSlot visitor) (Chunks.chunksExact 32 sector.1) s with
      | (s, false) => some (s, .finished (.ok ()))
      | (s, true) => fs.scanSectors visitor firstLba remaining (sectorIndex + 1) s

/-- The loop of `scan_directory`, which may visit `fuel` clusters. -/
def scanClusters (fs : Fat32Fs) (visitor : σ → DirectoryRecord → σ × Bool) (fuel : ℕ)
    (cluster : U32) (traversed : ℕ) (s : σ) : Option (σ × Except Fat32Error Unit) :=
  match fuel with
  | 0 => none
  | fuel + 1 => do
    match ← fs.geometry.clusterLba cluster with
    | .error e => some (s, .error e)
    | .ok firstLba =>
      match ← fs.scanSectors visitor firstLba fs.geometry.sectorsPerCluster.toNat 0 s with
      | (s, .finished result) => some (s, result)
      | (s, .more) =>
        if traversed + 1 > fs.geometry.clusterCount.toNat then
          some (s, .error .corruptFilesystem)
        else
          match ← fs.nextCluster cluster with
          | .error e => some (s, .error e)
          | .ok none => some (s, .ok ())
          | .ok (some next) => fs.scanClusters visitor fuel next (traversed + 1) s

variable (fs : Fat32Fs)

/-- The visitor's last state and the result of the scan. Every turn raises `traversed`, which may
not pass the number of clusters. -/
def scanDirectory (startCluster : U32) (visitor : σ → DirectoryRecord → σ × Bool) (s : σ) :
    Option (σ × Except Fat32Error Unit) :=
  fs.scanClusters visitor (fs.geometry.clusterCount.toNat + 1) startCluster 0 s

def findEntry (directoryCluster : U32) (component : List Char) :
    Option (Except Fat32Error (Option DirectoryRecord)) := do
  let (result, outcome) ← fs.scanDirectory directoryCluster
    (Visit.finder fun record ↦ namesEqual record.nameStr component) none
  match outcome with
  | .error e => some (.error e)
  | .ok () => some (.ok result)

def resolveComponents (fs : Fat32Fs) (components : List (List Char)) (directoryCluster : U32)
    (current : Option DirectoryRecord) : Option (Except VfsError (Option DirectoryRecord)) :=
  match components with
  | [] => some (.ok current)
  | component :: rest =>
    if component = ['.'] ∨ component = ['.', '.'] ∨ (Utf8.encode component).length > 12 then
      some (.error .invalidPath)
    else do
      match ← fs.findEntry directoryCluster component with
      | .error _ => some (.error .ioError)
      | .ok none => some (.error .notFound)
      | .ok (some record) =>
        if rest = [] then some (.ok (some record))
        else if record.nodeType ≠ .directory then some (.error .notADirectory)
        else fs.resolveComponents rest record.firstCluster (some record)

def resolvePath (path : List Char) : Option (Except VfsError (Option DirectoryRecord)) :=
  if path = [] ∨ path = ['/'] then some (.ok none)
  else if path.head? ≠ some '/' then some (.error .invalidPath)
  else fs.resolveComponents (Path.components '/' path) fs.geometry.rootCluster none

def directoryCluster (path : List Char) : Option (Except VfsError U32) := do
  match ← fs.resolvePath path with
  | .error e => some (.error e)
  | .ok (some record) =>
    if record.nodeType = .directory then some (.ok record.firstCluster)
    else some (.error .notADirectory)
  | .ok none => some (.ok fs.geometry.rootCluster)

def readdir (path : List Char) (entries : List DirEntry) :
    Option (List DirEntry × Except VfsError ℕ) := do
  match ← fs.directoryCluster path with
  | .error e => some (entries, .error e)
  | .ok cluster =>
    let ((entries, count), outcome) ← fs.scanDirectory cluster
      (Visit.filler DirectoryRecord.entry) (entries, 0)
    match outcome with
    | .error _ => some (entries, .error .ioError)
    | .ok () => some (entries, .ok count)

end Fat32Fs

end BraneKernel
