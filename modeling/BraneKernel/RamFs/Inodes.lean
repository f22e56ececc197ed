import BraneKernel.Basic
import BraneKernel.Lib.Chunks
import BraneKernel.Lib.Path
import BraneKernel.Lib.Utf8
import BraneKernel.Vfs
import Mathlib.Data.List.FinRange
import Mathlib.Logic.Function.Basic

namespace BraneKernel

abbrev maxInodes : ℕ := 256
def maxFileSize : ℕ := 4096
def maxChildren : ℕ := 32

abbrev InodeIndex := Fin maxInodes

structure Inode where
  used : Bool
  nodeType : NodeType
  name : Bytes
  parent : InodeIndex
  data : Bytes.Sized maxFileSize
  dataLen : ℕ
  fits : dataLen ≤ maxFileSize
  children : List InodeIndex
  deriving DecidableEq

namespace Inode

def empty : Inode where
  used := false
  nodeType := .file
  name := []
  parent := 0
  data := ⟨List.replicate maxFileSize 0, List.length_replicate⟩
  dataLen := 0
  fits := Nat.zero_le _
  children := []

def nameStr (inode : Inode) : List Char := (Utf8.fromUtf8 inode.name).getD []

def setName (inode : Inode) (name : List Char) : Inode :=
  { inode with name := (Utf8.encode name).take maxName }

def store (inode : Inode) (offset : ℕ) (src : Bytes) (h : offset + src.length ≤ maxFileSize) :
    Inode :=
  { inode with
    data := ⟨Chunks.splice inode.data.1 offset src, by
      rw [Chunks.length_splice (by rwa [inode.data.2]), inode.data.2]⟩
    dataLen := max inode.dataLen (offset + src.length)
    fits := Nat.max_le.mpr ⟨inode.fits, h⟩ }

end Inode

structure RamFs where
  inodes : InodeIndex → Inode
  inodeCount : ℕ

namespace RamFs

def new : RamFs where
  inodes := Function.update (fun _ ↦ Inode.empty) 0
    ({ Inode.empty with used := true, nodeType := .directory }.setName ['/'])
  inodeCount := 1

variable (fs : RamFs)

def root : Inode := fs.inodes 0

def allocInode : Option InodeIndex :=
  (List.finRange maxInodes).tail.find? fun i ↦ !(fs.inodes i).used

def lookup (dir : Inode) (component : List Char) : Option InodeIndex :=
  dir.children.find? fun child ↦
    (fs.inodes child).used && (fs.inodes child).nameStr == component

def walk (fs : RamFs) (components : List (List Char)) (current : InodeIndex) :
    Except VfsError InodeIndex :=
  match components with
  | [] => .ok current
  | component :: rest =>
    let dir := fs.inodes current
    if dir.nodeType ≠ .directory then .error .notADirectory
    else
      match fs.lookup dir component with
      | some child => fs.walk rest child
      | none => .error .notFound

def resolvePath (path : List Char) : Except VfsError InodeIndex :=
  if path = ['/'] ∨ path = [] then .ok 0
  else fs.walk (Path.components '/' (Path.trimStart '/' path)) 0

def splitPath (path : List Char) : List Char × List Char :=
  let path := Path.trimEnd '/' path
  match Path.splitLast '/' path with
  | some (parent, name) => (if parent = [] then ['/'] else parent, name)
  | none => (['/'], path)

def stat (path : List Char) : Except VfsError NodeInfo :=
  match fs.resolvePath path with
  | .error e => .error e
  | .ok idx =>
    let inode := fs.inodes idx
    .ok ⟨inode.name, inode.nodeType, inode.dataLen, idx⟩

def read (path : List Char) (offset : U64) (buf : Bytes) : Bytes × Except VfsError ℕ :=
  match fs.resolvePath path with
  | .error e => (buf, .error e)
  | .ok idx =>
    let inode := fs.inodes idx
    if inode.nodeType ≠ .file then (buf, .error .notAFile)
    else if h : offset.toNat ≥ inode.dataLen then (buf, .ok 0)
    else
      let toRead := min buf.length (inode.dataLen - offset.toNat)
      let source := inode.data.1.slice offset.toNat toRead (by
        have hfits := inode.fits
        have hdata := inode.data.2
        omega)
      (Chunks.splice buf 0 source.1, .ok toRead)

/-- The sum of the offset and the length panics when it leaves the machine word. -/
def write (path : List Char) (offset : U64) (data : Bytes) : Option (RamFs × Except VfsError ℕ) :=
  match fs.resolvePath path with
  | .error e => some (fs, .error e)
  | .ok idx =>
    let inode := fs.inodes idx
    if inode.nodeType ≠ .file then some (fs, .error .notAFile)
    else if 2 ^ 64 ≤ offset.toNat + data.length then none
    else if h : offset.toNat + data.length > maxFileSize then some (fs, .error .noSpace)
    else
      let inode := inode.store offset.toNat data (Nat.le_of_not_lt h)
      some ({ fs with inodes := Function.update fs.inodes idx inode }, .ok data.length)

def link (parent new : InodeIndex) (nodeType : NodeType) (name : List Char) : RamFs :=
  let inodes := Function.update fs.inodes new
    ({ Inode.empty with used := true, nodeType, parent }.setName name)
  let dir := inodes parent
  { inodes := Function.update inodes parent { dir with children := dir.children ++ [new] }
    inodeCount := fs.inodeCount + 1 }

def create (path : List Char) (nodeType : NodeType) : RamFs × Except VfsError Unit :=
  match fs.resolvePath path with
  | .ok _ => (fs, .error .alreadyExists)
  | .error _ =>
    let (parentPath, name) := splitPath path
    match fs.resolvePath parentPath with
    | .error e => (fs, .error e)
    | .ok parent =>
      let dir := fs.inodes parent
      if dir.nodeType ≠ .directory then (fs, .error .notADirectory)
      else if dir.children.length ≥ maxChildren then (fs, .error .noSpace)
      else
        match fs.allocInode with
        | none => (fs, .error .noSpace)
        | some new => (fs.link parent new nodeType name, .ok ())

def unlink (idx : InodeIndex) (inodeCount : ℕ) : RamFs :=
  let parent := (fs.inodes idx).parent
  let dir := fs.inodes parent
  let inodes := Function.update fs.inodes parent { dir with children := dir.children.erase idx }
  { inodes := Function.update inodes idx { inodes idx with used := false }
    inodeCount }

/-- The count of used inodes panics when it would go below zero. -/
def remove (path : List Char) : Option (RamFs × Except VfsError Unit) :=
  if path = ['/'] ∨ path = [] then some (fs, .error .invalidPath)
  else
    match fs.resolvePath path with
    | .error e => some (fs, .error e)
    | .ok idx =>
      let inode := fs.inodes idx
      if inode.nodeType = .directory ∧ inode.children ≠ [] then some (fs, .error .ioError)
      else
        match fs.inodeCount with
        | 0 => none
        | count + 1 => some (fs.unlink idx count, .ok ())

end RamFs

inductive RamFsEvent
  | create (path : List Char) (nodeType : NodeType)
  | write (path : List Char) (offset : U64) (data : Bytes)
  | remove (path : List Char)

def RamFs.next (fs : RamFs) : RamFsEvent → Option RamFs
  | .create path nodeType => some (fs.create path nodeType).1
  | .write path offset data => (fs.write path offset data).map Prod.fst
  | .remove path => (fs.remove path).map Prod.fst

end BraneKernel
