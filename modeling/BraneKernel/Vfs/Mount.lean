import BraneKernel.Lib.Path
import BraneKernel.Lib.Slots
import BraneKernel.Lib.Utf8
import BraneKernel.Vfs

namespace BraneKernel

def maxMounts : ℕ := 8
def maxPath : ℕ := 256

structure MountPoint (φ : Type) where
  path : Bytes
  fs : φ
  deriving DecidableEq

def MountPoint.pathStr {φ : Type} (mp : MountPoint φ) : List Char :=
  (Utf8.fromUtf8 mp.path).getD []

structure VfsManager (φ : Type) where
  mounts : List (Option (MountPoint φ))
  mountCount : ℕ

namespace VfsManager

variable {φ : Type}

def new : VfsManager φ := ⟨List.replicate maxMounts none, 0⟩

variable (vfs : VfsManager φ)

def mount (path : List Char) (fs : φ) : VfsManager φ × Except VfsError Unit :=
  if vfs.mountCount ≥ maxMounts then (vfs, .error .mountFull)
  else if (Utf8.encode path).length > maxPath then (vfs, .error .invalidPath)
  else
    match Slots.insert ⟨Utf8.encode path, fs⟩ vfs.mounts with
    | some mounts => (⟨mounts, vfs.mountCount + 1⟩, .ok ())
    | none => (vfs, .error .mountFull)

def mountPoints : List (MountPoint φ) := vfs.mounts.filterMap id

/-- One turn of the loop of `resolve`: the best mount so far with the relative path, and the length
of its path. -/
def consider (path : List Char) (best : Option (MountPoint φ × List Char) × ℕ)
    (mp : MountPoint φ) : Option (MountPoint φ × List Char) × ℕ :=
  let mpPath := mp.pathStr
  if mpPath.isPrefixOf path && (Utf8.encode mpPath).length ≥ best.2 then
    let relative := path.drop mpPath.length
    (some (mp, if relative = [] then ['/'] else relative), (Utf8.encode mpPath).length)
  else best

def resolve (path : List Char) : Option (MountPoint φ × List Char) :=
  (vfs.mountPoints.foldl (consider path) (none, 0)).1

end VfsManager

end BraneKernel
