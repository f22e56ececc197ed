import BraneKernel.Lib.Checked
import BraneKernel.Memory.Frames

namespace BraneKernel

def legacyDmaLimit : U64 := 0x100000000

inductive DmaError
  | invalidLayout | outOfMemory | addressOverflow
  deriving DecidableEq

structure DmaRegion where
  physicalStart : U64
  virtualStart : U64
  len : U64
  deriving DecidableEq

namespace DmaRegion

def InvalidLayout (bytes alignment : U64) : Prop :=
  bytes = 0 ∨ alignment.toNat < frameSize ∨ ¬ isPowerOfTwo alignment ∨
    ¬ frameSize ∣ alignment.toNat

instance (bytes alignment : U64) : Decidable (InvalidLayout bytes alignment) :=
  inferInstanceAs (Decidable (_ ∨ _))

def pages (bytes : U64) : U64 := BitVec.ofNat 64 ((bytes.toNat + frameSize - 1) / frameSize)

def place (physicalMemoryOffset pages physicalStart : U64) : Except DmaError DmaRegion :=
  match Checked.mul pages (BitVec.ofNat 64 frameSize) with
  | none => .error .addressOverflow
  | some len =>
    match Checked.add physicalMemoryOffset physicalStart with
    | none => .error .addressOverflow
    | some virtualStart =>
      match Checked.add virtualStart len with
      | none => .error .addressOverflow
      | some _ => .ok { physicalStart, virtualStart, len }

/-- The frames stay reserved when the region cannot be addressed. -/
def allocate (frameAllocator : BitmapFrameAllocator) (physicalMemoryOffset bytes alignment : U64) :
    BitmapFrameAllocator × Except DmaError DmaRegion :=
  if InvalidLayout bytes alignment then (frameAllocator, .error .invalidLayout)
  else
    let alignmentFrames := BitVec.ofNat 64 (alignment.toNat / frameSize)
    match frameAllocator.allocateContiguousBelow (pages bytes) legacyDmaLimit alignmentFrames with
    | (frameAllocator, none) => (frameAllocator, .error .outOfMemory)
    | (frameAllocator, some physicalStart) =>
      (frameAllocator, place physicalMemoryOffset (pages bytes) physicalStart)

def physicalAt (region : DmaRegion) (offset : U64) : Option U64 :=
  if offset ≥ region.len then none else Checked.add region.physicalStart offset

def pointerAt (region : DmaRegion) (size offset : U64) : Option U64 :=
  match Checked.add offset size with
  | none => none
  | some stop => if stop > region.len then none else Checked.add region.virtualStart offset

end DmaRegion

end BraneKernel
