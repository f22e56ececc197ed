import BraneKernel.Basic
import Mathlib.Data.List.FinRange
import Mathlib.Logic.Function.Basic

namespace BraneKernel

def frameSize : ℕ := 4096
def maxMemory : ℕ := 1024 * 1024 * 1024
def maxFrames : ℕ := maxMemory / frameSize
def bitmapSize : ℕ := maxFrames / 8

abbrev Frame := Fin maxFrames

structure BitmapFrameAllocator where
  bitmap : Fin bitmapSize → BitVec 8
  freeFrames : ℕ

namespace BitmapFrameAllocator

def new : BitmapFrameAllocator where
  bitmap := fun _ ↦ 0xFF
  freeFrames := 0

def byteOf (frame : Frame) : Fin bitmapSize := ⟨frame / 8, by
  have h := frame.2
  simp only [bitmapSize, maxFrames, maxMemory, frameSize] at h ⊢
  omega⟩

variable (a : BitmapFrameAllocator)

def isUsed (frame : Frame) : Bool :=
  a.bitmap (byteOf frame) &&& 1#8 <<< (frame.1 % 8) ≠ 0

def setUsed (frame : Frame) : BitmapFrameAllocator :=
  let byte := byteOf frame
  { a with bitmap := Function.update a.bitmap byte (a.bitmap byte ||| 1#8 <<< (frame.1 % 8)) }

def setFree (frame : Frame) : BitmapFrameAllocator :=
  let byte := byteOf frame
  { a with bitmap := Function.update a.bitmap byte (a.bitmap byte &&& ~~~(1#8 <<< (frame.1 % 8))) }

def freeFrame (frame : ℕ) : BitmapFrameAllocator :=
  if h : frame < maxFrames then
    if a.isUsed ⟨frame, h⟩ then
      let a := a.setFree ⟨frame, h⟩
      { a with freeFrames := a.freeFrames + 1 }
    else a
  else a

def markRegionFree (start stop : U64) : BitmapFrameAllocator :=
  let startFrame := start.toNat / frameSize
  let endFrame := stop.toNat / frameSize
  (List.range' startFrame (endFrame - startFrame)).foldl freeFrame a

def reserveFrame (frame : ℕ) : Option BitmapFrameAllocator :=
  if h : frame < maxFrames then
    if a.isUsed ⟨frame, h⟩ then some a
    else
      let a := a.setUsed ⟨frame, h⟩
      match a.freeFrames with
      | 0 => none
      | count + 1 => some { a with freeFrames := count }
  else some a

def markRegionUsed (start stop : U64) : Option BitmapFrameAllocator :=
  let startFrame := start.toNat / frameSize
  let endFrame := (stop.toNat + frameSize - 1) / frameSize
  (List.range' startFrame (endFrame - startFrame)).foldlM reserveFrame a

def limitFrames (limit : U64) : ℕ := min (limit.toNat / frameSize) maxFrames

theorem limitFrames_le (limit : U64) : limitFrames limit ≤ maxFrames := Nat.min_le_right _ _

def byteCount (limit : U64) : ℕ := (limitFrames limit + 7) / 8

theorem byteCount_le (limit : U64) : byteCount limit ≤ bitmapSize := by
  have h := limitFrames_le limit
  simp only [byteCount, bitmapSize, maxFrames, maxMemory, frameSize] at h ⊢
  omega

def freeBelow (limit : U64) (frame : ℕ) : Option Frame :=
  if h : frame < limitFrames limit then
    let frame : Frame := ⟨frame, h.trans_le (limitFrames_le limit)⟩
    if a.isUsed frame then none else some frame
  else none

def findInByte (limit : U64) (byteIdx : Fin (byteCount limit)) : Option Frame :=
  if a.bitmap (byteIdx.castLE (byteCount_le limit)) ≠ 0xFF then
    (List.finRange 8).findSome? fun bit ↦ a.freeBelow limit (byteIdx.1 * 8 + bit.1)
  else none

/-- The search of `allocate_below`, which passes over the bytes without a clear bit. -/
def findBelow (limit : U64) : Option Frame :=
  (List.finRange (byteCount limit)).findSome? (a.findInByte limit)

def address (frame : ℕ) : U64 := BitVec.ofNat 64 (frame * frameSize)

def allocateBelow (limit : U64) : BitmapFrameAllocator × Option U64 :=
  match a.findBelow limit with
  | none => (a, none)
  | some frame =>
    let a := a.setUsed frame
    ({ a with freeFrames := a.freeFrames - 1 }, some (address frame))

def allocate : BitmapFrameAllocator × Option U64 :=
  a.allocateBelow (BitVec.ofNat 64 maxMemory)

def runFrames (limit : U64) (start count : ℕ) (h : start + count ≤ limitFrames limit) :
    List Frame :=
  (List.finRange count).map fun i ↦
    ⟨start + i.1, (Nat.add_lt_add_left i.2 start).trans_le (h.trans (limitFrames_le limit))⟩

def runAt (limit alignmentFrames : U64) (start count : ℕ) (h : start + count ≤ limitFrames limit) :
    Option (List Frame × ℕ) :=
  if ¬ alignmentFrames.toNat ∣ start then none
  else
    let frames := runFrames limit start count h
    if frames.any a.isUsed then none else some (frames, start)

def findRun (limit alignmentFrames : U64) (count : ℕ) (h : count ≤ limitFrames limit) :
    Option (List Frame × ℕ) :=
  (List.finRange (limitFrames limit - count + 1)).findSome? fun start ↦
    a.runAt limit alignmentFrames start.1 count (by omega)

def allocateContiguousBelow (count limit alignmentFrames : U64) :
    BitmapFrameAllocator × Option U64 :=
  if count = 0 ∨ ¬ isPowerOfTwo alignmentFrames then (a, none)
  else if h : count.toNat > limitFrames limit then (a, none)
  else
    match a.findRun limit alignmentFrames count.toNat (Nat.le_of_not_lt h) with
    | none => (a, none)
    | some (frames, start) =>
      let a := frames.foldl setUsed a
      ({ a with freeFrames := a.freeFrames - count.toNat }, some (address start))

def deallocate (addr : U64) : BitmapFrameAllocator :=
  a.freeFrame (addr.toNat / frameSize)

end BitmapFrameAllocator

inductive FrameEvent
  | markRegionFree (start stop : U64)
  | markRegionUsed (start stop : U64)
  | allocate
  | allocateBelow (limit : U64)
  | allocateContiguousBelow (count limit alignmentFrames : U64)
  | deallocate (addr : U64)

def BitmapFrameAllocator.next (a : BitmapFrameAllocator) :
    FrameEvent → Option (BitmapFrameAllocator × Option U64)
  | .markRegionFree start stop => some (a.markRegionFree start stop, none)
  | .markRegionUsed start stop => (a.markRegionUsed start stop).map fun a ↦ (a, none)
  | .allocate => some a.allocate
  | .allocateBelow limit => some (a.allocateBelow limit)
  | .allocateContiguousBelow count limit alignmentFrames =>
    some (a.allocateContiguousBelow count limit alignmentFrames)
  | .deallocate addr => some (a.deallocate addr, none)

end BraneKernel
