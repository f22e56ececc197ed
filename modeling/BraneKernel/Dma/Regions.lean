import BraneKernel.Dma
import BraneKernel.Memory.Refinement
import Mathlib.Order.Interval.Set.Basic

namespace BraneKernel

open BitmapFrameAllocator

open Trace (Run)
open BitmapFrameAllocator (address address_toNat)

namespace DmaRegion

variable {region : DmaRegion} {physicalMemoryOffset bytes alignment : U64}

variable {size offset physical pointer : U64}

theorem physicalAt_eq_some_iff : region.physicalAt offset = some physical ↔
    offset.toNat < region.len.toNat ∧
      physical.toNat = region.physicalStart.toNat + offset.toNat := by
  rw [physicalAt]
  split_ifs with hoff
  · rw [ge_iff_le, BitVec.le_def] at hoff
    simp only [false_iff]
    omega
  · rw [ge_iff_le, BitVec.le_def] at hoff
    rw [Checked.add_eq_some_iff]
    omega

theorem pointerAt_eq_some_iff : region.pointerAt size offset = some pointer ↔
    offset.toNat + size.toNat ≤ region.len.toNat ∧
      pointer.toNat = region.virtualStart.toNat + offset.toNat := by
  have hlen := region.len.isLt
  rw [pointerAt]
  cases hend : Checked.add offset size with
  | none =>
    have hover : ¬ offset.toNat + size.toNat ≤ region.len.toNat := by
      intro hle
      obtain ⟨stop, hstop, -⟩ := Checked.add_of_lt (hle.trans_lt hlen)
      rw [hend] at hstop
      exact absurd hstop nofun
    exact iff_of_false nofun fun hin ↦ hover hin.1
  | some stop =>
    have hsum := Checked.add_eq_some_iff.mp hend
    dsimp only
    split_ifs with hbeyond
    · rw [gt_iff_lt, BitVec.lt_def] at hbeyond
      simp only [false_iff]
      omega
    · rw [gt_iff_lt, BitVec.lt_def] at hbeyond
      rw [Checked.add_eq_some_iff]
      omega

def range (region : DmaRegion) : Set ℕ :=
  Set.Ico region.physicalStart.toNat (region.physicalStart.toNat + region.len.toNat)

def frames (region : DmaRegion) : Finset ℕ :=
  Finset.Ico (region.physicalStart.toNat / frameSize)
    ((region.physicalStart.toNat + region.len.toNat) / frameSize)

structure Placed (region : DmaRegion) (physicalMemoryOffset bytes alignment : U64) : Prop where
  page : frameSize ∣ region.physicalStart.toNat
  whole : frameSize ∣ region.len.toNat
  aligned : alignment.toNat ∣ region.physicalStart.toNat
  below : region.physicalStart.toNat + region.len.toNat ≤ legacyDmaLimit.toNat
  room : bytes.toNat ≤ region.len.toNat
  direct : region.virtualStart.toNat = physicalMemoryOffset.toNat + region.physicalStart.toNat
  fits : region.virtualStart.toNat + region.len.toNat < 2 ^ 64

namespace Placed

section

variable (h : region.Placed physicalMemoryOffset bytes alignment)
include h

theorem isSome_physicalAt_iff :
    (region.physicalAt offset).isSome = true ↔ offset.toNat < region.len.toNat := by
  rw [Option.isSome_iff_exists]
  constructor
  · rintro ⟨physical, hat⟩
    exact (physicalAt_eq_some_iff.mp hat).1
  · intro hoff
    have hfits := h.fits
    have hdirect := h.direct
    obtain ⟨physical, -, hsum⟩ := Checked.add_of_lt
      (show region.physicalStart.toNat + offset.toNat < 2 ^ 64 by omega)
    exact ⟨physical, physicalAt_eq_some_iff.mpr ⟨hoff, hsum⟩⟩

theorem isSome_pointerAt_iff :
    (region.pointerAt size offset).isSome = true ↔
      offset.toNat + size.toNat ≤ region.len.toNat := by
  rw [Option.isSome_iff_exists]
  constructor
  · rintro ⟨pointer, hat⟩
    exact (pointerAt_eq_some_iff.mp hat).1
  · intro hin
    have hfits := h.fits
    obtain ⟨pointer, -, hsum⟩ := Checked.add_of_lt
      (show region.virtualStart.toNat + offset.toNat < 2 ^ 64 by omega)
    exact ⟨pointer, pointerAt_eq_some_iff.mpr ⟨hin, hsum⟩⟩

theorem div_mem_frames {n : ℕ} (hn : n ∈ region.range) : n / frameSize ∈ region.frames := by
  obtain ⟨hlow, hhigh⟩ := hn
  have hlast := (Nat.dvd_add_iff_right h.page).mp h.whole
  rw [frames, Finset.mem_Ico]
  refine ⟨Nat.div_le_div_right hlow, ?_⟩
  rw [Nat.div_lt_iff_lt_mul (by decide), Nat.div_mul_cancel hlast]
  exact hhigh

end

end Placed

theorem toNat_pages (bytes : U64) :
    (pages bytes).toNat = (bytes.toNat + frameSize - 1) / frameSize := by
  have hb := bytes.isLt
  rw [pages, BitVec.toNat_ofNat, Nat.mod_eq_of_lt]
  simp only [frameSize]
  omega

theorem place_ok {count physicalStart : U64}
    (h : place physicalMemoryOffset count physicalStart = .ok region) :
    region.physicalStart = physicalStart ∧ region.len.toNat = count.toNat * frameSize ∧
      region.virtualStart.toNat = physicalMemoryOffset.toNat + physicalStart.toNat ∧
      region.virtualStart.toNat + region.len.toNat < 2 ^ 64 := by
  rw [place] at h
  cases hlen : Checked.mul count (BitVec.ofNat 64 frameSize) with
  | none =>
    rw [hlen] at h
    exact absurd h nofun
  | some len =>
    cases hvirtual : Checked.add physicalMemoryOffset physicalStart with
    | none =>
      rw [hlen, hvirtual] at h
      exact absurd h nofun
    | some virtualStart =>
      cases hstop : Checked.add virtualStart len with
      | none =>
        rw [hlen, hvirtual] at h
        dsimp only at h
        rw [hstop] at h
        exact absurd h nofun
      | some stop =>
        rw [hlen, hvirtual] at h
        dsimp only at h
        rw [hstop] at h
        cases h
        have hsum := Checked.add_eq_some_iff.mp hstop
        refine ⟨rfl, Checked.mul_eq_some_iff.mp hlen, Checked.add_eq_some_iff.mp hvirtual, ?_⟩
        dsimp only
        rw [← hsum]
        exact stop.isLt

variable {a t : BitmapFrameAllocator}

theorem not_invalidLayout (h : ¬ InvalidLayout bytes alignment) :
    0 < bytes.toNat ∧ frameSize ∣ alignment.toNat ∧
      (BitVec.ofNat 64 (alignment.toNat / frameSize)).toNat * frameSize = alignment.toNat := by
  rw [InvalidLayout, not_or, not_or, not_or, not_not, not_not] at h
  obtain ⟨hbytes, -, -, hdvd⟩ := h
  have hlt := alignment.isLt
  have hdiv := Nat.div_le_self alignment.toNat frameSize
  refine ⟨?_, hdvd, ?_⟩
  · apply Nat.pos_of_ne_zero
    intro hzero
    exact hbytes (BitVec.eq_of_toNat_eq hzero)
  · rw [BitVec.toNat_ofNat, Nat.mod_eq_of_lt (hdiv.trans_lt hlt), Nat.div_mul_cancel hdvd]

structure Reserves (free free' : Finset ℕ) (physicalMemoryOffset bytes alignment : U64)
    (result : Except DmaError DmaRegion) : Prop where
  subset : free' ⊆ free
  placed : ∀ region, result = .ok region → region.Placed physicalMemoryOffset bytes alignment
  taken : ∀ region, result = .ok region → ∀ f ∈ region.frames, f ∈ free ∧ f ∉ free'

theorem reserves_error {free free' : Finset ℕ} {e : DmaError} (h : free' ⊆ free) :
    Reserves free free' physicalMemoryOffset bytes alignment (.error e) :=
  ⟨h, nofun, nofun⟩

end DmaRegion

open DmaRegion (Reserves)

theorem BitmapFrameAllocator.Counted.allocateRegion {a t : BitmapFrameAllocator}
    {physicalMemoryOffset bytes alignment : U64} {result : Except DmaError DmaRegion}
    (hcounted : a.Counted)
    (h : DmaRegion.allocate a physicalMemoryOffset bytes alignment = (t, result)) :
    t.Counted ∧ Reserves a.freeSet t.freeSet physicalMemoryOffset bytes alignment result := by
  rw [DmaRegion.allocate] at h
  split_ifs at h with hlayout
  · cases h
    exact ⟨hcounted, DmaRegion.reserves_error (Finset.Subset.refl _)⟩
  · obtain ⟨hcounted', hstep⟩ := hcounted.allocateContiguousBelow (DmaRegion.pages bytes)
      legacyDmaLimit (BitVec.ofNat 64 (alignment.toNat / frameSize))
    dsimp only at h
    generalize a.allocateContiguousBelow (DmaRegion.pages bytes) legacyDmaLimit
      (BitVec.ofNat 64 (alignment.toNat / frameSize)) = answer at h hcounted' hstep
    obtain ⟨b, r⟩ := answer
    dsimp only at h hcounted' hstep
    generalize hfree : b.freeSet = free' at hstep
    cases hstep with
    | refuseRun hnone =>
      cases h
      exact ⟨hcounted', DmaRegion.reserves_error hfree.subset⟩
    | takeRun hcount halignment hleast =>
      cases h
      have hframes := (hleast.1.le_limitFrames hcount).trans
        (limitFrames_le legacyDmaLimit)
      obtain ⟨hpos, hdvd, halignment⟩ := DmaRegion.not_invalidLayout hlayout
      have hstart := address_toNat (Nat.le_of_add_right_le hframes)
      rw [hfree]
      refine ⟨hcounted', Finset.sdiff_subset, fun region hregion ↦ ?_, fun region hregion f hf ↦ ?_⟩
      · obtain ⟨hphysical, hlen, hdirect, hfits⟩ := DmaRegion.place_ok hregion
        rw [← hphysical] at hstart hdirect
        constructor
        · exact hstart ▸ Nat.dvd_mul_left frameSize _
        · exact hlen ▸ Nat.dvd_mul_left frameSize _
        · rw [hstart, ← halignment]
          exact Nat.mul_dvd_mul_right hleast.1.aligned frameSize
        · rw [hstart, hlen, ← Nat.add_mul]
          exact hleast.1.below
        · rw [hlen, DmaRegion.toNat_pages]
          simp only [frameSize]
          omega
        · exact hdirect
        · exact hfits
      · obtain ⟨hphysical, hlen, -, -⟩ := DmaRegion.place_ok hregion
        rw [DmaRegion.frames, hphysical, hstart, hlen, ← Nat.add_mul,
          Nat.mul_div_cancel _ (by decide), Nat.mul_div_cancel _ (by decide)] at hf
        exact ⟨hleast.1.free f hf, fun hleft ↦ (Finset.mem_sdiff.mp hleft).2 hf⟩

theorem BitmapFrameAllocator.Counted.allocateRegion_of_run {a : BitmapFrameAllocator}
    (hcounted : a.Counted) (physicalMemoryOffset bytes alignment : U64) {start : ℕ}
    (hlayout : ¬ DmaRegion.InvalidLayout bytes alignment)
    (hpower : isPowerOfTwo (BitVec.ofNat 64 (alignment.toNat / frameSize)) = true)
    (hleast : IsLeast {start | BitmapFrameAllocator.IsRun a.freeSet (DmaRegion.pages bytes)
      legacyDmaLimit (BitVec.ofNat 64 (alignment.toNat / frameSize)) start} start) : ∃ t,
    DmaRegion.allocate a physicalMemoryOffset bytes alignment =
      (t, DmaRegion.place physicalMemoryOffset (DmaRegion.pages bytes) (address start)) ∧
    t.Counted ∧ t.freeSet =
      a.freeSet \ Finset.Ico start (start + (DmaRegion.pages bytes).toNat) := by
  obtain ⟨hcounted', hstep⟩ := hcounted.allocateContiguousBelow (DmaRegion.pages bytes)
    legacyDmaLimit (BitVec.ofNat 64 (alignment.toNat / frameSize))
  rw [DmaRegion.allocate, if_neg hlayout]
  dsimp only
  generalize a.allocateContiguousBelow (DmaRegion.pages bytes) legacyDmaLimit
    (BitVec.ofNat 64 (alignment.toNat / frameSize)) = answer at hcounted' hstep ⊢
  obtain ⟨t, r⟩ := answer
  dsimp only at hcounted' hstep ⊢
  refine ⟨t, ?_⟩
  generalize t.freeSet = free' at hstep ⊢
  cases hstep with
  | refuseRun hnone =>
    obtain ⟨hpos, -, -⟩ := DmaRegion.not_invalidLayout hlayout
    refine absurd hleast.1 (hnone ?_ hpower start)
    rw [DmaRegion.toNat_pages]
    simp only [frameSize]
    omega
  | takeRun hcount halignment hfound =>
    rw [hfound.unique hleast]
    exact ⟨rfl, hcounted', rfl⟩

inductive DmaCall
  | region (physicalMemoryOffset bytes alignment : U64) (result : Except DmaError DmaRegion)
  | frames (event : FrameEvent) (result : Option U64)

namespace DmaCall

def Step (a : BitmapFrameAllocator) : DmaCall → BitmapFrameAllocator → Prop
  | .region physicalMemoryOffset bytes alignment result, t =>
    DmaRegion.allocate a physicalMemoryOffset bytes alignment = (t, result)
  | .frames event result, t => a.next event = some (t, result)

def HandsOut : DmaCall → ℕ → Prop
  | .region _ _ _ (.ok r), f => f ∈ r.frames
  | .region _ _ _ (.error _), _ => False
  | .frames event result, f => BitmapFrameAllocator.HandsOut (event, result) f

/-- A region is never given back. -/
def Frees : DmaCall → ℕ → Prop
  | .region .., _ => False
  | .frames event result, f => BitmapFrameAllocator.Frees (event, result) f

def SetStep (free : Finset ℕ) : DmaCall → Finset ℕ → Prop
  | .region physicalMemoryOffset bytes alignment result, free' =>
    Reserves free free' physicalMemoryOffset bytes alignment result
  | .frames event result, free' => BitmapFrameAllocator.SetStep free event result free'

theorem setStep_moves :
    Pool.Moves (fun (free : Finset ℕ) f ↦ f ∈ free) HandsOut Frees SetStep where
  taken := by
    intro free call free' f hstep hf
    cases call with
    | region physicalMemoryOffset bytes alignment result =>
      cases result with
      | error e => exact absurd hf id
      | ok r => exact hstep.taken r rfl f hf
    | frames event result =>
      exact BitmapFrameAllocator.SetStep.taken (e := (event, result)) hstep hf
  given := by
    intro free call free' f hstep hf
    cases call with
    | region physicalMemoryOffset bytes alignment result => exact .inl (hstep.subset hf)
    | frames event result =>
      exact BitmapFrameAllocator.SetStep.given (e := (event, result)) hstep hf

theorem simulates {s a : BitmapFrameAllocator} {calls : List DmaCall} (hs : s.Counted)
    (h : Run Step s calls a) : a.Counted ∧ Run SetStep s.freeSet calls a.freeSet := by
  induction h with
  | nil => exact ⟨hs, .nil⟩
  | @snoc calls call t u _ hstep ih =>
    cases call with
    | region physicalMemoryOffset bytes alignment result =>
      obtain ⟨hcounted, hreserves⟩ := ih.1.allocateRegion hstep
      exact ⟨hcounted, ih.2.snoc hreserves⟩
    | frames event result =>
      obtain ⟨hcounted, hset⟩ := ih.1.of_next (e := (event, result)) hstep
      exact ⟨hcounted, ih.2.snoc hset⟩

theorem placed_of_run {free free' : Finset ℕ} {calls : List DmaCall}
    {physicalMemoryOffset bytes alignment : U64} {r : DmaRegion} (h : Run SetStep free calls free')
    (hcall : .region physicalMemoryOffset bytes alignment (.ok r) ∈ calls) :
    r.Placed physicalMemoryOffset bytes alignment := by
  induction h with
  | nil => exact absurd hcall List.not_mem_nil
  | snoc _ hstep ih =>
    rcases List.mem_append.mp hcall with hold | hlast
    · exact ih hold
    · rw [← List.mem_singleton.mp hlast] at hstep
      exact hstep.placed r rfl

end DmaCall

/-- Regions share no byte while their frames are not freed. -/
theorem dma_regions_consistent {a : BitmapFrameAllocator} {calls : List DmaCall}
    (h : Run DmaCall.Step new calls a) :
    (∀ physicalMemoryOffset bytes alignment region,
      DmaCall.region physicalMemoryOffset bytes alignment (.ok region) ∈ calls →
      (frameSize ∣ region.physicalStart.toNat ∧ alignment.toNat ∣ region.physicalStart.toNat ∧
        region.physicalStart.toNat + region.len.toNat ≤ legacyDmaLimit.toNat ∧
        bytes.toNat ≤ region.len.toNat) ∧
      (∀ offset, (region.physicalAt offset).isSome ↔ offset.toNat < region.len.toNat) ∧
      (∀ size offset, (region.pointerAt size offset).isSome ↔
        offset.toNat + size.toNat ≤ region.len.toNat) ∧
      ∀ size offset physical pointer, region.physicalAt offset = some physical →
        region.pointerAt size offset = some pointer →
        pointer.toNat = physicalMemoryOffset.toNat + physical.toNat) ∧
    ∀ pre x mid y post o b l region o' b' l' region',
      calls = pre ++ x :: mid ++ y :: post →
      x = DmaCall.region o b l (.ok region) → y = DmaCall.region o' b' l' (.ok region') →
      (∀ call ∈ mid, ∀ f ∈ region.frames, ¬ call.Frees f) →
      ∀ byte ∈ region.range, byte ∉ region'.range := by
  obtain ⟨-, hsets⟩ := DmaCall.simulates counted_new h
  constructor
  · intro physicalMemoryOffset bytes alignment region hcall
    have hplaced := DmaCall.placed_of_run hsets hcall
    refine ⟨⟨hplaced.page, hplaced.aligned, hplaced.below, hplaced.room⟩,
      fun _ ↦ hplaced.isSome_physicalAt_iff, fun _ _ ↦ hplaced.isSome_pointerAt_iff,
      fun _ _ _ _ hphysical hpointer ↦ ?_⟩
    rw [(DmaRegion.pointerAt_eq_some_iff.mp hpointer).2,
      (DmaRegion.physicalAt_eq_some_iff.mp hphysical).2, hplaced.direct, Nat.add_assoc]
  · intro pre x mid y post o b l region o' b' l' region' hcalls hx hy hkept
    have hplaced : region.Placed o b l := DmaCall.placed_of_run hsets (by simp [hcalls, hx])
    have hplaced' : region'.Placed o' b' l' := DmaCall.placed_of_run hsets (by simp [hcalls, hy])
    intro byte hbyte hother
    have hframe := hplaced.div_mem_frames hbyte
    have hhands : x.HandsOut (byte / frameSize) := by rwa [hx]
    have hhands' : y.HandsOut (byte / frameSize) := hy ▸ hplaced'.div_mem_frames hother
    obtain ⟨call, hcall, hfreed⟩ := DmaCall.setStep_moves.handed_twice hsets hcalls hhands hhands'
    exact hkept call hcall _ hframe hfreed

theorem dma_regions_consistent_two : ∃ a region region',
    Run DmaCall.Step new
      [.frames (.markRegionFree 4096 20480) none,
        .region 0xFFFF800000000000 5000 8192 (.ok region),
        .region 0xFFFF800000000000 1 4096 (.ok region')] a ∧
    region = ⟨8192, 0xFFFF800000002000, 8192⟩ ∧ region' = ⟨4096, 0xFFFF800000001000, 4096⟩ ∧
    ∀ byte ∈ region.range, byte ∉ region'.range := by
  have hcounted := counted_new.markRegionFree 4096 20480
  have hmem (f : ℕ) : f ∈ (new.markRegionFree 4096 20480).freeSet ↔
      1 ≤ f ∧ f < 5 := by
    have hframes : 5 ≤ maxFrames := by decide
    have hlow : (4096 : U64).toNat / frameSize = 1 := by decide
    have hhigh : (20480 : U64).toNat / frameSize = 5 := by decide
    rw [freeSet_markRegionFree, freeSet_new, hlow, hhigh,
      Finset.empty_union, Finset.mem_filter, Finset.mem_Ico]
    omega
  have htwo : (DmaRegion.pages 5000).toNat = 2 := by decide
  have hone : (DmaRegion.pages 1).toNat = 1 := by decide
  obtain ⟨t, hallocate, hcounted', hfree'⟩ :=
    hcounted.allocateRegion_of_run 0xFFFF800000000000 5000 8192 (by decide) (by decide)
      (show IsLeast _ 2 by
        refine ⟨⟨by decide, by decide, fun f hf ↦ ?_⟩, fun start hrun ↦ ?_⟩
        · rw [htwo, Finset.mem_Ico] at hf
          rw [hmem]
          omega
        · have hfirst := (hmem start).mp (hrun.free start (by rw [htwo, Finset.mem_Ico]; omega))
          have haligned : 2 ∣ start := hrun.aligned
          omega)
  rw [htwo] at hfree'
  obtain ⟨u, hallocate', -⟩ :=
    hcounted'.allocateRegion_of_run 0xFFFF800000000000 1 4096 (by decide) (by decide)
      (show IsLeast _ 1 by
        refine ⟨⟨by decide, by decide, fun f hf ↦ ?_⟩, fun start hrun ↦ ?_⟩
        · rw [hone, Finset.mem_Ico] at hf
          rw [hfree', Finset.mem_sdiff, hmem, Finset.mem_Ico]
          omega
        · have hfirst := hrun.free start (by rw [hone, Finset.mem_Ico]; omega)
          rw [hfree', Finset.mem_sdiff, hmem] at hfirst
          exact hfirst.1.1)
  have hrun : Run DmaCall.Step new
      [.frames (.markRegionFree 4096 20480) none,
        .region 0xFFFF800000000000 5000 8192 (.ok ⟨8192, 0xFFFF800000002000, 8192⟩),
        .region 0xFFFF800000000000 1 4096 (.ok ⟨4096, 0xFFFF800000001000, 4096⟩)] u :=
    .cons rfl (.cons hallocate (.cons hallocate' .nil))
  exact ⟨u, _, _, hrun, rfl, rfl, (dma_regions_consistent hrun).2 [_] _ [] _ [] _ _ _ _ _ _ _ _
    rfl rfl rfl nofun⟩

end BraneKernel
