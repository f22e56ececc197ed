import BraneKernel.Lib.Search
import BraneKernel.Memory.FreeSet
import Mathlib.Order.Bounds.Defs

namespace BraneKernel.BitmapFrameAllocator

variable {a : BitmapFrameAllocator} {limit : U64} {f : ℕ}

theorem address_toNat (hf : f ≤ maxFrames) : (address f).toNat = f * frameSize := by
  have hword : maxFrames * frameSize < 2 ^ 64 := by decide
  have hle := Nat.mul_le_mul_right frameSize hf
  rw [address, BitVec.toNat_ofNat, Nat.mod_eq_of_lt (hle.trans_lt hword)]

section Below

theorem freeBelow_some {frame : Frame} (h : a.freeBelow limit f = some frame) :
    frame.1 = f ∧ f < limitFrames limit ∧ f ∈ a.freeSet := by
  rw [freeBelow] at h
  dsimp only at h
  split_ifs at h with hf hused
  cases h
  exact ⟨rfl, hf, (mem_freeSet_mk _).mpr (Bool.eq_false_iff.mpr hused)⟩

theorem freeBelow_none (h : a.freeBelow limit f = none) (hf : f < limitFrames limit) :
    f ∉ a.freeSet := by
  rw [freeBelow, dif_pos hf] at h
  intro hmem
  obtain ⟨hlt, hclear⟩ := mem_freeSet.mp hmem
  dsimp only at h
  rw [hclear] at h
  simp at h

variable {byteIdx : Fin (byteCount limit)}

theorem findInByte_none (h : a.findInByte limit byteIdx = none) (hbyte : f / 8 = byteIdx.1)
    (hf : f < limitFrames limit) : f ∉ a.freeSet := by
  rw [findInByte] at h
  split_ifs at h with hfull
  · have hmiss := Search.no_hit h ⟨f % 8, Nat.mod_lt f (by decide)⟩
    rw [← hbyte, Nat.div_add_mod'] at hmiss
    exact freeBelow_none hmiss hf
  · intro hmem
    obtain ⟨hlt, hclear⟩ := mem_freeSet.mp hmem
    have hbits : ∀ bit < 8, (0xFF : BitVec 8).getLsbD bit = true := by decide
    have hindex : byteOf ⟨f, hlt⟩ = byteIdx.castLE (byteCount_le limit) := Fin.ext hbyte
    rw [isUsed_eq, hindex, not_not.mp hfull] at hclear
    exact Bool.false_ne_true (hclear.symm.trans (hbits _ (Nat.mod_lt f (by decide))))

theorem findInByte_some {frame : Frame} (h : a.findInByte limit byteIdx = some frame) :
    frame.1 / 8 = byteIdx.1 ∧ frame.1 < limitFrames limit ∧ frame.1 ∈ a.freeSet ∧
      ∀ g ∈ a.freeSet, g < limitFrames limit → g / 8 = byteIdx.1 → frame.1 ≤ g := by
  rw [findInByte] at h
  split_ifs at h
  obtain ⟨bit, hbit, hbefore⟩ := Search.first_hit h
  obtain ⟨heq, hlt, hmem⟩ := freeBelow_some hbit
  rw [heq]
  refine ⟨by omega, hlt, hmem, fun g hg hglt hgbyte ↦ ?_⟩
  by_contra hless
  have hmiss := hbefore ⟨g % 8, Nat.mod_lt g (by decide)⟩ (by
    rw [Fin.lt_def]
    dsimp only
    omega)
  rw [← hgbyte, Nat.div_add_mod'] at hmiss
  exact freeBelow_none hmiss hglt hg

theorem findBelow_some {frame : Frame} (h : a.findBelow limit = some frame) :
    frame.1 < limitFrames limit ∧ frame.1 ∈ a.freeSet ∧
      ∀ g ∈ a.freeSet, g < limitFrames limit → frame.1 ≤ g := by
  obtain ⟨byteIdx, hbyte, hbefore⟩ := Search.first_hit h
  obtain ⟨hindex, hlt, hmem, hleast⟩ := findInByte_some hbyte
  refine ⟨hlt, hmem, fun g hg hglt ↦ ?_⟩
  by_contra hless
  by_cases hgbyte : g / 8 = byteIdx.1
  · exact hless (hleast g hg hglt hgbyte)
  · have hsmaller : g / 8 < byteIdx.1 := by omega
    have hmiss := hbefore ⟨g / 8, hsmaller.trans byteIdx.2⟩ hsmaller
    exact findInByte_none hmiss rfl hglt hg

theorem findBelow_none (h : a.findBelow limit = none) (hf : f < limitFrames limit) :
    f ∉ a.freeSet := by
  have hindex : f / 8 < byteCount limit := by
    rw [byteCount]
    omega
  exact findInByte_none (Search.no_hit h ⟨f / 8, hindex⟩) rfl hf

theorem lt_limitFrames_iff (hf : f < maxFrames) :
    f < limitFrames limit ↔ (f + 1) * frameSize ≤ limit.toNat := by
  rw [limitFrames, lt_min_iff, and_iff_left hf, ← Nat.le_div_iff_mul_le (by decide)]
  rfl

end Below

section Run

variable {alignmentFrames : U64} {start count : ℕ} {hrun : start + count ≤ limitFrames limit}

theorem map_runFrames :
    (runFrames limit start count hrun).map Fin.val = List.range' start count := by
  rw [runFrames, List.map_map, List.range'_eq_map_range, ← List.map_coe_finRange_eq_range,
    List.map_map]
  rfl

theorem any_isUsed_runFrames :
    (runFrames limit start count hrun).any a.isUsed = false ↔
      ∀ f ∈ Finset.Ico start (start + count), f ∈ a.freeSet := by
  have hmem (f : ℕ) : f ∈ Finset.Ico start (start + count) ↔
      ∃ frame ∈ runFrames limit start count hrun, frame.1 = f := by
    rw [Finset.mem_Ico, ← List.mem_range'_1, ← map_runFrames, List.mem_map]
  rw [List.any_eq_false]
  constructor
  · intro h f hf
    obtain ⟨frame, hframe, rfl⟩ := (hmem f).mp hf
    exact (mem_freeSet_mk frame).mpr (Bool.eq_false_iff.mpr (h frame hframe))
  · intro h frame hframe
    have hfree := h frame.1 ((hmem frame.1).mpr ⟨frame, hframe, rfl⟩)
    exact Bool.eq_false_iff.mp ((mem_freeSet_mk frame).mp hfree)

theorem runAt_none (h : a.runAt limit alignmentFrames start count hrun = none)
    (hdvd : alignmentFrames.toNat ∣ start) :
    ¬ ∀ f ∈ Finset.Ico start (start + count), f ∈ a.freeSet := by
  intro hfree
  rw [runAt, if_neg (not_not.mpr hdvd)] at h
  dsimp only at h
  rw [any_isUsed_runFrames.mpr hfree] at h
  simp at h

/-- Frames `start` to `start + count` are free, end below the limit, and start at a multiple of
the alignment. -/
structure IsRun (free : Finset ℕ) (count limit alignmentFrames : U64) (start : ℕ) : Prop where
  aligned : alignmentFrames.toNat ∣ start
  below : (start + count.toNat) * frameSize ≤ limit.toNat
  free : ∀ f ∈ Finset.Ico start (start + count.toNat), f ∈ free

variable {count : U64} {hcount : count.toNat ≤ limitFrames limit}

theorem IsRun.le_limitFrames (h : IsRun a.freeSet count limit alignmentFrames start)
    (hpos : 0 < count.toNat) : start + count.toNat ≤ limitFrames limit := by
  have hlast := h.free (start + count.toNat - 1) (Finset.mem_Ico.mpr (by omega))
  have hlt := lt_of_mem_freeSet hlast
  have hdiv := (Nat.le_div_iff_mul_le (by decide)).mpr h.below
  rw [limitFrames, le_min_iff]
  exact ⟨hdiv, by omega⟩

theorem findRun_none (hpos : 0 < count.toNat)
    (h : a.findRun limit alignmentFrames count.toNat hcount = none) :
    ¬ IsRun a.freeSet count limit alignmentFrames start := by
  intro hrun
  have hle := hrun.le_limitFrames hpos
  have hmiss := Search.no_hit h ⟨start, by omega⟩
  exact runAt_none hmiss hrun.aligned hrun.free

theorem findRun_some {frames : List Frame}
    (h : a.findRun limit alignmentFrames count.toNat hcount = some (frames, start)) :
    IsLeast {start | IsRun a.freeSet count limit alignmentFrames start} start ∧
      frames.map Fin.val = List.range' start count.toNat := by
  obtain ⟨i, hi, hbefore⟩ := Search.first_hit h
  rw [runAt] at hi
  dsimp only at hi
  split_ifs at hi with hdvd hused
  obtain ⟨rfl, rfl⟩ := Prod.mk.inj (Option.some.inj hi)
  have hbelow : (i.1 + count.toNat) * frameSize ≤ limit.toNat := by
    have hle : i.1 + count.toNat ≤ limitFrames limit := by omega
    exact (Nat.le_div_iff_mul_le (by decide)).mp (hle.trans (Nat.min_le_left _ _))
  have hfree := any_isUsed_runFrames.mp (Bool.eq_false_iff.mpr hused)
  refine ⟨⟨⟨hdvd, hbelow, hfree⟩, fun other hother ↦ ?_⟩, map_runFrames⟩
  by_contra hless
  have hlt : other < i.1 := Nat.lt_of_not_le hless
  have hmiss := hbefore ⟨other, hlt.trans i.2⟩ hlt
  exact runAt_none hmiss hother.aligned hother.free

end Run

/-- A set of free frames and what each call does to it. -/
inductive SetStep (free : Finset ℕ) : FrameEvent → Option U64 → Finset ℕ → Prop
  | markRegionFree (start stop : U64) :
      SetStep free (.markRegionFree start stop) none (free ∪
        (Finset.Ico (start.toNat / frameSize) (stop.toNat / frameSize)).filter (· < maxFrames))
  | markRegionUsed (start stop : U64) :
      SetStep free (.markRegionUsed start stop) none (free \
        Finset.Ico (start.toNat / frameSize) ((stop.toNat + frameSize - 1) / frameSize))
  | take {limit : U64} {f : ℕ}
      (h : IsLeast {f | f ∈ free ∧ (f + 1) * frameSize ≤ limit.toNat} f) :
      SetStep free (.allocateBelow limit) (some (address f)) (free.erase f)
  | refuse {limit : U64} (h : ∀ f ∈ free, ¬ (f + 1) * frameSize ≤ limit.toNat) :
      SetStep free (.allocateBelow limit) none free
  | allocate {r : Option U64} {free' : Finset ℕ}
      (h : SetStep free (.allocateBelow (BitVec.ofNat 64 maxMemory)) r free') :
      SetStep free .allocate r free'
  | takeRun {count limit alignmentFrames : U64} {start : ℕ} (hcount : 0 < count.toNat)
      (halignment : isPowerOfTwo alignmentFrames = true)
      (h : IsLeast {start | IsRun free count limit alignmentFrames start} start) :
      SetStep free (.allocateContiguousBelow count limit alignmentFrames) (some (address start))
        (free \ Finset.Ico start (start + count.toNat))
  | refuseRun {count limit alignmentFrames : U64}
      (h : 0 < count.toNat → isPowerOfTwo alignmentFrames = true →
        ∀ start, ¬ IsRun free count limit alignmentFrames start) :
      SetStep free (.allocateContiguousBelow count limit alignmentFrames) none free
  | deallocate (addr : U64) :
      SetStep free (.deallocate addr) none
        (if addr.toNat / frameSize < maxFrames then insert (addr.toNat / frameSize) free else free)

theorem Counted.allocateBelow (h : a.Counted) (limit : U64) :
    (a.allocateBelow limit).1.Counted ∧ SetStep a.freeSet (.allocateBelow limit)
      (a.allocateBelow limit).2 (a.allocateBelow limit).1.freeSet := by
  rw [BitmapFrameAllocator.allocateBelow]
  cases hfind : a.findBelow limit with
  | none =>
    refine ⟨h, .refuse fun f hf hend ↦ ?_⟩
    have hlt := (lt_limitFrames_iff (lt_of_mem_freeSet hf)).mpr hend
    exact findBelow_none hfind hlt hf
  | some frame =>
    obtain ⟨hlt, hmem, hleast⟩ := findBelow_some hfind
    have hset := freeSet_setUsed a frame
    dsimp only
    constructor
    · change a.freeFrames - 1 = (a.setUsed frame).freeSet.card
      rw [hset, Finset.card_erase_of_mem hmem, ← h]
    · change SetStep a.freeSet _ _ (a.setUsed frame).freeSet
      rw [hset]
      refine .take ⟨⟨hmem, (lt_limitFrames_iff frame.2).mp hlt⟩, fun g hg ↦ ?_⟩
      exact hleast g hg.1 ((lt_limitFrames_iff (lt_of_mem_freeSet hg.1)).mpr hg.2)

theorem Counted.allocateContiguousBelow (h : a.Counted) (count limit alignmentFrames : U64) :
    (a.allocateContiguousBelow count limit alignmentFrames).1.Counted ∧
      SetStep a.freeSet (.allocateContiguousBelow count limit alignmentFrames)
        (a.allocateContiguousBelow count limit alignmentFrames).2
        (a.allocateContiguousBelow count limit alignmentFrames).1.freeSet := by
  rw [BitmapFrameAllocator.allocateContiguousBelow]
  split_ifs with hargs hcount
  · refine ⟨h, .refuseRun fun hpos hpower ↦ ?_⟩
    rcases hargs with hzero | hpower'
    · rw [hzero] at hpos
      exact absurd hpos (Nat.lt_irrefl 0)
    · exact absurd hpower hpower'
  · refine ⟨h, .refuseRun fun hpos _ start hrun ↦ ?_⟩
    have hle := hrun.le_limitFrames hpos
    omega
  · rw [not_or, not_not] at hargs
    have hpos : 0 < count.toNat := by
      apply Nat.pos_of_ne_zero
      intro hzero
      exact hargs.1 (BitVec.eq_of_toNat_eq hzero)
    cases hfind : a.findRun limit alignmentFrames count.toNat (Nat.le_of_not_lt hcount) with
    | none => exact ⟨h, .refuseRun fun _ _ start ↦ findRun_none hpos hfind⟩
    | some found =>
      obtain ⟨frames, start⟩ := found
      obtain ⟨hleast, hframes⟩ := findRun_some hfind
      obtain ⟨hset, hfree⟩ := foldl_setUsed frames a
      rw [hframes, toFinset_range'_add] at hset
      dsimp only
      constructor
      · change (frames.foldl setUsed a).freeFrames - count.toNat =
          (frames.foldl setUsed a).freeSet.card
        rw [hfree, hset, Finset.card_sdiff_of_subset hleast.1.free, Nat.card_Ico,
          Nat.add_sub_cancel_left, ← h]
      · change SetStep a.freeSet _ _ (frames.foldl setUsed a).freeSet
        rw [hset]
        exact .takeRun hpos hargs.2 hleast

end BraneKernel.BitmapFrameAllocator
