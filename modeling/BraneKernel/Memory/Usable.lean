import BraneKernel.Memory.Refinement

namespace BraneKernel.BitmapFrameAllocator

open Trace (Run)

variable {a : BitmapFrameAllocator} {f : ℕ} {map : List (U64 × U64)}

def fromMap (map : List (U64 × U64)) : BitmapFrameAllocator :=
  map.foldl (fun a region ↦ a.markRegionFree region.1 region.2) .new

def Usable (map : List (U64 × U64)) (byte : ℕ) : Prop :=
  ∃ region ∈ map, region.1.toNat ≤ byte ∧ byte < region.2.toNat

def FrameUsable (map : List (U64 × U64)) (f : ℕ) : Prop :=
  ∀ byte, f * frameSize ≤ byte → byte < (f + 1) * frameSize → Usable map byte

/-- Where a range starts inside a frame and reaches its end, the bytes of that frame before the
range are usable too. -/
def HeadsUsable (map : List (U64 × U64)) : Prop :=
  ∀ region ∈ map, region.1.toNat / frameSize < region.2.toNat / frameSize →
    region.1.toNat / frameSize < maxFrames →
    ∀ byte, region.1.toNat / frameSize * frameSize ≤ byte → byte < region.1.toNat →
      Usable map byte

/-- After the map has been read, only frames that were handed out are freed. -/
def OnlyReturns (es : List Answered) : Prop :=
  ∀ pre e post f, es = pre ++ e :: post → Frees e f → ∃ c ∈ pre, HandsOut c f

theorem mem_foldl_markRegionFree :
    f ∈ (map.foldl (fun a region ↦ a.markRegionFree region.1 region.2) a).freeSet ↔
      f ∈ a.freeSet ∨ f < maxFrames ∧ ∃ region ∈ map,
        region.1.toNat / frameSize ≤ f ∧ f < region.2.toNat / frameSize := by
  induction map generalizing a with
  | nil => simp
  | cons region map ih =>
    rw [List.foldl_cons, ih, freeSet_markRegionFree, Finset.mem_union, Finset.mem_filter,
      Finset.mem_Ico, List.exists_mem_cons_iff, or_assoc, and_or_left,
      and_comm (b := f < maxFrames)]

theorem mem_freeSet_fromMap : f ∈ (fromMap map).freeSet ↔ f < maxFrames ∧ ∃ region ∈ map,
    region.1.toNat / frameSize ≤ f ∧ f < region.2.toNat / frameSize := by
  rw [fromMap, mem_foldl_markRegionFree, freeSet_new]
  simp

theorem counted_fromMap (map : List (U64 × U64)) : (fromMap map).Counted := by
  rw [fromMap]
  induction map using List.reverseRecOn with
  | nil => exact counted_new
  | append_singleton map region ih =>
    rw [List.foldl_append]
    exact ih.markRegionFree region.1 region.2

theorem HeadsUsable.frameUsable (h : HeadsUsable map) (hf : f ∈ (fromMap map).freeSet) :
    FrameUsable map f := by
  obtain ⟨hlt, region, hregion, hstart, hstop⟩ := mem_freeSet_fromMap.mp hf
  intro byte hlow hhigh
  have hend : (f + 1) * frameSize ≤ region.2.toNat :=
    (Nat.le_div_iff_mul_le (by decide)).mp hstop
  by_cases hbyte : region.1.toNat ≤ byte
  · exact ⟨region, hregion, hbyte, hhigh.trans_le hend⟩
  · have hbefore := Nat.lt_of_not_le hbyte
    have hhead : region.1.toNat / frameSize = f :=
      Nat.le_antisymm hstart ((Nat.le_div_iff_mul_le (by decide)).mpr (hlow.trans hbefore.le))
    rw [← hhead] at hstop hlt hlow
    exact h region hregion hstop hlt byte hlow hbefore

theorem Counted.allocate_upTo (h : a.Counted) (hf : f ∈ a.freeSet) : ∃ t g,
    a.next (.allocateBelow (address (f + 1))) = some (t, some (address g)) ∧ t.Counted ∧
      g ∈ a.freeSet ∧ t.freeSet = a.freeSet.erase g := by
  have hlimit := address_toNat (Nat.succ_le_of_lt (lt_of_mem_freeSet hf))
  obtain ⟨t, r, hnext, hcounted, hstep⟩ := h.next (.allocateBelow (address (f + 1)))
  generalize hset : t.freeSet = free' at hstep
  cases hstep with
  | refuse hnone => exact absurd hlimit.ge (hnone f hf)
  | @take _ g hleast => exact ⟨t, g, hnext, hcounted, hleast.1.1, hset⟩

theorem Counted.exists_handout (h : a.Counted) (hf : f ∈ a.freeSet) : ∃ es t,
    Run (fun a (e : Answered) t ↦ BitmapFrameAllocator.next a e.1 = some (t, e.2)) a es t ∧
      (∀ e ∈ es, ∀ f, ¬ Frees e f) ∧ ∃ e ∈ es, HandsOut e f := by
  induction hcard : a.freeSet.card generalizing a with
  | zero =>
    rw [Finset.card_eq_zero.mp hcard] at hf
    exact absurd hf (Finset.notMem_empty f)
  | succ n ih =>
    obtain ⟨t, g, hnext, hcounted, hg, hset⟩ := h.allocate_upTo hf
    let call : Answered := (.allocateBelow (address (f + 1)), some (address g))
    by_cases hgf : f = g
    · have hhands : HandsOut call f := by
        change f = (address g).toNat / frameSize
        rw [address_toNat (lt_of_mem_freeSet hg).le, Nat.mul_div_cancel g (by decide), hgf]
      refine ⟨[call], t, .cons hnext .nil, ?_, call, List.mem_cons_self, hhands⟩
      intro e he
      rw [List.mem_singleton.mp he]
      exact fun _ ↦ id
    · have hcard' : t.freeSet.card = n := by
        rw [hset, Finset.card_erase_of_mem hg, hcard]
        rfl
      have hf' : f ∈ t.freeSet := by
        rw [hset]
        exact Finset.mem_erase.mpr ⟨hgf, hf⟩
      obtain ⟨es, u, hrun, hfrees, e, he, hhands⟩ := ih hcounted hf' hcard'
      refine ⟨call :: es, u, .cons hnext hrun, ?_, e, List.mem_cons_of_mem call he, hhands⟩
      intro e he
      rcases List.mem_cons.mp he with rfl | he
      · exact fun _ ↦ id
      · exact hfrees e he

/-- Only usable frames are ever handed out, exactly when no range starts inside a frame whose bytes
before it are not usable. -/
theorem only_usable_iff (map : List (U64 × U64)) :
    (∀ es a, Run (fun a (e : Answered) t ↦ BitmapFrameAllocator.next a e.1 = some (t, e.2))
        (fromMap map) es a → OnlyReturns es →
      ∀ e ∈ es, ∀ f, HandsOut e f → FrameUsable map f) ↔ HeadsUsable map := by
  have hcounted := counted_fromMap map
  constructor
  · intro h region hregion hstart hlt byte hlow hhigh
    have hfree : region.1.toNat / frameSize ∈ (fromMap map).freeSet :=
      mem_freeSet_fromMap.mpr ⟨hlt, region, hregion, Nat.le_refl _, hstart⟩
    obtain ⟨es, t, hrun, hfrees, e, he, hhands⟩ := hcounted.exists_handout hfree
    have hreturns : OnlyReturns es := by
      intro pre c post f hes hc
      have hmem : c ∈ es := by
        rw [hes]
        exact List.mem_append_right pre List.mem_cons_self
      exact absurd hc (hfrees c hmem f)
    refine h es t hrun hreturns e he _ hhands byte hlow ?_
    have hround := Nat.lt_succ_self (region.1.toNat / frameSize)
    exact hhigh.trans ((Nat.div_lt_iff_lt_mul (by decide)).mp hround)
  · intro h es a hrun hreturns e he f hhands
    have hstart := (setStep_moves.from_start (hcounted.simulates hrun).2 hreturns).2 e he f hhands
    exact h.frameUsable hstart

/-- A range that starts inside a frame frees the whole frame. -/
theorem unaligned_start_handed_out : ∃ a,
    (fromMap [(4097, 12288)]).next (.allocateBelow 16384) = some (a, some 4096) ∧
      ¬ FrameUsable [(4097, 12288)] 1 := by
  have hanswer : ((fromMap [(4097, 12288)]).allocateBelow 16384).2 = some 4096 := by
    decide +kernel
  refine ⟨((fromMap [(4097, 12288)]).allocateBelow 16384).1, ?_, ?_⟩
  · rw [BitmapFrameAllocator.next, ← hanswer]
  · intro h
    obtain ⟨region, hregion, hstart, -⟩ := h 4096 (by decide) (by decide)
    rw [List.mem_singleton.mp hregion] at hstart
    exact absurd hstart (by decide)

end BraneKernel.BitmapFrameAllocator
