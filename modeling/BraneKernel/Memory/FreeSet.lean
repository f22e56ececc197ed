import BraneKernel.Lib.Bits
import BraneKernel.Memory.Frames
import Mathlib.Data.Fintype.Card
import Mathlib.Order.Interval.Finset.Nat

namespace BraneKernel.BitmapFrameAllocator

variable {a : BitmapFrameAllocator} {f g : ℕ}

theorem isUsed_eq (a : BitmapFrameAllocator) (frame : Frame) :
    a.isUsed frame = (a.bitmap (byteOf frame)).getLsbD (frame.1 % 8) := by
  have hmask := Bits.and_mask_ne_zero_iff (a.bitmap (byteOf frame))
    (Nat.mod_lt frame.1 (by decide : 8 > 0))
  rw [isUsed, Bool.eq_iff_iff, decide_eq_true_iff]
  exact hmask

theorem eq_of_byteOf_eq {frame other : Frame} (hbyte : byteOf other = byteOf frame)
    (hbit : other.1 % 8 = frame.1 % 8) : other = frame := by
  rw [byteOf, byteOf, Fin.mk.injEq] at hbyte
  apply Fin.ext
  omega

theorem isUsed_update {a : BitmapFrameAllocator} {frame : Frame} {byte : BitVec 8} {used : Bool}
    (hbyte : ∀ bit < 8, byte.getLsbD bit =
      if bit = frame.1 % 8 then used else (a.bitmap (byteOf frame)).getLsbD bit) (other : Frame) :
    isUsed { a with bitmap := Function.update a.bitmap (byteOf frame) byte } other =
      if other = frame then used else a.isUsed other := by
  rw [isUsed_eq, isUsed_eq]
  dsimp only
  by_cases hindex : byteOf other = byteOf frame
  · rw [hindex, Function.update_self, hbyte _ (Nat.mod_lt _ (by decide))]
    refine if_congr ⟨eq_of_byteOf_eq hindex, ?_⟩ rfl rfl
    rintro rfl
    rfl
  · have hne : other ≠ frame := by
      rintro rfl
      exact hindex rfl
    rw [Function.update_of_ne hindex, if_neg hne]

theorem isUsed_setUsed (a : BitmapFrameAllocator) (frame other : Frame) :
    (a.setUsed frame).isUsed other = if other = frame then true else a.isUsed other :=
  isUsed_update (fun _ hbit ↦ Bits.getLsbD_or_mask _ hbit) other

theorem isUsed_setFree (a : BitmapFrameAllocator) (frame other : Frame) :
    (a.setFree frame).isUsed other = if other = frame then false else a.isUsed other :=
  isUsed_update (fun _ hbit ↦ Bits.getLsbD_and_not_mask _ hbit) other

def freeSet (a : BitmapFrameAllocator) : Finset ℕ :=
  (Finset.univ.filter fun frame : Frame ↦ a.isUsed frame = false).map Fin.valEmbedding

theorem mem_freeSet : f ∈ a.freeSet ↔ ∃ h : f < maxFrames, a.isUsed ⟨f, h⟩ = false := by
  rw [freeSet, Finset.mem_map]
  constructor
  · rintro ⟨frame, hframe, rfl⟩
    rw [Finset.mem_filter] at hframe
    exact ⟨frame.2, hframe.2⟩
  · rintro ⟨h, hclear⟩
    exact ⟨⟨f, h⟩, Finset.mem_filter.mpr ⟨Finset.mem_univ _, hclear⟩, rfl⟩

theorem lt_of_mem_freeSet (h : f ∈ a.freeSet) : f < maxFrames := (mem_freeSet.mp h).1

theorem mem_freeSet_mk (frame : Frame) : frame.1 ∈ a.freeSet ↔ a.isUsed frame = false := by
  rw [mem_freeSet]
  constructor
  · rintro ⟨_, h⟩
    exact h
  · intro h
    exact ⟨frame.2, h⟩

theorem freeSet_setUsed (a : BitmapFrameAllocator) (frame : Frame) :
    (a.setUsed frame).freeSet = a.freeSet.erase frame.1 := by
  ext f
  rw [mem_freeSet, Finset.mem_erase, mem_freeSet]
  constructor
  · rintro ⟨hf, hclear⟩
    rw [isUsed_setUsed] at hclear
    split_ifs at hclear with hframe
    exact ⟨fun heq ↦ hframe (Fin.ext heq), hf, hclear⟩
  · rintro ⟨hne, hf, hclear⟩
    refine ⟨hf, ?_⟩
    rw [isUsed_setUsed, if_neg fun heq ↦ hne (congrArg Fin.val heq)]
    exact hclear

theorem freeSet_setFree (a : BitmapFrameAllocator) (frame : Frame) :
    (a.setFree frame).freeSet = insert frame.1 a.freeSet := by
  ext f
  rw [mem_freeSet, Finset.mem_insert, mem_freeSet]
  by_cases hf : f = frame.1
  · subst hf
    refine iff_of_true ⟨frame.2, ?_⟩ (.inl rfl)
    rw [isUsed_setFree, if_pos rfl]
  · rw [or_iff_right hf]
    refine exists_congr fun h ↦ ?_
    rw [isUsed_setFree, if_neg fun heq ↦ hf (congrArg Fin.val heq)]

/-- The counter is the number of clear bits. -/
def Counted (a : BitmapFrameAllocator) : Prop := a.freeFrames = a.freeSet.card

theorem freeSet_new : BitmapFrameAllocator.new.freeSet = ∅ := by
  apply Finset.eq_empty_of_forall_notMem
  intro f hf
  obtain ⟨h, hclear⟩ := mem_freeSet.mp hf
  have hbyte : ∀ bit < 8, (0xFF : BitVec 8).getLsbD bit = true := by decide
  rw [isUsed_eq] at hclear
  exact Bool.false_ne_true (hclear.symm.trans (hbyte _ (Nat.mod_lt _ (by decide))))

theorem counted_new : BitmapFrameAllocator.new.Counted := by
  rw [Counted, freeSet_new]
  rfl

section Free

theorem freeSet_freeFrame (a : BitmapFrameAllocator) (f : ℕ) :
    (a.freeFrame f).freeSet = if f < maxFrames then insert f a.freeSet else a.freeSet := by
  rw [freeFrame]
  by_cases hf : f < maxFrames
  · rw [dif_pos hf, if_pos hf]
    by_cases hused : a.isUsed ⟨f, hf⟩ = true
    · rw [if_pos hused]
      exact freeSet_setFree a ⟨f, hf⟩
    · rw [if_neg hused, Finset.insert_eq_of_mem]
      exact mem_freeSet.mpr ⟨hf, Bool.eq_false_iff.mpr hused⟩
  · rw [dif_neg hf, if_neg hf]

theorem Counted.freeFrame (h : a.Counted) (f : ℕ) : (a.freeFrame f).Counted := by
  rw [BitmapFrameAllocator.freeFrame]
  split_ifs with hf hused
  · have hnot : f ∉ a.freeSet := by
      intro hmem
      rw [(mem_freeSet_mk ⟨f, hf⟩).mp hmem] at hused
      exact Bool.false_ne_true hused
    have hset := freeSet_setFree a ⟨f, hf⟩
    rw [Counted] at h ⊢
    dsimp only
    change _ = (a.setFree ⟨f, hf⟩).freeSet.card
    rw [hset, Finset.card_insert_of_notMem hnot, ← h]
    rfl
  · exact h
  · exact h

end Free

theorem toFinset_range'_add (start count : ℕ) :
    (List.range' start count).toFinset = Finset.Ico start (start + count) := by
  ext f
  rw [List.mem_toFinset, List.mem_range'_1, Finset.mem_Ico]

theorem toFinset_range'_sub (start stop : ℕ) :
    (List.range' start (stop - start)).toFinset = Finset.Ico start stop := by
  ext f
  rw [toFinset_range'_add, Finset.mem_Ico, Finset.mem_Ico]
  omega

theorem freeSet_markRegionFree (a : BitmapFrameAllocator) (start stop : U64) :
    (a.markRegionFree start stop).freeSet = a.freeSet ∪
      (Finset.Ico (start.toNat / frameSize) (stop.toNat / frameSize)).filter (· < maxFrames) := by
  rw [markRegionFree, ← toFinset_range'_sub]
  generalize List.range' _ _ = frames
  induction frames generalizing a with
  | nil => simp
  | cons f frames ih =>
    rw [List.foldl_cons, ih, freeSet_freeFrame, List.toFinset_cons, Finset.filter_insert]
    split_ifs with hf
    · rw [Finset.insert_union, Finset.union_insert]
    · rfl

theorem Counted.markRegionFree (h : a.Counted) (start stop : U64) :
    (a.markRegionFree start stop).Counted := by
  rw [BitmapFrameAllocator.markRegionFree]
  generalize List.range' _ _ = frames
  induction frames generalizing a with
  | nil => exact h
  | cons f frames ih => exact ih (h.freeFrame f)

section Reserve

theorem Counted.reserveFrame (h : a.Counted) (f : ℕ) :
    ∃ t, a.reserveFrame f = some t ∧ t.Counted ∧ t.freeSet = a.freeSet.erase f := by
  rw [BitmapFrameAllocator.reserveFrame]
  split_ifs with hf hused
  · refine ⟨a, rfl, h, ?_⟩
    rw [Finset.erase_eq_of_notMem]
    intro hmem
    rw [(mem_freeSet_mk ⟨f, hf⟩).mp hmem] at hused
    exact Bool.false_ne_true hused
  · have hmem : f ∈ a.freeSet := mem_freeSet.mpr ⟨hf, Bool.eq_false_iff.mpr hused⟩
    have hset := freeSet_setUsed a ⟨f, hf⟩
    have hpos := Finset.card_pos.mpr ⟨f, hmem⟩
    rw [← h] at hpos
    obtain ⟨count, hcount⟩ := Nat.exists_eq_add_one_of_ne_zero hpos.ne'
    have hfree : (a.setUsed ⟨f, hf⟩).freeFrames = count + 1 := hcount
    refine ⟨{ a.setUsed ⟨f, hf⟩ with freeFrames := count }, ?_, ?_, hset⟩
    · dsimp only
      rw [hfree]
    · change count = (a.setUsed ⟨f, hf⟩).freeSet.card
      rw [hset, Finset.card_erase_of_mem hmem, ← h, hcount]
      rfl
  · refine ⟨a, rfl, h, ?_⟩
    rw [Finset.erase_eq_of_notMem]
    exact fun hmem ↦ hf (lt_of_mem_freeSet hmem)

theorem Counted.markRegionUsed (h : a.Counted) (start stop : U64) :
    ∃ t, a.markRegionUsed start stop = some t ∧ t.Counted ∧ t.freeSet = a.freeSet \
      Finset.Ico (start.toNat / frameSize) ((stop.toNat + frameSize - 1) / frameSize) := by
  rw [← toFinset_range'_sub, BitmapFrameAllocator.markRegionUsed]
  generalize List.range' _ _ = frames
  induction frames generalizing a with
  | nil => exact ⟨a, rfl, h, by simp⟩
  | cons f frames ih =>
    obtain ⟨b, hb, hcounted, hset⟩ := h.reserveFrame f
    obtain ⟨t, ht, htcounted, htset⟩ := ih hcounted
    refine ⟨t, ?_, htcounted, ?_⟩
    · rw [List.foldlM_cons, hb]
      exact ht
    · rw [htset, hset, List.toFinset_cons, Finset.sdiff_insert, Finset.erase_sdiff_comm]

end Reserve

section Take

theorem foldl_setUsed (frames : List Frame) (a : BitmapFrameAllocator) :
    (frames.foldl setUsed a).freeSet = a.freeSet \ (frames.map Fin.val).toFinset ∧
      (frames.foldl setUsed a).freeFrames = a.freeFrames := by
  induction frames generalizing a with
  | nil => simp
  | cons frame frames ih =>
    obtain ⟨hset, hcount⟩ := ih (a.setUsed frame)
    rw [List.foldl_cons, List.map_cons, List.toFinset_cons, hset, hcount, freeSet_setUsed,
      Finset.sdiff_insert, Finset.erase_sdiff_comm]
    exact ⟨rfl, rfl⟩

end Take

end BraneKernel.BitmapFrameAllocator
