import BraneKernel.Lib.Pool
import BraneKernel.Memory.Allocation

namespace BraneKernel.BitmapFrameAllocator

open Trace (Run)

variable {a : BitmapFrameAllocator} {free free' : Finset ℕ} {f : ℕ}

abbrev Answered := FrameEvent × Option U64

def HandsOut : Answered → ℕ → Prop
  | (.allocate, some addr), f => f = addr.toNat / frameSize
  | (.allocateBelow _, some addr), f => f = addr.toNat / frameSize
  | (.allocateContiguousBelow count _ _, some addr), f =>
    addr.toNat / frameSize ≤ f ∧ f < addr.toNat / frameSize + count.toNat
  | _, _ => False

def Frees : Answered → ℕ → Prop
  | (.markRegionFree start stop, _), f =>
    start.toNat / frameSize ≤ f ∧ f < stop.toNat / frameSize
  | (.deallocate addr, _), f => f = addr.toNat / frameSize
  | _, _ => False

variable {limit : U64}

theorem address_div (h : f * frameSize ≤ limit.toNat) : (address f).toNat / frameSize = f := by
  have hword : f * frameSize < 2 ^ 64 := h.trans_lt limit.isLt
  rw [address, BitVec.toNat_ofNat, Nat.mod_eq_of_lt hword, Nat.mul_div_cancel f (by decide)]

theorem SetStep.taken_below {r : Option U64} (h : SetStep free (.allocateBelow limit) r free')
    {addr : U64} (hr : r = some addr) (hf : f = addr.toNat / frameSize) : f ∈ free ∧ f ∉ free' := by
  cases h with
  | refuse => exact absurd hr nofun
  | @take _ g hleast =>
    cases hr
    have hle : g * frameSize ≤ limit.toNat :=
      (Nat.mul_le_mul_right _ (Nat.le_succ g)).trans hleast.1.2
    rw [hf, address_div hle]
    exact ⟨hleast.1.1, Finset.notMem_erase g free⟩

theorem SetStep.taken_run {count alignmentFrames : U64} {r : Option U64}
    (h : SetStep free (.allocateContiguousBelow count limit alignmentFrames) r free') {addr : U64}
    (hr : r = some addr)
    (hf : addr.toNat / frameSize ≤ f ∧ f < addr.toNat / frameSize + count.toNat) :
    f ∈ free ∧ f ∉ free' := by
  cases h with
  | refuseRun => exact absurd hr nofun
  | @takeRun _ _ _ start hcount halignment hleast =>
    cases hr
    have hle : start * frameSize ≤ limit.toNat :=
      (Nat.mul_le_mul_right _ (Nat.le_add_right start count.toNat)).trans hleast.1.below
    rw [address_div hle] at hf
    have hmem := Finset.mem_Ico.mpr hf
    exact ⟨hleast.1.free f hmem, fun hleft ↦ (Finset.mem_sdiff.mp hleft).2 hmem⟩

variable {e : Answered}

theorem SetStep.taken (h : SetStep free e.1 e.2 free') (hf : HandsOut e f) :
    f ∈ free ∧ f ∉ free' := by
  obtain ⟨e, r⟩ := e
  cases r with
  | none => cases e <;> exact absurd hf id
  | some addr =>
    cases e with
    | markRegionFree | markRegionUsed | deallocate => exact absurd hf id
    | allocate =>
      cases h with
      | allocate h => exact h.taken_below rfl hf
    | allocateBelow limit => exact h.taken_below rfl hf
    | allocateContiguousBelow count limit alignmentFrames => exact h.taken_run rfl hf

theorem SetStep.subset_below {r : Option U64} (h : SetStep free (.allocateBelow limit) r free') :
    free' ⊆ free := by
  cases h with
  | refuse => exact Finset.Subset.refl free
  | take => exact Finset.erase_subset _ free

theorem SetStep.given (h : SetStep free e.1 e.2 free') (hf : f ∈ free') : f ∈ free ∨ Frees e f := by
  obtain ⟨e, r⟩ := e
  cases h with
  | markRegionFree start stop =>
    rcases Finset.mem_union.mp hf with hold | hnew
    · exact .inl hold
    · exact .inr (Finset.mem_Ico.mp (Finset.mem_filter.mp hnew).1)
  | markRegionUsed start stop => exact .inl (Finset.mem_sdiff.mp hf).1
  | take hleast => exact .inl (Finset.mem_of_mem_erase hf)
  | refuse hnone => exact .inl hf
  | allocate hbelow => exact .inl (hbelow.subset_below hf)
  | takeRun hcount halignment hleast => exact .inl (Finset.mem_sdiff.mp hf).1
  | refuseRun hnone => exact .inl hf
  | deallocate addr =>
    split_ifs at hf
    · rcases Finset.mem_insert.mp hf with hnew | hold
      · exact .inr hnew
      · exact .inl hold
    · exact .inl hf

theorem setStep_moves : Pool.Moves (fun (free : Finset ℕ) f ↦ f ∈ free) HandsOut Frees
    (fun free e free' ↦ SetStep free e.1 e.2 free') where
  taken := SetStep.taken
  given := SetStep.given

theorem Counted.next (h : a.Counted) (e : FrameEvent) : ∃ t r, a.next e = some (t, r) ∧
    t.Counted ∧ SetStep a.freeSet e r t.freeSet := by
  cases e with
  | markRegionFree start stop =>
    refine ⟨_, none, rfl, h.markRegionFree start stop, ?_⟩
    rw [freeSet_markRegionFree]
    exact .markRegionFree start stop
  | markRegionUsed start stop =>
    obtain ⟨t, ht, hcounted, hset⟩ := h.markRegionUsed start stop
    refine ⟨t, none, ?_, hcounted, ?_⟩
    · rw [BitmapFrameAllocator.next, ht, Option.map_some]
    · rw [hset]
      exact .markRegionUsed start stop
  | allocate =>
    obtain ⟨hcounted, hstep⟩ := h.allocateBelow (BitVec.ofNat 64 maxMemory)
    refine ⟨_, _, ?_, hcounted, .allocate hstep⟩
    rw [BitmapFrameAllocator.next, BitmapFrameAllocator.allocate]
  | allocateBelow limit => exact ⟨_, _, rfl, h.allocateBelow limit⟩
  | allocateContiguousBelow count limit alignmentFrames =>
    exact ⟨_, _, rfl, h.allocateContiguousBelow count limit alignmentFrames⟩
  | deallocate addr =>
    refine ⟨_, none, rfl, h.freeFrame _, ?_⟩
    rw [BitmapFrameAllocator.deallocate, freeSet_freeFrame]
    exact .deallocate addr

theorem Counted.of_next (h : a.Counted) {t : BitmapFrameAllocator}
    (hnext : a.next e.1 = some (t, e.2)) : t.Counted ∧ SetStep a.freeSet e.1 e.2 t.freeSet := by
  obtain ⟨t', r, hnext', hcounted, hstep⟩ := h.next e.1
  rw [hnext, Option.some.injEq, Prod.mk.injEq] at hnext'
  obtain ⟨rfl, rfl⟩ := hnext'
  exact ⟨hcounted, hstep⟩

theorem Counted.simulates {s : BitmapFrameAllocator} {es : List Answered} (h : s.Counted)
    (hrun : Run (fun a (e : Answered) t ↦ a.next e.1 = some (t, e.2)) s es a) :
    a.Counted ∧ Run (fun free (e : Answered) free' ↦ SetStep free e.1 e.2 free') s.freeSet es
      a.freeSet := by
  induction hrun with
  | nil => exact ⟨h, .nil⟩
  | snoc _ hnext ih =>
    obtain ⟨hcounted, hstep⟩ := ih.1.of_next hnext
    exact ⟨hcounted, ih.2.snoc hstep⟩

/-- In every run the allocator keeps a set of free frames: its counter is the size of the set, each
call returns and does what the set asks, and a frame handed out twice was freed in between. -/
theorem refines_free_set {es : List Answered}
    (h : Run (fun a (e : Answered) t ↦ BitmapFrameAllocator.next a e.1 = some (t, e.2))
      BitmapFrameAllocator.new es a) :
    a.freeFrames = a.freeSet.card ∧
    (∀ e, ∃ t r, a.next e = some (t, r) ∧ SetStep a.freeSet e r t.freeSet) ∧
    ∀ pre x mid y post f, es = pre ++ x :: mid ++ y :: post → HandsOut x f → HandsOut y f →
      ∃ z ∈ mid, Frees z f := by
  obtain ⟨hcounted, hsets⟩ := counted_new.simulates h
  refine ⟨hcounted, ?_, ?_⟩
  · intro e
    obtain ⟨t, r, hnext, -, hstep⟩ := hcounted.next e
    exact ⟨t, r, hnext, hstep⟩
  · intro pre x mid y post f hes hx hy
    exact setStep_moves.handed_twice hsets hes hx hy

def replay (a : BitmapFrameAllocator) (e : Answered) : Option BitmapFrameAllocator :=
  match a.next e.1 with
  | some (t, r) => if r = e.2 then some t else none
  | none => none

theorem replay_some {a t : BitmapFrameAllocator} (h : a.replay e = some t) :
    a.next e.1 = some (t, e.2) := by
  rw [replay] at h
  cases hnext : a.next e.1 with
  | none =>
    rw [hnext] at h
    simp at h
  | some pair =>
    rw [hnext] at h
    dsimp only at h
    split_ifs at h with hr
    rw [← hr, ← Option.some.inj h]

def reuseLog : List Answered :=
  [(.markRegionFree 4096 20480, none), (.allocateBelow 16384, some 4096),
    (.allocateContiguousBelow 2 20480 2, some 8192), (.deallocate 5000, none),
    (.allocateBelow 8192, some 4096)]

theorem refines_free_set_reuse : ∃ a,
    Run (fun a (e : Answered) t ↦ BitmapFrameAllocator.next a e.1 = some (t, e.2))
      BitmapFrameAllocator.new reuseLog a ∧ a.freeFrames = a.freeSet.card := by
  obtain ⟨a, ha⟩ := Option.isSome_iff_exists.mp
    (show (reuseLog.foldlM replay BitmapFrameAllocator.new).isSome = true by decide +kernel)
  have hrun := Run.of_next (fun a e t ↦ replay_some) ha
  exact ⟨a, hrun, (refines_free_set hrun).1⟩

/-- An alignment that is no power of two is refused. -/
theorem odd_alignment_refused : ∃ a,
    BitmapFrameAllocator.new.next (.markRegionFree 0 4096) = some (a, none) ∧
    IsRun a.freeSet 1 4096 3 0 ∧ (a.allocateContiguousBelow 1 4096 3).2 = none := by
  refine ⟨_, rfl, ⟨by decide, by decide, ?_⟩, by decide +kernel⟩
  intro f hf
  have hzero : f = 0 := by
    have hlt := (Finset.mem_Ico.mp hf).2
    exact Nat.lt_one_iff.mp hlt
  rw [hzero]
  exact (mem_freeSet_mk ⟨0, by decide⟩).mpr (by decide +kernel)

end BraneKernel.BitmapFrameAllocator
