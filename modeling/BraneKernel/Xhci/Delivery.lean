import BraneKernel.Xhci.Ring

namespace BraneKernel

/-- A transfer ring between the driver and the controller. The driver's writes
are those of its last call that are not made yet. The last four fields count
what both have done. -/
structure RingWorld where
  memory : U64 → Trb
  cursor : RingCursor
  writes : List (U64 × Trb)
  index : ℕ
  cycle : Bool
  written : ℕ
  linked : ℕ
  seen : ℕ
  followed : ℕ

inductive RingEvent
  | enqueue (trbs : List Trb)
  | write
  | see (trb : Trb)
  | follow

namespace RingWorld

def initial (memory : U64 → Trb) : RingWorld := ⟨memory, .new, [], 0, true, 0, 0, 0, 0⟩

/-- A call starts when the writes of the last one are made. In between the controller reads one
block at a time, stops at the other cycle bit and takes the block in the last slot for the Link. A
write waits until the controller is past what it overwrites: `consumed` says so of a block, `left`
of the Link. -/
inductive Step (ring : DmaRegion) : RingWorld → RingEvent → RingWorld → Prop
  | enqueue {w : RingWorld} {trbs : List Trb} {cursor : RingCursor} {writes : List (U64 × Trb)}
      {final : U64} (hdone : w.writes = [])
      (h : enqueueTransferTd ring w.cursor trbs = (cursor, writes, .ok final)) :
    Step ring w (.enqueue trbs) { w with cursor, writes }
  | write {w : RingWorld} {pointer : U64} {trb : Trb} {writes : List (U64 × Trb)}
      (h : w.writes = (pointer, trb) :: writes) (hblock : pointer ≠ ring.slot commandRingUsableTrbs)
      (consumed : w.written < w.seen + commandRingUsableTrbs) :
    Step ring w .write
      { w with memory := Function.update w.memory pointer trb, writes, written := w.written + 1 }
  | writeLink {w : RingWorld} {trb : Trb} {writes : List (U64 × Trb)}
      (h : w.writes = (ring.slot commandRingUsableTrbs, trb) :: writes)
      (left : w.linked ≤ w.followed) :
    Step ring w .write
      { w with
        memory := Function.update w.memory (ring.slot commandRingUsableTrbs) trb
        writes
        linked := w.linked + 1 }
  | see {w : RingWorld} (hblock : w.index < commandRingUsableTrbs)
      (h : (w.memory (ring.slot w.index)).cycle = w.cycle) :
    Step ring w (.see (w.memory (ring.slot w.index)))
      { w with index := w.index + 1, seen := w.seen + 1 }
  | follow {w : RingWorld} (hlink : w.index = commandRingUsableTrbs)
      (h : (w.memory (ring.slot w.index)).cycle = w.cycle) :
    Step ring w .follow { w with index := 0, cycle := !w.cycle, followed := w.followed + 1 }

/-- The controller has come to a block with the other cycle bit. -/
def Stopped (ring : DmaRegion) (w : RingWorld) : Prop :=
  (w.memory (ring.slot w.index)).cycle ≠ w.cycle

end RingWorld

namespace RingEvent

def enqueued : RingEvent → List Trb
  | .enqueue trbs => trbs
  | _ => []

def sees : RingEvent → List Trb
  | .see trb => [trb]
  | _ => []

end RingEvent

def Trb.content (trb : Trb) : Trb := trb.withCycle false

namespace RingWorld

variable {ring : DmaRegion} {w w' : RingWorld} {staged : List Trb}

def linkOf (ring : DmaRegion) (lap : ℕ) : Trb := (Trb.link ring.physicalStart).withCycle (lap % 2 == 0)

structure Carries (ring : DmaRegion) (staged : List Trb) (w : RingWorld) : Prop where
  cursor : w.cursor = .past staged.length
  stamped (k : ℕ) (hk : k < staged.length) : staged[k].cycle = CycleRing.cycle 255 k
  counts : 255 * w.linked ≤ w.written ∧ w.written ≤ staged.length ∧
    staged.length ≤ 255 * (w.linked + 1) ∧ 255 * w.followed ≤ w.seen ∧
    w.seen ≤ 255 * (w.followed + 1) ∧ w.index = w.seen - 255 * w.followed ∧ w.seen ≤ w.written ∧
    w.written ≤ w.seen + 255 ∧ w.linked ≤ w.followed + 1 ∧
    (w.followed ≤ w.linked ∨ w.followed = 1 ∧ w.linked = 0)
  writes : w.writes = (ring.laidOut 0 staged).drop w.written ++
    if staged.length = 255 * (w.linked + 1) then [(ring.slot 255, linkOf ring w.linked)] else []
  blocks : CycleRing.Shows 255 Trb.cycle (fun i ↦ w.memory (ring.slot i)) (staged.take w.written)
  link : w.memory (ring.slot 255) = linkOf ring (w.linked - 1)
  cycle : w.cycle = (w.followed % 2 == 0)

theorem carries_initial {memory : U64 → Trb}
    (hblocks : ∀ i < 255, (memory (ring.slot i)).cycle = false)
    (hlink : memory (ring.slot 255) = Trb.link ring.physicalStart) :
    Carries ring [] (initial memory) where
  cursor := rfl
  stamped k hk := absurd hk (Nat.not_lt_zero k)
  counts := by simp [initial]
  writes := by simp [initial, DmaRegion.laidOut]
  blocks := CycleRing.shows_nil hblocks
  link := hlink.trans (Trb.link_withCycle _).symm
  cycle := rfl

theorem Carries.settled (h : Carries ring staged w) (hdone : w.writes = []) :
    w.written = staged.length ∧ staged.length < 255 * (w.linked + 1) := by
  have hcounts := h.counts
  have hwrites := h.writes
  rw [hdone, eq_comm, List.append_eq_nil_iff, List.drop_eq_nil_iff,
    DmaRegion.length_laidOut] at hwrites
  have hlink : staged.length ≠ 255 * (w.linked + 1) := by
    intro hlast
    simp [hlast] at hwrites
  omega

theorem cycle_of_between {lap k : ℕ} (hlow : 255 * lap ≤ k) (hhigh : k < 255 * (lap + 1)) :
    CycleRing.cycle 255 k = (lap % 2 == 0) := by
  obtain ⟨i, rfl⟩ := Nat.exists_eq_add_of_le hlow
  exact CycleRing.cycle_of_lap (by omega)

variable {writes : List (U64 × Trb)}

theorem Carries.enqueue (hring : ring.HoldsRing) (h : Carries ring staged w) (hdone : w.writes = [])
    {trbs : List Trb} {cursor : RingCursor} {final : U64}
    (htd : enqueueTransferTd ring w.cursor trbs = (cursor, writes, .ok final)) :
    Carries ring (staged ++ trbs.map (·.withCycle (CycleRing.cycle 255 staged.length)))
      { w with cursor, writes } := by
  have hcounts := h.counts
  obtain ⟨hwritten, hroom⟩ := h.settled hdone
  rw [h.cursor, enqueueTransferTd_past hring, commandRingUsableTrbs_eq] at htd
  by_cases hfull : trbs = [] ∨ staged.length % 255 + trbs.length > 255
  · simp [hfull] at htd
  rw [if_neg hfull] at htd
  rw [not_or] at hfull
  simp only [Prod.mk.injEq] at htd
  obtain ⟨rfl, rfl, -⟩ := htd
  have hcycle : CycleRing.cycle 255 staged.length = (w.linked % 2 == 0) :=
    cycle_of_between (by omega) hroom
  exact
    { cursor := by simp
      stamped k hk := by
        rw [List.length_append, List.length_map] at hk
        by_cases hold : k < staged.length
        · rw [List.getElem_append_left hold]
          exact h.stamped k hold
        · have hnew : CycleRing.cycle 255 k = (w.linked % 2 == 0) :=
            cycle_of_between (by omega) (by omega)
          rw [List.getElem_append_right (by omega), List.getElem_map, Trb.cycle_withCycle, hcycle, hnew]
      counts := by
        rw [List.length_append, List.length_map]
        simp only
        omega
      writes := by
        have hlast : (staged.length % 255 + trbs.length = 255) =
            (staged.length + trbs.length = 255 * (w.linked + 1)) := by
          apply propext
          omega
        simp only [hwritten, DmaRegion.laidOut_append, List.length_append, List.length_map,
          Nat.zero_add, linkOf, hcycle, hlast]
        rw [List.drop_left' (by simp)]
      blocks := by
        simp only
        rw [List.take_append_of_le_length hwritten.le]
        exact h.blocks
      link := h.link
      cycle := h.cycle }

theorem Carries.next_write (h : Carries ring staged w) {pointer : U64} {trb : Trb}
    (hwrites : w.writes = (pointer, trb) :: writes) :
    (∃ hlt : w.written < staged.length, pointer = ring.slot (w.written % 255) ∧
      trb = staged[w.written] ∧ writes = (ring.laidOut 0 staged).drop (w.written + 1) ++
        if staged.length = 255 * (w.linked + 1) then [(ring.slot 255, linkOf ring w.linked)]
        else []) ∨
    (w.written = staged.length ∧ staged.length = 255 * (w.linked + 1) ∧
      pointer = ring.slot 255 ∧ trb = linkOf ring w.linked ∧ writes = []) := by
  have hcounts := h.counts
  have hpending := hwrites.symm.trans h.writes
  by_cases hlt : w.written < staged.length
  · rw [DmaRegion.drop_laidOut ring hlt, List.cons_append, List.cons.injEq,
      Prod.mk.injEq] at hpending
    exact .inl ⟨hlt, hpending.1.1, hpending.1.2, hpending.2⟩
  · have hdrop : (ring.laidOut 0 staged).drop w.written = [] :=
      List.drop_eq_nil_of_le (by simp; omega)
    rw [hdrop, List.nil_append] at hpending
    split_ifs at hpending with hlast
    simp only [List.cons.injEq, Prod.mk.injEq] at hpending
    exact .inr ⟨by omega, hlast, hpending.1.1, hpending.1.2, hpending.2⟩

theorem Carries.write (hring : ring.HoldsRing) (h : Carries ring staged w) {pointer : U64}
    {trb : Trb} (hwrites : w.writes = (pointer, trb) :: writes) (hblock : pointer ≠ ring.slot 255)
    (consumed : w.written < w.seen + 255) :
    Carries ring staged
      { w with memory := Function.update w.memory pointer trb, writes, written := w.written + 1 } := by
  have hcounts := h.counts
  obtain ⟨hlt, rfl, rfl, rfl⟩ | ⟨-, -, rfl, -⟩ := h.next_write hwrites
  · have hslot : w.written % 255 < commandRingTrbs := (Nat.mod_lt _ (by decide)).trans (by decide)
    have hlength : (staged.take w.written).length = w.written := List.length_take_of_le hlt.le
    exact
      { cursor := h.cursor
        stamped := h.stamped
        counts := by
          simp only
          omega
        writes := rfl
        blocks := by
          simp only [← List.take_concat_get' staged w.written hlt]
          refine h.blocks.write (by decide) ?_ fun i hi ↦ ?_
          · rw [h.stamped _ hlt, hlength]
          · rw [hlength, hring.update_slot (hi.trans (by decide)) hslot]
        link := by
          simp only
          rw [Function.update_of_ne hblock.symm]
          exact h.link
        cycle := h.cycle }
  · exact absurd rfl hblock

theorem Carries.writeLink (hring : ring.HoldsRing) (h : Carries ring staged w) {trb : Trb}
    (hwrites : w.writes = (ring.slot 255, trb) :: writes) (left : w.linked ≤ w.followed) :
    Carries ring staged
      { w with
        memory := Function.update w.memory (ring.slot 255) trb
        writes
        linked := w.linked + 1 } := by
  have hcounts := h.counts
  obtain ⟨hlt, hpointer, -⟩ | ⟨hwritten, hlast, -, rfl, rfl⟩ := h.next_write hwrites
  · have hslot : w.written % 255 < 255 := Nat.mod_lt _ (by decide)
    rw [hring.slot_inj (by decide) (hslot.trans (by decide))] at hpointer
    omega
  · exact
      { cursor := h.cursor
        stamped := h.stamped
        counts := by
          simp only
          omega
        writes := by
          rw [List.drop_eq_nil_of_le (by simp [hwritten]), List.nil_append, if_neg]
          simp only
          omega
        blocks := by
          refine h.blocks.congr (by decide) fun i hi ↦ ?_
          simp only [hring.update_slot (hi.trans (by decide)) (by decide : 255 < commandRingTrbs),
            if_neg hi.ne]
        link := by simp
        cycle := h.cycle }

section

variable (h : Carries ring staged w)
include h

theorem Carries.fresh_iff (hblock : w.index < 255) :
    (w.memory (ring.slot w.index)).cycle = w.cycle ↔ w.seen < w.written := by
  have hcounts := h.counts
  have hlength : (staged.take w.written).length = w.written := List.length_take_of_le hcounts.2.1
  have hfresh := h.blocks.fresh_iff (k := w.seen) (by decide) (by omega) (by omega)
  rw [hlength, cycle_of_between hcounts.2.2.2.1 (by omega), ← h.cycle] at hfresh
  rw [← hfresh]
  have hmod : w.seen % 255 = w.index := by omega
  rw [hmod]

theorem Carries.see (hblock : w.index < 255)
    (hcycle : (w.memory (ring.slot w.index)).cycle = w.cycle) :
    ∃ hseen : w.seen < staged.length, w.memory (ring.slot w.index) = staged[w.seen] ∧
      Carries ring staged { w with index := w.index + 1, seen := w.seen + 1 } := by
  have hcounts := h.counts
  have hlt := (h.fresh_iff hblock).mp hcycle
  have hlength : (staged.take w.written).length = w.written := List.length_take_of_le hcounts.2.1
  have hmod : w.seen % 255 = w.index := by omega
  have hlatest := h.blocks.latest w.seen (by omega) (by omega)
  rw [hmod, List.getElem_take] at hlatest
  exact ⟨by omega, hlatest,
    { h with
      counts := by
        simp only
        omega }⟩

theorem Carries.linked_iff (hlink : w.index = 255) :
    (w.memory (ring.slot w.index)).cycle = w.cycle ↔
      w.linked = w.followed + 1 ∨ w.followed = 0 ∧ w.linked = 0 := by
  have hcounts := h.counts
  rw [hlink, h.link, h.cycle, linkOf, Trb.cycle_withCycle, Bool.eq_iff_iff, beq_iff_eq, beq_iff_eq]
  omega

theorem Carries.follow (hlink : w.index = 255)
    (hcycle : (w.memory (ring.slot w.index)).cycle = w.cycle) :
    Carries ring staged { w with index := 0, cycle := !w.cycle, followed := w.followed + 1 } := by
  have hcounts := h.counts
  have hlinked := (h.linked_iff hlink).mp hcycle
  exact
    { h with
      counts := by
        simp only
        omega
      cycle := by
        simp only
        rw [h.cycle, CycleRing.not_parity] }

theorem Carries.readable (hdone : w.writes = []) (hseen : w.seen < staged.length) :
    (w.memory (ring.slot w.index)).cycle = w.cycle := by
  obtain ⟨hwritten, hroom⟩ := h.settled hdone
  have hcounts := h.counts
  by_cases hblock : w.index < 255
  · exact (h.fresh_iff hblock).mpr (by omega)
  · exact (h.linked_iff (by omega)).mpr (by omega)

theorem Carries.exists_see (hdone : w.writes = []) (hseen : w.seen < staged.length) :
    ∃ es w', Trace.Run (Step ring) w es w' ∧ es.flatMap RingEvent.enqueued = [] ∧
      es.flatMap RingEvent.sees = [staged[w.seen]] ∧ Carries ring staged w' ∧ w'.writes = [] ∧
      w'.seen = w.seen + 1 := by
  have hcycle := h.readable hdone hseen
  by_cases hblock : w.index < 255
  · obtain ⟨_, htrb, hnext⟩ := h.see hblock hcycle
    refine ⟨[.see (w.memory (ring.slot w.index))], _, .snoc .nil (.see hblock hcycle), rfl, ?_,
      hnext, hdone, rfl⟩
    rw [htrb]
    rfl
  · have hcounts := h.counts
    have hlink : w.index = 255 := by omega
    have hfollowed := h.follow hlink hcycle
    have hblock' : 0 < 255 := by decide
    have hcycle' := hfollowed.readable hdone hseen
    obtain ⟨_, htrb, hnext⟩ := hfollowed.see hblock' hcycle'
    refine ⟨[.follow, .see (w.memory (ring.slot 0))], _,
      .snoc (.snoc .nil (.follow hlink hcycle)) (.see hblock' hcycle'), rfl, ?_, hnext, hdone, rfl⟩
    rw [htrb]
    rfl

theorem Carries.exists_all (hdone : w.writes = []) :
    ∃ es w', Trace.Run (Step ring) w es w' ∧ es.flatMap RingEvent.enqueued = [] ∧
      es.flatMap RingEvent.sees = staged.drop w.seen := by
  obtain ⟨left, hleft⟩ : ∃ left, staged.length = w.seen + left := by
    have hcounts := h.counts
    exact ⟨staged.length - w.seen, by omega⟩
  induction left generalizing w with
  | zero =>
    have hdrop : staged.drop w.seen = [] := List.drop_eq_nil_of_le (by omega)
    exact ⟨[], w, .nil, rfl, hdrop.symm⟩
  | succ left ih =>
    have hseen : w.seen < staged.length := by omega
    obtain ⟨es, w', hrun, henqueued, hsees, hnext, hdone', hone⟩ := h.exists_see hdone hseen
    obtain ⟨es', w'', hrun', henqueued', hsees'⟩ := ih hnext hdone' (by omega)
    refine ⟨es ++ es', w'', hrun.append hrun', ?_, ?_⟩
    · rw [List.flatMap_append, henqueued, henqueued']
      rfl
    · rw [List.flatMap_append, hsees, hsees', hone, List.drop_eq_getElem_cons hseen]
      rfl

end

/-- The blocks enqueued by the events of a run are those the ring carries, up to the cycle bits,
and the ones seen are the first of them. -/
def Agrees (ring : DmaRegion) (es : List RingEvent) (w : RingWorld) : Prop :=
  ∃ staged, Carries ring staged w ∧
    staged.map Trb.content = (es.flatMap RingEvent.enqueued).map Trb.content ∧
    es.flatMap RingEvent.sees = staged.take w.seen

theorem content_withCycle (c : Bool) (trb : Trb) : (trb.withCycle c).content = trb.content :=
  Trb.withCycle_withCycle trb c false

theorem Agrees.step (hring : ring.HoldsRing) {es : List RingEvent} {e : RingEvent}
    (h : Agrees ring es w) (hstep : Step ring w e w') : Agrees ring (es ++ [e]) w' := by
  obtain ⟨staged, hcarries, hcontent, hsees⟩ := h
  simp only [Agrees, List.flatMap_append, List.flatMap_singleton]
  cases hstep with
  | enqueue hdone htd =>
    have hcounts := hcarries.counts
    refine ⟨_, hcarries.enqueue hring hdone htd, ?_, ?_⟩
    · simp only [List.map_append, hcontent, List.map_map, RingEvent.enqueued]
      simp [Function.comp_def, content_withCycle]
    · simp only [RingEvent.sees, List.append_nil, hsees]
      rw [List.take_append_of_le_length (by omega)]
  | write hwrites hblock hconsumed =>
    exact ⟨staged, hcarries.write hring hwrites hblock hconsumed,
      by simpa [RingEvent.enqueued] using hcontent, by simpa [RingEvent.sees] using hsees⟩
  | writeLink hwrites hleft =>
    exact ⟨staged, hcarries.writeLink hring hwrites hleft,
      by simpa [RingEvent.enqueued] using hcontent, by simpa [RingEvent.sees] using hsees⟩
  | see hblock hcycle =>
    obtain ⟨hseen, htrb, hnext⟩ := hcarries.see hblock hcycle
    refine ⟨staged, hnext, by simpa [RingEvent.enqueued] using hcontent, ?_⟩
    rw [RingEvent.sees, hsees, htrb, List.take_concat_get']
  | follow hlink hcycle =>
    exact ⟨staged, hcarries.follow hlink hcycle,
      by simpa [RingEvent.enqueued] using hcontent, by simpa [RingEvent.sees] using hsees⟩

end RingWorld

open RingWorld in
/-- Whatever the interleaving, the controller sees the enqueued blocks in order, each once, and all
of them when it stops with no write outstanding. -/
theorem transfer_ring_delivers {ring : DmaRegion} (hring : ring.HoldsRing) {memory : U64 → Trb}
    (hzeroed : ∀ i < commandRingUsableTrbs, memory (ring.slot i) = ⟨0, 0, 0⟩)
    (hlink : memory (ring.slot commandRingUsableTrbs) = .link ring.physicalStart)
    {es : List RingEvent} {w : RingWorld}
    (h : Trace.Run (Step ring) (.initial memory) es w) :
    w.cursor.enqueueIndex < commandRingUsableTrbs ∧
    (∀ trbs cursor writes final,
      enqueueTransferTd ring w.cursor trbs = (cursor, writes, .ok final) →
      w.cursor.enqueueIndex + trbs.length ≤ commandRingUsableTrbs ∧
        writes.take trbs.length = (trbs.zipIdx w.cursor.enqueueIndex).map fun p ↦
          (ring.slot p.2, p.1.withCycle w.cursor.cycle)) ∧
    (∃ cycle, w.memory (ring.slot commandRingUsableTrbs) =
      (Trb.link ring.physicalStart).withCycle cycle) ∧
    (es.flatMap RingEvent.sees).map Trb.content <+:
      (es.flatMap RingEvent.enqueued).map Trb.content ∧
    (w.writes = [] →
      (w.Stopped ring → (es.flatMap RingEvent.sees).map Trb.content =
        (es.flatMap RingEvent.enqueued).map Trb.content) ∧
      ∃ es' w', Trace.Run (Step ring) w es' w' ∧ es'.flatMap RingEvent.enqueued = [] ∧
        ((es ++ es').flatMap RingEvent.sees).map Trb.content =
          (es.flatMap RingEvent.enqueued).map Trb.content) := by
  have hblank (i : ℕ) (hi : i < 255) : (memory (ring.slot i)).cycle = false := by
    rw [hzeroed i hi]
    rfl
  have hagrees : Agrees ring es w :=
    h.history (I := Agrees ring) ⟨[], carries_initial hblank hlink, rfl, rfl⟩
      fun _ _ _ _ hagrees hstep ↦ hagrees.step hring hstep
  obtain ⟨staged, hcarries, hcontent, hsees⟩ := hagrees
  have hseen : (es.flatMap RingEvent.sees).map Trb.content =
      ((es.flatMap RingEvent.enqueued).map Trb.content).take w.seen := by
    rw [hsees, ← hcontent, List.map_take]
  refine ⟨?_, fun trbs cursor writes final htd ↦ ?_, ⟨_, hcarries.link⟩, ?_, fun hdone ↦ ⟨?_, ?_⟩⟩
  · rw [hcarries.cursor]
    exact Nat.mod_lt _ (by decide)
  · rw [hcarries.cursor] at htd ⊢
    rw [enqueueTransferTd_past hring] at htd
    split at htd
    · cases htd
    · next hfits =>
      rw [not_or, not_lt] at hfits
      simp only [Prod.mk.injEq] at htd
      obtain ⟨-, rfl, -⟩ := htd
      refine ⟨hfits.2, ?_⟩
      rw [List.take_left' (by simp), ring.laidOut_lap (by simpa using hfits.2), List.zipIdx_map,
        List.map_map]
      rfl
  · rw [hseen]
    exact List.take_prefix _ _
  · intro hstopped
    rw [hseen, ← hcontent, List.take_of_length_le]
    rw [List.length_map]
    exact Nat.le_of_not_lt fun hlt ↦ hstopped (hcarries.readable hdone hlt)
  · obtain ⟨es', w', hrun, henqueued, hrest⟩ := hcarries.exists_all hdone
    refine ⟨es', w', hrun, henqueued, ?_⟩
    rw [List.flatMap_append, hrest, hsees, List.take_append_drop, hcontent]

def secondFrame : DmaRegion := ⟨0x2000, 0x2000, 0x1000⟩

theorem holdsRing_secondFrame : secondFrame.HoldsRing :=
  ⟨0, 0x1000, by constructor <;> decide⟩

def setUp (ring : DmaRegion) : U64 → Trb :=
  Function.update (fun _ ↦ ⟨0, 0, 0⟩) (ring.slot commandRingUsableTrbs) (.link ring.physicalStart)

theorem transfer_ring_delivers_two : ∃ es w, Trace.Run (RingWorld.Step secondFrame)
    (.initial (setUp secondFrame)) (.enqueue [.normal 0x4000 512, .normal 0x4200 512] :: es) w ∧
    es.flatMap RingEvent.enqueued = [] ∧ (es.flatMap RingEvent.sees).map Trb.content =
      [(Trb.normal 0x4000 512).content, (Trb.normal 0x4200 512).content] := by
  have hzeroed (i : ℕ) (hi : i < commandRingUsableTrbs) :
      setUp secondFrame (secondFrame.slot i) = ⟨0, 0, 0⟩ := by
    rw [setUp, holdsRing_secondFrame.update_slot (hi.trans (by decide)) (by decide), if_neg hi.ne]
  have hlink : setUp secondFrame (secondFrame.slot commandRingUsableTrbs) =
      .link secondFrame.physicalStart := Function.update_self ..
  let first := (Trb.normal 0x4000 512).withCycle true
  let second := (Trb.normal 0x4200 512).withCycle true
  let w₁ : RingWorld :=
    { RingWorld.initial (setUp secondFrame) with
      cursor := ⟨2, true⟩
      writes := [(secondFrame.slot 0, first), (secondFrame.slot 1, second)] }
  let w₂ : RingWorld :=
    { w₁ with
      memory := Function.update w₁.memory (secondFrame.slot 0) first
      writes := [(secondFrame.slot 1, second)]
      written := 1 }
  let w₃ : RingWorld :=
    { w₂ with
      memory := Function.update w₂.memory (secondFrame.slot 1) second
      writes := []
      written := 2 }
  have hrun : Trace.Run (RingWorld.Step secondFrame) (.initial (setUp secondFrame))
      [.enqueue [.normal 0x4000 512, .normal 0x4200 512], .write, .write] w₃ :=
    .cons (t := w₁) (.enqueue rfl rfl)
      (.cons (t := w₂) (.write rfl (by decide) (by decide))
        (.cons (.write rfl (by decide) (by decide)) .nil))
  obtain ⟨-, -, -, -, hall⟩ := transfer_ring_delivers holdsRing_secondFrame hzeroed hlink hrun
  obtain ⟨es, w, hrest, henqueued, hsees⟩ := (hall rfl).2
  exact ⟨_, w, hrun.append hrest, henqueued, hsees⟩

end BraneKernel
