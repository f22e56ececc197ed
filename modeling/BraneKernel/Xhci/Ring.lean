import BraneKernel.Dma.Regions
import BraneKernel.Lib.CycleRing
import BraneKernel.Xhci.Registers
import BraneKernel.Xhci.Trb

namespace BraneKernel

def commandRingTrbs : ℕ := frameSize / trbBytes

def commandRingUsableTrbs : ℕ := commandRingTrbs - 1

def eventRingTrbs : ℕ := frameSize / trbBytes

def trbOffset (index : ℕ) : U64 := BitVec.ofNat 64 (index * trbBytes)

def DmaRegion.trbPointer (region : DmaRegion) (index : ℕ) : Option U64 :=
  region.pointerAt (BitVec.ofNat 64 trbBytes) (trbOffset index)

def DmaRegion.trbPhysical (region : DmaRegion) (index : ℕ) : Option U64 :=
  region.physicalAt (trbOffset index)

structure RingCursor where
  enqueueIndex : ℕ
  cycle : Bool
  deriving DecidableEq

structure RingReservation where
  startIndex : ℕ
  cycle : Bool
  reachedLink : Bool
  deriving DecidableEq

namespace RingCursor

def new : RingCursor := ⟨0, true⟩

def reserve (cursor : RingCursor) (trbCount : ℕ) :
    Except XhciInitError (RingCursor × RingReservation) :=
  if trbCount = 0 ∨ trbCount > commandRingUsableTrbs ∨
      cursor.enqueueIndex + trbCount > commandRingUsableTrbs then .error .ringFull
  else
    let reservation : RingReservation :=
      { startIndex := cursor.enqueueIndex
        cycle := cursor.cycle
        reachedLink := cursor.enqueueIndex + trbCount = commandRingUsableTrbs }
    if reservation.reachedLink then .ok (⟨0, !cursor.cycle⟩, reservation)
    else .ok (⟨cursor.enqueueIndex + trbCount, cursor.cycle⟩, reservation)

end RingCursor

/-- The volatile writes of the loop in `enqueue_transfer_td`, and the physical
address of the last block written. -/
def stageTrbs (ring : DmaRegion) (cycle : Bool) :
    ℕ → U64 → List Trb → List (U64 × Trb) × Except XhciInitError U64
  | _, finalPhysical, [] => ([], .ok finalPhysical)
  | index, _, trb :: trbs =>
    match ring.trbPointer index, ring.trbPhysical index with
    | some pointer, some physical =>
      let rest := stageTrbs ring cycle (index + 1) physical trbs
      ((pointer, trb.withCycle cycle) :: rest.1, rest.2)
    | _, _ => ([], .error .invalidCapabilities)

/-- The new cursor and the writes in their order, the ones before a failure included. -/
def enqueueTransferTd (ring : DmaRegion) (cursor : RingCursor) (trbs : List Trb) :
    RingCursor × List (U64 × Trb) × Except XhciInitError U64 :=
  match cursor.reserve trbs.length with
  | .error e => (cursor, [], .error e)
  | .ok (cursor, reservation) =>
    match stageTrbs ring reservation.cycle reservation.startIndex 0 trbs with
    | (writes, .error e) => (cursor, writes, .error e)
    | (writes, .ok finalPhysical) =>
      if reservation.reachedLink then
        match ring.trbPointer commandRingUsableTrbs with
        | none => (cursor, writes, .error .invalidCapabilities)
        | some linkPointer =>
          let link := (Trb.link ring.physicalStart).withCycle reservation.cycle
          (cursor, writes ++ [(linkPointer, link)], .ok finalPhysical)
      else (cursor, writes, .ok finalPhysical)

namespace DmaRegion

variable {region : DmaRegion} {i j : ℕ}

/-- Every ring is a region allocated for one frame. -/
def HoldsRing (region : DmaRegion) : Prop :=
  ∃ physicalMemoryOffset alignment,
    region.Placed physicalMemoryOffset (BitVec.ofNat 64 frameSize) alignment

def slot (region : DmaRegion) (index : ℕ) : U64 := region.virtualStart + trbOffset index

theorem toNat_trbOffset (hi : i < commandRingTrbs) : (trbOffset i).toNat = i * trbBytes := by
  have hi' : i < 256 := hi
  rw [trbOffset, BitVec.toNat_ofNat, Nat.mod_eq_of_lt]
  simp only [trbBytes]
  omega

def slotPhysical (region : DmaRegion) (index : ℕ) : U64 := region.physicalStart + trbOffset index

section

variable (h : region.HoldsRing) (hi : i < commandRingTrbs)
include h hi

theorem HoldsRing.offset_add :
    (trbOffset i).toNat + trbBytes ≤ region.len.toNat := by
  obtain ⟨o, a, hplaced⟩ := h
  have hroom : 4096 ≤ region.len.toNat := hplaced.room
  have hi' : i < 256 := hi
  rw [toNat_trbOffset hi]
  simp only [trbBytes]
  omega

theorem HoldsRing.toNat_slot :
    (region.slot i).toNat = region.virtualStart.toNat + i * trbBytes := by
  have hroom := h.offset_add hi
  obtain ⟨o, a, hplaced⟩ := h
  have hfits := hplaced.fits
  rw [slot, BitVec.toNat_add, Nat.mod_eq_of_lt (by omega), toNat_trbOffset hi]

theorem HoldsRing.slot_inj (hj : j < commandRingTrbs) : region.slot i = region.slot j ↔ i = j := by
  constructor
  · intro hslot
    have hnat := congrArg BitVec.toNat hslot
    rw [h.toNat_slot hi, h.toNat_slot hj] at hnat
    simp only [trbBytes] at hnat
    omega
  · rintro rfl
    rfl

theorem HoldsRing.update_slot (hj : j < commandRingTrbs) (memory : U64 → Trb) (trb : Trb) :
    Function.update memory (region.slot j) trb (region.slot i) =
      if i = j then trb else memory (region.slot i) := by
  simp only [Function.update_apply, h.slot_inj hi hj]

theorem HoldsRing.trbPointer_eq :
    region.trbPointer i = some (region.slot i) := by
  refine pointerAt_eq_some_iff.mpr ⟨h.offset_add hi, ?_⟩
  rw [h.toNat_slot hi, toNat_trbOffset hi]

theorem HoldsRing.toNat_slotPhysical :
    (region.slotPhysical i).toNat = region.physicalStart.toNat + i * trbBytes := by
  have hroom := h.offset_add hi
  obtain ⟨o, a, hplaced⟩ := h
  have hbelow : region.physicalStart.toNat + region.len.toNat ≤ 4294967296 := hplaced.below
  rw [slotPhysical, BitVec.toNat_add, Nat.mod_eq_of_lt (by omega), toNat_trbOffset hi]

theorem HoldsRing.dvd_slotPhysical :
    trbBytes ∣ (region.slotPhysical i).toNat := by
  rw [h.toNat_slotPhysical hi]
  obtain ⟨o, a, hplaced⟩ := h
  have hpage : trbBytes ∣ frameSize := by decide
  exact Nat.dvd_add (hpage.trans hplaced.page) (Nat.dvd_mul_left trbBytes i)

theorem HoldsRing.trbPhysical_eq :
    region.trbPhysical i = some (region.slotPhysical i) := by
  have hroom := h.offset_add hi
  have hpositive : 0 < trbBytes := by decide
  refine physicalAt_eq_some_iff.mpr ⟨by omega, ?_⟩
  rw [h.toNat_slotPhysical hi, toNat_trbOffset hi]

end

end DmaRegion

def RingCursor.past (k : ℕ) : RingCursor :=
  ⟨k % commandRingUsableTrbs, CycleRing.cycle commandRingUsableTrbs k⟩

theorem commandRingUsableTrbs_eq : commandRingUsableTrbs = 255 := rfl

theorem RingCursor.reserve_past (k n : ℕ) :
    (RingCursor.past k).reserve n =
      if n = 0 ∨ k % commandRingUsableTrbs + n > commandRingUsableTrbs then .error .ringFull
      else .ok (.past (k + n), ⟨k % commandRingUsableTrbs, CycleRing.cycle commandRingUsableTrbs k,
        k % commandRingUsableTrbs + n = commandRingUsableTrbs⟩) := by
  have hpositive : 0 < commandRingUsableTrbs := by decide
  by_cases hfull : n = 0 ∨ k % commandRingUsableTrbs + n > commandRingUsableTrbs
  · have hrefused : n = 0 ∨ n > commandRingUsableTrbs ∨
        (RingCursor.past k).enqueueIndex + n > commandRingUsableTrbs :=
      hfull.imp_right .inr
    rw [reserve, if_pos hrefused, if_pos hfull]
  · have hfits : k % commandRingUsableTrbs + n ≤ commandRingUsableTrbs := by omega
    have haccepted : ¬ (n = 0 ∨ n > commandRingUsableTrbs ∨
        (RingCursor.past k).enqueueIndex + n > commandRingUsableTrbs) := by
      simp only [past]
      omega
    rw [reserve, if_neg haccepted, if_neg hfull]
    simp only [past, CycleRing.index_add hpositive hfits, CycleRing.cycle_add hpositive hfits]
    by_cases hlast : k % commandRingUsableTrbs + n = commandRingUsableTrbs
    · simp only [hlast, decide_true, if_true]
    · simp only [hlast, decide_false, Bool.false_eq_true, if_false]

def DmaRegion.laidOut (ring : DmaRegion) (k : ℕ) (trbs : List Trb) : List (U64 × Trb) :=
  (trbs.zipIdx k).map fun p ↦ (ring.slot (p.2 % commandRingUsableTrbs), p.1)

variable (ring : DmaRegion)

@[simp] theorem DmaRegion.length_laidOut (k : ℕ) (trbs : List Trb) :
    (ring.laidOut k trbs).length = trbs.length := by
  simp [laidOut]

theorem DmaRegion.laidOut_append (k : ℕ) (trbs trbs' : List Trb) :
    ring.laidOut k (trbs ++ trbs') = ring.laidOut k trbs ++ ring.laidOut (k + trbs.length) trbs' := by
  simp only [laidOut, List.zipIdx_append, List.map_append]

theorem DmaRegion.laidOut_lap {k : ℕ} {trbs : List Trb}
    (hfits : k % commandRingUsableTrbs + trbs.length ≤ commandRingUsableTrbs) :
    ring.laidOut k trbs =
      (trbs.zipIdx (k % commandRingUsableTrbs)).map fun p ↦ (ring.slot p.2, p.1) := by
  refine List.ext_getElem (by simp) fun i hi _ ↦ ?_
  rw [length_laidOut] at hi
  rw [commandRingUsableTrbs_eq] at hfits
  have hslot : (k + i) % commandRingUsableTrbs = k % commandRingUsableTrbs + i := by
    rw [commandRingUsableTrbs_eq]
    omega
  simp only [laidOut, List.getElem_map, List.getElem_zipIdx, hslot]

theorem DmaRegion.drop_laidOut {trbs : List Trb} {i : ℕ} (hi : i < trbs.length) :
    (ring.laidOut 0 trbs).drop i =
      (ring.slot (i % commandRingUsableTrbs), trbs[i]) :: (ring.laidOut 0 trbs).drop (i + 1) := by
  rw [List.drop_eq_getElem_cons (by simpa using hi)]
  simp [laidOut]

section

variable {ring : DmaRegion} (h : ring.HoldsRing)

include h

theorem stageTrbs_eq (c : Bool) (lap i : ℕ) (physical : U64) (trbs : List Trb)
    (hfits : i + trbs.length ≤ commandRingUsableTrbs) :
    stageTrbs ring c i physical trbs =
      (ring.laidOut (commandRingUsableTrbs * lap + i) (trbs.map (·.withCycle c)),
        .ok (if trbs = [] then physical else ring.slotPhysical (i + trbs.length - 1))) := by
  induction trbs generalizing i physical with
  | nil => simp [stageTrbs, DmaRegion.laidOut]
  | cons trb trbs ih =>
    rw [List.length_cons] at hfits
    have hi : i < commandRingUsableTrbs := by omega
    have hslot : i < commandRingTrbs := hi.trans (by decide)
    have hmod : (commandRingUsableTrbs * lap + i) % commandRingUsableTrbs = i := by
      rw [Nat.mul_add_mod, Nat.mod_eq_of_lt hi]
    have hrest := ih (i + 1) (ring.slotPhysical i) (by omega)
    simp only [stageTrbs, h.trbPointer_eq hslot, h.trbPhysical_eq hslot, hrest]
    simp only [DmaRegion.laidOut, List.map_cons, List.zipIdx_cons, hmod, Nat.add_assoc,
      List.length_cons, List.cons_ne_nil, if_false]
    split_ifs with hlast
    · simp [hlast]
    · simp only [Nat.add_comm 1]

theorem enqueueTransferTd_past (k : ℕ) (trbs : List Trb) :
    enqueueTransferTd ring (.past k) trbs =
      if trbs = [] ∨ k % commandRingUsableTrbs + trbs.length > commandRingUsableTrbs then
        (.past k, [], .error .ringFull)
      else
        (.past (k + trbs.length),
          ring.laidOut k
              (trbs.map (·.withCycle (CycleRing.cycle commandRingUsableTrbs k))) ++
            (if k % commandRingUsableTrbs + trbs.length = commandRingUsableTrbs then
              [(ring.slot commandRingUsableTrbs, (Trb.link ring.physicalStart).withCycle
                (CycleRing.cycle commandRingUsableTrbs k))]
            else []),
          .ok (ring.slotPhysical (k % commandRingUsableTrbs + trbs.length - 1))) := by
  have hlap : commandRingUsableTrbs * (k / commandRingUsableTrbs) + k % commandRingUsableTrbs = k :=
    Nat.div_add_mod k commandRingUsableTrbs
  have hlink := h.trbPointer_eq (i := commandRingUsableTrbs) (by decide)
  simp only [enqueueTransferTd, RingCursor.reserve_past, List.length_eq_zero_iff]
  by_cases hfull : trbs = [] ∨ k % commandRingUsableTrbs + trbs.length > commandRingUsableTrbs
  · rw [if_pos hfull, if_pos hfull]
  · rw [if_neg hfull, if_neg hfull]
    rw [not_or] at hfull
    have hstage := stageTrbs_eq h (CycleRing.cycle commandRingUsableTrbs k)
      (k / commandRingUsableTrbs) (k % commandRingUsableTrbs) 0 trbs (by omega)
    rw [hlap, if_neg hfull.1] at hstage
    simp only [hstage, hlink, decide_eq_true_eq]
    split_ifs with hlast
    · rfl
    · rw [List.append_nil]

end

end BraneKernel
