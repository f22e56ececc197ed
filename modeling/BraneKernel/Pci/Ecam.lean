import BraneKernel.Basic
import BraneKernel.Lib.Bytes
import BraneKernel.Lib.Checked
import Mathlib.Data.List.Pairwise

namespace BraneKernel

def mcfgHeaderLen : ℕ := 44
def mcfgEntryLen : ℕ := 16
def mcfgMaxLen : ℕ := 4096
def maxEcamRegions : ℕ := 8

structure PciAddress where
  bus : BitVec 8
  device : BitVec 8
  function : BitVec 8
  deriving DecidableEq

def PciAddress.new (bus device function : BitVec 8) : Option PciAddress :=
  if device < 32 ∧ function < 8 then some ⟨bus, device, function⟩ else none

/-- A dword register of the configuration space of a function. -/
structure ConfigRegister (address : PciAddress) (offset : U16) : Prop where
  device_lt : address.device.toNat < 32
  function_lt : address.function.toNat < 8
  offset_lt : offset.toNat < 4096
  dword : offset.toNat % 4 = 0

inductive McfgError
  | invalidHeader | invalidLength | invalidChecksum | unsupportedRegionCount | invalidRegion
  | overlappingRegions
  deriving DecidableEq

structure EcamRegion where
  physicalBase : U64
  segmentGroup : U16
  startBus : BitVec 8
  endBus : BitVec 8
  deriving DecidableEq

namespace EcamRegion

def contains (r : EcamRegion) (segmentGroup : U16) (bus : BitVec 8) : Bool :=
  r.segmentGroup == segmentGroup && decide (r.startBus ≤ bus) && decide (bus ≤ r.endBus)

def configAddress (r : EcamRegion) (address : PciAddress) (offset : U16) : Option U64 :=
  if r.contains 0 address.bus = false ∨ 0xFFC < offset ∨ offset &&& 3 ≠ 0 then none
  else do
    let bus ← Checked.add r.physicalBase ((address.bus - r.startBus).setWidth 64 <<< 20)
    let device ← Checked.add bus (address.device.setWidth 64 <<< 15)
    let function ← Checked.add device (address.function.setWidth 64 <<< 12)
    Checked.add function (offset.setWidth 64)

/-- Only regions whose last bus is not before their first are measured. The
checked shift of the source tests the distance alone, which is always in range. -/
def byteLen (r : EcamRegion) : U64 := ((r.endBus - r.startBus).setWidth 64 + 1) <<< 20

/-- The additions are unchecked in the source, so that `none` is a panic. -/
def overlaps (existing region : EcamRegion) : Option Bool := do
  let existingEnd ← Checked.add existing.physicalBase existing.byteLen
  let regionEnd ← Checked.add region.physicalBase region.byteLen
  let busOverlap := existing.segmentGroup == region.segmentGroup &&
    decide (existing.startBus ≤ region.endBus) && decide (region.startBus ≤ existing.endBus)
  let physicalOverlap := decide (existing.physicalBase < regionEnd) &&
    decide (region.physicalBase < existingEnd)
  some (busOverlap || physicalOverlap)

def anyOverlap (region : EcamRegion) : List EcamRegion → Option Bool
  | [] => some false
  | existing :: rest =>
    match existing.overlaps region with
    | some false => anyOverlap region rest
    | stop => stop

end EcamRegion

structure EcamRegions where
  regions : List EcamRegion
  fits : regions.length ≤ maxEcamRegions
  deriving DecidableEq

namespace EcamRegions

def new : EcamRegions := ⟨[], by decide⟩

def regionFor (r : EcamRegions) (segmentGroup : U16) (bus : BitVec 8) : Option EcamRegion :=
  r.regions.find? fun region ↦ region.contains segmentGroup bus

def configAddress (r : EcamRegions) (address : PciAddress) (offset : U16) : Option U64 :=
  (r.regionFor 0 address.bus).bind fun region ↦ region.configAddress address offset

def entryAt (table : Bytes) (index : ℕ) : Option EcamRegion :=
  if h : mcfgHeaderLen + index * mcfgEntryLen + mcfgEntryLen ≤ table.length then
    let entry := table.slice (mcfgHeaderLen + index * mcfgEntryLen) mcfgEntryLen h
    some
      { physicalBase := BitVec.ofNat 64 (Bytes.ofLe (entry.1.take 8))
        segmentGroup := BitVec.ofNat 16 (Bytes.ofLe ((entry.1.drop 8).take 2))
        startBus := entry.1.get ⟨10, by rw [entry.2]; decide⟩
        endBus := entry.1.get ⟨11, by rw [entry.2]; decide⟩ }
  else none

def addRegion (result : EcamRegions) (region : EcamRegion) : Option (Except McfgError EcamRegions) :=
  if region.physicalBase = 0 ∨ region.physicalBase &&& 0xFFFFF ≠ 0 ∨
      region.endBus < region.startBus ∨
      Checked.add region.physicalBase region.byteLen = none then some (.error .invalidRegion)
  else
    match region.anyOverlap result.regions with
    | none => none
    | some true => some (.error .overlappingRegions)
    | some false =>
      if h : result.regions.length < maxEcamRegions then
        some (.ok ⟨result.regions ++ [region], by rw [List.length_append]; exact h⟩)
      else none

def addRegions (table : Bytes) : List ℕ → EcamRegions → Option (Except McfgError EcamRegions)
  | [], result => some (.ok result)
  | index :: rest, result =>
    match (entryAt table index).bind result.addRegion with
    | some (.ok result) => addRegions table rest result
    | stop => stop

/-- The outer `none` is a panic: an index out of range, or an unchecked addition
that overflows. -/
def parseMcfg (table : Bytes) : Option (Except McfgError EcamRegions) :=
  if table.length < mcfgHeaderLen ∨ table.take 4 ≠ [0x4D, 0x43, 0x46, 0x47] then
    some (.error .invalidHeader)
  else
    let declaredLen := Bytes.ofLe ((table.drop 4).take 4)
    if declaredLen < mcfgHeaderLen ∨ mcfgMaxLen < declaredLen ∨ table.length < declaredLen ∨
        (declaredLen - mcfgHeaderLen) % mcfgEntryLen ≠ 0 then some (.error .invalidLength)
    else if (table.take declaredLen).foldl (· + ·) 0 ≠ 0 then some (.error .invalidChecksum)
    else
      let entryCount := (declaredLen - mcfgHeaderLen) / mcfgEntryLen
      if entryCount = 0 ∨ maxEcamRegions < entryCount then some (.error .unsupportedRegionCount)
      else addRegions table (List.range entryCount) new

end EcamRegions

namespace EcamRegion

variable {r a b : EcamRegion} {address : PciAddress} {offset : U16}

def limit (r : EcamRegion) : ℕ :=
  r.physicalBase.toNat + (r.endBus.toNat - r.startBus.toNat + 1) * 0x100000

structure Valid (r : EcamRegion) : Prop where
  ordered : r.startBus.toNat ≤ r.endBus.toNat
  fits : r.limit ≤ (BitVec.allOnes 64).toNat

/-- No common bus within a segment, and no common byte. -/
def Apart (a b : EcamRegion) : Prop :=
  (a.segmentGroup = b.segmentGroup →
    a.endBus.toNat < b.startBus.toNat ∨ b.endBus.toNat < a.startBus.toNat) ∧
  (a.limit ≤ b.physicalBase.toNat ∨ b.limit ≤ a.physicalBase.toNat)

theorem contains_iff {segmentGroup : U16} {bus : BitVec 8} : r.contains segmentGroup bus = true ↔
    r.segmentGroup = segmentGroup ∧ r.startBus.toNat ≤ bus.toNat ∧ bus.toNat ≤ r.endBus.toNat := by
  simp only [contains, Bool.and_eq_true, beq_iff_eq, decide_eq_true_eq, BitVec.le_def, and_assoc]

theorem byteLen_toNat (h : r.startBus.toNat ≤ r.endBus.toNat) :
    r.byteLen.toNat = (r.endBus.toNat - r.startBus.toNat + 1) * 0x100000 := by
  have hend := r.endBus.isLt
  have hsub : (r.endBus - r.startBus).toNat = r.endBus.toNat - r.startBus.toNat :=
    BitVec.toNat_sub_of_le h
  rw [byteLen, BitVec.toNat_shiftLeft, BitVec.toNat_add, BitVec.toNat_setWidth, hsub,
    Nat.shiftLeft_eq]
  simp only [BitVec.ofNat_eq_ofNat, BitVec.toNat_ofNat]
  omega

theorem add_byteLen_ne_none (h : r.startBus.toNat ≤ r.endBus.toNat) :
    Checked.add r.physicalBase r.byteLen ≠ none ↔ r.limit ≤ (BitVec.allOnes 64).toNat := by
  rw [Checked.add, byteLen_toNat h, limit, BitVec.toNat_allOnes]
  split_ifs with hlt
  · simp only [ne_eq, reduceCtorEq, not_false_eq_true, true_iff]
    omega
  · simp only [ne_eq, not_true_eq_false, false_iff]
    omega

theorem add_byteLen (h : r.Valid) :
    ∃ last, Checked.add r.physicalBase r.byteLen = some last ∧ last.toNat = r.limit := by
  obtain ⟨last, hadd⟩ := Option.ne_none_iff_exists'.mp ((add_byteLen_ne_none h.ordered).mpr h.fits)
  refine ⟨last, hadd, ?_⟩
  rw [Checked.add_eq_some_iff.mp hadd, byteLen_toNat h.ordered, limit]

theorem overlaps_eq (ha : a.Valid) (hb : b.Valid) :
    ∃ overlap, a.overlaps b = some overlap ∧ (overlap = false ↔ a.Apart b) := by
  obtain ⟨aEnd, haEnd, haNat⟩ := add_byteLen ha
  obtain ⟨bEnd, hbEnd, hbNat⟩ := add_byteLen hb
  simp only [overlaps, haEnd, hbEnd, Option.bind_eq_bind, Option.bind_some]
  refine ⟨_, rfl, ?_⟩
  simp only [Apart, Bool.or_eq_false_iff, Bool.and_eq_false_iff, beq_eq_false_iff_ne,
    decide_eq_false_iff_not, BitVec.lt_def, BitVec.le_def, haNat, hbNat, not_le, not_lt]
  constructor
  · rintro ⟨hbus, hphysical⟩
    refine ⟨fun hseg ↦ ?_, hphysical.symm⟩
    rcases hbus with (hne | hlt) | hlt
    · exact absurd hseg hne
    · exact .inr hlt
    · exact .inl hlt
  · rintro ⟨hbus, hphysical⟩
    refine ⟨?_, hphysical.symm⟩
    by_cases hseg : a.segmentGroup = b.segmentGroup
    · rcases hbus hseg with hlt | hlt
      · exact .inr hlt
      · exact .inl (.inr hlt)
    · exact .inl (.inl hseg)

theorem anyOverlap_eq (hr : r.Valid) {regions : List EcamRegion} (h : ∀ a ∈ regions, a.Valid) :
    ∃ overlap, r.anyOverlap regions = some overlap ∧
      (overlap = false ↔ ∀ a ∈ regions, a.Apart r) := by
  induction regions with
  | nil => exact ⟨false, rfl, by simp⟩
  | cons a regions ih =>
    obtain ⟨first, hfirst, hiff⟩ := overlaps_eq (h a List.mem_cons_self) hr
    obtain ⟨rest, hrest, hiff'⟩ := ih fun b hb ↦ h b (List.mem_cons_of_mem _ hb)
    rw [anyOverlap, hfirst]
    cases first with
    | true =>
      refine ⟨true, rfl, ?_⟩
      simp only [Bool.true_eq_false, false_iff] at hiff ⊢
      exact fun hall ↦ hiff (hall a List.mem_cons_self)
    | false =>
      refine ⟨rest, hrest, ?_⟩
      simp only [true_iff] at hiff
      rw [hiff', List.forall_mem_cons, and_iff_right hiff]

theorem configAddress_eq (h : r.Valid) (hbus : r.contains 0 address.bus = true)
    (hreg : ConfigRegister address offset) :
    ∃ physical, r.configAddress address offset = some physical ∧
      physical.toNat = r.physicalBase.toNat + (address.bus.toNat - r.startBus.toNat) * 0x100000 +
        address.device.toNat * 0x8000 + address.function.toNat * 0x1000 + offset.toNat ∧
      physical.toNat + 4 ≤ r.limit := by
  obtain ⟨-, hstart, hend⟩ := contains_iff.mp hbus
  obtain ⟨hdevice, hfunction, hoffset, hdword⟩ := hreg
  have hfits := h.fits
  have hall : (BitVec.allOnes 64).toNat = 2 ^ 64 - 1 := BitVec.toNat_allOnes
  rw [hall, limit] at hfits
  have hlow : ¬ (0xFFC < offset) := by
    simp only [BitVec.lt_def, BitVec.ofNat_eq_ofNat, BitVec.toNat_ofNat]
    omega
  have haligned : ¬ (offset &&& 3 ≠ 0) := by
    rw [not_not]
    apply BitVec.eq_of_toNat_eq
    rw [BitVec.toNat_and]
    exact (Nat.and_two_pow_sub_one_eq_mod offset.toNat 2).trans hdword
  have hb : ((address.bus - r.startBus).setWidth 64 <<< 20).toNat =
      (address.bus.toNat - r.startBus.toNat) * 0x100000 := by
    rw [← BitVec.toNat_sub_of_le hstart]
    exact Checked.toNat_widen_shiftLeft (by decide) (address.bus - r.startBus)
  have hd : (address.device.setWidth 64 <<< 15).toNat = address.device.toNat * 0x8000 :=
    Checked.toNat_widen_shiftLeft (by decide) address.device
  have hf : (address.function.setWidth 64 <<< 12).toNat = address.function.toNat * 0x1000 :=
    Checked.toNat_widen_shiftLeft (by decide) address.function
  have ho : (offset.setWidth 64).toNat = offset.toNat := Checked.toNat_widen (by decide) offset
  obtain ⟨x, hx, hxNat⟩ := Checked.add_of_lt (a := r.physicalBase)
    (b := (address.bus - r.startBus).setWidth 64 <<< 20) (by omega)
  obtain ⟨y, hy, hyNat⟩ := Checked.add_of_lt (a := x) (b := address.device.setWidth 64 <<< 15)
    (by omega)
  obtain ⟨z, hz, hzNat⟩ := Checked.add_of_lt (a := y) (b := address.function.setWidth 64 <<< 12)
    (by omega)
  obtain ⟨physical, hp, hpNat⟩ := Checked.add_of_lt (a := z) (b := offset.setWidth 64) (by omega)
  refine ⟨physical, ?_, by omega, ?_⟩
  · have hok : ¬ (r.contains 0 address.bus = false ∨ 0xFFC < offset ∨ offset &&& 3 ≠ 0) := by
      rw [hbus]
      simp only [Bool.true_eq_false, false_or, not_or]
      exact ⟨hlow, haligned⟩
    rw [configAddress, if_neg hok]
    simp only [hx, hy, hz, Option.bind_eq_bind, Option.bind_some, hp]
  · rw [limit]
    omega

end EcamRegion

namespace EcamRegions

open EcamRegion (Valid Apart)

variable {result result' : EcamRegions} {region : EcamRegion} {table : Bytes}

structure WellFormed (r : EcamRegions) : Prop where
  valid : ∀ region ∈ r.regions, region.Valid
  apart : r.regions.Pairwise Apart

theorem wellFormed_new : new.WellFormed := ⟨nofun, .nil⟩

theorem addRegion_spec (region : EcamRegion) (h : result.WellFormed)
    (hroom : result.regions.length < maxEcamRegions) :
    (∃ e, result.addRegion region = some (.error e)) ∨
      ∃ result', result.addRegion region = some (.ok result') ∧
        result'.regions = result.regions ++ [region] ∧ result'.WellFormed := by
  unfold addRegion
  split_ifs with hbad
  · exact .inl ⟨_, rfl⟩
  simp only [not_or] at hbad
  obtain ⟨-, -, hordered, hadd⟩ := hbad
  have hordered' : region.startBus.toNat ≤ region.endBus.toNat := Nat.le_of_not_lt hordered
  have hvalid : region.Valid := ⟨hordered', (EcamRegion.add_byteLen_ne_none hordered').mp hadd⟩
  obtain ⟨overlap, hoverlap, hiff⟩ := EcamRegion.anyOverlap_eq hvalid h.valid
  rw [hoverlap]
  cases overlap with
  | true => exact .inl ⟨_, rfl⟩
  | false =>
    refine .inr ⟨_, rfl, rfl, ?_, ?_⟩
    · intro a ha
      rcases List.mem_append.mp ha with ha | ha
      · exact h.valid a ha
      · rw [List.mem_singleton.mp ha]
        exact hvalid
    · rw [List.pairwise_append]
      refine ⟨h.apart, List.pairwise_singleton _ _, fun a ha b hb ↦ ?_⟩
      rw [List.mem_singleton.mp hb]
      exact hiff.mp rfl a ha

theorem addRegions_spec {indices : List ℕ} (h : result.WellFormed)
    (hroom : result.regions.length + indices.length ≤ maxEcamRegions)
    (htable : ∀ i ∈ indices, mcfgHeaderLen + i * mcfgEntryLen + mcfgEntryLen ≤ table.length) :
    (∃ e, addRegions table indices result = some (.error e)) ∨
      ∃ result', addRegions table indices result = some (.ok result') ∧ result'.WellFormed := by
  induction indices generalizing result with
  | nil => exact .inr ⟨result, rfl, h⟩
  | cons i indices ih =>
    rw [List.length_cons] at hroom
    obtain ⟨region, hregion⟩ : ∃ region, entryAt table i = some region :=
      ⟨_, dif_pos (htable i List.mem_cons_self)⟩
    rw [addRegions, hregion, Option.bind_some]
    rcases addRegion_spec region h (by omega) with
      ⟨e, he⟩ | ⟨result', hok, hregions, hwf⟩
    · rw [he]
      exact .inl ⟨e, rfl⟩
    · rw [hok]
      apply ih hwf
      · rw [hregions, List.length_append, List.length_singleton]
        omega
      · exact fun j hj ↦ htable j (List.mem_cons_of_mem _ hj)

theorem parseMcfg_spec (table : Bytes) :
    (∃ e, parseMcfg table = some (.error e)) ∨
      ∃ result, parseMcfg table = some (.ok result) ∧ result.WellFormed := by
  unfold parseMcfg
  split_ifs with hheader
  · exact .inl ⟨_, rfl⟩
  dsimp only
  generalize Bytes.ofLe ((table.drop 4).take 4) = declaredLen
  split_ifs with hlength hsum hcount
  · exact .inl ⟨_, rfl⟩
  · exact .inl ⟨_, rfl⟩
  · exact .inl ⟨_, rfl⟩
  simp only [not_or, not_lt] at hlength hcount
  apply addRegions_spec wellFormed_new
  · rw [List.length_range]
    exact (Nat.zero_add _).trans_le hcount.2
  · intro i hi
    have hlt := List.mem_range.mp hi
    simp only [mcfgHeaderLen, mcfgEntryLen] at hlength hlt ⊢
    omega

theorem parseMcfg_wellFormed (h : parseMcfg table = some (.ok result)) : result.WellFormed := by
  rcases parseMcfg_spec table with ⟨e, he⟩ | ⟨result', hok, hwf⟩
  · cases he.symm.trans h
  · cases hok.symm.trans h
    exact hwf

variable {address address' : PciAddress} {offset offset' : U16} {physical : U64}

theorem regionFor_spec {segmentGroup : U16} {bus : BitVec 8}
    (h : result.regionFor segmentGroup bus = some region) :
    region ∈ result.regions ∧ region.contains segmentGroup bus = true := by
  unfold regionFor at h
  have hbus := List.find?_some h
  exact ⟨List.mem_of_find?_eq_some h, hbus⟩

theorem configAddress_spec (h : result.WellFormed) (hreg : ConfigRegister address offset)
    (hp : result.configAddress address offset = some physical) :
    ∃ region ∈ result.regions, region.contains 0 address.bus = true ∧
      physical.toNat = region.physicalBase.toNat +
        (address.bus.toNat - region.startBus.toNat) * 0x100000 + address.device.toNat * 0x8000 +
        address.function.toNat * 0x1000 + offset.toNat ∧
      physical.toNat + 4 ≤ region.limit := by
  obtain ⟨region, hfound, hregion⟩ := Option.bind_eq_some_iff.mp hp
  obtain ⟨hmem, hbus⟩ := regionFor_spec hfound
  obtain ⟨p, hp', hvalue, hlimit⟩ := EcamRegion.configAddress_eq (h.valid region hmem) hbus hreg
  obtain rfl := Option.some.inj (hp'.symm.trans hregion)
  exact ⟨region, hmem, hbus, hvalue, hlimit⟩

theorem WellFormed.eq_of_byte (h : result.WellFormed) {a b : EcamRegion} (ha : a ∈ result.regions)
    (hb : b ∈ result.regions) {n : ℕ} (han : a.physicalBase.toNat ≤ n ∧ n < a.limit)
    (hbn : b.physicalBase.toNat ≤ n ∧ n < b.limit) : a = b := by
  by_contra hne
  have hsymm : Std.Symm Apart := ⟨fun _ _ hab ↦ ⟨fun hseg ↦ (hab.1 hseg.symm).symm, hab.2.symm⟩⟩
  obtain ⟨-, hbytes⟩ := h.apart.forall ha hb hne
  omega

theorem configAddress_injective (h : result.WellFormed) (hreg : ConfigRegister address offset)
    (hreg' : ConfigRegister address' offset')
    (hp : result.configAddress address offset = some physical)
    (hp' : result.configAddress address' offset' = some physical) :
    address = address' ∧ offset = offset' := by
  obtain ⟨a, ha, habus, havalue, halimit⟩ := configAddress_spec h hreg hp
  obtain ⟨b, hb, hbbus, hbvalue, hblimit⟩ := configAddress_spec h hreg' hp'
  obtain rfl : a = b := h.eq_of_byte ha hb (n := physical.toNat) (by omega) (by omega)
  obtain ⟨-, hstart, -⟩ := EcamRegion.contains_iff.mp habus
  obtain ⟨-, hstart', -⟩ := EcamRegion.contains_iff.mp hbbus
  obtain ⟨hdevice, hfunction, hoffset, -⟩ := hreg
  obtain ⟨hdevice', hfunction', hoffset', -⟩ := hreg'
  have hbus : address.bus = address'.bus := BitVec.eq_of_toNat_eq (by omega)
  have hdev : address.device = address'.device := BitVec.eq_of_toNat_eq (by omega)
  have hfun : address.function = address'.function := BitVec.eq_of_toNat_eq (by omega)
  have hoff : offset = offset' := BitVec.eq_of_toNat_eq (by omega)
  cases address
  cases address'
  cases hbus
  cases hdev
  cases hfun
  exact ⟨rfl, hoff⟩

/-- Accepted regions are apart, and their configuration registers have addresses
of their own, each in the region of its bus. -/
theorem ecam_addressing (table : Bytes) (result : EcamRegions)
    (h : parseMcfg table = some (.ok result)) :
    result.regions.Pairwise Apart ∧
    (∀ address offset, ConfigRegister address offset →
      ((result.configAddress address offset).isSome = true ↔
        ∃ region ∈ result.regions, region.contains 0 address.bus = true) ∧
      ∀ physical, result.configAddress address offset = some physical →
        ∃ region ∈ result.regions, region.contains 0 address.bus = true ∧
          physical.toNat = region.physicalBase.toNat +
            (address.bus.toNat - region.startBus.toNat) * 0x100000 +
            address.device.toNat * 0x8000 + address.function.toNat * 0x1000 + offset.toNat ∧
          physical.toNat + 4 ≤ region.limit) ∧
    (∀ address address' offset offset' physical, ConfigRegister address offset →
      ConfigRegister address' offset' → result.configAddress address offset = some physical →
      result.configAddress address' offset' = some physical →
      address = address' ∧ offset = offset') := by
  have hwf := parseMcfg_wellFormed h
  refine ⟨hwf.apart, fun address offset hreg ↦ ⟨?_, fun _ hp ↦ configAddress_spec hwf hreg hp⟩,
    fun _ _ _ _ _ hreg hreg' hp hp' ↦ configAddress_injective hwf hreg hreg' hp hp'⟩
  rw [← List.find?_isSome, ← regionFor, configAddress]
  cases hfound : result.regionFor 0 address.bus with
  | none => rfl
  | some region =>
    obtain ⟨hmem, hbus⟩ := regionFor_spec hfound
    obtain ⟨physical, hp, -⟩ := EcamRegion.configAddress_eq (hwf.valid region hmem) hbus hreg
    rw [Option.bind_some, hp]
    exact iff_of_true rfl rfl

def splitTable : Bytes :=
  [0x4D, 0x43, 0x46, 0x47, 0x4C, 0, 0, 0, 0, 0xC9] ++ List.replicate 34 0 ++
    [0, 0, 0, 0xE0, 0, 0, 0, 0, 0, 0, 0, 0x0F, 0, 0, 0, 0] ++
    [0, 0, 0, 0xD0, 0, 0, 0, 0, 0, 0, 0x10, 0xFF, 0, 0, 0, 0]

theorem ecam_addressing_split : ∃ result, parseMcfg splitTable = some (.ok result) ∧
    result.regions = [⟨0xE0000000, 0, 0, 0x0F⟩, ⟨0xD0000000, 0, 0x10, 0xFF⟩] ∧
    result.regions.Pairwise Apart ∧
    result.configAddress ⟨0x11, 2, 3⟩ 0x10 = some 0xD0113010 := by
  have hparse : parseMcfg splitTable =
      some (.ok ⟨[⟨0xE0000000, 0, 0, 0x0F⟩, ⟨0xD0000000, 0, 0x10, 0xFF⟩], by decide⟩) := by
    decide +kernel
  exact ⟨_, hparse, rfl, (ecam_addressing splitTable _ hparse).1, by decide⟩

end EcamRegions

end BraneKernel
