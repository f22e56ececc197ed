import BraneKernel.Lib.Bits
import BraneKernel.Lib.Trace
import BraneKernel.Pci.Device
import BraneKernel.Xhci.Registers

namespace BraneKernel

def pageSize : U64 := 4096
def maxMmioApertureSize : U64 := 64 * 1024 * 1024
def pciMmioVirtualBase : U64 := 0xFFFFA00000000000
def pciMmioWindowSize : U64 := 512 * 1024 * 1024
def maxPciMmioMappings : ℕ := 16

structure PciBarResource where
  index : BitVec 8
  bar : PciBar
  size : U64
  deriving DecidableEq

def PciBarResource.base (resource : PciBarResource) : Option U64 := resource.bar.base

def okOr {α : Type} (e : MmioMapError) (value : Option α) : Except MmioMapError α :=
  value.elim (.error e) .ok

structure MmioMappingState where
  mappings : List MmioMapping
  nextOffset : U64

def alignUp (value alignment : U64) : Option U64 :=
  (Checked.add value (alignment - 1)).map (· &&& ~~~(alignment - 1))

def planMmioMapping (resource : PciBarResource) (mappedVirtualBase : U64) :
    Except MmioMapError MmioMapping :=
  if resource.bar.isMemory = false then .error .notMemoryBar
  else do
    let physicalBase ← okOr .invalidSize resource.base
    if resource.size = 0 ∨ isPowerOfTwo resource.size = false ∨
      physicalBase &&& (resource.size - 1) ≠ 0 then .error .invalidSize
    else if maxMmioApertureSize < resource.size then .error .apertureTooLarge
    else if mappedVirtualBase &&& (pageSize - 1) ≠ 0 then .error .mappingConflict
    else
      let physicalOffset := physicalBase &&& (pageSize - 1)
      let mappedPhysicalBase := physicalBase - physicalOffset
      let extent ← okOr .addressOverflow (Checked.add physicalOffset resource.size)
      let mappedLen ← okOr .addressOverflow (alignUp extent pageSize)
      let _ ← okOr .addressOverflow
        ((Checked.add mappedPhysicalBase mappedLen).filter (· ≤ 1#64 <<< 52))
      let virtualBase ← okOr .addressOverflow (Checked.add mappedVirtualBase physicalOffset)
      let _ ← okOr .addressOverflow (Checked.add mappedVirtualBase mappedLen)
      .ok ⟨physicalBase, virtualBase, resource.size, mappedPhysicalBase, mappedVirtualBase, mappedLen⟩

namespace MmioMappingState

def new : MmioMappingState := ⟨[], 0⟩

def existing (s : MmioMappingState) (physicalBase size : U64) : Option MmioMapping :=
  s.mappings.find? fun mapping ↦ mapping.physicalBase == physicalBase && mapping.size == size

/-- The checks before any page is mapped: the planned mapping, and the offset
after it. The ends of the mappings in the table do not overflow. -/
def reserve (s : MmioMappingState) (resource : PciBarResource) (physicalBase : U64) :
    Except MmioMapError (MmioMapping × U64) :=
  if s.mappings.length = maxPciMmioMappings then .error .mappingTableFull
  else do
    let physicalEnd ← okOr .addressOverflow (Checked.add physicalBase resource.size)
    if s.mappings.any fun mapping ↦ decide (mapping.physicalBase < physicalEnd) &&
        decide (physicalBase < mapping.physicalBase + mapping.size) then .error .mappingConflict
    else
      let mappedVirtualBase ← okOr .addressOverflow (Checked.add pciMmioVirtualBase s.nextOffset)
      let mapping ← planMmioMapping resource mappedVirtualBase
      let nextOffset ← okOr .windowExhausted
        ((Checked.add s.nextOffset mapping.mappedLen).filter (· ≤ pciMmioWindowSize))
      .ok (mapping, nextOffset)

end MmioMappingState

structure PageMapping where
  frame : U64
  flags : U64
  deriving DecidableEq

/-- The pages that are mapped, by their first address. -/
abbrev MappedPages := U64 → Option PageMapping

def mmioFlags : U64 := 1#64 <<< 0 ||| 1#64 <<< 1 ||| 1#64 <<< 63 ||| 1#64 <<< 4

namespace MappedPages

def mapPage (pages : MappedPages) (fails : Bool) (page frame flags : U64) : Option MappedPages :=
  if fails = true ∨ (pages page).isSome = true then none
  else some (Function.update pages page (some ⟨frame, flags⟩))

def unmapPage (pages : MappedPages) (page : U64) : MappedPages := Function.update pages page none

end MappedPages

namespace MmioMapping

variable (m : MmioMapping)

def virtualPage (index : ℕ) : U64 :=
  m.mappedVirtualBase + BitVec.ofNat 64 index * pageSize

def physicalPage (index : ℕ) : U64 :=
  m.mappedPhysicalBase + BitVec.ofNat 64 index * pageSize

def pageCount : ℕ := (m.mappedLen / pageSize).toNat

def rollback (index : ℕ) (pages : MappedPages) : MappedPages :=
  (List.range index).foldl (fun pages i ↦ pages.unmapPage (m.virtualPage i)) pages

def mapPages (m : MmioMapping) (fails : ℕ → Bool) :
    ℕ → ℕ → MappedPages → MappedPages × Except MmioMapError Unit
  | 0, _, pages => (pages, .ok ())
  | n + 1, index, pages =>
    if m.virtualPage index &&& (pageSize - 1) ≠ 0 ∨ m.physicalPage index &&& (pageSize - 1) ≠ 0 then
      (pages, .error .addressOverflow)
    else
      match pages.mapPage (fails index) (m.virtualPage index) (m.physicalPage index) mmioFlags with
      | none => (m.rollback index pages, .error .mapFailed)
      | some pages => mapPages m fails n (index + 1) pages

end MmioMapping

structure PciMmio where
  state : MmioMappingState
  pages : MappedPages

/-- Map a memory BAR into the window. The page mapper refuses the page of index
`i` when `fails i`. -/
def PciMmio.mapBarMmio (w : PciMmio) (resource : PciBarResource) (fails : ℕ → Bool) :
    PciMmio × Except MmioMapError MmioMapping :=
  match resource.base with
  | none => (w, .error .notMemoryBar)
  | some physicalBase =>
    match w.state.existing physicalBase resource.size with
    | some existing => (w, .ok existing)
    | none =>
      match w.state.reserve resource physicalBase with
      | .error e => (w, .error e)
      | .ok (mapping, nextOffset) =>
        if (List.range mapping.pageCount).any fun i ↦ (w.pages (mapping.virtualPage i)).isSome then
          (w, .error .mappingConflict)
        else
          match mapping.mapPages fails mapping.pageCount 0 w.pages with
          | (pages, .error e) => ({ w with pages := pages }, .error e)
          | (pages, .ok ()) => (⟨⟨w.state.mappings ++ [mapping], nextOffset⟩, pages⟩, .ok mapping)

inductive MmioEvent
  | mapBar (resource : PciBarResource) (fails : ℕ → Bool)
      (result : Except MmioMapError MmioMapping)
  | remap (pages : MappedPages)

def PciMmio.Step (w : PciMmio) : MmioEvent → PciMmio → Prop
  | .mapBar resource fails result, w' => w.mapBarMmio resource fails = (w', result)
  | .remap pages, w' => w' = { w with pages := pages }

theorem bind_eq_ok {ε α β : Type} {x : Except ε α} {f : α → Except ε β} {b : β} :
    x >>= f = .ok b ↔ ∃ a, x = .ok a ∧ f a = .ok b := by
  cases x with
  | error e => exact ⟨nofun, nofun⟩
  | ok a => exact ⟨fun h ↦ ⟨a, rfl, h⟩, fun ⟨_, ha, hb⟩ ↦ by cases ha; exact hb⟩

theorem elim_eq_ok {ε α : Type} {e : ε} {value : Option α} {a : α} :
    value.elim (.error e) .ok = (.ok a : Except ε α) ↔ value = some a := by
  cases value <;> simp

theorem okOr_eq_ok {α : Type} {e : MmioMapError} {value : Option α} {a : α} :
    okOr e value = .ok a ↔ value = some a := elim_eq_ok

theorem and_pageMask (a : U64) : (a &&& (pageSize - 1)).toNat = a.toNat % 4096 :=
  Nat.and_two_pow_sub_one_eq_mod a.toNat 12

theorem and_pageMask_eq_zero {a : U64} : a &&& (pageSize - 1) = 0 ↔ a.toNat % 4096 = 0 := by
  rw [← and_pageMask, ← BitVec.toNat_inj]
  rfl

theorem alignUp_spec {a b : U64} (h : alignUp a pageSize = some b) :
    a.toNat ≤ b.toNat ∧ b.toNat % 4096 = 0 := by
  obtain ⟨c, hc, rfl⟩ := Option.map_eq_some_iff.mp h
  have hsum := Checked.add_eq_some_iff.mp hc
  have hmask : (pageSize - 1).toNat = 4095 := rfl
  have hle : (c &&& (pageSize - 1)).toNat ≤ c.toNat := by rw [and_pageMask]; exact Nat.mod_le _ _
  rw [Bits.and_not_eq_sub, BitVec.toNat_sub_of_le hle, and_pageMask]
  omega

namespace MmioMapping

variable {m a b : MmioMapping}

/-- What a planned mapping keeps: whole pages that hold the bytes of the BAR, in
both address spaces. -/
structure Planned (m : MmioMapping) : Prop where
  size_pos : 0 < m.size.toNat
  len_aligned : m.mappedLen.toNat % 4096 = 0
  virtual_aligned : m.mappedVirtualBase.toNat % 4096 = 0
  physical_aligned : m.mappedPhysicalBase.toNat % 4096 = 0
  virtual_le : m.mappedVirtualBase.toNat ≤ m.virtualBase.toNat
  virtual_end : m.virtualBase.toNat + m.size.toNat ≤ m.mappedVirtualBase.toNat + m.mappedLen.toNat
  physical_le : m.mappedPhysicalBase.toNat ≤ m.physicalBase.toNat
  physical_end :
    m.physicalBase.toNat + m.size.toNat ≤ m.mappedPhysicalBase.toNat + m.mappedLen.toNat
  physical_limit : m.mappedPhysicalBase.toNat + m.mappedLen.toNat ≤ 0x10000000000000

theorem planned_of_plan {resource : PciBarResource} {mappedVirtualBase : U64}
    (h : planMmioMapping resource mappedVirtualBase = .ok m) :
    m.Planned ∧ resource.base = some m.physicalBase ∧ m.size = resource.size ∧
      m.mappedVirtualBase = mappedVirtualBase := by
  unfold planMmioMapping at h
  split at h
  · cases h
  obtain ⟨physicalBase, hbase, h⟩ := bind_eq_ok.mp h
  split at h
  · cases h
  next hsize =>
  split at h
  · cases h
  split at h
  · cases h
  next haligned =>
  obtain ⟨extent, hextent, h⟩ := bind_eq_ok.mp h
  obtain ⟨mappedLen, hlen, h⟩ := bind_eq_ok.mp h
  obtain ⟨last, hlast, h⟩ := bind_eq_ok.mp h
  obtain ⟨virtualBase, hvirtual, h⟩ := bind_eq_ok.mp h
  obtain ⟨-, -, h⟩ := bind_eq_ok.mp h
  cases h
  rw [okOr_eq_ok] at hbase hextent hlen hlast hvirtual
  obtain ⟨hlast, hlimit⟩ := Option.filter_eq_some_iff.mp hlast
  have hextent' := Checked.add_eq_some_iff.mp hextent
  have hlast' := Checked.add_eq_some_iff.mp hlast
  have hvirtual' := Checked.add_eq_some_iff.mp hvirtual
  obtain ⟨hle, hlenAligned⟩ := alignUp_spec hlen
  rw [not_not, and_pageMask_eq_zero] at haligned
  have hoff := and_pageMask physicalBase
  have hphysical : (physicalBase - (physicalBase &&& (pageSize - 1))).toNat =
      physicalBase.toNat - physicalBase.toNat % 4096 := by
    rw [BitVec.toNat_sub_of_le (by rw [BitVec.le_def, hoff]; exact Nat.mod_le _ _), hoff]
  have hpos : 0 < resource.size.toNat := by
    rw [Nat.pos_iff_ne_zero]
    exact fun hzero ↦ hsize (.inl (BitVec.eq_of_toNat_eq hzero))
  have hlimit' : last.toNat ≤ 0x10000000000000 := of_decide_eq_true hlimit
  refine ⟨⟨hpos, hlenAligned, haligned, ?_, ?_, ?_, ?_, ?_, ?_⟩, hbase, rfl, rfl⟩
  all_goals
    dsimp only
    omega

theorem page_aligned {base : U64} (hbase : base.toNat % 4096 = 0) (i : ℕ) :
    (base + BitVec.ofNat 64 i * pageSize) &&& (pageSize - 1) = 0 := by
  have hpage : pageSize.toNat = 4096 := rfl
  rw [and_pageMask_eq_zero, BitVec.toNat_add, BitVec.toNat_mul, hpage]
  omega

theorem rollback_apply (m : MmioMapping) (index : ℕ) (pages : MappedPages) (page : U64) :
    m.rollback index pages page =
      if ∃ i < index, page = m.virtualPage i then none else pages page := by
  induction index with
  | zero => simp [rollback]
  | succ index ih =>
    rw [rollback, List.range_succ, List.foldl_append, List.foldl_cons, List.foldl_nil, ← rollback,
      MappedPages.unmapPage]
    by_cases hpage : page = m.virtualPage index
    · rw [hpage, Function.update_self, if_pos ⟨index, index.lt_succ_self, rfl⟩]
    · rw [Function.update_of_ne hpage, ih]
      simp only [Nat.lt_succ_iff_lt_or_eq, or_and_right, exists_or, exists_eq_left, hpage, or_false]

theorem Planned.mapPages_error (h : m.Planned) {fails : ℕ → Bool} (n index : ℕ)
    {pages₀ pages pages' : MappedPages} {e : MmioMapError}
    (hfree : ∀ i < index + n, pages₀ (m.virtualPage i) = none)
    (hkeep : ∀ page, (∀ i < index, page ≠ m.virtualPage i) → pages page = pages₀ page)
    (hmap : m.mapPages fails n index pages = (pages', .error e)) : pages' = pages₀ := by
  induction n generalizing index pages with
  | zero => cases hmap
  | succ n ih =>
    have haligned : ¬ (m.virtualPage index &&& (pageSize - 1) ≠ 0 ∨
        m.physicalPage index &&& (pageSize - 1) ≠ 0) := by
      rw [virtualPage, physicalPage, page_aligned h.virtual_aligned,
        page_aligned h.physical_aligned]
      simp
    rw [mapPages, if_neg haligned] at hmap
    split at hmap
    · cases hmap
      funext page
      rw [rollback_apply]
      split_ifs with hin
      · obtain ⟨i, hi, rfl⟩ := hin
        exact (hfree i (by omega)).symm
      · exact hkeep page fun i hi he ↦ hin ⟨i, hi, he⟩
    · next pages₁ hpage =>
      have hone : pages₁ = Function.update pages (m.virtualPage index)
          (some ⟨m.physicalPage index, mmioFlags⟩) := by
        unfold MappedPages.mapPage at hpage
        split at hpage
        · cases hpage
        · exact (Option.some.inj hpage).symm
      refine ih (index + 1) (fun i hi ↦ hfree i (by omega)) (fun page hpage ↦ ?_) hmap
      rw [hone, Function.update_of_ne (hpage index index.lt_succ_self)]
      exact hkeep page fun i hi ↦ hpage i (by omega)

end MmioMapping

namespace MmioMappingState

open MmioMapping (Planned)

variable {s : MmioMappingState} {m : MmioMapping}

/-- The windows lie one after the other, and no two BARs share a byte. -/
def Apart (a b : MmioMapping) : Prop :=
  a.mappedVirtualBase.toNat + a.mappedLen.toNat ≤ b.mappedVirtualBase.toNat ∧
    (a.physicalBase.toNat + a.size.toNat ≤ b.physicalBase.toNat ∨
      b.physicalBase.toNat + b.size.toNat ≤ a.physicalBase.toNat)

structure Sound (s : MmioMappingState) : Prop where
  planned : ∀ m ∈ s.mappings, m.Planned
  apart : s.mappings.Pairwise Apart
  offset_aligned : s.nextOffset.toNat % 4096 = 0
  offset_le : s.nextOffset.toNat ≤ pciMmioWindowSize.toNat
  window : ∀ m ∈ s.mappings, pciMmioVirtualBase.toNat ≤ m.mappedVirtualBase.toNat ∧
    m.mappedVirtualBase.toNat + m.mappedLen.toNat ≤ pciMmioVirtualBase.toNat + s.nextOffset.toNat

theorem sound_new : new.Sound where
  planned := nofun
  apart := .nil
  offset_aligned := rfl
  offset_le := by decide
  window := nofun

theorem Sound.append (h : s.Sound) {offset : U64} (hplanned : m.Planned)
    (hstart : m.mappedVirtualBase.toNat = pciMmioVirtualBase.toNat + s.nextOffset.toNat)
    (hoffset : offset.toNat = s.nextOffset.toNat + m.mappedLen.toNat)
    (hlimit : offset.toNat ≤ pciMmioWindowSize.toNat)
    (hphysical : ∀ a ∈ s.mappings, a.physicalBase.toNat + a.size.toNat ≤ m.physicalBase.toNat ∨
      m.physicalBase.toNat + m.size.toNat ≤ a.physicalBase.toNat) :
    Sound ⟨s.mappings ++ [m], offset⟩ where
  planned a ha := by
    rcases List.mem_append.mp ha with ha | ha
    · exact h.planned a ha
    · rw [List.mem_singleton.mp ha]
      exact hplanned
  apart := by
    refine List.pairwise_append.mpr ⟨h.apart, List.pairwise_singleton _ _, fun a ha b hb ↦ ?_⟩
    rw [List.mem_singleton.mp hb]
    have hin := (h.window a ha).2
    exact ⟨by omega, hphysical a ha⟩
  offset_aligned := by
    have haligned := h.offset_aligned
    have hlen := hplanned.len_aligned
    dsimp only
    omega
  offset_le := hlimit
  window a ha := by
    dsimp only
    rcases List.mem_append.mp ha with ha | ha
    · have hin := h.window a ha
      omega
    · rw [List.mem_singleton.mp ha]
      omega

theorem Sound.reserve (h : s.Sound) {resource : PciBarResource} {physicalBase nextOffset : U64}
    (hbase : resource.base = some physicalBase)
    (hr : s.reserve resource physicalBase = .ok (m, nextOffset)) :
    m.Planned ∧ Sound ⟨s.mappings ++ [m], nextOffset⟩ := by
  unfold MmioMappingState.reserve at hr
  split at hr
  · cases hr
  obtain ⟨physicalEnd, hend, hr⟩ := bind_eq_ok.mp hr
  split at hr
  · cases hr
  next hoverlap =>
  obtain ⟨mappedVirtualBase, hvirtual, hr⟩ := bind_eq_ok.mp hr
  obtain ⟨m', hplan, hr⟩ := bind_eq_ok.mp hr
  obtain ⟨offset, hoffset, hr⟩ := bind_eq_ok.mp hr
  obtain ⟨rfl, rfl⟩ := Prod.mk.inj (Except.ok.inj hr)
  rw [okOr_eq_ok] at hend hvirtual hoffset
  obtain ⟨hplanned, hbase', hsize, hwindow⟩ := MmioMapping.planned_of_plan hplan
  obtain rfl := Option.some.inj (hbase'.symm.trans hbase)
  obtain ⟨hoffset, hlimit⟩ := Option.filter_eq_some_iff.mp hoffset
  have hend' := Checked.add_eq_some_iff.mp hend
  have hvirtual' := Checked.add_eq_some_iff.mp hvirtual
  have hoffset' := Checked.add_eq_some_iff.mp hoffset
  have hlimit' : offset.toNat ≤ pciMmioWindowSize.toNat := of_decide_eq_true hlimit
  refine ⟨hplanned, h.append hplanned ?_ hoffset' hlimit' fun a ha ↦ ?_⟩
  · rw [hwindow, hvirtual']
  · have hlimit := (h.planned a ha).physical_limit
    have hend := (h.planned a ha).physical_end
    have hsum : (a.physicalBase + a.size).toNat = a.physicalBase.toNat + a.size.toNat := by
      rw [BitVec.toNat_add]
      omega
    rw [hsize, ← hend']
    by_contra hno
    refine hoverlap (List.any_eq_true.mpr ⟨a, ha, ?_⟩)
    rw [Bool.and_eq_true, decide_eq_true_eq, decide_eq_true_eq, BitVec.lt_def, BitVec.lt_def, hsum]
    omega

theorem existing_spec {physicalBase size : U64} (h : s.existing physicalBase size = some m) :
    m ∈ s.mappings ∧ m.physicalBase = physicalBase ∧ m.size = size := by
  unfold existing at h
  have hm := List.find?_some h
  rw [Bool.and_eq_true, beq_iff_eq, beq_iff_eq] at hm
  exact ⟨List.mem_of_find?_eq_some h, hm.1, hm.2⟩

theorem Sound.apart_of_ne (h : s.Sound) {a b : MmioMapping} (ha : a ∈ s.mappings)
    (hb : b ∈ s.mappings) (hne : a ≠ b) : Apart a b ∨ Apart b a := by
  have hsymm : Std.Symm fun a b ↦ Apart a b ∨ Apart b a := ⟨fun _ _ ↦ Or.symm⟩
  have hapart : s.mappings.Pairwise fun a b ↦ Apart a b ∨ Apart b a := h.apart.imp .inl
  exact hapart.forall ha hb hne

theorem Sound.existing_eq (h : s.Sound) (hm : m ∈ s.mappings) :
    s.existing m.physicalBase m.size = some m := by
  cases hfound : s.existing m.physicalBase m.size with
  | none =>
    have hno := List.find?_eq_none.mp hfound m hm
    simp at hno
  | some a =>
    obtain ⟨ha, hbase, -⟩ := existing_spec hfound
    by_contra hne
    have hpos := (h.planned a ha).size_pos
    have hpos' := (h.planned m hm).size_pos
    have hnat := congrArg BitVec.toNat hbase
    rcases h.apart_of_ne ha hm fun heq ↦ hne (congrArg some heq) with ⟨-, hp⟩ | ⟨-, hp⟩ <;> omega

end MmioMappingState

namespace PciMmio

open MmioMappingState (Sound Apart)

variable {w w' : PciMmio}

inductive MapEffect (w : PciMmio) :
    PciMmio → Except MmioMapError MmioMapping → Prop
  | found {m : MmioMapping} : m ∈ w.state.mappings → MapEffect w w (.ok m)
  | failed (e : MmioMapError) : MapEffect w w (.error e)
  | mapped {m : MmioMapping} {nextOffset : U64} (pages : MappedPages) :
      Sound ⟨w.state.mappings ++ [m], nextOffset⟩ →
      MapEffect w ⟨⟨w.state.mappings ++ [m], nextOffset⟩, pages⟩ (.ok m)

theorem mapBarMmio_effect (h : w.state.Sound) (resource : PciBarResource) (fails : ℕ → Bool) :
    MapEffect w (w.mapBarMmio resource fails).1 (w.mapBarMmio resource fails).2 := by
  unfold mapBarMmio
  cases hbase : resource.base with
  | none => exact .failed _
  | some physicalBase =>
    dsimp only
    cases hexisting : w.state.existing physicalBase resource.size with
    | some m => exact .found (MmioMappingState.existing_spec hexisting).1
    | none =>
      dsimp only
      cases hreserve : w.state.reserve resource physicalBase with
      | error e => exact .failed e
      | ok r =>
        obtain ⟨m, nextOffset⟩ := r
        obtain ⟨hplanned, hsound⟩ := h.reserve hbase hreserve
        dsimp only
        split_ifs with htaken
        · exact .failed _
        have hfree : ∀ i < m.pageCount, w.pages (m.virtualPage i) = none := by
          intro i hi
          by_contra hsome
          refine htaken (List.any_eq_true.mpr ⟨i, List.mem_range.mpr hi, ?_⟩)
          rwa [Option.isSome_iff_ne_none]
        rcases hmap : m.mapPages fails m.pageCount 0 w.pages with ⟨pages, e | _⟩
        · have hback : pages = w.pages := hplanned.mapPages_error m.pageCount 0
            (by rwa [Nat.zero_add]) (fun _ _ ↦ rfl) hmap
          rw [hback]
          exact .failed e
        · exact .mapped pages hsound

theorem MapEffect.keeps {result : Except MmioMapError MmioMapping}
    (heff : MapEffect w w' result) (h : w.state.Sound) : w'.state.Sound ∧
      ∀ m, m ∈ w.state.mappings ∨ result = .ok m → m ∈ w'.state.mappings := by
  cases heff with
  | found hin =>
    refine ⟨h, ?_⟩
    rintro m (hm | hm)
    · exact hm
    · cases hm
      exact hin
  | failed => exact ⟨h, fun m hm ↦ hm.resolve_right nofun⟩
  | mapped _ hsound =>
    refine ⟨hsound, ?_⟩
    rintro m (hm | hm)
    · exact List.mem_append_left _ hm
    · cases hm
      exact List.mem_append_right _ List.mem_cons_self

def Handed (events : List MmioEvent) (m : MmioMapping) : Prop :=
  ∃ resource fails, MmioEvent.mapBar resource fails (.ok m) ∈ events

/-- The table holds every mapping that was handed out. -/
def Remembers (events : List MmioEvent) (w : PciMmio) : Prop :=
  w.state.Sound ∧ ∀ m, Handed events m → m ∈ w.state.mappings

theorem remembers_step {events : List MmioEvent} {e : MmioEvent} (h : Remembers events w)
    (hs : w.Step e w') : Remembers (events ++ [e]) w' := by
  obtain ⟨hsound, hhanded⟩ := h
  cases e with
  | remap pages =>
    obtain rfl := hs
    refine ⟨hsound, fun m ⟨resource, fails, hm⟩ ↦ hhanded m ⟨resource, fails, ?_⟩⟩
    simpa using hm
  | mapBar resource fails result =>
    have heff := mapBarMmio_effect hsound resource fails
    rw [show w.mapBarMmio resource fails = (w', result) from hs] at heff
    obtain ⟨hsound', hkeeps⟩ := heff.keeps hsound
    refine ⟨hsound', ?_⟩
    rintro m ⟨resource', fails', hm⟩
    rw [List.mem_append, List.mem_singleton, MmioEvent.mapBar.injEq] at hm
    rcases hm with hm | ⟨-, -, hm⟩
    · exact hkeeps m (.inl (hhanded m ⟨resource', fails', hm⟩))
    · exact hkeeps m (.inr hm.symm)

/-- Over any history the windows handed out are whole pages of the window and
share neither virtual nor physical bytes, a repeated call returns the mapping
there is, and a call that fails changes nothing. -/
theorem bar_mappings_exclusive (pages : MappedPages) (events : List MmioEvent) (w : PciMmio)
    (h : Trace.Run Step ⟨.new, pages⟩ events w) :
    (∀ m, Handed events m → m.mappedVirtualBase.toNat % 4096 = 0 ∧ m.mappedLen.toNat % 4096 = 0 ∧
      pciMmioVirtualBase.toNat ≤ m.mappedVirtualBase.toNat ∧
      m.mappedVirtualBase.toNat + m.mappedLen.toNat ≤
        pciMmioVirtualBase.toNat + pciMmioWindowSize.toNat ∧
      m.mappedVirtualBase.toNat ≤ m.virtualBase.toNat ∧
      m.virtualBase.toNat + m.size.toNat ≤ m.mappedVirtualBase.toNat + m.mappedLen.toNat) ∧
    (∀ a b, Handed events a → Handed events b → a ≠ b →
      (a.mappedVirtualBase.toNat + a.mappedLen.toNat ≤ b.mappedVirtualBase.toNat ∨
        b.mappedVirtualBase.toNat + b.mappedLen.toNat ≤ a.mappedVirtualBase.toNat) ∧
      (a.physicalBase.toNat + a.size.toNat ≤ b.physicalBase.toNat ∨
        b.physicalBase.toNat + b.size.toNat ≤ a.physicalBase.toNat)) ∧
    (∀ m resource fails, Handed events m → resource.base = some m.physicalBase →
      resource.size = m.size → w.mapBarMmio resource fails = (w, .ok m)) ∧
    (∀ resource fails w' e, w.mapBarMmio resource fails = (w', .error e) → w' = w) := by
  obtain ⟨hsound, hhanded⟩ : Remembers events w :=
    h.history (I := Remembers) ⟨MmioMappingState.sound_new, fun m ⟨_, _, hm⟩ ↦ nomatch hm⟩
      fun _ _ _ _ hr hs ↦ remembers_step hr hs
  refine ⟨fun m hm ↦ ?_, fun a b ha hb hne ↦ ?_, fun m resource fails hm hbase hsize ↦ ?_,
    fun resource fails w' e he ↦ ?_⟩
  · have hin := hhanded m hm
    have hplanned := hsound.planned m hin
    have hwindow := hsound.window m hin
    have hoffset := hsound.offset_le
    exact ⟨hplanned.virtual_aligned, hplanned.len_aligned, hwindow.1, by omega,
      hplanned.virtual_le, hplanned.virtual_end⟩
  · rcases hsound.apart_of_ne (hhanded a ha) (hhanded b hb) hne with ⟨hv, hp⟩ | ⟨hv, hp⟩
    · exact ⟨.inl hv, hp⟩
    · exact ⟨.inr hv, hp.symm⟩
  · unfold mapBarMmio
    rw [hbase, hsize]
    dsimp only
    rw [hsound.existing_eq (hhanded m hm)]
  · have heff := mapBarMmio_effect hsound resource fails
    rw [he] at heff
    cases heff
    rfl

def lowBar : PciBarResource := ⟨0, .memory32 0xFEBD0000 false, 0x1000⟩

def lowMapping : MmioMapping :=
  ⟨0xFEBD0000, 0xFFFFA00000000000, 0x1000, 0xFEBD0000, 0xFFFFA00000000000, 0x1000⟩

def highBar : PciBarResource := ⟨2, .memory32 0xFEBD1000 false, 0x100⟩

def highMapping : MmioMapping :=
  ⟨0xFEBD1000, 0xFFFFA00000001000, 0x100, 0xFEBD1000, 0xFFFFA00000001000, 0x1000⟩

def twoBars : List MmioEvent :=
  [.mapBar lowBar (fun _ ↦ false) (.ok lowMapping),
    .mapBar highBar (fun _ ↦ true) (.error .mapFailed),
    .mapBar highBar (fun _ ↦ false) (.ok highMapping)]

theorem bar_mappings_exclusive_two : ∃ w, Trace.Run Step ⟨.new, fun _ ↦ none⟩ twoBars w ∧
    Handed twoBars lowMapping ∧ Handed twoBars highMapping ∧
    w.mapBarMmio lowBar (fun _ ↦ true) = (w, .ok lowMapping) := by
  have hrun : Trace.Run Step ⟨.new, fun _ ↦ none⟩ twoBars _ :=
    ((Trace.Run.nil.snoc (show Step _ (.mapBar lowBar _ _) _ from rfl)).snoc
      (show Step _ (.mapBar highBar _ _) _ from rfl)).snoc
      (show Step _ (.mapBar highBar _ _) _ from rfl)
  have hlow : Handed twoBars lowMapping := ⟨lowBar, fun _ ↦ false, List.mem_cons_self⟩
  have hhigh : Handed twoBars highMapping := ⟨highBar, fun _ ↦ false,
    List.mem_cons_of_mem _ (List.mem_cons_of_mem _ List.mem_cons_self)⟩
  obtain ⟨-, -, hrepeat, -⟩ := bar_mappings_exclusive (fun _ ↦ none) twoBars _ hrun
  exact ⟨_, hrun, hlow, hhigh, hrepeat lowMapping lowBar _ hlow rfl rfl⟩

end PciMmio

end BraneKernel
