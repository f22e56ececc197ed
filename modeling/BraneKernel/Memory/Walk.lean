import BraneKernel.Memory.Paging

namespace BraneKernel

/-! The four-level walk of the processor, on physical memory, and the kernel's walk through the
direct map. -/

namespace Walk

structure Rights where
  user : Bool
  writable : Bool

def isPresent (entry : U64) : Bool := entry.getLsbD 0

def isLarge (entry : U64) : Bool := entry.getLsbD 7

def frame (entry : U64) : U64 := entry &&& entryAddrMask

def Rights.restrict (r : Rights) (entry : U64) : Rights :=
  ⟨r.user && entry.getLsbD 2, r.writable && entry.getLsbD 1⟩

def index (a : U64) (below : ℕ) : BitVec 9 := a.extractLsb' (12 + 9 * below) 9

/-- The frame bits of a large page below its size are reserved, except for bit 12. -/
def Aligned (entry : U64) (bits : ℕ) : Prop := ∀ k, 13 ≤ k → k < bits → entry.getLsbD k = false

instance (entry : U64) (bits : ℕ) : Decidable (Aligned entry bits) :=
  decidable_of_iff (∀ k < bits, 13 ≤ k → entry.getLsbD k = false)
    ⟨fun h k hk hk' ↦ h k hk' hk, fun h k hk hk' ↦ h k hk' hk⟩

def walk (phys : U64 → PageTable) (a : U64) : ℕ → PageTable → Rights → Option Rights
  | 0, table, rights =>
    let entry := table (index a 0)
    if isPresent entry then some (rights.restrict entry) else none
  | below + 1, table, rights =>
    let entry := table (index a (below + 1))
    if !isPresent entry then none
    else if isLarge entry then
      if below + 1 < 3 ∧ Aligned entry (12 + 9 * (below + 1)) then some (rights.restrict entry)
      else none
    else walk phys a below (phys (frame entry)) (rights.restrict entry)

def toPermissions : Option Rights → UserPagePermissions
  | none => .unmapped
  | some rights => ⟨true, rights.user, rights.writable⟩

def permissions (phys : U64 → PageTable) (root : PageTable) (a : U64) : UserPagePermissions :=
  toPermissions (walk phys a 3 root ⟨true, true⟩)

inductive IsTable (phys : U64 → PageTable) (root : PageTable) : ℕ → PageTable → Prop
  | root : IsTable phys root 3 root
  | child {below : ℕ} {table : PageTable} (i : BitVec 9) :
      IsTable phys root (below + 1) table → isPresent (table i) = true →
      isLarge (table i) = false → IsTable phys root below (phys (frame (table i)))

def DirectMap (P : Paging) (mapper : P.OffsetPageTable) (virt phys : U64 → PageTable) : Prop :=
  ∀ (below : ℕ) (table : PageTable) (i : BitVec 9),
    IsTable phys (P.level4Table mapper) (below + 1) table → isPresent (table i) = true →
    isLarge (table i) = false → ∃ a, Checked.add (P.physOffset mapper) (frame (table i)) = some a ∧
      Canonical a ∧ virt a = phys (frame (table i))

variable {phys : U64 → PageTable} {a : U64} {below : ℕ} {table : PageTable} {rights : Rights}

theorem walk_absent (h : isPresent (table (index a below)) = false) :
    walk phys a below table rights = none := by
  cases below with
  | zero => simp only [walk, h, Bool.false_eq_true, if_false]
  | succ below => simp only [walk, h, Bool.not_false, if_true]

theorem walk_leaf (h : isPresent (table (index a 0)) = true) :
    walk phys a 0 table rights = some (rights.restrict (table (index a 0))) := if_pos h

theorem walk_large (hp : isPresent (table (index a (below + 1))) = true)
    (hl : isLarge (table (index a (below + 1))) = true) :
    walk phys a (below + 1) table rights =
      if below + 1 < 3 ∧ Aligned (table (index a (below + 1))) (12 + 9 * (below + 1)) then
        some (rights.restrict (table (index a (below + 1)))) else none := by
  simp only [walk, hp, hl, Bool.not_true, Bool.false_eq_true, if_false, if_true]

theorem walk_large_root (hp : isPresent (table (index a 3)) = true)
    (hl : isLarge (table (index a 3)) = true) : walk phys a 3 table rights = none := by
  rw [walk_large hp hl]
  exact if_neg fun h ↦ absurd h.1 (by decide)

theorem walk_child (hp : isPresent (table (index a (below + 1))) = true)
    (hl : isLarge (table (index a (below + 1))) = false) :
    walk phys a (below + 1) table rights =
      walk phys a below (phys (frame (table (index a (below + 1)))))
        (rights.restrict (table (index a (below + 1)))) := by
  simp only [walk, hp, hl, Bool.not_true, Bool.false_eq_true, if_false]

end Walk

open Walk

theorem canonical_of_user {a : U64} (h : a ≤ userAddressMax) : Canonical a := by
  have hlt : a.toNat < 2 ^ 47 := by
    have hle : a.toNat ≤ userAddressMax.toNat := h
    rw [toNat_userAddressMax] at hle
    omega
  have hhigh : ∀ k, 47 ≤ k → a.getLsbD k = false := fun k hk ↦
    Nat.testBit_lt_two_pow (hlt.trans_le (Nat.pow_le_pow_right (by decide) hk))
  intro k hk _
  rw [hhigh k hk, hhigh 47 (Nat.le_refl 47)]

def Tracks (P : Paging) (flags : U64) (rights : Rights) : Prop :=
  permissionsFromFlags P flags = ⟨true, rights.user, rights.writable⟩

section

variable {P : Paging} (hP : P.Documented)
include hP

variable (entry : U64)

theorem contains_present : P.contains (P.flags entry) P.present = isPresent entry := by
  rw [hP.present_eq]
  exact hP.contains_flags entry (by decide)

theorem contains_hugePage : P.contains (P.flags entry) P.hugePage = isLarge entry := by
  rw [hP.hugePage_eq]
  exact hP.contains_flags entry (by decide)

theorem contains_userAccessible :
    P.contains (P.flags entry) P.userAccessible = entry.getLsbD 2 := by
  rw [hP.userAccessible_eq]
  exact hP.contains_flags entry (by decide)

theorem contains_writable : P.contains (P.flags entry) P.writable = entry.getLsbD 1 := by
  rw [hP.writable_eq]
  exact hP.contains_flags entry (by decide)

theorem tracks_flags {entry : U64} (h : isPresent entry = true) :
    Tracks P (P.flags entry) (Rights.restrict ⟨true, true⟩ entry) := by
  rw [Tracks, permissionsFromFlags, contains_present hP, contains_userAccessible hP,
    contains_writable hP, h]
  rfl

theorem Tracks.intersect {left entry : U64} {rights : Rights} (hl : Tracks P left rights)
    (h : isPresent entry = true) :
    Tracks P (intersectFlags left (P.flags entry)) (rights.restrict entry) := by
  simp only [Tracks, permissionsFromFlags, UserPagePermissions.mk.injEq] at hl ⊢
  refine ⟨?_, ?_, ?_⟩
  · rw [hP.present_eq, hP.contains_intersectFlags _ _ (by decide), ← hP.present_eq, hl.1,
      contains_present hP, h]
    rfl
  · rw [hP.userAccessible_eq, hP.contains_intersectFlags _ _ (by decide), ← hP.userAccessible_eq,
      hl.2.1, contains_userAccessible hP, Rights.restrict]
  · rw [hP.writable_eq, hP.contains_intersectFlags _ _ (by decide), ← hP.writable_eq, hl.2.2,
      contains_writable hP, Rights.restrict]

theorem childTable_eq {mapper : P.OffsetPageTable} {virt phys : U64 → PageTable}
    (hmap : DirectMap P mapper virt phys) {below : ℕ} {table : PageTable} {i : BitVec 9}
    (ht : IsTable phys (P.level4Table mapper) (below + 1) table) (hp : isPresent (table i) = true)
    (hl : isLarge (table i) = false) :
    childTable P mapper virt (table i) = some (phys (frame (table i))) := by
  obtain ⟨a, ha, hcanon, hvirt⟩ := hmap below table i ht hp hl
  have haddr : Checked.add (P.physOffset mapper) (P.addr (table i)) = some a := by
    rw [hP.addr_eq]
    exact ha
  rw [childTable, contains_present hP, contains_hugePage hP, hp, hl, haddr, Option.bind_eq_bind,
    Option.bind_some, (hP.tryNew_eq_some a a).mpr ⟨hcanon, rfl⟩, Option.bind_some, hvirt]
  rfl

theorem childTable_large {mapper : P.OffsetPageTable} {virt : U64 → PageTable} {entry : U64}
    (hl : isLarge entry = true) : childTable P mapper virt entry = none := by
  rw [childTable, contains_hugePage hP, hl, Bool.or_true]
  rfl

end

section

variable (P : Paging) (mapper : P.OffsetPageTable) (virt : U64 → PageTable)

def leafLevel (table : PageTable) (i : BitVec 9) (passed : U64) : UserPagePermissions :=
  if !P.contains (P.flags (table i)) P.present then .unmapped
  else permissionsFromFlags P (intersectFlags passed (P.flags (table i)))

def middleLevel (table : PageTable) (i : BitVec 9) (bits : ℕ) (passed : U64)
    (below : PageTable → U64 → UserPagePermissions) : UserPagePermissions :=
  if !P.contains (P.flags (table i)) P.present then .unmapped
  else if P.contains (P.flags (table i)) P.hugePage then
    if P.addr (table i) &&& largeMask bits ≠ 0 then .unmapped
    else permissionsFromFlags P (intersectFlags passed (P.flags (table i)))
  else
    match childTable P mapper virt (table i) with
    | none => .unmapped
    | some child => below child (intersectFlags passed (P.flags (table i)))

def rootLevel (i : BitVec 9) (below : PageTable → U64 → UserPagePermissions) :
    UserPagePermissions :=
  if !P.contains (P.flags (P.level4Table mapper i)) P.present then .unmapped
  else
    match childTable P mapper virt (P.level4Table mapper i) with
    | none => .unmapped
    | some child => below child (P.flags (P.level4Table mapper i))

theorem effective_eq_levels (a : U64) :
    effectiveUserPagePermissions P mapper virt a =
      (P.newAddr a).map fun start ↦
        let page := P.containingAddress start
        rootLevel P mapper virt (P.p4Index page) fun p3 passed ↦
          middleLevel P mapper virt p3 (P.p3Index page) 30 passed fun p2 passed ↦
            middleLevel P mapper virt p2 (P.p2Index page) 21 passed fun p1 passed ↦
              leafLevel P p1 (P.p1Index page) passed :=
  rfl

end

section

variable {P : Paging} {mapper : P.OffsetPageTable} {virt phys : U64 → PageTable}

def Follows (P : Paging) (phys : U64 → PageTable) (root : PageTable) (a : U64) (below : ℕ)
    (level : PageTable → U64 → UserPagePermissions) : Prop :=
  ∀ table passed rights, IsTable phys root below table → Tracks P passed rights →
    level table passed = toPermissions (walk phys a below table rights)

variable (hP : P.Documented)
include hP

theorem leafLevel_follows (root : PageTable) (a : U64) :
    Follows P phys root a 0 fun table passed ↦ leafLevel P table (index a 0) passed := by
  intro table passed rights _ hpassed
  dsimp only [leafLevel]
  rw [contains_present hP]
  cases hp : isPresent (table (index a 0)) with
  | false =>
    rw [walk_absent hp]
    rfl
  | true =>
    rw [walk_leaf hp]
    exact hpassed.intersect hP hp

variable {level : PageTable → U64 → UserPagePermissions}

theorem middleLevel_follows (hmap : DirectMap P mapper virt phys) {a : U64} {below bits : ℕ}
    (hb : below = 0 ∨ below = 1) (hbits : bits = 12 + 9 * (below + 1))
    (hlevel : Follows P phys (P.level4Table mapper) a below level) :
    Follows P phys (P.level4Table mapper) a (below + 1) fun table passed ↦
      middleLevel P mapper virt table (index a (below + 1)) bits passed level := by
  intro table passed rights htable hpassed
  dsimp only [middleLevel]
  rw [contains_present hP, contains_hugePage hP]
  cases hp : isPresent (table (index a (below + 1))) with
  | false =>
    rw [walk_absent hp]
    rfl
  | true =>
    have hnext := hpassed.intersect hP hp
    simp only [Bool.not_true, Bool.false_eq_true, if_false]
    cases hl : isLarge (table (index a (below + 1))) with
    | true =>
      rw [walk_large hp hl, if_pos rfl, ← hbits]
      have hiff := hP.largeMask_eq_zero_iff (table (index a (below + 1)))
        (show bits = 30 ∨ bits = 21 by omega)
      by_cases h : Aligned (table (index a (below + 1))) bits
      · rw [if_neg (not_not.mpr (hiff.mpr h)), if_pos ⟨by omega, h⟩, hnext]
        rfl
      · rw [if_pos (mt hiff.mp h), if_neg (fun hc ↦ h hc.2)]
        rfl
    | false =>
      rw [childTable_eq hP hmap htable hp hl, walk_child hp hl, if_neg Bool.false_ne_true]
      exact hlevel _ _ _ (htable.child _ hp hl) hnext

theorem rootLevel_eq (hmap : DirectMap P mapper virt phys) {a : U64}
    (hlevel : Follows P phys (P.level4Table mapper) a 2 level) :
    rootLevel P mapper virt (index a 3) level = permissions phys (P.level4Table mapper) a := by
  have htable : IsTable phys (P.level4Table mapper) 3 (P.level4Table mapper) := .root
  rw [rootLevel, contains_present hP, permissions]
  cases hp : isPresent (P.level4Table mapper (index a 3)) with
  | false =>
    rw [walk_absent hp]
    rfl
  | true =>
    cases hl : isLarge (P.level4Table mapper (index a 3)) with
    | true =>
      rw [childTable_large hP hl, walk_large_root hp hl]
      rfl
    | false =>
      rw [childTable_eq hP hmap htable hp hl, walk_child hp hl]
      exact hlevel _ _ _ (htable.child _ hp hl) (tracks_flags hP hp)

/-- The kernel's walk gives the rights the processor gives. -/
theorem effective_permissions_eq (hmap : DirectMap P mapper virt phys) {a : U64}
    (ha : a ≤ userAddressMax) :
    effectiveUserPagePermissions P mapper virt a =
      some (permissions phys (P.level4Table mapper) a) := by
  have hnew := (hP.newAddr_eq_some a a).mpr ⟨canonical_of_user ha, rfl⟩
  rw [effective_eq_levels, hnew, Option.map_some, Option.some_inj]
  dsimp only
  rw [hP.p4Index_eq, hP.p3Index_eq, hP.p2Index_eq, hP.p1Index_eq]
  apply rootLevel_eq hP hmap
  apply middleLevel_follows hP hmap (.inr rfl) rfl
  apply middleLevel_follows hP hmap (.inl rfl) rfl
  apply leafLevel_follows hP

end

theorem effective_permissions_eq_large_page :
    let P := Paging.words
    let phys : U64 → PageTable := fun _ _ ↦ 0x40000087
    let mapper : P.OffsetPageTable := (fun _ ↦ 0x2007, 0xFFFF800000000000)
    P.Documented ∧ DirectMap P mapper phys phys ∧
      effectiveUserPagePermissions P mapper phys 0x400000 =
        some (permissions phys (P.level4Table mapper) 0x400000) ∧
      permissions phys (P.level4Table mapper) 0x400000 = ⟨true, true, true⟩ := by
  intro P phys mapper
  have hmap : DirectMap P mapper phys phys := by
    intro below table i ht hp hl
    cases ht with
    | root =>
      have hadd : Checked.add (0xFFFF800000000000 : U64) (frame 0x2007) =
          some 0xFFFF800000002000 := by decide
      exact ⟨_, hadd, by unfold Canonical; decide, rfl⟩
    | child j _ _ _ => exact absurd hl (by decide)
  exact ⟨Paging.words_documented, hmap,
    effective_permissions_eq Paging.words_documented hmap (by decide), by decide⟩

end BraneKernel
