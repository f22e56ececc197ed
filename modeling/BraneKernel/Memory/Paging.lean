import BraneKernel.Syscall.UserPages

namespace BraneKernel

/-! ### What the paging crate provides -/

abbrev PageTable := BitVec 9 → U64

/-- The types and operations of the `x86_64` crate that the kernel's walk is written with. Entries,
flags and addresses are their 64 bits. The `none` of `newAddr` is a panic. -/
structure Paging where
  present : U64
  writable : U64
  userAccessible : U64
  hugePage : U64
  contains : U64 → U64 → Bool
  flags : U64 → U64
  addr : U64 → U64
  newAddr : U64 → Option U64
  tryNew : U64 → Option U64
  containingAddress : U64 → U64
  p4Index : U64 → BitVec 9
  p3Index : U64 → BitVec 9
  p2Index : U64 → BitVec 9
  p1Index : U64 → BitVec 9
  OffsetPageTable : Type
  level4Table : OffsetPageTable → PageTable
  physOffset : OffsetPageTable → U64

def entryAddrMask : U64 := 0x000ffffffffff000

def Canonical (a : U64) : Prop := ∀ k, 47 ≤ k → k < 64 → a.getLsbD k = a.getLsbD 47

/-- The documented behaviour of the crate. -/
structure Paging.Documented (P : Paging) : Prop where
  present_eq : P.present = 1#64 <<< 0
  writable_eq : P.writable = 1#64 <<< 1
  userAccessible_eq : P.userAccessible = 1#64 <<< 2
  hugePage_eq : P.hugePage = 1#64 <<< 7
  contains_iff : ∀ flags flag, P.contains flags flag = true ↔ flags &&& flag = flag
  flags_bit : ∀ entry k, k < 12 → (P.flags entry).getLsbD k = entry.getLsbD k
  addr_eq : ∀ entry, P.addr entry = entry &&& entryAddrMask
  newAddr_eq_some : ∀ a b, P.newAddr a = some b ↔ Canonical a ∧ a = b
  tryNew_eq_some : ∀ a b, P.tryNew a = some b ↔ Canonical a ∧ a = b
  p4Index_eq : ∀ a, P.p4Index (P.containingAddress a) = a.extractLsb' 39 9
  p3Index_eq : ∀ a, P.p3Index (P.containingAddress a) = a.extractLsb' 30 9
  p2Index_eq : ∀ a, P.p2Index (P.containingAddress a) = a.extractLsb' 21 9
  p1Index_eq : ∀ a, P.p1Index (P.containingAddress a) = a.extractLsb' 12 9

/-! ### The walk -/

section

variable (P : Paging)

def permissionsFromFlags (flags : U64) : UserPagePermissions :=
  ⟨P.contains flags P.present, P.contains flags P.userAccessible, P.contains flags P.writable⟩

def intersectFlags (left right : U64) : U64 := left &&& right

def childTable (mapper : P.OffsetPageTable) (virt : U64 → PageTable) (entry : U64) :
    Option PageTable :=
  if !P.contains (P.flags entry) P.present || P.contains (P.flags entry) P.hugePage then none
  else do
    let tableAddress ← Checked.add (P.physOffset mapper) (P.addr entry)
    let tableVirtual ← P.tryNew tableAddress
    some (virt tableVirtual)

def largeMask (bits : ℕ) : U64 := (1#64 <<< bits - 1) &&& ~~~(1#64 <<< 12)

/-- Permissions on a page. The outer `none` is the panic on a non-canonical address. -/
def effectiveUserPagePermissions (mapper : P.OffsetPageTable) (virt : U64 → PageTable)
    (pageStart : U64) : Option UserPagePermissions :=
  (P.newAddr pageStart).map fun start ↦
    let page := P.containingAddress start
    let p4Entry := P.level4Table mapper (P.p4Index page)
    let p4Flags := P.flags p4Entry
    if !P.contains p4Flags P.present then .unmapped
    else
      match childTable P mapper virt p4Entry with
      | none => .unmapped
      | some p3 =>
        let p3Entry := p3 (P.p3Index page)
        let p3Flags := P.flags p3Entry
        if !P.contains p3Flags P.present then .unmapped
        else if P.contains p3Flags P.hugePage then
          if P.addr p3Entry &&& largeMask 30 ≠ 0 then .unmapped
          else permissionsFromFlags P (intersectFlags p4Flags p3Flags)
        else
          match childTable P mapper virt p3Entry with
          | none => .unmapped
          | some p2 =>
            let p2Entry := p2 (P.p2Index page)
            let p2Flags := P.flags p2Entry
            if !P.contains p2Flags P.present then .unmapped
            else if P.contains p2Flags P.hugePage then
              if P.addr p2Entry &&& largeMask 21 ≠ 0 then .unmapped
              else permissionsFromFlags P (intersectFlags (intersectFlags p4Flags p3Flags) p2Flags)
            else
              match childTable P mapper virt p2Entry with
              | none => .unmapped
              | some p1 =>
                let p1Flags := P.flags (p1 (P.p1Index page))
                if !P.contains p1Flags P.present then .unmapped
                else
                  permissionsFromFlags P
                    (intersectFlags (intersectFlags (intersectFlags p4Flags p3Flags) p2Flags) p1Flags)

def validateUserRange (mapper : P.OffsetPageTable) (virt : U64 → PageTable) (range : UserRange) :
    Option (Except UserPageValidationError Unit) :=
  (range.validatePages (fun _ page ↦
    (effectiveUserPagePermissions P mapper virt page).map ((), ·)) ()).map Prod.snd

end

/-! ### Bits of an entry -/

namespace Paging.Documented

variable {P : Paging} (hP : P.Documented)
include hP

theorem contains_bit (flags : U64) {k : ℕ} (hk : k < 64) :
    P.contains flags (1#64 <<< k) = flags.getLsbD k := by
  rw [Bool.eq_iff_iff, hP.contains_iff, ← BitVec.twoPow_eq, BitVec.and_twoPow]
  cases h : flags.getLsbD k with
  | true => simp
  | false =>
    have hne : 0#64 ≠ BitVec.twoPow 64 k := by
      intro he
      have hbit := congrArg (fun v ↦ BitVec.getLsbD v k) he
      simp [hk] at hbit
    simpa using hne

theorem contains_intersectFlags (left right : U64) {k : ℕ} (hk : k < 64) :
    P.contains (intersectFlags left right) (1#64 <<< k) =
      (P.contains left (1#64 <<< k) && P.contains right (1#64 <<< k)) := by
  rw [hP.contains_bit _ hk, hP.contains_bit _ hk, hP.contains_bit _ hk, intersectFlags,
    BitVec.getLsbD_and]

theorem contains_flags (entry : U64) {k : ℕ} (hk : k < 12) :
    P.contains (P.flags entry) (1#64 <<< k) = entry.getLsbD k := by
  rw [hP.contains_bit _ (by omega), hP.flags_bit entry k hk]

theorem largeMask_eq_zero_iff (entry : U64) {bits : ℕ} (hbits : bits = 30 ∨ bits = 21) :
    P.addr entry &&& largeMask bits = 0 ↔ ∀ k, 13 ≤ k → k < bits → entry.getLsbD k = false := by
  have hmask : ∀ k : Fin 64, (entryAddrMask &&& largeMask bits).getLsbD k =
      decide (13 ≤ k.val ∧ k.val < bits) := by
    rcases hbits with rfl | rfl <;> decide
  rw [hP.addr_eq, BitVec.and_assoc]
  constructor
  · intro h k hk hk'
    have hbit := congrArg (fun v ↦ BitVec.getLsbD v k) h
    have hk64 : k < 64 := by omega
    simp only [BitVec.getLsbD_and (x := entry), hmask ⟨k, hk64⟩, hk, hk', and_self, decide_true,
      Bool.and_true] at hbit
    simpa using hbit
  · intro h
    apply BitVec.eq_of_getLsbD_eq
    intro k hk
    rw [BitVec.getLsbD_and, hmask ⟨k, hk⟩]
    by_cases hin : 13 ≤ k ∧ k < bits
    · simp [h k hin.1 hin.2]
    · simp [hin]

end Paging.Documented

/-! ### An instance -/

namespace Paging

def truncate (a : U64) : U64 := (a <<< 16).sshiftRight 16

def ofCanonical (a : U64) : Option U64 := if truncate a = a then some a else none

/-- The crate's operations as arithmetic on the words. -/
def words : Paging where
  present := 1#64 <<< 0
  writable := 1#64 <<< 1
  userAccessible := 1#64 <<< 2
  hugePage := 1#64 <<< 7
  contains flags flag := flags &&& flag == flag
  flags entry := entry &&& ~~~entryAddrMask
  addr entry := entry &&& entryAddrMask
  newAddr := ofCanonical
  tryNew := ofCanonical
  containingAddress a := a &&& ~~~0xfff
  p4Index a := (a >>> 39).setWidth 9
  p3Index a := (a >>> 30).setWidth 9
  p2Index a := (a >>> 21).setWidth 9
  p1Index a := (a >>> 12).setWidth 9
  OffsetPageTable := PageTable × U64
  level4Table := Prod.fst
  physOffset := Prod.snd

theorem truncate_eq_iff (a : U64) : truncate a = a ↔ Canonical a := by
  have hbit (k : ℕ) (hk : k < 64) : (truncate a).getLsbD k = a.getLsbD (min k 47) := by
    rw [truncate, BitVec.getLsbD_sshiftRight]
    by_cases hlow : 16 + k < 64
    · simp [hlow, hk, Nat.not_le_of_lt hk, show min k 47 = k by omega]
    · simp [hlow, Nat.not_le_of_lt hk, BitVec.msb_eq_getLsbD_last, show min k 47 = 47 by omega]
  constructor
  · intro h k hk hlt
    rw [← h, hbit k hlt, hbit 47 (by decide), Nat.min_eq_right hk, Nat.min_self]
  · refine fun h ↦ BitVec.eq_of_getLsbD_eq fun k hk ↦ ?_
    rw [hbit k hk]
    rcases Nat.le_total k 47 with hle | hle
    · rw [Nat.min_eq_left hle]
    · rw [Nat.min_eq_right hle, h k hle hk]

theorem index_words (a : U64) (n : ℕ) (hn : 12 ≤ n) (hlt : n ≤ 55) :
    ((a &&& ~~~0xfff) >>> n).setWidth 9 = a.extractLsb' n 9 := by
  apply BitVec.eq_of_getLsbD_eq
  intro k hk
  have hmask : ∀ j : Fin 64, (~~~(0xfff : U64)).getLsbD j = decide (12 ≤ j.val) := by decide
  simp only [BitVec.getLsbD_setWidth, BitVec.getLsbD_ushiftRight, BitVec.getLsbD_and,
    BitVec.getLsbD_extractLsb', hk, decide_true, Bool.true_and]
  rw [hmask ⟨n + k, by omega⟩]
  simp
  omega

theorem ofCanonical_eq_some (a b : U64) : ofCanonical a = some b ↔ Canonical a ∧ a = b := by
  rw [ofCanonical, Option.ite_none_right_eq_some, truncate_eq_iff, Option.some_inj]

theorem words_documented : words.Documented where
  present_eq := rfl
  writable_eq := rfl
  userAccessible_eq := rfl
  hugePage_eq := rfl
  contains_iff _ _ := beq_iff_eq
  flags_bit entry k hk := by
    have hmask : ∀ j : Fin 12, (~~~entryAddrMask).getLsbD j = true := by decide
    show (entry &&& ~~~entryAddrMask).getLsbD k = _
    rw [BitVec.getLsbD_and, hmask ⟨k, hk⟩, Bool.and_true]
  addr_eq _ := rfl
  newAddr_eq_some a b := by
    dsimp only [words]
    exact ofCanonical_eq_some a b
  tryNew_eq_some a b := by
    dsimp only [words]
    exact ofCanonical_eq_some a b
  p4Index_eq a := index_words a 39 (by decide) (by decide)
  p3Index_eq a := index_words a 30 (by decide) (by decide)
  p2Index_eq a := index_words a 21 (by decide) (by decide)
  p1Index_eq a := index_words a 12 (by decide) (by decide)

end Paging

end BraneKernel
