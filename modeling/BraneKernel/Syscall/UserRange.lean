import BraneKernel.Lib.Checked
import BraneKernel.Syscall.Spec

namespace BraneKernel

inductive UserAccess
  | read | write
  deriving DecidableEq

inductive UserRangeError
  | nullAddress | lengthExceedsMaximum | nonCanonicalStart | nonCanonicalEnd | addressOverflow
  | outsideUserSpace | invalidUserLimit
  deriving DecidableEq

structure UserPagePermissions where
  present : Bool
  userAccessible : Bool
  writable : Bool
  deriving DecidableEq

def UserPagePermissions.unmapped : UserPagePermissions := ⟨false, false, false⟩

inductive UserPageValidationError
  | unmapped (page : U64)
  | notUserAccessible (page : U64)
  | notWritable (page : U64)
  deriving DecidableEq

def userPageSize : U64 := 4096

def isCanonicalUserAddress (address : U64) : Prop := address ≤ userAddressMax

instance (address : U64) : Decidable (isCanonicalUserAddress address) :=
  inferInstanceAs (Decidable (_ ≤ _))

/-- The checks of `new_with_user_limit` on the end of the range. Here and below the outer `none`
is an arithmetic panic. -/
def checkUserEnd (start len userLimit stop : U64) : Option (Except UserRangeError Unit) :=
  if len ≠ 0 then do
    let last ← Checked.sub stop 1
    if ¬ isCanonicalUserAddress last then some (.error .nonCanonicalEnd)
    else
      match Checked.add userLimit 1 with
      | none => some (.error .invalidUserLimit)
      | some userEnd =>
        if stop > userEnd then some (.error .outsideUserSpace) else some (.ok ())
  else if start > userLimit then some (.error .outsideUserSpace)
  else some (.ok ())

def checkUserRange (start len maxCopyBytes userLimit : U64) : Option (Except UserRangeError Unit) :=
  if userLimit > userAddressMax then some (.error .invalidUserLimit)
  else if start = 0 ∧ len ≠ 0 then some (.error .nullAddress)
  else if len > maxCopyBytes then some (.error .lengthExceedsMaximum)
  else if ¬ isCanonicalUserAddress start then some (.error .nonCanonicalStart)
  else
    match Checked.add start len with
    | none => some (.error .addressOverflow)
    | some stop => checkUserEnd start len userLimit stop

/-- What a range has to meet: every byte of it, and its start even when it is empty, is at or
below the limit. -/
structure Permitted (start len maxCopyBytes userLimit : U64) : Prop where
  limit_le : userLimit ≤ userAddressMax
  len_le : len ≤ maxCopyBytes
  not_null : len ≠ 0 → start ≠ 0
  start_le : start ≤ userLimit
  bytes_le : ∀ k < len.toNat, start.toNat + k ≤ userLimit.toNat

theorem toNat_userAddressMax : userAddressMax.toNat = 2 ^ 47 - 1 := by decide

variable {start len maxCopyBytes userLimit : U64}

theorem permitted_iff :
    Permitted start len maxCopyBytes userLimit ↔
      userLimit ≤ userAddressMax ∧ len ≤ maxCopyBytes ∧ (len ≠ 0 → start ≠ 0) ∧
        start.toNat ≤ userLimit.toNat ∧ start.toNat + len.toNat ≤ userLimit.toNat + 1 := by
  constructor
  · intro h
    have hstart : start.toNat ≤ userLimit.toNat := h.start_le
    refine ⟨h.limit_le, h.len_le, h.not_null, hstart, ?_⟩
    rcases Nat.eq_zero_or_pos len.toNat with hz | hpos
    · omega
    · have hlast := h.bytes_le (len.toNat - 1) (by omega)
      omega
  · intro h
    obtain ⟨hlimit, hlen, hnull, hstart, hstop⟩ := h
    exact ⟨hlimit, hlen, hnull, hstart, fun k hk ↦ by omega⟩

/-- The checks come to an answer, and accept exactly when `P` holds. -/
def Decides (answer : Option (Except UserRangeError Unit)) (P : Prop) : Prop :=
  ∃ res, answer = some res ∧ (res = .ok () ↔ P)

theorem decides_error {e : UserRangeError} {P : Prop} (h : ¬ P) : Decides (some (.error e)) P :=
  ⟨_, rfl, by simp [h]⟩

theorem decides_ok {P : Prop} (h : P) : Decides (some (.ok ())) P := ⟨_, rfl, by simp [h]⟩

theorem checkUserEnd_decides {stop : U64} (hstop : stop.toNat = start.toNat + len.toNat)
    (hlimit : userLimit.toNat ≤ userAddressMax.toNat) :
    Decides (checkUserEnd start len userLimit stop)
      (start.toNat ≤ userLimit.toNat ∧ start.toNat + len.toNat ≤ userLimit.toNat + 1) := by
  have hmax := toNat_userAddressMax
  have hone : (1 : U64).toNat = 1 := rfl
  unfold checkUserEnd
  by_cases hz : len ≠ 0
  · have hpos : 0 < len.toNat := Nat.pos_of_ne_zero fun h ↦ hz (BitVec.eq_of_toNat_eq h)
    obtain ⟨last, hlast, hlast'⟩ := Checked.sub_of_le (a := stop) (b := 1) (by omega)
    obtain ⟨userEnd, hend, hend'⟩ := Checked.add_of_lt (a := userLimit) (b := 1) (by omega)
    rw [if_pos hz, hlast, Option.bind_eq_bind, Option.bind_some, hend]
    dsimp only
    split_ifs with hcanon hout
    · have hout : userEnd.toNat < stop.toNat := hout
      exact decides_error (by omega)
    · have hin : stop.toNat ≤ userEnd.toNat := BitVec.not_lt.mp hout
      exact decides_ok (by omega)
    · have hout : userAddressMax.toNat < last.toNat := BitVec.not_le.mp hcanon
      exact decides_error (by omega)
  · have hlen : len.toNat = 0 := congrArg BitVec.toNat (not_not.mp hz)
    rw [if_neg hz]
    split_ifs with hout
    · have hout : userLimit.toNat < start.toNat := hout
      exact decides_error (by omega)
    · have hin : start.toNat ≤ userLimit.toNat := BitVec.not_lt.mp hout
      exact decides_ok (by omega)

theorem checkUserRange_decides (start len maxCopyBytes userLimit : U64) :
    Decides (checkUserRange start len maxCopyBytes userLimit)
      (Permitted start len maxCopyBytes userLimit) := by
  have hmax := toNat_userAddressMax
  rw [permitted_iff]
  unfold checkUserRange
  split_ifs with hlimit hnull hlen hcanon
  · exact decides_error fun h ↦ absurd h.1 (BitVec.not_le.mpr hlimit)
  · exact decides_error fun h ↦ h.2.2.1 hnull.2 hnull.1
  · exact decides_error fun h ↦ absurd h.2.1 (BitVec.not_le.mpr hlen)
  · have hlimit : userLimit ≤ userAddressMax := BitVec.not_lt.mp hlimit
    have hlimit' : userLimit.toNat ≤ userAddressMax.toNat := hlimit
    have hlen : len ≤ maxCopyBytes := BitVec.not_lt.mp hlen
    have hnull : len ≠ 0 → start ≠ 0 := fun hz hs ↦ hnull ⟨hs, hz⟩
    rw [and_iff_right hlimit, and_iff_right hlen, and_iff_right hnull]
    cases hstop : Checked.add start len with
    | none =>
      refine decides_error fun h ↦ ?_
      obtain ⟨stop, hs, -⟩ := Checked.add_of_lt (a := start) (b := len) (by omega)
      cases hs.symm.trans hstop
    | some stop => exact checkUserEnd_decides (Checked.add_eq_some_iff.mp hstop) hlimit'
  · refine decides_error fun h ↦ hcanon ?_
    have hle : start ≤ userLimit := h.2.2.2.1
    exact BitVec.le_trans hle h.1

structure UserRange where
  start : U64
  len : U64
  access : UserAccess
  inUserSpace : start.toNat + len.toNat ≤ userAddressMax.toNat + 1
  deriving DecidableEq

theorem inUserSpace_of_check (h : checkUserRange start len maxCopyBytes userLimit = some (.ok ())) :
    start.toNat + len.toNat ≤ userAddressMax.toNat + 1 := by
  obtain ⟨res, hres, hok⟩ := checkUserRange_decides start len maxCopyBytes userLimit
  rw [h, Option.some_inj] at hres
  obtain ⟨hlimit, -, -, -, hstop⟩ := permitted_iff.mp (hok.mp hres.symm)
  have hlimit : userLimit.toNat ≤ userAddressMax.toNat := hlimit
  omega

namespace UserRange

def newWithUserLimit (start len : U64) (access : UserAccess) (maxCopyBytes userLimit : U64) :
    Option (Except UserRangeError UserRange) :=
  match h : checkUserRange start len maxCopyBytes userLimit with
  | none => none
  | some (.error e) => some (.error e)
  | some (.ok ()) => some (.ok ⟨start, len, access, inUserSpace_of_check h⟩)

def new (start len : U64) (access : UserAccess) (maxCopyBytes : U64) :
    Option (Except UserRangeError UserRange) :=
  newWithUserLimit start len access maxCopyBytes userAddressMax

theorem newWithUserLimit_ok_iff (start len : U64) (access : UserAccess)
    (maxCopyBytes userLimit : U64) :
    ∃ res, newWithUserLimit start len access maxCopyBytes userLimit = some res ∧
      ((∃ r, res = .ok r) ↔ Permitted start len maxCopyBytes userLimit) ∧
      ∀ r, res = .ok r → r.start = start ∧ r.len = len ∧ r.access = access := by
  obtain ⟨answer, hanswer, hok⟩ := checkUserRange_decides start len maxCopyBytes userLimit
  unfold newWithUserLimit
  split
  next h => rw [h] at hanswer; cases hanswer
  next e h =>
    rw [h, Option.some_inj] at hanswer
    subst hanswer
    refine ⟨_, rfl, ?_, by simp⟩
    rw [← hok]
    simp
  next h =>
    rw [h, Option.some_inj] at hanswer
    subst hanswer
    refine ⟨_, rfl, ?_, ?_⟩
    · rw [← hok]
      simp
    · intro r hr
      cases hr
      exact ⟨rfl, rfl, rfl⟩

end UserRange

end BraneKernel
