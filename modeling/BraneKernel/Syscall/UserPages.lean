import BraneKernel.Syscall.UserRange

namespace BraneKernel

namespace UserRange

variable {σ : Type}

def pageCount (r : UserRange) : Option U64 :=
  if r.len = 0 then some 0
  else do
    let stop ← Checked.add r.start r.len
    let last ← Checked.sub stop 1
    let span ← Checked.sub (last / userPageSize) (r.start / userPageSize)
    Checked.add span 1

def validateLoop (access : UserAccess) (firstPage : U64)
    (resolve : σ → U64 → Option (σ × UserPagePermissions)) :
    ℕ → U64 → σ → Option (σ × Except UserPageValidationError Unit)
  | 0, _, s => some (s, .ok ())
  | n + 1, pageIndex, s => do
    let offset ← Checked.mul pageIndex userPageSize
    let page ← Checked.add firstPage offset
    let (s, permissions) ← resolve s page
    if !permissions.present then some (s, .error (.unmapped page))
    else if !permissions.userAccessible then some (s, .error (.notUserAccessible page))
    else if access = .write ∧ !permissions.writable then some (s, .error (.notWritable page))
    else validateLoop access firstPage resolve n (pageIndex + 1) s

def validatePages (r : UserRange) (resolve : σ → U64 → Option (σ × UserPagePermissions)) (s : σ) :
    Option (σ × Except UserPageValidationError Unit) :=
  if r.len = 0 then some (s, .ok ())
  else do
    let firstPage ← Checked.mul (r.start / userPageSize) userPageSize
    let count ← r.pageCount
    validateLoop r.access firstPage resolve count.toNat 0 s

end UserRange

/-! ### The pages of a range -/

def pageFault (access : UserAccess) (permissions : UserPagePermissions) (page : U64) :
    Option UserPageValidationError :=
  if !permissions.present then some (.unmapped page)
  else if !permissions.userAccessible then some (.notUserAccessible page)
  else if access = .write ∧ !permissions.writable then some (.notWritable page)
  else none

def Usable (access : UserAccess) (permissions : UserPagePermissions) : Prop :=
  permissions.present = true ∧ permissions.userAccessible = true ∧
    (access = .write → permissions.writable = true)

def scan (fault : U64 → Option UserPageValidationError) :
    List U64 → List U64 × Except UserPageValidationError Unit
  | [] => ([], .ok ())
  | page :: pages =>
    match fault page with
    | some e => ([page], .error e)
    | none => (page :: (scan fault pages).1, (scan fault pages).2)

theorem scan_ok {fault : U64 → Option UserPageValidationError} {pages : List U64}
    (h : ∀ page ∈ pages, fault page = none) : scan fault pages = (pages, .ok ()) := by
  induction pages with
  | nil => rfl
  | cons page pages ih =>
    rw [scan, h page List.mem_cons_self, ih fun q hq ↦ h q (List.mem_cons_of_mem _ hq)]

theorem scan_ok_iff {fault : U64 → Option UserPageValidationError} {pages : List U64} :
    (scan fault pages).2 = .ok () ↔ ∀ page ∈ pages, fault page = none := by
  induction pages with
  | nil => simp [scan]
  | cons page pages ih =>
    rw [scan, List.forall_mem_cons]
    cases hf : fault page with
    | none => simp [ih]
    | some e => simp

theorem scan_error {fault : U64 → Option UserPageValidationError} {pre post : List U64} {page : U64}
    {e : UserPageValidationError} (hpre : ∀ q ∈ pre, fault q = none) (hpage : fault page = some e) :
    scan fault (pre ++ page :: post) = (pre ++ [page], .error e) := by
  induction pre with
  | nil => rw [List.nil_append, scan, hpage, List.nil_append]
  | cons q pre ih =>
    rw [List.cons_append, scan, hpre q List.mem_cons_self,
      ih fun q hq ↦ hpre q (List.mem_cons_of_mem _ hq)]
    rfl

namespace UserRange

def noting (perms : U64 → UserPagePermissions) (log : List U64) (page : U64) :
    Option (List U64 × UserPagePermissions) :=
  some (log ++ [page], perms page)

def fault (r : UserRange) (perms : U64 → UserPagePermissions) (page : U64) :
    Option UserPageValidationError :=
  pageFault r.access (perms page) page

def pageAt (r : UserRange) (i : ℕ) : U64 := BitVec.ofNat 64 ((r.start.toNat / 4096 + i) * 4096)

def span (r : UserRange) : ℕ :=
  if r.len = 0 then 0
  else (r.start.toNat + r.len.toNat - 1) / 4096 - r.start.toNat / 4096 + 1

def pages (r : UserRange) : List U64 := (List.range r.span).map r.pageAt

variable {r : UserRange} {perms : U64 → UserPagePermissions}

theorem len_pos (h : r.len ≠ 0) : 0 < r.len.toNat :=
  Nat.pos_of_ne_zero fun hz ↦ h (BitVec.eq_of_toNat_eq hz)

theorem toNat_userPageSize : userPageSize.toNat = 4096 := rfl

theorem page_le {i : ℕ} (hi : i < r.span) :
    (r.start.toNat / 4096 + i) * 4096 ≤ r.start.toNat + r.len.toNat - 1 ∧
      r.start.toNat + r.len.toNat ≤ 2 ^ 47 := by
  have hin := r.inUserSpace
  rw [toNat_userAddressMax] at hin
  unfold span at hi
  split_ifs at hi with hz
  · omega
  · have hpos := len_pos hz
    omega

theorem toNat_pageAt {i : ℕ} (hi : i < r.span) :
    (r.pageAt i).toNat = (r.start.toNat / 4096 + i) * 4096 := by
  have hle := page_le hi
  rw [pageAt, BitVec.toNat_ofNat, Nat.mod_eq_of_lt (by omega)]

theorem mem_pages_iff (r : UserRange) (page : U64) :
    page ∈ r.pages ↔
      ∃ k < r.len.toNat, page.toNat = (r.start.toNat + k) / 4096 * 4096 := by
  rw [pages, List.mem_map]
  constructor
  · intro h
    obtain ⟨i, hi, rfl⟩ := h
    rw [List.mem_range] at hi
    have hle := page_le hi
    have hpos : 0 < r.len.toNat := by
      refine len_pos fun hz ↦ ?_
      rw [span, if_pos hz] at hi
      exact Nat.not_lt_zero _ hi
    refine ⟨(r.start.toNat / 4096 + i) * 4096 - r.start.toNat, by omega, ?_⟩
    rw [toNat_pageAt hi]
    omega
  · intro h
    obtain ⟨k, hk, hpage⟩ := h
    have hz : r.len ≠ 0 := fun hz ↦ by
      rw [hz] at hk
      exact Nat.not_lt_zero _ hk
    have hi : (r.start.toNat + k) / 4096 - r.start.toNat / 4096 < r.span := by
      rw [span, if_neg hz]
      omega
    refine ⟨_, List.mem_range.mpr hi, BitVec.eq_of_toNat_eq ?_⟩
    rw [toNat_pageAt hi, hpage]
    omega

theorem pages_ascending (r : UserRange) : r.pages.Pairwise (· < ·) := by
  rw [pages, List.pairwise_map]
  refine List.Pairwise.imp_of_mem ?_ List.pairwise_lt_range
  intro i j hi hj hij
  rw [List.mem_range] at hi hj
  rw [BitVec.lt_def, toNat_pageAt hi, toNat_pageAt hj]
  omega

theorem pageCount_eq (r : UserRange) :
    ∃ count, r.pageCount = some count ∧ count.toNat = r.span := by
  have hin := r.inUserSpace
  rw [toNat_userAddressMax] at hin
  have hone : (1 : U64).toNat = 1 := rfl
  unfold pageCount span
  split_ifs with hz
  · exact ⟨0, rfl, rfl⟩
  · have hpos := len_pos hz
    obtain ⟨stop, hstop, hstop'⟩ := Checked.add_of_lt (a := r.start) (b := r.len) (by omega)
    obtain ⟨last, hlast, hlast'⟩ := Checked.sub_of_le (a := stop) (b := 1) (by omega)
    have hq : (last / userPageSize).toNat = (r.start.toNat + r.len.toNat - 1) / 4096 := by
      rw [BitVec.toNat_udiv, toNat_userPageSize]
      omega
    have hp : (r.start / userPageSize).toNat = r.start.toNat / 4096 := BitVec.toNat_udiv
    obtain ⟨d, hd, hd'⟩ := Checked.sub_of_le (a := last / userPageSize)
      (b := r.start / userPageSize) (by omega)
    obtain ⟨count, hcount, hcount'⟩ := Checked.add_of_lt (a := d) (b := 1) (by omega)
    refine ⟨count, ?_, by omega⟩
    rw [hstop, Option.bind_eq_bind, Option.bind_some, hlast, Option.bind_some, hd,
      Option.bind_some, hcount]

theorem validateLoop_eq {firstPage : U64} (hfirst : firstPage.toNat = r.start.toNat / 4096 * 4096)
    (n : ℕ) (pageIndex : U64) (hn : pageIndex.toNat + n ≤ r.span) (log : List U64) :
    validateLoop r.access firstPage (noting perms) n pageIndex log =
      let found := scan (r.fault perms) ((List.range' pageIndex.toNat n).map r.pageAt)
      some (log ++ found.1, found.2) := by
  induction n generalizing pageIndex log with
  | zero => simp [validateLoop, scan]
  | succ n ih =>
    have hi : pageIndex.toNat < r.span := by omega
    have hle := page_le hi
    have hsucc : (pageIndex + 1).toNat = pageIndex.toNat + 1 := by
      rw [BitVec.toNat_add, show (1 : U64).toNat = 1 from rfl, Nat.mod_eq_of_lt (by omega)]
    obtain ⟨offset, hoffset, hoffset'⟩ := Checked.mul_of_lt (a := pageIndex) (b := userPageSize)
      (by rw [toNat_userPageSize]; omega)
    rw [toNat_userPageSize] at hoffset'
    have hpage : Checked.add firstPage offset = some (r.pageAt pageIndex.toNat) := by
      rw [Checked.add_eq_some_iff, toNat_pageAt hi]
      omega
    have hfault : r.fault perms (r.pageAt pageIndex.toNat) = pageFault r.access _ _ := rfl
    rw [validateLoop, hoffset, Option.bind_eq_bind, Option.bind_some, hpage, Option.bind_some, noting,
      Option.bind_eq_bind, Option.bind_some, List.range'_succ, List.map_cons, scan, hfault, pageFault]
    dsimp only
    split_ifs
    · rfl
    · rfl
    · rfl
    · dsimp only
      rw [ih (pageIndex + 1) (by omega), hsucc]
      dsimp only
      rw [List.append_assoc, List.singleton_append]

theorem validatePages_eq (r : UserRange) (perms : U64 → UserPagePermissions) :
    r.validatePages (noting perms) [] = some (scan (r.fault perms) r.pages) := by
  have hin := r.inUserSpace
  rw [toNat_userAddressMax] at hin
  unfold validatePages
  split_ifs with hz
  · rw [pages, span, if_pos hz]
    rfl
  · have hdiv : (r.start / userPageSize).toNat = r.start.toNat / 4096 := BitVec.toNat_udiv
    obtain ⟨firstPage, hfirst, hfirst'⟩ := Checked.mul_of_lt (a := r.start / userPageSize)
      (b := userPageSize) (by rw [hdiv, toNat_userPageSize]; omega)
    rw [hdiv, toNat_userPageSize] at hfirst'
    obtain ⟨count, hcount, hcount'⟩ := r.pageCount_eq
    rw [hfirst, Option.bind_eq_bind, Option.bind_some, hcount, Option.bind_some, hcount',
      validateLoop_eq hfirst' r.span 0 (Nat.zero_add r.span).le]
    rw [pages, List.range_eq_range']
    rfl

theorem fault_eq_none_iff (page : U64) :
    r.fault perms page = none ↔ Usable r.access (perms page) := by
  unfold fault pageFault Usable
  split_ifs with hp hu hw <;> simp_all

theorem validatePages_ok_iff (r : UserRange) (perms : U64 → UserPagePermissions) :
    (∃ log, r.validatePages (noting perms) [] = some (log, .ok ())) ↔
      ∀ page ∈ r.pages, Usable r.access (perms page) := by
  simp only [validatePages_eq, Option.some_inj, ← fault_eq_none_iff, ← scan_ok_iff]
  constructor
  · intro h
    obtain ⟨log, hlog⟩ := h
    rw [hlog]
  · intro h
    exact ⟨(scan (r.fault perms) r.pages).1, Prod.ext rfl h⟩

/-- Construction never overflows and accepts exactly the permitted ranges. The pages of an accepted
range are those of its bytes, looked up once each in ascending order up to the first one that cannot
be used. -/
theorem user_range_exact :
    (∀ start len access maxCopyBytes userLimit, ∃ res,
      newWithUserLimit start len access maxCopyBytes userLimit = some res ∧
        ((∃ r, res = .ok r) ↔ Permitted start len maxCopyBytes userLimit) ∧
        ∀ r, res = .ok r → r.start = start ∧ r.len = len ∧ r.access = access) ∧
      ∀ (r : UserRange) (perms : U64 → UserPagePermissions), ∃ pages : List U64,
        pages.Pairwise (· < ·) ∧
        (∀ page, page ∈ pages ↔
          ∃ k < r.len.toNat, page.toNat = (r.start.toNat + k) / 4096 * 4096) ∧
        ((∃ log, r.validatePages (noting perms) [] = some (log, .ok ())) ↔
          ∀ page ∈ pages, Usable r.access (perms page)) ∧
        (∀ log, r.validatePages (noting perms) [] = some (log, .ok ()) → log = pages) ∧
        ∀ pre page post, pages = pre ++ page :: post →
          (∀ q ∈ pre, Usable r.access (perms q)) → ¬ Usable r.access (perms page) →
          ∃ e, pageFault r.access (perms page) page = some e ∧
            r.validatePages (noting perms) [] = some (pre ++ [page], .error e) := by
  refine ⟨newWithUserLimit_ok_iff, fun r perms ↦
    ⟨r.pages, r.pages_ascending, r.mem_pages_iff, ?_, ?_, ?_⟩⟩
  · exact r.validatePages_ok_iff perms
  · intro log hlog
    have husable := (r.validatePages_ok_iff perms).mp ⟨log, hlog⟩
    rw [validatePages_eq,
      scan_ok fun page hpage ↦ (fault_eq_none_iff page).mpr (husable page hpage)] at hlog
    cases hlog
    rfl
  · intro pre page post hpages hpre hpage
    obtain ⟨e, he⟩ := Option.ne_none_iff_exists'.mp (mt (fault_eq_none_iff page).mp hpage)
    refine ⟨e, he, ?_⟩
    rw [validatePages_eq, hpages,
      scan_error (fun q hq ↦ (fault_eq_none_iff q).mpr (hpre q hq)) he]

end UserRange

end BraneKernel
