import BraneKernel.Xhci.Descriptors

namespace BraneKernel.MassStorage

open Records (Turn Result IsRecord follow)

def scsiInterface (r : Bytes) : Option UsbInterface :=
  if isInterface r then (readInterface r).filter (·.isScsiBulkOnly) else none

def bulkEndpoint (r : Bytes) : Option UsbEndpoint :=
  if 7 ≤ r.length then (readEndpoint r).filter (·.isBulk) else none

def WellFormed (r : Bytes) : Prop :=
  IsRecord descriptorSize r ∧ (isInterface r = true → 9 ≤ r.length)

def slot (s : MassStorageScan) (e : UsbEndpoint) : Option (BitVec 8 × U16) :=
  if e.isIn then s.bulkIn else s.bulkOut

def add (s : MassStorageScan) (e : UsbEndpoint) : MassStorageScan :=
  if e.isIn then { s with bulkIn := some (e.address, e.maxPacketSize) }
  else { s with bulkOut := some (e.address, e.maxPacketSize) }

variable {s s' : MassStorageScan} {r : Bytes} {rs : List Bytes} {n : BitVec 8}

theorem turn_interface (s : MassStorageScan) (h : IsRecord descriptorSize r)
    (hface : isInterface r = true) :
    (massStorageTurn s r = some (.stop (.error .invalidDescriptor)) ∧ ¬ WellFormed r) ∨
    (massStorageTurn s r = some (if s.selectedInterface.isSome then .stop (.ok s) else .go s) ∧
      WellFormed r ∧ scsiInterface r = none) ∨
    ∃ i, massStorageTurn s r = some (if s.selectedInterface.isSome ∨ i.endpoints ≠ 2 then
        .stop (.error .invalidDescriptor) else .go ⟨some i.number, none, none⟩) ∧
      WellFormed r ∧ scsiInterface r = some i := by
  have hkind : r[1]? = some usbDescriptorInterface := beq_iff_eq.mp hface
  unfold massStorageTurn
  rw [hkind]
  dsimp only [Option.bind_eq_bind, Option.bind_some]
  rw [if_pos rfl]
  by_cases hlength : r.length < 9
  · rw [if_pos hlength]
    exact .inl ⟨rfl, fun hw ↦ absurd (hw.2 hface) (by omega)⟩
  have hwell : WellFormed r := ⟨h, fun _ ↦ by omega⟩
  obtain ⟨i, hi⟩ := readInterface_eq_some r (by omega)
  rw [if_neg hlength, hi, Option.bind_some, scsiInterface, if_pos hface, hi]
  cases hscsi : i.isScsiBulkOnly with
  | false =>
    refine .inr (.inl ⟨?_, hwell, by simp [hscsi]⟩)
    rw [if_neg (by decide)]
    split_ifs <;> rfl
  | true =>
    refine .inr (.inr ⟨i, ?_, hwell, by simp [hscsi]⟩)
    rw [if_pos rfl]
    split_ifs <;> rfl

theorem turn_unselected (h : IsRecord descriptorSize r) (hs : s.selectedInterface = none) :
    (massStorageTurn s r = some (.stop (.error .invalidDescriptor)) ∧
      (¬ WellFormed r ∨ ∃ i, scsiInterface r = some i ∧ i.endpoints ≠ 2)) ∨
    (massStorageTurn s r = some (.go s) ∧ WellFormed r ∧ scsiInterface r = none) ∨
    ∃ i, massStorageTurn s r = some (.go ⟨some i.number, none, none⟩) ∧ WellFormed r ∧
      scsiInterface r = some i ∧ i.endpoints = 2 := by
  cases hface : isInterface r with
  | true =>
    obtain ⟨he, hbad⟩ | ⟨he, hwell, hscsi⟩ | ⟨i, he, hwell, hscsi⟩ := turn_interface s h hface
    · exact .inl ⟨he, .inl hbad⟩
    · rw [hs] at he
      exact .inr (.inl ⟨he, hwell, hscsi⟩)
    · rw [hs] at he
      by_cases htwo : i.endpoints = 2
      · rw [if_neg (by simp [htwo])] at he
        exact .inr (.inr ⟨i, he, hwell, hscsi, htwo⟩)
      · rw [if_pos (.inr htwo)] at he
        exact .inl ⟨he, .inr ⟨i, hscsi, htwo⟩⟩
  | false =>
    obtain ⟨kind, hkind⟩ := exists_kind h
    have hnot := kind_ne_interface hkind hface
    refine .inr (.inl ⟨?_, ⟨h, fun h ↦ ?_⟩, ?_⟩)
    · unfold massStorageTurn
      rw [hkind, hs]
      dsimp only [Option.bind_eq_bind, Option.bind_some]
      rw [if_neg hnot, if_neg (by simp)]
    · cases hface.symm.trans h
    · rw [scsiInterface, hface]
      rfl

theorem turn_selected (h : IsRecord descriptorSize r) (hs : s.selectedInterface = some n) :
    (massStorageTurn s r = some (.stop (.error .invalidDescriptor)) ∧
      ((isInterface r = true ∧ (¬ WellFormed r ∨ scsiInterface r ≠ none)) ∨
        (isEndpoint r = true ∧ ∀ e, bulkEndpoint r = some e → (slot s e).isSome = true))) ∨
    (massStorageTurn s r = some (.stop (.ok s)) ∧ isInterface r = true ∧ WellFormed r ∧
      scsiInterface r = none) ∨
    (massStorageTurn s r = some (.go s) ∧ isInterface r = false ∧ isEndpoint r = false) ∨
    ∃ e, massStorageTurn s r = some (.go (add s e)) ∧ isInterface r = false ∧
      isEndpoint r = true ∧ bulkEndpoint r = some e ∧ slot s e = none := by
  cases hface : isInterface r with
  | true =>
    obtain ⟨he, hbad⟩ | ⟨he, hwell, hscsi⟩ | ⟨i, he, hwell, hscsi⟩ := turn_interface s h hface
    · exact .inl ⟨he, .inl ⟨rfl, .inl hbad⟩⟩
    · rw [hs] at he
      exact .inr (.inl ⟨he, rfl, hwell, hscsi⟩)
    · rw [if_pos (.inl (by rw [hs]; rfl))] at he
      exact .inl ⟨he, .inl ⟨rfl, .inr (by rw [hscsi]; simp)⟩⟩
  | false =>
    obtain ⟨kind, hkind⟩ := exists_kind h
    have hend : isEndpoint r = true ↔ kind = usbDescriptorEndpoint := by simp [isEndpoint, hkind]
    have hnot := kind_ne_interface hkind hface
    unfold massStorageTurn
    rw [hkind, hs]
    dsimp only [Option.bind_eq_bind, Option.bind_some]
    rw [if_neg hnot]
    by_cases hendpoint : kind = usbDescriptorEndpoint
    · have hisend := hend.mpr hendpoint
      rw [if_pos ⟨hendpoint, rfl⟩]
      by_cases hlength : r.length < 7
      · have hseven : ¬ 7 ≤ r.length := by omega
        rw [if_pos hlength, bulkEndpoint, if_neg hseven]
        exact .inl ⟨rfl, .inr ⟨hisend, by simp⟩⟩
      obtain ⟨e, he⟩ := readEndpoint_eq_some r (by omega)
      have hseven : 7 ≤ r.length := by omega
      rw [if_neg hlength, he, Option.bind_some, bulkEndpoint, if_pos hseven, he]
      cases hbulk : e.isBulk with
      | false => exact .inl ⟨by simp, .inr ⟨hisend, by simp [hbulk]⟩⟩
      | true =>
        have hread : (some e).filter (·.isBulk) = some e := by simp [hbulk]
        rw [hread]
        by_cases hslot : (slot s e).isSome = true
        · refine .inl ⟨?_, .inr ⟨hisend, fun e' he' ↦ Option.some.inj he' ▸ hslot⟩⟩
          unfold slot at hslot
          cases hin : e.isIn <;> simp_all
        · refine .inr (.inr (.inr ⟨e, ?_, rfl, hisend, rfl, by simpa using hslot⟩))
          unfold slot at hslot
          unfold add
          cases hin : e.isIn <;> simp_all
    · have hnotend : isEndpoint r = false := Bool.not_eq_true _ ▸ fun h ↦ hendpoint (hend.mp h)
      rw [if_neg fun h ↦ hendpoint h.1]
      exact .inr (.inr (.inl ⟨rfl, rfl, hnotend⟩))

theorem turn_ne_none (s : MassStorageScan) (r : Bytes) (h : IsRecord descriptorSize r) :
    massStorageTurn s r ≠ none := by
  cases hs : s.selectedInterface with
  | none =>
    obtain ⟨he, -⟩ | ⟨he, -⟩ | ⟨i, he, -⟩ := turn_unselected h hs <;> rw [he] <;> exact nofun
  | some n =>
    obtain ⟨he, -⟩ | ⟨he, -⟩ | ⟨he, -⟩ | ⟨e, he, -⟩ := turn_selected h hs <;> rw [he] <;> exact nofun

def place (s : MassStorageScan) : List UsbEndpoint → Option MassStorageScan
  | [] => some s
  | e :: es => if slot s e = none then place (add s e) es else none

theorem add_selected (s : MassStorageScan) (e : UsbEndpoint) :
    (add s e).selectedInterface = s.selectedInterface := by
  unfold add
  split_ifs <;> rfl

theorem follow_selected_iff (hall : ∀ r ∈ rs, IsRecord descriptorSize r)
    (hs : s.selectedInterface = some n) : follow massStorageTurn s rs = some s' ↔
      (∀ r ∈ rs, isInterface r = false) ∧
        ∃ es : List UsbEndpoint, (rs.filter isEndpoint).map bulkEndpoint = es.map some ∧
          place s es = some s' := by
  induction rs generalizing s with
  | nil =>
    constructor
    · exact fun h ↦ ⟨List.forall_mem_nil _, [], rfl, h⟩
    · rintro ⟨-, es, hes, hplace⟩
      obtain rfl := List.map_eq_nil_iff.mp hes.symm
      exact hplace
  | cons r rs ih =>
    obtain ⟨hr, hrs⟩ := List.forall_mem_cons.mp hall
    rw [List.forall_mem_cons]
    obtain ⟨he, hbad⟩ | ⟨he, hface, -⟩ | ⟨he, hface, hend⟩ | ⟨e, he, hface, hend, hbulk, hslot⟩ :=
      turn_selected hr hs
    · rw [Records.follow_stop he]
      refine iff_of_false (by simp) ?_
      rintro ⟨⟨hface, -⟩, es, hes, hplace⟩
      rcases hbad with ⟨hface', -⟩ | ⟨hend, hbulk⟩
      · rw [hface] at hface'
        cases hface'
      · rw [List.filter_cons_of_pos hend, List.map_cons] at hes
        cases es with
        | nil => cases hes
        | cons e es =>
          rw [List.map_cons, List.cons.injEq] at hes
          have hfull := hbulk e hes.1
          rw [place] at hplace
          split_ifs at hplace with hfree
          rw [hfree] at hfull
          cases hfull
    · rw [Records.follow_stop he, hface]
      exact iff_of_false (by simp) (by simp)
    · have hskip : (r :: rs).filter isEndpoint = rs.filter isEndpoint :=
        List.filter_cons_of_neg (by rw [hend]; decide)
      rw [Records.follow_go he, hskip, and_iff_right hface]
      exact ih hrs hs
    · rw [Records.follow_go he, List.filter_cons_of_pos hend, List.map_cons, and_iff_right hface, hbulk]
      have htail := ih (s := add s e) hrs ((add_selected s e).trans hs)
      refine htail.trans (and_congr_right fun _ ↦ ?_)
      constructor
      · rintro ⟨es, hes, hplace⟩
        exact ⟨e :: es, by rw [hes, List.map_cons], by rw [place, if_pos hslot, hplace]⟩
      · rintro ⟨_, hes, hplace⟩
        obtain ⟨_, es, rfl, heq, hrest⟩ := List.map_eq_cons_iff.mp hes.symm
        obtain rfl := Option.some.inj heq
        rw [place, if_pos hslot] at hplace
        exact ⟨es, hrest.symm, hplace⟩

theorem place_full_iff {es : List UsbEndpoint} {m : Option (BitVec 8)} {a b : BitVec 8 × U16} :
    place ⟨some n, none, none⟩ es = some ⟨m, some a, some b⟩ ↔
      m = some n ∧ ∃ bulkIn bulkOut : UsbEndpoint, bulkIn.isIn = true ∧ bulkOut.isIn = false ∧
        a = (bulkIn.address, bulkIn.maxPacketSize) ∧ b = (bulkOut.address, bulkOut.maxPacketSize) ∧
        (es = [bulkIn, bulkOut] ∨ es = [bulkOut, bulkIn]) := by
  constructor
  · intro h
    match es with
    | [] => cases h
    | [e] => cases hin : e.isIn <;> simp [place, slot, add, hin] at h
    | [e, e'] =>
      cases hin : e.isIn <;> cases hin' : e'.isIn <;> simp [place, slot, add, hin, hin'] at h
      · exact ⟨h.1.symm, e', e, hin', hin, h.2.1.symm, h.2.2.symm, .inr rfl⟩
      · exact ⟨h.1.symm, e, e', hin, hin', h.2.1.symm, h.2.2.symm, .inl rfl⟩
    | e :: e' :: e'' :: es =>
      cases hin : e.isIn <;> cases hin' : e'.isIn <;> cases hin'' : e''.isIn <;>
        simp [place, slot, add, hin, hin', hin''] at h
  · rintro ⟨rfl, bulkIn, bulkOut, hin, hout, rfl, rfl, rfl | rfl⟩
    · simp [place, slot, add, hin, hout]
    · simp [place, slot, add, hin, hout]

/-- The descriptors select an interface: after well formed ones that do not match,
the first SCSI Bulk-Only interface, with two endpoints, and its section is read. -/
def Selects (rs : List Bytes) (s : MassStorageScan) : Prop :=
  ∃ before selected body i, rs = before ++ selected :: body ∧
    (∀ r ∈ before, WellFormed r ∧ scsiInterface r = none) ∧ WellFormed selected ∧
    scsiInterface selected = some i ∧ i.endpoints = 2 ∧
    follow massStorageTurn ⟨some i.number, none, none⟩ body = some s

theorem selects_nil : ¬ Selects [] s := by
  rintro ⟨before, selected, body, i, heq, -⟩
  exact List.append_ne_nil_of_right_ne_nil _ (List.cons_ne_nil _ _) heq.symm

theorem selects_cons_iff : Selects (r :: rs) s ↔
    (∃ i, WellFormed r ∧ scsiInterface r = some i ∧ i.endpoints = 2 ∧
      follow massStorageTurn ⟨some i.number, none, none⟩ rs = some s) ∨
    ((WellFormed r ∧ scsiInterface r = none) ∧ Selects rs s) := by
  constructor
  · rintro ⟨before, selected, body, i, heq, hbefore, hwell, hscsi, htwo, hbody⟩
    cases before with
    | nil =>
      obtain ⟨rfl, rfl⟩ := List.cons.inj heq
      exact .inl ⟨i, hwell, hscsi, htwo, hbody⟩
    | cons x before =>
      obtain ⟨rfl, rfl⟩ := List.cons.inj heq
      obtain ⟨hx, hbefore⟩ := List.forall_mem_cons.mp hbefore
      exact .inr ⟨hx, before, selected, body, i, rfl, hbefore, hwell, hscsi, htwo, hbody⟩
  · rintro (⟨i, hwell, hscsi, htwo, hbody⟩ |
      ⟨hx, before, selected, body, i, rfl, hbefore, hwell, hscsi, htwo, hbody⟩)
    · exact ⟨[], r, rs, i, rfl, List.forall_mem_nil _, hwell, hscsi, htwo, hbody⟩
    · exact ⟨r :: before, selected, body, i, rfl, List.forall_mem_cons.mpr ⟨hx, hbefore⟩, hwell,
        hscsi, htwo, hbody⟩

theorem follow_start_iff (hall : ∀ r ∈ rs, IsRecord descriptorSize r)
    (hs : s.selectedInterface = none) : follow massStorageTurn s rs = some s' ↔
      (s' = s ∧ ∀ r ∈ rs, WellFormed r ∧ scsiInterface r = none) ∨ Selects rs s' := by
  induction rs with
  | nil =>
    constructor
    · exact fun h ↦ .inl ⟨(Option.some.inj h).symm, List.forall_mem_nil _⟩
    · rintro (⟨rfl, -⟩ | hselects)
      · rfl
      · exact absurd hselects selects_nil
  | cons r rs ih =>
    obtain ⟨hr, hrs⟩ := List.forall_mem_cons.mp hall
    rw [List.forall_mem_cons, selects_cons_iff]
    obtain ⟨he, hbad⟩ | ⟨he, hwell, hscsi⟩ | ⟨i, he, hwell, hscsi, htwo⟩ := turn_unselected hr hs
    · rw [Records.follow_stop he]
      refine iff_of_false (by simp) ?_
      rcases hbad with hbad | ⟨i, hi, hne⟩
      · simp [hbad]
      · simp only [hi, reduceCtorEq, and_false, false_and, false_or, or_false, Option.some.injEq]
        rintro ⟨i', -, rfl, htwo, -⟩
        exact hne htwo
    · rw [Records.follow_go he, ih hrs]
      simp [hwell, hscsi]
    · rw [Records.follow_go he]
      simp [hwell, hscsi, htwo]

/-- Descriptors of which the first SCSI Bulk-Only interface is `selected` and declares
two endpoints; its section `body` holds exactly two endpoint descriptors, a valid
bulk IN and a valid bulk OUT. -/
structure Selection (before : List Bytes) (selected : Bytes) (body : List Bytes) (i : UsbInterface)
    (bulkIn bulkOut : UsbEndpoint) : Prop where
  well_formed : ∀ r ∈ before ++ selected :: body, WellFormed r
  first : ∀ r ∈ before, scsiInterface r = none
  selected_eq : scsiInterface selected = some i
  two_declared : i.endpoints = 2
  no_interface : ∀ r ∈ body, isInterface r = false
  two_found : (body.filter isEndpoint).map bulkEndpoint = [some bulkIn, some bulkOut] ∨
    (body.filter isEndpoint).map bulkEndpoint = [some bulkOut, some bulkIn]
  is_in : bulkIn.isIn = true
  is_out : bulkOut.isIn = false

def descriptorOf (v : BitVec 8) (i : UsbInterface) (bulkIn bulkOut : UsbEndpoint) :
    MassStorageDescriptor :=
  ⟨v, i.number, bulkIn.address, bulkIn.maxPacketSize, bulkOut.address, bulkOut.maxPacketSize⟩

variable {v : BitVec 8} {d : MassStorageDescriptor} {bytes : Bytes}

theorem finish_eq_ok : s.finish v = .ok d ↔
    s = ⟨some d.interfaceNumber, some (d.bulkInAddress, d.bulkInMaxPacketSize),
      some (d.bulkOutAddress, d.bulkOutMaxPacketSize)⟩ ∧ v = d.configurationValue := by
  obtain ⟨v', n, a, m, a', m'⟩ := d
  obtain ⟨_ | selected, _ | bulkIn, _ | bulkOut⟩ := s <;>
    simp [MassStorageScan.finish, Prod.ext_iff, and_comm, and_assoc]

theorem selects_finish_iff (hall : ∀ r ∈ rs, IsRecord descriptorSize r) :
    (∃ s, Selects rs s ∧ s.finish v = .ok d) ↔
      ∃ before selected body i bulkIn bulkOut, rs = before ++ selected :: body ∧
        Selection before selected body i bulkIn bulkOut ∧ d = descriptorOf v i bulkIn bulkOut := by
  constructor
  · rintro ⟨s, ⟨before, selected, body, i, rfl, hbefore, hwell, hscsi, htwo, hbody⟩, hfinish⟩
    obtain ⟨rfl, rfl⟩ := finish_eq_ok.mp hfinish
    have hrecords : ∀ r ∈ body, IsRecord descriptorSize r := fun r hr ↦
      hall r (List.mem_append_right _ (List.mem_cons_of_mem _ hr))
    obtain ⟨hno, es, hes, hplace⟩ := (follow_selected_iff hrecords rfl).mp hbody
    obtain ⟨hn, bulkIn, bulkOut, hin, hout, ha, hb, horder⟩ := place_full_iff.mp hplace
    refine ⟨before, selected, body, i, bulkIn, bulkOut, rfl, ⟨?_, fun r hr ↦ (hbefore r hr).2, hscsi,
      htwo, hno, ?_, hin, hout⟩, ?_⟩
    · rw [List.forall_mem_append, List.forall_mem_cons]
      refine ⟨fun r hr ↦ (hbefore r hr).1, hwell, fun r hr ↦ ⟨hrecords r hr, fun h ↦ ?_⟩⟩
      cases (hno r hr).symm.trans h
    · rw [hes]
      rcases horder with rfl | rfl
      · exact .inl rfl
      · exact .inr rfl
    · obtain ⟨hin₁, hin₂⟩ := Prod.mk.inj ha
      obtain ⟨hout₁, hout₂⟩ := Prod.mk.inj hb
      rw [descriptorOf, ← Option.some.inj hn, ← hin₁, ← hin₂, ← hout₁, ← hout₂]
  · rintro ⟨before, selected, body, i, bulkIn, bulkOut, rfl, hsel, rfl⟩
    have hwell := hsel.well_formed
    rw [List.forall_mem_append, List.forall_mem_cons] at hwell
    refine ⟨_, ⟨before, selected, body, i, rfl, fun r hr ↦ ⟨hwell.1 r hr, hsel.first r hr⟩, hwell.2.1,
      hsel.selected_eq, hsel.two_declared, ?_⟩, finish_eq_ok.mpr ⟨rfl, rfl⟩⟩
    refine (follow_selected_iff (fun r hr ↦ (hwell.2.2 r hr).1) rfl).mpr ⟨hsel.no_interface, ?_⟩
    rcases hsel.two_found with hes | hes
    · exact ⟨[bulkIn, bulkOut], hes, place_full_iff.mpr
        ⟨rfl, bulkIn, bulkOut, hsel.is_in, hsel.is_out, rfl, rfl, .inl rfl⟩⟩
    · exact ⟨[bulkOut, bulkIn], hes, place_full_iff.mpr
        ⟨rfl, bulkIn, bulkOut, hsel.is_in, hsel.is_out, rfl, rfl, .inr rfl⟩⟩

/-- The descriptors up to the end of the selected section tile the bytes before the declared total,
and the section ends there or with a well formed interface descriptor that does not match. -/
structure Layout (bytes : Bytes) (d : MassStorageDescriptor) (total : ℕ) (before : List Bytes)
    (selected : Bytes) (body : List Bytes) (tail : Bytes) (i : UsbInterface)
    (bulkIn bulkOut : UsbEndpoint) : Prop where
  header : ConfigurationHeader bytes total d.configurationValue
  tiles : bytes.take total = (before ++ selected :: body).flatten ++ tail
  selection : Selection before selected body i bulkIn bulkOut
  ends : tail = [] ∨ ∃ following rest, tail = following ++ rest ∧ WellFormed following ∧
    isInterface following = true ∧ scsiInterface following = none
  values : d = descriptorOf d.configurationValue i bulkIn bulkOut

theorem follow_start_finish {rs : List Bytes} (hall : ∀ r ∈ rs, IsRecord descriptorSize r) :
    (∃ s, follow massStorageTurn ⟨none, none, none⟩ rs = some s ∧ s.finish v = .ok d) ↔
      ∃ s, Selects rs s ∧ s.finish v = .ok d := by
  refine exists_congr fun s ↦ and_congr_left fun hfinish ↦ ?_
  rw [follow_start_iff hall rfl]
  refine or_iff_right ?_
  rintro ⟨rfl, -⟩
  cases hfinish

theorem turn_break_iff (h : IsRecord descriptorSize r) :
    massStorageTurn s r = some (.stop (.ok s')) ↔ s' = s ∧ s.selectedInterface ≠ none ∧
      isInterface r = true ∧ WellFormed r ∧ scsiInterface r = none := by
  cases hs : s.selectedInterface with
  | none =>
    refine iff_of_false ?_ fun h ↦ h.2.1 rfl
    obtain ⟨he, -⟩ | ⟨he, -⟩ | ⟨i, he, -⟩ := turn_unselected h hs <;> rw [he] <;> exact nofun
  | some n =>
    obtain ⟨he, hbad⟩ | ⟨he, hface, hwell, hscsi⟩ | ⟨he, hface, -⟩ | ⟨e, he, hface, -⟩ :=
      turn_selected h hs
    · rw [he]
      refine iff_of_false nofun ?_
      rintro ⟨-, -, hface, hwell, hscsi⟩
      rcases hbad with ⟨-, hbad⟩ | ⟨hend, -⟩
      · exact hbad.elim (fun h ↦ h hwell) fun h ↦ h hscsi
      · cases (isEndpoint_of_isInterface hface).symm.trans hend
    · rw [he]
      constructor
      · intro heq
        cases heq
        exact ⟨rfl, nofun, hface, hwell, hscsi⟩
      · rintro ⟨rfl, -⟩
        rfl
    · rw [he, hface]
      exact iff_of_false nofun fun h ↦ nomatch h.2.2.1
    · rw [he, hface]
      exact iff_of_false nofun fun h ↦ nomatch h.2.2.1

theorem parse_ok_iff : parseMassStorageConfiguration bytes = some (.ok d) ↔
    ∃ total before selected body tail i bulkIn bulkOut,
      Layout bytes d total before selected body tail i bulkIn bulkOut := by
  unfold parseMassStorageConfiguration
  obtain ⟨total, v, hheader, hparse⟩ | ⟨hnone, e, hparse⟩ := parseConfiguration_cases
    (fun _ ↦ massStorageTurn) ⟨none, none, none⟩ massStorageResult bytes
  · have hfuel := length_take_lt bytes total
    rw [hparse, Option.map_eq_some_iff]
    constructor
    · rintro ⟨result, hscan, hresult⟩
      match result with
      | .malformed => cases hresult
      | .stopped (.error e) => cases hresult
      | .ended s =>
        obtain ⟨rs, hall, htake, hfollow⟩ := (Records.scan_ended_iff turn_ne_none hfuel).mp hscan
        obtain ⟨before, selected, body, i, bulkIn, bulkOut, rfl, hsel, rfl⟩ :=
          (selects_finish_iff hall).mp ((follow_start_finish hall).mp ⟨s, hfollow, hresult⟩)
        refine ⟨total, before, selected, body, [], i, bulkIn, bulkOut, hheader, ?_, hsel, .inl rfl, rfl⟩
        rw [htake, List.append_nil]
      | .stopped (.ok s) =>
        obtain ⟨rs, following, rest, t, hall, hrecord, htake, hfollow, hbreak⟩ :=
          (Records.scan_stopped_iff turn_ne_none hfuel).mp hscan
        obtain ⟨rfl, -, hface, hwell, hscsi⟩ := (turn_break_iff hrecord).mp hbreak
        obtain ⟨before, selected, body, i, bulkIn, bulkOut, rfl, hsel, rfl⟩ :=
          (selects_finish_iff hall).mp ((follow_start_finish hall).mp ⟨s, hfollow, hresult⟩)
        exact ⟨total, before, selected, body, following ++ rest, i, bulkIn, bulkOut, hheader, htake, hsel,
          .inr ⟨following, rest, rfl, hwell, hface, hscsi⟩, rfl⟩
    · rintro ⟨total', before, selected, body, tail, i, bulkIn, bulkOut, hlayout⟩
      obtain ⟨rfl, rfl⟩ := hheader.unique hlayout.header
      have hall : ∀ r ∈ before ++ selected :: body, IsRecord descriptorSize r := fun r hr ↦
        (hlayout.selection.well_formed r hr).1
      have htiles := hlayout.tiles
      obtain ⟨s, hfollow, hfinish⟩ := (follow_start_finish hall).mpr ((selects_finish_iff hall).mpr
        ⟨before, selected, body, i, bulkIn, bulkOut, rfl, hlayout.selection, hlayout.values⟩)
      rcases hlayout.ends with rfl | ⟨following, rest, rfl, hwell, hface, hscsi⟩
      · rw [List.append_nil] at htiles
        exact ⟨.ended s, (Records.scan_ended_iff turn_ne_none hfuel).mpr ⟨_, hall, htiles, hfollow⟩,
          hfinish⟩
      · have hselected : s.selectedInterface ≠ none := by
          rw [(finish_eq_ok.mp hfinish).1]
          exact nofun
        have hbreak := (turn_break_iff hwell.1).mpr ⟨rfl, hselected, hface, hwell, hscsi⟩
        exact ⟨.stopped (.ok s), (Records.scan_stopped_iff turn_ne_none hfuel).mpr
          ⟨_, following, rest, s, hall, hwell.1, htiles, hfollow, hbreak⟩, hfinish⟩
  · rw [hparse]
    refine ⟨nofun, ?_⟩
    rintro ⟨total, _, _, _, _, _, _, _, hlayout⟩
    exact absurd hlayout.header (hnone _ _)

theorem endpointId_of_number {address : BitVec 8} (h : address &&& 0x0F ≠ 0) :
    ∃ id, endpointId address = some id ∧ 2 ≤ id.toNat ∧ id.toNat ≤ 31 ∧
      (id.toNat % 2 = 1 ↔ address &&& usbEndpointDirectionIn ≠ 0) := by
  have hall : ∀ address : BitVec 8, address &&& 0x0F ≠ 0 → (endpointId address).any (fun id ↦
      2 ≤ id.toNat ∧ id.toNat ≤ 31 ∧
        (id.toNat % 2 = 1 ↔ address &&& usbEndpointDirectionIn ≠ 0)) = true := by
    decide +kernel
  have hany := hall address h
  cases hid : endpointId address with
  | none =>
    rw [hid] at hany
    cases hany
  | some id =>
    rw [hid] at hany
    exact ⟨id, rfl, of_decide_eq_true hany⟩

theorem bulkEndpoint_number {e : UsbEndpoint} (h : bulkEndpoint r = some e) :
    e.address &&& 0x0F ≠ 0 := by
  unfold bulkEndpoint at h
  split_ifs at h
  obtain ⟨-, hbulk⟩ := Option.filter_eq_some_iff.mp h
  simp only [UsbEndpoint.isBulk, Bool.not_eq_true', Bool.or_eq_false_iff, beq_eq_false_iff_ne] at hbulk
  exact hbulk.1.1.1.1

theorem Selection.bulk {before body : List Bytes} {selected : Bytes} {i : UsbInterface}
    {bulkIn bulkOut : UsbEndpoint} (h : Selection before selected body i bulkIn bulkOut) :
    (∃ r, bulkEndpoint r = some bulkIn) ∧ ∃ r, bulkEndpoint r = some bulkOut := by
  have hmem (e : UsbEndpoint) (he : some e ∈ (body.filter isEndpoint).map bulkEndpoint) :
      ∃ r, bulkEndpoint r = some e := by
    obtain ⟨r, -, hr⟩ := List.mem_map.mp he
    exact ⟨r, hr⟩
  rcases h.two_found with hes | hes <;> exact ⟨hmem _ (by simp [hes]), hmem _ (by simp [hes])⟩

/-- The parser answers every byte string without an access out of range. It accepts exactly the
configurations of this layout, with two different endpoint identifiers between 2 and 31. -/
theorem mass_storage_layout (bytes : Bytes) :
    parseMassStorageConfiguration bytes ≠ none ∧
    ∀ d, (parseMassStorageConfiguration bytes = some (.ok d) ↔
      ∃ total before selected body tail i bulkIn bulkOut,
        Layout bytes d total before selected body tail i bulkIn bulkOut) ∧
      (parseMassStorageConfiguration bytes = some (.ok d) →
        ∃ idIn idOut, endpointId d.bulkInAddress = some idIn ∧
          endpointId d.bulkOutAddress = some idOut ∧ idIn ≠ idOut ∧
          2 ≤ idIn.toNat ∧ idIn.toNat ≤ 31 ∧ 2 ≤ idOut.toNat ∧ idOut.toNat ≤ 31) := by
  refine ⟨parseConfiguration_ne_none _ _ (fun _ ↦ turn_ne_none) bytes, fun d ↦ ⟨parse_ok_iff, ?_⟩⟩
  intro hparse
  obtain ⟨total, before, selected, body, tail, i, bulkIn, bulkOut, hlayout⟩ := parse_ok_iff.mp hparse
  obtain ⟨⟨r, hr⟩, r', hr'⟩ := hlayout.selection.bulk
  obtain ⟨idIn, hidIn, hlow, hhigh, hodd⟩ := endpointId_of_number (bulkEndpoint_number hr)
  obtain ⟨idOut, hidOut, hlow', hhigh', hodd'⟩ := endpointId_of_number (bulkEndpoint_number hr')
  refine ⟨idIn, idOut, ?_, ?_, ?_, hlow, hhigh, hlow', hhigh'⟩
  · rw [hlayout.values]
    exact hidIn
  · rw [hlayout.values]
    exact hidOut
  · rintro rfl
    have hin := hlayout.selection.is_in
    have hout := hlayout.selection.is_out
    rw [UsbEndpoint.isIn, bne_iff_ne] at hin
    rw [UsbEndpoint.isIn, bne_eq_false_iff_eq] at hout
    exact hodd'.mp (hodd.mpr hin) hout

end BraneKernel.MassStorage
