import BraneKernel.Lib.Trace
import BraneKernel.Xhci.Descriptors

namespace BraneKernel

open Records (Turn Result IsRecord follow)

def latestInterface (ds : List Bytes) : Option Bytes := ds.reverse.find? isInterface

def keyboardNumber (r : Bytes) : Option (BitVec 8) :=
  ((readInterface r).filter (·.isBootKeyboard)).map (·.number)

def keyboardEndpoint (r : Bytes) : Option UsbEndpoint :=
  if isEndpoint r then (readEndpoint r).filter (·.isHidInterrupt) else none

def Complete (r : Bytes) : Prop :=
  (isInterface r = true → 9 ≤ r.length) ∧ (isEndpoint r = true → 7 ≤ r.length)

variable {v : BitVec 8} {s s' : Option (BitVec 8)} {r : Bytes} {ds : List Bytes}
  {d : HidKeyboardDescriptor}

theorem keyboardEndpoint_interface (h : isInterface r = true) : keyboardEndpoint r = none := by
  rw [keyboardEndpoint, isEndpoint_of_isInterface h]
  rfl

theorem hidTurn_cases (v : BitVec 8) (s : Option (BitVec 8)) (h : IsRecord descriptorSize r) :
    (hidTurn v s r = some (.stop (.error .invalidDescriptor)) ∧ ¬ Complete r) ∨
    (hidTurn v s r = some (.go (keyboardNumber r)) ∧ isInterface r = true ∧ Complete r) ∨
    (hidTurn v s r = some (.go s) ∧ isInterface r = false ∧ Complete r ∧
      (s = none ∨ keyboardEndpoint r = none)) ∨
    ∃ n e, hidTurn v s r = some (.stop (.ok ⟨v, n, e.address, e.maxPacketSize, e.interval⟩)) ∧
      isInterface r = false ∧ Complete r ∧ s = some n ∧ keyboardEndpoint r = some e := by
  obtain ⟨kind, hkind⟩ := exists_kind h
  have hface : isInterface r = true ↔ kind = usbDescriptorInterface := by simp [isInterface, hkind]
  have hend : isEndpoint r = true ↔ kind = usbDescriptorEndpoint := by simp [isEndpoint, hkind]
  unfold hidTurn
  rw [hkind]
  dsimp only [Option.bind_eq_bind, Option.bind_some]
  by_cases hinterface : kind = usbDescriptorInterface
  · have hnot := isEndpoint_of_isInterface (hface.mpr hinterface)
    rw [if_pos hinterface]
    by_cases hlength : r.length < 9
    · rw [if_pos hlength]
      exact .inl ⟨rfl, fun hc ↦ absurd (hc.1 (hface.mpr hinterface)) (by omega)⟩
    obtain ⟨i, hi⟩ := readInterface_eq_some r (by omega)
    rw [if_neg hlength, hi]
    refine .inr (.inl ⟨?_, hface.mpr hinterface, fun _ ↦ by omega, fun h ↦ ?_⟩)
    swap
    · cases hnot.symm.trans h
    rw [keyboardNumber, hi]
    cases hboot : i.isBootKeyboard <;> simp [hboot]
  have hother : isInterface r = false := Bool.not_eq_true _ ▸ fun h ↦ hinterface (hface.mp h)
  rw [if_neg hinterface]
  by_cases hendpoint : kind = usbDescriptorEndpoint
  · rw [if_pos hendpoint]
    have hisend := hend.mpr hendpoint
    by_cases hlength : r.length < 7
    · rw [if_pos hlength]
      exact .inl ⟨rfl, fun hc ↦ absurd (hc.2 hisend) (by omega)⟩
    have hcomplete : Complete r := ⟨fun h ↦ absurd h (by rw [hother]; decide), fun _ ↦ by omega⟩
    obtain ⟨e, he⟩ := readEndpoint_eq_some r (by omega)
    rw [if_neg hlength]
    cases s with
    | none => exact .inr (.inr (.inl ⟨rfl, hother, hcomplete, .inl rfl⟩))
    | some n =>
      dsimp only
      rw [he, Option.bind_some, keyboardEndpoint, if_pos hisend, he]
      cases hint : e.isHidInterrupt with
      | false => exact .inr (.inr (.inl ⟨rfl, hother, hcomplete, .inr (by simp [hint])⟩))
      | true => exact .inr (.inr (.inr ⟨n, e, rfl, hother, hcomplete, rfl, by simp [hint]⟩))
  · rw [if_neg hendpoint]
    have hnot : ¬ isEndpoint r = true := fun h ↦ hendpoint (hend.mp h)
    refine .inr (.inr (.inl ⟨rfl, hother, ⟨fun h ↦ ?_, fun h ↦ absurd h hnot⟩, .inr ?_⟩))
    · cases hother.symm.trans h
    · rw [keyboardEndpoint, if_neg hnot]

theorem hidTurn_ne_none (v : BitVec 8) (s : Option (BitVec 8)) (r : Bytes)
    (h : IsRecord descriptorSize r) : hidTurn v s r ≠ none := by
  obtain ⟨he, -⟩ | ⟨he, -⟩ | ⟨he, -⟩ | ⟨n, e, he, -⟩ := hidTurn_cases v s h <;> rw [he] <;> exact nofun

theorem hidTurn_go_iff (h : IsRecord descriptorSize r) : hidTurn v s r = some (.go s') ↔
    Complete r ∧ (s = none ∨ keyboardEndpoint r = none) ∧
      s' = if isInterface r then keyboardNumber r else s := by
  obtain ⟨he, hnot⟩ | ⟨he, hface, hc⟩ | ⟨he, hface, hc, hor⟩ | ⟨n, e, he, -, -, hn, hend⟩ :=
    hidTurn_cases v s h
  · rw [he]
    exact iff_of_false (by simp) fun h ↦ hnot h.1
  · have hnone := keyboardEndpoint_interface hface
    rw [he, hface]
    simp [hc, hnone, eq_comm]
  · rw [he, hface]
    simp [hc, hor, eq_comm]
  · rw [he, hn, hend]
    exact iff_of_false (by simp) (by simp)

theorem hidTurn_found_iff (h : IsRecord descriptorSize r) : hidTurn v s r = some (.stop (.ok d)) ↔
    Complete r ∧ ∃ n e, s = some n ∧ keyboardEndpoint r = some e ∧
      d = ⟨v, n, e.address, e.maxPacketSize, e.interval⟩ := by
  obtain ⟨he, hnot⟩ | ⟨he, hface, -⟩ | ⟨he, -, -, hor⟩ | ⟨n, e, he, -, hc, hn, hend⟩ :=
    hidTurn_cases v s h
  · rw [he]
    exact iff_of_false (by simp) fun h ↦ hnot h.1
  · rw [he, keyboardEndpoint_interface hface]
    exact iff_of_false (by simp) (by simp)
  · rw [he]
    refine iff_of_false (by simp) ?_
    rintro ⟨-, n, e, hn, hend, -⟩
    rw [hn, hend] at hor
    exact absurd hor (by simp)
  · rw [he, hn, hend]
    simp [hc, eq_comm]

def keyboardInterface (ds : List Bytes) : Option (BitVec 8) :=
  (latestInterface ds).bind keyboardNumber

theorem keyboardInterface_concat (ds : List Bytes) (r : Bytes) : keyboardInterface (ds ++ [r]) =
    if isInterface r then keyboardNumber r else keyboardInterface ds := by
  unfold keyboardInterface latestInterface
  rw [List.reverse_append, List.reverse_singleton, List.singleton_append, List.find?_cons]
  cases isInterface r <;> rfl

def NoneEarlier (ds : List Bytes) : Prop :=
  ∀ before r after, ds = before ++ r :: after →
    keyboardInterface before = none ∨ keyboardEndpoint r = none

theorem noneEarlier_concat : NoneEarlier (ds ++ [r]) ↔
    NoneEarlier ds ∧ (keyboardInterface ds = none ∨ keyboardEndpoint r = none) := by
  constructor
  · intro h
    refine ⟨fun before x after heq ↦ h before x (after ++ [r]) ?_, h ds r [] rfl⟩
    rw [heq, List.append_assoc, List.cons_append]
  · rintro ⟨h, hr⟩ before x after heq
    rcases Trace.snoc_split heq with ⟨rfl, rfl, -⟩ | ⟨rest, -, hds⟩
    · exact hr
    · exact h before x rest hds

theorem follow_hidTurn_iff (hall : ∀ r ∈ ds, IsRecord descriptorSize r) :
    follow (hidTurn v) none ds = some s ↔
      s = keyboardInterface ds ∧ (∀ r ∈ ds, Complete r) ∧ NoneEarlier ds := by
  induction ds using List.reverseRecOn generalizing s with
  | nil =>
    refine ⟨fun h ↦ ⟨(Option.some.inj h).symm, nofun, fun before r after heq ↦ ?_⟩,
      fun h ↦ congrArg some h.1.symm⟩
    exact absurd heq.symm (List.append_ne_nil_of_right_ne_nil _ (List.cons_ne_nil _ _))
  | append_singleton ds r ih =>
    have hds := fun x hx ↦ hall x (List.mem_append_left _ hx)
    have hr := hall r (List.mem_append_right _ List.mem_cons_self)
    rw [Records.follow_concat_iff, keyboardInterface_concat, noneEarlier_concat, List.forall_mem_append,
      List.forall_mem_singleton]
    constructor
    · rintro ⟨t, ht, hturn⟩
      obtain ⟨rfl, hcomplete, hnone⟩ := (ih hds).mp ht
      obtain ⟨hc, hor, rfl⟩ := (hidTurn_go_iff hr).mp hturn
      exact ⟨rfl, ⟨hcomplete, hc⟩, hnone, hor⟩
    · rintro ⟨rfl, ⟨hcomplete, hc⟩, hnone, hor⟩
      exact ⟨keyboardInterface ds, (ih hds).mpr ⟨rfl, hcomplete, hnone⟩,
        (hidTurn_go_iff hr).mpr ⟨hc, hor, rfl⟩⟩

/-- After complete descriptors of which none could be returned, an interrupt-IN endpoint whose most
recent interface descriptor is a boot keyboard interface. -/
structure KeyboardFound (bytes : Bytes) (d : HidKeyboardDescriptor) (total : ℕ)
    (before : List Bytes) (endpoint interface rest : Bytes) (i : UsbInterface) (e : UsbEndpoint) :
    Prop where
  header : ConfigurationHeader bytes total d.configurationValue
  tiles : bytes.take total = before.flatten ++ (endpoint ++ rest)
  records : ∀ r ∈ before ++ [endpoint], IsRecord descriptorSize r ∧ Complete r
  first : NoneEarlier before
  latest : latestInterface before = some interface
  interface_eq : readInterface interface = some i
  keyboard : i.isBootKeyboard = true
  is_endpoint : isEndpoint endpoint = true
  endpoint_eq : readEndpoint endpoint = some e
  interrupt : e.isHidInterrupt = true
  number : d.interfaceNumber = i.number
  values : d.endpointAddress = e.address ∧ d.maxPacketSize = e.maxPacketSize ∧
    d.interval = e.interval

theorem hidResult_eq_ok {σ : Type} {result : Result σ (Except XhciInitError HidKeyboardDescriptor)} :
    hidResult result = .ok d ↔ result = .stopped (.ok d) := by
  cases result <;> simp [hidResult]

theorem keyboardInterface_eq_some {n : BitVec 8} : keyboardInterface ds = some n ↔
    ∃ interface i, latestInterface ds = some interface ∧ readInterface interface = some i ∧
      i.isBootKeyboard = true ∧ n = i.number := by
  unfold keyboardInterface keyboardNumber
  simp only [Option.bind_eq_some_iff, Option.map_eq_some_iff, Option.filter_eq_some_iff]
  constructor
  · rintro ⟨interface, hlatest, i, ⟨hi, hboot⟩, hn⟩
    exact ⟨interface, i, hlatest, hi, hboot, hn.symm⟩
  · rintro ⟨interface, i, hlatest, hi, hboot, hn⟩
    exact ⟨interface, hlatest, i, ⟨hi, hboot⟩, hn.symm⟩

theorem keyboardEndpoint_eq_some {e : UsbEndpoint} : keyboardEndpoint r = some e ↔
    isEndpoint r = true ∧ readEndpoint r = some e ∧ e.isHidInterrupt = true := by
  unfold keyboardEndpoint
  split_ifs with h
  · rw [Option.filter_eq_some_iff, and_iff_right h]
  · exact ⟨nofun, fun h' ↦ absurd h'.1 h⟩

theorem parseHid_ok_iff {bytes : Bytes} : parseHidKeyboardConfiguration bytes = some (.ok d) ↔
    ∃ total before endpoint interface rest i e,
      KeyboardFound bytes d total before endpoint interface rest i e := by
  unfold parseHidKeyboardConfiguration
  obtain ⟨total, v, hheader, hparse⟩ | ⟨hnone, e, hparse⟩ := parseConfiguration_cases hidTurn none
    (fun _ ↦ hidResult) bytes
  · have hscan := Records.scan_stopped_iff (b := .ok d) (s := none) (hidTurn_ne_none v)
      (length_take_lt bytes total)
    rw [hparse, Option.map_eq_some_iff]
    simp only [hidResult_eq_ok, exists_eq_right, hscan]
    constructor
    · rintro ⟨before, endpoint, rest, s, hall, hrecord, htiles, hfollow, hturn⟩
      obtain ⟨rfl, hcomplete, hfirst⟩ := (follow_hidTurn_iff hall).mp hfollow
      obtain ⟨hc, n, e, hn, hend, rfl⟩ := (hidTurn_found_iff hrecord).mp hturn
      obtain ⟨interface, i, hlatest, hi, hboot, rfl⟩ := keyboardInterface_eq_some.mp hn
      obtain ⟨hisend, hread, hint⟩ := keyboardEndpoint_eq_some.mp hend
      refine ⟨total, before, endpoint, interface, rest, i, e, hheader, htiles, ?_, hfirst, hlatest, hi,
        hboot, hisend, hread, hint, rfl, rfl, rfl, rfl⟩
      rw [List.forall_mem_append, List.forall_mem_singleton]
      exact ⟨fun r hr ↦ ⟨hall r hr, hcomplete r hr⟩, hrecord, hc⟩
    · rintro ⟨total', before, endpoint, interface, rest, i, e, hfound⟩
      obtain ⟨rfl, rfl⟩ := hheader.unique hfound.header
      obtain ⟨hbefore, hendpoint⟩ := List.forall_mem_append.mp hfound.records
      rw [List.forall_mem_singleton] at hendpoint
      have hn : keyboardInterface before = some d.interfaceNumber :=
        keyboardInterface_eq_some.mpr
          ⟨interface, i, hfound.latest, hfound.interface_eq, hfound.keyboard, hfound.number⟩
      have hend : keyboardEndpoint endpoint = some e :=
        keyboardEndpoint_eq_some.mpr ⟨hfound.is_endpoint, hfound.endpoint_eq, hfound.interrupt⟩
      refine ⟨before, endpoint, rest, _, fun r hr ↦ (hbefore r hr).1, hendpoint.1, hfound.tiles,
        (follow_hidTurn_iff fun r hr ↦ (hbefore r hr).1).mpr
          ⟨rfl, fun r hr ↦ (hbefore r hr).2, hfound.first⟩,
        (hidTurn_found_iff hendpoint.1).mpr ⟨hendpoint.2, _, e, hn, hend, ?_⟩⟩
      obtain ⟨haddress, hsize, hinterval⟩ := hfound.values
      rw [← haddress, ← hsize, ← hinterval]
  · rw [hparse]
    refine ⟨nofun, ?_⟩
    rintro ⟨total, _, _, _, _, _, _, hfound⟩
    exact absurd hfound.header (hnone _ _)

/-- The parser answers every byte string without an access out of range, with the first usable
interrupt-IN endpoint whose most recent interface descriptor is a boot keyboard interface of
alternate setting 0. -/
theorem hid_first_endpoint (bytes : Bytes) :
    parseHidKeyboardConfiguration bytes ≠ none ∧
    ∀ d, parseHidKeyboardConfiguration bytes = some (.ok d) ↔
      ∃ total before endpoint interface rest i e,
        KeyboardFound bytes d total before endpoint interface rest i e := by
  exact ⟨parseConfiguration_ne_none none _ hidTurn_ne_none bytes, fun d ↦ parseHid_ok_iff⟩

def zeroIntervalConfiguration : Bytes :=
  [9, 2, 32, 0, 1, 1, 0, 0x80, 50, 9, 4, 0, 0, 1, 3, 1, 1, 0, 7, 5, 0x81, 3, 8, 0, 0,
    7, 5, 0x82, 3, 8, 0, 10]

/-- The first endpoint has a number, the direction IN and a packet size of 8, but
the second one is returned. -/
theorem zero_interval_skipped :
    zeroIntervalConfiguration.take 32 =
      [[9, 2, 32, 0, 1, 1, 0, 0x80, 50], [9, 4, 0, 0, 1, 3, 1, 1, 0]].flatten ++
        ([7, 5, 0x81, 3, 8, 0, 0] ++ [7, 5, 0x82, 3, 8, 0, 10]) ∧
    keyboardInterface [[9, 2, 32, 0, 1, 1, 0, 0x80, 50], [9, 4, 0, 0, 1, 3, 1, 1, 0]] = some 0 ∧
    readEndpoint [7, 5, 0x81, 3, 8, 0, 0] = some ⟨0x81, 3, 8, 0⟩ ∧
    parseHidKeyboardConfiguration zeroIntervalConfiguration = some (.ok ⟨1, 0, 0x82, 8, 10⟩) := by
  decide +kernel

end BraneKernel
