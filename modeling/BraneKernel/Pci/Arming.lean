import BraneKernel.Pci.Vectors

namespace BraneKernel

open PciVectorRegistry

/-- The only error that ends the loop over the mechanisms is not among those of `x`. -/
def Recoverable {α : Type} (x : Except InterruptProgrammingError α) : Prop :=
  ∀ e, x = .error e → e ≠ .rollbackFailed

namespace Recoverable

variable {α β : Type} {x : Except InterruptProgrammingError α} {e : InterruptProgrammingError}

theorem error (he : e ≠ .rollbackFailed) : Recoverable (.error e : Except _ α) := by
  intro e' h
  cases h
  exact he

theorem ok (a : α) : Recoverable (.ok a) := nofun

theorem bind {f : α → Except InterruptProgrammingError β} (hx : Recoverable x)
    (hf : ∀ a, Recoverable (f a)) : Recoverable (x >>= f) := by
  cases x with
  | error e => exact error (hx e rfl)
  | ok a => exact hf a

theorem elim (he : e ≠ .rollbackFailed) (value : Option α) :
    Recoverable (value.elim (.error e) .ok) := by
  cases value with
  | none => exact error he
  | some a => exact ok a

theorem ite {y : Except InterruptProgrammingError α} (p : Prop) [Decidable p]
    (hx : Recoverable x) (hy : Recoverable y) : Recoverable (if p then x else y) := by
  split_ifs
  · exact hx
  · exact hy

end Recoverable

theorem recoverable_entryAddress (device : PciDevice) (mapping : MmioMapping)
    (cap : MsixCapability) : Recoverable (entryAddress device mapping cap) := by
  unfold entryAddress
  refine .ite _ (.error (by decide)) (.bind (.elim (by decide) _) fun table ↦ ?_)
  refine .bind (.elim (by decide) _) fun pba ↦ .ite _ (.error (by decide)) ?_
  refine .bind (.elim (by decide) _) fun tableEnd ↦ .bind (.elim (by decide) _) fun pbaEnd ↦ ?_
  exact .ite _ (.error (by decide)) (.elim (by decide) _)

theorem setWidth_enabled {control : U32} {i : ℕ} (hi : i < 16) :
    control.setWidth 16 &&& 1#16 <<< i ≠ 0 ↔ control.getLsbD i = true := by
  rw [Bits.and_mask_ne_zero_iff _ hi, BitVec.getLsbD_setWidth, decide_eq_true hi, Bool.true_and]

namespace OfferedCapabilities

variable {offered : OfferedCapabilities}

def Has (offered : OfferedCapabilities) : PciInterruptMode → Prop
  | .msix => offered.msix.isSome
  | .msi => offered.msi.isSome
  | .polling => False

theorem mem_candidates {device : PciDevice} {mmio : MmioMapping} {c : InterruptCandidate}
    (h : c ∈ offered.candidates device mmio) : offered.Has c.1 ∧
      ((∃ layout, c.2 = .ok layout ∧ layout.msix = (c.1 == .msix)) ∨
        ∃ e, c.2 = .error e ∧ e ≠ .rollbackFailed) := by
  rcases List.mem_append.mp h with h | h
  · obtain ⟨cap, hcap, rfl⟩ := Option.map_eq_some_iff.mp (Option.mem_toList.mp h)
    refine ⟨Option.isSome_of_eq_some hcap, ?_⟩
    dsimp only
    cases hentry : entryAddress device mmio cap with
    | error e => exact .inr ⟨e, rfl, recoverable_entryAddress device mmio cap e hentry⟩
    | ok table => exact .inl ⟨_, rfl, rfl⟩
  · obtain ⟨cap, hcap, rfl⟩ := Option.map_eq_some_iff.mp (Option.mem_toList.mp h)
    exact ⟨Option.isSome_of_eq_some hcap, .inl ⟨_, rfl, rfl⟩⟩

theorem ordered_candidates (offered : OfferedCapabilities) (device : PciDevice)
    (mmio : MmioMapping) : PciVectors.Ordered (offered.candidates device mmio) where
  layouts := by
    intro mode layout h
    obtain ⟨-, ⟨_, ⟨⟩, hlayout⟩ | ⟨_, ⟨⟩, -⟩⟩ := mem_candidates h
    exact hlayout
  errors := by
    intro mode e h
    obtain ⟨-, ⟨_, ⟨⟩, -⟩ | ⟨_, ⟨⟩, he⟩⟩ := mem_candidates h
    exact he
  order := by
    obtain ⟨msix, msi⟩ := offered
    cases msix <;> cases msi <;> simp [candidates]
  devices := by
    intro c h hpolling
    have hhas := (mem_candidates h).1
    rw [hpolling] at hhas
    exact hhas

end OfferedCapabilities

namespace PciVectors

variable {s s' : PciVectors} {config : Bytes} {device : PciDevice} {vector destination : BitVec 8}
  {result : Except InterruptProgrammingError PciInterruptMode}

/-- The control words of a configuration space that was read are those of the registers. -/
def Shows (s : PciVectors) (address : PciAddress) (config : Bytes) : Prop :=
  ∀ offered, offeredCapabilities config = .ok offered →
    (∀ cap, offered.msix = some cap → controlAt config cap.offset =
      ((s.hardware address .msix).stored .control).setWidth 16) ∧
    ∀ cap, offered.msi = some cap → controlAt config cap.offset =
      ((s.hardware address .msi).stored .control).setWidth 16

theorem Shows.quiet {offered : OfferedCapabilities} {address : PciAddress} {mode : PciInterruptMode}
    (h : s.Shows address config) (hoffered : offeredCapabilities config = .ok offered)
    (hquiet : offered.alreadyEnabled config = false) (hhas : offered.Has mode) :
    ¬ s.Live address mode := by
  obtain ⟨hmsix, hmsi⟩ := h offered hoffered
  rw [OfferedCapabilities.alreadyEnabled, Bool.or_eq_false_iff] at hquiet
  unfold Live
  rw [InterruptLayout.enabled_iff]
  cases mode with
  | msix =>
    obtain ⟨cap, hcap⟩ := Option.isSome_iff_exists.mp hhas
    have hclear := hquiet.1
    rw [hcap, Option.any_some, hmsix cap hcap, decide_eq_false_iff_not,
      setWidth_enabled (by decide)] at hclear
    exact hclear
  | msi =>
    obtain ⟨cap, hcap⟩ := Option.isSome_iff_exists.mp hhas
    have hclear := hquiet.2
    rw [hcap, Option.any_some, hmsi cap hcap, decide_eq_false_iff_not] at hclear
    exact fun hbit ↦ hclear ((setWidth_enabled (by decide)).mpr hbit)
  | polling => exact hhas.elim

/-- What a call may do to the registry and to the mechanisms of the device. -/
structure Arms (s : PciVectors) (config : Bytes) (device : PciDevice)
    (vector destination : BitVec 8) (s' : PciVectors)
    (result : Except InterruptProgrammingError PciInterruptMode) : Prop where
  armed : ∀ mode, result = .ok mode → s.owners.owner vector = .ok none ∧
    s'.owners.owner vector = .ok (some ⟨device.address, mode, destination, .armed⟩) ∧
    s'.Live device.address mode ∧
    ∃ offered, offeredCapabilities config = .ok offered ∧ offered.Has mode ∧
      ∀ other, other ≠ mode → offered.Has other → ¬ s'.Live device.address other
  undone : ∀ e, result = .error e → e ≠ .rollbackFailed → s'.owners = s.owners
  kept : result = .error .rollbackFailed → s.owners.owner vector = .ok none ∧
    ∃ mode, mode ≠ .polling ∧
      s'.owners.owner vector = .ok (some ⟨device.address, mode, destination, .failed⟩) ∧
      (mode = .msix → s'.hardware device.address .msi = s.hardware device.address .msi)
  keeps : ∀ v o, s.owners.owner v = .ok (some o) → s'.owners.owner v = .ok (some o)
  others : ∀ a, a ≠ device.address → s'.hardware a = s.hardware a

theorem Arms.refused {e : InterruptProgrammingError} (he : e ≠ .rollbackFailed) :
    Arms s config device vector destination s (.error e) where
  armed := nofun
  undone := fun _ _ _ ↦ rfl
  kept := fun h ↦ absurd (Except.error.inj h) he
  keeps := fun _ _ h ↦ h
  others := fun _ _ ↦ rfl

theorem recoverable_offeredCapabilities (config : Bytes) :
    Recoverable (offeredCapabilities config) := by
  have hinvalid {α : Type} (x : Except CapabilityError α) : Recoverable (invalid x) := by
    cases x with
    | ok a => exact .ok a
    | error e => exact .error (by decide)
  refine .bind (hinvalid _) fun capabilities ↦ .bind (hinvalid _) fun msix ↦ ?_
  exact .bind (hinvalid _) fun msi ↦ .ok _

theorem owner_take {i : Fin pciVectorCount} {address : PciAddress} {mode : PciInterruptMode}
    {state : PciVectorState} (hfree : s.owners i = none) {v : BitVec 8} {o : PciVectorOwner}
    (h : s.owners.owner v = .ok (some o)) :
    (s.take i address mode destination state).owner v = .ok (some o) := by
  cases hv : index v with
  | error e =>
    rw [owner, hv] at h
    cases h
  | ok j =>
    rw [owner_eq hv] at h ⊢
    have hne : j ≠ i := by
      rintro rfl
      rw [hfree] at h
      cases h
    rwa [take, Function.update_of_ne hne]

theorem arms_effect {i : Fin pciVectorCount} {offered : OfferedCapabilities} {mmio : MmioMapping}
    (hi : index vector = .ok i) (hoffered : offeredCapabilities config = .ok offered)
    (hquiet : offered.alreadyEnabled config = false) (hshows : s.Shows device.address config)
    (h : Effect s i device.address destination (offered.candidates device mmio) s' result) :
    Arms s config device vector destination s' result where
  armed mode hmode := by
    obtain ⟨hfree, howners, hlive, hmem, hother⟩ := h.armed mode hmode
    obtain ⟨c, hc, rfl⟩ := List.mem_map.mp hmem
    rw [owner_eq hi, owner_eq hi, hfree, howners, take,
      Function.update_self]
    refine ⟨rfl, rfl, hlive, offered, hoffered, (OfferedCapabilities.mem_candidates hc).1, ?_⟩
    exact fun other hne hhas ↦ hother other hne (hshows.quiet hoffered hquiet hhas)
  undone := h.undone
  kept hkept := by
    obtain ⟨mode, hmem, hfree, howners, hlast⟩ := h.kept hkept
    obtain ⟨c, hc, rfl⟩ := List.mem_map.mp hmem
    rw [owner_eq hi, owner_eq hi, hfree, howners, take]
    refine ⟨rfl, c.1, (offered.ordered_candidates device mmio).devices c hc, ?_, hlast⟩
    rw [Function.update_self]
  keeps v o hv := by
    cases result with
    | ok mode =>
      obtain ⟨hfree, howners, -⟩ := h.armed mode rfl
      rw [howners]
      exact owner_take hfree hv
    | error e =>
      by_cases he : e = .rollbackFailed
      · obtain ⟨mode, -, hfree, howners, -⟩ := h.kept (congrArg Except.error he)
        rw [howners]
        exact owner_take hfree hv
      · rwa [h.undone e rfl he]
  others := h.others

theorem arms_armInterruptsForDevice (hshows : s.Shows device.address config)
    (inventory : PciInventory) (mmio : MmioMapping) (vector destination : BitVec 8) :
    ∃ r, s.armInterruptsForDevice inventory config device mmio vector destination = some r ∧
      Arms s config device vector destination r.1 r.2 := by
  unfold armInterruptsForDevice
  cases hmessage : apicMsiMessage vector destination with
  | none => exact ⟨_, rfl, .refused (by decide)⟩
  | some message =>
    dsimp only
    by_cases hfind : inventory.devices.find? (·.address == device.address) ≠ some device
    · rw [if_pos hfind]
      exact ⟨_, rfl, .refused (by decide)⟩
    rw [if_neg hfind]
    cases hoffered : offeredCapabilities config with
    | error e => exact ⟨_, rfl, .refused (recoverable_offeredCapabilities config e hoffered)⟩
    | ok offered =>
      dsimp only
      cases hquiet : offered.alreadyEnabled config with
      | true => exact ⟨_, rfl, .refused (by decide)⟩
      | false =>
        obtain ⟨i, hi⟩ := index_of_message hmessage
        obtain ⟨r, hr, heffect⟩ := effect_tryModes (offered.ordered_candidates device mmio) hi s
          device.address destination message .invalidCapability (by decide)
        exact ⟨r, hr, arms_effect hi hoffered hquiet hshows heffect⟩

end PciVectors

inductive VectorEvent
  | arm (inventory : PciInventory) (config : Bytes) (device : PciDevice) (mmio : MmioMapping)
      (vector destination : BitVec 8)
      (result : Except InterruptProgrammingError PciInterruptMode)
  | hardware (registers : PciAddress → PciInterruptMode → InterruptIo)

def VectorEvent.taken : VectorEvent → Option (BitVec 8)
  | .arm _ _ _ _ vector _ (.ok _) => some vector
  | .arm _ _ _ _ vector _ (.error e) => if e = .rollbackFailed then some vector else none
  | .hardware _ => none

namespace PciVectors

variable {s s' : PciVectors} {config : Bytes} {device : PciDevice} {vector destination : BitVec 8}
  {result : Except InterruptProgrammingError PciInterruptMode}

def Step (s : PciVectors) : VectorEvent → PciVectors → Prop
  | .arm inventory config device mmio vector destination result, s' =>
    s.Shows device.address config ∧
      s.armInterruptsForDevice inventory config device mmio vector destination = some (s', result)
  | .hardware registers, s' => s' = { s with hardware := registers }

/-- The registry remembers every call that took a vector, and no vector was taken twice. -/
structure Remembers (events : List VectorEvent) (s : PciVectors) : Prop where
  armed : ∀ inventory config device mmio vector destination mode,
    .arm inventory config device mmio vector destination (.ok mode) ∈ events →
      s.owners.owner vector = .ok (some ⟨device.address, mode, destination, .armed⟩)
  failed : ∀ inventory config device mmio vector destination,
    .arm inventory config device mmio vector destination (.error .rollbackFailed) ∈ events →
      ∃ mode, s.owners.owner vector = .ok (some ⟨device.address, mode, destination, .failed⟩)
  once : events.Pairwise fun e e' ↦ ∀ v, e.taken = some v → e'.taken ≠ some v

variable {events : List VectorEvent} {v : BitVec 8}

theorem VectorEvent.taken_arm {inventory : PciInventory} {mmio : MmioMapping}
    (h : (VectorEvent.arm inventory config device mmio v destination result).taken = some vector) :
    v = vector ∧ ((∃ mode, result = .ok mode) ∨ result = .error .rollbackFailed) := by
  cases result with
  | ok mode => exact ⟨Option.some.inj h, .inl ⟨mode, rfl⟩⟩
  | error e =>
    rw [VectorEvent.taken, Option.ite_none_right_eq_some] at h
    exact ⟨Option.some.inj h.2, .inr (congrArg _ h.1)⟩

theorem Remembers.owner (h : Remembers events s) {e : VectorEvent} (he : e ∈ events)
    (htaken : e.taken = some vector) : ∃ o, s.owners.owner vector = .ok (some o) := by
  cases e with
  | hardware registers => cases htaken
  | arm inventory config device mmio v destination result =>
    obtain ⟨rfl, ⟨mode, rfl⟩ | rfl⟩ := VectorEvent.taken_arm htaken
    · exact ⟨_, h.armed inventory config device mmio _ destination mode he⟩
    · obtain ⟨mode, howner⟩ := h.failed inventory config device mmio _ destination he
      exact ⟨_, howner⟩

theorem Remembers.arm (h : Remembers events s) (inventory : PciInventory) (mmio : MmioMapping)
    (harms : Arms s config device vector destination s' result) :
    Remembers (events ++ [.arm inventory config device mmio vector destination result]) s' where
  armed := by
    intro inventory config device mmio v destination mode hmem
    rcases List.mem_append.mp hmem with hmem | hmem
    · exact harms.keeps v _ (h.armed inventory config device mmio v destination mode hmem)
    · cases List.mem_singleton.mp hmem
      exact (harms.armed mode rfl).2.1
  failed := by
    intro inventory config device mmio v destination hmem
    rcases List.mem_append.mp hmem with hmem | hmem
    · obtain ⟨mode, howner⟩ := h.failed inventory config device mmio v destination hmem
      exact ⟨mode, harms.keeps v _ howner⟩
    · cases List.mem_singleton.mp hmem
      obtain ⟨-, mode, -, howner, -⟩ := harms.kept rfl
      exact ⟨mode, howner⟩
  once := by
    refine List.pairwise_append.mpr ⟨h.once, List.pairwise_singleton _ _, ?_⟩
    intro e he e' he' v hv hv'
    cases List.mem_singleton.mp he'
    obtain ⟨o, howner⟩ := h.owner he hv
    obtain ⟨rfl, ⟨mode, rfl⟩ | rfl⟩ := VectorEvent.taken_arm hv'
    · cases (harms.armed mode rfl).1.symm.trans howner
    · cases (harms.kept rfl).1.symm.trans howner

theorem remembers_step {e : VectorEvent} (h : Remembers events s) (hstep : s.Step e s') :
    Remembers (events ++ [e]) s' := by
  cases e with
  | arm inventory config device mmio vector destination result =>
    obtain ⟨hshows, hcall⟩ := hstep
    obtain ⟨r, hr, harms⟩ := arms_armInterruptsForDevice hshows inventory mmio vector destination
    cases hcall.symm.trans hr
    exact h.arm inventory mmio harms
  | hardware registers =>
    cases hstep
    have hold {e : VectorEvent} (he : e ∈ events ++ [.hardware registers])
        (hne : e ≠ .hardware registers) : e ∈ events := by
      rcases List.mem_append.mp he with he | he
      · exact he
      · exact absurd (List.mem_singleton.mp he) hne
    refine ⟨fun inventory config device mmio v destination mode hmem ↦ ?_,
      fun inventory config device mmio v destination hmem ↦ ?_, ?_⟩
    · exact h.armed inventory config device mmio v destination mode (hold hmem nofun)
    · exact h.failed inventory config device mmio v destination (hold hmem nofun)
    · refine List.pairwise_append.mpr ⟨h.once, List.pairwise_singleton _ _, ?_⟩
      intro e _ e' he' v _ hv'
      cases List.mem_singleton.mp he'
      cases hv'

/-- A vector has one owner, whatever is asked for and however the programming ends. -/
theorem vectors_have_one_owner {hardware : PciAddress → PciInterruptMode → InterruptIo}
    {events : List VectorEvent} (h : Trace.Run Step ⟨.new, hardware⟩ events s) :
    Remembers events s ∧
    ∀ inventory config device mmio vector destination, s.Shows device.address config →
      ∃ s' result,
        s.armInterruptsForDevice inventory config device mmio vector destination =
          some (s', result) ∧
        Arms s config device vector destination s' result := by
  constructor
  · exact h.history ⟨by simp, by simp, .nil⟩ fun _ _ _ _ ↦ remembers_step
  · intro inventory config device mmio vector destination hshows
    obtain ⟨r, hr, harms⟩ := arms_armInterruptsForDevice hshows inventory mmio vector destination
    exact ⟨r.1, r.2, hr, harms⟩

def msiConfig : Bytes :=
  List.replicate 6 0 ++ [0x10, 0] ++ List.replicate 44 0 ++ [0x50] ++ List.replicate 27 0 ++
    [0x05, 0, 0, 0] ++ List.replicate 172 0

def msiDevice (device : BitVec 8) : PciDevice :=
  { address := ⟨0, device, 0⟩, vendorId := 0x1B36, deviceId := 0x000D, command := 0
    status := 0x10, revisionId := 0, programmingInterface := 0x30, subclass := 0x03
    classCode := 0x0C, headerType := 0, multifunction := false, subsystemVendorId := 0
    subsystemId := 0, bars := ⟨[.unused, .unused, .unused, .unused, .unused, .unused], rfl⟩
    barSizes := ⟨[0, 0, 0, 0, 0, 0], rfl⟩, interruptLine := 0
    interruptPin := 1, secondaryBus := none }

def twoMsiDevices : PciInventory := ⟨[msiDevice 1, msiDevice 2], false, 1⟩

def quietRegisters : PciAddress → PciInterruptMode → InterruptIo :=
  fun _ _ ↦ ⟨fun _ ↦ 0, fun _ ↦ false, []⟩

theorem shows_quiet {address : PciAddress} (h : s.hardware address = quietRegisters address) :
    s.Shows address msiConfig := by
  have hoffered : offeredCapabilities msiConfig = .ok ⟨none, some ⟨0x50, false, false, 0⟩⟩ := by
    decide +kernel
  have hcontrol : controlAt msiConfig 0x50 = 0 := by decide +kernel
  intro offered hok
  cases hoffered.symm.trans hok
  refine ⟨nofun, fun cap hcap ↦ ?_⟩
  cases hcap
  rw [h]
  exact hcontrol

theorem vectors_have_one_owner_refused :
    ∃ s, Trace.Run Step ⟨.new, quietRegisters⟩
      [.arm twoMsiDevices msiConfig (msiDevice 1) ⟨0, 0, 0, 0, 0, 0⟩ 0x40 0 (.ok .msi),
        .arm twoMsiDevices msiConfig (msiDevice 2) ⟨0, 0, 0, 0, 0, 0⟩ 0x40 1
          (.error .invalidCapability)] s ∧
      s.owners.owner 0x40 = .ok (some ⟨(msiDevice 1).address, .msi, 0, .armed⟩) := by
  have hfirst : ((⟨.new, quietRegisters⟩ : PciVectors).armInterruptsForDevice twoMsiDevices msiConfig
      (msiDevice 1) ⟨0, 0, 0, 0, 0, 0⟩ 0x40 0).map Prod.snd = some (.ok .msi) := by decide +kernel
  have hboth : (((⟨.new, quietRegisters⟩ : PciVectors).armInterruptsForDevice twoMsiDevices msiConfig
      (msiDevice 1) ⟨0, 0, 0, 0, 0, 0⟩ 0x40 0).bind fun r ↦ (r.1.armInterruptsForDevice twoMsiDevices
        msiConfig (msiDevice 2) ⟨0, 0, 0, 0, 0, 0⟩ 0x40 1).map Prod.snd) =
      some (.error .invalidCapability) := by decide +kernel
  obtain ⟨⟨s₁, r₁⟩, h₁, hr₁⟩ := Option.map_eq_some_iff.mp hfirst
  rw [h₁, Option.bind_some] at hboth
  obtain ⟨⟨s₂, r₂⟩, h₂, hr₂⟩ := Option.map_eq_some_iff.mp hboth
  cases hr₁
  cases hr₂
  have hshows : Shows ⟨.new, quietRegisters⟩ (msiDevice 1).address msiConfig := shows_quiet rfl
  have hshows₁ : s₁.Shows (msiDevice 2).address msiConfig := by
    obtain ⟨r, hr, harms⟩ := arms_armInterruptsForDevice hshows twoMsiDevices ⟨0, 0, 0, 0, 0, 0⟩ 0x40 0
    cases h₁.symm.trans hr
    exact shows_quiet (harms.others _ (by decide))
  have hrun : Trace.Run Step ⟨.new, quietRegisters⟩
      [.arm twoMsiDevices msiConfig (msiDevice 1) ⟨0, 0, 0, 0, 0, 0⟩ 0x40 0 (.ok .msi),
        .arm twoMsiDevices msiConfig (msiDevice 2) ⟨0, 0, 0, 0, 0, 0⟩ 0x40 1
          (.error .invalidCapability)] s₂ :=
    .cons ⟨hshows, h₁⟩ (.cons ⟨hshows₁, h₂⟩ .nil)
  exact ⟨s₂, hrun, (vectors_have_one_owner hrun).1.armed _ _ _ _ _ _ _ List.mem_cons_self⟩

end PciVectors

end BraneKernel
