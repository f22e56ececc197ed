import BraneKernel.Pci.Capabilities
import BraneKernel.Pci.Enumeration

namespace BraneKernel

def apicMsiMessage (vector destinationApicId : BitVec 8) : Option ApicMsiMessage :=
  if vector < 0x40 ∨ 0x4F < vector then none
  else some ⟨0xFEE00000 ||| destinationApicId.setWidth 32 <<< 12, vector.setWidth 16⟩

def pciVectorFirst : BitVec 8 := 0x40
def pciVectorLast : BitVec 8 := 0x4F
def pciVectorCount : ℕ := 16

inductive PciInterruptMode
  | msix | msi | polling
  deriving DecidableEq

inductive PciVectorState
  | free | reserved | armed | masked | failed
  deriving DecidableEq

structure PciVectorOwner where
  address : PciAddress
  mode : PciInterruptMode
  destinationApicId : BitVec 8
  state : PciVectorState
  deriving DecidableEq

inductive PciVectorError
  | invalidVector | alreadyOwned | notOwned | invalidTransition
  deriving DecidableEq

def PciVectorState.canBecome : PciVectorState → PciVectorState → Bool
  | .reserved, .armed | .reserved, .masked | .reserved, .failed => true
  | .armed, .masked | .masked, .armed | .armed, .failed | .masked, .failed => true
  | _, _ => false

abbrev PciVectorRegistry := Fin pciVectorCount → Option PciVectorOwner

namespace PciVectorRegistry

def new : PciVectorRegistry := fun _ ↦ none

theorem sub_first_lt {vector : BitVec 8} (h : ¬(vector < pciVectorFirst ∨ pciVectorLast < vector)) :
    (vector - pciVectorFirst).toNat < pciVectorCount := by
  simp only [pciVectorCount, pciVectorFirst, pciVectorLast, not_or, BitVec.not_lt] at h ⊢
  bv_omega

def index (vector : BitVec 8) : Except PciVectorError (Fin pciVectorCount) :=
  if h : vector < pciVectorFirst ∨ pciVectorLast < vector then .error .invalidVector
  else .ok ⟨(vector - pciVectorFirst).toNat, sub_first_lt h⟩

variable (owners : PciVectorRegistry)

def owner (vector : BitVec 8) : Except PciVectorError (Option PciVectorOwner) :=
  (index vector).map owners

def reserve (vector : BitVec 8) (address : PciAddress) (mode : PciInterruptMode)
    (destinationApicId : BitVec 8) :
    Except PciVectorError PciVectorRegistry := do
  let i ← index vector
  if (owners i).isSome then .error .alreadyOwned
  else .ok (Function.update owners i (some ⟨address, mode, destinationApicId, .reserved⟩))

def transition (vector : BitVec 8) (state : PciVectorState) :
    Except PciVectorError PciVectorRegistry := do
  let i ← index vector
  match owners i with
  | none => .error .notOwned
  | some owner =>
    if owner.state.canBecome state then
      .ok (Function.update owners i (some { owner with state := state }))
    else .error .invalidTransition

def releaseFailed (vector : BitVec 8) :
    Except PciVectorError PciVectorRegistry := do
  let i ← index vector
  if (owners i).any (·.state == .failed) then .ok (Function.update owners i none)
  else .error .invalidTransition

end PciVectorRegistry

structure PciVectors where
  owners : PciVectorRegistry
  hardware : PciAddress → PciInterruptMode → InterruptIo

inductive Trial
  | armed
  | stop (e : InterruptProgrammingError)
  | next (e : InterruptProgrammingError)
  deriving DecidableEq

structure OfferedCapabilities where
  msix : Option MsixCapability
  msi : Option MsiCapability
  deriving DecidableEq

def invalid {α : Type} : Except CapabilityError α → Except InterruptProgrammingError α
  | .ok a => .ok a
  | .error _ => .error .invalidCapability

abbrev InterruptCandidate := PciInterruptMode × Except InterruptProgrammingError InterruptLayout

def offeredCapabilities (config : Bytes) :
    Except InterruptProgrammingError OfferedCapabilities := do
  let caps ← invalid (walkCapabilities config)
  let msix ← invalid ((findCapability caps 0x11).mapM (decodeMsix config))
  let msi ← invalid ((findCapability caps 0x05).mapM (decodeMsi config))
  .ok ⟨msix, msi⟩

namespace OfferedCapabilities

def alreadyEnabled (offered : OfferedCapabilities) (config : Bytes) : Bool :=
  offered.msix.any (fun cap ↦ controlAt config cap.offset &&& 1#16 <<< 15 ≠ 0) ||
    offered.msi.any fun cap ↦ controlAt config cap.offset &&& 1 ≠ 0

/-- The mechanisms in the order in which they are tried. A table of MSI-X that
cannot be reached is passed over with its error. -/
def candidates (offered : OfferedCapabilities) (device : PciDevice) (mmio : MmioMapping) :
    List InterruptCandidate :=
  (offered.msix.map fun cap ↦
    (.msix, (entryAddress device mmio cap).map fun _ ↦ ⟨true, true, true⟩)).toList ++
  (offered.msi.map fun cap ↦ (.msi, .ok ⟨false, cap.is64Bit, cap.perVectorMasking⟩)).toList

end OfferedCapabilities

namespace PciVectors

def put (s : PciVectors) (address : PciAddress) (mode : PciInterruptMode) (io : InterruptIo) :
    PciAddress → PciInterruptMode → InterruptIo :=
  Function.update s.hardware address (Function.update (s.hardware address) mode io)

/-- One round of the loop over the mechanisms. There is no result where the code
unwraps an error of the registry. -/
def tryMode (s : PciVectors) (address : PciAddress) (vector destination : BitVec 8)
    (message : ApicMsiMessage) (mode : PciInterruptMode) (layout : InterruptLayout) :
    Option (PciVectors × Trial) :=
  match s.owners.reserve vector address mode destination with
  | .error _ => some (s, .stop .invalidCapability)
  | .ok owners =>
    match (s.hardware address mode).program layout message with
    | (io, .ok ()) => do
      let owners ← (owners.transition vector .armed).toOption
      some (⟨owners, s.put address mode io⟩, .armed)
    | (io, .error e) => do
      let owners ← (owners.transition vector .failed).toOption
      if e = .rollbackFailed then some (⟨owners, s.put address mode io⟩, .stop e)
      else
        let owners ← (owners.releaseFailed vector).toOption
        some (⟨owners, s.put address mode io⟩, .next e)

def tryModes (s : PciVectors) (address : PciAddress) (vector destination : BitVec 8)
    (message : ApicMsiMessage) (lastError : InterruptProgrammingError) :
    List InterruptCandidate →
      Option (PciVectors × Except InterruptProgrammingError PciInterruptMode)
  | [] => some (s, .error lastError)
  | (_, .error e) :: rest => s.tryModes address vector destination message e rest
  | (mode, .ok layout) :: rest =>
    match s.tryMode address vector destination message mode layout with
    | none => none
    | some (s, .armed) => some (s, .ok mode)
    | some (s, .stop e) => some (s, .error e)
    | some (s, .next e) => s.tryModes address vector destination message e rest

def armInterruptsForDevice (s : PciVectors) (inventory : PciInventory) (config : Bytes)
    (device : PciDevice) (mmio : MmioMapping) (vector destination : BitVec 8) :
    Option (PciVectors × Except InterruptProgrammingError PciInterruptMode) :=
  match apicMsiMessage vector destination with
  | none => some (s, .error .invalidCapability)
  | some message =>
    if inventory.devices.find? (·.address == device.address) ≠ some device then
      some (s, .error .invalidCapability)
    else
      match offeredCapabilities config with
      | .error e => some (s, .error e)
      | .ok offered =>
        if offered.alreadyEnabled config then some (s, .error .alreadyEnabled)
        else
          s.tryModes device.address vector destination message .invalidCapability
            (offered.candidates device mmio)

end PciVectors

namespace PciVectorRegistry

variable {owners : PciVectorRegistry} {vector : BitVec 8} {i : Fin pciVectorCount}

theorem index_of_message {destination : BitVec 8} {message : ApicMsiMessage}
    (h : apicMsiMessage vector destination = some message) : ∃ i, index vector = .ok i := by
  unfold apicMsiMessage at h
  split_ifs at h with hrange
  exact ⟨_, dif_neg hrange⟩

theorem owner_eq (h : index vector = .ok i) : owners.owner vector = .ok (owners i) := by
  rw [owner, h]
  rfl

theorem transition_update (h : index vector = .ok i) {o : PciVectorOwner} {state : PciVectorState}
    (hstate : o.state.canBecome state = true) :
    transition (Function.update owners i (some o)) vector state =
      .ok (Function.update owners i (some { o with state := state })) := by
  rw [transition, h]
  simp only [bind, Except.bind, Function.update_self, hstate, Function.update_idem]
  rfl

theorem releaseFailed_update (h : index vector = .ok i) {o : PciVectorOwner}
    (hstate : o.state = .failed) (hfree : owners i = none) :
    releaseFailed (Function.update owners i (some o)) vector = .ok owners := by
  rw [releaseFailed, h]
  simp only [bind, Except.bind, Function.update_self, Option.any_some, hstate, beq_self_eq_true,
    Function.update_idem]
  rw [← hfree, Function.update_eq_self]
  rfl

end PciVectorRegistry

namespace PciVectors

variable {s s' : PciVectors} {address : PciAddress} {vector destination : BitVec 8}
  {message : ApicMsiMessage} {mode : PciInterruptMode} {layout : InterruptLayout}
  {i : Fin pciVectorCount}

def take (s : PciVectors) (i : Fin pciVectorCount) (address : PciAddress) (mode : PciInterruptMode)
    (destination : BitVec 8) (state : PciVectorState) : PciVectorRegistry :=
  Function.update s.owners i (some ⟨address, mode, destination, state⟩)

inductive Tried (s : PciVectors) (i : Fin pciVectorCount) (address : PciAddress)
    (destination : BitVec 8) (message : ApicMsiMessage) (mode : PciInterruptMode)
    (layout : InterruptLayout) : PciVectors → Trial → Prop
  | owned : (s.owners i).isSome →
      Tried s i address destination message mode layout s (.stop .invalidCapability)
  | armed {io : InterruptIo} : s.owners i = none →
      (s.hardware address mode).program layout message = (io, .ok ()) →
      Tried s i address destination message mode layout
        ⟨s.take i address mode destination .armed, s.put address mode io⟩ .armed
  | kept {io : InterruptIo} : s.owners i = none →
      (s.hardware address mode).program layout message = (io, .error .rollbackFailed) →
      Tried s i address destination message mode layout
        ⟨s.take i address mode destination .failed, s.put address mode io⟩ (.stop .rollbackFailed)
  | undone {io : InterruptIo} {e : InterruptProgrammingError} : s.owners i = none →
      e ≠ .rollbackFailed → (s.hardware address mode).program layout message = (io, .error e) →
      Tried s i address destination message mode layout ⟨s.owners, s.put address mode io⟩ (.next e)

theorem tryMode_tried (s : PciVectors) (address : PciAddress) (destination : BitVec 8)
    (message : ApicMsiMessage) (mode : PciInterruptMode) (layout : InterruptLayout)
    (hi : PciVectorRegistry.index vector = .ok i) :
    ∃ r, s.tryMode address vector destination message mode layout = some r ∧
      Tried s i address destination message mode layout r.1 r.2 := by
  unfold tryMode PciVectorRegistry.reserve
  rw [hi]
  dsimp only [bind, Except.bind]
  cases hfree : s.owners i with
  | some o => exact ⟨_, rfl, .owned (by rw [hfree]; rfl)⟩
  | none =>
    rw [if_neg (by decide)]
    rcases hprogram : (s.hardware address mode).program layout message with ⟨io, result⟩
    cases result with
    | ok done =>
      dsimp only
      rw [PciVectorRegistry.transition_update hi rfl]
      exact ⟨_, rfl, .armed hfree hprogram⟩
    | error e =>
      dsimp only
      rw [PciVectorRegistry.transition_update hi rfl]
      by_cases he : e = .rollbackFailed
      · subst he
        exact ⟨_, rfl, .kept hfree hprogram⟩
      · dsimp only [Except.toOption, bind, Option.bind]
        rw [if_neg he, PciVectorRegistry.releaseFailed_update hi rfl hfree]
        exact ⟨_, rfl, .undone hfree he hprogram⟩

@[simp] theorem put_self (s : PciVectors) (address : PciAddress) (mode : PciInterruptMode)
    (io : InterruptIo) : s.put address mode io address mode = io := by
  simp only [put, Function.update_self]

theorem put_mode (s : PciVectors) (address : PciAddress) (io : InterruptIo)
    {other : PciInterruptMode} (h : other ≠ mode) :
    s.put address mode io address other = s.hardware address other := by
  simp only [put, Function.update_self, Function.update_of_ne h]

theorem put_address (s : PciVectors) (mode : PciInterruptMode) (io : InterruptIo)
    {other : PciAddress} (h : other ≠ address) :
    s.put address mode io other = s.hardware other := by
  simp only [put, Function.update_of_ne h]

def Live (s : PciVectors) (address : PciAddress) (mode : PciInterruptMode) : Prop :=
  InterruptLayout.Enabled ⟨mode == .msix, false, false⟩ ((s.hardware address mode).stored .control)

theorem live_iff (hlayout : layout.msix = (mode == .msix)) :
    s.Live address mode ↔ layout.Enabled ((s.hardware address mode).stored .control) := by
  unfold Live InterruptLayout.Enabled InterruptLayout.enableBit
  rw [hlayout]

theorem live_congr (h : s'.hardware address mode = s.hardware address mode) :
    s'.Live address mode ↔ s.Live address mode := by
  unfold Live
  rw [h]

theorem enabled_of_ok {io io' : InterruptIo} (h : io.program layout message = (io', .ok ())) :
    layout.Enabled (io'.stored .control) := by
  have houtcome := io.program_outcome layout message
  rw [h] at houtcome
  cases houtcome with
  | published hpublished => exact (InterruptIo.published_of_held hpublished).enabled

theorem disabled_of_error {io io' : InterruptIo} {e : InterruptProgrammingError}
    (h : io.program layout message = (io', .error e)) (he : e ≠ .rollbackFailed)
    (hdisabled : ¬ layout.Enabled (io.stored .control)) : ¬ layout.Enabled (io'.stored .control) := by
  have houtcome := io.program_outcome layout message
  rw [h] at houtcome
  generalize hresult : (Except.error e : Except InterruptProgrammingError Unit) = result at houtcome
  cases houtcome with
  | alreadyEnabled henabled => exact absurd henabled hdisabled
  | published => cases hresult
  | stuck => exact absurd (Except.error.inj hresult) he
  | @rolledBack _ _ held hpublication hquiet heach =>
    cases held with
    | false => exact absurd (Except.error.inj hresult) he
    | true => exact (InterruptIo.rolledBack_of_held (by rw [hpublication]) hquiet heach).disabled

/-- The mechanisms to try: each with its own layout, and MSI-X not after MSI. No
error among them is the one that stops the loop. -/
structure Ordered (candidates : List InterruptCandidate) : Prop where
  layouts : ∀ mode layout, (mode, .ok layout) ∈ candidates → layout.msix = (mode == .msix)
  errors : ∀ mode e, (mode, .error e) ∈ candidates → e ≠ .rollbackFailed
  order : candidates.Pairwise fun c d ↦ c.1 = .msi → d.1 ≠ .msix
  devices : ∀ c ∈ candidates, c.1 ≠ .polling

theorem Ordered.tail {c : InterruptCandidate} {rest : List InterruptCandidate}
    (h : Ordered (c :: rest)) : Ordered rest where
  layouts mode layout hmem := h.layouts mode layout (List.mem_cons_of_mem _ hmem)
  errors mode e hmem := h.errors mode e (List.mem_cons_of_mem _ hmem)
  order := (List.pairwise_cons.mp h.order).2
  devices c hmem := h.devices c (List.mem_cons_of_mem _ hmem)

structure Effect (s : PciVectors) (i : Fin pciVectorCount) (address : PciAddress)
    (destination : BitVec 8) (candidates : List InterruptCandidate) (s' : PciVectors)
    (result : Except InterruptProgrammingError PciInterruptMode) : Prop where
  others : ∀ a, a ≠ address → s'.hardware a = s.hardware a
  armed : ∀ mode, result = .ok mode →
    s.owners i = none ∧ s'.owners = s.take i address mode destination .armed ∧
      s'.Live address mode ∧ mode ∈ candidates.map Prod.fst ∧
        ∀ other, other ≠ mode → ¬ s.Live address other → ¬ s'.Live address other
  undone : ∀ e, result = .error e → e ≠ .rollbackFailed → s'.owners = s.owners
  kept : result = .error .rollbackFailed →
    ∃ mode ∈ candidates.map Prod.fst, s.owners i = none ∧
      s'.owners = s.take i address mode destination .failed ∧
        (mode = .msix → s'.hardware address .msi = s.hardware address .msi)

section Effect

variable {candidates : List InterruptCandidate}
  {result : Except InterruptProgrammingError PciInterruptMode}

theorem Effect.cons (h : Effect s i address destination candidates s' result)
    (c : InterruptCandidate) : Effect s i address destination (c :: candidates) s' result where
  others := h.others
  armed m hm := by
    obtain ⟨hfree, howners, hlive, hmem, hother⟩ := h.armed m hm
    exact ⟨hfree, howners, hlive, List.mem_cons_of_mem _ hmem, hother⟩
  undone := h.undone
  kept hkept := by
    obtain ⟨m, hmem, hrest⟩ := h.kept hkept
    exact ⟨m, List.mem_cons_of_mem _ hmem, hrest⟩

theorem Ordered.not_mem_tail {c : InterruptCandidate} (h : Ordered (c :: candidates))
    (hc : c.1 = .msi) : .msix ∉ candidates.map Prod.fst := by
  intro hmem
  obtain ⟨d, hd, hdm⟩ := List.mem_map.mp hmem
  exact (List.pairwise_cons.mp h.order).1 d hd hc hdm

theorem effect_tryModes (hordered : Ordered candidates)
    (hi : PciVectorRegistry.index vector = .ok i) (s : PciVectors) (address : PciAddress)
    (destination : BitVec 8) (message : ApicMsiMessage) (lastError : InterruptProgrammingError)
    (hlast : lastError ≠ .rollbackFailed) :
    ∃ r, s.tryModes address vector destination message lastError candidates = some r ∧
      Effect s i address destination candidates r.1 r.2 := by
  induction candidates generalizing s lastError with
  | nil =>
    exact ⟨_, rfl, fun _ _ ↦ rfl, nofun, fun _ _ _ ↦ rfl,
      fun h ↦ absurd (Except.error.inj h) hlast⟩
  | cons c rest ih =>
    obtain ⟨mode, tried⟩ := c
    cases tried with
    | error e =>
      obtain ⟨r, hr, heffect⟩ := ih hordered.tail s e (hordered.errors mode e List.mem_cons_self)
      exact ⟨r, hr, heffect.cons _⟩
    | ok layout =>
      have hlayout := hordered.layouts mode layout List.mem_cons_self
      obtain ⟨⟨s₁, trial⟩, hr, htried⟩ := tryMode_tried s address destination message mode layout hi
      unfold tryModes
      rw [hr]
      cases htried with
      | owned hsome =>
        exact ⟨_, rfl, fun _ _ ↦ rfl, nofun, fun _ _ _ ↦ rfl, nofun⟩
      | @armed io hfree hprogram =>
        refine ⟨_, rfl, fun a ha ↦ s.put_address mode io ha, fun m hm ↦ ?_, nofun, nofun⟩
        cases hm
        refine ⟨hfree, rfl, ?_, List.mem_cons_self, fun other hother hquiet ↦ ?_⟩
        · rw [live_iff hlayout]
          dsimp only
          rw [put_self]
          exact enabled_of_ok hprogram
        · rwa [live_congr (s.put_mode address io hother)]
      | @kept io hfree hprogram =>
        refine ⟨_, rfl, fun a ha ↦ s.put_address mode io ha, nofun, ?_, fun _ ↦ ?_⟩
        · intro e he hne
          cases he
          exact absurd rfl hne
        · refine ⟨mode, List.mem_cons_self, hfree, rfl, ?_⟩
          rintro rfl
          exact s.put_mode address io (by decide)
      | @undone io e hfree he hprogram =>
        obtain ⟨r, hrun, heffect⟩ := ih hordered.tail ⟨s.owners, s.put address mode io⟩ e he
        refine ⟨r, hrun, Effect.cons ⟨fun a ha ↦ (heffect.others a ha).trans (s.put_address mode io ha),
          fun m hm ↦ ?_, heffect.undone, fun hkept ↦ ?_⟩ _⟩
        · obtain ⟨hfree, howners, hlive, hmem, hother⟩ := heffect.armed m hm
          refine ⟨hfree, howners, hlive, hmem, fun other hne hquiet ↦ hother other hne ?_⟩
          by_cases hsame : other = mode
          · subst hsame
            rw [live_iff hlayout] at hquiet ⊢
            dsimp only
            rw [put_self]
            exact disabled_of_error hprogram he hquiet
          · rwa [live_congr (s.put_mode address io hsame)]
        · obtain ⟨m, hmem, hfree, howners, hlast⟩ := heffect.kept hkept
          refine ⟨m, hmem, hfree, howners, fun hm ↦ ?_⟩
          have hmode : PciInterruptMode.msi ≠ mode := fun h ↦ hordered.not_mem_tail h.symm (hm ▸ hmem)
          exact (hlast hm).trans (s.put_mode address io hmode)

end Effect

end PciVectors

end BraneKernel
