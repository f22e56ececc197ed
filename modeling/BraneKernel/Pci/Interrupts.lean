import BraneKernel.Basic
import BraneKernel.Lib.Bits
import BraneKernel.Lib.CheckedWrite

namespace BraneKernel

open CheckedWrite

open CheckedWrite (Touches)

inductive InterruptRegister
  | control | addressLow | addressHigh | data | mask
  deriving DecidableEq

structure InterruptLayout where
  msix : Bool
  addressHigh : Bool
  masking : Bool
  deriving DecidableEq

structure ApicMsiMessage where
  address : U32
  data : U16
  deriving DecidableEq

inductive InterruptProgrammingError
  | invalidCapability | invalidBar | tableOutsideBar | invalidEntry | alreadyEnabled
  | readbackFailed | rollbackFailed
  deriving DecidableEq

abbrev InterruptIo := CheckedWrite.File InterruptRegister U32

namespace InterruptLayout

variable (layout : InterruptLayout)

def enableBit : U32 := if layout.msix then 1#32 <<< 15 else 1#32 <<< 0

/-- The function mask is set for MSI-X. For MSI one message is selected and the
number of messages the device is capable of stays. -/
def disabled (control : U32) : U32 :=
  if layout.msix then (control ||| 1#32 <<< 14) &&& ~~~(1#32 <<< 15) else control &&& ~~~0x71

def enabled (control : U32) : U32 :=
  layout.disabled control ||| layout.enableBit

def quiet (control mask : U32) : List (InterruptRegister × U32) :=
  [(.control, layout.disabled control)] ++ if layout.masking then [(.mask, mask ||| 1#32 <<< 0)] else []

def payload (low high data : U32) : List (InterruptRegister × U32) :=
  [(.addressLow, low)] ++ (if layout.addressHigh then [(.addressHigh, high)] else []) ++ [(.data, data)]

def publish (control mask : U32) : List (InterruptRegister × U32) :=
  [(.control, layout.enabled control)] ++
    (if layout.masking then [(.mask, mask &&& ~~~(1#32 <<< 0))] else []) ++
    if layout.msix then [(.control, layout.enabled control &&& ~~~(1#32 <<< 14))] else []

def publication (message : ApicMsiMessage) (control mask : U32) : List (InterruptRegister × U32) :=
  layout.quiet control mask ++ layout.payload message.address 0 (message.data.setWidth 32) ++
    layout.publish control mask

end InterruptLayout

def InterruptIo.program (io : InterruptIo) (layout : InterruptLayout) (message : ApicMsiMessage) :
    InterruptIo × Except InterruptProgrammingError Unit :=
  let control := io.stored .control
  if control &&& layout.enableBit ≠ 0 then (io, .error .alreadyEnabled)
  else
    let low := io.stored .addressLow
    let high := if layout.addressHigh then io.stored .addressHigh else 0
    let data := io.stored .data
    let mask := if layout.masking then io.stored .mask else 0
    match io.checkedAll (layout.publication message control mask) with
    | (io, true) => (io, .ok ())
    | (io, false) =>
      match io.checkedAll (layout.quiet control mask) with
      | (io, false) => (io, .error .rollbackFailed)
      | (io, true) =>
        match io.checkedEach (layout.payload low high data) with
        | (io, true) => (io, .error .readbackFailed)
        | (io, false) => (io, .error .rollbackFailed)

namespace InterruptLayout

variable {layout : InterruptLayout} {io io' : InterruptIo}

def Enabled (layout : InterruptLayout) (control : U32) : Prop := control &&& layout.enableBit ≠ 0

/-- The vector of a layout without a mask register counts as masked. -/
def Masked (layout : InterruptLayout) (mask : U32) : Prop :=
  layout.masking = true → mask &&& 1#32 <<< 0 ≠ 0

def enablePosition (layout : InterruptLayout) : ℕ := if layout.msix then 15 else 0

theorem enabled_iff {control : U32} :
    layout.Enabled control ↔ control.getLsbD layout.enablePosition = true := by
  unfold Enabled enableBit enablePosition
  split_ifs <;> exact Bits.and_mask_ne_zero_iff control (by decide)

theorem not_enabled_disabled (layout : InterruptLayout) (control : U32) :
    ¬ layout.Enabled (layout.disabled control) := by
  rw [enabled_iff, Bool.not_eq_true]
  unfold disabled enablePosition
  split_ifs
  · rw [Bits.getLsbD_and_not_mask _ (by decide), if_pos rfl]
  · rw [BitVec.getLsbD_and]
    exact Bool.and_false _

theorem enabled_enabled (layout : InterruptLayout) (control : U32) :
    layout.Enabled (layout.enabled control) := by
  rw [enabled_iff]
  unfold enabled enableBit enablePosition
  split_ifs <;> rw [Bits.getLsbD_or_mask _ (by decide), if_pos rfl]

theorem enabled_unmasked (layout : InterruptLayout) (control : U32) (h : layout.msix = true) :
    layout.Enabled (layout.enabled control &&& ~~~(1#32 <<< 14)) := by
  have henabled : layout.Enabled (layout.enabled control) := layout.enabled_enabled control
  rw [enabled_iff] at henabled ⊢
  unfold enablePosition at henabled ⊢
  rw [if_pos h] at henabled ⊢
  rw [Bits.getLsbD_and_not_mask _ (by decide), if_neg (by decide)]
  exact henabled

theorem masked_or (mask : U32) : layout.Masked (mask ||| 1#32 <<< 0) := by
  intro _
  rw [Bits.and_mask_ne_zero_iff _ (by decide), Bits.getLsbD_or_mask _ (by decide), if_pos rfl]

theorem clear_mask (x : U32) {i : ℕ} (hi : i < 32) :
    (x &&& ~~~(1#32 <<< i)) &&& 1#32 <<< i = 0 := by
  by_contra hne
  rw [← ne_eq, Bits.and_mask_ne_zero_iff _ hi, Bits.getLsbD_and_not_mask _ hi, if_pos rfl] at hne
  cases hne

theorem quiet_touches (layout : InterruptLayout) (control mask : U32) :
    ∀ w ∈ layout.quiet control mask, w.1 ∈ [InterruptRegister.control, .mask] := by
  unfold quiet
  split_ifs <;> simp

theorem payload_touches (layout : InterruptLayout) (low high data : U32) :
    ∀ w ∈ layout.payload low high data, w.1 ∈ [InterruptRegister.addressLow, .addressHigh, .data] := by
  unfold payload
  split_ifs <;> simp

theorem publish_touches (layout : InterruptLayout) (control mask : U32) :
    ∀ w ∈ layout.publish control mask, w.1 ∈ [InterruptRegister.control, .mask] := by
  unfold publish
  split_ifs <;> simp

theorem quiet_holds {control mask : U32}
    (h : io.checkedAll (layout.quiet control mask) = (io', true)) :
    ¬ layout.Enabled (io'.stored .control) ∧ layout.Masked (io'.stored .mask) := by
  rw [stored_of_checkedAll h]
  unfold quiet
  split_ifs with hmasking
  · exact ⟨layout.not_enabled_disabled control, masked_or mask⟩
  · exact ⟨layout.not_enabled_disabled control, fun hm ↦ absurd hm hmasking⟩

/-- The payload is written only under a disabled capability and a masked vector. -/
def Guarded (layout : InterruptLayout) (io io' : InterruptIo) : Prop :=
  ∃ new, io'.log = io.log ++ new ∧
    ∀ e ∈ new, e.register ∈ [InterruptRegister.addressLow, .addressHigh, .data] →
      ¬ layout.Enabled (e.before .control) ∧ layout.Masked (e.before .mask)

theorem Guarded.trans {io'' : InterruptIo} (h : layout.Guarded io io')
    (h' : layout.Guarded io' io'') : layout.Guarded io io'' := by
  obtain ⟨new, hlog, hnew⟩ := h
  obtain ⟨new', hlog', hnew'⟩ := h'
  refine ⟨new ++ new', by rw [hlog', hlog, List.append_assoc], fun e he ↦ ?_⟩
  rcases List.mem_append.mp he with he | he
  · exact hnew e he
  · exact hnew' e he

theorem guarded_of_control (h : Touches [.control, .mask] io io') : layout.Guarded io io' := by
  obtain ⟨new, hlog, hnew⟩ := h.entries
  refine ⟨new, hlog, fun e he hpayload ↦ ?_⟩
  have hcontrol := (hnew e he).1
  cases hr : e.register <;> simp [hr] at hcontrol hpayload

theorem guarded_of_payload (h : Touches [.addressLow, .addressHigh, .data] io io')
    (hdisabled : ¬ layout.Enabled (io.stored .control)) (hmasked : layout.Masked (io.stored .mask)) :
    layout.Guarded io io' := by
  obtain ⟨new, hlog, hnew⟩ := h.entries
  refine ⟨new, hlog, fun e he _ ↦ ?_⟩
  have hbefore := (hnew e he).2
  rw [hbefore .control (by decide), hbefore .mask (by decide)]
  exact ⟨hdisabled, hmasked⟩

theorem guarded_publication (layout : InterruptLayout) (io : InterruptIo)
    (message : ApicMsiMessage) (control mask : U32) :
    layout.Guarded io (io.checkedAll (layout.publication message control mask)).1 := by
  have hquiet : layout.Guarded io (io.checkedAll (layout.quiet control mask)).1 :=
    guarded_of_control (touches_checkedAll io (layout.quiet_touches control mask))
  rw [publication, checkedAll_append, checkedAll_append]
  generalize message.address = low, (0 : U32) = high, message.data.setWidth 32 = data
  rcases hq : io.checkedAll (layout.quiet control mask) with ⟨io₁, held⟩
  rw [hq] at hquiet
  cases held with
  | false => exact hquiet
  | true =>
    obtain ⟨hdisabled, hmasked⟩ := quiet_holds hq
    have hpayload : layout.Guarded io₁ (io₁.checkedAll (layout.payload low high data)).1 :=
      guarded_of_payload
        (touches_checkedAll io₁ (layout.payload_touches low high data)) hdisabled hmasked
    dsimp only
    rcases hp : io₁.checkedAll (layout.payload low high data) with ⟨io₂, held'⟩
    rw [hp] at hpayload
    cases held' with
    | false => exact hquiet.trans hpayload
    | true => exact (hquiet.trans hpayload).trans (guarded_of_control
        (touches_checkedAll io₂ (layout.publish_touches control mask)))

end InterruptLayout

namespace InterruptIo

open InterruptLayout (Guarded)

variable {io io' : InterruptIo} {layout : InterruptLayout} {message : ApicMsiMessage}

/-- What a layout and a message ask of the registers. -/
structure Published (layout : InterruptLayout) (message : ApicMsiMessage)
    (stored : InterruptRegister → U32) : Prop where
  addressLow : stored .addressLow = message.address
  addressHigh : layout.addressHigh = true → stored .addressHigh = 0
  data : stored .data = message.data.setWidth 32
  enabled : layout.Enabled (stored .control)
  unmasked : layout.masking = true → stored .mask &&& 1#32 <<< 0 = 0
  functionUnmasked : layout.msix = true → stored .control &&& 1#32 <<< 14 = 0

/-- What a rollback leaves: nothing is delivered, and the payload is the old one. -/
structure RolledBack (layout : InterruptLayout) (before stored : InterruptRegister → U32) : Prop where
  disabled : ¬ layout.Enabled (stored .control)
  masked : layout.Masked (stored .mask)
  addressLow : stored .addressLow = before .addressLow
  addressHigh : stored .addressHigh = before .addressHigh
  data : stored .data = before .data

structure Armed (layout : InterruptLayout) (message : ApicMsiMessage) (control mask : U32)
    (stored : InterruptRegister → U32) : Prop where
  control : stored .control =
    if layout.msix then layout.enabled control &&& ~~~(1#32 <<< 14) else layout.enabled control
  addressLow : stored .addressLow = message.address
  addressHigh : layout.addressHigh = true → stored .addressHigh = 0
  data : stored .data = message.data.setWidth 32
  mask : layout.masking = true → stored .mask = mask &&& ~~~(1#32 <<< 0)

section

variable {control mask : U32}
  (h : io.checkedAll (layout.publication message control mask) = (io', true))
include h

theorem armed_of_held : Armed layout message control mask io'.stored := by
  obtain ⟨msix, high, masking⟩ := layout
  rw [stored_of_checkedAll h]
  refine ⟨?_, ?_, ?_, ?_, ?_⟩
  · cases msix <;> cases high <;> cases masking <;> rfl
  · cases msix <;> cases high <;> cases masking <;> rfl
  · rintro rfl
    cases msix <;> cases masking <;> rfl
  · cases msix <;> cases high <;> cases masking <;> rfl
  · rintro rfl
    cases msix <;> cases high <;> rfl

theorem published_of_held : Published layout message io'.stored := by
  have harmed := armed_of_held h
  refine ⟨harmed.addressLow, harmed.addressHigh, harmed.data, ?_, fun hmasking ↦ ?_, fun hmsix ↦ ?_⟩
  · rw [harmed.control]
    split_ifs with hmsix
    · exact layout.enabled_unmasked control hmsix
    · exact layout.enabled_enabled control
  · rw [harmed.mask hmasking, InterruptLayout.clear_mask _ (by decide)]
  · rw [harmed.control, if_pos hmsix, InterruptLayout.clear_mask _ (by decide)]

end

def maskOf (io : InterruptIo) (layout : InterruptLayout) : U32 :=
  if layout.masking then io.stored .mask else 0

inductive Outcome (io : InterruptIo) (layout : InterruptLayout) (message : ApicMsiMessage)
    (io' : InterruptIo) : Except InterruptProgrammingError Unit → Prop
  | alreadyEnabled : layout.Enabled (io.stored .control) → io' = io →
      Outcome io layout message io' (.error .alreadyEnabled)
  | published :
      io.checkedAll (layout.publication message (io.stored .control) (io.maskOf layout)) =
        (io', true) → Outcome io layout message io' (.ok ())
  | stuck {io₁ : InterruptIo} :
      io.checkedAll (layout.publication message (io.stored .control) (io.maskOf layout)) =
        (io₁, false) →
      io₁.checkedAll (layout.quiet (io.stored .control) (io.maskOf layout)) = (io', false) →
      Outcome io layout message io' (.error .rollbackFailed)
  | rolledBack {io₁ io₂ : InterruptIo} {held : Bool} :
      io.checkedAll (layout.publication message (io.stored .control) (io.maskOf layout)) =
        (io₁, false) →
      io₁.checkedAll (layout.quiet (io.stored .control) (io.maskOf layout)) = (io₂, true) →
      io₂.checkedEach (layout.payload (io.stored .addressLow)
        (if layout.addressHigh then io.stored .addressHigh else 0) (io.stored .data)) =
        (io', held) →
      Outcome io layout message io' (.error (if held then .readbackFailed else .rollbackFailed))

theorem program_outcome (io : InterruptIo) (layout : InterruptLayout) (message : ApicMsiMessage) :
    Outcome io layout message (io.program layout message).1 (io.program layout message).2 := by
  unfold program
  dsimp only
  by_cases henabled : io.stored .control &&& layout.enableBit ≠ 0
  · rw [if_pos henabled]
    exact .alreadyEnabled henabled rfl
  rw [if_neg henabled]
  rcases hpub : io.checkedAll (layout.publication message (io.stored .control)
      (if layout.masking = true then io.stored .mask else 0)) with ⟨io₁, held⟩
  cases held with
  | true => exact .published hpub
  | false =>
    dsimp only
    rcases hquiet : io₁.checkedAll (layout.quiet (io.stored .control)
        (if layout.masking = true then io.stored .mask else 0)) with ⟨io₂, held⟩
    cases held with
    | false => exact .stuck hpub hquiet
    | true =>
      dsimp only
      rcases heach : io₂.checkedEach (layout.payload (io.stored .addressLow)
        (if layout.addressHigh = true then io.stored .addressHigh else 0) (io.stored .data)) with
        ⟨io₃, held⟩
      cases held <;> exact .rolledBack hpub hquiet heach

theorem addressHigh_not_mem (h : layout.addressHigh = false) (control mask : U32) :
    InterruptRegister.addressHigh ∉ (layout.publication message control mask).map Prod.fst := by
  obtain ⟨msix, high, masking⟩ := layout
  cases h
  cases msix <;> cases masking <;>
    simp [InterruptLayout.publication, InterruptLayout.quiet, InterruptLayout.payload,
      InterruptLayout.publish]

theorem mem_map_fst (writes : List (InterruptRegister × U32)) :
    ∀ w ∈ writes, w.1 ∈ writes.map Prod.fst := fun _ hw ↦ List.mem_map_of_mem hw

theorem rolledBack_of_held {io₁ io₂ : InterruptIo} {control mask : U32}
    (hpub : (io.checkedAll (layout.publication message control mask)).1 = io₁)
    (hquiet : io₁.checkedAll (layout.quiet control mask) = (io₂, true))
    (heach : io₂.checkedEach (layout.payload (io.stored .addressLow)
      (if layout.addressHigh then io.stored .addressHigh else 0) (io.stored .data)) = (io', true)) :
    RolledBack layout io.stored io'.stored := by
  obtain ⟨hdisabled, hmasked⟩ := InterruptLayout.quiet_holds hquiet
  have hframe := (touches_checkedEach io₂ (layout.payload_touches (io.stored .addressLow)
    (if layout.addressHigh then io.stored .addressHigh else 0) (io.stored .data))).frame
  rw [heach] at hframe
  have hstored := stored_of_checkedEach heach
  refine ⟨?_, ?_, ?_, ?_, ?_⟩
  · rwa [hframe .control (by decide)]
  · rwa [hframe .mask (by decide)]
  · rw [hstored]
    unfold InterruptLayout.payload
    split_ifs <;> rfl
  · by_cases hhigh : layout.addressHigh = true
    · rw [hstored, InterruptLayout.payload, if_pos hhigh, if_pos hhigh]
      rfl
    · rw [Bool.not_eq_true] at hhigh
      have hquietFrame := (touches_checkedAll io₁ (layout.quiet_touches control mask)).frame
      have hpubFrame := (touches_checkedAll io
        (mem_map_fst (layout.publication message control mask))).frame
      rw [hquiet] at hquietFrame
      rw [hpub] at hpubFrame
      have hkeep : io'.stored .addressHigh = io₂.stored .addressHigh := by
        rw [hstored, InterruptLayout.payload, hhigh]
        rfl
      rw [hkeep, hquietFrame .addressHigh (by decide), hpubFrame _ (addressHigh_not_mem hhigh _ _)]
  · rw [hstored]
    unfold InterruptLayout.payload
    split_ifs <;> rfl

theorem Outcome.guarded {result : Except InterruptProgrammingError Unit}
    (h : Outcome io layout message io' result) : layout.Guarded io io' := by
  have hpublication := layout.guarded_publication io message (io.stored .control) (io.maskOf layout)
  cases h with
  | alreadyEnabled _ hsame => exact ⟨[], by rw [hsame, List.append_nil], nofun⟩
  | published hpub =>
    rwa [hpub] at hpublication
  | @stuck io₁ hpub hquiet =>
    have hcontrol := touches_checkedAll io₁
      (layout.quiet_touches (io.stored .control) (io.maskOf layout))
    rw [hpub] at hpublication
    rw [hquiet] at hcontrol
    exact hpublication.trans (InterruptLayout.guarded_of_control hcontrol)
  | @rolledBack io₁ io₂ held hpub hquiet heach =>
    have hcontrol := touches_checkedAll io₁
      (layout.quiet_touches (io.stored .control) (io.maskOf layout))
    have hpayload := touches_checkedEach io₂ (layout.payload_touches (io.stored .addressLow)
      (if layout.addressHigh then io.stored .addressHigh else 0) (io.stored .data))
    obtain ⟨hdisabled, hmasked⟩ := InterruptLayout.quiet_holds hquiet
    rw [hpub] at hpublication
    rw [hquiet] at hcontrol
    rw [heach] at hpayload
    exact (hpublication.trans (InterruptLayout.guarded_of_control hcontrol)).trans
      (InterruptLayout.guarded_of_payload hpayload hdisabled hmasked)

/-- Programming is a transaction, whatever writes are dropped. -/
theorem program_is_transaction (io : InterruptIo) (layout : InterruptLayout)
    (message : ApicMsiMessage) :
    ((io.program layout message).2 = .ok () →
      Published layout message (io.program layout message).1.stored) ∧
    ((io.program layout message).2 = .error .readbackFailed →
      RolledBack layout io.stored (io.program layout message).1.stored) ∧
    ((io.program layout message).2 = .error .alreadyEnabled →
      (io.program layout message).1 = io) ∧
    ∃ new, (io.program layout message).1.log = io.log ++ new ∧
      ∀ e ∈ new, e.register ∈ [InterruptRegister.addressLow, .addressHigh, .data] →
        ¬ layout.Enabled (e.before .control) ∧ layout.Masked (e.before .mask) := by
  have houtcome := io.program_outcome layout message
  generalize (io.program layout message).2 = result at houtcome
  refine ⟨fun hok ↦ ?_, fun hback ↦ ?_, fun hready ↦ ?_, houtcome.guarded⟩
  · cases houtcome with
    | published hpub => exact published_of_held hpub
    | alreadyEnabled | stuck | rolledBack => cases hok
  · cases houtcome with
    | alreadyEnabled | published | stuck => cases hback
    | @rolledBack _ _ held hpub hquiet heach =>
      cases held with
      | false => cases hback
      | true => exact rolledBack_of_held (by rw [hpub]) hquiet heach
  · cases houtcome with
    | alreadyEnabled _ hsame => exact hsame
    | published | stuck => cases hready
    | @rolledBack _ _ held => cases held <;> cases hready

theorem program_is_transaction_dropped :
    let io : InterruptIo := ⟨fun _ ↦ 0, fun n ↦ n == 2, []⟩
    let layout : InterruptLayout := ⟨true, true, true⟩
    (io.program layout ⟨0xFEE00000, 0x40⟩).2 = .error .readbackFailed ∧
      RolledBack layout io.stored (io.program layout ⟨0xFEE00000, 0x40⟩).1.stored := by
  intro io layout
  have hback : (io.program layout ⟨0xFEE00000, 0x40⟩).2 = .error .readbackFailed := by decide
  exact ⟨hback, (program_is_transaction io layout ⟨0xFEE00000, 0x40⟩).2.1 hback⟩

end InterruptIo

end BraneKernel
