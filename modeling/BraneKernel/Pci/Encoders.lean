import BraneKernel.Pci.Vectors

namespace BraneKernel

structure MsiConfigState where
  control : U16
  addressLow : U32
  addressHigh : U32
  data : U16
  maskBits : U32
  command : U16
  deriving DecidableEq

structure MsixTableEntry where
  addressLow : U32
  addressHigh : U32
  data : U32
  vectorControl : U32
  deriving DecidableEq

def programMsi (state : MsiConfigState) (capability : MsiCapability) (message : ApicMsiMessage) :
    MsiConfigState × Except InterruptProgrammingError Unit :=
  if message.address &&& 0xFFF ≠ 0 ∨ message.data < 0x40 then (state, .error .invalidCapability)
  else
    let written : MsiConfigState :=
      { state with
        control := (state.control &&& ~~~(0x7#16 <<< 4)) &&& ~~~(1#16 <<< 0)
        addressLow := message.address
        addressHigh := if capability.is64Bit then 0 else state.addressHigh
        data := message.data
        maskBits := if capability.perVectorMasking then state.maskBits ||| 1#32 <<< 0
          else state.maskBits }
    if written.addressLow ≠ message.address ∨ written.data ≠ message.data then
      (state, .error .invalidCapability)
    else
      ({ written with
          control := written.control ||| 1#16 <<< 0
          maskBits := if capability.perVectorMasking then written.maskBits &&& ~~~(1#32 <<< 0)
            else written.maskBits }, .ok ())

def MsixCapability.entryOffset (capability : MsixCapability) (entryIndex : U16) : Option U64 :=
  (Checked.mul (entryIndex.setWidth 64) 16).bind (Checked.add (capability.tableOffset.setWidth 64))

def programMsixEntry (entry : MsixTableEntry) (capability : MsixCapability) (barIndex : BitVec 8)
    (barSize : U64) (entryIndex : U16) (message : ApicMsiMessage) :
    MsixTableEntry × Except InterruptProgrammingError Unit :=
  if capability.tableBir ≠ barIndex ∨ barSize = 0 ∨ message.address &&& 0xFFF ≠ 0 then
    (entry, .error .invalidBar)
  else if entryIndex ≥ capability.tableSize then (entry, .error .invalidEntry)
  else
    match capability.entryOffset entryIndex with
    | none => (entry, .error .tableOutsideBar)
    | some offset =>
      if (Checked.add offset 16).all (· > barSize) then (entry, .error .tableOutsideBar)
      else
        let written : MsixTableEntry :=
          { addressLow := message.address
            addressHigh := 0
            data := message.data.setWidth 32
            vectorControl := entry.vectorControl ||| 1#32 <<< 0 }
        if written.addressLow ≠ message.address ∨ written.data ≠ message.data.setWidth 32 then
          (entry, .error .invalidEntry)
        else
          ({ written with vectorControl := written.vectorControl &&& ~~~(1#32 <<< 0) }, .ok ())

namespace InterruptLayout

def ofMsi (capability : MsiCapability) : InterruptLayout :=
  ⟨false, capability.is64Bit, capability.perVectorMasking⟩

def ofMsix : InterruptLayout := ⟨true, true, true⟩

end InterruptLayout

/-- The registers that a capability has, with the values of the record. -/
structure MsiConfigState.Shows (state : MsiConfigState) (capability : MsiCapability)
    (stored : InterruptRegister → U32) : Prop where
  control : stored .control = state.control.setWidth 32
  addressLow : stored .addressLow = state.addressLow
  addressHigh : capability.is64Bit = true → stored .addressHigh = state.addressHigh
  data : stored .data = state.data.setWidth 32
  mask : capability.perVectorMasking = true → stored .mask = state.maskBits

structure MsixTableEntry.Shows (entry : MsixTableEntry) (stored : InterruptRegister → U32) :
    Prop where
  addressLow : stored .addressLow = entry.addressLow
  addressHigh : stored .addressHigh = entry.addressHigh
  data : stored .data = entry.data
  mask : stored .mask = entry.vectorControl

/-- An entry of the table that lies inside the BAR. -/
structure MsixCapability.ValidEntry (capability : MsixCapability) (barIndex : BitVec 8)
    (barSize : U64) (entryIndex : U16) : Prop where
  bir : capability.tableBir = barIndex
  index : entryIndex < capability.tableSize
  inside : capability.tableOffset.toNat + entryIndex.toNat * 16 + 16 ≤ barSize.toNat

variable {message : ApicMsiMessage} {vector destination : BitVec 8}

theorem address_aligned (destination : BitVec 8) :
    (0xFEE00000#32 ||| destination.setWidth 32 <<< 12) &&& 0xFFF = 0 := by
  revert destination
  decide +kernel

theorem message_of_apic (h : apicMsiMessage vector destination = some message) :
    message.address &&& 0xFFF = 0 ∧ ¬ message.data < 0x40 := by
  unfold apicMsiMessage at h
  split_ifs at h with hrange
  cases h
  refine ⟨address_aligned destination, fun hlow ↦ hrange (.inl ?_)⟩
  rw [BitVec.lt_def, Checked.toNat_widen (by decide)] at hlow
  exact BitVec.lt_def.mpr hlow

theorem InterruptIo.program_of_stores {io : InterruptIo} (hstores : ∀ k, io.drops k = false)
    {layout : InterruptLayout} (hdisabled : ¬ layout.Enabled (io.stored .control))
    (message : ApicMsiMessage) :
    (io.program layout message).2 = .ok () ∧ Armed layout message (io.stored .control)
      (io.maskOf layout) (io.program layout message).1.stored := by
  obtain ⟨io', hall⟩ := CheckedWrite.checkedAll_of_stores hstores
    (layout.publication message (io.stored .control) (io.maskOf layout))
  have houtcome := io.program_outcome layout message
  generalize (io.program layout message).1 = io₁, (io.program layout message).2 = result
    at houtcome ⊢
  cases houtcome with
  | alreadyEnabled henabled _ => exact absurd henabled hdisabled
  | published hpub => exact ⟨rfl, armed_of_held hpub⟩
  | stuck hpub _ => cases hall.symm.trans hpub
  | rolledBack hpub _ _ => cases hall.symm.trans hpub

theorem control_encodings (control : U16) :
    (((control &&& ~~~(0x7#16 <<< 4)) &&& ~~~(1#16 <<< 0)) ||| 1#16 <<< 0).setWidth 32 =
      (control.setWidth 32 &&& ~~~0x71#32) ||| 1#32 <<< 0 := by
  rw [BitVec.setWidth_or, Bits.setWidth_and_not, Bits.setWidth_and_not, BitVec.and_assoc]
  rfl

theorem MsixCapability.ValidEntry.entryOffset_eq {capability : MsixCapability} {barIndex : BitVec 8}
    {barSize : U64} {entryIndex : U16}
    (h : capability.ValidEntry barIndex barSize entryIndex) :
    ∃ offset end', capability.entryOffset entryIndex = some offset ∧
      Checked.add offset 16 = some end' ∧ end' ≤ barSize := by
  have hindex := Checked.toNat_widen (show 16 ≤ 64 by decide) entryIndex
  have htable := Checked.toNat_widen (show 32 ≤ 64 by decide) capability.tableOffset
  have hsixteen : (16 : U64).toNat = 16 := rfl
  have hmul : (entryIndex.setWidth 64).toNat * (16 : U64).toNat = entryIndex.toNat * 16 := by
    rw [hindex, hsixteen]
  have hinside := h.inside
  have hsize := barSize.isLt
  obtain ⟨product, hproduct, hproductNat⟩ :=
    Checked.mul_of_lt (a := entryIndex.setWidth 64) (b := 16) (by omega)
  obtain ⟨offset, hoffset, hoffsetNat⟩ :=
    Checked.add_of_lt (a := capability.tableOffset.setWidth 64) (b := product) (by omega)
  obtain ⟨end', hend, hendNat⟩ := Checked.add_of_lt (a := offset) (b := 16) (by omega)
  refine ⟨offset, end', ?_, hend, BitVec.le_def.mpr (by omega)⟩
  rw [MsixCapability.entryOffset, hproduct, Option.bind_some, hoffset]

theorem programMsixEntry_eq (haddress : message.address &&& 0xFFF = 0)
    {capability : MsixCapability} {barIndex : BitVec 8} {barSize : U64} {entryIndex : U16}
    (hvalid : capability.ValidEntry barIndex barSize entryIndex) (entry : MsixTableEntry) :
    programMsixEntry entry capability barIndex barSize entryIndex message =
      ({ addressLow := message.address
         addressHigh := 0
         data := message.data.setWidth 32
         vectorControl := entry.vectorControl &&& ~~~(1#32 <<< 0) }, .ok ()) := by
  obtain ⟨offset, end', hoffset, hend, hinside⟩ := hvalid.entryOffset_eq
  have hsize : barSize ≠ 0 := by
    rintro rfl
    have := hvalid.inside
    simp at this
  have hindex : ¬ entryIndex ≥ capability.tableSize := by
    have := hvalid.index
    rw [BitVec.lt_def] at this
    rw [ge_iff_le, BitVec.le_def]
    omega
  have hfits : ¬ (Checked.add offset 16).all (· > barSize) = true := by
    rw [hend, Option.all_some, decide_eq_true_iff, gt_iff_lt, BitVec.lt_def]
    have := BitVec.le_def.mp hinside
    omega
  unfold programMsixEntry
  rw [if_neg (by simp only [hvalid.bir, hsize, haddress, ne_eq, not_true, or_self, not_false_iff]),
    if_neg hindex, hoffset]
  dsimp only
  rw [if_neg hfits, if_neg (fun h ↦ h.elim (fun hne ↦ hne rfl) fun hne ↦ hne rfl),
    Bits.or_and_not_self]

/-- The encoders and the register transaction leave the same capability and the
same table entry behind. -/
theorem encoders_agree_with_program (hmessage : apicMsiMessage vector destination = some message)
    {io : InterruptIo} (hstores : ∀ k, io.drops k = false) :
    (∀ (capability : MsiCapability) (state : MsiConfigState),
      ¬ (InterruptLayout.ofMsi capability).Enabled (io.stored .control) →
      state.Shows capability io.stored →
      (programMsi state capability message).2 = .ok () ∧
        (io.program (.ofMsi capability) message).2 = .ok () ∧
        (programMsi state capability message).1.Shows capability
          (io.program (.ofMsi capability) message).1.stored) ∧
    ∀ (capability : MsixCapability) (entry : MsixTableEntry) (barIndex : BitVec 8) (barSize : U64)
      (entryIndex : U16), capability.ValidEntry barIndex barSize entryIndex →
      ¬ InterruptLayout.ofMsix.Enabled (io.stored .control) → entry.Shows io.stored →
      (programMsixEntry entry capability barIndex barSize entryIndex message).2 = .ok () ∧
        (io.program .ofMsix message).2 = .ok () ∧
        (programMsixEntry entry capability barIndex barSize entryIndex message).1.Shows
          (io.program .ofMsix message).1.stored := by
  obtain ⟨haddress, hdata⟩ := message_of_apic hmessage
  refine ⟨fun capability state hdisabled hshows ↦ ?_,
    fun capability entry barIndex barSize entryIndex hvalid hdisabled hshows ↦ ?_⟩
  · obtain ⟨hok, harmed⟩ := InterruptIo.program_of_stores hstores hdisabled message
    rw [programMsi, if_neg (fun h ↦ h.elim (fun hne ↦ hne haddress) hdata)]
    dsimp only
    rw [if_neg (fun h ↦ h.elim (fun hne ↦ hne rfl) fun hne ↦ hne rfl)]
    refine ⟨rfl, hok, ?_, harmed.addressLow, fun hwide ↦ ?_, harmed.data, fun hmasking ↦ ?_⟩
    · rw [harmed.control, hshows.control]
      exact (control_encodings state.control).symm
    · rw [harmed.addressHigh hwide]
      exact (if_pos hwide).symm
    · have hmask : io.maskOf (.ofMsi capability) = state.maskBits :=
        (if_pos hmasking).trans (hshows.mask hmasking)
      rw [harmed.mask hmasking, hmask]
      simp only [hmasking, if_true, Bits.or_and_not_self]
  · obtain ⟨hok, harmed⟩ := InterruptIo.program_of_stores hstores hdisabled message
    rw [programMsixEntry_eq haddress hvalid]
    refine ⟨rfl, hok, harmed.addressLow, harmed.addressHigh rfl, harmed.data, ?_⟩
    rw [harmed.mask rfl, ← hshows.mask]
    rfl

def quietRegisters : InterruptIo := ⟨fun _ ↦ 0x30, fun _ ↦ false, []⟩

theorem encoders_agree_with_program_quiet :
    (programMsi ⟨0x30, 0x30, 0x30, 0x30, 0x30, 0⟩ ⟨0x50, true, true, 2⟩ ⟨0xFEE02000, 0x41⟩).1.Shows
        ⟨0x50, true, true, 2⟩
        (quietRegisters.program ⟨false, true, true⟩ ⟨0xFEE02000, 0x41⟩).1.stored ∧
      (programMsixEntry ⟨0x30, 0x30, 0x30, 0x30⟩ ⟨0x70, 8, 0, 0x2000, 0, 0x3000⟩ 0 0x4000 3
          ⟨0xFEE02000, 0x41⟩).1.Shows
        (quietRegisters.program ⟨true, true, true⟩ ⟨0xFEE02000, 0x41⟩).1.stored := by
  have hmessage : apicMsiMessage 0x41 2 = some ⟨0xFEE02000, 0x41⟩ := by decide
  have hstores : ∀ k, quietRegisters.drops k = false := fun _ ↦ rfl
  have hagree := encoders_agree_with_program hmessage hstores
  refine ⟨(hagree.1 ⟨0x50, true, true, 2⟩ ⟨0x30, 0x30, 0x30, 0x30, 0x30, 0⟩ ?_ ?_).2.2,
    (hagree.2 ⟨0x70, 8, 0, 0x2000, 0, 0x3000⟩ ⟨0x30, 0x30, 0x30, 0x30⟩ 0 0x4000 3 ?_ ?_ ?_).2.2⟩
  · exact fun h ↦ h rfl
  · exact ⟨rfl, rfl, fun _ ↦ rfl, rfl, fun _ ↦ rfl⟩
  · exact ⟨rfl, by decide, by decide⟩
  · exact fun h ↦ h rfl
  · exact ⟨rfl, rfl, rfl, rfl⟩

end BraneKernel
