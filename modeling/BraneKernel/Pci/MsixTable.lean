import BraneKernel.Pci.Capabilities

namespace BraneKernel

namespace MsixCapability

/-- The bytes of the table, by the BAR they are in and their offset there. -/
def InTable (c : MsixCapability) (bir : BitVec 8) (offset : ℕ) : Prop :=
  bir = c.tableBir ∧ c.tableOffset.toNat ≤ offset ∧
    offset < c.tableOffset.toNat + c.tableSize.toNat * 16

/-- The bytes of the pending bits, one bit for each entry in words of 64. -/
def InPba (c : MsixCapability) (bir : BitVec 8) (offset : ℕ) : Prop :=
  bir = c.pbaBir ∧ c.pbaOffset.toNat ≤ offset ∧
    offset < c.pbaOffset.toNat + (c.tableSize.toNat + 63) / 64 * 8

end MsixCapability

variable {device : PciDevice} {mapping : MmioMapping} {c : MsixCapability} {address : U64}
  {table pba r : PciBarResource}

theorem barResource_index {i : ℕ} (h : device.barResource i = some r) :
    r.index = BitVec.ofNat 8 i := by
  obtain ⟨bar, -, h⟩ := Option.bind_eq_some_iff.mp h
  obtain ⟨size, -, h⟩ := Option.bind_eq_some_iff.mp h
  split_ifs at h
  cases h
  rfl

theorem MmioMapping.virtualAddress_eq_some {offset width : U64}
    (h : mapping.virtualAddress offset width = some address) :
    offset.toNat + width.toNat ≤ mapping.size.toNat ∧
      address.toNat = mapping.virtualBase.toNat + offset.toNat := by
  unfold MmioMapping.virtualAddress MmioMapping.contains at h
  split_ifs at h with hcontains
  rw [Bool.and_eq_true] at hcontains
  obtain ⟨-, hfits⟩ := hcontains
  split at hfits
  · cases hfits
  · next stop hstop =>
    rw [← Checked.add_eq_some_iff.mp hstop]
    exact ⟨of_decide_eq_true hfits, Checked.add_eq_some_iff.mp h⟩

structure TableChecked (device : PciDevice) (mapping : MmioMapping) (c : MsixCapability)
    (address : U64) (table pba : PciBarResource) : Prop where
  table_bar : device.barResource c.tableBir.toNat = some table
  table_memory : table.bar.isMemory = true
  pba_bar : device.barResource c.pbaBir.toNat = some pba
  pba_memory : pba.bar.isMemory = true
  mapped : table.base = some mapping.physicalBase ∧ table.size = mapping.size
  table_end : c.tableOffset.toNat + c.tableSize.toNat * 16 ≤ table.size.toNat
  pba_end : c.pbaOffset.toNat + (c.tableSize.toNat + 63) / 64 * 8 ≤ pba.size.toNat
  apart : c.tableBir = c.pbaBir →
    c.tableOffset.toNat + c.tableSize.toNat * 16 ≤ c.pbaOffset.toNat ∨
      c.pbaOffset.toNat + (c.tableSize.toNat + 63) / 64 * 8 ≤ c.tableOffset.toNat
  address_eq : address.toNat = mapping.virtualBase.toNat + c.tableOffset.toNat

theorem tableBytes_toNat (size : U16) : (size.setWidth 64 * 16 : U64).toNat = size.toNat * 16 := by
  have hsize := size.isLt
  have hwide := Checked.toNat_widen (v := 64) (by decide) size
  rw [BitVec.toNat_mul, hwide]
  exact Nat.mod_eq_of_lt (show size.toNat * 16 < 2 ^ 64 by omega)

theorem pbaBytes_toNat (size : U16) :
    ((size.setWidth 64 + 63) / 64 * 8 : U64).toNat = (size.toNat + 63) / 64 * 8 := by
  have hsize := size.isLt
  have hwide := Checked.toNat_widen (v := 64) (by decide) size
  have hsum : (size.setWidth 64 + 63 : U64).toNat = size.toNat + 63 := by
    rw [BitVec.toNat_add, hwide]
    exact Nat.mod_eq_of_lt (show size.toNat + 63 < 2 ^ 64 by omega)
  rw [BitVec.toNat_mul, BitVec.toNat_udiv, hsum]
  exact Nat.mod_eq_of_lt (show (size.toNat + 63) / 64 * 8 < 2 ^ 64 by omega)

theorem entryAddress_ok (h : entryAddress device mapping c = .ok address) :
    ∃ table pba, TableChecked device mapping c address table pba := by
  unfold entryAddress at h
  split at h
  · cases h
  obtain ⟨table, htable, h⟩ := bind_eq_ok.mp h
  obtain ⟨pba, hpba, h⟩ := bind_eq_ok.mp h
  split at h
  · cases h
  next hmapped =>
  obtain ⟨tableEnd, hend, h⟩ := bind_eq_ok.mp h
  obtain ⟨pbaEnd, hpend, h⟩ := bind_eq_ok.mp h
  split at h
  · cases h
  next hinside =>
  rw [elim_eq_ok] at htable hpba hend hpend h
  obtain ⟨htable, htmem⟩ := Option.filter_eq_some_iff.mp htable
  obtain ⟨hpba, hpmem⟩ := Option.filter_eq_some_iff.mp hpba
  have hstart := Checked.toNat_widen (v := 64) (by decide) c.tableOffset
  have hpstart := Checked.toNat_widen (v := 64) (by decide) c.pbaOffset
  have hend := Checked.add_eq_some_iff.mp hend
  have hpend := Checked.add_eq_some_iff.mp hpend
  rw [tableBytes_toNat, hstart] at hend
  rw [pbaBytes_toNat, hpstart] at hpend
  obtain ⟨-, haddress⟩ := MmioMapping.virtualAddress_eq_some h
  rw [hstart] at haddress
  simp only [not_or, not_and, not_not, BitVec.not_lt, BitVec.le_def] at hmapped hinside
  obtain ⟨-, -, hin, hpin, hapart⟩ := hinside
  refine ⟨table, pba, htable, htmem, hpba, hpmem, hmapped, ?_, ?_, fun hbir ↦ ?_, haddress⟩
  · rw [← hend]
    exact hin
  · rw [← hpend]
    exact hpin
  · rw [← hend, ← hpend]
    have hindex : table.index = pba.index := by
      rw [barResource_index htable, barResource_index hpba, hbir]
    rcases Nat.lt_or_ge (c.tableOffset.setWidth 64).toNat pbaEnd.toNat with hlt | hge
    · rw [← hpstart]
      exact .inl (hapart hindex hlt)
    · rw [← hstart]
      exact .inr hge

/-- If an address is returned, the table and the pending bits lie inside measured memory BARs, apart
if it is the same BAR, and every entry inside the mapping of the table's BAR. Two BARs that share no
address keep them apart in memory too. -/
theorem msix_table_contained (device : PciDevice) (mapping : MmioMapping) (c : MsixCapability)
    (address : U64) (h : entryAddress device mapping c = .ok address) :
    (∀ bir offset, c.InTable bir offset ∨ c.InPba bir offset →
      ∃ r, device.barResource bir.toNat = some r ∧ r.bar.isMemory = true ∧
        offset < r.size.toNat) ∧
    (∀ bir offset, ¬ (c.InTable bir offset ∧ c.InPba bir offset)) ∧
    (∃ table, device.barResource c.tableBir.toNat = some table ∧
      table.base = some mapping.physicalBase ∧ table.size = mapping.size) ∧
    (∀ entry byte, entry < c.tableSize.toNat → byte < 16 →
      c.InTable c.tableBir (address.toNat + entry * 16 + byte - mapping.virtualBase.toNat) ∧
      mapping.virtualBase.toNat ≤ address.toNat + entry * 16 + byte ∧
      address.toNat + entry * 16 + byte < mapping.virtualBase.toNat + mapping.size.toNat ∧
      (mapping.Planned → mapping.mappedVirtualBase.toNat ≤ address.toNat + entry * 16 + byte ∧
        address.toNat + entry * 16 + byte <
          mapping.mappedVirtualBase.toNat + mapping.mappedLen.toNat)) ∧
    ∀ table pba tableBase pbaBase, device.barResource c.tableBir.toNat = some table →
      device.barResource c.pbaBir.toNat = some pba → table.base = some tableBase →
      pba.base = some pbaBase →
      (c.tableBir ≠ c.pbaBir → ∀ x < table.size.toNat, ∀ y < pba.size.toNat,
        tableBase.toNat + x ≠ pbaBase.toNat + y) →
      ∀ x y, c.InTable c.tableBir x → c.InPba c.pbaBir y →
        tableBase.toNat + x ≠ pbaBase.toNat + y := by
  obtain ⟨table, pba, hchecked⟩ := entryAddress_ok h
  have htable := hchecked.table_end
  have hpba := hchecked.pba_end
  have haddress := hchecked.address_eq
  refine ⟨?_, ?_, ⟨table, hchecked.table_bar, hchecked.mapped⟩, ?_, ?_⟩
  · rintro bir offset (⟨rfl, -, hlt⟩ | ⟨rfl, -, hlt⟩)
    · exact ⟨table, hchecked.table_bar, hchecked.table_memory, hlt.trans_le htable⟩
    · exact ⟨pba, hchecked.pba_bar, hchecked.pba_memory, hlt.trans_le hpba⟩
  · rintro bir offset ⟨⟨rfl, hlow, hhigh⟩, ⟨hbir, hplow, hphigh⟩⟩
    rcases hchecked.apart hbir with hle | hle <;> omega
  · intro entry byte hentry hbyte
    have hin : entry * 16 + byte < c.tableSize.toNat * 16 := by omega
    rw [hchecked.mapped.2] at htable
    refine ⟨⟨rfl, by omega, by omega⟩, by omega, by omega, fun hplanned ↦ ?_⟩
    have hle := hplanned.virtual_le
    have hend := hplanned.virtual_end
    exact ⟨by omega, by omega⟩
  · rintro _ _ tableBase pbaBase ht hp htb hpb hdistinct x y ⟨-, hxlow, hx⟩ ⟨-, hylow, hy⟩
    obtain rfl := Option.some.inj (hchecked.table_bar.symm.trans ht)
    obtain rfl := Option.some.inj (hchecked.pba_bar.symm.trans hp)
    by_cases hbir : c.tableBir = c.pbaBir
    · rw [← hbir, ht] at hp
      cases hp
      obtain rfl := Option.some.inj (htb.symm.trans hpb)
      rcases hchecked.apart hbir with hle | hle <;> omega
    · exact hdistinct hbir x (hx.trans_le htable) y (hy.trans_le hpba)

def msixDevice : PciDevice :=
  { address := ⟨0, 1, 0⟩, vendorId := 0x1B36, deviceId := 0x000D, command := 0
    status := 0x10, revisionId := 0, programmingInterface := 0x30, subclass := 0x03
    classCode := 0x0C, headerType := 0, multifunction := false, subsystemVendorId := 0
    subsystemId := 0
    bars := ⟨[.memory64 0x10000 false, .upperHalf64, .unused, .unused, .unused, .unused], rfl⟩
    barSizes := ⟨[0x4000, 0, 0, 0, 0, 0], rfl⟩, interruptLine := 0
    interruptPin := 1, secondaryBus := none }

theorem msix_table_contained_sixteen :
    entryAddress msixDevice ⟨0x10000, 0x20000, 0x4000, 0x10000, 0x20000, 0x4000⟩
      ⟨0x80, 16, 0, 0x3000, 0, 0x3800⟩ = .ok 0x23000 ∧
    (0x23000 : U64).toNat + 15 * 16 + 15 < (0x20000 : U64).toNat + (0x4000 : U64).toNat := by
  have hok : entryAddress msixDevice ⟨0x10000, 0x20000, 0x4000, 0x10000, 0x20000, 0x4000⟩
      ⟨0x80, 16, 0, 0x3000, 0, 0x3800⟩ = .ok 0x23000 := by decide +kernel
  obtain ⟨-, -, -, hentries, -⟩ := msix_table_contained _ _ _ _ hok
  exact ⟨hok, (hentries 15 15 (by decide) (by decide)).2.2.1⟩

/-- Two BARs at one address: the check compares only offsets of the same BAR, so it accepts a table
and pending bits that are the same bytes of memory. -/
theorem msix_shared_bars :
    let device := { msixDevice with
      bars := ⟨[.memory32 0x10000 false, .memory32 0x10000 false, .unused, .unused, .unused,
        .unused], rfl⟩
      barSizes := ⟨[0x4000, 0x4000, 0, 0, 0, 0], rfl⟩ }
    let c : MsixCapability := ⟨0x80, 16, 0, 0x3000, 1, 0x3000⟩
    entryAddress device ⟨0x10000, 0x20000, 0x4000, 0x10000, 0x20000, 0x4000⟩ c = .ok 0x23000 ∧
      c.InTable 0 0x3000 ∧ c.InPba 1 0x3000 ∧
      (device.barResource 0).bind PciBarResource.base = some 0x10000 ∧
      (device.barResource 1).bind PciBarResource.base = some 0x10000 := by
  unfold MsixCapability.InTable MsixCapability.InPba
  decide +kernel

end BraneKernel
