import BraneKernel.Pci.Interrupts
import BraneKernel.Pci.Mmio

namespace BraneKernel

def maxPciCapabilities : ℕ := 16

structure PciCapability where
  id : BitVec 8
  offset : BitVec 8
  deriving DecidableEq

inductive CapabilityError
  | missingStatus | misalignedPointer | pointerOutOfRange | truncated | cycle | tooMany
  deriving DecidableEq

def fieldAt (config : Bytes) (start n : ℕ) : ℕ := Bytes.ofLe ((config.drop start).take n)

def walkFrom (config : Bytes) (room : ℕ) (visited : List ℕ) (pointer : BitVec 8) :
    Except CapabilityError (List PciCapability) :=
  let slot := (pointer.toNat - 0x40) / 4
  if pointer = 0 then .ok []
  else if pointer &&& 3 ≠ 0 then .error .misalignedPointer
  else if pointer < 0x40 ∨ 0xFC < pointer then .error .pointerOutOfRange
  else if slot ∈ visited then .error .cycle
  else if config.length < pointer.toNat + 2 then .error .truncated
  else
    match room with
    | 0 => .error .tooMany
    | room + 1 =>
      let next := BitVec.ofNat 8 (fieldAt config (pointer.toNat + 1) 1)
      (walkFrom config room (slot :: visited) next).map
        (⟨BitVec.ofNat 8 (fieldAt config pointer.toNat 1), pointer⟩ :: ·)

def walkCapabilities (config : Bytes) : Except CapabilityError (List PciCapability) :=
  if config.length < 0x40 then .error .missingStatus
  else if BitVec.ofNat 16 (fieldAt config 0x06 2) &&& 1#16 <<< 4 = 0 then .ok []
  else walkFrom config maxPciCapabilities [] (BitVec.ofNat 8 (fieldAt config 0x34 1))

def findCapability (capabilities : List PciCapability) (id : BitVec 8) : Option PciCapability :=
  capabilities.find? (·.id == id)

structure MsiCapability where
  offset : BitVec 8
  is64Bit : Bool
  perVectorMasking : Bool
  multipleMessageCapable : BitVec 8
  deriving DecidableEq

structure MsixCapability where
  offset : BitVec 8
  tableSize : U16
  tableBir : BitVec 8
  tableOffset : U32
  pbaBir : BitVec 8
  pbaOffset : U32
  deriving DecidableEq

def controlAt (config : Bytes) (offset : BitVec 8) : U16 :=
  BitVec.ofNat 16 (fieldAt config (offset.toNat + 2) 2)

def decodeMsi (config : Bytes) (capability : PciCapability) : Except CapabilityError MsiCapability :=
  let offset := capability.offset.toNat
  let control := controlAt config capability.offset
  let messageWords := if control &&& 1#16 <<< 7 ≠ 0 then 3 else 2
  let required := offset + (4 + messageWords * 4) + if control &&& 1#16 <<< 8 ≠ 0 then 8 else 0
  if capability.id ≠ 0x05 then .error .truncated
  else if config.length < offset + 4 then .error .truncated
  else if config.length < required then .error .truncated
  else
    .ok
      { offset := capability.offset
        is64Bit := control &&& 1#16 <<< 7 ≠ 0
        perVectorMasking := control &&& 1#16 <<< 8 ≠ 0
        multipleMessageCapable := ((control >>> 1) &&& 0x7).setWidth 8 }

def decodeMsix (config : Bytes) (capability : PciCapability) :
    Except CapabilityError MsixCapability :=
  let offset := capability.offset.toNat
  if capability.id ≠ 0x11 then .error .truncated
  else if config.length < offset + 12 then .error .truncated
  else
    let control := controlAt config capability.offset
    let table := BitVec.ofNat 32 (fieldAt config (offset + 4) 4)
    let pba := BitVec.ofNat 32 (fieldAt config (offset + 8) 4)
    .ok
      { offset := capability.offset
        tableSize := (control &&& 0x07FF) + 1
        tableBir := (table &&& 0x7).setWidth 8
        tableOffset := table &&& ~~~0x7
        pbaBir := (pba &&& 0x7).setWidth 8
        pbaOffset := pba &&& ~~~0x7 }

def PciBar.isIo : PciBar → Bool
  | .io _ => true
  | _ => false

def PciDevice.bar (device : PciDevice) (index : ℕ) : Option PciBar := device.bars.1[index]?

def PciDevice.barResource (device : PciDevice) (index : ℕ) : Option PciBarResource := do
  let bar ← device.bar index
  let size ← device.barSizes.1[index]?
  if (bar.isIo || bar.isMemory) ∧ size ≠ 0 then some ⟨BitVec.ofNat 8 index, bar, size⟩ else none

/-- The address of entry zero, once the whole table and the pending bits are known
to lie inside their resources and apart from each other. -/
def entryAddress (device : PciDevice) (mapping : MmioMapping) (capability : MsixCapability) :
    Except InterruptProgrammingError U64 :=
  if capability.tableSize < 1 ∨ 2048 < capability.tableSize then .error .invalidCapability
  else do
    let memory (bir : BitVec 8) : Except InterruptProgrammingError PciBarResource :=
      ((device.barResource bir.toNat).filter (·.bar.isMemory)).elim (.error .invalidBar) .ok
    let outside (value : Option U64) : Except InterruptProgrammingError U64 :=
      value.elim (.error .tableOutsideBar) .ok
    let table ← memory capability.tableBir
    let pba ← memory capability.pbaBir
    if table.base ≠ some mapping.physicalBase ∨ table.size ≠ mapping.size then .error .invalidBar
    else
      let tableStart := capability.tableOffset.setWidth 64
      let tableBytes := capability.tableSize.setWidth 64 * 16
      let tableEnd ← outside (Checked.add tableStart tableBytes)
      let pbaStart := capability.pbaOffset.setWidth 64
      let pbaEnd ← outside
        (Checked.add pbaStart ((capability.tableSize.setWidth 64 + 63) / 64 * 8))
      if tableStart &&& 7 ≠ 0 ∨ pbaStart &&& 7 ≠ 0 ∨ table.size < tableEnd ∨ pba.size < pbaEnd ∨
          (table.index = pba.index ∧ tableStart < pbaEnd ∧ pbaStart < tableEnd) then
        .error .tableOutsideBar
      else outside (mapping.virtualAddress tableStart tableBytes)

/-- What the walk accepts: a chain of aligned entries beyond the header, none of
them visited before, inside the configuration space. -/
structure Chain (config : Bytes) (visited : List ℕ) (capabilities : List PciCapability) : Prop where
  aligned : ∀ c ∈ capabilities, c.offset &&& 3 = 0
  inside : ∀ c ∈ capabilities, 0x40 ≤ c.offset.toNat ∧ c.offset.toNat + 2 ≤ config.length
  fresh : ∀ c ∈ capabilities, (c.offset.toNat - 0x40) / 4 ∉ visited
  apart : capabilities.Pairwise fun c d ↦
    (c.offset.toNat - 0x40) / 4 ≠ (d.offset.toNat - 0x40) / 4

theorem chain_nil (config : Bytes) (visited : List ℕ) : Chain config visited [] :=
  ⟨nofun, nofun, nofun, .nil⟩

theorem Chain.cons {config : Bytes} {visited : List ℕ} {c : PciCapability}
    {rest : List PciCapability} (h : Chain config ((c.offset.toNat - 0x40) / 4 :: visited) rest)
    (haligned : c.offset &&& 3 = 0)
    (hinside : 0x40 ≤ c.offset.toNat ∧ c.offset.toNat + 2 ≤ config.length)
    (hfresh : (c.offset.toNat - 0x40) / 4 ∉ visited) : Chain config visited (c :: rest) where
  aligned := List.forall_mem_cons.mpr ⟨haligned, h.aligned⟩
  inside := List.forall_mem_cons.mpr ⟨hinside, h.inside⟩
  fresh := by
    refine List.forall_mem_cons.mpr ⟨hfresh, fun d hd hmem ↦ ?_⟩
    exact h.fresh d hd (List.mem_cons_of_mem _ hmem)
  apart := by
    refine List.pairwise_cons.mpr ⟨fun d hd heq ↦ ?_, h.apart⟩
    exact h.fresh d hd (heq ▸ List.mem_cons_self)

theorem chain_walkFrom {config : Bytes} {room : ℕ} {visited : List ℕ} {pointer : BitVec 8}
    {capabilities : List PciCapability}
    (h : walkFrom config room visited pointer = .ok capabilities) :
    Chain config visited capabilities ∧ capabilities.length ≤ room := by
  induction room generalizing visited pointer capabilities with
  | zero =>
    unfold walkFrom at h
    dsimp only at h
    split_ifs at h
    cases h
    exact ⟨chain_nil config visited, le_rfl⟩
  | succ room ih =>
    unfold walkFrom at h
    dsimp only at h
    split_ifs at h with hend haligned hrange hvisited hlength
    · cases h
      exact ⟨chain_nil config visited, Nat.zero_le _⟩
    · cases hrest : walkFrom config room ((pointer.toNat - 0x40) / 4 :: visited)
        (BitVec.ofNat 8 (fieldAt config (pointer.toNat + 1) 1)) with
      | error e =>
        rw [hrest] at h
        cases h
      | ok rest =>
        rw [hrest] at h
        cases h
        obtain ⟨hchain, hroom⟩ := ih hrest
        have hlow : 0x40 ≤ pointer.toNat := by
          have hlt := fun hlt ↦ hrange (.inl hlt)
          rw [BitVec.lt_def] at hlt
          exact Nat.not_lt.mp hlt
        refine ⟨?_, Nat.succ_le_succ hroom⟩
        refine Chain.cons (c := ⟨_, pointer⟩) hchain (not_not.mp haligned) ⟨hlow, ?_⟩ hvisited
        exact Nat.not_lt.mp hlength

end BraneKernel
