import BraneKernel.Lib.Bytes
import BraneKernel.Lib.Records
import BraneKernel.Lib.Slots
import BraneKernel.Smp.BootPlan

namespace BraneKernel.Madt

open Bytes (field wordAt)
open Records (Turn Result IsRecord follow)

structure IoApicEntry where
  id : BitVec 8
  address : U32
  globalIrqBase : U32
  deriving DecidableEq

structure InterruptSourceOverride where
  bus : BitVec 8
  sourceIrq : BitVec 8
  globalIrq : U32
  flags : U16
  deriving DecidableEq

@[ext]
structure Info extends MadtInfo where
  localApicAddress : U64
  ioApics : List (Option IoApicEntry)
  ioApicCount : ℕ
  interruptOverrides : List (Option InterruptSourceOverride)
  interruptOverrideCount : ℕ
  ioApics_size : ioApics.length = 8
  interruptOverrides_size : interruptOverrides.length = 16

inductive ParseError
  | tooShort | invalidSignature | invalidLength | invalidChecksum
  deriving DecidableEq

def signature : Bytes := [0x41, 0x50, 0x49, 0x43]

namespace Info

variable (info : Info)

def empty (localApicAddress : U64) : Info where
  cpus := List.replicate 32 none
  cpuCount := 0
  size := List.length_replicate
  localApicAddress := localApicAddress
  ioApics := List.replicate 8 none
  ioApicCount := 0
  interruptOverrides := List.replicate 16 none
  interruptOverrideCount := 0
  ioApics_size := List.length_replicate
  interruptOverrides_size := List.length_replicate

def addCpu (cpu : CpuEntry) : Info :=
  { info with
    cpus := info.cpus.set info.cpuCount (some cpu)
    cpuCount := info.cpuCount + 1
    size := List.length_set.trans info.size }

def addIoApic (ioApic : IoApicEntry) : Info :=
  { info with
    ioApics := info.ioApics.set info.ioApicCount (some ioApic)
    ioApicCount := info.ioApicCount + 1
    ioApics_size := List.length_set.trans info.ioApics_size }

def addInterruptOverride (interruptOverride : InterruptSourceOverride) : Info :=
  { info with
    interruptOverrides := info.interruptOverrides.set info.interruptOverrideCount (some interruptOverride)
    interruptOverrideCount := info.interruptOverrideCount + 1
    interruptOverrides_size := List.length_set.trans info.interruptOverrides_size }

end Info

/-- The `match` on the kind of the entry at an offset. `none` is an index out of range. -/
def readEntry (table : Bytes) (offset : ℕ) (kind : BitVec 8) (entryLen : ℕ) (info : Info) :
    Option (Except ParseError Info) :=
  if kind = 0 then
    if entryLen < 8 then some (.error .invalidLength)
    else if info.cpuCount < info.cpus.length then do
      let processorUid ← table[offset + 2]?
      let apicId ← table[offset + 3]?
      let flags ← wordAt 32 table (offset + 4) 4
      return .ok (info.addCpu ⟨processorUid.setWidth 32, apicId.setWidth 32, flags &&& 1 != 0⟩)
    else some (.ok info)
  else if kind = 1 then
    if entryLen < 12 then some (.error .invalidLength)
    else if info.ioApicCount < info.ioApics.length then do
      let id ← table[offset + 2]?
      let address ← wordAt 32 table (offset + 4) 4
      let globalIrqBase ← wordAt 32 table (offset + 8) 4
      return .ok (info.addIoApic ⟨id, address, globalIrqBase⟩)
    else some (.ok info)
  else if kind = 2 then
    if entryLen < 10 then some (.error .invalidLength)
    else if info.interruptOverrideCount < info.interruptOverrides.length then do
      let bus ← table[offset + 2]?
      let sourceIrq ← table[offset + 3]?
      let globalIrq ← wordAt 32 table (offset + 4) 4
      let flags ← wordAt 16 table (offset + 8) 2
      return .ok (info.addInterruptOverride ⟨bus, sourceIrq, globalIrq, flags⟩)
    else some (.ok info)
  else if kind = 5 then
    if entryLen < 12 then some (.error .invalidLength)
    else do
      let localApicAddress ← wordAt 64 table (offset + 4) 8
      return .ok { info with localApicAddress := localApicAddress }
  else if kind = 9 then
    if entryLen < 16 then some (.error .invalidLength)
    else if info.cpuCount < info.cpus.length then do
      let apicId ← wordAt 32 table (offset + 4) 4
      let processorUid ← wordAt 32 table (offset + 12) 4
      let flags ← wordAt 32 table (offset + 8) 4
      return .ok (info.addCpu ⟨processorUid, apicId, flags &&& 1 != 0⟩)
    else some (.ok info)
  else some (.ok info)

/-- The loop over the entries before `length`. `none` is an index out of range, or a
loop that has not ended after `fuel` turns. -/
def parseEntries (table : Bytes) (length : ℕ) : ℕ → ℕ → Info → Option (Except ParseError Info)
  | 0, _, _ => none
  | fuel + 1, offset, info =>
    if offset < length then
      if length < offset + 2 then some (.error .invalidLength)
      else do
        let kind ← table[offset]?
        let entryLen ← table[offset + 1]?
        if entryLen.toNat < 2 ∨ length < offset + entryLen.toNat then some (.error .invalidLength)
        else
          match ← readEntry table offset kind entryLen.toNat info with
          | .error e => some (.error e)
          | .ok info => parseEntries table length fuel (offset + entryLen.toNat) info
    else some (.ok info)

def parse (table : Bytes) : Option (Except ParseError Info) :=
  if table.length < 44 then some (.error .tooShort)
  else if table.take 4 ≠ signature then some (.error .invalidSignature)
  else do
    let length ← wordAt 32 table 4 4
    if length.toNat < 44 ∨ table.length < length.toNat then some (.error .invalidLength)
    else if (table.take length.toNat).foldl (· + ·) 0 ≠ 0 then some (.error .invalidChecksum)
    else do
      let localApicAddress ← wordAt 32 table 36 4
      parseEntries table length.toNat (length.toNat + 1) 44 (.empty (localApicAddress.setWidth 64))

/-! The entries of a table, as their kinds lay them out. -/

def entrySize (_ entryLen : BitVec 8) : ℕ := entryLen.toNat

def kindOf (r : Bytes) : BitVec 8 := field 8 r 0 1

def neededLength (r : Bytes) : ℕ :=
  if kindOf r = 0 then 8
  else if kindOf r = 1 then 12
  else if kindOf r = 2 then 10
  else if kindOf r = 5 then 12
  else if kindOf r = 9 then 16
  else 2

def cpuOf (r : Bytes) : Option CpuEntry :=
  if kindOf r = 0 then
    some ⟨(field 8 r 2 1).setWidth 32, (field 8 r 3 1).setWidth 32, field 32 r 4 4 &&& 1 != 0⟩
  else if kindOf r = 9 then some ⟨field 32 r 12 4, field 32 r 4 4, field 32 r 8 4 &&& 1 != 0⟩
  else none

def ioApicOf (r : Bytes) : Option IoApicEntry :=
  if kindOf r = 1 then some ⟨field 8 r 2 1, field 32 r 4 4, field 32 r 8 4⟩ else none

def interruptOverrideOf (r : Bytes) : Option InterruptSourceOverride :=
  if kindOf r = 2 then some ⟨field 8 r 2 1, field 8 r 3 1, field 32 r 4 4, field 16 r 8 2⟩ else none

def addressOf (r : Bytes) : Option U64 :=
  if kindOf r = 5 then some (field 64 r 4 8) else none

/-- What a table says: the first entries of each kind in the order of the table, and
the last local APIC address. -/
structure Reads (header : U64) (entries : List Bytes) (info : Info) : Prop where
  cpus : info.cpus = Slots.fill 32 (entries.filterMap cpuOf)
  cpuCount : info.cpuCount = min (entries.filterMap cpuOf).length 32
  ioApics : info.ioApics = Slots.fill 8 (entries.filterMap ioApicOf)
  ioApicCount : info.ioApicCount = min (entries.filterMap ioApicOf).length 8
  interruptOverrides : info.interruptOverrides = Slots.fill 16 (entries.filterMap interruptOverrideOf)
  interruptOverrideCount :
    info.interruptOverrideCount = min (entries.filterMap interruptOverrideOf).length 16
  localApicAddress : info.localApicAddress = ((entries.filterMap addressOf).getLast?).getD header

structure Header (table : Bytes) (length : ℕ) : Prop where
  signature : table.take 4 = signature
  declared : length = (field 32 table 4 4).toNat
  header : 44 ≤ length
  inside : length ≤ table.length
  checksum : ((table.take length).map (·.toNat)).sum % 256 = 0

/-- The entries tile the declared length, each as long as its kind needs. -/
structure Valid (table : Bytes) (length : ℕ) (entries : List Bytes) : Prop
    extends Header table length where
  tiles : (table.take length).drop 44 = entries.flatten
  sizes : ∀ r ∈ entries, IsRecord entrySize r
  needed : ∀ r ∈ entries, neededLength r ≤ r.length

variable {table r : Bytes} {offset length : ℕ} {info : Info} {header : U64} {entries : List Bytes}

structure At (table : Bytes) (offset : ℕ) (r : Bytes) : Prop where
  byte : ∀ i < r.length, table[offset + i]? = some (field 8 r i 1)
  word : ∀ width i n, i + n ≤ r.length → wordAt width table (offset + i) n = some (field width r i n)

theorem at_window (h : offset + length ≤ table.length) :
    At table offset ((table.drop offset).take length) := by
  have hlength : ((table.drop offset).take length).length = length := by
    rw [List.length_take, List.length_drop]
    omega
  constructor
  · intro i hi
    rw [hlength] at hi
    rw [Bytes.field_window (by omega), Bytes.field_byte (by omega), List.getElem?_eq_getElem]
  · intro width i n hin
    rw [hlength] at hin
    rw [Bytes.field_window hin, wordAt, if_pos (by omega)]

namespace Info

def add (info : Info) (r : Bytes) : Info where
  cpus := (Slots.push info.cpus info.cpuCount (cpuOf r)).1
  cpuCount := (Slots.push info.cpus info.cpuCount (cpuOf r)).2
  size := (Slots.length_push ..).trans info.size
  localApicAddress := (addressOf r).getD info.localApicAddress
  ioApics := (Slots.push info.ioApics info.ioApicCount (ioApicOf r)).1
  ioApicCount := (Slots.push info.ioApics info.ioApicCount (ioApicOf r)).2
  interruptOverrides :=
    (Slots.push info.interruptOverrides info.interruptOverrideCount (interruptOverrideOf r)).1
  interruptOverrideCount :=
    (Slots.push info.interruptOverrides info.interruptOverrideCount (interruptOverrideOf r)).2
  ioApics_size := (Slots.length_push ..).trans info.ioApics_size
  interruptOverrides_size := (Slots.length_push ..).trans info.interruptOverrides_size

section Kinds

variable (hcpu : cpuOf r = none) (hio : ioApicOf r = none) (hover : interruptOverrideOf r = none)
  (haddress : addressOf r = none)

include hio hover haddress in
theorem add_cpu {cpu : CpuEntry} (hcpu : cpuOf r = some cpu) :
    info.add r = if info.cpuCount < info.cpus.length then info.addCpu cpu else info := by
  split_ifs with hroom
  · apply Info.ext <;> simp [add, addCpu, Slots.push, *]
  · apply Info.ext <;> simp [add, Slots.push, *]

include hcpu hover haddress in
theorem add_ioApic {ioApic : IoApicEntry} (hio : ioApicOf r = some ioApic) :
    info.add r = if info.ioApicCount < info.ioApics.length then info.addIoApic ioApic else info := by
  split_ifs with hroom
  · apply Info.ext <;> simp [add, addIoApic, Slots.push, *]
  · apply Info.ext <;> simp [add, Slots.push, *]

include hcpu hio haddress in
theorem add_interruptOverride {o : InterruptSourceOverride} (hover : interruptOverrideOf r = some o) :
    info.add r = if info.interruptOverrideCount < info.interruptOverrides.length then
      info.addInterruptOverride o else info := by
  split_ifs with hroom
  · apply Info.ext <;> simp [add, addInterruptOverride, Slots.push, *]
  · apply Info.ext <;> simp [add, Slots.push, *]

include hcpu hio hover in
theorem add_address {address : U64} (haddress : addressOf r = some address) :
    info.add r = { info with localApicAddress := address } := by
  apply Info.ext <;> simp [add, Slots.push, *]

include hcpu hio hover haddress in
theorem add_unknown : info.add r = info := by
  apply Info.ext <;> simp [add, Slots.push, *]

end Kinds

end Info

theorem At.readEntry_eq (h : At table offset r) (hmin : 2 ≤ r.length) (info : Info) :
    readEntry table offset (kindOf r) r.length info =
      some (if r.length < neededLength r then .error .invalidLength else .ok (info.add r)) := by
  unfold readEntry neededLength
  by_cases h0 : kindOf r = 0
  · rw [if_pos h0, if_pos h0]
    by_cases hshort : r.length < 8
    · rw [if_pos hshort, if_pos hshort]
    · rw [if_neg hshort, if_neg hshort, h.byte 2 (by omega), h.byte 3 (by omega),
        h.word 32 4 4 (by omega), Info.add_cpu (by simp [ioApicOf, h0]) (by simp [interruptOverrideOf, h0])
          (by simp [addressOf, h0]) (if_pos h0)]
      split_ifs <;> rfl
  rw [if_neg h0, if_neg h0]
  by_cases h1 : kindOf r = 1
  · rw [if_pos h1, if_pos h1]
    by_cases hshort : r.length < 12
    · rw [if_pos hshort, if_pos hshort]
    · rw [if_neg hshort, if_neg hshort, h.byte 2 (by omega), h.word 32 4 4 (by omega),
        h.word 32 8 4 (by omega), Info.add_ioApic (by simp [cpuOf, h1]) (by simp [interruptOverrideOf, h1])
          (by simp [addressOf, h1]) (if_pos h1)]
      split_ifs <;> rfl
  rw [if_neg h1, if_neg h1]
  by_cases h2 : kindOf r = 2
  · rw [if_pos h2, if_pos h2]
    by_cases hshort : r.length < 10
    · rw [if_pos hshort, if_pos hshort]
    · rw [if_neg hshort, if_neg hshort, h.byte 2 (by omega), h.byte 3 (by omega),
        h.word 32 4 4 (by omega), h.word 16 8 2 (by omega),
        Info.add_interruptOverride (by simp [cpuOf, h2]) (by simp [ioApicOf, h2])
          (by simp [addressOf, h2]) (if_pos h2)]
      split_ifs <;> rfl
  rw [if_neg h2, if_neg h2]
  by_cases h5 : kindOf r = 5
  · rw [if_pos h5, if_pos h5]
    by_cases hshort : r.length < 12
    · rw [if_pos hshort, if_pos hshort]
    · rw [if_neg hshort, if_neg hshort, h.word 64 4 8 (by omega), Info.add_address (by simp [cpuOf, h5])
        (by simp [ioApicOf, h5]) (by simp [interruptOverrideOf, h5]) (if_pos h5)]
      rfl
  rw [if_neg h5, if_neg h5]
  by_cases h9 : kindOf r = 9
  · rw [if_pos h9, if_pos h9]
    by_cases hshort : r.length < 16
    · rw [if_pos hshort, if_pos hshort]
    · have hcpu : cpuOf r = some ⟨field 32 r 12 4, field 32 r 4 4, field 32 r 8 4 &&& 1 != 0⟩ := by
        rw [cpuOf, if_neg h0, if_pos h9]
      rw [if_neg hshort, if_neg hshort, h.word 32 4 4 (by omega), h.word 32 8 4 (by omega),
        h.word 32 12 4 (by omega), Info.add_cpu (by simp [ioApicOf, h9])
          (by simp [interruptOverrideOf, h9]) (by simp [addressOf, h9]) hcpu]
      split_ifs <;> rfl
  · rw [if_neg h9, if_neg h9, if_neg (by omega),
      Info.add_unknown ((if_neg h0).trans (if_neg h9)) (if_neg h1) (if_neg h2) (if_neg h5)]

def entryTurn (info : Info) (r : Bytes) : Option (Turn Info ParseError) :=
  some (if r.length < neededLength r then .stop .invalidLength else .go (info.add r))

def entriesResult : Result Info ParseError → Except ParseError Info
  | .ended info => .ok info
  | .stopped e => .error e
  | .malformed => .error .invalidLength

theorem parseEntries_eq (h : length ≤ table.length) (fuel offset : ℕ) (info : Info) :
    parseEntries table length fuel offset info =
      (Records.scan entrySize entryTurn fuel info ((table.take length).drop offset)).map
        entriesResult := by
  induction fuel generalizing offset info with
  | zero => rfl
  | succ fuel ih =>
    rw [parseEntries]
    by_cases hmore : offset < length
    · rw [if_pos hmore]
      by_cases hshort : length < offset + 2
      · rw [if_pos hshort, Records.scan_short hmore (by omega) h]
        rfl
      obtain ⟨kind, hkind⟩ : ∃ kind, table[offset]? = some kind :=
        ⟨_, List.getElem?_eq_getElem (by omega)⟩
      obtain ⟨entryLen, hentryLen⟩ : ∃ entryLen, table[offset + 1]? = some entryLen :=
        ⟨_, List.getElem?_eq_getElem (by omega)⟩
      rw [if_neg hshort, hkind, hentryLen, Records.scan_window hkind hentryLen (by omega) h, entrySize]
      dsimp only [Option.bind_eq_bind, Option.bind_some]
      by_cases hbad : entryLen.toNat < 2 ∨ length < offset + entryLen.toNat
      · rw [if_pos hbad, if_neg (by omega)]
        rfl
      have hat : At table offset ((table.drop offset).take entryLen.toNat) := at_window (by omega)
      have hlength : ((table.drop offset).take entryLen.toNat).length = entryLen.toNat := by
        rw [List.length_take, List.length_drop]
        omega
      have hkindOf : kindOf ((table.drop offset).take entryLen.toNat) = kind :=
        Option.some.inj ((hat.byte 0 (by omega)).symm.trans hkind)
      have hread := hat.readEntry_eq (by omega) info
      rw [hkindOf, hlength] at hread
      rw [if_neg hbad, if_pos (by omega), hread, entryTurn, hlength]
      by_cases hneeded : entryLen.toNat < neededLength ((table.drop offset).take entryLen.toNat)
      · rw [if_pos hneeded, if_pos hneeded]
        rfl
      · rw [if_neg hneeded, if_neg hneeded]
        exact ih _ _
    · rw [if_neg hmore, Records.scan_end (by omega)]
      rfl

theorem foldl_add_eq (bytes : Bytes) (b : BitVec 8) :
    bytes.foldl (· + ·) b = b + BitVec.ofNat 8 (bytes.map (·.toNat)).sum := by
  induction bytes generalizing b with
  | nil => rw [List.foldl_nil, List.map_nil, List.sum_nil, BitVec.add_zero]
  | cons x bytes ih =>
    rw [List.foldl_cons, ih, List.map_cons, List.sum_cons, BitVec.ofNat_add, BitVec.ofNat_toNat,
      BitVec.setWidth_eq, BitVec.add_assoc]

theorem checksum_iff (bytes : Bytes) :
    bytes.foldl (· + ·) 0 = 0 ↔ (bytes.map (·.toNat)).sum % 256 = 0 := by
  rw [foldl_add_eq, zero_add, BitVec.toNat_eq, BitVec.toNat_ofNat]
  rfl

theorem parse_cases (table : Bytes) :
    (∃ length, Header table length ∧ parse table =
      (Records.scan entrySize entryTurn (length + 1) (.empty ((field 32 table 36 4).setWidth 64))
        ((table.take length).drop 44)).map entriesResult) ∨
    ((∀ length, ¬ Header table length) ∧ ∃ e, parse table = some (.error e)) := by
  unfold parse
  by_cases hshort : table.length < 44
  · rw [if_pos hshort]
    refine .inr ⟨fun length h ↦ ?_, _, rfl⟩
    have hheader := h.header
    have hinside := h.inside
    omega
  by_cases hsignature : table.take 4 = signature
  swap
  · rw [if_neg hshort, if_pos hsignature]
    exact .inr ⟨fun length h ↦ hsignature h.signature, _, rfl⟩
  have hword : wordAt 32 table 4 4 = some (field 32 table 4 4) := if_pos (by omega)
  have haddress : wordAt 32 table 36 4 = some (field 32 table 36 4) := if_pos (by omega)
  rw [if_neg hshort, if_neg (not_not.mpr hsignature), hword, haddress]
  dsimp only [Option.bind_eq_bind, Option.bind_some]
  by_cases hlength : (field 32 table 4 4).toNat < 44 ∨ table.length < (field 32 table 4 4).toNat
  · rw [if_pos hlength]
    refine .inr ⟨fun length h ↦ ?_, _, rfl⟩
    have hheader := h.header
    have hinside := h.inside
    rw [h.declared] at hheader hinside
    omega
  rw [if_neg hlength]
  by_cases hsum : (table.take (field 32 table 4 4).toNat).foldl (· + ·) 0 = 0
  · rw [if_neg (not_not.mpr hsum), parseEntries_eq (by omega)]
    exact .inl ⟨_, ⟨hsignature, rfl, by omega, by omega, (checksum_iff _).mp hsum⟩, rfl⟩
  · rw [if_pos hsum]
    refine .inr ⟨fun length h ↦ hsum ?_, _, rfl⟩
    rw [checksum_iff, ← h.declared]
    exact h.checksum

/-! The whole table. -/

theorem filterMap_concat {α β : Type} (f : α → Option β) (l : List α) (a : α) :
    (l ++ [a]).filterMap f = l.filterMap f ++ (f a).toList := by
  rw [List.filterMap_append]
  cases h : f a <;> simp [h]

theorem Reads.add (h : Reads header entries info) (r : Bytes) :
    Reads header (entries ++ [r]) (info.add r) := by
  have hcpu := Slots.push_fill 32 (entries.filterMap cpuOf) (cpuOf r)
  have hio := Slots.push_fill 8 (entries.filterMap ioApicOf) (ioApicOf r)
  have hover := Slots.push_fill 16 (entries.filterMap interruptOverrideOf) (interruptOverrideOf r)
  rw [← h.cpus, ← h.cpuCount, ← filterMap_concat] at hcpu
  rw [← h.ioApics, ← h.ioApicCount, ← filterMap_concat] at hio
  rw [← h.interruptOverrides, ← h.interruptOverrideCount, ← filterMap_concat] at hover
  refine ⟨congrArg Prod.fst hcpu, congrArg Prod.snd hcpu, congrArg Prod.fst hio, congrArg Prod.snd hio,
    congrArg Prod.fst hover, congrArg Prod.snd hover, ?_⟩
  rw [filterMap_concat, Info.add, h.localApicAddress]
  cases haddress : addressOf r with
  | none => rw [Option.toList_none, List.append_nil]; rfl
  | some address => rw [Option.toList_some, List.getLast?_concat]; rfl

theorem reads_foldl (header : U64) (entries : List Bytes) :
    Reads header entries (entries.foldl Info.add (.empty header)) := by
  induction entries using List.reverseRecOn with
  | nil =>
    exact ⟨(Slots.fill_nil 32).symm, rfl, (Slots.fill_nil 8).symm, rfl, (Slots.fill_nil 16).symm, rfl,
      rfl⟩
  | append_singleton entries r ih =>
    rw [List.foldl_concat]
    exact ih.add r

theorem follow_iff {info' : Info} : follow entryTurn info entries = some info' ↔
    (∀ r ∈ entries, neededLength r ≤ r.length) ∧ entries.foldl Info.add info = info' := by
  induction entries generalizing info with
  | nil => simp [follow]
  | cons r rs ih =>
    rw [List.forall_mem_cons, List.foldl_cons]
    by_cases hshort : r.length < neededLength r
    · rw [Records.follow_stop (congrArg some (if_pos hshort))]
      exact iff_of_false (by simp) fun h ↦ absurd h.1.1 (Nat.not_le.mpr hshort)
    · rw [Records.follow_go (congrArg some (if_neg hshort)), ih, and_assoc,
        and_iff_right (Nat.not_lt.mp hshort)]

theorem entryTurn_ne_none (info : Info) (r : Bytes) (_ : IsRecord entrySize r) :
    entryTurn info r ≠ none := nofun

theorem window_length_lt (table : Bytes) (length : ℕ) :
    ((table.take length).drop 44).length < length + 1 := by
  rw [List.length_drop, List.length_take]
  omega

theorem parse_ok_iff (table : Bytes) (info : Info) : parse table = some (.ok info) ↔
    ∃ length entries, Valid table length entries ∧
      entries.foldl Info.add (.empty ((field 32 table 36 4).setWidth 64)) = info := by
  obtain ⟨length, hheader, hparse⟩ | ⟨hnone, e, hparse⟩ := parse_cases table
  · rw [hparse, Option.map_eq_some_iff]
    have hfuel := window_length_lt table length
    constructor
    · rintro ⟨result, hscan, hresult⟩
      cases result with
      | stopped e => cases hresult
      | malformed => cases hresult
      | ended info' =>
        cases hresult
        obtain ⟨entries, hsizes, htiles, hfollow⟩ :=
          (Records.scan_ended_iff entryTurn_ne_none hfuel).mp hscan
        obtain ⟨hneeded, hadded⟩ := follow_iff.mp hfollow
        exact ⟨length, entries, ⟨hheader, htiles, hsizes, hneeded⟩, hadded⟩
    · rintro ⟨length', entries, hvalid, hadded⟩
      obtain rfl : length = length' := hheader.declared.trans hvalid.declared.symm
      have hended := (Records.scan_ended_iff entryTurn_ne_none hfuel).mpr
        ⟨entries, hvalid.sizes, hvalid.tiles, follow_iff.mpr ⟨hvalid.needed, hadded⟩⟩
      exact ⟨.ended info, hended, rfl⟩
  · rw [hparse]
    refine iff_of_false nofun ?_
    rintro ⟨length, entries, hvalid, -⟩
    exact hnone length hvalid.toHeader

/-- The parser answers every byte string without an access out of range. It accepts
exactly the valid tables, and returns what their entries say. -/
theorem madt_parse (table : Bytes) : parse table ≠ none ∧
    ((∃ info, parse table = some (.ok info)) ↔ ∃ length entries, Valid table length entries) ∧
    ∀ info length entries, parse table = some (.ok info) → Valid table length entries →
      Reads ((field 32 table 36 4).setWidth 64) entries info := by
  refine ⟨?_, ⟨?_, ?_⟩, fun info length entries hparse hvalid ↦ ?_⟩
  · obtain ⟨length, -, hparse⟩ | ⟨-, e, hparse⟩ := parse_cases table
    · rw [hparse, ne_eq, Option.map_eq_none_iff]
      exact Records.scan_ne_none entryTurn_ne_none (window_length_lt table length)
    · rw [hparse]
      exact nofun
  · rintro ⟨info, hparse⟩
    obtain ⟨length, entries, hvalid, -⟩ := (parse_ok_iff table info).mp hparse
    exact ⟨length, entries, hvalid⟩
  · rintro ⟨length, entries, hvalid⟩
    exact ⟨_, (parse_ok_iff table _).mpr ⟨length, entries, hvalid, rfl⟩⟩
  · have hparse' := (parse_ok_iff table _).mpr ⟨length, entries, hvalid, rfl⟩
    obtain rfl := Except.ok.inj (Option.some.inj (hparse.symm.trans hparse'))
    exact reads_foldl _ entries

theorem Reads.collected (h : Reads header entries info) :
    (info.cpus.take info.cpuCount).reduceOption = (entries.filterMap cpuOf).take 32 := by
  have hlength : (((entries.filterMap cpuOf).take 32).map some).length = info.cpuCount := by
    rw [List.length_map, List.length_take, h.cpuCount, Nat.min_comm]
  rw [h.cpus, Slots.fill, ← hlength, List.take_left, List.reduceOption, List.filterMap_map]
  exact List.filterMap_some

end BraneKernel.Madt
