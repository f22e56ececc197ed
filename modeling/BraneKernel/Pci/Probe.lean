import BraneKernel.Pci.Capabilities
import Mathlib.Logic.Function.Basic

namespace BraneKernel

def commandIoSpace : U16 := 1 <<< 0
def commandMemorySpace : U16 := 1 <<< 1

inductive PciBarProbeError
  | invalidIndex | unusableBar | invalidSize | addressOverflow
  deriving DecidableEq

structure PciConfigAccess (σ : Type) where
  readU32 : σ → PciAddress → U16 → U32
  writeU32 : σ → PciAddress → U16 → U32 → σ

def PciBar.isMemory64 : PciBar → Bool
  | .memory64 _ _ => true
  | _ => false

def barSizeFromMask (mask : U64) (widthBits : ℕ) : Option U64 :=
  let size :=
    if widthBits = 32 then some ((~~~(mask.setWidth 32) + 1).setWidth 64)
    else if widthBits = 64 then some (~~~mask + 1)
    else none
  size.filter isPowerOfTwo

def barSize (maskLow : U32) (maskHigh : Option U32) : PciBar → Option U64
  | .io _ => barSizeFromMask ((maskLow &&& 0xFFFFFFFC).setWidth 64) 32
  | .memory32 _ _ => barSizeFromMask ((maskLow &&& 0xFFFFFFF0).setWidth 64) 32
  | .memory64 _ _ =>
    barSizeFromMask
      ((maskHigh.getD 0).setWidth 64 <<< 32 ||| (maskLow &&& 0xFFFFFFF0).setWidth 64) 64
  | _ => none

def measuredBar (bar : PciBar) (index : ℕ) (maskLow : U32) (maskHigh : Option U32) :
    Except PciBarProbeError PciBarResource :=
  match barSize maskLow maskHigh bar with
  | none => .error .invalidSize
  | some size =>
    match bar.base with
    | none => .error .unusableBar
    | some base =>
      if base &&& (size - 1) ≠ 0 then .error .invalidSize
      else
        match Checked.add base size with
        | none => .error .addressOverflow
        | some _ => .ok ⟨BitVec.ofNat 8 index, bar, size⟩

variable {σ : Type}

def probeBarWith (access : PciConfigAccess σ) (device : PciDevice) (index : ℕ) (s : σ) :
    σ × Except PciBarProbeError PciBarResource :=
  match device.bar index with
  | none => (s, .error .invalidIndex)
  | some bar =>
    if bar.isIo = false ∧ bar.isMemory = false then (s, .error .unusableBar)
    else if bar.isMemory64 = true ∧ maxPciBars ≤ index + 1 then (s, .error .invalidIndex)
    else
      let address := device.address
      let lowOffset : U16 := 0x10 + BitVec.ofNat 16 index * 4
      let originalCommand : U16 := (access.readU32 s address 0x04).setWidth 16
      let originalLow := access.readU32 s address lowOffset
      let originalHigh :=
        if bar.isMemory64 then some (access.readU32 s address (lowOffset + 4)) else none
      let s := access.writeU32 s address 0x04
        ((originalCommand &&& ~~~(commandIoSpace ||| commandMemorySpace)).setWidth 32)
      let s := access.writeU32 s address lowOffset (BitVec.allOnes 32)
      let s :=
        if originalHigh.isSome then access.writeU32 s address (lowOffset + 4) (BitVec.allOnes 32) else s
      let maskLow := access.readU32 s address lowOffset
      let maskHigh := originalHigh.map fun _ ↦ access.readU32 s address (lowOffset + 4)
      let s := access.writeU32 s address lowOffset originalLow
      let s :=
        match originalHigh with
        | some original => access.writeU32 s address (lowOffset + 4) original
        | none => s
      let s := access.writeU32 s address 0x04 (originalCommand.setWidth 32)
      (s, measuredBar bar index maskLow maskHigh)

/-! Registers of a function. -/

def barCount (headerType : BitVec 8) : ℕ :=
  if headerType &&& 0x7F = 0 then 6 else if headerType &&& 0x7F = 1 then 2 else 0

def barOffset (i : ℕ) : U16 := 0x10 + BitVec.ofNat 16 i * 4

/-- A write to the Command and Status registers: Command takes the value, and each
one clears a bit of Status. -/
def commandWritten (old value : U32) : U32 :=
  old &&& ~~~value &&& 0xFFFF0000 ||| value &&& 0x0000FFFF

def quietCommand (command : U32) : U32 :=
  (command.setWidth 16 &&& ~~~(commandIoSpace ||| commandMemorySpace)).setWidth 32

def sameCommand (command : U32) : U32 := (command.setWidth 16 : U16).setWidth 32

def barWritten (wired : ℕ) (old value : U32) : U32 :=
  value &&& BitVec.allOnes 32 <<< wired ||| old &&& ~~~(BitVec.allOnes 32 <<< wired)

namespace PciConfigAccess

/-- Command is read and written, Status is write-one-to-clear, and of the `count` base
address registers only low bits are hard-wired, of each as many as `wired` says. -/
structure Plain (access : PciConfigAccess σ) (address : PciAddress) (count : ℕ) (wired : ℕ → ℕ) :
    Prop where
  command : ∀ s value, access.readU32 (access.writeU32 s address 0x04 value) address 0x04 =
    commandWritten (access.readU32 s address 0x04) value
  bar : ∀ s i value, i < count →
    access.readU32 (access.writeU32 s address (barOffset i) value) address (barOffset i) =
      barWritten (wired i) (access.readU32 s address (barOffset i)) value
  command_frame : ∀ s i value, i < count →
    access.readU32 (access.writeU32 s address 0x04 value) address (barOffset i) =
      access.readU32 s address (barOffset i)
  bar_frame : ∀ s i value, i < count →
    access.readU32 (access.writeU32 s address (barOffset i) value) address 0x04 =
      access.readU32 s address 0x04
  bars_frame : ∀ s i j value, i < count → j < count → i ≠ j →
    access.readU32 (access.writeU32 s address (barOffset i) value) address (barOffset j) =
      access.readU32 s address (barOffset j)

def recorded (access : PciConfigAccess σ) : PciConfigAccess (σ × List σ) where
  readU32 s := access.readU32 s.1
  writeU32 s address offset value :=
    let t := access.writeU32 s.1 address offset value
    (t, s.2 ++ [t])

def DecodingOff (access : PciConfigAccess σ) (address : PciAddress) (s : σ) : Prop :=
  (access.readU32 s address 0x04).setWidth 16 &&& (commandIoSpace ||| commandMemorySpace) = 0

structure Holds (access : PciConfigAccess σ) (address : PciAddress) (count : ℕ) (s : σ)
    (command : U32) (bars : ℕ → U32) : Prop where
  command_eq : access.readU32 s address 0x04 = command
  bar_eq : ∀ i < count, access.readU32 s address (barOffset i) = bars i

end PciConfigAccess

theorem barOffset_succ (i : ℕ) : barOffset (i + 1) = barOffset i + 4 := by
  rw [barOffset, barOffset, BitVec.ofNat_add, BitVec.add_mul, BitVec.add_assoc]
  rfl

section Bits

variable {j : ℕ}

theorem getLsbD_commandWritten (old : U32) (value : U16) (hj : j < 32) :
    (commandWritten old (value.setWidth 32)).getLsbD j =
      if j < 16 then value.getLsbD j else old.getLsbD j := by
  have hstatus : ∀ j < 32, (0xFFFF0000 : U32).getLsbD j = decide (16 ≤ j) := by decide
  have hcommand : ∀ j < 32, (0x0000FFFF : U32).getLsbD j = decide (j < 16) := by decide
  have hvalue : (value.setWidth 32).getLsbD j = value.getLsbD j := by
    rw [BitVec.getLsbD_setWidth, decide_eq_true hj, Bool.true_and]
  rw [commandWritten, BitVec.getLsbD_or, BitVec.getLsbD_and, BitVec.getLsbD_and, BitVec.getLsbD_and,
    BitVec.getLsbD_not, hvalue, hstatus j hj, hcommand j hj]
  by_cases hlow : j < 16
  · simp [hlow, Nat.not_le.mpr hlow]
  · simp [hlow, hj, Nat.not_lt.mp hlow]

theorem setWidth_commandWritten (old : U32) (value : U16) :
    (commandWritten old (value.setWidth 32)).setWidth 16 = value := by
  refine BitVec.eq_of_getLsbD_eq fun j hj ↦ ?_
  rw [BitVec.getLsbD_setWidth, getLsbD_commandWritten old value (by omega), if_pos hj,
    decide_eq_true hj, Bool.true_and]

theorem commandWritten_restore (old : U32) :
    commandWritten (commandWritten old (quietCommand old)) (sameCommand old) = old := by
  unfold quietCommand sameCommand
  refine BitVec.eq_of_getLsbD_eq fun j hj ↦ ?_
  rw [getLsbD_commandWritten _ _ hj, getLsbD_commandWritten _ _ hj]
  split_ifs with hlow
  · rw [BitVec.getLsbD_setWidth, decide_eq_true hlow, Bool.true_and]
  · rfl

theorem getLsbD_barWritten (wired : ℕ) (old value : U32) (hj : j < 32) :
    (barWritten wired old value).getLsbD j = if j < wired then old.getLsbD j else value.getLsbD j := by
  rw [barWritten, BitVec.getLsbD_or, BitVec.getLsbD_and, BitVec.getLsbD_and, BitVec.getLsbD_not,
    Bits.getLsbD_allOnes_shiftLeft hj]
  by_cases hlow : j < wired
  · simp [hlow, hj, Nat.not_le.mpr hlow]
  · simp [hlow, hj, Nat.not_lt.mp hlow]

theorem barWritten_restore (wired : ℕ) (old value : U32) :
    barWritten wired (barWritten wired old value) old = old := by
  refine BitVec.eq_of_getLsbD_eq fun j hj ↦ ?_
  rw [getLsbD_barWritten _ _ _ hj, getLsbD_barWritten _ _ _ hj]
  split_ifs <;> rfl

end Bits

namespace PciConfigAccess

variable {access : PciConfigAccess σ} {address : PciAddress} {count : ℕ} {wired : ℕ → ℕ} {s : σ}
  {command : U32} {bars : ℕ → U32} {i : ℕ}

section

variable (h : Holds access address count s command bars)
  (hplain : Plain access address count wired)
include h hplain

theorem Holds.writeCommand (value : U32) :
    ∃ t, access.writeU32 s address 0x04 value = t ∧
      Holds access address count t (commandWritten command value) bars := by
  refine ⟨_, rfl, ?_, fun i hi ↦ ?_⟩
  · rw [hplain.command, h.command_eq]
  · rw [hplain.command_frame s i value hi, h.bar_eq i hi]

theorem Holds.writeBar (hi : i < count) (value : U32) :
    ∃ t, access.writeU32 s address (barOffset i) value = t ∧
      Holds access address count t command
        (Function.update bars i (barWritten (wired i) (bars i) value)) := by
  refine ⟨_, rfl, ?_, fun j hj ↦ ?_⟩
  · rw [hplain.bar_frame s i value hi, h.command_eq]
  · by_cases heq : j = i
    · subst heq
      rw [hplain.bar s j value hj, h.bar_eq j hj, Function.update_self]
    · rw [hplain.bars_frame s i j value hi hj (Ne.symm heq), h.bar_eq j hj, Function.update_of_ne heq]

end

theorem Holds.restoreBar {old value : U32}
    (h : Holds access address count s command (Function.update bars i (barWritten (wired i) old value)))
    (hplain : Plain access address count wired) (hi : i < count) (hold : bars i = old) :
    ∃ t, access.writeU32 s address (barOffset i) old = t ∧
      Holds access address count t command bars := by
  obtain ⟨t, ht, hwritten⟩ := h.writeBar hplain hi old
  rw [Function.update_self, Function.update_idem, barWritten_restore, ← hold, Function.update_eq_self]
    at hwritten
  exact ⟨t, ht, hwritten⟩

theorem Holds.decodingOff {old : U32}
    (h : Holds access address count s (commandWritten old (quietCommand old)) bars) :
    DecodingOff access address s := by
  rw [DecodingOff, h.command_eq, quietCommand, setWidth_commandWritten, BitVec.and_assoc, BitVec.and_comm (~~~_),
    BitVec.and_not_self]
  exact BitVec.and_zero

end PciConfigAccess

def Decoded (config : PciConfigSpace) (address : PciAddress) (count index : ℕ) : PciBar → Prop
  | .io _ => index < count
  | .memory32 base _ => index < count ∧ base = config.rawBar address index &&& 0xFFFFFFF0
  | .memory64 base _ => index + 1 < count ∧
    base = (config.rawBar address (index + 1)).setWidth 64 <<< 32 |||
      (config.rawBar address index &&& 0xFFFFFFF0).setWidth 64
  | _ => True

section Decoding

variable {config : PciConfigSpace} {address : PciAddress} {n start i : ℕ} {bar first : PciBar}
  {rest : List PciBar}

theorem decoded_cons (h : (first :: rest)[i]? = some bar)
    (hfirst : Decoded config address (start + (n + 1)) start first)
    (hrest : ∀ {i}, rest[i]? = some bar → Decoded config address (start + 1 + n) (start + 1 + i) bar) :
    Decoded config address (start + (n + 1)) (start + i) bar := by
  cases i with
  | zero =>
    cases (List.getElem?_cons_zero).symm.trans h
    exact hfirst
  | succ i =>
    rw [List.getElem?_cons_succ] at h
    have hdecoded := hrest h
    rwa [Nat.add_assoc start 1 n, Nat.add_comm 1 n, Nat.add_assoc start 1 i, Nat.add_comm 1 i]
      at hdecoded

theorem decodeBarsFrom_decoded (h : (config.decodeBarsFrom address n start)[i]? = some bar) :
    Decoded config address (start + n) (start + i) bar := by
  fun_induction PciConfigSpace.decodeBarsFrom config address n start generalizing i
  case case1 => cases h
  case case2 ih => exact decoded_cons h trivial ih
  case case3 n start _ _ _ ih =>
    have hlt : start < start + (n + 1) := by omega
    exact decoded_cons h hlt ih
  case case4 n start _ _ _ _ _ ih =>
    have hlt : start < start + (n + 1) := by omega
    exact decoded_cons h ⟨hlt, rfl⟩ ih
  case case5 => exact decoded_cons h trivial fun h ↦ absurd h (by simp)
  case case6 start _ _ _ _ _ n _ _ ih =>
    have hlt : start + 1 < start + (n + 1 + 1) := by omega
    exact decoded_cons h ⟨hlt, rfl⟩ fun h ↦ decoded_cons h trivial ih
  case case7 ih => exact decoded_cons h trivial ih

theorem readDevice_decoded {d : PciDevice} {index : ℕ} (hd : config.readDevice address = some d)
    (hbar : d.bar index = some bar) :
    Decoded config address (barCount d.headerType) index bar := by
  have hbars : d.bars = config.decodeBars address d.headerType := by
    unfold PciConfigSpace.readDevice at hd
    dsimp only at hd
    split_ifs at hd <;> (obtain rfl := Option.some.inj hd; rfl)
  rw [PciDevice.bar, hbars] at hbar
  change (config.decodeBarsFrom address (barCount d.headerType) 0 ++
    List.replicate (maxPciBars - barCount d.headerType) .unused)[index]? = some bar at hbar
  by_cases hin : index < (config.decodeBarsFrom address (barCount d.headerType) 0).length
  · rw [List.getElem?_append_left hin] at hbar
    have hdecoded := decodeBarsFrom_decoded hbar
    rwa [Nat.zero_add, Nat.zero_add] at hdecoded
  · rw [List.getElem?_append_right (Nat.not_lt.mp hin)] at hbar
    obtain rfl := List.eq_of_mem_replicate (List.mem_of_getElem? hbar)
    exact trivial

end Decoding

section Size

variable {k : ℕ}

theorem isPowerOfTwo_twoPow (hk : k < 64) : isPowerOfTwo (BitVec.twoPow 64 k) = true := by
  have hne : BitVec.twoPow 64 k ≠ 0#64 := by
    intro hzero
    have hbit := congrArg (fun x ↦ x.getLsbD k) hzero
    simp [hk] at hbit
  have hand := Bits.and_twoPow_sub_one (x := BitVec.twoPow 64 k) hk fun j hj ↦ by
    simp [Nat.ne_of_gt hj]
  rw [isPowerOfTwo, Bool.and_eq_true, decide_eq_true_iff, decide_eq_true_iff]
  exact ⟨hne, hand⟩

theorem barSizeFromMask_narrow (hk : k < 32) :
    barSizeFromMask ((BitVec.allOnes 32 <<< k).setWidth 64) 32 = some (BitVec.twoPow 64 k) := by
  have hmask : ((BitVec.allOnes 32 <<< k).setWidth 64).setWidth 32 = BitVec.allOnes 32 <<< k := by
    simp
  have hsize : (BitVec.twoPow 32 k).setWidth 64 = BitVec.twoPow 64 k := by
    apply BitVec.eq_of_toNat_eq
    have hlt : 2 ^ k < 2 ^ 64 := Nat.pow_lt_pow_right (by decide) (by omega)
    rw [BitVec.toNat_setWidth, BitVec.toNat_twoPow_of_lt hk, BitVec.toNat_twoPow_of_lt (by omega),
      Nat.mod_eq_of_lt hlt]
  have hneg := Bits.not_allOnes_shiftLeft_add_one (w := 32) (i := k)
  rw [barSizeFromMask, if_pos rfl, hmask]
  change (some ((~~~(BitVec.allOnes 32 <<< k) + 1#32).setWidth 64)).filter isPowerOfTwo = _
  rw [hneg, hsize, Option.filter_some, if_pos (isPowerOfTwo_twoPow (by omega))]

theorem barSizeFromMask_wide (hk : k < 64) :
    barSizeFromMask (BitVec.allOnes 64 <<< k) 64 = some (BitVec.twoPow 64 k) := by
  have hneg := Bits.not_allOnes_shiftLeft_add_one (w := 64) (i := k)
  rw [barSizeFromMask, if_neg (by decide), if_pos rfl]
  change (some (~~~(BitVec.allOnes 64 <<< k) + 1#64)).filter isPowerOfTwo = _
  rw [hneg, Option.filter_some, if_pos (isPowerOfTwo_twoPow hk)]

theorem getLsbD_flags {j : ℕ} (x : U32) (hj : j < 32) :
    (x &&& 0xFFFFFFF0).getLsbD j = (x.getLsbD j && decide (4 ≤ j)) := by
  have hmask : ∀ j < 32, (0xFFFFFFF0 : U32).getLsbD j = decide (4 ≤ j) := by decide
  rw [BitVec.getLsbD_and, hmask j hj]

theorem mask_bit {raw : U32} {wired j : ℕ} (hj : j < 32) (hfour : 4 ≤ wired)
    (hzero : j < wired → (raw &&& 0xFFFFFFF0).getLsbD j = false) :
    (barWritten wired raw (BitVec.allOnes 32) &&& 0xFFFFFFF0).getLsbD j = decide (wired ≤ j) := by
  rw [getLsbD_flags _ hj, getLsbD_barWritten _ _ _ hj]
  by_cases hlow : j < wired
  · have hraw := hzero hlow
    rw [getLsbD_flags _ hj] at hraw
    rw [if_pos hlow, hraw, decide_eq_false (Nat.not_le.mpr hlow)]
  · have hhigh := Nat.not_lt.mp hlow
    rw [if_neg hlow, BitVec.getLsbD_allOnes, decide_eq_true hj, decide_eq_true hhigh,
      decide_eq_true (hfour.trans hhigh)]
    rfl

theorem mask_narrow {raw : U32} (hfour : 4 ≤ k)
    (hzero : ∀ j < k, (raw &&& 0xFFFFFFF0).getLsbD j = false) :
    barWritten k raw (BitVec.allOnes 32) &&& 0xFFFFFFF0 = BitVec.allOnes 32 <<< k := by
  refine BitVec.eq_of_getLsbD_eq fun j hj ↦ ?_
  rw [mask_bit hj hfour (hzero j), Bits.getLsbD_allOnes_shiftLeft hj]

theorem getLsbD_join {j : ℕ} (high low : U32) (hj : j < 64) :
    (high.setWidth 64 <<< 32 ||| low.setWidth 64).getLsbD j =
      if j < 32 then low.getLsbD j else high.getLsbD (j - 32) := by
  by_cases hlow : j < 32
  · simp [hlow, hj]
  · have hout : low.getLsbD j = false := BitVec.getLsbD_of_ge _ _ (Nat.not_lt.mp hlow)
    simp [hlow, hj, hout]

theorem mask_wide {low high : U32} (hfour : 4 ≤ k)
    (hzero : ∀ j < k, (high.setWidth 64 <<< 32 ||| (low &&& 0xFFFFFFF0).setWidth 64).getLsbD j = false) :
    (barWritten (k - 32) high (BitVec.allOnes 32)).setWidth 64 <<< 32 |||
      (barWritten (min k 32) low (BitVec.allOnes 32) &&& 0xFFFFFFF0).setWidth 64 =
        BitVec.allOnes 64 <<< k := by
  refine BitVec.eq_of_getLsbD_eq fun j hj ↦ ?_
  rw [getLsbD_join _ _ hj, Bits.getLsbD_allOnes_shiftLeft hj]
  by_cases hlow : j < 32
  · have hbit (h : j < min k 32) : (low &&& 0xFFFFFFF0).getLsbD j = false := by
      have hjoined := hzero j (by omega)
      rwa [getLsbD_join _ _ hj, if_pos hlow] at hjoined
    rw [if_pos hlow, mask_bit hlow (by omega) hbit]
    congr 1
    rw [eq_iff_iff]
    omega
  · have hhigh : j - 32 < 32 := by omega
    rw [if_neg hlow, getLsbD_barWritten _ _ _ hhigh]
    by_cases hwired : j < k
    · have hjoined := hzero j hwired
      rw [getLsbD_join _ _ hj, if_neg hlow] at hjoined
      rw [if_pos (by omega), hjoined, decide_eq_false (by omega)]
    · rw [if_neg (by omega), BitVec.getLsbD_allOnes, decide_eq_true hhigh, decide_eq_true (by omega)]

theorem measuredBar_ok {bar : PciBar} {base : U64} {index : ℕ} {maskLow : U32} {maskHigh : Option U32}
    (hk : k < 64) (hsize : barSize maskLow maskHigh bar = some (BitVec.twoPow 64 k))
    (hbase : bar.base = some base) (haligned : ∀ j < k, base.getLsbD j = false)
    (hfits : base.toNat + (BitVec.twoPow 64 k).toNat ≤ 0xFFFFFFFFFFFFFFFF) :
    measuredBar bar index maskLow maskHigh =
      .ok ⟨BitVec.ofNat 8 index, bar, BitVec.twoPow 64 k⟩ := by
  have hand : base &&& (BitVec.twoPow 64 k - 1) = 0 := Bits.and_twoPow_sub_one hk haligned
  have hlt : base.toNat + (BitVec.twoPow 64 k).toNat < 2 ^ 64 := by omega
  have hadd : Checked.add base (BitVec.twoPow 64 k) = some (base + BitVec.twoPow 64 k) := if_pos hlt
  unfold measuredBar
  rw [hsize, hbase]
  dsimp only
  rw [if_neg (not_not.mpr hand), hadd]

end Size

section Run

variable {access : PciConfigAccess σ} {count : ℕ} {wired : ℕ → ℕ} {d : PciDevice} {index : ℕ}
  {bar : PciBar}

/-- What a probe leaves behind: the registers as they were, and on the way only states
in which the function answers to no address. -/
def Probed (access : PciConfigAccess σ) (d : PciDevice) (index count : ℕ) (s : σ)
    (result : Except PciBarProbeError PciBarResource) : Prop :=
  ∃ s' log, probeBarWith access.recorded d index (s, []) = ((s', log), result) ∧
    probeBarWith access d index s = (s', result) ∧
    access.Holds d.address count s' (access.readU32 s d.address 0x04)
      (fun i ↦ access.readU32 s d.address (barOffset i)) ∧
    ∀ t ∈ log, access.DecodingOff d.address t ∨ t = s'

section States

variable {s s₁ s₂ s₃ s₄ s₅ s₆ : σ} {command low high maskLow maskHigh : U32}
  (hbar : d.bar index = some bar) (huse : ¬ (bar.isIo = false ∧ bar.isMemory = false))
  (hcommand : access.readU32 s d.address 0x04 = command)
  (hlow : access.readU32 s d.address (barOffset index) = low)
  (hs₁ : access.writeU32 s d.address 0x04 (quietCommand command) = s₁)
  (hs₂ : access.writeU32 s₁ d.address (barOffset index) (BitVec.allOnes 32) = s₂)

include hbar huse hcommand hlow hs₁ hs₂

theorem probeBarWith_narrow (hnarrow : bar.isMemory64 = false)
    (hmaskLow : access.readU32 s₂ d.address (barOffset index) = maskLow)
    (hs₃ : access.writeU32 s₂ d.address (barOffset index) low = s₃)
    (hs₄ : access.writeU32 s₃ d.address 0x04 (sameCommand command) = s₄) :
    probeBarWith access d index s = (s₄, measuredBar bar index maskLow none) := by
  subst hcommand hlow hs₁ hs₂ hmaskLow hs₃ hs₄
  unfold probeBarWith
  rw [hbar]
  dsimp only
  rw [if_neg huse, hnarrow, if_neg (by simp)]
  rfl

theorem probeBarWith_wide (hwide : bar.isMemory64 = true) (hlast : index + 1 < maxPciBars)
    (hhigh : access.readU32 s d.address (barOffset (index + 1)) = high)
    (hs₃ : access.writeU32 s₂ d.address (barOffset (index + 1)) (BitVec.allOnes 32) = s₃)
    (hmaskLow : access.readU32 s₃ d.address (barOffset index) = maskLow)
    (hmaskHigh : access.readU32 s₃ d.address (barOffset (index + 1)) = maskHigh)
    (hs₄ : access.writeU32 s₃ d.address (barOffset index) low = s₄)
    (hs₅ : access.writeU32 s₄ d.address (barOffset (index + 1)) high = s₅)
    (hs₆ : access.writeU32 s₅ d.address 0x04 (sameCommand command) = s₆) :
    probeBarWith access d index s = (s₆, measuredBar bar index maskLow (some maskHigh)) := by
  subst hcommand hlow hhigh hs₁ hs₂ hs₃ hmaskLow hmaskHigh hs₄ hs₅ hs₆
  unfold probeBarWith
  rw [hbar, barOffset_succ]
  dsimp only
  rw [if_neg huse, hwide, if_neg (by omega)]
  rfl

end States

theorem recorded_write {address : PciAddress} {offset : U16} {value : U32} {s t : σ} (log : List σ)
    (h : access.writeU32 s address offset value = t) :
    access.recorded.writeU32 (s, log) address offset value = (t, log ++ [t]) := by
  subst h
  rfl

theorem recorded_read {address : PciAddress} {offset : U16} {value : U32} {s : σ} (log : List σ)
    (h : access.readU32 s address offset = value) :
    access.recorded.readU32 (s, log) address offset = value := h

theorem holds_self (address : PciAddress) (s : σ) : access.Holds address count s
    (access.readU32 s address 0x04) (fun i ↦ access.readU32 s address (barOffset i)) :=
  ⟨rfl, fun _ _ ↦ rfl⟩

theorem probed_untouched {e : PciBarProbeError} (s : σ)
    (h : ∀ {τ : Type} (a : PciConfigAccess τ) (t : τ), probeBarWith a d index t = (t, .error e)) :
    Probed access d index count s (.error e) :=
  ⟨s, [], h _ _, h _ _, holds_self _ s, nofun⟩

variable (hplain : access.Plain d.address count wired) (s : σ) (hbar : d.bar index = some bar)
  (huse : ¬ (bar.isIo = false ∧ bar.isMemory = false))

include hplain hbar huse

theorem probed_narrow (hnarrow : bar.isMemory64 = false) (hindex : index < count) :
    Probed access d index count s (measuredBar bar index
      (barWritten (wired index) (access.readU32 s d.address (barOffset index)) (BitVec.allOnes 32))
      none) := by
  obtain ⟨s₁, hs₁, h₁⟩ := (holds_self d.address s).writeCommand hplain (quietCommand _)
  obtain ⟨s₂, hs₂, h₂⟩ := h₁.writeBar hplain hindex (BitVec.allOnes 32)
  obtain ⟨s₃, hs₃, h₃⟩ := h₂.restoreBar hplain hindex rfl
  obtain ⟨s₄, hs₄, h₄⟩ := h₃.writeCommand hplain (sameCommand _)
  rw [commandWritten_restore] at h₄
  have hmask := h₂.bar_eq index hindex
  rw [Function.update_self] at hmask
  refine ⟨s₄, [s₁, s₂, s₃, s₄], ?_,
    probeBarWith_narrow hbar huse rfl rfl hs₁ hs₂ hnarrow hmask hs₃ hs₄, h₄, ?_⟩
  · exact probeBarWith_narrow hbar huse (recorded_read [] rfl) (recorded_read [] rfl)
      (recorded_write [] hs₁) (recorded_write [s₁] hs₂) hnarrow (recorded_read [s₁, s₂] hmask)
      (recorded_write [s₁, s₂] hs₃) (recorded_write [s₁, s₂, s₃] hs₄)
  · simp [h₁.decodingOff, h₂.decodingOff, h₃.decodingOff]

theorem probed_wide (hwide : bar.isMemory64 = true) (hlast : index + 1 < maxPciBars)
    (hindex : index + 1 < count) :
    Probed access d index count s (measuredBar bar index
      (barWritten (wired index) (access.readU32 s d.address (barOffset index)) (BitVec.allOnes 32))
      (some (barWritten (wired (index + 1)) (access.readU32 s d.address (barOffset (index + 1)))
        (BitVec.allOnes 32)))) := by
  have hlow : index < count := by omega
  have hne : index + 1 ≠ index := by omega
  obtain ⟨s₁, hs₁, h₁⟩ := (holds_self d.address s).writeCommand hplain (quietCommand _)
  obtain ⟨s₂, hs₂, h₂⟩ := h₁.writeBar hplain hlow (BitVec.allOnes 32)
  obtain ⟨s₃, hs₃, h₃⟩ := h₂.writeBar hplain hindex (BitVec.allOnes 32)
  rw [Function.update_of_ne hne] at h₃
  have hmaskLow := h₃.bar_eq index hlow
  have hmaskHigh := h₃.bar_eq (index + 1) hindex
  rw [Function.update_of_ne hne.symm, Function.update_self] at hmaskLow
  rw [Function.update_self] at hmaskHigh
  -- The low register is restored first, while the high one still holds the pattern.
  rw [Function.update_comm hne.symm] at h₃
  obtain ⟨s₄, hs₄, h₄⟩ := h₃.restoreBar hplain hlow (Function.update_of_ne hne.symm ..)
  obtain ⟨s₅, hs₅, h₅⟩ := h₄.restoreBar hplain hindex rfl
  obtain ⟨s₆, hs₆, h₆⟩ := h₅.writeCommand hplain (sameCommand _)
  rw [commandWritten_restore] at h₆
  refine ⟨s₆, [s₁, s₂, s₃, s₄, s₅, s₆], ?_, probeBarWith_wide hbar huse rfl rfl hs₁ hs₂
    hwide hlast rfl hs₃ hmaskLow hmaskHigh hs₄ hs₅ hs₆, h₆, ?_⟩
  · exact probeBarWith_wide hbar huse (recorded_read [] rfl) (recorded_read [] rfl)
      (recorded_write [] hs₁) (recorded_write [s₁] hs₂) hwide hlast (recorded_read [] rfl)
      (recorded_write [s₁, s₂] hs₃) (recorded_read [s₁, s₂, s₃] hmaskLow)
      (recorded_read [s₁, s₂, s₃] hmaskHigh) (recorded_write [s₁, s₂, s₃] hs₄)
      (recorded_write [s₁, s₂, s₃, s₄] hs₅) (recorded_write [s₁, s₂, s₃, s₄, s₅] hs₆)
  · simp [h₁.decodingOff, h₂.decodingOff, h₃.decodingOff, h₄.decodingOff, h₅.decodingOff]

end Run

/-- A memory BAR of two to the power `k` bytes: the address bits below `k` are wired to
zero, and all others can be written. -/
def HasSize (wired : ℕ → ℕ) (index k : ℕ) : PciBar → Prop
  | .memory32 base _ => 4 ≤ k ∧ k < 32 ∧ wired index = k ∧ ∀ j < k, base.getLsbD j = false
  | .memory64 base _ => 4 ≤ k ∧ k < 64 ∧ wired index = min k 32 ∧ wired (index + 1) = k - 32 ∧
    ∀ j < k, base.getLsbD j = false
  | _ => False

theorem barCount_le (headerType : BitVec 8) : barCount headerType ≤ maxPciBars := by
  unfold barCount
  split_ifs <;> decide

/-- A probe restores the registers of every device that was decoded from them, lets
it answer to no address meanwhile, and reports the size of every memory BAR. -/
theorem bar_probe (access : PciConfigAccess σ) (address : PciAddress) (wired : ℕ → ℕ) (s : σ)
    (d : PciDevice) (hd : PciConfigSpace.readDevice (access.readU32 s) address = some d)
    (hplain : access.Plain address (barCount d.headerType) wired) (index : ℕ) :
    ∃ result, Probed access d index (barCount d.headerType) s result ∧
      ∀ bar base k, d.bar index = some bar → bar.base = some base → HasSize wired index k bar →
        base.toNat + (BitVec.twoPow 64 k).toNat ≤ 0xFFFFFFFFFFFFFFFF →
        result = .ok ⟨BitVec.ofNat 8 index, bar, BitVec.twoPow 64 k⟩ := by
  obtain rfl := PciConfigSpace.readDevice_address hd
  cases hbar : d.bar index with
  | none =>
    refine ⟨_, probed_untouched (e := .invalidIndex) s fun a t ↦ ?_, nofun⟩
    rw [probeBarWith, hbar]
  | some bar =>
    have hdecoded := readDevice_decoded hd hbar
    have huseless (huse : bar.isIo = false ∧ bar.isMemory = false) :
        Probed access d index (barCount d.headerType) s (.error .unusableBar) := by
      refine probed_untouched s fun a t ↦ ?_
      rw [probeBarWith, hbar]
      exact if_pos huse
    cases bar with
    | unused => exact ⟨_, huseless ⟨rfl, rfl⟩, by rintro _ _ _ ⟨⟩ _ ⟨⟩⟩
    | upperHalf64 => exact ⟨_, huseless ⟨rfl, rfl⟩, by rintro _ _ _ ⟨⟩ _ ⟨⟩⟩
    | reserved raw => exact ⟨_, huseless ⟨rfl, rfl⟩, by rintro _ _ _ ⟨⟩ _ ⟨⟩⟩
    | io base =>
      exact ⟨_, probed_narrow hplain s hbar (by simp [PciBar.isIo]) rfl hdecoded,
        by rintro _ _ _ ⟨⟩ _ ⟨⟩⟩
    | memory32 base prefetchable =>
      obtain ⟨hindex, hraw⟩ := hdecoded
      refine ⟨_, probed_narrow hplain s hbar (by simp [PciBar.isMemory]) rfl hindex, ?_⟩
      rintro _ _ k ⟨⟩ ⟨⟩ ⟨hfour, hk, hwired, hzero⟩ hfits
      have hmask := mask_narrow hfour (hraw ▸ hzero)
      refine measuredBar_ok (by omega) ?_ rfl (fun j hj ↦ ?_) hfits
      · rw [barSize, hwired]
        exact hmask ▸ barSizeFromMask_narrow hk
      · rw [BitVec.getLsbD_setWidth, hzero j hj, Bool.and_false]
    | memory64 base prefetchable =>
      obtain ⟨hindex, hraw⟩ := hdecoded
      refine ⟨_, probed_wide hplain s hbar (by simp [PciBar.isMemory]) rfl
        (hindex.trans_le (barCount_le _)) hindex, ?_⟩
      rintro _ _ k ⟨⟩ ⟨⟩ ⟨hfour, hk, hlow, hhigh, hzero⟩ hfits
      have hmask := mask_wide hfour (hraw ▸ hzero)
      refine measuredBar_ok hk ?_ rfl hzero hfits
      rw [barSize, hlow, hhigh, Option.getD_some]
      exact (congrArg (barSizeFromMask · 64) hmask).trans (barSizeFromMask_wide hk)

def plainSpace (wired : ℕ → ℕ) : PciConfigAccess (U16 → U32) where
  readU32 s _ offset := s offset
  writeU32 s _ offset value :=
    Function.update s offset
      (if offset = 0x04 then commandWritten (s offset) value
        else barWritten (wired ((offset.toNat - 0x10) / 4)) (s offset) value)

theorem plainSpace_plain (wired : ℕ → ℕ) (address : PciAddress) {count : ℕ} (hcount : count ≤ 6) :
    (plainSpace wired).Plain address count wired := by
  have hcommand : ∀ i < 6, barOffset i ≠ 0x04 := by decide
  have hoffset : ∀ i < 6, ((barOffset i).toNat - 0x10) / 4 = i := by decide
  have hinjective : ∀ i < 6, ∀ j < 6, barOffset i = barOffset j → i = j := by decide
  constructor
  · intro s value
    simp only [plainSpace, Function.update_self, if_true]
  · intro s i value hi
    simp only [plainSpace, Function.update_self, if_neg (hcommand i (by omega)), hoffset i (by omega)]
  · intro s i value hi
    exact Function.update_of_ne (hcommand i (by omega)) ..
  · intro s i value hi
    exact Function.update_of_ne (hcommand i (by omega)).symm ..
  · intro s i j value hi hj hne
    exact Function.update_of_ne (fun heq ↦ hne (hinjective i (by omega) j (by omega) heq.symm)) ..

def largeBarRegisters (offset : U16) : U32 :=
  if offset = 0x00 then 0x56781234
  else if offset = 0x04 then 0x00100007
  else if offset = 0x10 then 0x0000000C
  else if offset = 0x14 then 0x00000004
  else 0

def largeBarWired (i : ℕ) : ℕ := if i = 0 then 32 else 1

theorem bar_probe_eight_gib : ∃ d, PciConfigSpace.readDevice
      ((plainSpace largeBarWired).readU32 largeBarRegisters) ⟨0, 3, 0⟩ = some d ∧
    (probeBarWith (plainSpace largeBarWired) d 0 largeBarRegisters).2 =
      .ok ⟨0, .memory64 0x400000000 true, 0x200000000⟩ := by
  refine ⟨_, rfl, ?_⟩
  obtain ⟨result, ⟨s', log, -, hrun, -⟩, hsize⟩ := bar_probe (plainSpace largeBarWired) ⟨0, 3, 0⟩
    largeBarWired largeBarRegisters _ rfl (plainSpace_plain _ _ (by decide)) 0
  have hresult := hsize (.memory64 0x400000000 true) 0x400000000 33 rfl rfl
    ⟨by decide, by decide, rfl, rfl, by decide⟩ (by decide)
  rw [hrun, hresult]
  rfl

end BraneKernel
