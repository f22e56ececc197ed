import BraneKernel.Lib.Worklist
import BraneKernel.Pci.Device

namespace BraneKernel

open PciConfigSpace

def maxPciDevices : ℕ := 256

structure PciInventory where
  devices : List PciDevice
  overflowed : Bool
  busesScanned : ℕ
  deriving DecidableEq

namespace PciInventory

def new : PciInventory := ⟨[], false, 0⟩

def push (i : PciInventory) (device : PciDevice) : PciInventory :=
  if i.devices.length = maxPciDevices then { i with overflowed := true }
  else { i with devices := i.devices ++ [device] }

def clear (_ : PciInventory) : PciInventory := new

end PciInventory

theorem length_le_of_nodup_buses {l : List (BitVec 8)} (h : l.Nodup) : l.length ≤ 256 := by
  have hmap : (l.map BitVec.toNat).Nodup := h.map fun _ _ ↦ BitVec.eq_of_toNat_eq
  have hsub : l.map BitVec.toNat ⊆ List.range 256 := by
    intro n hn
    obtain ⟨bus, -, rfl⟩ := List.mem_map.mp hn
    exact List.mem_range.mpr bus.isLt
  simpa using (hmap.subperm hsub).length_le

structure BusQueue where
  pending : List (BitVec 8)
  queued : BitVec 8 → Bool
  nodup : pending.Nodup
  queued_iff : ∀ bus, queued bus = true ↔ bus ∈ pending

namespace BusQueue

def empty : BusQueue := ⟨[], fun _ ↦ false, .nil, by simp⟩

def enqueueBus (q : BusQueue) (bus : BitVec 8) : BusQueue :=
  if h : q.queued bus = true ∨ q.pending.length = 256 then q
  else
    { pending := q.pending ++ [bus]
      queued := Function.update q.queued bus true
      nodup := by
        rw [← List.concat_eq_append]
        exact q.nodup.concat fun hbus ↦ h (.inl ((q.queued_iff bus).mpr hbus))
      queued_iff := by
        intro b
        rw [List.mem_append, List.mem_singleton, ← q.queued_iff, Function.update_apply]
        split_ifs with hb <;> simp [hb] }

theorem pending_enqueueBus (q : BusQueue) (bus : BitVec 8) :
    (q.enqueueBus bus).pending = Worklist.push q.pending bus := by
  unfold enqueueBus Worklist.push
  by_cases hbus : bus ∈ q.pending
  · rw [dif_pos (.inl ((q.queued_iff bus).mpr hbus)), if_pos hbus]
  · have hnodup : (bus :: q.pending).Nodup := List.nodup_cons.mpr ⟨hbus, q.nodup⟩
    have hlen := length_le_of_nodup_buses hnodup
    rw [List.length_cons] at hlen
    have hroom : ¬ (q.queued bus = true ∨ q.pending.length = 256) := by
      rintro (hq | hfull)
      · exact hbus ((q.queued_iff bus).mp hq)
      · omega
    rw [dif_neg hroom, if_neg hbus]

end BusQueue

structure Enumeration where
  queue : BusQueue
  inventory : PciInventory

namespace Enumeration

def enqueueBus (s : Enumeration) (bus : BitVec 8) : Enumeration :=
  { s with queue := s.queue.enqueueBus bus }

/-- A bridge leads to its secondary bus. A multifunction host bridge may expose
one root bus for each function. -/
def visit (bus deviceNumber function : BitVec 8) (s : Enumeration) (device : PciDevice) :
    Enumeration :=
  let s := if device.isPciBridge then device.secondaryBus.elim s s.enqueueBus else s
  let s :=
    if bus = 0 ∧ deviceNumber = 0 ∧ function ≠ 0 ∧ device.classCode = 0x06 ∧ device.subclass = 0x00
    then s.enqueueBus function else s
  { s with inventory := s.inventory.push device }

def scanFunction (config : PciConfigSpace) (bus deviceNumber : BitVec 8) (first : PciDevice)
    (s : Enumeration) (function : BitVec 8) : Enumeration :=
  let address : PciAddress := ⟨bus, deviceNumber, function⟩
  let device :=
    if function = 0 then some first
    else if config.functionExists address then config.readDevice address else none
  device.elim s (s.visit bus deviceNumber function)

def scanDevice (config : PciConfigSpace) (bus : BitVec 8) (s : Enumeration)
    (deviceNumber : BitVec 8) : Enumeration :=
  match config.readDevice ⟨bus, deviceNumber, 0⟩ with
  | none => s
  | some first =>
    (List.range (if first.multifunction then 8 else 1)).foldl
      (fun s function ↦ s.scanFunction config bus deviceNumber first (BitVec.ofNat 8 function)) s

def scanBus (config : PciConfigSpace) (s : Enumeration) (bus : BitVec 8) : Enumeration :=
  (List.range 32).foldl (fun s number ↦ s.scanDevice config bus (BitVec.ofNat 8 number))
    { s with inventory := { s.inventory with busesScanned := s.inventory.busesScanned + 1 } }

def scanBuses (config : PciConfigSpace) : ℕ → ℕ → Enumeration → Option Enumeration
  | 0, cursor, s => if cursor < s.queue.pending.length then none else some s
  | fuel + 1, cursor, s =>
    match s.queue.pending[cursor]? with
    | none => some s
    | some bus => scanBuses config fuel (cursor + 1) (s.scanBus config bus)

/-- There are 256 buses to scan at most, so that `none` is not an answer. -/
def enumerateInto (config : PciConfigSpace) (inventory : PciInventory) : Option Enumeration :=
  scanBuses config 256 0 ⟨BusQueue.empty.enqueueBus 0, inventory.clear⟩

end Enumeration

namespace PciConfigSpace

variable {config : PciConfigSpace} {bus bus' deviceNumber : BitVec 8} {d : PciDevice}

/-- The functions that are present: function 0 of a device, and the others of a
device whose function 0 is present and multifunction. -/
def Listed (config : PciConfigSpace) (a : PciAddress) : Prop :=
  a.device.toNat < 32 ∧ a.function.toNat < 8 ∧
    (a.function ≠ 0 → ∃ first, config.readDevice ⟨a.bus, a.device, 0⟩ = some first ∧
      first.multifunction = true)

def LeadsTo (config : PciConfigSpace) (bus bus' : BitVec 8) : Prop :=
  ∃ a d, config.Listed a ∧ a.bus = bus ∧ config.readDevice a = some d ∧
    (d.isPciBridge = true ∧ d.secondaryBus = some bus' ∨
      bus = 0 ∧ a.device = 0 ∧ a.function ≠ 0 ∧ d.classCode = 0x06 ∧ d.subclass = 0x00 ∧
        bus' = a.function)

def functionsOf (config : PciConfigSpace) (bus deviceNumber : BitVec 8) : List PciDevice :=
  match config.readDevice ⟨bus, deviceNumber, 0⟩ with
  | none => []
  | some first => (List.range (if first.multifunction then 8 else 1)).filterMap fun function ↦
      config.readDevice ⟨bus, deviceNumber, BitVec.ofNat 8 function⟩

def busFunctions (config : PciConfigSpace) (bus : BitVec 8) : List PciDevice :=
  (List.range 32).flatMap fun number ↦ config.functionsOf bus (BitVec.ofNat 8 number)

end PciConfigSpace

def PciDevice.busesBehind (d : PciDevice) (bus : BitVec 8) : List (BitVec 8) :=
  (if d.isPciBridge then d.secondaryBus.toList else []) ++
    if bus = 0 ∧ d.address.device = 0 ∧ d.address.function ≠ 0 ∧ d.classCode = 0x06 ∧
      d.subclass = 0x00 then [d.address.function] else []

namespace Enumeration

variable {config : PciConfigSpace} {s : Enumeration} {bus : BitVec 8}

def visitAll (bus : BitVec 8) (s : Enumeration) (ds : List PciDevice) : Enumeration :=
  ds.foldl (fun s d ↦ s.visit bus d.address.device d.address.function d) s

theorem pending_visit (s : Enumeration) (bus : BitVec 8) (d : PciDevice) :
    (s.visit bus d.address.device d.address.function d).queue.pending =
      Worklist.pushAll s.queue.pending (d.busesBehind bus) := by
  have hbridge : (if d.isPciBridge = true then d.secondaryBus.elim s s.enqueueBus
      else s).queue.pending = Worklist.pushAll s.queue.pending
        (if d.isPciBridge = true then d.secondaryBus.toList else []) := by
    split_ifs
    · cases d.secondaryBus with
      | none => rfl
      | some b => exact s.queue.pending_enqueueBus b
    · rfl
  unfold visit PciDevice.busesBehind
  dsimp only
  rw [Worklist.pushAll_append, ← hbridge]
  generalize (if d.isPciBridge = true then d.secondaryBus.elim s s.enqueueBus else s) = t
  split_ifs
  · exact t.queue.pending_enqueueBus _
  · rfl

theorem inventory_visit (s : Enumeration) (bus deviceNumber function : BitVec 8) (d : PciDevice) :
    (s.visit bus deviceNumber function d).inventory = s.inventory.push d := by
  have hbridge : (if d.isPciBridge = true then d.secondaryBus.elim s s.enqueueBus
      else s).inventory = s.inventory := by
    split_ifs
    · cases d.secondaryBus <;> rfl
    · rfl
  unfold visit
  dsimp only
  rw [← hbridge]
  split_ifs <;> rfl

theorem visitAll_eq (s : Enumeration) (bus : BitVec 8) (ds : List PciDevice) :
    (s.visitAll bus ds).queue.pending =
        Worklist.pushAll s.queue.pending (ds.flatMap (·.busesBehind bus)) ∧
      (s.visitAll bus ds).inventory = ds.foldl PciInventory.push s.inventory := by
  induction ds generalizing s with
  | nil => exact ⟨rfl, rfl⟩
  | cons d ds ih =>
    obtain ⟨hpending, hinventory⟩ := ih (s.visit bus d.address.device d.address.function d)
    rw [pending_visit] at hpending
    rw [inventory_visit] at hinventory
    rw [List.flatMap_cons, Worklist.pushAll_append]
    exact ⟨hpending, hinventory⟩

theorem scanFunction_eq {first : PciDevice} {deviceNumber : BitVec 8}
    (hfirst : config.readDevice ⟨bus, deviceNumber, 0⟩ = some first) (s : Enumeration)
    (function : BitVec 8) : s.scanFunction config bus deviceNumber first function =
      (config.readDevice ⟨bus, deviceNumber, function⟩).elim s fun d ↦
        s.visit bus d.address.device d.address.function d := by
  have hread : (if function = 0 then some first
      else if config.functionExists ⟨bus, deviceNumber, function⟩ = true then
        config.readDevice ⟨bus, deviceNumber, function⟩ else none) =
      config.readDevice ⟨bus, deviceNumber, function⟩ := by
    split_ifs with hzero hexists
    · rw [hzero, hfirst]
    · rfl
    · rw [functionExists_eq, Bool.not_eq_true, Option.isSome_eq_false_iff,
        Option.isNone_iff_eq_none] at hexists
      rw [hexists]
  unfold scanFunction
  dsimp only
  rw [hread]
  cases hd : config.readDevice ⟨bus, deviceNumber, function⟩ with
  | none => rfl
  | some d =>
    simp only [Option.elim_some, readDevice_address hd]

theorem scanDevice_eq (s : Enumeration) (deviceNumber : BitVec 8) :
    s.scanDevice config bus deviceNumber = s.visitAll bus (config.functionsOf bus deviceNumber) := by
  unfold scanDevice functionsOf visitAll
  cases hfirst : config.readDevice ⟨bus, deviceNumber, 0⟩ with
  | none => rfl
  | some first =>
    dsimp only
    rw [List.foldl_filterMap]
    congr 1
    funext s function
    rw [scanFunction_eq hfirst]
    cases config.readDevice ⟨bus, deviceNumber, BitVec.ofNat 8 function⟩ <;> rfl

theorem scanBus_eq (s : Enumeration) : s.scanBus config bus = visitAll bus
    { s with inventory := { s.inventory with busesScanned := s.inventory.busesScanned + 1 } }
    (config.busFunctions bus) := by
  rw [visitAll, busFunctions, List.foldl_flatMap]
  simp only [scanBus, scanDevice_eq]
  rfl

def record (config : PciConfigSpace) (i : PciInventory) (bus : BitVec 8) : PciInventory :=
  (config.busFunctions bus).foldl PciInventory.push { i with busesScanned := i.busesScanned + 1 }

def busesBehind (config : PciConfigSpace) (bus : BitVec 8) : List (BitVec 8) :=
  (config.busFunctions bus).flatMap (·.busesBehind bus)

theorem scanBuses_eq (config : PciConfigSpace) (fuel cursor : ℕ) (s : Enumeration) :
    (scanBuses config fuel cursor s).map (fun t ↦ (t.queue.pending, t.inventory)) =
      Worklist.run (busesBehind config) (record config) fuel cursor s.queue.pending s.inventory := by
  induction fuel generalizing cursor s with
  | zero =>
    unfold scanBuses Worklist.run
    split_ifs <;> rfl
  | succ fuel ih =>
    unfold scanBuses Worklist.run
    cases s.queue.pending[cursor]? with
    | none => rfl
    | some bus =>
      dsimp only
      rw [ih, scanBus_eq]
      obtain ⟨hpending, hinventory⟩ := visitAll_eq
        { s with inventory := { s.inventory with busesScanned := s.inventory.busesScanned + 1 } }
        bus (config.busFunctions bus)
      rw [hpending, hinventory]
      rfl

end Enumeration

namespace PciInventory

variable {i : PciInventory}

theorem foldl_push (ds : List PciDevice) (h : i.devices.length ≤ maxPciDevices) :
    (ds.foldl push i).devices = (i.devices ++ ds).take maxPciDevices ∧
      ((ds.foldl push i).overflowed = true ↔
        i.overflowed = true ∨ maxPciDevices < (i.devices ++ ds).length) := by
  induction ds generalizing i with
  | nil =>
    simp only [List.foldl_nil, List.append_nil, List.take_of_length_le h, Nat.not_lt.mpr h, or_false,
      and_self]
  | cons d ds ih =>
    rw [List.foldl_cons]
    by_cases hfull : i.devices.length = maxPciDevices
    · have hpush : i.push d = { i with overflowed := true } := if_pos hfull
      obtain ⟨hdevices, hover⟩ := ih (i := i.push d) (by rw [hpush]; exact h)
      constructor
      · rw [hdevices, hpush, List.take_append_of_le_length hfull.ge,
          List.take_append_of_le_length hfull.ge]
      · rw [hover, hpush, List.length_append, List.length_append, List.length_cons]
        simp only [true_or, true_iff]
        omega
    · have hpush : i.push d = { i with devices := i.devices ++ [d] } := if_neg hfull
      obtain ⟨hdevices, hover⟩ := ih (i := i.push d) (by
        rw [hpush]
        simp only [List.length_append, List.length_singleton]
        omega)
      simp only [hpush, List.append_assoc, List.singleton_append] at hdevices hover ⊢
      exact ⟨hdevices, hover⟩

theorem foldl_push_scanned (ds : List PciDevice) (i : PciInventory) (n : ℕ) :
    ds.foldl push { i with busesScanned := n } = { ds.foldl push i with busesScanned := n } := by
  induction ds generalizing i with
  | nil => rfl
  | cons d ds ih =>
    have hpush : push { i with busesScanned := n } d = { i.push d with busesScanned := n } := by
      unfold push
      dsimp only
      split_ifs <;> rfl
    rw [List.foldl_cons, List.foldl_cons, hpush, ih]

theorem foldl_record (config : PciConfigSpace) (buses : List (BitVec 8)) (i : PciInventory) :
    buses.foldl (Enumeration.record config) i =
      { (buses.flatMap config.busFunctions).foldl push i with
        busesScanned := i.busesScanned + buses.length } := by
  induction buses generalizing i with
  | nil => rfl
  | cons bus buses ih =>
    have hrecord : Enumeration.record config i bus =
        { (config.busFunctions bus).foldl push i with busesScanned := i.busesScanned + 1 } :=
      foldl_push_scanned _ i _
    rw [List.foldl_cons, ih, hrecord, foldl_push_scanned, List.flatMap_cons, List.foldl_append,
      List.length_cons]
    rw [Nat.add_right_comm, ← Nat.add_assoc]

end PciInventory

namespace PciConfigSpace

variable {config : PciConfigSpace} {bus bus' deviceNumber : BitVec 8} {d : PciDevice}

theorem mem_functionsOf : d ∈ config.functionsOf bus deviceNumber ↔
    ∃ function : BitVec 8, function.toNat < 8 ∧
      config.readDevice ⟨bus, deviceNumber, function⟩ = some d ∧
      (function ≠ 0 → ∃ first, config.readDevice ⟨bus, deviceNumber, 0⟩ = some first ∧
        first.multifunction = true) := by
  unfold functionsOf
  cases hfirst : config.readDevice ⟨bus, deviceNumber, 0⟩ with
  | none =>
    simp only [List.not_mem_nil, false_iff]
    rintro ⟨function, -, hd, hmulti⟩
    by_cases hzero : function = 0
    · rw [hzero, hfirst] at hd
      cases hd
    · obtain ⟨first, hnone, -⟩ := hmulti hzero
      cases hnone
  | some first =>
    simp only [List.mem_filterMap, List.mem_range, Option.some.injEq, exists_eq_left']
    constructor
    · rintro ⟨n, hn, hd⟩
      have hlt : n < 8 := by split_ifs at hn <;> omega
      have hnat : (BitVec.ofNat 8 n).toNat = n := BitVec.toNat_ofNat _ _ |>.trans (by omega)
      refine ⟨BitVec.ofNat 8 n, by omega, hd, fun hne ↦ ?_⟩
      by_contra hsingle
      rw [if_neg hsingle, Nat.lt_one_iff] at hn
      exact hne (hn ▸ rfl)
    · rintro ⟨function, hlt, hd, hmulti⟩
      refine ⟨function.toNat, ?_, by rw [BitVec.ofNat_toNat, BitVec.setWidth_eq]; exact hd⟩
      by_cases hzero : function = 0
      · subst hzero
        split_ifs <;> decide
      · rw [if_pos (hmulti hzero)]
        exact hlt

theorem mem_busFunctions : d ∈ config.busFunctions bus ↔
    ∃ a, config.Listed a ∧ a.bus = bus ∧ config.readDevice a = some d := by
  simp only [busFunctions, List.mem_flatMap, List.mem_range, mem_functionsOf]
  constructor
  · rintro ⟨n, hn, function, hlt, hd, hmulti⟩
    refine ⟨_, ⟨?_, hlt, hmulti⟩, rfl, hd⟩
    rw [BitVec.toNat_ofNat]
    omega
  · rintro ⟨⟨_, device, function⟩, ⟨hdevice, hlt, hmulti⟩, rfl, hd⟩
    refine ⟨device.toNat, hdevice, function, hlt, ?_⟩
    rw [BitVec.ofNat_toNat, BitVec.setWidth_eq]
    exact ⟨hd, hmulti⟩

theorem mem_deviceBusesBehind : bus' ∈ d.busesBehind bus ↔
    (d.isPciBridge = true ∧ d.secondaryBus = some bus' ∨
      bus = 0 ∧ d.address.device = 0 ∧ d.address.function ≠ 0 ∧ d.classCode = 0x06 ∧
        d.subclass = 0x00 ∧ bus' = d.address.function) := by
  rw [PciDevice.busesBehind, List.mem_append]
  apply or_congr
  · split_ifs with h <;> simp [h]
  · split_ifs with h
    · obtain ⟨h₁, h₂, h₃, h₄, h₅⟩ := h
      rw [List.mem_singleton]
      exact ⟨fun he ↦ ⟨h₁, h₂, h₃, h₄, h₅, he⟩, fun he ↦ he.2.2.2.2.2⟩
    · simp only [List.not_mem_nil, false_iff]
      rintro ⟨h₁, h₂, h₃, h₄, h₅, -⟩
      exact h ⟨h₁, h₂, h₃, h₄, h₅⟩

theorem mem_busesBehind : bus' ∈ Enumeration.busesBehind config bus ↔ config.LeadsTo bus bus' := by
  simp only [Enumeration.busesBehind, List.mem_flatMap, mem_busFunctions, mem_deviceBusesBehind]
  constructor
  · rintro ⟨d, ⟨a, ha, hbus, hd⟩, hleads⟩
    rw [readDevice_address hd] at hleads
    exact ⟨a, d, ha, hbus, hd, hleads⟩
  · rintro ⟨a, d, ha, hbus, hd, hleads⟩
    rw [← readDevice_address hd] at hleads
    exact ⟨d, ⟨a, ha, hbus, hd⟩, hleads⟩

theorem pairwise_busFunctions (config : PciConfigSpace) (bus : BitVec 8) :
    (config.busFunctions bus).Pairwise fun d d' ↦ d.address ≠ d'.address := by
  have hofNat : ∀ {m n : ℕ}, m < n → n < 32 → BitVec.ofNat 8 m ≠ BitVec.ofNat 8 n := by
    intro m n hlt hn he
    have hnat := congrArg BitVec.toNat he
    rw [BitVec.toNat_ofNat, BitVec.toNat_ofNat] at hnat
    omega
  rw [busFunctions, List.pairwise_flatMap]
  refine ⟨fun number _ ↦ ?_, ?_⟩
  · unfold functionsOf
    split
    · exact .nil
    · next first _ =>
      rw [List.pairwise_filterMap]
      refine List.pairwise_lt_range.imp_of_mem fun {m n} _ hn hlt d hd d' hd' he ↦ ?_
      have hn' : n < 8 := by
        have := List.mem_range.mp hn
        split_ifs at this <;> omega
      rw [readDevice_address hd, readDevice_address hd', PciAddress.mk.injEq] at he
      exact hofNat hlt (by omega) he.2.2
  · refine List.pairwise_lt_range.imp_of_mem fun {m n} _ hn hlt d hd d' hd' he ↦ ?_
    obtain ⟨function, -, hd, -⟩ := mem_functionsOf.mp hd
    obtain ⟨function', -, hd', -⟩ := mem_functionsOf.mp hd'
    rw [readDevice_address hd, readDevice_address hd', PciAddress.mk.injEq] at he
    exact hofNat hlt (List.mem_range.mp hn) he.2.1

theorem pairwise_flatMap_busFunctions (config : PciConfigSpace) {buses : List (BitVec 8)}
    (h : buses.Nodup) : (buses.flatMap config.busFunctions).Pairwise
      fun d d' ↦ d.address ≠ d'.address := by
  rw [List.pairwise_flatMap]
  refine ⟨fun bus _ ↦ pairwise_busFunctions config bus, ?_⟩
  refine h.imp fun hne d hd d' hd' he ↦ ?_
  obtain ⟨a, -, hbus, hread⟩ := mem_busFunctions.mp hd
  obtain ⟨a', -, hbus', hread'⟩ := mem_busFunctions.mp hd'
  rw [readDevice_address hread, readDevice_address hread'] at he
  rw [he] at hbus
  exact hne (hbus.symm.trans hbus')

end PciConfigSpace

namespace Enumeration

/-- Enumeration ends, with each reachable bus scanned once and its functions in
the inventory as far as they fit. -/
theorem enumerate_complete (config : PciConfigSpace) (inventory : PciInventory) :
    ∃ s, enumerateInto config inventory = some s ∧
      s.queue.pending.Nodup ∧ s.inventory.busesScanned = s.queue.pending.length ∧
      (∀ bus, bus ∈ s.queue.pending ↔ Relation.ReflTransGen config.LeadsTo 0 bus) ∧
      s.inventory.devices = (s.queue.pending.flatMap config.busFunctions).take maxPciDevices ∧
      (s.inventory.devices.map PciDevice.address).Nodup ∧
      (s.inventory.overflowed = false → ∀ d, d ∈ s.inventory.devices ↔
        ∃ a, config.Listed a ∧ Relation.ReflTransGen config.LeadsTo 0 a.bus ∧
          config.readDevice a = some d) := by
  obtain ⟨result, hrun, hexplores⟩ := Worklist.run_explores (n := 256) (busesBehind config)
    (record config) PciInventory.new (fun l hl ↦ length_le_of_nodup_buses hl) (Nat.le_refl 256)
    (List.nodup_singleton 0) (Nat.zero_le 1)
  have hscan := scanBuses_eq config 256 0 ⟨BusQueue.empty.enqueueBus 0, inventory.clear⟩
  have hstart : (BusQueue.empty.enqueueBus 0).pending = [0] := BusQueue.empty.pending_enqueueBus 0
  rw [hstart, PciInventory.clear, hrun, List.drop_zero, PciInventory.foldl_record] at hscan
  obtain ⟨s, hs, he⟩ := Option.map_eq_some_iff.mp hscan
  obtain ⟨hpending, hinventory⟩ := Prod.mk.inj he
  obtain ⟨hdevices, hover⟩ := PciInventory.foldl_push (i := .new)
    (result.flatMap config.busFunctions) (Nat.zero_le _)
  have hreach : ∀ bus, bus ∈ result ↔ Relation.ReflTransGen config.LeadsTo 0 bus := by
    intro bus
    rw [hexplores.mem_iff]
    simp only [mem_busesBehind]
  have hall := pairwise_flatMap_busFunctions config hexplores.nodup
  refine ⟨s, hs, hpending ▸ hexplores.nodup, ?_, hpending ▸ hreach, ?_, ?_, fun hfits d ↦ ?_⟩
  · rw [hinventory, hpending]
    exact Nat.zero_add _
  · rw [hinventory, hpending]
    exact hdevices
  · rw [hinventory, List.nodup_iff_pairwise_ne, List.pairwise_map]
    dsimp only
    rw [hdevices]
    exact hall.sublist (List.take_sublist _ _)
  · have hlen : ¬ maxPciDevices < (PciInventory.new.devices ++
        result.flatMap config.busFunctions).length := by
      intro hlt
      have htrue := hover.mpr (.inr hlt)
      rw [hinventory] at hfits
      cases hfits.symm.trans htrue
    rw [hinventory]
    dsimp only
    rw [hdevices, List.take_of_length_le (Nat.le_of_not_lt hlen)]
    simp only [PciInventory.new, List.nil_append, List.mem_flatMap, mem_busFunctions,
      hreach]
    constructor
    · rintro ⟨bus, hbus, a, ha, rfl, hd⟩
      exact ⟨a, ha, hbus, hd⟩
    · rintro ⟨a, ha, hbus, hd⟩
      exact ⟨a.bus, hbus, a, ha, rfl, hd⟩

def ringSpace : PciConfigSpace := fun a offset ↦
  if a.device ≠ 0 ∨ a.function ≠ 0 ∨ 2 < a.bus then BitVec.allOnes 32
  else if offset = 0x00 then 0x00018086
  else if offset = 0x08 then 0x06040000
  else if offset = 0x0C then 0x00010000
  else if offset = 0x18 then if a.bus = 1 then 0x00000200 else 0x00000100
  else 0

theorem enumerate_complete_ring : ∃ s, enumerateInto ringSpace .new = some s ∧
    s.queue.pending = [0, 1, 2] ∧ s.inventory.overflowed = false ∧
    ∀ d, d ∈ s.inventory.devices ↔ ∃ a, ringSpace.Listed a ∧
      Relation.ReflTransGen ringSpace.LeadsTo 0 a.bus ∧ ringSpace.readDevice a = some d := by
  have hrun : (enumerateInto ringSpace .new).map
      (fun s ↦ (s.queue.pending, s.inventory.overflowed)) = some ([0, 1, 2], false) := by
    decide +kernel
  obtain ⟨s, hs, -, -, -, -, -, hall⟩ := enumerate_complete ringSpace .new
  rw [hs, Option.map_some, Option.some.injEq, Prod.mk.injEq] at hrun
  exact ⟨s, hs, hrun.1, hrun.2, hall hrun.2⟩

end Enumeration

end BraneKernel
