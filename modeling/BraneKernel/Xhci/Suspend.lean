import BraneKernel.Pci.Vectors
import BraneKernel.Xhci.Controller

namespace BraneKernel

inductive XhciS3State
  | absent | active | quiesced | pollingFallback | quarantined
  deriving DecidableEq

inductive XhciS3Resume
  | retained | pollingFallback | quarantined
  deriving DecidableEq

inductive XhciS3Error
  | busy | controllerNotRunning | alreadyQuiesced | register (e : XhciInitError)
  | snapshotMismatch | quarantined
  deriving DecidableEq

structure XhciS3Token where
  generation : U64
  deriving DecidableEq

structure XhciS3Snapshot where
  usbcmd : U32
  crcr : U64
  dcbaap : U64
  config : U32
  erstba : U64
  erdp : U64
  iman : U32
  interruptMode : PciInterruptMode
  deriving DecidableEq

namespace Xhci

def usbcmdRunStop : U32 := 1#32 <<< 0
def usbcmdInte : U32 := 1#32 <<< 2
def usbstsHostControllerHalted : U32 := 1#32 <<< 0
def usbstsEventInterrupt : U32 := 1#32 <<< 3
def usbstsControllerNotReady : U32 := 1#32 <<< 11
def usbstsHostControllerError : U32 := 1#32 <<< 12

end Xhci

inductive S3Register
  | usbcmd | usbsts | crcr | dcbaap | config | iman | erstba | erdp
  deriving DecidableEq

def RegisterLayout.operational (layout : RegisterLayout) (offset : U64) : U64 :=
  layout.operationalBase + offset

def S3Register.offset (layout : RegisterLayout) : S3Register → U64
  | .usbcmd => layout.operational 0x00
  | .usbsts => layout.operational 0x04
  | .crcr => layout.operational 0x18
  | .dcbaap => layout.operational 0x30
  | .config => layout.operational 0x38
  | .iman => layout.runtime 0x20
  | .erstba => layout.runtime 0x30
  | .erdp => layout.runtime 0x38

structure S3Write where
  register : S3Register
  high : Bool
  value : U32
  deriving DecidableEq

def S3Write.Starts (x : S3Write) : Prop :=
  x.register = .usbcmd ∧ x.value &&& Xhci.usbcmdRunStop ≠ 0

/-- The controller with what sleep needs of it, its register writes so far, the
latest first, and the number of its register reads. -/
structure S3World extends XhciController where
  dcbaa : DmaRegion
  eventRingSegmentTable : DmaRegion
  enabledSlots : BitVec 8
  interruptMode : PciInterruptMode
  interruptVector : BitVec 8
  running : Bool
  s3State : XhciS3State
  s3Generation : U64
  s3Snapshot : Option XhciS3Snapshot
  writes : List S3Write
  reads : ℕ

abbrev S3Hardware := ℕ → U32

def S3Hardware.u64 (hardware : S3Hardware) (n : ℕ) : U64 :=
  (hardware n).setWidth 64 ||| (hardware (n + 1)).setWidth 64 <<< 32

abbrev S3Action := Attempt S3World XhciS3Error

structure RingRegisters where
  crcr : U64
  dcbaap : U64
  config : U32
  erstba : U64
  erdp : U64
  deriving DecidableEq

def S3Hardware.ringRegisters (hardware : S3Hardware) (n : ℕ) : RingRegisters :=
  ⟨hardware.u64 n, hardware.u64 (n + 2), hardware (n + 4), hardware.u64 (n + 5),
    hardware.u64 (n + 7)⟩

def RingRegisters.retains (registers : RingRegisters) (snapshot : XhciS3Snapshot) : Bool :=
  registers.crcr &&& ~~~0x3F == snapshot.crcr &&& ~~~0x3F &&
    registers.dcbaap &&& ~~~0x3F == snapshot.dcbaap &&& ~~~0x3F &&
    registers.config &&& 0xFF == snapshot.config &&& 0xFF &&
    registers.erstba &&& ~~~0x3F == snapshot.erstba &&& ~~~0x3F &&
    registers.erdp &&& ~~~0x0F == snapshot.erdp &&& ~~~0x0F

namespace S3World

open Attempt

variable (hardware : S3Hardware)

def half (w : S3World) (r : S3Register) (high : Bool) : U64 :=
  r.offset w.layout + if high then 4 else 0

def readHalf (r : S3Register) (high : Bool) : S3Action U32 := do
  let w ← get
  let _ ← demand (.register .registerOutsideBar) (w.mmio.virtualAddress (w.half r high) 4)
  modify fun w ↦ { w with reads := w.reads + 1 }
  return hardware w.reads

def readMmioU32 (r : S3Register) : S3Action U32 := readHalf hardware r false

def readMmioU64 (r : S3Register) : S3Action U64 := do
  let low ← readHalf hardware r false
  let high ← readHalf hardware r true
  return low.setWidth 64 ||| high.setWidth 64 <<< 32

def writeHalf (r : S3Register) (high : Bool) (value : U32) : S3Action Unit := do
  let w ← get
  let _ ← demand (.register .registerOutsideBar) (w.mmio.virtualAddress (w.half r high) 4)
  modify fun w ↦ { w with writes := ⟨r, high, value⟩ :: w.writes }

def writeMmioU32 (r : S3Register) (value : U32) : S3Action Unit := writeHalf r false value

def writeMmioU64 (r : S3Register) (value : U64) : S3Action Unit := do
  let w ← get
  let _ ← demand (.register .registerOutsideBar) (w.mmio.virtualAddress (w.half r false) 8)
  writeHalf r false (value.setWidth 32)
  writeHalf r true ((value >>> 32).setWidth 32)

def waitForBits (r : S3Register) (mask expected : U32) (timeout : XhciInitError) :
    ℕ → S3Action Unit
  | 0 => fail (.register timeout)
  | spins + 1 => do
    let value ← readMmioU32 hardware r
    if value &&& mask = expected then pure () else waitForBits r mask expected timeout spins

def tolerate {α : Type} (x : S3Action α) : S3Action (Option α) :=
  ⟨fun w ↦ ((x.run w).1, .ok (x.run w).2.toOption)⟩

def maskInterrupter : S3Action Unit := do
  let iman ← readMmioU32 hardware .iman
  writeMmioU32 .iman ((iman &&& ~~~0b10) ||| 1)

def stopController : S3Action Unit := do
  let command ← readMmioU32 hardware .usbcmd
  writeMmioU32 .usbcmd (command &&& ~~~(Xhci.usbcmdRunStop ||| Xhci.usbcmdInte))

/-- The registers are written as far as they can be; the marker is set in any case. -/
def quarantineS3 (w : S3World) : S3World :=
  let masked := ((maskInterrupter hardware).run w).1
  let stopped := ((stopController hardware).run masked).1
  { stopped with running := false, s3State := .quarantined, s3Snapshot := none }

def snapshotMatchesRings (w : S3World) (snapshot : XhciS3Snapshot) : Bool :=
  (w.eventRing.trbPhysical w.eventDequeueIndex).any fun expectedErdp ↦
    snapshot.crcr &&& ~~~0x3F == w.commandRing.physicalStart &&
      snapshot.dcbaap &&& ~~~0x3F == w.dcbaa.physicalStart &&
      snapshot.erstba &&& ~~~0x3F == w.eventRingSegmentTable.physicalStart &&
      snapshot.erdp &&& ~~~0x0F == expectedErdp &&
      snapshot.config &&& 0xFF == w.enabledSlots.setWidth 32

def readS3Snapshot : S3Action XhciS3Snapshot := do
  let usbcmd ← readMmioU32 hardware .usbcmd
  let crcr ← readMmioU64 hardware .crcr
  let dcbaap ← readMmioU64 hardware .dcbaap
  let config ← readMmioU32 hardware .config
  let erstba ← readMmioU64 hardware .erstba
  let erdp ← readMmioU64 hardware .erdp
  let iman ← readMmioU32 hardware .iman
  let w ← get
  let snapshot : XhciS3Snapshot :=
    { usbcmd, crcr, dcbaap, config, erstba, erdp, iman, interruptMode := w.interruptMode }
  if usbcmd &&& Xhci.usbcmdRunStop = 0 ∨ w.running = false ∨
      w.snapshotMatchesRings snapshot = false then fail .controllerNotRunning
  else return snapshot

def clearEventInterrupt : S3Action Unit := do
  let status ← readMmioU32 hardware .usbsts
  if status &&& Xhci.usbstsEventInterrupt ≠ 0 then
    writeMmioU32 .usbsts Xhci.usbstsEventInterrupt
  else pure ()

/-- The closure of `quiesce_for_s3` -/
def halt (snapshot : XhciS3Snapshot) : S3Action Unit := do
  writeMmioU32 .iman ((snapshot.iman &&& ~~~0b10) ||| 1)
  writeMmioU32 .usbcmd (snapshot.usbcmd &&& ~~~(Xhci.usbcmdRunStop ||| Xhci.usbcmdInte))
  waitForBits hardware .usbsts Xhci.usbstsHostControllerHalted Xhci.usbstsHostControllerHalted
    .controllerHaltTimeout Xhci.maxPollSpins
  clearEventInterrupt hardware

def busy (w : S3World) : Bool :=
  w.events.command.isSome || w.events.transfer.isSome || w.firstDevice.any (·.hidTransferPending)

def quiesceForS3 (w : S3World) : S3World × Except XhciS3Error XhciS3Token :=
  if w.s3State = .quarantined then (w, .error .quarantined)
  else if w.s3State = .quiesced then (w, .error .alreadyQuiesced)
  else if w.busy then (w, .error .busy)
  else
    match (readS3Snapshot hardware).run w with
    | (w, .error e) => (w, .error e)
    | (w, .ok snapshot) =>
      match (halt hardware snapshot).run w with
      | (w, .error e) => (w.quarantineS3 hardware, .error e)
      | (w, .ok ()) =>
        ({ w with
            running := false
            s3Generation := w.s3Generation + 1
            s3Snapshot := some snapshot
            s3State := .quiesced },
          .ok ⟨w.s3Generation + 1⟩)

/-- All the registers are read before the results are looked at. -/
def readRingRegisters : S3Action RingRegisters := do
  let crcr ← tolerate (readMmioU64 hardware .crcr)
  let dcbaap ← tolerate (readMmioU64 hardware .dcbaap)
  let config ← tolerate (readMmioU32 hardware .config)
  let erstba ← tolerate (readMmioU64 hardware .erstba)
  let erdp ← tolerate (readMmioU64 hardware .erdp)
  let crcr ← demand .quarantined crcr
  let dcbaap ← demand .quarantined dcbaap
  let config ← demand .quarantined config
  let erstba ← demand .quarantined erstba
  let erdp ← demand .quarantined erdp
  return ⟨crcr, dcbaap, config, erstba, erdp⟩

/-- The checks of `resume_from_s3`. Each way out of them ends in quarantine. -/
def validate (token : XhciS3Token) : S3Action XhciS3Snapshot := do
  let w ← get
  let snapshot ← demand .quarantined w.s3Snapshot
  if w.s3State ≠ .quiesced ∨ token.generation ≠ w.s3Generation then fail .quarantined
  else
    let status ← readMmioU32 hardware .usbsts
    if status &&& (Xhci.usbstsHostControllerError ||| Xhci.usbstsControllerNotReady) ≠ 0 then
      fail .quarantined
    else
      let registers ← readRingRegisters hardware
      if registers.retains snapshot = false ∨ w.snapshotMatchesRings snapshot = false then
        fail .quarantined
      else return snapshot

/-- The closure of `resume_from_s3` -/
def restart (snapshot : XhciS3Snapshot) : S3Action Unit := do
  writeMmioU64 .crcr snapshot.crcr
  writeMmioU64 .dcbaap snapshot.dcbaap
  writeMmioU32 .config snapshot.config
  writeMmioU64 .erstba snapshot.erstba
  writeMmioU64 .erdp snapshot.erdp
  clearEventInterrupt hardware
  writeMmioU32 .iman 1
  writeMmioU32 .usbcmd
    (snapshot.usbcmd &&& ~~~(Xhci.usbcmdRunStop ||| Xhci.usbcmdInte) ||| Xhci.usbcmdRunStop)
  waitForBits hardware .usbsts Xhci.usbstsHostControllerHalted 0 .controllerStartTimeout
    Xhci.maxPollSpins

def resumed (w : S3World) (snapshot : XhciS3Snapshot) : S3World × XhciS3Resume :=
  if snapshot.interruptMode = .polling then
    ({ w with running := true, s3Snapshot := none, s3State := .active }, .retained)
  else
    ({ w with
        running := true
        s3Snapshot := none
        s3State := .pollingFallback
        interruptMode := .polling
        interruptVector := 0 },
      .pollingFallback)

def resumeFromS3 (w : S3World) (token : XhciS3Token) : S3World × XhciS3Resume :=
  match (validate hardware token).run w with
  | (w, .error _) => (w.quarantineS3 hardware, .quarantined)
  | (w, .ok snapshot) =>
    match (restart hardware snapshot).run w with
    | (w, .error _) => (w.quarantineS3 hardware, .quarantined)
    | (w, .ok ()) => w.resumed snapshot

variable {hardware} {w w' : S3World} {P : S3Write → Prop}

/-- Nothing changes but the log of accesses, and each new write satisfies `P`. -/
def Accessed (P : S3Write → Prop) (w : S3World) (_ : Option XhciS3Error) (w' : S3World) : Prop :=
  ∃ new reads, w' = { w with writes := new ++ w.writes, reads := reads } ∧ ∀ x ∈ new, P x

theorem accessed_refl (w : S3World) (o : Option XhciS3Error) : Accessed P w o w :=
  ⟨[], w.reads, rfl, nofun⟩

theorem accessed_trans (w t w' : S3World) (o : Option XhciS3Error) (h : Accessed P w none t)
    (h' : Accessed P t o w') : Accessed P w o w' := by
  obtain ⟨new, reads, rfl, hnew⟩ := h
  obtain ⟨new', reads', rfl, hnew'⟩ := h'
  refine ⟨new' ++ new, reads', by rw [List.append_assoc], fun x hx ↦ ?_⟩
  rcases List.mem_append.mp hx with hx | hx
  · exact hnew' x hx
  · exact hnew x hx

variable {α : Type} {x : S3Action α}

theorem accessed_bind {β : Type} {f : α → S3Action β} (hx : Within (Accessed P) x)
    (hf : ∀ a, Within (Accessed P) (f a)) : Within (Accessed P) (x >>= f) :=
  hx.bind accessed_trans hf

theorem accessed_pure (a : α) : Within (Accessed P) (pure a : S3Action α) :=
  within_pure (fun w ↦ accessed_refl w none) a

theorem accessed_fail (e : XhciS3Error) : Within (Accessed P) (fail e : S3Action α) :=
  within_fail fun w ↦ accessed_refl w (some e)

theorem accessed_demand (e : XhciS3Error) (o : Option α) :
    Within (Accessed P) (demand e o : S3Action α) :=
  within_demand (fun w ↦ accessed_refl w none) (fun w ↦ accessed_refl w (some e)) o

theorem accessed_get : Within (Accessed P) (get : S3Action S3World) :=
  within_get fun w ↦ accessed_refl w none

theorem accessed_readHalf (r : S3Register) (high : Bool) :
    Within (Accessed P) (readHalf hardware r high) := by
  refine accessed_bind accessed_get fun w ↦ accessed_bind (accessed_demand _ _) fun _ ↦ ?_
  exact accessed_bind (within_modify fun w ↦ ⟨[], w.reads + 1, rfl, nofun⟩) fun _ ↦ accessed_pure _

theorem accessed_readMmioU64 (r : S3Register) : Within (Accessed P) (readMmioU64 hardware r) :=
  accessed_bind (accessed_readHalf r false) fun _ ↦
    accessed_bind (accessed_readHalf r true) fun _ ↦ accessed_pure _

theorem accessed_writeHalf {r : S3Register} {high : Bool} {value : U32} (h : P ⟨r, high, value⟩) :
    Within (Accessed P) (writeHalf r high value) := by
  refine accessed_bind accessed_get fun w ↦ accessed_bind (accessed_demand _ _) fun _ ↦ ?_
  refine within_modify fun w ↦ ⟨[⟨r, high, value⟩], w.reads, rfl, fun x hx ↦ ?_⟩
  exact List.mem_singleton.mp hx ▸ h

theorem accessed_tolerate (h : Within (Accessed P) x) :
    Within (Accessed P) (tolerate x) := h

theorem accessed_readS3Snapshot : Within (Accessed P) (readS3Snapshot hardware) := by
  refine accessed_bind (accessed_readHalf .usbcmd false) fun usbcmd ↦
    accessed_bind (accessed_readMmioU64 .crcr) fun crcr ↦
    accessed_bind (accessed_readMmioU64 .dcbaap) fun dcbaap ↦
    accessed_bind (accessed_readHalf .config false) fun config ↦
    accessed_bind (accessed_readMmioU64 .erstba) fun erstba ↦
    accessed_bind (accessed_readMmioU64 .erdp) fun erdp ↦
    accessed_bind (accessed_readHalf .iman false) fun iman ↦ accessed_bind accessed_get fun w ↦ ?_
  dsimp only
  split_ifs
  · exact accessed_fail _
  · exact accessed_pure _

theorem accessed_readRingRegisters : Within (Accessed P) (readRingRegisters hardware) :=
  accessed_bind (accessed_tolerate (accessed_readMmioU64 .crcr)) fun _ ↦
    accessed_bind (accessed_tolerate (accessed_readMmioU64 .dcbaap)) fun _ ↦
    accessed_bind (accessed_tolerate (accessed_readHalf .config false)) fun _ ↦
    accessed_bind (accessed_tolerate (accessed_readMmioU64 .erstba)) fun _ ↦
    accessed_bind (accessed_tolerate (accessed_readMmioU64 .erdp)) fun _ ↦
    accessed_bind (accessed_demand _ _) fun _ ↦ accessed_bind (accessed_demand _ _) fun _ ↦
    accessed_bind (accessed_demand _ _) fun _ ↦ accessed_bind (accessed_demand _ _) fun _ ↦
    accessed_bind (accessed_demand _ _) fun _ ↦ accessed_pure _

theorem accessed_validate (token : XhciS3Token) :
    Within (Accessed P) (validate hardware token) := by
  refine accessed_bind accessed_get fun w ↦ accessed_bind (accessed_demand _ _) fun snapshot ↦ ?_
  split_ifs
  · exact accessed_fail _
  · refine accessed_bind (accessed_readHalf .usbsts false) fun status ↦ ?_
    split_ifs
    · exact accessed_fail _
    · refine accessed_bind accessed_readRingRegisters fun registers ↦ ?_
      split_ifs
      · exact accessed_fail _
      · exact accessed_pure _

theorem readHalf_ok {r : S3Register} {high : Bool} {v : U32}
    (h : (readHalf hardware r high).run w = (w', .ok v)) :
    w' = { w with reads := w.reads + 1 } ∧ v = hardware w.reads := by
  obtain ⟨_, address, hdemand, h⟩ := run_bind_eq_ok.mp (by rwa [readHalf, run_get_bind] at h)
  obtain ⟨rfl, -⟩ := run_demand_eq_ok.mp hdemand
  rw [run_modify_bind, run_pure] at h
  cases h
  exact ⟨rfl, rfl⟩

theorem readMmioU64_ok {r : S3Register} {v : U64}
    (h : (readMmioU64 hardware r).run w = (w', .ok v)) :
    w' = { w with reads := w.reads + 2 } ∧ v = hardware.u64 w.reads := by
  obtain ⟨_, low, hlow, h⟩ := run_bind_eq_ok.mp h
  obtain ⟨_, high, hhigh, h⟩ := run_bind_eq_ok.mp h
  obtain ⟨rfl, rfl⟩ := readHalf_ok hlow
  obtain ⟨rfl, rfl⟩ := readHalf_ok hhigh
  cases h
  exact ⟨rfl, rfl⟩

theorem tolerate_ok {v : α} (h : (tolerate x).run w = (w', .ok (some v))) :
    x.run w = (w', .ok v) := by
  rcases hrun : x.run w with ⟨t, e | a⟩
  · simp only [tolerate, hrun] at h
    cases h
  · simp only [tolerate, hrun] at h
    cases h
    rfl

theorem readRingRegisters_ok {registers : RingRegisters}
    (h : (readRingRegisters hardware).run w = (w', .ok registers)) :
    registers = hardware.ringRegisters w.reads := by
  simp only [readRingRegisters, run_bind_eq_ok, run_demand_eq_ok] at h
  obtain ⟨_, _, hcrcr, _, _, hdcbaap, _, _, hconfig, _, _, herstba, _, _, herdp, _, crcr, ⟨rfl, rfl⟩,
    _, dcbaap, ⟨rfl, rfl⟩, _, config, ⟨rfl, rfl⟩, _, erstba, ⟨rfl, rfl⟩, _, erdp, ⟨rfl, rfl⟩, h⟩ := h
  obtain ⟨rfl, rfl⟩ := readMmioU64_ok (tolerate_ok hcrcr)
  obtain ⟨rfl, rfl⟩ := readMmioU64_ok (tolerate_ok hdcbaap)
  obtain ⟨rfl, rfl⟩ := readHalf_ok (tolerate_ok hconfig)
  obtain ⟨rfl, rfl⟩ := readMmioU64_ok (tolerate_ok herstba)
  obtain ⟨rfl, rfl⟩ := readMmioU64_ok (tolerate_ok herdp)
  cases h
  rfl

/-- What must hold for a controller to run again. -/
structure Resumable (hardware : S3Hardware) (w : S3World) (token : XhciS3Token)
    (snapshot : XhciS3Snapshot) : Prop where
  quiesced : w.s3State = .quiesced
  latest : token = ⟨w.s3Generation⟩
  saved : w.s3Snapshot = some snapshot
  -- the first read of a resume is the status
  registers : (hardware.ringRegisters (w.reads + 1)).retains snapshot = true
  rings : w.snapshotMatchesRings snapshot = true

theorem validate_ok {token : XhciS3Token} {snapshot : XhciS3Snapshot}
    (h : (validate hardware token).run w = (w', .ok snapshot)) :
    Resumable hardware w token snapshot := by
  rw [validate, run_get_bind] at h
  obtain ⟨_, _, hdemand, h⟩ := run_bind_eq_ok.mp h
  obtain ⟨rfl, hsnapshot⟩ := run_demand_eq_ok.mp hdemand
  split_ifs at h with hstale
  · cases h
  obtain ⟨_, status, hstatus, h⟩ := run_bind_eq_ok.mp h
  obtain ⟨rfl, rfl⟩ := readHalf_ok hstatus
  split_ifs at h with herror
  · cases h
  obtain ⟨_, registers, hregisters, h⟩ := run_bind_eq_ok.mp h
  have hread := readRingRegisters_ok hregisters
  split_ifs at h with hchanged
  · cases h
  cases h
  rw [not_or, not_not, not_not] at hstale
  rw [not_or, Bool.not_eq_false, Bool.not_eq_false] at hchanged
  exact ⟨hstale.1, congrArg XhciS3Token.mk hstale.2, hsnapshot, hread ▸ hchanged.1, hchanged.2⟩

theorem not_starts_stop (command : U32) : ¬ S3Write.Starts
    ⟨.usbcmd, false, command &&& ~~~(Xhci.usbcmdRunStop ||| Xhci.usbcmdInte)⟩ := by
  have hmask : ~~~(Xhci.usbcmdRunStop ||| Xhci.usbcmdInte) &&& Xhci.usbcmdRunStop = 0 := by decide
  rintro ⟨-, hrun⟩
  rw [BitVec.and_assoc, hmask] at hrun
  exact hrun BitVec.and_zero

theorem writes_quarantineS3 (hardware : S3Hardware) (w : S3World) :
    ∃ new, (w.quarantineS3 hardware).writes = new ++ w.writes ∧ ∀ x ∈ new, ¬ x.Starts := by
  have hmask : Within (Accessed fun x ↦ ¬ x.Starts) (maskInterrupter hardware) :=
    accessed_bind (accessed_readHalf .iman false) fun _ ↦ accessed_writeHalf nofun
  have hstop : Within (Accessed fun x ↦ ¬ x.Starts) (stopController hardware) :=
    accessed_bind (accessed_readHalf .usbcmd false) fun command ↦
      accessed_writeHalf (not_starts_stop command)
  have hwrites : (w.quarantineS3 hardware).writes =
      ((stopController hardware).run ((maskInterrupter hardware).run w).1).1.writes := by
    rw [quarantineS3]
  obtain ⟨new, reads, hnew, hquiet⟩ := accessed_trans _ _ _ _
    (hmask w) (hstop ((maskInterrupter hardware).run w).1)
  rw [hnew] at hwrites
  exact ⟨new, hwrites, hquiet⟩

inductive Quiesces (w : S3World) : S3World → Except XhciS3Error XhciS3Token → Prop
  | refused {w' : S3World} {e : XhciS3Error} : Accessed (fun _ ↦ False) w none w' →
      Quiesces w w' (.error e)
  | failed {w' : S3World} {e : XhciS3Error} : w.busy = false → w.s3State ≠ .quarantined →
      w.s3State ≠ .quiesced → w'.s3State = .quarantined → Quiesces w w' (.error e)
  | stopped {w' : S3World} : w.busy = false → w.s3State ≠ .quarantined → w.s3State ≠ .quiesced →
      w'.s3State = .quiesced → Quiesces w w' (.ok ⟨w'.s3Generation⟩)

theorem quiesces_quiesceForS3 (hardware : S3Hardware) (w : S3World) :
    Quiesces w (w.quiesceForS3 hardware).1 (w.quiesceForS3 hardware).2 := by
  unfold quiesceForS3
  by_cases hquarantined : w.s3State = .quarantined
  · rw [if_pos hquarantined]
    exact .refused (accessed_refl w none)
  rw [if_neg hquarantined]
  by_cases hquiesced : w.s3State = .quiesced
  · rw [if_pos hquiesced]
    exact .refused (accessed_refl w none)
  rw [if_neg hquiesced]
  cases hbusy : w.busy with
  | true => exact .refused (accessed_refl w none)
  | false =>
    rw [if_neg Bool.false_ne_true]
    rcases hread : (readS3Snapshot hardware).run w with ⟨w₁, e | snapshot⟩
    · exact .refused (accessed_readS3Snapshot.of_run hread)
    · dsimp only
      rcases hhalt : (halt hardware snapshot).run w₁ with ⟨w₂, e | done⟩
      · exact .failed hbusy hquarantined hquiesced rfl
      · exact .stopped hbusy hquarantined hquiesced rfl

inductive Resumes (hardware : S3Hardware) (w : S3World) (token : XhciS3Token) :
    S3World → XhciS3Resume → Prop
  | refused {w' : S3World} {new : List S3Write} : w'.s3State = .quarantined →
      w'.running = false → w'.writes = new ++ w.writes → (∀ x ∈ new, ¬ x.Starts) →
      Resumes hardware w token w' .quarantined
  | failed {w' : S3World} {snapshot : XhciS3Snapshot} : Resumable hardware w token snapshot →
      w'.s3State = .quarantined → Resumes hardware w token w' .quarantined
  | resumed {w' : S3World} {snapshot : XhciS3Snapshot} {result : XhciS3Resume} :
      Resumable hardware w token snapshot → w'.s3State ≠ .quarantined → w'.s3State ≠ .quiesced →
      result ≠ .quarantined → Resumes hardware w token w' result

theorem resumes_resumeFromS3 (hardware : S3Hardware) (w : S3World) (token : XhciS3Token) :
    Resumes hardware w token (w.resumeFromS3 hardware token).1 (w.resumeFromS3 hardware token).2 := by
  unfold resumeFromS3
  rcases hvalidate : (validate hardware token).run w with ⟨w₁, e | snapshot⟩
  · obtain ⟨read, reads, hread, hsilent⟩ :=
      (accessed_validate (P := fun x ↦ ¬ x.Starts) token).of_run hvalidate
    obtain ⟨new, hnew, hquiet⟩ := writes_quarantineS3 hardware w₁
    have hwrites : (w₁.quarantineS3 hardware).writes = (new ++ read) ++ w.writes := by
      rw [hnew, hread, List.append_assoc]
    refine .refused rfl rfl hwrites fun x hx ↦ ?_
    rcases List.mem_append.mp hx with hx | hx
    · exact hquiet x hx
    · exact hsilent x hx
  · have hresumable := validate_ok hvalidate
    dsimp only
    rcases hrestart : (restart hardware snapshot).run w₁ with ⟨w₂, e | done⟩
    · exact .failed hresumable rfl
    · dsimp only
      unfold S3World.resumed
      split_ifs
      · exact .resumed hresumable nofun nofun nofun
      · exact .resumed hresumable nofun nofun nofun

theorem resumable_of_starts {token : XhciS3Token}
    (h : (w.resumeFromS3 hardware token).1.running = true ∨
      ∃ new, (w.resumeFromS3 hardware token).1.writes = new ++ w.writes ∧ ∃ x ∈ new, x.Starts) :
    ∃ snapshot, Resumable hardware w token snapshot := by
  have hresumes := resumes_resumeFromS3 hardware w token
  generalize (w.resumeFromS3 hardware token).1 = w' at h hresumes
  generalize (w.resumeFromS3 hardware token).2 = result at hresumes
  cases hresumes with
  | @refused new hstate hstopped hwrites hquiet =>
    rcases h with hrunning | ⟨new', hwrites', x, hx, hstarts⟩
    · cases hstopped.symm.trans hrunning
    · rw [hwrites] at hwrites'
      rw [← List.append_cancel_right hwrites'] at hx
      exact absurd hstarts (hquiet x hx)
  | failed hresumable => exact ⟨_, hresumable⟩
  | resumed hresumable => exact ⟨_, hresumable⟩

theorem idle_of_stops
    (h : (w.quiesceForS3 hardware).1.writes ≠ w.writes ∨
      (w.quiesceForS3 hardware).1.running ≠ w.running) :
    w.events.command = none ∧ w.events.transfer = none ∧
      ∀ device, w.firstDevice = some device → device.hidTransferPending = false := by
  have hbusy : w.busy = false := by
    have hquiesces := quiesces_quiesceForS3 hardware w
    generalize (w.quiesceForS3 hardware).1 = w' at h hquiesces
    generalize (w.quiesceForS3 hardware).2 = result at hquiesces
    cases hquiesces with
    | refused haccessed =>
      obtain ⟨new, reads, rfl, hnone⟩ := haccessed
      have hnil : new = [] := List.eq_nil_iff_forall_not_mem.mpr hnone
      subst hnil
      rcases h with h | h
      · exact absurd rfl h
      · exact absurd rfl h
    | failed hbusy => exact hbusy
    | stopped hbusy => exact hbusy
  rw [busy, Bool.or_eq_false_iff, Bool.or_eq_false_iff, Option.isSome_eq_false_iff,
    Option.isSome_eq_false_iff, Option.isNone_iff_eq_none, Option.isNone_iff_eq_none] at hbusy
  refine ⟨hbusy.1.1, hbusy.1.2, fun device hdevice ↦ ?_⟩
  have hhid := hbusy.2
  rwa [hdevice, Option.any_some] at hhid

end S3World

end BraneKernel
