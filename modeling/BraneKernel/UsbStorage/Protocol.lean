import BraneKernel.Lib.Trace
import BraneKernel.UsbStorage.Transport

namespace BraneKernel

inductive Exchange
  | bulkOut (data : Bytes) (result : Except UsbStorageError ℕ)
  | bulkIn (data : Bytes) (result : Except UsbStorageError ℕ)
  | bulkInCsw (data : Bytes) (result : Except UsbStorageError ℕ)
  | resetRecovery (plan : List RecoveryAction) (result : Except UsbStorageError Unit)

namespace Exchange

def isCommand : Exchange → Bool
  | bulkOut _ _ => true
  | _ => false

def isRecovery : Exchange → Bool
  | resetRecovery _ _ => true
  | _ => false

def received : Exchange → ℕ
  | bulkIn _ (.ok n) => n
  | _ => 0

def tag? : Exchange → Option U32
  | bulkOut cbw _ => some (leWord cbw 4)
  | _ => none

end Exchange

/-- The transport `T`, with a note of each exchange it makes. -/
def BulkOnlyTransport.recorded {τ : Type} (T : BulkOnlyTransport τ) :
    BulkOnlyTransport (τ × List Exchange) where
  bulkOut s data :=
    let (t, result) := T.bulkOut s.1 data
    ((t, s.2 ++ [.bulkOut data result]), result)
  bulkIn s output :=
    let (t, data, result) := T.bulkIn s.1 output
    ((t, s.2 ++ [.bulkIn data.1 result]), data, result)
  bulkInCsw s output :=
    let (t, data, result) := T.bulkInCsw s.1 output
    ((t, s.2 ++ [.bulkInCsw data.1 result]), data, result)
  resetRecovery s plan :=
    let (t, result) := T.resetRecovery s.1 plan
    ((t, s.2 ++ [.resetRecovery plan result]), result)

/-- A status for the command with the given tag, after a data stage of `received` bytes. -/
structure Accounts (tag : U32) (transferLength received : ℕ) (csw : Bytes) : Prop where
  signature : leWord csw 0 = cswSignature
  tag : leWord csw 4 = tag
  length : received + (leWord csw 8).toNat = transferLength

/-- Transport errors, short commands, bad or mismatched statuses and phase errors. -/
def Exchange.Faulty (tag : Option U32) (transferLength received : ℕ) : Exchange → Prop
  | bulkOut _ (.error _) | bulkIn _ (.error _) | bulkInCsw _ (.error _) => True
  | bulkOut cbw (.ok n) => n ≠ cbw.length
  | bulkInCsw csw (.ok n) =>
    ¬ (n = cswBytes ∧ (∃ t ∈ tag, Accounts t transferLength received csw) ∧
      (csw[12]? = some 0 ∨ csw[12]? = some 1))
  | bulkIn _ (.ok _) | resetRecovery _ _ => False

inductive DataStage : List Exchange → ℕ → Prop
  | skipped : DataStage [] 0
  | received (data : Bytes) (n : ℕ) : DataStage [.bulkIn data (.ok n)] n

inductive Stages (cbw : Bytes) (transferLength : ℕ) :
    List Exchange → Bool → Except UsbStorageError ℕ → Prop
  | commandError (e : UsbStorageError) :
    Stages cbw transferLength [.bulkOut cbw (.error e)] true (.error e)
  | commandShort {n : ℕ} (h : n ≠ cbw.length) :
    Stages cbw transferLength [.bulkOut cbw (.ok n)] true (.error .shortTransfer)
  | dataError (data : Bytes) (e : UsbStorageError) :
    Stages cbw transferLength
      (.bulkOut cbw (.ok cbw.length) :: [.bulkIn data (.error e)]) true (.error e)
  | statusError {stage : List Exchange} {n : ℕ} (hstage : DataStage stage n) (csw : Bytes)
      (e : UsbStorageError) :
    Stages cbw transferLength
      (.bulkOut cbw (.ok cbw.length) :: (stage ++ [.bulkInCsw csw (.error e)])) true (.error e)
  | statusBad {stage : List Exchange} {n m : ℕ} {csw : Bytes} (hstage : DataStage stage n)
      (h : ¬ (m = cswBytes ∧ Accounts (leWord cbw 4) transferLength n csw ∧
        (csw[12]? = some 0 ∨ csw[12]? = some 1))) (e : UsbStorageError) :
    Stages cbw transferLength
      (.bulkOut cbw (.ok cbw.length) :: (stage ++ [.bulkInCsw csw (.ok m)])) true (.error e)
  | passed {stage : List Exchange} {n : ℕ} {csw : Bytes} (hstage : DataStage stage n)
      (hlength : csw.length = cswBytes) (h : Accounts (leWord cbw 4) transferLength n csw)
      (hstatus : csw[12]? = some 0) :
    Stages cbw transferLength
      (.bulkOut cbw (.ok cbw.length) :: (stage ++ [.bulkInCsw csw (.ok cswBytes)])) false (.ok n)
  | failed {stage : List Exchange} {n : ℕ} {csw : Bytes} (hstage : DataStage stage n)
      (h : Accounts (leWord cbw 4) transferLength n csw) (hstatus : csw[12]? = some 1) :
    Stages cbw transferLength
      (.bulkOut cbw (.ok cbw.length) :: (stage ++ [.bulkInCsw csw (.ok cswBytes)])) false
      (.error .commandFailed)

theorem leWord_of_take {bytes : Bytes} {start : ℕ} {word : U32}
    (h : (bytes.drop start).take 4 = Bytes.le 4 word.toNat) : leWord bytes start = word := by
  have hlt : word.toNat < 256 ^ 4 := word.isLt
  rw [leWord, h, Bytes.ofLe_le, Nat.mod_eq_of_lt hlt, BitVec.ofNat_toNat, BitVec.setWidth_eq]

theorem CommandBlockWrapper.leWord_toBytes (cbw : CommandBlockWrapper) :
    leWord cbw.toBytes.1 4 = cbw.tag :=
  leWord_of_take (by simp [toBytes])

theorem CommandBlockWrapper.of_new {tag : U32} {length : ℕ} {direction : DataDirection}
    {command : ScsiCommand} {cbw : CommandBlockWrapper}
    (h : new tag length direction command = .ok cbw) :
    cbw.tag = tag ∧ cbw.command = command := by
  simp only [new] at h
  split at h
  · cases h
  · split at h <;> cases h
    exact ⟨rfl, rfl⟩

theorem CommandStatus.bind_ofByte_eq_some_iff {byte? : Option (BitVec 8)} {status : CommandStatus} :
    byte?.bind ofByte = some status ↔
      (byte? = some 0 ∧ status = .passed) ∨ (byte? = some 1 ∧ status = .failed) ∨
        (byte? = some 2 ∧ status = .phaseError) := by
  cases byte? with
  | none => simp
  | some byte =>
    simp only [Option.bind_some, ofByte, Option.some.injEq]
    split_ifs with h0 h1 h2
    · simp [h0, eq_comm]
    · simp [h1, eq_comm]
    · simp [h2, eq_comm]
    · simp only [h0, h1, h2, false_and, or_false]

theorem CommandStatus.bind_ofByte_of_good {byte? : Option (BitVec 8)}
    (h : byte? = some 0 ∨ byte? = some 1) : ∃ status, byte?.bind ofByte = some status := by
  rcases h with h | h
  · exact ⟨.passed, bind_ofByte_eq_some_iff.mpr (.inl ⟨h, rfl⟩)⟩
  · exact ⟨.failed, bind_ofByte_eq_some_iff.mpr (.inr (.inl ⟨h, rfl⟩))⟩

theorem CommandStatusWrapper.parse_eq_ok_iff {bytes : Bytes} {tag : U32} {length : ℕ}
    {csw : CommandStatusWrapper} :
    parse bytes tag length = .ok csw ↔
      bytes.length = cswBytes ∧ leWord bytes 0 = cswSignature ∧ leWord bytes 4 = tag ∧
        (leWord bytes 8).toNat ≤ length ∧ csw.residue = leWord bytes 8 ∧
        bytes[12]?.bind CommandStatus.ofByte = some csw.status := by
  obtain ⟨residue, status⟩ := csw
  simp only [parse, List.head?_drop]
  split_ifs with hlength hwords
  · simp [hlength]
  · simp only [false_iff]
    rintro ⟨-, hsignature, htag, hresidue, -⟩
    rcases hwords with h | h | h
    · exact h hsignature
    · exact h htag
    · omega
  · simp only [not_or, not_not, Nat.not_lt] at hlength hwords
    obtain ⟨hsignature, htag, hresidue⟩ := hwords
    cases bytes[12]?.bind CommandStatus.ofByte <;>
      simp [hlength, hsignature, htag, hresidue, eq_comm]

namespace UsbMassStorageState

variable {τ : Type} {T : BulkOnlyTransport τ} {s : UsbMassStorageState} {t : τ}
  {log : List Exchange}

structure Ends (log : List Exchange) (recovers : Bool) (result : Except UsbStorageError ℕ)
    (o : Outcome (τ × List Exchange)) : Prop where
  returns : o.2.2 = result
  kept : recovers = false → o.2.1.2 = log ∧ o.1.available = true
  recovered : recovers = true → ∃ answer : Except UsbStorageError Unit,
    o.2.1.2 = log ++ [.resetRecovery resetRecoveryPlan answer] ∧ o.1.available = answer.isOk

def Conducts (base : List Exchange) (cbw : Bytes) (length : ℕ) (o : Outcome (τ × List Exchange)) :
    Prop :=
  ∃ log recovers result, Stages cbw length log recovers result ∧
    Ends (base ++ log) recovers result o

variable {cbw : Bytes} {length n : ℕ} {base stage : List Exchange}

section

variable (h : s.available = true)
include h

theorem ends_kept (result : Except UsbStorageError ℕ) :
    Ends log false result (s, (t, log), result) :=
  ⟨rfl, fun _ ↦ ⟨rfl, h⟩, by simp⟩

theorem failWith_ends (e : UsbStorageError) :
    Ends log true (.error e) (failWith T.recorded s (t, log) e) := by
  rcases hr : T.resetRecovery t resetRecoveryPlan with ⟨t', answer⟩
  simp only [failWith, recover, BulkOnlyTransport.recorded, hr]
  cases answer with
  | ok u => exact ⟨rfl, by simp, fun _ ↦ ⟨.ok u, rfl, h⟩⟩
  | error e' => exact ⟨rfl, by simp, fun _ ↦ ⟨.error e', rfl, rfl⟩⟩

theorem checkStatus_conducts (hstage : DataStage stage n) {csw : Bytes}
    (hlength : csw.length = cswBytes) :
    Conducts base cbw length
      (checkStatus T.recorded s
        (t, base ++ .bulkOut cbw (.ok cbw.length) :: (stage ++ [.bulkInCsw csw (.ok cswBytes)]))
        (leWord cbw 4) length n csw) := by
  unfold checkStatus
  cases hparse : CommandStatusWrapper.parse csw (leWord cbw 4) length with
  | error e =>
    refine ⟨_, _, _, .statusBad hstage ?_ e, failWith_ends h e⟩
    rintro ⟨-, hgood, hbyte⟩
    obtain ⟨status, hstatus⟩ := CommandStatus.bind_ofByte_of_good hbyte
    have hok : CommandStatusWrapper.parse csw (leWord cbw 4) length =
        .ok ⟨leWord csw 8, status⟩ := CommandStatusWrapper.parse_eq_ok_iff.mpr
      ⟨hlength, hgood.signature, hgood.tag, Nat.le_of_add_left_le hgood.length.le, rfl, hstatus⟩
    cases hparse.symm.trans hok
  | ok w =>
    obtain ⟨-, hsignature, htag, -, hresidue, hstatus⟩ :=
      CommandStatusWrapper.parse_eq_ok_iff.mp hparse
    dsimp only
    split_ifs with hne
    · refine ⟨_, _, _, .statusBad hstage ?_ .invalidCsw, failWith_ends h _⟩
      rintro ⟨-, hgood, -⟩
      exact hne (by rw [hresidue, hgood.length])
    · have hgood : Accounts (leWord cbw 4) length n csw :=
        ⟨hsignature, htag, by rw [← hresidue]; exact not_not.mp hne⟩
      rw [CommandStatus.bind_ofByte_eq_some_iff] at hstatus
      obtain ⟨hbyte, hpassed⟩ | ⟨hbyte, hfailed⟩ | ⟨hbyte, hphase⟩ := hstatus
      · rw [hpassed]
        exact ⟨_, _, _, .passed hstage hlength hgood hbyte, ends_kept h _⟩
      · rw [hfailed]
        exact ⟨_, _, _, .failed hstage hgood hbyte, ends_kept h _⟩
      · rw [hphase]
        refine ⟨_, _, _, .statusBad hstage ?_ .phaseError, failWith_ends h _⟩
        simp [hbyte]

theorem statusStage_conducts (hstage : DataStage stage n) :
    Conducts base cbw length
      (statusStage T.recorded s (t, base ++ .bulkOut cbw (.ok cbw.length) :: stage) (leWord cbw 4)
        length n) := by
  rcases hr : T.bulkInCsw t ⟨List.replicate cswBytes 0, List.length_replicate⟩ with
    ⟨t', csw, result⟩
  simp only [statusStage, BulkOnlyTransport.recorded, hr, List.append_assoc, List.cons_append]
  cases result with
  | error e => exact ⟨_, _, _, .statusError hstage csw.1 e, failWith_ends h e⟩
  | ok m =>
    dsimp only
    split_ifs with hm
    · refine ⟨_, _, _, .statusBad hstage ?_ .invalidCsw, failWith_ends h _⟩
      exact fun hgood ↦ hm hgood.1
    · obtain rfl := not_not.mp hm
      exact checkStatus_conducts h hstage csw.2

theorem dataStage_conducts (direction : DataDirection) (hlength : length ≤ bounceBufferBytes) :
    Conducts base cbw length
      (dataStage T.recorded s (t, base ++ [.bulkOut cbw (.ok cbw.length)]) (leWord cbw 4) direction
        length hlength) := by
  unfold dataStage
  split_ifs
  · rcases hr : T.bulkIn t (s.bounce.front hlength) with ⟨t', data, result⟩
    have hwritten : ({ s with bounce := s.bounce.overwrite hlength data } :
        UsbMassStorageState).available = true := h
    simp only [BulkOnlyTransport.recorded, hr, List.append_assoc]
    cases result with
    | error e => exact ⟨_, _, _, .dataError data.1 e, failWith_ends hwritten e⟩
    | ok n => exact statusStage_conducts hwritten (.received data.1 n)
  · exact statusStage_conducts h .skipped

theorem commandStage_conducts (cbw : CommandBlockWrapper) (direction : DataDirection)
    (hlength : length ≤ bounceBufferBytes) :
    Conducts base cbw.toBytes.1 length
      (commandStage T.recorded s (t, base) cbw direction length hlength) := by
  rcases hr : T.bulkOut t cbw.toBytes.1 with ⟨t', result⟩
  simp only [commandStage, BulkOnlyTransport.recorded, hr, ← cbw.toBytes.2]
  cases result with
  | error e => exact ⟨_, _, _, .commandError e, failWith_ends h e⟩
  | ok m =>
    dsimp only
    split_ifs with hm
    · exact ⟨_, _, _, .commandShort hm, failWith_ends h _⟩
    · obtain rfl := not_not.mp hm
      rw [← cbw.leWord_toBytes]
      exact dataStage_conducts h direction hlength

end

inductive Executes (base : List Exchange) (s : UsbMassStorageState) (t : τ)
    (command : ScsiCommand) (direction : DataDirection) (length : ℕ) :
    Outcome (τ × List Exchange) → Prop
  | unavailable (h : s.available = false) :
    Executes base s t command direction length (s, (t, base), .error .unavailable)
  | refused {s' : UsbMassStorageState} (hs : s.available = true) (h : s'.available = true)
      (e : UsbStorageError) :
    Executes base s t command direction length (s', (t, base), .error e)
  | sent {cbw : CommandBlockWrapper} {o : Outcome (τ × List Exchange)} (hs : s.available = true)
      (hcbw : CommandBlockWrapper.new s.nextTag length direction command = .ok cbw)
      (h : Conducts base cbw.toBytes.1 length o) :
    Executes base s t command direction length o

theorem executeWith_executes (base : List Exchange) (s : UsbMassStorageState) (t : τ)
    (command : ScsiCommand) (direction : DataDirection) (length : ℕ) :
    Executes base s t command direction length
      (executeWith T.recorded s (t, base) command direction length) := by
  unfold executeWith
  split_ifs with havailable hlength
  · exact .refused havailable havailable _
  · have htagged : ({ s with nextTag := s.nextTag + 1 } : UsbMassStorageState).available = true :=
      havailable
    dsimp only
    cases hcbw : CommandBlockWrapper.new s.nextTag length direction command with
    | error e => exact .refused havailable htagged e
    | ok cbw => exact .sent havailable hcbw (commandStage_conducts htagged cbw direction _)
  · exact .unavailable (Bool.eq_false_of_not_eq_true havailable)

end UsbMassStorageState

/-- The faults of a call's exchanges, with the tag and the number of bytes that they show. -/
def Faults (transferLength : ℕ) (log : List Exchange) : Prop :=
  ∃ x ∈ log, x.Faulty (log.head?.bind Exchange.tag?) transferLength
    (log.map Exchange.received).sum

section

variable {stage log : List Exchange} {n length : ℕ} {cbw csw : Bytes}
  {result : Except UsbStorageError ℕ} {recovers : Bool}

theorem DataStage.counts (h : DataStage stage n) :
    (Exchange.bulkOut cbw (.ok cbw.length) :: (stage ++ [.bulkInCsw csw result])).countP
        Exchange.isCommand = 1 ∧
      (Exchange.bulkOut cbw (.ok cbw.length) :: (stage ++ [.bulkInCsw csw result])).countP
        Exchange.isRecovery = 0 := by
  cases h <;> exact ⟨rfl, rfl⟩

theorem DataStage.faults_iff (h : DataStage stage n) :
    Faults length (.bulkOut cbw (.ok cbw.length) :: (stage ++ [.bulkInCsw csw result])) ↔
      (Exchange.bulkInCsw csw result).Faulty (some (leWord cbw 4)) length n := by
  cases h <;> simp [Faults, Exchange.received, Exchange.tag?, Exchange.Faulty]

theorem Stages.counts (h : Stages cbw length log recovers result) :
    log.countP Exchange.isCommand = 1 ∧ log.countP Exchange.isRecovery = 0 := by
  cases h with
  | commandError e => exact ⟨rfl, rfl⟩
  | commandShort hn => exact ⟨rfl, rfl⟩
  | dataError data e => exact ⟨rfl, rfl⟩
  | statusError hstage csw e => exact hstage.counts
  | statusBad hstage hbad e => exact hstage.counts
  | passed hstage hlength hgood hstatus => exact hstage.counts
  | failed hstage hgood hstatus => exact hstage.counts

theorem Stages.faults_iff (h : Stages cbw length log recovers result) :
    Faults length log ↔ recovers = true := by
  cases h with
  | commandError e => simp [Faults, Exchange.Faulty]
  | commandShort hn => simp [Faults, Exchange.Faulty, hn]
  | dataError data e => simp [Faults, Exchange.Faulty]
  | statusError hstage csw e => simp [hstage.faults_iff, Exchange.Faulty]
  | statusBad hstage hbad e =>
    rw [hstage.faults_iff]
    simpa [Exchange.Faulty] using hbad
  | passed hstage hlength hgood hstatus =>
    simp [hstage.faults_iff, Exchange.Faulty, hgood, hstatus]
  | failed hstage hgood hstatus => simp [hstage.faults_iff, Exchange.Faulty, hgood, hstatus]

theorem Stages.of_ok (h : Stages cbw length log recovers (.ok n)) : ∃ stage csw,
    log = .bulkOut cbw (.ok cbw.length) :: (stage ++ [.bulkInCsw csw (.ok cswBytes)]) ∧
      csw.length = cswBytes ∧ Accounts (leWord cbw 4) length n csw ∧ csw[12]? = some 0 := by
  cases h with
  | passed hstage hlength hgood hstatus => exact ⟨_, _, rfl, hlength, hgood, hstatus⟩

theorem DataStage.csw_eq (h : DataStage stage n) {x : Bytes} {m : ℕ}
    (hx : .bulkInCsw x (.ok m) ∈
      Exchange.bulkOut cbw (.ok cbw.length) :: (stage ++ [.bulkInCsw csw result])) : x = csw := by
  cases h <;> simp_all

theorem Stages.of_failed (h : Stages cbw length log false result)
    (hcsw : .bulkInCsw csw (.ok n) ∈ log) (hstatus : csw[12]? = some 1) :
    result = .error .commandFailed := by
  cases h with
  | passed hstage hlength hgood hpassed =>
    rw [hstage.csw_eq hcsw, hpassed] at hstatus
    exact absurd hstatus (by decide)
  | failed hstage hgood hfailed => rfl

theorem faults_recovery_iff (h : Stages cbw length log recovers result)
    (answer : Except UsbStorageError Unit) :
    Faults length (log ++ [.resetRecovery resetRecoveryPlan answer]) ↔ Faults length log := by
  have hne : log ≠ [] := by
    have hcount := h.counts.1
    rintro rfl
    simp at hcount
  simp only [Faults, List.head?_append_of_ne_nil log hne, List.map_append, List.sum_append,
    List.mem_append, List.mem_singleton]
  constructor
  · rintro ⟨x, hx | rfl, hfault⟩
    · exact ⟨x, hx, by simpa [Exchange.received] using hfault⟩
    · exact absurd hfault (by simp [Exchange.Faulty])
  · rintro ⟨x, hx, hfault⟩
    exact ⟨x, .inl hx, by simpa [Exchange.received] using hfault⟩

end

structure Performed where
  command : ScsiCommand
  direction : DataDirection
  transferLength : ℕ
  log : List Exchange
  result : Except UsbStorageError ℕ

namespace Performed

open UsbMassStorageState

variable {τ : Type} {T : BulkOnlyTransport τ} {s s' : UsbMassStorageState × τ} {e : Performed}
  {es : List Performed}

def Step (T : BulkOnlyTransport τ) (s : UsbMassStorageState × τ) (e : Performed)
    (s' : UsbMassStorageState × τ) : Prop :=
  executeWith T.recorded s.1 (s.2, []) e.command e.direction e.transferLength =
    (s'.1, (s'.2, e.log), e.result)

/-- What the protocol promises of one call. -/
structure Conforms (e : Performed) : Prop where
  commands : e.log.countP Exchange.isCommand ≤ 1
  passed (n : ℕ) (h : e.result = .ok n) : ∃ (tag : U32) (cbw : CommandBlockWrapper)
    (stage : List Exchange) (csw : Bytes),
      CommandBlockWrapper.new tag e.transferLength e.direction e.command = .ok cbw ∧
      e.log = .bulkOut cbw.toBytes.1 (.ok cbwBytes) :: (stage ++ [.bulkInCsw csw (.ok cswBytes)]) ∧
      csw.length = cswBytes ∧ Accounts tag e.transferLength n csw ∧ csw[12]? = some 0
  recovers (h : Faults e.transferLength e.log) : e.log.countP Exchange.isRecovery = 1
  spares (h : ¬ Faults e.transferLength e.log) : e.log.countP Exchange.isRecovery = 0
  failed (h : ¬ Faults e.transferLength e.log) (csw : Bytes) (n : ℕ)
    (hcsw : .bulkInCsw csw (.ok n) ∈ e.log) (hstatus : csw[12]? = some 1) :
    e.result = .error .commandFailed

def RecoveryFailed (e : Performed) : Prop :=
  ∃ plan error, .resetRecovery plan (.error error) ∈ e.log

def Untouched (e : Performed) : Prop := e.log = [] ∧ e.result = .error .unavailable

theorem conforms_of_untouched (hlog : e.log = []) (hresult : ∃ error, e.result = .error error) :
    e.Conforms := by
  have hnone : ¬ Faults e.transferLength e.log := by simp [Faults, hlog]
  constructor
  · simp [hlog]
  · intro n hn
    obtain ⟨error, he⟩ := hresult
    cases he.symm.trans hn
  · exact fun h ↦ absurd h hnone
  · simp [hlog]
  · simp [hlog]

theorem Step.cases (h : Step T s e s') :
    (s.1.available = false ∧ s'.1.available = false ∧ e.Untouched) ∨
    (s.1.available = true ∧ s'.1.available = true ∧ e.log = [] ∧
      ∃ error, e.result = .error error) ∨
    s.1.available = true ∧ ∃ cbw log recovers result,
      CommandBlockWrapper.new s.1.nextTag e.transferLength e.direction e.command = .ok cbw ∧
      Stages cbw.toBytes.1 e.transferLength log recovers result ∧
      Ends log recovers result (s'.1, (s'.2, e.log), e.result) := by
  have hexecutes := executeWith_executes (T := T) [] s.1 s.2 e.command e.direction
    e.transferLength
  rw [h] at hexecutes
  obtain ⟨s', t'⟩ := s'
  obtain ⟨command, direction, length, log, result⟩ := e
  cases hexecutes with
  | unavailable hs => exact .inl ⟨hs, hs, rfl, rfl⟩
  | refused hs hs' error => exact .inr (.inl ⟨hs, hs', rfl, error, rfl⟩)
  | sent hs hcbw hconducts =>
    obtain ⟨stages, recovers, result, hstages, hends⟩ := hconducts
    exact .inr (.inr ⟨hs, _, stages, recovers, result, hcbw, hstages, hends⟩)

theorem conforms_of_sent {cbw : CommandBlockWrapper} {tag : U32} {log : List Exchange}
    {recovers : Bool} {result : Except UsbStorageError ℕ}
    (hcbw : CommandBlockWrapper.new tag e.transferLength e.direction e.command = .ok cbw)
    (hstages : Stages cbw.toBytes.1 e.transferLength log recovers result)
    (hends : Ends log recovers result (s'.1, (s'.2, e.log), e.result)) : e.Conforms := by
  obtain ⟨hcommands, hrecoveries⟩ := hstages.counts
  have hreturns : e.result = result := hends.returns
  cases recovers with
  | false =>
    have hlog : e.log = log := (hends.kept rfl).1
    have hnone : ¬ Faults e.transferLength log := by simp [hstages.faults_iff]
    constructor
    · rw [hlog, hcommands]
    · intro n hn
      rw [← hreturns, hn] at hstages
      obtain ⟨stage, csw, hshape, hlength, hgood, hstatus⟩ := hstages.of_ok
      refine ⟨tag, cbw, stage, csw, hcbw, ?_, hlength, ?_, hstatus⟩
      · rw [hlog, hshape, cbw.toBytes.2]
      · rwa [cbw.leWord_toBytes, (CommandBlockWrapper.of_new hcbw).1] at hgood
    · exact fun hfaults ↦ absurd (hlog ▸ hfaults) hnone
    · exact fun _ ↦ by rw [hlog, hrecoveries]
    · intro _ csw n hcsw hstatus
      rw [hreturns]
      exact hstages.of_failed (hlog ▸ hcsw) hstatus
  | true =>
    obtain ⟨answer, hlog, -⟩ := hends.recovered rfl
    have hlog : e.log = log ++ [.resetRecovery resetRecoveryPlan answer] := hlog
    have hfaults : Faults e.transferLength e.log := by
      rw [hlog, faults_recovery_iff hstages, hstages.faults_iff]
    constructor
    · rw [hlog, List.countP_append, hcommands]
      rfl
    · intro n hn
      rw [← hreturns, hn] at hstages
      cases hstages
    · exact fun _ ↦ by rw [hlog, List.countP_append, hrecoveries]; rfl
    · exact fun hnone ↦ absurd hfaults hnone
    · exact fun hnone ↦ absurd hfaults hnone

theorem Step.conforms (h : Step T s e s') : e.Conforms := by
  obtain ⟨-, -, hlog, hresult⟩ | ⟨-, -, hlog, hresult⟩ |
    ⟨-, cbw, log, recovers, result, hcbw, hstages, hends⟩ := h.cases
  · exact conforms_of_untouched hlog ⟨_, hresult⟩
  · exact conforms_of_untouched hlog hresult
  · exact conforms_of_sent hcbw hstages hends

theorem Step.unavailable_of_recoveryFailed (h : Step T s e s') (hfailed : e.RecoveryFailed) :
    s'.1.available = false := by
  obtain ⟨plan, error, hmem⟩ := hfailed
  obtain ⟨-, -, hlog, -⟩ | ⟨-, -, hlog, -⟩ |
    ⟨-, cbw, log, recovers, result, -, hstages, hends⟩ := h.cases
  · simp [hlog] at hmem
  · simp [hlog] at hmem
  · have hnone := List.countP_eq_zero.mp hstages.counts.2
    cases recovers with
    | false =>
      have hlog : e.log = log := (hends.kept rfl).1
      exact absurd rfl (hnone _ (hlog ▸ hmem))
    | true =>
      obtain ⟨answer, hlog, havailable⟩ := hends.recovered rfl
      have hlog : e.log = log ++ [.resetRecovery resetRecoveryPlan answer] := hlog
      rw [hlog, List.mem_append, List.mem_singleton] at hmem
      rcases hmem with hmem | hmem
      · exact absurd rfl (hnone _ hmem)
      · obtain ⟨-, rfl⟩ := Exchange.resetRecovery.inj hmem
        exact havailable

theorem Step.untouched_of_unavailable (h : Step T s e s') (hs : s.1.available = false) :
    e.Untouched ∧ s'.1.available = false := by
  obtain ⟨-, hs', huntouched⟩ | ⟨havailable, -⟩ | ⟨havailable, -⟩ := h.cases
  · exact ⟨huntouched, hs'⟩
  · simp [hs] at havailable
  · simp [hs] at havailable

theorem untouched_of_run (h : Trace.Run (Step T) s es s') {pre post : List Performed}
    (hes : es = pre ++ e :: post) (hfailed : e.RecoveryFailed) :
    s'.1.available = false ∧ ∀ later ∈ post, later.Untouched := by
  induction h generalizing post with
  | nil => simp at hes
  | snoc hrun hstep ih =>
    obtain ⟨-, rfl, rfl⟩ | ⟨rest, rfl, hsplit⟩ := Trace.snoc_split hes
    · exact ⟨hstep.unavailable_of_recoveryFailed hfailed, by simp⟩
    · obtain ⟨havailable, hrest⟩ := ih hsplit
      obtain ⟨huntouched, havailable'⟩ := hstep.untouched_of_unavailable havailable
      refine ⟨havailable', fun later hlater ↦ ?_⟩
      rw [List.mem_append, List.mem_singleton] at hlater
      rcases hlater with hlater | rfl
      · exact hrest later hlater
      · exact huntouched

end Performed

open Performed in
/-- Every call of a run keeps to the protocol, and none after a failed recovery uses the
transport. -/
theorem bulk_only_protocol {τ : Type} (T : BulkOnlyTransport τ) {s s' : UsbMassStorageState × τ}
    {es : List Performed} (h : Trace.Run (Step T) s es s') :
    (∀ e ∈ es, e.Conforms) ∧
      ∀ pre e post, es = pre ++ e :: post → e.RecoveryFailed →
        ∀ later ∈ post, later.Untouched := by
  constructor
  · refine h.history (I := fun es _ ↦ ∀ e ∈ es, e.Conforms) (by simp) ?_
    intro es t e u hes hstep e' he'
    rw [List.mem_append, List.mem_singleton] at he'
    rcases he' with he' | rfl
    · exact hes e' he'
    · exact hstep.conforms
  · exact fun pre e post hes hfailed ↦ (untouched_of_run h hes hfailed).2

def unplugged : BulkOnlyTransport Unit where
  bulkOut t _ := (t, .error .notFound)
  bulkIn t output := (t, output, .error .notFound)
  bulkInCsw t output := (t, output, .error .notFound)
  resetRecovery t _ := (t, .error .notFound)

theorem bulk_only_protocol_unplugged :
    ∃ e later s', Trace.Run (Performed.Step unplugged) (.new, ()) [e, later] s' ∧
      e.RecoveryFailed ∧ e.Conforms ∧ later.Untouched := by
  let e : Performed :=
    { command := .requestSense
      direction := .in
      transferLength := requestSenseBytes
      log := [.bulkOut (CommandBlockWrapper.toBytes ⟨1, 18, 0x80, 0, .requestSense⟩).1
        (.error .notFound), .resetRecovery resetRecoveryPlan (.error .notFound)]
      result := .error .notFound }
  let later : Performed := ⟨.requestSense, .in, requestSenseBytes, [], .error .unavailable⟩
  let s' : UsbMassStorageState := { UsbMassStorageState.new with nextTag := 2, available := false }
  have hfirst : Performed.Step unplugged (.new, ()) e (s', ()) := rfl
  have hsecond : Performed.Step unplugged (s', ()) later (s', ()) := rfl
  have hrun : Trace.Run (Performed.Step unplugged) (.new, ()) [e, later] (s', ()) :=
    .snoc (.snoc .nil hfirst) hsecond
  have hfailed : e.RecoveryFailed := ⟨_, _, List.mem_cons_of_mem _ List.mem_cons_self⟩
  have hprotocol := bulk_only_protocol unplugged hrun
  exact ⟨e, later, _, hrun, hfailed, hprotocol.1 e List.mem_cons_self,
    hprotocol.2 [] e [later] rfl hfailed later List.mem_cons_self⟩

end BraneKernel
