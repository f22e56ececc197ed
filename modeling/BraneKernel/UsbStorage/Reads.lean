import BraneKernel.UsbStorage.Blocks
import BraneKernel.UsbStorage.Protocol

namespace BraneKernel

def addressed (command : Bytes) : List ℕ :=
  if command.head? = some ScsiCommand.scsiRead10 then
    List.range' (Bytes.ofBe ((command.drop 2).take 4)) (Bytes.ofBe ((command.drop 7).take 2))
  else []

def Exchange.blocks : Exchange → List ℕ
  | .bulkOut cbw _ => addressed (cbw.drop 15)
  | _ => []

theorem CommandBlockWrapper.drop_toBytes (cbw : CommandBlockWrapper) :
    cbw.toBytes.1.drop 15 = cbw.command.bytes.1 :=
  List.drop_left' (by simp)

namespace ScsiCommand

theorem addressed_read10 {lba : U32} {blocks : U16} {command : ScsiCommand}
    (h : read10 lba blocks = .ok command) :
    addressed command.bytes.1 = List.range' lba.toNat blocks.toNat := by
  have hlba : lba.toNat % 256 ^ 4 = lba.toNat := Nat.mod_eq_of_lt lba.isLt
  have hblocks : blocks.toNat % 256 ^ 2 = blocks.toNat := Nat.mod_eq_of_lt blocks.isLt
  have hbytes : command.bytes.1 = [scsiRead10, 0] ++ Bytes.be 4 lba.toNat ++ [0] ++
      Bytes.be 2 blocks.toNat ++ List.replicate 7 0 := by
    unfold read10 at h
    split_ifs at h with hzero
    cases h
    rfl
  have hfirst : (command.bytes.1.drop 2).take 4 = Bytes.be 4 lba.toNat := by simp [hbytes]
  have hcount : (command.bytes.1.drop 7).take 2 = Bytes.be 2 blocks.toNat := by
    rw [hbytes, List.append_assoc, List.drop_left' (by simp), List.take_left' (by simp)]
  have hopcode : command.bytes.1.head? = some scsiRead10 := by rw [hbytes]; rfl
  rw [addressed, if_pos hopcode, hfirst, hcount, Bytes.ofBe_be, Bytes.ofBe_be, hlba, hblocks]

theorem of_read10 {lba : U32} {blocks : U16} {command : ScsiCommand}
    (h : read10 lba blocks = .ok command) : command.len = 10 ∧ blocks.toNat ≠ 0 := by
  unfold read10 at h
  split_ifs at h with hzero
  cases h
  exact ⟨rfl, fun h ↦ hzero (BitVec.eq_of_toNat_eq h)⟩

theorem addressed_requestSense : addressed requestSense.bytes.1 = [] := by decide

end ScsiCommand

theorem Stages.blocks {cbw : Bytes} {length : ℕ} {log : List Exchange} {recovers : Bool}
    {result : Except UsbStorageError ℕ} (h : Stages cbw length log recovers result) :
    log.flatMap Exchange.blocks = addressed (cbw.drop 15) := by
  have hstatus {stage : List Exchange} {n : ℕ} (hstage : DataStage stage n) (csw : Bytes)
      (r : Except UsbStorageError ℕ) :
      (Exchange.bulkOut cbw (.ok cbw.length) :: (stage ++ [.bulkInCsw csw r])).flatMap
        Exchange.blocks = addressed (cbw.drop 15) := by
    cases hstage <;> simp [Exchange.blocks]
  cases h with
  | commandError e => simp [Exchange.blocks]
  | commandShort hn => simp [Exchange.blocks]
  | dataError data e => simp [Exchange.blocks]
  | statusError hstage csw e => exact hstatus hstage _ _
  | statusBad hstage hbad e => exact hstatus hstage _ _
  | passed hstage hlength hgood hbyte => exact hstatus hstage _ _
  | failed hstage hgood hbyte => exact hstatus hstage _ _

namespace UsbMassStorageState

variable {τ : Type} {T : BulkOnlyTransport τ} {s : UsbMassStorageState} {t : τ}

variable (base : List Exchange)

theorem executeWith_blocks (s : UsbMassStorageState) (t : τ) (command : ScsiCommand)
    (direction : DataDirection) (length : ℕ) :
    ∃ s' t' log result, executeWith T.recorded s (t, base) command direction length =
        (s', (t', base ++ log), result) ∧
      (log.flatMap Exchange.blocks = addressed command.bytes.1 ∨
        log.flatMap Exchange.blocks = [] ∧ ∃ e, result = .error e) := by
  have h := executeWith_executes (T := T) base s t command direction length
  generalize executeWith T.recorded s (t, base) command direction length = o at h
  cases h with
  | unavailable hs =>
    exact ⟨s, t, [], .error .unavailable, by rw [List.append_nil], .inr ⟨rfl, _, rfl⟩⟩
  | refused hs hs' e => exact ⟨_, t, [], .error e, by rw [List.append_nil], .inr ⟨rfl, e, rfl⟩⟩
  | @sent cbw _ hs hcbw hconducts =>
    obtain ⟨log, recovers, result, hstages, hends⟩ := hconducts
    have hblocks : log.flatMap Exchange.blocks = addressed command.bytes.1 := by
      rw [hstages.blocks, cbw.drop_toBytes, (CommandBlockWrapper.of_new hcbw).2]
    obtain ⟨s', ⟨t', log'⟩, result'⟩ := o
    cases recovers with
    | false =>
      have hlog : log' = base ++ log := (hends.kept rfl).1
      exact ⟨s', t', log, result', by rw [hlog], .inl hblocks⟩
    | true =>
      obtain ⟨answer, hlog, -⟩ := hends.recovered rfl
      have hlog : log' = base ++ log ++ [.resetRecovery resetRecoveryPlan answer] := hlog
      refine ⟨s', t', log ++ [.resetRecovery resetRecoveryPlan answer], result', ?_, .inl ?_⟩
      · rw [hlog, List.append_assoc]
      · simp [hblocks, Exchange.blocks]

theorem requestSense_blocks (s : UsbMassStorageState) (t : τ) :
    ∃ s' t' log result, requestSense T.recorded s (t, base) = (s', (t', base ++ log), result) ∧
      log.flatMap Exchange.blocks = [] := by
  obtain ⟨s', t', log, result, hexec, hblocks⟩ :=
    executeWith_blocks (T := T) base s t .requestSense .in requestSenseBytes
  rw [ScsiCommand.addressed_requestSense] at hblocks
  have hnone : log.flatMap Exchange.blocks = [] := hblocks.elim id And.left
  rw [requestSense, hexec]
  cases result <;> exact ⟨s', t', log, _, rfl, hnone⟩

theorem read10_blocks (s : UsbMassStorageState) (t : τ) (lba : U32) (blocks : U16) :
    ∃ s' t' log result, read10 T.recorded s (t, base) lba blocks =
        (s', (t', base ++ log), result) ∧
      (log.flatMap Exchange.blocks = List.range' lba.toNat blocks.toNat ∨
        log.flatMap Exchange.blocks = [] ∧ ∃ e, result = .error e) := by
  unfold read10
  cases hcommand : ScsiCommand.read10 lba blocks with
  | error e => exact ⟨s, t, [], .error e, by rw [List.append_nil], .inr ⟨rfl, e, rfl⟩⟩
  | ok command =>
    obtain ⟨s', t', log, result, hexec, hblocks⟩ :=
      executeWith_blocks (T := T) base s t command .in (blocks.toNat * logicalBlockSize)
    rw [ScsiCommand.addressed_read10 hcommand] at hblocks
    simp only [hexec]
    cases result with
    | ok actual =>
      dsimp only
      split_ifs with hactual
      · exact ⟨s', t', log, _, rfl, hblocks⟩
      · exact ⟨s', t', log, _, rfl, hblocks.imp id fun h ↦ ⟨h.1, _, rfl⟩⟩
    | error e =>
      dsimp only
      split_ifs with he
      · obtain ⟨s'', t'', more, sense, hsense, hmore⟩ :=
          requestSense_blocks (T := T) (base ++ log) s' t'
        refine ⟨s'', t'', log ++ more, .error .commandFailed, ?_, ?_⟩
        · rw [hsense, List.append_assoc]
        · rw [List.flatMap_append, hmore, List.append_nil]
          exact hblocks.imp id fun h ↦ ⟨h.1, _, rfl⟩
      · exact ⟨s', t', log, _, rfl, hblocks⟩

theorem read10_eq_ok {s' : UsbMassStorageState} {t' : τ} {lba : U32} {blocks : U16} {actual : ℕ}
    (h : read10 T s t lba blocks = (s', t', .ok actual)) :
    actual = blocks.toNat * logicalBlockSize := by
  unfold read10 at h
  cases hcommand : ScsiCommand.read10 lba blocks with
  | error e => simp [hcommand] at h
  | ok command =>
    rcases hexec : executeWith T s t command .in (blocks.toNat * logicalBlockSize) with
      ⟨s', t', result⟩
    simp only [hcommand, hexec] at h
    cases result with
    | ok n =>
      dsimp only at h
      split_ifs at h with hn
      · cases h
        exact hn
      · cases h
    | error e =>
      dsimp only at h
      split_ifs at h <;> cases h

end UsbMassStorageState

namespace UsbMassStorageDevice

variable {τ : Type} {T : BulkOnlyTransport τ} {lba : U64} {completed : ℕ} {chunk : Bytes}
  {chunks : List Bytes}

def blocksOf (chunks : List Bytes) : ℕ := chunks.flatten.length / logicalBlockSize

/-- What the loop has before it: whole blocks, all of them inside the capacity. -/
structure Ahead (lba : U64) (completed : ℕ) (chunks : List Bytes) : Prop where
  whole : ∀ chunk ∈ chunks, logicalBlockSize ∣ chunk.length ∧ 0 < chunk.length ∧
    chunk.length ≤ bounceBufferBytes
  inside : lba.toNat + completed + blocksOf chunks ≤ 0xFFFFFFFF

namespace Ahead

section

variable (h : Ahead lba completed (chunk :: chunks))
include h

theorem blocks_cons :
    blocksOf (chunk :: chunks) = chunk.length / logicalBlockSize + blocksOf chunks := by
  rw [blocksOf, blocksOf, List.flatten_cons, List.length_append,
    Nat.add_div_of_dvd_right (h.whole chunk List.mem_cons_self).1]

theorem tail :
    Ahead lba (completed + chunk.length / logicalBlockSize) chunks where
  whole c hc := h.whole c (List.mem_cons_of_mem chunk hc)
  inside := by
    have hinside := h.inside
    rw [h.blocks_cons] at hinside
    omega

theorem blocks :
    0 < chunk.length / logicalBlockSize ∧
      (BitVec.ofNat 16 (chunk.length / logicalBlockSize)).toNat =
        chunk.length / logicalBlockSize ∧
      chunk.length / logicalBlockSize * logicalBlockSize = chunk.length := by
  obtain ⟨hdvd, hpos, hle⟩ := h.whole chunk List.mem_cons_self
  have hmul := Nat.div_mul_cancel hdvd
  rw [BitVec.toNat_ofNat]
  simp only [logicalBlockSize, bounceBufferBytes] at *
  omega

theorem length_take {actual : ℕ}
    (hactual : actual =
      (BitVec.ofNat 16 (chunk.length / logicalBlockSize)).toNat * logicalBlockSize)
    (s : UsbMassStorageState) : (s.bounce.1.take actual).length = chunk.length := by
  obtain ⟨-, hblocks, hlength⟩ := h.blocks
  have hle := (h.whole chunk List.mem_cons_self).2.2
  rw [hactual, hblocks, hlength, List.length_take, s.bounce.2, Nat.min_eq_left hle]

theorem narrow :
    ∃ chunkLba, (Checked.add lba (BitVec.ofNat 64 completed)).bind UsbMassStorageDevice.narrow =
        some chunkLba ∧ chunkLba.toNat = lba.toNat + completed := by
  have hinside := h.inside
  have hcompleted : (BitVec.ofNat 64 completed).toNat = completed := by
    rw [BitVec.toNat_ofNat]
    omega
  obtain ⟨sum, hsum, hvalue⟩ := Checked.add_of_lt
    (show lba.toNat + (BitVec.ofNat 64 completed).toNat < 2 ^ 64 by omega)
  rw [hcompleted] at hvalue
  refine ⟨sum.setWidth 32, ?_, ?_⟩
  · have hle : sum ≤ 0xFFFFFFFF := by
      rw [BitVec.le_def]
      simp only [BitVec.ofNat_eq_ofNat, BitVec.toNat_ofNat]
      omega
    rw [hsum, Option.bind_some, UsbMassStorageDevice.narrow, if_pos hle]
  · rw [BitVec.toNat_setWidth]
    omega

end

end Ahead

open UsbMassStorageState (read10_blocks read10_eq_ok)

theorem mapBlockError_ne (e : UsbStorageError) : mapBlockError e ≠ .outOfRange := by
  unfold mapBlockError
  split <;> decide

theorem readChunks_covers (h : Ahead lba completed chunks) (s : UsbMassStorageState) (t : τ)
    (base : List Exchange) :
    ∃ s' t' log output result,
      readChunks T.recorded lba s (t, base) completed chunks =
        some (s', (t', base ++ log), output, result) ∧
      log.flatMap Exchange.blocks <+: List.range' (lba.toNat + completed) (blocksOf chunks) ∧
      (result = .ok () → log.flatMap Exchange.blocks =
        List.range' (lba.toNat + completed) (blocksOf chunks)) ∧
      result ≠ .error .outOfRange := by
  induction chunks generalizing completed s t base with
  | nil =>
    refine ⟨s, t, [], [], .ok (), ?_, ?_, ?_, ?_⟩
    · rw [List.append_nil, readChunks]
    · exact List.nil_prefix
    · simp [blocksOf]
    · simp
  | cons chunk rest ih =>
    obtain ⟨chunkLba, hnarrow, hlba⟩ := h.narrow
    obtain ⟨-, hblocks, hlength⟩ := h.blocks
    have hsplit : List.range' (lba.toNat + completed) (blocksOf (chunk :: rest)) =
        List.range' (lba.toNat + completed) (chunk.length / logicalBlockSize) ++
          List.range' (lba.toNat + (completed + chunk.length / logicalBlockSize))
            (blocksOf rest) := by
      rw [h.blocks_cons, ← Nat.add_assoc, List.range'_append_1]
    obtain ⟨s', t', log, result, hread, hasked⟩ := read10_blocks (T := T) base s t
      chunkLba (BitVec.ofNat 16 (chunk.length / logicalBlockSize))
    rw [hlba, hblocks] at hasked
    have hpart : log.flatMap Exchange.blocks <+:
        List.range' (lba.toNat + completed) (blocksOf (chunk :: rest)) := by
      rw [hsplit]
      rcases hasked with hasked | ⟨hasked, -⟩
      · exact ⟨_, by rw [hasked]⟩
      · simp [hasked]
    simp only [readChunks, hnarrow, hread]
    cases result with
    | error e =>
      exact ⟨s', t', log, _, _, rfl, hpart, by simp, by simpa using mapBlockError_ne e⟩
    | ok actual =>
      have htaken := h.length_take (read10_eq_ok hread) s'
      have hfull : log.flatMap Exchange.blocks =
          List.range' (lba.toNat + completed) (chunk.length / logicalBlockSize) :=
        hasked.resolve_right (by simp)
      obtain ⟨s'', t'', more, output, result, hrest, hmore, hall, hne⟩ := ih h.tail s' t' (base ++ log)
      refine ⟨s'', t'', log ++ more, s'.bounce.1.take actual ++ output, result, ?_, ?_, ?_, hne⟩
      · simp only [htaken, hrest, ne_eq, not_true_eq_false, if_false, List.append_assoc]
      · rw [hsplit, List.flatMap_append, hfull]
        exact (List.prefix_append_right_inj _).mpr hmore
      · intro hok
        rw [hsplit, List.flatMap_append, hfull, hall hok]

/-- Every READ(10) command for blocks between `lo` and `hi` that is executed in a `ready` state
succeeds in full. -/
structure Serves (T : BulkOnlyTransport τ) (medium : ℕ → Bytes) (lo hi : ℕ)
    (ready : UsbMassStorageState → τ → Prop) : Prop where
  size (b : ℕ) : (medium b).length = logicalBlockSize
  read (s : UsbMassStorageState) (t : τ) (lba : U32) (blocks : U16) (command : ScsiCommand)
    (hready : ready s t) (hcommand : ScsiCommand.read10 lba blocks = .ok command)
    (hlo : lo ≤ lba.toNat) (hhi : lba.toNat + blocks.toNat ≤ hi)
    (hbytes : blocks.toNat * logicalBlockSize ≤ bounceBufferBytes) :
    ∃ s' t', s.executeWith T t command .in (blocks.toNat * logicalBlockSize) =
        (s', t', .ok (blocks.toNat * logicalBlockSize)) ∧
      s'.bounce.1.take (blocks.toNat * logicalBlockSize) =
        (List.range' lba.toNat blocks.toNat).flatMap medium ∧ ready s' t'

theorem readChunks_ok {medium : ℕ → Bytes} {lo hi : ℕ} {ready : UsbMassStorageState → τ → Prop}
    (hserves : Serves T medium lo hi ready) (h : Ahead lba completed chunks)
    (hlo : lo ≤ lba.toNat + completed) (hhi : lba.toNat + completed + blocksOf chunks ≤ hi)
    {s : UsbMassStorageState} {t : τ} (hready : ready s t) :
    ∃ s' t', readChunks T lba s t completed chunks =
      some (s', t', (List.range' (lba.toNat + completed) (blocksOf chunks)).flatMap medium,
        .ok ()) := by
  induction chunks generalizing completed s t with
  | nil => exact ⟨s, t, by simp [readChunks, blocksOf]⟩
  | cons chunk rest ih =>
    obtain ⟨chunkLba, hnarrow, hlba⟩ := h.narrow
    obtain ⟨hpos, hblocks, hlength⟩ := h.blocks
    have hsum := h.blocks_cons
    obtain ⟨s', t', hread, hbounce, hready'⟩ : ∃ s' t',
        s.read10 T t chunkLba (BitVec.ofNat 16 (chunk.length / logicalBlockSize)) =
          (s', t', .ok chunk.length) ∧
        s'.bounce.1.take chunk.length = (List.range' (lba.toNat + completed)
          (chunk.length / logicalBlockSize)).flatMap medium ∧ ready s' t' := by
      have hfits := (h.whole chunk List.mem_cons_self).2.2
      generalize BitVec.ofNat 16 (chunk.length / logicalBlockSize) = blocks at hblocks ⊢
      have hne : blocks ≠ 0 := by
        rintro rfl
        exact hpos.ne hblocks
      obtain ⟨command, hcommand⟩ : ∃ command, ScsiCommand.read10 chunkLba blocks = .ok command :=
        ⟨_, if_neg hne⟩
      have hserved := hserves.read s t chunkLba blocks command hready hcommand
      rw [hlba, hblocks, hlength] at hserved
      obtain ⟨s', t', hexec, hserved⟩ := hserved hlo (by omega) hfits
      refine ⟨s', t', ?_, hserved⟩
      simp [UsbMassStorageState.read10, hcommand, hblocks, hlength, hexec]
    have htaken := h.length_take (read10_eq_ok hread) s'
    obtain ⟨s'', t'', hrest⟩ := ih h.tail (by omega) (by omega) hready'
    refine ⟨s'', t'', ?_⟩
    simp only [readChunks, hnarrow, hread, htaken, hrest, ne_eq, not_true_eq_false, if_false]
    rw [hsum, ← List.range'_append_1, List.flatMap_append, hbounce, Nat.add_assoc]

theorem validateRead_eq_ok_iff {device : UsbMassStorageDevice} {bytes : ℕ} :
    device.validateRead lba bytes = .ok () ↔
      (bytes ≠ 0 ∧ logicalBlockSize ∣ bytes) ∧
        lba.toNat + (BitVec.ofNat 64 (bytes / logicalBlockSize)).toNat ≤
          device.blockCount.toNat ∧ lba.toNat ≤ 0xFFFFFFFF := by
  have hcount := device.blockCount.isLt
  have hmax : (0xFFFFFFFF : U64).toNat = 0xFFFFFFFF := by decide
  have hstop : (Checked.add lba (BitVec.ofNat 64 (bytes / logicalBlockSize))).all
      (fun stop ↦ stop > device.blockCount) = true ↔
      device.blockCount.toNat < lba.toNat + (BitVec.ofNat 64 (bytes / logicalBlockSize)).toNat := by
    generalize BitVec.ofNat 64 (bytes / logicalBlockSize) = blocks
    cases hadd : Checked.add lba blocks with
    | none =>
      have hnot := mt (fun h ↦ Checked.add_of_lt (a := lba) (b := blocks) h) (by simp [hadd])
      simp only [Option.all_none, true_iff]
      omega
    | some stop =>
      rw [Option.all_some, decide_eq_true_iff, gt_iff_lt, BitVec.lt_def,
        Checked.add_eq_some_iff.mp hadd]
  have hfar : lba > 0xFFFFFFFF ↔ 0xFFFFFFFF < lba.toNat := by rw [gt_iff_lt, BitVec.lt_def, hmax]
  simp only [validateRead, hstop, hfar, ne_eq, ← Nat.dvd_iff_mod_eq_zero]
  split_ifs with hbytes hrange
  · simp only [false_iff]
    tauto
  · simp only [false_iff]
    omega
  · simp only [true_iff]
    rw [not_or, not_not] at hbytes
    exact ⟨hbytes, by omega⟩

end UsbMassStorageDevice

theorem Capacity.blockCount_le {bytes : Bytes} {capacity : Capacity}
    (h : Capacity.parse bytes = .ok capacity) : capacity.blockCount.toNat ≤ 0xFFFFFFFF := by
  have hlt := Bytes.ofBe_lt (bytes.take 4)
  have hword : 256 ^ (bytes.take 4).length ≤ 256 ^ 4 :=
    Nat.pow_le_pow_right (by decide) (List.length_take_le ..)
  simp only [Capacity.parse] at h
  split_ifs at h with hlength hgeometry
  cases h
  rw [BitVec.toNat_ofNat]
  omega

/-- A read that the device validates asks for its blocks in order, each once: for a prefix
of them at most, for all of them when it succeeds. A disk that serves them fills the buffer. -/
theorem usb_reads_cover {τ : Type} (T : BulkOnlyTransport τ) {bytes : Bytes} {capacity : Capacity}
    (hcapacity : Capacity.parse bytes = .ok capacity) (s : UsbMassStorageState) (t : τ) (lba : U64)
    (output : Bytes) (hsize : output.length < 2 ^ 64)
    (h : UsbMassStorageDevice.validateRead ⟨s, capacity.blockCount⟩ lba output.length = .ok ()) :
    (∃ device t' log output' result,
      UsbMassStorageDevice.readBlocks T.recorded ⟨s, capacity.blockCount⟩ (t, []) lba output =
        some (device, (t', log), output', result) ∧
      log.flatMap Exchange.blocks <+:
        List.range' lba.toNat (output.length / logicalBlockSize) ∧
      (result = .ok () → log.flatMap Exchange.blocks =
        List.range' lba.toNat (output.length / logicalBlockSize)) ∧
      result ≠ .error .outOfRange) ∧
    ∀ (medium : ℕ → Bytes) (ready : UsbMassStorageState → τ → Prop),
      UsbMassStorageDevice.Serves T medium lba.toNat
        (lba.toNat + output.length / logicalBlockSize) ready → ready s t →
      ∃ device t', UsbMassStorageDevice.readBlocks T ⟨s, capacity.blockCount⟩ t lba output =
        some (device, t',
          (List.range' lba.toNat (output.length / logicalBlockSize)).flatMap medium, .ok ()) := by
  obtain ⟨⟨-, hdvd⟩, hrange, -⟩ := UsbMassStorageDevice.validateRead_eq_ok_iff.mp h
  have hpos : 0 < bounceBufferBytes := by decide
  have hblocks : UsbMassStorageDevice.blocksOf (Chunks.chunks bounceBufferBytes output) =
      output.length / logicalBlockSize := by
    rw [UsbMassStorageDevice.blocksOf, Chunks.flatten_chunks hpos]
  have hahead : UsbMassStorageDevice.Ahead lba 0 (Chunks.chunks bounceBufferBytes output) := by
    refine ⟨fun chunk hchunk ↦ ?_, ?_⟩
    · exact ⟨Chunks.dvd_length_of_mem_chunks hpos (by decide) hdvd hchunk,
        Chunks.length_of_mem_chunks hpos hchunk⟩
    · have hcount := Capacity.blockCount_le hcapacity
      dsimp only at hrange
      have hfits : output.length / logicalBlockSize < 2 ^ 64 := (Nat.div_le_self _ _).trans_lt hsize
      rw [BitVec.toNat_ofNat, Nat.mod_eq_of_lt hfits] at hrange
      rw [hblocks]
      omega
  constructor
  · obtain ⟨s', t', log, output', result, hread, hasked⟩ :=
      UsbMassStorageDevice.readChunks_covers (T := T) hahead s t []
    rw [hblocks, Nat.add_zero] at hasked
    refine ⟨⟨s', capacity.blockCount⟩, t', log, output', result, ?_, hasked⟩
    simp only [UsbMassStorageDevice.readBlocks, h, hread, List.nil_append]
  · intro medium ready hserves hready
    obtain ⟨s', t', hread⟩ := UsbMassStorageDevice.readChunks_ok hserves hahead le_rfl
      (by rw [hblocks, Nat.add_zero]) hready
    rw [hblocks, Nat.add_zero] at hread
    refine ⟨⟨s', capacity.blockCount⟩, t', ?_⟩
    simp only [UsbMassStorageDevice.readBlocks, h, hread]

def passedStatus (tag : U32) : Bytes.Sized cswBytes :=
  ⟨Bytes.le 4 cswSignature.toNat ++ Bytes.le 4 tag.toNat ++ [0, 0, 0, 0, 0], by simp [cswBytes]⟩

theorem passedStatus_accounts (tag : U32) (length : ℕ) :
    Accounts tag length length (passedStatus tag).1 where
  signature := leWord_of_take (by simp [passedStatus])
  tag := leWord_of_take (by simp [passedStatus])
  length := by
    have hresidue : leWord (passedStatus tag).1 8 = 0 :=
      leWord_of_take (by simp [passedStatus, Bytes.le])
    simp [hresidue]

theorem CommandBlockWrapper.exists_new (tag : U32) {length : ℕ} (direction : DataDirection)
    {command : ScsiCommand} (hlen : command.len = 10) (hlength : length ≤ bounceBufferBytes) :
    ∃ cbw, new tag length direction command = .ok cbw := by
  have hfits : ¬ (¬ (1 ≤ command.len.toNat ∧ command.len.toNat ≤ 16) ∨
      command.len.toNat > command.bytes.1.length) := by
    rw [command.bytes.2, hlen]
    decide
  have hword : ¬ length > 0xFFFFFFFF := by
    simp only [bounceBufferBytes] at hlength
    omega
  exact ⟨_, by rw [new, if_neg hfits, if_neg hword]⟩

def disk (medium : ℕ → Bytes) : BulkOnlyTransport Bytes where
  bulkOut _ cbw := (cbw, .ok cbw.length)
  bulkIn cbw output :=
    (cbw, ⟨((addressed (cbw.drop 15)).flatMap medium ++ output.1).take output.1.length,
      by simp [output.2]⟩, .ok output.1.length)
  bulkInCsw cbw output :=
    (cbw, ⟨((passedStatus (leWord cbw 4)).1 ++ output.1).take output.1.length,
      by simp [output.2]⟩, .ok output.1.length)
  resetRecovery cbw _ := (cbw, .ok ())

theorem disk_serves (medium : ℕ → Bytes) (hsize : ∀ b, (medium b).length = logicalBlockSize)
    (lo hi : ℕ) :
    UsbMassStorageDevice.Serves (disk medium) medium lo hi fun s _ ↦ s.available = true where
  size := hsize
  read s t lba blocks command hready hcommand hlo hhi hbytes := by
    have hblocks := ScsiCommand.addressed_read10 hcommand
    have hlength : ((addressed command.bytes.1).flatMap medium).length =
        blocks.toNat * logicalBlockSize := by
      rw [Chunks.length_flatMap fun b _ ↦ hsize b, hblocks, List.length_range']
    obtain ⟨hlen, hpos⟩ := ScsiCommand.of_read10 hcommand
    have hwhole : blocks.toNat * logicalBlockSize ≠ 0 :=
      Nat.mul_ne_zero hpos (by decide)
    obtain ⟨cbw, hcbw⟩ := CommandBlockWrapper.exists_new s.nextTag .in hlen hbytes
    let data : Bytes.Sized (blocks.toNat * logicalBlockSize) :=
      ⟨(addressed command.bytes.1).flatMap medium, hlength⟩
    have hout : (disk medium).bulkOut t cbw.toBytes.1 = (cbw.toBytes.1, .ok cbwBytes) := by
      simp only [disk, cbw.toBytes.2]
    have hin (output : Bytes.Sized (blocks.toNat * logicalBlockSize)) :
        (disk medium).bulkIn cbw.toBytes.1 output =
          (cbw.toBytes.1, data, .ok (blocks.toNat * logicalBlockSize)) := by
      have hread : (data.1 ++ output.1).take (blocks.toNat * logicalBlockSize) = data.1 :=
        List.take_left' hlength
      simp only [disk, cbw.drop_toBytes, (CommandBlockWrapper.of_new hcbw).2, output.2, hread, data]
    have hcsw (output : Bytes.Sized cswBytes) : (disk medium).bulkInCsw cbw.toBytes.1 output =
        (cbw.toBytes.1, passedStatus s.nextTag, .ok cswBytes) := by
      have hread : ((passedStatus s.nextTag).1 ++ output.1).take cswBytes =
          (passedStatus s.nextTag).1 := List.take_left' (passedStatus s.nextTag).2
      simp only [disk, cbw.leWord_toBytes, (CommandBlockWrapper.of_new hcbw).1, output.2, hread]
    have hgood := passedStatus_accounts s.nextTag (blocks.toNat * logicalBlockSize)
    have hparse : CommandStatusWrapper.parse (passedStatus s.nextTag).1 s.nextTag
        (blocks.toNat * logicalBlockSize) = .ok ⟨leWord (passedStatus s.nextTag).1 8, .passed⟩ := by
      refine CommandStatusWrapper.parse_eq_ok_iff.mpr ⟨(passedStatus s.nextTag).2, hgood.signature,
        hgood.tag, Nat.le_of_add_left_le hgood.length.le, rfl, ?_⟩
      exact CommandStatus.bind_ofByte_eq_some_iff.mpr (.inl ⟨rfl, rfl⟩)
    have hpassed (s' : UsbMassStorageState) : s'.statusStage (disk medium) cbw.toBytes.1 s.nextTag
        (blocks.toNat * logicalBlockSize) (blocks.toNat * logicalBlockSize) =
          (s', cbw.toBytes.1, .ok (blocks.toNat * logicalBlockSize)) := by
      simp only [UsbMassStorageState.statusStage, hcsw, UsbMassStorageState.checkStatus, hparse,
        hgood.length, ne_eq, not_true_eq_false, if_false]
    refine ⟨{ s with nextTag := s.nextTag + 1, bounce := s.bounce.overwrite hbytes data },
      cbw.toBytes.1, ?_, ?_, hready⟩
    · simp [UsbMassStorageState.executeWith, hready, Nat.not_lt.mpr hbytes, hcbw,
        UsbMassStorageState.commandStage, hout, UsbMassStorageState.dataStage, hwhole, hin,
        (CommandBlockWrapper.of_new hcbw).1, hpassed]
    rw [← hblocks]
    exact List.take_left' hlength

def numberedBlock (b : ℕ) : Bytes := List.replicate logicalBlockSize (BitVec.ofNat 8 b)

theorem usb_reads_cover_disk :
    ∃ output : Bytes, output.length = 5120 ∧ ∃ device cbw,
      UsbMassStorageDevice.readBlocks (disk numberedBlock) ⟨.new, 100⟩ [] 90 output =
        some (device, cbw, (List.range' 90 10).flatMap numberedBlock, .ok ()) := by
  obtain ⟨output, houtput⟩ : ∃ output : Bytes, output.length = 5120 :=
    ⟨List.replicate 5120 0, List.length_replicate⟩
  have hcapacity : Capacity.parse [0, 0, 0, 99, 0, 0, 2, 0] = .ok ⟨100, 512⟩ := rfl
  have hvalid : UsbMassStorageDevice.validateRead ⟨.new, 100⟩ 90 output.length = .ok () := by
    rw [houtput]
    decide
  have hserves := disk_serves numberedBlock (fun _ ↦ List.length_replicate) 90 100
  have hcover := usb_reads_cover (disk numberedBlock) hcapacity .new [] 90 output
    (by rw [houtput]; decide) hvalid
  have hblocks : output.length / logicalBlockSize = 10 := by rw [houtput]; decide
  rw [hblocks] at hcover
  exact ⟨output, houtput, hcover.2 numberedBlock _ hserves rfl⟩

end BraneKernel
