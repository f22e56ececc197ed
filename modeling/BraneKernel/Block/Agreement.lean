import BraneKernel.UsbStorage.Reads
import BraneKernel.Virtio.Queue

namespace BraneKernel

theorem Capacity.blockSize_eq {bytes : Bytes} {capacity : Capacity}
    (h : Capacity.parse bytes = .ok capacity) : capacity.blockSize = 512 := by
  simp only [Capacity.parse] at h
  split_ifs at h with hlength hgeometry
  cases h
  rw [not_or, not_not] at hgeometry
  rw [hgeometry.2]
  rfl

theorem VirtioBlockDevice.validateTransfer_eq (device : VirtioBlockDevice) (lba : U64)
    (bytes : ℕ) :
    device.validateTransfer lba bytes =
      BraneKernel.validateTransfer ⟨512, device.capacitySectors⟩ lba bytes := rfl

theorem UsbMassStorageDevice.validateRead_eq (device : UsbMassStorageDevice) (lba : U64)
    (bytes : ℕ) (h : device.blockCount.toNat ≤ 0xFFFFFFFF) :
    device.validateRead lba bytes = validateTransfer ⟨512, device.blockCount⟩ lba bytes := by
  have hsize : (512 : U32).toNat = logicalBlockSize := rfl
  simp only [validateRead, validateTransfer, hsize]
  split_ifs with hbytes hrange
  · rfl
  · rcases hrange with hstop | hfar
    · cases hadd : Checked.add lba (BitVec.ofNat 64 (bytes / logicalBlockSize)) with
      | none => rfl
      | some stop =>
        rw [hadd, Option.all_some, decide_eq_true_iff] at hstop
        exact (if_pos hstop).symm
    · cases hadd : Checked.add lba (BitVec.ofNat 64 (bytes / logicalBlockSize)) with
      | none => rfl
      | some stop =>
        have hvalue := Checked.add_eq_some_iff.mp hadd
        have hstop : stop > device.blockCount := by
          rw [gt_iff_lt, BitVec.lt_def] at *
          simp only [BitVec.ofNat_eq_ofNat, BitVec.toNat_ofNat] at hfar
          omega
        exact (if_pos hstop).symm
  · rw [not_or] at hrange
    cases hadd : Checked.add lba (BitVec.ofNat 64 (bytes / logicalBlockSize)) with
    | none => simp [hadd] at hrange
    | some stop =>
      rw [hadd, Option.all_some, decide_eq_true_iff] at hrange
      exact (if_neg hrange.1).symm

/-- The two drivers accept the transfers that the block layer accepts for their devices. -/
theorem validators_agree :
    (∀ (capacitySectors : U64) (readOnly supportsFlush : Bool) (lba : U64) (bytes : ℕ),
      validateTransfer ⟨512, capacitySectors⟩ lba bytes = .ok () ↔
        VirtioBlockDevice.validateTransfer ⟨capacitySectors, readOnly, supportsFlush⟩ lba bytes =
          .ok ()) ∧
    ∀ (response : Bytes) (capacity : Capacity), Capacity.parse response = .ok capacity →
      ∀ (state : UsbMassStorageState) (lba : U64) (bytes : ℕ),
        validateTransfer ⟨capacity.blockSize, capacity.blockCount⟩ lba bytes = .ok () ↔
          UsbMassStorageDevice.validateRead ⟨state, capacity.blockCount⟩ lba bytes = .ok () := by
  constructor
  · intro capacitySectors readOnly supportsFlush lba bytes
    rw [VirtioBlockDevice.validateTransfer_eq]
  · intro response capacity hparse state lba bytes
    rw [UsbMassStorageDevice.validateRead_eq _ lba bytes (Capacity.blockCount_le hparse),
      Capacity.blockSize_eq hparse]

theorem validators_agree_hundred :
    validateTransfer ⟨512, 100⟩ 90 5120 = .ok () ∧
      UsbMassStorageDevice.validateRead ⟨.new, 100⟩ 90 5120 = .ok () := by
  have hread := validators_agree.2 [0, 0, 0, 99, 0, 0, 2, 0] ⟨100, 512⟩ rfl .new 90 5120
  have haccepted : validateTransfer ⟨512, 100⟩ 90 5120 = .ok () := by decide
  exact ⟨haccepted, hread.mp haccepted⟩

end BraneKernel
