import BraneKernel.Fat32.Scan

namespace BraneKernel.Fat32Fs

variable {fs : Fat32Fs} {cluster : U32} {firstLba : U64}

theorem nextCluster_isSome (fs : Fat32Fs) (cluster : U32) : (fs.nextCluster cluster).isSome :=
  fs.laid.nextCluster_isSome fs.readSector cluster

theorem clusterLba_cases (fs : Fat32Fs) (cluster : U32) :
    (∃ e, fs.geometry.clusterLba cluster = some (.error e)) ∨
      ¬ fs.geometry.BadCluster cluster ∧ ∃ firstLba,
        fs.geometry.clusterLba cluster = some (.ok firstLba) ∧
          firstLba.toNat = fs.sectorLba cluster 0 := by
  by_cases hbad : fs.geometry.BadCluster cluster
  · exact .inl ⟨_, if_pos hbad⟩
  · exact .inr ⟨hbad, fs.laid.clusterLba_spec hbad⟩

section Scan

variable {σ : Type} {visitor : σ → DirectoryRecord → σ × Bool} {s t : σ}

/-- Some slot of the cluster, in a sector that can be read, marks the end of the directory. -/
def EndMark (fs : Fat32Fs) (cluster : U32) : Prop :=
  ∃ i < fs.geometry.sectorsPerCluster.toNat,
    ∃ raw ∈ Chunks.chunksExact 32 (fs.sectorBytes (fs.sectorLba cluster i)), raw.head? = some 0x00

instance (fs : Fat32Fs) (cluster : U32) : Decidable (fs.EndMark cluster) :=
  inferInstanceAs (Decidable (∃ i < fs.geometry.sectorsPerCluster.toNat, _))

def Declines (visitor : σ → DirectoryRecord → σ × Bool) (t : σ) : Prop :=
  ∃ u record, visitor u record = (t, false)

theorem stop_cases {raw : Bytes} (h : visitSlot visitor s raw = (t, false)) :
    raw.head? = some 0x00 ∨ Declines visitor t := by
  by_cases hend : raw.head? = some 0x00
  · exact .inl hend
  · rw [visitSlot, if_neg hend] at h
    split at h
    · next record _ => exact .inr ⟨s, record, h⟩
    · simp at h

theorem scanSectors_cases (visitor : σ → DirectoryRecord → σ × Bool)
    (h : ¬ fs.geometry.BadCluster cluster) (hfirst : firstLba.toNat = fs.sectorLba cluster 0)
    (n i : ℕ) (s : σ)
    (hin : i + n ≤ fs.geometry.sectorsPerCluster.toNat) :
    ∃ t step, fs.scanSectors visitor firstLba n i s = some (t, step) ∧
      (step = .finished (.ok ()) → fs.EndMark cluster ∨ Declines visitor t) := by
  induction n generalizing i s with
  | zero => exact ⟨s, .more, rfl, by simp⟩
  | succ n ih =>
    have hi : i < fs.geometry.sectorsPerCluster.toNat := by omega
    obtain ⟨lba, hadd, hread⟩ := fs.readSector_at h hfirst hi
    rw [scanSectors, hadd, Option.bind_eq_bind, Option.bind_some, readSector, hread]
    cases hsector : fs.device.readBlocks (BitVec.ofNat 64 (fs.sectorLba cluster i)) sectorSize with
    | error e => exact ⟨s, .finished (.error .io), rfl, by simp⟩
    | ok sector =>
      dsimp only
      rcases hv : Visit.run (visitSlot visitor) (Chunks.chunksExact 32 sector.1) s with ⟨t, go⟩
      cases go with
      | false =>
        refine ⟨t, .finished (.ok ()), rfl, fun _ ↦ ?_⟩
        obtain ⟨raw, hraw, u, hstop⟩ := Visit.exists_stop hv
        apply (stop_cases hstop).imp_left
        intro hend
        exact ⟨i, hi, raw, by rwa [sectorBytes_eq hsector], hend⟩
      | true => exact ih (i + 1) t (by omega)

theorem scan_turn (fs : Fat32Fs) (visitor : σ → DirectoryRecord → σ × Bool) (cluster : U32)
    (s : σ) :
    (∃ t result, (result = .ok () → fs.EndMark cluster ∨ Declines visitor t) ∧
      ∀ fuel traversed, fs.scanClusters visitor (fuel + 1) cluster traversed s =
        some (t, result)) ∨
    ∃ t link, fs.nextCluster cluster = some link ∧
      ∀ fuel traversed, fs.scanClusters visitor (fuel + 1) cluster traversed s =
        if traversed + 1 > fs.geometry.clusterCount.toNat then some (t, .error .corruptFilesystem)
        else match link with
          | .error e => some (t, .error e)
          | .ok none => some (t, .ok ())
          | .ok (some next) => fs.scanClusters visitor fuel next (traversed + 1) t := by
  simp only [scanClusters]
  rcases fs.clusterLba_cases cluster with ⟨e, hlba⟩ | ⟨hgood, firstLba, hlba, hfirst⟩
  · simp only [hlba, Option.bind_eq_bind, Option.bind_some]
    exact .inl ⟨s, .error e, by simp, fun _ _ ↦ rfl⟩
  · obtain ⟨t, step, hstep, hok⟩ :=
      scanSectors_cases visitor hgood hfirst _ 0 s (Nat.zero_add _).le
    simp only [hlba, Option.bind_eq_bind, Option.bind_some, hstep]
    cases step with
    | finished result =>
      exact .inl ⟨t, result, fun hresult ↦ hok (by rw [hresult]), fun _ _ ↦ rfl⟩
    | more =>
      obtain ⟨link, hlink⟩ := Option.isSome_iff_exists.mp (fs.nextCluster_isSome cluster)
      simp only [hlink, Option.bind_some]
      exact .inr ⟨t, link, rfl, fun _ _ ↦ rfl⟩

section Noted

variable {τ : Type} {f : τ → σ} {noted : τ → DirectoryRecord → τ × Bool}
  (h : ∀ s record, visitor (f s) record = (noted s record).map f id)
include h

theorem visitSlot_map (s : τ) (raw : Bytes) :
    visitSlot visitor (f s) raw = (visitSlot noted s raw).map f id := by
  rw [visitSlot, visitSlot]
  split_ifs
  · rfl
  · cases DirectoryRecord.parse raw with
    | none => rfl
    | some record => exact h s record

theorem scanSectors_map (n i : ℕ) (s : τ) : fs.scanSectors visitor firstLba n i (f s) =
    (fs.scanSectors noted firstLba n i s).map (Prod.map f id) := by
  induction n generalizing i s with
  | zero => rfl
  | succ n ih =>
    rw [scanSectors, scanSectors]
    cases Checked.add firstLba (BitVec.ofNat 64 i) with
    | none => rfl
    | some lba =>
      dsimp only [Option.bind_eq_bind, Option.bind_some]
      cases fs.readSector lba with
      | error e => rfl
      | ok sector =>
        dsimp only
        rw [Visit.run_map (visitSlot_map h)]
        rcases Visit.run (visitSlot noted) (Chunks.chunksExact 32 sector.1) s with ⟨t, _ | _⟩
        · rfl
        · exact ih (i + 1) t

theorem scanClusters_map (fuel : ℕ) (cluster : U32) (traversed : ℕ) (s : τ) :
    fs.scanClusters visitor fuel cluster traversed (f s) =
      (fs.scanClusters noted fuel cluster traversed s).map (Prod.map f id) := by
  induction fuel generalizing cluster traversed s with
  | zero => rfl
  | succ fuel ih =>
    rw [scanClusters, scanClusters]
    rcases fs.geometry.clusterLba cluster with _ | e | firstLba
    · rfl
    · rfl
    · dsimp only [Option.bind_eq_bind, Option.bind_some]
      rw [scanSectors_map h]
      rcases fs.scanSectors noted firstLba _ 0 s with _ | ⟨t, result | _⟩
      · rfl
      · rfl
      · dsimp only [Option.map_some, Prod.map, id, Option.bind_eq_bind, Option.bind_some]
        split_ifs
        · rfl
        · rcases fs.nextCluster cluster with _ | e | (_ | next)
          · rfl
          · rfl
          · rfl
          · exact ih next (traversed + 1) t

end Noted

theorem scanClusters_total (fuel traversed : ℕ) (s : σ)
    (htraversed : traversed ≤ fs.geometry.clusterCount.toNat)
    (hfuel : fs.geometry.clusterCount.toNat < traversed + fuel) :
    ∃ result, ∀ extra,
      fs.scanClusters visitor (fuel + extra) cluster traversed s = some result := by
  induction fuel generalizing cluster traversed s with
  | zero => omega
  | succ fuel ih =>
    rcases fs.scan_turn visitor cluster s with ⟨t, result, -, hturn⟩ | ⟨t, link, -, hturn⟩
    · exact ⟨(t, result), fun extra ↦ by rw [Nat.add_right_comm, hturn]⟩
    · simp only [Nat.add_right_comm fuel 1, hturn]
      by_cases hlast : traversed + 1 > fs.geometry.clusterCount.toNat
      · exact ⟨(t, .error .corruptFilesystem), fun _ ↦ if_pos hlast⟩
      · simp only [if_neg hlast]
        rcases link with e | (_ | next)
        · exact ⟨(t, .error e), fun _ ↦ rfl⟩
        · exact ⟨(t, .ok ()), fun _ ↦ rfl⟩
        · exact ih (traversed + 1) t (by omega) (by omega)

theorem scanDirectory_total (fs : Fat32Fs) (start : U32)
    (visitor : σ → DirectoryRecord → σ × Bool) (s : σ) :
    ∃ result, ∀ extra, fs.scanClusters visitor (fs.geometry.clusterCount.toNat + 1 + extra) start
      0 s = some result :=
  scanClusters_total _ 0 s (Nat.zero_le _) (by omega)

/-- A chain of clusters without an end, none of which marks the end of the directory. -/
def LoopsForever (fs : Fat32Fs) (start : U32) : Prop :=
  ∃ chain : ℕ → U32, chain 0 = start ∧ ∀ n,
    fs.nextCluster (chain n) = some (.ok (some (chain (n + 1)))) ∧ ¬ fs.EndMark (chain n)

theorem scanClusters_loop {chain : ℕ → U32}
    (hchain : ∀ n, fs.nextCluster (chain n) = some (.ok (some (chain (n + 1)))) ∧
      ¬ fs.EndMark (chain n)) {result : Except Fat32Error Unit} (fuel n traversed : ℕ) (s : σ)
    (h : fs.scanClusters visitor fuel (chain n) traversed s = some (t, result)) :
    (∃ e, result = .error e) ∨ Declines visitor t := by
  induction fuel generalizing n traversed s with
  | zero => simp [scanClusters] at h
  | succ fuel ih =>
    obtain ⟨hnext, hmark⟩ := hchain n
    rcases fs.scan_turn visitor (chain n) s with ⟨u, r, hok, hturn⟩ | ⟨u, link, hlink, hturn⟩
    · rw [hturn, Option.some.injEq, Prod.mk.injEq] at h
      obtain ⟨rfl, rfl⟩ := h
      cases r with
      | error e => exact .inl ⟨e, rfl⟩
      | ok => exact .inr ((hok rfl).resolve_left hmark)
    · obtain rfl := Option.some.inj (hlink.symm.trans hnext)
      rw [hturn] at h
      split_ifs at h
      · simp only [Option.some.injEq, Prod.mk.injEq] at h
        exact .inl ⟨_, h.2.symm⟩
      · exact ih (n + 1) (traversed + 1) u h

theorem LoopsForever.scanDirectory_eq {start : U32} (h : fs.LoopsForever start)
    (visitor : σ → DirectoryRecord → σ × Bool) (s : σ) :
    ∃ t go result, fs.scanDirectory start visitor s = some (t, result) ∧
      fs.scanDirectory start (Visit.noting visitor) (s, true) = some ((t, go), result) ∧
      ((∃ e, result = .error e) ∨ go = false ∧ Declines visitor t) := by
  obtain ⟨chain, rfl, hchain⟩ := h
  obtain ⟨⟨⟨t, go⟩, result⟩, hnoted⟩ :=
    fs.scanDirectory_total (chain 0) (Visit.noting visitor) (s, true)
  refine ⟨t, go, result, ?_, hnoted 0, ?_⟩
  · exact (scanClusters_map (f := Prod.fst) (fun _ _ ↦ rfl) _ _ 0 (s, true)).trans
      (congrArg (Option.map (Prod.map Prod.fst id)) (hnoted 0))
  · apply (scanClusters_loop hchain _ 0 0 (s, true) (hnoted 0)).imp_right
    rintro ⟨u, record, hstop⟩
    obtain ⟨hlast, hgo⟩ := Prod.mk.inj hstop
    rw [hlast] at hgo
    exact ⟨hgo, u.1, record, hgo ▸ hlast⟩

theorem loopsForever_self (hnext : fs.nextCluster cluster = some (.ok (some cluster)))
    (hmark : ¬ fs.EndMark cluster) : fs.LoopsForever cluster :=
  ⟨fun _ ↦ cluster, rfl, fun _ ↦ ⟨hnext, hmark⟩⟩

end Scan

end BraneKernel.Fat32Fs
