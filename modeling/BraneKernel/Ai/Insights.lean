import BraneKernel.Ai.Actuation
import Mathlib.Data.List.DropRight

namespace BraneKernel

namespace AiEngine

def hear (s : AiMode × List AiInsight) : AiOp → AiMode × List AiInsight
  | .setMode mode => (mode, s.2)
  | .setActuationCap _ => s
  | .observe now o =>
    (s.1, if s.1 = .disabled then s.2
      else s.2 ++ [{ new with nextId := BitVec.ofNat 64 (s.2.length + 1) }.insight now o])

def made (ops : List AiOp) : AiMode × List AiInsight := ops.foldl hear (.observeOnly, [])

variable {e e' : AiEngine} {s s' : AiEngine × AuditLog} {now : AiMoment} {o : Observation}
  {op : AiOp} {ops : List AiOp} {n : U64} {i : ℕ}

structure Noted (e : AiEngine) (now : AiMoment) (o : Observation) (e' : AiEngine) : Prop where
  mode : e'.mode = e.mode
  nextId : e'.nextId.toNat = e.nextId.toNat + 1
  total : e'.totalObservations.toNat = e.totalObservations.toNat + 1
  insights : e'.insights =
    e.insights.set ((e.nextId.toNat - 1) % maxInsights) (some (e.insight now o))

theorem noted_note (h : e.note now o = some e') : Noted e now o e' := by
  obtain ⟨observations, hobservations, h⟩ := Option.bind_eq_some_iff.mp h
  obtain ⟨nextId, hnext, h⟩ := Option.bind_eq_some_iff.mp h
  obtain ⟨place, hplace, h⟩ := Option.bind_eq_some_iff.mp h
  obtain ⟨_, -, rfl⟩ := Option.map_eq_some_iff.mp h
  have hindex : place.toNat + 1 = e.nextId.toNat := Checked.sub_eq_some_iff.mp hplace
  refine ⟨rfl, checkedSucc_toNat hnext, checkedSucc_toNat hobservations, ?_⟩
  rw [← hindex, Nat.add_sub_cancel]

theorem Noted.tryExecute (h : Noted e now o e') {log : AuditLog} {action : AiAction}
    (hs : e'.tryExecute log now action = some s') : Noted e now o s'.1 := by
  cases action with
  | none =>
    cases hs
    exact h
  | _ =>
    obtain ⟨_, -, rfl⟩ := Option.map_eq_some_iff.mp hs
    exact { h with }

theorem observe_noted {id : U64} (h : s.1.observe s.2 now o = some (s', id)) :
    (s.1.mode = .disabled ∧ s' = s) ∨ (s.1.mode ≠ .disabled ∧ Noted s.1 now o s'.1) := by
  unfold observe at h
  split at h
  · next hoff =>
    cases h
    exact .inl ⟨hoff, rfl⟩
  next hon =>
  obtain ⟨noted, hnote, h⟩ := Option.bind_eq_some_iff.mp h
  have hnoted := noted_note hnote
  refine .inr ⟨hon, ?_⟩
  split at h
  · split at h
    · obtain ⟨s₁, htry, hs⟩ := Option.map_eq_some_iff.mp h
      cases hs
      exact hnoted.tryExecute htry
    · cases h
      exact hnoted
  · cases h
    exact hnoted

/-- The engine shows the insights made, as many of the newest as fit. -/
structure Remembers (mode : AiMode) (insights : List AiInsight) (e : AiEngine) : Prop where
  mode : e.mode = mode
  nextId : e.nextId.toNat = insights.length + 1
  total : e.totalObservations.toNat = insights.length
  newest : Ring.Newest e.insights insights
  ids : insights.map (·.id.toNat) = List.range' 1 insights.length

variable {mode : AiMode} {insights : List AiInsight}

theorem remembers_new : Remembers .observeOnly [] new where
  mode := rfl
  nextId := rfl
  total := rfl
  newest := Ring.newest_nil _
  ids := rfl

theorem Remembers.insight_eq (h : Remembers mode insights e) (now : AiMoment) (o : Observation) :
    { new with nextId := BitVec.ofNat 64 (insights.length + 1) }.insight now o =
      e.insight now o := by
  have hid : BitVec.ofNat 64 (insights.length + 1) = e.nextId := by
    rw [← h.nextId, BitVec.ofNat_toNat, BitVec.setWidth_eq]
  simp only [insight, hid]

theorem Remembers.noted (h : Remembers mode insights e) (hnoted : Noted e now o e') :
    Remembers mode (insights ++ [e.insight now o]) e' := by
  have hlength : (insights ++ [e.insight now o]).length = insights.length + 1 := List.length_append
  have hid : (e.insight now o).id.toNat = insights.length + 1 := h.nextId
  have hwrite := h.newest.write (by rw [e.size]; decide) (e.insight now o)
  refine ⟨hnoted.mode.trans h.mode, ?_, ?_, ?_, ?_⟩
  · rw [hnoted.nextId, h.nextId, hlength]
  · rw [hnoted.total, h.total, hlength]
  · rwa [hnoted.insights, h.nextId, Nat.add_sub_cancel, ← e.size]
  · rw [List.map_append, h.ids, hlength, List.range'_concat, List.map_singleton, hid, Nat.one_mul,
      Nat.add_comm 1]

theorem Remembers.step (h : Remembers (made ops).1 (made ops).2 s.1) (hstep : Step s op s') :
    Remembers (made (ops ++ [op])).1 (made (ops ++ [op])).2 s'.1 := by
  have hmade : made (ops ++ [op]) = hear (made ops) op := by
    rw [made, List.foldl_append]
    rfl
  rw [hmade]
  cases op with
  | setMode mode =>
    cases hstep
    exact { h with mode := rfl }
  | setActuationCap cap =>
    cases hstep
    exact { h with }
  | observe now o =>
    obtain ⟨⟨_, id⟩, hobserve, rfl⟩ := Option.map_eq_some_iff.mp hstep
    simp only [hear]
    rcases observe_noted hobserve with ⟨hoff, hs⟩ | ⟨hon, hnoted⟩
    · rw [if_pos (h.mode ▸ hoff), hs]
      exact h
    · rw [if_neg (h.mode ▸ hon), h.insight_eq]
      exact h.noted hnoted

theorem remembers_of_run {log : AuditLog} (h : Trace.Run Step (new, log) ops s) :
    Remembers (made ops).1 (made ops).2 s.1 :=
  h.history (I := fun ops (s : AiEngine × AuditLog) ↦ Remembers (made ops).1 (made ops).2 s.1) remembers_new
    fun _ _ _ _ ht hstep ↦ ht.step hstep

theorem filterMapM_eq_some_iff {α β : Type} {f : α → Option (Option β)} {g : α → Option β}
    {l : List α} {r : List β} (h : ∀ a ∈ l, f a = none ∨ f a = some (g a)) :
    l.filterMapM f = some r ↔ (∀ a ∈ l, f a = some (g a)) ∧ l.filterMap g = r := by
  induction l generalizing r with
  | nil => simp
  | cons a l ih =>
    obtain ⟨ha, hl⟩ := List.forall_mem_cons.mp h
    rw [List.filterMapM_cons, List.forall_mem_cons, List.filterMap_cons]
    rcases ha with ha | ha
    · simp [ha]
    · cases hg : g a with
      | none => simp [ha, hg, ih hl]
      | some b =>
        simp only [ha, hg, Option.bind_eq_bind, Option.bind_some, Option.bind_eq_some_iff, ih hl,
          Option.pure_def, Option.some_inj, true_and]
        constructor
        · rintro ⟨_, ⟨hall, rfl⟩, rfl⟩
          exact ⟨hall, rfl⟩
        · rintro ⟨hall, rfl⟩
          exact ⟨_, ⟨hall, rfl⟩, rfl⟩

def firstIndex (e : AiEngine) (n : U64) : ℕ :=
  if e.nextId > n then (e.nextId.toNat - 1 - n.toNat) % maxInsights else 0

theorem firstIndex_lt (e : AiEngine) (n : U64) : e.firstIndex n < maxInsights := by
  rw [firstIndex]
  split_ifs
  · exact Nat.mod_lt _ (by decide)
  · decide

def visits (e : AiEngine) (n : U64) : ℕ := min n.toNat e.totalObservations.toNat

theorem add_eq (hi : i < e.visits n) :
    Checked.add (BitVec.ofNat 64 (e.firstIndex n)) (BitVec.ofNat 64 i) =
      if e.firstIndex n + i < 2 ^ 64 then some (BitVec.ofNat 64 (e.firstIndex n + i)) else none := by
  have hlt : e.firstIndex n < 64 := e.firstIndex_lt n
  have hn := n.isLt
  rw [visits] at hi
  rw [Checked.add, BitVec.toNat_ofNat, BitVec.toNat_ofNat, Nat.mod_eq_of_lt (by omega),
    Nat.mod_eq_of_lt (by omega), BitVec.ofNat_add]

theorem lastInsights_eq_some_iff {l : List AiInsight} :
    e.lastInsights n = some l ↔ (∀ i < e.visits n, e.firstIndex n + i < 2 ^ 64) ∧
      Ring.read e.insights (e.firstIndex n) (e.visits n) = l := by
  have hcell (i : ℕ) (hi : i < e.visits n) (hfits : e.firstIndex n + i < 2 ^ 64) :
      (Checked.add (BitVec.ofNat 64 (e.firstIndex n)) (BitVec.ofNat 64 i)).map
          (fun idx ↦ (e.insights[idx.toNat % maxInsights]?).join) =
        some (e.insights[(e.firstIndex n + i) % e.insights.length]?).join := by
    rw [add_eq hi, if_pos hfits, Option.map_some, BitVec.toNat_ofNat, Nat.mod_eq_of_lt hfits, e.size]
  have hpanic (i : ℕ) (hi : i < e.visits n) (hover : ¬ e.firstIndex n + i < 2 ^ 64) :
      (Checked.add (BitVec.ofNat 64 (e.firstIndex n)) (BitVec.ofNat 64 i)).map
          (fun idx ↦ (e.insights[idx.toNat % maxInsights]?).join) = none := by
    rw [add_eq hi, if_neg hover, Option.map_none]
  refine (filterMapM_eq_some_iff fun i hi ↦ ?_).trans (and_congr_left' ?_)
  · by_cases hfits : e.firstIndex n + i < 2 ^ 64
    · exact .inr (hcell i (List.mem_range.mp hi) hfits)
    · exact .inl (hpanic i (List.mem_range.mp hi) hfits)
  · refine ⟨fun h i hi ↦ ?_, fun h i hi ↦ hcell i (List.mem_range.mp hi) (h i (List.mem_range.mp hi))⟩
    by_contra hover
    cases (hpanic i hi hover).symm.trans (h i (List.mem_range.mpr hi))

section

variable (h : Remembers mode insights e)
include h

theorem Remembers.firstIndex_eq (n : U64) :
    e.firstIndex n = (insights.length - e.visits n) % e.insights.length := by
  have hnext : e.nextId > n ↔ n.toNat < insights.length + 1 := by
    rw [gt_iff_lt, BitVec.lt_def, h.nextId]
  rw [firstIndex, visits, h.nextId, h.total, e.size]
  split_ifs with hgt
  · congr 1
    omega
  · rw [hnext] at hgt
    have hzero : insights.length - min n.toNat insights.length = 0 := by omega
    rw [hzero, Nat.zero_mod]

theorem Remembers.read_eq (hfew : e.visits n ≤ maxInsights) :
    Ring.read e.insights (e.firstIndex n) (e.visits n) = insights.rtake (e.visits n) := by
  rw [h.firstIndex_eq, Ring.read_mod]
  refine h.newest.read_eq (e.size ▸ hfew) ?_
  rw [visits, h.total]
  exact Nat.min_le_right _ _

theorem Remembers.lastInsights_eq (hfew : e.visits n ≤ maxInsights) :
    e.lastInsights n = some (insights.rtake (e.visits n)) := by
  refine lastInsights_eq_some_iff.mpr ⟨fun i hi ↦ ?_, h.read_eq hfew⟩
  have hlt : e.firstIndex n < 64 := e.firstIndex_lt n
  have hle : e.visits n ≤ 64 := hfew
  omega

theorem Remembers.length_of_many (hmany : maxInsights ≤ insights.length) {l : List AiInsight}
    (hl : e.lastInsights n = some l) :
    l.length = e.visits n := by
  obtain ⟨-, rfl⟩ := lastInsights_eq_some_iff.mp hl
  exact h.newest.length_read (e.size ▸ by decide) (e.size ▸ hmany) _ _

end

/-- Up to the size of the ring, `last_insights` yields the newest insights, oldest
first. Asked for more when there are more, it goes around the ring again. -/
theorem last_insights_newest {log : AuditLog} (h : Trace.Run Step (new, log) ops s) (n : U64) :
    (n.toNat ≤ maxInsights ∨ (made ops).2.length ≤ maxInsights →
      ∃ l, s.1.lastInsights n = some l ∧ l = (made ops).2.rtake (min n.toNat maxInsights) ∧
        l.length = min n.toNat (min maxInsights (made ops).2.length) ∧
        (l.map (·.id.toNat)).Pairwise (· < ·)) ∧
    (¬ (n.toNat ≤ maxInsights ∨ (made ops).2.length ≤ maxInsights) →
      ∀ l, s.1.lastInsights n = some l → maxInsights < l.length) := by
  have hr := remembers_of_run h
  have hvisits : s.1.visits n = min n.toNat (made ops).2.length := by rw [visits, hr.total]
  constructor
  · intro hfew
    have hle : s.1.visits n ≤ maxInsights := by omega
    have hlast := hr.lastInsights_eq hle
    have hdrop : (made ops).2.length - s.1.visits n =
        (made ops).2.length - min n.toNat maxInsights := by omega
    rw [List.rtake, hdrop] at hlast
    refine ⟨_, hlast, rfl, ?_, ?_⟩
    · rw [List.length_drop]
      omega
    · have hsorted := List.pairwise_lt_range' 1 (s := 1) (n := (made ops).2.length)
      rw [← hr.ids] at hsorted
      exact hsorted.sublist ((List.drop_sublist _ _).map _)
  · intro hmany l hl
    rw [hr.length_of_many (by omega) hl]
    omega

def told (message : String) : AiOp := .observe ⟨0, 0, 0⟩ ⟨.resource, .low, message.toList, none⟩

theorem last_insights_newest_two : ∃ s l,
    Trace.Run Step (new, .new)
      [told "a", .setMode .disabled, told "b", .setMode .suggest, told "c", told "d"] s ∧
    s.1.lastInsights 2 = some l ∧ l.map (·.message) = [[0x63], [0x64]] := by
  obtain ⟨s, hrun⟩ : ∃ s, Trace.Run Step (new, .new)
      [told "a", .setMode .disabled, told "b", .setMode .suggest, told "c", told "d"] s :=
    ⟨_, .cons rfl (.cons rfl (.cons rfl (.cons rfl (.cons rfl (.cons rfl .nil)))))⟩
  obtain ⟨l, hlast, rfl, -⟩ := (last_insights_newest hrun 2).1 (.inl (by decide))
  exact ⟨s, _, hrun, hlast, by decide⟩

/-- After 65 observations the last 65 are the newest insight, the 63 before it,
and the newest again. -/
theorem last_insights_repeats : ∃ s,
    Trace.Run Step (new, .new) (List.replicate 65 (told "a")) s ∧
    (s.1.lastInsights 65).map (List.map (·.id.toNat)) = some (65 :: List.range' 2 64) := by
  have hrun : (((List.replicate 65 (told "a")).foldlM perform (new, .new)).bind
      fun s ↦ (s.1.lastInsights 65).map (List.map (·.id.toNat))) = some (65 :: List.range' 2 64) := by
    decide +kernel
  obtain ⟨s, hs, hlast⟩ := Option.bind_eq_some_iff.mp hrun
  exact ⟨s, .of_foldlM hs, hlast⟩

end AiEngine

end BraneKernel
