import BraneKernel.Madt

namespace BraneKernel

open CpuBootPlan

namespace CpuBootPlan

/-- The plan lists the processors in the order of the table, none of them twice. -/
structure Lists (plan : CpuBootPlan) (entries : List CpuEntry) (plan' : CpuBootPlan) : Prop where
  distinct : (plan.cpus.map (·.apicId) ++ entries.map (·.apicId)).Nodup
  cpus : plan'.cpus = plan.cpus ++ entries.map describe
  enabledCpuCount : plan'.enabledCpuCount = plan.enabledCpuCount + entries.countP (·.enabled)
  bspIndex : plan'.bspIndex = plan.bspIndex

theorem collect_eq_ok_iff {entries : List CpuEntry} {plan plan' : CpuBootPlan}
    (hroom : plan.cpus.length + entries.length ≤ maxCpus)
    (hdistinct : (plan.cpus.map (·.apicId)).Nodup) :
    plan.collect entries = .ok plan' ↔ Lists plan entries plan' := by
  induction entries generalizing plan with
  | nil =>
    constructor
    · intro h
      cases h
      exact ⟨by simpa using hdistinct, by simp, by simp, rfl⟩
    · rintro ⟨-, hcpus, hcount, hbsp⟩
      cases plan
      cases plan'
      simp_all [collect]
  | cons entry rest ih =>
    rw [List.length_cons] at hroom
    rw [collect, dif_neg (by omega)]
    by_cases hdup : (plan.cpus.any (·.apicId == entry.apicId)) = true
    · obtain ⟨cpu, hcpu, hsame⟩ := List.any_eq_true.mp hdup
      rw [if_pos hdup]
      refine iff_of_false (by simp) fun h ↦ ?_
      exact (List.nodup_append.mp h.distinct).2.2 cpu.apicId (List.mem_map_of_mem hcpu)
        entry.apicId (by simp) (beq_iff_eq.mp hsame)
    · have hnew : ∀ cpu ∈ plan.cpus, ¬ cpu.apicId = entry.apicId := by simpa using hdup
      have hcount : (if entry.enabled then plan.enabledCpuCount + 1 else plan.enabledCpuCount) +
          rest.countP (·.enabled) = plan.enabledCpuCount + (entry :: rest).countP (·.enabled) := by
        split_ifs with henabled
        · simp [henabled, Nat.add_assoc, Nat.add_comm 1]
        · simp [henabled]
      rw [if_neg hdup, ih (by simp; omega)
        (by simpa [List.nodup_append, describe] using ⟨hdistinct, hnew⟩)]
      constructor
      · rintro ⟨hnodup, hcpus, henabled, hbsp⟩
        exact ⟨by simpa [describe] using hnodup, by simpa using hcpus, henabled.trans hcount, hbsp⟩
      · rintro ⟨hnodup, hcpus, henabled, hbsp⟩
        exact ⟨by simpa [describe] using hnodup, by simpa using hcpus,
          henabled.trans hcount.symm, hbsp⟩

end CpuBootPlan

namespace Madt

theorem Reads.fromMadt_eq_ok_iff {header : U64} {entries : List Bytes} {info : Info}
    (h : Reads header entries info) (plan : CpuBootPlan) :
    fromMadt info.toMadtInfo = .ok plan ↔
      (∃ cpu ∈ (entries.filterMap cpuOf).take 32, cpu.enabled = true) ∧
        CpuBootPlan.Lists .empty ((entries.filterMap cpuOf).take 32) plan := by
  have hcollect (plan' : CpuBootPlan) : empty.collect
      ((entries.filterMap cpuOf).take 32) = .ok plan' ↔ CpuBootPlan.Lists .empty _ plan' :=
    collect_eq_ok_iff (by simp [empty, maxCpus])
      (by simp [empty])
  rw [fromMadt, h.collected, ← hcollect]
  cases hplan : empty.collect ((entries.filterMap cpuOf).take 32) with
  | error e => simp
  | ok found =>
    have hcount : found.enabledCpuCount = 0 ↔
        ¬ ∃ cpu ∈ (entries.filterMap cpuOf).take 32, cpu.enabled = true := by
      rw [((hcollect found).mp hplan).enabledCpuCount]
      simp [empty, List.countP_eq_zero]
    by_cases hnone : found.enabledCpuCount = 0
    · simp [hnone, hcount.mp hnone]
    · simp [hnone, not_not.mp (mt hcount.mpr hnone)]

/-- The bytes of a table lead to a boot plan exactly when they are valid, one of the
first 32 processors is enabled and no two of them share an id, and the plan lists these. -/
theorem boot_plan_of_table (table : Bytes) (plan : CpuBootPlan) :
    (∃ info, parse table = some (.ok info) ∧
      fromMadt info.toMadtInfo = .ok plan) ↔
    ∃ length entries, Valid table length entries ∧
      (∃ cpu ∈ (entries.filterMap cpuOf).take 32, cpu.enabled = true) ∧
      CpuBootPlan.Lists .empty ((entries.filterMap cpuOf).take 32) plan := by
  constructor
  · rintro ⟨info, hparse, hplan⟩
    obtain ⟨length, entries, hvalid, rfl⟩ := (parse_ok_iff table info).mp hparse
    exact ⟨length, entries, hvalid, ((reads_foldl _ entries).fromMadt_eq_ok_iff plan).mp hplan⟩
  · rintro ⟨length, entries, hvalid, hplan⟩
    exact ⟨_, (parse_ok_iff table _).mpr ⟨length, entries, hvalid, rfl⟩,
      ((reads_foldl _ entries).fromMadt_eq_ok_iff plan).mpr hplan⟩

end Madt

end BraneKernel
