import BraneKernel.Security
import BraneKernel.Lib.Trace

namespace BraneKernel.Security

open CapabilityManager

open Trace

inductive Call
  | grant (owner : TaskId) (scope : CapScope) (permissions : CapPermissions)
      (riskLevel : RiskLevel) (revocable : Bool)
  | revoke (capId : CapabilityId)
  deriving DecidableEq

inductive Reply
  | granted (r : Except CapError CapabilityId)
  | revoked (r : Except CapError Unit)

def Reply.Failed : Reply → Prop
  | .granted r => ∀ id, r ≠ .ok id
  | .revoked r => r ≠ .ok ()

def CapabilityManager.call (m : CapabilityManager) : Call → Option (CapabilityManager × Reply)
  | .grant owner scope permissions riskLevel revocable =>
    (m.grant owner scope permissions riskLevel revocable).map fun p ↦ (p.1, .granted p.2)
  | .revoke capId => some ((m.revoke capId).1, .revoked (m.revoke capId).2)

def CallStep (m : CapabilityManager) (e : Call × Reply) (m' : CapabilityManager) : Prop :=
  m.call e.1 = some (m', e.2)

def granting (cap : Capability) : Call × Reply :=
  (.grant cap.owner cap.scope cap.permissions cap.riskLevel cap.revocable, .granted (.ok cap.id))

def revoking (capId : CapabilityId) : Call × Reply := (.revoke capId, .revoked (.ok ()))

/-- What the history alone says about a capability: granted, and not
successfully revoked since. -/
def InForce (h : List (Call × Reply)) (cap : Capability) : Prop :=
  Since (granting cap) (revoking cap.id) h

def issuedId : Call × Reply → Option CapabilityId
  | (_, .granted (.ok id)) => some id
  | _ => none

def issuedIds (h : List (Call × Reply)) : List CapabilityId := h.filterMap issuedId

/-- The slot table after a history: it holds the capabilities in force, each
once, and the counter is beyond every identifier issued. -/
structure Agrees (h : List (Call × Reply)) (m : CapabilityManager) : Prop where
  occupied : ∀ cap, some cap ∈ m.capabilities ↔ InForce h cap
  distinct : (Slots.keys Capability.id m.capabilities).Nodup
  issued : (issuedIds h).Nodup
  fresh : ∀ id ∈ issuedIds h, id.toNat < m.nextId.toNat
  kept : ∀ cap, granting cap ∈ h → cap.revocable = false → InForce h cap

theorem granting_inj {a b : Capability} (h : granting a = granting b) : a = b := by
  cases a
  cases b
  simpa [granting, and_assoc, and_left_comm, and_comm] using h

theorem granting_ne_revoking (cap : Capability) (capId : CapabilityId) :
    granting cap ≠ revoking capId := by
  simp [granting, revoking]

theorem issuedIds_snoc (h : List (Call × Reply)) (e : Call × Reply) :
    issuedIds (h ++ [e]) = issuedIds h ++ (issuedId e).toList := by
  cases he : issuedId e <;> simp [issuedIds, he]

variable {h : List (Call × Reply)} {m : CapabilityManager} {cap : Capability}

theorem granting_issued (hc : granting cap ∈ h) : cap.id ∈ issuedIds h :=
  List.mem_filterMap.mpr ⟨_, hc, rfl⟩

theorem agrees_new : Agrees [] .new where
  occupied cap := by
    have h := not_since_nil (granting cap) (revoking cap.id)
    simp [InForce, h, new]
  distinct := by simp [new, Slots.keys]
  issued := List.nodup_nil
  fresh := by simp [issuedIds]
  kept := by simp

theorem Agrees.skip {e : Call × Reply} (ha : Agrees h m) (hg : ∀ cap, e ≠ granting cap)
    (hr : ∀ id, e ≠ revoking id) (hi : issuedId e = none) : Agrees (h ++ [e]) m := by
  have hin : ∀ cap, InForce (h ++ [e]) cap ↔ InForce h cap := by
    intro cap
    simp [InForce, since_snoc, hg cap, hr cap.id]
  refine ⟨fun cap ↦ (ha.occupied cap).trans (hin cap).symm, ha.distinct, ?_, ?_, ?_⟩
  · simpa [issuedIds_snoc, hi] using ha.issued
  · simpa [issuedIds_snoc, hi] using ha.fresh
  · intro cap hc hrev
    rw [List.mem_append, List.mem_singleton] at hc
    exact (hin cap).mpr (ha.kept cap (hc.resolve_right (hg cap).symm) hrev)

variable {m' : CapabilityManager}

theorem Agrees.grant (ha : Agrees h m) (hid : cap.id = m.nextId)
    (hn : checkedSucc m.nextId = some m'.nextId)
    (hs : Slots.insert cap m.capabilities = some m'.capabilities) :
    Agrees (h ++ [granting cap]) m' := by
  have hlt := checkedSucc_toNat hn
  have hnew : cap.id ∉ issuedIds h := by
    intro hc
    have hf := ha.fresh _ hc
    rw [hid] at hf
    exact Nat.lt_irrefl _ hf
  have hids : issuedIds (h ++ [granting cap]) = issuedIds h ++ [cap.id] := by
    rw [issuedIds_snoc]
    rfl
  have hin : ∀ c, InForce (h ++ [granting cap]) c ↔ InForce h c ∨ c = cap := by
    intro c
    rw [InForce, since_snoc, or_comm]
    constructor
    · rintro (⟨hc, -⟩ | he)
      · exact .inl hc
      · exact .inr (granting_inj he).symm
    · rintro (hc | rfl)
      · exact .inl ⟨hc, granting_ne_revoking _ _⟩
      · exact .inr rfl
  refine ⟨fun c ↦ ?_, ?_, ?_, ?_, ?_⟩
  · rw [Slots.mem_insert hs, ha.occupied, hin]
  · rw [(Slots.keys_insert hs).nodup_iff, List.nodup_cons]
    refine ⟨fun hk ↦ ?_, ha.distinct⟩
    obtain ⟨c, hc, he⟩ := Slots.mem_keys.mp hk
    exact hnew (he ▸ granting_issued ((ha.occupied c).mp hc).mem)
  · rw [hids, List.nodup_append]
    exact ⟨ha.issued, by simp, fun a hm b hb he ↦ hnew (by simp_all)⟩
  · intro id hm
    rw [hids, List.mem_append, List.mem_singleton] at hm
    rcases hm with hm | rfl
    · have hf := ha.fresh id hm
      omega
    · rw [hid]
      omega
  · intro c hc hrev
    rw [List.mem_append, List.mem_singleton] at hc
    rcases hc with hc | he
    · exact (hin c).mpr (.inl (ha.kept c hc hrev))
    · exact (hin c).mpr (.inr (granting_inj he))

theorem Agrees.revoke (ha : Agrees h m) (hc : some cap ∈ m.capabilities)
    (hrev : cap.revocable = true) (hn : m'.nextId = m.nextId)
    (hs : m'.capabilities = Slots.clear (fun c ↦ c.id == cap.id) m.capabilities) :
    Agrees (h ++ [revoking cap.id]) m' := by
  have hids : issuedIds (h ++ [revoking cap.id]) = issuedIds h := by
    rw [issuedIds_snoc]
    simp [revoking, issuedId]
  have hin : ∀ c, InForce (h ++ [revoking cap.id]) c ↔ InForce h c ∧ c.id ≠ cap.id := by
    intro c
    rw [InForce, since_snoc, or_iff_right (granting_ne_revoking _ _).symm]
    refine and_congr_right fun _ ↦ not_congr ?_
    simp [revoking, eq_comm]
  refine ⟨fun c ↦ ?_, ?_, ?_, ?_, ?_⟩
  · rw [hs, Slots.mem_clear ha.distinct, ha.occupied, hin]
  · rw [hs]
    exact (Slots.keys_clear _ _ _).nodup ha.distinct
  · rw [hids]
    exact ha.issued
  · rw [hids, hn]
    exact ha.fresh
  · intro c hg hkeep
    rw [List.mem_append, List.mem_singleton, or_iff_left (granting_ne_revoking _ _)] at hg
    have hin' := ha.kept c hg hkeep
    refine (hin c).mpr ⟨hin', fun he ↦ ?_⟩
    rw [Slots.eq_of_key_eq ha.distinct ((ha.occupied c).mpr hin') hc he, hrev] at hkeep
    cases hkeep

theorem Agrees.step {e : Call × Reply} (ha : Agrees h m) (hs : CallStep m e m') :
    Agrees (h ++ [e]) m' := by
  obtain ⟨call, reply⟩ := e
  cases call with
  | grant owner scope permissions riskLevel revocable =>
    obtain ⟨⟨m₁, r⟩, hg, he⟩ := Option.map_eq_some_iff.mp hs
    cases he
    rcases grant_cases hg with ⟨rfl, rfl⟩ | ⟨rfl, hn, hi⟩
    · exact ha.skip (by simp [granting]) (by simp [revoking]) rfl
    · exact ha.grant rfl hn hi
  | revoke capId =>
    cases hs
    rcases m.revoke_cases capId with ⟨hm, hr⟩ | ⟨hr, hn, hc, cap, hm, rfl, hrev⟩
    · rw [hm]
      exact ha.skip (by simp [granting]) (by simp [revoking, hr]) rfl
    · rw [hr]
      exact ha.revoke hm hrev hn hc

theorem failed_call_unchanged {call : Call} {reply : Reply} (hs : m.call call = some (m', reply))
    (hf : reply.Failed) : m' = m := by
  cases call with
  | grant owner scope permissions riskLevel revocable =>
    obtain ⟨⟨m₁, r⟩, hg, he⟩ := Option.map_eq_some_iff.mp hs
    cases he
    rcases grant_cases hg with ⟨rfl, -⟩ | ⟨hr, -⟩
    · rfl
    · exact absurd hr (hf _)
  | revoke capId =>
    cases hs
    rcases m.revoke_cases capId with ⟨hm, -⟩ | ⟨hr, -⟩
    · exact hm
    · exact absurd hr hf

theorem call_returns {call : Call} (h : m.call call = none) :
    m.nextId = BitVec.allOnes 64 := by
  cases call with
  | grant owner scope permissions riskLevel revocable =>
    simp only [call, Option.map_eq_none_iff, grant] at h
    split at h
    · cases h
    · rw [Option.map_eq_none_iff, checkedSucc] at h
      split_ifs at h with hn
      exact hn
  | revoke capId => cases h

/-- The decisions of the manager are those of the grant and revoke history. -/
theorem decisions_follow_history {h : List (Call × Reply)} {m : CapabilityManager}
    (hr : Run CallStep .new h m) :
    (∀ task required scope, (∃ id, m.check task required scope = .ok id) ↔
      ∃ cap, InForce h cap ∧ cap.owner = task ∧ cap.scope = scope ∧
        ∀ i, required.getLsbD i = true → cap.permissions.getLsbD i = true) ∧
    (issuedIds h).Nodup ∧
    (∀ cap, granting cap ∈ h → cap.revocable = false → InForce h cap) ∧
    (∀ call reply m', m.call call = some (m', reply) → reply.Failed → m' = m) ∧
    (∀ call, m.call call = none → m.nextId = BitVec.allOnes 64) := by
  have ha : Agrees h m := hr.history agrees_new (fun _ _ _ _ ha hs ↦ ha.step hs)
  refine ⟨fun task required scope ↦ ?_, ha.issued, ha.kept,
    fun _ _ _ hs hf ↦ failed_call_unchanged hs hf, fun _ hn ↦ call_returns hn⟩
  rw [m.check_ok_iff]
  simp only [ha.occupied]

theorem revoked_write_refused :
    ∃ m, Run CallStep .new
        [granting ⟨1, 7, .service 1, CapPermissions.write, .low, true⟩, revoking 1] m ∧
      ¬ ∃ id, m.check 7 CapPermissions.write (.service 1) = .ok id := by
  let held : CapabilityManager :=
    ⟨some ⟨1, 7, .service 1, CapPermissions.write, .low, true⟩ :: List.replicate 255 none, 2,
      congrArg (· + 1) List.length_replicate⟩
  have hgrant : CallStep .new (granting ⟨1, 7, .service 1, CapPermissions.write, .low, true⟩)
      held := rfl
  have hrevoke : CallStep held (revoking 1)
      ⟨none :: List.replicate 255 none, 2, congrArg (· + 1) List.length_replicate⟩ := rfl
  have hrun := (Run.nil.snoc hgrant).snoc hrevoke
  refine ⟨_, hrun, ?_⟩
  rw [(decisions_follow_history hrun).1]
  rintro ⟨cap, hin, -⟩
  have hone : InForce ([granting ⟨1, 7, .service 1, CapPermissions.write, .low, true⟩] ++
    [revoking 1]) cap := hin
  rw [InForce, since_snoc, or_iff_right (granting_ne_revoking _ _).symm, ← List.nil_append [_],
    since_snoc] at hone
  obtain ⟨he | ⟨hnil, -⟩, hne⟩ := hone
  · obtain rfl := granting_inj he
    exact hne rfl
  · exact not_since_nil _ _ hnil

end BraneKernel.Security
