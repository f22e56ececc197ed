import BraneKernel.Audit
import BraneKernel.Lib.Ring
import Mathlib.Data.List.Induction

namespace BraneKernel

structure AuditRecord where
  tick : U64
  origin : AuditOrigin
  action : AuditAction
  capabilityUsed : Option CapabilityId
  result : AuditResult

namespace AuditRecord

def event (r : AuditRecord) (seq : U64) : AuditEvent :=
  ⟨seq, r.tick, r.origin.taskId, r.origin.pid, r.origin.cpuId, r.action, r.capabilityUsed, r.result⟩

/-- Numbered from one on, by a counter that wraps. -/
def history (rs : List AuditRecord) : List AuditEvent :=
  rs.mapIdx fun i r ↦ r.event (BitVec.ofNat 64 (i + 1))

variable (rs : List AuditRecord)

theorem length_history : (history rs).length = rs.length :=
  List.length_mapIdx

theorem history_snoc (r : AuditRecord) :
    history (rs ++ [r]) = history rs ++ [r.event (BitVec.ofNat 64 (rs.length + 1))] := by
  rw [history, List.mapIdx_append]
  simp [history]

theorem getElem_history {i : ℕ} (h : i < (history rs).length) :
    (history rs)[i].seq = BitVec.ofNat 64 (i + 1) := by
  simp [history, event]

end AuditRecord

namespace AuditLog

open AuditRecord

def record (l : AuditLog) (r : AuditRecord) : AuditLog :=
  l.recordAt r.tick r.origin r.action r.capabilityUsed r.result

def recordAll (rs : List AuditRecord) : AuditLog := rs.foldl record new

/-- The ring holds the end of the history, as much of it as fits. -/
structure Keeps (l : AuditLog) (rs : List AuditRecord) : Prop where
  holds : Ring.Holds l.events l.head ((history rs).drop (rs.length - auditLogSize))
  count_eq : l.count = min rs.length auditLogSize
  nextSeq_eq : l.nextSeq = BitVec.ofNat 64 (rs.length + 1)
  total_eq : l.totalEvents = BitVec.ofNat 64 rs.length
  overwritten_eq : l.overwritten = BitVec.ofNat 64 (rs.length - auditLogSize)

variable {l : AuditLog} {rs : List AuditRecord}

theorem keeps_new : new.Keeps [] where
  holds := Ring.holds_nil _ _
  count_eq := rfl
  nextSeq_eq := rfl
  total_eq := rfl
  overwritten_eq := rfl

theorem length_kept (rs : List AuditRecord) :
    ((history rs).drop (rs.length - auditLogSize)).length = min rs.length auditLogSize := by
  rw [List.length_drop, length_history]
  omega

theorem Keeps.holds_room (h : l.Keeps rs) (hlt : rs.length < auditLogSize) (e : AuditEvent) :
    Ring.Holds (l.events.set ((l.head + l.count) % auditLogSize) (some e)) l.head
      (history rs ++ [e]) := by
  have hmin : min rs.length auditLogSize = rs.length := Nat.min_eq_left hlt.le
  have hpush := h.holds.push (by rwa [length_kept, l.size, hmin]) e
  rwa [length_kept, ← h.count_eq, l.size, Nat.sub_eq_zero_of_le hlt.le, List.drop_zero] at hpush

theorem Keeps.holds_full (h : l.Keeps rs) (hle : auditLogSize ≤ rs.length) (e : AuditEvent) :
    Ring.Holds (l.events.set ((l.head + l.count) % auditLogSize) (some e))
      ((l.head + 1) % auditLogSize) ((history rs).drop (rs.length - auditLogSize + 1) ++ [e]) := by
  have hlt : rs.length - auditLogSize < (history rs).length := by
    rw [length_history]
    exact Nat.sub_lt_of_pos_le (by decide) hle
  have hkept := List.drop_eq_getElem_cons hlt
  have hlen := length_kept rs
  have hholds := h.holds
  rw [hkept] at hlen hholds
  have hover := hholds.overwrite e
  rwa [hlen, ← h.count_eq, l.size] at hover

theorem record_of_room (h : l.count < auditLogSize) (r : AuditRecord) :
    (l.record r).head = l.head ∧ (l.record r).count = l.count + 1 ∧
      (l.record r).overwritten = l.overwritten :=
  ⟨if_pos h, if_pos h, if_pos h⟩

theorem record_of_full (h : ¬ l.count < auditLogSize) (r : AuditRecord) :
    (l.record r).head = (l.head + 1) % auditLogSize ∧ (l.record r).count = l.count ∧
      (l.record r).overwritten = l.overwritten + 1 :=
  ⟨if_neg h, if_neg h, if_neg h⟩

theorem Keeps.record (h : l.Keeps rs) (r : AuditRecord) : (l.record r).Keeps (rs ++ [r]) := by
  have hc := h.count_eq
  have hlen : (rs ++ [r]).length = rs.length + 1 := List.length_append
  have hseq : (l.record r).nextSeq = BitVec.ofNat 64 ((rs ++ [r]).length + 1) := by
    rw [hlen, BitVec.ofNat_add, ← h.nextSeq_eq]
    rfl
  have htotal : (l.record r).totalEvents = BitVec.ofNat 64 (rs ++ [r]).length := by
    rw [hlen, BitVec.ofNat_add, ← h.total_eq]
    rfl
  have hevents : (l.record r).events = l.events.set ((l.head + l.count) % auditLogSize)
      (some (r.event (BitVec.ofNat 64 (rs.length + 1)))) := by
    rw [← h.nextSeq_eq]
    rfl
  rcases Nat.lt_or_ge rs.length auditLogSize with hlt | hle
  · obtain ⟨hhead, hcount, hover⟩ := record_of_room (l := l) (by omega) r
    refine ⟨?_, by omega, hseq, htotal, ?_⟩
    · rw [hevents, hhead, hlen, Nat.sub_eq_zero_of_le hlt, List.drop_zero, history_snoc]
      exact h.holds_room hlt _
    · rw [hover, h.overwritten_eq, hlen, Nat.sub_eq_zero_of_le hlt, Nat.sub_eq_zero_of_le hlt.le]
  · obtain ⟨hhead, hcount, hover⟩ := record_of_full (l := l) (by omega) r
    refine ⟨?_, by omega, hseq, htotal, ?_⟩
    · have hdrop : rs.length - auditLogSize + 1 ≤ (history rs).length := by
        rw [length_history]
        exact Nat.sub_lt_of_pos_le (by decide) hle
      rw [hevents, hhead, hlen, history_snoc, Nat.sub_add_comm hle,
        List.drop_append_of_le_length hdrop]
      exact h.holds_full hle _
    · rw [hover, h.overwritten_eq, hlen, Nat.sub_add_comm hle, BitVec.ofNat_add]
      rfl

theorem keeps_recordAll (rs : List AuditRecord) : (recordAll rs).Keeps rs := by
  induction rs using List.reverseRecOn with
  | nil => exact keeps_new
  | append_singleton rs r ih =>
    rw [recordAll, List.foldl_append]
    exact ih.record r

theorem Keeps.lastN_eq (h : l.Keeps rs) (n : ℕ) :
    l.lastN n = ((history rs).drop (rs.length - auditLogSize)).reverse.take n := by
  have hback := h.holds.read_back n
  rw [length_kept, l.size, ← h.count_eq] at hback
  exact hback

theorem take_reverse_kept (rs : List AuditRecord) (n : ℕ) :
    ((history rs).drop (rs.length - auditLogSize)).reverse.take n =
      (history rs).reverse.take (min n auditLogSize) := by
  have hlen : (history rs).reverse.length = rs.length := by
    rw [List.length_reverse, length_history]
  rw [List.reverse_drop, List.take_take, List.take_eq_take_iff, hlen, length_history]
  omega

theorem seq_reverse_history (rs : List AuditRecord) (n : ℕ) :
    ((history rs).reverse.take n).map AuditEvent.seq =
      (List.range (min n rs.length)).map fun i ↦ BitVec.ofNat 64 (rs.length - i) := by
  apply List.ext_getElem
  · simp [length_history]
  · intro i hi _
    rw [List.length_map, List.length_take, List.length_reverse, length_history] at hi
    simp only [List.getElem_map, List.getElem_take, List.getElem_reverse, getElem_history,
      length_history, List.getElem_range]
    congr 1
    omega

/-- The log is the tail of the history: asking for `n` events gives the newest ones that are left,
newest first and numbered without gaps down from the last number issued. The numbers and counters
are kept modulo `2 ^ 64`; they are exact until that many events were recorded. -/
theorem lastN_recordAll (rs : List AuditRecord) (n : ℕ) :
    let l := recordAll rs
    l.lastN n = (history rs).reverse.take (min n auditLogSize) ∧
      (l.lastN n).length = min n (min auditLogSize rs.length) ∧
      (l.lastN n).map AuditEvent.seq = (List.range (min n (min auditLogSize rs.length))).map
        (fun i ↦ l.nextSeq - 1 - BitVec.ofNat 64 i) ∧
      BitVec.ofNat 64 l.count + l.overwritten = l.totalEvents ∧
      l.totalEvents = BitVec.ofNat 64 rs.length ∧
      (rs.length < 18446744073709551616 →
        (l.lastN n).map (fun e ↦ e.seq.toNat) =
            (List.range (min n (min auditLogSize rs.length))).map (fun i ↦ rs.length - i) ∧
          l.count + l.overwritten.toNat = l.totalEvents.toNat ∧
          l.totalEvents.toNat = rs.length) := by
  intro l
  have h : l.Keeps rs := keeps_recordAll rs
  have hlast : l.lastN n = (history rs).reverse.take (min n auditLogSize) := by
    rw [h.lastN_eq, take_reverse_kept]
  have hseq : (l.lastN n).map AuditEvent.seq = (List.range (min n (min auditLogSize rs.length))).map
      fun i ↦ BitVec.ofNat 64 (rs.length - i) := by
    rw [hlast, seq_reverse_history, Nat.min_assoc]
  refine ⟨hlast, ?_, ?_, ?_, h.total_eq, fun hlt ↦ ⟨?_, ?_, ?_⟩⟩
  · rw [hlast, List.length_take, List.length_reverse, length_history, Nat.min_assoc]
  · rw [hseq]
    refine List.map_congr_left fun i hi ↦ ?_
    have hle : rs.length = rs.length - i + i := by
      rw [List.mem_range] at hi
      omega
    have hnext : l.nextSeq = BitVec.ofNat 64 (rs.length - i) + BitVec.ofNat 64 i + 1 := by
      rw [← BitVec.ofNat_add, ← hle, h.nextSeq_eq, BitVec.ofNat_add]
      rfl
    rw [hnext, BitVec.add_sub_cancel, BitVec.add_sub_cancel]
  · rw [h.count_eq, h.overwritten_eq, h.total_eq, ← BitVec.ofNat_add]
    exact congrArg (BitVec.ofNat 64) (by omega)
  · have hmap := congrArg (List.map BitVec.toNat) hseq
    rw [List.map_map, List.map_map] at hmap
    refine hmap.trans (List.map_congr_left fun i _ ↦ ?_)
    exact Nat.mod_eq_of_lt (by omega)
  · rw [h.count_eq, h.overwritten_eq, h.total_eq, BitVec.toNat_ofNat, BitVec.toNat_ofNat,
      Nat.mod_eq_of_lt (by omega), Nat.mod_eq_of_lt hlt]
    omega
  · rw [h.total_eq, BitVec.toNat_ofNat, Nat.mod_eq_of_lt hlt]

end AuditLog

end BraneKernel
