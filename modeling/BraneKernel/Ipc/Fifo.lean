import BraneKernel.Ipc.Mailboxes
import BraneKernel.Lib.Trace
import Mathlib.Algebra.BigOperators.Group.Finset.Basic
import Mathlib.Data.Fintype.BigOperators

namespace BraneKernel

open Trace

def acceptedBy (i : Fin maxQueues) : IpcEvent × IpcAnswer → Option Letter
  | (.send sender receiver msgType data, .sent (.ok _)) =>
    if receiver.toNat = i then some ⟨sender, msgType, data⟩ else none
  | _ => none

def returnedBy (i : Fin maxQueues) : IpcEvent × IpcAnswer → Option Letter
  | (.recv taskId, .received l) => if taskId.toNat = i then some l else none
  | _ => none

def accepted (i : Fin maxQueues) (log : List (IpcEvent × IpcAnswer)) : List Letter :=
  log.filterMap (acceptedBy i)

def returned (i : Fin maxQueues) (log : List (IpcEvent × IpcAnswer)) : List Letter :=
  log.filterMap (returnedBy i)

def isReceived : IpcEvent × IpcAnswer → Bool
  | (_, .received _) => true
  | _ => false

def isDropped (x : IpcEvent × IpcAnswer) : Bool := x.2 = .sent (.err .wouldBlock)

def receivedCount (log : List (IpcEvent × IpcAnswer)) : ℕ := log.countP isReceived

def droppedCount (log : List (IpcEvent × IpcAnswer)) : ℕ := log.countP isDropped

namespace Mailboxes

theorem sum_length_update (box : Fin maxQueues → List Letter) (i : Fin maxQueues)
    (l : List Letter) :
    ∑ j, (Function.update box i l j).length + (box i).length =
      ∑ j, (box j).length + l.length := by
  have hupd : (fun j ↦ (Function.update box i l j).length) =
      Function.update (fun j ↦ (box j).length) i l.length := by
    funext j
    exact Function.apply_update (fun _ (l : List Letter) ↦ l.length) box i l j
  rw [hupd, Finset.sum_update_of_mem (Finset.mem_univ i),
    Finset.sum_eq_add_sum_sdiff_singleton_of_mem (Finset.mem_univ i) fun j ↦ (box j).length]
  omega

/-- The counters after `n` calls, `received` of which took a letter out and `dropped` of which
found a full box. They are kept modulo `2 ^ 64`. -/
structure Counted (m : Mailboxes) (received dropped n : ℕ) : Prop where
  sent_eq : m.sent = m.delivered + m.dropped
  delivered_eq : m.delivered = BitVec.ofNat 64 (received + ∑ i, (m.box i).length)
  dropped_eq : m.dropped = BitVec.ofNat 64 dropped
  counted_le : received + ∑ i, (m.box i).length + dropped ≤ n

section Counted

variable {m : Mailboxes} {received dropped n : ℕ} (h : m.Counted received dropped n)
include h

theorem Counted.idle : m.Counted received dropped (n + 1) :=
  { h with counted_le := h.counted_le.trans n.le_succ }

theorem Counted.drop : m.drop.Counted received (dropped + 1) (n + 1) where
  sent_eq := by rw [Mailboxes.drop, h.sent_eq, BitVec.add_assoc]
  delivered_eq := h.delivered_eq
  dropped_eq := by rw [BitVec.ofNat_add, ← h.dropped_eq]; rfl
  counted_le := Nat.succ_le_succ h.counted_le

theorem Counted.put (i : Fin maxQueues) (l : Letter) :
    (m.put i l).Counted received dropped (n + 1) := by
  have hsum := sum_length_update m.box i (m.box i ++ [l])
  rw [List.length_append, List.length_singleton, ← Nat.add_assoc, Nat.add_right_comm,
    Nat.add_right_cancel_iff] at hsum
  refine ⟨?_, ?_, h.dropped_eq, ?_⟩
  · rw [Mailboxes.put, h.sent_eq, BitVec.add_assoc, BitVec.add_assoc, BitVec.add_comm m.dropped]
  · rw [Mailboxes.put, hsum, ← Nat.add_assoc, BitVec.ofNat_add _ 1, ← h.delivered_eq]
    rfl
  · have hle := h.counted_le
    rw [Mailboxes.put, hsum]
    omega

theorem Counted.take {i : Fin maxQueues} {l : Letter} {rest : List Letter}
    (hbox : m.box i = l :: rest) : (m.take i rest).Counted (received + 1) dropped (n + 1) := by
  have hsum := sum_length_update m.box i rest
  rw [hbox, List.length_cons, ← Nat.add_assoc, Nat.add_right_comm,
    Nat.add_right_cancel_iff] at hsum
  have htotal : received + 1 + ∑ j, ((m.take i rest).box j).length =
      received + ∑ j, (m.box j).length := by
    rw [← hsum, Mailboxes.take, Nat.add_assoc, Nat.add_comm 1]
  refine ⟨h.sent_eq, ?_, h.dropped_eq, ?_⟩
  · rw [htotal]
    exact h.delivered_eq
  · rw [htotal]
    exact h.counted_le.trans n.le_succ

theorem Counted.exact (hn : n < 2 ^ 64) :
    m.sent.toNat = m.delivered.toNat + m.dropped.toNat ∧
      m.delivered.toNat = received + ∑ i, (m.box i).length := by
  have hle := h.counted_le
  have hdelivered : m.delivered.toNat = received + ∑ i, (m.box i).length := by
    rw [h.delivered_eq, BitVec.toNat_ofNat, Nat.mod_eq_of_lt (by omega)]
  have hdropped : m.dropped.toNat = dropped := by
    rw [h.dropped_eq, BitVec.toNat_ofNat, Nat.mod_eq_of_lt (by omega)]
  refine ⟨?_, hdelivered⟩
  rw [h.sent_eq, BitVec.toNat_add_of_lt (by omega)]

end Counted

/-- What the boxes hold is what was put in and not yet taken out, in order. -/
structure Balanced (log : List (IpcEvent × IpcAnswer)) (m : Mailboxes) : Prop where
  order : ∀ i, accepted i log = returned i log ++ m.box i
  bounded : ∀ i, (m.box i).length ≤ queueCapacity
  counted : m.Counted (receivedCount log) (droppedCount log) log.length

theorem balanced_empty : Balanced [] empty where
  order _ := rfl
  bounded _ := Nat.zero_le _
  counted := ⟨rfl, by simp [empty, receivedCount], rfl, by simp [empty, receivedCount, droppedCount]⟩

variable {log : List (IpcEvent × IpcAnswer)} {m m' : Mailboxes} {x : IpcEvent × IpcAnswer}

theorem accepted_snoc (i : Fin maxQueues) (log : List (IpcEvent × IpcAnswer))
    (x : IpcEvent × IpcAnswer) :
    accepted i (log ++ [x]) = accepted i log ++ (acceptedBy i x).toList := by
  cases h : acceptedBy i x <;> simp [accepted, h]

theorem returned_snoc (i : Fin maxQueues) (log : List (IpcEvent × IpcAnswer))
    (x : IpcEvent × IpcAnswer) :
    returned i (log ++ [x]) = returned i log ++ (returnedBy i x).toList := by
  cases h : returnedBy i x <;> simp [returned, h]

theorem counted_snoc (h : m.Counted (receivedCount log + (isReceived x).toNat)
      (droppedCount log + (isDropped x).toNat) (log.length + 1)) :
    m.Counted (receivedCount (log ++ [x])) (droppedCount (log ++ [x])) (log ++ [x]).length := by
  rw [receivedCount, droppedCount, List.countP_append, List.countP_append, List.length_append]
  cases hr : isReceived x <;> cases hd : isDropped x <;>
    simpa [hr, hd, receivedCount, droppedCount] using h

theorem Balanced.keep (h : Balanced log m) (ha : ∀ i, acceptedBy i x = none)
    (hr : ∀ i, returnedBy i x = none) (hbox : m'.box = m.box)
    (hm : m'.Counted (receivedCount log + (isReceived x).toNat)
      (droppedCount log + (isDropped x).toNat) (log.length + 1)) :
    Balanced (log ++ [x]) m' where
  order i := by
    rw [accepted_snoc, returned_snoc, ha, hr, Option.toList_none, List.append_nil, List.append_nil,
      hbox]
    exact h.order i
  bounded := by
    rw [hbox]
    exact h.bounded
  counted := counted_snoc hm

theorem Balanced.idle (h : Balanced log m) (ha : ∀ i, acceptedBy i x = none)
    (hr : ∀ i, returnedBy i x = none) (hx : isReceived x = false) (hd : isDropped x = false) :
    Balanced (log ++ [x]) m := by
  refine h.keep ha hr rfl ?_
  rw [hx, hd]
  exact h.counted.idle

theorem put_box (m : Mailboxes) (i : Fin maxQueues) (l : Letter) :
    (m.put i l).box = Function.update m.box i (m.box i ++ [l]) := rfl

theorem take_box (m : Mailboxes) (i : Fin maxQueues) (rest : List Letter) :
    (m.take i rest).box = Function.update m.box i rest := rfl

variable {i : Fin maxQueues}

theorem Balanced.bounded_update (h : Balanced log m) {letters : List Letter}
    (hletters : letters.length ≤ queueCapacity) (j : Fin maxQueues) :
    (Function.update m.box i letters j).length ≤ queueCapacity := by
  by_cases hj : j = i
  · subst hj
    rwa [Function.update_self]
  · rw [Function.update_of_ne hj]
    exact h.bounded j

theorem Balanced.put (h : Balanced log m) {l : Letter} (hlt : (m.box i).length < queueCapacity)
    (ha : ∀ j, acceptedBy j x = if j = i then some l else none) (hr : ∀ j, returnedBy j x = none)
    (hx : isReceived x = false) (hd : isDropped x = false) :
    Balanced (log ++ [x]) (m.put i l) where
  order j := by
    rw [accepted_snoc, returned_snoc, ha, hr, Option.toList_none, List.append_nil, h.order j,
      put_box]
    by_cases hj : j = i
    · subst hj
      rw [if_pos rfl, Function.update_self, List.append_assoc]
      rfl
    · rw [if_neg hj, Function.update_of_ne hj, Option.toList_none, List.append_nil]
  bounded := by
    refine h.bounded_update ?_
    rw [List.length_append]
    exact hlt
  counted := by
    refine counted_snoc ?_
    rw [hx, hd]
    exact h.counted.put i l

theorem Balanced.take (h : Balanced log m) {l : Letter} {rest : List Letter}
    (hbox : m.box i = l :: rest) (ha : ∀ j, acceptedBy j x = none)
    (hr : ∀ j, returnedBy j x = if j = i then some l else none) (hx : isReceived x = true)
    (hd : isDropped x = false) : Balanced (log ++ [x]) (m.take i rest) where
  order j := by
    rw [accepted_snoc, returned_snoc, ha, hr, Option.toList_none, List.append_nil, h.order j,
      take_box]
    by_cases hj : j = i
    · subst hj
      rw [if_pos rfl, Function.update_self, hbox, List.append_assoc]
      rfl
    · rw [if_neg hj, Function.update_of_ne hj, Option.toList_none, List.append_nil]
  bounded := by
    refine h.bounded_update ?_
    have hb := h.bounded i
    rw [hbox] at hb
    exact Nat.le_of_succ_le hb
  counted := by
    refine counted_snoc ?_
    rw [hx, hd]
    exact h.counted.take hbox

theorem Balanced.next (h : Balanced log m) (e : IpcEvent) :
    Balanced (log ++ [(e, (m.next e).2)]) (m.next e).1 := by
  cases e with
  | send sender receiver msgType data =>
    simp only [Mailboxes.next]
    split_ifs with hlen hr hlt
    · exact h.idle (fun _ ↦ rfl) (fun _ ↦ rfl) rfl rfl
    · refine h.put hlt (fun j ↦ ?_) (fun _ ↦ rfl) rfl rfl
      simp only [acceptedBy, Fin.ext_iff, eq_comm]
    · exact h.keep (fun _ ↦ rfl) (fun _ ↦ rfl) rfl h.counted.drop
    · exact h.idle (fun _ ↦ rfl) (fun _ ↦ rfl) rfl rfl
  | recv taskId =>
    simp only [Mailboxes.next]
    split_ifs with hr
    · cases hbox : m.box ⟨taskId.toNat, hr⟩ with
      | nil => exact h.idle (fun _ ↦ rfl) (fun _ ↦ rfl) rfl rfl
      | cons l rest =>
        refine h.take hbox (fun _ ↦ rfl) (fun j ↦ ?_) rfl rfl
        simp only [returnedBy, Fin.ext_iff, eq_comm]
    · exact h.idle (fun _ ↦ rfl) (fun _ ↦ rfl) rfl rfl

end Mailboxes

namespace IpcManager

def Step (s : IpcManager) (x : IpcEvent × IpcAnswer) (s' : IpcManager) : Prop :=
  s.next x.1 = (s', x.2)

variable {log : List (IpcEvent × IpcAnswer)} {s : IpcManager}

theorem run_balanced (h : Run Step new log s) : s.WellFormed ∧ s.view.Balanced log := by
  refine h.history (I := fun log s ↦ s.WellFormed ∧ s.view.Balanced log)
    ⟨wellFormed_new, Mailboxes.balanced_empty⟩ ?_
  intro log s x s' hs hx
  obtain ⟨hwf, hview⟩ := next_refined hs.1 x.1
  have hb := hs.2.next x.1
  rw [hview] at hb
  rw [Step] at hx
  rw [hx] at hwf hb
  exact ⟨hwf, hb⟩

/-- Along every history the kernel's rings answer as independent bounded first-in first-out boxes
do. In each box the letters put in are those taken out followed by those waiting. The counters agree
modulo `2 ^ 64`, and agree exactly in a history of fewer calls than that. -/
theorem ipc_refines_fifo (h : Run Step new log s) :
    (∀ e, s.view.next e = ((s.next e).1.view, (s.next e).2)) ∧
      (∀ i, accepted i log = returned i log ++ s.pending i) ∧
      (∀ i : Fin maxQueues, (s.queues i).count = (s.pending i).length ∧
        (s.pending i).length ≤ queueCapacity) ∧
      (∀ msg : IpcMessage, s.pendingCount msg.receiver = queueCapacity →
        (s.send msg).2 = .err .wouldBlock ∧ (s.send msg).1.queues = s.queues) ∧
      s.totalSent = s.totalDelivered + s.totalDropped ∧
      s.totalDelivered = BitVec.ofNat 64 (receivedCount log + ∑ i, (s.pending i).length) ∧
      s.totalDropped = BitVec.ofNat 64 (droppedCount log) ∧
      (log.length < 2 ^ 64 →
        s.totalSent.toNat = s.totalDelivered.toNat + s.totalDropped.toNat ∧
          s.totalDelivered.toNat = receivedCount log + ∑ i, (s.pending i).length) := by
  obtain ⟨hwf, hb⟩ := run_balanced h
  refine ⟨fun e ↦ (next_refined hwf e).2, hb.order, fun i ↦ ⟨?_, hb.bounded i⟩, ?_,
    hb.counted.sent_eq, hb.counted.delivered_eq, hb.counted.dropped_eq, hb.counted.exact⟩
  · obtain ⟨msgs, hq⟩ := hwf i
    rw [pending_eq hq, List.length_map, hq.count_eq]
  · intro msg hfull
    by_cases hr : msg.receiver.toNat < maxQueues
    · obtain ⟨msgs, hq⟩ := hwf ⟨_, hr⟩
      rw [pendingCount, dif_pos hr, hq.count_eq] at hfull
      rw [send_full hq hfull.ge]
      exact ⟨rfl, rfl⟩
    · rw [pendingCount, dif_neg hr] at hfull
      exact absurd hfull (by decide)

theorem ipc_refines_fifo_two_senders :
    let log : List (IpcEvent × IpcAnswer) :=
      [(.send 1 7 .notification [0xAB], .sent (.ok 0)), (.send 2 7 .request [], .sent (.ok 0)),
        (.recv 7, .received ⟨1, .notification, [0xAB]⟩)]
    ∃ s, Run Step new log s ∧ (∀ i, accepted i log = returned i log ++ s.pending i) ∧
      s.totalDelivered.toNat = receivedCount log + ∑ i, (s.pending i).length := by
  intro log
  obtain ⟨s, hs⟩ := Option.isSome_iff_exists.mp (show (log.foldlM (fun s x ↦
    if (next s x.1).2 = x.2 then some (next s x.1).1 else none) new).isSome = true
      by decide +kernel)
  have hrun : Run Step new log s := by
    refine .of_next (fun s x s' hx ↦ ?_) hs
    split_ifs at hx with ha
    exact Prod.ext (Option.some.inj hx) ha
  obtain ⟨-, horder, -, -, -, -, -, hexact⟩ := ipc_refines_fifo hrun
  exact ⟨s, hrun, horder, (hexact (by decide)).2⟩

end IpcManager

end BraneKernel
