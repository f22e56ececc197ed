import BraneKernel.Ipc.Manager

namespace BraneKernel

structure Letter where
  sender : TaskId
  msgType : MessageType
  data : Bytes
  deriving DecidableEq

def IpcMessage.letter (m : IpcMessage) : Letter := ⟨m.sender, m.msgType, m.data⟩

inductive IpcEvent
  | send (sender receiver : TaskId) (msgType : MessageType) (data : Bytes)
  | recv (taskId : TaskId)

inductive IpcAnswer
  | sent (r : SyscallResult)
  | received (l : Letter)
  | refused (e : SyscallError)
  deriving DecidableEq

def IpcManager.next (s : IpcManager) : IpcEvent → IpcManager × IpcAnswer
  | .send sender receiver msgType data =>
    match IpcMessage.new sender receiver msgType data with
    | .ok msg => ((s.send msg).1, .sent (s.send msg).2)
    | .error e => (s, .sent (.err e))
  | .recv taskId =>
    ((s.recv taskId).1,
      match (s.recv taskId).2 with
      | .ok msg => .received msg.letter
      | .error e => .refused e)

/-- One bounded first-in first-out box for every task. -/
structure Mailboxes where
  box : Fin maxQueues → List Letter
  sent : U64
  delivered : U64
  dropped : U64

namespace Mailboxes

def empty : Mailboxes := ⟨fun _ ↦ [], 0, 0, 0⟩

variable (m : Mailboxes)

def put (i : Fin maxQueues) (l : Letter) : Mailboxes where
  box := Function.update m.box i (m.box i ++ [l])
  sent := m.sent + 1
  delivered := m.delivered + 1
  dropped := m.dropped

def drop : Mailboxes := { m with sent := m.sent + 1, dropped := m.dropped + 1 }

def take (i : Fin maxQueues) (rest : List Letter) : Mailboxes :=
  { m with box := Function.update m.box i rest }

def next : IpcEvent → Mailboxes × IpcAnswer
  | .send sender receiver msgType data =>
    if maxPayload < data.length then (m, .sent (.err .invalidArgument))
    else if h : receiver.toNat < maxQueues then
      if (m.box ⟨receiver.toNat, h⟩).length < queueCapacity then
        (m.put ⟨receiver.toNat, h⟩ ⟨sender, msgType, data⟩, .sent (.ok 0))
      else (m.drop, .sent (.err .wouldBlock))
    else (m, .sent (.err .invalidDestination))
  | .recv taskId =>
    if h : taskId.toNat < maxQueues then
      match m.box ⟨taskId.toNat, h⟩ with
      | [] => (m, .refused .noMessage)
      | l :: rest => (m.take ⟨taskId.toNat, h⟩ rest, .received l)
    else (m, .refused .invalidArgument)

end Mailboxes

/-! ### The rings are mailboxes -/

namespace IpcManager

def pending (s : IpcManager) (i : Fin maxQueues) : List Letter :=
  (s.queues i).waiting.map IpcMessage.letter

def view (s : IpcManager) : Mailboxes := ⟨s.pending, s.totalSent, s.totalDelivered, s.totalDropped⟩

variable {s : IpcManager} {msgs : List IpcMessage}

theorem pending_eq {i : Fin maxQueues} (h : (s.queues i).Represents msgs) :
    s.pending i = msgs.map IpcMessage.letter := by
  rw [pending, h.waiting_eq]

theorem view_update {i : Fin maxQueues} {q : MessageQueue} (h : q.Represents msgs)
    (sent delivered dropped : U64) :
    view ⟨Function.update s.queues i q, sent, delivered, dropped⟩ =
      ⟨Function.update s.view.box i (msgs.map IpcMessage.letter), sent, delivered, dropped⟩ := by
  have hbox : pending ⟨Function.update s.queues i q, sent, delivered, dropped⟩ =
      Function.update s.pending i (msgs.map IpcMessage.letter) := by
    funext j
    rw [pending, Function.apply_update (fun _ (q : MessageQueue) ↦ q.waiting.map IpcMessage.letter),
      h.waiting_eq]
    rfl
  rw [view, hbox]
  rfl

theorem send_full {msg : IpcMessage} {h : msg.receiver.toNat < maxQueues}
    (hq : (s.queues ⟨msg.receiver.toNat, h⟩).Represents msgs)
    (hfull : queueCapacity ≤ msgs.length) :
    s.send msg = ({ s with totalSent := s.totalSent + 1, totalDropped := s.totalDropped + 1 },
      .err .wouldBlock) := by
  rw [send, dif_pos h, hq.push_full hfull]

/-- Handling `e` keeps the rings intact and is one step of the mailboxes, with their answer. -/
def Refined (s : IpcManager) (e : IpcEvent) : Prop :=
  (s.next e).1.WellFormed ∧ s.view.next e = ((s.next e).1.view, (s.next e).2)

theorem send_refined (hs : s.WellFormed) (sender receiver : TaskId) (msgType : MessageType)
    (data : Bytes) : s.Refined (.send sender receiver msgType data) := by
  simp only [Refined, next, Mailboxes.next]
  by_cases hlen : maxPayload < data.length
  · have hnew : IpcMessage.new sender receiver msgType data = .error .invalidArgument :=
      dif_pos hlen
    rw [hnew, if_pos hlen]
    exact ⟨hs, rfl⟩
  · obtain ⟨msg, hnew, rfl, rfl, rfl, rfl⟩ :=
      IpcMessage.new_of_le sender receiver msgType (Nat.le_of_not_lt hlen)
    rw [hnew, if_neg hlen]
    dsimp only
    by_cases h : msg.receiver.toNat < maxQueues
    · obtain ⟨msgs, hq⟩ := hs ⟨_, h⟩
      have hbox : s.view.box ⟨_, h⟩ = msgs.map IpcMessage.letter := pending_eq hq
      rw [dif_pos h, hbox, List.length_map]
      split_ifs with hlt
      · obtain ⟨q, hpush, hq'⟩ := hq.push hlt
        rw [send, dif_pos h, hpush]
        refine ⟨fun j ↦ wellFormed_update hs hq' j, ?_⟩
        rw [Mailboxes.put, hbox, view_update hq', List.map_append]
        rfl
      · rw [send_full hq (Nat.le_of_not_lt hlt)]
        exact ⟨hs, rfl⟩
    · rw [dif_neg h, send, dif_neg h]
      exact ⟨hs, rfl⟩

theorem recv_refined (hs : s.WellFormed) (taskId : TaskId) : s.Refined (.recv taskId) := by
  simp only [Refined, next, Mailboxes.next]
  by_cases h : taskId.toNat < maxQueues
  · obtain ⟨msgs, hq⟩ := hs ⟨_, h⟩
    have hbox : s.view.box ⟨_, h⟩ = msgs.map IpcMessage.letter := pending_eq hq
    rw [dif_pos h, hbox, recv, dif_pos h]
    cases msgs with
    | nil =>
      rw [hq.pop_nil]
      dsimp only
      rw [Function.update_eq_self]
      exact ⟨hs, rfl⟩
    | cons msg msgs =>
      obtain ⟨hmsg, hq'⟩ := hq.pop_cons
      dsimp only
      rw [hmsg]
      refine ⟨fun j ↦ wellFormed_update hs hq' j, ?_⟩
      rw [view_update hq']
      rfl
  · rw [dif_neg h, recv, dif_neg h]
    exact ⟨hs, rfl⟩

theorem next_refined (hs : s.WellFormed) (e : IpcEvent) : s.Refined e := by
  cases e with
  | send sender receiver msgType data => exact send_refined hs sender receiver msgType data
  | recv taskId => exact recv_refined hs taskId

end IpcManager

end BraneKernel
