import BraneKernel.Lib.Bytes
import BraneKernel.Lib.Ring
import BraneKernel.Syscall.Spec

namespace BraneKernel

def maxPayload : ℕ := 4096

def queueCapacity : ℕ := 16

def maxQueues : ℕ := 64

inductive MessageType
  | request | response | notification | braneRelay
  deriving DecidableEq

/-- A message. Only the first `payloadLen` bytes of its buffer were given by the sender. -/
structure IpcMessage where
  sender : TaskId
  receiver : TaskId
  msgType : MessageType
  payloadLen : ℕ
  payload : Bytes.Sized maxPayload

namespace IpcMessage

def new (sender receiver : TaskId) (msgType : MessageType) (data : Bytes) :
    Except SyscallError IpcMessage :=
  if h : maxPayload < data.length then .error .invalidArgument
  else
    .ok ⟨sender, receiver, msgType, data.length,
      ⟨data ++ List.replicate (maxPayload - data.length) 0, by
        rw [List.length_append, List.length_replicate]
        omega⟩⟩

def data (m : IpcMessage) : Bytes := m.payload.1.take m.payloadLen

theorem new_of_le (sender receiver : TaskId) (msgType : MessageType) {data : Bytes}
    (h : data.length ≤ maxPayload) :
    ∃ m, new sender receiver msgType data = .ok m ∧ m.sender = sender ∧ m.receiver = receiver ∧
      m.msgType = msgType ∧ m.data = data :=
  ⟨_, dif_neg (Nat.not_lt_of_le h), rfl, rfl, rfl, List.take_left⟩

end IpcMessage

structure MessageQueue where
  messages : List (Option IpcMessage)
  head : ℕ
  tail : ℕ
  count : ℕ

namespace MessageQueue

def new : MessageQueue := ⟨List.replicate queueCapacity none, 0, 0, 0⟩

def push (q : MessageQueue) (msg : IpcMessage) : Except SyscallError MessageQueue :=
  if queueCapacity ≤ q.count then .error .wouldBlock
  else
    .ok { q with
      messages := q.messages.set q.tail (some msg)
      tail := (q.tail + 1) % queueCapacity
      count := q.count + 1 }

def pop (q : MessageQueue) : MessageQueue × Option IpcMessage :=
  if q.count = 0 then (q, none)
  else
    ({ q with
        messages := q.messages.set q.head none
        head := (q.head + 1) % queueCapacity
        count := q.count - 1 },
      (q.messages[q.head]?).join)

def waiting (q : MessageQueue) : List IpcMessage := Ring.read q.messages q.head q.count

structure Represents (q : MessageQueue) (msgs : List IpcMessage) : Prop where
  size : q.messages.length = queueCapacity
  holds : Ring.Holds q.messages q.head msgs
  count_eq : q.count = msgs.length
  head_lt : q.head < queueCapacity
  tail_eq : q.tail = (q.head + q.count) % queueCapacity

variable {q : MessageQueue} {msg : IpcMessage} {msgs : List IpcMessage}

theorem represents_new : new.Represents [] where
  size := List.length_replicate
  holds := Ring.holds_nil _ _
  count_eq := rfl
  head_lt := by decide
  tail_eq := rfl

theorem Represents.waiting_eq (h : q.Represents msgs) : q.waiting = msgs := by
  rw [waiting, h.count_eq]
  exact h.holds.read_eq

theorem Represents.push_full (h : q.Represents msgs) (hfull : queueCapacity ≤ msgs.length) :
    q.push msg = .error .wouldBlock := by
  rw [← h.count_eq] at hfull
  exact if_pos hfull

theorem Represents.push (h : q.Represents msgs) (hlt : msgs.length < queueCapacity) :
    ∃ q', q.push msg = .ok q' ∧ q'.Represents (msgs ++ [msg]) := by
  have hcount : ¬ queueCapacity ≤ q.count := by
    rw [h.count_eq]
    exact Nat.not_le_of_lt hlt
  refine ⟨_, if_neg hcount, ?_⟩
  have hpush := h.holds.push (h.size ▸ hlt) msg
  rw [h.size, ← h.count_eq, ← h.tail_eq] at hpush
  exact
    { size := by rw [List.length_set, h.size]
      holds := hpush
      count_eq := by rw [h.count_eq, List.length_append, List.length_singleton]
      head_lt := h.head_lt
      tail_eq := by
        dsimp only
        rw [h.tail_eq, Nat.mod_add_mod, Nat.add_assoc] }

theorem Represents.pop_nil (h : q.Represents []) : q.pop = (q, none) := if_pos h.count_eq

theorem Represents.pop_cons (h : q.Represents (msg :: msgs)) :
    q.pop.2 = some msg ∧ q.pop.1.Represents msgs := by
  have hcount : q.count ≠ 0 := by
    rw [h.count_eq]
    exact Nat.succ_ne_zero _
  have hhead : q.head % q.messages.length = q.head := by
    rw [h.size]
    exact Nat.mod_eq_of_lt h.head_lt
  have hget := h.holds.head_eq
  have hpop := h.holds.pop
  rw [hhead] at hget hpop
  rw [h.size] at hpop
  rw [pop, if_neg hcount]
  refine ⟨by rw [hget, Option.join_some], ?_⟩
  exact
    { size := by rw [List.length_set, h.size]
      holds := hpop
      count_eq := by rw [h.count_eq, List.length_cons, Nat.add_sub_cancel]
      head_lt := Nat.mod_lt _ (by decide)
      tail_eq := by
        dsimp only
        rw [h.tail_eq, h.count_eq, List.length_cons, Nat.add_sub_cancel, Nat.mod_add_mod,
          Nat.add_assoc, Nat.add_comm 1] }

end MessageQueue

structure IpcManager where
  queues : Fin maxQueues → MessageQueue
  totalSent : U64
  totalDelivered : U64
  totalDropped : U64

namespace IpcManager

def new : IpcManager := ⟨fun _ ↦ .new, 0, 0, 0⟩

variable (s : IpcManager)

def send (msg : IpcMessage) : IpcManager × SyscallResult :=
  if h : msg.receiver.toNat < maxQueues then
    match (s.queues ⟨msg.receiver.toNat, h⟩).push msg with
    | .ok q =>
      ({ queues := Function.update s.queues ⟨msg.receiver.toNat, h⟩ q
         totalSent := s.totalSent + 1
         totalDelivered := s.totalDelivered + 1
         totalDropped := s.totalDropped }, .ok 0)
    | .error e =>
      ({ s with totalSent := s.totalSent + 1, totalDropped := s.totalDropped + 1 }, .err e)
  else (s, .err .invalidDestination)

def recv (taskId : TaskId) : IpcManager × Except SyscallError IpcMessage :=
  if h : taskId.toNat < maxQueues then
    let popped := (s.queues ⟨taskId.toNat, h⟩).pop
    ({ s with queues := Function.update s.queues ⟨taskId.toNat, h⟩ popped.1 },
      match popped.2 with
      | some msg => .ok msg
      | none => .error .noMessage)
  else (s, .error .invalidArgument)

def pendingCount (taskId : TaskId) : ℕ :=
  if h : taskId.toNat < maxQueues then (s.queues ⟨taskId.toNat, h⟩).count else 0

def WellFormed : Prop := ∀ i, ∃ msgs, (s.queues i).Represents msgs

theorem wellFormed_new : new.WellFormed := fun _ ↦ ⟨[], MessageQueue.represents_new⟩

theorem wellFormed_update {s : IpcManager} (h : s.WellFormed) {i : Fin maxQueues}
    {q : MessageQueue} {msgs : List IpcMessage} (hq : q.Represents msgs) (j : Fin maxQueues) :
    ∃ msgs, (Function.update s.queues i q j).Represents msgs := by
  by_cases hj : j = i
  · subst hj
    rw [Function.update_self]
    exact ⟨msgs, hq⟩
  · rw [Function.update_of_ne hj]
    exact h j

end IpcManager

end BraneKernel
