import BraneKernel.Basic
import BraneKernel.Lib.Bytes
import BraneKernel.Lib.Checked
import BraneKernel.Lib.Trace

namespace BraneKernel

inductive Protocol
  | tcp | udp
  deriving DecidableEq

inductive SocketState
  | closed | created | bound | listening | connected | established
  deriving DecidableEq

inductive SocketError
  | notFound | tableFull | invalidState | invalidProtocol | connectionRefused | timeout | ioError
  deriving DecidableEq

structure SocketEndpoint where
  addr : Bytes.Sized 4
  port : U16
  deriving DecidableEq

def SocketEndpoint.zero : SocketEndpoint := ⟨⟨List.replicate 4 0, List.length_replicate⟩, 0⟩

structure Socket where
  id : U32
  protocol : Protocol
  state : SocketState
  localEnd : SocketEndpoint
  remoteEnd : SocketEndpoint
  ownerPid : Pid
  rxBytes : U64
  txBytes : U64
  deriving DecidableEq

namespace Socket

def empty : Socket := ⟨0, .tcp, .closed, .zero, .zero, 0, 0, 0⟩

def created (id : U32) (protocol : Protocol) (ownerPid : Pid) : Socket :=
  ⟨id, protocol, .created, .zero, .zero, ownerPid, 0, 0⟩

def isActive (s : Socket) : Bool := s.state != .closed

/-- The bytes are counted and go nowhere. -/
def transmit (s : Socket) (buf : Bytes) : Option (Except SocketError Socket) :=
  (Checked.add s.txBytes (BitVec.ofNat 64 buf.length)).map fun txBytes ↦
    .ok { s with txBytes := txBytes }

end Socket

def maxSockets : ℕ := 32

structure SocketTable where
  sockets : List Socket
  nextId : U32
  size : sockets.length = maxSockets

namespace SocketTable

def new : SocketTable := ⟨List.replicate maxSockets .empty, 1, List.length_replicate⟩

def put (t : SocketTable) (i : ℕ) (s : Socket) : SocketTable :=
  { t with sockets := t.sockets.set i s, size := List.length_set.trans t.size }

def create (t : SocketTable) (protocol : Protocol) (ownerPid : Pid) :
    Option (SocketTable × Except SocketError U32) :=
  match t.sockets.findIdx? fun s ↦ !s.isActive with
  | none => some (t, .error .tableFull)
  | some i => (Checked.add t.nextId 1).map fun nextId ↦
    ({ t.put i (.created t.nextId protocol ownerPid) with nextId := nextId }, .ok t.nextId)

def getMut (t : SocketTable) (id : U32) : Option ℕ :=
  t.sockets.findIdx? fun s ↦ s.id == id && s.isActive

def edit (t : SocketTable) (id : U32) (f : Socket → Option (Except SocketError Socket)) :
    Option (SocketTable × Except SocketError Unit) :=
  match t.getMut id with
  | none => some (t, .error .notFound)
  | some i =>
    match f (t.sockets.getD i .empty) with
    | none => none
    | some (.error e) => some (t, .error e)
    | some (.ok s) => some (t.put i s, .ok ())

def bind (t : SocketTable) (id : U32) (addr : Bytes.Sized 4) (port : U16) :
    Option (SocketTable × Except SocketError Unit) :=
  t.edit id fun s ↦
    if s.state ≠ .created then some (.error .invalidState)
    else some (.ok { s with localEnd := ⟨addr, port⟩, state := .bound })

def listen (t : SocketTable) (id : U32) : Option (SocketTable × Except SocketError Unit) :=
  t.edit id fun s ↦
    if s.protocol ≠ .tcp then some (.error .invalidProtocol)
    else if s.state ≠ .bound then some (.error .invalidState)
    else some (.ok { s with state := .listening })

def connect (t : SocketTable) (id : U32) (addr : Bytes.Sized 4) (port : U16) :
    Option (SocketTable × Except SocketError Unit) :=
  t.edit id fun s ↦ some (.ok { s with remoteEnd := ⟨addr, port⟩, state := .connected })

def close (t : SocketTable) (id : U32) : Option (SocketTable × Except SocketError Unit) :=
  t.edit id fun s ↦ some (.ok { s with state := .closed })

def send (t : SocketTable) (id : U32) (buf : Bytes) :
    Option (SocketTable × Except SocketError Unit) :=
  t.edit id fun s ↦
    if s.state ≠ .connected ∧ s.state ≠ .established then some (.error .invalidState)
    else s.transmit buf

def sendTo (t : SocketTable) (id : U32) (buf : Bytes) (_addr : Bytes.Sized 4) (_port : U16) :
    Option (SocketTable × Except SocketError Unit) :=
  t.edit id fun s ↦
    if s.state ≠ .bound ∧ s.state ≠ .connected then some (.error .invalidState)
    else s.transmit buf

def recvFrom (t : SocketTable) (id : U32) : Option (SocketTable × Except SocketError Unit) :=
  t.edit id fun s ↦
    if s.state ≠ .bound ∧ s.state ≠ .connected then some (.error .invalidState)
    else some (.error .timeout)

def activeSockets (t : SocketTable) : List Socket := t.sockets.filter Socket.isActive

def activeCount (t : SocketTable) : ℕ := t.activeSockets.length

variable {t t' : SocketTable} {id : U32}

variable {protocol : Protocol} {ownerPid : Pid}

theorem create_cases {r : Except SocketError U32} (h : t.create protocol ownerPid = some (t', r)) :
    (r = .error .tableFull ∧ t' = t ∧ ∀ s ∈ t.sockets, s.isActive = true) ∨
    ∃ i s, r = .ok t.nextId ∧ t.sockets[i]? = some s ∧ s.isActive = false ∧
      t'.sockets = t.sockets.set i (.created t.nextId protocol ownerPid) ∧
      t'.nextId.toNat = t.nextId.toNat + 1 := by
  unfold create at h
  cases hi : t.sockets.findIdx? fun s ↦ !s.isActive with
  | none =>
    rw [hi] at h
    cases h
    exact .inl ⟨rfl, rfl, fun s hs ↦ by simpa using List.findIdx?_eq_none_iff.mp hi s hs⟩
  | some i =>
    rw [hi] at h
    obtain ⟨nextId, hnext, hr⟩ := Option.map_eq_some_iff.mp h
    obtain ⟨hlt, hfree, -⟩ := List.findIdx?_eq_some_iff_getElem.mp hi
    cases hr
    exact .inr ⟨i, t.sockets[i], rfl, List.getElem?_eq_getElem hlt, by simpa using hfree, rfl,
      Checked.add_eq_some_iff.mp hnext⟩

theorem getMut_some {i : ℕ} (h : t.getMut id = some i) :
    ∃ s, t.sockets[i]? = some s ∧ s.id = id ∧ s.isActive = true ∧ t.sockets.getD i .empty = s := by
  obtain ⟨hlt, hfound, -⟩ := List.findIdx?_eq_some_iff_getElem.mp h
  rw [Bool.and_eq_true, beq_iff_eq] at hfound
  refine ⟨t.sockets[i], List.getElem?_eq_getElem hlt, hfound.1, hfound.2, ?_⟩
  rw [List.getD_eq_getElem?_getD, List.getElem?_eq_getElem hlt, Option.getD_some]

variable {f : Socket → Option (Except SocketError Socket)}

theorem edit_cases {r : Except SocketError Unit} (h : t.edit id f = some (t', r)) :
    ((∃ e, r = .error e) ∧ t' = t) ∨
    ∃ i s s', r = .ok () ∧ t.sockets[i]? = some s ∧ s.id = id ∧ s.isActive = true ∧
      f s = some (.ok s') ∧ t' = t.put i s' := by
  unfold edit at h
  cases hi : t.getMut id with
  | none =>
    rw [hi] at h
    cases h
    exact .inl ⟨⟨_, rfl⟩, rfl⟩
  | some i =>
    obtain ⟨s, hs, hid, hactive, hget⟩ := getMut_some hi
    rw [hi] at h
    dsimp only at h
    rw [hget] at h
    rcases hf : f s with _ | _ | s'
    · rw [hf] at h
      cases h
    · rw [hf] at h
      cases h
      exact .inl ⟨⟨_, rfl⟩, rfl⟩
    · rw [hf] at h
      cases h
      exact .inr ⟨i, s, s', rfl, hs, hid, hactive, hf, rfl⟩

theorem activeCount_eq (t : SocketTable) : t.activeCount = t.sockets.countP Socket.isActive :=
  List.countP_eq_length_filter.symm

theorem activeCount_le (t : SocketTable) : t.activeCount ≤ maxSockets := by
  rw [activeCount_eq, ← t.size]
  exact List.countP_le_length

theorem activeCount_eq_maxSockets_iff (t : SocketTable) :
    t.activeCount = maxSockets ↔ ∀ s ∈ t.sockets, s.isActive = true := by
  rw [activeCount_eq, ← t.size]
  exact List.countP_eq_length

theorem activeCount_create (h : t.create protocol ownerPid = some (t', .ok id)) :
    t'.activeCount = t.activeCount + 1 := by
  rcases create_cases h with ⟨hr, -⟩ | ⟨i, s, -, hs, hfree, hsockets, -⟩
  · cases hr
  · obtain ⟨hlt, hget⟩ := List.getElem?_eq_some_iff.mp hs
    rw [activeCount_eq, activeCount_eq, hsockets, List.countP_set hlt, hget, hfree]
    rfl

inductive SocketOp
  | create (protocol : Protocol) (ownerPid : Pid)
  | bind (id : U32) (addr : Bytes.Sized 4) (port : U16)
  | listen (id : U32)
  | connect (id : U32) (addr : Bytes.Sized 4) (port : U16)
  | close (id : U32)
  | send (id : U32) (buf : Bytes)
  | sendTo (id : U32) (buf : Bytes) (addr : Bytes.Sized 4) (port : U16)
  | recvFrom (id : U32)

def perform (t : SocketTable) : SocketOp → Option SocketTable
  | .create protocol ownerPid => (t.create protocol ownerPid).map Prod.fst
  | .bind id addr port => (t.bind id addr port).map Prod.fst
  | .listen id => (t.listen id).map Prod.fst
  | .connect id addr port => (t.connect id addr port).map Prod.fst
  | .close id => (t.close id).map Prod.fst
  | .send id buf => (t.send id buf).map Prod.fst
  | .sendTo id buf addr port => (t.sendTo id buf addr port).map Prod.fst
  | .recvFrom id => (t.recvFrom id).map Prod.fst

def Step (t : SocketTable) (op : SocketOp) (t' : SocketTable) : Prop := t.perform op = some t'

def Fresh (t : SocketTable) : Prop :=
  ∀ s ∈ t.sockets, s.isActive = true → s.id.toNat < t.nextId.toNat

theorem fresh_new : Fresh new := by
  intro s hs hactive
  obtain rfl := List.eq_of_mem_replicate hs
  exact absurd hactive (by decide)

theorem Fresh.create {r : Except SocketError U32} (h : Fresh t)
    (hc : t.create protocol ownerPid = some (t', r)) : Fresh t' := by
  rcases create_cases hc with ⟨-, rfl, -⟩ | ⟨i, s, -, -, -, hsockets, hnext⟩
  · exact h
  · intro u hu hactive
    rw [hsockets] at hu
    rw [hnext]
    rcases List.mem_or_eq_of_mem_set hu with hu | rfl
    · exact Nat.lt_succ_of_lt (h u hu hactive)
    · exact Nat.lt_succ_self _

theorem Fresh.edit (h : Fresh t) (hf : ∀ s s', f s = some (.ok s') → s'.id = s.id)
    (hedit : (t.edit id f).map Prod.fst = some t') : Fresh t' := by
  obtain ⟨⟨_, r⟩, he, rfl⟩ := Option.map_eq_some_iff.mp hedit
  rcases edit_cases he with ⟨-, rfl⟩ | ⟨i, s, s', -, hs, -, hactive, hfs, rfl⟩
  · exact h
  · intro u hu hu'
    rcases List.mem_or_eq_of_mem_set hu with hu | rfl
    · exact h u hu hu'
    · rw [hf s u hfs]
      exact h s (List.mem_of_getElem? hs) hactive

theorem transmit_id {s s' : Socket} {buf : Bytes} (h : s.transmit buf = some (.ok s')) :
    s'.id = s.id := by
  obtain ⟨_, -, hs⟩ := Option.map_eq_some_iff.mp h
  cases hs
  rfl

theorem Fresh.step {op : SocketOp} (h : Fresh t) (hstep : Step t op t') : Fresh t' := by
  cases op with
  | create protocol ownerPid =>
    obtain ⟨⟨_, r⟩, hc, rfl⟩ := Option.map_eq_some_iff.mp hstep
    exact h.create hc
  | bind id addr port =>
    refine h.edit (fun s s' hs ↦ ?_) hstep
    split_ifs at hs <;> cases hs
    rfl
  | listen id =>
    refine h.edit (fun s s' hs ↦ ?_) hstep
    split_ifs at hs <;> cases hs
    rfl
  | connect id addr port => exact h.edit (fun s s' hs ↦ by cases hs; rfl) hstep
  | close id => exact h.edit (fun s s' hs ↦ by cases hs; rfl) hstep
  | send id buf =>
    refine h.edit (fun s s' hs ↦ ?_) hstep
    split at hs
    · cases hs
    · exact transmit_id hs
  | sendTo id buf addr port =>
    refine h.edit (fun s s' hs ↦ ?_) hstep
    split at hs
    · cases hs
    · exact transmit_id hs
  | recvFrom id =>
    refine h.edit (fun s s' hs ↦ ?_) hstep
    split_ifs at hs <;> cases hs

theorem fresh_of_run {ops : List SocketOp} (h : Trace.Run Step new ops t) : Fresh t :=
  h.invariant fresh_new fun _ _ _ ht hstep ↦ ht.step hstep

theorem Fresh.not_sendTo_created {buf : Bytes} {addr : Bytes.Sized 4} {port : U16}
    {t'' : SocketTable} (h : Fresh t) (hc : t.create protocol ownerPid = some (t', .ok id)) :
    t'.sendTo id buf addr port ≠ some (t'', .ok ()) := by
  intro hsend
  rcases create_cases hc with ⟨hr, -⟩ | ⟨i, free, hr, -, -, hsockets, -⟩
  · cases hr
  cases hr
  rcases edit_cases hsend with ⟨⟨_, hr⟩, -⟩ | ⟨j, s, s', -, hs, hid, hactive, hfs, -⟩
  · cases hr
  have hmem := List.mem_of_getElem? hs
  rw [hsockets] at hmem
  rcases List.mem_or_eq_of_mem_set hmem with hmem | rfl
  · exact absurd (hid ▸ h s hmem hactive) (lt_irrefl _)
  · have hstate : (Socket.created t.nextId protocol ownerPid).state = .created := rfl
    rw [hstate, if_pos (by decide)] at hfs
    cases hfs

end SocketTable

end BraneKernel
