import BraneKernel.Lib.Split
import BraneKernel.Lib.Utf8

namespace BraneKernel

inductive PacketType where
  | announce
  | discover
  deriving DecidableEq

namespace PacketType

def asStr : PacketType → List Char
  | announce => "ANNOUNCE".toList
  | discover => "DISCOVER".toList

def ofStr (word : List Char) : Option PacketType :=
  if word = "ANNOUNCE".toList then some announce
  else if word = "DISCOVER".toList then some discover
  else none

theorem ofStr_asStr (t : PacketType) : ofStr t.asStr = some t := by cases t <;> decide

theorem space_notMem_asStr (t : PacketType) : ' ' ∉ t.asStr := by cases t <;> decide

end PacketType

structure DiscoveryPacket where
  ptype : PacketType
  nodeId : List Char
  name : List Char
  capabilities : List Char
  deriving DecidableEq

namespace DiscoveryPacket

def text (p : DiscoveryPacket) : List Char :=
  p.ptype.asStr ++ ' ' :: (p.nodeId ++ ' ' :: (p.name ++ ' ' :: p.capabilities))

def toBytes (p : DiscoveryPacket) : Bytes := Utf8.encode p.text

def parse (data : Bytes) : Option DiscoveryPacket := do
  let s ← Utf8.fromUtf8 data
  let parts := Split.splitn ' ' 4 s
  let ptype ← PacketType.ofStr (← parts[0]?)
  let nodeId ← parts[1]?
  let name ← parts[2]?
  some ⟨ptype, nodeId, name, parts[3]?.getD []⟩

variable {p : DiscoveryPacket}

theorem parse_some {data : Bytes} (h : parse data = some p) :
    ∃ s, (Split.splitn ' ' 4 s)[1]? = some p.nodeId ∧ (Split.splitn ' ' 4 s)[2]? = some p.name := by
  obtain ⟨s, -, h⟩ := Option.bind_eq_some_iff.mp h
  obtain ⟨word, -, h⟩ := Option.bind_eq_some_iff.mp h
  obtain ⟨ptype, -, h⟩ := Option.bind_eq_some_iff.mp h
  obtain ⟨nodeId, hnode, h⟩ := Option.bind_eq_some_iff.mp h
  obtain ⟨name, hname, h⟩ := Option.bind_eq_some_iff.mp h
  cases h
  exact ⟨s, hnode, hname⟩

theorem splitn_text (hnode : ' ' ∉ p.nodeId) (hname : ' ' ∉ p.name) :
    Split.splitn ' ' 4 p.text = [p.ptype.asStr, p.nodeId, p.name, p.capabilities] := by
  rw [text, Split.splitn_append p.ptype.space_notMem_asStr, Split.splitn_append hnode,
    Split.splitn_append hname, Split.splitn]

/-- A packet is read back exactly when no blank stands in its node id or its name. -/
theorem discovery_packet_read_back_iff (p : DiscoveryPacket) :
    parse p.toBytes = some p ↔ ' ' ∉ p.nodeId ∧ ' ' ∉ p.name := by
  constructor
  · intro h
    obtain ⟨s, hnode, hname⟩ := parse_some h
    exact ⟨Split.not_mem_splitn (by decide) hnode, Split.not_mem_splitn (by decide) hname⟩
  · intro h
    rw [parse, toBytes, Utf8.fromUtf8_encode, Option.bind_eq_bind, Option.bind_some,
      splitn_text h.1 h.2]
    simp [PacketType.ofStr_asStr]

end DiscoveryPacket

structure DiscoveryNames where
  nodeIdHex : List Char
  nodeName : List Char

namespace DiscoveryNames

def init (nodeIdHex nodeName : List Char) : DiscoveryNames := ⟨nodeIdHex, nodeName⟩

def announcement (d : DiscoveryNames) : DiscoveryPacket :=
  ⟨.announce, d.nodeIdHex, d.nodeName, "Core,Session,Network".toList⟩

/-- A node name with a blank is cut there, and its rest read as capabilities. -/
theorem announcement_name_cut :
    let p := (init "local-kernel-id".toList "my pc".toList).announcement
    DiscoveryPacket.parse p.toBytes = some
      ⟨.announce, "local-kernel-id".toList, "my".toList, "pc Core,Session,Network".toList⟩ ∧
      DiscoveryPacket.parse p.toBytes ≠ some p := by
  decide +kernel

end DiscoveryNames

end BraneKernel
