import BraneKernel.Basic
import BraneKernel.Lib.Utf8

namespace BraneKernel

structure CapabilityOffer where
  name : List Char
  permissionsBits : BitVec 32
  riskLevel : BitVec 8
  deriving DecidableEq

def nameToBytes (name : List Char) : Bytes :=
  BitVec.ofNat 8 (Utf8.encode name).length :: Utf8.encode name

def nameFromBytes (data : Bytes) (offset : ℕ) : Option (List Char × ℕ) :=
  if h : data.length ≤ offset then none
  else
    let nameLen := (data.get ⟨offset, by omega⟩).toNat
    if h' : data.length < offset + 1 + nameLen then none
    else
      some (Utf8.fromUtf8Lossy (data.slice (offset + 1) nameLen (by omega)).1, offset + 1 + nameLen)

namespace CapabilityOffer

def toBytes (o : CapabilityOffer) : Bytes :=
  nameToBytes o.name ++ Bytes.le 4 o.permissionsBits.toNat ++ [o.riskLevel]

def fromBytes (data : Bytes) (offset : ℕ) : Option (CapabilityOffer × ℕ) :=
  match nameFromBytes data offset with
  | none => none
  | some (name, offset) =>
    if h : data.length < offset + 4 + 1 then none
    else
      let permissionsBits := BitVec.ofNat 32 (Bytes.ofLe (data.slice offset 4 (by omega)).1)
      some (⟨name, permissionsBits, data.get ⟨offset + 4, by omega⟩⟩, offset + 5)

end CapabilityOffer

def readMany {α : Type} (read : ℕ → Option (α × ℕ)) : ℕ → ℕ → Option (List α × ℕ)
  | 0, offset => some ([], offset)
  | count + 1, offset =>
    match read offset with
    | none => none
    | some (item, offset) => (readMany read count offset).map fun r ↦ (item :: r.1, r.2)

structure CapabilityNegotiation where
  offered : List CapabilityOffer
  required : List (List Char)
  nodeId : Bytes.Sized 16
  timestamp : U64
  deriving DecidableEq

namespace CapabilityNegotiation

def new (nodeId : Bytes.Sized 16) (timestamp : U64) : CapabilityNegotiation :=
  ⟨[], [], nodeId, timestamp⟩

def toBytes (n : CapabilityNegotiation) : Bytes :=
  n.nodeId.1 ++ Bytes.le 8 n.timestamp.toNat ++
    [BitVec.ofNat 8 n.offered.length] ++ n.offered.flatMap CapabilityOffer.toBytes ++
    [BitVec.ofNat 8 n.required.length] ++ n.required.flatMap nameToBytes

def fromBytes (data : Bytes) : Option CapabilityNegotiation :=
  if h : data.length < 25 then none
  else
    let nodeId := data.slice 0 16 (by omega)
    let timestamp := BitVec.ofNat 64 (Bytes.ofLe (data.slice 16 8 (by omega)).1)
    let offeredCount := (data.get ⟨24, by omega⟩).toNat
    match readMany (CapabilityOffer.fromBytes data) offeredCount 25 with
    | none => none
    | some (offered, offset) =>
      if h' : data.length ≤ offset then none
      else
        let requiredCount := (data.get ⟨offset, by omega⟩).toNat
        match readMany (nameFromBytes data) requiredCount (offset + 1) with
        | none => none
        | some (required, _) => some ⟨offered, required, nodeId, timestamp⟩

end CapabilityNegotiation

end BraneKernel
