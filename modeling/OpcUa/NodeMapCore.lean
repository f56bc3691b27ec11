import OpcUa.Types
import OpcUa.Library.DoubleHashing

/-!
The default nodestore of `ua_nodestore_default.c`: a hash map from node ids to nodes with double
hashing and tombstones, and the comparison and the hash of node ids in `ua_types.c`.
-/

namespace OpcUa

open DoubleHashing LittleEndian

/-! Node ids as keys -/

def stringEqual (first second : UaString) : Bool := first.bytes == second.bytes

def nodeIdEqual (first second : NodeId) : Bool :=
  first.namespaceIndex == second.namespaceIndex &&
    match first.identifier, second.identifier with
    | .numeric one, .numeric two => one == two
    | .string one, .string two => stringEqual one two
    | .guid one, .guid two => one == two
    | .byteString one, .byteString two => stringEqual one two
    | _, _ => false

def fnvPrime32 : BitVec 32 := 16777619

def fnv32 (fnv : BitVec 32) (buffer : List Byte) : BitVec 32 :=
  buffer.foldl (fun fnv byte => (fnv ^^^ byte.setWidth 32) * fnvPrime32) fnv

/-- The 16 bytes of a `UA_Guid` in the memory of a little-endian machine. -/
def Guid.memory (guid : Guid) : List Byte :=
  leBytes 4 guid.data1.toNat ++ leBytes 2 guid.data2.toNat ++ leBytes 2 guid.data3.toNat ++
    leBytes 8 guid.data4.toNat

def nodeIdHash (nodeId : NodeId) : Nat :=
  match nodeId.identifier with
  | .numeric value =>
    (nodeId.namespaceIndex.toNat + value.toNat * 2654435761 % 2 ^ 64 / 2 ^ 32) % 2 ^ 32
  | .string value => (fnv32 (nodeId.namespaceIndex.setWidth 32) value.bytes).toNat
  | .byteString value => (fnv32 (nodeId.namespaceIndex.setWidth 32) value.bytes).toNat
  | .guid value => (fnv32 (nodeId.namespaceIndex.setWidth 32) value.memory).toNat

theorem nodeIdEqual_refl (nodeId : NodeId) : nodeIdEqual nodeId nodeId = true := by
  obtain ⟨_, identifier⟩ := nodeId
  cases identifier with
  | numeric value => simp [nodeIdEqual]
  | string value => simp [nodeIdEqual, stringEqual]
  | guid value => simp [nodeIdEqual]
  | byteString value => simp [nodeIdEqual, stringEqual]

def NodeId.content (nodeId : NodeId) : BitVec 16 × (BitVec 32 ⊕ List Byte ⊕ Guid ⊕ List Byte) :=
  (nodeId.namespaceIndex,
    match nodeId.identifier with
    | .numeric value => .inl value
    | .string value => .inr (.inl value.bytes)
    | .guid value => .inr (.inr (.inl value))
    | .byteString value => .inr (.inr (.inr value.bytes)))

theorem nodeIdEqual_iff (first second : NodeId) :
    nodeIdEqual first second = true ↔ first.content = second.content := by
  obtain ⟨_, one⟩ := first
  obtain ⟨_, two⟩ := second
  cases one <;> cases two <;> simp [nodeIdEqual, NodeId.content, stringEqual]

theorem nodeIdHash_congr {first second : NodeId} (equal : nodeIdEqual first second = true) :
    nodeIdHash first = nodeIdHash second := by
  obtain ⟨_, one⟩ := first
  obtain ⟨_, two⟩ := second
  cases one <;> cases two <;> simp_all [nodeIdEqual, stringEqual, nodeIdHash]

def nodeIdHashing : Hashing NodeId where
  equal := nodeIdEqual
  hash := nodeIdHash
  refl := nodeIdEqual_refl
  symm equal := (nodeIdEqual_iff _ _).mpr ((nodeIdEqual_iff _ _).mp equal).symm
  trans one two :=
    (nodeIdEqual_iff _ _).mpr (((nodeIdEqual_iff _ _).mp one).trans ((nodeIdEqual_iff _ _).mp two))
  hash_eq := nodeIdHash_congr

def nodeMapMinSize : Nat := 64

def primes : List Nat :=
  [7, 13, 31, 61, 127, 251, 509, 1021, 2039, 4093, 8191, 16381,
    32749, 65521, 131071, 262139, 524287, 1048573,
    2097143, 4194301, 8388593, 16777213, 33554393, 67108859,
    134217689, 268435399, 536870909, 1073741789, 2147483647, 4294967291]

def higherPrimeIndexFrom (number : Nat) : Nat → Nat → Nat → Nat
  | 0, low, _ => low
  | fuel + 1, low, high =>
    if low = high then low
    else
      let mid := low + (high - low) / 2
      if number > primes.getD mid 0 then higherPrimeIndexFrom number fuel (mid + 1) high
      else higherPrimeIndexFrom number fuel low mid

def higherPrimeIndex (number : Nat) : Nat :=
  higherPrimeIndexFrom number primes.length 0 primes.length

/-- `UA_NodeMapEntry`, with its address and the one of the entry it is a copy of. -/
structure NodeMapEntry (Node : Type) where
  address : Nat
  orig : Option Nat
  nodeId : NodeId
  node : Node
deriving DecidableEq

structure NodeMap (Node : Type) where
  entries : List (Slot (NodeMapEntry Node))
  count : Nat
deriving DecidableEq

/-- How an operation can fail to return: a search does not end, no identifier is left to try, an
assertion fails, or the table of primes is read behind its end. -/
inductive NodeMapFault where
  | diverges
  | identifiers
  | assertion
  | outOfBounds
deriving DecidableEq

structure NodeMapMemory where
  entries : Bool
  nodeId : Bool

namespace NodeMap

variable {Node : Type}

def size (ns : NodeMap Node) : Nat := ns.entries.length

def new : NodeMap Node where
  entries := List.replicate (primes.getD (higherPrimeIndex nodeMapMinSize) 0) .null
  count := 0

def findFreeSlot (ns : NodeMap Node) (nodeId : NodeId) : Except NodeMapFault (Option Nat) :=
  match findFree nodeIdHashing NodeMapEntry.nodeId ns.entries nodeId with
  | some slot => .ok slot
  | none => .error .diverges

def findOccupiedSlot (ns : NodeMap Node) (nodeId : NodeId) : Except NodeMapFault (Option Nat) :=
  match findOccupied nodeIdHashing NodeMapEntry.nodeId ns.entries nodeId with
  | some slot => .ok slot
  | none => .error .diverges

def expand (memory : NodeMapMemory) (ns : NodeMap Node) :
    Except NodeMapFault (StatusCode × NodeMap Node) :=
  -- neither too full nor too empty
  if ns.count * 2 % 2 ^ 32 < ns.size ∧
      (ns.count * 8 % 2 ^ 32 > ns.size ∨ ns.size ≤ nodeMapMinSize) then
    .ok (.good, ns)
  else
    match primes[higherPrimeIndex (ns.count * 2 % 2 ^ 32)]? with
    | none => .error .outOfBounds
    | some nsize =>
      if !memory.entries then .ok (.badOutOfMemory, ns)
      else
        match moveEntries nodeIdHashing NodeMapEntry.nodeId ns.entries ns.count
            (List.replicate nsize .null) with
        | some (some entries) => .ok (.good, ⟨entries, ns.count⟩)
        | some none => .error .assertion
        | none => .error .diverges

def clearSlot (memory : NodeMapMemory) (ns : NodeMap Node) (slot : Nat) :
    Except NodeMapFault (StatusCode × NodeMap Node) :=
  let ns : NodeMap Node := ⟨ns.entries.set slot .tombstone, (ns.count + 2 ^ 32 - 1) % 2 ^ 32⟩
  if ns.count * 8 % 2 ^ 32 < ns.size ∧ ns.size > 32 then
    match ns.expand memory with
    -- can fail, the bigger map stays
    | .ok (_, ns) => .ok (.good, ns)
    | .error fault => .error fault
  else .ok (.good, ns)

def getNode (ns : NodeMap Node) (nodeId : NodeId) :
    Except NodeMapFault (Option (NodeMapEntry Node)) :=
  match ns.findOccupiedSlot nodeId with
  | .error fault => .error fault
  | .ok none => .ok none
  | .ok (some slot) =>
    match slotAt ns.entries slot with
    | .entry node => .ok (some node)
    | _ => .ok none

def removeNode (memory : NodeMapMemory) (ns : NodeMap Node) (nodeId : NodeId) :
    Except NodeMapFault (StatusCode × NodeMap Node) :=
  match ns.findOccupiedSlot nodeId with
  | .error fault => .error fault
  | .ok none => .ok (.badNodeIdUnknown, ns)
  | .ok (some slot) => ns.clearSlot memory slot

def tryIdentifiers (ns : NodeMap Node) (node : NodeMapEntry Node) (increase startId : Nat) :
    Nat → Nat → Except NodeMapFault (NodeMapEntry Node × Option Nat)
  | 0, _ => .error .identifiers
  | fuel + 1, identifier =>
    let node := { node with nodeId := ⟨node.nodeId.namespaceIndex,
      .numeric (BitVec.ofNat 32 identifier)⟩ }
    match ns.findFreeSlot node.nodeId with
    | .error fault => .error fault
    | .ok (some slot) => .ok (node, some slot)
    | .ok none =>
      let next := advance ns.size increase identifier
      if next % 2 ^ 32 ≠ startId then ns.tryIdentifiers node increase startId fuel next
      else .ok (node, none)

/-- The first identifier that is tried, at least 50000 to stay clear of the ones of the
specification. -/
def startIdentifier (ns : NodeMap Node) : Nat := (50000 + ns.size + 1) % 2 ^ 32 % (2 ^ 32 - 1)

/-- The slot for a node. A node with the numeric identifier 0 gets a new one. -/
def chooseSlot (ns : NodeMap Node) (node : NodeMapEntry Node) :
    Except NodeMapFault (NodeMapEntry Node × Option Nat) :=
  if node.nodeId.identifier = .numeric 0 then
    ns.tryIdentifiers node (strideOf ns.size ((ns.count + 1) % 2 ^ 32)) ns.startIdentifier
      (ns.startIdentifier + ns.size + 1) ns.startIdentifier
  else
    match ns.findFreeSlot node.nodeId with
    | .error fault => .error fault
    | .ok slot => .ok (node, slot)

def copiesNodeId (memory : NodeMapMemory) (nodeId : NodeId) : Bool :=
  match nodeId.identifier with
  | .string value => memory.nodeId || value.length == 0
  | .byteString value => memory.nodeId || value.length == 0
  | _ => true

/-- The node is in the result with the identifier it was given. -/
def insertNode (memory : NodeMapMemory) (ns : NodeMap Node) (node : NodeMapEntry Node)
    (wantsId : Bool) : Except NodeMapFault (StatusCode × NodeMapEntry Node × NodeMap Node) :=
  let enlarged :=
    if ns.size * 3 % 2 ^ 32 ≤ ns.count * 4 % 2 ^ 32 then ns.expand memory else .ok (.good, ns)
  match enlarged with
  | .error fault => .error fault
  | .ok (status, ns) =>
    if status ≠ .good then .ok (.badInternalError, node, ns)
    else
      match ns.chooseSlot node with
      | .error fault => .error fault
      | .ok (node, none) => .ok (.badNodeIdExists, node, ns)
      | .ok (node, some slot) =>
        if wantsId && !copiesNodeId memory node.nodeId then .ok (.badOutOfMemory, node, ns)
        else if (slotAt ns.entries slot).isEntry then .ok (.badNodeIdExists, node, ns)
        else .ok (.good, node, ⟨ns.entries.set slot (.entry node), (ns.count + 1) % 2 ^ 32⟩)

def replaceNode (ns : NodeMap Node) (node : NodeMapEntry Node) :
    Except NodeMapFault (StatusCode × NodeMap Node) :=
  match ns.findOccupiedSlot node.nodeId with
  | .error fault => .error fault
  | .ok none => .ok (.badNodeIdUnknown, ns)
  | .ok (some slot) =>
    match slotAt ns.entries slot with
    | .entry old =>
      -- the node was already updated since the copy was made
      if some old.address ≠ node.orig then .ok (.badInternalError, ns)
      else .ok (.good, ⟨ns.entries.set slot (.entry node), ns.count⟩)
    | _ => .ok (.badInternalError, ns)

end NodeMap

end OpcUa
