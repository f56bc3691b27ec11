import OpcUa.Library.SinglyLinked
import OpcUa.SubscriptionCore

/-!
The event items of the nodes. An object has a list of the items that monitor its events, which are
linked to each other. The callbacks for `UA_Server_editNode` put an item in front of the list and
take it out, when items are created and deleted.

Memory that was released can still be read here. The result is `none` where the source follows a
pointer to nothing, reads a member that a node does not have, or does not leave a loop.
-/

namespace OpcUa

open SinglyLinked

structure EventNode where
  isObject : Bool
  monitoredItemQueue : Option Nat
deriving DecidableEq

/-- A monitored item. It has no node if the id could not be copied. -/
structure RegisteredItem (Node : Type) where
  monitoredItemId : BitVec 32
  attributeId : Nat
  monitoredItemType : MonitoredItemType
  monitoredNodeId : Option Node
deriving DecidableEq

inductive Release where
  | free
  | delayedFree
deriving DecidableEq

structure EventItems (Node : Type) where
  nodes : Node → Option EventNode
  items : Nat → Option (RegisteredItem Node)
  next : Nat → Option Nat
  monitoredItems : Nat → List Nat
  lastMonitoredItemId : Nat → BitVec 32
  released : List (Release × Nat)
  unused : Nat

/-- What the surroundings decide is part of the request: the checks before the item is allocated,
the copies, and whether the filter is accepted. -/
structure EventItemRequest (Node : Type) where
  sub : Nat
  nodeId : Node
  attributeId : Nat
  admitted : Bool
  nodeIdCopied : Bool
  indexRangeCopied : Bool
  accepted : Bool

inductive EventItemAction (Node : Type) where
  | create (request : EventItemRequest Node)
  | modify (sub : Nat) (monitoredItemId : BitVec 32) (accepted : Bool)
  | delete (sub : Nat) (monitoredItemId : BitVec 32)
  /-- One round of the loop of `UA_Subscription_deleteMembers`. -/
  | deleteFirst (sub : Nat)

/-- The kind of an item, as `setMonitoredItemSettings` takes it from the attribute. -/
def kindOf (attributeId : Nat) : MonitoredItemType :=
  if attributeId = attributeIdEventNotifier then .eventNotify else .changeNotify

namespace EventItems

variable {Node : Type} [DecidableEq Node]

def empty (nodes : Node → Option EventNode) : EventItems Node where
  nodes := nodes
  items := fun _ => none
  next := fun _ => none
  monitoredItems := fun _ => []
  lastMonitoredItemId := fun _ => 0
  released := []
  unused := 0

section

variable (state : EventItems Node)

def setQueue (id : Node) (queue : Option Nat) : EventItems Node :=
  { state with nodes := Function.update state.nodes id (some ⟨true, queue⟩) }

/-- `UA_Server_addMonitoredItemToNodeEditNodeCallback` for the node of the item. -/
def addMonitoredItemToNode (address : Nat) : Option Node → Option (EventItems Node)
  | none => some state
  | some id =>
    match state.nodes id with
    | none => some state
    | some node =>
      if !node.isObject then none
      else
        let linked := { state with
          next := Function.update state.next address node.monitoredItemQueue }
        some (linked.setQueue id (some address))

/-- `removeMonitoredItemFromNodeCallback` for the node of the item. -/
def removeMonitoredItemFromNode (address : Nat) : Option Node → Option (EventItems Node)
  | none => some state
  | some id =>
    match state.nodes id with
    | none => some state
    | some node =>
      if !node.isObject then none
      else if node.monitoredItemQueue = some address then
        some (state.setQueue id (state.next address))
      else do
        let first ← node.monitoredItemQueue
        let found ← contains state.next address state.unused (state.next first)
        if found then
          let entry ← previous state.next address state.unused first
          some { state with
            next := Function.update state.next entry (state.next address)
            released := (.free, address) :: state.released }
        else some state

def monitoredItemDelete (address : Nat) : Option (EventItems Node) := do
  let item ← state.items address
  let state ← if item.monitoredItemType = .eventNotify then
      state.removeMonitoredItemFromNode address item.monitoredNodeId
    else some state
  some { state with released := (.delayedFree, address) :: state.released }

def allocate (item : RegisteredItem Node) : EventItems Node :=
  { state with
    items := Function.update state.items state.unused (some item)
    next := Function.update state.next state.unused none
    unused := state.unused + 1 }

/-- `UA_Subscription_addMonitoredItem` for the item that was allocated last. -/
def addMonitoredItem (sub address : Nat) : EventItems Node :=
  { state with
    monitoredItems :=
      Function.update state.monitoredItems sub (address :: state.monitoredItems sub) }

def createMonitoredItem (request : EventItemRequest Node) : Option (EventItems Node) :=
  if !request.admitted then some state
  else
    let monitoredItemType :=
      if request.accepted then kindOf request.attributeId else .changeNotify
    let monitoredNodeId := if request.nodeIdCopied then some request.nodeId else none
    if !request.nodeIdCopied || !request.indexRangeCopied || !request.accepted then
      (state.allocate ⟨0, request.attributeId, monitoredItemType, monitoredNodeId⟩).monitoredItemDelete
        state.unused
    else
      let monitoredItemId := state.lastMonitoredItemId request.sub + 1
      let numbered := { state with
        lastMonitoredItemId :=
          Function.update state.lastMonitoredItemId request.sub monitoredItemId }
      let added := (numbered.allocate ⟨monitoredItemId, request.attributeId, monitoredItemType,
        monitoredNodeId⟩).addMonitoredItem request.sub state.unused
      if monitoredItemType = .eventNotify then
        added.addMonitoredItemToNode state.unused monitoredNodeId
      else some added

def getMonitoredItem (sub : Nat) (monitoredItemId : BitVec 32) : Option Nat :=
  (state.monitoredItems sub).find? fun address =>
    (state.items address).map RegisteredItem.monitoredItemId = some monitoredItemId

def modifyMonitoredItem (sub : Nat) (monitoredItemId : BitVec 32) (accepted : Bool) :
    EventItems Node :=
  match state.getMonitoredItem sub monitoredItemId with
  | none => state
  | some address =>
    if !accepted then state
    else
      let item := (state.items address).map fun item =>
        { item with monitoredItemType := kindOf item.attributeId }
      { state with items := Function.update state.items address item }

def deleteFrom (sub address : Nat) : Option (EventItems Node) :=
  let removed := { state with
    monitoredItems :=
      Function.update state.monitoredItems sub ((state.monitoredItems sub).erase address) }
  removed.monitoredItemDelete address

def deleted : EventItemAction Node → Option (Nat × Nat)
  | .delete sub monitoredItemId =>
    (state.getMonitoredItem sub monitoredItemId).map fun address => (sub, address)
  | .deleteFirst sub => (state.monitoredItems sub).head?.map fun address => (sub, address)
  | _ => none

def deleteTarget : Option (Nat × Nat) → Option (EventItems Node)
  | none => some state
  | some (sub, address) => state.deleteFrom sub address

def perform (action : EventItemAction Node) : Option (EventItems Node) :=
  match action with
  | .create request => state.createMonitoredItem request
  | .modify sub monitoredItemId accepted =>
    some (state.modifyMonitoredItem sub monitoredItemId accepted)
  | .delete _ _ => state.deleteTarget (state.deleted action)
  | .deleteFirst _ => state.deleteTarget (state.deleted action)

def Live (address : Nat) : Prop :=
  ∃ sub, address ∈ state.monitoredItems sub

def Monitors (address : Nat) (id : Node) : Prop :=
  state.Live address ∧ ∃ item, state.items address = some item ∧
    item.monitoredItemType = .eventNotify ∧ item.monitoredNodeId = some id

def releases (address : Nat) : Nat :=
  (state.released.map Prod.snd).count address

end

inductive Reached (Allowed : EventItems Node → EventItemAction Node → Prop)
    (nodes : Node → Option EventNode) : EventItems Node → Prop
  | empty : Reached Allowed nodes (.empty nodes)
  | step {state after : EventItems Node} {action : EventItemAction Node}
      (reached : Reached Allowed nodes state) (allowed : Allowed state action)
      (performs : state.perform action = some after) : Reached Allowed nodes after

end EventItems

end OpcUa
