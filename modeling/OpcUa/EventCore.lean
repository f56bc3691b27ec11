import OpcUa.AddressSpaceCore
import OpcUa.SubscriptionCore

/-!
The delivery of events from `ua_subscription_events.c`: the nodes above the origin are collected
along inverse references, and the event is added to the items in the queue of each of them.

What the select clauses of an item find and how the properties of the event are set is an input,
there is memory for whatever is allocated, and the deletion of the event's node behind the delivery
is left out. The result is `none` where the fuel is not enough, and where the source follows a
pointer to nothing or reads a member that the node or the union does not have.
-/

namespace OpcUa

open StatusCode

def organizesId : NodeId := standardId 35

structure EventItem where
  sub : Nat
  mon : Nat
deriving DecidableEq, Repr

/-- `monitoredItemQueue` is a member of the nodes of objects, and says which items are linked. -/
structure EventServer (Content : Type) where
  store : Nodestore
  monitoredItemQueue : Node → List EventItem
  subscriptions : List (Subscription Content)

/-- `UA_Server_forEachChildNodeCall` for a callback with a handle. The references of the node are
copied, the last kind comes first. -/
def forEachChildNodeCall {Handle : Type} (store : Nodestore)
    (callback : NodeId → Bool → NodeId → Handle → Option (StatusCode × Handle))
    (parentNodeId : NodeId) (handle : Handle) : Option (StatusCode × Handle) :=
  match store.getNode parentNodeId with
  | none => some (badNodeIdInvalid, handle)
  | some parent =>
    parent.references.reverse.foldlM (fun (state : StatusCode × Handle) ref =>
      ref.targetIds.foldlM (fun (state : StatusCode × Handle) target =>
        (callback target.nodeId ref.isInverse ref.referenceTypeId state.2).map
          fun result => (state.1 ||| result.1, result.2)) state) (good, handle)

/-- `getParentsNodeIteratorCallback`. An id goes to the head of the list. The status of the recursion
is not looked at. -/
def getParents (store : Nodestore) (fuel : Nat) (parentId : NodeId) (isInverse : Bool)
    (_referenceTypeId : NodeId) (nodes : List NodeId) : Option (StatusCode × List NodeId) :=
  if !isInverse then some (good, nodes)
  else
    match fuel with
    | 0 => none
    | fuel + 1 =>
      (forEachChildNodeCall store (getParents store fuel) parentId (parentId :: nodes)).map
        fun result => (good, result.2)

section Delivery

variable {Content : Type} (selected : EventItem → List Content)

namespace EventServer

def subscription (server : EventServer Content) (address : Nat) : Option (Subscription Content) :=
  server.subscriptions.find? (·.address = address)

def setSubscription (server : EventServer Content) (sub : Subscription Content) :
    EventServer Content :=
  { server with
    subscriptions := server.subscriptions.map fun other =>
      if other.address = sub.address then sub else other }

def filterEvent (filter : EventFilter) (item : EventItem) : Except StatusCode (List Content) :=
  if filter.selectClausesSize = 0 then .error badEventFilterInvalid else .ok (selected item)

def addEvent (server : EventServer Content) (item : EventItem) :
    Option (StatusCode × EventServer Content) := do
  let sub ← server.subscription item.sub
  let mon ← sub.item item.mon
  match mon.filter with
  | .dataChangeFilter _ => none
  | .eventFilter filter => do
    let (status, sub) ←
      sub.addEventToMonitoredItem item.mon (filterEvent selected filter item) true
    some (status, server.setSubscription sub)

def addEvents : List EventItem → EventServer Content → Option (StatusCode × EventServer Content)
  | [], server => some (good, server)
  | item :: rest, server => do
    let (status, server) ← server.addEvent selected item
    if status ≠ good then some (status, server) else addEvents rest server

def notifyNodes : List NodeId → EventServer Content → Option (StatusCode × EventServer Content)
  | [], server => some (good, server)
  | id :: rest, server => do
    let node ← server.store.getNode id
    if node.nodeClass ≠ .object then none
    else
      let (status, server) ← addEvents selected (server.monitoredItemQueue node) server
      if status ≠ good then some (status, server) else notifyNodes rest server

/-- `UA_Server_triggerEvent`, with the status of `eventSetConstants`. -/
def triggerEvent (fuel : Nat) (server : EventServer Content) (origin : NodeId)
    (constants : StatusCode) : Option (StatusCode × EventServer Content) :=
  if !isNodeInTree server.store origin objectsFolderId [organizesId, hasComponentId] then
    some (badInvalidArgument, server)
  else if constants ≠ good then some (constants, server)
  else do
    let (_, nodes) ← getParents server.store fuel origin true ⟨0, .numeric 0⟩ []
    server.notifyNodes selected nodes

end EventServer

end Delivery

end OpcUa
