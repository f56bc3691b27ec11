import OpcUa.SessionCore

/-!
The monitored items on the side of the client, from `ua_client_subscriptions.c`: how they are
created and deleted, and which callback gets a notification. The publish requests and the
acknowledgements of the client are left out.

A request that the client sends either does not reach the server or is answered.
-/

namespace OpcUa

variable {Content : Type}

/-- `UA_Client_MonitoredItem`. The handler is the callback with its context. The address is the one
of the item in the server, for the proofs. -/
structure ClientMonitoredItem where
  clientHandle : BitVec 32
  monitoredItemId : BitVec 32
  isEventMonitoredItem : Bool
  handler : Nat
  mon : Nat
deriving DecidableEq, Repr

structure ClientSubscription where
  subscriptionId : BitVec 32
  statusChangeCallback : Bool
  monitoredItems : List ClientMonitoredItem
deriving DecidableEq, Repr

structure Client where
  monitoredItemHandles : BitVec 32
  subscriptions : List ClientSubscription
deriving DecidableEq, Repr

def Client.findSubscription (client : Client) (subscriptionId : BitVec 32) :
    Option ClientSubscription :=
  client.subscriptions.find? (·.subscriptionId = subscriptionId)

def Client.setItems (client : Client) (subscriptionId : BitVec 32)
    (monitoredItems : List ClientMonitoredItem) : Client :=
  { client with
    subscriptions := client.subscriptions.map fun sub =>
      if sub.subscriptionId = subscriptionId then { sub with monitoredItems } else sub }

/-! Creation and deletion of items -/

structure ItemToCreate (Content : Type) where
  request : MonitoredItemCreateRequest Content
  handler : Nat

def ItemToCreate.withHandle (item : ItemToCreate Content) (clientHandle : BitVec 32) :
    ItemToCreate Content :=
  { item with
    request := { item.request with
      requestedParameters := { item.request.requestedParameters with clientHandle } } }

def setClientHandles (handles : BitVec 32) : List (ItemToCreate Content) →
    List (ItemToCreate Content)
  | [] => []
  | item :: rest => item.withHandle (handles + 1) :: setClientHandles (handles + 1) rest

def createAddressed (config : SubscriptionConfig) (sub : Subscription Content)
    (request : MonitoredItemCreateRequest Content) :
    Option ((MonitoredItemCreateResult × Nat) × Subscription Content) := do
  let (result, after) ← sub.createMonitoredItem config request
  some ((result, sub.unusedItem), after)

def newClientItem (item : ItemToCreate Content) (result : MonitoredItemCreateResult) (mon : Nat) :
    ClientMonitoredItem where
  clientHandle := item.request.requestedParameters.clientHandle
  monitoredItemId := result.monitoredItemId
  isEventMonitoredItem := item.request.attributeId = attributeIdEventNotifier
  handler := item.handler
  mon := mon

def addInternally : List (ItemToCreate Content) → List (MonitoredItemCreateResult × Nat) →
    List ClientMonitoredItem → List ClientMonitoredItem
  | item :: rest, (result, mon) :: results, items =>
    addInternally rest results
      (if result.statusCode = .good then newClientItem item result mon :: items else items)
  | _, _, items => items

/-- `__UA_Client_MonitoredItems_create` with the work of the server in between. -/
def monitoredItemsCreate (config : SubscriptionConfig) (client : Client)
    (sub : Subscription Content) (reached : Bool) (itemsToCreate : List (ItemToCreate Content)) :
    Option (Client × Subscription Content) :=
  match client.findSubscription sub.subscriptionId with
  | none => some (client, sub)
  | some clientSub =>
    let itemsToCreate := setClientHandles client.monitoredItemHandles itemsToCreate
    let client := { client with
      monitoredItemHandles := client.monitoredItemHandles + itemsToCreate.length }
    if !reached then some (client, sub)
    else do
      let (results, sub) ← performOperations (createAddressed config) sub
        (itemsToCreate.map ItemToCreate.request)
      some (client.setItems clientSub.subscriptionId
        (addInternally itemsToCreate results clientSub.monitoredItems), sub)

def deleteInternally : List (BitVec 32) → List StatusCode → List ClientMonitoredItem →
    List ClientMonitoredItem
  | monitoredItemId :: rest, result :: results, items =>
    deleteInternally rest results
      (if result ≠ .good ∧ result ≠ .badMonitoredItemIdInvalid then items
      else items.eraseP (·.monitoredItemId = monitoredItemId))
  | _, _, items => items

/-- `UA_Client_MonitoredItems_delete` with the work of the server in between. -/
def monitoredItemsDelete (client : Client) (sub : Subscription Content) (reached : Bool)
    (monitoredItemIds : List (BitVec 32)) : Option (Client × Subscription Content) :=
  if !reached then some (client, sub)
  else do
    let (results, after) ← performOperations Subscription.deleteMonitoredItem sub monitoredItemIds
    match client.findSubscription sub.subscriptionId with
    | none => some (client, after)
    | some clientSub =>
      some (client.setItems clientSub.subscriptionId
        (deleteInternally monitoredItemIds results clientSub.monitoredItems), after)

inductive NotificationCall (Content : Type) where
  | dataChange (item : ClientMonitoredItem) (value : SampledValue Content)
  | event (item : ClientMonitoredItem) (eventFields : List Content)
  | statusChange
deriving DecidableEq, Repr

namespace ClientSubscription

section

variable (sub : ClientSubscription)

def processDataChange (min : MonitoredItemNotification Content) :
    Option (NotificationCall Content) :=
  match sub.monitoredItems.find? (·.clientHandle = min.clientHandle) with
  | none => none
  | some mon => if mon.isEventMonitoredItem then none else some (.dataChange mon min.value)

def processEvent (eventFieldList : EventFieldList Content) : Option (NotificationCall Content) :=
  match sub.monitoredItems.find? (·.monitoredItemId = eventFieldList.clientHandle) with
  | none => none
  | some mon =>
    if !mon.isEventMonitoredItem then none else some (.event mon eventFieldList.eventFields)

def processStatusChange : List (NotificationCall Content) :=
  if sub.statusChangeCallback then [.statusChange] else []

/-- `processNotificationMessage` for the extension objects of the message, one after the other. -/
def processNotificationMessage (msg : NotificationMessage Content) :
    List (NotificationCall Content) :=
  (msg.dataChangeNotification.getD []).filterMap sub.processDataChange ++
    (if msg.statusChangeNotification then sub.processStatusChange else []) ++
    (msg.eventNotificationList.getD []).filterMap sub.processEvent

def registered (mon : Nat) : Option ClientMonitoredItem :=
  sub.monitoredItems.find? (·.mon = mon)

end

end ClientSubscription

/-- `UA_Client_Subscriptions_processPublishResponse`: the callbacks that are called. -/
def processPublishResponse (client : Client) (response : PublishResponse Content) :
    List (NotificationCall Content) :=
  if response.serviceResult ≠ .good then []
  else
    match client.findSubscription response.subscriptionId with
    | none => []
    | some sub => sub.processNotificationMessage response.notificationMessage

end OpcUa
