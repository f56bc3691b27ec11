import OpcUa.Types
import OpcUa.Library.OwnedQueue

/-!
Subscriptions and their monitored items, from `ua_subscription.c`, `ua_subscription_datachange.c`
and the operations of `ua_services_subscription.c`, with events enabled.

A notification stands in the queue of its monitored item and in the queue of the subscription at
the same time. Both link addresses, and the memory of the subscription has what is there. An
address is not used again. The sizes of the queues are natural numbers: far fewer than 2^32
notifications fit into the memory.

A function returns `none` where the source fails an assertion, follows a pointer to nothing, reads
a union as what it does not hold, or writes behind an array.
-/

namespace OpcUa

open OwnedQueue

inductive MonitoredItemType where
  | changeNotify
  | statusNotify
  | eventNotify
deriving DecidableEq, Repr

/-- A number above the one of `reporting` is invalid. -/
inductive MonitoringMode where
  | disabled
  | sampling
  | reporting
  | invalid (code : BitVec 32)
deriving DecidableEq, Repr

inductive DataChangeTrigger where
  | status
  | statusValue
  | statusValueTimestamp
deriving DecidableEq, Repr

inductive DeadbandType where
  | none
  | absolute
  | percent
deriving DecidableEq, Repr

structure DataChangeFilter where
  trigger : DataChangeTrigger
  deadbandType : DeadbandType
deriving DecidableEq, Repr

structure EventFilter where
  selectClausesSize : Nat
deriving DecidableEq, Repr

inductive MonitoringFilter where
  | dataChangeFilter (filter : DataChangeFilter)
  | eventFilter (filter : EventFilter)
deriving DecidableEq, Repr

inductive RequestedFilter where
  | notDecoded
  | dataChangeFilter (filter : DataChangeFilter)
  | eventFilter (filter : EventFilter)
  | other
deriving DecidableEq, Repr

structure SampledValue (Content : Type) where
  content : Content
  numeric : Option Bool
  hasStatus : Bool
  status : StatusCode
deriving DecidableEq, Repr

inductive NotificationData (Content : Type) where
  | value (value : SampledValue Content)
  | event (fields : List Content)
deriving DecidableEq, Repr

structure Notification (Content : Type) where
  mon : Nat
  data : NotificationData Content
deriving DecidableEq, Repr

structure MonitoredItem where
  address : Nat
  monitoredItemId : BitVec 32
  clientHandle : BitVec 32
  monitoredItemType : MonitoredItemType
  monitoringMode : MonitoringMode
  attributeId : Nat
  maxQueueSize : Nat
  discardOldest : Bool
  filter : MonitoringFilter
  lastValue : Option Bool
  queue : List Nat
  queueSize : Nat
deriving DecidableEq, Repr

/-! Messages. An entry also has the item and the notification that it comes from, for the proofs. -/

structure MonitoredItemNotification (Content : Type) where
  clientHandle : BitVec 32
  value : SampledValue Content
  mon : Nat
  origin : Nat
deriving DecidableEq, Repr

structure EventFieldList (Content : Type) where
  clientHandle : BitVec 32
  eventFields : List Content
  mon : Nat
  origin : Nat
deriving DecidableEq, Repr

/-- Which of the extension objects the message has, each with its entries. -/
structure NotificationMessage (Content : Type) where
  sequenceNumber : BitVec 32
  dataChangeNotification : Option (List (MonitoredItemNotification Content))
  statusChangeNotification : Bool
  eventNotificationList : Option (List (EventFieldList Content))
deriving DecidableEq, Repr

inductive SubscriptionState where
  | normal
  | late
  | keepAlive
deriving DecidableEq, Repr

inductive DropCause where
  | overflow
  | deleted
  | disabled
deriving DecidableEq, Repr

inductive ReleaseCause where
  | full
  | deleted
deriving DecidableEq, Repr

structure SentMessage (Content : Type) where
  notificationsPerPublish : Nat
  message : NotificationMessage Content
deriving DecidableEq, Repr

structure Subscription (Content : Type) where
  address : Nat
  subscriptionId : BitVec 32
  lifeTimeCount : BitVec 32
  maxKeepAliveCount : BitVec 32
  notificationsPerPublish : Nat
  publishingEnabled : Bool
  state : SubscriptionState
  sequenceNumber : BitVec 32
  currentKeepAliveCount : BitVec 32
  currentLifetimeCount : BitVec 32
  lastMonitoredItemId : BitVec 32
  monitoredItems : List MonitoredItem
  monitoredItemsSize : Nat
  notificationQueue : List Nat
  notificationQueueSize : Nat
  dataChangeNotifications : Nat
  eventNotifications : Nat
  statusChangeNotifications : Nat
  readyNotifications : Nat
  retransmissionQueue : List (NotificationMessage Content)
  retransmissionQueueSize : Nat
  memory : Nat → Option (Notification Content)
  unused : Nat
  unusedItem : Nat
  -- What happened so far, which no function reads: the notifications with their items, the
  -- dropped ones with the cause, the messages, those that a client has acknowledged, and those
  -- that were released without that, the newest first.
  created : List (Nat × Nat)
  dropped : List (DropCause × Nat)
  sent : List (SentMessage Content)
  acknowledged : List (NotificationMessage Content)
  released : List (ReleaseCause × NotificationMessage Content)

variable {Content : Type}

structure ValueRange (Value : Type) where
  min : Value
  max : Value

def ValueRange.bound {Value : Type} [LT Value] [DecidableLT Value] (bounds : ValueRange Value)
    (source : Value) : Value :=
  if source > bounds.max then bounds.max
  else if source < bounds.min then bounds.min
  else source

structure SubscriptionConfig where
  maxSubscriptionsPerSession : Nat
  lifeTimeCountLimits : ValueRange (BitVec 32)
  keepAliveCountLimits : ValueRange (BitVec 32)
  maxNotificationsPerPublish : Nat
  maxRetransmissionQueueSize : Nat
  maxMonitoredItemsPerSubscription : Nat
  maxMonitoredItemsPerCall : Nat
  maxPublishReqPerSession : Nat
  queueSizeLimits : ValueRange Nat
  queueSizesOrdered : queueSizeLimits.min ≤ queueSizeLimits.max

def defaultConfig : SubscriptionConfig where
  maxSubscriptionsPerSession := 0
  lifeTimeCountLimits := ⟨3, 15000⟩
  keepAliveCountLimits := ⟨1, 100⟩
  maxNotificationsPerPublish := 1000
  maxRetransmissionQueueSize := 0
  maxMonitoredItemsPerSubscription := 0
  maxMonitoredItemsPerCall := 0
  maxPublishReqPerSession := 0
  queueSizeLimits := ⟨1, 100⟩
  queueSizesOrdered := by decide

def attributeIdEventNotifier : Nat := 12

def attributeIdValue : Nat := 13

def overflowInfoBits : StatusCode := 0x00000400 ||| 0x00000080

def NotificationData.fits : NotificationData Content → MonitoredItemType → Bool
  | .value _, .changeNotify => true
  | .event _, .eventNotify => true
  | _, _ => false

namespace Subscription

section

variable (sub : Subscription Content)

def item (mon : Nat) : Option MonitoredItem :=
  sub.monitoredItems.find? (·.address = mon)

def setItem (item : MonitoredItem) : Subscription Content :=
  { sub with
    monitoredItems := sub.monitoredItems.map fun other =>
      if other.address = item.address then item else other }

def countUp : MonitoredItemType → Subscription Content
  | .changeNotify => { sub with dataChangeNotifications := sub.dataChangeNotifications + 1 }
  | .eventNotify => { sub with eventNotifications := sub.eventNotifications + 1 }
  | .statusNotify => { sub with statusChangeNotifications := sub.statusChangeNotifications + 1 }

def countDown : MonitoredItemType → Subscription Content
  | .changeNotify => { sub with dataChangeNotifications := sub.dataChangeNotifications - 1 }
  | .eventNotify => { sub with eventNotifications := sub.eventNotifications - 1 }
  | .statusNotify => { sub with statusChangeNotifications := sub.statusChangeNotifications - 1 }

def store (n : Nat) (notification : Option (Notification Content)) : Subscription Content :=
  { sub with memory := fun address => if address = n then notification else sub.memory address }

def notificationDelete (mon n : Nat) : Option (Subscription Content) := do
  let item ← sub.item mon
  let notification ← sub.memory n
  if !notification.data.fits item.monitoredItemType then none
  else if n ∉ item.queue ∨ n ∉ sub.notificationQueue then none
  else
    let sub := sub.countDown item.monitoredItemType
    let sub := sub.setItem
      { item with queue := item.queue.erase n, queueSize := item.queueSize - 1 }
    let sub := { sub with
      notificationQueue := sub.notificationQueue.erase n
      notificationQueueSize := sub.notificationQueueSize - 1 }
    some (sub.store n none)

def drop (cause : DropCause) (mon n : Nat) : Option (Subscription Content) := do
  let sub ← sub.notificationDelete mon n
  some { sub with dropped := sub.dropped ++ [(cause, n)] }

end

/-- The notification to delete and the one to keep and move behind it. -/
def surplus (item : MonitoredItem) : Option (Nat × Nat) :=
  if item.discardOldest then
    match item.queue with
    | del :: afterDel :: _ => some (del, afterDel)
    | _ => none
  else
    match item.queue.reverse with
    | afterDel :: del :: _ => some (del, afterDel)
    | _ => none

def dropSurplus (sub : Subscription Content) (item : MonitoredItem) :
    Option (Subscription Content) := do
  if item.queueSize < 2 then none
  else
    let (del, afterDel) ← surplus item
    if del ∉ sub.notificationQueue ∨ afterDel ∉ sub.notificationQueue then none
    else
      let sub := { sub with notificationQueue := moveBehind del afterDel sub.notificationQueue }
      sub.drop .overflow item.address del

def shrinkQueue : Nat → Subscription Content → Nat → Option (Subscription Content)
  | 0, sub, mon => do
    let item ← sub.item mon
    if item.queueSize > item.maxQueueSize then none
    else some sub
  | rounds + 1, sub, mon => do
    let item ← sub.item mon
    if item.queueSize > item.maxQueueSize then
      let sub ← sub.dropSurplus item
      shrinkQueue rounds sub mon
    else some sub

def setInfoBits (maxQueueSize : Nat) (value : SampledValue Content) : SampledValue Content :=
  if maxQueueSize > 1 then
    { value with hasStatus := true, status := value.status ||| overflowInfoBits }
  else { value with status := value.status &&& ~~~ overflowInfoBits }

def infoBitsCarrier (item : MonitoredItem) : Option Nat :=
  if item.discardOldest then item.queue.head? else item.queue.getLast?

section

variable (sub : Subscription Content)

def markOverflow (item : MonitoredItem) : Option (Subscription Content) := do
  if item.monitoredItemType = .changeNotify then
    let n ← infoBitsCarrier item
    let notification ← sub.memory n
    match notification.data with
    | .event _ => none
    | .value value =>
      let data := .value (setInfoBits item.maxQueueSize value)
      some (sub.store n (some { notification with data := data }))
  else some sub

def ensureQueueSpace (mon : Nat) : Option (Subscription Content) := do
  let item ← sub.item mon
  if item.queueSize ≤ item.maxQueueSize then some sub
  else
    let sub ← shrinkQueue item.queueSize sub mon
    let item ← sub.item mon
    sub.markOverflow item

def append (item : MonitoredItem) (data : NotificationData Content) : Subscription Content :=
  let n := sub.unused
  let sub := sub.store n (some ⟨item.address, data⟩)
  let sub := sub.setItem
    { item with queue := item.queue ++ [n], queueSize := item.queueSize + 1 }
  let sub := { sub with
    notificationQueue := sub.notificationQueue ++ [n]
    notificationQueueSize := sub.notificationQueueSize + 1
    unused := n + 1
    created := sub.created ++ [(item.address, n)] }
  sub.countUp item.monitoredItemType

/-- `UA_Notification_enqueue`, for a notification that is allocated here. -/
def notificationEnqueue (mon : Nat) (data : NotificationData Content) :
    Option (Subscription Content) := do
  let item ← sub.item mon
  (sub.append item data).ensureQueueSpace mon

end

def dropAll (cause : DropCause) (mon : Nat) :
    List Nat → Subscription Content → Option (Subscription Content)
  | [], sub => some sub
  | n :: rest, sub => do
    let sub ← sub.drop cause mon n
    dropAll cause mon rest sub

def getMonitoredItem (sub : Subscription Content) (monitoredItemId : BitVec 32) :
    Option MonitoredItem :=
  sub.monitoredItems.find? (·.monitoredItemId = monitoredItemId)

/-- `UA_MonitoredItem_delete`. The item leaves the list here, the source takes it out before. -/
def monitoredItemDelete (sub : Subscription Content) (item : MonitoredItem) :
    Option (Subscription Content) := do
  let sub ← dropAll .deleted item.address item.queue sub
  some { sub with monitoredItems := sub.monitoredItems.filter (·.address ≠ item.address) }

def deleteMonitoredItem (sub : Subscription Content) (monitoredItemId : BitVec 32) :
    Option (StatusCode × Subscription Content) :=
  match sub.getMonitoredItem monitoredItemId with
  | none => some (.badMonitoredItemIdInvalid, sub)
  | some item => do
    let sub ← sub.monitoredItemDelete item
    some (.good, { sub with monitoredItemsSize := sub.monitoredItemsSize - 1 })

def deleteItems : List MonitoredItem → Subscription Content → Option (Subscription Content)
  | [], sub => some sub
  | item :: rest, sub => do
    let sub ← sub.monitoredItemDelete item
    deleteItems rest sub

def deleteMembers (sub : Subscription Content) : Option (Subscription Content) := do
  let sub ← deleteItems sub.monitoredItems sub
  some { sub with
    monitoredItemsSize := 0
    retransmissionQueue := []
    retransmissionQueueSize := 0
    released := sub.retransmissionQueue.map ((ReleaseCause.deleted, ·)) ++ sub.released }

def addMonitoredItem (sub : Subscription Content) (item : MonitoredItem) : Subscription Content :=
  { sub with
    monitoredItemsSize := sub.monitoredItemsSize + 1
    monitoredItems := item :: sub.monitoredItems }

end Subscription

structure MonitoringParameters where
  clientHandle : BitVec 32
  filter : RequestedFilter
  queueSize : Nat
  discardOldest : Bool
deriving DecidableEq, Repr

def setFilter (item : MonitoredItem) (dataType : Option Bool) :
    RequestedFilter → Except StatusCode MonitoringFilter
  | .notDecoded => .ok (.dataChangeFilter ⟨.statusValue, .none⟩)
  | .dataChangeFilter filter =>
    if filter.deadbandType = .percent then .error .badMonitoredItemFilterUnsupported
    else
      match item.lastValue with
      | none =>
        if dataType = some true then .ok (.dataChangeFilter filter)
        else .error .badFilterNotAllowed
      | some numeric =>
        if numeric then .ok (.dataChangeFilter filter) else .error .badFilterNotAllowed
  | .eventFilter filter => .ok (.eventFilter filter)
  | .other => .error .badMonitoredItemFilterInvalid

/-- `setMonitoredItemSettings`, less the sampling interval and its callback. The data type is the
one of the example read. -/
def setMonitoredItemSettings (config : SubscriptionConfig) (item : MonitoredItem)
    (monitoringMode : MonitoringMode) (params : MonitoringParameters) (dataType : Option Bool) :
    StatusCode × MonitoredItem :=
  match setFilter item dataType params.filter with
  | .error status => (status, item)
  | .ok filter =>
    (.good, { item with
      filter := filter
      monitoringMode := monitoringMode
      clientHandle := params.clientHandle
      monitoredItemType :=
        if item.attributeId = attributeIdEventNotifier then .eventNotify else .changeNotify
      maxQueueSize := config.queueSizeLimits.bound params.queueSize
      discardOldest := params.discardOldest })

structure Sample (Content : Type) where
  value : SampledValue Content
  changed : Bool
  memory : Bool

inductive DataEncoding where
  | unnamed
  | defaultBinary
  | other
deriving DecidableEq, Repr

/-- What the surroundings decide is part of the request: the example read, whether the item can
be allocated, how the copies of its node id and index range end, and the first sample. -/
structure MonitoredItemCreateRequest (Content : Type) where
  attributeId : Nat
  dataEncoding : DataEncoding
  monitoringMode : MonitoringMode
  requestedParameters : MonitoringParameters
  read : SampledValue Content
  memory : Bool
  copied : StatusCode
  sample : Sample Content

structure MonitoredItemCreateResult where
  statusCode : StatusCode
  monitoredItemId : BitVec 32
  revisedQueueSize : Nat
deriving DecidableEq, Repr

structure MonitoredItemModifyRequest where
  monitoredItemId : BitVec 32
  requestedParameters : MonitoringParameters

structure MonitoredItemModifyResult where
  statusCode : StatusCode
  revisedQueueSize : Nat
deriving DecidableEq, Repr

/-- Whether the example read is an error that is not repaired inside the data source. -/
def SampledValue.refuses (value : SampledValue Content) : Bool :=
  value.hasStatus && value.status >>> 30 > 1 &&
    value.status ∉ [StatusCode.badResourceUnavailable, .badCommunicationError,
      .badWaitingForInitialData, .badUserAccessDenied, .badNotReadable, .badIndexRangeNoData]

namespace Subscription

section

variable (sub : Subscription Content)

def sampleCallbackWithValue (mon : Nat) (sample : Sample Content) :
    Option (Subscription Content) := do
  let item ← sub.item mon
  if item.monitoredItemType ≠ .changeNotify then none
  else if !sample.changed then some sub
  else if !sample.memory then some sub
  else
    let sub ← sub.notificationEnqueue mon (.value sample.value)
    let item ← sub.item mon
    some (sub.setItem { item with lastValue := sample.value.numeric })

def sampleCallback (mon : Nat) (sample : Sample Content) : Option (Subscription Content) := do
  let item ← sub.item mon
  if item.monitoredItemType ≠ .changeNotify then some sub
  else sub.sampleCallbackWithValue mon sample

/-- `UA_Event_addEventToMonitoredItem`, with the fields that the filter selects or its error. -/
def addEventToMonitoredItem (mon : Nat) (filtered : Except StatusCode (List Content))
    (memory : Bool) : Option (StatusCode × Subscription Content) :=
  if !memory then some (.badOutOfMemory, sub)
  else
    match filtered with
    | .error status => some (status, sub)
    | .ok fields => do
      let sub ← sub.notificationEnqueue mon (.event fields)
      some (.good, sub)

/-- The item as `UA_MonitoredItem_init` and the request leave it, before its settings. -/
def newItem (attributeId : Nat) : MonitoredItem where
  address := sub.unusedItem
  monitoredItemId := 0
  clientHandle := 0
  monitoredItemType := .changeNotify
  monitoringMode := .disabled
  attributeId := attributeId
  maxQueueSize := 0
  discardOldest := false
  filter := .dataChangeFilter ⟨.status, .none⟩
  lastValue := none
  queue := []
  queueSize := 0

def registerItem (newMon : MonitoredItem) : Subscription Content :=
  let monitoredItemId := sub.lastMonitoredItemId + 1
  { sub with lastMonitoredItemId := monitoredItemId }.addMonitoredItem
    { newMon with monitoredItemId := monitoredItemId }

def firstSample (monitoringMode : MonitoringMode) (mon : Nat) (sample : Sample Content) :
    Option (Subscription Content) :=
  if monitoringMode = .reporting then sub.sampleCallback mon sample else some sub

end

def createMonitoredItem (config : SubscriptionConfig) (sub : Subscription Content)
    (request : MonitoredItemCreateRequest Content) :
    Option (MonitoredItemCreateResult × Subscription Content) :=
  if config.maxMonitoredItemsPerSubscription ≠ 0 ∧
      sub.monitoredItemsSize ≥ config.maxMonitoredItemsPerSubscription then
    some (⟨.badTooManyMonitoredItems, 0, 0⟩, sub)
  else if request.read.refuses then some (⟨request.read.status, 0, 0⟩, sub)
  else if request.dataEncoding = .other then some (⟨.badDataEncodingUnsupported, 0, 0⟩, sub)
  else if request.attributeId ≠ attributeIdValue ∧ request.dataEncoding ≠ .unnamed then
    some (⟨.badDataEncodingInvalid, 0, 0⟩, sub)
  else if !request.memory then some (⟨.badOutOfMemory, 0, 0⟩, sub)
  else
    let newMon := sub.newItem request.attributeId
    let sub := { sub with unusedItem := sub.unusedItem + 1 }
    let (status, newMon) := setMonitoredItemSettings config newMon request.monitoringMode
      request.requestedParameters request.read.numeric
    let retval := request.copied ||| status
    if retval ≠ .good then some (⟨retval, 0, 0⟩, sub)
    else do
      let monitoredItemId := sub.lastMonitoredItemId + 1
      let sub ← (sub.registerItem newMon).firstSample request.monitoringMode newMon.address
        request.sample
      some (⟨.good, monitoredItemId, newMon.maxQueueSize⟩, sub)

def modifyMonitoredItem (config : SubscriptionConfig) (sub : Subscription Content)
    (request : MonitoredItemModifyRequest) :
    Option (MonitoredItemModifyResult × Subscription Content) :=
  match sub.getMonitoredItem request.monitoredItemId with
  | none => some (⟨.badMonitoredItemIdInvalid, 0⟩, sub)
  | some item => do
    let (status, modified) := setMonitoredItemSettings config item item.monitoringMode
      request.requestedParameters none
    if status ≠ .good then some (⟨status, 0⟩, sub)
    else
      let sub ← (sub.setItem modified).ensureQueueSpace item.address
      some (⟨.good, modified.maxQueueSize⟩, sub)

def setMonitoringMode (sub : Subscription Content) (monitoringMode : MonitoringMode)
    (monitoredItemId : BitVec 32) : Option (StatusCode × Subscription Content) :=
  match sub.getMonitoredItem monitoredItemId with
  | none => some (.badMonitoredItemIdInvalid, sub)
  | some item =>
    if item.monitoredItemType ≠ .changeNotify ∧ item.monitoredItemType ≠ .eventNotify then
      some (.badNotImplemented, sub)
    else
      match monitoringMode with
      | .invalid _ => some (.badMonitoringModeInvalid, sub)
      | _ =>
        if item.monitoringMode = monitoringMode then some (.good, sub)
        else if monitoringMode = .reporting then
          some (.good, sub.setItem { item with monitoringMode := monitoringMode })
        else do
          let sub := sub.setItem { item with monitoringMode := monitoringMode }
          let sub ← dropAll .disabled item.address item.queue sub
          let item ← sub.item item.address
          some (.good, sub.setItem { item with lastValue := none })

def addRetransmissionMessage (config : SubscriptionConfig) (sub : Subscription Content)
    (message : NotificationMessage Content) : Option (Subscription Content) :=
  if config.maxRetransmissionQueueSize > 0 ∧
      sub.retransmissionQueueSize ≥ config.maxRetransmissionQueueSize then
    match sub.retransmissionQueue.getLast? with
    | none => none
    | some last =>
      some { sub with
        retransmissionQueue := message :: sub.retransmissionQueue.dropLast
        retransmissionQueueSize := sub.retransmissionQueueSize - 1 + 1
        released := (.full, last) :: sub.released }
  else
    some { sub with
      retransmissionQueue := message :: sub.retransmissionQueue
      retransmissionQueueSize := sub.retransmissionQueueSize + 1 }

def removeRetransmissionMessage (sub : Subscription Content) (sequenceNumber : BitVec 32) :
    StatusCode × Subscription Content :=
  match sub.retransmissionQueue.find? (·.sequenceNumber = sequenceNumber) with
  | none => (.badSequenceNumberUnknown, sub)
  | some message =>
    (.good, { sub with
      retransmissionQueue := sub.retransmissionQueue.eraseP (·.sequenceNumber = sequenceNumber)
      retransmissionQueueSize := sub.retransmissionQueueSize - 1
      acknowledged := sub.acknowledged ++ [message] })

end Subscription

structure MessageArrays (Content : Type) where
  dcn : Option (List (MonitoredItemNotification Content))
  dcnSize : Nat
  scn : Bool
  enl : Option (List (EventFieldList Content))
  enlSize : Nat
  totalNotifications : Nat

namespace Subscription

def allocateArrays (sub : Subscription Content) (notifications : Nat) : MessageArrays Content where
  dcn := if sub.dataChangeNotifications > 0 then some [] else none
  dcnSize := min sub.dataChangeNotifications notifications
  scn := sub.statusChangeNotifications > 0
  enl := if sub.statusChangeNotifications > 0 then none
    else if sub.eventNotifications > 0 then some [] else none
  enlSize := min sub.eventNotifications notifications
  totalNotifications := 0

/-- The loop of `prepareNotificationMessage` over the rest of the queue. -/
def moveNotifications (notifications : Nat) :
    List Nat → MessageArrays Content → Subscription Content →
      Option (MessageArrays Content × Subscription Content)
  | [], arrays, sub => some (arrays, sub)
  | n :: rest, arrays, sub =>
    if arrays.totalNotifications ≥ notifications then some (arrays, sub)
    else do
      let notification ← sub.memory n
      let mon ← sub.item notification.mon
      let moved := arrays.totalNotifications + 1
      match mon.monitoredItemType with
      | .changeNotify =>
        match arrays.dcn, notification.data with
        | some dcn, .value value =>
          if dcn.length ≥ arrays.dcnSize then none
          else
            let min := ⟨mon.clientHandle, value, mon.address, n⟩
            let arrays := { arrays with
              dcn := some (dcn ++ [min]), totalNotifications := moved }
            let sub ← sub.notificationDelete mon.address n
            moveNotifications notifications rest arrays sub
        | _, _ => none
      | .statusNotify =>
        if arrays.scn then
          let arrays := { arrays with scn := false, totalNotifications := moved }
          let sub ← sub.notificationDelete mon.address n
          moveNotifications notifications rest arrays sub
        else moveNotifications notifications rest arrays sub
      | .eventNotify =>
        match arrays.enl, notification.data with
        | some enl, .event fields =>
          if enl.length ≥ arrays.enlSize then none
          else
            let efl := ⟨mon.clientHandle, fields, mon.address, n⟩
            let arrays := { arrays with
              enl := some (enl ++ [efl]), totalNotifications := moved }
            let sub ← sub.notificationDelete mon.address n
            moveNotifications notifications rest arrays sub
        | some _, .value _ => none
        | none, _ => moveNotifications notifications rest arrays sub

/-- `prepareNotificationMessage` when the arrays can be allocated. The sequence number is set by
the caller. -/
def prepareNotificationMessage (sub : Subscription Content) (notifications : Nat) :
    Option (NotificationMessage Content × Subscription Content) := do
  if notifications = 0 then none
  else
    let arrays := sub.allocateArrays notifications
    if arrays.dcn.isNone ∧ !arrays.scn ∧ arrays.enl.isNone then none
    else
      let (filled, sub) ← moveNotifications notifications sub.notificationQueue arrays sub
      some (⟨0, filled.dcn, arrays.scn, filled.enl⟩, sub)

end Subscription

def nextSequenceNumber (sequenceNumber : BitVec 32) : BitVec 32 :=
  if sequenceNumber + 1 = 0 then 1 else sequenceNumber + 1

end OpcUa
