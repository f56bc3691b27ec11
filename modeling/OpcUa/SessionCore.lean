import OpcUa.SubscriptionCore

/-!
The subscriptions of a session and the publish requests that wait there, from `ua_session.c`,
`ua_subscription.c` and `ua_services_subscription.c`. A session has the operations that a client
requests, and those that the server starts: samples, events and the publish callback.

What the surroundings decide comes with the operation, such as whether there is memory.
-/

namespace OpcUa

variable {Content : Type}

structure PublishResponseEntry where
  requestId : BitVec 32
  requestHandle : BitVec 32
  results : List StatusCode
  arrival : Option Nat
deriving DecidableEq, Repr

structure PublishResponse (Content : Type) where
  channel : Option Nat
  requestId : BitVec 32
  requestHandle : BitVec 32
  serviceResult : StatusCode
  subscriptionId : BitVec 32
  availableSequenceNumbers : List (BitVec 32)
  moreNotifications : Bool
  notificationMessage : NotificationMessage Content
  results : List StatusCode
deriving DecidableEq, Repr

structure Session (Content : Type) where
  channel : Option Nat
  lastSubscriptionId : BitVec 32
  lastSeenSubscriptionId : BitVec 32
  serverSubscriptions : List (Subscription Content)
  numSubscriptions : Nat
  responseQueue : List PublishResponseEntry
  numPublishReq : Nat
  unusedSubscription : Nat
  -- What happened so far: the subscriptions that are gone, and the responses.
  removed : List (Subscription Content)
  sent : List (PublishResponse Content)

def Subscription.new (address : Nat) (subscriptionId : BitVec 32) : Subscription Content where
  address := address
  subscriptionId := subscriptionId
  lifeTimeCount := 0
  maxKeepAliveCount := 0
  notificationsPerPublish := 0
  publishingEnabled := false
  state := .normal
  sequenceNumber := 0
  currentKeepAliveCount := 0
  currentLifetimeCount := 0
  lastMonitoredItemId := 0
  monitoredItems := []
  monitoredItemsSize := 0
  notificationQueue := []
  notificationQueueSize := 0
  dataChangeNotifications := 0
  eventNotifications := 0
  statusChangeNotifications := 0
  readyNotifications := 0
  retransmissionQueue := []
  retransmissionQueueSize := 0
  memory := fun _ => none
  unused := 0
  unusedItem := 0
  created := []
  dropped := []
  sent := []
  acknowledged := []
  released := []

structure SubscriptionSettings where
  requestedLifetimeCount : BitVec 32
  requestedMaxKeepAliveCount : BitVec 32
  maxNotificationsPerPublish : Nat

/-- `setSubscriptionSettings`, less the publishing interval and its callback. -/
def Subscription.setSettings (config : SubscriptionConfig) (sub : Subscription Content)
    (settings : SubscriptionSettings) : Subscription Content :=
  let maxKeepAliveCount := config.keepAliveCountLimits.bound settings.requestedMaxKeepAliveCount
  let lifeTimeCount := config.lifeTimeCountLimits.bound settings.requestedLifetimeCount
  { sub with
    maxKeepAliveCount := maxKeepAliveCount
    lifeTimeCount :=
      if lifeTimeCount < 3 * maxKeepAliveCount then 3 * maxKeepAliveCount else lifeTimeCount
    notificationsPerPublish :=
      if settings.maxNotificationsPerPublish = 0 ∨
          settings.maxNotificationsPerPublish > config.maxNotificationsPerPublish then
        config.maxNotificationsPerPublish
      else settings.maxNotificationsPerPublish }

namespace Subscription

def countReady (sub : Subscription Content) : Subscription Content :=
  { sub with readyNotifications := min sub.readyNotifications sub.notificationQueueSize }

def available (sub : Subscription Content) : Nat :=
  if sub.publishingEnabled then sub.readyNotifications else 0

def countKeepAlive (sub : Subscription Content) : Subscription Content :=
  { sub with currentKeepAliveCount := sub.currentKeepAliveCount + 1 }

end Subscription

def emptyMessage : NotificationMessage Content := ⟨0, none, false, none⟩

namespace Session

def new : Session Content where
  channel := none
  lastSubscriptionId := 0
  lastSeenSubscriptionId := 0
  serverSubscriptions := []
  numSubscriptions := 0
  responseQueue := []
  numPublishReq := 0
  unusedSubscription := 0
  removed := []
  sent := []

def subscription (session : Session Content) (address : Nat) : Option (Subscription Content) :=
  session.serverSubscriptions.find? (·.address = address)

def setSubscription (session : Session Content) (sub : Subscription Content) : Session Content :=
  { session with
    serverSubscriptions := session.serverSubscriptions.map fun other =>
      if other.address = sub.address then sub else other }

/-! `ua_session.c` -/

section

variable (session : Session Content)

def addSubscription (sub : Subscription Content) : Session Content :=
  { session with
    serverSubscriptions := sub :: session.serverSubscriptions
    numSubscriptions := session.numSubscriptions + 1 }

def getSubscriptionById (subscriptionId : BitVec 32) : Option (Subscription Content) :=
  session.serverSubscriptions.find? (·.subscriptionId = subscriptionId)

/-- `UA_Session_deleteSubscription`. The memory is for the delayed callback that frees it. -/
def deleteSubscription (subscriptionId : BitVec 32) (memory : Bool) :
    Option (StatusCode × Session Content) :=
  match session.getSubscriptionById subscriptionId with
  | none => some (.badSubscriptionIdInvalid, session)
  | some sub => do
    let sub ← sub.deleteMembers
    if !memory then some (.badOutOfMemory, session.setSubscription sub)
    else if session.numSubscriptions = 0 then none
    else
      some (.good, { session with
        serverSubscriptions := session.serverSubscriptions.filter (·.address ≠ sub.address)
        numSubscriptions := session.numSubscriptions - 1
        removed := session.removed ++ [sub] })

def dequeuePublishReq : Option PublishResponseEntry × Session Content :=
  match session.responseQueue with
  | [] => (none, session)
  | entry :: rest =>
    (some entry, { session with
      responseQueue := rest
      numPublishReq := session.numPublishReq - 1 })

def queuePublishReq (entry : PublishResponseEntry) (head : Bool) : Session Content :=
  { session with
    responseQueue :=
      if head then entry :: session.responseQueue else session.responseQueue ++ [entry]
    numPublishReq := session.numPublishReq + 1 }

def send (response : PublishResponse Content) : Session Content :=
  { session with sent := session.sent ++ [response] }

/-- A request that was dequeued and not answered goes back to the head. -/
def requeue : Option PublishResponseEntry → Session Content
  | none => session
  | some pre => session.queuePublishReq pre true

end

/-- The part of `UA_Subscription_publish` behind its point of no return, with the response. The
array of sequence numbers is as long as the size of the retransmission queue says. -/
def sendMessage (config : SubscriptionConfig) (session : Session Content)
    (sub : Subscription Content) (pre : PublishResponseEntry) (notifications : Nat)
    (moreNotifications : Bool) (message : NotificationMessage Content) :
    Option (Session Content) := do
  if sub.readyNotifications < notifications then none
  else
    let sub := { sub with readyNotifications := sub.readyNotifications - notifications }
    let message := { message with sequenceNumber := nextSequenceNumber sub.sequenceNumber }
    let sub ← if notifications > 0 then
        let numbered := { sub with sequenceNumber := message.sequenceNumber }
        numbered.addRetransmissionMessage config message
      else some sub
    if sub.retransmissionQueueSize < sub.retransmissionQueue.length then none
    else
      let response := {
        channel := session.channel
        requestId := pre.requestId
        requestHandle := pre.requestHandle
        serviceResult := .good
        subscriptionId := sub.subscriptionId
        availableSequenceNumbers := sub.retransmissionQueue.map (·.sequenceNumber)
        moreNotifications := moreNotifications
        notificationMessage := message
        results := pre.results }
      let sub := { sub with
        state := .normal
        currentKeepAliveCount := 0
        sent := sub.sent ++ [⟨sub.notificationsPerPublish, message⟩] }
      some ((session.setSubscription sub).send response)

def becomeLate (session : Session Content) (sub : Subscription Content)
    (pre : Option PublishResponseEntry) : Session Content :=
  (session.setSubscription { sub with state := .late }).requeue pre

section

variable (config : SubscriptionConfig) (session : Session Content) (sub : Subscription Content)
  (pre : Option PublishResponseEntry)

/-- The part of `UA_Subscription_publish` from where it wants to send a response, and whether it
repeats. The memory is for the message and its copy for retransmission. -/
def respond (notifications : Nat) (moreNotifications memory : Bool) :
    Option (Bool × Session Content) :=
  match session.channel, pre with
  | some _, some entry =>
    if notifications = 0 then do
      let session ← session.sendMessage config sub entry 0 moreNotifications emptyMessage
      some (moreNotifications, session)
    else if !memory then some (false, session.becomeLate sub pre)
    else do
      let (message, sub) ← sub.prepareNotificationMessage notifications
      let session ← session.sendMessage config sub entry notifications moreNotifications message
      some (moreNotifications, session)
  | _, _ => some (false, session.becomeLate sub pre)

/-- The part of `UA_Subscription_publish` from where it counts the notifications. -/
def publishAvailable (memory : Bool) : Option (Bool × Session Content) :=
  let sub := sub.countReady
  let moreNotifications := sub.available > sub.notificationsPerPublish
  let notifications := min sub.available sub.notificationsPerPublish
  if notifications = 0 then
    let sub := sub.countKeepAlive
    if sub.currentKeepAliveCount < sub.maxKeepAliveCount then
      some (false, (session.setSubscription sub).requeue pre)
    else session.respond config sub pre 0 moreNotifications memory
  else session.respond config sub pre notifications moreNotifications memory

end

/-- `UA_Subscription_publish` up to where it calls itself, and whether it does. -/
def publishOnce (config : SubscriptionConfig) (session : Session Content) (address : Nat)
    (memory : Bool) : Option (Bool × Session Content) := do
  let sub ← session.subscription address
  let (pre, session) := session.dequeuePublishReq
  match pre with
  | some _ => session.publishAvailable config { sub with currentLifetimeCount := 0 } pre memory
  | none =>
    let sub := { sub with currentLifetimeCount := sub.currentLifetimeCount + 1 }
    if sub.currentLifetimeCount > sub.lifeTimeCount then
      let (_, session) ←
        (session.setSubscription sub).deleteSubscription sub.subscriptionId memory
      some (false, session)
    else session.publishAvailable config sub pre memory

def publishRounds (config : SubscriptionConfig) :
    Nat → Session Content → Nat → List Bool → Option (Session Content)
  | 0, _, _, _ => none
  | rounds + 1, session, address, memory => do
    let (again, session) ← session.publishOnce config address (memory.headD true)
    if again then publishRounds config rounds session address memory.tail
    else some session

/-- `UA_Subscription_publish`. It calls itself only after it has answered a request. -/
def publish (config : SubscriptionConfig) (session : Session Content) (address : Nat)
    (memory : List Bool) : Option (Session Content) :=
  publishRounds config (session.responseQueue.length + 1) session address memory

def publishCallback (config : SubscriptionConfig) (session : Session Content)
    (sub : Subscription Content) (memory : List Bool) : Option (Session Content) :=
  let sub := { sub with readyNotifications := sub.notificationQueueSize }
  (session.setSubscription sub).publish config sub.address memory

def reachedPublishReqLimit (session : Session Content) : Bool × Session Content :=
  match session.dequeuePublishReq with
  | (none, session) => (false, session)
  | (some pre, session) =>
    (true, session.send ⟨session.channel, pre.requestId, pre.requestHandle,
      .badTooManyPublishRequests, 0, [], false, emptyMessage, pre.results⟩)

def answerPublishRequestsNoSubscription (session : Session Content) : Session Content :=
  if session.serverSubscriptions.isEmpty then
    { session with
      responseQueue := []
      numPublishReq := session.numPublishReq - session.responseQueue.length
      sent := session.sent ++ session.responseQueue.map fun pre =>
        ⟨session.channel, pre.requestId, pre.requestHandle, .badNoSubscription, 0, [], false,
          emptyMessage, pre.results⟩ }
  else session

def createSubscription (config : SubscriptionConfig) (session : Session Content)
    (publishingEnabled : Bool) (settings : SubscriptionSettings) (memory : Bool) :
    (StatusCode × BitVec 32) × Session Content :=
  if config.maxSubscriptionsPerSession ≠ 0 ∧
      session.numPublishReq ≥ config.maxSubscriptionsPerSession then
    ((.badTooManySubscriptions, 0), session)
  else if !memory then ((.badOutOfMemory, 0), session)
  else
    let subscriptionId := session.lastSubscriptionId + 1
    let sub := (Subscription.new session.unusedSubscription subscriptionId).setSettings config
      settings
    let sub := { sub with
      publishingEnabled := publishingEnabled
      currentKeepAliveCount := sub.maxKeepAliveCount }
    let session := { session with
      lastSubscriptionId := subscriptionId
      unusedSubscription := session.unusedSubscription + 1 }
    ((.good, subscriptionId), session.addSubscription sub)

def modifySubscription (config : SubscriptionConfig) (session : Session Content)
    (subscriptionId : BitVec 32) (settings : SubscriptionSettings) :
    StatusCode × Session Content :=
  match session.getSubscriptionById subscriptionId with
  | none => (.badSubscriptionIdInvalid, session)
  | some sub =>
    (.good, session.setSubscription
      { sub.setSettings config settings with currentLifetimeCount := 0 })

def setPublishingMode (publishingEnabled : Bool) (session : Session Content)
    (subscriptionId : BitVec 32) : Option (StatusCode × Session Content) :=
  match session.getSubscriptionById subscriptionId with
  | none => some (.badSubscriptionIdInvalid, session)
  | some sub =>
    some (.good, session.setSubscription
      { sub with currentLifetimeCount := 0, publishingEnabled := publishingEnabled })

end Session

section Operations

variable {State Request Result : Type}

def performOperations (operation : State → Request → Option (Result × State)) :
    State → List Request → Option (List Result × State)
  | state, [] => some ([], state)
  | state, request :: rest => do
    let (result, state) ← operation state request
    let (results, state) ← performOperations operation state rest
    some (result :: results, state)

/-- `UA_Server_processServiceOperations`. The memory is for the results. -/
def processServiceOperations (operation : State → Request → Option (Result × State))
    (state : State) (requests : List Request) (memory : Bool) :
    Option ((StatusCode × List Result) × State) :=
  if requests.isEmpty then some ((.badNothingToDo, []), state)
  else if !memory then some ((.badOutOfMemory, []), state)
  else do
    let (results, state) ← performOperations operation state requests
    some ((.good, results), state)

end Operations

structure SubscriptionAcknowledgement where
  subscriptionId : BitVec 32
  sequenceNumber : BitVec 32

/-- The memory is for the entry, for its results, and for each round of publishing. -/
structure PublishRequest where
  requestId : BitVec 32
  requestHandle : BitVec 32
  subscriptionAcknowledgements : List SubscriptionAcknowledgement
  entryMemory : Bool
  resultsMemory : Bool
  publishMemory : List Bool

namespace Session

def serviceSetPublishingMode (session : Session Content) (publishingEnabled : Bool)
    (subscriptionIds : List (BitVec 32)) (memory : Bool) :
    Option ((StatusCode × List StatusCode) × Session Content) :=
  processServiceOperations (setPublishingMode publishingEnabled) session subscriptionIds memory

/-- `Service_DeleteSubscriptions`. Each id comes with the memory for its deletion. -/
def serviceDeleteSubscriptions (session : Session Content)
    (subscriptionIds : List (BitVec 32 × Bool)) (memory : Bool) :
    Option ((StatusCode × List StatusCode) × Session Content) := do
  let (results, session) ← processServiceOperations
    (fun session request => session.deleteSubscription request.1 request.2)
    session subscriptionIds memory
  some (results, session.answerPublishRequestsNoSubscription)

def subscriptionSendError (session : Session Content) (requestHandle requestId : BitVec 32)
    (error : StatusCode) : Session Content :=
  session.send ⟨session.channel, requestId, requestHandle, error, 0, [], false, emptyMessage, []⟩

def acknowledge (session : Session Content) :
    List SubscriptionAcknowledgement → List StatusCode × Session Content
  | [] => ([], session)
  | ack :: rest =>
    match session.getSubscriptionById ack.subscriptionId with
    | none =>
      let (results, session) := session.acknowledge rest
      (.badSubscriptionIdInvalid :: results, session)
    | some sub =>
      let (result, sub) := sub.removeRetransmissionMessage ack.sequenceNumber
      let (results, session) := (session.setSubscription sub).acknowledge rest
      (result :: results, session)

/-- The late subscription that is served first: behind the one served before, or from the start
of the list. -/
def lateSubscription (session : Session Content) : Option (Subscription Content) :=
  let immediate :=
    if session.lastSeenSubscriptionId > 0 then
      (session.serverSubscriptions.dropWhile
        (·.subscriptionId ≠ session.lastSeenSubscriptionId)).tail
    else []
  match immediate.find? (·.state = .late) with
  | some sub => some sub
  | none => session.serverSubscriptions.find? (·.state = .late)

section

variable (config : SubscriptionConfig) (session : Session Content)

def serveLate (memory : List Bool) : Option (Session Content) :=
  match session.lateSubscription with
  | none => some { session with lastSeenSubscriptionId := 0 }
  | some sub =>
    { session with lastSeenSubscriptionId := sub.subscriptionId }.publish config sub.address
      memory

def queueRequest (request : PublishRequest) : Option (Session Content) :=
  -- The request id and the handle change places in these two errors.
  if !request.entryMemory then
    some (session.subscriptionSendError request.requestId request.requestHandle .badOutOfMemory)
  else if request.subscriptionAcknowledgements ≠ [] ∧ !request.resultsMemory then
    some (session.subscriptionSendError request.requestId request.requestHandle .badOutOfMemory)
  else
    let (results, session) := session.acknowledge request.subscriptionAcknowledgements
    let entry := ⟨request.requestId, request.requestHandle, results, session.channel⟩
    (session.queuePublishReq entry false).serveLate config request.publishMemory

def servicePublish (request : PublishRequest) : Option (Session Content) :=
  if session.serverSubscriptions.isEmpty then
    some (session.subscriptionSendError request.requestHandle request.requestId .badNoSubscription)
  else if config.maxPublishReqPerSession ≠ 0 ∧
      session.numPublishReq ≥ config.maxPublishReqPerSession then
    match session.reachedPublishReqLimit with
    | (false, session) =>
      some (session.subscriptionSendError request.requestId request.requestHandle .badInternalError)
    | (true, session) => session.queueRequest config request
  else session.queueRequest config request

end

def serviceRepublish (session : Session Content) (subscriptionId sequenceNumber : BitVec 32) :
    (StatusCode × Option (NotificationMessage Content)) × Session Content :=
  match session.getSubscriptionById subscriptionId with
  | none => ((.badSubscriptionIdInvalid, none), session)
  | some sub =>
    let session := session.setSubscription { sub with currentLifetimeCount := 0 }
    match sub.retransmissionQueue.find? (·.sequenceNumber = sequenceNumber) with
    | none => ((.badMessageNotAvailable, none), session)
    | some message => ((.good, some message), session)

/-! Services for monitored items -/

/-- The end of the services: the operations on the items of one subscription. -/
def serveItems {Request Result : Type} (session : Session Content) (subscriptionId : BitVec 32)
    (operation : Subscription Content → Request → Option (Result × Subscription Content))
    (requests : List Request) (memory : Bool) :
    Option ((StatusCode × List Result) × Session Content) :=
  match session.getSubscriptionById subscriptionId with
  | none => some ((.badSubscriptionIdInvalid, []), session)
  | some sub => do
    let (results, sub) ← processServiceOperations operation
      { sub with currentLifetimeCount := 0 } requests memory
    some (results, session.setSubscription sub)

section

variable (config : SubscriptionConfig)

def tooManyOperations (size : Nat) : Bool :=
  config.maxMonitoredItemsPerCall ≠ 0 && size > config.maxMonitoredItemsPerCall

def serviceCreateMonitoredItems (session : Session Content) (subscriptionId : BitVec 32)
    (validTimestamps : Bool) (itemsToCreate : List (MonitoredItemCreateRequest Content))
    (memory : Bool) : Option ((StatusCode × List MonitoredItemCreateResult) × Session Content) :=
  if tooManyOperations config itemsToCreate.length then
    some ((.badTooManyOperations, []), session)
  else if !validTimestamps then some ((.badTimestampsToReturnInvalid, []), session)
  else
    session.serveItems subscriptionId (Subscription.createMonitoredItem config) itemsToCreate memory

def serviceModifyMonitoredItems (session : Session Content) (subscriptionId : BitVec 32)
    (validTimestamps : Bool) (itemsToModify : List MonitoredItemModifyRequest) (memory : Bool) :
    Option ((StatusCode × List MonitoredItemModifyResult) × Session Content) :=
  if tooManyOperations config itemsToModify.length then
    some ((.badTooManyOperations, []), session)
  else if !validTimestamps then some ((.badTimestampsToReturnInvalid, []), session)
  else
    session.serveItems subscriptionId (Subscription.modifyMonitoredItem config) itemsToModify memory

def serviceSetMonitoringMode (session : Session Content) (subscriptionId : BitVec 32)
    (monitoringMode : MonitoringMode) (monitoredItemIds : List (BitVec 32)) (memory : Bool) :
    Option ((StatusCode × List StatusCode) × Session Content) :=
  if tooManyOperations config monitoredItemIds.length then
    some ((.badTooManyOperations, []), session)
  else
    session.serveItems subscriptionId (fun sub => sub.setMonitoringMode monitoringMode)
      monitoredItemIds memory

def serviceDeleteMonitoredItems (session : Session Content) (subscriptionId : BitVec 32)
    (monitoredItemIds : List (BitVec 32)) (memory : Bool) :
    Option ((StatusCode × List StatusCode) × Session Content) :=
  if tooManyOperations config monitoredItemIds.length then
    some ((.badTooManyOperations, []), session)
  else
    session.serveItems subscriptionId Subscription.deleteMonitoredItem monitoredItemIds memory

end

end Session

inductive SessionRequest (Content : Type) where
  | createSubscription (publishingEnabled : Bool) (settings : SubscriptionSettings) (memory : Bool)
  | modifySubscription (subscriptionId : BitVec 32) (settings : SubscriptionSettings)
  | setPublishingMode (publishingEnabled : Bool) (subscriptionIds : List (BitVec 32))
      (memory : Bool)
  | deleteSubscriptions (subscriptionIds : List (BitVec 32 × Bool)) (memory : Bool)
  | publish (request : PublishRequest)
  | republish (subscriptionId sequenceNumber : BitVec 32)
  | createMonitoredItems (subscriptionId : BitVec 32) (validTimestamps : Bool)
      (itemsToCreate : List (MonitoredItemCreateRequest Content)) (memory : Bool)
  | modifyMonitoredItems (subscriptionId : BitVec 32) (validTimestamps : Bool)
      (itemsToModify : List MonitoredItemModifyRequest) (memory : Bool)
  | setMonitoringMode (subscriptionId : BitVec 32) (monitoringMode : MonitoringMode)
      (monitoredItemIds : List (BitVec 32)) (memory : Bool)
  | deleteMonitoredItems (subscriptionId : BitVec 32) (monitoredItemIds : List (BitVec 32))
      (memory : Bool)

/-- A request, a callback for a subscription or an item by address, or a change of the channel. -/
inductive SessionStep (Content : Type) where
  | request (request : SessionRequest Content)
  | publishCallback (address : Nat) (memory : List Bool)
  | sampleCallback (address mon : Nat) (sample : Sample Content)
  | event (address mon : Nat) (filtered : Except StatusCode (List Content)) (memory : Bool)
  | attachToSecureChannel (channel : Nat)
  | detachFromSecureChannel

namespace Session

def serve (config : SubscriptionConfig) (session : Session Content) :
    SessionRequest Content → Option (Session Content)
  | .createSubscription publishingEnabled settings memory =>
    some (session.createSubscription config publishingEnabled settings memory).2
  | .modifySubscription subscriptionId settings =>
    some (session.modifySubscription config subscriptionId settings).2
  | .setPublishingMode publishingEnabled subscriptionIds memory =>
    (session.serviceSetPublishingMode publishingEnabled subscriptionIds memory).map Prod.snd
  | .deleteSubscriptions subscriptionIds memory =>
    (session.serviceDeleteSubscriptions subscriptionIds memory).map Prod.snd
  | .publish request => session.servicePublish config request
  | .republish subscriptionId sequenceNumber =>
    some (session.serviceRepublish subscriptionId sequenceNumber).2
  | .createMonitoredItems subscriptionId validTimestamps itemsToCreate memory =>
    (session.serviceCreateMonitoredItems config subscriptionId validTimestamps itemsToCreate
      memory).map Prod.snd
  | .modifyMonitoredItems subscriptionId validTimestamps itemsToModify memory =>
    (session.serviceModifyMonitoredItems config subscriptionId validTimestamps itemsToModify
      memory).map Prod.snd
  | .setMonitoringMode subscriptionId monitoringMode monitoredItemIds memory =>
    (session.serviceSetMonitoringMode config subscriptionId monitoringMode monitoredItemIds
      memory).map Prod.snd
  | .deleteMonitoredItems subscriptionId monitoredItemIds memory =>
    (session.serviceDeleteMonitoredItems config subscriptionId monitoredItemIds memory).map Prod.snd

/-- A request reaches the session through the channel it is attached to. A callback is registered
only for a subscription or an item that is there, an event is for items of its type. -/
def step (config : SubscriptionConfig) (session : Session Content) :
    SessionStep Content → Option (Session Content)
  | .request request =>
    if session.channel.isNone then some session else session.serve config request
  | .publishCallback address memory =>
    match session.subscription address with
    | none => some session
    | some sub => session.publishCallback config sub memory
  | .sampleCallback address mon sample =>
    match session.subscription address with
    | none => some session
    | some sub =>
      if (sub.item mon).isNone then some session
      else do
        let sub ← sub.sampleCallback mon sample
        some (session.setSubscription sub)
  | .event address mon filtered memory =>
    match session.subscription address with
    | none => some session
    | some sub =>
      if (sub.item mon).map MonitoredItem.monitoredItemType ≠ some .eventNotify then
        some session
      else do
        let (_, sub) ← sub.addEventToMonitoredItem mon filtered memory
        some (session.setSubscription sub)
  | .attachToSecureChannel channel => some { session with channel := some channel }
  | .detachFromSecureChannel => some { session with channel := none }

def run (config : SubscriptionConfig) (session : Session Content) :
    List (SessionStep Content) → Option (Session Content)
  | [] => some session
  | step :: rest => do
    let session ← session.step config step
    session.run config rest

end Session

end OpcUa
