import OpcUa.NodeMapCore
import OpcUa.Library.CrossLinks

/-!
The sessions of the server and the SecureChannels that they are bound to: `ua_session_manager.c`,
`ua_session.c`, the lists of `ua_securechannel_manager.c`, the session services and `processMSG`.

Sessions and channels are objects with an address that is not used again. The lists of the managers
and of the channels hold addresses, and an object that is removed stays where it is until the
delayed callbacks are executed. Memory, random tokens, nonces, signatures and the decision of the
access control come from outside. Durations are in the unit of `UA_DateTime`. When the token of a
channel has timed out is a matter of `ServerCore`.
-/

namespace OpcUa

open StatusCode

structure ManagedSession where
  authenticationToken : NodeId
  channel : Option Nat
  activated : Bool
  timeout : Int
  validTill : Int
deriving DecidableEq, Repr

structure ManagedChannel where
  opened : Bool
  channelId : BitVec 32
  connection : Option Nat
  sessions : List Nat
deriving DecidableEq, Repr

inductive DelayedCallback where
  | removeSession (address : Nat)
  | removeSecureChannel (address : Nat)
deriving DecidableEq, Repr

structure ManagersConfig where
  maxSecureChannels : Nat
  maxSessions : Nat
  maxSessionTimeout : Int
deriving DecidableEq, Repr

structure Managers where
  sessions : List Nat
  currentSessionCount : Nat
  channels : List Nat
  currentChannelCount : Nat
  lastChannelId : BitVec 32
  delayedCallbacks : List DelayedCallback
  sessionAt : Nat → Option ManagedSession
  channelAt : Nat → Option ManagedChannel
  connections : Nat → Option Nat
  nextAddress : Nat

inductive Service where
  | getEndpoints
  | findServers
  | registerServer
  | registerServer2
  | createSession
  | activateSession
  | closeSession
  | read
  | write
  | browse
  | browseNext
  | registerNodes
  | unregisterNodes
  | translateBrowsePathsToNodeIds
  | createSubscription
  | publish
  | republish
  | modifySubscription
  | setPublishingMode
  | deleteSubscriptions
  | createMonitoredItems
  | deleteMonitoredItems
  | modifyMonitoredItems
  | setMonitoringMode
  | call
  | addNodes
  | addReferences
  | deleteNodes
  | deleteReferences
deriving DecidableEq, Repr

structure ServiceRequest where
  requestTypeId : NodeId
  authenticationToken : NodeId
  requestedSessionTimeout : Int
deriving DecidableEq, Repr

/-- What a request meets outside of the managers. `memory` tells for the address of an object
whether the callback that removes it can be registered. -/
structure RequestSurroundings where
  now : Int
  memory : Nat → Bool
  entryMemory : Bool
  newToken : NodeId
  decodeStatus : StatusCode
  certificateStatus : StatusCode
  endpointsStatus : StatusCode
  signatureStatus : StatusCode
  accessControlStatus : StatusCode
  nonceStatus : StatusCode
  responseStatus : StatusCode
  beginStatus : StatusCode

/-- How a request ends: with a ServiceFault, with the result of CreateSession or ActivateSession,
without an answer, or with the call of the service. The anonymous session is `none`. -/
inductive Answer where
  | fault (status : StatusCode)
  | custom (status : StatusCode)
  | unsent (status : StatusCode)
  | executed (service : Service) (session : Option Nat)
deriving DecidableEq, Repr

def getServicePointers (requestTypeId : BitVec 32) : Option Service :=
  match requestTypeId.toNat with
  | 422 => some .findServers
  | 428 => some .getEndpoints
  | 437 => some .registerServer
  | 461 => some .createSession
  | 467 => some .activateSession
  | 473 => some .closeSession
  | 488 => some .addNodes
  | 494 => some .addReferences
  | 500 => some .deleteNodes
  | 506 => some .deleteReferences
  | 527 => some .browse
  | 533 => some .browseNext
  | 554 => some .translateBrowsePathsToNodeIds
  | 560 => some .registerNodes
  | 566 => some .unregisterNodes
  | 631 => some .read
  | 673 => some .write
  | 712 => some .call
  | 751 => some .createMonitoredItems
  | 763 => some .modifyMonitoredItems
  | 769 => some .setMonitoringMode
  | 781 => some .deleteMonitoredItems
  | 787 => some .createSubscription
  | 793 => some .modifySubscription
  | 799 => some .setPublishingMode
  | 826 => some .publish
  | 832 => some .republish
  | 847 => some .deleteSubscriptions
  | 12211 => some .registerServer2
  | _ => none

def Service.sessionRequired : Service → Bool
  | getEndpoints => false
  | findServers => false
  | registerServer => false
  | registerServer2 => false
  | createSession => false
  | _ => true

def nodeIdIsNull (nodeId : NodeId) : Bool :=
  nodeId.namespaceIndex == 0 &&
    match nodeId.identifier with
    | .numeric value => value == 0
    | .guid value => value == ⟨0, 0, 0, 0⟩
    | .string text => text.length == 0
    | .byteString text => text.length == 0

def ServiceRequest.service (request : ServiceRequest) : Option Service :=
  match request.requestTypeId with
  | ⟨0, .numeric value⟩ => getServicePointers value
  | _ => none

namespace Managers

def initial : Managers where
  sessions := []
  currentSessionCount := 0
  channels := []
  currentChannelCount := 0
  lastChannelId := 1
  delayedCallbacks := []
  sessionAt _ := none
  channelAt _ := none
  connections _ := none
  nextAddress := 0

def modifySession (managers : Managers) (address : Nat)
    (change : ManagedSession → ManagedSession) : Managers :=
  { managers with sessionAt :=
      Function.update managers.sessionAt address ((managers.sessionAt address).map change) }

def modifyChannel (managers : Managers) (address : Nat)
    (change : ManagedChannel → ManagedChannel) : Managers :=
  { managers with channelAt :=
      Function.update managers.channelAt address ((managers.channelAt address).map change) }

def updateLifetime (now : Int) (session : ManagedSession) : ManagedSession :=
  { session with validTill := now + session.timeout }

def attachToSecureChannel (managers : Managers) (session channel : Nat) : Managers :=
  (managers.modifyChannel channel fun entry =>
    { entry with sessions := session :: entry.sessions }).modifySession session fun entry =>
      { entry with channel := some channel }

/-- LIST_REMOVE takes the header out of the list that it is in. -/
def detachFromSecureChannel (managers : Managers) (session : Nat) : Managers :=
  match (managers.sessionAt session).bind ManagedSession.channel with
  | none => managers
  | some _ =>
    let managers := managers.modifySession session fun entry => { entry with channel := none }
    { managers with channelAt := fun address => (managers.channelAt address).map fun entry =>
        { entry with sessions := entry.sessions.erase session } }

def removeSession (memory : Bool) (managers : Managers) (session : Nat) : StatusCode × Managers :=
  let managers := managers.detachFromSecureChannel session
  let managers := managers.modifySession session fun entry => { entry with activated := false }
  if !memory then (badOutOfMemory, managers)
  else
    (good, { managers with
      delayedCallbacks := .removeSession session :: managers.delayedCallbacks
      sessions := managers.sessions.erase session
      currentSessionCount := managers.currentSessionCount - 1 })

def hasToken (managers : Managers) (token : NodeId) (session : Nat) : Bool :=
  (managers.sessionAt session).any fun entry => nodeIdEqual entry.authenticationToken token

def removeSessionByToken (memory : Nat → Bool) (managers : Managers) (token : NodeId) :
    StatusCode × Managers :=
  match managers.sessions.find? (managers.hasToken token) with
  | none => (badSessionIdInvalid, managers)
  | some session => removeSession (memory session) managers session

def expired (managers : Managers) (now : Int) (session : Nat) : Bool :=
  (managers.sessionAt session).any fun entry => entry.validTill < now

def cleanupSessions (memory : Nat → Bool) (now : Int) (managers : Managers) : Managers :=
  managers.sessions.foldl (fun managers session =>
    if managers.expired now session then (removeSession (memory session) managers session).2
    else managers) managers

def getSessionByToken (managers : Managers) (now : Int) (token : NodeId) : Option Nat :=
  match managers.sessions.find? (managers.hasToken token) with
  | none => none
  | some session => if managers.expired now session then none else some session

def insertSession (managers : Managers) (session : ManagedSession) : Managers :=
  { managers with
    currentSessionCount := managers.currentSessionCount + 1
    sessionAt := Function.update managers.sessionAt managers.nextAddress (some session)
    sessions := managers.nextAddress :: managers.sessions
    nextAddress := managers.nextAddress + 1 }

def createSession (config : ManagersConfig) (surroundings : RequestSurroundings)
    (managers : Managers) (requestedSessionTimeout : Int) : StatusCode × Managers × Nat :=
  if managers.currentSessionCount ≥ config.maxSessions then (badTooManySessions, managers, 0)
  else if !surroundings.entryMemory then (badOutOfMemory, managers, 0)
  else
    let timeout :=
      if requestedSessionTimeout ≤ config.maxSessionTimeout ∧ requestedSessionTimeout > 0 then
        requestedSessionTimeout else config.maxSessionTimeout
    let session := updateLifetime surroundings.now ⟨surroundings.newToken, none, false, timeout, 0⟩
    (good, managers.insertSession session, managers.nextAddress)

def generateNonce (managers : Managers) (nonceStatus : StatusCode) (session : Nat) : StatusCode :=
  match (managers.sessionAt session).bind ManagedSession.channel with
  | none => badInternalError
  | some _ => nonceStatus

def removeSecureChannel (memory : Bool) (managers : Managers) (channel : Nat) :
    StatusCode × Managers :=
  if !memory then (badOutOfMemory, managers)
  else
    (good, { managers with
      delayedCallbacks := .removeSecureChannel channel :: managers.delayedCallbacks
      channels := managers.channels.erase channel
      currentChannelCount := managers.currentChannelCount - 1 })

def hasNoConnection (managers : Managers) (channel : Nat) : Bool :=
  (managers.channelAt channel).any fun entry => entry.connection.isNone

def cleanupChannels (memory timedOut : Nat → Bool) (managers : Managers) : Managers :=
  managers.channels.foldl (fun managers channel =>
    if timedOut channel || managers.hasNoConnection channel then
      (removeSecureChannel (memory channel) managers channel).2
    else managers) managers

def withoutSession (managers : Managers) (channel : Nat) : Bool :=
  (managers.channelAt channel).any fun entry => entry.sessions.isEmpty

def purgeFirstChannelWithoutSession (memory : Nat → Bool) (managers : Managers) :
    Option Managers :=
  match managers.channels.find? managers.withoutSession with
  | none => none
  | some channel => some (removeSecureChannel (memory channel) managers channel).2

def insertChannel (managers : Managers) (channel : ManagedChannel) : Managers :=
  { managers with
    channels := managers.nextAddress :: managers.channels
    currentChannelCount := managers.currentChannelCount + 1
    channelAt := Function.update managers.channelAt managers.nextAddress (some channel)
    nextAddress := managers.nextAddress + 1 }

def createChannel (config : ManagersConfig) (memory : Nat → Bool) (entryMemory : Bool)
    (initStatus : StatusCode) (managers : Managers) (connection : Nat) : StatusCode × Managers :=
  if managers.connections connection ≠ none then (badInternalError, managers)
  else
    match (if managers.currentChannelCount ≥ config.maxSecureChannels then
      managers.purgeFirstChannelWithoutSession memory else some managers) with
    | none => (badOutOfMemory, managers)
    | some managers =>
      if !entryMemory then (badOutOfMemory, managers)
      else if initStatus ≠ good then (initStatus, managers)
      else
        let address := managers.nextAddress
        let managers := managers.insertChannel ⟨false, 0, some connection, []⟩
        (good, { managers with
          connections := Function.update managers.connections connection (some address) })

def closeChannel (memory : Nat → Bool) (managers : Managers) (channelId : BitVec 32) :
    StatusCode × Managers :=
  match managers.channels.find? fun channel =>
    (managers.channelAt channel).any fun entry => entry.channelId == channelId with
  | none => (badInternalError, managers)
  | some channel => removeSecureChannel (memory channel) managers channel

/-- `UA_SecureChannelManager_open` with the policy, the keys and the answer from outside. What
`processOPN` cannot open it closes. -/
def openChannel (memory : Nat → Bool) (policyStatus keyStatus sendStatus : StatusCode)
    (managers : Managers) (channel : Nat) : StatusCode × Managers :=
  match managers.channelAt channel with
  | none => (badInternalError, managers)
  | some entry =>
    if entry.opened then (badInternalError, (managers.closeChannel memory entry.channelId).2)
    else if policyStatus ≠ good then
      (policyStatus, (managers.closeChannel memory entry.channelId).2)
    else
      let channelId := managers.lastChannelId
      let managers := managers.modifyChannel channel fun entry => { entry with channelId }
      let managers := { managers with lastChannelId := channelId + 1 }
      if keyStatus ≠ good then (keyStatus, (managers.closeChannel memory channelId).2)
      else
        let managers := managers.modifyChannel channel fun entry => { entry with opened := true }
        if sendStatus ≠ good then (sendStatus, (managers.closeChannel memory channelId).2)
        else (good, managers)

section

variable (managers : Managers)

def detachSecureChannel (connection : Nat) : Managers :=
  let managers : Managers := match managers.connections connection with
    | none => managers
    | some channel => managers.modifyChannel channel fun entry =>
      { entry with connection :=
          if entry.connection = some connection then none else entry.connection }
  { managers with connections := Function.update managers.connections connection none }

/-- `UA_SecureChannel_deleteMembersCleanup`: the sessions stay, without a channel. -/
def deleteMembersCleanup (channel : Nat) : Managers :=
  match managers.channelAt channel with
  | none => managers
  | some entry =>
    let managers : Managers := match entry.connection with
      | none => managers
      | some connection => managers.detachSecureChannel connection
    let managers : Managers := { managers with
      sessionAt := fun session =>
        if session ∈ entry.sessions then
          (managers.sessionAt session).map fun other => { other with channel := none }
        else managers.sessionAt session }
    managers.modifyChannel channel fun entry => { entry with sessions := [] }

def executeCallback : DelayedCallback → Managers
  | .removeSession session =>
    let managers := managers.detachFromSecureChannel session
    { managers with sessionAt := Function.update managers.sessionAt session none }
  | .removeSecureChannel channel =>
    let managers := managers.deleteMembersCleanup channel
    { managers with channelAt := Function.update managers.channelAt channel none }

def cleanupDelayedCallbacks : Managers :=
  managers.delayedCallbacks.foldl executeCallback { managers with delayedCallbacks := [] }

end

def serviceCreateSession (config : ManagersConfig) (surroundings : RequestSurroundings)
    (managers : Managers) (channel : Nat) (requestedSessionTimeout : Int) :
    StatusCode × Managers :=
  match managers.channelAt channel with
  | none => (badInternalError, managers)
  | some entry =>
    if entry.connection = none then (badInternalError, managers)
    else if surroundings.certificateStatus ≠ good then (surroundings.certificateStatus, managers)
    else if entry.channelId = 0 then (badSecureChannelIdInvalid, managers)
    else if surroundings.endpointsStatus ≠ good then (surroundings.endpointsStatus, managers)
    else
      match createSession config surroundings managers requestedSessionTimeout with
      | (status, managers, session) =>
        if status ≠ good then (status, managers)
        else
          let managers := managers.attachToSecureChannel session channel
          let status := managers.generateNonce surroundings.nonceStatus session |||
            surroundings.responseStatus
          if status ≠ good then
            (status, (removeSessionByToken surroundings.memory managers surroundings.newToken).2)
          else (good, managers)

/-- A session that has lost its channel is not attached again. -/
def transferSession (managers : Managers) (session channel : Nat) : Managers :=
  let bound := (managers.sessionAt session).bind ManagedSession.channel
  if bound ≠ none ∧ bound ≠ some channel then
    (managers.detachFromSecureChannel session).attachToSecureChannel session channel
  else managers

def serviceActivateSession (surroundings : RequestSurroundings) (managers : Managers)
    (channel session : Nat) : StatusCode × Managers :=
  if managers.expired surroundings.now session then (badSessionIdInvalid, managers)
  else if surroundings.signatureStatus ≠ good then (surroundings.signatureStatus, managers)
  else if surroundings.accessControlStatus ≠ good then
    (surroundings.accessControlStatus, managers)
  else
    let managers := managers.transferSession session channel
    let managers := managers.modifySession session fun entry =>
      updateLifetime surroundings.now { entry with activated := true }
    let status := managers.generateNonce surroundings.nonceStatus session |||
      surroundings.responseStatus
    if status ≠ good then
      (status, (managers.detachFromSecureChannel session).modifySession session fun entry =>
        { entry with activated := false })
    else (good, managers)

def getSession (managers : Managers) (channel : Nat) (token : NodeId) : Option Nat :=
  match managers.channelAt channel with
  | none => none
  | some entry => entry.sessions.find? (managers.hasToken token)

def findSession (managers : Managers) (now : Int) (channel : Nat) (token : NodeId) : Option Nat :=
  match managers.getSession channel token with
  | some session => some session
  | none => if nodeIdIsNull token then none else managers.getSessionByToken now token

/-- The part of `processMSG` behind the checks. Publish is not answered at once, the others begin
their answer before the service is called. Only CloseSession changes the managers. -/
def executeService (surroundings : RequestSurroundings) (managers : Managers) (service : Service)
    (session : Option Nat) : Answer × Managers :=
  if service = .publish then (.executed service session, managers)
  else if surroundings.beginStatus ≠ good then (.unsent surroundings.beginStatus, managers)
  else if service = .closeSession then
    match session.bind managers.sessionAt with
    | none => (.executed service session, managers)
    | some entry => (.executed service session,
        (removeSessionByToken surroundings.memory managers entry.authenticationToken).2)
  else (.executed service session, managers)

def processMSG (config : ManagersConfig) (surroundings : RequestSurroundings) (managers : Managers)
    (channel : Nat) (request : ServiceRequest) : Answer × Managers :=
  match request.service with
  | none => (.fault badServiceUnsupported, managers)
  | some service =>
    if surroundings.decodeStatus ≠ good then (.fault surroundings.decodeStatus, managers)
    else if service = .createSession then
      match serviceCreateSession config surroundings managers channel
          request.requestedSessionTimeout with
      | (status, managers) => (.custom status, managers)
    else
      match managers.findSession surroundings.now channel request.authenticationToken with
      | none =>
        if service = .activateSession then (.fault badSessionIdInvalid, managers)
        else if service.sessionRequired then (.fault badSessionIdInvalid, managers)
        else executeService surroundings managers service none
      | some session =>
        if service = .activateSession then
          match serviceActivateSession surroundings managers channel session with
          | (status, managers) => (.custom status, managers)
        else
          match managers.sessionAt session with
          | none => (.fault badInternalError, managers)
          | some entry =>
            if service.sessionRequired && !entry.activated then
              (.fault badSessionNotActivated, (removeSessionByToken surroundings.memory
                managers entry.authenticationToken).2)
            else if entry.channel ≠ some channel then
              (.fault badSessionNotActivated, managers)
            else
              executeService surroundings
                (managers.modifySession session (updateLifetime surroundings.now)) service
                (some session)

inductive Event where
  | createChannel (connection : Nat) (memory : Nat → Bool) (entryMemory : Bool)
      (initStatus : StatusCode)
  | openChannel (channel : Nat) (memory : Nat → Bool)
      (policyStatus keyStatus sendStatus : StatusCode)
  | closeChannel (channel : Nat) (memory : Nat → Bool)
  | request (channel : Nat) (surroundings : RequestSurroundings) (request : ServiceRequest)
  | cleanup (now : Int) (memory timedOut : Nat → Bool)
  | cleanupDelayedCallbacks
  | removeConnection (connection : Nat)

def step (config : ManagersConfig) (managers : Managers) : Event → Managers
  | .createChannel connection memory entryMemory initStatus =>
    (managers.createChannel config memory entryMemory initStatus connection).2
  | .openChannel channel memory policyStatus keyStatus sendStatus =>
    (managers.openChannel memory policyStatus keyStatus sendStatus channel).2
  | .closeChannel channel memory =>
    match managers.channelAt channel with
    | none => managers
    | some entry => (managers.closeChannel memory entry.channelId).2
  | .request channel surroundings request =>
    match managers.channelAt channel with
    | none => managers
    | some _ => (managers.processMSG config surroundings channel request).2
  | .cleanup now memory timedOut =>
    (managers.cleanupSessions memory now).cleanupChannels memory timedOut
  | .cleanupDelayedCallbacks => managers.cleanupDelayedCallbacks
  | .removeConnection connection => managers.detachSecureChannel connection

/-- The runs of the managers whose steps are all of the kind that is allowed. -/
inductive Run (config : ManagersConfig) (allowed : Managers → Event → Prop) : Managers → Prop
  | initial : Run config allowed initial
  | step {managers : Managers} (run : Run config allowed managers) (event : Event)
      (allows : allowed managers event) : Run config allowed (managers.step config event)

end Managers

end OpcUa
