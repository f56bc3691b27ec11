import OpcUa.Library.GuardedRuns
import OpcUa.Types

/-!
The publish requests of the client and its acknowledgements, from `ua_client_subscriptions.c`, with
the parts of the asynchronous services and of the connection that they depend on.

A send may renew the channel, and the client deletes a subscription with a service. Both wait for a
response, and other responses are processed in the meantime. What is going on is a stack of frames.
Of the asynchronous calls only those of publish requests are listed. The callbacks of the user are
left out.
-/

namespace OpcUa

open StatusCode

structure Acknowledgement where
  subscriptionId : BitVec 32
  sequenceNumber : BitVec 32
deriving DecidableEq, Repr

structure PublishAnswer where
  serviceResult : StatusCode
  subscriptionId : BitVec 32
  sequenceNumber : BitVec 32
  availableSequenceNumbers : List (BitVec 32)
  memory : Bool
deriving DecidableEq, Repr

def PublishAnswer.ack (answer : PublishAnswer) : Acknowledgement :=
  ⟨answer.subscriptionId, answer.sequenceNumber⟩

def PublishAnswer.listed (answer : PublishAnswer) : Bool :=
  answer.serviceResult = good && answer.availableSequenceNumbers.contains answer.sequenceNumber

inductive PublishFrame where
  /-- A request of the loop of `UA_Client_Subscriptions_backgroundPublish` is sent. -/
  | sending (acks : List Acknowledgement)
  | answering (call : Nat)
  /-- The callback waits for the service that deletes the subscription, which is out of the list. -/
  | deleting (call : Nat) (sub : Option (BitVec 32))
deriving DecidableEq, Repr

/-- The client, with what it has sent, what it should acknowledge, and what it has dropped. -/
structure PublishingClient where
  session : Bool
  subscriptions : List (BitVec 32)
  outStandingPublishRequests : BitVec 16
  currentlyOutStandingPublishRequests : BitVec 16
  pendingNotificationsAcks : List Acknowledgement
  asyncServiceCalls : List Nat
  unused : Nat
  frames : List PublishFrame
  sent : List (List Acknowledgement)
  received : List Acknowledgement
  dropped : List Acknowledgement
deriving DecidableEq, Repr

inductive PublishEvent where
  /-- `UA_Client_run_iterate` fills up the requests. -/
  | publish (memory : Bool)
  | response (call : Nat) (answer : PublishAnswer) (memory : Bool)
  /-- `__UA_Client_AsyncServiceEx` returns. -/
  | sent (good : Bool) (memory : Bool)
  | deleted (removed : Bool) (memory : Bool)
  /-- `UA_Client_disconnect` begins, and waits for the response of the server. -/
  | closeSession
  /-- `UA_Client_close`, and the end of `UA_Client_disconnect`. -/
  | close
  /-- `UA_Client_connect` has opened a channel. -/
  | connect
  | createSession
  | createSubscription (subscriptionId : BitVec 32)
  | deleteSubscription (subscriptionId : BitVec 32)
deriving DecidableEq, Repr

namespace PublishingClient

def init (outStandingPublishRequests : BitVec 16) : PublishingClient where
  session := false
  subscriptions := []
  outStandingPublishRequests := outStandingPublishRequests
  currentlyOutStandingPublishRequests := 0
  pendingNotificationsAcks := []
  asyncServiceCalls := []
  unused := 0
  frames := []
  sent := []
  received := []
  dropped := []

section

variable (client : PublishingClient)

/-- The loop of `backgroundPublish` is left. If it was called by the callback of a call, the
callback returns and the call is removed. -/
def leave : Option PublishingClient :=
  match client.frames with
  | .answering call :: frames =>
    if call ∉ client.asyncServiceCalls then none
    else some { client with
      asyncServiceCalls := client.asyncServiceCalls.erase call, frames := frames }
  | _ => some client

/-- The loop of `UA_Client_Subscriptions_backgroundPublish` up to the next send. -/
def backgroundPublish (memory : Bool) : Option PublishingClient :=
  if !client.session then client.leave
  else if client.subscriptions = [] then client.leave
  else if client.currentlyOutStandingPublishRequests < client.outStandingPublishRequests then
    if !memory then client.leave
    else some { client with
      pendingNotificationsAcks := []
      currentlyOutStandingPublishRequests := client.currentlyOutStandingPublishRequests + 1
      frames := .sending client.pendingNotificationsAcks :: client.frames }
  else client.leave

def clean : PublishingClient :=
  { client with
    pendingNotificationsAcks := []
    subscriptions := []
    dropped := client.pendingNotificationsAcks ++ client.dropped }

def close : PublishingClient :=
  { client.clean with session := false }

def acknowledge (answer : PublishAnswer) (stored : Bool) : PublishingClient :=
  if !answer.listed then client
  else if stored then
    { client with pendingNotificationsAcks := answer.ack :: client.pendingNotificationsAcks }
  else { client with dropped := answer.ack :: client.dropped }

/-- `UA_Client_Subscriptions_processPublishResponse` and what `processPublishResponseAsync` does
after it. The frame of the callback is on top. -/
def processPublishResponse (call : Nat) (answer : PublishAnswer) (memory : Bool) :
    Option PublishingClient :=
  let counted := { client with
    currentlyOutStandingPublishRequests := client.currentlyOutStandingPublishRequests - 1
    received := if answer.listed then answer.ack :: client.received else client.received }
  let answering := { counted with frames := .answering call :: client.frames }
  if answer.serviceResult = badTooManyPublishRequests then
    if client.outStandingPublishRequests > 1 then
      { answering with
        outStandingPublishRequests := client.outStandingPublishRequests - 1 }.backgroundPublish memory
    else
      let sub := client.subscriptions.find? (· = answer.subscriptionId)
      some { counted with
        subscriptions := client.subscriptions.erase answer.subscriptionId
        frames := .deleting call sub :: client.frames }
  else if answer.serviceResult = badShutdown then answering.backgroundPublish memory
  else if client.subscriptions = [] then
    (answering.acknowledge answer false).backgroundPublish memory
  else if answer.serviceResult = badSessionClosed then answering.backgroundPublish memory
  else if answer.serviceResult = badSessionIdInvalid then answering.close.backgroundPublish memory
  else if answer.serviceResult ≠ good then answering.backgroundPublish memory
  else if answer.subscriptionId ∉ client.subscriptions then
    (answering.acknowledge answer false).backgroundPublish memory
  else (answering.acknowledge answer answer.memory).backgroundPublish memory

/-- `UA_Client_AsyncService_removeAll`: the callback of each call gets a response that counts it,
and there is no session. -/
def removeAll : PublishingClient :=
  { client with
    currentlyOutStandingPublishRequests :=
      client.asyncServiceCalls.foldl (fun count _ => count - 1)
        client.currentlyOutStandingPublishRequests
    asyncServiceCalls := [] }

def receives : Bool :=
  match client.frames with
  | .answering _ :: _ => false
  | _ => true

def step : PublishEvent → Option PublishingClient
  | .publish memory => if client.frames ≠ [] then none else client.backgroundPublish memory
  | .response call answer memory =>
    if !client.receives then none
    else if call ∉ client.asyncServiceCalls then some client
    else client.processPublishResponse call answer memory
  | .sent good memory =>
    match client.frames with
    | .sending acks :: frames =>
      if good then
        { client with
          asyncServiceCalls := client.unused :: client.asyncServiceCalls
          unused := client.unused + 1
          sent := acks :: client.sent
          frames := frames }.backgroundPublish memory
      else { client with frames := frames }.leave
    | _ => none
  | .deleted removed memory =>
    match client.frames with
    | .deleting call sub :: frames =>
      { client with
        subscriptions := if removed then client.subscriptions
          else sub.toList ++ client.subscriptions
        frames := .answering call :: frames }.backgroundPublish memory
    | _ => none
  | .closeSession => if client.frames ≠ [] then none else some { client with session := false }
  | .close => some client.close
  | .connect =>
    if client.frames ≠ [] ∨ client.session then none
    else some { client.removeAll with currentlyOutStandingPublishRequests := 0 }
  | .createSession =>
    if client.frames ≠ [] ∨ client.session then none
    else some { client.clean with session := true }
  | .createSubscription subscriptionId =>
    if client.frames ≠ [] then none
    else some { client with subscriptions := subscriptionId :: client.subscriptions }
  | .deleteSubscription subscriptionId =>
    if client.frames ≠ [] then none
    else some { client with subscriptions := client.subscriptions.erase subscriptionId }

end

end PublishingClient

end OpcUa
