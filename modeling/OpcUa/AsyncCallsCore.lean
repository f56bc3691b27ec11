import OpcUa.Library.GuardedRuns
import OpcUa.TimerCore

/-!
The asynchronous service calls of the client, from `ua_client.c` and `ua_client_worker.c`.

A callback may do anything with the client: send, wait for a synchronous service, in which other
responses are processed, and reconnect, which cancels all calls. The functions that run a callback
and go on after it are a stack of frames. A step runs up to the next callback. There is none if an
entry would be used that is freed: an entry is freed when it is out of the list and its callback
has returned.
-/

namespace OpcUa

open StatusCode

/-- `AsyncServiceCall`, with the address of the entry. Of the response type its id is read. -/
structure AsyncServiceCall where
  address : Nat
  requestId : BitVec 32
  binaryEncodingId : Nat
  timeout : BitVec 32
  start : Int
deriving DecidableEq, Repr

/-- A message of a response as `processServiceResponse` gets it. The type is `none` if it cannot be
decoded, and `decoded` is what decoding the rest returns. -/
structure ServiceMessage where
  requestId : BitVec 32
  responseTypeId : Option Nat
  decoded : StatusCode
deriving DecidableEq, Repr

inductive CallOutcome where
  | response (retval : StatusCode)
  | cancelled (statusCode : StatusCode)
deriving DecidableEq, Repr

structure Invocation where
  address : Nat
  requestId : BitVec 32
  outcome : CallOutcome
deriving DecidableEq, Repr

inductive CancelLoop where
  | removeAll
  | asyncServiceTimeoutCheck (now : Int)
deriving DecidableEq, Repr

inductive CallFrame where
  /-- `processAsyncResponse` has called the callback of an entry. -/
  | answering (ac : AsyncServiceCall)
  /-- A loop has called the callback of the entry it removed, and goes on with `ac_tmp`. -/
  | cancelling (loop : CancelLoop) (ac_tmp : Option AsyncServiceCall)
deriving DecidableEq, Repr

structure AsyncClient where
  asyncServiceCalls : List AsyncServiceCall
  requestId : BitVec 32
  unused : Nat
  frames : List CallFrame
  issued : List AsyncServiceCall
  invocations : List Invocation
deriving DecidableEq, Repr

inductive AsyncEvent where
  | send (memory renewed sent : Bool) (binaryEncodingId : Nat) (timeout : BitVec 32) (start : Int)
  | service (renewed sent : Bool)
  /-- A message is received while the response to `expected` is waited for. -/
  | receive (expected : Option (BitVec 32)) (message : ServiceMessage)
  | removeAll
  | asyncServiceTimeoutCheck (now : Int)
  | returned
deriving DecidableEq, Repr

def serviceFaultId : Nat := 397

def AsyncServiceCall.retval (ac : AsyncServiceCall) (responseTypeId : Nat) (decoded : StatusCode) :
    StatusCode :=
  if responseTypeId ≠ ac.binaryEncodingId then
    if responseTypeId = serviceFaultId then decoded else badCommunicationError
  else decoded

def CancelLoop.cancels (loop : CancelLoop) (ac : AsyncServiceCall) : Bool :=
  match loop with
  | .removeAll => true
  | .asyncServiceTimeoutCheck now =>
    ac.timeout ≠ 0 && ac.start + (ac.timeout.toNat * dateTimeMsec : Nat) ≤ now

def CancelLoop.statusCode : CancelLoop → StatusCode
  | .removeAll => badShutdown
  | .asyncServiceTimeoutCheck _ => badTimeout

namespace AsyncClient

def init : AsyncClient := ⟨[], 0, 0, [], [], []⟩

section

variable (client : AsyncClient)

def sendSymmetricServiceRequest (renewed sent : Bool) : AsyncClient × Option (BitVec 32) :=
  if !renewed then (client, none)
  else
    let rqId := client.requestId + 1
    ({ client with requestId := rqId }, if sent then some rqId else none)

def asyncServiceEx (memory renewed sent : Bool) (binaryEncodingId : Nat) (timeout : BitVec 32)
    (start : Int) : AsyncClient :=
  if !memory then client
  else
    let result := client.sendSymmetricServiceRequest renewed sent
    match result.2 with
    | none => result.1
    | some requestId =>
      let ac := ⟨result.1.unused, requestId, binaryEncodingId, timeout, start⟩
      { result.1 with
        asyncServiceCalls := ac :: result.1.asyncServiceCalls
        unused := result.1.unused + 1
        issued := ac :: result.1.issued }

/-- The callback of an entry is called by a function that goes on after it. -/
def callback (ac : AsyncServiceCall) (requestId : BitVec 32) (outcome : CallOutcome)
    (frame : CallFrame) : AsyncClient :=
  { client with
    frames := frame :: client.frames
    invocations := ⟨ac.address, requestId, outcome⟩ :: client.invocations }

def processAsyncResponse (requestId : BitVec 32) (responseTypeId : Nat) (decoded : StatusCode) :
    AsyncClient :=
  match client.asyncServiceCalls.find? (fun ac => ac.requestId = requestId) with
  | none => client
  | some ac =>
    client.callback ac requestId (.response (ac.retval responseTypeId decoded)) (.answering ac)

def processServiceResponse (expected : Option (BitVec 32)) (message : ServiceMessage) :
    AsyncClient :=
  match message.responseTypeId with
  | none => client
  | some responseTypeId =>
    if expected ≠ some message.requestId then
      client.processAsyncResponse message.requestId responseTypeId message.decoded
    else client

end

def cancelFrom (client : AsyncClient) (loop : CancelLoop) : List AsyncServiceCall → AsyncClient
  | [] => client
  | ac :: rest =>
    if loop.cancels ac then
      { client with asyncServiceCalls := client.asyncServiceCalls.erase ac }.callback ac
        ac.requestId (.cancelled loop.statusCode) (.cancelling loop rest.head?)
    else client.cancelFrom loop rest

def resume (client : AsyncClient) (loop : CancelLoop) : Option AsyncServiceCall → Option AsyncClient
  | none => some client
  | some ac =>
    if ac ∉ client.asyncServiceCalls then none
    else some (client.cancelFrom loop
      (client.asyncServiceCalls.drop (client.asyncServiceCalls.idxOf ac)))

def removeAll (client : AsyncClient) : AsyncClient :=
  client.cancelFrom .removeAll client.asyncServiceCalls

def asyncServiceTimeoutCheck (client : AsyncClient) (now : Int) : AsyncClient :=
  client.cancelFrom (.asyncServiceTimeoutCheck now) client.asyncServiceCalls

/-- What follows the callback on top. After a response its entry is removed from the list. -/
def returned (client : AsyncClient) : Option AsyncClient :=
  match client.frames with
  | [] => some client
  | .answering ac :: frames =>
    if ac ∉ client.asyncServiceCalls then none
    else some { client with
      asyncServiceCalls := client.asyncServiceCalls.erase ac, frames := frames }
  | .cancelling loop ac_tmp :: frames => { client with frames := frames }.resume loop ac_tmp

def step (client : AsyncClient) : AsyncEvent → Option AsyncClient
  | .send memory renewed sent binaryEncodingId timeout start =>
    some (client.asyncServiceEx memory renewed sent binaryEncodingId timeout start)
  | .service renewed sent => some (client.sendSymmetricServiceRequest renewed sent).1
  | .receive expected message => some (client.processServiceResponse expected message)
  | .removeAll => some client.removeAll
  | .asyncServiceTimeoutCheck now => some (client.asyncServiceTimeoutCheck now)
  | .returned => client.returned

end AsyncClient

end OpcUa
