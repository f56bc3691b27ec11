import OpcUa.SecureChannelChecks

/-!
The connections and SecureChannels of the server: `ua_securechannel_manager.c`, the OPN and CLO
services and the dispatch in `ua_server_binary.c`. What `processMSG` does with a message is a
parameter. A channel that is removed from the manager lives on until the delayed callbacks
are executed.
-/

namespace OpcUa

open LittleEndian StatusCode

structure Endpoint (Context : Type) where
  securityPolicy : SecurityPolicy Context
  securityMode : MessageSecurityMode

/-- `requestHeader` is the index of RequestHeader in the table of the types. -/
structure ServerConfig (Context : Type) where
  endpoints : List (Endpoint Context)
  maxSecureChannels : Nat
  maxSecurityTokenLifetime : BitVec 32
  types : TypeEnv
  requestHeader : Nat

inductive ConnectionState where
  | opening
  | established
  | closed
deriving DecidableEq, Repr

structure ServerConnection where
  state : ConnectionState
  sendBufferSize : BitVec 32
  recvBufferSize : BitVec 32
  channel : Option Nat
deriving DecidableEq, Repr

structure ChannelEntry (Context : Type) where
  address : Nat
  securityPolicy : SecurityPolicy Context
  hasSession : Bool
  channel : SecureChannel Context

structure Server (Context : Type) where
  lastChannelId : BitVec 32
  lastTokenId : BitVec 32
  nextAddress : Nat
  channels : List (ChannelEntry Context)
  removed : List (ChannelEntry Context)
  connections : Nat → ServerConnection

/-- What a step takes from outside of the server: the wall clock and the monotonic clock, the
random nonce, whether the network layer takes the answers, and the result of a service with the
number of the last chunk that it has sent. -/
structure Surroundings (Context : Type) where
  now : BitVec 64
  nowMonotonic : BitVec 64
  nonce : StatusCode × List Byte
  sendStatus : StatusCode
  serve : SecureChannel Context → Delivery → StatusCode × BitVec 32

structure OpenSecureChannelRequest where
  requestType : BitVec 32
  securityMode : MessageSecurityMode
  clientNonce : List Byte
  requestedLifetime : BitVec 32
deriving DecidableEq, Repr

variable {Context : Type}

namespace Server

def find (server : Server Context) (address : Nat) : Option (ChannelEntry Context) :=
  (server.channels ++ server.removed).find? fun entry => entry.address == address

def isManaged (server : Server Context) (address : Nat) : Bool :=
  server.channels.any fun entry => entry.address == address

def store (server : Server Context) (address : Nat) (channel : SecureChannel Context) :
    Server Context :=
  let write (entry : ChannelEntry Context) :=
    if entry.address = address then { entry with channel } else entry
  { server with channels := server.channels.map write, removed := server.removed.map write }

def setConnection (server : Server Context) (index : Nat) (connection : ServerConnection) :
    Server Context :=
  { server with connections := Function.update server.connections index connection }

end Server

def removeSecureChannel (server : Server Context) (entry : ChannelEntry Context) : Server Context :=
  { server with
    channels := server.channels.filter fun other => other.address != entry.address
    removed := entry :: server.removed }

/-- `UA_SecureChannelManager_close`, whose result nobody looks at. -/
def closeSecureChannel (server : Server Context) (channelId : BitVec 32) : Server Context :=
  match server.channels.find? fun entry => entry.channel.securityToken.channelId == channelId with
  | none => server
  | some entry => removeSecureChannel server entry

def purgeFirstChannelWithoutSession (server : Server Context) : Option (Server Context) :=
  (server.channels.find? fun entry => !entry.hasSession).map (removeSecureChannel server)

/-- `UA_SecureChannel_init` -/
def initSecureChannel (policy : SecurityPolicy Context) (remoteCertificate : UaString) :
    StatusCode × SecureChannel Context :=
  match policy.newContext remoteCertificate with
  | (status, context) =>
    let channel : SecureChannel Context :=
      { state := .fresh, securityMode := .invalid, securityToken := .init,
        nextSecurityToken := .init, context, remoteNonce := [], localNonce := [],
        receiveSequenceNumber := 0, sendSequenceNumber := 0, chunks := [] }
    if policy.verifyCertificate remoteCertificate ≠ good then
      (policy.verifyCertificate remoteCertificate, channel)
    else if status ≠ good then (status, channel)
    else (policy.makeCertificateThumbprint remoteCertificate, channel)

section

variable (config : ServerConfig Context)

/-- `UA_SecureChannelManager_create` -/
def createManaged (surroundings : Surroundings Context) (server : Server Context) (index : Nat)
    (policy : SecurityPolicy Context) (remoteCertificate : UaString) :
    StatusCode × Server Context :=
  if (server.connections index).channel ≠ none then (badInternalError, server)
  else
    match (if server.channels.length ≥ config.maxSecureChannels then
      purgeFirstChannelWithoutSession server else some server) with
    | none => (badOutOfMemory, server)
    | some server =>
      match initSecureChannel policy remoteCertificate with
      | (status, channel) =>
        if status ≠ good then (status, server)
        else
          let channel := { channel with
            securityToken := ⟨0, server.lastTokenId, surroundings.now,
              config.maxSecurityTokenLifetime⟩ }
          let entry := ⟨server.nextAddress, policy, false, channel⟩
          let server := { server with
            lastTokenId := server.lastTokenId + 1
            nextAddress := server.nextAddress + 1
            channels := entry :: server.channels }
          (good, server.setConnection index
            { server.connections index with channel := some entry.address })

def revisedLifetime (requested : BitVec 32) : BitVec 32 :=
  let revised :=
    if requested.toNat > config.maxSecurityTokenLifetime.toNat then
      config.maxSecurityTokenLifetime else requested
  if revised = 0 then config.maxSecurityTokenLifetime else revised

/-- `UA_SecureChannelManager_open` -/
def openSecureChannel (surroundings : Surroundings Context) (policy : SecurityPolicy Context)
    (server : Server Context) (channel : SecureChannel Context) (request : OpenSecureChannelRequest)
    :
    StatusCode × Server Context × SecureChannel Context :=
  if channel.state ≠ .fresh then (badInternalError, server, channel)
  else if request.securityMode ≠ .none ∧ policy.policyUri.bytes = securityPolicyNoneUri.bytes then
    (badSecurityModeRejected, server, channel)
  else
    let channel := { channel with
      securityMode := request.securityMode
      securityToken := { channel.securityToken with
        channelId := server.lastChannelId, createdAt := surroundings.now,
        revisedLifetime := revisedLifetime config request.requestedLifetime }
      remoteNonce := request.clientNonce
      localNonce := surroundings.nonce.2 }
    let server := { server with lastChannelId := server.lastChannelId + 1 }
    match generateNewKeys policy channel with
    | (status, channel) =>
      if surroundings.nonce.1 ||| status ≠ good then
        (surroundings.nonce.1 ||| status, server, channel)
      else (good, server, { channel with state := .opened })

/-- `UA_SecureChannelManager_renew` -/
def renewSecureChannel (surroundings : Surroundings Context) (server : Server Context)
    (channel : SecureChannel Context) (request : OpenSecureChannelRequest) :
    StatusCode × Server Context × SecureChannel Context :=
  if channel.state ≠ .opened then (badInternalError, server, channel)
  else
    let issues := channel.nextSecurityToken.tokenId = 0
    let nextSecurityToken := if issues then
        ⟨channel.securityToken.channelId, server.lastTokenId, surroundings.now,
          revisedLifetime config request.requestedLifetime⟩
      else channel.nextSecurityToken
    let server := if issues then { server with lastTokenId := server.lastTokenId + 1 } else server
    let channel := { channel with
      nextSecurityToken, remoteNonce := request.clientNonce, localNonce := surroundings.nonce.2 }
    if surroundings.nonce.1 ≠ good then (surroundings.nonce.1, server, channel)
    else
      (good, server, { channel with
        nextSecurityToken := { nextSecurityToken with createdAt := surroundings.nowMonotonic } })

/-- `Service_OpenSecureChannel`: ISSUE is 0 and RENEW is 1. -/
def serviceOpenSecureChannel (surroundings : Surroundings Context) (policy : SecurityPolicy Context)
    (server : Server Context) (channel : SecureChannel Context) (request : OpenSecureChannelRequest)
    :
    StatusCode × Server Context × SecureChannel Context :=
  if request.requestType = 1 then renewSecureChannel config surroundings server channel request
  else if request.requestType ≠ 0 then (badInternalError, server, channel)
  else openSecureChannel config surroundings policy server channel request

end

/-- The first member of the union, whatever the type of the identifier says. -/
def NodeIdentifier.asNumeric : NodeIdentifier → BitVec 32
  | numeric value => value
  | string text => BitVec.ofNat 32 text.length
  | guid value => value.data1
  | byteString text => BitVec.ofNat 32 text.length

def requestHeaderType (index : Nat) : DataType :=
  structuredType 389 112 index false 391
    [scalarMember 16, scalarMember 12, scalarMember 6, scalarMember 6, scalarMember 11,
      scalarMember 6, scalarMember 21]

def openSecureChannelRequestType (requestHeader : Nat) : DataType :=
  structuredType 444 152 (requestHeader + 1) false 446
    [scalarMember requestHeader, scalarMember 6, scalarMember 5, scalarMember 5, scalarMember 14,
      scalarMember 6]

def OpenSecureChannelRequest.ofValue : Value → Option OpenSecureChannelRequest
  | .struct [_, _, .leaf (.uint32 requestType), .leaf (.uint32 securityMode),
      .leaf (.string clientNonce), .leaf (.uint32 requestedLifetime)] =>
      some ⟨requestType, .ofCode securityMode, clientNonce.bytes, requestedLifetime⟩
  | _ => none

def decodeOpenRequest (config : ServerConfig Context) (message : List Byte) :
    Except StatusCode (BitVec 32 × OpenSecureChannelRequest) :=
  let typeId := nodeIdDecodeBinary (chunkInput message) 0
  let offset := if typeId.status = good then typeId.pos else 0
  let request := uaDecodeBinary config.types message offset
    (openSecureChannelRequestType config.requestHeader)
  if typeId.status ||| request.status ≠ good then .error (typeId.status ||| request.status)
  else
    match request.dst.bind OpenSecureChannelRequest.ofValue with
    | some request => .ok (typeId.value.identifier.asNumeric, request)
    | none => .error badInternalError

def processOPN (config : ServerConfig Context) (surroundings : Surroundings Context)
    (policy : SecurityPolicy Context) (address : Nat) (server : Server Context)
    (channel : SecureChannel Context) (message : List Byte) :
    StatusCode × Server Context × SecureChannel Context :=
  match decodeOpenRequest config message with
  | .error status =>
    (status, closeSecureChannel server channel.securityToken.channelId, channel)
  | .ok (typeId, request) =>
    -- the status is the one of the decoder
    if typeId ≠ 446 then
      (good, closeSecureChannel server channel.securityToken.channelId, channel)
    else
      match serviceOpenSecureChannel config surroundings policy server channel request with
      | (status, server, channel) =>
        let closed := closeSecureChannel (server.store address channel)
          channel.securityToken.channelId
        if status ≠ good then (status, closed, channel)
        else
          let answered := { channel with sendSequenceNumber := channel.sendSequenceNumber + 1 }
          if surroundings.sendStatus ≠ good then (surroundings.sendStatus, closed, answered)
          else (good, server, answered)

/-- `Service_CloseSecureChannel` answers nothing. -/
def processCLO (server : Server Context) (channel : SecureChannel Context) :
    StatusCode × Server Context × SecureChannel Context :=
  (good, closeSecureChannel server channel.securityToken.channelId, channel)

/-- The body of `processSecureChannelMessage`, on the object that the pointer leads to. -/
def dispatchMessage (config : ServerConfig Context) (surroundings : Surroundings Context)
    (policy : SecurityPolicy Context) (address : Nat) (server : Server Context)
    (channel : SecureChannel Context) (delivery : Delivery) :
    StatusCode × Server Context × SecureChannel Context :=
  let server := server.store address channel
  match delivery.messageType with
  | .opn => processOPN config surroundings policy address server channel delivery.message
  | .msg =>
    ((surroundings.serve channel delivery).1, server,
      { channel with sendSequenceNumber := (surroundings.serve channel delivery).2 })
  | .clo => processCLO server channel
  | .err => (badTcpMessageTypeInvalid, server, channel)

def KeepsReceived (before after : SecureChannel Context) : Prop :=
  after.receiveSequenceNumber = before.receiveSequenceNumber ∧ after.chunks = before.chunks

section

variable (config : ServerConfig Context) (surroundings : Surroundings Context)

theorem openSecureChannel_keepsReceived (policy : SecurityPolicy Context) (server : Server Context)
    (channel : SecureChannel Context) (request : OpenSecureChannelRequest) :
    KeepsReceived channel
      (openSecureChannel config surroundings policy server channel request).2.2 := by
  simp only [openSecureChannel]
  split
  · exact ⟨rfl, rfl⟩
  · split
    · exact ⟨rfl, rfl⟩
    · obtain ⟨context, keys⟩ := generateNewKeys_channel policy { channel with
        securityMode := request.securityMode
        securityToken := { channel.securityToken with
          channelId := server.lastChannelId, createdAt := surroundings.now,
          revisedLifetime := revisedLifetime config request.requestedLifetime }
        remoteNonce := request.clientNonce
        localNonce := surroundings.nonce.2 }
      split
      · simp only [keys]
        exact ⟨rfl, rfl⟩
      · simp only [keys]
        exact ⟨rfl, rfl⟩

theorem renewSecureChannel_keepsReceived (server : Server Context) (channel : SecureChannel Context)
    (request : OpenSecureChannelRequest) :
    KeepsReceived channel (renewSecureChannel config surroundings server channel request).2.2 := by
  simp only [renewSecureChannel]
  split
  · exact ⟨rfl, rfl⟩
  · split
    · exact ⟨rfl, rfl⟩
    · exact ⟨rfl, rfl⟩

theorem serviceOpenSecureChannel_keepsReceived (policy : SecurityPolicy Context)
    (server : Server Context) (channel : SecureChannel Context) (request : OpenSecureChannelRequest)
    :
    KeepsReceived channel
      (serviceOpenSecureChannel config surroundings policy server channel request).2.2 := by
  rw [serviceOpenSecureChannel]
  split
  · exact renewSecureChannel_keepsReceived config surroundings server channel request
  · split
    · exact ⟨rfl, rfl⟩
    · exact openSecureChannel_keepsReceived config surroundings policy server channel request

theorem processOPN_keepsReceived (policy : SecurityPolicy Context) (address : Nat)
    (server : Server Context) (channel : SecureChannel Context) (message : List Byte) :
    KeepsReceived channel
      (processOPN config surroundings policy address server channel message).2.2 := by
  rw [processOPN]
  split
  · exact ⟨rfl, rfl⟩
  · rename_i typeId request decoded
    split
    · exact ⟨rfl, rfl⟩
    · have kept := serviceOpenSecureChannel_keepsReceived config surroundings policy server channel
        request
      dsimp only
      split
      · exact kept
      · split
        · exact kept
        · exact kept

theorem dispatchMessage_keepsReceived (policy : SecurityPolicy Context) (address : Nat)
    (server : Server Context) (channel : SecureChannel Context) (delivery : Delivery) :
    KeepsReceived channel
      (dispatchMessage config surroundings policy address server channel delivery).2.2 := by
  simp only [dispatchMessage]
  split
  · exact processOPN_keepsReceived config surroundings policy address _ channel delivery.message
  · exact ⟨rfl, rfl⟩
  · exact ⟨rfl, rfl⟩
  · exact ⟨rfl, rfl⟩

end

def processSecureChannelMessage (config : ServerConfig Context)
    (surroundings : Surroundings Context) (policy : SecurityPolicy Context) (address : Nat) :
    ProcessMessageCallback Context (Server Context) where
  run := dispatchMessage config surroundings policy address
  receiveSequenceNumber_run server channel delivery :=
    (dispatchMessage_keepsReceived config surroundings policy address server channel delivery).1
  chunks_run server channel delivery :=
    (dispatchMessage_keepsReceived config surroundings policy address server channel delivery).2

structure ChannelStep (Context : Type) where
  address : Nat
  securityPolicy : SecurityPolicy Context
  managed : Bool
  channel : SecureChannel Context
  chunk : List Byte
  accepted : Option AcceptedChunk
  deliveries : List Delivery

structure StepResult (Context : Type) where
  status : StatusCode
  server : Server Context
  step : Option (ChannelStep Context)

section

variable (config : ServerConfig Context)

/-- `UA_SecureChannel_processChunk` on the object behind the pointer. -/
def processChannelChunk (surroundings : Surroundings Context) (server : Server Context)
    (address : Nat) (chunk : List Byte) : StepResult Context :=
  match server.find address with
  | none => ⟨badInternalError, server, none⟩
  | some entry =>
    match processChunk entry.securityPolicy
        (processSecureChannelMessage config surroundings entry.securityPolicy address) server
        entry.channel chunk with
    | ⟨status, after, channel, accepted, deliveries⟩ =>
      ⟨status, after.store address channel,
        some ⟨address, entry.securityPolicy, server.isManaged address, entry.channel, chunk,
          accepted, deliveries⟩⟩

def selectEndpoint (header : AsymmetricAlgorithmSecurityHeader) : Option (Endpoint Context) :=
  config.endpoints.find? fun endpoint =>
    header.securityPolicyUri.bytes == endpoint.securityPolicy.policyUri.bytes &&
      endpoint.securityPolicy.compareCertificateThumbprint header.receiverCertificateThumbprint ==
        good

def createSecureChannel (surroundings : Surroundings Context) (server : Server Context)
    (index : Nat) (header : AsymmetricAlgorithmSecurityHeader) : StatusCode × Server Context :=
  match selectEndpoint config header with
  | none => (badSecurityPolicyRejected, server)
  | some endpoint =>
    createManaged config surroundings server index endpoint.securityPolicy header.senderCertificate

end

structure TcpHelloMessage where
  receiveBufferSize : BitVec 32
  sendBufferSize : BitVec 32
deriving Inhabited

/-- The other members are read and kept for the limits of the messages that are sent. -/
def helloDecodeBinary (chunk : List Byte) (pos : Nat) : Res TcpHelloMessage :=
  let input := chunkInput chunk
  (uint32DecodeBinary input pos).thenCheck fun _ pos =>
  (uint32DecodeBinary input pos).thenCheck fun receiveBufferSize pos =>
  (uint32DecodeBinary input pos).thenCheck fun sendBufferSize pos =>
  (uint32DecodeBinary input pos).thenCheck fun _ pos =>
  (uint32DecodeBinary input pos).thenCheck fun _ pos =>
  (stringDecodeBinary input pos).map fun _ => ⟨receiveBufferSize, sendBufferSize⟩

def minimum (first second : BitVec 32) : BitVec 32 :=
  if first.toNat > second.toNat then second else first

def processHEL (surroundings : Surroundings Context) (server : Server Context) (index : Nat)
    (chunk : List Byte) : StatusCode × Server Context :=
  match helloDecodeBinary chunk 8 with
  | ⟨status, hello, _, _⟩ =>
    if status ≠ good then (status, server)
    else
      let connection := server.connections index
      let connection := { connection with
        sendBufferSize := minimum connection.sendBufferSize hello.receiveBufferSize
        recvBufferSize := minimum connection.recvBufferSize hello.sendBufferSize }
      if hello.receiveBufferSize = 0 then
        (badInternalError, server.setConnection index connection)
      else
        let server := server.setConnection index { connection with state := .established }
        if connection.sendBufferSize.toNat < 28 then (badResponseTooLarge, server)
        else (surroundings.sendStatus, server)

def helloCode : BitVec 32 := 0x4C4548

section

variable (config : ServerConfig Context) (surroundings : Surroundings Context)
  (server : Server Context) (index : Nat) (chunk : List Byte)

def processCompleteChunkWithoutChannel : StepResult Context :=
  let input := chunkInput chunk
  let header := (uint32DecodeBinary input 0).thenCheck fun code pos =>
    (uint32DecodeBinary input pos).map fun _ => code
  if header.status ≠ good then ⟨header.status, server, none⟩
  else if header.value &&& 0x00ffffff = helloCode then
    match processHEL surroundings server index chunk with
    | (status, server) => ⟨status, server, none⟩
  else if header.value &&& 0x00ffffff = MessageType.opn.code then
    if (server.connections index).state ≠ .established then ⟨badCommunicationError, server, none⟩
    else
      match asymmetricHeaderDecodeBinary chunk 12 with
      | ⟨status, header, _, _⟩ =>
        if status ≠ good then ⟨status, server, none⟩
        else
          match createSecureChannel config surroundings server index header with
          | (status, server) =>
            if status ≠ good then ⟨status, server, none⟩
            else
              match (server.connections index).channel with
              | none => ⟨badInternalError, server, none⟩
              | some address => processChannelChunk config surroundings server address chunk
  else ⟨badTcpMessageTypeInvalid, server, none⟩

def processCompleteChunk : StepResult Context :=
  match (server.connections index).channel with
  | none => processCompleteChunkWithoutChannel config surroundings server index chunk
  | some address => processChannelChunk config surroundings server address chunk

/-- A chunk in `processBinaryMessage`: after an error the connection is closed and the rest of
the packet is not looked at. -/
def receiveChunk : StepResult Context :=
  match processCompleteChunk config surroundings server index chunk with
  | ⟨status, after, step⟩ =>
    if status ≠ good then
      ⟨status, after.setConnection index { after.connections index with state := .closed }, step⟩
    else ⟨status, after, step⟩

end

/-- `UA_Server_cleanupDelayedCallbacks`: the connections of the removed channels are closed. -/
def cleanupDelayedCallbacks (server : Server Context) : Server Context :=
  let gone (connection : ServerConnection) :=
    match connection.channel with
    | none => false
    | some address => server.removed.any fun entry => entry.address == address
  { server with
    removed := []
    connections := fun index =>
      if gone (server.connections index) then
        { server.connections index with state := .closed, channel := none }
      else server.connections index }

/-- `UA_SecureChannelManager_cleanupTimedOut` for a channel: it is removed or goes over to the
next token. Without memory for the callback the removal is left to the next time. -/
def cleanupTimedOut (memory timedOut : ChannelEntry Context → Bool) (server : Server Context) :
    Server Context :=
  let revolve (entry : ChannelEntry Context) :=
    if timedOut entry then entry
    else if entry.channel.nextSecurityToken.tokenId.toNat > 0 then
      { entry with channel := (revolveTokens entry.securityPolicy entry.channel).2 }
    else entry
  { server with
    channels := (server.channels.filter fun entry => !(timedOut entry && memory entry)).map revolve
    removed := (server.channels.filter fun entry => timedOut entry && memory entry).reverse ++
      server.removed }

def openConnectionAt (server : Server Context) (index : Nat) (connection : ServerConnection) :
    Server Context :=
  server.setConnection index { connection with state := .opening, channel := none }

def initialServer (Context : Type) : Server Context where
  lastChannelId := 1
  lastTokenId := 1
  nextAddress := 0
  channels := []
  removed := []
  connections _ := ⟨.closed, 65535, 65535, none⟩

end OpcUa
