import OpcUa.EncodeCore
import OpcUa.SecureChannelChecks

/-!
The sending side of `ua_securechannel.c` for symmetric messages, and that the receiving side
undoes it.
-/

namespace OpcUa

open LittleEndian StatusCode

variable {Context Application : Type}

/-- The members of the connection that sending looks at. Send buffers of the size that was
negotiated can always be allocated. -/
structure SendConnection where
  closed : Bool
  sendBufferSize : BitVec 32
  maxMessageSize : BitVec 32
  maxChunkCount : BitVec 32
  send : List Byte → StatusCode

structure MessageContext (Context : Type) where
  channel : SecureChannel Context
  requestId : BitVec 32
  messageType : MessageType
  chunksSoFar : BitVec 16
  messageSizeSoFar : Nat

/-- A chunk that has been handed to the network layer. `fault` records that it was written
behind the end of its buffer. -/
structure SentChunk where
  bytes : List Byte
  fault : Bool
deriving DecidableEq, Repr

structure SendResult (Context : Type) where
  status : StatusCode
  context : MessageContext Context
  chunks : List SentChunk

section Sending

variable (policy : SecurityPolicy Context) (connection : SendConnection)

def calculatePaddingSym (channel : SecureChannel Context) (bytesToWrite : Nat) : BitVec 16 :=
  let encryptionBlockSize := policy.symmetric.localBlockSize channel.context
  let signatureSize := policy.symmetric.localSignatureSize channel.context
  BitVec.ofNat 16 (encryptionBlockSize - (bytesToWrite + signatureSize + 1) % encryptionBlockSize)

def paddingBytes (padding : BitVec 16) : List Byte :=
  List.replicate (padding.toNat + 1) (padding.setWidth 8) ++
    (if (padding >>> 8).setWidth 8 > (0 : Byte) then [(padding >>> 8).setWidth 8] else [])

section

variable (channel : SecureChannel Context)

def localSignature : Nat :=
  if channel.securityMode.signs then policy.symmetric.localSignatureSize channel.context else 0

def bufEnd : Nat :=
  connection.sendBufferSize.toNat - localSignature policy channel -
    (if channel.securityMode.encrypts then 2 else 0)

/-- The space behind the headers, from `setBufPos`. -/
def bodyCapacity : Nat := bufEnd policy connection channel - 24

def chunkPadding (body : List Byte) : List Byte :=
  if channel.securityMode.encrypts then
    paddingBytes (calculatePaddingSym policy channel (body.length + 8))
  else []

end

def chunkHeader (mc : MessageContext Context) (chunkType : ChunkType) (body : List Byte) :
    List Byte :=
  let totalLength := 24 + body.length + (chunkPadding policy mc.channel body).length +
    localSignature policy mc.channel
  symmetricHeaderWire (mc.messageType.code + chunkType.code) (BitVec.ofNat 32 totalLength)
    mc.channel.securityToken.channelId mc.channel.securityToken.tokenId

def chunkText (mc : MessageContext Context) (body : List Byte) : List Byte :=
  sequenceHeaderWire (mc.channel.sendSequenceNumber + 1) mc.requestId ++
    (body ++ chunkPadding policy mc.channel body)

def signChunk (channel : SecureChannel Context) (data : List Byte) : StatusCode × List Byte :=
  if channel.securityMode.signs then policy.symmetric.sign channel.context data else (good, [])

def encryptChunk (channel : SecureChannel Context) (data : List Byte) : StatusCode × List Byte :=
  if channel.securityMode.encrypts then policy.symmetric.encrypt channel.context data
  else (good, data)

def buildChunk (mc : MessageContext Context) (chunkType : ChunkType) (body : List Byte) :
    StatusCode × SentChunk :=
  let front := chunkHeader policy mc chunkType body
  let text := chunkText policy mc body
  let headers := if bufEnd policy connection mc.channel < 24 then badResponseTooLarge else good
  match signChunk policy mc.channel (front ++ text) with
  | (signed, signature) =>
    match encryptChunk policy mc.channel (text ++ signature) with
    | (encrypted, cipher) =>
      (headers ||| signed ||| encrypted, ⟨front ++ cipher,
          (front ++ (text ++ signature)).length > connection.sendBufferSize.toNat⟩)

def surpassesLimits (mc : MessageContext Context) : Bool :=
  (mc.messageSizeSoFar > connection.maxMessageSize.toNat && connection.maxMessageSize != 0) ||
    (mc.chunksSoFar.toNat > connection.maxChunkCount.toNat && connection.maxChunkCount != 0)

def sendSymmetricChunk (mc : MessageContext Context) (chunkType : ChunkType) (body : List Byte) :
    SendResult Context :=
  let counted := { mc with
    messageSizeSoFar := mc.messageSizeSoFar + body.length
    chunksSoFar := mc.chunksSoFar + 1 }
  if surpassesLimits connection counted then ⟨badResponseTooLarge, counted, []⟩
  else
    let numbered := { counted with
      channel := { mc.channel with sendSequenceNumber := mc.channel.sendSequenceNumber + 1 } }
    match buildChunk policy connection mc chunkType body with
    | (status, chunk) =>
      if status ≠ good then ⟨status, numbered, []⟩
      else ⟨connection.send chunk.bytes, numbered, [chunk]⟩

def sendIntermediateChunks (mc : MessageContext Context) : List (List Byte) → SendResult Context
  | [] => ⟨good, mc, []⟩
  | body :: rest =>
    let first := sendSymmetricChunk policy connection mc .intermediate body
    if first.status ≠ good then first
    else
      let others := sendIntermediateChunks first.context rest
      { others with chunks := first.chunks ++ others.chunks }

section

variable (env : TypeEnv) (rounds : Nat) (channel : SecureChannel Context)

/-- The message is encoded into buffers of `bodyCapacity` bytes that are sent when they are
full. `rounds` bounds the number of the exchanges. -/
def encodeMessage (payload : Value) (payloadType : DataType) : StatusCode × Ctx :=
  let capacity := bodyCapacity policy connection channel
  andThen
    (uaEncodeBinary env (.leaf (.nodeId ⟨0, .numeric (payloadType.binaryEncodingId.setWidth 32)⟩))
      nodeIdType)
    (uaEncodeBinary env payload payloadType)
    ⟨[], [], capacity, some (List.replicate rounds capacity), false⟩

/-- `UA_SecureChannel_sendSymmetricMessage` with `UA_MessageContext_begin`, `encode` and
`finish`. -/
def sendSymmetricMessage (requestId : BitVec 32) (messageType : MessageType) (payload : Value)
    (payloadType : DataType) : SendResult Context :=
  let mc : MessageContext Context := ⟨channel, requestId, messageType, 0, 0⟩
  if connection.closed then ⟨badConnectionClosed, mc, []⟩
  else if messageType ≠ .msg ∧ messageType ≠ .clo then ⟨badInternalError, mc, []⟩
  else if connection.sendBufferSize.toNat ≤ 24 then ⟨badResponseTooLarge, mc, []⟩
  else
    match encodeMessage policy connection env rounds channel payload payloadType with
    | (status, ctx) =>
      let intermediate := sendIntermediateChunks policy connection mc ctx.sent
      if intermediate.status ≠ good then intermediate
      else if status ≠ good then { intermediate with status }
      else
        let final := sendSymmetricChunk policy connection intermediate.context .final ctx.out
        { final with chunks := intermediate.chunks ++ final.chunks }

end

end Sending

end OpcUa
