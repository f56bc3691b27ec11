import OpcUa.DecodeCore

/-!
The receiving side of `ua_securechannel.c`. The security policy with its cryptographic
modules is a parameter, as is the context it keeps for a channel. Allocations succeed.
-/

namespace OpcUa

open LittleEndian StatusCode

inductive SecureChannelState where
  | fresh
  | opened
  | closed
deriving DecidableEq, Repr

/-- Nothing keeps a client from asking for a number that is not in the enumeration. -/
inductive MessageSecurityMode where
  | invalid
  | none
  | sign
  | signAndEncrypt
  | other (value : BitVec 32)
deriving DecidableEq, Repr

namespace MessageSecurityMode

def ofCode (code : BitVec 32) : MessageSecurityMode :=
  if code = 0 then invalid
  else if code = 1 then none
  else if code = 2 then sign
  else if code = 3 then signAndEncrypt
  else other code

def signs (mode : MessageSecurityMode) : Bool := mode == sign || mode == signAndEncrypt

def encrypts (mode : MessageSecurityMode) : Bool := mode == signAndEncrypt

def aboveNone (mode : MessageSecurityMode) : Bool := mode != invalid && mode != none

end MessageSecurityMode

inductive MessageType where
  | msg
  | opn
  | clo
  | err
deriving DecidableEq, Repr

namespace MessageType

def code : MessageType → BitVec 32
  | msg => 0x47534D
  | opn => 0x4E504F
  | clo => 0x4F4C43
  | err => 0x525245

def ofCode (code : BitVec 32) : Option MessageType :=
  if code = msg.code then some msg
  else if code = opn.code then some opn
  else if code = clo.code then some clo
  else if code = err.code then some err
  else none

end MessageType

inductive ChunkType where
  | final
  | intermediate
  | abort
deriving DecidableEq, Repr

namespace ChunkType

def code : ChunkType → BitVec 32
  | final => 0x46000000
  | intermediate => 0x43000000
  | abort => 0x41000000

def ofCode (code : BitVec 32) : Option ChunkType :=
  if code = final.code then some final
  else if code = intermediate.code then some intermediate
  else if code = abort.code then some abort
  else none

end ChunkType

structure ChannelSecurityToken where
  channelId : BitVec 32
  tokenId : BitVec 32
  createdAt : BitVec 64
  revisedLifetime : BitVec 32
deriving DecidableEq, Repr

def ChannelSecurityToken.init : ChannelSecurityToken := ⟨0, 0, 0, 0⟩

structure ChunkEntry where
  requestId : BitVec 32
  bytes : List Byte
deriving DecidableEq, Repr

/-- The functions take the keys from the context of the channel. Data is encrypted and
decrypted in place, so it does not get longer when it is decrypted. -/
structure CryptoModule (Context : Type) where
  encrypt : Context → List Byte → StatusCode × List Byte
  decrypt : Context → List Byte → StatusCode × List Byte
  decrypt_length : ∀ context data, (decrypt context data).2.length ≤ data.length
  sign : Context → List Byte → StatusCode × List Byte
  verify : Context → List Byte → List Byte → StatusCode
  localSignatureSize : Context → Nat
  remoteSignatureSize : Context → Nat
  localSigningKeyLength : Context → Nat
  remoteSigningKeyLength : Context → Nat
  localEncryptionKeyLength : Context → Nat
  remoteEncryptionKeyLength : Context → Nat
  localBlockSize : Context → Nat
  remoteBlockSize : Context → Nat

structure SecurityPolicy (Context : Type) where
  policyUri : UaString
  symmetric : CryptoModule Context
  asymmetric : CryptoModule Context
  compareCertificateThumbprint : UaString → StatusCode
  verifyCertificate : UaString → StatusCode
  newContext : UaString → StatusCode × Context
  makeCertificateThumbprint : UaString → StatusCode
  generateKey : List Byte → List Byte → Nat → StatusCode × List Byte
  setLocalSymSigningKey : Context → List Byte → StatusCode × Context
  setLocalSymEncryptingKey : Context → List Byte → StatusCode × Context
  setLocalSymIv : Context → List Byte → StatusCode × Context
  setRemoteSymSigningKey : Context → List Byte → StatusCode × Context
  setRemoteSymEncryptingKey : Context → List Byte → StatusCode × Context
  setRemoteSymIv : Context → List Byte → StatusCode × Context

structure SecureChannel (Context : Type) where
  state : SecureChannelState
  securityMode : MessageSecurityMode
  securityToken : ChannelSecurityToken
  nextSecurityToken : ChannelSecurityToken
  context : Context
  remoteNonce : List Byte
  localNonce : List Byte
  receiveSequenceNumber : BitVec 32
  sendSequenceNumber : BitVec 32
  chunks : List ChunkEntry

variable {Context : Type}

def securityPolicyNoneUri : UaString :=
  .alloc ("http://opcfoundation.org/UA/SecurityPolicy#None".toList.map fun char =>
    BitVec.ofNat 8 char.toNat)

def cryptoModuleNone : CryptoModule Unit where
  encrypt _ data := (good, data)
  decrypt _ data := (good, data)
  decrypt_length _ data := Nat.le_refl data.length
  sign _ _ := (good, [])
  verify _ _ _ := good
  localSignatureSize _ := 0
  remoteSignatureSize _ := 0
  localSigningKeyLength _ := 0
  remoteSigningKeyLength _ := 0
  localEncryptionKeyLength _ := 0
  remoteEncryptionKeyLength _ := 0
  localBlockSize _ := 0
  remoteBlockSize _ := 0

def securityPolicyNone : SecurityPolicy Unit where
  policyUri := securityPolicyNoneUri
  symmetric := cryptoModuleNone
  asymmetric := cryptoModuleNone
  compareCertificateThumbprint _ := good
  verifyCertificate _ := good
  newContext _ := (good, ())
  makeCertificateThumbprint _ := good
  generateKey _ _ length := (good, List.replicate length 0)
  setLocalSymSigningKey context _ := (good, context)
  setLocalSymEncryptingKey context _ := (good, context)
  setLocalSymIv context _ := (good, context)
  setRemoteSymSigningKey context _ := (good, context)
  setRemoteSymEncryptingKey context _ := (good, context)
  setRemoteSymIv context _ := (good, context)

section

variable (policy : SecurityPolicy Context)

/-- The keys for one direction are cut out of one pseudo-random string. -/
def generateKeysWith (secret seed : List Byte)
    (signingKeyLength encryptionKeyLength blockSize : Nat)
    (setSigningKey setEncryptingKey setIv : Context → List Byte → StatusCode × Context)
    (context : Context) : StatusCode × Context :=
  match policy.generateKey secret seed (blockSize + signingKeyLength + encryptionKeyLength) with
  | (status, buffer) =>
    if status ≠ good then (status, context)
    else
      match setSigningKey context (buffer.take signingKeyLength) with
      | (first, context) =>
        match setEncryptingKey context
            ((buffer.drop signingKeyLength).take encryptionKeyLength) with
        | (second, context) =>
          match setIv context
              ((buffer.drop (signingKeyLength + encryptionKeyLength)).take blockSize) with
          | (third, context) => (first ||| second ||| third, context)

def generateLocalKeys (channel : SecureChannel Context) : StatusCode × Context :=
  generateKeysWith policy channel.remoteNonce channel.localNonce
    (policy.symmetric.localSigningKeyLength channel.context)
    (policy.symmetric.localEncryptionKeyLength channel.context)
    (policy.symmetric.localBlockSize channel.context) policy.setLocalSymSigningKey
    policy.setLocalSymEncryptingKey policy.setLocalSymIv channel.context

def generateRemoteKeys (channel : SecureChannel Context) : StatusCode × Context :=
  generateKeysWith policy channel.localNonce channel.remoteNonce
    (policy.symmetric.remoteSigningKeyLength channel.context)
    (policy.symmetric.remoteEncryptionKeyLength channel.context)
    (policy.symmetric.remoteBlockSize channel.context) policy.setRemoteSymSigningKey
    policy.setRemoteSymEncryptingKey policy.setRemoteSymIv channel.context

def generateNewKeys (channel : SecureChannel Context) : StatusCode × SecureChannel Context :=
  match generateLocalKeys policy channel with
  | (status, context) =>
    if status ≠ good then (status, { channel with context })
    else
      match generateRemoteKeys policy { channel with context } with
      | (status, context) => (status, { channel with context })

def revolveTokens (channel : SecureChannel Context) : StatusCode × SecureChannel Context :=
  if channel.nextSecurityToken.tokenId = 0 then (badSecureChannelTokenUnknown, channel)
  else
    generateNewKeys policy
      { channel with securityToken := channel.nextSecurityToken, nextSecurityToken := .init }

end

def chunkInput (chunk : List Byte) : Input := ⟨chunk, chunk.length, ⟨[], []⟩, encodingMaxRecursion⟩

structure SecureConversationMessageHeader where
  messageTypeAndChunkType : BitVec 32
  messageSize : BitVec 32
  secureChannelId : BitVec 32
deriving Inhabited

structure AsymmetricAlgorithmSecurityHeader where
  securityPolicyUri : UaString
  senderCertificate : UaString
  receiverCertificateThumbprint : UaString
deriving Inhabited

structure SequenceHeader where
  sequenceNumber : BitVec 32
  requestId : BitVec 32
deriving Inhabited

section

variable (chunk : List Byte) (pos : Nat)

def messageHeaderDecodeBinary : Res SecureConversationMessageHeader :=
  (uint32DecodeBinary (chunkInput chunk) pos).thenCheck fun messageTypeAndChunkType pos =>
  (uint32DecodeBinary (chunkInput chunk) pos).thenCheck fun messageSize pos =>
  (uint32DecodeBinary (chunkInput chunk) pos).map fun secureChannelId =>
    ⟨messageTypeAndChunkType, messageSize, secureChannelId⟩

def symmetricHeaderDecodeBinary : Res (BitVec 32) :=
  uint32DecodeBinary (chunkInput chunk) pos

def asymmetricHeaderDecodeBinary : Res AsymmetricAlgorithmSecurityHeader :=
  (stringDecodeBinary (chunkInput chunk) pos).thenCheck fun securityPolicyUri pos =>
  (stringDecodeBinary (chunkInput chunk) pos).thenCheck fun senderCertificate pos =>
  (stringDecodeBinary (chunkInput chunk) pos).map fun receiverCertificateThumbprint =>
    ⟨securityPolicyUri, senderCertificate, receiverCertificateThumbprint⟩

def sequenceHeaderDecodeBinary : Res SequenceHeader :=
  (uint32DecodeBinary (chunkInput chunk) pos).thenCheck fun sequenceNumber pos =>
  (uint32DecodeBinary (chunkInput chunk) pos).map fun requestId => ⟨sequenceNumber, requestId⟩

end

/-- `fault` records that a byte outside of the chunk has been read or that the length of the
payload has wrapped around. -/
structure DecryptedChunk where
  sequenceNumber : BitVec 32
  requestId : BitVec 32
  payload : List Byte
  fault : Bool
deriving DecidableEq, Repr

section DecryptChunk

variable (module : CryptoModule Context) (channel : SecureChannel Context)
  (messageType : MessageType)

/-- The number of padding bytes with the one or two bytes that hold it, and whether these
lie in front of the chunk. -/
def removedPadding (memory : List Byte) (size sigsize : Nat) : Nat × Bool :=
  let last := (memory.getD (size - sigsize - 1) 0).toNat
  if module.remoteEncryptionKeyLength channel.context > 2048 then
    (last * 256 + (memory.getD (size - sigsize - 2) 0).toNat + 2, size < sigsize + 2)
  else (last + 1, size < sigsize + 1)

def decryptBody (body : List Byte) : StatusCode × List Byte :=
  if channel.securityMode.encrypts || messageType == .opn then
    module.decrypt channel.context body
  else (good, body)

def isSigned : Bool := channel.securityMode.signs || messageType == .opn

def signatureSize : Nat :=
  if isSigned channel messageType then module.remoteSignatureSize channel.context else 0

def paddingSize (memory : List Byte) (size : Nat) : Nat × Bool :=
  if channel.securityMode.encrypts || (messageType == .opn && channel.securityMode.aboveNone) then
    removedPadding module channel memory size (signatureSize module channel messageType)
  else (0, false)

def verifyBody (memory : List Byte) (size offset : Nat) : StatusCode :=
  let sigsize := signatureSize module channel messageType
  if !isSigned channel messageType then good
  else if offset + (paddingSize module channel messageType memory size).1 + sigsize ≥ size then
    badSecurityChecksFailed
  else
    module.verify channel.context (memory.take (size - sigsize))
      ((memory.drop (size - sigsize)).take sigsize)

/-- `decryptChunk`. The plain text overwrites the cipher text; `chunk->length` stays. -/
def decryptChunk (chunk : List Byte) (offset : Nat) : Except StatusCode DecryptedChunk :=
  match decryptBody module channel messageType (chunk.drop offset) with
  | (status, text) =>
    if status ≠ good then .error status
    else
      let memory := chunk.take offset ++ text ++ chunk.drop (offset + text.length)
      let size := offset + text.length
      let verified := verifyBody module channel messageType memory size offset
      if verified ≠ good then .error verified
      else
        match sequenceHeaderDecodeBinary memory offset with
        | ⟨status, header, next, _⟩ =>
          let padding := paddingSize module channel messageType memory size
          let removed := signatureSize module channel messageType + padding.1
          if status ≠ good then .error status
          else if next + removed ≥ chunk.length then .error badSecurityChecksFailed
          else
            .ok ⟨header.sequenceNumber, header.requestId,
              (memory.drop next).take (size - next - removed),
              padding.2 || size < next + removed⟩

end DecryptChunk

def processSequenceNumberAsym (channel : SecureChannel Context) (sequenceNumber : BitVec 32) :
    StatusCode × SecureChannel Context :=
  (good, { channel with receiveSequenceNumber := sequenceNumber })

def processSequenceNumberSym (channel : SecureChannel Context) (sequenceNumber : BitVec 32) :
    StatusCode × SecureChannel Context :=
  if sequenceNumber ≠ channel.receiveSequenceNumber + 1 then
    if (channel.receiveSequenceNumber + 1).toNat > 4294966271 ∧ sequenceNumber.toNat < 1024 then
      -- rolled over: set to the number in front of this one and incremented
      (good, { channel with receiveSequenceNumber := sequenceNumber - 1 + 1 })
    else (badSecurityChecksFailed, channel)
  else (good, { channel with receiveSequenceNumber := channel.receiveSequenceNumber + 1 })

def checkAsymHeader (policy : SecurityPolicy Context) (header : AsymmetricAlgorithmSecurityHeader) :
    StatusCode :=
  if policy.policyUri.bytes ≠ header.securityPolicyUri.bytes then badSecurityPolicyRejected
  else policy.compareCertificateThumbprint header.receiverCertificateThumbprint

def checkSymHeader (policy : SecurityPolicy Context) (channel : SecureChannel Context)
    (tokenId : BitVec 32) : StatusCode × SecureChannel Context :=
  if tokenId ≠ channel.securityToken.tokenId then
    if tokenId ≠ channel.nextSecurityToken.tokenId then (badSecureChannelTokenUnknown, channel)
    else revolveTokens policy channel
  else (good, channel)

/-- A chunk that passed the checks. An ERR chunk has no token, no sequence number and no
request id. -/
structure AcceptedChunk where
  messageType : MessageType
  chunkType : Option ChunkType
  tokenId : BitVec 32
  sequenceNumber : BitVec 32
  requestId : BitVec 32
  payload : List Byte
  fault : Bool
deriving DecidableEq, Repr

def authenticateChunk (module : CryptoModule Context)
    (processSequenceNumber : SecureChannel Context → BitVec 32 → StatusCode × SecureChannel Context)
    (channel : SecureChannel Context) (chunk : List Byte) (offset : Nat) (messageType : MessageType)
    (chunkType : Option ChunkType) : Except StatusCode AcceptedChunk × SecureChannel Context :=
  match decryptChunk module channel messageType chunk offset with
  | .error status => (.error status, channel)
  | .ok plain =>
    match processSequenceNumber channel plain.sequenceNumber with
    | (status, channel) =>
      if status ≠ good then (.error status, channel)
      else
        (.ok ⟨messageType, chunkType, channel.securityToken.tokenId, plain.sequenceNumber,
          plain.requestId, plain.payload, plain.fault⟩, channel)

section

variable (policy : SecurityPolicy Context) (channel : SecureChannel Context) (chunk : List Byte)

def checkSymmetricChunk (offset : Nat) (messageType : MessageType) (chunkType : Option ChunkType) :
    Except StatusCode AcceptedChunk × SecureChannel Context :=
  match symmetricHeaderDecodeBinary chunk offset with
  | ⟨status, tokenId, next, _⟩ =>
    if status ≠ good then (.error status, channel)
    else
      match checkSymHeader policy channel tokenId with
      | (status, channel) =>
        if status ≠ good then (.error status, channel)
        else
          authenticateChunk policy.symmetric processSequenceNumberSym channel chunk next
            messageType chunkType

def checkAsymmetricChunk (chunkType : Option ChunkType) :
    Except StatusCode AcceptedChunk × SecureChannel Context :=
  if chunkType ≠ some .final then (.error badTcpMessageTypeInvalid, channel)
  else
    match asymmetricHeaderDecodeBinary chunk 12 with
    | ⟨status, header, next, _⟩ =>
      if status ≠ good then (.error status, channel)
      else if checkAsymHeader policy header ≠ good then
        (.error (checkAsymHeader policy header), channel)
      else
        authenticateChunk policy.asymmetric processSequenceNumberAsym channel chunk next .opn
          chunkType

def checkChunk : Except StatusCode AcceptedChunk × SecureChannel Context :=
  match messageHeaderDecodeBinary chunk 0 with
  | ⟨status, header, offset, _⟩ =>
    if status ≠ good then (.error status, channel)
    else if header.secureChannelId ≠ channel.securityToken.channelId ∧ channel.state ≠ .fresh then
      (.error badSecureChannelIdInvalid, channel)
    else
      let chunkType := ChunkType.ofCode (header.messageTypeAndChunkType &&& 0xff000000)
      match MessageType.ofCode (header.messageTypeAndChunkType &&& 0x00ffffff) with
      | some .err =>
        if chunkType ≠ some .final then (.error badTcpMessageTypeInvalid, channel)
        else (.ok ⟨.err, chunkType, 0, 0, 0, chunk.drop offset, false⟩, channel)
      | some .opn => checkAsymmetricChunk policy channel chunk chunkType
      | some messageType => checkSymmetricChunk policy channel chunk offset messageType chunkType
      | none => (.error badTcpMessageTypeInvalid, channel)

end

structure Delivery where
  messageType : MessageType
  requestId : BitVec 32
  message : List Byte
deriving DecidableEq, Repr

def hasRequestId (requestId : BitVec 32) (entry : ChunkEntry) : Bool := entry.requestId == requestId

def appendToEntry (requestId : BitVec 32) (body : List Byte) :
    List ChunkEntry → Option (List ChunkEntry)
  | [] => none
  | entry :: rest =>
    if hasRequestId requestId entry then some ({ entry with bytes := entry.bytes ++ body } :: rest)
    else (appendToEntry requestId body rest).map fun rest => entry :: rest

section

variable (chunks : List ChunkEntry) (requestId : BitVec 32)

def appendChunk (body : List Byte) : List ChunkEntry :=
  match appendToEntry requestId body chunks with
  | some chunks => chunks
  | none => ⟨requestId, body⟩ :: chunks

def removeChunks : List ChunkEntry :=
  chunks.eraseP (hasRequestId requestId)

def collectedBytes : List Byte :=
  ((chunks.find? (hasRequestId requestId)).map ChunkEntry.bytes).getD []

end

/-- `UA_ProcessMessageCallback` with the state behind its `application` pointer. Only
`ua_securechannel.c` writes to the two members of the channel. -/
structure ProcessMessageCallback (Context Application : Type) where
  run : Application → SecureChannel Context → Delivery →
    StatusCode × Application × SecureChannel Context
  receiveSequenceNumber_run : ∀ application channel delivery,
    (run application channel delivery).2.2.receiveSequenceNumber = channel.receiveSequenceNumber
  chunks_run : ∀ application channel delivery,
    (run application channel delivery).2.2.chunks = channel.chunks

variable {Application : Type}

structure ProcessResult (Context Application : Type) where
  status : StatusCode
  application : Application
  channel : SecureChannel Context
  accepted : Option AcceptedChunk
  deliveries : List Delivery

section

variable (callback : ProcessMessageCallback Context Application) (application : Application)
  (channel : SecureChannel Context) (chunk : AcceptedChunk)

def deliver (message : List Byte) : ProcessResult Context Application :=
  let delivery := ⟨chunk.messageType, chunk.requestId, message⟩
  match callback.run application channel delivery with
  | (status, application, channel) => ⟨status, application, channel, some chunk, [delivery]⟩

def finalizeChunk : ProcessResult Context Application :=
  deliver callback application
    { channel with chunks := removeChunks channel.chunks chunk.requestId } chunk
    (collectedBytes channel.chunks chunk.requestId ++ chunk.payload)

def processPayload : ProcessResult Context Application :=
  if chunk.messageType = .err then deliver callback application channel chunk chunk.payload
  else
    match chunk.chunkType with
    | some .final => finalizeChunk callback application channel chunk
    | some .intermediate =>
      ⟨good, application,
        { channel with chunks := appendChunk channel.chunks chunk.requestId chunk.payload },
        some chunk, []⟩
    | some .abort =>
      ⟨good, application,
        { channel with chunks := removeChunks channel.chunks chunk.requestId }, some chunk, []⟩
    | none => ⟨badTcpMessageTypeInvalid, application, channel, some chunk, []⟩

end

def processChunk (policy : SecurityPolicy Context)
    (callback : ProcessMessageCallback Context Application) (application : Application)
    (channel : SecureChannel Context) (chunk : List Byte) : ProcessResult Context Application :=
  match checkChunk policy channel chunk with
  | (.error status, channel) => ⟨status, application, channel, none, []⟩
  | (.ok accepted, channel) => processPayload callback application channel accepted

end OpcUa
