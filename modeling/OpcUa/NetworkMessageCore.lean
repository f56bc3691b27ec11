import OpcUa.DataSetMessageCore

/-!
The codec of a NetworkMessage.
-/

namespace OpcUa

open LittleEndian StatusCode

namespace NetworkMessage

section

variable (message : NetworkMessage)

def extendedFlags2Enabled : Bool :=
  message.chunkMessage || message.promotedFields.isSome || message.networkMessageType != .dataSet

def extendedFlags1Enabled : Bool :=
  message.publisherId.code != 0 || message.dataSetClassId.isSome ||
    message.securityHeader.isSome || message.timestamp.isSome || message.picoseconds.isSome ||
    message.extendedFlags2Enabled

def flags : Byte :=
  message.version ||| flagBit message.publisherIdEnabled 4 |||
    flagBit message.groupHeader.isSome 5 ||| flagBit message.payloadHeader.isSome 6 |||
    flagBit message.extendedFlags1Enabled 7

def extendedFlags1 : Byte :=
  message.publisherId.code ||| flagBit message.dataSetClassId.isSome 3 |||
    flagBit message.securityHeader.isSome 4 ||| flagBit message.timestamp.isSome 5 |||
    flagBit message.picoseconds.isSome 6 ||| flagBit message.extendedFlags2Enabled 7

def extendedFlags2 : Byte :=
  message.networkMessageType.code <<< 2 ||| flagBit message.chunkMessage 0 |||
    flagBit message.promotedFields.isSome 1

end

end NetworkMessage

def NetworkMessageGroupHeader.flags (header : NetworkMessageGroupHeader) : Byte :=
  flagBit header.writerGroupId.isSome 0 ||| flagBit header.groupVersion.isSome 1 |||
    flagBit header.networkMessageNumber.isSome 2 ||| flagBit header.sequenceNumber.isSome 3

def NetworkMessageSecurityHeader.flags (header : NetworkMessageSecurityHeader) : Byte :=
  flagBit header.networkMessageSigned 0 ||| flagBit header.networkMessageEncrypted 1 |||
    flagBit header.securityFooterSize.isSome 2 ||| flagBit header.forceKeyReset 3

section Encoding

variable (env : TypeEnv)

def flagsEncodeBinary (message : NetworkMessage) : Encoder :=
  andThen (uaByteEncodeBinary env message.flags) (encodeWhen message.extendedFlags1Enabled
      (andThen (uaByteEncodeBinary env message.extendedFlags1)
        (encodeWhen message.extendedFlags2Enabled (uaByteEncodeBinary env message.extendedFlags2))))

def publisherIdEncodeBinary : PublisherId → Encoder
  | .byte value => uaByteEncodeBinary env value
  | .uint16 value => uaUInt16EncodeBinary env value
  | .uint32 value => uaUInt32EncodeBinary env value
  | .uint64 value => uaUInt64EncodeBinary env value
  | .string value => uaStringEncodeBinary env value
  | .reserved _ => failWith badInternalError

def groupHeaderEncodeBinary (header : NetworkMessageGroupHeader) : Encoder :=
  andThen (uaByteEncodeBinary env header.flags)
    (andThen (encodeOption header.writerGroupId (uaUInt16EncodeBinary env))
      (andThen (encodeOption header.groupVersion (uaUInt32EncodeBinary env))
        (andThen (encodeOption header.networkMessageNumber (uaUInt16EncodeBinary env))
          (encodeOption header.sequenceNumber (uaUInt16EncodeBinary env)))))

def payloadHeaderEncodeBinary (type : NetworkMessageType) (header : DataSetPayloadHeader) : Encoder :=
  if type != .dataSet then failWith badNotImplemented
  else
    andThen (unchecked (uaByteEncodeBinary env header.count)) (match header.dataSetWriterIds with
        | none => failWith badEncodingError
        | some ids => encodeEach (uaUInt16EncodeBinary env) (ids.take header.count.toNat))

def promotedSize (fields : List Value) : BitVec 16 :=
  fields.foldl (fun size field => size + BitVec.ofNat 16 (calcSizeBinary env field variantType)) 0

/-- The statuses of the size and of the fields are combined and then overwritten. -/
def promotedFieldsEncodeBinary (promoted : PromotedFields) : Encoder :=
  andThen (unchecked (uaUInt16EncodeBinary env
      (promotedSize env (promoted.promotedFields.take promoted.promotedFieldsSize.toNat))))
    (encodeEach (fun field => unchecked (uaVariantEncodeBinary env field))
      (promoted.promotedFields.take promoted.promotedFieldsSize.toNat))

def securityHeaderEncodeBinary (header : NetworkMessageSecurityHeader) : Encoder :=
  andThen (uaByteEncodeBinary env header.flags)
    (andThen (uaUInt32EncodeBinary env header.securityTokenId)
      (andThen (uaByteEncodeBinary env header.nonceLength) (andThen
          (encodeEach (uaByteEncodeBinary env) (header.messageNonce.take header.nonceLength.toNat))
          (encodeOption header.securityFooterSize (uaUInt16EncodeBinary env)))))

/-- The size given by the caller, or the computed one where it is missing or zero. -/
def payloadSize (sizes : Option (List (BitVec 16))) (index : Nat) (message : DataSetMessage) :
    BitVec 16 :=
  match sizes with
  | some table =>
    if table.getD index 0 != 0 then table.getD index 0
    else BitVec.ofNat 16 (dataSetMessageCalcSizeBinary env message)
  | none => BitVec.ofNat 16 (dataSetMessageCalcSizeBinary env message)

def payloadSizes (message : NetworkMessage) : List (BitVec 16) :=
  (message.payload.dataSetMessages.take message.messageCount).mapIdx
    (payloadSize env message.payload.sizes)

def payloadEncodeBinary (message : NetworkMessage) : Encoder :=
  if message.networkMessageType != .dataSet then failWith badNotImplemented
  else
    andThen (encodeWhen (message.payloadHeader.isSome && message.messageCount > 1)
        (encodeEach (uaUInt16EncodeBinary env) (payloadSizes env message)))
      (encodeEach (dataSetMessageEncodeBinary env)
        (message.payload.dataSetMessages.take message.messageCount))

/-- The loop over the security footer. Its counter has eight bits, the size sixteen. -/
def securityFooterLoop (footer : List Byte) (size : Nat) : Nat → Byte → Encoder
  | 0, _ => failWith badInternalError
  | round + 1, index =>
    if index.toNat < size then
      andThen (uaByteEncodeBinary env (footer.getD index.toNat 0))
        (securityFooterLoop footer size round (index + 1))
    else succeed

/-- Every round writes a byte, so the rounds are bounded by the space. -/
def securityFooterEncodeBinary (footer : List Byte) (size : Nat) : Encoder := fun ctx =>
  securityFooterLoop env footer size (ctx.cap - ctx.out.length + 1) 0 ctx

def networkMessageEncodeBinary (message : NetworkMessage) : Encoder :=
  andThen (flagsEncodeBinary env message)
    (andThen (encodeWhen message.publisherIdEnabled (publisherIdEncodeBinary env message.publisherId))
      (andThen (encodeOption message.dataSetClassId (uaGuidEncodeBinary env))
        (andThen (encodeOption message.groupHeader (groupHeaderEncodeBinary env)) (andThen
            (encodeOption message.payloadHeader
              (payloadHeaderEncodeBinary env message.networkMessageType))
            (andThen
              (encodeOption message.timestamp fun time => unchecked (uaDateTimeEncodeBinary env time))
              (andThen (encodeOption message.picoseconds fun part =>
                  unchecked (uaUInt16EncodeBinary env part))
                (andThen (encodeOption message.promotedFields (promotedFieldsEncodeBinary env))
                  (andThen (encodeOption message.securityHeader (securityHeaderEncodeBinary env))
                    (andThen (payloadEncodeBinary env message) (andThen
                        (securityFooterEncodeBinary env message.securityFooter message.footerSize)
                        (encodeWhen message.signed
                          (uaByteStringEncodeBinary env message.signature))))))))))))

end Encoding

section Sizes

variable (env : TypeEnv)

def publisherIdCalcSizeBinary : PublisherId → Nat
  | .byte _ => 1
  | .uint16 _ => 2
  | .uint32 _ => 4
  | .uint64 _ => 8
  | .string value => stringCalcSizeBinary value
  | .reserved _ => 0

def groupHeaderCalcSizeBinary (header : NetworkMessageGroupHeader) : Nat :=
  1 + optionSize header.writerGroupId (fun _ => 2) + optionSize header.groupVersion (fun _ => 4) +
    optionSize header.networkMessageNumber (fun _ => 2) +
    optionSize header.sequenceNumber (fun _ => 2)

def securityHeaderCalcSizeBinary (header : NetworkMessageSecurityHeader) : Nat :=
  1 + 4 + 1 + (if header.nonceLength.toNat > 0 then header.nonceLength.toNat else 0) +
    optionSize header.securityFooterSize (fun _ => 2)

def promotedFieldsCalcSizeBinary (promoted : PromotedFields) : Nat :=
  2 + ((promoted.promotedFields.take promoted.promotedFieldsSize.toNat).map fun field =>
    calcSizeBinary env field variantType).sum

def payloadCalcSizeBinary (message : NetworkMessage) : Nat :=
  if message.networkMessageType = .dataSet then
    (if message.payloadHeader.isSome && message.messageCount > 1 then 2 * message.messageCount
      else 0) +
      ((message.payload.dataSetMessages.take message.messageCount).map
        (dataSetMessageCalcSizeBinary env)).sum
  else 0

/-- A payload header without writer ids leads to a size of zero. -/
def networkMessageCalcSizeBinary (message : NetworkMessage) : Nat :=
  if message.networkMessageType = .dataSet ∧
      message.payloadHeader.any (fun header => header.dataSetWriterIds.isNone) then 0
  else
    1 + (if message.extendedFlags1Enabled then 1 + (if message.extendedFlags2Enabled then 1 else 0)
      else 0) +
      (if message.publisherIdEnabled then publisherIdCalcSizeBinary message.publisherId else 0) +
      optionSize message.dataSetClassId (fun _ => 16) +
      optionSize message.groupHeader groupHeaderCalcSizeBinary +
      (if message.networkMessageType = .dataSet then
        optionSize message.payloadHeader (fun header => 1 + 2 * header.count.toNat) else 0) +
      optionSize message.timestamp (fun _ => 8) + optionSize message.picoseconds (fun _ => 2) +
      optionSize message.promotedFields (promotedFieldsCalcSizeBinary env) +
      optionSize message.securityHeader securityHeaderCalcSizeBinary +
      payloadCalcSizeBinary env message + message.footerSize +
      (if message.signed then stringCalcSizeBinary message.signature else 0)

end Sizes

section Decoding

variable (input : Input)

/-- What the first three bytes say. A byte that is not present counts as zero. -/
structure MessageFlags where
  flags : Byte
  extendedFlags1 : Byte
  extendedFlags2 : Byte

namespace MessageFlags

variable (read : MessageFlags)

def publisherIdEnabled : Bool := testBit read.flags 16
def groupHeaderEnabled : Bool := testBit read.flags 32
def payloadHeaderEnabled : Bool := testBit read.flags 64
def publisherIdCode : Byte := read.extendedFlags1 &&& 7
def dataSetClassIdEnabled : Bool := testBit read.extendedFlags1 8
def securityEnabled : Bool := testBit read.extendedFlags1 16
def timestampEnabled : Bool := testBit read.extendedFlags1 32
def picosecondsEnabled : Bool := testBit read.extendedFlags1 64
def chunkMessage : Bool := testBit read.extendedFlags2 1
def promotedFieldsEnabled : Bool := testBit read.extendedFlags2 2
def networkMessageCode : Byte := (read.extendedFlags2 &&& 28) >>> 2

end MessageFlags

instance : Inhabited MessageFlags := ⟨⟨0, 0, 0⟩⟩
instance : Inhabited PublisherId := ⟨.byte 0⟩
instance : Inhabited NetworkMessageGroupHeader := ⟨⟨none, none, none, none⟩⟩
instance : Inhabited DataSetPayloadHeader := ⟨⟨0, none⟩⟩
instance : Inhabited PromotedFields := ⟨⟨0, []⟩⟩
instance : Inhabited NetworkMessageSecurityHeader := ⟨⟨false, false, false, 0, 0, [], none⟩⟩
instance : Inhabited DataSetPayload := ⟨⟨none, []⟩⟩
instance : Inhabited NetworkMessage :=
  ⟨⟨0, false, default, none, none, none, none, none, false, .dataSet, none, none, default, [],
    .null⟩⟩

def flagsDecodeBinary (pos : Nat) : Res MessageFlags :=
  (uaByteDecodeBinary input pos).thenCheck fun flags pos =>
  (decodeWhen (testBit flags 128) (uaByteDecodeBinary input) pos).thenCheck fun first pos =>
  (decodeWhen (testBit (first.getD 0) 128) (uaByteDecodeBinary input) pos).map fun second =>
    ⟨flags, first.getD 0, second.getD 0⟩

def publisherIdDecodeBinary (code : Byte) (pos : Nat) : Res PublisherId :=
  match code.toNat with
  | 0 => (uaByteDecodeBinary input pos).map PublisherId.byte
  | 1 => (uaUInt16DecodeBinary input pos).map PublisherId.uint16
  | 2 => (uaUInt32DecodeBinary input pos).map PublisherId.uint32
  | 3 => (uaUInt64DecodeBinary input pos).map PublisherId.uint64
  | 4 => (uaStringDecodeBinary input pos).map PublisherId.string
  | _ => .fail badInternalError pos

def groupHeaderDecodeBinary (pos : Nat) : Res NetworkMessageGroupHeader :=
  (uaByteDecodeBinary input pos).thenCheck fun flags pos =>
  (decodeWhen (testBit flags 1) (uaUInt16DecodeBinary input) pos).thenCheck fun writerGroupId pos =>
  (decodeWhen (testBit flags 2) (uaUInt32DecodeBinary input) pos).thenCheck fun groupVersion pos =>
  (decodeWhen (testBit flags 4) (uaUInt16DecodeBinary input) pos).thenCheck fun number pos =>
  (decodeWhen (testBit flags 8) (uaUInt16DecodeBinary input) pos).map fun sequenceNumber =>
    ⟨writerGroupId, groupVersion, number, sequenceNumber⟩

def payloadHeaderDecodeBinary (code : Byte) (pos : Nat) : Res DataSetPayloadHeader :=
  if code.toNat ≠ 0 then .fail badNotImplemented pos
  else
    (uaByteDecodeBinary input pos).thenCheck fun count pos =>
    (decodeEach (uaUInt16DecodeBinary input) count.toNat pos).map fun ids => ⟨count, some ids⟩

/-- The loop over the promoted fields. Every round reads at least one byte. -/
def promotedLoop (offsetEnd : Nat) : Nat → Nat → Res (List Value)
  | 0, pos => ⟨badInternalError, [], pos, true⟩
  | round + 1, pos =>
    (uaVariantDecodeBinary input pos).thenCheck fun field pos =>
      if pos < offsetEnd then (promotedLoop offsetEnd round pos).map fun rest => field :: rest
      else .ok [field] pos

def promotedFieldsDecodeBinary (pos : Nat) : Res PromotedFields :=
  (uaUInt16DecodeBinary input pos).thenCheck fun size pos =>
    if size.toNat > 0 then
      (promotedLoop input (pos + size.toNat) (input.length + 1) pos).map fun fields =>
        ⟨BitVec.ofNat 16 fields.length, fields⟩
    else .ok ⟨0, []⟩ pos

def securityHeaderDecodeBinary (pos : Nat) : Res NetworkMessageSecurityHeader :=
  (uaByteDecodeBinary input pos).thenCheck fun flags pos =>
  (uaUInt32DecodeBinary input pos).thenCheck fun securityTokenId pos =>
  (uaByteDecodeBinary input pos).thenCheck fun nonceLength pos =>
  (decodeEach (uaByteDecodeBinary input) nonceLength.toNat pos).thenCheck fun messageNonce pos =>
  (decodeWhen (testBit flags 4) (uaUInt16DecodeBinary input) pos).map fun securityFooterSize =>
    ⟨testBit flags 1, testBit flags 2, testBit flags 8, securityTokenId, nonceLength, messageNonce,
      securityFooterSize⟩

def payloadDecodeBinary (payloadHeader : Option DataSetPayloadHeader) (pos : Nat) :
    Res DataSetPayload :=
  let count := (payloadHeader.map fun header => header.count.toNat).getD 1
  (decodeWhen (payloadHeader.isSome && count > 1)
    (decodeEach (uaUInt16DecodeBinary input) count) pos).thenCheck fun sizes pos =>
  (decodeEach (dataSetMessageDecodeBinary input) count pos).map fun messages => ⟨sizes, messages⟩

def securityFooterDecodeLoop (size : Nat) : Nat → Byte → List Byte → Nat → Res (List Byte)
  | 0, _, _, pos => ⟨badInternalError, [], pos, true⟩
  | round + 1, index, footer, pos =>
    if index.toNat < size then
      (uaByteDecodeBinary input pos).thenCheck fun byte pos =>
        securityFooterDecodeLoop size round (index + 1) (footer.set index.toNat byte) pos
    else .ok footer pos

def securityFooterDecodeBinary (size pos : Nat) : Res (List Byte) :=
  securityFooterDecodeLoop input size (input.length + 1) 0 (List.replicate size 0) pos

/-- What follows the promoted fields, and the message that is put together. -/
def messageTailDecodeBinary (read : MessageFlags) (publisherId : PublisherId)
    (dataSetClassId : Option Guid) (groupHeader : Option NetworkMessageGroupHeader)
    (payloadHeader : Option DataSetPayloadHeader) (timestamp : Option (BitVec 64))
    (picoseconds : Option (BitVec 16)) (promotedFields : Option PromotedFields) (pos : Nat) :
    Res NetworkMessage :=
  (decodeWhen read.securityEnabled (securityHeaderDecodeBinary input) pos).thenCheck
    fun securityHeader pos =>
  if read.networkMessageCode.toNat ≠ 0 then .fail badNotImplemented pos
  else
    (payloadDecodeBinary input payloadHeader pos).thenCheck fun payload pos =>
    (securityFooterDecodeBinary input
      ((securityHeader.bind fun header => header.securityFooterSize).getD 0).toNat pos).thenCheck
      fun securityFooter pos =>
    (decodeWhen (securityHeader.any fun header => header.networkMessageSigned)
      (uaByteStringDecodeBinary input) pos).map fun signature =>
      { version := read.flags &&& 15
        publisherIdEnabled := read.publisherIdEnabled
        publisherId, dataSetClassId, groupHeader, payloadHeader, timestamp, picoseconds
        chunkMessage := read.chunkMessage
        networkMessageType := .dataSet
        promotedFields, securityHeader, payload, securityFooter
        signature := signature.getD .null }

def networkMessageDecodeBinaryInternal (pos : Nat) : Res NetworkMessage :=
  (flagsDecodeBinary input pos).thenCheck fun read pos =>
  (decodeWhen read.publisherIdEnabled (publisherIdDecodeBinary input read.publisherIdCode)
    pos).thenCheck fun publisherId pos =>
  (decodeWhen read.dataSetClassIdEnabled (uaGuidDecodeBinary input) pos).thenCheck
    fun dataSetClassId pos =>
  (decodeWhen read.groupHeaderEnabled (groupHeaderDecodeBinary input) pos).thenCheck
    fun groupHeader pos =>
  (decodeWhen read.payloadHeaderEnabled (payloadHeaderDecodeBinary input read.networkMessageCode)
    pos).thenCheck fun payloadHeader pos =>
  (decodeWhen read.timestampEnabled (uaDateTimeDecodeBinary input) pos).thenCheck
    fun timestamp pos =>
  (decodeWhen read.picosecondsEnabled (uaUInt16DecodeBinary input) pos).thenCheck
    fun picoseconds pos =>
  (decodeWhen read.promotedFieldsEnabled (promotedFieldsDecodeBinary input) pos).thenCheck
    fun promotedFields pos =>
  messageTailDecodeBinary input read
    (publisherId.getD (.cleared read.publisherIdCode)) dataSetClassId groupHeader payloadHeader
    timestamp picoseconds promotedFields pos

end Decoding

structure NetworkMessageResult where
  status : StatusCode
  dst : Option NetworkMessage
  offset : Nat
  exhausted : Bool

/-- `UA_NetworkMessage_decodeBinary`. No custom types are known, and a failure clears the
message. -/
def networkMessageDecodeBinary (env : TypeEnv) (src : List Byte) (offset : Nat) :
    NetworkMessageResult :=
  match networkMessageDecodeBinaryInternal
      ⟨src, src.length, { env with custom := [] }, encodingMaxRecursion⟩ offset with
  | ⟨status, message, pos, exhausted⟩ =>
    ⟨status, if status = good then some message else none, pos, exhausted⟩

end OpcUa
