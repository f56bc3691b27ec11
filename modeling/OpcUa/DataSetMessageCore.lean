import OpcUa.DecodeCore

/-!
The PubSub messages of `ua_pubsub_networkmessage.c` and the codec of a DataSetMessage. A flag
and the field it enables are one option, and a union is tagged with the enumeration that
selects its member. Counts and the arrays they belong to stay separate, as in the source.
-/

namespace OpcUa

open LittleEndian StatusCode

inductive FieldEncoding where
  | variant
  | rawData
  | dataValue
  | reserved
deriving DecidableEq, Repr

namespace FieldEncoding

def code : FieldEncoding → Byte
  | variant => 0
  | rawData => 1
  | dataValue => 2
  | reserved => 3

def ofCode (code : Byte) : FieldEncoding :=
  match code.toNat with
  | 0 => variant
  | 1 => rawData
  | 2 => dataValue
  | _ => reserved

end FieldEncoding

structure DataSetMessageHeader where
  dataSetMessageValid : Bool
  fieldEncoding : FieldEncoding
  dataSetMessageSequenceNr : Option (BitVec 16)
  timestamp : Option (BitVec 64)
  picoSeconds : Option (BitVec 16)
  status : Option (BitVec 16)
  configVersionMajorVersion : Option (BitVec 32)
  configVersionMinorVersion : Option (BitVec 32)
deriving Repr

structure DataValue where
  info : DataValueInfo
  hasValue : Bool
  value : Value
deriving Repr

def DataValue.toValue (field : DataValue) : Value := .dataValue field.info field.hasValue field.value

structure DeltaFrameField where
  fieldIndex : BitVec 16
  fieldValue : DataValue
deriving Repr

inductive DataSetMessageData where
  | dataKeyFrame (fieldCount : BitVec 16) (dataSetFields : List DataValue)
  | dataDeltaFrame (fieldCount : BitVec 16) (deltaFrameFields : List DeltaFrameField)
  | event
  | keepAlive
deriving Repr

def DataSetMessageData.code : DataSetMessageData → Byte
  | dataKeyFrame .. => 0
  | dataDeltaFrame .. => 1
  | event => 2
  | keepAlive => 3

structure DataSetMessage where
  header : DataSetMessageHeader
  data : DataSetMessageData
deriving Repr

inductive PublisherId where
  | byte (value : Byte)
  | uint16 (value : BitVec 16)
  | uint32 (value : BitVec 32)
  | uint64 (value : BitVec 64)
  | string (value : UaString)
  | reserved (code : Byte)
deriving DecidableEq, Repr

namespace PublisherId

def code : PublisherId → Byte
  | byte _ => 0
  | uint16 _ => 1
  | uint32 _ => 2
  | uint64 _ => 3
  | string _ => 4
  | reserved code => code

def cleared (code : Byte) : PublisherId :=
  match code.toNat with
  | 0 => byte 0
  | 1 => uint16 0
  | 2 => uint32 0
  | 3 => uint64 0
  | 4 => string .null
  | _ => reserved code

end PublisherId

inductive NetworkMessageType where
  | dataSet
  | discoveryRequest
  | discoveryResponse
deriving DecidableEq, Repr

def NetworkMessageType.code : NetworkMessageType → Byte
  | dataSet => 0
  | discoveryRequest => 1
  | discoveryResponse => 2

structure NetworkMessageGroupHeader where
  writerGroupId : Option (BitVec 16)
  groupVersion : Option (BitVec 32)
  networkMessageNumber : Option (BitVec 16)
  sequenceNumber : Option (BitVec 16)
deriving DecidableEq, Repr

/-- `dataSetWriterIds` is `none` for a null pointer. -/
structure DataSetPayloadHeader where
  count : Byte
  dataSetWriterIds : Option (List (BitVec 16))
deriving DecidableEq, Repr

structure NetworkMessageSecurityHeader where
  networkMessageSigned : Bool
  networkMessageEncrypted : Bool
  forceKeyReset : Bool
  securityTokenId : BitVec 32
  nonceLength : Byte
  messageNonce : List Byte
  securityFooterSize : Option (BitVec 16)
deriving DecidableEq, Repr

structure PromotedFields where
  promotedFieldsSize : BitVec 16
  promotedFields : List Value
deriving Repr

structure DataSetPayload where
  sizes : Option (List (BitVec 16))
  dataSetMessages : List DataSetMessage
deriving Repr

structure NetworkMessage where
  version : Byte
  publisherIdEnabled : Bool
  publisherId : PublisherId
  dataSetClassId : Option Guid
  groupHeader : Option NetworkMessageGroupHeader
  payloadHeader : Option DataSetPayloadHeader
  timestamp : Option (BitVec 64)
  picoseconds : Option (BitVec 16)
  chunkMessage : Bool
  networkMessageType : NetworkMessageType
  promotedFields : Option PromotedFields
  securityHeader : Option NetworkMessageSecurityHeader
  payload : DataSetPayload
  securityFooter : List Byte
  signature : UaString
deriving Repr

def DataSetMessage.consistent (message : DataSetMessage) : Bool :=
  match message.data with
  | .dataKeyFrame fieldCount dataSetFields => dataSetFields.length == fieldCount.toNat
  | .dataDeltaFrame fieldCount deltaFrameFields => deltaFrameFields.length == fieldCount.toNat
  | _ => true

namespace NetworkMessage

def messageCount (message : NetworkMessage) : Nat :=
  match message.payloadHeader with
  | some header => header.count.toNat
  | none => 1

def footerSize (message : NetworkMessage) : Nat :=
  match message.securityHeader with
  | some header => (header.securityFooterSize.getD 0).toNat
  | none => 0

def signed (message : NetworkMessage) : Bool :=
  message.securityHeader.any fun header => header.networkMessageSigned

def consistent (message : NetworkMessage) : Bool :=
  (message.payloadHeader.all fun header =>
    header.dataSetWriterIds.all fun ids => ids.length == header.count.toNat) &&
  (message.promotedFields.all fun fields =>
    fields.promotedFields.length == fields.promotedFieldsSize.toNat) &&
  (message.securityHeader.all fun header =>
    header.messageNonce.length == header.nonceLength.toNat) &&
  message.footerSize ≤ message.securityFooter.length &&
  (message.payload.sizes.all fun sizes => message.messageCount ≤ sizes.length) &&
  message.payload.dataSetMessages.length == message.messageCount &&
  message.payload.dataSetMessages.all DataSetMessage.consistent

end NetworkMessage

section Builtin

variable (env : TypeEnv)

def uaByteEncodeBinary (value : Byte) : Encoder := uaEncodeBinary env (.leaf (.byte value)) byteType

def uaUInt16EncodeBinary (value : BitVec 16) : Encoder :=
  uaEncodeBinary env (.leaf (.uint16 value)) uint16Type

def uaUInt32EncodeBinary (value : BitVec 32) : Encoder :=
  uaEncodeBinary env (.leaf (.uint32 value)) uint32Type

def uaUInt64EncodeBinary (value : BitVec 64) : Encoder :=
  uaEncodeBinary env (.leaf (.uint64 value)) uint64Type

def uaDateTimeEncodeBinary (value : BitVec 64) : Encoder :=
  uaEncodeBinary env (.leaf (.uint64 value)) dateTimeType

def uaStringEncodeBinary (value : UaString) : Encoder :=
  uaEncodeBinary env (.leaf (.string value)) stringType

def uaByteStringEncodeBinary (value : UaString) : Encoder :=
  uaEncodeBinary env (.leaf (.string value)) byteStringType

def uaGuidEncodeBinary (value : Guid) : Encoder := uaEncodeBinary env (.leaf (.guid value)) guidType

def uaVariantEncodeBinary (value : Value) : Encoder := uaEncodeBinary env value variantType

def uaDataValueEncodeBinary (field : DataValue) : Encoder :=
  uaEncodeBinary env field.toValue dataValueType

end Builtin

section Decoders

variable (input : Input)

def decodeAs {α : Type} [Inhabited α] (type : DataType) (convert : Value → α) (pos : Nat) : Res α :=
  match uaDecodeBinaryFrom input pos type with
  | ⟨status, dst, offset, exhausted⟩ => ⟨status, (dst.map convert).getD default, offset, exhausted⟩

def uaByteDecodeBinary : Nat → Res Byte :=
  decodeAs input byteType fun value =>
    match value with
    | .leaf (.byte word) => word
    | _ => 0

def uaUInt16DecodeBinary : Nat → Res (BitVec 16) :=
  decodeAs input uint16Type fun value =>
    match value with
    | .leaf (.uint16 word) => word
    | _ => 0

def uaUInt32DecodeBinary : Nat → Res (BitVec 32) :=
  decodeAs input uint32Type fun value =>
    match value with
    | .leaf (.uint32 word) => word
    | _ => 0

def uint64Of : Value → BitVec 64
  | .leaf (.uint64 word) => word
  | _ => 0

def uaUInt64DecodeBinary : Nat → Res (BitVec 64) := decodeAs input uint64Type uint64Of

def uaDateTimeDecodeBinary : Nat → Res (BitVec 64) := decodeAs input dateTimeType uint64Of

def stringOf : Value → UaString
  | .leaf (.string text) => text
  | _ => .null

def uaStringDecodeBinary : Nat → Res UaString := decodeAs input stringType stringOf

def uaByteStringDecodeBinary : Nat → Res UaString := decodeAs input byteStringType stringOf

def uaGuidDecodeBinary : Nat → Res Guid :=
  decodeAs input guidType fun value =>
    match value with
    | .leaf (.guid guid) => guid
    | _ => default

def uaVariantDecodeBinary : Nat → Res Value := decodeAs input variantType id

instance : Inhabited DataValue := ⟨⟨default, false, .variantEmpty⟩⟩

def uaDataValueDecodeBinary : Nat → Res DataValue :=
  decodeAs input dataValueType fun value =>
    match value with
    | .dataValue info hasValue content => ⟨info, hasValue, content⟩
    | _ => default

end Decoders

/-- A write whose status is overwritten before anything looks at it. -/
def unchecked (encode : Encoder) : Encoder := fun ctx => (good, (encode ctx).2)

def encodeEach {α : Type} (encode : α → Encoder) : List α → Encoder
  | [] => succeed
  | first :: rest => andThen (encode first) (encodeEach encode rest)

def decodeEach {α : Type} (decode : Nat → Res α) : Nat → Nat → Res (List α)
  | 0, pos => .ok [] pos
  | count + 1, pos =>
    (decode pos).thenCheck fun value pos =>
    (decodeEach decode count pos).map fun rest => value :: rest

def dataSetFlags2Enabled (message : DataSetMessage) : Bool :=
  message.data.code != 0 || message.header.timestamp.isSome || message.header.picoSeconds.isSome

def dataSetFlags1 (message : DataSetMessage) : Byte :=
  message.header.fieldEncoding.code <<< 1 ||| flagBit message.header.dataSetMessageValid 0 |||
    flagBit message.header.dataSetMessageSequenceNr.isSome 3 |||
    flagBit message.header.status.isSome 4 |||
    flagBit message.header.configVersionMajorVersion.isSome 5 |||
    flagBit message.header.configVersionMinorVersion.isSome 6 |||
    flagBit (dataSetFlags2Enabled message) 7

def dataSetFlags2 (message : DataSetMessage) : Byte :=
  message.data.code ||| flagBit message.header.timestamp.isSome 4 |||
    flagBit message.header.picoSeconds.isSome 5

section DataSetMessages

variable (env : TypeEnv)

def dataSetMessageHeaderEncodeBinary (message : DataSetMessage) : Encoder :=
  andThen (uaByteEncodeBinary env (dataSetFlags1 message)) (andThen
      (encodeWhen (dataSetFlags2Enabled message) (uaByteEncodeBinary env (dataSetFlags2 message)))
      (andThen (encodeOption message.header.dataSetMessageSequenceNr (uaUInt16EncodeBinary env))
        (andThen (encodeOption message.header.timestamp (uaDateTimeEncodeBinary env))
          (andThen (encodeOption message.header.picoSeconds (uaUInt16EncodeBinary env))
            (andThen (encodeOption message.header.status (uaUInt16EncodeBinary env)) (andThen
                (encodeOption message.header.configVersionMajorVersion (uaUInt32EncodeBinary env))
                (encodeOption message.header.configVersionMinorVersion
                  (uaUInt32EncodeBinary env))))))))

def dataKeyFrameEncodeBinary (encoding : FieldEncoding) (fieldCount : BitVec 16)
    (dataSetFields : List DataValue) : Encoder :=
  andThen (encodeWhen (encoding != .rawData) (uaUInt16EncodeBinary env fieldCount))
    (match encoding with
      | .variant =>
        encodeEach (fun field => uaVariantEncodeBinary env field.value)
          (dataSetFields.take fieldCount.toNat)
      | .rawData => failWith badNotImplemented
      | .dataValue =>
        encodeEach (uaDataValueEncodeBinary env) (dataSetFields.take fieldCount.toNat)
      | .reserved => succeed)

def dataDeltaFrameEncodeBinary (encoding : FieldEncoding) (fieldCount : BitVec 16)
    (deltaFrameFields : List DeltaFrameField) : Encoder :=
  andThen (uaUInt16EncodeBinary env fieldCount) (match encoding with
      | .variant =>
        encodeEach (fun field => andThen (uaUInt16EncodeBinary env field.fieldIndex)
          (uaVariantEncodeBinary env field.fieldValue.value))
          (deltaFrameFields.take fieldCount.toNat)
      | .rawData => failWith badNotImplemented
      | .dataValue =>
        encodeEach (fun field => andThen (uaUInt16EncodeBinary env field.fieldIndex)
          (uaDataValueEncodeBinary env field.fieldValue))
          (deltaFrameFields.take fieldCount.toNat)
      | .reserved => succeed)

def dataSetMessageEncodeBinary (message : DataSetMessage) : Encoder :=
  andThen (dataSetMessageHeaderEncodeBinary env message) (match message.data with
      | .dataKeyFrame fieldCount dataSetFields =>
        dataKeyFrameEncodeBinary env message.header.fieldEncoding fieldCount dataSetFields
      | .dataDeltaFrame fieldCount deltaFrameFields =>
        dataDeltaFrameEncodeBinary env message.header.fieldEncoding fieldCount deltaFrameFields
      | .event => failWith badNotImplemented
      | .keepAlive => succeed)

def dataSetMessageHeaderCalcSizeBinary (message : DataSetMessage) : Nat :=
  1 + (if dataSetFlags2Enabled message then 1 else 0) +
    optionSize message.header.dataSetMessageSequenceNr (fun _ => 2) +
    optionSize message.header.timestamp (fun _ => 8) +
    optionSize message.header.picoSeconds (fun _ => 2) +
    optionSize message.header.status (fun _ => 2) +
    optionSize message.header.configVersionMajorVersion (fun _ => 4) +
    optionSize message.header.configVersionMinorVersion (fun _ => 4)

def variantSize (field : DataValue) : Nat := calcSizeBinary env field.value variantType

def dataValueSize (field : DataValue) : Nat := calcSizeBinary env field.toValue dataValueType

def dataSetMessageCalcSizeBinary (message : DataSetMessage) : Nat :=
  dataSetMessageHeaderCalcSizeBinary message +
    match message.data with
    | .dataKeyFrame fieldCount dataSetFields =>
      (if message.header.fieldEncoding != .rawData then 2 else 0) +
        match message.header.fieldEncoding with
        | .variant => ((dataSetFields.take fieldCount.toNat).map (variantSize env)).sum
        | .dataValue => ((dataSetFields.take fieldCount.toNat).map (dataValueSize env)).sum
        | _ => 0
    | .dataDeltaFrame fieldCount deltaFrameFields =>
      (if message.header.fieldEncoding != .rawData then 2 else 0) +
        match message.header.fieldEncoding with
        | .variant =>
          ((deltaFrameFields.take fieldCount.toNat).map fun field =>
            2 + variantSize env field.fieldValue).sum
        | .dataValue =>
          ((deltaFrameFields.take fieldCount.toNat).map fun field =>
            2 + dataValueSize env field.fieldValue).sum
        | _ => 0
    | .event => 0
    | .keepAlive => 0

end DataSetMessages

section DataSetMessages

variable (input : Input)

instance : Inhabited DataSetMessageHeader :=
  ⟨⟨false, .variant, none, none, none, none, none, none⟩⟩
instance : Inhabited DataSetMessageData := ⟨.dataKeyFrame 0 []⟩
instance : Inhabited DataSetMessage := ⟨⟨default, default⟩⟩
instance : Inhabited DeltaFrameField := ⟨⟨0, default⟩⟩

def dataSetMessageHeaderDecodeBinary (pos : Nat) : Res (DataSetMessageHeader × Byte) :=
  (uaByteDecodeBinary input pos).thenCheck fun flags1 pos =>
  (decodeWhen (testBit flags1 128) (uaByteDecodeBinary input) pos).thenCheck fun second pos =>
    let flags2 := second.getD 0
    (decodeWhen (testBit flags1 8) (uaUInt16DecodeBinary input) pos).thenCheck fun sequenceNr pos =>
    (decodeWhen (testBit flags2 16) (uaDateTimeDecodeBinary input) pos).thenCheck
      fun timestamp pos =>
    (decodeWhen (testBit flags2 32) (uaUInt16DecodeBinary input) pos).thenCheck
      fun picoSeconds pos =>
    (decodeWhen (testBit flags1 16) (uaUInt16DecodeBinary input) pos).thenCheck fun status pos =>
    (decodeWhen (testBit flags1 32) (uaUInt32DecodeBinary input) pos).thenCheck fun major pos =>
    (decodeWhen (testBit flags1 64) (uaUInt32DecodeBinary input) pos).map fun minor =>
      (⟨testBit flags1 1, .ofCode ((flags1 &&& 6) >>> 1), sequenceNr, timestamp, picoSeconds, status,
        major, minor⟩, flags2 &&& 15)

def variantFieldDecodeBinary (pos : Nat) : Res DataValue :=
  (uaVariantDecodeBinary input pos).map fun value => ⟨default, true, value⟩

def dataKeyFrameDecodeBinary (encoding : FieldEncoding) (pos : Nat) : Res DataSetMessageData :=
  if encoding = .rawData then .ok (.dataKeyFrame 0 []) pos
  else
    (uaUInt16DecodeBinary input pos).thenCheck fun fieldCount pos =>
      match encoding with
      | .variant =>
        (decodeEach (variantFieldDecodeBinary input) fieldCount.toNat pos).map
          fun fields => .dataKeyFrame fieldCount fields
      | .dataValue =>
        (decodeEach (uaDataValueDecodeBinary input) fieldCount.toNat pos).map
          fun fields => .dataKeyFrame fieldCount fields
      | _ => .ok (.dataKeyFrame fieldCount []) pos

def deltaFrameFieldDecodeBinary (decode : Nat → Res DataValue) (pos : Nat) : Res DeltaFrameField :=
  (uaUInt16DecodeBinary input pos).thenCheck fun fieldIndex pos =>
  (decode pos).map fun fieldValue => ⟨fieldIndex, fieldValue⟩

def dataDeltaFrameDecodeBinary (encoding : FieldEncoding) (pos : Nat) : Res DataSetMessageData :=
  if encoding = .rawData then .ok (.dataDeltaFrame 0 []) pos
  else
    (uaUInt16DecodeBinary input pos).thenCheck fun fieldCount pos =>
      match encoding with
      | .variant =>
        (decodeEach (deltaFrameFieldDecodeBinary input (variantFieldDecodeBinary input))
          fieldCount.toNat pos).map fun fields => .dataDeltaFrame fieldCount fields
      | .dataValue =>
        (decodeEach (deltaFrameFieldDecodeBinary input (uaDataValueDecodeBinary input))
          fieldCount.toNat pos).map fun fields => .dataDeltaFrame fieldCount fields
      | _ => .ok (.dataDeltaFrame fieldCount []) pos

def dataSetMessageDecodeBinary (pos : Nat) : Res DataSetMessage :=
  (dataSetMessageHeaderDecodeBinary input pos).thenCheck fun (header, code) pos =>
    match code.toNat with
    | 0 => (dataKeyFrameDecodeBinary input header.fieldEncoding pos).map fun data => ⟨header, data⟩
    | 1 => (dataDeltaFrameDecodeBinary input header.fieldEncoding pos).map fun data => ⟨header, data⟩
    | 3 => .ok ⟨header, .keepAlive⟩ pos
    | _ => .fail badNotImplemented pos

end DataSetMessages

end OpcUa
