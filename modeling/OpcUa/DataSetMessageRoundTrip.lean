import OpcUa.DataValueRoundTrip
import OpcUa.NetworkMessageComplete
import OpcUa.RoundTrip

/-!
A DataSetMessage alone: what the encoder writes, how large it is and what the decoder makes of it.
-/

namespace OpcUa

open LittleEndian StatusCode List

variable {input : Input}

/-! What the decoder returns -/

section Decoded

variable (env : TypeEnv)

def DataValue.decoded (encoding : FieldEncoding) (field : DataValue) : DataValue :=
  match encoding with
  | .variant => ⟨default, true, decodedValue env field.value variantType⟩
  | _ =>
    ⟨field.info.decoded, field.hasValue,
      if field.hasValue then decodedValue env field.value variantType else .variantEmpty⟩

def DeltaFrameField.decoded (encoding : FieldEncoding) (field : DeltaFrameField) : DeltaFrameField :=
  ⟨field.fieldIndex, field.fieldValue.decoded env encoding⟩

def DataSetMessage.decoded (message : DataSetMessage) : DataSetMessage where
  header := message.header
  data :=
    match message.data with
    | .dataKeyFrame fieldCount dataSetFields =>
      .dataKeyFrame fieldCount (dataSetFields.map (DataValue.decoded env message.header.fieldEncoding))
    | .dataDeltaFrame fieldCount deltaFrameFields =>
      .dataDeltaFrame fieldCount
        (deltaFrameFields.map (DeltaFrameField.decoded env message.header.fieldEncoding))
    | data => data

end Decoded

def DataSetMessage.supported (message : DataSetMessage) : Bool :=
  match message.data with
  | .event => false
  | .keepAlive => true
  | _ => message.header.fieldEncoding == .variant || message.header.fieldEncoding == .dataValue

section Faithful

variable (env : TypeEnv)

def legible (value : Value) (type : DataType) : Bool :=
  encodable env value type && parsable env value type &&
    rootNesting env value type ≤ encodingMaxRecursion + 1

def fieldLegible (encoding : FieldEncoding) (field : DataValue) : Bool :=
  match encoding with
  | .variant => legible env field.value variantType
  | _ => legible env field.toValue dataValueType

def DataSetMessage.legible (message : DataSetMessage) : Bool :=
  message.fields.all (fieldLegible env message.header.fieldEncoding)

end Faithful

section Builtin

variable (wellFormed : input.env.WellFormed)
variable {α : Type} {value : UaString}

include wellFormed

theorem decodeAs_reads [Inhabited α] (convert : Value → α) {value : Value} {type : DataType}
    (described : input.env.describes type = true)
    (typed : Value.hasType input.env value type = true)
    (accepted : encodable input.env value type = true)
    (parses : parsable input.env value type = true)
    (shallow : rootNesting input.env value type ≤ input.maxRecursion + 1) :
    Reads input (decodeAs input type convert) (valueWire input.env value type)
      (convert (decodedValue input.env value type)) := by
  intro pos holds
  simp only [encodable, Bool.and_eq_true] at accepted
  have reads := decodeBinaryInternal_reads input wellFormed described typed accepted.2 parses pos holds
  simp only [decodeAs, uaDecodeBinaryFrom, reads.1 shallow, Res.ok, ↓reduceIte, Option.map_some,
    Option.getD_some]

theorem leafAs_reads [Inhabited α] (convert : Value → α) (content : Leaf) (type : DataType)
    (row : type ∈ builtinTypes) (takes : type.takes content.typeIndices = true)
    (accepted : content.accepted 1 = true) (parses : content.parsable input.env = true) :
    Reads input (decodeAs input type convert) (leafWire content)
      (convert (.leaf content.decoded)) := by
  have reads : Reads input (decodeAs input type convert) (valueWire input.env (.leaf content) type)
      (convert (decodedValue input.env (.leaf content) type)) :=
    decodeAs_reads wellFormed convert (describes_row _ row) (by simpa [Value.hasType] using takes)
      (by simpa [encodable, enters, entered, Value.isStruct, accepts] using accepted)
      (by simpa [OpcUa.parsable] using parses)
      (by simp [rootNesting, Value.isStruct, nesting])
  simpa [valueWire, decodedValue] using reads

theorem uaByteDecodeBinary_reads (value : Byte) :
    Reads input (uaByteDecodeBinary input) [value] value :=
  leafAs_reads wellFormed _ (.byte value) byteType (by decide) rfl rfl rfl

theorem uaUInt16DecodeBinary_reads (value : BitVec 16) :
    Reads input (uaUInt16DecodeBinary input) (word16Wire value) value :=
  leafAs_reads wellFormed _ (.uint16 value) uint16Type (by decide) rfl rfl rfl

theorem uaUInt32DecodeBinary_reads (value : BitVec 32) :
    Reads input (uaUInt32DecodeBinary input) (wordWire value) value :=
  leafAs_reads wellFormed _ (.uint32 value) uint32Type (by decide) rfl rfl rfl

theorem uaDateTimeDecodeBinary_reads (value : BitVec 64) :
    Reads input (uaDateTimeDecodeBinary input) (word64Wire value) value :=
  leafAs_reads wellFormed _ (.uint64 value) dateTimeType (by decide) rfl rfl rfl

end Builtin

namespace Reads

variable {α β : Type}

theorem option {field : Option α} {decode : Nat → Res α} {wire : α → List Byte}
    (reads : ∀ content, Reads input decode (wire content) content) :
    Reads input (OpcUa.decodeWhen field.isSome decode) (wireOption field wire) field := by
  cases field with
  | none => exact Reads.pure none
  | some content => exact (reads content).map some

theorem decodeEach {decode : Nat → Res β} {wire : α → List Byte} {convert : α → β}
    (elements : List α) (reads : ∀ element ∈ elements,
      Reads input decode (wire element) (convert element)) :
    Reads input (decodeEach decode elements.length) (elements.flatMap wire)
      (elements.map convert) := by
  induction elements with
  | nil => exact Reads.pure []
  | cons first rest ih =>
    have later := ih fun element inside => reads element (by simp [inside])
    exact (reads first (by simp)).thenCheck (later.map _)

end Reads

theorem dataSetFlags1_bits (encoding : FieldEncoding) (valid number status major minor second : Bool) :
    let flags := encoding.code <<< 1 ||| flagBit valid 0 ||| flagBit number 3 ||| flagBit status 4 |||
      flagBit major 5 ||| flagBit minor 6 ||| flagBit second 7
    testBit flags 1 = valid ∧ FieldEncoding.ofCode ((flags &&& 6) >>> 1) = encoding ∧
      testBit flags 8 = number ∧ testBit flags 16 = status ∧ testBit flags 32 = major ∧
      testBit flags 64 = minor ∧ testBit flags 128 = second := by
  cases encoding <;> revert valid number status major minor second <;> decide +kernel

theorem dataSetFlags2_bits (data : DataSetMessageData) (timestamp picoSeconds : Bool) :
    let flags := data.code ||| flagBit timestamp 4 ||| flagBit picoSeconds 5
    flags &&& 15 = data.code ∧ testBit flags 16 = timestamp ∧ testBit flags 32 = picoSeconds := by
  cases data <;> simp only [DataSetMessageData.code] <;> revert timestamp picoSeconds <;> decide

theorem sent_getD {present : Bool} {flags : Byte} (absent : present = false → flags = 0) :
    (if present = true then some flags else none).getD 0 = flags := by
  cases present with
  | false => exact (absent rfl).symm
  | true => rfl

theorem dataSetFlags2_absent {message : DataSetMessage} (absent : dataSetFlags2Enabled message = false) :
    dataSetFlags2 message = 0 := by
  simp only [dataSetFlags2Enabled, Bool.or_eq_false_iff, bne_eq_false_iff_eq] at absent
  simp [dataSetFlags2, absent, flagBit]

section DataSetMessages

variable (wellFormed : input.env.WellFormed)
variable {fieldCount : BitVec 16} {encoding : FieldEncoding}
variable {α : Type} {field : DataValue}

include wellFormed

theorem dataSetMessageHeaderDecodeBinary_reads (message : DataSetMessage) :
    Reads input (dataSetMessageHeaderDecodeBinary input) (dataSetMessageHeaderWire message)
      (message.header, message.data.code) := by
  obtain ⟨valid, kind, number, status, major, minor, second⟩ :=
    dataSetFlags1_bits message.header.fieldEncoding message.header.dataSetMessageValid
      message.header.dataSetMessageSequenceNr.isSome message.header.status.isSome
      message.header.configVersionMajorVersion.isSome
      message.header.configVersionMinorVersion.isSome (dataSetFlags2Enabled message)
  obtain ⟨code, timestamp, picoSeconds⟩ := dataSetFlags2_bits message.data
    message.header.timestamp.isSome message.header.picoSeconds.isSome
  have flags1 : Reads input _ _ _ := uaByteDecodeBinary_reads wellFormed (dataSetFlags1 message)
  refine flags1.thenCheck ?_
  simp only [dataSetFlags1, valid, kind, number, status, major, minor, second]
  refine Reads.thenCheck (Reads.decodeWhen fun _ =>
    uaByteDecodeBinary_reads wellFormed (dataSetFlags2 message)) ?_
  simp only [sent_getD dataSetFlags2_absent]
  simp only [dataSetFlags2, code, timestamp, picoSeconds]
  exact (Reads.option (uaUInt16DecodeBinary_reads wellFormed)).thenCheck
    ((Reads.option (uaDateTimeDecodeBinary_reads wellFormed)).thenCheck
      ((Reads.option (uaUInt16DecodeBinary_reads wellFormed)).thenCheck
        ((Reads.option (uaUInt16DecodeBinary_reads wellFormed)).thenCheck
          ((Reads.option (uaUInt32DecodeBinary_reads wellFormed)).thenCheck
            ((Reads.option (uaUInt32DecodeBinary_reads wellFormed)).map _)))))

theorem frame_reads {β : Type} {fields : List α} (whole : fields.length = fieldCount.toNat)
    (make : BitVec 16 → List β → DataSetMessageData) {decode : Nat → Res β} {wire : α → List Byte}
    {convert : α → β} (reads : ∀ field ∈ fields, Reads input decode (wire field) (convert field)) :
    Reads input (fun pos => (uaUInt16DecodeBinary input pos).thenCheck fun count pos =>
        (decodeEach decode count.toNat pos).map (make count))
      (word16Wire fieldCount ++ fields.flatMap wire) (make fieldCount (fields.map convert)) := by
  refine Reads.thenCheck (uaUInt16DecodeBinary_reads wellFormed fieldCount) ?_
  rw [← whole]
  exact (Reads.decodeEach fields reads).map _

theorem deltaField_reads {decode : Nat → Res DataValue} {field : DeltaFrameField}
    (implemented : encoding ≠ .reserved)
    (reads : Reads input decode (fieldWire input.env encoding field.fieldValue)
      (field.fieldValue.decoded input.env encoding)) :
    Reads input (deltaFrameFieldDecodeBinary input decode) (deltaFieldWire input.env encoding field)
      (field.decoded input.env encoding) := by
  have both : Reads input (deltaFrameFieldDecodeBinary input decode)
      (word16Wire field.fieldIndex ++ fieldWire input.env encoding field.fieldValue)
      (field.decoded input.env encoding) := by
    refine Reads.thenCheck (uaUInt16DecodeBinary_reads wellFormed field.fieldIndex) ?_
    exact reads.map _
  cases encoding with
  | reserved => exact absurd rfl implemented
  | _ => exact both

variable (limit : input.maxRecursion = encodingMaxRecursion)

include limit

theorem variantAs_reads [Inhabited α] (convert : Value → α) {value : Value}
    (typed : Value.hasType input.env value variantType = true)
    (legible : legible input.env value variantType = true) :
    Reads input (decodeAs input variantType convert) (valueWire input.env value variantType)
      (convert (decodedValue input.env value variantType)) := by
  simp only [OpcUa.legible, Bool.and_eq_true, decide_eq_true_eq] at legible
  exact decodeAs_reads wellFormed convert (describes_row _ (by decide)) typed legible.1.1
    legible.1.2 (limit ▸ legible.2)

section

variable (typed : Value.hasType input.env field.toValue dataValueType = true)
include typed

theorem variantField_reads (legible : fieldLegible input.env .variant field = true) :
    Reads input (variantFieldDecodeBinary input) (fieldWire input.env .variant field)
      (field.decoded input.env .variant) := by
  simp only [DataValue.toValue, Value.hasType, Bool.and_eq_true] at typed
  exact (variantAs_reads wellFormed limit id typed.2 legible).map _

theorem dataValueField_reads (legible : fieldLegible input.env .dataValue field = true) :
    Reads input (uaDataValueDecodeBinary input) (fieldWire input.env .dataValue field)
      (field.decoded input.env .dataValue) := by
  simp only [fieldLegible, OpcUa.legible, Bool.and_eq_true, decide_eq_true_eq] at legible
  have reads : Reads input (uaDataValueDecodeBinary input) _ _ :=
    decodeAs_reads wellFormed _ (describes_row _ (by decide)) typed legible.1.1
      legible.1.2 (limit ▸ legible.2)
  refine reads.valued ?_
  simp only [DataValue.toValue, decodedValue, DataValue.decoded]

end

theorem dataKeyFrameDecodeBinary_reads {dataSetFields : List DataValue}
    (whole : dataSetFields.length = fieldCount.toNat)
    (supported : encoding = .variant ∨ encoding = .dataValue)
    (typed : ∀ field ∈ dataSetFields, Value.hasType input.env field.toValue dataValueType = true)
    (legible : ∀ field ∈ dataSetFields, fieldLegible input.env encoding field = true) :
    Reads input (dataKeyFrameDecodeBinary input encoding)
      (dataSetMessageDataWire input.env encoding (.dataKeyFrame fieldCount dataSetFields))
      (.dataKeyFrame fieldCount (dataSetFields.map (DataValue.decoded input.env encoding))) := by
  have all : dataSetFields.take fieldCount.toNat = dataSetFields := by simp [← whole]
  simp only [dataSetMessageDataWire, all]
  rcases supported with rfl | rfl
  · exact frame_reads wellFormed whole DataSetMessageData.dataKeyFrame fun field inside =>
      variantField_reads wellFormed limit (typed field inside) (legible field inside)
  · exact frame_reads wellFormed whole DataSetMessageData.dataKeyFrame fun field inside =>
      dataValueField_reads wellFormed limit (typed field inside) (legible field inside)

theorem dataDeltaFrameDecodeBinary_reads {deltaFrameFields : List DeltaFrameField}
    (whole : deltaFrameFields.length = fieldCount.toNat)
    (supported : encoding = .variant ∨ encoding = .dataValue) (typed : ∀ field ∈ deltaFrameFields,
      Value.hasType input.env field.fieldValue.toValue dataValueType = true)
    (legible : ∀ field ∈ deltaFrameFields, fieldLegible input.env encoding field.fieldValue = true)
    :
    Reads input (dataDeltaFrameDecodeBinary input encoding)
      (dataSetMessageDataWire input.env encoding (.dataDeltaFrame fieldCount deltaFrameFields))
      (.dataDeltaFrame fieldCount
        (deltaFrameFields.map (DeltaFrameField.decoded input.env encoding))) := by
  have all : deltaFrameFields.take fieldCount.toNat = deltaFrameFields := by simp [← whole]
  simp only [dataSetMessageDataWire, all]
  rcases supported with rfl | rfl
  · exact frame_reads wellFormed whole DataSetMessageData.dataDeltaFrame fun field inside =>
      deltaField_reads wellFormed (by simp)
        (variantField_reads wellFormed limit (typed field inside) (legible field inside))
  · exact frame_reads wellFormed whole DataSetMessageData.dataDeltaFrame fun field inside =>
      deltaField_reads wellFormed (by simp)
        (dataValueField_reads wellFormed limit (typed field inside) (legible field inside))

theorem dataSetMessageDecodeBinary_reads {message : DataSetMessage}
    (consistent : message.consistent = true) (supported : message.supported = true)
    (typed : message.hasType input.env = true) (legible : message.legible input.env = true) :
    Reads input (dataSetMessageDecodeBinary input) (dataSetMessageWire input.env message)
      (message.decoded input.env) := by
  have header := dataSetMessageHeaderDecodeBinary_reads wellFormed message
  obtain ⟨fields, data⟩ := message
  refine header.thenCheck ?_
  simp only [DataSetMessage.hasType, DataSetMessage.legible, all_eq_true] at typed legible
  cases data with
  | dataKeyFrame fieldCount dataSetFields =>
    simp only [DataSetMessage.consistent, beq_iff_eq] at consistent
    simp only [DataSetMessage.supported, Bool.or_eq_true, beq_iff_eq] at supported
    simp only [DataSetMessage.fields, ← consistent, take_length] at typed legible
    exact (dataKeyFrameDecodeBinary_reads wellFormed limit consistent supported typed legible).map _
  | dataDeltaFrame fieldCount deltaFrameFields =>
    simp only [DataSetMessage.consistent, beq_iff_eq] at consistent
    simp only [DataSetMessage.supported, Bool.or_eq_true, beq_iff_eq] at supported
    simp only [DataSetMessage.fields, ← consistent, take_length, mem_map,
      forall_exists_index, and_imp, forall_apply_eq_imp_iff₂] at typed legible
    exact (dataDeltaFrameDecodeBinary_reads wellFormed limit consistent supported typed legible).map _
  | event => simp [DataSetMessage.supported] at supported
  | keepAlive => exact Reads.pure _

end DataSetMessages

def DataSetMessage.transmitted (env : TypeEnv) (message : DataSetMessage) (size : Nat) :
    Res DataSetMessage :=
  let bytes := (dataSetMessageEncodeBinary env message (singleBuffer size)).2.out
  dataSetMessageDecodeBinary ⟨bytes, bytes.length, { env with custom := [] }, encodingMaxRecursion⟩ 0

section DataSetMessages

variable {env : TypeEnv} {message : DataSetMessage}

theorem dataSetMessageEncodeBinary_good {size : Nat}
    (encoded : (dataSetMessageEncodeBinary env message (singleBuffer size)).1 = good) :
    dataSetMessageEncodable env message = true ∧
      (dataSetMessageEncodeBinary env message (singleBuffer size)).2.out =
        dataSetMessageWire env message := by
  obtain ⟨accepted, written, -⟩ := (dataSetMessageEncodeBinary_writes env message).good_only
    (singleBuffer size) rfl (Nat.zero_le _) encoded
  refine ⟨accepted, ?_⟩
  rw [written]
  rfl

theorem dataSetMessageDecodeBinary_wire (wellFormed : env.WellFormed)
    (consistent : message.consistent = true) (supported : message.supported = true)
    (typed : message.hasType env = true) (legible : message.legible env = true) :
    dataSetMessageDecodeBinary
        ⟨dataSetMessageWire env message, (dataSetMessageWire env message).length, env,
          encodingMaxRecursion⟩ 0 =
      .ok (message.decoded env) (dataSetMessageWire env message).length := by
  let input : Input := ⟨dataSetMessageWire env message, (dataSetMessageWire env message).length, env,
    encodingMaxRecursion⟩
  have reads : Reads input (dataSetMessageDecodeBinary input) (dataSetMessageWire env message)
      (message.decoded env) :=
    dataSetMessageDecodeBinary_reads wellFormed rfl consistent supported typed legible
  have whole := reads 0 (Input.holds_self _ _ _)
  rwa [Nat.zero_add] at whole

/-- The computed size is the number of bytes exactly if the sizes of the fields are exact, and then a
buffer of that size is enough. The decoder consumes the bytes and returns the header as it was, with
the fields in the form in which Variants and DataValues are decoded. -/
theorem dataSetMessage_roundTrip (wellFormed : env.WellFormed) (plain : env.custom = [])
    (consistent : message.consistent = true) (supported : message.supported = true)
    (typed : message.hasType env = true) (size : Nat)
    (encoded : (dataSetMessageEncodeBinary env message (singleBuffer size)).1 = good) :
    let bytes := (dataSetMessageEncodeBinary env message (singleBuffer size)).2.out
    (bytes.length = dataSetMessageCalcSizeBinary env message ↔
      dataSetMessageDefect env message = 0) ∧
    (dataSetMessageDefect env message = 0 → dataSetMessageEncodeBinary env message
          (singleBuffer (dataSetMessageCalcSizeBinary env message)) =
        (good, (singleBuffer (dataSetMessageCalcSizeBinary env message)).push bytes)) ∧
    (message.legible env = true →
      message.transmitted env size = .ok (message.decoded env) bytes.length) := by
  obtain ⟨accepted, out⟩ := dataSetMessageEncodeBinary_good encoded
  have sizes := dataSetMessage_size wellFormed typed accepted
  have same : { env with custom := [] } = env := by rw [← plain]
  simp only [DataSetMessage.transmitted, out, same]
  refine ⟨by omega, fun exact => ?_, dataSetMessageDecodeBinary_wire wellFormed consistent supported
    typed⟩
  have writes := dataSetMessageEncodeBinary_writes env message
  have fits : (singleBuffer (dataSetMessageCalcSizeBinary env message)).out.length +
      (dataSetMessageWire env message).length ≤
        (singleBuffer (dataSetMessageCalcSizeBinary env message)).cap := by
    simp only [singleBuffer, List.length_nil]
    omega
  have success := writes.succeeds _ rfl accepted fits
  obtain ⟨-, written, -⟩ := writes.good_only _ rfl (Nat.zero_le _) success
  exact Prod.ext success written

theorem DataSetMessage.decoded_eq
    (encoding : message.header.fieldEncoding = .dataValue) (consistent : message.consistent = true)
    (same : ∀ field ∈ message.fields, field.info.Clamped ∧
      (if field.hasValue then decodedValue env field.value variantType else .variantEmpty) =
        field.value) :
    message.decoded env = message := by
  have back : ∀ field ∈ message.fields, field.decoded env message.header.fieldEncoding = field := by
    intro field inside
    simp only [encoding, DataValue.decoded, (same field inside).1.decoded_eq, (same field inside).2]
  obtain ⟨header, data⟩ := message
  cases data with
  | dataKeyFrame fieldCount dataSetFields =>
    simp only [DataSetMessage.consistent, beq_iff_eq] at consistent
    simp only [DataSetMessage.fields, ← consistent, List.take_length] at back
    simp only [DataSetMessage.decoded, List.map_congr_left back, List.map_id']
  | dataDeltaFrame fieldCount deltaFrameFields =>
    simp only [DataSetMessage.consistent, beq_iff_eq] at consistent
    simp only [DataSetMessage.fields, ← consistent, List.take_length, List.mem_map,
      forall_exists_index, and_imp, forall_apply_eq_imp_iff₂] at back
    have fields : ∀ field ∈ deltaFrameFields, field.decoded env header.fieldEncoding = field :=
      fun field inside => by rw [DeltaFrameField.decoded, back field inside]
    simp only [DataSetMessage.decoded, List.map_congr_left fields, List.map_id']
  | event => rfl
  | keepAlive => rfl

end DataSetMessages

def fullMessage : DataSetMessage :=
  ⟨⟨true, .dataValue, some 7, some 132000000000000000, some 9, some 0x8000, some 3, some 4⟩,
    .dataDeltaFrame 1 [⟨5, ⟨fullInfo, true, byteVariant⟩⟩]⟩

theorem fullMessage_roundTrip :
    (dataSetMessageEncodeBinary sampleEnv fullMessage (singleBuffer 128)).2.out.length =
        dataSetMessageCalcSizeBinary sampleEnv fullMessage ∧
      fullMessage.transmitted sampleEnv 128 = .ok fullMessage
        (dataSetMessageEncodeBinary sampleEnv fullMessage (singleBuffer 128)).2.out.length := by
  have whole := @dataSetMessage_roundTrip sampleEnv fullMessage sampleEnv_wellFormed rfl (by decide)
    (by decide) (by decide) 128 (by decide)
  have same : fullMessage.decoded sampleEnv = fullMessage := by
    refine DataSetMessage.decoded_eq rfl (by decide) fun field inside => ?_
    obtain rfl := List.mem_singleton.mp inside
    exact ⟨fullInfo_clamped, rfl⟩
  have decoded := whole.2.2 (by decide)
  rw [same] at decoded
  exact ⟨whole.1.mpr (by decide), decoded⟩

def oneField (value : Value) : DataSetMessage :=
  ⟨⟨true, .variant, none, none, none, none, none, none⟩, .dataKeyFrame 1 [⟨default, true, value⟩]⟩

def DataSetMessage.contentTypes (message : DataSetMessage) : List (Option DataType) :=
  message.fields.map fun field => field.value.contentType

/-- A Variant in a Variant is written and refused, and an ExtensionObject is taken off its
content. -/
theorem dataSetMessage_changes : (∀ value ∈ [variantInVariant, argumentObject],
      (dataSetMessageEncodeBinary sampleEnv (oneField value) (singleBuffer 64)).1 = good) ∧
      ((oneField variantInVariant).transmitted sampleEnv 64).status = badDecodingError ∧
      (oneField argumentObject).contentTypes = [some extensionObjectType] ∧
      ((oneField argumentObject).transmitted sampleEnv 64).value.contentTypes =
        [some argumentType] := by
  refine ⟨?_, by decide, by decide, by decide⟩
  intro value inside
  simp only [List.mem_cons, List.not_mem_nil, or_false] at inside
  rcases inside with rfl | rfl <;> decide

end OpcUa
