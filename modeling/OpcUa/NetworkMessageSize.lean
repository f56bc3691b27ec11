import OpcUa.NetworkMessageWire

/-!
The computed size of a NetworkMessage is the number of its bytes plus the defects in the
computed sizes of the Variants and DataValues in it.
-/

namespace OpcUa

open LittleEndian StatusCode List

def DataSetMessage.fields (message : DataSetMessage) : List DataValue :=
  match message.data with
  | .dataKeyFrame fieldCount dataSetFields => dataSetFields.take fieldCount.toNat
  | .dataDeltaFrame fieldCount deltaFrameFields =>
    (deltaFrameFields.take fieldCount.toNat).map fun field => field.fieldValue
  | _ => []

def PromotedFields.fields (promoted : PromotedFields) : List Value :=
  promoted.promotedFields.take promoted.promotedFieldsSize.toNat

section Messages

variable (env : TypeEnv)

def DataSetMessage.hasType (message : DataSetMessage) : Bool :=
  message.fields.all fun field => Value.hasType env field.toValue dataValueType

def NetworkMessage.hasType (message : NetworkMessage) : Bool :=
  (message.promotedFields.all fun promoted =>
    promoted.fields.all fun field => Value.hasType env field variantType) &&
  (message.payload.dataSetMessages.take message.messageCount).all (DataSetMessage.hasType env)

def fieldDefect (encoding : FieldEncoding) (field : DataValue) : Int :=
  match encoding with
  | .variant => sizeDefect env field.value variantType
  | .dataValue => sizeDefect env field.toValue dataValueType
  | _ => 0

def dataSetMessageDefect (message : DataSetMessage) : Int :=
  (message.fields.map (fieldDefect env message.header.fieldEncoding)).sum

def promotedDefect (promoted : PromotedFields) : Int :=
  (promoted.fields.map fun field => sizeDefect env field variantType).sum

def optionDefect {α : Type} (field : Option α) (defect : α → Int) : Int :=
  match field with
  | some value => defect value
  | none => 0

def messageDefect (message : NetworkMessage) : Int :=
  optionDefect message.promotedFields (promotedDefect env) +
    ((message.payload.dataSetMessages.take message.messageCount).map (dataSetMessageDefect env)).sum

end Messages

/-! The bytes of a message -/

def payloadHeaderWire (header : DataSetPayloadHeader) : List Byte :=
  header.count :: ((header.dataSetWriterIds.getD []).take header.count.toNat).flatMap word16Wire

section Messages

variable (env : TypeEnv)

def promotedFieldsWire (promoted : PromotedFields) : List Byte :=
  word16Wire (promotedSize env promoted.fields) ++
    promoted.fields.flatMap fun field => valueWire env field variantType

def networkMessageWire (message : NetworkMessage) : List Byte :=
  headWire message ++ (wireOption message.payloadHeader payloadHeaderWire ++
    (wireOption message.timestamp word64Wire ++ (wireOption message.picoseconds word16Wire ++
      (wireOption message.promotedFields (promotedFieldsWire env) ++ tailWire env message))))

def promotedEncodable (promoted : PromotedFields) : Bool :=
  promoted.fields.all fun field => encodable env field variantType

def networkMessageEncodable (message : NetworkMessage) : Bool :=
  headEncodable message && (message.payloadHeader.all fun header => header.dataSetWriterIds.isSome) &&
    message.promotedFields.all (promotedEncodable env) && tailEncodable env message

end Messages

theorem sum_size {α : Type} (elements : List α) (size : α → Nat) (wire : α → List Byte)
    (defect : α → Int)
    (sizes : ∀ element ∈ elements, (size element : Int) = (wire element).length + defect element) :
    ((elements.map size).sum : Int) = (elements.flatMap wire).length + (elements.map defect).sum := by
  induction elements with
  | nil => simp
  | cons first rest ih =>
    have head := sizes first (by simp)
    have tail := ih fun element inside => sizes element (by simp [inside])
    simp only [map_cons, sum_cons, flatMap_cons, length_append]
    omega

theorem numbers_length {α : Type} (elements : List α) {wire : α → List Byte} {width : Nat}
    (widths : ∀ element, (wire element).length = width) :
    (elements.flatMap wire).length = width * elements.length := by
  induction elements with
  | nil => simp
  | cons first rest ih =>
    simp only [flatMap_cons, length_append, ih, widths, length_cons]
    ring

@[simp] theorem word16Wire_length (word : BitVec 16) : (word16Wire word).length = 2 := by
  simp [word16Wire]

@[simp] theorem word64Wire_length (word : BitVec 64) : (word64Wire word).length = 8 := by
  simp [word64Wire]

@[simp] theorem wordWire_length (word : BitVec 32) : (wordWire word).length = 4 := by
  simp [wordWire]

section Sizes

variable {env : TypeEnv} (wellFormed : env.WellFormed)

include wellFormed

theorem value_size {value : Value} {type : DataType} (typed : Value.hasType env value type = true)
    (accepted : encodable env value type = true) :
    (calcSizeBinary env value type : Int) =
      (valueWire env value type).length + sizeDefect env value type := by
  simp only [encodable, Bool.and_eq_true] at accepted
  exact calcSizeBinary_eq wellFormed value type _ (memberTyped_of_hasType typed) accepted.2

omit wellFormed in
theorem dataSetMessageHeader_size (message : DataSetMessage) :
    dataSetMessageHeaderCalcSizeBinary message = (dataSetMessageHeaderWire message).length := by
  simp only [dataSetMessageHeaderCalcSizeBinary, dataSetMessageHeaderWire, length_cons,
    length_append, length_nil, Nat.zero_add, wireWhen_length,
    wireOption_length _ word16Wire (fun _ => 2) word16Wire_length,
    wireOption_length _ word64Wire (fun _ => 8) word64Wire_length,
    wireOption_length _ wordWire (fun _ => 4) wordWire_length]
  omega

def fieldSize (env : TypeEnv) (encoding : FieldEncoding) (field : DataValue) : Nat :=
  match encoding with
  | .variant => variantSize env field
  | .dataValue => dataValueSize env field
  | _ => 0

def deltaFieldSize (env : TypeEnv) (encoding : FieldEncoding) (field : DeltaFrameField) : Nat :=
  match encoding with
  | .variant => 2 + variantSize env field.fieldValue
  | .dataValue => 2 + dataValueSize env field.fieldValue
  | _ => 0

theorem field_size {encoding : FieldEncoding} {field : DataValue}
    (typed : Value.hasType env field.toValue dataValueType = true)
    (accepted : fieldEncodable env encoding field = true) :
    (fieldSize env encoding field : Int) =
      (fieldWire env encoding field).length + fieldDefect env encoding field := by
  cases encoding with
  | variant =>
    simp only [DataValue.toValue, Value.hasType, Bool.and_eq_true] at typed
    exact value_size wellFormed typed.2 accepted
  | dataValue => exact value_size wellFormed typed accepted
  | rawData => rfl
  | reserved => rfl

theorem deltaField_size {encoding : FieldEncoding} {field : DeltaFrameField}
    (implemented : encoding ≠ .rawData)
    (typed : Value.hasType env field.fieldValue.toValue dataValueType = true)
    (accepted : fieldEncodable env encoding field.fieldValue = true) :
    (deltaFieldSize env encoding field : Int) =
      (deltaFieldWire env encoding field).length + fieldDefect env encoding field.fieldValue := by
  have size := field_size wellFormed typed accepted
  cases encoding with
  | rawData => exact absurd rfl implemented
  | reserved => rfl
  | _ =>
    simp only [fieldSize] at size
    simp only [deltaFieldSize, deltaFieldWire, length_append, word16Wire_length]
    omega

omit wellFormed in
theorem dataSetMessageCalcSizeBinary_sum (env : TypeEnv) (header : DataSetMessageHeader)
    (fieldCount : BitVec 16) (implemented : header.fieldEncoding ≠ .rawData) :
    (∀ dataSetFields, dataSetMessageCalcSizeBinary env ⟨header, .dataKeyFrame fieldCount dataSetFields⟩ =
      dataSetMessageHeaderCalcSizeBinary ⟨header, .dataKeyFrame fieldCount dataSetFields⟩ +
        (2 + ((dataSetFields.take fieldCount.toNat).map (fieldSize env header.fieldEncoding)).sum)) ∧
    (∀ deltaFrameFields,
      dataSetMessageCalcSizeBinary env ⟨header, .dataDeltaFrame fieldCount deltaFrameFields⟩ =
        dataSetMessageHeaderCalcSizeBinary ⟨header, .dataDeltaFrame fieldCount deltaFrameFields⟩ +
          (2 + ((deltaFrameFields.take fieldCount.toNat).map
            (deltaFieldSize env header.fieldEncoding)).sum)) := by
  have zeros {α : Type} (elements : List α) : (elements.map fun _ => 0).sum = 0 := by
    induction elements with
    | nil => rfl
    | cons first rest ih => simp only [map_cons, sum_cons, ih]
  cases encoding : header.fieldEncoding with
  | rawData => exact absurd encoding implemented
  | variant =>
    refine ⟨fun fields => ?_, fun fields => ?_⟩ <;>
      simp only [dataSetMessageCalcSizeBinary, encoding] <;> rfl
  | dataValue =>
    refine ⟨fun fields => ?_, fun fields => ?_⟩ <;>
      simp only [dataSetMessageCalcSizeBinary, encoding] <;> rfl
  | reserved =>
    refine ⟨fun fields => ?_, fun fields => ?_⟩
    · have none := zeros (fields.take fieldCount.toNat)
      simp only [dataSetMessageCalcSizeBinary, encoding]
      exact congrArg _ (congrArg _ none.symm)
    · have none := zeros (fields.take fieldCount.toNat)
      simp only [dataSetMessageCalcSizeBinary, encoding]
      exact congrArg _ (congrArg _ none.symm)

theorem dataSetMessage_size {message : DataSetMessage} (typed : message.hasType env = true)
    (accepted : dataSetMessageEncodable env message = true) :
    (dataSetMessageCalcSizeBinary env message : Int) =
      (dataSetMessageWire env message).length + dataSetMessageDefect env message := by
  obtain ⟨header, data⟩ := message
  simp only [dataSetMessageEncodable, DataSetMessage.hasType, all_eq_true] at accepted typed
  simp only [dataSetMessageWire, length_append, dataSetMessageDefect, DataSetMessage.fields]
  cases data with
  | dataKeyFrame fieldCount dataSetFields =>
    simp only [dataSetMessageDataEncodable, Bool.and_eq_true, all_eq_true, bne_iff_ne,
      ne_eq] at accepted
    have sum := sum_size (dataSetFields.take fieldCount.toNat)
      (fieldSize env header.fieldEncoding) (fieldWire env header.fieldEncoding)
      (fieldDefect env header.fieldEncoding) fun field inside =>
        field_size wellFormed (typed field inside) (accepted.2 field inside)
    rw [(dataSetMessageCalcSizeBinary_sum env header fieldCount accepted.1).1 dataSetFields,
      dataSetMessageHeader_size]
    simp only [dataSetMessageDataWire, length_append, word16Wire_length]
    omega
  | dataDeltaFrame fieldCount deltaFrameFields =>
    simp only [dataSetMessageDataEncodable, Bool.and_eq_true, all_eq_true, bne_iff_ne,
      ne_eq] at accepted
    simp only [DataSetMessage.fields, mem_map, forall_exists_index, and_imp,
      forall_apply_eq_imp_iff₂] at typed
    have sum := sum_size (deltaFrameFields.take fieldCount.toNat)
      (deltaFieldSize env header.fieldEncoding) (deltaFieldWire env header.fieldEncoding)
      (fun field => fieldDefect env header.fieldEncoding field.fieldValue) fun field inside =>
        deltaField_size wellFormed accepted.1 (typed field inside) (accepted.2 field inside)
    rw [(dataSetMessageCalcSizeBinary_sum env header fieldCount accepted.1).2 deltaFrameFields,
      dataSetMessageHeader_size]
    simp only [dataSetMessageDataWire, length_append, word16Wire_length, map_map]
    simp only [Function.comp_def]
    omega
  | event => simp [dataSetMessageDataEncodable] at accepted
  | keepAlive =>
    simp [dataSetMessageCalcSizeBinary, dataSetMessageHeader_size, dataSetMessageDataWire]

omit wellFormed in
theorem flagsWire_length (message : NetworkMessage) : (flagsWire message).length =
      1 + (if message.extendedFlags1Enabled then 1 + (if message.extendedFlags2Enabled then 1 else 0)
        else 0) := by
  simp only [flagsWire, length_cons, wireWhen_length, length_nil, Nat.zero_add]
  rw [Nat.add_comm 1, Nat.add_comm 1]

omit wellFormed in
theorem publisherIdWire_length (publisherId : PublisherId) :
    (publisherIdWire publisherId).length = publisherIdCalcSizeBinary publisherId := by
  cases publisherId <;> simp [publisherIdWire, publisherIdCalcSizeBinary, stringWire_length]

omit wellFormed in
theorem groupHeaderWire_length (header : NetworkMessageGroupHeader) :
    (groupHeaderWire header).length = groupHeaderCalcSizeBinary header := by
  simp only [groupHeaderWire, groupHeaderCalcSizeBinary, length_cons, length_append,
    wireOption_length _ word16Wire (fun _ => 2) word16Wire_length,
    wireOption_length _ wordWire (fun _ => 4) wordWire_length]
  omega

omit wellFormed in
theorem securityHeaderWire_length {header : NetworkMessageSecurityHeader}
    (whole : header.messageNonce.length = header.nonceLength.toNat) :
    (securityHeaderWire header).length = securityHeaderCalcSizeBinary header := by
  have nonce : (if header.nonceLength.toNat > 0 then header.nonceLength.toNat else 0) =
      header.nonceLength.toNat := by
    split <;> omega
  simp only [securityHeaderWire, securityHeaderCalcSizeBinary, length_cons, length_append,
    wordWire_length, length_take, whole, Nat.min_self, nonce,
    wireOption_length _ word16Wire (fun _ => 2) word16Wire_length]
  omega

omit wellFormed in
theorem headWire_length (message : NetworkMessage) : (headWire message).length =
      (1 + (if message.extendedFlags1Enabled then
          1 + (if message.extendedFlags2Enabled then 1 else 0) else 0)) +
        ((if message.publisherIdEnabled then publisherIdCalcSizeBinary message.publisherId else 0) +
          (optionSize message.dataSetClassId (fun _ => 16) +
            optionSize message.groupHeader groupHeaderCalcSizeBinary)) := by
  simp only [headWire, length_append, flagsWire_length, wireWhen_length,
    publisherIdWire_length, wireOption_length _ guidWire (fun _ => 16) guidWire_length,
    wireOption_length _ groupHeaderWire groupHeaderCalcSizeBinary groupHeaderWire_length]

theorem payload_size {message : NetworkMessage} (dataSet : message.networkMessageType = .dataSet)
    (whole : message.payload.dataSetMessages.length = message.messageCount)
    (typed : ∀ inner ∈ message.payload.dataSetMessages.take message.messageCount,
      DataSetMessage.hasType env inner = true)
    (accepted : ∀ inner ∈ message.payload.dataSetMessages.take message.messageCount,
      dataSetMessageEncodable env inner = true) :
    (payloadCalcSizeBinary env message : Int) = (payloadWire env message).length +
      ((message.payload.dataSetMessages.take message.messageCount).map
        (dataSetMessageDefect env)).sum := by
  have sum := sum_size (message.payload.dataSetMessages.take message.messageCount)
    (dataSetMessageCalcSizeBinary env) (dataSetMessageWire env) (dataSetMessageDefect env)
    fun inner inside => dataSetMessage_size wellFormed (typed inner inside) (accepted inner inside)
  have table : ((payloadSizes env message).flatMap word16Wire).length = 2 * message.messageCount := by
    rw [numbers_length _ word16Wire_length]
    simp [payloadSizes, whole]
  simp only [payloadCalcSizeBinary, dataSet, ↓reduceIte, payloadWire, length_append,
    wireWhen_length, table]
  omega

theorem promoted_size {promoted : PromotedFields}
    (typed : (promoted.fields.all fun field => Value.hasType env field variantType) = true)
    (accepted : promotedEncodable env promoted = true) :
    (promotedFieldsCalcSizeBinary env promoted : Int) =
      (promotedFieldsWire env promoted).length + promotedDefect env promoted := by
  simp only [promotedEncodable, all_eq_true] at typed accepted
  have sum := sum_size promoted.fields (fun field => calcSizeBinary env field variantType)
    (fun field => valueWire env field variantType) (fun field => sizeDefect env field variantType)
    fun field inside => value_size wellFormed (typed field inside) (accepted field inside)
  simp only [promotedFieldsCalcSizeBinary, promotedFieldsWire, length_append,
    word16Wire_length, promotedDefect]
  simp only [PromotedFields.fields] at sum ⊢
  omega

omit wellFormed in
theorem payloadHeaderWire_length {header : DataSetPayloadHeader}
    (given : header.dataSetWriterIds.isSome = true)
    (whole : header.dataSetWriterIds.all (fun ids => ids.length == header.count.toNat) = true) :
    (payloadHeaderWire header).length = 1 + 2 * header.count.toNat := by
  obtain ⟨ids, present⟩ := Option.isSome_iff_exists.1 given
  simp only [present, Option.all_some, beq_iff_eq] at whole
  simp only [payloadHeaderWire, present, Option.getD_some, length_cons,
    numbers_length _ word16Wire_length, length_take, whole, Nat.min_self]
  omega

omit wellFormed in
theorem optionSize_eq {α : Type} {field : Option α} {size : α → Nat} {wire : α → List Byte}
    {defect : α → Int}
    (sizes : ∀ value, field = some value → (size value : Int) = (wire value).length + defect value) :
    (optionSize field size : Int) = (wireOption field wire).length + optionDefect field defect := by
  cases field with
  | none => rfl
  | some value => exact sizes value rfl

theorem networkMessage_size {message : NetworkMessage} (consistent : message.consistent = true)
    (typed : message.hasType env = true) (accepted : networkMessageEncodable env message = true) :
    (networkMessageCalcSizeBinary env message : Int) =
      (networkMessageWire env message).length + messageDefect env message := by
  simp only [NetworkMessage.consistent, Bool.and_eq_true, decide_eq_true_eq, beq_iff_eq,
    Option.all_eq_true] at consistent
  simp only [NetworkMessage.hasType, Bool.and_eq_true, Option.all_eq_true, all_eq_true] at typed
  simp only [networkMessageEncodable, tailEncodable, Bool.and_eq_true, beq_iff_eq,
    Option.all_eq_true, all_eq_true] at accepted
  have dataSet := accepted.2.1.1.1
  have given : message.payloadHeader.any (fun header => header.dataSetWriterIds.isNone) = false := by
    rw [Option.any_eq_false]
    intro header present
    have ids := accepted.1.1.2 header present
    cases written : header.dataSetWriterIds with
    | none => simp [written] at ids
    | some list => simp
  have payload := payload_size wellFormed dataSet consistent.1.2 typed.2 accepted.2.1.1.2
  have promoted : (optionSize message.promotedFields (promotedFieldsCalcSizeBinary env) : Int) =
      (wireOption message.promotedFields (promotedFieldsWire env)).length +
        optionDefect message.promotedFields (promotedDefect env) :=
    optionSize_eq fun value present => promoted_size wellFormed (by
      simpa using typed.1 value present) (accepted.1.2 value present)
  have header : (wireOption message.payloadHeader payloadHeaderWire).length =
      optionSize message.payloadHeader fun header => 1 + 2 * header.count.toNat := by
    cases present : message.payloadHeader with
    | none => rfl
    | some header =>
      exact payloadHeaderWire_length (accepted.1.1.2 header present) (by
        simpa [Option.all_eq_true] using consistent.1.1.1.1.1.1 header present)
  have security : (wireOption message.securityHeader securityHeaderWire).length =
      optionSize message.securityHeader securityHeaderCalcSizeBinary := by
    cases present : message.securityHeader with
    | none => rfl
    | some header =>
      exact securityHeaderWire_length (consistent.1.1.1.1.2 header present)
  have footer : (message.securityFooter.take message.footerSize).length = message.footerSize := by
    simp only [length_take]
    exact Nat.min_eq_left consistent.1.1.1.2
  simp only [networkMessageCalcSizeBinary, dataSet, given, true_and, Bool.false_eq_true, ↓reduceIte,
    networkMessageWire, tailWire, messageDefect, length_append, headWire_length, header,
    security, footer, wireWhen_length, stringWire_length,
    wireOption_length _ word16Wire (fun _ => 2) word16Wire_length,
    wireOption_length _ word64Wire (fun _ => 8) word64Wire_length]
  omega

end Sizes

end OpcUa
