import OpcUa.CalcSizeExact
import OpcUa.NetworkMessageCore

/-!
The bytes of a NetworkMessage and of its parts. Every part whose write is checked refines its
bytes in the sense of `Writes`.
-/

namespace OpcUa

open LittleEndian StatusCode

def encodable (env : TypeEnv) (value : Value) (type : DataType) : Bool :=
  enters value 0 && accepts env value type (entered value 0)

def word16Wire (word : BitVec 16) : List Byte := leBytes 2 word.toNat

def word64Wire (word : BitVec 64) : List Byte := leBytes 8 word.toNat

section Builtin

variable (env : TypeEnv)

theorem leaf_writes (content : Leaf) (type : DataType) :
    Writes (uaEncodeBinary env (.leaf content) type) (content.accepted 1 = true)
      (leafWire content) :=
  (uaEncodeBinary_writes env (.leaf content) type).of_eq
    (by simp [enters, entered, Value.isStruct, accepts]) (by simp [valueWire])

theorem uaByteEncodeBinary_writes (value : Byte) :
    Writes (uaByteEncodeBinary env value) True [value] :=
  (leaf_writes env (.byte value) byteType).of_eq (by simp [Leaf.accepted]) rfl

theorem uaUInt16EncodeBinary_writes (value : BitVec 16) :
    Writes (uaUInt16EncodeBinary env value) True (word16Wire value) :=
  (leaf_writes env (.uint16 value) uint16Type).of_eq (by simp [Leaf.accepted]) rfl

theorem uaUInt32EncodeBinary_writes (value : BitVec 32) :
    Writes (uaUInt32EncodeBinary env value) True (wordWire value) :=
  (leaf_writes env (.uint32 value) uint32Type).of_eq (by simp [Leaf.accepted]) rfl

theorem uaUInt64EncodeBinary_writes (value : BitVec 64) :
    Writes (uaUInt64EncodeBinary env value) True (word64Wire value) :=
  (leaf_writes env (.uint64 value) uint64Type).of_eq (by simp [Leaf.accepted]) rfl

theorem uaDateTimeEncodeBinary_writes (value : BitVec 64) :
    Writes (uaDateTimeEncodeBinary env value) True (word64Wire value) :=
  (leaf_writes env (.uint64 value) dateTimeType).of_eq (by simp [Leaf.accepted]) rfl

theorem uaStringEncodeBinary_writes (value : UaString) :
    Writes (uaStringEncodeBinary env value) (value.accepted = true) (stringWire value) :=
  leaf_writes env (.string value) stringType

theorem uaByteStringEncodeBinary_writes (value : UaString) :
    Writes (uaByteStringEncodeBinary env value) (value.accepted = true) (stringWire value) :=
  leaf_writes env (.string value) byteStringType

theorem uaGuidEncodeBinary_writes (value : Guid) :
    Writes (uaGuidEncodeBinary env value) True (guidWire value) :=
  (leaf_writes env (.guid value) guidType).of_eq (by simp [Leaf.accepted]) rfl

theorem uaVariantEncodeBinary_writes (value : Value) :
    Writes (uaVariantEncodeBinary env value) (encodable env value variantType = true)
      (valueWire env value variantType) :=
  uaEncodeBinary_writes env value variantType

theorem uaDataValueEncodeBinary_writes (field : DataValue) :
    Writes (uaDataValueEncodeBinary env field) (encodable env field.toValue dataValueType = true)
      (valueWire env field.toValue dataValueType) :=
  uaEncodeBinary_writes env field.toValue dataValueType

end Builtin

namespace Writes

theorem encodeEach {α : Type} {encode : α → Encoder} {accepted : α → Bool} {wire : α → List Byte}
    (elements : List α) (writes : ∀ element, Writes (encode element) (accepted element = true)
      (wire element)) :
    Writes (encodeEach encode elements) (elements.all accepted = true) (elements.flatMap wire) := by
  induction elements with
  | nil => exact Writes.succeed.of_eq (by simp) rfl
  | cons first rest ih => exact ((writes first).andThen ih).of_eq (by simp) (by simp)

theorem encodeNumbers {α : Type} {encode : α → Encoder} {wire : α → List Byte}
    (elements : List α) (writes : ∀ element, Writes (encode element) True (wire element)) :
    Writes (OpcUa.encodeEach encode elements) True (elements.flatMap wire) := by
  induction elements with
  | nil => exact Writes.succeed
  | cons first rest ih => exact ((writes first).andThen ih).of_eq (by simp) (by simp)

theorem encodeNumber {α : Type} (field : Option α) {encode : α → Encoder} {wire : α → List Byte}
    (writes : ∀ value, Writes (encode value) True (wire value)) :
    Writes (OpcUa.encodeOption field encode) True (wireOption field wire) := by
  cases field with
  | none => exact Writes.succeed
  | some value => exact writes value

end Writes

def dataSetMessageHeaderWire (message : DataSetMessage) : List Byte :=
  dataSetFlags1 message :: (wireWhen (dataSetFlags2Enabled message) [dataSetFlags2 message] ++
      (wireOption message.header.dataSetMessageSequenceNr word16Wire ++
        (wireOption message.header.timestamp word64Wire ++
          (wireOption message.header.picoSeconds word16Wire ++
            (wireOption message.header.status word16Wire ++
              (wireOption message.header.configVersionMajorVersion wordWire ++
                wireOption message.header.configVersionMinorVersion wordWire))))))

section DataSetMessages

variable (env : TypeEnv)

section

variable (encoding : FieldEncoding)

def fieldWire (field : DataValue) : List Byte :=
  match encoding with
  | .variant => valueWire env field.value variantType
  | .dataValue => valueWire env field.toValue dataValueType
  | _ => []

def fieldEncodable (field : DataValue) : Bool :=
  match encoding with
  | .variant => encodable env field.value variantType
  | .dataValue => encodable env field.toValue dataValueType
  | _ => true

def deltaFieldWire (field : DeltaFrameField) : List Byte :=
  match encoding with
  | .reserved => []
  | _ => word16Wire field.fieldIndex ++ fieldWire env encoding field.fieldValue

def dataSetMessageDataWire (data : DataSetMessageData) : List Byte :=
  match data with
  | .dataKeyFrame fieldCount dataSetFields =>
    word16Wire fieldCount ++ (dataSetFields.take fieldCount.toNat).flatMap (fieldWire env encoding)
  | .dataDeltaFrame fieldCount deltaFrameFields =>
    word16Wire fieldCount ++
      (deltaFrameFields.take fieldCount.toNat).flatMap (deltaFieldWire env encoding)
  | _ => []

def dataSetMessageDataEncodable (data : DataSetMessageData) : Bool :=
  match data with
  | .dataKeyFrame fieldCount dataSetFields =>
    encoding != .rawData && (dataSetFields.take fieldCount.toNat).all (fieldEncodable env encoding)
  | .dataDeltaFrame fieldCount deltaFrameFields =>
    encoding != .rawData && (deltaFrameFields.take fieldCount.toNat).all fun field =>
        fieldEncodable env encoding field.fieldValue
  | .event => false
  | .keepAlive => true

end

def dataSetMessageWire (message : DataSetMessage) : List Byte :=
  dataSetMessageHeaderWire message ++
    dataSetMessageDataWire env message.header.fieldEncoding message.data

def dataSetMessageEncodable (message : DataSetMessage) : Bool :=
  dataSetMessageDataEncodable env message.header.fieldEncoding message.data

theorem dataSetMessageHeaderEncodeBinary_writes (message : DataSetMessage) :
    Writes (dataSetMessageHeaderEncodeBinary env message) True (dataSetMessageHeaderWire message) :=
  ((uaByteEncodeBinary_writes env _).andThen
    ((Writes.encodeWhen fun _ => uaByteEncodeBinary_writes env _).andThen
      ((Writes.encodeNumber _ (uaUInt16EncodeBinary_writes env)).andThen
        ((Writes.encodeNumber _ (uaDateTimeEncodeBinary_writes env)).andThen
          ((Writes.encodeNumber _ (uaUInt16EncodeBinary_writes env)).andThen
            ((Writes.encodeNumber _ (uaUInt16EncodeBinary_writes env)).andThen
              ((Writes.encodeNumber _ (uaUInt32EncodeBinary_writes env)).andThen
                (Writes.encodeNumber _ (uaUInt32EncodeBinary_writes env))))))))).of_eq
    (by simp) (by simp [dataSetMessageHeaderWire])

theorem notImplemented_writes (bytes : List Byte) :
    Writes (failWith badNotImplemented) False bytes :=
  Writes.failWith (by decide) bytes

theorem variantField_writes (field : DataValue) :
    Writes (uaVariantEncodeBinary env field.value) (fieldEncodable env .variant field = true)
      (fieldWire env .variant field) :=
  uaVariantEncodeBinary_writes env field.value

theorem dataValueField_writes (field : DataValue) :
    Writes (uaDataValueEncodeBinary env field) (fieldEncodable env .dataValue field = true)
      (fieldWire env .dataValue field) :=
  uaDataValueEncodeBinary_writes env field

theorem dataKeyFrameEncodeBinary_writes (encoding : FieldEncoding) (fieldCount : BitVec 16)
    (dataSetFields : List DataValue) :
    Writes (dataKeyFrameEncodeBinary env encoding fieldCount dataSetFields)
      (dataSetMessageDataEncodable env encoding (.dataKeyFrame fieldCount dataSetFields) = true)
      (dataSetMessageDataWire env encoding (.dataKeyFrame fieldCount dataSetFields)) := by
  have count := uaUInt16EncodeBinary_writes env fieldCount
  cases encoding with
  | variant =>
    exact (count.andThen (Writes.encodeEach _ (variantField_writes env))).of_eq
      (by simp [dataSetMessageDataEncodable]) rfl
  | rawData =>
    exact (Writes.succeed.andThen (notImplemented_writes _)).of_eq
      (by simp [dataSetMessageDataEncodable]) rfl
  | dataValue =>
    exact (count.andThen (Writes.encodeEach _ (dataValueField_writes env))).of_eq
      (by simp [dataSetMessageDataEncodable]) rfl
  | reserved =>
    exact (count.andThen Writes.succeed).of_eq
      (by simp [dataSetMessageDataEncodable, fieldEncodable])
      (by simp [dataSetMessageDataWire, fieldWire])

theorem deltaField_writes {encoding : FieldEncoding} {encode : DataValue → Encoder}
    (implemented : encoding ≠ .reserved)
    (writes : ∀ field, Writes (encode field) (fieldEncodable env encoding field = true)
      (fieldWire env encoding field)) (field : DeltaFrameField) :
    Writes (andThen (uaUInt16EncodeBinary env field.fieldIndex) (encode field.fieldValue))
      (fieldEncodable env encoding field.fieldValue = true) (deltaFieldWire env encoding field) := by
  refine ((uaUInt16EncodeBinary_writes env field.fieldIndex).andThen (writes field.fieldValue)).of_eq
    (iff_of_eq (true_and _)) ?_
  cases encoding with
  | reserved => exact absurd rfl implemented
  | _ => rfl

theorem dataDeltaFrameEncodeBinary_writes (encoding : FieldEncoding) (fieldCount : BitVec 16)
    (deltaFrameFields : List DeltaFrameField) :
    Writes (dataDeltaFrameEncodeBinary env encoding fieldCount deltaFrameFields)
      (dataSetMessageDataEncodable env encoding (.dataDeltaFrame fieldCount deltaFrameFields) = true)
      (dataSetMessageDataWire env encoding (.dataDeltaFrame fieldCount deltaFrameFields)) := by
  have count := uaUInt16EncodeBinary_writes env fieldCount
  cases encoding with
  | variant =>
    exact (count.andThen (Writes.encodeEach _
      (deltaField_writes env (by simp) (variantField_writes env)))).of_eq
      (by simp [dataSetMessageDataEncodable]) rfl
  | rawData =>
    exact (count.andThen (notImplemented_writes _)).of_eq
      (by simp [dataSetMessageDataEncodable]) rfl
  | dataValue =>
    exact (count.andThen (Writes.encodeEach _
      (deltaField_writes env (by simp) (dataValueField_writes env)))).of_eq
      (by simp [dataSetMessageDataEncodable]) rfl
  | reserved =>
    exact (count.andThen Writes.succeed).of_eq
      (by simp [dataSetMessageDataEncodable, fieldEncodable])
      (by simp [dataSetMessageDataWire, deltaFieldWire])

theorem dataSetMessageEncodeBinary_writes (message : DataSetMessage) :
    Writes (dataSetMessageEncodeBinary env message) (dataSetMessageEncodable env message = true)
      (dataSetMessageWire env message) := by
  have header := dataSetMessageHeaderEncodeBinary_writes env message
  unfold dataSetMessageEncodeBinary dataSetMessageEncodable dataSetMessageWire
  cases message.data with
  | dataKeyFrame fieldCount dataSetFields =>
    exact (header.andThen (dataKeyFrameEncodeBinary_writes env _ fieldCount dataSetFields)).of_eq
      (iff_of_eq (true_and _)) rfl
  | dataDeltaFrame fieldCount deltaFrameFields =>
    exact (header.andThen
      (dataDeltaFrameEncodeBinary_writes env _ fieldCount deltaFrameFields)).of_eq
      (iff_of_eq (true_and _)) rfl
  | event =>
    exact (header.andThen (notImplemented_writes _)).of_eq
      (by simp [dataSetMessageDataEncodable]) rfl
  | keepAlive =>
    exact (header.andThen Writes.succeed).of_eq (by simp [dataSetMessageDataEncodable]) rfl

end DataSetMessages

/-! The checked parts of a NetworkMessage -/

def flagsWire (message : NetworkMessage) : List Byte :=
  message.flags :: wireWhen message.extendedFlags1Enabled
    (message.extendedFlags1 :: wireWhen message.extendedFlags2Enabled [message.extendedFlags2])

def publisherIdWire : PublisherId → List Byte
  | .byte value => [value]
  | .uint16 value => word16Wire value
  | .uint32 value => wordWire value
  | .uint64 value => word64Wire value
  | .string value => stringWire value
  | .reserved _ => []

def PublisherId.encodable : PublisherId → Bool
  | string value => value.accepted
  | reserved _ => false
  | _ => true

def groupHeaderWire (header : NetworkMessageGroupHeader) : List Byte :=
  header.flags :: (wireOption header.writerGroupId word16Wire ++
    (wireOption header.groupVersion wordWire ++
      (wireOption header.networkMessageNumber word16Wire ++
        wireOption header.sequenceNumber word16Wire)))

def securityHeaderWire (header : NetworkMessageSecurityHeader) : List Byte :=
  header.flags :: (wordWire header.securityTokenId ++
    header.nonceLength :: (header.messageNonce.take header.nonceLength.toNat ++
      wireOption header.securityFooterSize word16Wire))

section Parts

variable (env : TypeEnv)

section

variable (message : NetworkMessage)

def payloadWire : List Byte :=
  wireWhen (message.payloadHeader.isSome && message.messageCount > 1)
      ((payloadSizes env message).flatMap word16Wire) ++
    (message.payload.dataSetMessages.take message.messageCount).flatMap (dataSetMessageWire env)

def headWire : List Byte :=
  flagsWire message ++ (wireWhen message.publisherIdEnabled (publisherIdWire message.publisherId) ++
      (wireOption message.dataSetClassId guidWire ++ wireOption message.groupHeader groupHeaderWire))

def headEncodable : Bool :=
  !message.publisherIdEnabled || message.publisherId.encodable

def tailWire : List Byte :=
  wireOption message.securityHeader securityHeaderWire ++
    (payloadWire env message ++ (message.securityFooter.take message.footerSize ++
      wireWhen message.signed (stringWire message.signature)))

def tailEncodable : Bool :=
  message.networkMessageType == .dataSet &&
    (message.payload.dataSetMessages.take message.messageCount).all (dataSetMessageEncodable env) &&
    message.footerSize < 256 && (!message.signed || message.signature.accepted)

theorem flagsEncodeBinary_writes :
    Writes (flagsEncodeBinary env message) True (flagsWire message) :=
  ((uaByteEncodeBinary_writes env _).andThen (Writes.encodeWhen fun _ =>
    (uaByteEncodeBinary_writes env _).andThen (Writes.encodeWhen fun _ =>
      uaByteEncodeBinary_writes env _))).of_eq (by simp) (by simp [flagsWire])

end

theorem publisherIdEncodeBinary_writes (publisherId : PublisherId) :
    Writes (publisherIdEncodeBinary env publisherId) (publisherId.encodable = true)
      (publisherIdWire publisherId) := by
  cases publisherId with
  | byte value =>
    exact (uaByteEncodeBinary_writes env value).of_eq (by simp [PublisherId.encodable]) rfl
  | uint16 value =>
    exact (uaUInt16EncodeBinary_writes env value).of_eq (by simp [PublisherId.encodable]) rfl
  | uint32 value =>
    exact (uaUInt32EncodeBinary_writes env value).of_eq (by simp [PublisherId.encodable]) rfl
  | uint64 value =>
    exact (uaUInt64EncodeBinary_writes env value).of_eq (by simp [PublisherId.encodable]) rfl
  | string value => exact uaStringEncodeBinary_writes env value
  | reserved code =>
    exact (Writes.failWith (by decide) _).of_eq (by simp [PublisherId.encodable]) rfl

theorem groupHeaderEncodeBinary_writes (header : NetworkMessageGroupHeader) :
    Writes (groupHeaderEncodeBinary env header) True (groupHeaderWire header) :=
  ((uaByteEncodeBinary_writes env _).andThen
    ((Writes.encodeNumber _ (uaUInt16EncodeBinary_writes env)).andThen
      ((Writes.encodeNumber _ (uaUInt32EncodeBinary_writes env)).andThen
        ((Writes.encodeNumber _ (uaUInt16EncodeBinary_writes env)).andThen
          (Writes.encodeNumber _ (uaUInt16EncodeBinary_writes env)))))).of_eq
    (by simp) (by simp [groupHeaderWire])

theorem securityHeaderEncodeBinary_writes (header : NetworkMessageSecurityHeader) :
    Writes (securityHeaderEncodeBinary env header) True (securityHeaderWire header) :=
  ((uaByteEncodeBinary_writes env _).andThen ((uaUInt32EncodeBinary_writes env _).andThen
    ((uaByteEncodeBinary_writes env _).andThen
      ((Writes.encodeNumbers _ (uaByteEncodeBinary_writes env)).andThen
        (Writes.encodeNumber _ (uaUInt16EncodeBinary_writes env)))))).of_eq
    (by simp) (by simp [securityHeaderWire])

theorem payloadEncodeBinary_writes (message : NetworkMessage) :
    Writes (payloadEncodeBinary env message) (message.networkMessageType = .dataSet ∧
        (message.payload.dataSetMessages.take message.messageCount).all
          (dataSetMessageEncodable env) = true)
      (payloadWire env message) := by
  unfold payloadEncodeBinary
  by_cases other : message.networkMessageType = .dataSet
  · rw [if_neg (by simp [other])]
    exact ((Writes.encodeWhen fun _ =>
      Writes.encodeNumbers _ (uaUInt16EncodeBinary_writes env)).andThen
      (Writes.encodeEach _ (dataSetMessageEncodeBinary_writes env))).of_eq (by simp [other]) rfl
  · rw [if_pos (by simpa using other)]
    exact (notImplemented_writes _).of_eq (by simp [other]) rfl

def footerRounds (footer : List Byte) (size : Nat) : Nat → Byte → Option (List Byte)
  | 0, _ => none
  | round + 1, index =>
    if index.toNat < size then
      (footerRounds footer size round (index + 1)).map fun rest => footer.getD index.toNat 0 :: rest
    else some []

theorem securityFooterLoop_writes (footer : List Byte) (size round : Nat) (index : Byte) :
    Writes (securityFooterLoop env footer size round index)
      ((footerRounds footer size round index).isSome = true)
      ((footerRounds footer size round index).getD []) := by
  induction round generalizing index with
  | zero => exact (Writes.failWith (by decide) []).of_eq (by simp [footerRounds]) rfl
  | succ round ih =>
    by_cases inside : index.toNat < size
    · have later := (uaByteEncodeBinary_writes env (footer.getD index.toNat 0)).andThen
        (ih (index + 1))
      simp only [securityFooterLoop, footerRounds, inside, ↓reduceIte]
      cases rest : footerRounds footer size round (index + 1) with
      | none =>
        rw [rest] at later
        have never : Writes _ False _ := later.of_eq (iff_of_false (by simp) id) rfl
        exact (never.rejected []).of_eq (by simp) rfl
      | some bytes =>
        rw [rest] at later
        exact later.of_eq (by simp) (by simp)
    · simp only [securityFooterLoop, footerRounds, inside, ↓reduceIte]
      exact Writes.succeed.of_eq (by simp) rfl

omit env in
theorem footerRounds_endless {footer : List Byte} {size : Nat} (large : 256 ≤ size) (round : Nat)
    (index : Byte) : footerRounds footer size round index = none := by
  induction round generalizing index with
  | zero => rfl
  | succ round ih =>
    have inside : index.toNat < size := Nat.lt_of_lt_of_le index.isLt large
    simp [footerRounds, inside, ih]

omit env in
theorem footerRounds_eq {footer : List Byte} {size : Nat} (small : size < 256)
    (enough : size ≤ footer.length) (round : Nat) (index : Byte) (below : index.toNat ≤ size) :
    footerRounds footer size round index =
      if size - index.toNat < round then some ((footer.take size).drop index.toNat) else none := by
  induction round generalizing index with
  | zero => simp [footerRounds]
  | succ round ih =>
    by_cases inside : index.toNat < size
    · have next : (index + 1).toNat = index.toNat + 1 := by
        rw [BitVec.toNat_add]
        simp only [BitVec.ofNat_eq_ofNat, BitVec.toNat_ofNat]
        omega
      have head : (footer.take size).drop index.toNat =
          footer.getD index.toNat 0 :: (footer.take size).drop (index.toNat + 1) := by
        rw [List.drop_eq_getElem_cons (by simp; omega)]
        simp [List.getD_eq_getElem?_getD, List.getElem?_eq_getElem (show index.toNat < footer.length
          by omega)]
      rw [footerRounds, if_pos inside, ih (index + 1) (by omega), next]
      by_cases ends : size - (index.toNat + 1) < round
      · rw [if_pos ends, if_pos (by omega), head]
        rfl
      · rw [if_neg ends, if_neg (by omega)]
        rfl
    · have done : index.toNat = size := by omega
      rw [footerRounds, if_neg inside, if_pos (by omega), done]
      simp

theorem securityFooterEncodeBinary_writes (footer : List Byte) (size : Nat)
    (enough : size ≤ footer.length) :
    Writes (securityFooterEncodeBinary env footer size) (size < 256) (footer.take size) where
  pushes ctx alone room := by
    obtain ⟨written, result, fits, only⟩ :=
      (securityFooterLoop_writes env footer size (ctx.cap - ctx.out.length + 1) 0).pushes ctx alone
        room
    refine ⟨written, result, fits, fun success => ?_⟩
    obtain ⟨ends, equal⟩ := only success
    by_cases small : size < 256
    · rw [footerRounds_eq small enough _ _ (Nat.zero_le _)] at ends equal
      by_cases inside : size - (0 : Byte).toNat < ctx.cap - ctx.out.length + 1
      · rw [if_pos inside] at equal
        exact ⟨small, by simpa using equal⟩
      · rw [if_neg inside] at ends
        simp at ends
    · rw [footerRounds_endless (by omega)] at ends
      simp at ends
  succeeds ctx alone small fits := by
    have length : (footer.take size).length = size := by simp [enough]
    have rounds := footerRounds_eq small enough (ctx.cap - ctx.out.length + 1) 0 (Nat.zero_le _)
    rw [if_pos (by simp; omega)] at rounds
    refine (securityFooterLoop_writes env footer size (ctx.cap - ctx.out.length + 1) 0).succeeds ctx
      alone (by rw [rounds]; rfl) ?_
    rw [rounds]
    simpa using fits
  steady ctx other alike := by
    have loop := (securityFooterLoop_writes env footer size
      (ctx.cap - ctx.out.length + 1) 0).steady ctx other alike
    unfold securityFooterEncodeBinary
    rw [← alike.space]
    exact loop

theorem head_writes (message : NetworkMessage) : Writes (andThen (flagsEncodeBinary env message)
        (andThen
          (encodeWhen message.publisherIdEnabled (publisherIdEncodeBinary env message.publisherId))
          (andThen (encodeOption message.dataSetClassId (uaGuidEncodeBinary env))
            (encodeOption message.groupHeader (groupHeaderEncodeBinary env)))))
      (headEncodable message = true) (headWire message) :=
  ((flagsEncodeBinary_writes env message).andThen
    ((Writes.encodeWhen fun _ => publisherIdEncodeBinary_writes env message.publisherId).andThen
      ((Writes.encodeNumber _ (uaGuidEncodeBinary_writes env)).andThen
        (Writes.encodeNumber _ (groupHeaderEncodeBinary_writes env))))).of_eq
    (by simp [headEncodable, Bool.or_eq_true, imp_iff_not_or]) rfl

theorem tail_writes (message : NetworkMessage)
    (enough : message.footerSize ≤ message.securityFooter.length) :
    Writes (andThen (encodeOption message.securityHeader (securityHeaderEncodeBinary env))
        (andThen (payloadEncodeBinary env message)
          (andThen (securityFooterEncodeBinary env message.securityFooter message.footerSize)
            (encodeWhen message.signed (uaByteStringEncodeBinary env message.signature)))))
      (tailEncodable env message = true) (tailWire env message) :=
  ((Writes.encodeNumber _ (securityHeaderEncodeBinary_writes env)).andThen
    ((payloadEncodeBinary_writes env message).andThen
      ((securityFooterEncodeBinary_writes env _ _ enough).andThen
        (Writes.encodeWhen fun _ => uaByteStringEncodeBinary_writes env message.signature)))).of_eq
    (by simp [tailEncodable, and_assoc, imp_iff_not_or]) rfl

end Parts

end OpcUa
