import OpcUa.DecodeCore

/-!
What the encoder is for, without buffers: the bytes of a value (`valueWire`) and the
values that are accepted at a depth (`accepts`). `Writes` says that an encoder with a
single buffer and no callback refines such a description; it composes along the
combinators, and `encodeBinaryJump_writes` establishes it for every value.
-/

namespace OpcUa

open LittleEndian StatusCode

/-! The bytes of the leaves -/

def stringWire (text : UaString) : List Byte :=
  leBytes 4 (arrayLengthField text.length text.isSentinel) ++ text.bytes

def guidWire (guid : Guid) : List Byte :=
  leBytes 4 guid.data1.toNat ++ leBytes 2 guid.data2.toNat ++ leBytes 2 guid.data3.toNat ++
    leBytes 8 guid.data4.toNat

def nodeIdWire (mask : Byte) (id : NodeId) : List Byte :=
  match id.identifier with
  | .numeric value =>
    if value.toNat > uint16Max || id.namespaceIndex.toNat > byteMax then
      (mask ||| 2) :: (leBytes 2 id.namespaceIndex.toNat ++ leBytes 4 value.toNat)
    else if value.toNat > byteMax || id.namespaceIndex.toNat > 0 then
      (mask ||| 1) :: id.namespaceIndex.setWidth 8 :: leBytes 2 (value.setWidth 16).toNat
    else [mask ||| 0, value.setWidth 8]
  | .string value => (mask ||| 3) :: (leBytes 2 id.namespaceIndex.toNat ++ stringWire value)
  | .guid value => (mask ||| 4) :: (leBytes 2 id.namespaceIndex.toNat ++ guidWire value)
  | .byteString value => (mask ||| 5) :: (leBytes 2 id.namespaceIndex.toNat ++ stringWire value)

def wireWhen (present : Bool) (bytes : List Byte) : List Byte := if present then bytes else []

def wireOption {α : Type} (field : Option α) (bytes : α → List Byte) : List Byte :=
  match field with
  | some value => bytes value
  | none => []

def expandedNodeIdWire (id : ExpandedNodeId) : List Byte :=
  nodeIdWire (expandedNodeIdMask id) id.nodeId ++
    (wireWhen id.namespaceUri.beyondSentinel (stringWire id.namespaceUri) ++
      wireWhen (id.serverIndex.toNat > 0) (leBytes 4 id.serverIndex.toNat))

def qualifiedNameWire (name : QualifiedName) : List Byte :=
  leBytes 2 name.namespaceIndex.toNat ++ stringWire name.name

def localizedTextWire (text : LocalizedText) : List Byte :=
  localizedTextMask text :: (wireWhen text.locale.nonNull (stringWire text.locale) ++
    wireWhen text.text.nonNull (stringWire text.text))

def encodedObjectWire (encoding : EncodedBody) (typeId : NodeId) (body : UaString) : List Byte :=
  nodeIdWire 0 typeId ++ encoding.code ::
    match encoding with
    | .noBody => []
    | .byteString => stringWire body
    | .xml => stringWire body

def wordWire (word : BitVec 32) : List Byte := leBytes 4 word.toNat

def diagnosticFieldsWire (fields : DiagnosticFields) (hasInner : Bool) : List Byte :=
  diagnosticInfoMask fields hasInner ::
    (wireOption fields.symbolicId wordWire ++ (wireOption fields.namespaceUri wordWire ++
      (wireOption fields.localizedText wordWire ++ (wireOption fields.locale wordWire ++
        (wireOption fields.additionalInfo stringWire ++
          wireOption fields.innerStatusCode wordWire)))))

def diagnosticInfoWire : DiagnosticInfo → List Byte
  | .plain fields => diagnosticFieldsWire fields false
  | .nested fields inner => diagnosticFieldsWire fields true ++ diagnosticInfoWire inner

def leafWire : Leaf → List Byte
  | .boolean raw => [raw]
  | .byte value => [value]
  | .uint16 value => leBytes 2 value.toNat
  | .uint32 value => leBytes 4 value.toNat
  | .uint64 value => leBytes 8 value.toNat
  | .string value => stringWire value
  | .guid value => guidWire value
  | .nodeId value => nodeIdWire 0 value
  | .expandedNodeId value => expandedNodeIdWire value
  | .qualifiedName value => qualifiedNameWire value
  | .localizedText value => localizedTextWire value
  | .extensionObject encoding typeId body => encodedObjectWire encoding typeId body
  | .diagnosticInfo value => diagnosticInfoWire value

/-! The leaves that are accepted: strings have a length that is an Int32. -/

def UaString.accepted (text : UaString) : Bool := text.length ≤ int32Max

def NodeIdentifier.accepted : NodeIdentifier → Bool
  | .string value => value.accepted
  | .byteString value => value.accepted
  | _ => true

def NodeId.accepted (id : NodeId) : Bool := id.identifier.accepted

def DiagnosticFields.accepted (fields : DiagnosticFields) : Bool :=
  fields.additionalInfo.all UaString.accepted

def DiagnosticInfo.accepted : DiagnosticInfo → Nat → Bool
  | .plain fields, _ => fields.accepted
  | .nested fields inner, depth =>
    fields.accepted && (depth ≤ encodingMaxRecursion && inner.accepted (depth + 1))

def Leaf.accepted (content : Leaf) (depth : Nat) : Bool :=
  match content with
  | .string value => value.accepted
  | .nodeId value => value.accepted
  | .expandedNodeId value => value.nodeId.accepted && value.namespaceUri.accepted
  | .qualifiedName value => value.name.accepted
  | .localizedText value => value.locale.accepted && value.text.accepted
  | .extensionObject encoding typeId body =>
    typeId.accepted && (encoding == .noBody || body.accepted)
  | .diagnosticInfo value => value.accepted depth
  | _ => true

/-! The bytes of a value -/

def isWrapped (env : TypeEnv) (type : DataType) : Bool := !type.builtin && !isAlias env type

def objectHeaderWire (type : DataType) (size : Nat) : List Byte :=
  nodeIdWire 0 type.binaryTypeId ++ 1 :: leBytes 4 size

def dimensionsWire (arrayDimensions : List (BitVec 32)) : List Byte :=
  wireWhen (arrayDimensions.length > 0)
    (leBytes 4 arrayDimensions.length ++ arrayDimensions.flatMap fun size => leBytes 4 size.toNat)

def dataValueInfoWire (info : DataValueInfo) : List Byte :=
  wireOption info.status wordWire ++
    (wireOption info.sourceTimestamp (fun time => leBytes 8 time.toNat) ++
      (wireOption info.sourcePicoseconds (fun part => leBytes 2 part.toNat) ++
        (wireOption info.serverTimestamp (fun time => leBytes 8 time.toNat) ++
          wireOption info.serverPicoseconds (fun part => leBytes 2 part.toNat))))

mutual

def valueWire (env : TypeEnv) : Value → DataType → List Byte
  | .leaf content, _ => leafWire content
  | .extensionObject _ contentType data, _ =>
    objectHeaderWire contentType (calcSizeBinary env data contentType) ++
      valueWire env data contentType
  | .extensionObjectNull, _ => []
  | .dataValue info hasValue value, _ =>
    dataValueMask info hasValue ::
      (wireWhen hasValue (valueWire env value variantType) ++ dataValueInfoWire info)
  | .variantEmpty, _ => [0]
  | .variantScalar contentType data _, _ =>
    variantEncodingByte env contentType false false ::
      if isWrapped env contentType then
        objectHeaderWire contentType (calcSizeBinary env data contentType) ++
          valueWire env data contentType
      else valueWire env data contentType
  | .variantArray contentType undefined elements arrayDimensions, _ =>
    variantEncodingByte env contentType true (arrayDimensions.length > 0) ::
      ((if isWrapped env contentType then
        leBytes 4 elements.length ++ wrappedWire env elements contentType
      else
        leBytes 4 (arrayLengthField elements.length (!undefined)) ++
          if contentType.overlayable then
            elements.flatMap fun element => valueMemory env element contentType
          else elementsWire env elements contentType) ++
        dimensionsWire arrayDimensions)
  | .struct members, type => membersWire env members type type.members
  | .array undefined elements, type =>
    leBytes 4 (arrayLengthField elements.length (!undefined)) ++
      if type.overlayable then elements.flatMap fun element => valueMemory env element type
      else elementsWire env elements type

def elementsWire (env : TypeEnv) : List Value → DataType → List Byte
  | [], _ => []
  | element :: rest, type => valueWire env element type ++ elementsWire env rest type

def wrappedWire (env : TypeEnv) : List Value → DataType → List Byte
  | [], _ => []
  | element :: rest, type =>
    (objectHeaderWire type (calcSizeBinary env element type) ++ valueWire env element type) ++
      wrappedWire env rest type

def membersWire (env : TypeEnv) : List Value → DataType → List DataTypeMember → List Byte
  | value :: rest, type, member :: members =>
    valueWire env value (env.memberType type member) ++ membersWire env rest type members
  | _, _, _ => []

end

/-! The values that are accepted. A level of nesting costs one unit of depth where
`encodeBinaryInternal` is entered; array elements do not enter it. -/

def enters (value : Value) (depth : Nat) : Bool := value.isStruct || depth ≤ encodingMaxRecursion

def entered (value : Value) (depth : Nat) : Nat := if value.isStruct then depth else depth + 1

def objectAccepted (type : DataType) (size : Nat) : Bool :=
  type.typeId.identifier.isNumeric && size ≤ int32Max

mutual

def accepts (env : TypeEnv) : Value → DataType → Nat → Bool
  | .leaf content, _, depth => content.accepted depth
  | .extensionObject _ contentType data, _, depth =>
    objectAccepted contentType (calcSizeBinary env data contentType) &&
      (enters data depth && accepts env data contentType (entered data depth))
  | .extensionObjectNull, _, _ => false
  | .dataValue _ hasValue value, _, depth => !hasValue || accepts env value variantType depth
  | .variantEmpty, _, _ => true
  | .variantScalar contentType data _, _, depth =>
    if isWrapped env contentType then
      depth ≤ encodingMaxRecursion &&
        (objectAccepted contentType (calcSizeBinary env data contentType) &&
          (enters data (depth + 1) && accepts env data contentType (entered data (depth + 1))))
    else enters data depth && accepts env data contentType (entered data depth)
  | .variantArray contentType _ elements arrayDimensions, _, depth =>
    elements.length ≤ int32Max && arrayDimensions.length ≤ int32Max &&
      if isWrapped env contentType then acceptsWrapped env elements contentType depth
      else contentType.overlayable || acceptsElements env elements contentType depth
  | .struct members, type, depth =>
    depth ≤ encodingMaxRecursion && acceptsMembers env members type type.members (depth + 1)
  | .array _ elements, type, depth =>
    elements.length ≤ int32Max && (type.overlayable || acceptsElements env elements type depth)

def acceptsElements (env : TypeEnv) : List Value → DataType → Nat → Bool
  | [], _, _ => true
  | element :: rest, type, depth =>
    accepts env element type depth && acceptsElements env rest type depth

def acceptsWrapped (env : TypeEnv) : List Value → DataType → Nat → Bool
  | [], _, _ => true
  | element :: rest, type, depth =>
    (depth ≤ encodingMaxRecursion && (objectAccepted type (calcSizeBinary env element type) &&
        (enters element (depth + 1) && accepts env element type (entered element (depth + 1))))) &&
      acceptsWrapped env rest type depth

def acceptsMembers (env : TypeEnv) : List Value → DataType → List DataTypeMember → Nat → Bool
  | value :: rest, type, member :: members, depth =>
    accepts env value (env.memberType type member) depth &&
      acceptsMembers env rest type members depth
  | _, _, _, _ => true

end

end OpcUa
