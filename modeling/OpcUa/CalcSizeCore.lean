import OpcUa.TypeTable

/-!
`UA_calcSizeBinary` and the size functions of its jump table. Sizes are natural
numbers; a `size_t` does not overflow for a value that fits into memory.
-/

namespace OpcUa

open LittleEndian

def stringCalcSizeBinary (text : UaString) : Nat := 4 + text.length

def nodeIdCalcSizeBinary (id : NodeId) : Nat :=
  1 + match id.identifier with
    | .numeric value =>
      if value.toNat > uint16Max || id.namespaceIndex.toNat > byteMax then 6
      else if value.toNat > byteMax || id.namespaceIndex.toNat > 0 then 3
      else 1
    | .byteString value => 2 + stringCalcSizeBinary value
    | .string value => 2 + stringCalcSizeBinary value
    | .guid _ => 18

def expandedNodeIdCalcSizeBinary (id : ExpandedNodeId) : Nat :=
  nodeIdCalcSizeBinary id.nodeId +
    (if id.namespaceUri.length > 0 then stringCalcSizeBinary id.namespaceUri else 0) +
    (if id.serverIndex.toNat > 0 then 4 else 0)

def qualifiedNameCalcSizeBinary (name : QualifiedName) : Nat :=
  2 + stringCalcSizeBinary name.name

def localizedTextCalcSizeBinary (text : LocalizedText) : Nat :=
  1 + (if text.locale.nonNull then stringCalcSizeBinary text.locale else 0) +
    (if text.text.nonNull then stringCalcSizeBinary text.text else 0)

def encodedObjectCalcSizeBinary (encoding : EncodedBody) (typeId : NodeId) (body : UaString) : Nat :=
  1 + nodeIdCalcSizeBinary typeId +
    match encoding with
    | .noBody => 0
    | .byteString => stringCalcSizeBinary body
    | .xml => stringCalcSizeBinary body

def optionSize {α : Type} (field : Option α) (size : α → Nat) : Nat :=
  match field with
  | some value => size value
  | none => 0

def diagnosticFieldsCalcSizeBinary (fields : DiagnosticFields) : Nat :=
  1 + optionSize fields.symbolicId (fun _ => 4) + optionSize fields.namespaceUri (fun _ => 4) +
    optionSize fields.localizedText (fun _ => 4) + optionSize fields.locale (fun _ => 4) +
    optionSize fields.additionalInfo stringCalcSizeBinary +
    optionSize fields.innerStatusCode (fun _ => 4)

def diagnosticInfoCalcSizeBinary : DiagnosticInfo → Nat
  | .plain fields => diagnosticFieldsCalcSizeBinary fields
  | .nested fields inner =>
    diagnosticFieldsCalcSizeBinary fields + diagnosticInfoCalcSizeBinary inner

/-- The numeric types take their size from the description. -/
def leafCalcSizeBinary (content : Leaf) (type : DataType) : Nat :=
  match content with
  | .boolean _ => type.memSize
  | .byte _ => type.memSize
  | .uint16 _ => type.memSize
  | .uint32 _ => type.memSize
  | .uint64 _ => type.memSize
  | .string value => stringCalcSizeBinary value
  | .guid _ => 16
  | .nodeId value => nodeIdCalcSizeBinary value
  | .expandedNodeId value => expandedNodeIdCalcSizeBinary value
  | .qualifiedName value => qualifiedNameCalcSizeBinary value
  | .localizedText value => localizedTextCalcSizeBinary value
  | .extensionObject encoding typeId body => encodedObjectCalcSizeBinary encoding typeId body
  | .diagnosticInfo value => diagnosticInfoCalcSizeBinary value

def NodeIdentifier.isNumeric : NodeIdentifier → Bool
  | .numeric _ => true
  | _ => false

def dataValueInfoCalcSizeBinary (info : DataValueInfo) : Nat :=
  optionSize info.status (fun _ => 4) + optionSize info.sourceTimestamp (fun _ => 8) +
    optionSize info.sourcePicoseconds (fun _ => 2) +
    optionSize info.serverTimestamp (fun _ => 8) +
    optionSize info.serverPicoseconds (fun _ => 2)

def arrayCalcSizeBinary (type : DataType) (length elementSizes : Nat) : Nat :=
  4 + if type.overlayable then type.memSize * length else elementSizes

/-- `Variant_calcSizeBinary` behind the check for the empty variant. A type that is not
builtin is counted as wrapped into one ExtensionObject per element. -/
def variantCalcSizeBinary (type : DataType) (contentSize length : Nat)
    (arrayDimensions : List (BitVec 32)) (isArray : Bool) : Nat :=
  if !type.builtin && !type.typeId.identifier.isNumeric then 0
  else
    1 + contentSize +
      (if type.builtin then 0 else (nodeIdCalcSizeBinary type.typeId + 1 + 4) * length) +
      (if isArray && arrayDimensions.length > 0 then
        arrayCalcSizeBinary int32Type arrayDimensions.length (4 * arrayDimensions.length) else 0)

mutual

/-- The entries of `calcSizeBinaryJumpTable`. The last entry is `UA_calcSizeBinary`,
which a builtin type leads back to its own entry. -/
def calcSizeBinary (env : TypeEnv) : Value → DataType → Nat
  | .leaf content, type => leafCalcSizeBinary content type
  | .extensionObject _ contentType data, _ =>
    if contentType.typeId.identifier.isNumeric then
      1 + nodeIdCalcSizeBinary contentType.typeId + 4 + calcSizeBinary env data contentType
    else 0
  | .extensionObjectNull, _ => 0
  | .dataValue info hasValue value, _ =>
    1 + (if hasValue then calcSizeBinary env value variantType else 0) +
      dataValueInfoCalcSizeBinary info
  | .variantEmpty, _ => 1
  | .variantScalar contentType data arrayDimensions, _ =>
    variantCalcSizeBinary contentType (calcSizeBinary env data contentType) 1 arrayDimensions false
  | .variantArray contentType _ elements arrayDimensions, _ =>
    variantCalcSizeBinary contentType
      (arrayCalcSizeBinary contentType elements.length (calcSizeElements env elements contentType))
      elements.length arrayDimensions true
  | .struct members, type => calcSizeMembers env members type type.members
  | .array _ elements, type =>
    arrayCalcSizeBinary type elements.length (calcSizeElements env elements type)

def calcSizeElements (env : TypeEnv) : List Value → DataType → Nat
  | [], _ => 0
  | element :: rest, type => calcSizeBinary env element type + calcSizeElements env rest type

def calcSizeMembers (env : TypeEnv) : List Value → DataType → List DataTypeMember → Nat
  | value :: rest, type, member :: members =>
    calcSizeBinary env value (env.memberType type member) + calcSizeMembers env rest type members
  | _, _, _ => 0

end

end OpcUa
