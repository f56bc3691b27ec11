import OpcUa.Types

/-!
The type descriptions. `tools/generate_datatypes.py` writes the builtin types first
into `UA_TYPES` and then the selected enumerations, opaque types and structures of the
schema; an application may pass a second array of custom descriptions. The sizes are
those of a 64-bit little-endian build.
-/

namespace OpcUa

open LittleEndian

def builtinTypesCount : Nat := 25

def builtinType (index memSize : Nat) (overlayable : Bool) : DataType where
  typeId := ⟨0, .numeric (BitVec.ofNat 32 (index + 1))⟩
  memSize := memSize
  typeIndex := index
  builtin := true
  overlayable := overlayable
  binaryEncodingId := 0
  members := [⟨index, true, false⟩]
  custom := false

def booleanType : DataType := builtinType 0 1 true
def byteType : DataType := builtinType 2 1 true
def uint16Type : DataType := builtinType 4 2 true
def int32Type : DataType := builtinType 5 4 true
def uint32Type : DataType := builtinType 6 4 true
def uint64Type : DataType := builtinType 8 8 true
def doubleType : DataType := builtinType 10 8 true
def stringType : DataType := builtinType 11 16 false
def dateTimeType : DataType := builtinType 12 8 true
def guidType : DataType := builtinType 13 16 true
def byteStringType : DataType := builtinType 14 16 false
def nodeIdType : DataType := builtinType 16 24 false
def expandedNodeIdType : DataType := builtinType 17 48 false
def qualifiedNameType : DataType := builtinType 19 24 false
def localizedTextType : DataType := builtinType 20 32 false
def extensionObjectType : DataType := builtinType 21 48 false
def dataValueType : DataType := builtinType 22 96 false
def variantType : DataType := builtinType 23 48 false
def diagnosticInfoType : DataType := builtinType 24 56 false

def builtinTypes : List DataType :=
  [ booleanType, builtinType 1 1 true, byteType, builtinType 3 2 true, uint16Type, int32Type,
    uint32Type, builtinType 7 8 true, uint64Type, builtinType 9 4 true, doubleType, stringType,
    dateTimeType, guidType, byteStringType, builtinType 15 16 false, nodeIdType,
    expandedNodeIdType, builtinType 18 4 true, qualifiedNameType, localizedTextType,
    extensionObjectType, dataValueType, variantType, diagnosticInfoType ]

/-- `structured` are the rows of `UA_TYPES` behind the builtin types, `custom` is the
array of custom types. -/
structure TypeEnv where
  structured : List DataType
  custom : List DataType

namespace TypeEnv

variable (env : TypeEnv)

def types : List DataType := builtinTypes ++ env.structured

def describes (type : DataType) : Bool := env.types.contains type || env.custom.contains type

def memberType (type : DataType) (member : DataTypeMember) : DataType :=
  (if member.namespaceZero || !type.custom then env.types else env.custom).getD
    member.memberTypeIndex booleanType

def findIn (descriptions : List DataType) (namespaceIndex : BitVec 16) (id : BitVec 32) :
    Option DataType :=
  descriptions.find? fun type =>
    type.binaryEncodingId.setWidth 32 == id && type.typeId.namespaceIndex == namespaceIndex

/-- Only numeric identifiers are stored. `UA_TYPES` is searched first, the custom types
for the other namespaces only. -/
def findDataTypeByBinaryInternal (typeId : NodeId) : Option DataType :=
  match typeId.identifier with
  | .numeric id =>
    match findIn env.types typeId.namespaceIndex id with
    | some type => some type
    | none =>
      if typeId.namespaceIndex ≠ 0 then findIn env.custom typeId.namespaceIndex id else none
  | _ => none

end TypeEnv

theorem builtinRow_eq (env : TypeEnv) (index : Nat) (first : index < builtinTypesCount) :
    env.types.getD index booleanType = builtinTypes.getD index booleanType := by
  have count : builtinTypes.length = builtinTypesCount := rfl
  rw [TypeEnv.types, List.getD_eq_getElem?_getD, List.getElem?_append_left (by omega),
    List.getD_eq_getElem?_getD]

def DataType.builtinRow (type : DataType) : DataType := builtinTypes.getD type.typeIndex booleanType

/-- A description with its own encoding functions has the size of the builtin type it uses. -/
def DataType.agreesWithRow (type : DataType) : Bool :=
  type.builtin && type.memSize == type.builtinRow.memSize &&
    type.overlayable == type.builtinRow.overlayable

def Leaf.typeIndices : Leaf → List Nat
  | .boolean _ => [0]
  | .byte _ => [1, 2]
  | .uint16 _ => [3, 4]
  | .uint32 _ => [5, 6, 9, 18]
  | .uint64 _ => [7, 8, 10, 12]
  | .string _ => [11, 14, 15]
  | .guid _ => [13]
  | .nodeId _ => [16]
  | .expandedNodeId _ => [17]
  | .qualifiedName _ => [19]
  | .localizedText _ => [20]
  | .extensionObject .. => [21]
  | .diagnosticInfo _ => [24]

def DataType.takes (type : DataType) (indices : List Nat) : Bool :=
  type.agreesWithRow && indices.contains type.typeIndex

mutual

def Value.hasType (env : TypeEnv) : Value → DataType → Bool
  | .leaf content, type => type.takes content.typeIndices
  | .extensionObject _ contentType data, type =>
    type.takes [21] && env.describes contentType && Value.hasType env data contentType
  | .extensionObjectNull, type => type.takes [21]
  | .dataValue _ _ value, type =>
    type.takes [22] && value.isVariant && Value.hasType env value variantType
  | .variantEmpty, type => type.takes [23]
  | .variantScalar contentType data _, type =>
    type.takes [23] && env.describes contentType && Value.hasType env data contentType
  | .variantArray contentType _ elements _, type =>
    type.takes [23] && env.describes contentType && Value.haveType env elements contentType
  | .struct members, type =>
    !type.builtin && env.describes type && Value.membersHaveType env members type type.members
  | .array _ _, _ => false

def Value.haveType (env : TypeEnv) : List Value → DataType → Bool
  | [], _ => true
  | element :: rest, type => Value.hasType env element type && Value.haveType env rest type

def Value.membersHaveType (env : TypeEnv) : List Value → DataType → List DataTypeMember → Bool
  | [], _, [] => true
  | .array _ elements :: rest, type, member :: members =>
    member.isArray && env.describes (env.memberType type member) &&
      Value.haveType env elements (env.memberType type member) &&
      Value.membersHaveType env rest type members
  | value :: rest, type, member :: members =>
    !member.isArray && Value.hasType env value (env.memberType type member) &&
      Value.membersHaveType env rest type members
  | _, _, _ => false

end

def Value.memberTyped (env : TypeEnv) (value : Value) (type : DataType) : Bool :=
  match value with
  | .array _ elements => env.describes type && Value.haveType env elements type
  | other => Value.hasType env other type

def Value.isArray : Value → Bool
  | .array _ _ => true
  | _ => false

theorem memberTyped_of_hasType {env : TypeEnv} {value : Value} {type : DataType}
    (typed : Value.hasType env value type = true) : Value.memberTyped env value type = true := by
  cases value with
  | array undefined elements => simp [Value.hasType] at typed
  | _ => exact typed

theorem membersHaveType_cons {env : TypeEnv} {value : Value} {rest : List Value} {type : DataType}
    {member : DataTypeMember} {members : List DataTypeMember}
    (typed : Value.membersHaveType env (value :: rest) type (member :: members) = true) :
    member.isArray = value.isArray ∧
      Value.memberTyped env value (env.memberType type member) = true ∧
      Value.membersHaveType env rest type members = true := by
  cases value with
  | array undefined elements =>
    simp only [Value.membersHaveType, Bool.and_eq_true] at typed
    simp only [Value.isArray, Value.memberTyped, Bool.and_eq_true]
    exact ⟨typed.1.1.1, ⟨typed.1.1.2, typed.1.2⟩, typed.2⟩
  | _ =>
    simp only [Value.membersHaveType, Bool.and_eq_true, Bool.not_eq_true'] at typed
    exact ⟨typed.1.1, typed.1.2, typed.2⟩

def TypeEnv.overlayNesting (env : TypeEnv) : Nat := env.types.length + env.custom.length

def TypeEnv.overlayFits (env : TypeEnv) : Nat → DataType → Bool
  | 0, type => type.builtin
  | levels + 1, type =>
    type.builtin || type.members.all fun member =>
      env.overlayFits levels (env.memberType type member)

/-- What the code relies on in a description that is not one of the builtin rows. An
enumeration is handled as Int32. An overlayable structure consists of overlayable
members that follow each other without a gap; there may be padding behind the last. It
does not contain itself, so it is not nested deeper than there are descriptions. -/
def DataType.WellFormed (env : TypeEnv) (type : DataType) : Prop :=
  (type.builtin = true → type.typeIndex = 5 ∧ type.memSize = 4 ∧ type.overlayable = true ∧
    type.members = [⟨5, true, false⟩]) ∧
  (type.overlayable = true → type.builtin = false →
    (∀ member ∈ type.members, member.isArray = false ∧
      (env.memberType type member).overlayable = true) ∧
    (type.members.map fun member => (env.memberType type member).memSize).sum ≤ type.memSize ∧
    env.overlayFits env.overlayNesting type = true)

instance (env : TypeEnv) (type : DataType) : Decidable (DataType.WellFormed env type) := by
  unfold DataType.WellFormed
  infer_instance

def TypeEnv.WellFormed (env : TypeEnv) : Prop :=
  (∀ type ∈ env.structured, DataType.WellFormed env type) ∧
  (∀ type ∈ env.custom, DataType.WellFormed env type)

instance (env : TypeEnv) : Decidable env.WellFormed := by
  unfold TypeEnv.WellFormed
  infer_instance

/-! Rows of the default build that the examples below refer to, as the generator writes
them from `Opc.Ua.Types.bsd` and `NodeIds.csv`. -/

def structuredType (id memSize typeIndex : Nat) (overlayable : Bool) (binaryEncodingId : Nat)
    (members : List DataTypeMember) : DataType where
  typeId := ⟨0, .numeric (BitVec.ofNat 32 id)⟩
  memSize := memSize
  typeIndex := typeIndex
  builtin := false
  overlayable := overlayable
  binaryEncodingId := BitVec.ofNat 16 binaryEncodingId
  members := members
  custom := false

def scalarMember (memberTypeIndex : Nat) : DataTypeMember := ⟨memberTypeIndex, true, false⟩
def arrayMember (memberTypeIndex : Nat) : DataTypeMember := ⟨memberTypeIndex, true, true⟩

def nodeClassType : DataType where
  typeId := ⟨0, .numeric 257⟩
  memSize := 4
  typeIndex := 5
  builtin := true
  overlayable := true
  binaryEncodingId := 0
  members := [⟨5, true, false⟩]
  custom := false

def durationType : DataType := structuredType 290 8 26 false 0 [scalarMember 10]

def argumentType : DataType :=
  structuredType 296 96 27 false 298
    [scalarMember 11, scalarMember 16, scalarMember 5, arrayMember 6, scalarMember 20]

def enumFieldType : DataType :=
  structuredType 102 88 28 false 14845
    [scalarMember 7, scalarMember 20, scalarMember 20, scalarMember 11]

def anonymousIdentityTokenType : DataType :=
  structuredType 319 16 29 false 321 [scalarMember 11]

def filterOperandType : DataType := structuredType 589 8 30 true 591 []

def configurationVersionType : DataType :=
  structuredType 14593 8 31 true 14847 [scalarMember 6, scalarMember 6]

def timeZoneType : DataType :=
  structuredType 8912 4 32 true 8917 [scalarMember 3, scalarMember 0]

def literalOperandType : DataType := structuredType 595 48 33 false 597 [scalarMember 23]

def writeValueType : DataType :=
  structuredType 668 144 34 false 670
    [scalarMember 16, scalarMember 6, scalarMember 11, scalarMember 22]

def readValueIdType : DataType :=
  structuredType 626 72 35 false 628
    [scalarMember 16, scalarMember 6, scalarMember 11, scalarMember 19]

def sampleEnv : TypeEnv where
  structured :=
    [ nodeClassType, durationType, argumentType, enumFieldType, anonymousIdentityTokenType,
      filterOperandType, configurationVersionType, timeZoneType, literalOperandType,
      writeValueType, readValueIdType ]
  custom := []

theorem sampleEnv_wellFormed : sampleEnv.WellFormed := by decide +kernel

end OpcUa
