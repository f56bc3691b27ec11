import OpcUa.AddressSpaceCore
import OpcUa.DataSetMessageCore

/-!
The attributes of variables and variable types that depend on each other, and the checks and the
Write service for them in `ua_services_attribute.c`. The members that only these nodes have are
kept by the id of the node. A variable has its value in the node or behind a data source.
-/

namespace OpcUa

open LittleEndian StatusCode

structure NumericRangeDimension where
  min : BitVec 32
  max : BitVec 32
deriving DecidableEq, Repr

def readNumber : List Byte → Nat → BitVec 32 → Nat × BitVec 32
  | [], progress, number => (progress, number)
  | digit :: rest, progress, number =>
    if digit < 48 ∨ digit > 57 then (progress, number)
    else readNumber rest (progress + 1) (number * 10 + (digit - 48).setWidth 32)

def readDimension (buf : List Byte) : Option (Nat × NumericRangeDimension) :=
  match readNumber buf 0 0 with
  | (0, _) => none
  | (progress, min) =>
    if buf.length ≤ progress + 1 ∨ buf[progress]? ≠ some 58 then some (progress, ⟨min, min⟩)
    else
      match readNumber (buf.drop (progress + 1)) 0 0 with
      | (0, _) => none
      | (progress2, max) => if min ≥ max then none else some (progress + 1 + progress2, ⟨min, max⟩)

/-- The dimensions are separated by a comma. Every pass takes something from the text. -/
def readDimensions : Nat → List Byte → Option (List NumericRangeDimension)
  | 0, _ => none
  | left + 1, buf => do
    let (progress, dim) ← readDimension buf
    match buf.drop progress with
    | [] => return [dim]
    | separator :: rest => if separator ≠ 44 then none else return dim :: (← readDimensions left rest)

def parseRange (text : UaString) : Option (List NumericRangeDimension) :=
  readDimensions (text.length + 1) text.bytes

namespace Value

def variantType : Value → Option DataType
  | variantScalar type _ _ => some type
  | variantArray type _ _ _ => some type
  | _ => none

def isScalar : Value → Bool
  | variantScalar .. => true
  | _ => false

def arrayLength : Value → Nat
  | variantArray _ _ elements _ => elements.length
  | _ => 0

def arrayDimensions : Value → List (BitVec 32)
  | variantScalar _ _ dimensions => dimensions
  | variantArray _ _ _ dimensions => dimensions
  | _ => []

def dataNull : Value → Bool
  | variantScalar .. => false
  | variantArray _ undefined elements _ => elements.isEmpty && undefined
  | _ => true

def withType (type : DataType) : Value → Value
  | variantScalar _ data dimensions => variantScalar type data dimensions
  | variantArray _ undefined elements dimensions => variantArray type undefined elements dimensions
  | value => value

end Value

/-- The bytes behind a string as an array of bytes. A pointer behind the sentinel without elements
is a scalar. -/
def bytesVariant (text : UaString) (dimensions : List (BitVec 32)) : Value :=
  match text with
  | .null => .variantArray byteType true [] dimensions
  | .empty => .variantArray byteType false [] dimensions
  | .alloc [] => .variantScalar byteType (.leaf (.byte 0)) dimensions
  | .alloc bytes => .variantArray byteType false (bytes.map fun byte => .leaf (.byte byte)) dimensions

/-- `computeStrides` up to the numbers of elements: for every dimension of the array how many of
them lie in the range. -/
def rangeLengths : List Nat → List NumericRangeDimension → Except StatusCode (List Nat)
  | dim :: dims, range :: ranges =>
    if range.min > range.max then throw badIndexRangeInvalid
    else if range.min.toNat ≥ dim then throw badIndexRangeNoData
    else do
      let realmax := if range.max.toNat < dim then range.max.toNat else dim - 1
      return (realmax - range.min.toNat + 1) :: (← rangeLengths dims ranges)
  | _, _ => return []

structure Strides where
  total : Nat
  block : Nat
  stride : Nat
  first : Nat
deriving DecidableEq, Repr

def wordProduct (word : Nat) (factors : List Nat) : Nat :=
  factors.foldl (fun product factor => product * factor % word) 1

/-- The loop from the last dimension to the first one. A row is the length of the dimension, the
start and the length of the range. -/
def wordStridesFrom (word : Nat) : List (Nat × Nat × Nat) → Nat → Bool → Strides → Strides
  | [], _, _, strides => strides
  | (dim, min, dimrange) :: rows, running, contiguous, strides =>
    let strides := if !contiguous && dimrange != dim then
      { strides with block := running * dimrange % word, stride := running * dim % word }
      else strides
    wordStridesFrom word rows (running * dim % word) (contiguous || dimrange != dim)
      { strides with first := (strides.first + running * min % word) % word }

/-- `computeStrides` on the members of the variant, with the number of values of `size_t`. -/
def computeStridesOf (word arrayLength : Nat) (arrayDimensions : List (BitVec 32))
    (range : List NumericRangeDimension) : Except StatusCode Strides :=
  if arrayLength > 2 ^ 32 - 1 then throw badInternalError
  else
    let dims := if arrayDimensions = [] then [arrayLength] else arrayDimensions.map BitVec.toNat
    if arrayDimensions ≠ [] ∧ wordProduct word dims ≠ arrayLength then throw badInternalError
    else if range.length ≠ dims.length then throw badIndexRangeNoData
    else do
      let lengths ← rangeLengths dims range
      let count := wordProduct word lengths
      let rows := dims.zip ((range.map fun dim => dim.min.toNat).zip lengths)
      return wordStridesFrom word rows.reverse 1 false ⟨count, count, arrayLength, 0⟩

def computeStrides (value : Value) (range : List NumericRangeDimension) :
    Except StatusCode Strides :=
  computeStridesOf (2 ^ 64) value.arrayLength value.arrayDimensions range

def copyBlock : List Value → Nat → List Value → List Value
  | [], _, elements => elements
  | element :: block, nextdst, elements =>
    copyBlock block (nextdst + 1) (elements.set nextdst element)

def copyBlocks (strides : Strides) : Nat → List Value → Nat → List Value → List Value
  | 0, _, _, elements => elements
  | left + 1, array, nextdst, elements =>
    copyBlocks strides left (array.drop strides.block) (nextdst + strides.stride)
      (copyBlock (array.take strides.block) nextdst elements)

def setRangeCopy (value : Value) (array : List Value) (range : List NumericRangeDimension) :
    Except StatusCode Value := do
  let strides ← computeStrides value range
  if strides.total ≠ array.length then throw badIndexRangeInvalid
  else
    match value with
    | .variantArray type undefined elements dimensions =>
      return .variantArray type undefined
        (copyBlocks strides (strides.total / strides.block) array strides.first elements) dimensions
    | value => return value

inductive TypeEquivalence where
  | none
  | enumeration
  | bytes
deriving DecidableEq, Repr

def typeEquivalence (type : DataType) : TypeEquivalence :=
  match type.members with
  | [member] =>
    if !member.namespaceZero then .none
    else if member.memberTypeIndex = int32Type.typeIndex then .enumeration
    else if member.memberTypeIndex = byteType.typeIndex ∧ member.isArray then .bytes
    else .none
  | _ => .none

def TypeEnv.findDataType (env : TypeEnv) (typeId : NodeId) : Option DataType :=
  match typeId.identifier with
  | .numeric _ => env.types.find? fun type => type.typeId = typeId
  | _ => none

def structureId : NodeId := standardId 22
def enumerationId : NodeId := standardId 29

def NodeId.isBuiltin (dataType : NodeId) : Bool :=
  match dataType.identifier with
  | .numeric identifier => dataType.namespaceIndex == 0 && identifier ≤ 25
  | _ => false

def compatibleDataType (store : Nodestore) (dataType constraintDataType : NodeId)
    (isValue : Bool) : Bool :=
  if nodeIdIsNull dataType then false
  else if nodeIdIsNull constraintDataType then true
  else if nodeIdEqual dataType constraintDataType then true
  else if nodeIdEqual constraintDataType variantType.typeId then true
  else if isNodeInTree store dataType constraintDataType [hasSubtypeId] then true
  else if nodeIdEqual dataType int32Type.typeId &&
    isNodeInTree store constraintDataType enumerationId [hasSubtypeId] then true
  else isValue && dataType.isBuiltin && isNodeInTree store constraintDataType dataType [hasSubtypeId]

/-! Value rank and array dimensions -/

def compatibleValueRankArrayDimensions (valueRank : Int) (arrayDimensionsSize : Nat) : Bool :=
  if valueRank = -3 then arrayDimensionsSize ≤ 1
  else if valueRank = -2 then true
  else if valueRank = -1 then arrayDimensionsSize = 0
  else if valueRank = 0 then arrayDimensionsSize ≥ 1
  else if valueRank < 0 then false
  else (arrayDimensionsSize : Int) = valueRank

def compatibleValueRanks (valueRank constraintValueRank : Int) : Bool :=
  if constraintValueRank = -3 then valueRank = -1 ∨ valueRank = 1
  else if constraintValueRank = -2 then true
  else if constraintValueRank = -1 then valueRank = -1
  else if constraintValueRank = 0 then valueRank ≥ 0
  else valueRank = constraintValueRank

def compatibleValueRankValue (valueRank : Int) (value : Value) : Bool :=
  if value.dataNull then true
  else if value.arrayDimensions.length = 0 ∧ value.isScalar = false then
    compatibleValueRankArrayDimensions valueRank 1
  else compatibleValueRankArrayDimensions valueRank value.arrayDimensions.length

def compatibleArrayDimensions (constraint test : List (BitVec 32)) : Bool :=
  if constraint.length = 0 then true
  else if test.length ≠ constraint.length then false
  else (constraint.zip test).all fun (length, tested) => length = tested ∨ length = 0

def compatibleValueArrayDimensions (value : Value) (target : List (BitVec 32)) : Bool :=
  if value.arrayDimensions = [] ∧ value.isScalar = false then
    compatibleArrayDimensions target [BitVec.ofNat 32 value.arrayLength]
  else compatibleArrayDimensions target value.arrayDimensions

/-- An empty value fits a data type that is abstract, and anything else is compared. With a range
only the type is. -/
def compatibleValue (store : Nodestore) (targetDataTypeId : NodeId) (targetValueRank : Int)
    (targetArrayDimensions : List (BitVec 32)) (value : Value) (range : Bool) : Bool :=
  match value.variantType with
  | none =>
    if nodeIdEqual targetDataTypeId variantType.typeId || nodeIdEqual targetDataTypeId .null then
      true
    else (store.getNode targetDataTypeId).any fun node =>
      node.nodeClass = .dataType && node.isAbstract
  | some type =>
    if !compatibleDataType store type.typeId targetDataTypeId true then false
    else if range then true
    else if !compatibleValueArrayDimensions value targetArrayDimensions then false
    else compatibleValueRankValue targetValueRank value

/-- A string becomes an array of bytes. An Int32 becomes the enumeration, and a string the type that
holds its bytes. -/
def adjustValue (env : TypeEnv) (value : Value) (targetDataTypeId : NodeId) : Value :=
  match env.findDataType targetDataTypeId, value.variantType with
  | some target, some type =>
    let retyped := if typeEquivalence target ≠ .none ∧ typeEquivalence target = typeEquivalence type
      then value.withType target else value
    match value with
    | .variantScalar _ (.leaf (.string text)) dimensions =>
      if target = byteType ∧ type = byteStringType then bytesVariant text dimensions else retyped
    | _ => retyped
  | _, _ => value

inductive ValueSource where
  | data (value : DataValue)
  | dataSource

/-- The members of a variable or a variable type that the services here read. The access level is
one of variables only, and the write mask is the one of the node. -/
structure VariableAttributes where
  dataType : NodeId
  valueRank : Int
  arrayDimensions : List (BitVec 32)
  value : ValueSource
  accessLevel : BitVec 8
  writeMask : BitVec 32

abbrev VariableTable := NodeIdContent → Option VariableAttributes

/-- What comes of the calls outside: the data source, the clock, and the copies. -/
structure ValueOutcome where
  sourceRead : StatusCode × DataValue
  sourceWrite : StatusCode
  now : BitVec 64
  copy : StatusCode

def readValueAttribute (outcome : ValueOutcome) (node : VariableAttributes) :
    StatusCode × DataValue :=
  match node.value with
  | .data value => (good, value)
  | .dataSource => outcome.sourceRead

inductive AttributeId where
  | value
  | dataType
  | valueRank
  | arrayDimensions
deriving DecidableEq, Repr

structure WriteValue where
  nodeId : NodeId
  attributeId : AttributeId
  indexRange : UaString
  value : DataValue

/-- What the access control gives to the session. The server itself may do anything. -/
structure WriteRights where
  isAdmin : Bool
  userRightsMask : NodeId → BitVec 32
  userAccessLevel : NodeId → BitVec 8

def adminRights : WriteRights := ⟨true, fun _ => 0, fun _ => 0⟩

def getUserWriteMask (rights : WriteRights) (nodeId : NodeId) (node : VariableAttributes) :
    BitVec 32 :=
  if rights.isAdmin then 0xFFFFFFFF else node.writeMask &&& rights.userRightsMask nodeId

def getAccessLevel (rights : WriteRights) (node : VariableAttributes) : BitVec 8 :=
  if rights.isAdmin then 0xFF else node.accessLevel

def getUserAccessLevel (rights : WriteRights) (nodeId : NodeId) (node : VariableAttributes) :
    BitVec 8 :=
  if rights.isAdmin then 0xFF else node.accessLevel &&& rights.userAccessLevel nodeId

section Writes

variable (env : TypeEnv) (outcome : ValueOutcome) (store : Nodestore) (nodeClass : NodeClass)
  (hasInstances : Bool) (node type : VariableAttributes)

def writeArrayDimensionsAttribute (arrayDimensions : List (BitVec 32)) :
    StatusCode × VariableAttributes :=
  if nodeClass = .variableType ∧ hasInstances then (badInternalError, node)
  else if !compatibleValueRankArrayDimensions node.valueRank arrayDimensions.length then
    (badTypeMismatch, node)
  else if !compatibleArrayDimensions type.arrayDimensions arrayDimensions then
    (badTypeMismatch, node)
  else
    match readValueAttribute outcome node with
    | (status, value) =>
      if status ≠ good then (status, node)
      else if value.hasValue && !compatibleValueArrayDimensions value.value arrayDimensions then
        (badTypeMismatch, node)
      else if outcome.copy ≠ good then (outcome.copy, node)
      else (good, { node with arrayDimensions })

/-- Without array dimensions the value is looked at, and an array counts for one dimension. -/
def writeValueRankAttribute (valueRank : Int) : StatusCode × VariableAttributes :=
  let ranked (arrayDims : Nat) : StatusCode × VariableAttributes :=
    if !compatibleValueRankArrayDimensions valueRank arrayDims then (badTypeMismatch, node)
    else (good, { node with valueRank })
  if nodeClass = .variableType ∧ hasInstances then (badInternalError, node)
  else if !compatibleValueRanks valueRank type.valueRank then (badTypeMismatch, node)
  else if node.arrayDimensions.length = 0 then
    match readValueAttribute outcome node with
    | (status, value) =>
      if status ≠ good then (status, node)
      else if value.hasValue = false ∨ value.value.variantType = none then
        (good, { node with valueRank })
      else ranked (if value.value.isScalar then 0 else 1)
  else ranked node.arrayDimensions.length

def writeDataTypeAttribute (dataType : NodeId) : StatusCode × VariableAttributes :=
  if nodeClass = .variableType ∧ hasInstances then (badInternalError, node)
  else if !compatibleDataType store dataType type.dataType false then (badTypeMismatch, node)
  else
    match readValueAttribute outcome node with
    | (status, value) =>
      if status ≠ good then (status, node)
      else if value.hasValue && !compatibleValue store dataType node.valueRank
        node.arrayDimensions value.value false then (badTypeMismatch, node)
      else if outcome.copy ≠ good then (outcome.copy, node)
      else (good, { node with dataType })

def rangeElements : Value → List Value
  | .variantScalar _ data _ => [data]
  | .variantArray _ _ elements _ => elements
  | _ => []

def writeValueAttributeWithRange (stored value : DataValue) (range : List NumericRangeDimension) :
    StatusCode × DataValue :=
  if value.info.status.getD good ≠ stored.info.status.getD good ∨ value.hasValue = false ∨
    stored.hasValue = false then (badIndexRangeInvalid, stored)
  else
    match stored.value.variantType, value.value.variantType with
    | some storedType, some type =>
      if !nodeIdEqual storedType.typeId type.typeId then (badTypeMismatch, stored)
      else
        match setRangeCopy stored.value (rangeElements value.value) range with
        | .error status => (status, stored)
        | .ok changed => (good, { stored with
            value := changed
            info := { stored.info with
              status := value.info.status
              sourceTimestamp := value.info.sourceTimestamp
              sourcePicoseconds := value.info.sourcePicoseconds } })
    | _, _ => (badTypeMismatch, stored)

def NodeId.isStructureNumber (typeId : NodeId) : Bool := typeId.identifier = .numeric 22

/-- The checks of a value. An ExtensionObject is compared with the structure type. -/
def checkValue (value : DataValue) (adjusted : Value) (range : Bool) : Bool :=
  match value.hasValue, value.value.variantType with
  | true, some type =>
    let target := if type.typeId.isStructureNumber then structureId else node.dataType
    compatibleValue store target node.valueRank node.arrayDimensions adjusted range
  | _, _ => true

def adjustedValue (value : DataValue) : DataValue where
  hasValue := value.hasValue
  value := if value.hasValue then adjustValue env value.value node.dataType else value.value
  info := { value.info with sourceTimestamp := some (value.info.sourceTimestamp.getD outcome.now) }

def writeValueAttribute (value : DataValue) (indexRange : UaString) :
    StatusCode × VariableAttributes :=
  let adjusted := adjustedValue env outcome node value
  let write (range : Option (List NumericRangeDimension)) : StatusCode × VariableAttributes :=
    if !checkValue store node value adjusted.value range.isSome then (badTypeMismatch, node)
    else
      match node.value, range with
      | .data stored, some range =>
        match writeValueAttributeWithRange stored adjusted range with
        | (status, changed) => (status, { node with value := .data changed })
      | .data _, none =>
        if outcome.copy ≠ good then (outcome.copy, node)
        else (good, { node with value := .data adjusted })
      | .dataSource, _ => (outcome.sourceWrite, node)
  if indexRange.length > 0 then
    match parseRange indexRange with
    | none => (badIndexRangeInvalid, node)
    | some range => write (some range)
  else write none

end Writes

/-! The arguments of a write -/

def DataValue.nodeId? (value : DataValue) : Option NodeId :=
  match value.hasValue, value.value with
  | true, .variantScalar type (.leaf (.nodeId nodeId)) _ =>
    if type = nodeIdType then some nodeId else none
  | _, _ => none

def DataValue.int32? (value : DataValue) : Option Int :=
  match value.hasValue, value.value with
  | true, .variantScalar type (.leaf (.uint32 number)) _ =>
    if type = int32Type then some number.toInt else none
  | _, _ => none

def DataValue.uint32s? (value : DataValue) : Option (List (BitVec 32)) :=
  match value.hasValue, value.value with
  | true, .variantArray type _ elements _ =>
    if type = uint32Type then elements.mapM fun element =>
      match element with
      | .leaf (.uint32 number) => some number
      | _ => none
    else none
  | _, _ => none

def writeMaskArrayDimensions : BitVec 32 := 0x2
def writeMaskDataType : BitVec 32 := 0x10
def writeMaskValueRank : BitVec 32 := 0x80000
def writeMaskValueForVariableType : BitVec 32 := 0x200000
def accessLevelMaskWrite : BitVec 8 := 0x2

section

variable (env : TypeEnv) (rights : WriteRights) (outcome : ValueOutcome) (store : Nodestore)
  (table : VariableTable)

def copyAttributeIntoNode (node : Node) (attributes : VariableAttributes) (wvalue : WriteValue) :
    StatusCode × VariableAttributes :=
  let userWriteMask := getUserWriteMask rights node.nodeId attributes
  let hasInstances := hasSubTypeOrInstances node
  let type := (getNodeType store node).bind fun type => table type.nodeId.content
  if node.nodeClass ≠ .variable ∧ node.nodeClass ≠ .variableType then
    (badNodeClassInvalid, attributes)
  else
    match wvalue.attributeId with
    | .value =>
      if node.nodeClass = .variable ∧
        getAccessLevel rights attributes &&& accessLevelMaskWrite = 0 then
        (badNotWritable, attributes)
      else if node.nodeClass = .variable ∧
        getUserAccessLevel rights node.nodeId attributes &&& accessLevelMaskWrite = 0 then
        (badUserAccessDenied, attributes)
      else if node.nodeClass = .variableType ∧
        userWriteMask &&& writeMaskValueForVariableType = 0 then
        (badUserAccessDenied, attributes)
      else writeValueAttribute env outcome store attributes wvalue.value wvalue.indexRange
    | .dataType =>
      if userWriteMask &&& writeMaskDataType = 0 then (badUserAccessDenied, attributes)
      else
        match wvalue.value.nodeId?, type with
        | some dataType, some type => writeDataTypeAttribute outcome store node.nodeClass
            hasInstances attributes type dataType
        | _, _ => (badTypeMismatch, attributes)
    | .valueRank =>
      if userWriteMask &&& writeMaskValueRank = 0 then (badUserAccessDenied, attributes)
      else
        match wvalue.value.int32?, type with
        | some valueRank, some type => writeValueRankAttribute outcome node.nodeClass hasInstances
            attributes type valueRank
        | _, _ => (badTypeMismatch, attributes)
    | .arrayDimensions =>
      if userWriteMask &&& writeMaskArrayDimensions = 0 then (badUserAccessDenied, attributes)
      else
        match wvalue.value.uint32s?, type with
        | some arrayDimensions, some type => writeArrayDimensionsAttribute outcome node.nodeClass
            hasInstances attributes type arrayDimensions
        | _, _ => (badTypeMismatch, attributes)

/-- `Operation_Write`. The node is edited where it is. -/
def operationWrite (wvalue : WriteValue) : StatusCode × VariableTable :=
  match store.getNode wvalue.nodeId with
  | none => (badNodeIdUnknown, table)
  | some node =>
    match table node.nodeId.content with
    | none => (badNodeClassInvalid, table)
    | some attributes =>
      match copyAttributeIntoNode env rights outcome store table node attributes wvalue with
      | (status, changed) =>
        (status, Function.update table node.nodeId.content (some changed))

end

end OpcUa
