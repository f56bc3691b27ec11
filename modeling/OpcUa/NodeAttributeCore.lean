import OpcUa.NodeManagementCore
import OpcUa.VariantRangeCore

/-!
The Write service of `ua_services_attribute.c` with all attributes. The node is edited where it is.
What a copy leaves behind without memory counts as well: the texts are emptied before they are
copied, and a range is written element by element.
-/

namespace OpcUa

open LittleEndian StatusCode

def StatusCode.badAttributeIdInvalid : StatusCode := 0x80350000

inductive NodeAttributeId where
  | nodeId
  | nodeClass
  | browseName
  | displayName
  | description
  | writeMask
  | userWriteMask
  | isAbstract
  | symmetric
  | inverseName
  | containsNoLoops
  | eventNotifier
  | value
  | dataType
  | valueRank
  | arrayDimensions
  | accessLevel
  | userAccessLevel
  | minimumSamplingInterval
  | historizing
  | executable
  | userExecutable
  | unknown (number : BitVec 32)
deriving DecidableEq, Repr

/-- The members of all classes beside those of `Node`. A node has those of its class. -/
structure NodeMembers extends VariableAttributes where
  description : LocalizedText
  symmetric : Bool
  inverseName : LocalizedText
  containsNoLoops : Bool
  eventNotifier : Byte
  minimumSamplingInterval : BitVec 64
  historizing : Bool
  executable : Bool

structure AttributeSpace where
  store : Nodestore
  members : NodeIdContent → Option NodeMembers

structure NodeWriteValue where
  nodeId : NodeId
  attributeId : NodeAttributeId
  indexRange : UaString
  value : DataValue

/-! The arguments of a write -/

def DataValue.scalar? (type : DataType) (value : DataValue) : Option Leaf :=
  match value.hasValue, value.value with
  | true, .variantScalar valueType (.leaf content) _ =>
    if valueType = type then some content else none
  | _, _ => none

section

variable (value : DataValue)

def DataValue.qualifiedName? : Option QualifiedName :=
  match value.scalar? qualifiedNameType with
  | some (.qualifiedName name) => some name
  | _ => none

def DataValue.localizedText? : Option LocalizedText :=
  match value.scalar? localizedTextType with
  | some (.localizedText text) => some text
  | _ => none

def DataValue.uint32? : Option (BitVec 32) :=
  match value.scalar? uint32Type with
  | some (.uint32 number) => some number
  | _ => none

def DataValue.boolean? : Option Bool :=
  match value.scalar? booleanType with
  | some (.boolean raw) => some (raw != 0)
  | _ => none

def DataValue.byte? : Option Byte :=
  match value.scalar? byteType with
  | some (.byte number) => some number
  | _ => none

def DataValue.double? : Option (BitVec 64) :=
  match value.scalar? doubleType with
  | some (.uint64 bits) => some bits
  | _ => none

end

namespace ElementMemory

variable (memory : ElementMemory)

def writeValueAttributeWithRange (stored value : DataValue) (range : List NumericRangeDimension) :
    StatusCode × DataValue :=
  if value.info.status.getD good ≠ stored.info.status.getD good ∨ value.hasValue = false ∨
    stored.hasValue = false then (badIndexRangeInvalid, stored)
  else
    match stored.value.variantType, value.value.variantType with
    | some storedType, some type =>
      if !nodeIdEqual storedType.typeId type.typeId then (badTypeMismatch, stored)
      else
        let written := memory.setRange stored.value (rangeElements value.value) range true
        if written.status ≠ good then (written.status, { stored with value := written.value })
        else (good, { stored with
          value := written.value
          info := { stored.info with
            status := value.info.status
            sourceTimestamp := value.info.sourceTimestamp
            sourcePicoseconds := value.info.sourcePicoseconds } })
    | _, _ => (badTypeMismatch, stored)

def writeValueAttribute (env : TypeEnv) (outcome : ValueOutcome) (store : Nodestore)
    (node : VariableAttributes) (value : DataValue) (indexRange : UaString) :
    StatusCode × VariableAttributes :=
  let adjusted := adjustedValue env outcome node value
  let write (range : Option (List NumericRangeDimension)) : StatusCode × VariableAttributes :=
    if !checkValue store node value adjusted.value range.isSome then (badTypeMismatch, node)
    else
      match node.value, range with
      | .data stored, some range =>
        match memory.writeValueAttributeWithRange stored adjusted range with
        | (status, changed) => (status, { node with value := .data changed })
      | .data _, none =>
        if outcome.copy ≠ good then (outcome.copy, node)
        else (good, { node with value := .data adjusted })
      | .dataSource, _ => (outcome.sourceWrite, node)
  if indexRange.length > 0 then
    match parseRange indexRange with
    | none => (badIndexRangeInvalid, node)
    | some range => write (some range)
  else write none

end ElementMemory

namespace WriteMask

def accessLevel : BitVec 32 := 0x1
def arrayDimensions : BitVec 32 := 0x2
def browseName : BitVec 32 := 0x4
def containsNoLoops : BitVec 32 := 0x8
def dataType : BitVec 32 := 0x10
def description : BitVec 32 := 0x20
def displayName : BitVec 32 := 0x40
def eventNotifier : BitVec 32 := 0x80
def executable : BitVec 32 := 0x100
def historizing : BitVec 32 := 0x200
def inverseName : BitVec 32 := 0x400
def isAbstract : BitVec 32 := 0x800
def minimumSamplingInterval : BitVec 32 := 0x1000
def symmetric : BitVec 32 := 0x8000
def valueRank : BitVec 32 := 0x80000
def writeMask : BitVec 32 := 0x100000
def valueForVariableType : BitVec 32 := 0x200000

end WriteMask

abbrev EditedNode := Node × NodeMembers

def writeIsAbstractAttribute (edited : EditedNode) (value : Bool) : StatusCode × EditedNode :=
  match edited.1.nodeClass with
  | .objectType => (good, { edited.1 with isAbstract := value }, edited.2)
  | .referenceType => (good, { edited.1 with isAbstract := value }, edited.2)
  | .variableType => (good, { edited.1 with isAbstract := value }, edited.2)
  | .dataType => (good, { edited.1 with isAbstract := value }, edited.2)
  | _ => (badNodeClassInvalid, edited)

/-- What a copy makes of an empty member. Its result is not looked at. -/
def copiedMember {Member : Type} (outcome : ValueOutcome) (empty value : Member) : Member :=
  if outcome.copy = good then value else empty

/-- `CHECK_NODECLASS_WRITE`, `CHECK_USERWRITEMASK` and the check of the argument, in front of an
assignment. -/
def checkedWrite {Argument : Type} (edited : EditedNode) (classes : Bool)
    (userWriteMask mask : BitVec 32) (argument : Option Argument)
    (assign : Argument → StatusCode × EditedNode) : StatusCode × EditedNode :=
  if !classes then (badNodeClassInvalid, edited)
  else if userWriteMask &&& mask = 0 then (badUserAccessDenied, edited)
  else
    match argument with
    | none => (badTypeMismatch, edited)
    | some argument => assign argument

/-- The checks in front of `writeValueAttribute`. The levels grant the access to a variable, and the
mask to a variable type. -/
def checkValueAccess (rights : WriteRights) (edited : EditedNode) : StatusCode :=
  let (node, members) := edited
  if node.nodeClass ≠ .variable ∧ node.nodeClass ≠ .variableType then badNodeClassInvalid
  else if node.nodeClass = .variable then
    if getAccessLevel rights members.toVariableAttributes &&& accessLevelMaskWrite = 0 then
      badNotWritable
    else if getUserAccessLevel rights node.nodeId members.toVariableAttributes &&&
      accessLevelMaskWrite = 0 then badUserAccessDenied
    else good
  else if getUserWriteMask rights node.nodeId members.toVariableAttributes &&&
    WriteMask.valueForVariableType = 0 then badUserAccessDenied
  else good

def NodeMembers.withVariable (members : NodeMembers) (changed : StatusCode × VariableAttributes) :
    StatusCode × NodeMembers :=
  (changed.1, { members with toVariableAttributes := changed.2 })

/-- `GET_NODETYPE` in front of the write. It comes last, when the argument has been checked. -/
def typedWrite {Argument : Type} (edited : EditedNode) (type : Option NodeMembers)
    (write : VariableAttributes → Argument → StatusCode × VariableAttributes)
    (argument : Argument) : StatusCode × EditedNode :=
  match type with
  | none => (badTypeMismatch, edited)
  | some type =>
    let (status, members) := edited.2.withVariable (write type.toVariableAttributes argument)
    (status, edited.1, members)

namespace ElementMemory

variable (memory : ElementMemory)

section

variable (env : TypeEnv) (rights : WriteRights) (outcome : ValueOutcome)

def copyValueIntoNode (store : Nodestore) (edited : EditedNode) (wvalue : NodeWriteValue) :
    StatusCode × EditedNode :=
  if checkValueAccess rights edited ≠ good then (checkValueAccess rights edited, edited)
  else
    let (status, members) := edited.2.withVariable (memory.writeValueAttribute env outcome store
      edited.2.toVariableAttributes wvalue.value wvalue.indexRange)
    (status, edited.1, members)

def copyAttributeIntoNode (space : AttributeSpace) (edited : EditedNode) (wvalue : NodeWriteValue) :
    StatusCode × EditedNode :=
  let (node, members) := edited
  let userWriteMask := getUserWriteMask rights node.nodeId members.toVariableAttributes
  let isVariable := node.nodeClass = .variable
  let hasValue := node.nodeClass = .variable ∨ node.nodeClass = .variableType
  let hasInstances := hasSubTypeOrInstances node
  let type := (getNodeType space.store node).bind fun type => space.members type.nodeId.content
  match wvalue.attributeId with
  | .nodeId => (badWriteNotSupported, edited)
  | .nodeClass => (badWriteNotSupported, edited)
  | .userWriteMask => (badWriteNotSupported, edited)
  | .userAccessLevel => (badWriteNotSupported, edited)
  | .userExecutable => (badWriteNotSupported, edited)
  | .browseName => checkedWrite edited true userWriteMask WriteMask.browseName
      wvalue.value.qualifiedName? fun browseName =>
        (good, { node with
          browseName := copiedMember outcome ⟨0, .null⟩ browseName }, members)
  | .displayName => checkedWrite edited true userWriteMask WriteMask.displayName
      wvalue.value.localizedText? fun displayName =>
        (good, { node with
          displayName := copiedMember outcome ⟨.null, .null⟩ displayName }, members)
  | .description => checkedWrite edited true userWriteMask WriteMask.description
      wvalue.value.localizedText? fun description =>
        (good, node, { members with
          description := copiedMember outcome ⟨.null, .null⟩ description })
  | .writeMask => checkedWrite edited true userWriteMask WriteMask.writeMask wvalue.value.uint32?
      fun writeMask => (good, node, { members with writeMask })
  | .isAbstract => checkedWrite edited true userWriteMask WriteMask.isAbstract
      wvalue.value.boolean? (writeIsAbstractAttribute edited)
  | .symmetric => checkedWrite edited (node.nodeClass = .referenceType) userWriteMask
      WriteMask.symmetric wvalue.value.boolean? fun symmetric =>
        (good, node, { members with symmetric })
  | .inverseName => checkedWrite edited (node.nodeClass = .referenceType) userWriteMask
      WriteMask.inverseName wvalue.value.localizedText? fun inverseName =>
        (good, node, { members with
          inverseName := copiedMember outcome ⟨.null, .null⟩ inverseName })
  | .containsNoLoops => checkedWrite edited (node.nodeClass = .view) userWriteMask
      WriteMask.containsNoLoops wvalue.value.boolean? fun containsNoLoops =>
        (good, node, { members with containsNoLoops })
  | .eventNotifier => checkedWrite edited (node.nodeClass = .view ∨ node.nodeClass = .object)
      userWriteMask WriteMask.eventNotifier wvalue.value.byte? fun eventNotifier =>
        (good, node, { members with eventNotifier })
  | .value => memory.copyValueIntoNode env rights outcome space.store edited wvalue
  | .dataType => checkedWrite edited hasValue userWriteMask WriteMask.dataType
      wvalue.value.nodeId? (typedWrite edited type (writeDataTypeAttribute outcome space.store
        node.nodeClass hasInstances members.toVariableAttributes))
  | .valueRank => checkedWrite edited hasValue userWriteMask WriteMask.valueRank
      wvalue.value.int32? (typedWrite edited type (writeValueRankAttribute outcome
        node.nodeClass hasInstances members.toVariableAttributes))
  | .arrayDimensions => checkedWrite edited hasValue userWriteMask WriteMask.arrayDimensions
      wvalue.value.uint32s? (typedWrite edited type (writeArrayDimensionsAttribute outcome
        node.nodeClass hasInstances members.toVariableAttributes))
  | .accessLevel => checkedWrite edited isVariable userWriteMask WriteMask.accessLevel
      wvalue.value.byte? fun accessLevel => (good, node, { members with accessLevel })
  | .minimumSamplingInterval => checkedWrite edited isVariable userWriteMask
      WriteMask.minimumSamplingInterval wvalue.value.double? fun minimumSamplingInterval =>
        (good, node, { members with minimumSamplingInterval })
  | .historizing => checkedWrite edited isVariable userWriteMask WriteMask.historizing
      wvalue.value.boolean? fun historizing => (good, node, { members with historizing })
  | .executable => checkedWrite edited (node.nodeClass = .method) userWriteMask
      WriteMask.executable wvalue.value.boolean? fun executable =>
        (good, node, { members with executable })
  | .unknown _ => (badAttributeIdInvalid, edited)

def operationWrite (space : AttributeSpace) (wvalue : NodeWriteValue) :
    StatusCode × AttributeSpace :=
  match space.store.getNode wvalue.nodeId with
  | none => (badNodeIdUnknown, space)
  | some node =>
    match space.members node.nodeId.content with
    | none => (badNodeIdUnknown, space)
    | some members =>
      match memory.copyAttributeIntoNode env rights outcome space (node, members) wvalue with
      | (status, node, members) =>
        (status, ⟨space.store.replaceNode node,
          Function.update space.members node.nodeId.content (some members)⟩)

end

end ElementMemory

end OpcUa
