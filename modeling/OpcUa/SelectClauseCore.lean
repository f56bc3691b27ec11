import OpcUa.BrowsePathCore
import OpcUa.NodeAttributeCore

/-!
The Read service of `ua_services_attribute.c` for one attribute, and the select clauses of an event
filter in `ua_subscription_events.c`, which read attributes of an event and of the nodes below it.

The time is not asked for, and the encoding of the values is the default one. A callback may change
the value that it is called for, and leaves everything else as it is. A function returns `none`
where the walk along a browse path does.
-/

namespace OpcUa

open LittleEndian StatusCode

structure ReadValueId where
  nodeId : NodeId
  attributeId : NodeAttributeId
  indexRange : UaString

structure ReadRights extends WriteRights where
  userExecutable : NodeId → Bool

/-- The callbacks of the values in the nodes, and the data sources that can be read. A data source
may point to memory that is not to be freed. -/
structure ValueCallbacks where
  onRead : NodeId → Option (List NumericRangeDimension) → DataValue → DataValue
  read : NodeId → Option (List NumericRangeDimension) → Option (StatusCode × DataValue × Bool)

structure ReadMemory where
  elements : ElementMemory
  levels : Nat
  scalar : StatusCode
  result : StatusCode

structure ReadOutcome where
  retval : StatusCode
  value : DataValue
  noDelete : Bool

namespace ReadOutcome

def failed (retval : StatusCode) : ReadOutcome := ⟨retval, default, false⟩

def setScalarNoDelete (type : DataType) (content : Leaf) : ReadOutcome :=
  ⟨good, { (default : DataValue) with value := .variantScalar type (.leaf content) [] }, true⟩

def setScalarCopy (memory : ReadMemory) (type : DataType) (content : Leaf) : ReadOutcome :=
  if memory.scalar ≠ good then failed memory.scalar
  else ⟨good, { (default : DataValue) with value := .variantScalar type (.leaf content) [] }, false⟩

def checkNodeClass (fits : Bool) (outcome : ReadOutcome) : ReadOutcome :=
  if !fits then failed badAttributeIdInvalid else outcome

end ReadOutcome

def booleanLeaf (value : Bool) : Leaf := .boolean (if value then 1 else 0)

def readIsAbstractAttribute (node : Node) : ReadOutcome :=
  match node.nodeClass with
  | .referenceType => .setScalarNoDelete booleanType (booleanLeaf node.isAbstract)
  | .objectType => .setScalarNoDelete booleanType (booleanLeaf node.isAbstract)
  | .variableType => .setScalarNoDelete booleanType (booleanLeaf node.isAbstract)
  | .dataType => .setScalarNoDelete booleanType (booleanLeaf node.isAbstract)
  | _ => .failed badAttributeIdInvalid

def readArrayDimensionsAttribute (members : NodeMembers) : ReadOutcome :=
  ⟨good, { (default : DataValue) with
    value := .variantArray uint32Type members.arrayDimensions.isEmpty
      (members.arrayDimensions.map fun length => .leaf (.uint32 length)) [] }, true⟩

def accessLevelMaskRead : BitVec 8 := 0x1

/-- What a read looks at: the nodes, the rights of the session and the callbacks. The queue of an
object lies where a view has its event notifier, so that the first byte of the pointer counts. -/
structure ReadServer where
  space : AttributeSpace
  rights : ReadRights
  callbacks : ValueCallbacks
  queueByte : NodeId → Byte

namespace ReadServer

variable (server : ReadServer) (memory : ReadMemory)

def getUserExecutable (nodeId : NodeId) (members : NodeMembers) : Bool :=
  server.rights.isAdmin || (members.executable && server.rights.userExecutable nodeId)

def readValueAttributeFromNode (nodeId : NodeId) (stored : DataValue)
    (range : Option (List NumericRangeDimension)) : ReadOutcome :=
  let value := server.callbacks.onRead nodeId range stored
  match range with
  | none => ⟨good, value, true⟩
  | some range =>
    match memory.elements.copyRange memory.levels value.value range with
    | .ok content => ⟨good, { (default : DataValue) with value := content }, false⟩
    | .error retval => .failed retval

def readValueAttributeFromDataSource (nodeId : NodeId)
    (range : Option (List NumericRangeDimension)) : ReadOutcome :=
  match server.callbacks.read nodeId range with
  | none => .failed badInternalError
  | some (retval, value, noDelete) => ⟨retval, value, noDelete⟩

def readValueAttributeComplete (nodeId : NodeId) (members : NodeMembers) (indexRange : UaString) :
    ReadOutcome :=
  let read (range : Option (List NumericRangeDimension)) : ReadOutcome :=
    match members.value with
    | .data stored => server.readValueAttributeFromNode memory nodeId stored range
    | .dataSource => server.readValueAttributeFromDataSource nodeId range
  if indexRange.length > 0 then
    match parseRange indexRange with
    | none => .failed badIndexRangeInvalid
    | some range => read (some range)
  else read none

section

variable (node : Node) (members : NodeMembers)

def readValueOf (indexRange : UaString) : ReadOutcome :=
  let rights := server.rights.toWriteRights
  let attributes := members.toVariableAttributes
  if node.nodeClass ≠ .variable ∧ node.nodeClass ≠ .variableType then .failed badAttributeIdInvalid
  else if node.nodeClass = .variable ∧
    getAccessLevel rights attributes &&& accessLevelMaskRead = 0 then .failed badNotReadable
  else if node.nodeClass = .variable ∧
    getUserAccessLevel rights node.nodeId attributes &&& accessLevelMaskRead = 0 then
      .failed badUserAccessDenied
  else server.readValueAttributeComplete memory node.nodeId members indexRange

def readAttribute (id : ReadValueId) : ReadOutcome :=
  let rights := server.rights.toWriteRights
  let attributes := members.toVariableAttributes
  let isVariable := node.nodeClass = .variable
  let isMethod := node.nodeClass = .method
  let isReferenceType := node.nodeClass = .referenceType
  let hasValue := node.nodeClass = .variable ∨ node.nodeClass = .variableType
  match id.attributeId with
  | .nodeId => .setScalarNoDelete nodeIdType (.nodeId node.nodeId)
  | .nodeClass => .setScalarNoDelete nodeClassType (.uint32 node.nodeClass.code)
  | .browseName => .setScalarNoDelete qualifiedNameType (.qualifiedName node.browseName)
  | .displayName => .setScalarNoDelete localizedTextType (.localizedText node.displayName)
  | .description => .setScalarNoDelete localizedTextType (.localizedText members.description)
  | .writeMask => .setScalarNoDelete uint32Type (.uint32 members.writeMask)
  | .userWriteMask =>
    .setScalarCopy memory uint32Type (.uint32 (getUserWriteMask rights node.nodeId attributes))
  | .isAbstract => readIsAbstractAttribute node
  | .symmetric => .checkNodeClass isReferenceType
      (.setScalarNoDelete booleanType (booleanLeaf members.symmetric))
  | .inverseName => .checkNodeClass isReferenceType
      (.setScalarNoDelete localizedTextType (.localizedText members.inverseName))
  | .containsNoLoops => .checkNodeClass (node.nodeClass = .view)
      (.setScalarNoDelete booleanType (booleanLeaf members.containsNoLoops))
  | .eventNotifier => .checkNodeClass (node.nodeClass = .view ∨ node.nodeClass = .object)
      -- The cast to a view is made for objects as well.
      (.setScalarNoDelete byteType (.byte (if node.nodeClass = .object then
        server.queueByte node.nodeId else members.eventNotifier)))
  | .value => server.readValueOf memory node members id.indexRange
  | .dataType => .checkNodeClass hasValue
      (.setScalarNoDelete nodeIdType (.nodeId members.dataType))
  | .valueRank => .checkNodeClass hasValue
      (.setScalarNoDelete int32Type (.uint32 (BitVec.ofInt 32 members.valueRank)))
  | .arrayDimensions => .checkNodeClass hasValue (readArrayDimensionsAttribute members)
  | .accessLevel => .checkNodeClass isVariable
      (.setScalarNoDelete byteType (.byte members.accessLevel))
  | .userAccessLevel => .checkNodeClass isVariable
      (.setScalarCopy memory byteType (.byte (getUserAccessLevel rights node.nodeId attributes)))
  | .minimumSamplingInterval => .checkNodeClass isVariable
      (.setScalarNoDelete doubleType (.uint64 members.minimumSamplingInterval))
  | .historizing => .checkNodeClass isVariable
      (.setScalarNoDelete booleanType (booleanLeaf members.historizing))
  | .executable => .checkNodeClass isMethod
      (.setScalarNoDelete booleanType (booleanLeaf members.executable))
  | .userExecutable => .checkNodeClass isMethod
      (.setScalarCopy memory booleanType
        (booleanLeaf (server.getUserExecutable node.nodeId members)))
  | .unknown _ => .failed badAttributeIdInvalid

/-- `Read` without a time. The second result is the tag of the value. -/
def read (id : ReadValueId) : DataValue × Bool :=
  if id.indexRange.length > 0 ∧ id.attributeId ≠ .value then
    ({ (default : DataValue) with info := { (default : DataValueInfo) with
      status := some badIndexRangeNoData } }, false)
  else
    let outcome := server.readAttribute memory node members id
    if outcome.retval ≠ good then
      ({ outcome.value with info := { outcome.value.info with status := some outcome.retval } },
        outcome.noDelete)
    else if id.attributeId = .value then
      ({ outcome.value with hasValue := true, info := { outcome.value.info with
        sourceTimestamp := none, sourcePicoseconds := none } }, outcome.noDelete)
    else ({ outcome.value with hasValue := true }, outcome.noDelete)

end

def readWithSession (item : ReadValueId) : DataValue :=
  let status (retval : StatusCode) : DataValue :=
    { (default : DataValue) with info := { (default : DataValueInfo) with status := some retval } }
  match server.space.store.getNode item.nodeId with
  | none => status badNodeIdUnknown
  | some node =>
    match server.space.members node.nodeId.content with
    | none => status badNodeIdUnknown
    | some members =>
      let (dv, noDelete) := server.read memory node members item
      if dv.hasValue ∧ noDelete then
        if memory.result = good then dv else status memory.result
      else dv

end ReadServer

def baseEventTypeId : NodeId := standardId 2041

def hierarchicalElement (targetName : QualifiedName) : RelativePathElement :=
  ⟨hierarchicalReferencesId, false, true, targetName⟩

def browseSimplifiedBrowsePath (store : Nodestore) (memory : Nat → Bool) (origin : NodeId)
    (browsePath : List QualifiedName) (short : browsePath.length < 2 ^ 32) :
    Option BrowsePathResult :=
  operationTranslateBrowsePathToNodeIds store memory
    (NodeClass.object.code ||| NodeClass.variable.code)
    ⟨origin, browsePath.map hierarchicalElement, by rwa [List.length_map]⟩

structure SimpleAttributeOperand where
  typeDefinitionId : NodeId
  browsePath : List QualifiedName
  attributeId : NodeAttributeId
  indexRange : UaString
  short : browsePath.length < 2 ^ 32

def eventTypeName : QualifiedName := ⟨0, .alloc [69, 118, 101, 110, 116, 84, 121, 112, 101]⟩

structure ClauseMemory where
  typePath : Nat → Bool
  path : Nat → Bool
  read : ReadMemory

structure FilterMemory where
  fields : Bool
  clause : Nat → ClauseMemory

theorem eventTypeName_short : [eventTypeName].length < 2 ^ 32 := by decide

/-- The property is looked for in the types, and not its value. -/
def isValidEvent (store : Nodestore) (memory : Nat → Bool) (validEventParent eventId : NodeId) :
    Option Bool := do
  let bpr ← browseSimplifiedBrowsePath store memory eventId [eventTypeName] eventTypeName_short
  if bpr.statusCode ≠ good then return false
  else
    match bpr.targets with
    | [] => return false
    | target :: _ =>
      return isNodeInTree store target.targetId.nodeId validEventParent [hasSubtypeId]

namespace ReadServer

variable (server : ReadServer)

def readInto (memory : ReadMemory) (rvi : ReadValueId) : StatusCode × Option Value :=
  let v := server.readWithSession memory rvi
  let status := v.info.status.getD good
  (status, if status = good ∧ v.hasValue then some v.value else none)

def resolveSimpleAttributeOperand (memory : ClauseMemory) (origin : NodeId)
    (sao : SimpleAttributeOperand) : Option (StatusCode × Option Value) :=
  if sao.browsePath.length = 0 then
    some (server.readInto memory.read ⟨sao.typeDefinitionId, sao.attributeId, sao.indexRange⟩)
  else do
    let bpr ← browseSimplifiedBrowsePath server.space.store memory.path origin sao.browsePath
      sao.short
    if bpr.statusCode ≠ good then return (bpr.statusCode, none)
    else
      match bpr.targets with
      | [] => return (badNotFound, none)
      | target :: _ =>
        return server.readInto memory.read ⟨target.targetId.nodeId, sao.attributeId, sao.indexRange⟩

def skipsClause (memory : ClauseMemory) (eventNode firstType : NodeId)
    (clause : SimpleAttributeOperand) : Option Bool :=
  if nodeIdEqual clause.typeDefinitionId baseEventTypeId then some false
  else (isValidEvent server.space.store memory.typePath firstType eventNode).map not

def eventField (memory : ClauseMemory) (eventNode firstType : NodeId)
    (clause : SimpleAttributeOperand) : Option Value := do
  let skipped ← server.skipsClause memory eventNode firstType clause
  if skipped then return .variantEmpty
  else
    let (_, value) ← server.resolveSimpleAttributeOperand memory eventNode clause
    return value.getD .variantEmpty

def eventFields (memory : Nat → ClauseMemory) (eventNode firstType : NodeId) :
    Nat → List SimpleAttributeOperand → Option (List Value)
  | _, [] => some []
  | index, clause :: clauses => do
    let field ← server.eventField (memory index) eventNode firstType clause
    let fields ← eventFields memory eventNode firstType (index + 1) clauses
    return field :: fields

def filterEvent (memory : FilterMemory) (eventNode : NodeId)
    (selectClauses : List SimpleAttributeOperand) : Option (Except StatusCode (List Value)) :=
  match selectClauses with
  | [] => some (.error badEventFilterInvalid)
  | first :: _ =>
    if !memory.fields then some (.error badOutOfMemory)
    else (server.eventFields memory.clause eventNode first.typeDefinitionId 0 selectClauses).map .ok

end ReadServer

end OpcUa
