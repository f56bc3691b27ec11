import OpcUa.AttributeCore
import OpcUa.BrowseCore

/-!
AddReferences, DeleteReferences, AddNodes and DeleteNodes of `ua_services_nodemanagement.c`, each
for one item. The nodes are edited where they are stored. The recursions along the address space
have a bound on their depth, and give nothing when it is reached.

The constructors and destructors of the application are known by the order of their calls, which
is written down together with the additions and removals of nodes. What an application does in them
to the address space has no part here.
-/

namespace OpcUa

open StatusCode

structure DeleteNodesItem where
  nodeId : NodeId
  deleteTargetReferences : Bool
deriving DecidableEq, Repr

structure VariableItem where
  value : Value
  dataType : NodeId
  valueRank : Int
  arrayDimensions : List (BitVec 32)
  accessLevel : BitVec 8
  writeMask : BitVec 32

structure AddNodesItem where
  parentNodeId : NodeId
  referenceTypeId : NodeId
  requestedNewNodeId : NodeId
  browseName : QualifiedName
  nodeClass : NodeClass
  typeDefinition : NodeId
  decoded : Bool
  displayName : LocalizedText
  isAbstract : Bool
  variableAttributes : VariableItem

/-- The access control for the session. Nothing is asked for the server itself. -/
structure Caller where
  isAdmin : Bool
  allowAddNode : AddNodesItem → Bool
  allowAddReference : AddReferencesItem → Bool
  allowDeleteNode : DeleteNodesItem → Bool
  allowDeleteReference : DeleteReferencesItem → Bool

def adminCaller : Caller :=
  ⟨true, fun _ => true, fun _ => true, fun _ => true, fun _ => true⟩

structure Lifecycle where
  constructor : Bool
  destructor : Bool

/-- The types keep their callbacks by their ids. The decoder stands for `UA_decodeBinary`. -/
structure NodeServer where
  maxReferencesPerNode : BitVec 32
  namespacesSize : Nat
  bootstrapNS0 : Bool
  types : TypeEnv
  decodeBinary : DataType → UaString → StatusCode × Value
  nodeLifecycle : Lifecycle
  typeLifecycle : NodeIdContent → Lifecycle

/-- What comes of the calls outside: memory, the numbers that are drawn, the data sources and the
constructors. -/
structure NodeOutcome where
  browse : BrowseMemory
  random : Guid
  first : ReferenceMemory
  second : ReferenceMemory
  newNode : Bool
  attributes : StatusCode
  value : ValueOutcome
  identifier : BitVec 32
  insert : StatusCode
  copy : StatusCode
  subset : Bool
  hierarchy : StatusCode
  constructor : StatusCode
  typeConstructor : StatusCode

/-- What happens to a node, in order. A constructor that is not set succeeds, and a destructor that
is not set is not called. -/
inductive LifecycleEvent where
  | added (node : NodeIdContent)
  | constructor (node : NodeIdContent) (status : StatusCode)
  | typeConstructor (node type : NodeIdContent) (status : StatusCode)
  | typeDestructor (node type : NodeIdContent)
  | destructor (node : NodeIdContent)
  | removed (node : NodeIdContent)
deriving DecidableEq, Repr

/-- The nodes with their members, the continuation points of the session and of the server, the
number of calls with an outcome so far, and the events from the first one on. -/
structure NodeSpace where
  store : Nodestore
  table : VariableTable
  session : BrowseSession
  adminSession : BrowseSession
  calls : Nat
  events : List LifecycleEvent

def NodeSpace.log (space : NodeSpace) (event : LifecycleEvent) : NodeSpace :=
  { space with events := space.events ++ [event] }

def Nodestore.replaceNode (store : Nodestore) (node : Node) : Nodestore where
  nodes := store.nodes.map fun other => if nodeIdEqual other.nodeId node.nodeId then node else other

def Nodestore.removeNode (store : Nodestore) (nodeId : NodeId) : Nodestore where
  nodes := store.nodes.filter fun node => !nodeIdEqual node.nodeId nodeId

/-- The id of the node that is inserted. The nodestore draws a number for a numeric id of zero. -/
def insertedId (identifier : BitVec 32) (nodeId : NodeId) : NodeId :=
  if nodeId.identifier = .numeric 0 then ⟨nodeId.namespaceIndex, .numeric identifier⟩ else nodeId

def Nodestore.insertNode (store : Nodestore) (outcome : NodeOutcome) (node : Node) :
    StatusCode × NodeId × Nodestore :=
  let nodeId := insertedId outcome.identifier node.nodeId
  if outcome.insert ≠ good then (outcome.insert, nodeId, store)
  else if (store.getNode nodeId).isSome then (badNodeIdExists, nodeId, store)
  else (good, nodeId, ⟨store.nodes ++ [{ node with nodeId }]⟩)

def NodeSpace.insertNode (space : NodeSpace) (outcome : NodeOutcome) (node : Node)
    (attributes : Option VariableAttributes) : StatusCode × NodeId × NodeSpace :=
  match space.store.insertNode outcome node with
  | (status, nodeId, store) =>
    let space := { space with calls := space.calls + 1 }
    if status ≠ good then (status, nodeId, space)
    else
      (status, nodeId, { space with
        store, table := Function.update space.table nodeId.content attributes }.log
          (.added nodeId.content))

def NodeSpace.removeNode (space : NodeSpace) (nodeId : NodeId) : NodeSpace :=
  { space with
    store := space.store.removeNode nodeId
    table := Function.update space.table nodeId.content none }.log (.removed nodeId.content)

def editNode (store : Nodestore) (nodeId : NodeId) (edit : Node → StatusCode × Node) :
    StatusCode × Nodestore :=
  match store.getNode nodeId with
  | none => (badNodeIdUnknown, store)
  | some node => ((edit node).1, store.replaceNode (edit node).2)

def AddReferencesItem.second (item : AddReferencesItem) : AddReferencesItem where
  sourceNodeId := item.targetNodeId.nodeId
  referenceTypeId := item.referenceTypeId
  isForward := !item.isForward
  targetServerUri := .null
  targetNodeId := .ofNodeId item.sourceNodeId

def AddReferencesItem.deletion (item : AddReferencesItem) : DeleteReferencesItem where
  sourceNodeId := item.sourceNodeId
  referenceTypeId := item.referenceTypeId
  isForward := item.isForward
  targetNodeId := item.targetNodeId
  deleteBidirectional := false

def operationAddReference (caller : Caller) (outcome : NodeOutcome) (store : Nodestore)
    (item : AddReferencesItem) : StatusCode × Nodestore :=
  if !caller.isAdmin && !caller.allowAddReference item then (badUserAccessDenied, store)
  else if item.targetServerUri.length > 0 then (badNotImplemented, store)
  else
    match editNode store item.sourceNodeId fun node => addReference outcome.first node item with
    | (first, added) =>
      let firstExisted := first = badDuplicateReferenceNotAllowed
      if first ≠ good ∧ ¬firstExisted then (first, added)
      else
        match editNode added item.second.sourceNodeId fun node =>
          addReference outcome.second node item.second with
        | (second, linked) =>
          if second = badDuplicateReferenceNotAllowed then
            (if firstExisted then badDuplicateReferenceNotAllowed else good, linked)
          else if second ≠ good ∧ ¬firstExisted then
            (second, (editNode linked item.sourceNodeId fun node =>
              deleteReference node item.deletion).2)
          else (second, linked)

def DeleteReferencesItem.second (item : DeleteReferencesItem) : DeleteReferencesItem where
  sourceNodeId := item.targetNodeId.nodeId
  referenceTypeId := item.referenceTypeId
  isForward := !item.isForward
  targetNodeId := .ofNodeId item.sourceNodeId
  deleteBidirectional := false

def operationDeleteReference (caller : Caller) (store : Nodestore) (item : DeleteReferencesItem) :
    StatusCode × Nodestore :=
  if !caller.isAdmin && !caller.allowDeleteReference item then (badUserAccessDenied, store)
  else
    match editNode store item.sourceNodeId fun node => deleteReference node item with
    | (status, removed) =>
      if status ≠ good then (status, removed)
      else if !item.deleteBidirectional || item.targetNodeId.serverIndex != 0 then
        (status, removed)
      else
        editNode removed item.second.sourceNodeId fun node => deleteReference node item.second

def NodeSpace.browseSession (space : NodeSpace) (caller : Caller) : BrowseSession :=
  if caller.isAdmin then space.adminSession else space.session

def NodeSpace.withBrowse (space : NodeSpace) (caller : Caller) (browsed : BrowseSession) :
    NodeSpace :=
  if caller.isAdmin then { space with adminSession := browsed, calls := space.calls + 1 }
  else { space with session := browsed, calls := space.calls + 1 }

/-- The children of a node: the targets of its aggregating references. They are asked for with
Browse, and a continuation point is left to the session. -/
def childrenDescription (nodeId : NodeId) (resultMask : BitVec 32) : BrowseDescription :=
  ⟨nodeId, 0, aggregatesId, true, 7, resultMask⟩

def browseChildren (server : NodeServer) (world : Nat → NodeOutcome) (caller : Caller)
    (nodeId : NodeId) (resultMask : BitVec 32) (space : NodeSpace) : BrowseResult × NodeSpace :=
  match operationBrowse ⟨space.store, server.maxReferencesPerNode⟩ (world space.calls).browse
    (world space.calls).random (space.browseSession caller) 0
    (childrenDescription nodeId resultMask) with
  | (result, browsed) => (result, space.withBrowse caller browsed)

/-- A node that the caller holds is the one in the nodestore, as long as it is there. -/
def liveNode (store : Nodestore) (node : Node) : Node := (store.getNode node.nodeId).getD node

def removeIncoming (caller : Caller) (nodeId : NodeId) (refs : NodeReferenceKind)
    (store : Nodestore) : Nodestore :=
  refs.targetIds.foldl (fun store target => (operationDeleteReference caller store
    ⟨target.nodeId, refs.referenceTypeId, refs.isInverse, .ofNodeId nodeId, false⟩).2) store

/-- The loop over the kinds. A reference of the node to itself goes from its own kinds. -/
def removeIncomingFrom (caller : Caller) (node : Node) : Nat → Nat → Nodestore → Nodestore
  | 0, _, store => store
  | left + 1, index, store =>
    match (liveNode store node).references[index]? with
    | none => store
    | some refs =>
      removeIncomingFrom caller node left (index + 1) (removeIncoming caller node.nodeId refs store)

def removeIncomingReferences (caller : Caller) (node : Node) (store : Nodestore) : Nodestore :=
  removeIncomingFrom caller node (liveNode store node).references.length 0 store

def deconstructNode (server : NodeServer) (node : Node) (space : NodeSpace) : NodeSpace :=
  let type := if node.nodeClass = .object ∨ node.nodeClass = .variable then
    getNodeType space.store node else none
  let space := match type with
    | none => space
    | some type =>
      if (server.typeLifecycle type.nodeId.content).destructor then
        space.log (.typeDestructor node.nodeId.content type.nodeId.content)
      else space
  if server.nodeLifecycle.destructor then space.log (.destructor node.nodeId.content) else space

def removeChildren (server : NodeServer) (world : Nat → NodeOutcome) (caller : Caller)
    (deleteChild : NodeId → NodeSpace → Option NodeSpace) (node : Node) (space : NodeSpace) :
    Option NodeSpace :=
  match browseChildren server world caller node.nodeId 0 space with
  | (result, space) =>
    if result.statusCode ≠ good then some space
    else
      result.references.foldlM (fun space rd =>
        if nodeIdEqual node.nodeId rd.nodeId.nodeId then some space
        else deleteChild rd.nodeId.nodeId space) space

def removeDeconstructedNode (server : NodeServer) (world : Nat → NodeOutcome) (caller : Caller)
    (deleteChild : NodeId → NodeSpace → Option NodeSpace) (node : Node) (removeTargetRefs : Bool)
    (space : NodeSpace) : Option NodeSpace := do
  let space ← removeChildren server world caller deleteChild node space
  let store := if removeTargetRefs then removeIncomingReferences caller node space.store
    else space.store
  return { space with store }.removeNode node.nodeId

def deleteNodeOperation (server : NodeServer) (world : Nat → NodeOutcome) (caller : Caller) :
    Nat → DeleteNodesItem → NodeSpace → Option (StatusCode × NodeSpace)
  | 0, _, _ => none
  | depth + 1, item, space =>
    if !caller.isAdmin && !caller.allowDeleteNode item then some (badUserAccessDenied, space)
    else
      match space.store.getNode item.nodeId with
      | none => some (badNodeIdUnknown, space)
      | some node =>
        if hasSubTypeOrInstances node then some (badInternalError, space)
        else do
          let space ← removeDeconstructedNode server world caller (fun nodeId space =>
            (deleteNodeOperation server world caller depth ⟨nodeId, true⟩ space).map Prod.snd)
            node item.deleteTargetReferences (deconstructNode server node space)
          return (good, space)

def deleteChild (server : NodeServer) (world : Nat → NodeOutcome) (caller : Caller) (depth : Nat)
    (nodeId : NodeId) (space : NodeSpace) : Option NodeSpace :=
  (deleteNodeOperation server world caller depth ⟨nodeId, true⟩ space).map Prod.snd

/-! Checks of a new node -/

def parentReferences : List NodeId := [hasSubtypeId, hasComponentId]

def NodeClass.isType : NodeClass → Bool
  | .dataType => true
  | .variableType => true
  | .objectType => true
  | .referenceType => true
  | _ => false

def NodeClass.isInstance : NodeClass → Bool
  | .variable => true
  | .object => true
  | _ => false

def checkParentReference (server : NodeServer) (store : Nodestore) (nodeClass : NodeClass)
    (parentNodeId referenceTypeId : NodeId) : StatusCode :=
  if nodeClass = .object ∧ nodeIdIsNull parentNodeId ∧ nodeIdIsNull referenceTypeId then good
  else if server.bootstrapNS0 then good
  else
    match store.getNode parentNodeId with
    | none => badParentNodeIdInvalid
    | some parent =>
      match store.getNode referenceTypeId with
      | none => badReferenceTypeIdInvalid
      | some referenceType =>
        if referenceType.nodeClass ≠ .referenceType then badReferenceTypeIdInvalid
        else if referenceType.isAbstract then badReferenceNotAllowed
        else if nodeClass.isType then
          if !nodeIdEqual referenceTypeId hasSubtypeId then badReferenceNotAllowed
          else if parent.nodeClass ≠ nodeClass then badParentNodeIdInvalid
          else good
        else if !isNodeInTree store referenceTypeId hierarchicalReferencesId [hasSubtypeId] then
          badReferenceTypeIdInvalid
        else good

def NodeClass.typeClass : NodeClass → Option NodeClass
  | .dataType => some .dataType
  | .method => some .method
  | .object => some .objectType
  | .objectType => some .objectType
  | .referenceType => some .referenceType
  | .variable => some .variableType
  | .variableType => some .variableType
  | .view => some .view
  | .unspecified => none

def checkType (server : NodeServer) (store : Nodestore) (node type : Node)
    (parentNodeId : NodeId) : StatusCode :=
  let below (root : NodeId) := isNodeInTree store parentNodeId root parentReferences
  if node.nodeClass.typeClass ≠ some type.nodeClass then badTypeDefinitionInvalid
  else if !server.bootstrapNS0 && node.nodeClass = .variable && type.isAbstract &&
    !below baseDataVariableTypeId && !below baseObjectTypeId then badTypeDefinitionInvalid
  else if !server.bootstrapNS0 && node.nodeClass = .object && type.isAbstract &&
    !below baseObjectTypeId then badTypeDefinitionInvalid
  else good

/-- A value that does not fit is written again, since the Write service may adjust its type. -/
def typeCheckValue (server : NodeServer) (outcome : ValueOutcome) (node : Node)
    (attributes : VariableAttributes) (value : DataValue) (space : NodeSpace) :
    StatusCode × NodeSpace :=
  if !server.bootstrapNS0 && value.hasValue && !compatibleValue space.store attributes.dataType
    attributes.valueRank attributes.arrayDimensions value.value false then
    match operationWrite server.types adminRights outcome space.store space.table
      ⟨node.nodeId, .value, .null, ⟨⟨none, none, none, none, none⟩, true, value.value⟩⟩ with
    | (status, table) => (status, { space with table })
  else (good, space)

/-- The rank is not compared with the one of the type below an object type, if it is the default
one, or if the ranks are the same. -/
def typeCheckVariableNode (server : NodeServer) (outcome : ValueOutcome) (node : Node)
    (attributes vt : VariableAttributes) (parentNodeId : NodeId) (space : NodeSpace) :
    StatusCode × NodeSpace :=
  match readValueAttribute outcome attributes with
  | (status, value) =>
    if status ≠ good then (status, space)
    else if !compatibleDataType space.store attributes.dataType vt.dataType false then
      (badTypeMismatch, space)
    else
      let arrayDims := if attributes.arrayDimensions.length = 0 ∧ value.hasValue ∧
          value.value.variantType.isSome ∧ value.value.isScalar = false then 1
        else attributes.arrayDimensions.length
      if ¬(node.nodeClass = .variableType ∧ node.isAbstract ∧ attributes.valueRank = 0) ∧
        compatibleValueRankArrayDimensions attributes.valueRank arrayDims = false then
        (badTypeMismatch, space)
      else if attributes.valueRank ≠ vt.valueRank ∧ attributes.valueRank ≠ -2 ∧
        isNodeInTree space.store parentNodeId baseObjectTypeId parentReferences = false ∧
        compatibleValueRanks attributes.valueRank vt.valueRank = false then
        (badTypeMismatch, space)
      else if !compatibleArrayDimensions vt.arrayDimensions attributes.arrayDimensions then
        (badTypeMismatch, space)
      else typeCheckValue server outcome node attributes value space

def addRef (world : Nat → NodeOutcome) (caller : Caller) (nodeId referenceTypeId parentNodeId : NodeId)
    (forward : Bool) (space : NodeSpace) : StatusCode × NodeSpace :=
  match operationAddReference caller (world space.calls) space.store
    ⟨nodeId, referenceTypeId, forward, .null, .ofNodeId parentNodeId⟩ with
  | (status, store) => (status, { space with store, calls := space.calls + 1 })

def typeCheckNode (server : NodeServer) (outcome : ValueOutcome) (node : Node) (type : Option Node)
    (parentNodeId : NodeId) (space : NodeSpace) : StatusCode × NodeSpace :=
  match type with
  | none => (good, space)
  | some type =>
    if node.nodeClass = .variable ∨ node.nodeClass = .variableType then
      match space.table node.nodeId.content, space.table type.nodeId.content with
      | some attributes, some vt =>
        typeCheckVariableNode server outcome node attributes vt parentNodeId space
      | _, _ => (badTypeMismatch, space)
    else (good, space)

/-- The id of the type definition: the parent for a type, and the base type for an instance
without one. -/
def selectType (server : NodeServer) (store : Nodestore) (node : Node)
    (parentNodeId typeDefinitionId : NodeId) : NodeId :=
  let parent := (store.getNode parentNodeId).filter (·.nodeClass = node.nodeClass)
  let typeDefinitionId :=
    if node.nodeClass.isType && parent.isSome then parentNodeId else typeDefinitionId
  if !server.bootstrapNS0 && node.nodeClass.isInstance && nodeIdIsNull typeDefinitionId then
    if node.nodeClass = .variable then baseDataVariableTypeId else baseObjectTypeId
  else typeDefinitionId

/-- The end of `AddNode_typeCheckAddRefs`: the references to the parent and to the type. -/
def addParentAndType (world : Nat → NodeOutcome) (caller : Caller) (node : Node)
    (type : Option Node) (parentNodeId referenceTypeId : NodeId) (space : NodeSpace) :
    StatusCode × NodeSpace :=
  let typed (space : NodeSpace) : StatusCode × NodeSpace :=
    match type with
    | some type =>
      if node.nodeClass.isInstance then
        addRef world caller node.nodeId hasTypeDefinitionId type.nodeId true space
      else (good, space)
    | none => (good, space)
  if nodeIdIsNull parentNodeId then typed space
  else if nodeIdIsNull referenceTypeId then (badTypeDefinitionInvalid, space)
  else
    match addRef world caller node.nodeId referenceTypeId parentNodeId false space with
    | (status, space) => if status ≠ good then (status, space) else typed space

def typeCheckAddRefs (server : NodeServer) (world : Nat → NodeOutcome) (caller : Caller)
    (nodeId parentNodeId referenceTypeId typeDefinitionId : NodeId) (space : NodeSpace) :
    StatusCode × NodeSpace :=
  match space.store.getNode nodeId with
  | none => (badNodeIdUnknown, space)
  | some node =>
    let referenceTypeId :=
      if node.nodeClass.isType && nodeIdEqual referenceTypeId .null then hasSubtypeId
      else referenceTypeId
    let checked := if server.bootstrapNS0 then good
      else checkParentReference server space.store node.nodeClass parentNodeId referenceTypeId
    if checked ≠ good then (checked, space)
    else
      let typeDefinitionId := selectType server space.store node parentNodeId typeDefinitionId
      let type := if nodeIdIsNull typeDefinitionId then none
        else space.store.getNode typeDefinitionId
      let typeStatus := if nodeIdIsNull typeDefinitionId then good
        else type.elim badTypeDefinitionInvalid fun type =>
          checkType server space.store node type parentNodeId
      if typeStatus ≠ good then (typeStatus, space)
      else
        match typeCheckNode server (world space.calls).value node type parentNodeId space with
        | (status, space) =>
          if status ≠ good then (status, space)
          else addParentAndType world caller node type parentNodeId referenceTypeId space

/-! Children of a new node -/

def appendSupertypes (results : List NodeId) (node : Node) : List NodeId :=
  node.references.foldl (fun results refs =>
    if !refs.isInverse || !nodeIdEqual hasSubtypeId refs.referenceTypeId then results
    else refs.targetIds.foldl (fun results target =>
      if results.any (nodeIdEqual target.nodeId) then results
      else results ++ [target.nodeId]) results) results

/-- `getTypeHierarchy`. The loop goes on behind an id without a node, which leaves the next one
out. -/
def typeHierarchyFrom (store : Nodestore) : Nat → Nat → List NodeId → Option (List NodeId)
  | 0, _, _ => none
  | depth + 1, index, results =>
    match results[index]? with
    | none => some results
    | some nodeId =>
      match store.getNode nodeId with
      | none => typeHierarchyFrom store depth (index + 1) (results.eraseIdx index)
      | some node => typeHierarchyFrom store depth (index + 1) (appendSupertypes results node)

def isMandatoryChild (store : Nodestore) (childNodeId : NodeId) : Bool :=
  match store.getNode childNodeId with
  | none => false
  | some child => child.references.any fun refs =>
    nodeIdEqual hasModellingRuleId refs.referenceTypeId && !refs.isInverse &&
      refs.targetIds.any fun target => nodeIdEqual mandatoryId target.nodeId

def findChildByBrowsename (server : NodeServer) (world : Nat → NodeOutcome) (caller : Caller)
    (searchInstance : NodeId) (browseName : QualifiedName) (space : NodeSpace) :
    StatusCode × Option NodeId × NodeSpace :=
  match browseChildren server world caller searchInstance 12 space with
  | (result, browsed) =>
    if result.statusCode ≠ good then (result.statusCode, none, browsed)
    else
      match result.references.find? fun rd =>
        rd.browseName.namespaceIndex == browseName.namespaceIndex &&
          stringEqual rd.browseName.name browseName.name with
      | none => (good, none, browsed)
      | some rd =>
        if (world space.calls).copy ≠ good then ((world space.calls).copy, none, browsed)
        else (good, some rd.nodeId.nodeId, browsed)

/-- `deleteReferencesSubset` for the modelling rules, which alone are kept. -/
def keepModellingRules (outcome : NodeOutcome) (references : List NodeReferenceKind) :
    List NodeReferenceKind :=
  if outcome.subset then
    references.filter fun refs => nodeIdEqual refs.referenceTypeId hasModellingRuleId
  else []

abbrev CopyChild := NodeId → ReferenceDescription → NodeSpace → Option (StatusCode × NodeSpace)

section

variable (server : NodeServer)

def copyChildNodes (world : Nat → NodeOutcome) (caller : Caller) (copyChild : CopyChild)
    (sourceNodeId destinationNodeId : NodeId) (space : NodeSpace) :
    Option (StatusCode × NodeSpace) :=
  match browseChildren server world caller sourceNodeId 13 space with
  | (result, space) =>
    if result.statusCode ≠ good then some (result.statusCode, space)
    else
      result.references.foldlM (fun (status, space) rd => do
        let (next, space) ← copyChild destinationNodeId rd space
        return (status ||| next, space)) (good, space)

def addChildren (world : Nat → NodeOutcome) (caller : Caller) (copyChild : CopyChild) (depth : Nat)
    (node type : Node) (space : NodeSpace) : Option (StatusCode × NodeSpace) :=
  if (world space.calls).hierarchy ≠ good then some ((world space.calls).hierarchy, space)
  else do
    let hierarchy ← typeHierarchyFrom space.store depth 0 [type.nodeId]
    hierarchy.foldlM (fun (status, space) supertype => do
      let (next, space) ← copyChildNodes server world caller copyChild supertype node.nodeId space
      return (status ||| next, space)) (good, space)

def runConstructors (outcome : NodeOutcome) (node : Node) (type : Option Node) (space : NodeSpace) :
    StatusCode × NodeSpace :=
  let id := node.nodeId.content
  let status := if server.nodeLifecycle.constructor then outcome.constructor else good
  let space := space.log (.constructor id status)
  if status ≠ good then (status, space)
  else
    match type with
    | none => (good, space)
    | some type =>
      let status := if (server.typeLifecycle type.nodeId.content).constructor then
        outcome.typeConstructor else good
      (status, space.log (.typeConstructor id type.nodeId.content status))

/-- The node is looked up once more for its context. If something fails, the destructor of the
server is called, whichever constructor failed. -/
def callConstructors (world : Nat → NodeOutcome) (node : Node) (type : Option Node)
    (space : NodeSpace) : StatusCode × NodeSpace :=
  match runConstructors server (world space.calls) node
    (if node.nodeClass.isInstance then type else none) { space with calls := space.calls + 1 } with
  | (status, space) =>
    let status := if status ≠ good then status
      else if (space.store.getNode node.nodeId).isSome then good
      else badNodeIdUnknown
    if status ≠ good ∧ server.nodeLifecycle.destructor then
      (status, space.log (.destructor node.nodeId.content))
    else (status, space)

def addNodeFinish (world : Nat → NodeOutcome) (caller : Caller) (copyChild : CopyChild)
    (depth : Nat) (nodeId : NodeId) (space : NodeSpace) : Option (StatusCode × NodeSpace) :=
  match space.store.getNode nodeId with
  | none => some (badNodeIdUnknown, space)
  | some node => do
    let type := if node.nodeClass.isInstance then getNodeType space.store node else none
    let (status, space) ←
      if node.nodeClass.isInstance then
        match type with
        | none => some (badTypeDefinitionInvalid, space)
        | some type => addChildren server world caller copyChild depth node type space
      else some (good, space)
    let (status, space) := if status ≠ good then (status, space)
      else callConstructors server world node type space
    if status ≠ good then
      let space ← removeDeconstructedNode server world caller
        (deleteChild server world caller depth) node true space
      return (status, space)
    else return (good, space)

/-- The branch of `copyChildNode` for an object or a variable that the destination does not have:
a copy of the child with its modelling rules alone. -/
def instantiateChild (world : Nat → NodeOutcome) (caller : Caller) (copyChild : CopyChild)
    (depth : Nat) (destinationNodeId : NodeId) (rd : ReferenceDescription) (space : NodeSpace) :
    Option (StatusCode × NodeSpace) :=
  match space.store.getNode rd.nodeId.nodeId with
  | none => some (badNodeIdUnknown, space)
  | some node =>
    let outcome := world space.calls
    if outcome.copy ≠ good then some (outcome.copy, space)
    else
      let typeId := (getNodeType space.store node).elim .null Node.nodeId
      match space.insertNode outcome { node with
          nodeId := ⟨destinationNodeId.namespaceIndex, .numeric 0⟩
          references := keepModellingRules outcome node.references }
          (space.table node.nodeId.content) with
      | (status, newNodeId, space) =>
        if status ≠ good then some (status, space)
        else do
          -- the status of the copies below is not looked at
          let (_, space) ← copyChildNodes server world caller copyChild rd.nodeId.nodeId
            newNodeId space
          match typeCheckAddRefs server world caller newNodeId destinationNodeId
            rd.referenceTypeId typeId space with
          | (status, space) =>
            if status ≠ good then
              some (status, space.removeNode newNodeId)
            else addNodeFinish server world caller copyChild depth newNodeId space

/-- `copyChildNode` with the branch that makes a new node as an argument. A child of the same name
is filled up, and a method is shared. -/
def copyChildNodeWith (world : Nat → NodeOutcome) (caller : Caller)
    (instantiate copyChild : CopyChild) : CopyChild := fun destinationNodeId rd space =>
  match findChildByBrowsename server world caller destinationNodeId rd.browseName space with
  | (status, existingChild, space) =>
    if status ≠ good then some (status, space)
    else
      match existingChild with
      | some existingChild =>
        if rd.nodeClass.isInstance then
          copyChildNodes server world caller copyChild rd.nodeId.nodeId existingChild space
        else some (good, space)
      | none =>
        if !isMandatoryChild space.store rd.nodeId.nodeId then some (good, space)
        else if rd.nodeClass = .method then
          match operationAddReference caller (world space.calls) space.store
            ⟨destinationNodeId, rd.referenceTypeId, true, .null, rd.nodeId⟩ with
          | (status, store) => some (status, { space with store, calls := space.calls + 1 })
        else if rd.nodeClass.isInstance then instantiate destinationNodeId rd space
        else some (good, space)

end

def copyChildNode (server : NodeServer) (world : Nat → NodeOutcome) (caller : Caller) :
    Nat → CopyChild
  | 0 => fun _ _ _ => none
  | depth + 1 =>
    copyChildNodeWith server world caller
      (instantiateChild server world caller (copyChildNode server world caller depth) depth)
      (copyChildNode server world caller depth)

def encodedBody : Value → UaString
  | .leaf (.extensionObject _ _ body) => body
  | _ => .null

/-- The first of the ExtensionObjects behind a value, if it is encoded. -/
def encodedTypeId (value : Value) : Option NodeId :=
  match rangeElements value with
  | .leaf (.extensionObject .byteString typeId _) :: _ => some typeId
  | _ => none

def decodeBodies (server : NodeServer) (type : DataType) (elements : List Value) :
    Except StatusCode (List Value) :=
  elements.mapM fun element =>
    match server.decodeBinary type (encodedBody element) with
    | (status, value) => if status ≠ good then throw status else return value

/-- Encoded ExtensionObjects are decoded, and only those in an array are counted. An empty array of
them is left out. -/
def copyValue (server : NodeServer) (outcome : NodeOutcome) (value : Value) :
    Except StatusCode DataValue :=
  let copied : Except StatusCode DataValue :=
    if outcome.copy ≠ good then throw outcome.copy
    else return ⟨⟨none, none, none, none, none⟩, true, value⟩
  if value.variantType.any fun type => nodeIdEqual type.typeId structureId then
    if value.isScalar = false ∧ value.arrayLength = 0 ∧ value.dataNull = false then
      return ⟨⟨none, none, none, none, none⟩, false, .variantEmpty⟩
    else
      match (encodedTypeId value).bind
        { server.types with custom := [] }.findDataTypeByBinaryInternal with
      | none => copied
      | some type => do
        let elements := if value.isScalar then [] else rangeElements value
        return ⟨⟨none, none, none, none, none⟩, true,
          .variantArray type false (← decodeBodies server type elements) []⟩
  else copied

def copyCommonVariableAttributes (server : NodeServer) (outcome : NodeOutcome)
    (attr : VariableItem) : Except StatusCode VariableAttributes := do
  let value ← copyValue server outcome attr.value
  return ⟨attr.dataType, attr.valueRank, attr.arrayDimensions, .data value, attr.accessLevel,
    attr.writeMask⟩

/-- The value and the data type of the variable type where the item has none. -/
def useVariableTypeAttributes (outcome : NodeOutcome) (item : VariableItem)
    (vt node : VariableAttributes) : Except StatusCode VariableAttributes := do
  let node ←
    if item.value.variantType.isSome then pure node
    else
      match readValueAttribute outcome.value vt with
      | (status, value) =>
        if status ≠ good then throw status
        else if value.hasValue = false then pure node
        else if outcome.copy ≠ good then throw outcome.copy
        else
          let info := match node.value with
            | .data stored => stored.info
            | .dataSource => ⟨none, none, none, none, none⟩
          pure { node with value := .data ⟨info, true, value.value⟩ }
  if nodeIdIsNull node.dataType then return { node with dataType := vt.dataType } else return node

section

variable (server : NodeServer)

/-- The members of the new variable or variable type. During the start nothing is taken from a
type. -/
def newAttributes (outcome : NodeOutcome) (item : AddNodesItem) (space : NodeSpace) :
    Except StatusCode VariableAttributes := do
  let node ← copyCommonVariableAttributes server outcome item.variableAttributes
  if server.bootstrapNS0 then return node
  else
    let typeDefinition := if item.nodeClass = .variable then item.typeDefinition
      else item.parentNodeId
    let typeDefinition := if nodeIdIsNull typeDefinition then baseDataVariableTypeId
      else typeDefinition
    match space.store.getNode typeDefinition with
    | none => throw badTypeMismatch
    | some vt =>
      match vt.nodeClass, space.table vt.nodeId.content with
      | .variableType, some vt => useVariableTypeAttributes outcome item.variableAttributes vt node
      | _, _ => throw badTypeMismatch

def addNodeRaw (world : Nat → NodeOutcome) (caller : Caller) (item : AddNodesItem)
    (space : NodeSpace) : StatusCode × NodeId × NodeSpace :=
  let outcome := world space.calls
  let fails (status : StatusCode) : StatusCode × NodeId × NodeSpace :=
    (status, item.requestedNewNodeId, { space with calls := space.calls + 1 })
  if !caller.isAdmin && !caller.allowAddNode item then fails badUserAccessDenied
  else if item.requestedNewNodeId.namespaceIndex.toNat ≥ server.namespacesSize then
    fails badNodeIdInvalid
  else if !item.decoded then fails badInternalError
  else if item.nodeClass = .unspecified ∨ outcome.newNode = false then fails badOutOfMemory
  else if outcome.attributes ≠ good then fails outcome.attributes
  else
    let node : Node := ⟨item.requestedNewNodeId, item.nodeClass, item.browseName, item.displayName,
      item.isAbstract, []⟩
    if item.nodeClass = .variable ∨ item.nodeClass = .variableType then
      match newAttributes server outcome item space with
      | .error status => fails status
      | .ok attributes => space.insertNode outcome node (some attributes)
    else space.insertNode outcome node none

/-- `Operation_addNode_begin`. The server itself deletes a node that fails. -/
def addNodeBegin (world : Nat → NodeOutcome) (caller : Caller) (depth : Nat) (item : AddNodesItem)
    (space : NodeSpace) : Option (StatusCode × NodeId × NodeSpace) :=
  match addNodeRaw server world caller item space with
  | (status, nodeId, space) =>
    if status ≠ good then some (status, nodeId, space)
    else
      match typeCheckAddRefs server world caller nodeId item.parentNodeId item.referenceTypeId
        item.typeDefinition space with
      | (status, space) =>
        if status ≠ good then do
          let (_, space) ← deleteNodeOperation server world adminCaller depth ⟨nodeId, true⟩ space
          return (status, nodeId, space)
        else some (good, nodeId, space)

def operationAddNodeWith (world : Nat → NodeOutcome) (caller : Caller) (copyChild : CopyChild)
    (depth : Nat) (item : AddNodesItem) (space : NodeSpace) : Option (StatusCode × NodeSpace) := do
  let (status, nodeId, space) ← addNodeBegin server world caller depth item space
  if status ≠ good then return (status, space)
  else addNodeFinish server world caller copyChild depth nodeId space

def operationAddNode (world : Nat → NodeOutcome) (caller : Caller) (depth : Nat)
    (item : AddNodesItem) (space : NodeSpace) : Option (StatusCode × NodeSpace) :=
  operationAddNodeWith server world caller (copyChildNode server world caller depth) depth item
    space

end

end OpcUa
