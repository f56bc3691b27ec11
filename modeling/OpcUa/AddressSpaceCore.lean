import OpcUa.NodeMapCore
import OpcUa.SessionManagerCore
import OpcUa.Library.SwapRemove

/-!
The nodes of the address space and their references, as `ua_nodes.c` edits them, and the searches
along references in `ua_server_utils.c`. Of the attributes of a node only those are here that one
of the services reads. The nodestore is the map that the hash map stands for.
-/

namespace OpcUa

open StatusCode SwapRemove

abbrev NodeIdContent := BitVec 16 × (BitVec 32 ⊕ List LittleEndian.Byte ⊕ Guid ⊕
  List LittleEndian.Byte)

def expandedNodeIdEqual (first second : ExpandedNodeId) : Bool :=
  first.serverIndex == second.serverIndex && stringEqual first.namespaceUri second.namespaceUri &&
    nodeIdEqual first.nodeId second.nodeId

def standardId (identifier : BitVec 32) : NodeId := ⟨0, .numeric identifier⟩

def hierarchicalReferencesId : NodeId := standardId 33
def hasModellingRuleId : NodeId := standardId 37
def hasTypeDefinitionId : NodeId := standardId 40
def aggregatesId : NodeId := standardId 44
def hasSubtypeId : NodeId := standardId 45
def hasComponentId : NodeId := standardId 47
def baseObjectTypeId : NodeId := standardId 58
def baseDataVariableTypeId : NodeId := standardId 63
def mandatoryId : NodeId := standardId 78
def objectsFolderId : NodeId := standardId 85

inductive NodeClass where
  | unspecified
  | object
  | variable
  | method
  | objectType
  | variableType
  | referenceType
  | dataType
  | view
deriving DecidableEq, Repr

def NodeClass.code : NodeClass → BitVec 32
  | .unspecified => 0
  | .object => 1
  | .variable => 2
  | .method => 4
  | .objectType => 8
  | .variableType => 16
  | .referenceType => 32
  | .dataType => 64
  | .view => 128

structure NodeReferenceKind where
  referenceTypeId : NodeId
  isInverse : Bool
  targetIds : List ExpandedNodeId
deriving DecidableEq, Repr

/-- `isAbstract` is a member of the nodes of types only. -/
structure Node where
  nodeId : NodeId
  nodeClass : NodeClass
  browseName : QualifiedName
  displayName : LocalizedText
  isAbstract : Bool
  references : List NodeReferenceKind
deriving DecidableEq, Repr

structure Nodestore where
  nodes : List Node
deriving DecidableEq, Repr

def Nodestore.getNode (store : Nodestore) (nodeId : NodeId) : Option Node :=
  store.nodes.find? fun node => nodeIdEqual node.nodeId nodeId

/-! References of a node -/

structure AddReferencesItem where
  sourceNodeId : NodeId
  referenceTypeId : NodeId
  isForward : Bool
  targetServerUri : UaString
  targetNodeId : ExpandedNodeId
deriving DecidableEq, Repr

structure DeleteReferencesItem where
  sourceNodeId : NodeId
  referenceTypeId : NodeId
  isForward : Bool
  targetNodeId : ExpandedNodeId
  deleteBidirectional : Bool
deriving DecidableEq, Repr

/-- Memory for the two arrays, and what comes of the copies of the two ids. -/
structure ReferenceMemory where
  kinds : Bool
  targets : Bool
  typeId : StatusCode
  targetId : StatusCode
deriving DecidableEq, Repr

def addReferenceTarget (memory : ReferenceMemory) (refs : NodeReferenceKind)
    (target : ExpandedNodeId) : StatusCode × NodeReferenceKind :=
  if !memory.targets then (badOutOfMemory, refs)
  else if memory.targetId = good then
    (good, { refs with targetIds := refs.targetIds ++ [target] })
  else (memory.targetId, refs)

def addReferenceKind (memory : ReferenceMemory) (node : Node) (item : AddReferencesItem) :
    StatusCode × Node :=
  if !memory.kinds then (badOutOfMemory, node)
  else
    match addReferenceTarget memory ⟨item.referenceTypeId, !item.isForward, []⟩
      item.targetNodeId with
    | (status, newRef) =>
      if memory.typeId ||| status = good then
        (good, { node with references := node.references ++ [newRef] })
      else (memory.typeId ||| status, node)

def AddReferencesItem.existing (item : AddReferencesItem) (refs : NodeReferenceKind) : Bool :=
  refs.isInverse != item.isForward && nodeIdEqual refs.referenceTypeId item.referenceTypeId

def addReference (memory : ReferenceMemory) (node : Node) (item : AddReferencesItem) :
    StatusCode × Node :=
  let index := node.references.findIdx item.existing
  match node.references[index]? with
  | some existingRefs =>
    if existingRefs.targetIds.any (expandedNodeIdEqual · item.targetNodeId) then
      (badDuplicateReferenceNotAllowed, node)
    else
      match addReferenceTarget memory existingRefs item.targetNodeId with
      | (status, refs) => (status, { node with references := node.references.set index refs })
  | none => addReferenceKind memory node item

/-- The search for the target goes from the end to the front. -/
def lastTarget (targetIds : List ExpandedNodeId) (nodeId : NodeId) : Nat → Option Nat
  | 0 => none
  | index + 1 =>
    if (targetIds[index]?).any fun target => nodeIdEqual nodeId target.nodeId then some index
    else lastTarget targetIds nodeId index

/-- The loop of `UA_Node_deleteReference` over the kinds, from the end to the front. A kind without
targets goes too. -/
def deleteReferenceFrom (references : List NodeReferenceKind) (item : DeleteReferencesItem) :
    Nat → Option (List NodeReferenceKind)
  | 0 => none
  | index + 1 =>
    match references[index]? with
    | none => deleteReferenceFrom references item index
    | some refs =>
      if item.isForward = refs.isInverse then deleteReferenceFrom references item index
      else if !nodeIdEqual item.referenceTypeId refs.referenceTypeId then
        deleteReferenceFrom references item index
      else
        match lastTarget refs.targetIds item.targetNodeId.nodeId refs.targetIds.length with
        | none => deleteReferenceFrom references item index
        | some target =>
          let targetIds := swapRemove refs.targetIds target
          if targetIds.length > 0 then some (references.set index { refs with targetIds })
          else some (swapRemove references index)

def deleteReference (node : Node) (item : DeleteReferencesItem) : StatusCode × Node :=
  match deleteReferenceFrom node.references item node.references.length with
  | some references => (good, { node with references })
  | none => (uncertainReferenceNotDeleted, node)

def maxTreeRecurse : Nat := 50

/-- `isNodeInTreeNoCircular` with the ids on the way. The number of calls that are left gives the
depth. -/
def isNodeInTreeNoCircular (store : Nodestore) (nodeToFind : NodeId)
    (referenceTypeIds : List NodeId) : Nat → NodeId → List NodeId → Bool
  | 0, leafNode, _ => nodeIdEqual nodeToFind leafNode
  | left + 1, leafNode, visited =>
    let depth := maxTreeRecurse - (left + 1)
    nodeIdEqual nodeToFind leafNode ||
      match store.getNode leafNode with
      | none => false
      | some node => node.references.any fun refs =>
        refs.isInverse && referenceTypeIds.any (nodeIdEqual refs.referenceTypeId) &&
          refs.targetIds.any fun target =>
            -- the way is looked through at every fifth depth
            !(depth % 5 == 4 && visited.any (nodeIdEqual · target.nodeId)) &&
              isNodeInTreeNoCircular store nodeToFind referenceTypeIds left target.nodeId
                (target.nodeId :: visited)

def isNodeInTree (store : Nodestore) (leafNode nodeToFind : NodeId)
    (referenceTypeIds : List NodeId) : Bool :=
  isNodeInTreeNoCircular store nodeToFind referenceTypeIds maxTreeRecurse leafNode [leafNode]

/-- The reference from a node to its type: the reference type, the direction and the class of the
type. -/
def typeReference : NodeClass → Option (NodeId × Bool × NodeClass)
  | .object => some (hasTypeDefinitionId, false, .objectType)
  | .variable => some (hasTypeDefinitionId, false, .variableType)
  | .objectType => some (hasSubtypeId, true, .objectType)
  | .variableType => some (hasSubtypeId, true, .variableType)
  | .referenceType => some (hasSubtypeId, true, .referenceType)
  | .dataType => some (hasSubtypeId, true, .dataType)
  | _ => none

def getNodeType (store : Nodestore) (node : Node) : Option Node :=
  match typeReference node.nodeClass with
  | none => none
  | some (parentRef, inverse, typeNodeClass) => node.references.findSome? fun refs =>
    if refs.isInverse != inverse then none
    else if !nodeIdEqual refs.referenceTypeId parentRef then none
    else
      match refs.targetIds.head?.bind fun target => store.getNode target.nodeId with
      | none => none
      | some type => if type.nodeClass = typeNodeClass then some type else none

def hasSubTypeOrInstances (node : Node) : Bool :=
  node.references.any fun refs =>
    (!refs.isInverse && nodeIdEqual refs.referenceTypeId hasSubtypeId) ||
      (refs.isInverse && nodeIdEqual refs.referenceTypeId hasTypeDefinitionId)

end OpcUa
