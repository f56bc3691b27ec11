import OpcUa.BrowseCore

/-!
`TranslateBrowsePathsToNodeIds` of `ua_services_view.c` for one path. The walk takes the elements
of the path one after the other, from an array of nodes to the next one. The array of the results
grows on the way for targets on other servers, and at the end for the nodes that are left.

A function returns `none` where the source fails an assertion or writes behind an array.
-/

namespace OpcUa

open StatusCode

structure RelativePathElement where
  referenceTypeId : NodeId
  isInverse : Bool
  includeSubtypes : Bool
  targetName : QualifiedName
deriving DecidableEq, Repr

structure RelativePath where
  elements : List RelativePathElement
  short : elements.length < 2 ^ 32

structure BrowsePath where
  startingNode : NodeId
  relativePath : RelativePath

structure BrowsePathTarget where
  targetId : ExpandedNodeId
  remainingPathIndex : BitVec 32
deriving DecidableEq, Repr

structure BrowsePathResult where
  statusCode : StatusCode
  targets : List BrowsePathTarget
deriving DecidableEq, Repr

def uint32Max : BitVec 32 := 0xFFFFFFFF

def qualifiedNameIsNull (name : QualifiedName) : Bool :=
  name.namespaceIndex == 0 && name.name.bytes.length == 0

def namesEqual (first second : QualifiedName) : Bool :=
  first.namespaceIndex == second.namespaceIndex && stringEqual first.name second.name

/-- The result, the array of nodes for the next element, and how much room the arrays have. The
number of allocations so far tells which one is next. -/
structure PathWalk where
  statusCode : StatusCode
  targets : List BrowsePathTarget
  targetsSize : Nat
  next : List NodeId
  nextSize : Nat
  allocations : Nat
deriving DecidableEq, Repr

section Walk

variable (store : Nodestore) (memory : Nat → Bool)

/-- The argument tells which allocations find memory. A copy of an id counts as one. -/
def walkBrowsePathElementReferenceTargets : List ExpandedNodeId → PathWalk → Option PathWalk
  | [], walk => some walk
  | targetId :: targetIds, walk =>
    if targetId.serverIndex ≠ 0 then
      if !memory walk.allocations then
        some { walk with statusCode := badOutOfMemory, allocations := walk.allocations + 1 }
      else if walk.targets.length ≥ walk.targetsSize * 2 then none
      else
        -- The target is written behind the last one of the result, but it is not counted.
        walkBrowsePathElementReferenceTargets targetIds { walk with
          targetsSize := walk.targetsSize * 2
          statusCode := if memory (walk.allocations + 1) then good else badOutOfMemory
          allocations := walk.allocations + 2 }
    else
      let full := walk.nextSize ≤ walk.next.length
      let nextSize := if full then walk.nextSize * 2 else walk.nextSize
      let allocations := if full then walk.allocations + 1 else walk.allocations
      if full ∧ memory walk.allocations = false then
        some { walk with statusCode := badOutOfMemory, allocations := walk.allocations + 1 }
      else if walk.next.length ≥ nextSize then none
      else if !memory allocations then
        some { walk with
          statusCode := badOutOfMemory, nextSize, allocations := allocations + 1 }
      else
        walkBrowsePathElementReferenceTargets targetIds { walk with
          statusCode := good
          next := walk.next ++ [targetId.nodeId]
          nextSize
          allocations := allocations + 1 }

def RelativePathElement.follows (elem : RelativePathElement) (rk : NodeReferenceKind) : Bool :=
  rk.isInverse == elem.isInverse && (nodeIdIsNull elem.referenceTypeId ||
      relevantReference store elem.includeSubtypes elem.referenceTypeId rk.referenceTypeId)

def walkReferences (elem : RelativePathElement) :
    List NodeReferenceKind → PathWalk → Option PathWalk
  | [], walk => some walk
  | rk :: kinds, walk =>
    if walk.statusCode ≠ good then some walk
    else if !elem.follows store rk then walkReferences elem kinds walk
    else do
      let walk ← walkBrowsePathElementReferenceTargets memory rk.targetIds walk
      walkReferences elem kinds walk

def RelativePathElement.isTyped (elem : RelativePathElement) : Bool :=
  nodeIdIsNull elem.referenceTypeId ||
    (store.getNode elem.referenceTypeId).any (·.nodeClass = .referenceType)

def walkNodes (nodeClassMask : BitVec 32) (elem : RelativePathElement) (elemDepth : Nat)
    (targetName : Option QualifiedName) : List NodeId → PathWalk → Option PathWalk
  | [], walk => some walk
  | nodeId :: current, walk =>
    match store.getNode nodeId with
    | none =>
      walkNodes nodeClassMask elem elemDepth targetName current
        (if elemDepth = 0 then { walk with statusCode := badNodeIdUnknown } else walk)
    | some node =>
      if !matchClassMask node nodeClassMask then
        walkNodes nodeClassMask elem elemDepth targetName current walk
      else if targetName.any fun name => !namesEqual name node.browseName then
        walkNodes nodeClassMask elem elemDepth targetName current walk
      else do
        let walk ← walkReferences store memory elem node.references walk
        walkNodes nodeClassMask elem elemDepth targetName current walk

def walkBrowsePathElement (nodeClassMask : BitVec 32) (elem : RelativePathElement)
    (elemDepth : Nat) (targetName : Option QualifiedName) (current : List NodeId)
    (walk : PathWalk) : Option PathWalk :=
  if !elem.isTyped store then some walk
  else walkNodes store memory nodeClassMask elem elemDepth targetName current walk

def addBrowsePathTargets (nodeClassMask : BitVec 32) (targetName : QualifiedName) (size : Nat) :
    List NodeId → List BrowsePathTarget → Option (List BrowsePathTarget)
  | [], targets => some targets
  | nodeId :: current, targets =>
    match store.getNode nodeId with
    | none => addBrowsePathTargets nodeClassMask targetName size current targets
    | some node =>
      if !matchClassMask node nodeClassMask || !namesEqual targetName node.browseName then
        addBrowsePathTargets nodeClassMask targetName size current targets
      else if targets.length ≥ size then none
      else
        addBrowsePathTargets nodeClassMask targetName size current
          (targets ++ [⟨.ofNodeId nodeId, uint32Max⟩])

def finishBrowsePath (nodeClassMask : BitVec 32) (targetName : Option QualifiedName)
    (current : List NodeId) (walk : PathWalk) : Option PathWalk := do
  let targetName ← targetName
  let needed := walk.targets.length + current.length
  if walk.targetsSize < needed ∧ memory walk.allocations = false then
    some { walk with statusCode := badOutOfMemory }
  else
    let targets ← addBrowsePathTargets store nodeClassMask targetName
      (if walk.targetsSize < needed then needed else walk.targetsSize) current walk.targets
    some { walk with targets }

/-- The loop over the elements from a depth on. The two arrays of nodes are exchanged. -/
def walkBrowsePath (nodeClassMask : BitVec 32) :
    List RelativePathElement → Nat → Option QualifiedName → List NodeId → Nat → PathWalk →
      Option PathWalk
  | [], _, targetName, current, _, walk =>
    finishBrowsePath store memory nodeClassMask targetName current walk
  | elem :: elements, elemDepth, targetName, current, currentSize, walk => do
    let walk ← walkBrowsePathElement store memory nodeClassMask elem elemDepth targetName current
      walk
    if walk.next = [] then some walk
    else if walk.statusCode ≠ good then none
    else
      walkBrowsePath nodeClassMask elements (elemDepth + 1) (some elem.targetName) walk.next
        walk.nextSize { walk with next := [], nextSize := currentSize }

def PathWalk.result (walk : PathWalk) : BrowsePathResult :=
  let statusCode := if walk.targets = [] ∧ walk.statusCode = good then badNoMatch
    else walk.statusCode
  if statusCode ≠ good then ⟨statusCode, []⟩ else ⟨good, walk.targets⟩

def operationTranslateBrowsePathToNodeIds (nodeClassMask : BitVec 32) (path : BrowsePath) :
    Option BrowsePathResult :=
  let elements := path.relativePath.elements
  if elements.length ≤ 0 then some ⟨badNothingToDo, []⟩
  else if elements.any (qualifiedNameIsNull ·.targetName) then some ⟨badBrowseNameInvalid, []⟩
  else if !memory 0 || !memory 1 || !memory 2 || !memory 3 then some ⟨badOutOfMemory, []⟩
  else do
    let walk ← walkBrowsePath store memory nodeClassMask elements 0 none [path.startingNode] 10
      ⟨good, [], 10, [], 10, 4⟩
    some walk.result

/-- The call of the service and of `UA_Server_translateBrowsePathToNodeIds`, for all classes. -/
def translateBrowsePathToNodeIds (path : BrowsePath) : Option BrowsePathResult :=
  operationTranslateBrowsePathToNodeIds store memory 0 path

end Walk

end OpcUa
