import OpcUa.AddressSpaceCore

/-!
Browse and BrowseNext of `ua_services_view.c` for one node. A continuation point holds the
description, the limit of the client and the place in the references of the node.
-/

namespace OpcUa

open LittleEndian StatusCode

/-- The direction is 0 for forward, 1 for inverse and 2 for both. -/
structure BrowseDescription where
  nodeId : NodeId
  browseDirection : BitVec 32
  referenceTypeId : NodeId
  includeSubtypes : Bool
  nodeClassMask : BitVec 32
  resultMask : BitVec 32
deriving DecidableEq, Repr

structure ReferenceDescription where
  referenceTypeId : NodeId
  isForward : Bool
  nodeId : ExpandedNodeId
  browseName : QualifiedName
  displayName : LocalizedText
  nodeClass : NodeClass
  typeDefinition : ExpandedNodeId
deriving DecidableEq, Repr

structure BrowseResult where
  statusCode : StatusCode
  continuationPoint : UaString
  references : List ReferenceDescription
deriving DecidableEq, Repr

def BrowseResult.init : BrowseResult := ⟨good, .null, []⟩

structure ContinuationPoint where
  identifier : UaString
  browseDescription : BrowseDescription
  maxReferences : BitVec 32
  referenceKindIndex : Nat
  targetIndex : Nat
deriving DecidableEq, Repr

structure BrowseSession where
  availableContinuationPoints : BitVec 16
  continuationPoints : List ContinuationPoint
deriving DecidableEq, Repr

structure BrowseServer where
  store : Nodestore
  maxReferencesPerNode : BitVec 32
deriving DecidableEq, Repr

/-- What comes of the allocations in a call: the array of the results, its growth to a size, the
copies for the description of a reference, and those for the continuation point. -/
structure BrowseMemory where
  array : Bool
  grows : Nat → Bool
  fills : Nat → StatusCode
  entry : Bool
  description : StatusCode
  guid : Bool
  identifier : StatusCode

def BrowseMemory.ample : BrowseMemory := ⟨true, fun _ => true, fun _ => good, true, good, true, good⟩

def ExpandedNodeId.ofNodeId (nodeId : NodeId) : ExpandedNodeId := ⟨nodeId, .null, 0⟩

/-- `fillReferenceDescription`. What the mask leaves out is zero. -/
def describeReference (store : Nodestore) (curr : Node) (ref : NodeReferenceKind)
    (mask : BitVec 32) : ReferenceDescription where
  referenceTypeId := if mask &&& 1 ≠ 0 then ref.referenceTypeId else .null
  isForward := if mask &&& 2 ≠ 0 then !ref.isInverse else false
  nodeId := .ofNodeId curr.nodeId
  browseName := if mask &&& 8 ≠ 0 then curr.browseName else ⟨0, .null⟩
  displayName := if mask &&& 16 ≠ 0 then curr.displayName else ⟨.null, .null⟩
  nodeClass := if mask &&& 4 ≠ 0 then curr.nodeClass else .unspecified
  typeDefinition :=
    if mask &&& 32 ≠ 0 ∧ (curr.nodeClass = .object ∨ curr.nodeClass = .variable) then
      match getNodeType store curr with
      | none => .ofNodeId .null
      | some type => .ofNodeId type.nodeId
    else .ofNodeId .null

def relevantReference (store : Nodestore) (includeSubtypes : Bool) (rootRef testRef : NodeId) :
    Bool :=
  if !includeSubtypes then nodeIdEqual rootRef testRef
  else isNodeInTree store testRef rootRef [hasSubtypeId]

def matchClassMask (node : Node) (nodeClassMask : BitVec 32) : Bool :=
  !(nodeClassMask != NodeClass.unspecified.code && node.nodeClass.code &&& nodeClassMask == 0)

def followsKind (store : Nodestore) (descr : BrowseDescription) (rk : NodeReferenceKind) : Bool :=
  let browseAll := nodeIdIsNull descr.referenceTypeId
  if rk.isInverse && descr.browseDirection == 0 then false
  else if !rk.isInverse && descr.browseDirection == 1 then false
  else if !browseAll && !relevantReference store descr.includeSubtypes descr.referenceTypeId
    rk.referenceTypeId then false
  else true

def maxRefs (server : BrowseServer) (maxReferences : BitVec 32) : Nat :=
  if maxReferences = 0 then
    if server.maxReferencesPerNode ≠ 0 then server.maxReferencesPerNode.toNat else int32Max
  else if server.maxReferencesPerNode ≠ 0 ∧ maxReferences > server.maxReferencesPerNode then
    server.maxReferencesPerNode.toNat
  else maxReferences.toNat

inductive TargetsEnd where
  | seen (references : List ReferenceDescription) (refsSize : Nat)
  | full (references : List ReferenceDescription) (targetIndex : Nat)
  | failed (status : StatusCode)
deriving DecidableEq, Repr

def browseTargets (store : Nodestore) (memory : BrowseMemory) (descr : BrowseDescription)
    (maxrefs : Nat) (rk : NodeReferenceKind) :
    List ExpandedNodeId → Nat → List ReferenceDescription → Nat → TargetsEnd
  | [], _, references, refsSize => .seen references refsSize
  | targetId :: targetIds, targetIndex, references, refsSize =>
    let next := browseTargets store memory descr maxrefs rk targetIds (targetIndex + 1)
    match store.getNode targetId.nodeId with
    | none => next references refsSize
    | some target =>
      if !matchClassMask target descr.nodeClassMask then next references refsSize
      else if references.length ≥ maxrefs then .full references targetIndex
      else
        let grown := if references.length ≥ refsSize then min (refsSize * 2) maxrefs
          else refsSize
        if references.length ≥ refsSize ∧ memory.grows grown = false then
          .failed badOutOfMemory
        else if memory.fills references.length ≠ good then
          .failed (memory.fills references.length)
        else
          next (references ++ [describeReference store target rk descr.resultMask]) grown

inductive KindsEnd where
  | done (references : List ReferenceDescription)
  | full (references : List ReferenceDescription) (referenceKindIndex targetIndex : Nat)
  | failed (status : StatusCode)
deriving DecidableEq, Repr

def browseKinds (store : Nodestore) (memory : BrowseMemory) (descr : BrowseDescription)
    (maxrefs : Nat) :
    List NodeReferenceKind → Nat → Nat → List ReferenceDescription → Nat → KindsEnd
  | [], _, _, references, _ => .done references
  | rk :: kinds, referenceKindIndex, targetIndex, references, refsSize =>
    if !followsKind store descr rk then
      browseKinds store memory descr maxrefs kinds (referenceKindIndex + 1) targetIndex references
        refsSize
    else
      match browseTargets store memory descr maxrefs rk (rk.targetIds.drop targetIndex)
        targetIndex references refsSize with
      | .seen references refsSize =>
        browseKinds store memory descr maxrefs kinds (referenceKindIndex + 1) 0 references refsSize
      | .full references targetIndex => .full references referenceKindIndex targetIndex
      | .failed status => .failed status

def browseReferences (server : BrowseServer) (memory : BrowseMemory) (node : Node)
    (cp : ContinuationPoint) : Bool × ContinuationPoint × BrowseResult :=
  if node.references.length = 0 then (true, cp, .init)
  else if !memory.array then (false, cp, { BrowseResult.init with statusCode := badOutOfMemory })
  else
    match browseKinds server.store memory cp.browseDescription (maxRefs server cp.maxReferences)
      (node.references.drop cp.referenceKindIndex) cp.referenceKindIndex cp.targetIndex [] 2 with
    | .done references => (true, cp, { BrowseResult.init with references })
    | .full references referenceKindIndex targetIndex =>
      (false, { cp with referenceKindIndex, targetIndex }, { BrowseResult.init with references })
    | .failed status => (false, cp, { BrowseResult.init with statusCode := status })

def browseWithContinuation (server : BrowseServer) (memory : BrowseMemory)
    (cp : ContinuationPoint) : Bool × ContinuationPoint × BrowseResult :=
  let descr := cp.browseDescription
  let fails (status : StatusCode) := (true, cp, { BrowseResult.init with statusCode := status })
  if descr.browseDirection ≠ 2 ∧ descr.browseDirection ≠ 0 ∧ descr.browseDirection ≠ 1 then
    fails badBrowseDirectionInvalid
  else if !nodeIdIsNull descr.referenceTypeId &&
    (server.store.getNode descr.referenceTypeId).all (·.nodeClass ≠ .referenceType) then
    fails badReferenceTypeIdInvalid
  else
    match server.store.getNode descr.nodeId with
    | none => fails badNodeIdUnknown
    | some node => browseReferences server memory node cp

def firstPoint (maxrefs : BitVec 32) (descr : BrowseDescription) : ContinuationPoint :=
  ⟨.null, descr, maxrefs, 0, 0⟩

/-- `Operation_Browse`. The random identifier of a new continuation point is an argument. -/
def operationBrowse (server : BrowseServer) (memory : BrowseMemory) (random : Guid)
    (session : BrowseSession) (maxrefs : BitVec 32) (descr : BrowseDescription) :
    BrowseResult × BrowseSession :=
  match browseWithContinuation server memory (firstPoint maxrefs descr) with
  | (done, cp, result) =>
    let fails (status : StatusCode) := ({ BrowseResult.init with statusCode := status }, session)
    if done ∨ result.statusCode ≠ good then (result, session)
    else if session.availableContinuationPoints = 0 ∨ memory.entry = false then
      fails badNoContinuationPoints
    else if memory.description ≠ good then fails memory.description
    else if !memory.guid then fails badOutOfMemory
    else if memory.identifier ≠ good then fails memory.identifier
    else
      let identifier := UaString.alloc random.memory
      ({ result with continuationPoint := identifier },
        { availableContinuationPoints := session.availableContinuationPoints - 1
          continuationPoints := { cp with identifier } :: session.continuationPoints })

def removeCp (identifier : UaString) (session : BrowseSession) : BrowseSession where
  availableContinuationPoints := session.availableContinuationPoints + 1
  continuationPoints := session.continuationPoints.eraseP fun cp =>
    stringEqual cp.identifier identifier

def replaceCp (changed : ContinuationPoint) (identifier : UaString) :
    List ContinuationPoint → List ContinuationPoint
  | [] => []
  | cp :: rest =>
    if stringEqual cp.identifier identifier then changed :: rest
    else cp :: replaceCp changed identifier rest

def operationBrowseNext (server : BrowseServer) (memory : BrowseMemory) (session : BrowseSession)
    (releaseContinuationPoints : Bool) (continuationPoint : UaString) :
    BrowseResult × BrowseSession :=
  match session.continuationPoints.find? fun cp => stringEqual cp.identifier continuationPoint with
  | none => ({ BrowseResult.init with statusCode := badContinuationPointInvalid }, session)
  | some cp =>
    if releaseContinuationPoints then (.init, removeCp continuationPoint session)
    else
      match browseWithContinuation server memory cp with
      | (done, changed, result) =>
        if done then (result, removeCp continuationPoint session)
        else
          let session := { session with
            continuationPoints := replaceCp changed continuationPoint session.continuationPoints }
          if memory.identifier = good then
            ({ result with continuationPoint := cp.identifier }, session)
          else ({ BrowseResult.init with statusCode := memory.identifier }, session)

end OpcUa
