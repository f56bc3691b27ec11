import OpcUa.AttributeCore
import OpcUa.NodeEditing

/-!
`UA_Node_copy` for the eight classes of nodes, and `UA_Server_editNode` in its two variants: on the
node itself, and on a copy that replaces the node. Functions and items stand for themselves by their
addresses, where zero is none. A copy of a value of a data type reads the same as the value.
-/

namespace OpcUa

open DoubleHashing NodeMap StatusCode

variable {Content : Type}
variable {Result : Type}

structure ValueCallback where
  onRead : Nat
  onWrite : Nat
deriving DecidableEq

structure DataSource where
  read : Nat
  write : Nat
deriving DecidableEq

structure NodeTypeLifecycle where
  constructor : Nat
  destructor : Nat
deriving DecidableEq

inductive VariableContent where
  | data (value : DataValue) (callback : ValueCallback)
  | dataSource (source : DataSource)

structure CommonVariable where
  dataType : NodeId
  valueRank : Int
  arrayDimensions : List (BitVec 32)
  value : VariableContent

structure ObjectNode where
  monitoredItemQueue : Nat
  eventNotifier : BitVec 8

structure VariableNode where
  common : CommonVariable
  accessLevel : BitVec 8
  minimumSamplingInterval : BitVec 64
  historizing : Bool

structure VariableTypeNode where
  common : CommonVariable
  isAbstract : Bool
  lifecycle : NodeTypeLifecycle

structure MethodNode where
  executable : Bool
  method : Nat

structure ObjectTypeNode where
  isAbstract : Bool
  lifecycle : NodeTypeLifecycle

structure ReferenceTypeNode where
  isAbstract : Bool
  symmetric : Bool
  inverseName : LocalizedText

structure DataTypeNode where
  isAbstract : Bool

structure ViewNode where
  eventNotifier : BitVec 8
  containsNoLoops : Bool

inductive NodeContent where
  | object (node : ObjectNode)
  | variable (node : VariableNode)
  | method (node : MethodNode)
  | objectType (node : ObjectTypeNode)
  | variableType (node : VariableTypeNode)
  | referenceType (node : ReferenceTypeNode)
  | dataType (node : DataTypeNode)
  | view (node : ViewNode)

/-- `UA_NODE_BASEATTRIBUTES` with the content of the class. The id of a node is in its entry. -/
structure UaNode where
  browseName : QualifiedName
  displayName : LocalizedText
  description : LocalizedText
  writeMask : BitVec 32
  references : List NodeReferenceKind
  context : Nat
  content : NodeContent

def NodeContent.nodeClass : NodeContent → NodeClass
  | .object _ => .object
  | .variable _ => .variable
  | .method _ => .method
  | .objectType _ => .objectType
  | .variableType _ => .variableType
  | .referenceType _ => .referenceType
  | .dataType _ => .dataType
  | .view _ => .view

structure CopyMemory where
  nodeId : Bool
  browseName : Bool
  displayName : Bool
  description : Bool
  references : Bool
  referenceTypeId : NodeReferenceKind → Bool
  targetIds : NodeReferenceKind → Bool
  arrayDimensions : Bool
  dataType : Bool
  value : Bool
  inverseName : Bool

def CopyMemory.enough : CopyMemory :=
  ⟨true, true, true, true, true, fun _ => true, fun _ => true, true, true, true, true⟩

def deepCopy {Content : Type} (memory : Bool) (content : Content) : Except StatusCode Content :=
  if memory then .ok content else .error badOutOfMemory

/-! A new entry has zeros everywhere. -/

def CommonVariable.zero : CommonVariable where
  dataType := .null
  valueRank := 0
  arrayDimensions := []
  value := .data ⟨⟨none, none, none, none, none⟩, false, .variantEmpty⟩ ⟨0, 0⟩

def NodeContent.zero : NodeContent → NodeContent
  | .object _ => .object ⟨0, 0⟩
  | .variable _ => .variable ⟨.zero, 0, 0, false⟩
  | .method _ => .method ⟨false, 0⟩
  | .objectType _ => .objectType ⟨false, ⟨0, 0⟩⟩
  | .variableType _ => .variableType ⟨.zero, false, ⟨0, 0⟩⟩
  | .referenceType _ => .referenceType ⟨false, false, ⟨.null, .null⟩⟩
  | .dataType _ => .dataType ⟨false⟩
  | .view _ => .view ⟨0, false⟩

def UaNode.zero (content : NodeContent) : UaNode :=
  ⟨⟨0, .null⟩, ⟨.null, .null⟩, ⟨.null, .null⟩, 0, [], 0, content.zero⟩

def ObjectNode.copy (src dst : ObjectNode) : Except StatusCode ObjectNode :=
  .ok { dst with eventNotifier := src.eventNotifier }

def VariableContent.copy (memory : CopyMemory) : VariableContent → Except StatusCode VariableContent
  | .data value callback => do
    let value ← deepCopy memory.value value
    pure (.data value callback)
  | .dataSource source => pure (.dataSource source)

def CommonVariable.copy (memory : CopyMemory) (src dst : CommonVariable) :
    Except StatusCode CommonVariable := do
  let arrayDimensions ← deepCopy memory.arrayDimensions src.arrayDimensions
  let dataType ← deepCopy memory.dataType src.dataType
  let value ← src.value.copy memory
  pure { dst with arrayDimensions, dataType, valueRank := src.valueRank, value }

def VariableNode.copy (memory : CopyMemory) (src dst : VariableNode) :
    Except StatusCode VariableNode := do
  let common ← src.common.copy memory dst.common
  pure { dst with
    common
    accessLevel := src.accessLevel
    minimumSamplingInterval := src.minimumSamplingInterval
    historizing := src.historizing }

def VariableTypeNode.copy (memory : CopyMemory) (src dst : VariableTypeNode) :
    Except StatusCode VariableTypeNode := do
  let common ← src.common.copy memory dst.common
  pure { dst with common, isAbstract := src.isAbstract }

def MethodNode.copy (src dst : MethodNode) : Except StatusCode MethodNode :=
  .ok { dst with executable := src.executable, method := src.method }

def ObjectTypeNode.copy (src dst : ObjectTypeNode) : Except StatusCode ObjectTypeNode :=
  .ok { dst with isAbstract := src.isAbstract, lifecycle := src.lifecycle }

def ReferenceTypeNode.copy (memory : CopyMemory) (src dst : ReferenceTypeNode) :
    Except StatusCode ReferenceTypeNode := do
  let inverseName ← deepCopy memory.inverseName src.inverseName
  pure { dst with inverseName, isAbstract := src.isAbstract, symmetric := src.symmetric }

def DataTypeNode.copy (src dst : DataTypeNode) : Except StatusCode DataTypeNode :=
  .ok { dst with isAbstract := src.isAbstract }

def ViewNode.copy (src dst : ViewNode) : Except StatusCode ViewNode :=
  .ok { dst with containsNoLoops := src.containsNoLoops, eventNotifier := src.eventNotifier }

def NodeContent.copy (memory : CopyMemory) : NodeContent → NodeContent →
    Except StatusCode NodeContent
  | .object src, .object dst => .object <$> src.copy dst
  | .variable src, .variable dst => .variable <$> src.copy memory dst
  | .method src, .method dst => .method <$> src.copy dst
  | .objectType src, .objectType dst => .objectType <$> src.copy dst
  | .variableType src, .variableType dst => .variableType <$> src.copy memory dst
  | .referenceType src, .referenceType dst => .referenceType <$> src.copy memory dst
  | .dataType src, .dataType dst => .dataType <$> src.copy dst
  | .view src, .view dst => .view <$> src.copy dst
  | _, _ => .error badInternalError

def NodeReferenceKind.copy (memory : CopyMemory) (srefs : NodeReferenceKind) :
    Except StatusCode NodeReferenceKind := do
  let referenceTypeId ← deepCopy (memory.referenceTypeId srefs) srefs.referenceTypeId
  let targetIds ← deepCopy (memory.targetIds srefs) srefs.targetIds
  pure ⟨referenceTypeId, srefs.isInverse, targetIds⟩

def UaNode.copy (memory : CopyMemory) (src dst : UaNode) : Except StatusCode UaNode :=
  if src.content.nodeClass ≠ dst.content.nodeClass then .error badInternalError
  else do
    let _ ← deepCopy memory.nodeId ()
    let browseName ← deepCopy memory.browseName src.browseName
    let displayName ← deepCopy memory.displayName src.displayName
    let description ← deepCopy memory.description src.description
    let kinds ← deepCopy (src.references.isEmpty || memory.references) src.references
    let references ← kinds.mapM (NodeReferenceKind.copy memory)
    let content ← src.content.copy memory dst.content
    pure ⟨browseName, displayName, description, src.writeMask, references, src.context, content⟩

abbrev EditNodeCallback := UaNode → StatusCode × UaNode

structure NodeEdit where
  nodeId : NodeId
  callback : EditNodeCallback
  addresses : List Nat
  memory : CopyMemory

/-- One round of the loop of `UA_Server_editNode` for nodes that are immutable, and whether it came
as far as the replacement. -/
def editRound (nodeId : NodeId) (callback : EditNodeCallback) (memory : CopyMemory)
    (address : Option Nat) (ns : NodeMap UaNode) :
    Except NodeMapFault (StatusCode × NodeMap UaNode × Bool) :=
  match ns.getNode nodeId, address with
  | .error fault, _ => .error fault
  | .ok none, _ => .ok (badNodeIdUnknown, ns, false)
  | .ok (some _), none => .ok (badOutOfMemory, ns, false)
  | .ok (some entry), some address =>
    match entry.node.copy memory (.zero entry.node.content) with
    | .error status => .ok (status, ns, false)
    | .ok copy =>
      let (status, node) := callback copy
      if status ≠ good then .ok (status, ns, false)
      else
        match ns.replaceNode ⟨address, some entry.address, entry.nodeId, node⟩ with
        | .error fault => .error fault
        | .ok (status, ns) => .ok (status, ns, true)

/-- `UA_Server_editNode` for nodes that are immutable. A replacement that fails starts again. -/
def editNodeCopy (nodeId : NodeId) (callback : EditNodeCallback) (memory : CopyMemory)
    (ns : NodeMap UaNode) : List Nat → Except NodeMapFault (StatusCode × NodeMap UaNode)
  | [] =>
    match editRound nodeId callback memory none ns with
    | .error fault => .error fault
    | .ok (status, ns, _) => .ok (status, ns)
  | address :: addresses =>
    match editRound nodeId callback memory (some address) ns with
    | .error fault => .error fault
    | .ok (status, ns, replaced) =>
      if replaced && status != good then editNodeCopy nodeId callback memory ns addresses
      else .ok (status, ns)

def editNodeInPlace (nodeId : NodeId) (callback : EditNodeCallback) (ns : NodeMap UaNode) :
    Except NodeMapFault (StatusCode × NodeMap UaNode) :=
  match ns.findOccupiedSlot nodeId with
  | .error fault => .error fault
  | .ok none => .ok (badNodeIdUnknown, ns)
  | .ok (some slot) =>
    match slotAt ns.entries slot with
    | .entry entry =>
      let (status, node) := callback entry.node
      .ok (status, ⟨ns.entries.set slot (.entry { entry with node }), ns.count⟩)
    | _ => .ok (badNodeIdUnknown, ns)

/-! What a copy has -/

variable {action : Except StatusCode Content}

theorem bind_ok {next : Content → Except StatusCode Result} {result : Result}
    (succeeds : action >>= next = .ok result) :
    ∃ content, action = .ok content ∧ next content = .ok result := by
  cases action with
  | error status => cases succeeds
  | ok content => exact ⟨content, rfl, succeeds⟩

theorem map_ok {wrap : Content → Result} {result : Result} (succeeds : wrap <$> action = .ok result)
    : ∃ content, action = .ok content ∧ wrap content = result := by
  cases action with
  | error status => cases succeeds
  | ok content => exact ⟨content, rfl, Except.ok.inj succeeds⟩

theorem deepCopy_ok {memory : Bool} {content copy : Content}
    (succeeds : deepCopy memory content = .ok copy) : copy = content := by
  rw [deepCopy] at succeeds
  split at succeeds
  · exact (Except.ok.inj succeeds).symm
  · cases succeeds

section Copies

variable {memory : CopyMemory}

theorem VariableContent.copy_ok {src copy : VariableContent}
    (succeeds : src.copy memory = .ok copy) : copy = src := by
  cases src with
  | data value callback =>
    obtain ⟨kept, copied, succeeds⟩ := bind_ok succeeds
    cases deepCopy_ok copied
    cases succeeds
    rfl
  | dataSource source =>
    cases succeeds
    rfl

theorem CommonVariable.copy_ok {src dst copy : CommonVariable}
    (succeeds : src.copy memory dst = .ok copy) : copy = src := by
  obtain ⟨arrayDimensions, first, succeeds⟩ := bind_ok succeeds
  obtain ⟨dataType, second, succeeds⟩ := bind_ok succeeds
  obtain ⟨value, third, succeeds⟩ := bind_ok succeeds
  cases deepCopy_ok first
  cases deepCopy_ok second
  cases VariableContent.copy_ok third
  cases succeeds
  rfl

def NodeContent.kept : NodeContent → NodeContent
  | .object node => .object { node with monitoredItemQueue := 0 }
  | .variableType node => .variableType { node with lifecycle := ⟨0, 0⟩ }
  | content => content

theorem NodeContent.copy_ok {src copy : NodeContent}
    (succeeds : src.copy memory src.zero = .ok copy) : copy = src.kept := by
  cases src with
  | object node =>
    cases succeeds
    rfl
  | «variable» node =>
    obtain ⟨copied, runs, rfl⟩ := map_ok succeeds
    obtain ⟨common, first, runs⟩ := bind_ok runs
    cases CommonVariable.copy_ok first
    cases runs
    rfl
  | method node =>
    cases succeeds
    rfl
  | objectType node =>
    cases succeeds
    rfl
  | variableType node =>
    obtain ⟨copied, runs, rfl⟩ := map_ok succeeds
    obtain ⟨common, first, runs⟩ := bind_ok runs
    cases CommonVariable.copy_ok first
    cases runs
    rfl
  | referenceType node =>
    obtain ⟨copied, runs, rfl⟩ := map_ok succeeds
    obtain ⟨inverseName, first, runs⟩ := bind_ok runs
    cases deepCopy_ok first
    cases runs
    rfl
  | dataType node =>
    cases succeeds
    rfl
  | view node =>
    cases succeeds
    rfl

theorem NodeReferenceKind.copy_ok {srefs copy : NodeReferenceKind}
    (succeeds : srefs.copy memory = .ok copy) : copy = srefs := by
  obtain ⟨referenceTypeId, first, succeeds⟩ := bind_ok succeeds
  obtain ⟨targetIds, second, succeeds⟩ := bind_ok succeeds
  cases deepCopy_ok first
  cases deepCopy_ok second
  cases succeeds
  rfl

theorem copyKinds_ok {kinds copies : List NodeReferenceKind}
    (succeeds : kinds.mapM (NodeReferenceKind.copy memory) = .ok copies) : copies = kinds := by
  induction kinds generalizing copies with
  | nil =>
    cases succeeds
    rfl
  | cons kind kinds ih =>
    rw [List.mapM_cons] at succeeds
    obtain ⟨first, copied, succeeds⟩ := bind_ok succeeds
    obtain ⟨rest, others, succeeds⟩ := bind_ok succeeds
    cases NodeReferenceKind.copy_ok copied
    cases ih others
    cases succeeds
    rfl

theorem NodeContent.zero_nodeClass (content : NodeContent) :
    content.zero.nodeClass = content.nodeClass := by
  cases content with
  | _ => rfl

theorem UaNode.copy_ok {src copy : UaNode}
    (succeeds : src.copy memory (.zero src.content) = .ok copy) :
    copy = { src with content := src.content.kept } := by
  have same : src.content.nodeClass = (UaNode.zero src.content).content.nodeClass :=
    src.content.zero_nodeClass.symm
  rw [UaNode.copy, if_neg (not_not.mpr same)] at succeeds
  obtain ⟨-, -, succeeds⟩ := bind_ok succeeds
  obtain ⟨browseName, first, succeeds⟩ := bind_ok succeeds
  obtain ⟨displayName, second, succeeds⟩ := bind_ok succeeds
  obtain ⟨description, third, succeeds⟩ := bind_ok succeeds
  obtain ⟨kinds, fourth, succeeds⟩ := bind_ok succeeds
  obtain ⟨references, fifth, succeeds⟩ := bind_ok succeeds
  obtain ⟨content, sixth, succeeds⟩ := bind_ok succeeds
  cases deepCopy_ok first
  cases deepCopy_ok second
  cases deepCopy_ok third
  cases deepCopy_ok fourth
  cases copyKinds_ok fifth
  cases NodeContent.copy_ok sixth
  cases succeeds
  rfl

end Copies

def UaNode.CopiedFully (node : UaNode) : Prop :=
  match node.content with
  | .object node => node.monitoredItemQueue = 0
  | .variableType node => node.lifecycle = ⟨0, 0⟩
  | _ => True

theorem UaNode.copiedFully_iff (node : UaNode) :
    { node with content := node.content.kept } = node ↔ node.CopiedFully := by
  obtain ⟨browseName, displayName, description, writeMask, references, context, content⟩ := node
  rw [UaNode.mk.injEq]
  simp only [true_and]
  cases content with
  | object node =>
    obtain ⟨monitoredItemQueue, eventNotifier⟩ := node
    simp only [NodeContent.kept, CopiedFully, NodeContent.object.injEq, ObjectNode.mk.injEq,
      and_true]
    exact eq_comm
  | variableType node =>
    obtain ⟨common, isAbstract, lifecycle⟩ := node
    simp only [NodeContent.kept, CopiedFully, NodeContent.variableType.injEq,
      VariableTypeNode.mk.injEq, true_and]
    exact eq_comm
  | _ => exact iff_of_true rfl trivial

/-! What an edit does -/

abbrev NodeContents := NodeId → Option UaNode

def contents (history : List (NodeMapEvent UaNode)) : NodeContents :=
  fun nodeId => (lookup history nodeId).map NodeMapEntry.node

def NodeContents.update (stored : NodeContents) (nodeId : NodeId) (node : UaNode) : NodeContents :=
  fun other => if nodeIdEqual nodeId other then some node else stored other

/-- The purpose of `UA_Server_editNode`: the callback is run on the stored node. -/
def NodeContents.edit (stored : NodeContents) (nodeId : NodeId) (callback : EditNodeCallback) :
    StatusCode × NodeContents :=
  match stored nodeId with
  | none => (badNodeIdUnknown, stored)
  | some node => ((callback node).1, stored.update nodeId (callback node).2)

structure Edits (node : UaNode) (callback : EditNodeCallback) (memory : CopyMemory) : Prop where
  copies : ∃ copy, node.copy memory (.zero node.content) = .ok copy
  restores : (callback node).1 ≠ good → (callback node).2 = node

section Edits

variable {ns : NodeMap UaNode} {history : List (NodeMapEvent UaNode)} {nodeId : NodeId}
variable {entry : NodeMapEntry UaNode} {memory : CopyMemory}
variable {addresses : List Nat}

theorem nodeIdEqual_congr {first second : NodeId} (same : nodeIdEqual first second = true)
    (other : NodeId) : nodeIdEqual first other = nodeIdEqual second other := by
  rw [Bool.eq_iff_iff, nodeIdEqual_iff, nodeIdEqual_iff, (nodeIdEqual_iff _ _).mp same]

theorem contents_stored (same : nodeIdEqual entry.nodeId nodeId = true) :
    contents (.stored entry :: history) = (contents history).update nodeId entry.node := by
  funext other
  rw [contents, NodeContents.update, lookup, nodeIdEqual_congr same other]
  split
  · rfl
  · rfl

section

variable (represents : Represents ns history)
include represents

theorem update_same (found : lookup history nodeId = some entry) :
    (contents history).update nodeId entry.node = contents history := by
  obtain ⟨slot, here, same⟩ := (represents.agrees nodeId entry).mpr found
  funext other
  rw [NodeContents.update]
  split
  · rename_i equal
    have also : lookup history other = some entry :=
      (represents.agrees other entry).mp ⟨slot, here, nodeIdHashing.trans same equal⟩
    rw [contents, also]
    rfl
  · rfl

theorem editNodeInPlace_spec (nodeId : NodeId) (callback : EditNodeCallback) :
    ∃ next later, editNodeInPlace nodeId callback ns =
        .ok (((contents history).edit nodeId callback).1, next) ∧
      Represents next later ∧ contents later = ((contents history).edit nodeId callback).2 := by
  rw [editNodeInPlace, NodeContents.edit, contents]
  rcases findOccupiedSlot_spec represents nodeId with
    ⟨search, missing⟩ | ⟨slot, entry, search, here, same, found⟩
  · rw [search, missing]
    exact ⟨ns, history, rfl, represents, rfl⟩
  · rw [search, found]
    dsimp only
    rw [here]
    exact ⟨_, _, rfl, represents.replaced here (nodeIdEqual_refl _), contents_stored same⟩

theorem editRound_spec (found : lookup history nodeId = some entry) (callback : EditNodeCallback)
    {copy : UaNode} (copied : entry.node.copy memory (.zero entry.node.content) = .ok copy)
    (address : Nat) :
    ∃ next replaced later, editRound nodeId callback memory (some address) ns =
        .ok ((callback copy).1, next, replaced) ∧
      (replaced = true → (callback copy).1 = good) ∧ Represents next later ∧
      contents later = if (callback copy).1 = good
        then (contents history).update nodeId (callback copy).2 else contents history := by
  obtain ⟨slot, here, same⟩ := (represents.agrees nodeId entry).mpr found
  unfold editRound
  rw [getNode_spec represents, found]
  dsimp only
  rw [copied]
  dsimp only
  split
  · refine ⟨ns, false, history, rfl, ?_, represents, rfl⟩
    intro replaced
    cases replaced
  · rename_i succeeded
    rw [not_not] at succeeded
    rw [if_pos succeeded]
    let edited : NodeMapEntry UaNode :=
      ⟨address, some entry.address, entry.nodeId, (callback copy).2⟩
    obtain ⟨status, next, runs, stored⟩ := replaceNode_outcome represents edited
    let editing : NodeEditing UaNode := ⟨ns, history, [], [], []⟩
    have represents : NodeMap.Represents editing.ns editing.history := represents
    obtain ⟨other, after, also, original, -⟩ :=
      NodeEditing.replaceNode_status represents ⟨edited, 0⟩
    rw [runs] at also
    cases also
    have replaced : status = good :=
      original.mpr ⟨entry, (NodeEditing.lookup_self represents found).2, rfl⟩
    rw [if_pos replaced] at stored
    rw [runs]
    refine ⟨next, true, _, ?_, fun _ => succeeded, stored, contents_stored same⟩
    rw [replaced, succeeded]

theorem editNodeCopy_spec (found : lookup history nodeId = some entry) (callback : EditNodeCallback)
    {copy : UaNode} (copied : entry.node.copy memory (.zero entry.node.content) = .ok copy)
    (room : addresses ≠ []) :
    ∃ next later, editNodeCopy nodeId callback memory ns addresses =
        .ok ((callback copy).1, next) ∧ Represents next later ∧
      contents later = if (callback copy).1 = good
        then (contents history).update nodeId (callback copy).2 else contents history := by
  cases addresses with
  | nil => exact absurd rfl room
  | cons address addresses =>
    obtain ⟨next, replaced, later, runs, last, kept, same⟩ :=
      editRound_spec represents found callback copied address
    refine ⟨next, later, ?_, kept, same⟩
    rw [editNodeCopy, runs]
    dsimp only
    rw [if_neg]
    intro again
    rw [Bool.and_eq_true, bne_iff_ne] at again
    exact again.2 (last again.1)

theorem editRound_missing (missing : lookup history nodeId = none) (callback : EditNodeCallback)
    (memory : CopyMemory) (address : Option Nat) :
    editRound nodeId callback memory address ns = .ok (badNodeIdUnknown, ns, false) := by
  unfold editRound
  rw [getNode_spec represents, missing]

theorem editNodeCopy_missing (missing : lookup history nodeId = none) (callback : EditNodeCallback)
    (memory : CopyMemory) (addresses : List Nat) :
    editNodeCopy nodeId callback memory ns addresses = .ok (badNodeIdUnknown, ns) := by
  cases addresses with
  | nil => rw [editNodeCopy, editRound_missing represents missing]
  | cons address addresses =>
    rw [editNodeCopy, editRound_missing represents missing]
    rfl

theorem editNodeCopy_edits (callback : EditNodeCallback) (room : addresses ≠ [])
    (fully : ∀ entry, lookup history nodeId = some entry → entry.node.CopiedFully ∧
      Edits entry.node callback memory) :
    ∃ next later, editNodeCopy nodeId callback memory ns addresses =
        .ok (((contents history).edit nodeId callback).1, next) ∧
      Represents next later ∧ contents later = ((contents history).edit nodeId callback).2 := by
  cases found : lookup history nodeId with
  | none =>
    have missing : contents history nodeId = none := by rw [contents, found, Option.map_none]
    rw [NodeContents.edit, missing]
    exact ⟨ns, history, editNodeCopy_missing represents found callback memory addresses,
      represents, rfl⟩
  | some entry =>
    have stored : contents history nodeId = some entry.node := by
      rw [contents, found, Option.map_some]
    rw [NodeContents.edit, stored]
    obtain ⟨complete, edits⟩ := fully entry found
    obtain ⟨copy, copied⟩ := edits.copies
    have same : copy = entry.node :=
      (UaNode.copy_ok copied).trans (entry.node.copiedFully_iff.mpr complete)
    subst same
    obtain ⟨next, later, runs, kept, result⟩ :=
      editNodeCopy_spec represents found callback copied room
    refine ⟨next, later, runs, kept, ?_⟩
    rw [result]
    split
    · rfl
    · rename_i failed
      dsimp only
      rw [edits.restores failed, update_same represents found]

end

end Edits

def NodeEdit.onCopy (edit : NodeEdit) (ns : NodeMap UaNode) :
    Except NodeMapFault (StatusCode × NodeMap UaNode) :=
  editNodeCopy edit.nodeId edit.callback edit.memory ns edit.addresses

def NodeEdit.inPlace (edit : NodeEdit) (ns : NodeMap UaNode) :
    Except NodeMapFault (StatusCode × NodeMap UaNode) :=
  editNodeInPlace edit.nodeId edit.callback ns

def editNodes (variant : NodeEdit → NodeMap UaNode →
    Except NodeMapFault (StatusCode × NodeMap UaNode)) :
    NodeMap UaNode → List NodeEdit → Except NodeMapFault (List StatusCode × NodeMap UaNode)
  | ns, [] => .ok ([], ns)
  | ns, edit :: edits =>
    match variant edit ns with
    | .error fault => .error fault
    | .ok (status, ns) =>
      match editNodes variant ns edits with
      | .error fault => .error fault
      | .ok (statuses, ns) => .ok (status :: statuses, ns)

def getContent (ns : NodeMap UaNode) (nodeId : NodeId) : Except NodeMapFault (Option UaNode) :=
  (ns.getNode nodeId).map (Option.map NodeMapEntry.node)

def NodeEdit.Complete (edit : NodeEdit) (ns : NodeMap UaNode) : Prop :=
  edit.addresses ≠ [] ∧ ∀ entry, ns.getNode edit.nodeId = .ok (some entry) →
    entry.node.CopiedFully ∧ Edits entry.node edit.callback edit.memory

def CompleteEdits : NodeMap UaNode → List NodeEdit → Prop
  | _, [] => True
  | ns, edit :: edits => edit.Complete ns ∧ ∀ status next, edit.inPlace ns = .ok (status, next) →
      CompleteEdits next edits

section Sequences

variable {ns other : NodeMap UaNode} {history later : List (NodeMapEvent UaNode)}
variable {nodeId : NodeId} {memory : CopyMemory} {addresses : List Nat}
  {entry : NodeMapEntry UaNode}

theorem getContent_spec (represents : Represents ns history) (nodeId : NodeId) :
    getContent ns nodeId = .ok (contents history nodeId) := by
  rw [getContent, getNode_spec represents]
  rfl

theorem NodeEdit.Complete.of_contents {edit : NodeEdit} (complete : edit.Complete other)
    (represents : Represents other later) (same : contents history = contents later) :
    ∀ entry, lookup history edit.nodeId = some entry →
      entry.node.CopiedFully ∧ Edits entry.node edit.callback edit.memory := by
  intro entry found
  have stored : contents later edit.nodeId = some entry.node := by
    rw [← same, contents, found, Option.map_some]
  obtain ⟨twin, also, node⟩ := Option.map_eq_some_iff.mp stored
  have fully := complete.2 twin (by rw [getNode_spec represents, also])
  rw [node] at fully
  exact fully

theorem editNodes_agree {edits : List NodeEdit} (represents : Represents ns history)
    (also : Represents other later) (same : contents history = contents later)
    (complete : CompleteEdits other edits) : ∃ statuses copied edited,
      editNodes NodeEdit.onCopy ns edits = .ok (statuses, copied) ∧
      editNodes NodeEdit.inPlace other edits = .ok (statuses, edited) ∧
      ∀ nodeId, getContent copied nodeId = getContent edited nodeId := by
  induction edits generalizing ns other history later with
  | nil =>
    refine ⟨[], ns, other, rfl, rfl, ?_⟩
    intro nodeId
    rw [getContent_spec represents, getContent_spec also, same]
  | cons edit edits ih =>
    have first : edit.Complete other := complete.1
    have rest := complete.2
    obtain ⟨copied, afterCopy, copies, keptCopy, copyContents⟩ := editNodeCopy_edits represents
      edit.callback first.1 (first.of_contents also same)
    obtain ⟨edited, afterEdit, editing, keptEdit, editContents⟩ :=
      editNodeInPlace_spec also edit.nodeId edit.callback
    have equal : contents afterCopy = contents afterEdit := by
      rw [copyContents, editContents, same]
    obtain ⟨statuses, lastCopy, lastEdit, copying, placing, agree⟩ :=
      ih keptCopy keptEdit equal (rest _ _ editing)
    refine ⟨((contents later).edit edit.nodeId edit.callback).1 :: statuses, lastCopy, lastEdit,
      ?_, ?_, agree⟩
    · rw [editNodes, NodeEdit.onCopy, copies, same]
      dsimp only
      rw [copying]
    · rw [editNodes, NodeEdit.inPlace, editing]
      dsimp only
      rw [placing]

def VariantsAgree (ns : NodeMap UaNode) (edit : NodeEdit) : Prop :=
  ∃ status copied edited, edit.onCopy ns = .ok (status, copied) ∧
    edit.inPlace ns = .ok (status, edited) ∧
    ∀ nodeId, getContent copied nodeId = getContent edited nodeId

theorem VariantsAgree.copiedFully
    (agree : VariantsAgree ns ⟨nodeId, fun node => (good, node), addresses, memory⟩)
    (represents : Represents ns history) (found : lookup history nodeId = some entry)
    (room : addresses ≠ []) {copy : UaNode}
    (copied : entry.node.copy memory (.zero entry.node.content) = .ok copy) :
    entry.node.CopiedFully := by
  obtain ⟨status, next, edited, copying, editing, same⟩ := agree
  obtain ⟨ends, later, runs, kept, result⟩ := editNodeCopy_spec represents found
    (fun node => (good, node)) copied room
  obtain ⟨after, last, places, keptEdit, editResult⟩ := editNodeInPlace_spec represents
    nodeId (fun node => (good, node))
  obtain ⟨-, rfl⟩ := Prod.mk.inj (Except.ok.inj (copying.symm.trans runs))
  obtain ⟨-, rfl⟩ := Prod.mk.inj (Except.ok.inj (editing.symm.trans places))
  have equal := same nodeId
  have stored : contents history nodeId = some entry.node := by
    rw [contents, found, Option.map_some]
  rw [getContent_spec kept, getContent_spec keptEdit, result, editResult, NodeContents.edit,
    stored, if_pos rfl] at equal
  simp only [NodeContents.update, nodeIdEqual_refl, if_true] at equal
  have whole : copy = entry.node := Option.some.inj (Except.ok.inj equal)
  rw [UaNode.copy_ok copied] at whole
  exact entry.node.copiedFully_iff.mp whole

theorem variantsAgree_iff (represents : Represents ns history)
    (found : lookup history nodeId = some entry) (room : addresses ≠ [])
    (copies : ∃ copy, entry.node.copy memory (.zero entry.node.content) = .ok copy) :
    (∀ callback : EditNodeCallback,
        ((callback entry.node).1 ≠ good → (callback entry.node).2 = entry.node) →
        VariantsAgree ns ⟨nodeId, callback, addresses, memory⟩) ↔ entry.node.CopiedFully := by
  constructor
  · intro agree
    obtain ⟨copy, copied⟩ := copies
    have unchanged := agree (fun node => (good, node)) fun failed => absurd rfl failed
    exact unchanged.copiedFully represents found room copied
  · intro complete callback restores
    obtain ⟨next, later, runs, kept, result⟩ := editNodeCopy_edits represents callback room (by
      intro other also
      rw [found] at also
      cases also
      exact ⟨complete, copies, restores⟩)
    obtain ⟨after, last, places, keptEdit, editResult⟩ := editNodeInPlace_spec represents
      nodeId callback
    refine ⟨_, next, after, runs, places, ?_⟩
    intro other
    rw [getContent_spec kept, getContent_spec keptEdit, result, editResult]

theorem represents_one (entry : NodeMapEntry UaNode)
    (numbered : entry.nodeId.identifier ≠ .numeric 0) :
    ∃ ns, Represents ns [.stored entry] := by
  have small := Nat.two_pow_pos 28
  obtain ⟨renamed, ns, -, stored, same⟩ := insertNode_succeeds .new small entry false (.inr rfl)
  rw [same numbered] at stored
  exact ⟨ns, stored⟩

end Sequences

/-- The variants agree as long as an object that is edited has no items and a variable type no
callbacks, which are the two things that a copy does not have. -/
theorem editNode_agrees {ns : NodeMap UaNode} {history : List (NodeMapEvent UaNode)}
    (represents : Represents ns history) :
    (∀ edits, CompleteEdits ns edits →
      ∃ statuses copied edited, editNodes NodeEdit.onCopy ns edits = .ok (statuses, copied) ∧
        editNodes NodeEdit.inPlace ns edits = .ok (statuses, edited) ∧
        ∀ nodeId, getContent copied nodeId = getContent edited nodeId) ∧
      (∀ nodeId entry, ns.getNode nodeId = .ok (some entry) → ∀ memory addresses,
        addresses ≠ [] → (∃ copy, entry.node.copy memory (.zero entry.node.content) = .ok copy) →
        ((∀ callback : EditNodeCallback,
            ((callback entry.node).1 ≠ good → (callback entry.node).2 = entry.node) →
            VariantsAgree ns ⟨nodeId, callback, addresses, memory⟩) ↔ entry.node.CopiedFully)) ∧
      ∀ (node : UaNode) memory copy, node.copy memory (.zero node.content) = .ok copy →
        (copy = node ↔ node.CopiedFully) := by
  refine ⟨?_, ?_, ?_⟩
  · intro edits complete
    exact editNodes_agree represents represents rfl complete
  · intro nodeId entry found memory addresses room copies
    rw [getNode_spec represents] at found
    exact variantsAgree_iff represents (Except.ok.inj found) room copies
  · intro node memory copy copied
    rw [UaNode.copy_ok copied]
    exact node.copiedFully_iff

def monitoredObject (item : Nat) : UaNode :=
  { UaNode.zero (.object ⟨0, 0⟩) with
    browseName := ⟨1, .alloc [77]⟩
    references := [⟨hasTypeDefinitionId, false, [⟨standardId 58, .null, 0⟩]⟩]
    content := .object ⟨item, 1⟩ }

def relabel : EditNodeCallback := fun node =>
  (good, { node with displayName := ⟨.null, .alloc [77, 49]⟩, content := .object ⟨0, 5⟩ })

theorem monitoredObject_copied : ∃ ns : NodeMap UaNode,
    getContent ns (standardId 1) = .ok (some (monitoredObject 0)) ∧
      VariantsAgree ns ⟨standardId 1, relabel, [1], .enough⟩ := by
  let entry : NodeMapEntry UaNode := ⟨0, none, standardId 1, monitoredObject 0⟩
  obtain ⟨ns, represents⟩ := represents_one entry (by decide)
  have found : lookup [.stored entry] (standardId 1) = some entry := by
    rw [lookup, if_pos (nodeIdEqual_refl _)]
  have stored : ns.getNode (standardId 1) = .ok (some entry) := by rw [getNode_spec represents, found]
  refine ⟨ns, by rw [getContent, stored]; rfl, ?_⟩
  exact ((editNode_agrees represents).2.1 (standardId 1) entry stored .enough [1]
    (List.cons_ne_nil _ _) ⟨_, rfl⟩).mpr rfl relabel fun failed => absurd rfl failed

/-- An edit of the object that changes nothing takes its item. -/
theorem monitoredObject_forgotten : ¬∀ (ns : NodeMap UaNode) history, Represents ns history →
    ∀ edit : NodeEdit, edit.addresses ≠ [] → edit.memory = .enough →
      (∀ node, (edit.callback node).1 = good) → VariantsAgree ns edit := by
  intro agree
  let entry : NodeMapEntry UaNode := ⟨0, none, standardId 1, monitoredObject 1⟩
  obtain ⟨ns, represents⟩ := represents_one entry (by decide)
  have found : lookup [.stored entry] (standardId 1) = some entry := by
    rw [lookup, if_pos (nodeIdEqual_refl _)]
  have unchanged := agree ns _ represents ⟨standardId 1, fun node => (good, node), [1], .enough⟩
    (List.cons_ne_nil _ _) rfl fun _ => rfl
  have copied : entry.node.copy .enough (.zero entry.node.content) = .ok (monitoredObject 0) := rfl
  have fully := unchanged.copiedFully represents found (List.cons_ne_nil _ _) copied
  exact absurd fully Nat.one_ne_zero

end OpcUa
