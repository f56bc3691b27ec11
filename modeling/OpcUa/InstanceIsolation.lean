import OpcUa.UnhinderedDeletion

/-!
The deletion of one of several instances of a type. It takes everything below the instance, also
what lies below the type or below another instance at the same time. A mandatory method is shared
in this way by the type and all instances.
-/

namespace OpcUa

open StatusCode

/-! The type and its instances -/

def Nodestore.InstanceOf (store : Nodestore) (type id : NodeIdContent) : Prop :=
  ∃ server uri, (id, (false, hasTypeDefinitionId.content), server, uri, type) ∈ store.held

def Nodestore.Kin (store : Nodestore) (type deleted id : NodeIdContent) : Prop :=
  ∃ root, (root = type ∨ root ≠ deleted ∧ store.InstanceOf type root) ∧ store.Below root id

def NodeSpace.Isolates (before after : NodeSpace) (type deleted : NodeIdContent) : Prop :=
  ∀ id node, before.store.Kin type deleted id → before.store.nodeAt id = some node →
    ∃ kept, after.store.nodeAt id = some kept ∧
      kept = { node with references := kept.references } ∧ after.table id = before.table id ∧
      (∀ triple ∈ kept.triples, triple ∈ node.triples) ∧
      ∀ triple ∈ node.triples, triple ∈ kept.triples ∨
        referenceTarget triple ∈ before.store.stored \ after.store.stored

def Nodestore.Unshared (store : Nodestore) (type deleted : NodeIdContent) : Prop :=
  ∀ id, store.Kin type deleted id → ¬store.Below deleted id

section Isolation

variable {before after : NodeSpace} {type deleted : NodeIdContent}

theorem NodeSpace.Takes.isolates (takes : before.Takes deleted after)
    (unshared : before.store.Unshared type deleted) : before.Isolates after type deleted := by
  intro id node kin found
  have stays : id ∈ after.store.stored := by
    by_contra gone
    exact unshared id kin (takes.below id ⟨node, found⟩ gone)
  obtain ⟨kept, there⟩ := stays
  obtain ⟨old, same, loses⟩ := takes.reduces.nodes id kept there
  obtain rfl := Option.some.inj (found.symm.trans same)
  exact ⟨kept, there, loses.attributes, takes.reduces.members id ⟨kept, there⟩, loses.fewer,
    loses.lost⟩

theorem NodeSpace.Unhindered.unshared {server : NodeServer} {world : Nat → NodeOutcome}
    {caller : Caller} {depth : Nat} {nodeId : NodeId} {status : StatusCode}
    (unhindered : before.Unhindered server world caller nodeId.content)
    (ran : deleteNodeOperation server world caller depth ⟨nodeId, true⟩ before =
      some (status, after))
    (isolates : before.Isolates after type nodeId.content) :
    before.store.Unshared type nodeId.content := by
  intro id kin below
  have start : before.Clears before := fun id stored gone => absurd stored gone
  have itself : before.store.Below nodeId.content nodeId.content := .refl
  obtain ⟨clears, gone⟩ := unhindered.clears (.of_same _ rfl rfl) start itself ran
  obtain ⟨node, found, -⟩ := unhindered.isOwned below
  obtain ⟨kept, there, -⟩ := isolates id node kin found
  exact clears.below gone below ⟨kept, there⟩

end Isolation

/-- The deletion of an instance leaves its kin as it was if they share nothing. If nothing hinders
the deletion, it leaves the kin as it was only then. The deletion ends where the aggregating
references do not lead back. -/
theorem deleteInstance_isolates_iff (server : NodeServer) (world : Nat → NodeOutcome)
    (caller : Caller) (space : NodeSpace) (type : NodeIdContent) (nodeId : NodeId) :
    (∀ depth status after,
      deleteNodeOperation server world caller depth ⟨nodeId, true⟩ space = some (status, after) →
      (space.store.Unshared type nodeId.content → space.Isolates after type nodeId.content) ∧
        (space.Unhindered server world caller nodeId.content →
          (space.Isolates after type nodeId.content ↔ space.store.Unshared type nodeId.content))) ∧
    (Acc (fun below above => space.store.Child above below) nodeId.content →
      ∃ depth, ∀ more ≥ depth, ∃ result,
        deleteNodeOperation server world caller more ⟨nodeId, true⟩ space = some result) := by
  constructor
  · intro depth status after ran
    have isolates (unshared : space.store.Unshared type nodeId.content) :
        space.Isolates after type nodeId.content := (deleteNodeOperation_takes ran).isolates unshared
    exact ⟨isolates, fun unhindered => ⟨unhindered.unshared ran, isolates⟩⟩
  · intro grounded
    have descends : Acc (fun below above => space.store.Descends caller above below)
        nodeId.content := Subrelation.accessible And.left grounded
    obtain ⟨depth, ends⟩ := deleteNodeOperation_exists descends
    refine ⟨depth, ?_⟩
    intro more deeper
    obtain ⟨result, ran⟩ := ends ⟨nodeId, true⟩ rfl space (.refl space)
    exact ⟨result, deleteNodeOperation_deeper deeper ran⟩

/-! Machines with a method -/

def plainNode (nodeId : NodeId) (nodeClass : NodeClass) (references : List NodeReferenceKind) :
    Node :=
  ⟨nodeId, nodeClass, ⟨1, .null⟩, ⟨.null, .null⟩, false, references⟩

def machineId (identifier : BitVec 32) : NodeId := ⟨1, .numeric identifier⟩

def machineTypes : Nodestore where
  nodes :=
    [ plainNode hierarchicalReferencesId .referenceType [], plainNode aggregatesId .referenceType
        [⟨hasSubtypeId, true, [.ofNodeId hierarchicalReferencesId]⟩],
      plainNode hasComponentId .referenceType [⟨hasSubtypeId, true, [.ofNodeId aggregatesId]⟩],
      plainNode baseObjectTypeId .objectType [⟨hasSubtypeId, false, [.ofNodeId (machineId 1)]⟩],
      plainNode (machineId 1) .objectType [⟨hasSubtypeId, true, [.ofNodeId baseObjectTypeId]⟩,
          ⟨hasComponentId, false, [.ofNodeId (machineId 2)]⟩],
      plainNode (machineId 2) .method [⟨hasComponentId, true, [.ofNodeId (machineId 1)]⟩,
          ⟨hasModellingRuleId, false, [.ofNodeId mandatoryId]⟩],
      plainNode mandatoryId .object [],
      plainNode objectsFolderId .object [] ]

def plainOutcome : NodeOutcome where
  browse := .ample
  random := ⟨0, 0, 0, 0⟩
  first := ⟨true, true, good, good⟩
  second := ⟨true, true, good, good⟩
  newNode := true
  attributes := good
  value := ⟨(good, ⟨⟨none, none, none, none, none⟩, false, .variantEmpty⟩), good, 0, good⟩
  identifier := 1000
  insert := good
  copy := good
  subset := true
  hierarchy := good
  constructor := good
  typeConstructor := good

def plainServer : NodeServer where
  maxReferencesPerNode := 0
  namespacesSize := 2
  bootstrapNS0 := false
  types := ⟨[], []⟩
  decodeBinary := fun _ _ => (badDecodingError, .variantEmpty)
  nodeLifecycle := ⟨false, false⟩
  typeLifecycle := fun _ => ⟨false, false⟩

def plainWorld : Nat → NodeOutcome := fun _ => plainOutcome

def NodeSpace.ofStore (store : Nodestore) : NodeSpace := ⟨store, fun _ => none, ⟨8, []⟩, ⟨8, []⟩, 0, []⟩

def machineItem (identifier : BitVec 32) : AddNodesItem where
  parentNodeId := objectsFolderId
  referenceTypeId := hasComponentId
  requestedNewNodeId := machineId identifier
  browseName := ⟨1, .null⟩
  nodeClass := .object
  typeDefinition := machineId 1
  decoded := true
  displayName := ⟨.null, .null⟩
  isAbstract := false
  variableAttributes := ⟨.variantEmpty, .null, -1, [], 0, 0⟩

def twoMachines : Option NodeSpace := do
  let (_, space) ← operationAddNode plainServer plainWorld adminCaller 4 (machineItem 3)
    (.ofStore machineTypes)
  let (_, space) ← operationAddNode plainServer plainWorld adminCaller 4 (machineItem 4) space
  return space

def deleteMachine (space : NodeSpace) : Option (StatusCode × NodeSpace) :=
  deleteNodeOperation plainServer plainWorld adminCaller 4 ⟨machineId 3, true⟩ space

/-- The type and the other machine lose their method. -/
theorem sharedMethod_deleted : ∃ space after, twoMachines = some space ∧
    deleteMachine space = some (good, after) ∧
    space.store.InstanceOf (machineId 1).content (machineId 4).content ∧
    ¬space.Isolates after (machineId 1).content (machineId 3).content := by
  have created : twoMachines.isSome = true := by decide +kernel
  obtain ⟨space, made⟩ := Option.isSome_iff_exists.mp created
  have removed : ((twoMachines.bind deleteMachine).map fun outcome =>
      (outcome.1, outcome.2.store.nodes.any fun node => node.nodeId.content = (machineId 2).content)) =
        some (good, false) := by decide +kernel
  have children : (twoMachines.map fun space =>
      (allReferences ⟨space.store, 0⟩ (childrenDescription (machineId 1) 0)).any fun rd =>
        rd.nodeId.nodeId.content = (machineId 2).content) = some true := by decide +kernel
  have typed : (twoMachines.map fun space => (space.store.nodeAt (machineId 4).content).map
      fun node => node.references.any fun refs =>
        refs = ⟨hasTypeDefinitionId, false, [.ofNodeId (machineId 1)]⟩) = some (some true) := by
    decide +kernel
  rw [made, Option.bind_some] at removed
  rw [made, Option.map_some, Option.some.injEq] at children typed
  obtain ⟨⟨status, after⟩, ran, outcome⟩ := Option.map_eq_some_iff.mp removed
  obtain ⟨rfl, gone⟩ := Prod.mk.inj outcome
  obtain ⟨machine, stored, references⟩ := Option.map_eq_some_iff.mp typed
  obtain ⟨refs, listed, same⟩ := List.any_eq_true.mp references
  obtain rfl := of_decide_eq_true same
  refine ⟨space, after, made, ran, ⟨0, [], machine, stored, ?_⟩, ?_⟩
  · exact mem_triples.mpr ⟨_, listed, rfl, List.mem_cons_self⟩
  intro isolates
  obtain ⟨rd, member, named⟩ := List.any_eq_true.mp children
  have child : space.store.Child (machineId 1).content (machineId 2).content :=
    (child_iff_browse ⟨space.store, 0⟩ (machineId 1) 0 _).mpr ⟨rd, member, of_decide_eq_true named⟩
  obtain ⟨-, method, found⟩ := child.stored
  obtain ⟨kept, there, -⟩ := isolates _ method ⟨_, .inl rfl, .single child⟩ found
  rw [List.any_eq_false] at gone
  apply gone kept (List.mem_of_find?_eq_some there)
  rw [decide_eq_true_iff]
  exact nodeAt_content there

/-- Two machines with a component each. -/
def ownMachines : Nodestore where
  nodes :=
    [ plainNode aggregatesId .referenceType [],
      plainNode hasComponentId .referenceType [⟨hasSubtypeId, true, [.ofNodeId aggregatesId]⟩],
      plainNode (machineId 1) .objectType
        [⟨hasTypeDefinitionId, true, [.ofNodeId (machineId 3), .ofNodeId (machineId 4)]⟩],
      plainNode (machineId 3) .object [⟨hasTypeDefinitionId, false, [.ofNodeId (machineId 1)]⟩,
          ⟨hasComponentId, false, [.ofNodeId (machineId 5)]⟩],
      plainNode (machineId 4) .object [⟨hasTypeDefinitionId, false, [.ofNodeId (machineId 1)]⟩,
          ⟨hasComponentId, false, [.ofNodeId (machineId 6)]⟩],
      plainNode (machineId 5) .variable [⟨hasComponentId, true, [.ofNodeId (machineId 3)]⟩],
      plainNode (machineId 6) .variable [⟨hasComponentId, true, [.ofNodeId (machineId 4)]⟩] ]

def ownedByFirst (id : NodeIdContent) : Bool :=
  id = (machineId 3).content || id = (machineId 5).content

theorem ownMachines_below {source target : NodeIdContent} (below : ownMachines.Below source target) :
    ownedByFirst source = ownedByFirst target := by
  have listed : ∀ node ∈ ownMachines.nodes, ∀ refs ∈ node.references, refs.isInverse = false →
      isNodeInTree ownMachines refs.referenceTypeId aggregatesId [hasSubtypeId] = true →
      ∀ targetId ∈ refs.targetIds,
        ownedByFirst node.nodeId.content = ownedByFirst targetId.nodeId.content := by
    decide
  induction below with
  | refl => rfl
  | tail _ child ih =>
    obtain ⟨node, found, refs, member, forward, aggregates, targetId, inside, rfl, -⟩ := child
    rw [ih, ← nodeAt_content found]
    exact listed node (List.mem_of_find?_eq_some found) refs member forward aggregates targetId inside

theorem ownMachines_isolated : ∃ after,
    deleteNodeOperation plainServer plainWorld adminCaller 3 ⟨machineId 3, true⟩
      (.ofStore ownMachines) = some (good, after) ∧
    after.store.nodeAt (machineId 5).content = none ∧
    (NodeSpace.ofStore ownMachines).Isolates after (machineId 1).content (machineId 3).content := by
  have ends : ((deleteNodeOperation plainServer plainWorld adminCaller 3 ⟨machineId 3, true⟩
      (.ofStore ownMachines)).map fun (status, after) =>
        (status, (after.store.nodeAt (machineId 5).content).isNone)) = some (good, true) := by
    decide +kernel
  obtain ⟨⟨_, after⟩, ran, same⟩ := Option.map_eq_some_iff.mp ends
  obtain ⟨rfl, gone⟩ := Prod.mk.inj same
  refine ⟨after, ran, Option.isNone_iff_eq_none.mp gone, ((deleteInstance_isolates_iff plainServer
    plainWorld adminCaller _ (machineId 1).content (machineId 3)).1 _ _ after ran).1 ?_⟩
  rintro id ⟨root, kin, below⟩ beneath
  have owned : ownedByFirst root = true :=
    (ownMachines_below below).trans (ownMachines_below beneath).symm
  have instances : ∀ node ∈ ownMachines.nodes, ownedByFirst node.nodeId.content = true →
      node.nodeId.content ≠ (machineId 3).content →
      node.references.all (fun refs => refs.key ≠ (false, hasTypeDefinitionId.content)) = true := by
    decide
  rcases kin with rfl | ⟨other, _, _, node, found, triple⟩
  · exact absurd owned (by decide)
  · obtain ⟨refs, member, key, -⟩ := mem_triples.mp triple
    have stored : ownMachines.nodeAt root = some node := found
    rw [← nodeAt_content stored] at other owned
    have untyped := instances node (List.mem_of_find?_eq_some stored) owned other
    exact of_decide_eq_true (List.all_eq_true.mp untyped refs member) key

end OpcUa
