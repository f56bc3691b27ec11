import OpcUa.InstanceIsolation
import OpcUa.Library.AcyclicReach

/-!
When the deletion of a node ends. A node stays until its children are gone, and among the children
only the node itself is left out. So the deletion follows a cycle of several nodes for ever.
-/

namespace OpcUa

open AcyclicReach StatusCode

/-- The nodes as the information model has them: HasSubtype is between types, an object, a variable
or a method has no subtypes and no instances, and no kind of references is empty. -/
structure Nodestore.Regular (store : Nodestore) : Prop where
  aggregates : ∃ type, store.nodeAt aggregatesId.content = some type ∧
    type.nodeClass = .referenceType
  nodes : ∀ id node, store.nodeAt id = some node → node.WellFormed ∧
    node.triples.length < int32Max ∧
    (node.nodeClass.isOwned = true → hasSubTypeOrInstances node = false)
  types : ∀ source target, store.Inverse [hasSubtypeId] source target →
    ∀ id node, id = source ∨ id = target → store.nodeAt id = some node →
    node.nodeClass.isOwned = false

def Nodestore.Grounded (store : Nodestore) (caller : Caller) (item : DeleteNodesItem) : Prop :=
  caller.Permits item → ∀ node, store.getNode item.nodeId = some node →
    hasSubTypeOrInstances node = false → Acyclic (store.Descends caller) node.nodeId.content

def DeletionEnds (server : NodeServer) (world : Nat → NodeOutcome) (caller : Caller)
    (item : DeleteNodesItem) (space : NodeSpace) : Prop :=
  ∃ depth result, deleteNodeOperation server world caller depth item space = some result

theorem Nodestore.stored_finite (store : Nodestore) : store.stored.Finite := by
  refine (store.nodes.map fun node => node.nodeId.content).toFinset.finite_toSet.subset ?_
  rintro id ⟨node, found⟩
  rw [List.coe_toFinset, Set.mem_ofPred_eq, List.mem_map]
  exact ⟨node, List.mem_of_find?_eq_some found, nodeAt_content found⟩

theorem Nodestore.descends_finite (store : Nodestore) (caller : Caller) (top : NodeIdContent) :
    {id | Relation.ReflTransGen (store.Descends caller) top id}.Finite := by
  refine (store.stored_finite.insert top).subset ?_
  intro id reached
  rcases Relation.ReflTransGen.cases_tail reached with rfl | ⟨_, _, step⟩
  · exact Set.mem_insert id _
  · exact Set.mem_insert_of_mem top step.1.stored.2

section Ends

variable {server : NodeServer} {world : Nat → NodeOutcome} {caller : Caller}

theorem Nodestore.Grounded.ends {item : DeleteNodesItem} {space : NodeSpace}
    (grounded : space.store.Grounded caller item) :
    DeletionEnds server world caller item space := by
  by_cases permitted : caller.Permits item
  · cases found : space.store.getNode item.nodeId with
    | none =>
      refine ⟨1, ?_⟩
      rw [deleteNodeOperation, permitted.allowed, found]
      exact ⟨_, rfl⟩
    | some node =>
      cases used : hasSubTypeOrInstances node with
      | true =>
        refine ⟨1, ?_⟩
        rw [deleteNodeOperation, permitted.allowed, found]
        dsimp only
        rw [used]
        exact ⟨_, rfl⟩
      | false =>
        have acyclic := grounded permitted node found used
        obtain ⟨depth, ends⟩ := deleteNodeOperation_exists
          (acyclic.acc (space.store.descends_finite caller _))
        rw [getNode_eq] at found
        obtain ⟨result, ran⟩ := ends item (nodeAt_content found).symm space (.refl space)
        exact ⟨depth, result, ran⟩
  · refine ⟨1, ?_⟩
    rw [deleteNodeOperation, not_permits permitted]
    exact ⟨_, rfl⟩

end Ends

structure NodeSpace.Retains (start space : NodeSpace) (caller : Caller) : Prop where
  reduces : start.Reduces space
  turning : ∀ id, Endless (start.store.Descends caller) id → id ∈ start.store.stored →
    id ∈ space.store.stored
  owned : ∀ id node, start.store.nodeAt id = some node → id ∉ space.store.stored →
    node.nodeClass.isOwned = true

section Cycles

variable {server : NodeServer} {world : Nat → NodeOutcome} {caller : Caller}
  {start space after : NodeSpace}

section

variable (retains : start.Retains space caller)
include retains

theorem NodeSpace.Retains.of_same (store : after.store = space.store)
    (table : after.table = space.table) : start.Retains after caller where
  reduces := retains.reduces.trans (.of_same store table)
  turning id endless stored := store ▸ retains.turning id endless stored
  owned id node found gone := retains.owned id node found (store ▸ gone)

theorem NodeSpace.Retains.stays (id : NodeIdContent)
    (other : ∀ node, start.store.nodeAt id = some node → node.nodeClass.isOwned = false)
    (stored : id ∈ start.store.stored) : id ∈ space.store.stored := by
  by_contra gone
  obtain ⟨node, found⟩ := stored
  have owned := retains.owned id node found gone
  rw [other node found] at owned
  cases owned

theorem NodeSpace.Retains.keepsChild (regular : start.store.Regular) {source target : NodeIdContent}
    (child : start.store.Child source target) (above : source ∈ space.store.stored)
    (below : target ∈ space.store.stored) : space.store.Child source target := by
  refine retains.reduces.keepsChild ?_ child above below
  intro first second inverse
  have types := regular.types first second inverse
  exact retains.reduces.keepsInverse inverse
    (retains.stays first fun node => types first node (.inl rfl))
    (retains.stays second fun node => types second node (.inr rfl))

theorem NodeSpace.Retains.aggregates (regular : start.store.Regular) :
    ∃ type, space.store.nodeAt aggregatesId.content = some type ∧
      type.nodeClass = .referenceType := by
  obtain ⟨type, found, class_⟩ := regular.aggregates
  obtain ⟨kept, there⟩ := retains.stays aggregatesId.content (by
    intro node again
    obtain rfl := Option.some.inj (found.symm.trans again)
    rw [class_]
    rfl) ⟨type, found⟩
  obtain ⟨old, before, loses⟩ := retains.reduces.nodes _ kept there
  obtain rfl := Option.some.inj (found.symm.trans before)
  exact ⟨kept, there, loses.nodeClass.trans class_⟩

end

def NodeSpace.OwnedAt (start : NodeSpace) (nodeId : NodeId) : Prop :=
  ∃ child, start.store.nodeAt nodeId.content = some child ∧ child.nodeId = nodeId ∧
    child.nodeClass.isOwned = true

section

variable (regular : start.store.Regular) (unlimited : server.maxReferencesPerNode = 0)
  (memory : ∀ call, (world call).browse = .ample) (retains : start.Retains space caller)
include regular unlimited memory retains

theorem removeChildren_retains {deleteChild : NodeId → NodeSpace → Option NodeSpace} {node : Node}
    (found : space.store.nodeAt node.nodeId.content = some node)
    (each : ∀ nodeId between next, start.Retains between caller → start.OwnedAt nodeId →
      deleteChild nodeId between = some next → start.Retains next caller ∧
      ¬(Endless (start.store.Descends caller) nodeId.content ∧ caller.Permits ⟨nodeId, true⟩))
    (ran : removeChildren server world caller deleteChild node space = some after) :
    start.Retains after caller ∧ ¬Endless (start.store.Descends caller) node.nodeId.content := by
  obtain ⟨old, before, loses⟩ := retains.reduces.nodes _ node found
  have few := Nat.lt_of_le_of_lt loses.shorter (regular.nodes _ old before).2.1
  have answer := browseChildren_unlimited caller unlimited (memory space.calls)
    (retains.aggregates regular) found few
  obtain ⟨store, table, children⟩ := browseChildren_answers server world caller node.nodeId 0 space
  rw [removeChildren] at ran
  generalize browseChildren server world caller node.nodeId 0 space = browsed at *
  obtain ⟨result, browsed⟩ := browsed
  dsimp only at ran answer store table children
  subst answer
  have owned (rd : ReferenceDescription)
      (member : rd ∈ allReferences ⟨space.store, server.maxReferencesPerNode⟩
        (childrenDescription node.nodeId 0)) : start.OwnedAt rd.nodeId.nodeId := by
    obtain ⟨kept, there, same⟩ := allReferences_stored member
    obtain ⟨child, first, loses⟩ := retains.reduces.nodes _ kept there
    obtain ⟨_, _, _, _, _, _, _, _, _, _, again, class_⟩ := children rfl rd member
    obtain rfl := Option.some.inj (there.symm.trans again)
    refine ⟨child, first, ?_, loses.nodeClass ▸ class_⟩
    rw [← same, loses.attributes]
  have browsedRetains := retains.of_same store table
  refine ⟨OptionFold.foldlM_keeps (start.Retains · caller) browsedRetains ?_ ran, ?_⟩
  · intro rd member state next holds stepped
    split at stepped
    · obtain rfl := Option.some.inj stepped
      exact holds
    · exact (each _ state next holds (owned rd member) stepped).1
  intro endless
  obtain ⟨below, ⟨child, other, target, stored, permitted⟩, turning⟩ := endless.next
  obtain ⟨-, passed, -⟩ := OptionFold.foldlM_reaches (start.Retains · caller)
    (fun rd _ => rd.nodeId.nodeId.content ≠ below) browsedRetains (by
      intro rd member state next holds stepped
      split at stepped
      · rename_i itself
        obtain rfl := Option.some.inj stepped
        refine ⟨holds, ?_, fun _ done => done⟩
        exact fun same => other (same.symm.trans ((nodeIdEqual_iff _ _).mp itself).symm)
      · obtain ⟨kept, ends⟩ := each _ state next holds (owned rd member) stepped
        refine ⟨kept, ?_, fun _ done => done⟩
        rintro rfl
        obtain ⟨same, first, named, -⟩ := owned rd member
        obtain rfl := Option.some.inj (stored.symm.trans first)
        exact ends ⟨turning, named ▸ permitted⟩) ran
  obtain ⟨rd, member, same⟩ := (child_iff_browse ⟨space.store, server.maxReferencesPerNode⟩
    node.nodeId 0 below).mp (retains.keepsChild regular child ⟨node, found⟩
      (retains.turning below turning child.stored.2))
  exact passed rd member same

theorem deleteNodeOperation_retains {depth : Nat} {item : DeleteNodesItem} {status : StatusCode}
    (owned : start.OwnedAt item.nodeId)
    (ran : deleteNodeOperation server world caller depth item space = some (status, after)) :
    start.Retains after caller ∧
      ¬(Endless (start.store.Descends caller) item.nodeId.content ∧ caller.Permits item) := by
  induction depth generalizing item space status after with
  | zero => cases ran
  | succ depth ih =>
    obtain ⟨child, first, named, class_⟩ := owned
    rw [deleteNodeOperation, getNode_eq] at ran
    by_cases permitted : caller.Permits item
    case neg =>
      rw [not_permits permitted, if_pos rfl] at ran
      obtain rfl := (Prod.mk.inj (Option.some.inj ran)).2
      exact ⟨retains, fun both => permitted both.2⟩
    rw [permitted.allowed, if_neg Bool.false_ne_true] at ran
    cases found : space.store.nodeAt item.nodeId.content with
    | none =>
      rw [found] at ran
      obtain rfl := (Prod.mk.inj (Option.some.inj ran)).2
      refine ⟨retains, ?_⟩
      rintro ⟨turning, -⟩
      obtain ⟨kept, there⟩ := retains.turning _ turning ⟨child, first⟩
      rw [found] at there
      cases there
    | some node =>
      obtain ⟨old, before, loses⟩ := retains.reduces.nodes _ node found
      obtain rfl := Option.some.inj (first.symm.trans before)
      obtain ⟨known, -, free⟩ := regular.nodes _ child first
      rw [found] at ran
      dsimp only at ran
      rw [loses.hasSubTypeOrInstances known (free class_), if_neg Bool.false_ne_true] at ran
      obtain ⟨last, removed, rest⟩ := Option.bind_eq_some_iff.mp ran
      obtain rfl := (Prod.mk.inj (Option.some.inj rest)).2
      rw [removeDeconstructedNode, Option.bind_eq_bind, Option.bind_eq_some_iff] at removed
      obtain ⟨middle, children, rest⟩ := removed
      obtain rfl := Option.some.inj rest
      have content := nodeAt_content found
      obtain ⟨store, table⟩ := deconstructNode_store server node space
      obtain ⟨kept, straight⟩ := removeChildren_retains regular unlimited memory
        (retains.of_same store table) (by rwa [store, content])
        (fun nodeId between next holds owned deleted => by
          obtain ⟨⟨code, _⟩, ran, rfl⟩ := Option.map_eq_some_iff.mp deleted
          exact ih holds owned ran)
        children
      have loses := removeTargetReferences_loses caller node item.deleteTargetReferences
        middle.store
      have left := removeNode_stored loses
      rw [content] at straight
      refine ⟨⟨kept.reduces.removeNode ⟨child, content ▸ first⟩ loses, ?_, ?_⟩, ?_⟩
      · intro id turning stored
        rw [left]
        refine ⟨kept.turning id turning stored, ?_⟩
        rintro rfl
        exact straight (content ▸ turning)
      · intro id other stored gone
        rw [left] at gone
        by_cases between : id ∈ middle.store.stored
        · have here : id = node.nodeId.content := by
            by_contra other
            exact gone ⟨between, other⟩
          rw [here, content, first] at stored
          obtain rfl := Option.some.inj stored
          exact class_
        · exact kept.owned id other stored between
      · exact fun both => straight both.1

end

theorem DeletionEnds.grounded {item : DeleteNodesItem} (regular : space.store.Regular)
    (unlimited : server.maxReferencesPerNode = 0) (memory : ∀ call, (world call).browse = .ample)
    (ends : DeletionEnds server world caller item space) :
    space.store.Grounded caller item := by
  intro permitted node found free
  by_contra cyclic
  rw [← endless_iff] at cyclic
  obtain ⟨depth, result, ran⟩ := ends
  cases depth with
  | zero => cases ran
  | succ depth =>
    rw [deleteNodeOperation, permitted.allowed, if_neg Bool.false_ne_true, found] at ran
    dsimp only at ran
    rw [free, if_neg Bool.false_ne_true] at ran
    obtain ⟨last, removed, -⟩ := Option.bind_eq_some_iff.mp ran
    rw [removeDeconstructedNode, Option.bind_eq_bind, Option.bind_eq_some_iff] at removed
    obtain ⟨middle, children, -⟩ := removed
    obtain ⟨store, table⟩ := deconstructNode_store server node space
    have start : space.Retains space caller := by
      refine ⟨.refl space, fun _ _ stored => stored, ?_⟩
      intro id other stored gone
      exact absurd ⟨other, stored⟩ gone
    rw [getNode_eq] at found
    refine (removeChildren_retains regular unlimited memory (start.of_same store table) ?_ ?_
      children).2 cyclic
    · rw [store, nodeAt_content found]
      exact found
    · intro nodeId between next holds owned deleted
      obtain ⟨⟨code, _⟩, ran, rfl⟩ := Option.map_eq_some_iff.mp deleted
      exact deleteNodeOperation_retains regular unlimited memory holds owned ran

end Cycles

/-- The deletion ends where no cycle of several nodes is below. With all memory and without a limit
for Browse it ends only there. -/
theorem deletionEnds_iff (caller : Caller) (item : DeleteNodesItem) (space : NodeSpace) :
    (space.store.Grounded caller item →
      ∀ server world, DeletionEnds server world caller item space) ∧
    (space.store.Regular → ∀ server world, server.maxReferencesPerNode = 0 →
      (∀ call, (world call).browse = .ample) →
      (DeletionEnds server world caller item space ↔ space.store.Grounded caller item)) := by
  refine ⟨fun grounded server world => grounded.ends, ?_⟩
  intro regular server world unlimited memory
  exact ⟨fun ends => ends.grounded regular unlimited memory, Nodestore.Grounded.ends⟩

/-! Two machines below each other -/

local instance : DecidableEq NodeIdContent := inferInstance

def looseMachines : Nodestore where
  nodes :=
    [ plainNode aggregatesId .referenceType [],
      plainNode hasComponentId .referenceType [⟨hasSubtypeId, true, [.ofNodeId aggregatesId]⟩],
      plainNode (machineId 5) .object [],
      plainNode (machineId 6) .object [] ]

def componentItem (source target : BitVec 32) : AddReferencesItem :=
  ⟨machineId source, hasComponentId, true, .null, .ofNodeId (machineId target)⟩

def ringMachines : Nodestore :=
  (operationAddReference adminCaller plainOutcome
    (operationAddReference adminCaller plainOutcome looseMachines (componentItem 5 6)).2
    (componentItem 6 5)).2

theorem ringMachines_regular : ringMachines.Regular where
  aggregates := ⟨_, rfl, rfl⟩
  nodes id node found := by
    have listed : ∀ node ∈ ringMachines.nodes, ((node.references.map NodeReferenceKind.key).Nodup ∧
          (∀ refs ∈ node.references, refs.targets ≠ []) ∧
          ∀ refs ∈ node.references, refs.targets.Nodup) ∧ node.triples.length < int32Max ∧
        (node.nodeClass.isOwned = true → hasSubTypeOrInstances node = false) := by
      decide +kernel
    obtain ⟨⟨keys, filled, distinct⟩, few, free⟩ :=
      listed node (List.mem_of_find?_eq_some found)
    exact ⟨⟨keys, filled, distinct⟩, few, free⟩
  types source target inverse id node named found := by
    obtain ⟨holder, stored, refs, member, inverse, typed, targetId, inside, ends⟩ :=
      inverse_iff.mp inverse
    have types : ∀ holder ∈ ringMachines.nodes, ∀ refs ∈ holder.references, refs.isInverse = true →
        (∃ type ∈ [hasSubtypeId], refs.referenceTypeId.content = type.content) →
        ∀ targetId ∈ refs.targetIds, ∀ node ∈ ringMachines.nodes,
        node.nodeId.content = holder.nodeId.content ∨
          node.nodeId.content = targetId.nodeId.content → node.nodeClass.isOwned = false := by
      decide +kernel
    refine types holder (List.mem_of_find?_eq_some stored) refs member inverse typed targetId
      inside node (List.mem_of_find?_eq_some found) ?_
    rw [nodeAt_content found, nodeAt_content stored, ends]
    exact named

theorem machines_descend {store : Nodestore} (source target : BitVec 32)
    (child : ((allReferences ⟨store, 0⟩ (childrenDescription (machineId source) 0)).any
      fun rd => rd.nodeId.nodeId.content = (machineId target).content) = true)
    (other : source ≠ target)
    (stored : (store.nodeAt (machineId target).content).isSome = true) :
    store.Descends adminCaller (machineId source).content (machineId target).content := by
  obtain ⟨rd, member, named⟩ := List.any_eq_true.mp child
  obtain ⟨node, found⟩ := Option.isSome_iff_exists.mp stored
  refine ⟨(child_iff_browse ⟨store, 0⟩ (machineId source) 0 _).mpr
    ⟨rd, member, of_decide_eq_true named⟩, ?_, node, found, .inl rfl⟩
  intro same
  cases same
  exact other rfl

theorem ringMachines_endless : ¬DeletionEnds plainServer plainWorld adminCaller ⟨machineId 5, true⟩
    (.ofStore ringMachines) := by
  intro ends
  have grounded := ends.grounded ringMachines_regular rfl (fun _ => rfl) (.inl rfl)
  have cycle : Relation.TransGen (ringMachines.Descends adminCaller) (machineId 5).content
      (machineId 5).content :=
    .tail (.single (machines_descend 5 6 (by decide +kernel) (by decide) (by decide +kernel)))
      (machines_descend 6 5 (by decide +kernel) (by decide) (by decide +kernel))
  exact grounded _ rfl (by decide +kernel) _ .refl cycle

/-- One machine below the other. -/
def stackedMachines : Nodestore :=
  (operationAddReference adminCaller plainOutcome looseMachines (componentItem 5 6)).2

theorem stackedMachines_descends {source target : NodeIdContent}
    (step : stackedMachines.Descends adminCaller source target) :
    source = (machineId 5).content ∧ target = (machineId 6).content := by
  have listed : ∀ node ∈ stackedMachines.nodes, ∀ refs ∈ node.references, refs.isInverse = false →
      isNodeInTree stackedMachines refs.referenceTypeId aggregatesId [hasSubtypeId] = true →
      ∀ targetId ∈ refs.targetIds, node.nodeId.content = (machineId 5).content ∧
        targetId.nodeId.content = (machineId 6).content := by
    decide +kernel
  obtain ⟨node, found, refs, member, forward, aggregates, targetId, inside, rfl, -⟩ := step.1
  have ends := listed node (List.mem_of_find?_eq_some found) refs member forward aggregates targetId
    inside
  rwa [nodeAt_content found] at ends

theorem stackedMachines_ends :
    stackedMachines.Descends adminCaller (machineId 5).content (machineId 6).content ∧
    ∀ server world,
      DeletionEnds server world adminCaller ⟨machineId 5, true⟩ (.ofStore stackedMachines) := by
  have other : (machineId 6).content ≠ (machineId 5).content := by decide
  refine ⟨?_, (deletionEnds_iff adminCaller ⟨machineId 5, true⟩ (.ofStore stackedMachines)).1 ?_⟩
  · exact machines_descend 5 6 (by decide +kernel) (by decide) (by decide +kernel)
  · intro _ node _ _ id _ cycle
    obtain ⟨before, _, last⟩ := Relation.TransGen.tail'_iff.mp cycle
    obtain ⟨_, first, _⟩ := Relation.TransGen.head'_iff.mp cycle
    exact other ((stackedMachines_descends last).2.symm.trans (stackedMachines_descends first).1)

end OpcUa
