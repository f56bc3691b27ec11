import OpcUa.InstanceIsolation
import OpcUa.TypeGuards

/-!
Runs of AddNodes and Write over the variables. A new node has its value checked before it is used,
a copy has the value of its original, and every write is checked.
-/

namespace OpcUa

open StatusCode

/-! Checks of a new value -/

def VariableAttributes.Checkable (types store : Nodestore) (node : VariableAttributes) : Prop :=
  ∀ stored, node.value = .data stored → stored.hasValue = true →
    node.Accepts types store stored.value ∧ stored.value.extent < 2 ^ 32

section Checks

variable {server : NodeServer} {outcome : ValueOutcome} {types store : Nodestore}
  {attributes : VariableAttributes} {space after : NodeSpace} {node : Node} {type : Option Node}
  {parentNodeId : NodeId} {status : StatusCode}
variable {value : DataValue}

theorem VariableAttributes.Fits.checkable (fits : attributes.Fits types) :
    attributes.Checkable types store := by
  intro stored source present
  constructor
  · intro type typed _
    exact (fits stored type source present typed).1
  · cases typed : stored.value.variantType with
    | none =>
      cases value : stored.value with
      | variantScalar type data dimensions =>
        rw [value] at typed
        cases typed
      | variantArray type undefined elements dimensions =>
        rw [value] at typed
        cases typed
      | _ => exact Nat.two_pow_pos 32
    | some type => exact (fits stored type source present typed).2.2.2

theorem writeValueAttribute_cases {env : TypeEnv} {changed : VariableAttributes}
    (ran : writeValueAttribute env outcome store attributes value .null = (status, changed)) :
    changed = attributes ∧ (status = good → attributes.value = .dataSource) ∨
      status = good ∧ ∃ stored, attributes.value = .data stored ∧
        changed = { attributes with value := .data (adjustedValue env outcome attributes value) } ∧
        checkValue store attributes value (adjustedValue env outcome attributes value).value false =
          true := by
  rw [writeValueAttribute] at ran
  dsimp only at ran
  rw [if_neg (show ¬UaString.null.length > 0 by decide)] at ran
  split at ran
  · obtain ⟨rfl, rfl⟩ := Prod.mk.inj ran
    refine .inl ⟨rfl, fun succeeded => ?_⟩
    cases succeeded
  rename_i checked
  rw [Bool.not_eq_true', Bool.not_eq_false] at checked
  cases source : attributes.value with
  | dataSource =>
    rw [source] at ran
    obtain ⟨rfl, rfl⟩ := Prod.mk.inj ran
    exact .inl ⟨rfl, fun _ => rfl⟩
  | data stored =>
    rw [source] at ran
    dsimp only at ran
    split at ran
    · rename_i failed
      obtain ⟨rfl, rfl⟩ := Prod.mk.inj ran
      exact .inl ⟨rfl, fun succeeded => absurd succeeded failed⟩
    · obtain ⟨rfl, rfl⟩ := Prod.mk.inj ran
      exact .inr ⟨rfl, stored, rfl, rfl, checked⟩

theorem operationWrite_own (env : TypeEnv) {table : VariableTable} (value : DataValue)
    (found : store.nodeAt node.nodeId.content = some node)
    (there : table node.nodeId.content = some attributes)
    (isVariable : node.nodeClass = .variable ∨ node.nodeClass = .variableType) :
    operationWrite env adminRights outcome store table ⟨node.nodeId, .value, .null, value⟩ =
      ((writeValueAttribute env outcome store attributes value .null).1,
        Function.update table node.nodeId.content
          (some (writeValueAttribute env outcome store attributes value .null).2)) := by
  have copied : copyAttributeIntoNode env adminRights outcome store table node attributes
      ⟨node.nodeId, .value, .null, value⟩ =
        writeValueAttribute env outcome store attributes value .null := by
    have admin : adminRights.isAdmin = true := rfl
    have level : getAccessLevel adminRights attributes &&& accessLevelMaskWrite ≠ 0 := by
      rw [getAccessLevel, if_pos admin]
      decide
    have userLevel : getUserAccessLevel adminRights node.nodeId attributes &&&
        accessLevelMaskWrite ≠ 0 := by
      rw [getUserAccessLevel, if_pos admin]
      decide
    have mask : getUserWriteMask adminRights node.nodeId attributes &&&
        writeMaskValueForVariableType ≠ 0 := by
      rw [getUserWriteMask, if_pos admin]
      decide
    rw [copyAttributeIntoNode]
    rw [if_neg fun neither => isVariable.elim neither.1 neither.2,
      if_neg fun both => level both.2, if_neg fun both => userLevel both.2,
      if_neg fun both => mask both.2]
  rw [operationWrite, getNode_eq]
  rw [found]
  dsimp only
  rw [there]
  dsimp only
  rw [copied]

structure Checked (types : Nodestore) (server : NodeServer) (node : Node) (type : Option Node)
    (before : NodeSpace) (status : StatusCode) (after : NodeSpace) : Prop where
  store : after.store = before.store
  others : ∀ id, id ≠ node.nodeId.content → after.table id = before.table id
  failed : status ≠ good → after.table = before.table
  fits : status = good → server.bootstrapNS0 = false → node.nodeClass = .variable →
    type.isSome = true →
    (∀ attributes, before.table node.nodeId.content = some attributes →
      attributes.Checkable types before.store) →
    ∀ changed, after.table node.nodeId.content = some changed → changed.Fits types

section

variable (found : space.store.nodeAt node.nodeId.content = some node)
include found

theorem typeCheckValue_checked (there : space.table node.nodeId.content = some attributes)
    (isVariable : node.nodeClass = .variable ∨ node.nodeClass = .variableType)
    (read : readValueAttribute outcome attributes = (good, value))
    (ran : typeCheckValue server outcome node attributes value space = (status, after)) :
    Checked types server node type space status after := by
  have sees (stored : DataValue) (source : attributes.value = .data stored) : value = stored :=
    congrArg Prod.snd (read.symm.trans (readValueAttribute_data source))
  rw [typeCheckValue] at ran
  split at ran
  · rename_i misfit
    rw [Bool.and_eq_true, Bool.and_eq_true] at misfit
    rw [operationWrite_own server.types _ found there isVariable] at ran
    cases written : writeValueAttribute server.types outcome space.store attributes
      ⟨⟨none, none, none, none, none⟩, true, value.value⟩ .null with
    | mk writeStatus changed =>
      rw [written] at ran
      obtain ⟨rfl, rfl⟩ := Prod.mk.inj ran
      refine ⟨rfl, fun id other => Function.update_of_ne other _ _, ?_, ?_⟩
      · intro failed
        rcases writeValueAttribute_cases written with ⟨rfl, -⟩ | ⟨succeeded, -⟩
        · rw [← there, Function.update_eq_self]
        · exact absurd succeeded failed
      · intro succeeded _ _ _ checkable other same
        change Function.update space.table _ (some changed) _ = _ at same
        rw [Function.update_self] at same
        obtain rfl := Option.some.inj same
        rcases writeValueAttribute_cases written with ⟨rfl, source⟩ | ⟨-, stored, source, rfl, checked⟩
        · intro stored own data
          rw [source succeeded] at data
          cases data
        · obtain rfl := sees stored source
          obtain ⟨accepts, countable⟩ := checkable attributes there value source misfit.1.2
          refine checkValue_fits ?_ ?_ checked
          · exact fun _ => accepts
          · exact fun _ => countable
  · rename_i matched
    obtain ⟨rfl, rfl⟩ := Prod.mk.inj ran
    refine ⟨rfl, fun _ _ => rfl, fun _ => rfl, ?_⟩
    intro _ started _ _ checkable changed same
    obtain rfl := Option.some.inj (there.symm.trans same)
    intro stored own source present typed
    obtain rfl := sees stored source
    obtain ⟨accepts, countable⟩ := checkable attributes there value source present
    rw [started, present, Bool.not_false, Bool.true_and, Bool.true_and, Bool.not_eq_true',
      Bool.not_eq_false] at matched
    obtain ⟨data, rank, dimensions⟩ := compatibleValue_fits typed countable matched
    exact ⟨accepts own typed (.inr data), rank, dimensions, countable⟩

theorem typeCheckNode_checked
    (ran : typeCheckNode server outcome node type parentNodeId space = (status, after)) :
    Checked types server node type space status after := by
  have nothing (bad : status ≠ good) (same : after = space) :
      Checked types server node type space status after := by
    subst same
    exact ⟨rfl, fun _ _ => rfl, fun _ => rfl, fun succeeded => absurd succeeded bad⟩
  cases type with
  | none =>
    obtain ⟨rfl, rfl⟩ := Prod.mk.inj ran
    exact ⟨rfl, fun _ _ => rfl, fun _ => rfl, nofun⟩
  | some type =>
    rw [typeCheckNode] at ran
    split at ran
    · rename_i isVariable
      cases there : space.table node.nodeId.content with
      | none =>
        rw [there] at ran
        obtain ⟨rfl, rfl⟩ := Prod.mk.inj ran
        exact nothing (by decide) rfl
      | some attributes =>
        rw [there] at ran
        cases ofType : space.table type.nodeId.content with
        | none =>
          rw [ofType] at ran
          obtain ⟨rfl, rfl⟩ := Prod.mk.inj ran
          exact nothing (by decide) rfl
        | some vt =>
          rw [ofType] at ran
          rcases typeCheckVariableNode_cases ran with ⟨bad, same⟩ | ⟨value, read, ran⟩
          · exact nothing bad same
          · exact typeCheckValue_checked found there isVariable read ran
    · rename_i other
      obtain ⟨rfl, rfl⟩ := Prod.mk.inj ran
      exact ⟨rfl, fun _ _ => rfl, fun _ => rfl,
        fun _ _ isVariable => absurd (.inl isVariable) other⟩

end

end Checks

section Additions

variable {server : NodeServer} {world : Nat → NodeOutcome} {caller : Caller} {types : Nodestore}
  {except : Set NodeIdContent} {space after : NodeSpace} {status : StatusCode}
variable {node : Node} {nodeId : NodeId} {id : NodeIdContent} {depth : Nat}
variable {store : Nodestore} {item : AddNodesItem} {env : TypeEnv} {rights : WriteRights}
  {outcome : ValueOutcome} {wvalue : WriteValue}

theorem NodeSpace.Guards.addReference (guards : space.Guards types except) (outcome : NodeOutcome)
    (item : AddReferencesItem)
    (safe : item.isForward = true ∨ types.Apart item.sourceNodeId.content) (calls : Nat) :
    ({ space with
      store := (operationAddReference caller outcome space.store item).2
      calls } : NodeSpace).Guards types except := by
  refine guards.changes rfl (operationAddReference_changes caller outcome space.store item) ?_
  rintro source target inverse triple direction - ⟨same, key, -⟩
  rcases safe with forward | apart
  · have opposite := direction.symm.trans (congrArg Prod.fst key)
    rw [show item.deletion.triple.1.1 = !item.isForward from rfl, forward] at opposite
    cases opposite
  · exact (apart source target inverse).1 same.symm

theorem NodeSpace.Guards.addRef (guards : space.Guards types except)
    (nodeId referenceTypeId parentNodeId : NodeId) (forward : Bool)
    (safe : forward = true ∨ types.Apart nodeId.content) :
    (addRef world caller nodeId referenceTypeId parentNodeId forward space).2.Guards types except :=
  guards.addReference (world space.calls)
    ⟨nodeId, referenceTypeId, forward, .null, .ofNodeId parentNodeId⟩ safe (space.calls + 1)

theorem NodeSpace.Guards.addParentAndType (type : Option Node)
    (parentNodeId referenceTypeId : NodeId) (guards : space.Guards types except)
    (apart : types.Apart node.nodeId.content) :
    (addParentAndType world caller node type parentNodeId referenceTypeId space).2.Guards types
      except := by
  have typed (type : Node) (space : NodeSpace) (guards : space.Guards types except) :
      (if node.nodeClass.isInstance then
          OpcUa.addRef world caller node.nodeId hasTypeDefinitionId type.nodeId true space
        else (good, space)).2.Guards types except := by
    split
    · exact guards.addRef _ _ _ true (.inl rfl)
    · exact guards
  rw [OpcUa.addParentAndType]
  split
  · cases type with
    | none => exact guards
    | some type => exact typed type space guards
  split
  · exact guards
  have linked : (OpcUa.addRef world caller node.nodeId referenceTypeId parentNodeId false
      space).2.Guards types except := guards.addRef _ _ _ false (.inr apart)
  generalize OpcUa.addRef world caller node.nodeId referenceTypeId parentNodeId false space = answer
    at linked
  dsimp only
  split
  · exact linked
  · cases type with
    | none => exact linked
    | some type => exact typed type answer.2 linked

section

variable (guards : space.Guards types except)
include guards

theorem NodeSpace.Guards.checked {type : Option Node}
    (checked : Checked types server node type space status after)
    (found : space.store.nodeAt node.nodeId.content = some node)
    (started : server.bootstrapNS0 = false)
    (defined : node.nodeClass.isInstance = true → type.isSome = true)
    (checkable : node.nodeClass = .variable → ∀ attributes, space.table node.nodeId.content =
      some attributes → attributes.Checkable types space.store) :
    (status ≠ good → after.Guards types except) ∧
      (status = good → after.Guards types (except \ {node.nodeId.content})) := by
  constructor
  · intro failed
    exact guards.of_same checked.store (checked.failed failed)
  · intro succeeded
    constructor
    · intro id other attributes kept stored isVariable there
      rw [checked.store] at stored
      by_cases here : id = node.nodeId.content
      · subst here
        obtain rfl := Option.some.inj (found.symm.trans stored)
        have isInstance : node.nodeClass.isInstance = true := by
          rw [isVariable]
          rfl
        exact checked.fits succeeded started isVariable (defined isInstance)
          (checkable isVariable) attributes there
      · rw [checked.others id here] at there
        exact guards.typed id other attributes (fun excepted => kept ⟨excepted, here⟩) stored
          isVariable there
    · rw [checked.store]
      exact guards.covers

theorem NodeSpace.Guards.typeCheckAddRefs {parentNodeId referenceTypeId typeDefinitionId : NodeId}
    (only : except ⊆ {nodeId.content}) (apart : types.Apart nodeId.content)
    (started : server.bootstrapNS0 = false)
    (checkable : ∀ node, space.store.nodeAt nodeId.content = some node →
      node.nodeClass = .variable → ∀ attributes, space.table nodeId.content = some attributes →
      attributes.Checkable types space.store)
    (ran : typeCheckAddRefs server world caller nodeId parentNodeId referenceTypeId typeDefinitionId
      space = (status, after)) :
    after.Guards types ∅ ∨
      status ≠ good ∧ after.store = space.store ∧ after.table = space.table := by
  rcases typeCheckAddRefs_cases ran with ⟨failed, rfl⟩ |
    ⟨node, type, checkStatus, middle, reference, found, defined, -, checking, ends⟩
  · exact .inr ⟨failed, rfl, rfl⟩
  have content := nodeAt_content found
  rw [← content] at found checkable apart only
  have checked : Checked types server node type space checkStatus middle :=
    typeCheckNode_checked found checking
  have typed (isInstance : node.nodeClass.isInstance = true) : type.isSome = true := by
    obtain ⟨definition, rfl, -⟩ := defined started isInstance
    rfl
  obtain ⟨-, accepted⟩ := guards.checked checked found started typed (checkable node found)
  rcases ends with ⟨failed, rfl, rfl⟩ | ⟨succeeded, added⟩
  · exact .inr ⟨failed, checked.store, checked.failed failed⟩
  · have passed := accepted succeeded
    rw [Set.sdiff_eq_empty.mpr only] at passed
    have linked : (OpcUa.addParentAndType world caller node type parentNodeId reference
        middle).2.Guards types ∅ := passed.addParentAndType type parentNodeId reference apart
    rw [added] at linked
    exact .inl linked

theorem NodeSpace.Guards.inserted {attributes : Option VariableAttributes}
    (fresh : id ∉ space.store.stored)
    (nodes : ∀ other, after.store.nodeAt other = if other =
      id then some node else space.store.nodeAt other)
    (table : after.table = Function.update space.table id attributes) :
    after.Guards types (insert id except) where
  typed other stored members kept found isVariable there := by
    have elsewhere : other ≠ id := fun same => kept (.inl same)
    rw [nodes, if_neg elsewhere] at found
    rw [table, Function.update_of_ne elsewhere] at there
    exact guards.typed other stored members (fun excepted => kept (.inr excepted)) found isVariable
      there
  covers := by
    have same {other : NodeIdContent} (stored : other ∈ space.store.stored) :
        after.store.nodeAt other = space.store.nodeAt other := by
      rw [nodes, if_neg]
      rintro rfl
      exact fresh stored
    have stays {other : NodeIdContent} (isType : space.store.IsType other) :
        after.store.IsType other := by
      rw [Nodestore.IsType, same isType.stored]
      exact isType
    intro source target inverse
    obtain ⟨⟨type, listed, server, uri, holder, found, member⟩, isType, above⟩ :=
      guards.covers source target inverse
    refine ⟨⟨type, listed, server, uri, holder, ?_, member⟩, stays isType, stays above⟩
    exact (same isType.stored).trans found

end

theorem NodeSpace.Guards.settled (guards : space.Guards types (insert id except))
    (fits : ∀ node attributes, space.store.nodeAt id = some node → node.nodeClass = .variable →
      space.table id = some attributes → attributes.Fits types) : space.Guards types except where
  typed other node attributes kept found isVariable there := by
    by_cases here : other = id
    · subst here
      exact fits node attributes found isVariable there
    · exact guards.typed other node attributes (fun excepted => excepted.elim here kept) found
        isVariable there
  covers := guards.covers

theorem NodeSpace.Guards.removeDeconstructedNode {removeTargetRefs : Bool}
    (guards : space.Guards types except) (only : except ⊆ {node.nodeId.content})
    (apart : types.Apart node.nodeId.content)
    (ran : removeDeconstructedNode server world caller (deleteChild server world caller depth) node
      removeTargetRefs space = some after) : after.Guards types ∅ := by
  rw [OpcUa.removeDeconstructedNode, Option.bind_eq_bind, Option.bind_eq_some_iff] at ran
  obtain ⟨middle, removed, rest⟩ := ran
  obtain rfl := Option.some.inj rest
  have children : space.Takes node.nodeId.content middle := by
    refine removeChildren_takes ?_ removed
    intro nodeId between next deleted
    obtain ⟨⟨code, _⟩, ran, rfl⟩ := Option.map_eq_some_iff.mp deleted
    exact deleteNodeOperation_takes ran
  have loses := removeTargetReferences_loses caller node removeTargetRefs middle.store
  exact ((guards.takes apart children).loses apart loses).removed apart only

theorem guards_upholds (server : NodeServer) (world : Nat → NodeOutcome) (caller : Caller)
    (types : Nodestore) (started : server.bootstrapNS0 = false) :
    Upholds server world caller (fun pending space => space.Guards types ∅ ∧ ∀ unfinished ∈ pending,
        types.Apart unfinished.node)
      (fun _ => True) (fun _ => True) where
  browse pending space nodeId resultMask holds := by
    obtain ⟨store, table, -⟩ := browseChildren_answers server world caller nodeId resultMask space
    exact ⟨holds.1.of_same store table, holds.2⟩
  offered _ _ _ _ _ _ _ := trivial
  existing _ _ _ _ _ _ _ _ _ _ := trivial
  link pending space destination rd holds _ _ _ :=
    ⟨holds.1.addReference (world space.calls)
      ⟨destination, rd.referenceTypeId, true, .null, rd.nodeId⟩ (.inl rfl) (space.calls + 1),
      holds.2⟩
  insert pending space namespaceIndex rd node status newNodeId after holds _ _ found inserted := by
    rw [getNode_eq] at found
    have content := nodeAt_content found
    obtain ⟨-, ⟨failed, rfl⟩ | ⟨succeeded, fresh, nodes, same⟩⟩ := insertNode_cases inserted
    · exact ⟨fun _ => ⟨holds.1.of_same rfl rfl, holds.2⟩, fun succeeded => absurd succeeded failed⟩
    refine ⟨fun failed => absurd succeeded failed, fun _ => ⟨⟨?_, ?_⟩, trivial⟩⟩
    · -- the copy has the members of a variable that fits
      have table : after.table = Function.update space.table newNodeId.content
          (space.table node.nodeId.content) := congrArg NodeSpace.table same
      refine (holds.1.inserted fresh nodes table).settled ?_
      intro copied attributes there isVariable members
      rw [nodes, if_pos rfl] at there
      obtain rfl := Option.some.inj there
      rw [table, Function.update_self] at members
      rw [← content] at found
      exact holds.1.typed _ node attributes (Set.notMem_empty _) found isVariable members
    · intro unfinished member
      rcases List.mem_cons.mp member with rfl | earlier
      · exact holds.1.covers.apart fresh
      · exact holds.2 unfinished earlier
  check pending space nodeId destination referenceTypeId typeId status after holds _ ran := by
    obtain ⟨guards, apart⟩ := holds
    have own : types.Apart nodeId.content := apart _ List.mem_cons_self
    have rest := List.forall_mem_of_forall_mem_cons apart
    have checkable (node : Node) (found : space.store.nodeAt nodeId.content = some node)
        (isVariable : node.nodeClass = .variable) (attributes : VariableAttributes)
        (there : space.table nodeId.content = some attributes) :
        attributes.Checkable types space.store :=
      (guards.typed _ node attributes (Set.notMem_empty _) found isVariable there).checkable
    have kept : after.Guards types ∅ := by
      rcases guards.typeCheckAddRefs (Set.empty_subset _) own started checkable ran with
        kept | ⟨-, store, table⟩
      · exact kept
      · exact guards.of_same store table
    refine ⟨fun _ => ⟨kept.removeNode own, rest⟩, fun _ => ⟨kept, ?_⟩⟩
    intro unfinished member
    rcases List.mem_cons.mp member with rfl | earlier
    · exact own
    · exact rest unfinished earlier
  missing pending space unfinished holds _ :=
    ⟨holds.1, List.forall_mem_of_forall_mem_cons holds.2⟩
  construct pending space node type status after holds _ ran := by
    obtain ⟨store, table⟩ := callConstructors_store ran
    have kept := holds.1.of_same store table
    exact ⟨fun _ => ⟨kept, holds.2⟩, fun _ => ⟨kept, List.forall_mem_of_forall_mem_cons holds.2⟩⟩
  cleanUp pending space node type depth after holds ran :=
    ⟨holds.1.removeDeconstructedNode (Set.empty_subset _) (holds.2 _ List.mem_cons_self) ran,
      List.forall_mem_of_forall_mem_cons holds.2⟩

def AddNodesItem.Admitted (server : NodeServer) (outcome : NodeOutcome) (item : AddNodesItem)
    (space : NodeSpace) : Prop :=
  ∀ attributes stored, item.nodeClass = .variable →
    newAttributes server outcome item space = .ok attributes → attributes.value = .data stored →
    stored.hasValue = true → attributes.Admits space.store stored.value

theorem bare_subtype {after : Nodestore} (bare : node.references = [])
    (nodes : ∀ other, after.nodeAt other = if other = id then some node else store.nodeAt other)
    {sub super : NodeIdContent} (below : after.Subtype sub super) : store.Subtype sub super := by
  refine Relation.ReflTransGen.mono ?_ _ _ below
  rintro source target ⟨type, listed, server, uri, holder, found, member⟩
  rw [nodes] at found
  split at found
  · obtain rfl := Option.some.inj found
    obtain ⟨refs, inside, -⟩ := mem_triples.mp member
    rw [bare] at inside
    cases inside
  · exact ⟨type, listed, server, uri, holder, found, member⟩

theorem NodeSpace.Guards.deleteBare (guards : space.Guards types except)
    (only : except ⊆ {nodeId.content}) (apart : types.Apart nodeId.content)
    (found : space.store.nodeAt nodeId.content = some node) (bare : node.references = [])
    (ran : deleteNodeOperation server world adminCaller depth ⟨nodeId, true⟩ space =
      some (status, after)) : after.Guards types ∅ := by
  cases depth with
  | zero => cases ran
  | succ depth =>
    have content := nodeAt_content found
    have permitted : (!adminCaller.isAdmin && !adminCaller.allowDeleteNode ⟨nodeId, true⟩) =
        false := rfl
    rw [deleteNodeOperation, getNode_eq, found] at ran
    dsimp only at ran
    rw [if_neg (show ¬hasSubTypeOrInstances node = true by
      rw [hasSubTypeOrInstances, bare]; decide)] at ran
    obtain ⟨last, removed, rest⟩ := Option.bind_eq_some_iff.mp ran
    obtain rfl := (Prod.mk.inj (Option.some.inj rest)).2
    obtain ⟨store, table⟩ := deconstructNode_store server node space
    rw [← content] at only apart
    exact (guards.of_same store table).removeDeconstructedNode only apart removed

theorem addNodeBegin_guards (started : server.bootstrapNS0 = false)
    (guards : space.Guards space.store ∅)
    (admitted : item.Admitted server (world space.calls) space)
    (ran : addNodeBegin server world caller depth item space = some (status, nodeId, after)) :
    after.Guards space.store ∅ ∧ (status = good → space.store.Apart nodeId.content) := by
  rw [addNodeBegin] at ran
  cases added : addNodeRaw server world caller item space with
  | mk rawStatus outcome =>
  obtain ⟨rawId, raw⟩ := outcome
  rw [added] at ran
  dsimp only at ran
  have refused (bad : rawStatus ≠ good) (kept : raw.Guards space.store ∅) :
      after.Guards space.store ∅ ∧ (status = good → space.store.Apart nodeId.content) := by
    rw [if_pos bad] at ran
    obtain ⟨rfl, ends⟩ := Prod.mk.inj (Option.some.inj ran)
    obtain ⟨rfl, rfl⟩ := Prod.mk.inj ends
    exact ⟨kept, fun succeeded => absurd succeeded bad⟩
  rcases addNodeRaw_cases added with ⟨bad, rfl⟩ | ⟨attributes, inserted, members⟩
  · exact refused bad (guards.of_same rfl rfl)
  obtain ⟨-, ⟨bad, rfl⟩ | ⟨succeeded, fresh, nodes, same⟩⟩ := insertNode_cases inserted
  · exact refused bad (guards.of_same rfl rfl)
  have table : raw.table = Function.update space.table rawId.content attributes :=
    congrArg NodeSpace.table same
  have apart := guards.covers.apart fresh
  have entered := guards.inserted fresh nodes table
  have only : insert rawId.content ∅ ⊆ ({rawId.content} : Set NodeIdContent) :=
    Set.insert_subset rfl (Set.empty_subset _)
  have found : raw.store.nodeAt rawId.content = some { item.node with nodeId := rawId } := by
    rw [nodes, if_pos rfl]
  have checkable (node : Node) (there : raw.store.nodeAt rawId.content = some node)
      (isVariable : node.nodeClass = .variable) (own : VariableAttributes)
      (held : raw.table rawId.content = some own) : own.Checkable space.store raw.store := by
    obtain rfl := Option.some.inj (found.symm.trans there)
    obtain ⟨_, rfl, made⟩ := members isVariable
    rw [table, Function.update_self] at held
    obtain rfl := Option.some.inj held
    intro stored source present
    obtain ⟨structures, countable⟩ := admitted _ stored isVariable made source present
    refine ⟨?_, countable⟩
    rintro type typed (structureNumber | compatible)
    · exact structures type typed structureNumber
    · exact (compatibleDataType_fits compatible).mono fun _ _ => bare_subtype rfl nodes
  rw [if_neg (not_not.mpr succeeded)] at ran
  cases checked : typeCheckAddRefs server world caller rawId item.parentNodeId item.referenceTypeId
    item.typeDefinition raw with
  | mk checkStatus middle =>
  rw [checked] at ran
  have kept := entered.typeCheckAddRefs only apart started checkable checked
  split at ran
  · rename_i bad
    obtain ⟨⟨code, removed⟩, deleted, ends⟩ := Option.bind_eq_some_iff.mp ran
    obtain ⟨rfl, result⟩ := Prod.mk.inj (Option.some.inj ends)
    obtain ⟨rfl, rfl⟩ := Prod.mk.inj result
    refine ⟨?_, fun succeeded => absurd succeeded bad⟩
    rcases kept with kept | ⟨-, store, members⟩
    · exact kept.takes apart (deleteNodeOperation_takes deleted)
    · have stays : middle.store.nodeAt rawId.content = some { item.node with nodeId := rawId } := by
        rw [store]
        exact found
      exact (entered.of_same store members).deleteBare only apart stays rfl deleted
  · rename_i good
    obtain ⟨rfl, ends⟩ := Prod.mk.inj (Option.some.inj ran)
    obtain ⟨rfl, rfl⟩ := Prod.mk.inj ends
    exact ⟨kept.resolve_right fun failed => good failed.1, fun _ => apart⟩

theorem operationAddNode_typed (started : server.bootstrapNS0 = false)
    (onTypes : space.store.OnTypes) (typed : space.TypedBut space.store ∅)
    (admitted : item.Admitted server (world space.calls) space)
    (ran : operationAddNode server world caller depth item space = some (status, after)) :
    after.TypedBut after.store ∅ := by
  obtain ⟨⟨beginStatus, nodeId, begun⟩, adding, rest⟩ := Option.bind_eq_some_iff.mp ran
  obtain ⟨guards, apart⟩ := addNodeBegin_guards started ⟨typed, onTypes.covers⟩ admitted adding
  have kept : after.Guards space.store ∅ := by
    dsimp only at rest
    split at rest
    · obtain ⟨rfl, rfl⟩ := Prod.mk.inj (Option.some.inj rest)
      exact guards
    · rename_i succeeded
      have upholds := guards_upholds server world caller space.store started
      have unfinished (unfinished : Unfinished)
          (member : unfinished ∈ [⟨nodeId.content, begun.store.typeAt nodeId.content⟩]) :
          space.store.Apart unfinished.node := by
        obtain rfl := List.mem_singleton.mp member
        exact apart (not_not.mp succeeded)
      exact (upholds.addNodeFinish (upholds.copyChildNode depth) ⟨guards, unfinished⟩ trivial rest).1
  intro id node attributes other found isVariable there
  exact (kept.typed id node attributes other found isVariable there).mono
    fun _ _ below => kept.covers.subtype below

def WriteValue.Regular (store : Nodestore) (attributes : VariableAttributes) (wvalue : WriteValue) :
    Prop :=
  match wvalue.attributeId with
  | .value => wvalue.value.hasValue = true → attributes.Admits store wvalue.value.value
  | .valueRank => attributes.Plain
  | .dataType => True
  | .arrayDimensions => True

theorem copyAttributeIntoNode_fits {table : VariableTable} {attributes : VariableAttributes}
    (fits : attributes.Fits store) (regular : wvalue.Regular store attributes) :
    (copyAttributeIntoNode env rights outcome store table node attributes wvalue).2.Fits store := by
  rw [copyAttributeIntoNode]
  rw [WriteValue.Regular] at regular
  split
  · exact fits
  cases written : wvalue.attributeId with
  | value =>
    rw [written] at regular
    dsimp only
    split
    · exact fits
    split
    · exact fits
    split
    · exact fits
    · exact writeValueAttribute_fits fits (fun present => (regular present).accepts)
        (fun present => (regular present).2) wvalue.indexRange
  | dataType =>
    dsimp only
    split
    · exact fits
    split
    · exact writeDataTypeAttribute_fits fits _
    · exact fits
  | valueRank =>
    rw [written] at regular
    dsimp only
    split
    · exact fits
    split
    · exact writeValueRankAttribute_fits fits regular _
    · exact fits
  | arrayDimensions =>
    dsimp only
    split
    · exact fits
    split
    · exact writeArrayDimensionsAttribute_fits fits _
    · exact fits

theorem operationWrite_typed (typed : space.TypedBut space.store ∅)
    (regular : ∀ attributes, space.table wvalue.nodeId.content = some attributes →
      wvalue.Regular space.store attributes) :
    ({ space with
      table := (operationWrite env rights outcome space.store space.table wvalue).2 } :
        NodeSpace).TypedBut space.store ∅ := by
  rw [operationWrite, getNode_eq]
  cases found : space.store.nodeAt wvalue.nodeId.content with
  | none => exact typed
  | some node =>
    have content := nodeAt_content found
    dsimp only
    cases there : space.table node.nodeId.content with
    | none => exact typed
    | some attributes =>
      intro id other changed kept stored isVariable held
      change Function.update space.table node.nodeId.content _ id = some changed at held
      by_cases here : id = node.nodeId.content
      · subst here
        rw [Function.update_self] at held
        obtain rfl := Option.some.inj held
        refine copyAttributeIntoNode_fits ?_ (regular attributes (content ▸ there))
        exact typed _ other attributes kept stored isVariable there
      · rw [Function.update_of_ne here] at held
        exact typed id other changed kept stored isVariable held

end Additions

inductive SpaceOperation where
  | write (rights : WriteRights) (outcome : ValueOutcome) (wvalue : WriteValue)
  | addNode (world : Nat → NodeOutcome) (caller : Caller) (depth : Nat) (item : AddNodesItem)

def SpaceOperation.perform (server : NodeServer) (space : NodeSpace) :
    SpaceOperation → Option (StatusCode × NodeSpace)
  | .write rights outcome wvalue =>
    match operationWrite server.types rights outcome space.store space.table wvalue with
    | (status, table) => some (status, { space with table })
  | .addNode world caller depth item => operationAddNode server world caller depth item space

def SpaceOperation.Regular (server : NodeServer) (space : NodeSpace) : SpaceOperation → Prop
  | .write _ _ wvalue => ∀ attributes, space.table wvalue.nodeId.content = some attributes →
      wvalue.Regular space.store attributes
  | .addNode world _ _ item => space.store.OnTypes ∧ item.Admitted server (world space.calls) space

inductive SpaceRun (server : NodeServer) (start : NodeSpace) : NodeSpace → Prop
  | start : SpaceRun server start start
  | step {space after : NodeSpace} {status : StatusCode} {operation : SpaceOperation}
      (run : SpaceRun server start space) (regular : operation.Regular server space)
      (ran : operation.perform server space = some (status, after)) : SpaceRun server start after

def NodeSpace.Typed (space : NodeSpace) : Prop :=
  ∀ id node attributes, space.store.nodeAt id = some node → node.nodeClass = .variable →
    space.table id = some attributes → attributes.Fits space.store

theorem typed_iff (space : NodeSpace) : space.Typed ↔ space.TypedBut space.store ∅ :=
  ⟨fun typed id node attributes _ => typed id node attributes,
    fun typed id node attributes => typed id node attributes (Set.notMem_empty id)⟩

def dateTimeId : NodeId := standardId 13
def utcTimeId : NodeId := standardId 294
def clockId : NodeId := machineId 5

def clockStore : Nodestore where
  nodes :=
    [ plainNode dateTimeId .dataType [],
      plainNode utcTimeId .dataType [⟨hasSubtypeId, true, [.ofNodeId dateTimeId]⟩],
      plainNode clockId .variable [] ]

def stoppedClock : NodeSpace :=
  { NodeSpace.ofStore clockStore with
    table := fun id => if id = clockId.content then
      some ⟨utcTimeId, -1, [], .data ⟨⟨none, none, none, none, none⟩, false, .variantEmpty⟩, 3, 0⟩
      else none }

def setClock : SpaceOperation :=
  .write adminRights plainOutcome.value ⟨clockId, .value, .null,
    ⟨⟨none, none, none, none, none⟩, true, .variantScalar dateTimeType (.leaf (.uint64 1)) []⟩⟩

def NodeSpace.clockType (space : NodeSpace) : Option NodeId :=
  (space.table clockId.content).bind fun attributes =>
    match attributes.value with
    | .data stored => if stored.hasValue then stored.value.variantType.map (·.typeId) else none
    | .dataSource => none

theorem clockType_eq {space : NodeSpace} {typeId : NodeId} (holds : space.clockType = some typeId) :
    ∃ attributes stored type, space.table clockId.content = some attributes ∧
      attributes.value = .data stored ∧ stored.hasValue = true ∧
      stored.value.variantType = some type ∧ type.typeId = typeId := by
  obtain ⟨attributes, there, holds⟩ := Option.bind_eq_some_iff.mp holds
  cases source : attributes.value with
  | dataSource =>
    rw [source] at holds
    cases holds
  | data stored =>
    rw [source] at holds
    dsimp only at holds
    split at holds
    · rename_i present
      obtain ⟨type, typed, same⟩ := Option.map_eq_some_iff.mp holds
      exact ⟨attributes, stored, type, there, source, present, typed, same⟩
    · cases holds

theorem stoppedClock_typed : stoppedClock.Typed := by
  intro id node attributes _ _ there stored type source present
  have there : (if id = clockId.content then some _ else none) = some attributes := there
  split at there
  · obtain rfl := Option.some.inj there
    cases source
    cases present
  · cases there

theorem setClock_regular : setClock.Regular plainServer stoppedClock := by
  intro attributes there present
  constructor
  · rintro type ⟨⟩ structureNumber
    exact absurd structureNumber (by decide)
  · exact Nat.two_pow_pos 32

theorem setClock_ran : ∃ after, setClock.perform plainServer stoppedClock = some (good, after) ∧
    after.clockType = some dateTimeType.typeId ∧ after.store = clockStore ∧
    (after.table clockId.content).map VariableAttributes.dataType = some utcTimeId := by
  have ran : (setClock.perform plainServer stoppedClock).map (fun outcome => (outcome.1,
      outcome.2.clockType, outcome.2.store,
      (outcome.2.table clockId.content).map VariableAttributes.dataType)) =
        some (good, some dateTimeType.typeId, clockStore, some utcTimeId) := by
    decide +kernel
  obtain ⟨⟨status, after⟩, performed, outcome⟩ := Option.map_eq_some_iff.mp ran
  simp only [Prod.mk.injEq] at outcome
  obtain ⟨rfl, rest⟩ := outcome
  exact ⟨after, performed, rest⟩

def NodeSpace.SubtypesOnly (space : NodeSpace) : Prop :=
  ∀ id node attributes stored type, space.store.nodeAt id = some node →
    node.nodeClass = .variable → space.table id = some attributes →
    attributes.value = .data stored → stored.hasValue = true →
    stored.value.variantType = some type →
    space.store.Subtype type.typeId.content attributes.dataType.content

end OpcUa
