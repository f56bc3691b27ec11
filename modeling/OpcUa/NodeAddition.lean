import OpcUa.NodeChanges
import OpcUa.NodeDeletion

/-!
What the instantiation of a type keeps, along the recursion over the children. The nodes that are
not finished are those from the outermost to the one that is being filled.
-/

namespace OpcUa

open StatusCode

def instanceType (store : Nodestore) (node : Node) : Option Node :=
  if node.nodeClass.isInstance then getNodeType store node else none

def Nodestore.typeAt (store : Nodestore) (id : NodeIdContent) : Option NodeIdContent :=
  (store.nodeAt id).bind fun node => (instanceType store node).map (·.nodeId.content)

structure Unfinished where
  node : NodeIdContent
  type : Option NodeIdContent

theorem insertNode_cases {space after : NodeSpace} {outcome : NodeOutcome} {node : Node}
    {attributes : Option VariableAttributes} {status : StatusCode} {nodeId : NodeId}
    (ran : space.insertNode outcome node attributes = (status, nodeId, after)) :
    nodeId = insertedId outcome.identifier node.nodeId ∧
      (status ≠ good ∧ after = { space with calls := space.calls + 1 } ∨
        status = good ∧ nodeId.content ∉ space.store.stored ∧
          (∀ id, after.store.nodeAt id = if id = nodeId.content then some { node with nodeId }
            else space.store.nodeAt id) ∧
          after = { space with
            store := after.store
            table := Function.update space.table nodeId.content attributes
            calls := space.calls + 1
            events := space.events ++ [.added nodeId.content] }) := by
  rw [NodeSpace.insertNode, Nodestore.insertNode, getNode_eq] at ran
  generalize insertedId outcome.identifier node.nodeId = inserted at ran
  by_cases refused : outcome.insert ≠ good
  · rw [if_pos refused] at ran
    dsimp only at ran
    rw [if_pos refused] at ran
    obtain ⟨rfl, rest⟩ := Prod.mk.inj ran
    obtain ⟨rfl, rfl⟩ := Prod.mk.inj rest
    exact ⟨rfl, .inl ⟨refused, rfl⟩⟩
  rw [if_neg refused] at ran
  cases found : space.store.nodeAt inserted.content with
  | some other =>
    rw [found] at ran
    obtain ⟨rfl, rest⟩ := Prod.mk.inj ran
    obtain ⟨rfl, rfl⟩ := Prod.mk.inj rest
    exact ⟨rfl, .inl ⟨by decide, rfl⟩⟩
  | none =>
    rw [found] at ran
    obtain ⟨rfl, rest⟩ := Prod.mk.inj ran
    obtain ⟨rfl, rfl⟩ := Prod.mk.inj rest
    refine ⟨rfl, .inr ⟨rfl, ?_, ?_, rfl⟩⟩
    · rintro ⟨other, there⟩
      rw [found] at there
      cases there
    · intro id
      refine (nodeAt_append space.store _ id).trans ?_
      dsimp only
      by_cases here : id = inserted.content
      · rw [if_pos here, here, if_pos rfl, found, Option.none_or]
      · rw [if_neg here, if_neg (Ne.symm here), Option.or_none]

theorem callConstructors_store {server : NodeServer} {world : Nat → NodeOutcome} {node : Node}
    {type : Option Node} {space after : NodeSpace} {status : StatusCode}
    (ran : callConstructors server world node type space = (status, after)) :
    after.store = space.store ∧ after.table = space.table := by
  have runs (type : Option Node) (space : NodeSpace) (outcome : NodeOutcome) :
      (runConstructors server outcome node type space).2.store = space.store ∧
        (runConstructors server outcome node type space).2.table = space.table := by
    unfold runConstructors
    generalize (if server.nodeLifecycle.constructor = true then outcome.constructor else good) =
      first
    dsimp only
    split
    · exact ⟨rfl, rfl⟩
    · cases type <;> exact ⟨rfl, rfl⟩
  rw [callConstructors] at ran
  have same := runs (if node.nodeClass.isInstance then type else none)
    { space with calls := space.calls + 1 } (world space.calls)
  generalize runConstructors server (world space.calls) node
    (if node.nodeClass.isInstance then type else none) { space with calls := space.calls + 1 } =
      outcome at ran same
  dsimp only at ran
  generalize (if outcome.1 ≠ good then outcome.1
    else if (outcome.2.store.getNode node.nodeId).isSome = true then good
    else badNodeIdUnknown) = last at ran
  split at ran <;> obtain ⟨-, rfl⟩ := Prod.mk.inj ran <;> exact same

/-- The steps of an instantiation, and what each of them does to a property of the address space
and the unfinished nodes. Children go below the nodes that receive them, and are copies of what
Browse offered. -/
structure Upholds (server : NodeServer) (world : Nat → NodeOutcome) (caller : Caller)
    (Holds : List Unfinished → NodeSpace → Prop) (Receives : NodeIdContent → Prop)
    (Offered : ReferenceDescription → Prop) : Prop where
  browse : ∀ pending space nodeId resultMask, Holds pending space →
    Holds pending (browseChildren server world caller nodeId resultMask space).2
  offered : ∀ pending space nodeId, Holds pending space →
    (browseChildren server world caller nodeId 13 space).1.statusCode = good →
    ∀ rd ∈ (browseChildren server world caller nodeId 13 space).1.references, Offered rd
  existing : ∀ pending space destination rd existing, Holds pending space →
    Receives destination.content → Offered rd → rd.nodeClass.isInstance = true →
    (findChildByBrowsename server world caller destination rd.browseName space).2.1 =
      some existing → Receives existing.content
  link : ∀ pending space (destination : NodeId) (rd : ReferenceDescription), Holds pending space →
    Receives destination.content → Offered rd → rd.nodeClass = .method →
    Holds pending { space with
      store := (operationAddReference caller (world space.calls) space.store
        ⟨destination, rd.referenceTypeId, true, .null, rd.nodeId⟩).2
      calls := space.calls + 1 }
  insert : ∀ pending space namespaceIndex rd node status newNodeId after, Holds pending space →
    Offered rd → rd.nodeClass.isInstance = true →
    space.store.getNode rd.nodeId.nodeId = some node →
    space.insertNode (world space.calls) { node with
        nodeId := ⟨namespaceIndex, .numeric 0⟩
        references := keepModellingRules (world space.calls) node.references }
      (space.table node.nodeId.content) = (status, newNodeId, after) →
    (status ≠ good → Holds pending after) ∧
      (status = good → Holds (⟨newNodeId.content, none⟩ :: pending) after ∧
        Receives newNodeId.content)
  check : ∀ pending space nodeId destination referenceTypeId typeId status after,
    Holds (⟨nodeId.content, none⟩ :: pending) space → Receives destination.content →
    typeCheckAddRefs server world caller nodeId destination referenceTypeId typeId space =
      (status, after) →
    (status ≠ good → Holds pending (after.removeNode nodeId)) ∧
      (status = good → Holds (⟨nodeId.content, after.store.typeAt nodeId.content⟩ :: pending) after)
  missing : ∀ pending space unfinished, Holds (unfinished :: pending) space →
    space.store.nodeAt unfinished.node = none → Holds pending space
  construct : ∀ pending space (node : Node) (type : Option Node) status after,
    Holds (⟨node.nodeId.content, type.map (·.nodeId.content)⟩ :: pending) space →
    (type.isSome = true → node.nodeClass.isInstance = true) →
    callConstructors server world node type space = (status, after) →
    (status ≠ good → Holds (⟨node.nodeId.content, type.map (·.nodeId.content)⟩ :: pending) after) ∧
      (status = good → Holds pending after)
  cleanUp : ∀ pending space (node : Node) type depth after,
    Holds (⟨node.nodeId.content, type⟩ :: pending) space →
    removeDeconstructedNode server world caller (deleteChild server world caller depth) node true
      space = some after → Holds pending after

section Upholds

variable {server : NodeServer} {world : Nat → NodeOutcome} {caller : Caller}
  {Holds : List Unfinished → NodeSpace → Prop} {Receives : NodeIdContent → Prop}
  {Offered : ReferenceDescription → Prop}
variable {copyChild : CopyChild} {pending : List Unfinished} {space after : NodeSpace}
  {status code : StatusCode} {depth : Nat} {parentNodeId nodeId : NodeId} {outcome : NodeOutcome}

def KeepsHolds (Holds : List Unfinished → NodeSpace → Prop) (Receives : NodeIdContent → Prop)
    (Offered : ReferenceDescription → Prop) (copyChild : CopyChild) : Prop :=
  ∀ pending space destination rd status after, Holds pending space →
    Receives destination.content → Offered rd →
    copyChild destination rd space = some (status, after) → Holds pending after

section

variable (upholds : Upholds server world caller Holds Receives Offered)
  (keeps : KeepsHolds Holds Receives Offered copyChild) (holds : Holds pending space)
include upholds keeps holds

theorem Upholds.copyChildNodes {source destination : NodeId}
    (receives : Receives destination.content)
    (ran : copyChildNodes server world caller copyChild source destination space =
      some (status, after)) :
    Holds pending after := by
  have browsed := upholds.browse pending space source 13 holds
  have offered := upholds.offered pending space source holds
  rw [OpcUa.copyChildNodes] at ran
  generalize browseChildren server world caller source 13 space = answer at *
  obtain ⟨result, space⟩ := answer
  dsimp only at ran browsed offered
  split at ran
  · obtain rfl := (Prod.mk.inj (Option.some.inj ran)).2
    exact browsed
  rename_i served
  rw [not_not] at served
  refine OptionFold.foldlM_keeps (fun state => Holds pending state.2) browsed ?_ ran
  rintro rd member ⟨status, space⟩ next holds stepped
  obtain ⟨⟨code, copied⟩, ran, rest⟩ := Option.bind_eq_some_iff.mp stepped
  obtain rfl := Option.some.inj rest
  exact keeps pending space destination rd code copied holds receives (offered served rd member) ran

theorem Upholds.addChildren {node type : Node} (receives : Receives node.nodeId.content)
    (ran : addChildren server world caller copyChild depth node type space = some (status, after)) :
    Holds pending after := by
  rw [OpcUa.addChildren] at ran
  split at ran
  · obtain rfl := (Prod.mk.inj (Option.some.inj ran)).2
    exact holds
  obtain ⟨hierarchy, -, folded⟩ := Option.bind_eq_some_iff.mp ran
  refine OptionFold.foldlM_keeps (fun state => Holds pending state.2) holds ?_ folded
  rintro supertype - ⟨status, space⟩ next holds stepped
  obtain ⟨⟨code, copied⟩, ran, rest⟩ := Option.bind_eq_some_iff.mp stepped
  obtain rfl := Option.some.inj rest
  exact upholds.copyChildNodes keeps holds receives ran

end

theorem selectType_named {store : Nodestore} {node : Node} {typeDefinitionId : NodeId}
    (started : server.bootstrapNS0 = false) (isInstance : node.nodeClass.isInstance = true) :
    nodeIdIsNull (selectType server store node parentNodeId typeDefinitionId) = false := by
  rw [selectType, started, isInstance, Bool.not_false]
  generalize (if (node.nodeClass.isType && _) = true then parentNodeId
    else typeDefinitionId) = named
  split
  · by_cases isVariable : node.nodeClass = .variable
    · rw [if_pos isVariable]
      decide
    · rw [if_neg isVariable]
      decide
  · rename_i named
    rwa [Bool.not_eq_true] at named

theorem checkType_class {store : Nodestore} {node type : Node}
    (passed : checkType server store node type parentNodeId = good) :
    node.nodeClass.typeClass = some type.nodeClass := by
  by_contra other
  rw [checkType, if_pos other] at passed
  cases passed

theorem typeCheckVariableNode_cases {outcome : ValueOutcome} {node : Node}
    {attributes vt : VariableAttributes}
    (ran : typeCheckVariableNode server outcome node attributes vt parentNodeId space =
      (status, after)) :
    status ≠ good ∧ after = space ∨ ∃ value, readValueAttribute outcome attributes = (good, value) ∧
        typeCheckValue server outcome node attributes value space = (status, after) := by
  rw [typeCheckVariableNode] at ran
  cases read : readValueAttribute outcome attributes with
  | mk readStatus value =>
    rw [read] at ran
    dsimp only at ran
    split at ran
    · rename_i failed
      obtain ⟨rfl, rfl⟩ := Prod.mk.inj ran
      exact .inl ⟨failed, rfl⟩
    rename_i succeeded
    rw [not_not] at succeeded
    subst succeeded
    split at ran
    · obtain ⟨rfl, rfl⟩ := Prod.mk.inj ran
      exact .inl ⟨by decide, rfl⟩
    generalize (if attributes.arrayDimensions.length = 0 ∧ value.hasValue = true ∧
        value.value.variantType.isSome = true ∧ value.value.isScalar = false then 1
      else attributes.arrayDimensions.length) = arrayDims at ran
    split at ran
    · obtain ⟨rfl, rfl⟩ := Prod.mk.inj ran
      exact .inl ⟨by decide, rfl⟩
    split at ran
    · obtain ⟨rfl, rfl⟩ := Prod.mk.inj ran
      exact .inl ⟨by decide, rfl⟩
    split at ran
    · obtain ⟨rfl, rfl⟩ := Prod.mk.inj ran
      exact .inl ⟨by decide, rfl⟩
    · exact .inr ⟨value, rfl, ran⟩

theorem typeCheckAddRefs_cases {referenceTypeId typeDefinitionId : NodeId}
    (ran : typeCheckAddRefs server world caller nodeId parentNodeId referenceTypeId typeDefinitionId
      space = (status, after)) :
    status ≠ good ∧ after = space ∨ ∃ node type checkStatus checked parentReference,
        space.store.nodeAt nodeId.content = some node ∧
        (server.bootstrapNS0 = false → node.nodeClass.isInstance = true → ∃ definition,
          type = some definition ∧ node.nodeClass.typeClass = some definition.nodeClass) ∧
        (∀ definition, type = some definition →
          space.store.nodeAt definition.nodeId.content = some definition) ∧
        typeCheckNode server (world space.calls).value node type parentNodeId space =
          (checkStatus, checked) ∧
        (checkStatus ≠ good ∧ status = checkStatus ∧ after = checked ∨
          checkStatus = good ∧ addParentAndType world caller node type parentNodeId parentReference
            checked = (status, after)) := by
  rw [typeCheckAddRefs, getNode_eq] at ran
  cases found : space.store.nodeAt nodeId.content with
  | none =>
    rw [found] at ran
    obtain ⟨rfl, rfl⟩ := Prod.mk.inj ran
    exact .inl ⟨by decide, rfl⟩
  | some node =>
    rw [found] at ran
    dsimp only at ran
    generalize parentReference : (if (node.nodeClass.isType && nodeIdEqual referenceTypeId .null) =
      true then hasSubtypeId else referenceTypeId) = reference at ran
    generalize (if server.bootstrapNS0 = true then good
      else checkParentReference server space.store node.nodeClass parentNodeId reference) = parent
      at ran
    split at ran
    · rename_i failed
      obtain ⟨rfl, rfl⟩ := Prod.mk.inj ran
      exact .inl ⟨failed, rfl⟩
    have defined := @selectType_named server parentNodeId space.store node typeDefinitionId
    generalize selectType server space.store node parentNodeId typeDefinitionId =
      definitionId at ran defined
    obtain ⟨type, typeStatus, types, ran⟩ : ∃ type typeStatus,
        (nodeIdIsNull definitionId = true ∧ type = none ∧ typeStatus = good ∨
          nodeIdIsNull definitionId = false ∧ type = space.store.getNode definitionId ∧
            typeStatus = type.elim badTypeDefinitionInvalid fun type =>
              checkType server space.store node type parentNodeId) ∧
        (if typeStatus ≠ good then (typeStatus, space)
          else
            let answer := typeCheckNode server (world space.calls).value node type parentNodeId
              space
            if answer.1 ≠ good then answer
            else addParentAndType world caller node type parentNodeId reference answer.2) =
          (status, after) := by
      refine ⟨_, _, ?_, ran⟩
      by_cases null : nodeIdIsNull definitionId = true
      · rw [if_pos null, if_pos null]
        exact .inl ⟨null, rfl, rfl⟩
      · rw [if_neg null, if_neg null]
        rw [Bool.not_eq_true] at null
        exact .inr ⟨null, rfl, rfl⟩
    split at ran
    · rename_i failed
      obtain ⟨rfl, rfl⟩ := Prod.mk.inj ran
      exact .inl ⟨failed, rfl⟩
    rename_i passed
    rw [ne_eq, not_not] at passed
    right
    cases checked : typeCheckNode server (world space.calls).value node type parentNodeId space with
    | mk checkStatus checkedSpace =>
    rw [checked] at ran
    refine ⟨node, type, checkStatus, checkedSpace, reference, rfl, ?_, ?_, checked, ?_⟩
    · intro started isInstance
      rcases types with ⟨null, -⟩ | ⟨-, -, checked⟩
      · rw [defined started isInstance] at null
        cases null
      · cases type with
        | none =>
          rw [passed] at checked
          cases checked
        | some definition =>
          exact ⟨definition, rfl, checkType_class (checked.symm.trans passed)⟩
    · rintro definition rfl
      rcases types with ⟨-, none, -⟩ | ⟨-, found, -⟩
      · cases none
      · rw [getNode_eq] at found
        rw [nodeAt_content found.symm, found]
    · dsimp only at ran
      split at ran
      · rename_i failed
        obtain ⟨rfl, rfl⟩ := Prod.mk.inj ran
        exact .inl ⟨failed, rfl, rfl⟩
      · rename_i succeeded
        exact .inr ⟨not_not.mp succeeded, ran⟩

theorem except_bind_error {Given Result : Type} {first : Except StatusCode Given}
    {next : Given → Except StatusCode Result} (failed : (first >>= next) = .error code) :
    first = .error code ∨ ∃ given, first = .ok given ∧ next given = .error code := by
  cases first with
  | error other =>
    left
    exact congrArg Except.error (Except.error.inj failed)
  | ok given => exact .inr ⟨given, rfl, failed⟩

theorem decodeBodies_error {type : DataType} {elements : List Value}
    (failed : decodeBodies server type elements = .error code) : code ≠ good := by
  induction elements with
  | nil => cases failed
  | cons element elements ih =>
    rw [decodeBodies, List.mapM_cons] at failed
    rcases except_bind_error failed with here | ⟨value, -, rest⟩
    · generalize server.decodeBinary type (encodedBody element) = decoded at here
      dsimp only at here
      split at here
      · rename_i bad
        obtain rfl := Except.error.inj here
        exact bad
      · cases here
    · rcases except_bind_error rest with behind | ⟨values, -, made⟩
      · exact ih behind
      · cases made

theorem copyValue_error {value : Value} (failed : copyValue server outcome value = .error code) :
    code ≠ good := by
  have copied (failed : (if outcome.copy ≠ good then throw outcome.copy
      else return ⟨⟨none, none, none, none, none⟩, true, value⟩ : Except StatusCode DataValue) =
        .error code) : code ≠ good := by
    split at failed
    · rename_i bad
      obtain rfl := Except.error.inj failed
      exact bad
    · cases failed
  rw [copyValue] at failed
  split at failed
  · split at failed
    · cases failed
    · split at failed
      · exact copied failed
      · rcases except_bind_error failed with undecoded | ⟨elements, -, made⟩
        · exact decodeBodies_error undecoded
        · cases made
  · exact copied failed

theorem useVariableTypeAttributes_error {item : VariableItem} {vt node : VariableAttributes}
    (failed : useVariableTypeAttributes outcome item vt node = .error code) : code ≠ good := by
  have typed (node : VariableAttributes)
      (failed : (if nodeIdIsNull node.dataType then return { node with dataType := vt.dataType }
        else return node : Except StatusCode VariableAttributes) = .error code) : False := by
    split at failed <;> cases failed
  rw [useVariableTypeAttributes] at failed
  split at failed
  · exact (typed node failed).elim
  generalize readValueAttribute outcome.value vt = answer at failed
  dsimp only at failed
  split at failed
  · rename_i bad
    obtain rfl := Except.error.inj failed
    exact bad
  split at failed
  · exact (typed node failed).elim
  split at failed
  · rename_i bad
    obtain rfl := Except.error.inj failed
    exact bad
  · exact (typed _ failed).elim

theorem newAttributes_error {item : AddNodesItem}
    (failed : newAttributes server outcome item space = .error code) : code ≠ good := by
  rcases except_bind_error failed with uncopied | ⟨node, -, rest⟩
  · rcases except_bind_error uncopied with bad | ⟨value, -, made⟩
    · exact copyValue_error bad
    · cases made
  split at rest
  · cases rest
  dsimp only at rest
  split at rest
  · obtain rfl := Except.error.inj rest
    decide
  split at rest
  · exact useVariableTypeAttributes_error rest
  · obtain rfl := Except.error.inj rest
    decide

def AddNodesItem.node (item : AddNodesItem) : Node :=
  ⟨item.requestedNewNodeId, item.nodeClass, item.browseName, item.displayName, item.isAbstract, []⟩

theorem addNodeRaw_cases {item : AddNodesItem}
    (ran : addNodeRaw server world caller item space = (status, nodeId, after)) :
    status ≠ good ∧ after = { space with calls := space.calls + 1 } ∨
      ∃ attributes, space.insertNode (world space.calls) item.node attributes =
          (status, nodeId, after) ∧
        (item.nodeClass = .variable → ∃ members, attributes = some members ∧
          newAttributes server (world space.calls) item space = .ok members) := by
  have refused (code : StatusCode) (bad : code ≠ good)
      (ran : (code, item.requestedNewNodeId, { space with calls := space.calls + 1 }) =
        (status, nodeId, after)) :
      status ≠ good ∧ after = { space with calls := space.calls + 1 } := by
    obtain ⟨rfl, rest⟩ := Prod.mk.inj ran
    exact ⟨bad, (congrArg Prod.snd rest).symm⟩
  rw [addNodeRaw] at ran
  split at ran
  · exact .inl (refused _ (by decide) ran)
  split at ran
  · exact .inl (refused _ (by decide) ran)
  split at ran
  · exact .inl (refused _ (by decide) ran)
  split at ran
  · exact .inl (refused _ (by decide) ran)
  split at ran
  · rename_i failed
    exact .inl (refused _ failed ran)
  split at ran
  · cases made : newAttributes server (world space.calls) item space with
    | error code =>
      rw [made] at ran
      exact .inl (refused code (newAttributes_error made) ran)
    | ok members =>
      rw [made] at ran
      exact .inr ⟨some members, ran, fun _ => ⟨members, rfl, rfl⟩⟩
  · rename_i other
    exact .inr ⟨none, ran, fun isVariable => absurd (.inl isVariable) other⟩

theorem constructed_cases {node : Node} (answer : StatusCode × NodeSpace)
    (ran : (if answer.1 ≠ good then do
        let space ← removeDeconstructedNode server world caller
          (deleteChild server world caller depth) node true answer.2
        return (answer.1, space)
      else return (good, answer.2)) = some (status, after)) :
    answer.1 ≠ good ∧ status = answer.1 ∧
        removeDeconstructedNode server world caller (deleteChild server world caller depth) node
          true answer.2 = some after ∨
      answer.1 = good ∧ status = good ∧ after = answer.2 := by
  split at ran
  · rename_i failed
    obtain ⟨removed, cleaned, rest⟩ := Option.bind_eq_some_iff.mp ran
    obtain ⟨rfl, rfl⟩ := Prod.mk.inj (Option.some.inj rest)
    exact .inl ⟨failed, rfl, cleaned⟩
  · rename_i succeeded
    obtain ⟨rfl, rfl⟩ := Prod.mk.inj (Option.some.inj ran)
    exact .inr ⟨not_not.mp succeeded, rfl, rfl⟩

theorem addNodeFinish_cases {node : Node} (found : space.store.nodeAt nodeId.content = some node)
    (ran : addNodeFinish server world caller copyChild depth nodeId space = some (status, after)) :
    ∃ filledStatus filled,
      (filled = space ∧ (filledStatus = good → instanceType space.store node = none) ∨
        ∃ type, instanceType space.store node = some type ∧
          addChildren server world caller copyChild depth node type space =
            some (filledStatus, filled)) ∧
      ∃ builtStatus built, (if filledStatus ≠ good then (filledStatus, filled)
          else callConstructors server world node (instanceType space.store node) filled) =
            (builtStatus, built) ∧
        (builtStatus ≠ good ∧ status = builtStatus ∧
          removeDeconstructedNode server world caller (deleteChild server world caller depth) node
            true built = some after ∨
          builtStatus = good ∧ status = good ∧ after = built) := by
  rw [OpcUa.addNodeFinish, getNode_eq, found] at ran
  dsimp only at ran
  by_cases isInstance : node.nodeClass.isInstance = true
  · rw [if_pos isInstance] at ran
    have type : instanceType space.store node = getNodeType space.store node := if_pos isInstance
    rw [type]
    cases typed : getNodeType space.store node with
    | none =>
      rw [if_pos isInstance, typed] at ran
      refine ⟨badTypeDefinitionInvalid, space, .inl ⟨rfl, fun _ => rfl⟩, ?_⟩
      exact ⟨badTypeDefinitionInvalid, space, rfl, constructed_cases (_, space) ran⟩
    | some type =>
      rw [if_pos isInstance, typed] at ran
      obtain ⟨⟨filledStatus, filled⟩, added, rest⟩ := Option.bind_eq_some_iff.mp ran
      refine ⟨filledStatus, filled, .inr ⟨type, rfl, added⟩, ?_⟩
      exact ⟨_, _, rfl, constructed_cases (if filledStatus ≠ good then (filledStatus, filled)
        else callConstructors server world node (some type) filled) rest⟩
  · have type : instanceType space.store node = none := if_neg isInstance
    rw [type]
    rw [if_neg isInstance, if_neg isInstance] at ran
    exact ⟨good, space, .inl ⟨rfl, fun _ => rfl⟩, _, _, rfl,
      constructed_cases (callConstructors server world node none space) ran⟩

section

variable (upholds : Upholds server world caller Holds Receives Offered)
  (keeps : KeepsHolds Holds Receives Offered copyChild)
include upholds keeps

theorem Upholds.addNodeFinish
    (holds : Holds (⟨nodeId.content, space.store.typeAt nodeId.content⟩ :: pending) space)
    (receives : Receives nodeId.content)
    (ran : addNodeFinish server world caller copyChild depth nodeId space = some (status, after)) :
    Holds pending after := by
  cases found : space.store.nodeAt nodeId.content with
  | none =>
    rw [OpcUa.addNodeFinish, getNode_eq, found] at ran
    obtain rfl := (Prod.mk.inj (Option.some.inj ran)).2
    exact upholds.missing pending space _ holds found
  | some node =>
    have content := nodeAt_content found
    rw [Nodestore.typeAt, found, ← content] at holds
    rw [← content] at receives
    obtain ⟨filledStatus, filled, filling, builtStatus, built, building, ends⟩ :=
      addNodeFinish_cases found ran
    have filledHolds : Holds (⟨node.nodeId.content,
        (instanceType space.store node).map (·.nodeId.content)⟩ :: pending) filled := by
      rcases filling with ⟨rfl, -⟩ | ⟨type, -, added⟩
      · exact holds
      · exact upholds.addChildren keeps holds receives added
    have builtHolds : (builtStatus ≠ good → Holds (⟨node.nodeId.content,
        (instanceType space.store node).map (·.nodeId.content)⟩ :: pending) built) ∧
        (builtStatus = good → Holds pending built) := by
      split at building
      · rename_i failed
        obtain ⟨rfl, rfl⟩ := Prod.mk.inj building
        exact ⟨fun _ => filledHolds, fun succeeded => absurd succeeded failed⟩
      · refine upholds.construct pending filled node _ builtStatus built filledHolds ?_ building
        intro typed
        by_contra other
        rw [instanceType, if_neg other] at typed
        cases typed
    rcases ends with ⟨failed, -, cleaned⟩ | ⟨succeeded, -, rfl⟩
    · exact upholds.cleanUp pending built node _ depth after (builtHolds.1 failed) cleaned
    · exact builtHolds.2 succeeded

theorem Upholds.instantiateChild {destination : NodeId} {rd : ReferenceDescription}
    (holds : Holds pending space) (receives : Receives destination.content) (offered : Offered rd)
    (isInstance : rd.nodeClass.isInstance = true)
    (ran : instantiateChild server world caller copyChild depth destination rd space =
      some (status, after)) :
    Holds pending after := by
  rw [OpcUa.instantiateChild] at ran
  cases found : space.store.getNode rd.nodeId.nodeId with
  | none =>
    rw [found] at ran
    obtain rfl := (Prod.mk.inj (Option.some.inj ran)).2
    exact holds
  | some node =>
    rw [found] at ran
    dsimp only at ran
    split at ran
    · obtain rfl := (Prod.mk.inj (Option.some.inj ran)).2
      exact holds
    cases inserted : space.insertNode (world space.calls) { node with
        nodeId := ⟨destination.namespaceIndex, .numeric 0⟩
        references := keepModellingRules (world space.calls) node.references }
        (space.table node.nodeId.content) with
    | mk insertStatus rest =>
      obtain ⟨newNodeId, next⟩ := rest
      obtain ⟨refused, entered⟩ := upholds.insert pending space _ rd node insertStatus newNodeId
        next holds offered isInstance found inserted
      rw [inserted] at ran
      split at ran
      · rename_i failed
        obtain rfl := (Prod.mk.inj (Option.some.inj ran)).2
        exact refused failed
      rename_i succeeded
      obtain ⟨enteredHolds, newReceives⟩ := entered (not_not.mp succeeded)
      obtain ⟨⟨copiedStatus, copied⟩, copying, ran⟩ := Option.bind_eq_some_iff.mp ran
      have copiedHolds := upholds.copyChildNodes keeps enteredHolds newReceives copying
      cases checked : typeCheckAddRefs server world caller newNodeId destination
        rd.referenceTypeId ((getNodeType space.store node).elim .null Node.nodeId) copied with
      | mk checkStatus checkedSpace =>
        obtain ⟨refused, accepted⟩ := upholds.check pending copied newNodeId destination _ _
          checkStatus checkedSpace copiedHolds receives checked
        rw [checked] at ran
        split at ran
        · rename_i failed
          obtain rfl := (Prod.mk.inj (Option.some.inj ran)).2
          exact refused failed
        · rename_i succeeded
          exact upholds.addNodeFinish keeps (accepted (not_not.mp succeeded)) newReceives ran

end

theorem findChildByBrowsename_browse {searchInstance : NodeId} {browseName : QualifiedName}
    {child : Option NodeId}
    (ran : findChildByBrowsename server world caller searchInstance browseName space =
      (status, child, after)) :
    after = (browseChildren server world caller searchInstance 12 space).2 := by
  rw [findChildByBrowsename] at ran
  generalize browseChildren server world caller searchInstance 12 space = answer at *
  dsimp only at ran
  split at ran
  · exact (congrArg (·.2.2) ran).symm
  split at ran
  · exact (congrArg (·.2.2) ran).symm
  split at ran
  · exact (congrArg (·.2.2) ran).symm
  · exact (congrArg (·.2.2) ran).symm

theorem Upholds.copyChildNode (upholds : Upholds server world caller Holds Receives Offered)
    (depth : Nat) : KeepsHolds Holds Receives Offered (copyChildNode server world caller depth) := by
  induction depth with
  | zero =>
    intro pending space destination rd status after _ _ _ ran
    cases ran
  | succ depth keeps =>
    intro pending space destination rd status after holds receives offered ran
    rw [OpcUa.copyChildNode, copyChildNodeWith] at ran
    have existing := upholds.existing pending space destination rd
    cases searched : findChildByBrowsename server world caller destination rd.browseName space with
    | mk searchStatus rest =>
    obtain ⟨existingChild, browsed⟩ := rest
    have browsedHolds : Holds pending browsed := by
      rw [findChildByBrowsename_browse searched]
      exact upholds.browse pending space destination 12 holds
    rw [searched] at ran existing
    dsimp only at ran existing
    split at ran
    · obtain rfl := (Prod.mk.inj (Option.some.inj ran)).2
      exact browsedHolds
    cases existingChild with
    | some child =>
      dsimp only at ran
      split at ran
      · rename_i isInstance
        exact upholds.copyChildNodes keeps browsedHolds
          (existing child holds receives offered isInstance rfl) ran
      · obtain rfl := (Prod.mk.inj (Option.some.inj ran)).2
        exact browsedHolds
    | none =>
      dsimp only at ran
      split at ran
      · obtain rfl := (Prod.mk.inj (Option.some.inj ran)).2
        exact browsedHolds
      split at ran
      · rename_i isMethod
        obtain rfl := (Prod.mk.inj (Option.some.inj ran)).2
        exact upholds.link pending browsed destination rd browsedHolds receives offered isMethod
      split at ran
      · rename_i isInstance
        exact upholds.instantiateChild keeps browsedHolds receives offered isInstance ran
      · obtain rfl := (Prod.mk.inj (Option.some.inj ran)).2
        exact browsedHolds

end Upholds

end OpcUa
