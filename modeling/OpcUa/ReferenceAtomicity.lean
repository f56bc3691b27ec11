import OpcUa.InstanceIsolation

/-!
AddReferences as one change of two nodes. When the second direction cannot be added, the deletion
of the first one meets the target that was added last, and the node is again what it was.
-/

namespace OpcUa

open StatusCode SwapRemove List

variable {node : Node} {item : AddReferencesItem} {store added : Nodestore}
variable {nodeId : NodeId} {after : Nodestore} {new : Node}

/-! Taking an addition back -/

def NodeReferenceKind.push (refs : NodeReferenceKind) (target : ExpandedNodeId) :
    NodeReferenceKind :=
  { refs with targetIds := refs.targetIds ++ [target] }

section Undo

variable {memory : ReferenceMemory} {after : Node}
variable {index : Nat} {refs : NodeReferenceKind}
variable {references : List NodeReferenceKind} {position : Nat}

theorem lastTarget_concat (targetIds : List ExpandedNodeId) (target : ExpandedNodeId) :
    lastTarget (targetIds ++ [target]) target.nodeId (targetIds ++ [target]).length =
      some targetIds.length := by
  rw [length_append, length_singleton, lastTarget, getElem?_concat_length,
    Option.any_some, if_pos (nodeIdEqual_refl _)]

theorem deleteReferenceFrom_skips {item : DeleteReferencesItem}
    (others : ∀ position, index < position → ∀ refs, references[position]? = some refs →
      refs.key ≠ item.triple.1) (steps : Nat) :
    deleteReferenceFrom references item (index + 1 + steps) =
      deleteReferenceFrom references item (index + 1) := by
  induction steps with
  | zero => rfl
  | succ steps ih =>
    rw [← Nat.add_assoc, deleteReferenceFrom]
    cases stored : references[index + 1 + steps]? with
    | none => exact ih
    | some refs =>
      have other := others (index + 1 + steps) (by omega) refs stored
      rw [← ih]
      dsimp only
      split
      · rfl
      · rename_i direction
        have type : (!nodeIdEqual item.referenceTypeId refs.referenceTypeId) = true := by
          rw [Bool.not_eq_true', ← Bool.not_eq_true]
          exact fun same => other ((deletes_iff refs item).mp ⟨direction, same⟩)
        rw [if_pos type]

theorem deleteReferenceFrom_hits {item : DeleteReferencesItem}
    (stored : references[index]? = some refs) (same : refs.key = item.triple.1)
    (last : lastTarget refs.targetIds item.targetNodeId.nodeId refs.targetIds.length =
      some position) :
    deleteReferenceFrom references item (index + 1) =
      if (swapRemove refs.targetIds position).length > 0 then
        some (references.set index { refs with targetIds := swapRemove refs.targetIds position })
      else some (swapRemove references index) := by
  have chosen := (deletes_iff refs item).mpr same
  rw [deleteReferenceFrom, stored]
  dsimp only
  rw [if_neg chosen.1, if_neg (by rw [chosen.2]; decide), last]

theorem addReference_good (added : addReference memory node item = (good, after)) :
    (∃ index refs, node.references[index]? = some refs ∧ refs.key = item.triple.1 ∧
      after = { node with
        references := node.references.set index (refs.push item.targetNodeId) }) ∨
    after = { node with references := node.references ++
      [⟨item.referenceTypeId, !item.isForward, [item.targetNodeId]⟩] } := by
  rw [addReference] at added
  cases found : node.references[node.references.findIdx item.existing]? with
  | none =>
    right
    rw [found] at added
    dsimp only at added
    rw [addReferenceKind] at added
    split at added
    · cases added
    · rcases addReferenceTarget_cases memory ⟨item.referenceTypeId, !item.isForward, []⟩
        item.targetNodeId with ⟨-, -, result⟩ | ⟨-, status, bad, result⟩
      · rw [result] at added
        dsimp only at added
        split at added
        · injection added with _ same
          exact same.symm
        · rename_i failed
          injection added with status
          exact absurd status failed
      · rw [result] at added
        have failed : memory.typeId ||| status ≠ good :=
          fun both => bad ((or_eq_good_iff _ _).mp both).2
        dsimp only at added
        rw [if_neg failed] at added
        injection added with status
        exact absurd status failed
  | some refs =>
    left
    obtain ⟨inside, here⟩ := List.getElem?_eq_some_iff.mp found
    have same : refs.key = item.triple.1 :=
      (existing_iff refs item).mp (here ▸ List.findIdx_getElem)
    rw [found] at added
    dsimp only at added
    split at added
    · cases added
    · rcases addReferenceTarget_cases memory refs item.targetNodeId with
        ⟨-, -, result⟩ | ⟨-, status, bad, result⟩
      · rw [result] at added
        injection added with _ after
        exact ⟨_, refs, found, same, after.symm⟩
      · rw [result] at added
        injection added with good
        exact absurd good bad

section

variable (known : node.WellFormed) (found : node.references[index]? = some refs)
include known found

theorem Node.WellFormed.key_ne {other : NodeReferenceKind}
    (stored : node.references[position]? = some other) (apart : index ≠ position) :
    other.key ≠ refs.key := by
  obtain ⟨inside, here⟩ := List.getElem?_eq_some_iff.mp found
  obtain ⟨bound, there⟩ := List.getElem?_eq_some_iff.mp stored
  intro equal
  have keys := nodup_iff_injective_get.mp known.keys
  have positions := @keys ⟨index, by rwa [length_map]⟩ ⟨position, by rwa [length_map]⟩
    (by simp only [get_eq_getElem, getElem_map, here, there, equal])
  exact apart (Fin.mk.inj_iff.mp positions)

theorem deleteReference_grown (same : refs.key = item.triple.1) : deleteReference { node with
        references := node.references.set index (refs.push item.targetNodeId) } item.deletion =
      (good, node) := by
  obtain ⟨inside, here⟩ := List.getElem?_eq_some_iff.mp found
  have member : refs ∈ node.references := here ▸ List.getElem_mem inside
  have filled : refs.targetIds.length > 0 := by
    rw [gt_iff_lt, length_pos_iff]
    intro empty
    exact known.filled refs member (by rw [NodeReferenceKind.targets, empty, map_nil])
  -- no kind behind it has its type and direction
  have others : ∀ position, index < position → ∀ other,
      (node.references.set index (refs.push item.targetNodeId))[position]? = some other →
        other.key ≠ item.deletion.triple.1 := by
    intro position behind other stored equal
    rw [getElem?_set_ne (Nat.ne_of_lt behind)] at stored
    exact known.key_ne found stored (Nat.ne_of_lt behind) (equal.trans same.symm)
  have stored : (node.references.set index (refs.push item.targetNodeId))[index]? =
      some (refs.push item.targetNodeId) := getElem?_set_self inside
  obtain ⟨rest, length⟩ : ∃ rest, (node.references.set index
      (refs.push item.targetNodeId)).length = index + 1 + rest := by
    rw [length_set]
    exact Nat.exists_eq_add_of_le inside
  have removed : swapRemove (refs.push item.targetNodeId).targetIds refs.targetIds.length =
      refs.targetIds := by
    rw [NodeReferenceKind.push, swapRemove_concat, if_neg (Nat.lt_irrefl _)]
  have key : (refs.push item.targetNodeId).key = item.deletion.triple.1 := same
  have last := lastTarget_concat refs.targetIds item.targetNodeId
  have hit : deleteReferenceFrom (node.references.set index (refs.push item.targetNodeId))
      item.deletion (index + 1) = some node.references := by
    rw [deleteReferenceFrom_hits stored key last, removed, if_pos filled, set_set]
    change some (node.references.set index refs) = some node.references
    rw [← here, set_getElem_self]
  rw [deleteReference]
  dsimp only
  rw [length, deleteReferenceFrom_skips others, hit]

end

theorem deleteReference_appended (node : Node) (item : AddReferencesItem) :
    deleteReference { node with references := node.references ++
        [⟨item.referenceTypeId, !item.isForward, [item.targetNodeId]⟩] } item.deletion =
      (good, node) := by
  let new : NodeReferenceKind := ⟨item.referenceTypeId, !item.isForward, [item.targetNodeId]⟩
  have stored : (node.references ++ [new])[node.references.length]? = some new :=
    getElem?_concat_length
  have length : (node.references ++ [new]).length = node.references.length + 1 := by
    rw [length_append, length_singleton]
  have hit : deleteReferenceFrom (node.references ++ [new]) item.deletion
      (node.references.length + 1) = some node.references := by
    have same : new.key = item.deletion.triple.1 := rfl
    have emptied : swapRemove new.targetIds ([] : List ExpandedNodeId).length = [] := rfl
    rw [deleteReferenceFrom_hits stored same (lastTarget_concat [] item.targetNodeId), emptied,
      length_nil, if_neg (Nat.lt_irrefl 0), swapRemove_concat, if_neg (Nat.lt_irrefl _)]
  rw [deleteReference]
  rw [length, hit]

theorem addReference_undone (known : node.WellFormed)
    (added : addReference memory node item = (good, after)) :
    deleteReference after item.deletion = (good, node) := by
  rcases addReference_good added with ⟨index, refs, found, same, rfl⟩ | rfl
  · exact deleteReference_grown known found same
  · exact deleteReference_appended node item

end Undo

structure ReferenceAllocations where
  kinds : Bool
  targets : Bool
  typeId : Bool
  targetId : Bool

def ReferenceAllocations.memory (allocations : ReferenceAllocations) : ReferenceMemory where
  kinds := allocations.kinds
  targets := allocations.targets
  typeId := if allocations.typeId then good else badOutOfMemory
  targetId := if allocations.targetId then good else badOutOfMemory

def NodeOutcome.withAllocations (outcome : NodeOutcome) (first second : ReferenceAllocations) :
    NodeOutcome :=
  { outcome with first := first.memory, second := second.memory }

/-- An addition to one node: the reference is there, it is added and can be taken back, or there
is no memory. -/
inductive AddsOneWay (node : Node) (item : AddReferencesItem) : StatusCode × Node → Prop
  | existed (present : item.triple ∈ node.triples) :
      AddsOneWay node item (badDuplicateReferenceNotAllowed, node)
  | added {after : Node} (present : item.triple ∈ after.triples)
      (kept : ∀ triple ∈ node.triples, triple ∈ after.triples) (wellFormed : after.WellFormed)
      (nodeId : after.nodeId = node.nodeId)
      (undone : deleteReference after item.deletion = (good, node)) :
      AddsOneWay node item (good, after)
  | failed : AddsOneWay node item (badOutOfMemory, node)

def Allocates (status : StatusCode) : Prop := status = good ∨ status = badOutOfMemory

theorem Allocates.or {first second : StatusCode} (one : Allocates first) (two : Allocates second) :
    Allocates (first ||| second) := by
  rcases one with rfl | rfl
  · rcases two with rfl | rfl
    · exact .inl rfl
    · exact .inr rfl
  · rcases two with rfl | rfl
    · exact .inr rfl
    · exact .inr rfl

section

variable (allocations : ReferenceAllocations)

theorem allocations_allocate :
    Allocates allocations.memory.typeId ∧ Allocates allocations.memory.targetId := by
  constructor
  · rw [ReferenceAllocations.memory]
    cases allocations.typeId with
    | true => exact .inl rfl
    | false => exact .inr rfl
  · rw [ReferenceAllocations.memory]
    cases allocations.targetId with
    | true => exact .inl rfl
    | false => exact .inr rfl

theorem addReferenceTarget_status (refs : NodeReferenceKind) (target : ExpandedNodeId) :
    Allocates (addReferenceTarget allocations.memory refs target).1 := by
  rw [addReferenceTarget]
  split
  · exact .inr rfl
  · split
    · exact .inl rfl
    · exact (allocations_allocate allocations).2

theorem addReferenceKind_status (node : Node) (item : AddReferencesItem) :
    Allocates (addReferenceKind allocations.memory node item).1 := by
  rw [addReferenceKind]
  split
  · exact .inr rfl
  · have target := addReferenceTarget_status allocations
      ⟨item.referenceTypeId, !item.isForward, []⟩ item.targetNodeId
    generalize addReferenceTarget allocations.memory
      ⟨item.referenceTypeId, !item.isForward, []⟩ item.targetNodeId = outcome at target
    dsimp only
    split
    · exact .inl rfl
    · exact (allocations_allocate allocations).1.or target

theorem addReference_status (absent : item.triple ∉ node.triples) :
    Allocates (addReference allocations.memory node item).1 := by
  rw [addReference]
  cases found : node.references[node.references.findIdx item.existing]? with
  | none => exact addReferenceKind_status allocations node item
  | some refs =>
    obtain ⟨inside, here⟩ := List.getElem?_eq_some_iff.mp found
    have same : refs.key = item.triple.1 :=
      (existing_iff refs item).mp (here ▸ List.findIdx_getElem)
    have new : ¬refs.targetIds.any (expandedNodeIdEqual · item.targetNodeId) = true := by
      rw [mem_targets]
      intro target
      exact absent (mem_triples.mpr ⟨refs, here ▸ List.getElem_mem inside, same, target⟩)
    dsimp only
    rw [if_neg new]
    exact addReferenceTarget_status allocations refs item.targetNodeId

end

theorem addReference_oneWay (known : node.WellFormed) (allocations : ReferenceAllocations)
    (item : AddReferencesItem) :
    AddsOneWay node item (addReference allocations.memory node item) := by
  have adds := addReference_adds known allocations.memory item
  generalize result : addReference allocations.memory node item = outcome at adds
  cases adds with
  | duplicate present => exact .existed present
  | added absent enough grows wellFormed =>
    exact .added (grows.symm.subset mem_cons_self)
      (fun triple member => grows.symm.subset (mem_cons_of_mem _ member)) wellFormed rfl
      (addReference_undone known result)
  | @failed status absent bad short =>
    have allocates := addReference_status allocations absent
    rw [result] at allocates
    obtain rfl : status = badOutOfMemory := allocates.resolve_left bad
    exact .failed

theorem editNode_missing (missing : store.nodeAt nodeId.content = none)
    (edit : Node → StatusCode × Node) : editNode store nodeId edit = (badNodeIdUnknown, store) := by
  rw [editNode, getNode_eq, missing]

def Nodestore.With (after store : Nodestore) (id : NodeIdContent) (node : Node) : Prop :=
  ∀ other, after.nodeAt other = if other = id then some node else store.nodeAt other

theorem editNode_found (found : store.nodeAt nodeId.content = some node)
    (edit : Node → StatusCode × Node) (same : (edit node).2.nodeId = node.nodeId) :
    (editNode store nodeId edit).1 = (edit node).1 ∧
      (editNode store nodeId edit).2.With store nodeId.content (edit node).2 := by
  have content : (edit node).2.nodeId.content = nodeId.content := by
    rw [same, nodeAt_content found]
  have stored : (edit node).2.nodeId.content ∈ store.stored := by
    rw [content]
    exact ⟨node, found⟩
  rw [editNode, getNode_eq, found]
  refine ⟨rfl, fun other => ?_⟩
  rw [nodeAt_replaceNode stored, content]

theorem AddsOneWay.nodeId_eq {outcome : StatusCode × Node} (adds : AddsOneWay node item outcome) :
    outcome.2.nodeId = node.nodeId := by
  cases adds with
  | existed present => rfl
  | added present kept wellFormed nodeId undone => exact nodeId
  | failed => rfl

inductive EditsOneWay (store : Nodestore) (item : AddReferencesItem) :
    StatusCode × Nodestore → Prop
  | unchanged {status : StatusCode} {after : Nodestore}
      (bad : status = badNodeIdUnknown ∨ status = badOutOfMemory)
      (same : ∀ id, after.nodeAt id = store.nodeAt id) : EditsOneWay store item (status, after)
  | existed {after : Nodestore} {node : Node}
      (found : store.nodeAt item.sourceNodeId.content = some node)
      (present : item.triple ∈ node.triples)
      (same : ∀ id, after.nodeAt id = store.nodeAt id) :
      EditsOneWay store item (badDuplicateReferenceNotAllowed, after)
  | added {after : Nodestore} {node new : Node}
      (found : store.nodeAt item.sourceNodeId.content = some node)
      (present : item.triple ∈ new.triples)
      (kept : ∀ triple ∈ node.triples, triple ∈ new.triples) (wellFormed : new.WellFormed)
      (nodeId : new.nodeId = node.nodeId)
      (undone : deleteReference new item.deletion = (good, node))
      (changed : after.With store item.sourceNodeId.content new) :
      EditsOneWay store item (good, after)

theorem addOneWay_edits (known : store.WellFormed) (allocations : ReferenceAllocations)
    (item : AddReferencesItem) :
    EditsOneWay store item (editNode store item.sourceNodeId fun node =>
      addReference allocations.memory node item) := by
  cases found : store.nodeAt item.sourceNodeId.content with
  | none =>
    rw [editNode_missing found]
    exact .unchanged (.inl rfl) fun _ => rfl
  | some node =>
    have adds := addReference_oneWay (known _ node found) allocations item
    obtain ⟨status, changed⟩ := editNode_found found
      (fun node => addReference allocations.memory node item) adds.nodeId_eq
    generalize editNode store item.sourceNodeId
      (fun node => addReference allocations.memory node item) = result at status changed ⊢
    generalize addReference allocations.memory node item = outcome at adds status changed
    obtain ⟨code, after⟩ := result
    have same (unchanged : outcome.2 = node) : ∀ id, after.nodeAt id = store.nodeAt id := by
      intro id
      rw [changed, unchanged]
      split
      · rename_i here
        rw [here, found]
      · rfl
    cases adds with
    | existed present =>
      subst status
      exact .existed found present (same rfl)
    | added present kept wellFormed nodeId undone =>
      subst status
      exact .added found present kept wellFormed nodeId undone changed
    | failed =>
      subst status
      exact .unchanged (.inr rfl) (same rfl)

structure AddsAtomically (store : Nodestore) (item : AddReferencesItem)
    (result : StatusCode × Nodestore) : Prop where
  bad : result.1 ≠ good → ∀ nodeId, result.2.getNode nodeId = store.getNode nodeId
  source : result.1 = good → ∃ node, result.2.getNode item.sourceNodeId = some node ∧
    item.triple ∈ node.triples
  target : result.1 = good → ∃ node, result.2.getNode item.targetNodeId.nodeId = some node ∧
    item.second.triple ∈ node.triples
  wellFormed : result.2.WellFormed

theorem AddsAtomically.unchanged {after : Nodestore} (known : store.WellFormed)
    {status : StatusCode} (bad : status ≠ good)
    (same : ∀ id, after.nodeAt id = store.nodeAt id) :
    AddsAtomically store item (status, after) where
  bad _ nodeId := by rw [getNode_eq, getNode_eq, same]
  source good := absurd good bad
  target good := absurd good bad
  wellFormed id node found := known id node (same id ▸ found)

theorem Nodestore.With.wellFormed {id : NodeIdContent} (changed : after.With store id node)
    (known : store.WellFormed) (new : node.WellFormed) : after.WellFormed := by
  intro other stored found
  rw [changed] at found
  split at found
  · injection found with same
    exact same ▸ new
  · exact known other stored found

theorem AddsAtomically.linked (middle : added.WellFormed) {source target : Node}
    (found : added.nodeAt item.sourceNodeId.content = some source)
    (present : item.triple ∈ source.triples)
    (there : added.nodeAt item.second.sourceNodeId.content = some target)
    (inverse : item.second.triple ∈ new.triples)
    (kept : ∀ triple ∈ target.triples, triple ∈ new.triples) (wellFormed : new.WellFormed)
    (changed : after.With added item.second.sourceNodeId.content new) :
    AddsAtomically store item (good, after) where
  bad failed := absurd rfl failed
  source _ := by
    rw [getNode_eq, changed]
    by_cases self : item.sourceNodeId.content = item.second.sourceNodeId.content
    · rw [if_pos self]
      rw [← self, found, Option.some.injEq] at there
      subst there
      exact ⟨new, rfl, kept _ present⟩
    · rw [if_neg self]
      exact ⟨source, found, present⟩
  target _ := by
    rw [getNode_eq, changed]
    exact ⟨new, if_pos rfl, inverse⟩
  wellFormed := changed.wellFormed middle wellFormed

def addSecond (outcome : NodeOutcome) (item : AddReferencesItem) (first : StatusCode)
    (added : Nodestore) : StatusCode × Nodestore :=
  let firstExisted := first = badDuplicateReferenceNotAllowed
  match editNode added item.second.sourceNodeId fun node =>
    addReference outcome.second node item.second with
  | (second, linked) =>
    if second = badDuplicateReferenceNotAllowed then
      (if firstExisted then badDuplicateReferenceNotAllowed else good, linked)
    else if second ≠ good ∧ ¬firstExisted then
      (second, (editNode linked item.sourceNodeId fun node =>
        deleteReference node item.deletion).2)
    else (second, linked)

theorem operationAddReference_eq (caller : Caller) (outcome : NodeOutcome) (store : Nodestore)
    (item : AddReferencesItem) :
    operationAddReference caller outcome store item =
      if !caller.isAdmin && !caller.allowAddReference item then (badUserAccessDenied, store)
      else if item.targetServerUri.length > 0 then (badNotImplemented, store)
      else
        let first := editNode store item.sourceNodeId fun node =>
          addReference outcome.first node item
        if first.1 ≠ good ∧ ¬first.1 = badDuplicateReferenceNotAllowed then first
        else addSecond outcome item first.1 first.2 := rfl

theorem addSecond_existed (known : store.WellFormed)
    (same : ∀ id, added.nodeAt id = store.nodeAt id)
    (found : store.nodeAt item.sourceNodeId.content = some node)
    (present : item.triple ∈ node.triples) (outcome : NodeOutcome)
    (allocations : ReferenceAllocations) (memory : outcome.second = allocations.memory) :
    AddsAtomically store item (addSecond outcome item badDuplicateReferenceNotAllowed added) := by
  have middle : added.WellFormed := fun id node found => known id node (same id ▸ found)
  have edits := addOneWay_edits middle allocations item.second
  rw [addSecond, memory]
  generalize editNode added item.second.sourceNodeId
    (fun node => addReference allocations.memory node item.second) = second at edits ⊢
  cases edits with
  | @unchanged status after bad kept =>
    have codes : status ≠ badDuplicateReferenceNotAllowed ∧ status ≠ good := by
      rcases bad with rfl | rfl <;> decide
    dsimp only
    rw [if_neg codes.1, if_neg fun both => both.2 rfl]
    exact .unchanged known codes.2 fun id => (kept id).trans (same id)
  | existed _ _ kept =>
    exact .unchanged known (by decide) fun id => (kept id).trans (same id)
  | @added after target new there inverse others wellFormed nodeId undone changed =>
    have code : good ≠ badDuplicateReferenceNotAllowed := by decide
    dsimp only
    rw [if_neg code]
    exact .linked middle ((same _).trans found) present there inverse others wellFormed changed

theorem addSecond_added (known : store.WellFormed)
    (found : store.nodeAt item.sourceNodeId.content = some node)
    (present : item.triple ∈ new.triples) (wellFormed : new.WellFormed)
    (nodeId : new.nodeId = node.nodeId) (undone : deleteReference new item.deletion = (good, node))
    (changed : added.With store item.sourceNodeId.content new) (outcome : NodeOutcome)
    (allocations : ReferenceAllocations) (memory : outcome.second = allocations.memory) :
    AddsAtomically store item (addSecond outcome item good added) := by
  have middle := changed.wellFormed known wellFormed
  have edits := addOneWay_edits middle allocations item.second
  have source : added.nodeAt item.sourceNodeId.content = some new := by
    rw [changed, if_pos rfl]
  have code : good ≠ badDuplicateReferenceNotAllowed := by decide
  rw [addSecond, memory]
  generalize editNode added item.second.sourceNodeId
    (fun node => addReference allocations.memory node item.second) = second at edits ⊢
  cases edits with
  | @unchanged status after bad kept =>
    have codes : status ≠ badDuplicateReferenceNotAllowed ∧ status ≠ good := by
      rcases bad with rfl | rfl <;> decide
    dsimp only
    rw [if_neg codes.1, if_pos ⟨codes.2, code⟩]
    refine .unchanged known codes.2 fun id => ?_
    have linked : after.nodeAt item.sourceNodeId.content = some new := (kept _).trans source
    have restored := (editNode_found linked (fun node => deleteReference node item.deletion)
      (by rw [undone, nodeId])).2 id
    rw [restored, undone]
    split
    · rename_i here
      rw [here, found]
    · rename_i elsewhere
      rw [kept, changed, if_neg elsewhere]
  | @existed after target there inverse kept =>
    dsimp only
    rw [if_pos rfl, if_neg code]
    refine ⟨fun bad => absurd rfl bad, fun _ => ?_, fun _ => ?_, fun id other held => ?_⟩
    · rw [getNode_eq, kept]
      exact ⟨new, source, present⟩
    · rw [getNode_eq, kept]
      exact ⟨target, there, inverse⟩
    · exact middle id other (kept id ▸ held)
  | @added after target other there inverse others otherFormed _ _ linked =>
    dsimp only
    rw [if_neg code, if_neg fun both => both.1 rfl]
    exact .linked middle source present there inverse others otherFormed linked

/-- AddReferences for one item changes both nodes or none. -/
theorem operationAddReference_atomic {store : Nodestore} (known : store.WellFormed)
    (caller : Caller) (outcome : NodeOutcome) (first second : ReferenceAllocations)
    (item : AddReferencesItem) :
    AddsAtomically store item
      (operationAddReference caller (outcome.withAllocations first second) store item) := by
  rw [operationAddReference_eq]
  split
  · exact .unchanged known (by decide) fun _ => rfl
  split
  · exact .unchanged known (by decide) fun _ => rfl
  have edits := addOneWay_edits known first item
  change EditsOneWay store item (editNode store item.sourceNodeId fun node =>
    addReference (outcome.withAllocations first second).first node item) at edits
  generalize editNode store item.sourceNodeId (fun node =>
    addReference (outcome.withAllocations first second).first node item) = result at edits ⊢
  dsimp only
  cases edits with
  | @unchanged status after bad kept =>
    have codes : status ≠ good ∧ ¬status = badDuplicateReferenceNotAllowed := by
      rcases bad with rfl | rfl <;> decide
    rw [if_pos codes]
    exact .unchanged known codes.1 kept
  | existed found present kept =>
    rw [if_neg fun both => both.2 rfl]
    exact addSecond_existed known kept found present _ second rfl
  | added found present _ wellFormed nodeId undone changed =>
    rw [if_neg fun both => both.1 rfl]
    exact addSecond_added known found present wellFormed nodeId undone changed _ second rfl

def machinePair : Nodestore :=
  ⟨[plainNode (machineId 1) .object [], plainNode (machineId 2) .object []]⟩

def machineReference : AddReferencesItem :=
  ⟨machineId 1, hasComponentId, true, .null, .ofNodeId (machineId 2)⟩

theorem machineReference_atomic : AddsAtomically machinePair machineReference
      (operationAddReference adminCaller
        (plainOutcome.withAllocations ⟨true, true, true, true⟩ ⟨true, false, true, true⟩)
        machinePair machineReference) := by
  refine operationAddReference_atomic ?_ _ _ _ _ _
  intro id node found
  have member : node ∈ machinePair.nodes := mem_of_find?_eq_some found
  have plain : node.references = [] := by
    rcases mem_cons.mp member with rfl | last
    · rfl
    · rw [mem_singleton.mp last]
      rfl
  rw [Node.WellFormed, plain]
  exact GroupedSet.WellFormed.nil

end OpcUa
