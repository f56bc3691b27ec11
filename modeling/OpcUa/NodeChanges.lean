import OpcUa.HeldReferences

/-!
How the addition and the deletion of a reference change the nodes. The attributes stay, and of the
references only those come and go that the item names.
-/

namespace OpcUa

open GroupedSet StatusCode
open scoped List

structure Node.Changes (comes goes : ReferenceTriple → Prop) (before after : Node) : Prop where
  attributes : after = { before with references := after.references }
  comes : ∀ triple ∈ after.triples, triple ∈ before.triples ∨ comes triple
  goes : ∀ triple ∈ before.triples, triple ∈ after.triples ∨ goes triple

section Nodes

variable {comes goes moreComes moreGoes : ReferenceTriple → Prop} {before middle after : Node}

theorem Node.Changes.refl (comes goes : ReferenceTriple → Prop) (node : Node) :
    node.Changes comes goes node :=
  ⟨rfl, fun _ member => .inl member, fun _ member => .inl member⟩

theorem Node.Changes.trans (first : before.Changes comes goes middle)
    (second : middle.Changes comes goes after) : before.Changes comes goes after where
  attributes := by
    rw [second.attributes, first.attributes]
  comes triple member := by
    rcases second.comes triple member with earlier | new
    · exact first.comes triple earlier
    · exact .inr new
  goes triple member := by
    rcases first.goes triple member with stays | lost
    · exact second.goes triple stays
    · exact .inr lost

section

variable (changes : before.Changes comes goes after)
include changes

theorem Node.Changes.mono (more : ∀ triple, comes triple → moreComes triple)
    (less : ∀ triple, goes triple → moreGoes triple) : before.Changes moreComes moreGoes after where
  attributes := changes.attributes
  comes triple member := (changes.comes triple member).imp_right (more triple)
  goes triple member := (changes.goes triple member).imp_right (less triple)

theorem Node.Changes.nodeClass : after.nodeClass = before.nodeClass := by
  rw [changes.attributes]

theorem Node.Changes.nodeId : after.nodeId = before.nodeId := by
  rw [changes.attributes]

end

end Nodes

section Edits

variable {memory : ReferenceMemory} {node : Node}

theorem addReferenceKind_changes (memory : ReferenceMemory) (node : Node)
    (item : AddReferencesItem) :
    node.Changes (· = item.triple) (fun _ => False) (addReferenceKind memory node item).2 := by
  rw [addReferenceKind]
  split
  · exact .refl _ _ node
  rcases addReferenceTarget_cases memory ⟨item.referenceTypeId, !item.isForward, []⟩
    item.targetNodeId with ⟨-, -, result⟩ | ⟨-, status, -, result⟩
  · rw [result]
    dsimp only
    split
    · have single : NodeReferenceKind.targets
          ⟨item.referenceTypeId, !item.isForward, [] ++ [item.targetNodeId]⟩ =
            [item.targetNodeId.content] := rfl
      have grows := pairs_appended NodeReferenceKind.key NodeReferenceKind.targets node.references
        single
      refine ⟨rfl, fun triple member => ?_, fun triple member => .inl ?_⟩
      · exact (List.mem_cons.mp (grows.subset member)).symm
      · exact grows.symm.subset (List.mem_cons_of_mem _ member)
    · exact .refl _ _ node
  · rw [result]
    dsimp only
    split
    · -- a kind without targets
      have same : ({ node with references := node.references ++
          [⟨item.referenceTypeId, !item.isForward, []⟩] } : Node).triples = node.triples := by
        rw [Node.triples, Node.triples, pairs, pairs, List.flatMap_append]
        exact List.append_nil _
      exact ⟨rfl, fun triple member => .inl (same ▸ member),
        fun triple member => .inl (same.symm ▸ member)⟩
    · exact .refl _ _ node

theorem addReference_changes (memory : ReferenceMemory) (node : Node) (item : AddReferencesItem) :
    node.Changes (· = item.triple) (fun _ => False) (addReference memory node item).2 := by
  rw [addReference]
  cases found : node.references[node.references.findIdx item.existing]? with
  | none => exact addReferenceKind_changes memory node item
  | some refs =>
    dsimp only
    split
    · exact .refl _ _ node
    obtain ⟨inside, here⟩ := List.getElem?_eq_some_iff.mp found
    have same : refs.key = item.triple.1 :=
      (existing_iff refs item).mp (here ▸ List.findIdx_getElem)
    rcases addReferenceTarget_cases memory refs item.targetNodeId with
      ⟨-, -, result⟩ | ⟨-, status, -, result⟩
    · rw [result]
      let new : NodeReferenceKind := { refs with targetIds := refs.targetIds ++ [item.targetNodeId] }
      have grown : new.targets ~ item.triple.2 :: refs.targets := by
        rw [NodeReferenceKind.targets, List.map_append, List.map_singleton]
        exact List.perm_append_singleton _ _
      have grows := pairs_grown NodeReferenceKind.key NodeReferenceKind.targets found
        (show new.key = refs.key from rfl) grown
      rw [same] at grows
      refine ⟨rfl, fun triple member => ?_, fun triple member => .inl ?_⟩
      · exact (List.mem_cons.mp (grows.subset member)).symm
      · exact grows.symm.subset (List.mem_cons_of_mem _ member)
    · rw [result]
      dsimp only
      rw [← here, List.set_getElem_self]
      exact .refl _ _ node

def DeleteReferencesItem.Names (item : DeleteReferencesItem) (triple : ReferenceTriple) : Prop :=
  triple.1 = item.triple.1 ∧ triple.2.2.2 = item.targetNodeId.nodeId.content

theorem deleteReference_changes (node : Node) (item : DeleteReferencesItem) :
    node.Changes (fun _ => False) item.Names (deleteReference node item).2 := by
  have deletes := deleteReference_deletes node item
  generalize deleteReference node item = outcome at deletes
  cases deletes with
  | absent _ => exact .refl _ _ node
  | @deleted refs target references member same last removes wellFormed =>
    refine ⟨rfl, fun triple kept => .inl ?_, fun triple there => ?_⟩
    · exact removes.subset (List.mem_cons_of_mem _ kept)
    · rcases List.mem_cons.mp (removes.symm.subset there) with rfl | kept
      · have named := List.find?_some last
        exact .inr ⟨same, ((nodeIdEqual_iff _ _).mp named).symm⟩
      · exact .inl kept

end Edits

def Nodestore.Changes (comes goes : NodeIdContent → ReferenceTriple → Prop)
    (before after : Nodestore) : Prop :=
  ∀ id, Option.Rel (Node.Changes (comes id) (goes id)) (before.nodeAt id) (after.nodeAt id)

section Stores

variable {comes goes moreComes moreGoes : NodeIdContent → ReferenceTriple → Prop}
  {before middle after : Nodestore}

theorem Nodestore.Changes.refl (comes goes : NodeIdContent → ReferenceTriple → Prop)
    (store : Nodestore) : store.Changes comes goes store := by
  intro id
  cases store.nodeAt id with
  | none => exact .none
  | some node => exact .some (.refl _ _ node)

theorem Nodestore.Changes.forward (changes : before.Changes comes goes after) {id : NodeIdContent}
    {old : Node} (found : before.nodeAt id = some old) :
    ∃ new, after.nodeAt id = some new ∧ old.Changes (comes id) (goes id) new := by
  have same := changes id
  rw [found] at same
  generalize after.nodeAt id = next at same
  cases same with
  | some changed => exact ⟨_, rfl, changed⟩

theorem Nodestore.Changes.backward (changes : before.Changes comes goes after) {id : NodeIdContent}
    {new : Node} (found : after.nodeAt id = some new) :
    ∃ old, before.nodeAt id = some old ∧ old.Changes (comes id) (goes id) new := by
  have same := changes id
  rw [found] at same
  generalize before.nodeAt id = previous at same
  cases same with
  | some changed => exact ⟨_, rfl, changed⟩

theorem Nodestore.Changes.trans (first : before.Changes comes goes middle)
    (second : middle.Changes comes goes after) : before.Changes comes goes after := by
  intro id
  have one := first id
  have two := second id
  generalize before.nodeAt id = start, middle.nodeAt id = between, after.nodeAt id = last at one two
  cases one with
  | none =>
    cases two with
    | none => exact .none
  | some changed =>
    cases two with
    | some again => exact .some (changed.trans again)

theorem Nodestore.Changes.mono (changes : before.Changes comes goes after)
    (more : ∀ id triple, comes id triple → moreComes id triple)
    (less : ∀ id triple, goes id triple → moreGoes id triple) :
    before.Changes moreComes moreGoes after := by
  intro id
  have one := changes id
  generalize before.nodeAt id = start, after.nodeAt id = last at one
  cases one with
  | none => exact .none
  | some changed => exact .some (changed.mono (more id) (less id))

theorem Nodestore.Changes.holds (changes : before.Changes comes goes after) {id : NodeIdContent}
    {triple : ReferenceTriple} (held : (id, triple) ∈ before.held) (kept : ¬goes id triple) :
    (id, triple) ∈ after.held := by
  obtain ⟨old, found, member⟩ := held
  obtain ⟨new, there, changed⟩ := changes.forward found
  exact ⟨new, there, (changed.goes triple member).resolve_right kept⟩

theorem editNode_changes (store : Nodestore) (nodeId : NodeId) (edit : Node → StatusCode × Node)
    {comes goes : ReferenceTriple → Prop} (edits : ∀ node : Node, node.Changes comes goes (edit node).2) :
    store.Changes (fun id triple => id = nodeId.content ∧ comes triple)
      (fun id triple => id = nodeId.content ∧ goes triple) (editNode store nodeId edit).2 := by
  rw [editNode, getNode_eq]
  cases found : store.nodeAt nodeId.content with
  | none => exact .refl _ _ store
  | some node =>
    have changes := edits node
    have content : (edit node).2.nodeId.content = nodeId.content := by
      rw [changes.nodeId, nodeAt_content found]
    have stored : (edit node).2.nodeId.content ∈ store.stored := by
      rw [content]
      exact ⟨node, found⟩
    intro id
    rw [nodeAt_replaceNode stored, content]
    by_cases here : id = nodeId.content
    · rw [if_pos here, here, found]
      exact .some (changes.mono (fun _ new => ⟨rfl, new⟩) fun _ lost => ⟨rfl, lost⟩)
    · rw [if_neg here]
      have same := Nodestore.Changes.refl (fun id triple => id = nodeId.content ∧ comes triple)
        (fun id triple => id = nodeId.content ∧ goes triple) store
      exact same id

section

variable (item : AddReferencesItem) (id : NodeIdContent) (triple : ReferenceTriple)

def AddReferencesItem.Links : Prop :=
  id = item.sourceNodeId.content ∧ triple = item.triple ∨
    id = item.second.sourceNodeId.content ∧ triple = item.second.triple

def AddReferencesItem.Undoes : Prop :=
  id = item.sourceNodeId.content ∧ item.deletion.Names triple

end

theorem operationAddReference_changes (caller : Caller) (outcome : NodeOutcome) (store : Nodestore)
    (item : AddReferencesItem) :
    store.Changes item.Links item.Undoes (operationAddReference caller outcome store item).2 := by
  rw [operationAddReference]
  split
  · exact .refl _ _ store
  split
  · exact .refl _ _ store
  have first : store.Changes item.Links item.Undoes
      (editNode store item.sourceNodeId fun node => addReference outcome.first node item).2 :=
    (editNode_changes store item.sourceNodeId _ fun node =>
      addReference_changes outcome.first node item).mono (fun _ _ => .inl) fun _ _ both => False.elim both.2
  generalize editNode store item.sourceNodeId (fun node => addReference outcome.first node item) =
    added at first
  dsimp only
  split
  · exact first
  have second := first.trans ((editNode_changes added.2 item.second.sourceNodeId _ fun node =>
      addReference_changes outcome.second node item.second).mono (fun _ _ => .inr)
      fun _ _ both => False.elim both.2)
  generalize editNode added.2 item.second.sourceNodeId
    (fun node => addReference outcome.second node item.second) = linked at second
  split
  · exact second
  split
  · refine second.trans ((editNode_changes linked.2 item.sourceNodeId _ fun node =>
      deleteReference_changes node item.deletion).mono ?_ fun _ _ undone => undone)
    exact fun _ _ both => False.elim both.2
  · exact second

end Stores

end OpcUa
