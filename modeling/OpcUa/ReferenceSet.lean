import OpcUa.AddressSpaceCore
import OpcUa.Library.GroupedSet

/-!
The references of a node as a set of triples: the reference type, the direction and the target.
An addition compares the whole target with those that are there. A deletion compares the node id
of the target alone, from the last target on.
-/

namespace OpcUa

open StatusCode SwapRemove GroupedSet
open scoped List

variable {count : Nat} {targetIds : List ExpandedNodeId} {node : Node}

def ExpandedNodeId.content (id : ExpandedNodeId) :
    BitVec 32 × List LittleEndian.Byte × NodeIdContent :=
  (id.serverIndex, id.namespaceUri.bytes, id.nodeId.content)

theorem expandedNodeIdEqual_iff (first second : ExpandedNodeId) :
    expandedNodeIdEqual first second = true ↔ first.content = second.content := by
  simp [expandedNodeIdEqual, ExpandedNodeId.content, stringEqual, nodeIdEqual_iff, and_assoc]

abbrev ReferenceKey := Bool × NodeIdContent

abbrev ReferenceTriple := ReferenceKey × BitVec 32 × List LittleEndian.Byte × NodeIdContent

def NodeReferenceKind.key (refs : NodeReferenceKind) : ReferenceKey :=
  (refs.isInverse, refs.referenceTypeId.content)

def NodeReferenceKind.targets (refs : NodeReferenceKind) :
    List (BitVec 32 × List LittleEndian.Byte × NodeIdContent) :=
  refs.targetIds.map ExpandedNodeId.content

def Node.triples (node : Node) : List ReferenceTriple :=
  pairs NodeReferenceKind.key NodeReferenceKind.targets node.references

def Node.WellFormed (node : Node) : Prop :=
  GroupedSet.WellFormed NodeReferenceKind.key NodeReferenceKind.targets node.references

def AddReferencesItem.triple (item : AddReferencesItem) : ReferenceTriple :=
  ((!item.isForward, item.referenceTypeId.content), item.targetNodeId.content)

def DeleteReferencesItem.triple (item : DeleteReferencesItem) : ReferenceTriple :=
  ((!item.isForward, item.referenceTypeId.content), item.targetNodeId.content)

section Items

variable {memory : ReferenceMemory} {node : Node} {item : AddReferencesItem}
variable {refs : NodeReferenceKind}

theorem existing_iff (refs : NodeReferenceKind) (item : AddReferencesItem) :
    item.existing refs = true ↔ refs.key = item.triple.1 := by
  have direction : (refs.isInverse != item.isForward) = true ↔
      refs.isInverse = !item.isForward := by
    cases refs.isInverse <;> cases item.isForward <;> simp
  rw [AddReferencesItem.existing, Bool.and_eq_true, nodeIdEqual_iff, direction]
  constructor
  · rintro ⟨inverse, type⟩
    exact Prod.ext inverse type
  · intro same
    exact ⟨congrArg Prod.fst same, congrArg Prod.snd same⟩

def ReferenceMemory.Suffices (memory : ReferenceMemory) (node : Node) (item : AddReferencesItem) :
    Prop :=
  memory.targets = true ∧ memory.targetId = good ∧
    ((∃ refs ∈ node.references, refs.key = item.triple.1) ∨
      memory.kinds = true ∧ memory.typeId = good)

inductive AddsReference (memory : ReferenceMemory) (node : Node) (item : AddReferencesItem) :
    StatusCode × Node → Prop
  | duplicate (present : item.triple ∈ node.triples) :
      AddsReference memory node item (badDuplicateReferenceNotAllowed, node)
  | added {references : List NodeReferenceKind} (absent : item.triple ∉ node.triples)
      (enough : memory.Suffices node item)
      (adds : ({ node with references } : Node).triples ~ item.triple :: node.triples)
      (wellFormed : ({ node with references } : Node).WellFormed) :
      AddsReference memory node item (good, { node with references })
  | failed {status : StatusCode} (absent : item.triple ∉ node.triples) (bad : status ≠ good)
      (short : ¬memory.Suffices node item) : AddsReference memory node item (status, node)

theorem addReferenceTarget_cases (memory : ReferenceMemory) (refs : NodeReferenceKind)
    (target : ExpandedNodeId) :
    memory.targets = true ∧ memory.targetId = good ∧ addReferenceTarget memory refs target =
        (good, { refs with targetIds := refs.targetIds ++ [target] }) ∨
      ¬(memory.targets = true ∧ memory.targetId = good) ∧
        ∃ status, status ≠ good ∧ addReferenceTarget memory refs target = (status, refs) := by
  rw [addReferenceTarget]
  by_cases array : memory.targets = true
  · by_cases copied : memory.targetId = good
    · left
      refine ⟨array, copied, ?_⟩
      rw [array, Bool.not_true, if_neg Bool.false_ne_true, if_pos copied]
    · right
      refine ⟨fun both => copied both.2, memory.targetId, copied, ?_⟩
      rw [array, Bool.not_true, if_neg Bool.false_ne_true, if_neg copied]
  · right
    refine ⟨fun both => array both.1, badOutOfMemory, by decide, ?_⟩
    rw [Bool.not_eq_true] at array
    rw [array, Bool.not_false, if_pos rfl]

theorem mem_triples {triple : ReferenceTriple} : triple ∈ node.triples ↔
      ∃ refs ∈ node.references, refs.key = triple.1 ∧ triple.2 ∈ refs.targets := mem_pairs

theorem mem_targets {target : ExpandedNodeId} :
    refs.targetIds.any (expandedNodeIdEqual · target) = true ↔ target.content ∈ refs.targets := by
  rw [List.any_eq_true, NodeReferenceKind.targets, List.mem_map]
  refine exists_congr fun stored => and_congr_right fun _ => ?_
  exact expandedNodeIdEqual_iff stored target

theorem addReferenceKind_adds (known : node.WellFormed)
    (fresh : ∀ refs ∈ node.references, refs.key ≠ item.triple.1) :
    AddsReference memory node item (addReferenceKind memory node item) := by
  have absent : item.triple ∉ node.triples := by
    intro present
    obtain ⟨refs, member, same, -⟩ := mem_triples.mp present
    exact fresh refs member same
  have needs (enough : memory.Suffices node item) : memory.kinds = true ∧ memory.typeId = good := by
    rcases enough.2.2 with ⟨refs, member, same⟩ | kind
    · exact absurd same (fresh refs member)
    · exact kind
  rw [addReferenceKind]
  split
  · rename_i missing
    refine .failed absent (by decide) fun enough => ?_
    rw [(needs enough).1] at missing
    cases missing
  rename_i array
  rw [Bool.not_eq_true', Bool.not_eq_false] at array
  rcases addReferenceTarget_cases memory ⟨item.referenceTypeId, !item.isForward, []⟩
    item.targetNodeId with ⟨targets, copied, result⟩ | ⟨short, status, bad, result⟩
  · rw [result]
    dsimp only
    by_cases typed : memory.typeId = good
    · have both : memory.typeId ||| good = good := (or_eq_good_iff _ _).mpr ⟨typed, rfl⟩
      rw [if_pos both]
      have single : NodeReferenceKind.targets
          ⟨item.referenceTypeId, !item.isForward, [] ++ [item.targetNodeId]⟩ =
            [item.targetNodeId.content] := rfl
      exact .added absent ⟨targets, copied, .inr ⟨array, typed⟩⟩
        (pairs_appended NodeReferenceKind.key NodeReferenceKind.targets _ single)
        (known.appended fresh single)
    · have bad : memory.typeId ||| good ≠ good := fun both => typed ((or_eq_good_iff _ _).mp both).1
      rw [if_neg bad]
      exact .failed absent bad fun enough => typed (needs enough).2
  · rw [result]
    dsimp only
    have failed : memory.typeId ||| status ≠ good := fun both => bad ((or_eq_good_iff _ _).mp both).2
    rw [if_neg failed]
    exact .failed absent failed fun enough => short ⟨enough.1, enough.2.1⟩

theorem addReferenceTarget_adds (known : node.WellFormed) {index : Nat}
    (found : node.references[index]? = some refs) (same : refs.key = item.triple.1)
    (absent : item.triple ∉ node.triples) :
    AddsReference memory node item
      ((addReferenceTarget memory refs item.targetNodeId).1, { node with
        references := node.references.set index
          (addReferenceTarget memory refs item.targetNodeId).2 }) := by
  obtain ⟨inside, here⟩ := List.getElem?_eq_some_iff.mp found
  have member : refs ∈ node.references := here ▸ List.getElem_mem inside
  rcases addReferenceTarget_cases memory refs item.targetNodeId with
    ⟨targets, copied, result⟩ | ⟨short, status, bad, result⟩
  · rw [result]
    let new : NodeReferenceKind := { refs with targetIds := refs.targetIds ++ [item.targetNodeId] }
    have grown : new.targets ~ item.triple.2 :: refs.targets := by
      rw [NodeReferenceKind.targets, List.map_append]
      exact List.perm_append_singleton _ _
    have distinct : (item.triple.2 :: refs.targets).Nodup := by
      refine List.nodup_cons.mpr ⟨?_, known.distinct refs member⟩
      intro target
      exact absent (mem_triples.mpr ⟨refs, member, same, target⟩)
    have filled : new.targets ≠ [] := by
      intro empty
      rw [empty] at grown
      exact List.cons_ne_nil _ _ grown.symm.eq_nil
    have grows := pairs_grown NodeReferenceKind.key NodeReferenceKind.targets found
      (show new.key = refs.key from rfl) grown
    rw [same] at grows
    exact .added absent ⟨targets, copied, .inl ⟨refs, member, same⟩⟩ grows
      (known.set found rfl filled (grown.nodup_iff.mpr distinct))
  · rw [result]
    rw [← here, List.set_getElem_self]
    exact .failed absent bad fun enough => short ⟨enough.1, enough.2.1⟩

theorem addReference_adds (known : node.WellFormed) (memory : ReferenceMemory)
    (item : AddReferencesItem) :
    AddsReference memory node item (addReference memory node item) := by
  rw [addReference]
  cases found : node.references[node.references.findIdx item.existing]? with
  | none =>
    refine addReferenceKind_adds known fun refs member same => ?_
    have inside := List.findIdx_lt_length_of_exists
      ⟨refs, member, (existing_iff refs item).mpr same⟩
    exact absurd inside (Nat.not_lt.mpr (List.getElem?_eq_none_iff.mp found))
  | some refs =>
    obtain ⟨inside, here⟩ := List.getElem?_eq_some_iff.mp found
    have member : refs ∈ node.references := here ▸ List.getElem_mem inside
    have same : refs.key = item.triple.1 :=
      (existing_iff refs item).mp (here ▸ List.findIdx_getElem)
    have present : item.triple ∈ node.triples ↔
        refs.targetIds.any (expandedNodeIdEqual · item.targetNodeId) = true := by
      rw [mem_targets, mem_triples]
      constructor
      · rintro ⟨other, stored, key, target⟩
        rw [known.same stored member (key.trans same.symm)] at target
        exact target
      · intro target
        exact ⟨refs, member, same, target⟩
    dsimp only
    split
    · rename_i duplicate
      exact .duplicate (present.mpr duplicate)
    · rename_i new
      exact addReferenceTarget_adds known found same fun there => new (present.mp there)

end Items

section

variable (targetIds : List ExpandedNodeId) (nodeId : NodeId)

def lastNamed : Option ExpandedNodeId :=
  targetIds.reverse.find? fun target => nodeIdEqual nodeId target.nodeId

theorem lastTarget_take (inside : count ≤ targetIds.length) :
    lastNamed (targetIds.take count) nodeId =
      (lastTarget targetIds nodeId count).bind fun position => targetIds[position]? := by
  induction count with
  | zero => rfl
  | succ count ih =>
    have bound : count < targetIds.length := inside
    have stored : targetIds[count]? = some targetIds[count] := List.getElem?_eq_getElem bound
    rw [lastTarget, List.take_succ_eq_append_getElem bound, lastNamed, List.reverse_append,
      List.reverse_singleton, List.singleton_append, List.find?_cons, stored, Option.any_some]
    by_cases named : nodeIdEqual nodeId targetIds[count].nodeId = true
    · rw [named, if_pos rfl, Option.bind_some, stored]
    · rw [Bool.not_eq_true] at named
      rw [named]
      exact ih (Nat.le_of_lt bound)

theorem lastTarget_eq : lastNamed targetIds nodeId =
      (lastTarget targetIds nodeId targetIds.length).bind fun position => targetIds[position]? := by
  have whole := lastTarget_take targetIds nodeId (Nat.le_refl targetIds.length)
  rwa [List.take_length] at whole

end

theorem lastTarget_lt {nodeId : NodeId} {position : Nat}
    (found : lastTarget targetIds nodeId count = some position) :
    ∃ target, targetIds[position]? = some target := by
  induction count with
  | zero => cases found
  | succ count ih =>
    rw [lastTarget] at found
    split at found
    · rename_i named
      obtain rfl := Option.some.inj found
      cases stored : targetIds[count]? with
      | none =>
        rw [stored] at named
        cases named
      | some target => exact ⟨target, rfl⟩
    · exact ih found

inductive DeletesReference (node : Node) (item : DeleteReferencesItem) : StatusCode × Node → Prop
  | absent (none : ∀ refs ∈ node.references, refs.key = item.triple.1 →
        lastNamed refs.targetIds item.targetNodeId.nodeId = none) :
      DeletesReference node item (uncertainReferenceNotDeleted, node)
  | deleted {refs : NodeReferenceKind} {target : ExpandedNodeId}
      {references : List NodeReferenceKind} (member : refs ∈ node.references)
      (same : refs.key = item.triple.1)
      (last : lastNamed refs.targetIds item.targetNodeId.nodeId = some target)
      (removes : (refs.key, target.content) :: ({ node with references } : Node).triples ~
        node.triples)
      (wellFormed : node.WellFormed → ({ node with references } : Node).WellFormed) :
      DeletesReference node item (good, { node with references })

section Deletions

variable {node : Node} {item : DeleteReferencesItem}

theorem deletes_iff (refs : NodeReferenceKind) (item : DeleteReferencesItem) :
    ¬item.isForward = refs.isInverse ∧
        nodeIdEqual item.referenceTypeId refs.referenceTypeId = true ↔
      refs.key = item.triple.1 := by
  have direction : ¬item.isForward = refs.isInverse ↔ refs.isInverse = !item.isForward := by
    cases refs.isInverse <;> cases item.isForward <;> simp
  rw [nodeIdEqual_iff, direction]
  constructor
  · rintro ⟨inverse, type⟩
    exact Prod.ext inverse type.symm
  · intro same
    exact ⟨congrArg Prod.fst same, (congrArg Prod.snd same).symm⟩

theorem removeTarget_deletes {index position : Nat} {refs : NodeReferenceKind}
    {target : ExpandedNodeId} (found : node.references[index]? = some refs)
    (same : refs.key = item.triple.1)
    (last : lastNamed refs.targetIds item.targetNodeId.nodeId = some target)
    (stored : refs.targetIds[position]? = some target) :
    DeletesReference node item (good, { node with
      references := if (swapRemove refs.targetIds position).length > 0 then
          node.references.set index { refs with targetIds := swapRemove refs.targetIds position }
        else swapRemove node.references index }) := by
  obtain ⟨inside, here⟩ := List.getElem?_eq_some_iff.mp found
  have member : refs ∈ node.references := here ▸ List.getElem_mem inside
  have removed := (swapRemove_perm stored).map ExpandedNodeId.content
  by_cases more : (swapRemove refs.targetIds position).length > 0
  · simp only [if_pos more]
    let new : NodeReferenceKind := { refs with targetIds := swapRemove refs.targetIds position }
    have shrinks := removed
    refine .deleted member same last (pairs_shrunk NodeReferenceKind.key NodeReferenceKind.targets
      found (show new.key = refs.key from rfl) shrinks) fun known => ?_
    have distinct := shrinks.nodup_iff.mpr (known.distinct refs member)
    refine known.set found rfl ?_ (List.nodup_cons.mp distinct).2
    rw [NodeReferenceKind.targets, ne_eq, List.map_eq_nil_iff]
    exact List.ne_nil_of_length_pos more
  · simp only [if_neg more]
    have nothing := List.length_eq_zero_iff.mp (Nat.eq_zero_of_not_pos more)
    rw [nothing] at removed
    exact .deleted member same last (pairs_removed NodeReferenceKind.key NodeReferenceKind.targets
      found removed.symm.eq_singleton) fun known => known.removed found

section

variable (node : Node) (item : DeleteReferencesItem)

def DeletesBelow (count : Nat) : Option (List NodeReferenceKind) → Prop
  | none => ∀ index < count, ∀ refs, node.references[index]? = some refs →
      refs.key = item.triple.1 → lastNamed refs.targetIds item.targetNodeId.nodeId = none
  | some references => DeletesReference node item (good, { node with references })

theorem deleteReferenceFrom_deletes (count : Nat) :
    DeletesBelow node item count (deleteReferenceFrom node.references item count) := by
  induction count with
  | zero => exact nofun
  | succ count ih =>
    -- a kind that is passed over leaves the outcome to those in front of it
    have pass (other : ∀ refs, node.references[count]? = some refs → refs.key = item.triple.1 →
        lastNamed refs.targetIds item.targetNodeId.nodeId = none) :
        DeletesBelow node item (count + 1) (deleteReferenceFrom node.references item count) := by
      generalize deleteReferenceFrom node.references item count = outcome at ih
      cases outcome with
      | none =>
        intro index bound refs stored same
        rcases Nat.lt_succ_iff_lt_or_eq.mp bound with earlier | here
        · exact ih index earlier refs stored same
        · subst here
          exact other refs stored same
      | some references => exact ih
    rw [deleteReferenceFrom]
    cases stored : node.references[count]? with
    | none =>
      refine pass fun refs found => ?_
      rw [stored] at found
      cases found
    | some refs =>
      have only {other : NodeReferenceKind} (found : node.references[count]? = some other) :
          refs = other := Option.some.inj (stored.symm.trans found)
      dsimp only
      split
      · rename_i direction
        refine pass fun other found same => ?_
        rw [← only found] at same
        exact absurd direction ((deletes_iff refs item).mpr same).1
      rename_i direction
      split
      · rename_i type
        refine pass fun other found same => ?_
        rw [← only found] at same
        rw [((deletes_iff refs item).mpr same).2] at type
        cases type
      rename_i type
      rw [Bool.not_eq_true', Bool.not_eq_false] at type
      have same := (deletes_iff refs item).mp ⟨direction, type⟩
      have named := lastTarget_eq refs.targetIds item.targetNodeId.nodeId
      split
      · rename_i missing
        rw [missing, Option.bind_none] at named
        refine pass fun other found _ => ?_
        rw [← only found]
        exact named
      · rename_i position found
        obtain ⟨target, here⟩ := lastTarget_lt found
        rw [found, Option.bind_some, here] at named
        have removed := removeTarget_deletes stored same named here
        split
        · rename_i more
          simp only [if_pos more] at removed
          exact removed
        · rename_i last
          simp only [if_neg last] at removed
          exact removed

theorem deleteReference_deletes : DeletesReference node item (deleteReference node item) := by
  have below := deleteReferenceFrom_deletes node item node.references.length
  rw [deleteReference]
  generalize deleteReferenceFrom node.references item node.references.length = outcome at below
  cases outcome with
  | none =>
    refine .absent fun refs member same => ?_
    obtain ⟨index, bound, here⟩ := List.mem_iff_getElem.mp member
    exact below index bound refs (List.getElem?_eq_some_iff.mpr ⟨bound, here⟩) same
  | some references => exact below

end

end Deletions

inductive ReferenceOperation where
  | add (memory : ReferenceMemory) (item : AddReferencesItem)
  | delete (item : DeleteReferencesItem)

def ReferenceOperation.perform (node : Node) : ReferenceOperation → StatusCode × Node
  | add memory item => addReference memory node item
  | delete item => deleteReference node item

inductive ReferenceRun : Node → Prop
  | start (node : Node) (empty : node.references = []) : ReferenceRun node
  | step {node : Node} (run : ReferenceRun node) (operation : ReferenceOperation) :
      ReferenceRun (operation.perform node).2

def AddMeets (memory : ReferenceMemory) (node : Node) (item : AddReferencesItem) : Prop :=
  ((addReference memory node item).1 = good ↔ item.triple ∉ node.triples) ∧
    ((addReference memory node item).1 = good → ∀ triple,
      triple ∈ (addReference memory node item).2.triples ↔
        triple ∈ node.triples ∨ triple = item.triple) ∧
    ((addReference memory node item).1 ≠ good → (addReference memory node item).2 = node)

def DeleteMeets (node : Node) (item : DeleteReferencesItem) : Prop :=
  ((deleteReference node item).1 = good ↔ item.triple ∈ node.triples) ∧
    ((deleteReference node item).1 = good → ∀ triple,
      triple ∈ (deleteReference node item).2.triples ↔
        triple ∈ node.triples ∧ triple ≠ item.triple) ∧
    ((deleteReference node item).1 ≠ good → (deleteReference node item).2 = node)

def NamesTarget (node : Node) (item : DeleteReferencesItem) : Prop :=
  ∀ refs ∈ node.references, refs.key = item.triple.1 → ∀ target,
    lastNamed refs.targetIds item.targetNodeId.nodeId = some target →
      target.content = item.targetNodeId.content

theorem ReferenceRun.wellFormed (run : ReferenceRun node) : node.WellFormed := by
  induction run with
  | start node empty =>
    rw [Node.WellFormed, empty]
    exact .nil
  | @step node run operation ih =>
    cases operation with
    | add memory item =>
      have adds := addReference_adds ih memory item
      rw [ReferenceOperation.perform]
      generalize addReference memory node item = outcome at adds
      cases adds with
      | duplicate _ => exact ih
      | added _ _ _ wellFormed => exact wellFormed
      | failed _ _ _ => exact ih
    | delete item =>
      have deletes := deleteReference_deletes node item
      rw [ReferenceOperation.perform]
      generalize deleteReference node item = outcome at deletes
      cases deletes with
      | absent _ => exact ih
      | deleted _ _ _ _ wellFormed => exact wellFormed ih

theorem addMeets_iff (known : node.WellFormed) (memory : ReferenceMemory) (item : AddReferencesItem)
    : AddMeets memory node item ↔ item.triple ∈ node.triples ∨ memory.Suffices node item := by
  have adds := addReference_adds known memory item
  rw [AddMeets]
  generalize addReference memory node item = outcome at adds
  cases adds with
  | duplicate present =>
    have bad : badDuplicateReferenceNotAllowed ≠ good := by decide
    refine ⟨fun _ => .inl present, fun _ => ⟨?_, ?_, fun _ => rfl⟩⟩
    · exact ⟨fun same => absurd same bad, fun absent => absurd present absent⟩
    · intro same
      exact absurd same bad
  | added absent enough adds wellFormed =>
    refine ⟨fun _ => .inr enough, fun _ => ⟨⟨fun _ => absent, fun _ => rfl⟩, ?_, ?_⟩⟩
    · intro _ triple
      rw [adds.mem_iff, List.mem_cons, or_comm]
    · intro bad
      exact absurd rfl bad
  | failed absent bad short =>
    constructor
    · intro meets
      exact absurd (meets.1.mpr absent) bad
    · rintro (present | enough)
      · exact absurd present absent
      · exact absurd enough short

theorem lastNamed_ne_none {target : ExpandedNodeId}
    (stored : target.content ∈ targetIds.map ExpandedNodeId.content) :
    lastNamed targetIds target.nodeId ≠ none := by
  intro missing
  obtain ⟨other, member, same⟩ := List.mem_map.mp stored
  have different := List.find?_eq_none.mp missing other (List.mem_reverse.mpr member)
  have nodeId : target.nodeId.content = other.nodeId.content :=
    congrArg (fun content => content.2.2) same.symm
  exact different ((nodeIdEqual_iff _ _).mpr nodeId)

theorem deleteMeets_iff (known : node.WellFormed) (item : DeleteReferencesItem) :
    DeleteMeets node item ↔ NamesTarget node item := by
  have deletes := deleteReference_deletes node item
  rw [DeleteMeets]
  generalize deleteReference node item = outcome at deletes
  cases deletes with
  | absent none =>
    have bad : uncertainReferenceNotDeleted ≠ good := by decide
    constructor
    · intro _ refs member same target last
      rw [none refs member same] at last
      cases last
    · intro _
      refine ⟨⟨fun same => absurd same bad, ?_⟩, fun same => absurd same bad, fun _ => rfl⟩
      intro present
      obtain ⟨refs, member, same, stored⟩ := mem_triples.mp present
      exact absurd (none refs member same) (lastNamed_ne_none stored)
  | @deleted refs target references member same last removes wellFormed =>
    have distinct := removes.nodup_iff.mpr known.nodup
    have gone := (List.nodup_cons.mp distinct).1
    have left (triple : ReferenceTriple) : triple ∈ ({ node with references } : Node).triples ↔
        triple ∈ node.triples ∧ triple ≠ (refs.key, target.content) := by
      rw [← removes.mem_iff, List.mem_cons]
      constructor
      · intro stays
        exact ⟨.inr stays, fun equal => gone (equal ▸ stays)⟩
      · rintro ⟨equal | stays, other⟩
        · exact absurd equal other
        · exact stays
    have removed := removes.subset List.mem_cons_self
    constructor
    · intro meets other inside key found named
      rw [known.same inside member (key.trans same.symm), last] at named
      obtain rfl := Option.some.inj named
      have equal : (refs.key, target.content) = item.triple := by
        by_contra different
        exact gone ((meets.2.1 rfl _).mpr ⟨removed, different⟩)
      exact congrArg Prod.snd equal
    · intro names
      have content := names refs member same target last
      rw [same, content] at removed left
      exact ⟨⟨fun _ => removed, fun _ => rfl⟩, fun _ => left, fun bad => absurd rfl bad⟩

/-- Whatever the operations were, the kinds are distinct and not empty, and no target is there
twice. The next addition meets its description if there is memory for it, the next deletion if the
last target with the node id is the one that is meant. -/
theorem references_semantics {node : Node} (run : ReferenceRun node) : node.WellFormed ∧
      (∀ memory item, AddMeets memory node item ↔
        item.triple ∈ node.triples ∨ memory.Suffices node item) ∧
      ∀ item, DeleteMeets node item ↔ NamesTarget node item :=
  ⟨run.wellFormed, addMeets_iff run.wellFormed, deleteMeets_iff run.wellFormed⟩

/-! A target on another server -/

def ampleReferenceMemory : ReferenceMemory := ⟨true, true, good, good⟩

def emptyNode : Node :=
  ⟨⟨1, .numeric 1⟩, .object, ⟨1, .null⟩, ⟨.null, .null⟩, false, []⟩

def componentTarget (serverIndex : BitVec 32) : ExpandedNodeId :=
  ⟨⟨1, .numeric 2⟩, .null, serverIndex⟩

def componentNode (serverIndex : BitVec 32) : Node :=
  (addReference ampleReferenceMemory emptyNode
    ⟨emptyNode.nodeId, hasComponentId, true, .null, componentTarget serverIndex⟩).2

theorem componentNode_run (serverIndex : BitVec 32) : ReferenceRun (componentNode serverIndex) :=
  (ReferenceRun.start emptyNode rfl).step (.add _ _)

def componentDeletion : DeleteReferencesItem :=
  ⟨emptyNode.nodeId, hasComponentId, true, componentTarget 0, true⟩

def laterAdditions : List AddReferencesItem :=
  [⟨emptyNode.nodeId, hasComponentId, true, .null, ⟨⟨1, .numeric 3⟩, .null, 1⟩⟩,
    ⟨emptyNode.nodeId, hasTypeDefinitionId, true, .null, componentTarget 0⟩]

def relatedNode : Node :=
  laterAdditions.foldl (fun node item => (addReference ampleReferenceMemory node item).2)
    (componentNode 0)

/-- Of three references of two kinds the deletion takes the one that it names. -/
theorem componentNode_meets : relatedNode.WellFormed ∧ DeleteMeets relatedNode componentDeletion ∧
    relatedNode.triples.length = 3 ∧
    (deleteReference relatedNode componentDeletion).2.triples.length = 2 := by
  have run : ReferenceRun relatedNode := ((componentNode_run 0).step (.add _ _)).step (.add _ _)
  obtain ⟨wellFormed, -, deletes⟩ := references_semantics run
  refine ⟨wellFormed, (deletes componentDeletion).mpr ?_, by decide, by decide⟩
  intro refs member same target last
  rcases List.mem_cons.mp member with rfl | other
  · obtain rfl := Option.some.inj last
    rfl
  · obtain rfl := List.mem_singleton.mp other
    exact absurd same (by decide)

/-- The deletion of a reference that is not there succeeds, and takes the one to the other server
away. -/
theorem componentNode_loses : ReferenceRun (componentNode 1) ∧
    componentDeletion.triple ∉ (componentNode 1).triples ∧
    (deleteReference (componentNode 1) componentDeletion).1 = good ∧
    (componentNode 1).triples.length = 1 ∧
    (deleteReference (componentNode 1) componentDeletion).2.triples = [] := by
  refine ⟨componentNode_run 1, ?_, by decide, by decide, by decide⟩
  intro present
  have server : (0 : BitVec 32) = 1 :=
    congrArg (fun triple => triple.2.1) (List.mem_singleton.mp present)
  exact absurd server (by decide)

end OpcUa
