import OpcUa.NodeAddition
import OpcUa.TypedValues

/-!
The values of all variables fit, as long as the references between the types stay. A deletion does
not touch the types, and a new node changes nothing above the types that are there.
-/

namespace OpcUa

open StatusCode

def Nodestore.IsType (store : Nodestore) (id : NodeIdContent) : Prop :=
  ∃ node, store.nodeAt id = some node ∧ node.nodeClass.isType = true

def Nodestore.OnTypes (store : Nodestore) : Prop :=
  ∀ source target, store.Inverse [hasSubtypeId] source target →
    store.IsType source ∧ store.IsType target

def Nodestore.Covers (types store : Nodestore) : Prop :=
  ∀ source target, types.Inverse [hasSubtypeId] source target →
    store.Inverse [hasSubtypeId] source target ∧ store.IsType source ∧ store.IsType target

def Nodestore.Apart (types : Nodestore) (id : NodeIdContent) : Prop :=
  ∀ source target, types.Inverse [hasSubtypeId] source target → id ≠ source ∧ id ≠ target

section Types

variable {types store : Nodestore}

theorem Nodestore.OnTypes.covers (onTypes : store.OnTypes) : store.Covers store :=
  fun source target inverse => ⟨inverse, onTypes source target inverse⟩

theorem Nodestore.Covers.subtype (covers : types.Covers store) {sub super : NodeIdContent}
    (below : types.Subtype sub super) : store.Subtype sub super :=
  Relation.ReflTransGen.mono (fun _ _ inverse => (covers _ _ inverse).1) _ _ below

theorem Nodestore.IsType.stored {id : NodeIdContent} (isType : store.IsType id) :
    id ∈ store.stored := by
  obtain ⟨node, found, -⟩ := isType
  exact ⟨node, found⟩

theorem Nodestore.Covers.apart (covers : types.Covers store) {id : NodeIdContent}
    (fresh : id ∉ store.stored) : types.Apart id := by
  intro source target inverse
  obtain ⟨-, isType, above⟩ := covers source target inverse
  constructor
  · rintro rfl
    exact fresh isType.stored
  · rintro rfl
    exact fresh above.stored

theorem NodeClass.isOwned_isType {nodeClass : NodeClass} (owned : nodeClass.isOwned = true) :
    nodeClass.isType = false := by
  cases nodeClass <;> first | rfl | cases owned

theorem Nodestore.Covers.changes (covers : types.Covers store) {after : Nodestore}
    {comes goes : NodeIdContent → ReferenceTriple → Prop} (changes : store.Changes comes goes after)
    (kept : ∀ source target, types.Inverse [hasSubtypeId] source target →
      ∀ triple : ReferenceTriple, triple.1.1 = true → triple.2.2.2 = target → ¬goes source triple) :
    types.Covers after := by
  have stays {id : NodeIdContent} (isType : store.IsType id) : after.IsType id := by
    obtain ⟨node, found, isType⟩ := isType
    obtain ⟨new, there, changed⟩ := changes.forward found
    exact ⟨new, there, changed.nodeClass ▸ isType⟩
  intro source target inverse
  obtain ⟨⟨type, listed, server, uri, held⟩, isType, above⟩ := covers source target inverse
  refine ⟨⟨type, listed, server, uri, ?_⟩, stays isType, stays above⟩
  exact changes.holds held (kept source target inverse _ rfl rfl)

end Types

def NodeSpace.TypedBut (space : NodeSpace) (types : Nodestore) (except : Set NodeIdContent) :
    Prop :=
  ∀ id node attributes, id ∉ except → space.store.nodeAt id = some node →
    node.nodeClass = .variable → space.table id = some attributes → attributes.Fits types

structure NodeSpace.Guards (space : NodeSpace) (types : Nodestore) (except : Set NodeIdContent) :
    Prop where
  typed : space.TypedBut types except
  covers : types.Covers space.store

section Guards

variable {types : Nodestore} {except : Set NodeIdContent} {space after : NodeSpace}

section

variable (guards : space.Guards types except)
include guards

theorem NodeSpace.Guards.of_same (store : after.store = space.store)
    (table : after.table = space.table) : after.Guards types except where
  typed id node attributes other found isVariable there := by
    rw [store] at found
    rw [table] at there
    exact guards.typed id node attributes other found isVariable there
  covers := by
    rw [store]
    exact guards.covers

theorem NodeSpace.Guards.changes (table : after.table = space.table)
    {comes goes : NodeIdContent → ReferenceTriple → Prop}
    (changes : space.store.Changes comes goes after.store)
    (kept : ∀ source target, types.Inverse [hasSubtypeId] source target → ∀ triple :
      ReferenceTriple, triple.1.1 = true → triple.2.2.2 = target → ¬goes source triple) :
    after.Guards types except where
  typed id node attributes other found isVariable there := by
    obtain ⟨old, before, changed⟩ := changes.backward found
    rw [table] at there
    exact guards.typed id old attributes other before (changed.nodeClass ▸ isVariable) there
  covers := guards.covers.changes changes kept

theorem NodeSpace.Guards.takes {top : NodeIdContent} (apart : types.Apart top)
    (takes : space.Takes top after) : after.Guards types except where
  typed id node attributes other found isVariable there := by
    obtain ⟨old, before, lost⟩ := takes.reduces.nodes id node found
    rw [takes.reduces.members id ⟨node, found⟩] at there
    exact guards.typed id old attributes other before (lost.nodeClass ▸ isVariable) there
  covers := by
    -- what is taken is the node itself or an object, a variable or a method
    have stays {id : NodeIdContent} (other : top ≠ id) (isType : space.store.IsType id) :
        id ∈ after.store.stored := by
      by_contra gone
      obtain ⟨node, found, type⟩ := isType
      rcases Relation.ReflTransGen.cases_tail (takes.below id ⟨node, found⟩ gone) with
        same | ⟨above, -, child⟩
      · exact other same.symm
      · obtain ⟨_, _, _, _, _, _, _, _, _, taken, there, owned⟩ := child
        obtain rfl := Option.some.inj (found.symm.trans there)
        rw [NodeClass.isOwned_isType owned] at type
        cases type
    have typeStays {id : NodeIdContent} (other : top ≠ id) (isType : space.store.IsType id) :
        after.store.IsType id := by
      obtain ⟨node, found⟩ := stays other isType
      obtain ⟨old, there, isType⟩ := isType
      obtain ⟨before, again, lost⟩ := takes.reduces.nodes id node found
      obtain rfl := Option.some.inj (there.symm.trans again)
      exact ⟨node, found, lost.nodeClass ▸ isType⟩
    intro source target inverse
    obtain ⟨⟨type, listed, server, uri, holder, stored, member⟩, isType, above⟩ :=
      guards.covers source target inverse
    obtain ⟨otherSource, otherTarget⟩ := apart source target inverse
    obtain ⟨node, found⟩ := stays otherSource isType
    obtain ⟨old, there, lost⟩ := takes.reduces.nodes source node found
    obtain rfl := Option.some.inj (stored.symm.trans there)
    refine ⟨⟨type, listed, server, uri, node, found, ?_⟩, typeStays otherSource isType,
      typeStays otherTarget above⟩
    refine (lost.lost _ member).resolve_right ?_
    rintro ⟨-, gone⟩
    exact gone (stays otherTarget above)

theorem NodeSpace.Guards.loses {id : NodeIdContent} (apart : types.Apart id) {store : Nodestore}
    (loses : space.store.Loses {id} store) :
    ({ space with store } : NodeSpace).Guards types except := by
  have changes : space.store.Changes (fun _ _ => False) (fun _ triple => triple.2.2.2 = id)
      store := by
    intro other
    have lost := loses other
    generalize space.store.nodeAt other = before, store.nodeAt other = now at lost
    cases lost with
    | none => exact .none
    | some lost =>
      exact .some ⟨lost.attributes, fun triple member => .inl (lost.fewer triple member),
        fun triple member => lost.lost triple member⟩
  refine guards.changes rfl changes ?_
  intro source target inverse triple _ same gone
  exact (apart source target inverse).2 (gone.symm.trans same)

theorem NodeSpace.Guards.removeNode {nodeId : NodeId} (apart : types.Apart nodeId.content) :
    (space.removeNode nodeId).Guards types except where
  typed id node attributes other found isVariable there := by
    have left : (if id = nodeId.content then none else space.store.nodeAt id) = some node :=
      (nodeAt_removeNode space.store nodeId id).symm.trans found
    split at left
    · cases left
    · rename_i elsewhere
      change Function.update space.table nodeId.content none id = some attributes at there
      rw [Function.update_of_ne elsewhere] at there
      exact guards.typed id node attributes other left isVariable there
  covers := by
    have left (id : NodeIdContent) (other : nodeId.content ≠ id) :
        (space.removeNode nodeId).store.nodeAt id = space.store.nodeAt id :=
      (nodeAt_removeNode space.store nodeId id).trans (if_neg other.symm)
    intro source target inverse
    obtain ⟨otherSource, otherTarget⟩ := apart source target inverse
    obtain ⟨⟨type, listed, server, uri, holder, found, member⟩, isType, above⟩ :=
      guards.covers source target inverse
    refine ⟨⟨type, listed, server, uri, holder, ?_, member⟩, ?_, ?_⟩
    · exact (left source otherSource).trans found
    · rw [Nodestore.IsType, left source otherSource]
      exact isType
    · rw [Nodestore.IsType, left target otherTarget]
      exact above

theorem NodeSpace.Guards.removed {nodeId : NodeId} (apart : types.Apart nodeId.content)
    (only : except ⊆ {nodeId.content}) : (space.removeNode nodeId).Guards types ∅ where
  typed id node attributes _ found isVariable there := by
    have left : (if id = nodeId.content then none else space.store.nodeAt id) = some node :=
      (nodeAt_removeNode space.store nodeId id).symm.trans found
    split at left
    · cases left
    · rename_i elsewhere
      exact (guards.removeNode apart).typed id node attributes
        (fun excepted => elsewhere (only excepted)) found isVariable there
  covers := (guards.removeNode apart).covers

end

end Guards

end OpcUa
