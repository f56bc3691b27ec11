import OpcUa.NodeManagementCore
import OpcUa.ReferenceSet

/-!
What the nodestore holds under an id: the node, and its references as triples. The changes of the
nodestore are told by what they leave under each id.
-/

namespace OpcUa

open StatusCode

variable {store : Nodestore} {node : Node}

/-! What the nodestore holds -/

def Nodestore.nodeAt (store : Nodestore) (id : NodeIdContent) : Option Node :=
  store.nodes.find? fun node => node.nodeId.content = id

theorem getNode_eq (store : Nodestore) (nodeId : NodeId) :
    store.getNode nodeId = store.nodeAt nodeId.content := by
  rw [Nodestore.getNode, Nodestore.nodeAt]
  congr 1
  funext node
  rw [Bool.eq_iff_iff, nodeIdEqual_iff, decide_eq_true_iff]

theorem nodeAt_content {id : NodeIdContent} (found : store.nodeAt id = some node) :
    node.nodeId.content = id := by
  have matched := List.find?_some found
  exact of_decide_eq_true matched

abbrev Holding := NodeIdContent × ReferenceTriple

def Nodestore.stored (store : Nodestore) : Set NodeIdContent :=
  { id | ∃ node, store.nodeAt id = some node }

def Nodestore.held (store : Nodestore) : Set Holding :=
  { holding | ∃ node, store.nodeAt holding.1 = some node ∧ holding.2 ∈ node.triples }

def Nodestore.WellFormed (store : Nodestore) : Prop :=
  ∀ id node, store.nodeAt id = some node → node.WellFormed

theorem nodeAt_replaceNode_other (store : Nodestore) {id : NodeIdContent}
    (other : id ≠ node.nodeId.content) : (store.replaceNode node).nodeAt id = store.nodeAt id := by
  rw [Nodestore.nodeAt, Nodestore.nodeAt, Nodestore.replaceNode]
  induction store.nodes with
  | nil => rfl
  | cons first rest ih =>
    rw [List.map_cons, List.find?_cons, List.find?_cons, ih]
    by_cases here : first.nodeId.content = node.nodeId.content
    · rw [if_pos ((nodeIdEqual_iff _ _).mpr here), here, decide_eq_false other.symm]
    · rw [if_neg fun equal => here ((nodeIdEqual_iff _ _).mp equal)]

theorem nodeAt_replaceNode_self (stored : node.nodeId.content ∈ store.stored) :
    (store.replaceNode node).nodeAt node.nodeId.content = some node := by
  obtain ⟨old, found⟩ := stored
  rw [Nodestore.nodeAt] at found ⊢
  rw [Nodestore.replaceNode]
  generalize store.nodes = nodes at found
  induction nodes with
  | nil => cases found
  | cons first rest ih =>
    rw [List.find?_cons] at found
    rw [List.map_cons, List.find?_cons]
    by_cases here : first.nodeId.content = node.nodeId.content
    · rw [if_pos ((nodeIdEqual_iff _ _).mpr here), decide_eq_true rfl]
    · rw [decide_eq_false here] at found
      rw [if_neg fun equal => here ((nodeIdEqual_iff _ _).mp equal), decide_eq_false here]
      exact ih found

theorem nodeAt_replaceNode (stored : node.nodeId.content ∈ store.stored) (id : NodeIdContent) :
    (store.replaceNode node).nodeAt id =
      if id = node.nodeId.content then some node else store.nodeAt id := by
  by_cases same : id = node.nodeId.content
  · rw [if_pos same, same]
    exact nodeAt_replaceNode_self stored
  · rw [if_neg same]
    exact nodeAt_replaceNode_other store same

theorem nodeAt_removeNode (store : Nodestore) (nodeId : NodeId) (id : NodeIdContent) :
    (store.removeNode nodeId).nodeAt id =
      if id = nodeId.content then none else store.nodeAt id := by
  rw [Nodestore.nodeAt, Nodestore.nodeAt, Nodestore.removeNode]
  rw [List.find?_filter]
  by_cases same : id = nodeId.content
  · rw [if_pos same, List.find?_eq_none]
    intro node _ found
    rw [decide_eq_true_iff, Bool.not_eq_true', decide_eq_true_iff] at found
    have equal := (nodeIdEqual_iff node.nodeId nodeId).mpr (found.2.trans same)
    rw [equal] at found
    cases found.1
  · rw [if_neg same]
    congr 1
    funext node
    rw [Bool.eq_iff_iff, decide_eq_true_iff, Bool.not_eq_true', decide_eq_true_iff]
    constructor
    · exact And.right
    · intro found
      refine ⟨?_, found⟩
      rw [Bool.eq_false_iff]
      intro equal
      exact same (found ▸ (nodeIdEqual_iff _ _).mp equal)

theorem nodeAt_append (store : Nodestore) (node : Node) (id : NodeIdContent) :
    Nodestore.nodeAt ⟨store.nodes ++ [node]⟩ id =
      (store.nodeAt id).or (if node.nodeId.content = id then some node else none) := by
  rw [Nodestore.nodeAt, Nodestore.nodeAt, List.find?_append, List.find?_singleton]
  by_cases here : node.nodeId.content = id
  · rw [if_pos here, if_pos (decide_eq_true here)]
  · rw [if_neg here, if_neg (by simpa using here)]

end OpcUa
