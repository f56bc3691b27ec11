import OpcUa.HeldReferences
import OpcUa.Library.BoundedReach

/-!
The search for a node in the tree above another one. It looks for visited nodes at every fifth depth
only, and finds what at most 50 inverse references of the given types lead to.
-/

namespace OpcUa

open BoundedReach

variable {referenceTypeIds : List NodeId}
variable {store : Nodestore} {source target : NodeIdContent}

def Nodestore.Inverse (store : Nodestore) (referenceTypeIds : List NodeId)
    (source target : NodeIdContent) : Prop :=
  ∃ type ∈ referenceTypeIds, ∃ server uri,
    (source, (true, type.content), server, uri, target) ∈ store.held

theorem inverse_iff : store.Inverse referenceTypeIds source target ↔
      ∃ node, store.nodeAt source = some node ∧ ∃ refs ∈ node.references, refs.isInverse = true ∧
        (∃ type ∈ referenceTypeIds, refs.referenceTypeId.content = type.content) ∧
        ∃ targetId ∈ refs.targetIds, targetId.nodeId.content = target := by
  constructor
  · rintro ⟨type, listed, server, uri, node, found, triple⟩
    obtain ⟨refs, member, key, targeted⟩ := mem_triples.mp triple
    obtain ⟨targetId, inside, same⟩ := List.mem_map.mp targeted
    obtain ⟨inverse, typed⟩ := Prod.mk.inj key
    exact ⟨node, found, refs, member, inverse, ⟨type, listed, typed⟩, targetId, inside,
      congrArg (fun content => content.2.2) same⟩
  · rintro ⟨node, found, refs, member, inverse, ⟨type, listed, typed⟩, targetId, inside, same⟩
    refine ⟨type, listed, targetId.serverIndex, targetId.namespaceUri.bytes, node, found, ?_⟩
    refine mem_triples.mpr ⟨refs, member, Prod.ext inverse typed, List.mem_map.mpr ?_⟩
    exact ⟨targetId, inside, by rw [ExpandedNodeId.content, same]⟩

section Search

variable {store : Nodestore} {nodeToFind : NodeId}
variable {left : Nat} {leafNode : NodeId} {visited : List NodeId}

theorem isNodeInTreeNoCircular_succ (left : Nat) (leafNode : NodeId) (visited : List NodeId) :
    isNodeInTreeNoCircular store nodeToFind referenceTypeIds (left + 1) leafNode visited = true ↔
      leafNode.content = nodeToFind.content ∨
        ∃ node, store.nodeAt leafNode.content = some node ∧ ∃ refs ∈ node.references,
          refs.isInverse = true ∧
          (∃ type ∈ referenceTypeIds, refs.referenceTypeId.content = type.content) ∧
          ∃ targetId ∈ refs.targetIds, ¬((maxTreeRecurse - (left + 1)) % 5 = 4 ∧
              ∃ seen ∈ visited, seen.content = targetId.nodeId.content) ∧
            isNodeInTreeNoCircular store nodeToFind referenceTypeIds left targetId.nodeId
              (targetId.nodeId :: visited) = true := by
  rw [isNodeInTreeNoCircular, Bool.or_eq_true, nodeIdEqual_iff, getNode_eq]
  refine or_congr eq_comm ?_
  cases store.nodeAt leafNode.content with
  | none => simp
  | some node =>
    have passed (targetId : ExpandedNodeId) : (¬(maxTreeRecurse - (left + 1)) % 5 = 4 ∨
          ∀ seen ∈ visited, ¬seen.content = targetId.nodeId.content) ↔
        ¬((maxTreeRecurse - (left + 1)) % 5 = 4 ∧
          ∃ seen ∈ visited, seen.content = targetId.nodeId.content) := by
      rw [not_and_or, not_exists]
      simp only [not_and]
    simp only [List.any_eq_true, Bool.and_eq_true, Bool.not_eq_true', Bool.and_eq_false_iff,
      nodeIdEqual_iff, beq_eq_false_iff_ne, List.any_eq_false, Option.some.injEq,
      exists_eq_left', and_assoc, ne_eq, passed]

theorem isNodeInTreeNoCircular_within
    (found : isNodeInTreeNoCircular store nodeToFind referenceTypeIds left leafNode visited = true)
    : Within (store.Inverse referenceTypeIds) left leafNode.content nodeToFind.content := by
  induction left generalizing leafNode visited with
  | zero => exact ((nodeIdEqual_iff _ _).mp found).symm
  | succ left ih =>
    rcases (isNodeInTreeNoCircular_succ left leafNode visited).mp found with
      here | ⟨node, stored, refs, member, inverse, typed, targetId, inside, -, rest⟩
    · exact .inl here
    · exact .inr ⟨_, inverse_iff.mpr ⟨node, stored, refs, member, inverse, typed, targetId, inside,
        rfl⟩, ih rest⟩

theorem isNodeInTreeNoCircular_complete {distance : Nat} (enough : distance ≤ left)
    (near : Within (store.Inverse referenceTypeIds) distance leafNode.content nodeToFind.content)
    (listed : leafNode ∈ visited) (farther : ∀ seen ∈ visited, ∀ fewer < distance,
      ¬Within (store.Inverse referenceTypeIds) fewer seen.content nodeToFind.content) :
    isNodeInTreeNoCircular store nodeToFind referenceTypeIds left leafNode visited = true := by
  induction distance generalizing left leafNode visited with
  | zero =>
    have here : leafNode.content = nodeToFind.content := near
    have same := (nodeIdEqual_iff nodeToFind leafNode).mpr here.symm
    cases left with
    | zero => exact same
    | succ left => exact (isNodeInTreeNoCircular_succ left leafNode visited).mpr (.inl here)
  | succ distance ih =>
    obtain ⟨left, rfl⟩ : ∃ fewer, left = fewer + 1 := ⟨left - 1, by omega⟩
    rcases near with here | ⟨next, inverse, rest⟩
    · exact (isNodeInTreeNoCircular_succ left leafNode visited).mpr (.inl here)
    obtain ⟨node, stored, refs, member, direction, typed, targetId, inside, rfl⟩ :=
      inverse_iff.mp inverse
    have nearest : ∀ fewer < distance,
        ¬Within (store.Inverse referenceTypeIds) fewer targetId.nodeId.content
          nodeToFind.content := by
      intro fewer below shorter
      exact farther leafNode listed (fewer + 1) (by omega) (.inr ⟨_, inverse, shorter⟩)
    refine (isNodeInTreeNoCircular_succ left leafNode visited).mpr (.inr ⟨node, stored, refs,
      member, direction, typed, targetId, inside, ?_, ?_⟩)
    · rintro ⟨-, seen, before, same⟩
      apply farther seen before distance (Nat.lt_succ_self distance)
      rw [same]
      exact rest
    · refine ih (by omega) rest List.mem_cons_self ?_
      intro seen member fewer below
      rcases List.mem_cons.mp member with rfl | before
      · exact nearest fewer below
      · exact farther seen before fewer (by omega)

end Search

theorem isNodeInTree_iff (store : Nodestore) (leafNode nodeToFind : NodeId)
    (referenceTypeIds : List NodeId) :
    isNodeInTree store leafNode nodeToFind referenceTypeIds = true ↔
      Within (store.Inverse referenceTypeIds) maxTreeRecurse leafNode.content
        nodeToFind.content := by
  constructor
  · exact isNodeInTreeNoCircular_within
  · intro near
    obtain ⟨least, bounded, nearest, farther⟩ := near.exists_least
    refine isNodeInTreeNoCircular_complete bounded nearest List.mem_cons_self ?_
    intro seen member
    rw [List.mem_singleton.mp member]
    exact farther

theorem Nodestore.Inverse.stored (inverse : store.Inverse referenceTypeIds source target)
    : source ∈ store.stored := by
  obtain ⟨_, _, _, _, node, found, _⟩ := inverse
  exact ⟨node, found⟩

/-- The search finds the node if and only if it is the leaf or a way of at most 50 references leads
up to it, so that the look for visited nodes hides no way. Every node on the way is there, but for
the last one. -/
theorem isNodeInTree_ways (store : Nodestore) (leafNode nodeToFind : NodeId)
    (referenceTypeIds : List NodeId) :
    isNodeInTree store leafNode nodeToFind referenceTypeIds = true ↔
      nodeToFind.content = leafNode.content ∨
        ∃ way : List NodeIdContent, way.head? = some leafNode.content ∧
          way.getLast? = some nodeToFind.content ∧ way.length ≤ maxTreeRecurse + 1 ∧
          way.IsChain (store.Inverse referenceTypeIds) ∧ ∀ id ∈ way.dropLast, id ∈ store.stored := by
  rw [isNodeInTree_iff, within_iff_path]
  constructor
  · rintro ⟨rest, short, chain, last⟩
    refine .inr ⟨leafNode.content :: rest, rfl, last, Nat.succ_le_succ short, chain, ?_⟩
    intro id member
    obtain ⟨next, inverse⟩ := step_of_mem_dropLast chain member
    exact inverse.stored
  · rintro (same | ⟨way, first, last, short, chain, -⟩)
    · exact ⟨[], Nat.zero_le _, .singleton _, congrArg some same.symm⟩
    · cases way with
      | nil => cases first
      | cons leaf rest =>
        obtain rfl := Option.some.inj first
        exact ⟨rest, Nat.le_of_succ_le_succ short, chain, last⟩

theorem isNodeInTree_mono {before after : Nodestore} {leafNode nodeToFind : NodeId}
    (covers : ∀ source target, before.Inverse referenceTypeIds source target →
      after.Inverse referenceTypeIds source target)
    (found : isNodeInTree before leafNode nodeToFind referenceTypeIds = true) :
    isNodeInTree after leafNode nodeToFind referenceTypeIds = true :=
  (isNodeInTree_iff after leafNode nodeToFind referenceTypeIds).mpr
    (((isNodeInTree_iff before leafNode nodeToFind referenceTypeIds).mp found).mono covers)

end OpcUa
