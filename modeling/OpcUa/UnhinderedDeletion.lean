import OpcUa.NodeDeletion

/-!
A deletion that nothing hinders takes everything below the node. The order in which the children
are visited does not matter, since a reference goes only when the node that it leads to is gone.
-/

namespace OpcUa

open StatusCode

variable {node : Node}

/-- The session may delete the nodes, Browse returns all children, none of the nodes has subtypes or
instances, and the tree of the types is apart from the node and from what is below it. -/
structure NodeSpace.Unhindered (server : NodeServer) (world : Nat → NodeOutcome) (caller : Caller)
    (space : NodeSpace) (top : NodeIdContent) : Prop where
  permitted : ∀ item, caller.isAdmin = true ∨ caller.allowDeleteNode item = true
  unlimited : server.maxReferencesPerNode = 0
  memory : ∀ call, (world call).browse = .ample
  aggregates : ∃ type, space.store.nodeAt aggregatesId.content = some type ∧
    type.nodeClass = .referenceType
  owned : ∃ node, space.store.nodeAt top = some node ∧ node.nodeClass.isOwned = true
  nodes : ∀ id node, space.store.Below top id → space.store.nodeAt id = some node →
    node.WellFormed ∧ node.triples.length < int32Max ∧ hasSubTypeOrInstances node = false
  apart : ∀ source target, space.store.Inverse [hasSubtypeId] source target →
    ¬space.store.Below top source ∧ ¬space.store.Below top target

def NodeSpace.Clears (before after : NodeSpace) : Prop :=
  ∀ id ∈ before.store.stored, id ∉ after.store.stored →
    ∀ child, before.store.Child id child → child ∉ after.store.stored

theorem Nodestore.Child.stored {store : Nodestore} {source target : NodeIdContent}
    (child : store.Child source target) : source ∈ store.stored ∧ target ∈ store.stored := by
  obtain ⟨node, found, _, _, _, _, _, _, _, below, there, _⟩ := child
  exact ⟨⟨node, found⟩, ⟨below, there⟩⟩

theorem NodeSpace.Clears.below {before after : NodeSpace} {top : NodeIdContent}
    (clears : before.Clears after) (gone : top ∉ after.store.stored) {id : NodeIdContent}
    (below : before.store.Below top id) : id ∉ after.store.stored := by
  induction below with
  | refl => exact gone
  | tail _ child ih => exact clears _ child.stored.1 ih _ child

theorem Node.Loses.hasSubTypeOrInstances {gone : Set NodeIdContent} {before after : Node}
    (loses : before.Loses gone after) (known : before.WellFormed)
    (free : hasSubTypeOrInstances before = false) : hasSubTypeOrInstances after = false := by
  rw [OpcUa.hasSubTypeOrInstances, List.any_eq_false] at free ⊢
  intro refs member used
  obtain ⟨target, inside⟩ := List.exists_mem_of_ne_nil _
    ((loses.wellFormed known).filled refs member)
  obtain ⟨old, listed, key, -⟩ := mem_triples.mp
    (loses.fewer (refs.key, target) (mem_triples.mpr ⟨refs, member, rfl, inside⟩))
  obtain ⟨direction, type⟩ := Prod.mk.inj key
  apply free old listed
  have same (id : NodeId) :
      nodeIdEqual old.referenceTypeId id = nodeIdEqual refs.referenceTypeId id := by
    rw [Bool.eq_iff_iff, nodeIdEqual_iff, nodeIdEqual_iff, type]
  rw [direction, same, same]
  exact used

section Kept

variable {start space : NodeSpace}
variable {source target : NodeIdContent}

theorem NodeSpace.Reduces.keepsInverse (reduces : start.Reduces space) {types : List NodeId}
    (inverse : start.store.Inverse types source target)
    (above : source ∈ start.store.stored → source ∈ space.store.stored)
    (below : target ∈ start.store.stored → target ∈ space.store.stored) :
    space.store.Inverse types source target := by
  obtain ⟨type, listed, server, uri, holder, stored, triple⟩ := inverse
  obtain ⟨left, found⟩ := above ⟨holder, stored⟩
  obtain ⟨_, again, loses⟩ := reduces.nodes source left found
  obtain rfl := Option.some.inj (stored.symm.trans again)
  refine ⟨type, listed, server, uri, left, found, ?_⟩
  refine (loses.lost _ triple).resolve_right ?_
  rintro ⟨there, gone⟩
  exact gone (below there)

theorem NodeSpace.Reduces.keepsChild (reduces : start.Reduces space)
    (covers : ∀ source target, start.store.Inverse [hasSubtypeId] source target →
      space.store.Inverse [hasSubtypeId] source target) (child : start.store.Child source target)
    (above : source ∈ space.store.stored) (below : target ∈ space.store.stored) :
    space.store.Child source target := by
  obtain ⟨node, found, refs, member, forward, aggregates, targetId, inside, same, old, there,
    owned⟩ := child
  obtain ⟨kept, foundKept⟩ := above
  obtain ⟨keptBelow, foundBelow⟩ := below
  obtain ⟨_, before, loses⟩ := reduces.nodes source kept foundKept
  obtain rfl := Option.some.inj (found.symm.trans before)
  obtain ⟨_, beforeBelow, losesBelow⟩ := reduces.nodes target keptBelow foundBelow
  obtain rfl := Option.some.inj (there.symm.trans beforeBelow)
  have held : (refs.key, targetId.content) ∈ node.triples :=
    mem_triples.mpr ⟨refs, member, rfl, List.mem_map_of_mem inside⟩
  have stays : (refs.key, targetId.content) ∈ kept.triples := by
    refine (loses.lost _ held).resolve_right ?_
    rintro ⟨-, gone⟩
    apply gone
    rw [show referenceTarget (refs.key, targetId.content) = target from same]
    exact ⟨keptBelow, foundBelow⟩
  obtain ⟨keptRefs, listed, key, targeted⟩ := mem_triples.mp stays
  obtain ⟨keptTarget, among, content⟩ := List.mem_map.mp targeted
  obtain ⟨direction, type⟩ := Prod.mk.inj key
  refine ⟨kept, foundKept, keptRefs, listed, direction.trans forward, ?_, keptTarget, among, ?_,
    keptBelow, foundBelow, ?_⟩
  · have within := (isNodeInTree_iff _ _ _ _).mp (isNodeInTree_mono covers aggregates)
    rw [isNodeInTree_iff, show keptRefs.referenceTypeId.content = refs.referenceTypeId.content from
      type]
    exact within
  · rw [← same]
    exact congrArg (fun content => content.2.2) content
  · rw [losesBelow.nodeClass]
    exact owned

end Kept

theorem allReferences_length (server : BrowseServer) (descr : BrowseDescription)
    (found : server.store.nodeAt descr.nodeId.content = some node) :
    (allReferences server descr).length ≤ node.triples.length := by
  rw [allReferences, getNode_eq, found, Option.elim_some, Node.triples, GroupedSet.pairs]
  induction node.references with
  | nil => exact Nat.le_refl _
  | cons rk kinds ih =>
    have here : (if followsKind server.store descr rk then
        rk.targetIds.filterMap (describeTarget server.store descr rk) else []).length ≤
        (rk.targets.map (Prod.mk rk.key)).length := by
      rw [List.length_map, NodeReferenceKind.targets, List.length_map]
      split
      · exact List.length_filterMap_le _ _
      · exact Nat.zero_le _
    rw [List.flatMap_cons, List.flatMap_cons, List.length_append, List.length_append]
    omega

theorem operationBrowse_unlimited {server : BrowseServer} {descr : BrowseDescription}
    (browsable : Browsable server descr) (unlimited : server.maxReferencesPerNode = 0)
    (few : (allReferences server descr).length < int32Max) (random : Guid)
    (session : BrowseSession) :
    operationBrowse server .ample random session 0 descr =
      (⟨good, .null, allReferences server descr⟩, session) := by
  have continues := browseWithContinuation_continues server .ample (firstPoint 0 descr)
  have served : (browseWithContinuation server .ample (firstPoint 0 descr)).2.2.statusCode = good :=
    Browsable.continues browsable
  rw [operationBrowse]
  generalize browseWithContinuation server .ample (firstPoint 0 descr) = outcome at *
  cases continues with
  | done all =>
    rw [all, remaining_firstPoint]
    exact if_pos (.inl rfl)
  | full splits fills remains =>
    exfalso
    have limit : maxRefs server 0 = int32Max := by
      rw [maxRefs, if_pos rfl, if_neg (not_not.mpr unlimited)]
    rw [show (firstPoint 0 descr).maxReferences = 0 from rfl, limit] at fills
    have length := congrArg List.length splits
    rw [remaining_firstPoint, List.length_append] at length
    omega
  | failed bad => exact absurd served bad

theorem browseChildren_unlimited {server : NodeServer} {world : Nat → NodeOutcome} (caller : Caller)
    {space : NodeSpace} (unlimited : server.maxReferencesPerNode = 0)
    (memory : (world space.calls).browse = .ample)
    (aggregates : ∃ type, space.store.nodeAt aggregatesId.content = some type ∧
      type.nodeClass = .referenceType) (found : space.store.nodeAt node.nodeId.content = some node)
    (few : node.triples.length < int32Max) :
    (browseChildren server world caller node.nodeId 0 space).1 =
      ⟨good, .null, allReferences ⟨space.store, server.maxReferencesPerNode⟩
        (childrenDescription node.nodeId 0)⟩ := by
  let browsed : BrowseServer := ⟨space.store, server.maxReferencesPerNode⟩
  obtain ⟨type, stored, class_⟩ := aggregates
  have browsable : Browsable browsed (childrenDescription node.nodeId 0) := by
    refine ⟨.inr (.inl rfl), .inr ⟨type, ?_, class_⟩, node, ?_⟩
    · rw [getNode_eq]
      exact stored
    · rw [getNode_eq]
      exact found
  have fewer :=
    Nat.lt_of_le_of_lt (allReferences_length browsed (childrenDescription node.nodeId 0) found) few
  rw [browseChildren, memory, operationBrowse_unlimited browsable unlimited fewer]

section Unhindered

variable {server : NodeServer} {world : Nat → NodeOutcome} {caller : Caller}
  {start space after : NodeSpace} {top : NodeIdContent}
variable {id : NodeIdContent} {node : Node}

section

variable (unhindered : start.Unhindered server world caller top)
include unhindered

theorem NodeSpace.Unhindered.child (takes : start.Takes top space) {source target : NodeIdContent}
    (child : start.store.Child source target) (above : source ∈ space.store.stored)
    (below : target ∈ space.store.stored) : space.store.Child source target := by
  refine takes.reduces.keepsChild ?_ child above below
  intro first second inverse
  obtain ⟨apartFirst, apartSecond⟩ := unhindered.apart first second inverse
  refine takes.reduces.keepsInverse inverse ?_ ?_
  · intro stored
    by_contra gone
    exact apartFirst (takes.below first stored gone)
  · intro stored
    by_contra gone
    exact apartSecond (takes.below second stored gone)

theorem NodeSpace.Unhindered.kept (takes : start.Takes top space) (below : start.store.Below top id)
    (found : space.store.nodeAt id = some node) :
    node.triples.length < int32Max ∧ hasSubTypeOrInstances node = false := by
  obtain ⟨old, before, loses⟩ := takes.reduces.nodes id node found
  obtain ⟨known, few, free⟩ := unhindered.nodes id old below before
  exact ⟨Nat.lt_of_le_of_lt loses.shorter few, loses.hasSubTypeOrInstances known free⟩

theorem NodeSpace.Unhindered.isOwned (below : start.store.Below top id) :
    ∃ node, start.store.nodeAt id = some node ∧ node.nodeClass.isOwned = true := by
  rcases Relation.ReflTransGen.cases_tail below with rfl | ⟨_, _, child⟩
  · exact unhindered.owned
  · obtain ⟨_, _, _, _, _, _, _, _, _, node, found, owned⟩ := child
    exact ⟨node, found, owned⟩

theorem NodeSpace.Unhindered.browse (takes : start.Takes top space)
    (below : start.store.Below top node.nodeId.content)
    (found : space.store.nodeAt node.nodeId.content = some node) :
    (browseChildren server world caller node.nodeId 0 space).1.statusCode = good ∧
      ∀ child, space.store.Child node.nodeId.content child →
        ∃ rd ∈ (browseChildren server world caller node.nodeId 0 space).1.references,
          rd.nodeId.nodeId.content = child := by
  have tree : ∃ type, space.store.nodeAt aggregatesId.content = some type ∧
      type.nodeClass = .referenceType := by
    obtain ⟨type, stored, class_⟩ := unhindered.aggregates
    have stays : aggregatesId.content ∈ space.store.stored := by
      by_contra gone
      obtain ⟨other, again, owned⟩ :=
        unhindered.isOwned (takes.below _ ⟨type, stored⟩ gone)
      obtain rfl := Option.some.inj (stored.symm.trans again)
      rw [class_] at owned
      cases owned
    obtain ⟨kept, there⟩ := stays
    obtain ⟨old, before, loses⟩ := takes.reduces.nodes _ kept there
    obtain rfl := Option.some.inj (stored.symm.trans before)
    exact ⟨kept, there, loses.nodeClass.trans class_⟩
  rw [browseChildren_unlimited caller unhindered.unlimited (unhindered.memory space.calls) tree
    found (unhindered.kept takes below found).1]
  exact ⟨rfl, fun child => (child_iff_browse ⟨space.store, server.maxReferencesPerNode⟩
    node.nodeId 0 child).mp⟩

theorem removeChildren_clears {deleteChild : NodeId → NodeSpace → Option NodeSpace}
    (takes : start.Takes top space) (clears : start.Clears space)
    (below : start.store.Below top node.nodeId.content)
    (found : space.store.nodeAt node.nodeId.content = some node)
    (each : ∀ nodeId space after, start.Takes top space → start.Clears space →
      start.store.Below top nodeId.content → deleteChild nodeId space = some after →
      start.Takes top after ∧ space.Reduces after ∧ start.Clears after ∧
      nodeId.content ∉ after.store.stored)
    (ran : removeChildren server world caller deleteChild node space = some after) :
    start.Clears after ∧ ∀ child, start.store.Child node.nodeId.content child →
      child = node.nodeId.content ∨ child ∉ after.store.stored := by
  obtain ⟨store, table, children⟩ := browseChildren_answers server world caller node.nodeId 0 space
  obtain ⟨served, complete⟩ := unhindered.browse takes below found
  rw [removeChildren] at ran
  generalize browseChildren server world caller node.nodeId 0 space = answer at *
  obtain ⟨result, browsed⟩ := answer
  dsimp only at ran store children served complete
  rw [if_neg (not_not.mpr served)] at ran
  obtain ⟨⟨-, cleared, fewer⟩, visited, -⟩ := OptionFold.foldlM_reaches
    (fun state => start.Takes top state ∧ start.Clears state ∧ space.Reduces state)
    (fun rd state => rd.nodeId.nodeId.content = node.nodeId.content ∨
      rd.nodeId.nodeId.content ∉ state.store.stored)
    ⟨takes.trans .refl (.of_same top store table), by rwa [NodeSpace.Clears, store],
      .of_same store table⟩
    (by
      rintro rd member state next ⟨within, clear, reduces⟩ stepped
      split at stepped
      · rename_i itself
        obtain rfl := Option.some.inj stepped
        exact ⟨⟨within, clear, reduces⟩, .inl ((nodeIdEqual_iff _ _).mp itself).symm,
          fun _ done => done⟩
      · have child := takes.reduces.child (children served rd member)
        obtain ⟨more, shrinks, cleared, gone⟩ :=
          each _ state next within clear (below.tail child) stepped
        refine ⟨⟨more, cleared, reduces.trans shrinks⟩, .inr gone, ?_⟩
        rintro other (itself | absent)
        · exact .inl itself
        · exact .inr fun stays => absent (shrinks.stored stays)) ran
  refine ⟨cleared, ?_⟩
  intro child isChild
  by_cases there : child ∈ space.store.stored
  · obtain ⟨rd, member, rfl⟩ := complete child (unhindered.child takes isChild ⟨node, found⟩ there)
    exact visited rd member
  · exact .inr fun stays => there (fewer.stored stays)

theorem NodeSpace.Unhindered.clears {depth : Nat} {item : DeleteNodesItem} {status : StatusCode}
    (takes : start.Takes top space) (clears : start.Clears space)
    (below : start.store.Below top item.nodeId.content)
    (ran : deleteNodeOperation server world caller depth item space = some (status, after)) :
    start.Clears after ∧ item.nodeId.content ∉ after.store.stored := by
  induction depth generalizing item space status after with
  | zero => cases ran
  | succ depth ih =>
    have last := takes.trans below (deleteNodeOperation_takes ran)
    rw [deleteNodeOperation, getNode_eq] at ran
    have permitted : caller.Permits item := unhindered.permitted item
    rw [permitted.allowed, if_neg Bool.false_ne_true] at ran
    cases found : space.store.nodeAt item.nodeId.content with
    | none =>
      rw [found] at ran
      obtain rfl := (Prod.mk.inj (Option.some.inj ran)).2
      refine ⟨clears, ?_⟩
      rintro ⟨node, there⟩
      rw [found] at there
      cases there
    | some node =>
      rw [found] at ran
      dsimp only at ran
      rw [(unhindered.kept takes below found).2, if_neg Bool.false_ne_true] at ran
      have content := nodeAt_content found
      rw [← content] at found below
      obtain ⟨final, removed, rest⟩ := Option.bind_eq_some_iff.mp ran
      obtain rfl := (Prod.mk.inj (Option.some.inj rest)).2
      rw [removeDeconstructedNode, Option.bind_eq_bind, Option.bind_eq_some_iff] at removed
      obtain ⟨middle, children, rest⟩ := removed
      obtain rfl := Option.some.inj rest
      have loses : middle.store.Loses {node.nodeId.content} (if item.deleteTargetReferences then
            removeIncomingReferences caller node middle.store else middle.store) := by
        split
        · exact removeIncomingFrom_loses caller node _ _ middle.store
        · exact .refl _ middle.store
      rw [← content, NodeSpace.Clears, removeNode_stored loses]
      obtain ⟨store, table⟩ := deconstructNode_store server node space
      obtain ⟨cleared, visited⟩ := removeChildren_clears unhindered
        (takes.trans .refl (.of_same top store table))
        (by rwa [NodeSpace.Clears, store]) below (by rwa [store])
        (fun nodeId between next within clear beneath deleted => by
          obtain ⟨⟨code, _⟩, ran, rfl⟩ := Option.map_eq_some_iff.mp deleted
          have deletes := deleteNodeOperation_takes ran
          exact ⟨within.trans beneath deletes, deletes.reduces, ih within clear beneath ran⟩)
        children
      refine ⟨?_, fun both => both.2 rfl⟩
      intro id there gone child isChild stays
      by_cases between : id ∈ middle.store.stored
      · have here : id = node.nodeId.content := by
          by_contra other
          exact gone ⟨between, other⟩
        rw [here] at isChild
        exact (visited child isChild).elim stays.2 fun absent => absent stays.1
      · exact cleared id there between child isChild stays.1

end

end Unhindered

end OpcUa
