import OpcUa.Browse
import OpcUa.Library.OptionFold
import OpcUa.TreeSearch

/-!
What the deletion of a node leaves. It goes down along the aggregating references, and everything
that it takes lies below the node. The nodes that stay keep their attributes and their references,
but for references to nodes that are gone.
-/

namespace OpcUa

open StatusCode List

variable {caller : Caller} {item : DeleteNodesItem} {before after : NodeSpace}

def referenceTarget (triple : ReferenceTriple) : NodeIdContent := triple.2.2.2

structure Node.Loses (gone : Set NodeIdContent) (before after : Node) : Prop where
  attributes : after = { before with references := after.references }
  fewer : ∀ triple ∈ after.triples, triple ∈ before.triples
  lost : ∀ triple ∈ before.triples, triple ∈ after.triples ∨ referenceTarget triple ∈ gone
  shorter : after.triples.length ≤ before.triples.length
  wellFormed : before.WellFormed → after.WellFormed

section Nodes

variable {gone more : Set NodeIdContent} {before middle after : Node}

theorem Node.Loses.refl (gone : Set NodeIdContent) (node : Node) : node.Loses gone node :=
  ⟨rfl, fun _ member => member, fun _ member => .inl member, Nat.le_refl _, id⟩

theorem Node.Loses.trans (first : before.Loses gone middle) (second : middle.Loses gone after) :
    before.Loses gone after where
  attributes := by
    rw [second.attributes, first.attributes]
  fewer triple member := first.fewer triple (second.fewer triple member)
  lost triple member := by
    rcases first.lost triple member with stays | lost
    · exact second.lost triple stays
    · exact .inr lost
  shorter := Nat.le_trans second.shorter first.shorter
  wellFormed known := second.wellFormed (first.wellFormed known)

theorem Node.Loses.mono (loses : before.Loses gone after) (covers : gone ⊆ more) :
    before.Loses more after where
  attributes := loses.attributes
  fewer := loses.fewer
  lost triple member := (loses.lost triple member).imp_right (@covers _)
  shorter := loses.shorter
  wellFormed := loses.wellFormed

theorem Node.Loses.nodeClass (loses : before.Loses gone after) :
    after.nodeClass = before.nodeClass := by
  rw [loses.attributes]

theorem deleteReference_loses (node : Node) (item : DeleteReferencesItem) :
    node.Loses {item.targetNodeId.nodeId.content} (deleteReference node item).2 := by
  have deletes := deleteReference_deletes node item
  generalize deleteReference node item = outcome at deletes
  cases deletes with
  | absent _ => exact .refl _ node
  | @deleted refs target references member same last removes wellFormed =>
    refine ⟨rfl, ?_, ?_, ?_, wellFormed⟩
    · intro triple kept
      exact removes.subset (mem_cons_of_mem _ kept)
    · intro triple there
      rcases mem_cons.mp (removes.symm.subset there) with rfl | kept
      · right
        have named := find?_some last
        exact ((nodeIdEqual_iff _ _).mp named).symm
      · exact .inl kept
    · have length := removes.length_eq
      rw [length_cons] at length
      dsimp only
      omega

end Nodes

def Nodestore.Loses (gone : Set NodeIdContent) (before after : Nodestore) : Prop :=
  ∀ id, Option.Rel (Node.Loses gone) (before.nodeAt id) (after.nodeAt id)

section Stores

variable {gone : Set NodeIdContent} {before middle after : Nodestore}

theorem Nodestore.Loses.refl (gone : Set NodeIdContent) (store : Nodestore) :
    store.Loses gone store := by
  intro id
  cases store.nodeAt id with
  | none => exact .none
  | some node => exact .some (.refl gone node)

theorem Nodestore.Loses.trans (first : before.Loses gone middle)
    (second : middle.Loses gone after) : before.Loses gone after := by
  intro id
  have one := first id
  have two := second id
  generalize before.nodeAt id = start, middle.nodeAt id = between, after.nodeAt id = last at one two
  cases one with
  | none =>
    cases two with
    | none => exact .none
  | some lost =>
    cases two with
    | some more => exact .some (lost.trans more)

theorem Nodestore.Loses.stored (loses : before.Loses gone after) :
    after.stored = before.stored := by
  ext id
  have same := loses id
  rw [Nodestore.stored, Nodestore.stored, Set.mem_ofPred_eq, Set.mem_ofPred_eq]
  generalize before.nodeAt id = old, after.nodeAt id = new at same
  cases same with
  | none => exact Iff.rfl
  | some _ => exact ⟨fun _ => ⟨_, rfl⟩, fun _ => ⟨_, rfl⟩⟩

theorem editNode_loses (store : Nodestore) (item : DeleteReferencesItem) :
    store.Loses {item.targetNodeId.nodeId.content}
      (editNode store item.sourceNodeId fun node => deleteReference node item).2 := by
  rw [editNode, getNode_eq]
  cases found : store.nodeAt item.sourceNodeId.content with
  | none => exact .refl _ store
  | some node =>
    have loses := deleteReference_loses node item
    have sameId : (deleteReference node item).2.nodeId = node.nodeId := by
      rw [loses.attributes]
    have content := nodeAt_content found
    have stored : (deleteReference node item).2.nodeId.content ∈ store.stored := by
      rw [sameId, content]
      exact ⟨node, found⟩
    intro id
    rw [nodeAt_replaceNode stored, sameId, content]
    by_cases here : id = item.sourceNodeId.content
    · rw [if_pos here, here, found]
      exact .some loses
    · rw [if_neg here]
      exact Nodestore.Loses.refl _ store id

theorem operationDeleteReference_loses (caller : Caller) (store : Nodestore)
    (item : DeleteReferencesItem) (oneWay : item.deleteBidirectional = false) :
    store.Loses {item.targetNodeId.nodeId.content}
      (operationDeleteReference caller store item).2 := by
  rw [operationDeleteReference]
  split
  · exact .refl _ store
  · have loses := editNode_loses store item
    generalize editNode store item.sourceNodeId (fun node => deleteReference node item) = edited
      at loses
    dsimp only
    split
    · exact loses
    · rw [oneWay]
      exact loses

theorem removeIncoming_loses (caller : Caller) (nodeId : NodeId) (refs : NodeReferenceKind)
    (store : Nodestore) :
    store.Loses {nodeId.content} (removeIncoming caller nodeId refs store) := by
  rw [removeIncoming]
  induction refs.targetIds generalizing store with
  | nil => exact .refl _ store
  | cons target targets ih =>
    have first := operationDeleteReference_loses caller store
      ⟨target.nodeId, refs.referenceTypeId, refs.isInverse, .ofNodeId nodeId, false⟩ rfl
    exact first.trans (ih _)

theorem removeIncomingFrom_loses (caller : Caller) (node : Node) (left index : Nat)
    (store : Nodestore) :
    store.Loses {node.nodeId.content} (removeIncomingFrom caller node left index store) := by
  induction left generalizing index store with
  | zero => exact .refl _ store
  | succ left ih =>
    rw [removeIncomingFrom]
    split
    · exact .refl _ store
    · exact (removeIncoming_loses caller node.nodeId _ store).trans (ih _ _)

end Stores

def NodeClass.isOwned : NodeClass → Bool
  | .object => true
  | .variable => true
  | .method => true
  | _ => false

def Nodestore.Child (store : Nodestore) (source target : NodeIdContent) : Prop :=
  ∃ node, store.nodeAt source = some node ∧ ∃ refs ∈ node.references, refs.isInverse = false ∧
    isNodeInTree store refs.referenceTypeId aggregatesId [hasSubtypeId] = true ∧
    ∃ targetId ∈ refs.targetIds, targetId.nodeId.content = target ∧
    ∃ child, store.nodeAt target = some child ∧ child.nodeClass.isOwned = true

def Caller.Permits (caller : Caller) (item : DeleteNodesItem) : Prop :=
  caller.isAdmin = true ∨ caller.allowDeleteNode item = true

theorem not_permits (denied : ¬caller.Permits item) :
    (!caller.isAdmin && !caller.allowDeleteNode item) = true := by
  rw [Caller.Permits, not_or, Bool.not_eq_true, Bool.not_eq_true] at denied
  rw [denied.1, denied.2]
  rfl

theorem Caller.Permits.allowed (permitted : caller.Permits item) :
    (!caller.isAdmin && !caller.allowDeleteNode item) = false := by
  rcases permitted with admin | allowed
  · rw [admin, Bool.not_true, Bool.false_and]
  · rw [allowed, Bool.not_true, Bool.and_false]

def Nodestore.Descends (store : Nodestore) (caller : Caller) (source target : NodeIdContent) :
    Prop :=
  store.Child source target ∧ target ≠ source ∧
    ∃ node, store.nodeAt target = some node ∧ caller.Permits ⟨node.nodeId, true⟩

def Nodestore.Below (store : Nodestore) : NodeIdContent → NodeIdContent → Prop :=
  Relation.ReflTransGen store.Child

theorem matchClassMask_owned (node : Node) :
    matchClassMask node 7 = true ↔ node.nodeClass.isOwned = true := by
  rw [matchClassMask]
  cases node.nodeClass <;> decide

theorem followsKind_children (store : Nodestore) (nodeId : NodeId) (resultMask : BitVec 32)
    (refs : NodeReferenceKind) :
    followsKind store (childrenDescription nodeId resultMask) refs = true ↔ refs.isInverse = false ∧
        isNodeInTree store refs.referenceTypeId aggregatesId [hasSubtypeId] = true := by
  have named : nodeIdIsNull aggregatesId = false := by decide
  simp only [followsKind, childrenDescription, relevantReference, named]
  cases refs.isInverse <;>
    cases isNodeInTree store refs.referenceTypeId aggregatesId [hasSubtypeId] <;> simp

theorem child_iff_browse (server : BrowseServer) (nodeId : NodeId) (resultMask : BitVec 32)
    (target : NodeIdContent) :
    server.store.Child nodeId.content target ↔
      ∃ rd ∈ allReferences server (childrenDescription nodeId resultMask),
        rd.nodeId.nodeId.content = target := by
  have kept (node : Node) :
      matchClassMask node (childrenDescription nodeId resultMask).nodeClassMask = true ↔
        node.nodeClass.isOwned = true := matchClassMask_owned node
  rw [allReferences, show (childrenDescription nodeId resultMask).nodeId = nodeId from rfl,
    getNode_eq]
  constructor
  · rintro ⟨node, found, refs, member, forward, aggregates, targetId, inside, rfl, child, stored,
      owned⟩
    refine ⟨describeReference server.store child refs resultMask, ?_, nodeAt_content stored⟩
    rw [found, Option.elim_some, mem_flatMap]
    refine ⟨refs, member, ?_⟩
    rw [if_pos ((followsKind_children server.store nodeId resultMask refs).mpr
      ⟨forward, aggregates⟩), mem_filterMap]
    refine ⟨targetId, inside, ?_⟩
    rw [describeTarget, getNode_eq, stored, Option.bind_some, if_pos ((kept child).mpr owned)]
    rfl
  · rintro ⟨rd, member, rfl⟩
    cases found : server.store.nodeAt nodeId.content with
    | none =>
      rw [found] at member
      cases member
    | some node =>
      rw [found, mem_flatMap] at member
      obtain ⟨refs, listed, described⟩ := member
      split at described
      · rename_i follows
        obtain ⟨forward, aggregates⟩ :=
          (followsKind_children server.store nodeId resultMask refs).mp follows
        obtain ⟨targetId, inside, described⟩ := mem_filterMap.mp described
        rw [describeTarget, getNode_eq] at described
        cases stored : server.store.nodeAt targetId.nodeId.content with
        | none =>
          rw [stored] at described
          cases described
        | some child =>
          rw [stored, Option.bind_some] at described
          split at described
          · rename_i fits
            obtain rfl := Option.some.inj described
            have same := nodeAt_content stored
            exact ⟨node, found, refs, listed, forward, aggregates, targetId, inside, same.symm,
              child, same ▸ stored, (kept child).mp fits⟩
          · cases described
      · cases described

theorem allReferences_stored {server : BrowseServer} {descr : BrowseDescription}
    {rd : ReferenceDescription} (member : rd ∈ allReferences server descr) :
    ∃ child, server.store.nodeAt rd.nodeId.nodeId.content = some child ∧
      child.nodeId = rd.nodeId.nodeId := by
  rw [allReferences, mem_flatMap] at member
  obtain ⟨refs, -, described⟩ := member
  split at described
  · obtain ⟨targetId, -, described⟩ := mem_filterMap.mp described
    rw [describeTarget, getNode_eq] at described
    obtain ⟨child, found, described⟩ := Option.bind_eq_some_iff.mp described
    split at described
    · obtain rfl := Option.some.inj described
      refine ⟨child, ?_, rfl⟩
      rw [show (describeReference server.store child refs descr.resultMask).nodeId.nodeId =
        child.nodeId from rfl, nodeAt_content found]
      exact found
    · cases described
  · cases described

theorem browseChildren_listed (server : NodeServer) (world : Nat → NodeOutcome) (caller : Caller)
    (nodeId : NodeId) (resultMask : BitVec 32) (space : NodeSpace)
    (served : (browseChildren server world caller nodeId resultMask space).1.statusCode = good) :
    ∀ rd ∈ (browseChildren server world caller nodeId resultMask space).1.references,
      rd ∈ allReferences ⟨space.store, server.maxReferencesPerNode⟩
        (childrenDescription nodeId resultMask) := by
  rw [browseChildren] at served ⊢
  cases called : operationBrowse ⟨space.store, server.maxReferencesPerNode⟩
    (world space.calls).browse (world space.calls).random (space.browseSession caller) 0
    (childrenDescription nodeId resultMask) with
  | mk result browsed =>
    rw [called] at served
    intro rd member
    rcases operationBrowse_cases called served with ⟨-, all⟩ | ⟨-, -, splits, -⟩
    · rw [← all]
      exact member
    · rw [splits]
      exact mem_append_left _ member

theorem browseChildren_answers (server : NodeServer) (world : Nat → NodeOutcome) (caller : Caller)
    (nodeId : NodeId) (resultMask : BitVec 32) (space : NodeSpace) :
    (browseChildren server world caller nodeId resultMask space).2.store = space.store ∧
      (browseChildren server world caller nodeId resultMask space).2.table = space.table ∧
      ((browseChildren server world caller nodeId resultMask space).1.statusCode = good →
        ∀ rd ∈ (browseChildren server world caller nodeId resultMask space).1.references,
          space.store.Child nodeId.content rd.nodeId.nodeId.content) := by
  refine ⟨?_, ?_, ?_⟩
  · rw [browseChildren]
    dsimp only
    rw [NodeSpace.withBrowse]
    split <;> rfl
  · rw [browseChildren]
    dsimp only
    rw [NodeSpace.withBrowse]
    split <;> rfl
  · intro served rd member
    exact (child_iff_browse ⟨space.store, server.maxReferencesPerNode⟩ nodeId resultMask _).mpr
      ⟨rd, browseChildren_listed server world caller nodeId resultMask space served rd member, rfl⟩

structure NodeSpace.Reduces (before after : NodeSpace) : Prop where
  nodes : ∀ id node, after.store.nodeAt id = some node → ∃ old,
    before.store.nodeAt id = some old ∧ old.Loses (before.store.stored \ after.store.stored) node
  members : ∀ id ∈ after.store.stored, after.table id = before.table id

section Reductions

variable {before middle after space : NodeSpace}
variable {source target : NodeIdContent}
variable {store : Nodestore}

theorem NodeSpace.Reduces.refl (space : NodeSpace) : space.Reduces space :=
  ⟨fun _ node found => ⟨node, found, .refl _ node⟩, fun _ _ => rfl⟩

theorem NodeSpace.Reduces.stored (reduces : before.Reduces after) :
    after.store.stored ⊆ before.store.stored := by
  rintro id ⟨node, found⟩
  obtain ⟨old, there, -⟩ := reduces.nodes id node found
  exact ⟨old, there⟩

theorem NodeSpace.Reduces.trans (first : before.Reduces middle) (second : middle.Reduces after) :
    before.Reduces after where
  nodes id node found := by
    obtain ⟨between, there, lost⟩ := second.nodes id node found
    obtain ⟨old, start, earlier⟩ := first.nodes id between there
    refine ⟨old, start, (earlier.mono ?_).trans (lost.mono ?_)⟩
    · exact Set.sdiff_subset_sdiff_right second.stored
    · exact Set.sdiff_subset_sdiff_left first.stored
  members id stays := (second.members id stays).trans (first.members id (second.stored stays))

theorem NodeSpace.Reduces.of_same (store : after.store = before.store)
    (table : after.table = before.table) : before.Reduces after where
  nodes id node found := by
    rw [store] at found
    exact ⟨node, found, .refl _ node⟩
  members id _ := by rw [table]

section

variable (reduces : before.Reduces after)
include reduces

theorem NodeSpace.Reduces.inverse {types : List NodeId}
    (inverse : after.store.Inverse types source target) :
    before.store.Inverse types source target := by
  obtain ⟨type, listed, server, uri, node, found, triple⟩ := inverse
  obtain ⟨old, there, lost⟩ := reduces.nodes source node found
  exact ⟨type, listed, server, uri, old, there, lost.fewer _ triple⟩

theorem NodeSpace.Reduces.child (child : after.store.Child source target) :
    before.store.Child source target := by
  obtain ⟨node, found, refs, member, forward, aggregates, targetId, inside, same, below, stored,
    owned⟩ := child
  obtain ⟨old, there, lost⟩ := reduces.nodes source node found
  obtain ⟨oldBelow, thereBelow, lostBelow⟩ := reduces.nodes target below stored
  have held : (refs.key, targetId.content) ∈ node.triples :=
    mem_triples.mpr ⟨refs, member, rfl, mem_map_of_mem inside⟩
  have triple := lost.fewer _ held
  obtain ⟨oldRefs, listed, key, targeted⟩ := mem_triples.mp triple
  obtain ⟨oldTarget, among, content⟩ := mem_map.mp targeted
  obtain ⟨direction, type⟩ := Prod.mk.inj key
  refine ⟨old, there, oldRefs, listed, direction.trans forward, ?_, oldTarget, among, ?_, oldBelow,
    thereBelow, ?_⟩
  · have within := (isNodeInTree_iff _ _ _ _).mp
      (isNodeInTree_mono (fun _ _ => reduces.inverse) aggregates)
    rw [isNodeInTree_iff, show oldRefs.referenceTypeId.content = refs.referenceTypeId.content from
      type]
    exact within
  · rw [← same]
    exact congrArg (fun content => content.2.2) content
  · rw [← lostBelow.nodeClass]
    exact owned

theorem NodeSpace.Reduces.below (below : after.store.Below source target) :
    before.store.Below source target :=
  Relation.ReflTransGen.mono (fun _ _ child => reduces.child child) _ _ below

end

omit after in
theorem removeNode_stored {gone : Set NodeIdContent} (loses : middle.store.Loses gone store)
    (nodeId : NodeId) :
    ({ middle with store }.removeNode nodeId).store.stored =
      middle.store.stored \ {nodeId.content} := by
  ext id
  have left : ({ middle with store }.removeNode nodeId).store.nodeAt id =
      if id = nodeId.content then none else store.nodeAt id := nodeAt_removeNode store nodeId id
  rw [← loses.stored, Nodestore.stored, Set.mem_sdiff, Set.mem_ofPred_eq, left,
    Set.mem_singleton_iff]
  by_cases here : id = nodeId.content
  · rw [if_pos here]
    constructor
    · rintro ⟨node, found⟩
      cases found
    · exact fun both => absurd here both.2
  · rw [if_neg here]
    exact ⟨fun found => ⟨found, here⟩, And.left⟩

theorem NodeSpace.Reduces.removeNode (reduces : before.Reduces middle) {nodeId : NodeId}
    (stored : nodeId.content ∈ before.store.stored)
    (loses : middle.store.Loses {nodeId.content} store) :
    before.Reduces ({ middle with store }.removeNode nodeId) := by
  have rest := removeNode_stored loses nodeId
  constructor
  · intro id kept found
    have left : (if id = nodeId.content then none else store.nodeAt id) = some kept :=
      (nodeAt_removeNode store nodeId id).symm.trans found
    split at left
    · cases left
    · have lost := loses id
      rw [left] at lost
      cases there : middle.store.nodeAt id with
      | none =>
        rw [there] at lost
        cases lost
      | some between =>
        rw [there] at lost
        cases lost with
        | some lost =>
          obtain ⟨old, start, earlier⟩ := reduces.nodes id between there
          rw [rest]
          refine ⟨old, start, (earlier.mono ?_).trans (lost.mono ?_)⟩
          · exact Set.sdiff_subset_sdiff_right Set.sdiff_subset
          · exact Set.singleton_subset_iff.mpr ⟨stored, fun both => both.2 rfl⟩
  · intro id stays
    rw [rest] at stays
    exact (Function.update_of_ne stays.2 _ _).trans (reduces.members id stays.1)

end Reductions

structure NodeSpace.Takes (top : NodeIdContent) (before after : NodeSpace) : Prop where
  reduces : before.Reduces after
  below : ∀ id ∈ before.store.stored, id ∉ after.store.stored → before.store.Below top id

theorem NodeSpace.Takes.of_same (top : NodeIdContent) (store : after.store = before.store)
    (table : after.table = before.table) :
    before.Takes top after where
  reduces := .of_same store table
  below _ stored gone := absurd (store ▸ stored) gone

theorem NodeSpace.Takes.trans {middle : NodeSpace} {top other : NodeIdContent}
    (first : before.Takes top middle) (down : before.store.Below top other)
    (second : middle.Takes other after) : before.Takes top after where
  reduces := first.reduces.trans second.reduces
  below id stored gone := by
    by_cases between : id ∈ middle.store.stored
    · exact down.trans (first.reduces.below (second.below id between gone))
    · exact first.below id stored between

section Deletion

variable {server : NodeServer} {world : Nat → NodeOutcome} {caller : Caller}
  {deleteChild : NodeId → NodeSpace → Option NodeSpace} {space after : NodeSpace}
variable {node : Node}

theorem removeChildren_takes (each : ∀ nodeId space after, deleteChild nodeId space = some after →
      space.Takes nodeId.content after)
    (ran : removeChildren server world caller deleteChild node space = some after) :
    space.Takes node.nodeId.content after := by
  obtain ⟨store, table, children⟩ := browseChildren_answers server world caller node.nodeId 0 space
  rw [removeChildren] at ran
  generalize browseChildren server world caller node.nodeId 0 space = answer at *
  obtain ⟨result, browsed⟩ := answer
  have start : space.Takes node.nodeId.content browsed := .of_same _ store table
  dsimp only at ran store children
  split at ran
  · obtain rfl := Option.some.inj ran
    exact start
  rename_i served
  rw [not_not] at served
  refine OptionFold.foldlM_keeps (space.Takes node.nodeId.content) start ?_ ran
  intro rd member state next takes stepped
  split at stepped
  · obtain rfl := Option.some.inj stepped
    exact takes
  · exact takes.trans (.single (children served rd member)) (each _ _ _ stepped)

theorem removeTargetReferences_loses (caller : Caller) (node : Node) (removeTargetRefs : Bool)
    (store : Nodestore) :
    store.Loses {node.nodeId.content}
      (if removeTargetRefs then removeIncomingReferences caller node store else store) := by
  split
  · exact removeIncomingFrom_loses caller node _ _ store
  · exact .refl _ store

theorem removeDeconstructedNode_takes {removeTargetRefs : Bool}
    (stored : node.nodeId.content ∈ space.store.stored)
    (each : ∀ nodeId space after, deleteChild nodeId space = some after →
      space.Takes nodeId.content after)
    (ran : removeDeconstructedNode server world caller deleteChild node removeTargetRefs space =
      some after) : space.Takes node.nodeId.content after := by
  rw [removeDeconstructedNode, Option.bind_eq_bind, Option.bind_eq_some_iff] at ran
  obtain ⟨middle, removed, rest⟩ := ran
  obtain rfl := Option.some.inj rest
  have loses := removeTargetReferences_loses caller node removeTargetRefs middle.store
  have children := removeChildren_takes each removed
  refine ⟨children.reduces.removeNode stored loses, ?_⟩
  intro id there gone
  rw [removeNode_stored loses] at gone
  by_cases between : id ∈ middle.store.stored
  · have here : id = node.nodeId.content := by
      by_contra other
      exact gone ⟨between, other⟩
    rw [here]
    exact .refl
  · exact children.below id there between

theorem deconstructNode_store (server : NodeServer) (node : Node) (space : NodeSpace) :
    (deconstructNode server node space).store = space.store ∧
      (deconstructNode server node space).table = space.table := by
  rw [deconstructNode]
  generalize (if node.nodeClass = .object ∨ node.nodeClass = .variable then
    getNodeType space.store node else none) = type
  cases type with
  | none =>
    split <;> exact ⟨rfl, rfl⟩
  | some type =>
    dsimp only
    by_cases typed : (server.typeLifecycle type.nodeId.content).destructor = true
    · split <;> exact ⟨rfl, rfl⟩
    · split <;> exact ⟨rfl, rfl⟩

theorem deleteNodeOperation_takes {depth : Nat} {item : DeleteNodesItem} {status : StatusCode}
    (ran : deleteNodeOperation server world caller depth item space = some (status, after)) :
    space.Takes item.nodeId.content after := by
  induction depth generalizing item space status after with
  | zero => cases ran
  | succ depth ih =>
    rw [deleteNodeOperation, getNode_eq] at ran
    split at ran
    · obtain rfl := (Prod.mk.inj (Option.some.inj ran)).2
      exact .of_same _ rfl rfl
    cases found : space.store.nodeAt item.nodeId.content with
    | none =>
      rw [found] at ran
      obtain rfl := (Prod.mk.inj (Option.some.inj ran)).2
      exact .of_same _ rfl rfl
    | some node =>
      rw [found] at ran
      dsimp only at ran
      split at ran
      · obtain rfl := (Prod.mk.inj (Option.some.inj ran)).2
        exact .of_same _ rfl rfl
      obtain ⟨last, removed, rest⟩ := Option.bind_eq_some_iff.mp ran
      obtain rfl := (Prod.mk.inj (Option.some.inj rest)).2
      obtain ⟨store, table⟩ := deconstructNode_store server node space
      have start : space.Takes item.nodeId.content (deconstructNode server node space) :=
        .of_same _ store table
      refine start.trans .refl ?_
      have content := nodeAt_content found
      rw [← content]
      refine removeDeconstructedNode_takes ?_ ?_ removed
      · rw [store, content]
        exact ⟨node, found⟩
      intro nodeId between next deleted
      obtain ⟨⟨code, _⟩, ran, rfl⟩ := Option.map_eq_some_iff.mp deleted
      exact ih ran

end Deletion

section Depth

variable {server : NodeServer} {world : Nat → NodeOutcome} {caller : Caller}
variable {space : NodeSpace}
variable {start : NodeSpace}

theorem removeDeconstructedNode_mono {deleteChild more : NodeId → NodeSpace → Option NodeSpace}
    {node : Node} {removeTargetRefs : Bool} {after : NodeSpace}
    (covers : ∀ nodeId space after, deleteChild nodeId space = some after →
      more nodeId space = some after)
    (ran : removeDeconstructedNode server world caller deleteChild node removeTargetRefs space =
      some after) :
    removeDeconstructedNode server world caller more node removeTargetRefs space = some after := by
  rw [removeDeconstructedNode, Option.bind_eq_bind, Option.bind_eq_some_iff] at ran ⊢
  obtain ⟨middle, removed, rest⟩ := ran
  refine ⟨middle, ?_, rest⟩
  rw [removeChildren] at removed ⊢
  dsimp only at removed ⊢
  split at removed
  · rename_i failed
    rw [if_pos failed]
    exact removed
  · rename_i served
    rw [if_neg served]
    refine OptionFold.foldlM_mono ?_ removed
    intro rd state next stepped
    split at stepped
    · rename_i itself
      rw [if_pos itself]
      exact stepped
    · rename_i other
      rw [if_neg other]
      exact covers _ _ _ stepped

theorem deleteNodeOperation_deeper {depth more : Nat} (deeper : depth ≤ more)
    {item : DeleteNodesItem} {result : StatusCode × NodeSpace}
    (ran : deleteNodeOperation server world caller depth item space = some result) :
    deleteNodeOperation server world caller more item space = some result := by
  induction depth generalizing more item space result with
  | zero => cases ran
  | succ depth ih =>
    obtain ⟨more, rfl⟩ : ∃ fewer, more = fewer + 1 := ⟨more - 1, by omega⟩
    rw [deleteNodeOperation] at ran ⊢
    split at ran
    · rename_i denied
      rw [if_pos denied]
      exact ran
    rename_i permitted
    rw [if_neg permitted]
    cases found : space.store.getNode item.nodeId with
    | none =>
      rw [found] at ran
      exact ran
    | some node =>
      rw [found] at ran
      dsimp only at ran ⊢
      split at ran
      · rename_i used
        rw [if_pos used]
        exact ran
      rename_i free
      rw [if_neg free]
      obtain ⟨last, removed, rest⟩ := Option.bind_eq_some_iff.mp ran
      refine Option.bind_eq_some_iff.mpr ⟨last, ?_, rest⟩
      refine removeDeconstructedNode_mono ?_ removed
      intro nodeId between next deleted
      obtain ⟨outcome, ran, taken⟩ := Option.map_eq_some_iff.mp deleted
      exact Option.map_eq_some_iff.mpr ⟨outcome, ih (by omega) ran, taken⟩

theorem removeChildren_exists (server : NodeServer) (world : Nat → NodeOutcome) (caller : Caller)
    (deleteChild : NodeId → NodeSpace → Option NodeSpace) (node : Node)
    (reduces : start.Reduces space) (each : ∀ (nodeId : NodeId) space, start.Reduces space →
      start.store.Child node.nodeId.content nodeId.content →
      nodeId.content ≠ node.nodeId.content →
      (∃ child, start.store.nodeAt nodeId.content = some child ∧ child.nodeId = nodeId) →
      ∃ after, deleteChild nodeId space = some after ∧ start.Reduces after) :
    ∃ after, removeChildren server world caller deleteChild node space = some after := by
  obtain ⟨store, table, children⟩ := browseChildren_answers server world caller node.nodeId 0 space
  have listed := browseChildren_listed server world caller node.nodeId 0 space
  rw [removeChildren]
  generalize browseChildren server world caller node.nodeId 0 space = answer at *
  obtain ⟨result, browsed⟩ := answer
  dsimp only at store children listed ⊢
  split
  · exact ⟨browsed, rfl⟩
  rename_i served
  rw [not_not] at served
  refine OptionFold.foldlM_exists start.Reduces (reduces.trans (.of_same store table)) ?_
  intro rd member state holds
  split
  · exact ⟨state, rfl, holds⟩
  · rename_i other
    refine each _ state holds (reduces.child (children served rd member)) ?_ ?_
    · exact fun same => other ((nodeIdEqual_iff _ _).mpr same.symm)
    · obtain ⟨kept, there, same⟩ := allReferences_stored (listed served rd member)
      obtain ⟨old, found, loses⟩ := reduces.nodes _ kept there
      refine ⟨old, found, ?_⟩
      rw [← same, loses.attributes]

theorem deleteNodeOperation_exists {top : NodeIdContent}
    (grounded : Acc (fun below above => start.store.Descends caller above below) top) :
    ∃ depth, ∀ item : DeleteNodesItem, item.nodeId.content = top → ∀ space, start.Reduces space →
      ∃ result, deleteNodeOperation server world caller depth item space = some result := by
  induction grounded with
  | intro top _ ih =>
  -- one depth is enough for all children
  have common (targets : List NodeIdContent) : ∃ depth, ∀ below ∈ targets,
      start.store.Descends caller top below → ∀ item : DeleteNodesItem,
      item.nodeId.content = below → ∀ space, start.Reduces space →
        ∃ result, deleteNodeOperation server world caller depth item space = some result := by
    induction targets with
    | nil => exact ⟨0, nofun⟩
    | cons target targets rest =>
      obtain ⟨depth, enough⟩ := rest
      by_cases child : start.store.Descends caller top target
      · obtain ⟨more, reaches⟩ := ih target child
        refine ⟨max depth more, ?_⟩
        intro below member isChild item named space reduces
        rcases mem_cons.mp member with rfl | behind
        · obtain ⟨result, ran⟩ := reaches item named space reduces
          exact ⟨result, deleteNodeOperation_deeper (Nat.le_max_right depth more) ran⟩
        · obtain ⟨result, ran⟩ := enough below behind isChild item named space reduces
          exact ⟨result, deleteNodeOperation_deeper (Nat.le_max_left depth more) ran⟩
      · refine ⟨depth, ?_⟩
        intro below member isChild
        rcases mem_cons.mp member with rfl | behind
        · exact absurd isChild child
        · exact enough below behind isChild
  obtain ⟨depth, enough⟩ := common ((start.store.nodeAt top).elim [] fun node =>
    node.triples.map referenceTarget)
  refine ⟨depth + 2, ?_⟩
  intro item named space reduces
  rw [deleteNodeOperation, getNode_eq, named]
  split
  · exact ⟨_, rfl⟩
  cases found : space.store.nodeAt top with
  | none => exact ⟨_, rfl⟩
  | some node =>
    dsimp only
    split
    · exact ⟨_, rfl⟩
    obtain ⟨store, table⟩ := deconstructNode_store server node space
    have content := nodeAt_content found
    obtain ⟨middle, removed⟩ := removeChildren_exists server world caller (fun nodeId space =>
        (deleteNodeOperation server world caller (depth + 1) ⟨nodeId, true⟩ space).map Prod.snd)
      node (reduces.trans (.of_same store table)) (by
      rintro nodeId between reduced child other ⟨below, there, same⟩
      rw [content] at child other
      have ends : ∃ result, deleteNodeOperation server world caller (depth + 1) ⟨nodeId, true⟩
          between = some result := by
        by_cases permitted : caller.Permits ⟨nodeId, true⟩
        · have listed : nodeId.content ∈ (start.store.nodeAt top).elim [] fun node =>
              node.triples.map referenceTarget := by
            obtain ⟨old, there, refs, member, -, -, targetId, inside, same, -⟩ := child
            have held : (refs.key, targetId.content) ∈ old.triples :=
              mem_triples.mpr ⟨refs, member, rfl, mem_map_of_mem inside⟩
            rw [there]
            exact mem_map.mpr ⟨_, held, same⟩
          obtain ⟨result, ran⟩ := enough _ listed
            ⟨child, other, below, there, by rwa [same]⟩ ⟨nodeId, true⟩ rfl between reduced
          exact ⟨result, deleteNodeOperation_deeper (Nat.le_succ depth) ran⟩
        · -- a node that may not be deleted stays with all its children
          rw [deleteNodeOperation, not_permits permitted]
          exact ⟨_, rfl⟩
      obtain ⟨result, ran⟩ := ends
      exact ⟨result.2, Option.map_eq_some_iff.mpr ⟨result, ran, rfl⟩,
        reduced.trans (deleteNodeOperation_takes ran).reduces⟩)
    rw [removeDeconstructedNode, removed]
    exact ⟨_, rfl⟩

end Depth

end OpcUa
