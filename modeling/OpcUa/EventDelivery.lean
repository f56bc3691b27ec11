import Mathlib.Data.List.Pairwise
import OpcUa.EventCore
import OpcUa.Library.Unfolding
import OpcUa.SessionSteps

/-!
Where an event goes. The collected nodes are the unfolding of the graph above the origin, so that
the collection ends only if every way up ends, and a node is notified once for each way that leads
to it. An item without a select clause ends the loop with an error.
-/

namespace OpcUa

open StatusCode Subscription Unfolding List

section Parents

variable {store : Nodestore}

def NodeReferenceKind.inverseTargets (refs : NodeReferenceKind) : List NodeId :=
  if refs.isInverse then refs.targetIds.map (·.nodeId) else []

def Nodestore.parents (store : Nodestore) (id : NodeId) : List NodeId :=
  match store.getNode id with
  | none => []
  | some node => node.references.reverse.flatMap (·.inverseTargets)

structure Collects (callback : NodeId → Bool → NodeId → List NodeId →
    Option (StatusCode × List NodeId)) (below : NodeId → Option (List NodeId)) : Prop where
  forward : ∀ id type nodes, callback id false type nodes = some (good, nodes)
  inverse : ∀ id type nodes, (callback id true type nodes).map Prod.snd =
    (below id).map fun points => points.reverse ++ nodes

variable {callback : NodeId → Bool → NodeId → List NodeId → Option (StatusCode × List NodeId)}
  {below : NodeId → Option (List NodeId)}

theorem targets_collected (collects : Collects callback below) (refs : NodeReferenceKind) :
    ∀ (targets : List ExpandedNodeId) (state : StatusCode × List NodeId),
      (targets.foldlM (fun (state : StatusCode × List NodeId) target =>
        (callback target.nodeId refs.isInverse refs.referenceTypeId state.2).map
          fun result => (state.1 ||| result.1, result.2)) state).map Prod.snd =
      ((if refs.isInverse then targets.map (·.nodeId) else []).mapM below).map
        fun parts => parts.flatten.reverse ++ state.2
  | [], state => by
    cases refs.isInverse <;> rfl
  | target :: rest, state => by
    have ih := targets_collected collects refs rest
    cases inverse : refs.isInverse with
    | false =>
      simp only [inverse, Bool.false_eq_true, if_false] at ih ⊢
      rw [foldlM_cons, collects.forward]
      exact ih _
    | true =>
      simp only [inverse, if_true] at ih ⊢
      rw [foldlM_cons, map_cons, mapM_cons]
      have first := collects.inverse target.nodeId refs.referenceTypeId state.2
      cases found : below target.nodeId with
      | none =>
        rw [found] at first
        rw [Option.map_eq_none_iff.mp (first.trans rfl)]
        rfl
      | some points =>
        rw [found] at first
        obtain ⟨⟨status, nodes⟩, calls, same⟩ := Option.map_eq_some_iff.mp first
        have same : nodes = points.reverse ++ state.2 := same
        rw [calls, same]
        refine (ih _).trans ?_
        cases rest.map (fun target => target.nodeId) |>.mapM below with
        | none => rfl
        | some parts => simp

theorem kinds_collected (collects : Collects callback below) :
    ∀ (kinds : List NodeReferenceKind) (state : StatusCode × List NodeId),
      (kinds.foldlM (fun (state : StatusCode × List NodeId) (ref : NodeReferenceKind) =>
        ref.targetIds.foldlM (fun (state : StatusCode × List NodeId) target =>
          (callback target.nodeId ref.isInverse ref.referenceTypeId state.2).map
            fun result => (state.1 ||| result.1, result.2)) state) state).map Prod.snd =
      ((kinds.flatMap (·.inverseTargets)).mapM below).map
        fun parts => parts.flatten.reverse ++ state.2
  | [], _ => rfl
  | refs :: rest, state => by
    have first := targets_collected collects refs refs.targetIds state
    rw [foldlM_cons, flatMap_cons, mapM_append, NodeReferenceKind.inverseTargets]
    cases found : (if refs.isInverse then refs.targetIds.map (·.nodeId) else []).mapM below with
    | none =>
      rw [found] at first
      rw [Option.map_eq_none_iff.mp (first.trans rfl)]
      rfl
    | some parts =>
      rw [found] at first
      obtain ⟨⟨status, nodes⟩, calls, same⟩ := Option.map_eq_some_iff.mp first
      have same : nodes = parts.flatten.reverse ++ state.2 := same
      rw [calls, same]
      refine (kinds_collected collects rest _).trans ?_
      cases (rest.flatMap fun refs => refs.inverseTargets).mapM below with
      | none => rfl
      | some more => simp

theorem forEachChildNodeCall_collects (store : Nodestore) (collects : Collects callback below) (id : NodeId)
    (nodes : List NodeId) :
    (forEachChildNodeCall store callback id nodes).map Prod.snd =
      ((store.parents id).mapM below).map fun parts => parts.flatten.reverse ++ nodes := by
  rw [forEachChildNodeCall, Nodestore.parents]
  cases store.getNode id with
  | none => rfl
  | some node => exact kinds_collected collects _ _

theorem getParents_collects (store : Nodestore) (fuel : Nat) :
    Collects (getParents store fuel) (unfolding store.parents fuel) := by
  induction fuel with
  | zero =>
    constructor
    · intro id type nodes
      rfl
    · intro id type nodes
      rfl
  | succ fuel ih =>
    constructor
    · intro id type nodes
      rfl
    · intro id type nodes
      rw [getParents, unfolding]
      have calls := forEachChildNodeCall_collects store ih id (id :: nodes)
      simp only [Bool.not_true, Bool.false_eq_true, if_false, Option.map_map]
      refine calls.trans ?_
      cases (store.parents id).mapM (unfolding store.parents fuel) with
      | none => rfl
      | some parts => simp

theorem getParents_eq (store : Nodestore) (fuel : Nat) (id type : NodeId) (nodes : List NodeId) :
    (getParents store fuel id true type nodes).map Prod.snd =
      (unfolding store.parents fuel id).map fun points => points.reverse ++ nodes :=
  (getParents_collects store fuel).inverse id type nodes

end Parents

namespace EventServer

variable {Content : Type} {selected : EventItem → List Content} {server middle after : EventServer Content}
  {item other : EventItem}
variable {sub : Subscription Content} {items : List EventItem} {node : Node} {origin : NodeId}

section

variable (server : EventServer Content) (item : EventItem)

def notified : List (Nat × Nat) :=
  match server.subscription item.sub with
  | none => []
  | some sub => sub.created.filter (·.1 = item.mon)

def filtering : Option (MonitoringFilter × MonitoredItemType) := do
  let sub ← server.subscription item.sub
  let mon ← sub.item item.mon
  some (mon.filter, mon.monitoredItemType)

def Selects : Prop :=
  ∃ filter type, server.filtering item = some (.eventFilter filter, type) ∧
    filter.selectClausesSize ≠ 0

def Holds : Prop :=
  ∃ filter, server.filtering item = some (filter, .eventNotify)

end

/-- The subscriptions are sound and have room for a notification, and an event item is in the queue
of one node at most. -/
structure Valid (server : EventServer Content) : Prop where
  distinct : (server.subscriptions.map (·.address)).Nodup
  sound : ∀ sub ∈ server.subscriptions, Sound 1 sub
  registered : ∀ node ∈ server.store.nodes, ∀ item ∈ server.monitoredItemQueue node,
    server.Holds item
  once : (server.store.nodes.flatMap server.monitoredItemQueue).Nodup

theorem subscription_mem {address : Nat} (found : server.subscription address = some sub) :
    sub ∈ server.subscriptions ∧ sub.address = address :=
  ⟨mem_of_find?_eq_some found, by simpa using find?_some found⟩

theorem setSubscription_subscription (sub : Subscription Content) {old : Subscription Content}
    (found : server.subscription sub.address = some old) (address : Nat) :
    (server.setSubscription sub).subscription address =
      if address = sub.address then some sub else server.subscription address := by
  have keeps : ∀ other : Subscription Content,
      (if other.address = sub.address then sub else other).address = other.address := by
    intro other
    by_cases same : other.address = sub.address
    · rw [if_pos same, same]
    · rw [if_neg same]
  rw [subscription, setSubscription, find?_map]
  have alike : ((fun other : Subscription Content => decide (other.address = address)) ∘
      fun other => if other.address = sub.address then sub else other) =
        fun other => decide (other.address = address) := by
    funext other
    rw [Function.comp_apply, keeps]
  rw [alike]
  by_cases here : address = sub.address
  · subst here
    rw [if_pos rfl]
    have found : server.subscriptions.find? (fun other => decide (other.address = sub.address)) =
      some old := found
    rw [found, Option.map_some, if_pos (subscription_mem found).2]
  · rw [if_neg here, subscription]
    cases other : server.subscriptions.find? (fun other => decide (other.address = address)) with
    | none => rfl
    | some found =>
      have address := by simpa using find?_some other
      rw [Option.map_some, if_neg]
      rw [address]
      exact here

structure Adds (server : EventServer Content) (item : EventItem) (after : EventServer Content) :
    Prop where
  valid : after.Valid
  store : after.store = server.store
  queues : after.monitoredItemQueue = server.monitoredItemQueue
  filtering : after.filtering = server.filtering
  notified : ∀ other, ∃ extra, after.notified other = server.notified other ++ extra ∧
    extra.length = if other = item then 1 else 0

theorem setItem_filtering {next : Subscription Content} {mon changed : MonitoredItem}
    (consistent : Consistent 1 sub) (member : mon ∈ sub.monitoredItems)
    (items : next.monitoredItems = (sub.setItem changed).monitoredItems)
    (form : changed = { mon with queue := changed.queue, queueSize := changed.queueSize })
    (address : Nat) :
    (next.item address).map (fun mon => (mon.filter, mon.monitoredItemType)) =
      (sub.item address).map fun mon => (mon.filter, mon.monitoredItemType) := by
  have same : changed.address = mon.address := by
    have fields := congrArg MonitoredItem.address form
    exact fields
  have alike : (changed.filter, changed.monitoredItemType) = (mon.filter, mon.monitoredItemType) := by
    have fields := congrArg (fun mon => (mon.filter, mon.monitoredItemType)) form
    exact fields
  have keeps : ∀ old ∈ sub.monitoredItems, ∀ kept,
      kept = (if old.address = changed.address then changed else old) → kept.address = old.address ∧
          (kept.filter, kept.monitoredItemType) = (old.filter, old.monitoredItemType) := by
    rintro old present kept rfl
    by_cases here : old.address = changed.address
    · rw [if_pos here, alike, consistent.address_unique member present (here.trans same)]
      exact ⟨same, rfl⟩
    · rw [if_neg here]
      exact ⟨rfl, rfl⟩
  rw [Subscription.item, Subscription.item, items, setItem]
  generalize sub.monitoredItems = olds at keeps
  induction olds with
  | nil => rfl
  | cons first rest ih =>
    obtain ⟨stays, kept⟩ := keeps first (mem_cons_self ..) _ rfl
    rw [map_cons, find?_cons, find?_cons, stays]
    cases decide (first.address = address) with
    | true => exact congrArg some kept
    | false => exact ih fun old present => keeps old (mem_cons_of_mem _ present)

theorem setSubscription_adds (valid : server.Valid) {next : Subscription Content}
    (found : server.subscription item.sub = some sub) (address : next.address = sub.address)
    (sound : Sound 1 next)
    (same : ∀ mon, (next.item mon).map (fun mon => (mon.filter, mon.monitoredItemType)) =
      (sub.item mon).map fun mon => (mon.filter, mon.monitoredItemType)) {n : Nat}
    (created : next.created = sub.created ++ [(item.mon, n)]) :
    Adds server item (server.setSubscription next) := by
  obtain ⟨member, here⟩ := subscription_mem found
  have place : next.address = item.sub := address.trans here
  have looked := setSubscription_subscription next (place ▸ found)
  have filters : (server.setSubscription next).filtering = server.filtering := by
    funext other
    rw [filtering, filtering, looked]
    by_cases inside : other.sub = next.address
    · rw [if_pos inside, inside, place, found]
      have both := same other.mon
      rw [Option.map_eq_bind, Option.map_eq_bind] at both
      exact both
    · rw [if_neg inside]
  have addresses : (server.setSubscription next).subscriptions.map (·.address) =
      server.subscriptions.map (·.address) := by
    rw [setSubscription, map_map]
    apply map_congr_left
    intro other _
    by_cases inside : other.address = next.address
    · rw [Function.comp_apply, if_pos inside, inside]
    · rw [Function.comp_apply, if_neg inside]
  refine ⟨⟨?_, ?_, ?_, valid.once⟩, rfl, rfl, filters, ?_⟩
  · rw [addresses]
    exact valid.distinct
  · intro other present
    obtain ⟨old, was, rfl⟩ := mem_map.mp present
    split
    · exact sound
    · exact valid.sound old was
  · intro node inside other queued
    rw [Holds, filters]
    exact valid.registered node inside other queued
  · intro other
    rw [notified, notified, looked]
    by_cases inside : other.sub = next.address
    · rw [if_pos inside, inside, place, found]
      dsimp only
      rw [created, filter_append]
      refine ⟨_, rfl, ?_⟩
      by_cases exact_item : other.mon = item.mon
      · have equal : other = item := by
          cases other
          cases item
          simp_all
        rw [if_pos equal]
        simp [exact_item]
      · have different : other ≠ item := fun equal => exact_item (congrArg EventItem.mon equal)
        rw [if_neg different]
        have apart : ¬ item.mon = other.mon := fun equal => exact_item equal.symm
        simp [apart]
    · have different : other ≠ item := by
        rintro rfl
        exact inside place.symm
      rw [if_neg inside, if_neg different]
      exact ⟨[], (append_nil _).symm, rfl⟩

theorem addEvent_adds (selected : EventItem → List Content) (valid : server.Valid) (holds : server.Holds item)
    (selects : server.Selects item) :
    ∃ after, server.addEvent selected item = some (good, after) ∧ Adds server item after := by
  obtain ⟨filter, type, filters, clauses⟩ := selects
  obtain ⟨_, typed⟩ := holds
  obtain ⟨sub, found, filters⟩ := Option.bind_eq_some_iff.mp filters
  obtain ⟨mon, here, filters⟩ := Option.bind_eq_some_iff.mp filters
  have event : mon.monitoredItemType = .eventNotify := by
    rw [filtering, found] at typed
    simp only [Option.bind_eq_bind, Option.bind_some, here, Option.some.injEq] at typed
    exact congrArg Prod.snd typed
  injection filters with filters
  have chosen : mon.filter = .eventFilter filter := congrArg Prod.fst filters
  obtain ⟨member, -⟩ := subscription_mem found
  obtain ⟨present, address⟩ := item_mem here
  have sound := valid.sound sub member
  have fits : (NotificationData.event (selected item)).fits mon.monitoredItemType := by
    rw [event]
    rfl
  have enqueues := (notificationEnqueue_sound sound present fits).weaken
    (sound.consistent.roomy mon present)
  obtain ⟨next, adds, kept, created, changed, -, -, items, form⟩ :=
    enqueues.value (Nat.le_refl _)
  refine ⟨server.setSubscription next, ?_, ?_⟩
  · rw [← address] at here
    rw [addEvent, found]
    simp only [Option.bind_eq_bind, Option.bind_some, ← address, here, chosen,
      addEventToMonitoredItem, filterEvent, if_neg clauses, adds, Bool.not_true,
      Bool.false_eq_true, if_false]
  · rw [address] at created
    exact setSubscription_adds valid found kept.only.address kept.sound
      (setItem_filtering sound.consistent present items form) created

theorem addEvent_selects (adds : server.addEvent selected item = some (good, after)) :
    server.Selects item := by
  obtain ⟨sub, found, adds⟩ := Option.bind_eq_some_iff.mp adds
  obtain ⟨mon, here, adds⟩ := Option.bind_eq_some_iff.mp adds
  split at adds
  · cases adds
  rename_i filter chosen
  refine ⟨filter, mon.monitoredItemType, ?_, ?_⟩
  · rw [filtering, found]
    simp only [Option.bind_eq_bind, Option.bind_some, here, chosen]
  · intro empty
    rw [filterEvent, if_pos empty] at adds
    cases adds

structure AddsAll (server : EventServer Content) (items : List EventItem)
    (after : EventServer Content) : Prop where
  valid : after.Valid
  store : after.store = server.store
  queues : after.monitoredItemQueue = server.monitoredItemQueue
  filtering : after.filtering = server.filtering
  notified : ∀ item, ∃ extra, after.notified item = server.notified item ++ extra ∧
    extra.length = items.count item

theorem AddsAll.refl (valid : server.Valid) : AddsAll server [] server :=
  ⟨valid, rfl, rfl, rfl, fun _ => ⟨[], (append_nil _).symm, rfl⟩⟩

theorem Adds.all (adds : Adds server item after) : AddsAll server [item] after where
  valid := adds.valid
  store := adds.store
  queues := adds.queues
  filtering := adds.filtering
  notified other := by
    obtain ⟨extra, grown, length⟩ := adds.notified other
    refine ⟨extra, grown, length.trans ?_⟩
    by_cases same : other = item
    · rw [if_pos same, same, count_singleton_self]
    · rw [if_neg same, count_singleton, beq_eq_false_iff_ne.mpr (Ne.symm same)]
      rfl

theorem AddsAll.trans {more : List EventItem} (first : AddsAll server items middle)
    (second : AddsAll middle more after) : AddsAll server (items ++ more) after where
  valid := second.valid
  store := second.store.trans first.store
  queues := second.queues.trans first.queues
  filtering := second.filtering.trans first.filtering
  notified item := by
    obtain ⟨extra, grown, length⟩ := first.notified item
    obtain ⟨other, grownMore, lengthMore⟩ := second.notified item
    refine ⟨extra ++ other, ?_, ?_⟩
    · rw [grownMore, grown, append_assoc]
    · rw [length_append, length, lengthMore, count_append]

theorem AddsAll.selects_iff (adds : AddsAll server items after) (other : EventItem) :
    after.Selects other ↔ server.Selects other := by
  rw [Selects, Selects, adds.filtering]

theorem AddsAll.holds_iff (adds : AddsAll server items after) (other : EventItem) :
    after.Holds other ↔ server.Holds other := by
  rw [Holds, Holds, adds.filtering]

theorem addEvents_adds (selected : EventItem → List Content) :
    ∀ {items : List EventItem} {server : EventServer Content}, server.Valid →
    (∀ item ∈ items, server.Holds item) → (∀ item ∈ items, server.Selects item) →
    ∃ after, addEvents selected items server = some (good, after) ∧ AddsAll server items after
  | [], server, valid, _, _ => ⟨server, rfl, .refl valid⟩
  | item :: rest, server, valid, holds, selects => by
    obtain ⟨middle, first, adds⟩ := addEvent_adds selected valid
      (holds item (mem_cons_self ..)) (selects item (mem_cons_self ..))
    obtain ⟨after, later, addsMore⟩ := addEvents_adds selected adds.valid (fun other member =>
        (adds.all.holds_iff other).mpr (holds other (mem_cons_of_mem _ member)))
      (fun other member =>
        (adds.all.selects_iff other).mpr (selects other (mem_cons_of_mem _ member)))
    refine ⟨after, ?_, adds.all.trans addsMore⟩
    rw [addEvents, first]
    exact later

theorem addEvents_selects : ∀ {items : List EventItem} {server : EventServer Content},
    server.Valid → (∀ item ∈ items, server.Holds item) →
    addEvents selected items server = some (good, after) → ∀ item ∈ items, server.Selects item
  | [], _, _, _, _, _, member => nomatch member
  | item :: rest, server, valid, holds, runs, other, member => by
    obtain ⟨⟨status, middle⟩, first, later⟩ := Option.bind_eq_some_iff.mp runs
    dsimp only at later
    split at later
    · rename_i failed
      cases later
      exact absurd rfl failed
    rename_i success
    rw [not_not.mp success] at first
    have here := addEvent_selects first
    obtain ⟨same, again, adds⟩ := addEvent_adds selected valid (holds item (mem_cons_self ..)) here
    rw [first] at again
    cases again
    rcases mem_cons.mp member with rfl | inside
    · exact here
    · refine (adds.all.selects_iff other).mp (addEvents_selects adds.valid ?_ later other inside)
      intro third present
      exact (adds.all.holds_iff third).mpr (holds third (mem_cons_of_mem _ present))

def itemsAt (server : EventServer Content) (id : NodeId) : List EventItem :=
  match server.store.getNode id with
  | none => []
  | some node => server.monitoredItemQueue node

def Notifies (server : EventServer Content) (id : NodeId) : Prop :=
  ∃ node, server.store.getNode id = some node ∧ node.nodeClass = .object ∧
    ∀ item ∈ server.monitoredItemQueue node, server.Selects item

theorem getNode_mem {store : Nodestore} {id : NodeId} (found : store.getNode id = some node) :
    node ∈ store.nodes :=
  mem_of_find?_eq_some found

theorem AddsAll.notifies_iff (adds : AddsAll server items after) (id : NodeId) :
    after.Notifies id ↔ server.Notifies id := by
  simp only [Notifies, adds.store, adds.queues, adds.selects_iff]

theorem AddsAll.itemsAt_eq (adds : AddsAll server items after) (id : NodeId) :
    after.itemsAt id = server.itemsAt id := by
  rw [itemsAt, itemsAt, adds.store, adds.queues]

theorem notifyNodes_adds (selected : EventItem → List Content) :
    ∀ {ids : List NodeId} {server : EventServer Content}, server.Valid →
    (∀ id ∈ ids, server.Notifies id) →
    ∃ after, notifyNodes selected ids server = some (good, after) ∧
      AddsAll server (ids.flatMap server.itemsAt) after
  | [], server, valid, _ => ⟨server, rfl, .refl valid⟩
  | id :: rest, server, valid, notifies => by
    obtain ⟨node, found, object, selects⟩ := notifies id (mem_cons_self ..)
    obtain ⟨middle, first, adds⟩ := addEvents_adds selected valid
      (valid.registered node (getNode_mem found)) selects
    obtain ⟨after, later, addsMore⟩ := notifyNodes_adds selected adds.valid fun other member =>
      (adds.notifies_iff other).mpr (notifies other (mem_cons_of_mem _ member))
    refine ⟨after, ?_, ?_⟩
    · rw [notifyNodes, found]
      dsimp only [Option.bind_eq_bind, Option.bind_some]
      rw [if_neg (not_not.mpr object), first]
      exact later
    · have here : server.itemsAt id = server.monitoredItemQueue node := by
        rw [itemsAt, found]
      have there := funext adds.itemsAt_eq
      rw [there] at addsMore
      rw [flatMap_cons, here]
      exact adds.trans addsMore

theorem notifyNodes_notifies : ∀ {ids : List NodeId} {server : EventServer Content},
    server.Valid → notifyNodes selected ids server = some (good, after) →
    ∀ id ∈ ids, server.Notifies id
  | [], _, _, _, _, member => nomatch member
  | id :: rest, server, valid, runs, other, member => by
    obtain ⟨node, found, runs⟩ := Option.bind_eq_some_iff.mp runs
    split at runs
    · cases runs
    rename_i object
    obtain ⟨⟨status, middle⟩, first, later⟩ := Option.bind_eq_some_iff.mp runs
    dsimp only at later
    split at later
    · rename_i failed
      cases later
      exact absurd rfl failed
    rename_i success
    rw [not_not.mp success] at first
    have holds := valid.registered node (getNode_mem found)
    have selects := addEvents_selects valid holds first
    obtain ⟨same, again, adds⟩ := addEvents_adds selected valid holds selects
    rw [first] at again
    cases again
    rcases mem_cons.mp member with rfl | inside
    · exact ⟨node, found, not_not.mp object, selects⟩
    · exact (adds.notifies_iff other).mp (notifyNodes_notifies adds.valid later other inside)

section

variable (valid : server.Valid) (member : node ∈ server.store.nodes)
  (queued : item ∈ server.monitoredItemQueue node)
include valid member queued

theorem Valid.count_queue {other : Node} (present : other ∈ server.store.nodes) :
    (server.monitoredItemQueue other).count item = if other = node then 1 else 0 := by
  obtain ⟨each, disjoint⟩ := nodup_flatMap.mp valid.once
  by_cases same : other = node
  · rw [if_pos same, same]
    exact count_eq_one_of_mem (each node member) queued
  · rw [if_neg same, count_eq_zero]
    intro inside
    have symmetric : Std.Symm (Function.onFun List.Disjoint server.monitoredItemQueue) :=
      ⟨fun _ _ apart => apart.symm⟩
    exact disjoint.forall member present (Ne.symm same) queued inside

theorem Valid.count_items (ids : List NodeId) : (ids.flatMap server.itemsAt).count item =
      ids.countP fun id => server.store.getNode id = some node := by
  induction ids with
  | nil => rfl
  | cons id rest ih =>
    rw [flatMap_cons, count_append, countP_cons, Nat.add_comm]
    congr 1
    rw [itemsAt]
    cases found : server.store.getNode id with
    | none => simp
    | some other =>
      rw [valid.count_queue member queued (getNode_mem found)]
      simp

end

def Wanted (server : EventServer Content) (origin : NodeId) (item : EventItem) : Prop :=
  server.Selects item ∧ ∃ id node, Reaches server.store.parents origin id ∧
    server.store.getNode id = some node ∧ item ∈ server.monitoredItemQueue node

def Delivers (server : EventServer Content) (origin : NodeId) (after : EventServer Content) : Prop :=
  ∀ item, (server.Wanted origin item → ∃ n, after.notified item = server.notified item ++ [n]) ∧
    (¬ server.Wanted origin item → after.notified item = server.notified item)

/-- When an event is delivered: every way along inverse references ends, each node on it is an
object whose items all have a select clause, and a node with items is reached in one way only. -/
structure Deliverable (server : EventServer Content) (origin : NodeId) (constants : StatusCode) :
    Prop where
  inObjects : isNodeInTree server.store origin objectsFolderId [organizesId, hasComponentId] = true
  constants : constants = good
  ends : Acc (fun parent child => parent ∈ server.store.parents child) origin
  notifies : ∀ id, Reaches server.store.parents origin id → server.Notifies id
  once : ∀ node ∈ server.store.nodes, server.monitoredItemQueue node ≠ [] →
    (∃ id, Reaches server.store.parents origin id ∧ server.store.getNode id = some node) →
    ∃! route, ∃ id, Route server.store.parents origin route id ∧ server.store.getNode id = some node

theorem triggerEvent_eq
    (inside : isNodeInTree server.store origin objectsFolderId [organizesId, hasComponentId] = true)
    (fuel : Nat) : triggerEvent selected fuel server origin good =
      (unfolding server.store.parents fuel origin).bind fun points =>
        notifyNodes selected points.reverse server := by
  have collected := getParents_eq server.store fuel origin ⟨0, .numeric 0⟩ []
  rw [triggerEvent, inside]
  cases unfolds : unfolding server.store.parents fuel origin with
  | none =>
    rw [unfolds] at collected
    rw [Option.map_eq_none_iff.mp (collected.trans rfl)]
    rfl
  | some points =>
    rw [unfolds] at collected
    obtain ⟨⟨status, nodes⟩, gets, same⟩ := Option.map_eq_some_iff.mp collected
    have same : nodes = points.reverse := same.trans (append_nil _)
    rw [gets, same]
    rfl

theorem triggerEvent_good {fuel : Nat} {constants : StatusCode}
    (runs : triggerEvent selected fuel server origin constants = some (good, after)) :
    isNodeInTree server.store origin objectsFolderId [organizesId, hasComponentId] = true ∧
      constants = good ∧ ∃ points, unfolding server.store.parents fuel origin = some points ∧
        notifyNodes selected points.reverse server = some (good, after) := by
  cases inside : isNodeInTree server.store origin objectsFolderId [organizesId, hasComponentId] with
  | false =>
    rw [triggerEvent, inside] at runs
    cases runs
  | true =>
    by_cases set : constants = good
    · rw [set, triggerEvent_eq inside] at runs
      exact ⟨rfl, set, Option.bind_eq_some_iff.mp runs⟩
    · rw [triggerEvent, inside, if_pos set] at runs
      cases runs
      exact absurd rfl set

theorem notified_unfolding {fuel : Nat} {points : List NodeId} (valid : server.Valid)
    (unfolds : unfolding server.store.parents fuel origin = some points)
    (adds : AddsAll server (points.reverse.flatMap server.itemsAt) after)
    (member : node ∈ server.store.nodes) (queued : item ∈ server.monitoredItemQueue node) :
    (∃ n, after.notified item = server.notified item ++ [n]) ↔
      ∃! route, ∃ id, Route server.store.parents origin route id ∧
        server.store.getNode id = some node := by
  have unique := countP_eq_one_iff unfolds fun id => decide (server.store.getNode id = some node)
  simp only [decide_eq_true_eq] at unique
  obtain ⟨extra, grown, length⟩ := adds.notified item
  rw [valid.count_items member queued, countP_reverse] at length
  rw [← unique, ← length]
  constructor
  · rintro ⟨n, one⟩
    rw [grown] at one
    rw [append_cancel_left one]
    rfl
  · intro one
    obtain ⟨n, only⟩ := length_eq_one_iff.mp one
    exact ⟨n, by rw [grown, only]⟩

/-- The event is delivered, without an error, exactly under these conditions. -/
theorem triggerEvent_delivers_iff (valid : server.Valid) (origin : NodeId)
    (constants : StatusCode) :
    (∃ fuel after, triggerEvent selected fuel server origin constants = some (good, after) ∧
      server.Delivers origin after) ↔ server.Deliverable origin constants := by
  constructor
  · rintro ⟨fuel, after, runs, delivers⟩
    obtain ⟨inside, set, points, unfolds, loops⟩ := triggerEvent_good runs
    have notifies : ∀ id, Reaches server.store.parents origin id → server.Notifies id :=
      fun id reaches => notifyNodes_notifies valid loops id
        (mem_reverse.mpr ((mem_unfolding unfolds).mpr reaches))
    obtain ⟨same, again, adds⟩ := notifyNodes_adds selected valid
      fun id member => notifyNodes_notifies valid loops id member
    rw [loops] at again
    cases again
    refine ⟨inside, set, acc_of_unfolding unfolds, notifies, ?_⟩
    rintro node member full ⟨id, reaches, found⟩
    obtain ⟨item, queued⟩ := exists_mem_of_ne_nil _ full
    obtain ⟨other, here, -, selects⟩ := notifies id reaches
    rw [found] at here
    cases here
    exact (notified_unfolding valid unfolds adds member queued).mp
      ((delivers item).1 ⟨selects item queued, id, node, reaches, found, queued⟩)
  · rintro ⟨inside, set, ends, notifies, once⟩
    obtain ⟨fuel, points, unfolds⟩ := unfolding_of_acc ends
    obtain ⟨after, loops, adds⟩ := notifyNodes_adds selected valid
      fun id member => notifies id ((mem_unfolding unfolds).mp (mem_reverse.mp member))
    refine ⟨fuel, after, ?_, ?_⟩
    · rw [set, triggerEvent_eq inside, unfolds]
      exact loops
    intro item
    constructor
    · rintro ⟨-, id, node, reaches, found, queued⟩
      have member := getNode_mem found
      exact (notified_unfolding valid unfolds adds member queued).mpr
        (once node member (ne_nil_of_mem queued) ⟨id, reaches, found⟩)
    · intro unwanted
      obtain ⟨extra, grown, length⟩ := adds.notified item
      have none : (points.reverse.flatMap server.itemsAt).count item = 0 := by
        rw [count_eq_zero]
        intro member
        obtain ⟨id, reached, queued⟩ := mem_flatMap.mp member
        have reaches := (mem_unfolding unfolds).mp (mem_reverse.mp reached)
        obtain ⟨node, found, -, selects⟩ := notifies id reaches
        rw [itemsAt, found] at queued
        exact unwanted ⟨selects item queued, id, node, reaches, found, queued⟩
      rw [none, length_eq_zero_iff] at length
      rw [grown, length, append_nil]

/-! Two small address spaces -/

def eventRequest : MonitoredItemCreateRequest Nat :=
  ⟨attributeIdEventNotifier, .unnamed, .reporting, ⟨0, .eventFilter ⟨1⟩, 10, true⟩,
    ⟨0, none, false, good⟩, true, good, ⟨⟨0, none, false, good⟩, false, false⟩⟩

def machineId : NodeId := standardId 1000

def objectNode (nodeId : NodeId) (references : List NodeReferenceKind) : Node :=
  ⟨nodeId, .object, ⟨0, .null⟩, ⟨.null, .null⟩, false, references⟩

def objectsNode : Node := objectNode objectsFolderId []

def reference (type : NodeId) : NodeReferenceKind :=
  ⟨type, true, [⟨objectsFolderId, .null, 0⟩]⟩

def machineServer (types : List NodeId) (sub : Subscription Nat) : EventServer Nat where
  store := ⟨[objectsNode, objectNode machineId (types.map reference)]⟩
  monitoredItemQueue node := if node = objectsNode then [⟨0, 0⟩] else []
  subscriptions := [sub]

theorem machineServer_valid : ∃ sub, ∀ types : List NodeId, (machineServer types sub).Valid ∧
    (machineServer types sub).Selects ⟨0, 0⟩ := by
  obtain ⟨result, sub, creates, address, filters⟩ : ∃ result sub,
      (Subscription.new 0 1).createMonitoredItem defaultConfig eventRequest = some (result, sub) ∧
        sub.address = 0 ∧ (sub.item 0).map (fun mon => (mon.filter, mon.monitoredItemType)) =
          some (.eventFilter ⟨1⟩, .eventNotify) := ⟨_, _, rfl, rfl, rfl⟩
  have roomy : 1 ≤ defaultConfig.queueSizeLimits.min := Nat.le_refl _
  have outcome := createMonitoredItem_sound roomy (Session.new_sound 0 1) eventRequest
  rw [creates] at outcome
  refine ⟨sub, fun types => ?_⟩
  have found : (machineServer types sub).filtering ⟨0, 0⟩ =
      some (.eventFilter ⟨1⟩, .eventNotify) := by
    rw [filtering, subscription, machineServer, find?_cons, address]
    rw [Option.map_eq_bind] at filters
    exact filters
  refine ⟨⟨?_, ?_, ?_, ?_⟩, ⟨1⟩, .eventNotify, found, by decide⟩
  · exact nodup_singleton _
  · intro other member
    rw [mem_singleton.mp member]
    exact outcome.of_some.sound
  · intro node _ item queued
    rw [machineServer] at queued
    dsimp only at queued
    split at queued
    · rw [mem_singleton.mp queued]
      exact ⟨_, found⟩
    · cases queued
  · rw [machineServer]
    dsimp only
    have different : machineId ≠ objectsFolderId := by decide
    exact nodup_singleton _

def machineStore (types : List NodeId) : Nodestore :=
  ⟨[objectsNode, objectNode machineId (types.map reference)]⟩

theorem machine_delivers : ∃ sub : Subscription Nat, ∃ fuel after,
    triggerEvent (fun _ => [7]) fuel (machineServer [organizesId] sub) machineId good =
      some (good, after) ∧ (machineServer [organizesId] sub).Delivers machineId after := by
  obtain ⟨sub, valid⟩ := machineServer_valid
  obtain ⟨valid, selects⟩ := valid [organizesId]
  have unfolds : unfolding (machineStore [organizesId]).parents 2 machineId =
      some [machineId, objectsFolderId] := by decide
  refine ⟨sub, (triggerEvent_delivers_iff valid machineId good).mpr ?_⟩
  refine ⟨?_, rfl, acc_of_unfolding unfolds, ?_, ?_⟩
  · change isNodeInTree (machineStore [organizesId]) machineId objectsFolderId _ = true
    decide
  · intro id reaches
    have member := (mem_unfolding unfolds).mpr reaches
    rw [mem_cons, mem_singleton] at member
    rcases member with rfl | rfl
    · exact ⟨objectNode machineId [reference organizesId], rfl, rfl, fun _ queued => nomatch queued⟩
    · refine ⟨objectsNode, rfl, rfl, fun item queued => ?_⟩
      rw [mem_singleton.mp queued]
      exact selects
  · intro node member full _
    have folder : node = objectsNode := by
      by_contra other
      exact full (if_neg other)
    have once := (countP_eq_one_iff unfolds fun id =>
      decide ((machineStore [organizesId]).getNode id = some objectsNode)).mp (by decide)
    simp only [decide_eq_true_eq] at once
    rw [folder]
    exact once

/-- With two references to the folder the machine has two ways up, and the item gets the event
twice. -/
theorem machine_repeats : ¬ ∀ (server : EventServer Nat) (origin : NodeId), server.Valid →
    isNodeInTree server.store origin objectsFolderId [organizesId, hasComponentId] = true →
    ∃ fuel status after, triggerEvent (fun _ => [7]) fuel server origin good =
      some (status, after) ∧ server.Delivers origin after := by
  intro delivers
  obtain ⟨sub, valid⟩ := machineServer_valid
  obtain ⟨valid, selects⟩ := valid [organizesId, hasComponentId]
  have inside : isNodeInTree (machineStore [organizesId, hasComponentId]) machineId objectsFolderId
      [organizesId, hasComponentId] = true := by decide
  have unfolds : unfolding (machineStore [organizesId, hasComponentId]).parents 2 machineId =
      some [machineId, objectsFolderId, objectsFolderId] := by decide
  obtain ⟨fuel, status, after, runs, delivered⟩ := delivers _ machineId valid inside
  rw [triggerEvent_eq inside] at runs
  obtain ⟨points, unfoldsToo, loops⟩ := Option.bind_eq_some_iff.mp runs
  cases unfolding_unique unfolds unfoldsToo
  have notifies : ∀ id ∈ [objectsFolderId, objectsFolderId, machineId],
      (machineServer [organizesId, hasComponentId] sub).Notifies id := by
    have folder : (machineServer [organizesId, hasComponentId] sub).Notifies objectsFolderId := by
      refine ⟨objectsNode, rfl, rfl, fun item queued => ?_⟩
      rw [mem_singleton.mp queued]
      exact selects
    intro id member
    simp only [mem_cons, not_mem_nil, or_false] at member
    rcases member with rfl | rfl | rfl
    · exact folder
    · exact folder
    · exact ⟨objectNode machineId [reference organizesId, reference hasComponentId], rfl, rfl,
        fun _ queued => nomatch queued⟩
  obtain ⟨same, again, adds⟩ := notifyNodes_adds (fun _ => [7]) valid notifies
  cases loops.symm.trans again
  have reaches : Reaches (machineStore [organizesId, hasComponentId]).parents machineId
      objectsFolderId := (mem_unfolding unfolds).mp (by decide)
  have one := (notified_unfolding valid unfolds adds (mem_cons_self ..) (mem_singleton_self _)).mp
      ((delivered ⟨0, 0⟩).1 ⟨selects, objectsFolderId, objectsNode, reaches, rfl,
        mem_singleton_self _⟩)
  have once := (countP_eq_one_iff unfolds fun id =>
    decide ((machineStore [organizesId, hasComponentId]).getNode id = some objectsNode)).mpr (by
        simp only [decide_eq_true_eq]
        exact one)
  revert once
  decide

end EventServer
end OpcUa
