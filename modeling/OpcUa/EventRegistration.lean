import OpcUa.EventRegistrationCore

/-!
Which items stand in the lists of the nodes, and how often a deleted item is released. An item that
is not the first one of its node is released twice, when the callback takes it out of the list and
when it is deleted.
-/

namespace OpcUa

open SinglyLinked List

namespace EventItems

section Statements

variable {Node : Type}

def Queued (state : EventItems Node) : Prop :=
  ∀ id node, state.nodes id = some node → node.isObject = true →
    ∃ queue, Chain state.next node.monitoredItemQueue queue ∧ queue.Nodup ∧
      ∀ address, address ∈ queue ↔ state.Monitors address id

structure Consistent (state : EventItems Node) : Prop where
  queued : state.Queued
  live : ∀ address, state.Live address → state.releases address = 0
  deleted : ∀ address < state.unused, ¬state.Live address → state.releases address = 1

def Removable (state : EventItems Node) (target : Option (Nat × Nat)) : Prop :=
  ∀ sub address, target = some (sub, address) → ∀ id, state.Monitors address id →
    ∀ node, state.nodes id = some node → node.monitoredItemQueue = some address

/-- An event item is created for an object, which has another item if the index range cannot be
copied, and the first item of a node is deleted first. -/
def Keeps (state : EventItems Node) : EventItemAction Node → Prop
  | .create request => request.admitted = true → request.accepted = true →
      request.attributeId = attributeIdEventNotifier → request.nodeIdCopied = true →
        ∀ node, state.nodes request.nodeId = some node → node.isObject = true ∧
          (request.indexRangeCopied = true ∨ node.monitoredItemQueue ≠ none)
  | action => state.Removable (state.deleted action)

theorem kindOf_eventNotify {attributeId : Nat} :
    kindOf attributeId = .eventNotify ↔ attributeId = attributeIdEventNotifier := by
  rw [kindOf]
  by_cases event : attributeId = attributeIdEventNotifier
  · rw [if_pos event]
    exact iff_of_true rfl event
  · rw [if_neg event]
    exact iff_of_false MonitoredItemType.noConfusion event

/-! The records of the items -/

structure Recorded (state : EventItems Node) : Prop where
  live : ∀ address, state.Live address → state.releases address = 0
  deleted : ∀ address < state.unused, ¬state.Live address → state.releases address = 1
  used : ∀ address, (state.items address).isSome ↔ address < state.unused
  known : ∀ address, state.Live address → address < state.unused
  fresh : ∀ address, state.unused ≤ address → state.releases address = 0
  nodup : ∀ sub, (state.monitoredItems sub).Nodup
  once : ∀ sub other address, address ∈ state.monitoredItems sub →
    address ∈ state.monitoredItems other → sub = other
  kinds : ∀ address item, state.Live address → state.items address = some item →
    item.monitoredItemType = kindOf item.attributeId
  monitored : ∀ address item, state.Live address → state.items address = some item →
    item.monitoredItemType = .eventNotify → ∃ id, item.monitoredNodeId = some id ∧
      ∀ node, state.nodes id = some node → node.isObject = true

structure Registered (state : EventItems Node) : Prop where
  queued : state.Queued
  recorded : state.Recorded

theorem Registered.consistent {state : EventItems Node} (registered : state.Registered) :
    state.Consistent :=
  ⟨registered.queued, registered.recorded.live, registered.recorded.deleted⟩

theorem Registered.empty (nodes : Node → Option EventNode)
    (queues : ∀ id node, nodes id = some node → node.monitoredItemQueue = none) :
    (EventItems.empty nodes).Registered := by
  have none : ∀ address, ¬(EventItems.empty nodes).Live address := by
    rintro address ⟨sub, member⟩
    cases member
  constructor
  · intro id node here _
    refine ⟨[], ?_, nodup_nil, ?_⟩
    · rw [queues id node here]
      exact .nil
    · intro address
      exact iff_of_false not_mem_nil fun monitors => none address monitors.1
  · constructor
    · intro address live
      exact absurd live (none address)
    · intro address impossible
      cases impossible
    · intro address
      exact iff_of_false Bool.false_ne_true (Nat.not_lt_zero address)
    · intro address live
      exact absurd live (none address)
    · intro address _
      rfl
    · intro sub
      exact nodup_nil
    · intro sub other address member
      cases member
    · intro address item live
      exact absurd live (none address)
    · intro address item live
      exact absurd live (none address)

section Records

variable {state after : EventItems Node}
variable {address : Nat} {queue : List Nat}
variable {sub : Nat}

theorem Recorded.congr (recorded : state.Recorded) (items : after.items = state.items)
    (lists : after.monitoredItems = state.monitoredItems)
    (released : after.released = state.released) (unused : after.unused = state.unused)
    (objects : ∀ id node, after.nodes id = some node →
      node.isObject = true ∨ state.nodes id = some node) : after.Recorded := by
  have live : ∀ address, after.Live address ↔ state.Live address := by
    intro address
    rw [Live, Live, lists]
  have releases : ∀ address, after.releases address = state.releases address := by
    intro address
    rw [EventItems.releases, released, EventItems.releases]
  constructor
  · intro address alive
    rw [releases]
    exact recorded.live address ((live address).mp alive)
  · intro address before dead
    rw [releases]
    exact recorded.deleted address (unused ▸ before) (mt (live address).mpr dead)
  · intro address
    rw [items, unused]
    exact recorded.used address
  · intro address alive
    rw [unused]
    exact recorded.known address ((live address).mp alive)
  · intro address behind
    rw [releases]
    exact recorded.fresh address (unused ▸ behind)
  · intro sub
    rw [lists]
    exact recorded.nodup sub
  · intro sub other address
    rw [lists]
    exact recorded.once sub other address
  · intro address item alive
    rw [items]
    exact recorded.kinds address item ((live address).mp alive)
  · intro address item alive here event
    rw [items] at here
    obtain ⟨id, monitored, object⟩ :=
      recorded.monitored address item ((live address).mp alive) here event
    refine ⟨id, monitored, ?_⟩
    intro node found
    rcases objects id node found with isObject | same
    · exact isObject
    · exact object node same

theorem releases_cons {how : Release} (released : after.released = (how, address) :: state.released)
    (other : Nat) :
    after.releases other = state.releases other + if address = other then 1 else 0 := by
  rw [releases, released, map_cons, count_cons, releases]
  simp only [beq_iff_eq]

section

variable (recorded : state.Recorded)
include recorded

theorem Recorded.apart (live : state.Live address) : address ≠ state.unused :=
  Nat.ne_of_lt (recorded.known address live)

theorem allocate_items (item : RegisteredItem Node) (live : state.Live address) :
    (state.allocate item).items address = state.items address :=
  Function.update_of_ne (recorded.apart live) _ _

theorem allocate_used (item : RegisteredItem Node) (address : Nat) :
    ((state.allocate item).items address).isSome ↔ address < (state.allocate item).unused := by
  have allocated : (state.allocate item).items
      = Function.update state.items state.unused (some item) := rfl
  have unused : (state.allocate item).unused = state.unused + 1 := rfl
  rw [allocated, unused]
  by_cases new : address = state.unused
  · rw [new]
    simp
  · rw [Function.update_of_ne new, recorded.used]
    omega

theorem Recorded.rejected (item : RegisteredItem Node) : { state.allocate item with
      released := (.delayedFree, state.unused) :: state.released }.Recorded := by
  have releases : ∀ other, EventItems.releases { state.allocate item with
      released := (.delayedFree, state.unused) :: state.released } other
        = state.releases other + if state.unused = other then 1 else 0 :=
    releases_cons rfl
  constructor
  · intro address live
    rw [releases, if_neg (recorded.apart live).symm]
    exact recorded.live address live
  · intro address before dead
    rw [releases]
    by_cases new : address = state.unused
    · rw [if_pos new.symm, new, recorded.fresh _ (Nat.le_refl _)]
    · rw [if_neg (Ne.symm new)]
      exact recorded.deleted address (Nat.lt_of_le_of_ne (Nat.le_of_lt_succ before) new) dead
  · exact allocate_used recorded item
  · intro address live
    exact Nat.lt_succ_of_lt (recorded.known address live)
  · intro address behind
    have old := recorded.fresh address (Nat.le_of_succ_le behind)
    rw [releases, old, if_neg (Nat.ne_of_lt behind)]
  · exact recorded.nodup
  · exact recorded.once
  · intro address other live
    rw [allocate_items recorded item live]
    exact recorded.kinds address other live
  · intro address other live
    rw [allocate_items recorded item live]
    exact recorded.monitored address other live

end

theorem mem_addMonitoredItem (sub new other address : Nat) :
    address ∈ (state.addMonitoredItem sub new).monitoredItems other ↔
      (other = sub ∧ address = new) ∨ address ∈ state.monitoredItems other := by
  have lists : (state.addMonitoredItem sub new).monitoredItems other
      = if other = sub then new :: state.monitoredItems sub else state.monitoredItems other :=
    Function.update_apply ..
  rw [lists]
  by_cases same : other = sub
  · rw [if_pos same, same, mem_cons]
    simp only [true_and]
  · rw [if_neg same]
    simp only [same, false_and, false_or]

theorem addMonitoredItem_live (sub new address : Nat) :
    (state.addMonitoredItem sub new).Live address ↔ address = new ∨ state.Live address := by
  constructor
  · rintro ⟨other, member⟩
    rcases (mem_addMonitoredItem sub new other address).mp member with ⟨_, same⟩ | old
    · exact .inl same
    · exact .inr ⟨other, old⟩
  · rintro (same | ⟨other, member⟩)
    · exact ⟨sub, (mem_addMonitoredItem sub new sub address).mpr (.inl ⟨rfl, same⟩)⟩
    · exact ⟨other, (mem_addMonitoredItem sub new other address).mpr (.inr member)⟩

variable {item : RegisteredItem Node}

theorem Recorded.added (recorded : state.Recorded)
    (kind : item.monitoredItemType = kindOf item.attributeId)
    (object : item.monitoredItemType = .eventNotify → ∃ id, item.monitoredNodeId = some id ∧
      ∀ node, state.nodes id = some node → node.isObject = true) (sub : Nat) :
    ((state.allocate item).addMonitoredItem sub state.unused).Recorded := by
  have live : ∀ address, ((state.allocate item).addMonitoredItem sub state.unused).Live address ↔
      address = state.unused ∨ state.Live address :=
    addMonitoredItem_live sub state.unused
  have new : (state.allocate item).items state.unused = some item := Function.update_self ..
  have unknown : ∀ other, state.unused ∉ state.monitoredItems other := by
    intro other member
    exact recorded.apart ⟨other, member⟩ rfl
  constructor
  · intro address alive
    rcases (live address).mp alive with rfl | old
    · exact recorded.fresh _ (Nat.le_refl _)
    · exact recorded.live address old
  · intro address before dead
    rw [live, not_or] at dead
    exact recorded.deleted address (Nat.lt_of_le_of_ne (Nat.le_of_lt_succ before) dead.1) dead.2
  · exact allocate_used recorded item
  · intro address alive
    rcases (live address).mp alive with rfl | old
    · exact Nat.lt_succ_self _
    · exact Nat.lt_succ_of_lt (recorded.known address old)
  · intro address behind
    exact recorded.fresh address (Nat.le_of_succ_le behind)
  · intro other
    have lists : ((state.allocate item).addMonitoredItem sub state.unused).monitoredItems other
        = if other = sub then state.unused :: state.monitoredItems sub
          else state.monitoredItems other :=
      Function.update_apply ..
    rw [lists]
    by_cases same : other = sub
    · rw [if_pos same]
      exact nodup_cons.mpr ⟨unknown sub, recorded.nodup sub⟩
    · rw [if_neg same]
      exact recorded.nodup other
  · intro first second address here there
    rcases (mem_addMonitoredItem ..).mp here with ⟨same, rfl⟩ | here
    · rcases (mem_addMonitoredItem ..).mp there with ⟨other, _⟩ | there
      · rw [same, other]
      · exact absurd there (unknown second)
    · rcases (mem_addMonitoredItem ..).mp there with ⟨_, rfl⟩ | there
      · exact absurd here (unknown first)
      · exact recorded.once first second address here there
  · intro address other alive here
    rcases (live address).mp alive with rfl | old
    · cases new.symm.trans here
      exact kind
    · exact recorded.kinds address other old ((allocate_items recorded item old).symm.trans here)
  · intro address other alive here
    rcases (live address).mp alive with rfl | old
    · cases new.symm.trans here
      exact object
    · exact recorded.monitored address other old
        ((allocate_items recorded item old).symm.trans here)

theorem added_monitors (recorded : state.Recorded) (item : RegisteredItem Node)
    (sub address : Nat) (id : Node) :
    ((state.allocate item).addMonitoredItem sub state.unused).Monitors address id ↔
      (address = state.unused ∧ item.monitoredItemType = .eventNotify ∧
        item.monitoredNodeId = some id) ∨ state.Monitors address id := by
  have live : ((state.allocate item).addMonitoredItem sub state.unused).Live address ↔
      address = state.unused ∨ state.Live address :=
    addMonitoredItem_live sub state.unused address
  have new : (state.allocate item).items state.unused = some item := Function.update_self ..
  constructor
  · rintro ⟨alive, entry, here, event, monitored⟩
    rcases live.mp alive with rfl | old
    · cases new.symm.trans here
      exact .inl ⟨rfl, event, monitored⟩
    · exact .inr ⟨old, entry, (allocate_items recorded item old).symm.trans here, event, monitored⟩
  · rintro (⟨rfl, event, monitored⟩ | ⟨old, entry, here, event, monitored⟩)
    · exact ⟨live.mpr (.inl rfl), item, new, event, monitored⟩
    · exact ⟨live.mpr (.inr old), entry, (allocate_items recorded item old).trans here, event,
        monitored⟩

theorem allocate_monitors (recorded : state.Recorded) (item : RegisteredItem Node)
    (address : Nat) (id : Node) :
    (state.allocate item).Monitors address id ↔ state.Monitors address id := by
  apply and_congr_right
  intro live
  rw [allocate_items recorded item live]

theorem allocate_next (recorded : state.Recorded) (item : RegisteredItem Node) (address : Nat)
    (live : state.Live address) : (state.allocate item).next address = state.next address :=
  Function.update_of_ne (recorded.apart live) _ _

variable {id : Node}

theorem unused_absent (recorded : state.Recorded)
    (members : ∀ address, address ∈ queue ↔ state.Monitors address id) : state.unused ∉ queue :=
  fun member => recorded.apart ((members _).mp member).1 rfl

def unlist (state : EventItems Node) (sub address : Nat) : EventItems Node :=
  { state with
    monitoredItems :=
      Function.update state.monitoredItems sub ((state.monitoredItems sub).erase address) }

theorem mem_unlist (recorded : state.Recorded) (sub address owner other : Nat) :
    other ∈ (state.unlist sub address).monitoredItems owner ↔
      other ∈ state.monitoredItems owner ∧ (owner = sub → other ≠ address) := by
  have lists : (state.unlist sub address).monitoredItems owner
      = if owner = sub then (state.monitoredItems sub).erase address
        else state.monitoredItems owner :=
    Function.update_apply ..
  rw [lists]
  by_cases same : owner = sub
  · rw [if_pos same, same, (recorded.nodup sub).mem_erase_iff, and_comm]
    simp only [true_implies]
  · rw [if_neg same]
    simp only [same, false_implies, and_true]

section Unlisted

variable {sub : Nat}

section

variable (recorded : state.Recorded) (member : address ∈ state.monitoredItems sub)
include recorded member

theorem unlist_live (other : Nat) :
    (state.unlist sub address).Live other ↔ state.Live other ∧ other ≠ address := by
  constructor
  · rintro ⟨owner, inside⟩
    obtain ⟨before, apart⟩ := (mem_unlist recorded sub address owner other).mp inside
    refine ⟨⟨owner, before⟩, ?_⟩
    rintro rfl
    exact apart (recorded.once owner sub other before member) rfl
  · rintro ⟨⟨owner, before⟩, apart⟩
    exact ⟨owner, (mem_unlist recorded sub address owner other).mpr ⟨before, fun _ => apart⟩⟩

theorem unlist_monitors (other : Nat) (id : Node) : (state.unlist sub address).Monitors other id ↔
      state.Monitors other id ∧ other ≠ address := by
  rw [Monitors, unlist_live recorded member]
  exact and_right_comm

theorem Recorded.unlisted : { state.unlist sub address with
      released := (.delayedFree, address) :: state.released }.Recorded := by
  have live := unlist_live recorded member
  have releases : ∀ other, EventItems.releases { state.unlist sub address with
      released := (.delayedFree, address) :: state.released } other
        = state.releases other + if address = other then 1 else 0 :=
    releases_cons rfl
  constructor
  · intro other alive
    obtain ⟨old, apart⟩ := (live other).mp alive
    rw [releases, if_neg apart.symm]
    exact recorded.live other old
  · intro other before dead
    rw [releases]
    by_cases same : other = address
    · rw [same, if_pos rfl, recorded.live address ⟨sub, member⟩]
    · rw [if_neg (Ne.symm same)]
      exact recorded.deleted other before fun old => dead ((live other).mpr ⟨old, same⟩)
  · exact recorded.used
  · intro other alive
    exact recorded.known other ((live other).mp alive).1
  · intro other behind
    have before := recorded.known address ⟨sub, member⟩
    rw [releases, recorded.fresh other behind, if_neg (Nat.ne_of_lt (before.trans_le behind))]
  · intro owner
    have lists : (state.unlist sub address).monitoredItems owner
        = if owner = sub then (state.monitoredItems sub).erase address
          else state.monitoredItems owner :=
      Function.update_apply ..
    rw [lists]
    by_cases same : owner = sub
    · rw [if_pos same]
      exact (recorded.nodup sub).erase address
    · rw [if_neg same]
      exact recorded.nodup owner
  · intro first second other here there
    exact recorded.once first second other ((mem_unlist recorded ..).mp here).1
      ((mem_unlist recorded ..).mp there).1
  · intro other item alive
    exact recorded.kinds other item ((live other).mp alive).1
  · intro other item alive
    exact recorded.monitored other item ((live other).mp alive).1

end

end Unlisted

theorem getMonitoredItem_mem {monitoredItemId : BitVec 32}
    (found : state.getMonitoredItem sub monitoredItemId = some address) :
    address ∈ state.monitoredItems sub :=
  mem_of_find?_eq_some found

theorem modifyMonitoredItem_eq (recorded : state.Recorded) (sub : Nat)
    (monitoredItemId : BitVec 32) (accepted : Bool) :
    state.modifyMonitoredItem sub monitoredItemId accepted = state := by
  rw [modifyMonitoredItem]
  cases found : state.getMonitoredItem sub monitoredItemId with
  | none => rfl
  | some address =>
    cases accepted with
    | false => rfl
    | true =>
      have live : state.Live address := ⟨sub, getMonitoredItem_mem found⟩
      have kept : (state.items address).map (fun item =>
          { item with monitoredItemType := kindOf item.attributeId }) = state.items address := by
        cases here : state.items address with
        | none => rfl
        | some item =>
          rw [Option.map_some, ← recorded.kinds address item live here]
      simp only [Bool.not_true, Bool.false_eq_true, if_false, kept, Function.update_eq_self]

theorem deleted_mem {action : EventItemAction Node}
    (target : state.deleted action = some (sub, address)) : address ∈ state.monitoredItems sub := by
  cases action with
  | create _ => cases target
  | modify _ _ _ => cases target
  | delete owner monitoredItemId =>
    obtain ⟨found, here, same⟩ := Option.map_eq_some_iff.mp target
    cases same
    exact getMonitoredItem_mem here
  | deleteFirst owner =>
    obtain ⟨found, here, same⟩ := Option.map_eq_some_iff.mp target
    cases same
    exact mem_of_mem_head? here

theorem Queued.congr (queued : state.Queued) (nodes : after.nodes = state.nodes)
    (next : ∀ address, state.Live address → after.next address = state.next address)
    (monitors : ∀ address id node, state.nodes id = some node →
      (after.Monitors address id ↔ state.Monitors address id)) : after.Queued := by
  intro id node here isObject
  rw [nodes] at here
  obtain ⟨queue, chain, nodup, members⟩ := queued id node here isObject
  refine ⟨queue, ?_, nodup, ?_⟩
  · apply chain.congr
    intro entry member
    exact next entry ((members entry).mp member).1
  · intro address
    rw [monitors address id node here]
    exact members address

theorem Queued.update [DecidableEq Node] (queued : state.Queued) {head : Option Nat}
    (nodes : after.nodes = Function.update state.nodes id (some ⟨true, head⟩))
    (chain : Chain after.next head queue) (nodup : queue.Nodup)
    (members : ∀ address, address ∈ queue ↔ after.Monitors address id)
    (next : ∀ address, state.Live address → after.next address = state.next address)
    (monitors : ∀ address other, other ≠ id →
      (after.Monitors address other ↔ state.Monitors address other)) : after.Queued := by
  intro other node here isObject
  rw [nodes] at here
  by_cases same : other = id
  · rw [same, Function.update_self] at here
    cases here
    rw [same]
    exact ⟨queue, chain, nodup, members⟩
  · rw [Function.update_of_ne same] at here
    obtain ⟨others, linked, distinct, entries⟩ := queued other node here isObject
    refine ⟨others, ?_, distinct, ?_⟩
    · apply linked.congr
      intro entry member
      exact next entry ((entries entry).mp member).1
    · intro address
      rw [monitors address other same]
      exact entries address

theorem queue_short (recorded : state.Recorded) (nodup : queue.Nodup)
    (members : ∀ address, address ∈ queue ↔ state.Monitors address id) :
    queue.length ≤ state.unused := by
  have inside : queue ⊆ List.range state.unused := by
    intro address member
    exact mem_range.mpr (recorded.known address ((members address).mp member).1)
  have short := (nodup.subperm inside).length_le
  rwa [length_range] at short

theorem Registered.added (registered : state.Registered)
    (kind : item.monitoredItemType = kindOf item.attributeId)
    (plain : item.monitoredItemType ≠ .eventNotify) (sub : Nat) :
    ((state.allocate item).addMonitoredItem sub state.unused).Registered := by
  refine ⟨?_, registered.recorded.added kind (fun event => absurd event plain) sub⟩
  apply registered.queued.congr
  · rfl
  · exact allocate_next registered.recorded item
  · intro address id _ _
    rw [added_monitors registered.recorded]
    exact or_iff_right fun new => plain new.2.1

end Records

end Statements

variable {Node : Type} [DecidableEq Node] {state : EventItems Node}

section Removal

variable {address : Nat} {id : Node} {node : EventNode} {queue : List Nat}
variable {item : RegisteredItem Node} {removed : EventItems Node}

theorem remove_unknown (unknown : state.nodes id = none) :
    state.removeMonitoredItemFromNode address (some id) = some state := by
  rw [removeMonitoredItemFromNode, unknown]

section

variable (here : state.nodes id = some node) (isObject : node.isObject = true)
include here isObject

theorem remove_first (first : node.monitoredItemQueue = some address) :
    state.removeMonitoredItemFromNode address (some id)
      = some (state.setQueue id (state.next address)) := by
  rw [removeMonitoredItemFromNode, here]
  simp only [isObject, first, Bool.not_true, Bool.false_eq_true, if_false, if_true]

theorem remove_later (first : Nat) (other : first ≠ address)
    (queued : node.monitoredItemQueue = some first) :
    state.removeMonitoredItemFromNode address (some id)
      = (contains state.next address state.unused (state.next first)).bind fun found =>
          if found then (previous state.next address state.unused first).bind fun entry =>
            some { state with
              next := Function.update state.next entry (state.next address)
              released := (.free, address) :: state.released }
          else some state := by
  rw [removeMonitoredItemFromNode, here]
  have apart : ¬some first = some address := fun same => other (Option.some.inj same)
  simp only [isObject, queued, Bool.not_true, Bool.false_eq_true, if_false, if_neg apart]
  rfl

theorem remove_missing (some : node.monitoredItemQueue ≠ none)
    (chain : Chain state.next node.monitoredItemQueue queue) (absent : address ∉ queue)
    (short : queue.length ≤ state.unused) :
    state.removeMonitoredItemFromNode address (Option.some id) = Option.some state := by
  generalize queued : node.monitoredItemQueue = head at some chain
  cases chain with
  | nil => exact absurd rfl some
  | @cons first rest linked =>
    obtain ⟨other, missing⟩ := not_or.mp (mt mem_cons.mpr absent)
    rw [remove_later here isObject first (Ne.symm other) queued,
      linked.contains_eq (Nat.le_of_succ_le short), decide_eq_false missing]
    rfl

theorem remove_inner (other : node.monitoredItemQueue ≠ some address)
    (chain : Chain state.next node.monitoredItemQueue queue) (nodup : queue.Nodup)
    (member : address ∈ queue) (short : queue.length ≤ state.unused) :
    ∃ next, state.removeMonitoredItemFromNode address (some id)
      = some { state with next := next, released := (.free, address) :: state.released } := by
  generalize queued : node.monitoredItemQueue = head at other chain
  cases chain with
  | nil => cases member
  | @cons first rest linked =>
    have apart : first ≠ address := fun same => other (congrArg some same)
    have later : address ∈ rest := (mem_cons.mp member).resolve_left apart.symm
    have enough := Nat.le_of_succ_le short
    obtain ⟨entry, found, _, _⟩ := Chain.unlink (.cons linked) nodup later enough
    rw [remove_later here isObject first apart queued, linked.contains_eq enough,
      decide_eq_true later, Option.bind_some, if_pos rfl, found]
    exact ⟨_, rfl⟩

end

theorem monitoredItemDelete_eq (here : state.items address = some item)
    (removes : (if item.monitoredItemType = .eventNotify then
        state.removeMonitoredItemFromNode address item.monitoredNodeId
      else some state) = some removed) :
    state.monitoredItemDelete address
      = some { removed with released := (.delayedFree, address) :: removed.released } := by
  rw [monitoredItemDelete, here]
  by_cases event : item.monitoredItemType = .eventNotify
  · rw [if_pos event] at removes
    simp only [Option.bind_eq_bind, Option.bind_some, if_pos event, removes]
  · rw [if_neg event] at removes
    cases removes
    simp only [Option.bind_eq_bind, Option.bind_some, if_neg event]

theorem monitoredItemDelete_event (here : state.items address = some item)
    (event : item.monitoredItemType = .eventNotify) (monitored : item.monitoredNodeId = some id)
    (removes : state.removeMonitoredItemFromNode address (some id) = some removed) :
    state.monitoredItemDelete address
      = some { removed with released := (.delayedFree, address) :: removed.released } := by
  apply monitoredItemDelete_eq here
  rw [if_pos event, monitored]
  exact removes

end Removal

variable {id : Node}

theorem setQueue_object {other : Node} {head : Option Nat} {found : EventNode}
    (there : (state.setQueue id head).nodes other = some found) :
    found.isObject = true ∨ state.nodes other = some found := by
  have nodes : (state.setQueue id head).nodes other
      = if other = id then some ⟨true, head⟩ else state.nodes other :=
    Function.update_apply ..
  rw [nodes] at there
  by_cases same : other = id
  · rw [if_pos same] at there
    cases there
    exact .inl rfl
  · rw [if_neg same] at there
    exact .inr there

variable {item : RegisteredItem Node}

theorem Registered.rejected (registered : state.Registered)
    (removable : item.monitoredItemType = .eventNotify → ∀ id, item.monitoredNodeId = some id →
      ∀ node, state.nodes id = some node → node.isObject = true ∧ node.monitoredItemQueue ≠ none) :
    ∃ after, (state.allocate item).monitoredItemDelete state.unused = some after ∧
      after.Registered := by
  have recorded := registered.recorded
  have removes : (if item.monitoredItemType = .eventNotify then
      (state.allocate item).removeMonitoredItemFromNode state.unused item.monitoredNodeId
      else some (state.allocate item)) = some (state.allocate item) := by
    by_cases event : item.monitoredItemType = .eventNotify
    · rw [if_pos event]
      cases monitored : item.monitoredNodeId with
      | none => rfl
      | some id =>
        cases here : state.nodes id with
        | none => exact remove_unknown here
        | some node =>
          obtain ⟨isObject, entries⟩ := removable event id monitored node here
          obtain ⟨queue, chain, nodup, members⟩ := registered.queued id node here isObject
          have absent := unused_absent recorded members
          exact remove_missing here isObject entries (chain.update absent none) absent
            (Nat.le_succ_of_le (queue_short recorded nodup members))
    · rw [if_neg event]
  refine ⟨_, monitoredItemDelete_eq (Function.update_self ..) removes, ?_, recorded.rejected item⟩
  apply registered.queued.congr
  · rfl
  · exact allocate_next recorded item
  · intro address id _ _
    exact allocate_monitors recorded item address id

theorem Registered.pushed (registered : state.Registered)
    (kind : item.monitoredItemType = kindOf item.attributeId)
    (event : item.monitoredItemType = .eventNotify) (monitored : item.monitoredNodeId = some id)
    (object : ∀ node, state.nodes id = some node → node.isObject = true) (sub : Nat) :
    ∃ after, ((state.allocate item).addMonitoredItem sub state.unused).addMonitoredItemToNode
      state.unused (some id) = some after ∧ after.Registered := by
  have recorded := registered.recorded.added kind (fun _ => ⟨id, monitored, object⟩) sub
  have monitors := added_monitors registered.recorded item sub
  rw [addMonitoredItemToNode]
  cases here : ((state.allocate item).addMonitoredItem sub state.unused).nodes id with
  | none =>
    refine ⟨_, rfl, ?_, recorded⟩
    apply registered.queued.congr
    · rfl
    · exact allocate_next registered.recorded item
    · intro address other node there
      rw [monitors]
      apply or_iff_right
      rintro ⟨_, _, same⟩
      cases monitored.symm.trans same
      cases here.symm.trans there
  | some node =>
    have isObject := object node here
    obtain ⟨queue, chain, nodup, members⟩ := registered.queued id node here isObject
    have absent := unused_absent registered.recorded members
    simp only [isObject, Bool.not_true, Bool.false_eq_true, if_false]
    refine ⟨_, rfl, ?_, ?_⟩
    · refine registered.queued.update rfl ((chain.update absent none).push absent)
        (nodup_cons.mpr ⟨absent, nodup⟩) ?_ ?_ ?_
      · intro address
        rw [mem_cons, members]
        exact (or_congr_left (and_iff_left ⟨event, monitored⟩).symm).trans
          (monitors address id).symm
      · intro address live
        have apart := registered.recorded.apart live
        exact (Function.update_of_ne apart _ _).trans (Function.update_of_ne apart _ _)
      · intro address other different
        refine (monitors address other).trans (or_iff_right ?_)
        rintro ⟨_, _, same⟩
        cases monitored.symm.trans same
        exact different rfl
    · exact recorded.congr rfl rfl rfl rfl fun other found there => setQueue_object there

variable {request : EventItemRequest Node}

theorem Registered.create (registered : state.Registered) (keeps : state.Keeps (.create request)) :
    ∃ after, state.createMonitoredItem request = some after ∧ after.Registered := by
  rw [createMonitoredItem]
  cases admitted : request.admitted with
  | false => exact ⟨state, rfl, registered⟩
  | true =>
    by_cases rejected : (!request.nodeIdCopied || !request.indexRangeCopied ||
        !request.accepted) = true
    · rw [if_pos rejected]
      apply registered.rejected
      intro event id monitored node here
      cases accepted : request.accepted with
      | false =>
        rw [accepted] at event
        cases event
      | true =>
        cases copied : request.nodeIdCopied with
        | false =>
          rw [copied] at monitored
          cases monitored
        | true =>
          rw [copied] at monitored
          cases monitored
          rw [accepted] at event
          obtain ⟨isObject, range⟩ := keeps admitted accepted
            (kindOf_eventNotify.mp event) copied node here
          rw [copied, accepted] at rejected
          refine ⟨isObject, range.resolve_left fun copied => ?_⟩
          rw [copied] at rejected
          cases rejected
    · rw [if_neg rejected]
      simp only [Bool.or_eq_true, Bool.not_eq_true', not_or, Bool.not_eq_false] at rejected
      obtain ⟨⟨copied, _⟩, accepted⟩ := rejected
      simp only [copied, accepted, if_true]
      have numbered : { state with
          lastMonitoredItemId := Function.update state.lastMonitoredItemId request.sub
            (state.lastMonitoredItemId request.sub + 1) }.Registered :=
        ⟨registered.queued, registered.recorded.congr rfl rfl rfl rfl fun _ _ => .inr⟩
      by_cases event : kindOf request.attributeId = .eventNotify
      · rw [if_pos event]
        refine numbered.pushed rfl event rfl ?_ request.sub
        intro node here
        exact (keeps admitted accepted (kindOf_eventNotify.mp event) copied node here).1
      · rw [if_neg event]
        exact ⟨_, rfl, numbered.added rfl event request.sub⟩

theorem rejected_fails {node : EventNode} (event : item.monitoredItemType = .eventNotify)
    (monitored : item.monitoredNodeId = some id) (here : state.nodes id = some node)
    (broken : node.isObject = false ∨ node.monitoredItemQueue = none) :
    (state.allocate item).monitoredItemDelete state.unused = none := by
  have allocated : (state.allocate item).items state.unused = some item :=
    Function.update_self ..
  have found : (state.allocate item).nodes id = some node := here
  have removes : (state.allocate item).removeMonitoredItemFromNode state.unused (some id)
      = none := by
    rw [removeMonitoredItemFromNode, found]
    rcases broken with isObject | queue
    · simp only [isObject, Bool.not_false, if_true]
    · cases isObject : node.isObject with
      | false => simp only [isObject, Bool.not_false, if_true]
      | true => simp [isObject, queue]
  rw [monitoredItemDelete, allocated]
  simp only [Option.bind_eq_bind, Option.bind_some, if_pos event, monitored, removes,
    Option.bind_none]

theorem createMonitoredItem_fails (broken : ¬state.Keeps (.create request))
    : state.createMonitoredItem request = none := by
  simp only [Keeps, not_forall] at broken
  obtain ⟨admitted, accepted, event, copied, node, here, broken⟩ := broken
  have kind := kindOf_eventNotify.mpr event
  rw [not_and_or, not_or, not_not, Bool.not_eq_true, Bool.not_eq_true] at broken
  rw [createMonitoredItem]
  simp only [admitted, accepted, copied, Bool.not_true, Bool.false_eq_true, if_false, if_true,
    Bool.false_or, Bool.or_false, kind]
  cases range : request.indexRangeCopied with
  | false => exact rejected_fails rfl rfl here (broken.imp_right And.right)
  | true =>
    rw [range] at broken
    have isObject : node.isObject = false := broken.resolve_right fun copies => by cases copies.1
    have found : ∀ (item : RegisteredItem Node) (ids : Nat → BitVec 32),
        (({ state with lastMonitoredItemId := ids }.allocate item).addMonitoredItem request.sub
          state.unused).nodes request.nodeId = some node := fun _ _ => here
    simp only [Bool.not_true, Bool.false_eq_true, if_false, addMonitoredItemToNode, found,
      isObject, Bool.not_false, if_true]

section Deletion

variable {sub address : Nat} {node : EventNode}

section

variable (registered : state.Registered) (member : address ∈ state.monitoredItems sub)
include registered member

theorem Registered.delete_plain (here : state.items address = some item)
    (plain : item.monitoredItemType = .eventNotify → ∃ id, item.monitoredNodeId = some id ∧
      state.nodes id = none) :
    ∃ after, state.deleteFrom sub address = some after ∧ after.Registered := by
  have removes : (if item.monitoredItemType = .eventNotify then
      (state.unlist sub address).removeMonitoredItemFromNode address item.monitoredNodeId
      else some (state.unlist sub address)) = some (state.unlist sub address) := by
    by_cases event : item.monitoredItemType = .eventNotify
    · obtain ⟨id, monitored, unknown⟩ := plain event
      rw [if_pos event, monitored]
      exact remove_unknown unknown
    · exact if_neg event
  refine ⟨_, monitoredItemDelete_eq here removes, ?_, registered.recorded.unlisted member⟩
  apply registered.queued.congr
  · rfl
  · intro other _
    rfl
  · intro other id node there
    refine (unlist_monitors registered.recorded member other id).trans ?_
    apply and_iff_left_of_imp
    rintro ⟨_, entry, stored, event, same⟩ rfl
    cases here.symm.trans stored
    obtain ⟨place, monitored, unknown⟩ := plain event
    cases monitored.symm.trans same
    cases unknown.symm.trans there

theorem Registered.delete_first (monitors : state.Monitors address id)
    (found : state.nodes id = some node) (isObject : node.isObject = true)
    (first : node.monitoredItemQueue = some address) :
    ∃ after, state.deleteFrom sub address = some after ∧ after.Registered := by
  have recorded := registered.recorded
  obtain ⟨live, item, here, event, monitored⟩ := monitors
  obtain ⟨entries, chain, nodup, members⟩ := registered.queued id node found isObject
  have removes : (state.unlist sub address).removeMonitoredItemFromNode address (some id)
      = some ((state.unlist sub address).setQueue id (state.next address)) :=
    remove_first found isObject first
  rw [first] at chain
  cases chain with
  | @cons _ rest linked =>
    obtain ⟨absent, distinct⟩ := nodup_cons.mp nodup
    refine ⟨_, monitoredItemDelete_event here event monitored removes, ?_, ?_⟩
    · refine registered.queued.update rfl linked distinct ?_ (fun _ _ => rfl) ?_
      · intro other
        refine Iff.trans ?_ (unlist_monitors recorded member other id).symm
        rw [← members, mem_cons]
        constructor
        · intro inside
          exact ⟨.inr inside, fun same => absent (same ▸ inside)⟩
        · rintro ⟨inside, apart⟩
          exact inside.resolve_left apart
      · intro other place different
        refine (unlist_monitors recorded member other place).trans ?_
        apply and_iff_left_of_imp
        rintro ⟨_, entry, stored, _, same⟩ rfl
        cases here.symm.trans stored
        cases monitored.symm.trans same
        exact different rfl
    · exact (recorded.unlisted member).congr rfl rfl rfl rfl fun other _ there =>
        setQueue_object there

theorem Registered.delete (first : state.Removable (some (sub, address))) :
    ∃ after, state.deleteFrom sub address = some after ∧ after.Registered := by
  have recorded := registered.recorded
  have live : state.Live address := ⟨sub, member⟩
  obtain ⟨item, here⟩ :=
    Option.isSome_iff_exists.mp ((recorded.used address).mpr (recorded.known address live))
  by_cases event : item.monitoredItemType = .eventNotify
  · obtain ⟨id, monitored, object⟩ := recorded.monitored address item live here event
    have monitors : state.Monitors address id := ⟨live, item, here, event, monitored⟩
    cases found : state.nodes id with
    | none => exact registered.delete_plain member here fun _ => ⟨id, monitored, found⟩
    | some node =>
      exact registered.delete_first member monitors found (object node found)
        (first sub address rfl id monitors node found)
  · exact registered.delete_plain member here fun kind => absurd kind event

theorem deleteFrom_inner (monitors : state.Monitors address id) (found : state.nodes id = some node)
    (later : node.monitoredItemQueue ≠ some address) :
    ∃ after, state.deleteFrom sub address = some after ∧ after.releases address = 2 ∧
      ¬after.Consistent := by
  have recorded := registered.recorded
  obtain ⟨live, item, here, event, monitored⟩ := monitors
  obtain ⟨owner, same, object⟩ := recorded.monitored address item live here event
  cases monitored.symm.trans same
  have isObject := object node found
  obtain ⟨queue, chain, nodup, members⟩ := registered.queued id node found isObject
  have inside : address ∈ queue := (members address).mpr ⟨live, item, here, event, monitored⟩
  have short := queue_short recorded nodup members
  have kept : (state.unlist sub address).nodes id = some node := found
  obtain ⟨next, removes⟩ := remove_inner kept isObject later chain nodup inside short
  have freed := recorded.live address live
  refine ⟨_, monitoredItemDelete_event here event monitored removes, ?_, ?_⟩
  · rw [releases, map_cons, map_cons, count_cons_self, count_cons_self]
    exact congrArg (fun count => count + 1 + 1) freed
  · intro consistent
    have gone : ¬(state.unlist sub address).Live address :=
      fun alive => ((unlist_live recorded member address).mp alive).2 rfl
    have dead := consistent.deleted address (recorded.known address live) gone
    rw [releases, map_cons, map_cons, count_cons_self, count_cons_self] at dead
    omega

end

end Deletion

section Targets

variable {target : Option (Nat × Nat)}

section

variable (registered : state.Registered)
  (member : ∀ sub address, target = some (sub, address) → address ∈ state.monitoredItems sub)
include registered member

theorem Registered.deleteTarget (removable : state.Removable target) :
    ∃ after, state.deleteTarget target = some after ∧ after.Registered := by
  cases target with
  | none => exact ⟨state, rfl, registered⟩
  | some place =>
    obtain ⟨sub, address⟩ := place
    exact registered.delete (member sub address rfl) removable

theorem Registered.removable {after : EventItems Node}
    (deletes : state.deleteTarget target = some after) (consistent : after.Consistent) :
    state.Removable target := by
  rintro sub address rfl id monitors node here
  by_contra later
  obtain ⟨other, deleted, _, broken⟩ :=
    deleteFrom_inner registered (member sub address rfl) monitors here later
  cases deleted.symm.trans deletes
  exact broken consistent

end

end Targets

variable {action : EventItemAction Node}

theorem Registered.perform (registered : state.Registered) (keeps : state.Keeps action) :
    ∃ after, state.perform action = some after ∧ after.Registered := by
  cases action with
  | create request => exact registered.create keeps
  | modify sub monitoredItemId accepted =>
    refine ⟨state, congrArg some ?_, registered⟩
    exact modifyMonitoredItem_eq registered.recorded sub monitoredItemId accepted
  | delete sub monitoredItemId =>
    exact registered.deleteTarget (fun _ _ => deleted_mem) keeps
  | deleteFirst sub => exact registered.deleteTarget (fun _ _ => deleted_mem) keeps

theorem Registered.keeps (registered : state.Registered) {after : EventItems Node}
    (performs : state.perform action = some after) (consistent : after.Consistent)
    : state.Keeps action := by
  cases action with
  | create request =>
    by_contra broken
    cases (createMonitoredItem_fails broken).symm.trans performs
  | modify sub monitoredItemId accepted =>
    intro owner address impossible
    cases impossible
  | delete sub monitoredItemId =>
    exact registered.removable (fun _ _ => deleted_mem) performs consistent
  | deleteFirst sub => exact registered.removable (fun _ _ => deleted_mem) performs consistent

variable {nodes : Node → Option EventNode}

theorem Reached.mono {Allowed Other : EventItems Node → EventItemAction Node → Prop}
    (reached : Reached Allowed nodes state)
    (weaker : ∀ state action, Allowed state action → Other state action) :
    Reached Other nodes state := by
  induction reached with
  | empty => exact .empty
  | step _ allowed performs ih => exact .step ih (weaker _ _ allowed) performs

theorem Reached.registered
    (queues : ∀ id node, nodes id = some node → node.monitoredItemQueue = none)
    (reached : Reached Keeps nodes state) : state.Registered := by
  induction reached with
  | empty => exact .empty nodes queues
  | step _ allowed performs ih =>
    obtain ⟨after, performed, registered⟩ := ih.perform allowed
    cases performed.symm.trans performs
    exact registered

def oneObject : Nat → Option EventNode :=
  Function.update (fun _ => none) 85 (some ⟨true, none⟩)

theorem oneObject_queues (id : Nat) (node : EventNode) (here : oneObject id = some node) :
    node.monitoredItemQueue = none := by
  have object : oneObject id = if id = 85 then some ⟨true, none⟩ else none :=
    Function.update_apply ..
  rw [object] at here
  by_cases same : id = 85
  · rw [if_pos same] at here
    cases here
    rfl
  · rw [if_neg same] at here
    cases here

def eventItem : EventItemRequest Nat where
  sub := 0
  nodeId := 85
  attributeId := attributeIdEventNotifier
  admitted := true
  nodeIdCopied := true
  indexRangeCopied := true
  accepted := true

theorem eventItem_keeps (state : EventItems Nat)
    (object : ∀ node, state.nodes 85 = some node → node.isObject = true) :
    state.Keeps (.create eventItem) := by
  intro _ _ _ _ node here
  exact ⟨object node here, .inl rfl⟩

end EventItems

end OpcUa
