import OpcUa.MonitoringFilters
import OpcUa.SessionSteps

/-!
What is left of a queue that was longer than its maximum, and which notification then carries the
overflow bits. The rounds of the loop each take one notification, and the others keep their order
in the queue of the item and in the queue of the subscription.
-/

namespace OpcUa

open OwnedQueue List

variable {Content : Type} {room : Nat} {config : SubscriptionConfig}

namespace Subscription

def survivors (discardOldest : Bool) (size : Nat) (queue : List Nat) : List Nat :=
  if discardOldest then queue.drop (queue.length - size)
  else queue.take (size - 1) ++ queue.getLast?.toList

theorem survivors_full (discardOldest : Bool) {size : Nat} {queue : List Nat}
    (full : queue.length = size) : survivors discardOldest size queue = queue := by
  subst full
  cases discardOldest with
  | true => simp [survivors]
  | false =>
    rw [survivors, if_neg Bool.false_ne_true, ← dropLast_eq_take]
    cases last : queue.getLast? with
    | none => rw [getLast?_eq_none_iff.mp last]; rfl
    | some n => exact dropLast_append_getLast? n last

theorem survivors_round {discardOldest : Bool} {size del afterDel : Nat} {front back : List Nat}
    (policy : if discardOldest then front = [] else back = [])
    (larger : size < (front ++ del :: afterDel :: back).length) :
    survivors discardOldest size (front ++ afterDel :: back) =
      survivors discardOldest size (front ++ del :: afterDel :: back) := by
  rw [length_append, length_cons, length_cons] at larger
  cases discardOldest with
  | true =>
    subst policy
    rw [length_nil] at larger
    have step : back.length + 1 + 1 - size = back.length + 1 - size + 1 := by omega
    simp only [survivors, if_true, nil_append, length_cons, step, drop_succ_cons]
  | false =>
    subst policy
    rw [length_nil] at larger
    have short : size - 1 ≤ front.length := by omega
    simp [survivors, take_append_of_le_length short]

def shortened (item : MonitoredItem) : MonitoredItem :=
  { item with
    queue := survivors item.discardOldest item.maxQueueSize item.queue
    queueSize := item.maxQueueSize }

structure Survives (room : Nat) (sub : Subscription Content) (item : MonitoredItem)
    (after : Subscription Content) (changed : MonitoredItem) : Prop where
  consistent : Consistent room after
  items : after.monitoredItems = (sub.setItem changed).monitoredItems
  form : changed = { item with queue := changed.queue, queueSize := changed.queueSize }
  subset : changed.queue ⊆ item.queue
  others : after.notificationQueue.filter (· ∉ item.queue) =
    sub.notificationQueue.filter (· ∉ item.queue)
  memory : ∀ n, after.memory n =
    if n ∈ item.queue ∧ n ∉ changed.queue then none else sub.memory n

namespace Survives

variable {sub middle after : Subscription Content} {item between changed : MonitoredItem}

theorem address (survives : Survives room sub item after changed) :
    changed.address = item.address := by
  have same := congrArg MonitoredItem.address survives.form
  exact same

theorem member (survives : Survives room sub item after changed)
    (member : item ∈ sub.monitoredItems) : changed ∈ after.monitoredItems := by
  rw [survives.items]
  exact mem_setItem_self member survives.address

theorem refl (consistent : Consistent room sub) (member : item ∈ sub.monitoredItems) :
    Survives room sub item sub item where
  consistent := consistent
  items := (setItem_self consistent member).symm
  form := rfl
  subset := fun _ queued => queued
  others := rfl
  memory := fun _ => (if_neg fun gone => gone.2 gone.1).symm

theorem trans (first : Survives room sub item middle between)
    (second : Survives room middle between after changed) :
    Survives room sub item after changed where
  consistent := second.consistent
  items := by
    rw [second.items]
    exact setItem_setItem first.items second.address
  form := by
    rw [second.form, first.form]
  subset := fun _ queued => first.subset (second.subset queued)
  others := by
    have fewer : ∀ queue : List Nat, queue.filter (· ∉ item.queue) =
        (queue.filter (· ∉ between.queue)).filter (· ∉ item.queue) := by
      intro queue
      rw [filter_filter]
      apply filter_congr
      intro n _
      by_cases queued : n ∈ between.queue
      · simp [queued, first.subset queued]
      · simp [queued]
    rw [fewer, second.others, ← fewer, first.others]
  memory := by
    intro n
    rw [second.memory, first.memory]
    by_cases kept : n ∈ changed.queue
    · simp [kept, second.subset kept]
    · by_cases left : n ∈ between.queue
      · simp [kept, left, first.subset left]
      · simp [kept, left]

end Survives

section Shrinking

variable {sub : Subscription Content} {item : MonitoredItem}

theorem dropSurplus_survives (consistent : Consistent room sub)
    (member : item ∈ sub.monitoredItems) (two : 2 ≤ item.queueSize)
    (larger : item.maxQueueSize < item.queueSize) :
    ∃ after changed, sub.dropSurplus item = some after ∧ Survives room sub item after changed ∧
      changed.queueSize = item.queueSize - 1 ∧
      survivors item.discardOldest item.maxQueueSize changed.queue =
        survivors item.discardOldest item.maxQueueSize item.queue := by
  obtain ⟨del, afterDel, front, back, queue, policy, perm, drops⟩ :=
    dropSurplus_eq consistent member two
  have del_queued : del ∈ item.queue := by
    rw [queue]
    simp
  have after_queued : afterDel ∈ item.queue := by
    rw [queue]
    simp
  have nodup : item.queue.Nodup := by
    rw [consistent.parts item member]
    exact consistent.queue_nodup.filter _
  have moved := consistent.reorder perm (moveBehind_parts consistent member queue)
  have absent : del ∉ front := by
    intro present
    rw [queue] at nodup
    exact (nodup_append.mp nodup).2.2 del present del (mem_cons_self ..) rfl
  have left : item.queue.erase del = front ++ afterDel :: back := by
    rw [queue, erase_append_right _ absent, erase_cons_head]
  refine ⟨_, { item with queue := item.queue.erase del, queueSize := item.queueSize - 1 }, drops,
    ?_, rfl, ?_⟩
  · exact {
      consistent := moved.discard .overflow member del_queued
      items := rfl
      form := rfl
      subset := fun _ queued => mem_of_mem_erase queued
      others := by
        have stays : (moveBehind del afterDel sub.notificationQueue).filter (· ∉ item.queue) =
            sub.notificationQueue.filter (· ∉ item.queue) :=
          moveBehind_filter_of_not del (by simp [after_queued]) _
        have gone : del ∉ sub.notificationQueue.filter (· ∉ item.queue) := by
          simp [del_queued]
        rw [← stays] at gone ⊢
        exact erase_filter.symm.trans (erase_of_not_mem gone)
      memory := by
        intro n
        have removed : n ∈ item.queue ∧ n ∉ item.queue.erase del ↔ n = del := by
          rw [nodup.mem_erase_iff]
          constructor
          · rintro ⟨queued, lost⟩
            by_contra different
            exact lost ⟨different, queued⟩
          · rintro rfl
            exact ⟨del_queued, fun lost => lost.1 rfl⟩
        simp only [removed]
        rfl }
  · dsimp only
    rw [left]
    have length := consistent.sizes item member
    rw [queue] at length ⊢
    exact survivors_round policy (by omega)

theorem shrinkQueue_survives : ∀ {rounds : Nat} {sub : Subscription Content}
    {item : MonitoredItem}, Consistent room sub → item ∈ sub.monitoredItems →
      1 ≤ item.maxQueueSize → item.maxQueueSize ≤ item.queueSize →
      item.queueSize ≤ item.maxQueueSize + rounds →
      ∃ after, shrinkQueue rounds sub item.address = some after ∧
        Survives room sub item after (shortened item) := by
  intro rounds
  -- The queue that is left has the same survivors until it is itself what is left.
  have finish : ∀ {sub : Subscription Content} {item : MonitoredItem}, Consistent room sub →
      item ∈ sub.monitoredItems → item.queueSize = item.maxQueueSize →
      Survives room sub item sub (shortened item) := by
    intro sub item consistent member full
    have length := consistent.sizes item member
    have same : shortened item = item := by
      rw [shortened, survivors_full _ (length.symm.trans full)]
      exact congrArg (fun size => { item with queueSize := size }) full.symm
    rw [same]
    exact .refl consistent member
  induction rounds with
  | zero =>
    intro sub item consistent member positive least enough
    refine ⟨sub, ?_, finish consistent member (by omega)⟩
    have space : item.queueSize ≤ item.maxQueueSize := enough
    simp [shrinkQueue, consistent.item_eq member, space]
  | succ rounds ih =>
    intro sub item consistent member positive least enough
    by_cases larger : item.maxQueueSize < item.queueSize
    · obtain ⟨middle, between, drops, first, size, same⟩ :=
        dropSurplus_survives consistent member (by omega) larger
      have limit : between.maxQueueSize = item.maxQueueSize := by
        rw [first.form]
      have policy : between.discardOldest = item.discardOldest := by
        rw [first.form]
      obtain ⟨after, shrinks, second⟩ := ih first.consistent (first.member member)
        (by omega) (by omega) (by omega)
      have last : shortened between = shortened item := by
        rw [shortened, shortened, limit, policy, same, first.form]
      rw [first.address] at shrinks
      rw [last] at second
      refine ⟨after, ?_, first.trans second⟩
      simp [shrinkQueue, consistent.item_eq member, larger, drops, shrinks]
    · refine ⟨sub, ?_, finish consistent member (by omega)⟩
      simp [shrinkQueue, consistent.item_eq member, larger]

end Shrinking

/-- What the value of a notification becomes when it carries the info bits: they are set, or cleared
if the queue has room for one notification only. -/
structure InfoBits (maxQueueSize : Nat) (value marked : SampledValue Content) : Prop where
  content : marked.content = value.content
  numeric : marked.numeric = value.numeric
  rest : marked.status &&& ~~~ overflowInfoBits = value.status &&& ~~~ overflowInfoBits
  set : 1 < maxQueueSize → marked.hasStatus ∧ marked.status &&& overflowInfoBits = overflowInfoBits
  cleared : maxQueueSize = 1 →
    marked.hasStatus = value.hasStatus ∧ marked.status &&& overflowInfoBits = 0

theorem or_and_self (status bits : StatusCode) : (status ||| bits) &&& bits = bits := by
  ext i
  simp only [BitVec.getElem_and, BitVec.getElem_or]
  cases status[i] <;> cases bits[i] <;> rfl

theorem and_not_and_self (status bits : StatusCode) : (status &&& ~~~ bits) &&& bits = 0 := by
  ext i
  cases status[i] <;> cases bits[i] <;> simp

theorem setInfoBits_infoBits (maxQueueSize : Nat) (value : SampledValue Content) :
    InfoBits maxQueueSize value (setInfoBits maxQueueSize value) := by
  by_cases several : maxQueueSize > 1
  · have form : setInfoBits maxQueueSize value =
        { value with hasStatus := true, status := value.status ||| overflowInfoBits } :=
      if_pos several
    rw [form]
    refine ⟨rfl, rfl, ?_, fun _ => ⟨rfl, or_and_self _ _⟩, by omega⟩
    ext i
    simp only [BitVec.getElem_and, BitVec.getElem_or, BitVec.getElem_not]
    cases value.status[i] <;> cases overflowInfoBits[i] <;> rfl
  · have form : setInfoBits maxQueueSize value =
        { value with status := value.status &&& ~~~ overflowInfoBits } := if_neg several
    rw [form]
    refine ⟨rfl, rfl, ?_, fun less => absurd less several, fun _ => ⟨rfl, and_not_and_self _ _⟩⟩
    rw [BitVec.and_assoc, BitVec.and_self]

def overflowCarrier (item : MonitoredItem) : Option Nat :=
  if item.monitoredItemType = .changeNotify then infoBitsCarrier (shortened item) else none

structure SpaceMade (sub : Subscription Content) (item : MonitoredItem)
    (after : Subscription Content) : Prop where
  found : after.item item.address = some (shortened item)
  elsewhere : ∀ mon, mon ≠ item.address → after.item mon = sub.item mon
  length : (shortened item).queue.length = item.maxQueueSize
  own : after.notificationQueue.filter (· ∈ item.queue) = (shortened item).queue
  others : after.notificationQueue.filter (· ∉ item.queue) =
    sub.notificationQueue.filter (· ∉ item.queue)
  removed : ∀ n ∈ item.queue, n ∉ (shortened item).queue → after.memory n = none
  carrier : ∀ n, overflowCarrier item = some n → ∃ value marked,
    sub.memory n = some ⟨item.address, .value value⟩ ∧
    after.memory n = some ⟨item.address, .value marked⟩ ∧ InfoBits item.maxQueueSize value marked
  kept : ∀ n, (n ∈ item.queue → n ∈ (shortened item).queue) → overflowCarrier item ≠ some n →
    after.memory n = sub.memory n

section Space

variable {sub after : Subscription Content} {item : MonitoredItem}
variable {mon : Nat} {changed : MonitoredItem}

theorem survivors_length {discardOldest : Bool} {size : Nat} {queue : List Nat} (positive : 1 ≤ size)
    (larger : size ≤ queue.length) : (survivors discardOldest size queue).length = size := by
  cases discardOldest with
  | true =>
    simp only [survivors, if_true, length_drop]
    omega
  | false =>
    have nonempty : queue ≠ [] := by
      rintro rfl
      rw [length_nil] at larger
      omega
    simp only [survivors, Bool.false_eq_true, if_false, length_append, length_take,
      getLast?_eq_some_getLast nonempty, Option.toList_some, length_singleton]
    omega

theorem setItem_item_ne (sub : Subscription Content) (changed : MonitoredItem)
    (different : changed.address ≠ mon) : (sub.setItem changed).item mon = sub.item mon := by
  rw [Subscription.item, Subscription.item, setItem]
  induction sub.monitoredItems with
  | nil => rfl
  | cons first rest ih =>
    rw [map_cons, find?_cons, find?_cons, ih]
    by_cases same : first.address = changed.address
    · have other : first.address ≠ mon := by rwa [same]
      simp [same, different]
    · simp [same]

theorem setItem_item_self (found : sub.item mon = some item)
    (same : changed.address = item.address) : (sub.setItem changed).item mon = some changed := by
  have reads : (fun other : MonitoredItem => decide (other.address = mon)) ∘
      (fun other => if other.address = changed.address then changed else other) =
        fun other => decide (other.address = mon) := by
    funext other
    by_cases here : other.address = changed.address <;> simp [here]
  rw [Subscription.item] at found ⊢
  rw [setItem, find?_map, reads, found, Option.map_some, if_pos same.symm]

section

variable (survives : Survives room sub item after changed)
include survives

theorem Survives.own (member : item ∈ sub.monitoredItems) :
    after.notificationQueue.filter (· ∈ item.queue) = changed.queue := by
  have present := survives.member member
  rw [survives.consistent.parts changed present, part]
  apply filter_congr
  intro n queued
  rw [decide_eq_decide]
  constructor
  · intro before
    obtain ⟨holder, -, data, stored, -⟩ := survives.consistent.held n queued
    have left : n ∈ changed.queue := by
      by_contra gone
      rw [survives.memory, if_pos ⟨before, gone⟩] at stored
      cases stored
    rw [survives.consistent.parts changed present] at left
    exact of_decide_eq_true (mem_filter.mp left).2
  · intro belongs
    apply survives.subset
    rw [survives.consistent.parts changed present]
    exact mem_filter.mpr ⟨queued, decide_eq_true belongs⟩

theorem Survives.item_ne (different : mon ≠ item.address) : after.item mon = sub.item mon := by
  have same : after.item mon = (sub.setItem changed).item mon := by
    rw [Subscription.item, Subscription.item, survives.items]
  rw [same]
  apply setItem_item_ne
  rw [survives.address]
  exact different.symm

theorem Survives.memory_kept {n : Nat} (kept : n ∈ item.queue → n ∈ changed.queue) :
    after.memory n = sub.memory n := by
  rw [survives.memory, if_neg]
  rintro ⟨queued, gone⟩
  exact gone (kept queued)

end

theorem Survives.spaceMade (survives : Survives room sub item after (shortened item))
    (consistent : Consistent room sub) (member : item ∈ sub.monitoredItems)
    (positive : 1 ≤ item.maxQueueSize) (larger : item.maxQueueSize < item.queueSize) :
    ∃ final, after.markOverflow (shortened item) = some final ∧ SpaceMade sub item final ∧
      Consistent room final := by
  have present := survives.member member
  have length : (shortened item).queue.length = item.maxQueueSize := by
    rw [consistent.sizes item member] at larger
    exact survivors_length positive (Nat.le_of_lt larger)
  have nonempty : (shortened item).queue ≠ [] := by
    intro empty
    rw [empty, length_nil] at length
    omega
  by_cases change : item.monitoredItemType = .changeNotify
  · obtain ⟨n, value, carrier, queued, stored, marks⟩ :=
      markOverflow_eq survives.consistent present nonempty change
    have carries : overflowCarrier item = some n := (if_pos change).trans carrier
    refine ⟨_, marks, ?_, survives.consistent.store stored (setInfoBits_fits _ value)⟩
    exact {
      found := survives.consistent.item_eq present
      elsewhere := fun mon different => survives.item_ne different
      length := length
      own := survives.own member
      others := survives.others
      removed := by
        intro m before gone
        have different : m ≠ n := by
          rintro rfl
          exact gone queued
        refine (if_neg different).trans ?_
        rw [survives.memory, if_pos ⟨before, gone⟩]
      carrier := by
        intro m same
        rw [carries] at same
        cases same
        rw [survives.memory_kept fun _ => queued] at stored
        exact ⟨value, _, stored, if_pos rfl, setInfoBits_infoBits _ value⟩
      kept := by
        intro m kept unmarked
        have different : m ≠ n := by
          rintro rfl
          exact unmarked carries
        exact (if_neg different).trans (survives.memory_kept kept) }
  · have carries : overflowCarrier item = none := if_neg change
    refine ⟨after, if_neg change, ?_, survives.consistent⟩
    exact {
      found := survives.consistent.item_eq present
      elsewhere := fun mon different => survives.item_ne different
      length := length
      own := survives.own member
      others := survives.others
      removed := fun m before gone => by rw [survives.memory, if_pos ⟨before, gone⟩]
      carrier := by
        intro m same
        rw [carries] at same
        cases same
      kept := fun m kept _ => survives.memory_kept kept }

theorem ensureQueueSpace_spaceMade (consistent : Consistent room sub)
    (member : item ∈ sub.monitoredItems) (positive : 1 ≤ item.maxQueueSize)
    (larger : item.maxQueueSize < item.queueSize) :
    ∃ after, sub.ensureQueueSpace item.address = some after ∧ SpaceMade sub item after ∧
      Consistent room after := by
  obtain ⟨middle, shrinks, survives⟩ := shrinkQueue_survives consistent member positive
    (Nat.le_of_lt larger) (Nat.le_add_left item.queueSize item.maxQueueSize)
  obtain ⟨after, marks, made, kept⟩ := survives.spaceMade consistent member positive larger
  have found := survives.consistent.item_eq (survives.member member)
  rw [survives.address] at found
  refine ⟨after, ?_, made, kept⟩
  simp [ensureQueueSpace, consistent.item_eq member, larger, shrinks, found, marks]

end Space

end Subscription

end OpcUa
