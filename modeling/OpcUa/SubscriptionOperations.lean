import OpcUa.NotificationQueues

/-!
What the operations on the items of a subscription do to its queues. Each keeps the queues
consistent, the record balanced and every item within its limit, and each leaves what is not about
the queues as it was. None of them fails if the limits leave room for a notification.
-/

namespace OpcUa

open OwnedQueue List

variable {Content : Type} {room : Nat}

def Yields {Value : Type} (room : Nat) (outcome : Option Value) (holds : Value → Prop) : Prop :=
  (∃ value, outcome = some value ∧ holds value) ∨ room = 0 ∧ outcome = none

namespace Yields

variable {Value Result : Type} {outcome : Option Value} {holds kept : Value → Prop}

theorem some {value : Value} (known : holds value) : Yields room (some value) holds :=
  .inl ⟨value, rfl, known⟩

section

variable (yields : Yields room outcome holds)
include yields

theorem imp (implies : ∀ value, holds value → kept value) : Yields room outcome kept := by
  rcases yields with ⟨value, same, known⟩ | failed
  · exact .inl ⟨value, same, implies value known⟩
  · exact .inr failed

theorem bind {next : Value → Option Result} {ends : Result → Prop}
    (continues : ∀ value, holds value → Yields room (next value) ends) :
    Yields room (outcome.bind next) ends := by
  rcases yields with ⟨value, rfl, known⟩ | ⟨empty, rfl⟩
  · exact continues value known
  · exact .inr ⟨empty, rfl⟩

theorem map {change : Value → Result} {ends : Result → Prop}
    (changes : ∀ value, holds value → ends (change value)) :
    Yields room (outcome.map change) ends := by
  rw [Option.map_eq_bind]
  exact yields.bind fun value known => .some (changes value known)

theorem value (positive : 1 ≤ room) : ∃ value, outcome = .some value ∧ holds value := by
  rcases yields with found | ⟨empty, -⟩
  · exact found
  · omega

end

theorem weaken {larger : Nat} (yields : Yields larger outcome holds) (least : room ≤ larger) :
    Yields room outcome holds := by
  rcases yields with found | ⟨empty, failed⟩
  · exact .inl found
  · exact .inr ⟨by omega, failed⟩

theorem of_some {value : Value} (yields : Yields room (.some value) holds) : holds value := by
  rcases yields with ⟨other, same, known⟩ | ⟨-, failed⟩
  · injection same with same
    exact same ▸ known
  · cases failed

theorem of_eq {value : Value} (yields : Yields room outcome holds) (same : outcome = .some value) :
    holds value := by
  rw [same] at yields
  exact yields.of_some

end Yields

namespace Subscription

variable {sub : Subscription Content} {item : MonitoredItem}

def withQueues (sub other : Subscription Content) : Subscription Content :=
  { sub with
    lastMonitoredItemId := other.lastMonitoredItemId
    monitoredItems := other.monitoredItems
    monitoredItemsSize := other.monitoredItemsSize
    notificationQueue := other.notificationQueue
    notificationQueueSize := other.notificationQueueSize
    dataChangeNotifications := other.dataChangeNotifications
    eventNotifications := other.eventNotifications
    statusChangeNotifications := other.statusChangeNotifications
    memory := other.memory
    unused := other.unused
    unusedItem := other.unusedItem
    created := other.created
    dropped := other.dropped }

def QueuesOnly (sub after : Subscription Content) : Prop := after = sub.withQueues after

namespace QueuesOnly

variable {middle after : Subscription Content}

theorem trans (first : QueuesOnly sub middle) (second : QueuesOnly middle after) :
    QueuesOnly sub after := by
  calc after = middle.withQueues after := second
    _ = (sub.withQueues middle).withQueues after := by rw [← first]
    _ = sub.withQueues after := rfl

theorem address (only : QueuesOnly sub after) : after.address = sub.address := by
  have same := congrArg Subscription.address only
  exact same

theorem sent (only : QueuesOnly sub after) : after.sent = sub.sent := by
  have same := congrArg Subscription.sent only
  exact same

end QueuesOnly

def Bounded (sub : Subscription Content) : Prop :=
  ∀ item ∈ sub.monitoredItems, item.queueSize ≤ item.maxQueueSize

structure Sound (room : Nat) (sub : Subscription Content) : Prop where
  consistent : Consistent room sub
  recorded : Recorded sub fun _ => []
  bounded : Bounded sub

structure Kept (room : Nat) (sub after : Subscription Content) : Prop where
  sound : Sound room after
  only : QueuesOnly sub after

theorem Kept.refl (sound : Sound room sub) : Kept room sub sub :=
  ⟨sound, rfl⟩

theorem setItem_setItem {after : Subscription Content} {other : MonitoredItem}
    (items : after.monitoredItems = (sub.setItem item).monitoredItems)
    (same : other.address = item.address) :
    (after.setItem other).monitoredItems = (sub.setItem other).monitoredItems := by
  rw [setItem, items, setItem, map_map]
  apply map_congr_left
  intro old _
  by_cases address : old.address = item.address
  · simp [address, same]
  · simp [address, same]

theorem Bounded.setItem {after : Subscription Content} (bounded : Bounded sub)
    (items : after.monitoredItems = (sub.setItem item).monitoredItems)
    (bound : item.queueSize ≤ item.maxQueueSize) : Bounded after := by
  intro other member
  rw [items] at member
  rcases mem_setItem member with rfl | ⟨present, -⟩
  · exact bound
  · exact bounded other present

theorem mem_setItem_self {changed : MonitoredItem} (member : item ∈ sub.monitoredItems)
    (same : changed.address = item.address) : changed ∈ (sub.setItem changed).monitoredItems := by
  have place := setItem_mem changed member
  rw [if_pos same.symm] at place
  exact place

/-! Deleting the queue of an item -/

structure Reworked (room : Nat) (sub : Subscription Content) (item : MonitoredItem) (moving : Nat → List Nat)
    (after : Subscription Content) (changed : MonitoredItem) : Prop where
  consistent : Consistent room after
  recorded : Recorded after moving
  only : QueuesOnly sub after
  created : after.created = sub.created
  items : after.monitoredItems = (sub.setItem changed).monitoredItems
  form : changed = { item with queue := changed.queue, queueSize := changed.queueSize }

namespace Reworked

variable {middle after : Subscription Content} {between changed : MonitoredItem}
  {moving : Nat → List Nat}

section

variable (reworked : Reworked room sub item moving after changed)
include reworked

theorem address : changed.address = item.address := by
  have same := congrArg MonitoredItem.address reworked.form
  exact same

theorem maxQueueSize : changed.maxQueueSize = item.maxQueueSize := by
  have same := congrArg MonitoredItem.maxQueueSize reworked.form
  exact same

theorem member (member : item ∈ sub.monitoredItems) : changed ∈ after.monitoredItems := by
  rw [reworked.items]
  exact mem_setItem_self member reworked.address

end

theorem trans (first : Reworked room sub item moving middle between)
    (second : Reworked room middle between moving after changed) :
    Reworked room sub item moving after changed where
  consistent := second.consistent
  recorded := second.recorded
  only := first.only.trans second.only
  created := second.created.trans first.created
  items := by
    rw [second.items]
    exact setItem_setItem first.items second.address
  form := by
    rw [second.form, first.form]

end Reworked

theorem setItem_self (consistent : Consistent room sub) (member : item ∈ sub.monitoredItems) :
    (sub.setItem item).monitoredItems = sub.monitoredItems := by
  have kept : ∀ other ∈ sub.monitoredItems,
      (if other.address = item.address then item else other) = id other := by
    intro other present
    by_cases same : other.address = item.address
    · rw [if_pos same, consistent.address_unique member present same]
      rfl
    · rw [if_neg same]
      rfl
  exact (map_congr_left kept).trans (map_id _)

theorem Reworked.refl {moving : Nat → List Nat} (consistent : Consistent room sub)
    (recorded : Recorded sub moving) (member : item ∈ sub.monitoredItems) :
    Reworked room sub item moving sub item where
  consistent := consistent
  recorded := recorded
  only := rfl
  created := rfl
  items := (setItem_self consistent member).symm
  form := rfl

section Dropping

variable {moving : Nat → List Nat}

theorem discard_reworked (cause : DropCause) (consistent : Consistent room sub)
    (recorded : Recorded sub moving) (member : item ∈ sub.monitoredItems) {n : Nat}
    (queued : n ∈ item.queue) :
    Reworked room sub item moving (sub.discard cause item n)
      { item with queue := item.queue.erase n, queueSize := item.queueSize - 1 } where
  consistent := consistent.discard cause member queued
  recorded := recorded.discard cause consistent member queued
  only := rfl
  created := rfl
  items := rfl
  form := rfl

theorem dropAll_reworked (cause : DropCause) : ∀ {queue : List Nat} {sub : Subscription Content}
    {item : MonitoredItem}, Consistent room sub → Recorded sub moving → item ∈ sub.monitoredItems →
      item.queue = queue → ∃ after, dropAll cause item.address queue sub = some after ∧
        Reworked room sub item moving after { item with queue := [], queueSize := 0 } := by
  intro queue
  induction queue with
  | nil =>
    intro sub item consistent recorded member empty
    refine ⟨sub, rfl, ?_⟩
    have size : item.queueSize = 0 := by
      rw [consistent.sizes item member, empty]
      rfl
    have same : { item with queue := [], queueSize := 0 } = item := by
      rw [← empty, ← size]
    rw [same]
    exact .refl consistent recorded member
  | cons n rest ih =>
    intro sub item consistent recorded member queue
    have queued : n ∈ item.queue := by
      rw [queue]
      exact mem_cons_self ..
    have first := discard_reworked cause consistent recorded member queued
    have left : item.queue.erase n = rest := by
      rw [queue, erase_cons_head]
    obtain ⟨after, drops, second⟩ := ih first.consistent first.recorded (first.member member) left
    refine ⟨after, ?_, first.trans second⟩
    rw [dropAll, drop_eq cause consistent member queued]
    exact drops

end Dropping

theorem surplus_eq (two : 2 ≤ item.queue.length) :
    ∃ del afterDel front back, surplus item = some (del, afterDel) ∧
      item.queue = front ++ del :: afterDel :: back ∧
      if item.discardOldest then front = [] else back = [] := by
  rw [surplus]
  by_cases oldest : item.discardOldest
  · simp only [if_pos oldest]
    match queue : item.queue with
    | [] => simp [queue] at two
    | [_] => simp [queue] at two
    | del :: afterDel :: back => exact ⟨del, afterDel, [], back, rfl, rfl, rfl⟩
  · simp only [if_neg oldest]
    match reversed : item.queue.reverse with
    | [] => simp [reverse_eq_nil_iff.mp reversed] at two
    | [_] =>
      have length := congrArg List.length reversed
      rw [length_reverse, length_singleton] at length
      omega
    | afterDel :: del :: front =>
      refine ⟨del, afterDel, front.reverse, [], rfl, ?_, rfl⟩
      rw [← reverse_reverse item.queue, reversed]
      simp

section Shrinking

variable {moving : Nat → List Nat}

section

variable (consistent : Consistent room sub)
include consistent

theorem moveBehind_parts (member : item ∈ sub.monitoredItems) {del afterDel : Nat}
    {front back : List Nat} (queue : item.queue = front ++ del :: afterDel :: back) (mon : Nat) :
    (moveBehind del afterDel sub.notificationQueue).filter (fun n => sub.owner n = some mon) =
      sub.part mon := by
  by_cases same : item.address = mon
  · subst same
    rw [consistent.parts item member] at queue
    exact moveBehind_filter_adjacent consistent.queue_nodup queue
  · have queued : afterDel ∈ item.queue := by
      rw [queue]
      simp
    obtain ⟨-, data, stored, -⟩ := consistent.queued member queued
    apply moveBehind_filter_of_not
    simp [owner, stored, same]

theorem dropSurplus_eq (member : item ∈ sub.monitoredItems) (two : 2 ≤ item.queueSize) :
    ∃ del afterDel front back, item.queue = front ++ del :: afterDel :: back ∧
      (if item.discardOldest then front = [] else back = []) ∧
      (moveBehind del afterDel sub.notificationQueue).Perm sub.notificationQueue ∧
      sub.dropSurplus item =
        some ({ sub with notificationQueue := moveBehind del afterDel sub.notificationQueue }.discard
          .overflow item del) := by
  have length : 2 ≤ item.queue.length := by
    rw [← consistent.sizes item member]
    exact two
  obtain ⟨del, afterDel, front, back, pair, queue, policy⟩ := surplus_eq length
  have del_queued : del ∈ item.queue := by
    rw [queue]
    simp
  have after_queued : afterDel ∈ item.queue := by
    rw [queue]
    simp
  have del_mem := (consistent.queued member del_queued).1
  have after_mem := (consistent.queued member after_queued).1
  have nodup : item.queue.Nodup := by
    rw [consistent.parts item member]
    exact consistent.queue_nodup.filter _
  have different : del ≠ afterDel := by
    rintro rfl
    rw [queue] at nodup
    simp [nodup_append] at nodup
  have perm := moveBehind_perm different del_mem after_mem
  have moved := consistent.reorder perm (moveBehind_parts consistent member queue)
  refine ⟨del, afterDel, front, back, queue, policy, perm, ?_⟩
  have enough : ¬ item.queueSize < 2 := Nat.not_lt_of_le two
  simp only [dropSurplus, if_neg enough, pair, Option.bind_eq_bind, Option.bind_some, del_mem,
    after_mem, not_true_eq_false, or_self, if_false]
  exact drop_eq .overflow moved member del_queued

theorem dropSurplus_reworked (recorded : Recorded sub moving) (member : item ∈ sub.monitoredItems)
    (two : 2 ≤ item.queueSize) :
    ∃ after changed, sub.dropSurplus item = some after ∧
      Reworked room sub item moving after changed ∧ changed.queueSize = item.queueSize - 1 := by
  obtain ⟨del, afterDel, front, back, queue, -, perm, drops⟩ := dropSurplus_eq consistent member two
  have del_queued : del ∈ item.queue := by
    rw [queue]
    simp
  have kept := moveBehind_parts consistent member queue
  have first : Reworked room sub item moving
      { sub with notificationQueue := moveBehind del afterDel sub.notificationQueue } item :=
    { consistent := consistent.reorder perm kept
      recorded := recorded.reorder kept
      only := rfl
      created := rfl
      items := (setItem_self consistent member).symm
      form := rfl }
  have second := discard_reworked .overflow first.consistent first.recorded member del_queued
  exact ⟨_, _, drops, first.trans second, rfl⟩

end

theorem shrinkQueue_reworked : ∀ {rounds : Nat} {sub : Subscription Content}
    {item : MonitoredItem}, Consistent room sub → Recorded sub moving →
      item ∈ sub.monitoredItems → item.queueSize ≤ item.maxQueueSize + rounds →
      Yields item.maxQueueSize (shrinkQueue rounds sub item.address) fun after => ∃ changed,
        Reworked room sub item moving after changed ∧
        changed.queueSize = min item.queueSize item.maxQueueSize := by
  intro rounds
  induction rounds with
  | zero =>
    intro sub item consistent recorded member enough
    rw [Nat.add_zero] at enough
    have done : shrinkQueue 0 sub item.address = some sub := by
      simp [shrinkQueue, consistent.item_eq member, enough]
    rw [done]
    exact .some ⟨item, .refl consistent recorded member, by omega⟩
  | succ rounds ih =>
    intro sub item consistent recorded member enough
    by_cases surplus : item.queueSize > item.maxQueueSize
    · have loops : shrinkQueue (rounds + 1) sub item.address =
          (sub.dropSurplus item).bind fun sub => shrinkQueue rounds sub item.address := by
        simp [shrinkQueue, consistent.item_eq member, surplus]
      rw [loops]
      by_cases two : 2 ≤ item.queueSize
      · obtain ⟨middle, between, drops, first, size⟩ :=
          dropSurplus_reworked consistent recorded member two
        have limit := first.maxQueueSize
        have rest := ih first.consistent first.recorded (first.member member) (by omega)
        rw [first.address, limit] at rest
        rw [drops]
        refine rest.imp ?_
        rintro after ⟨changed, second, final⟩
        exact ⟨changed, first.trans second, by omega⟩
      · -- Only a queue without room for its only notification comes here.
        refine .inr ⟨by omega, ?_⟩
        rw [dropSurplus, if_pos (Nat.lt_of_not_le two)]
        rfl
    · have done : shrinkQueue (rounds + 1) sub item.address = some sub := by
        simp [shrinkQueue, consistent.item_eq member, surplus]
      rw [done]
      exact .some ⟨item, .refl consistent recorded member, by omega⟩

theorem markOverflow_eq (consistent : Consistent room sub) (member : item ∈ sub.monitoredItems)
    (queued : item.queue ≠ []) (change : item.monitoredItemType = .changeNotify) :
    ∃ n value, infoBitsCarrier item = some n ∧ n ∈ item.queue ∧
      sub.memory n = some ⟨item.address, .value value⟩ ∧
      sub.markOverflow item =
        some (sub.store n (some ⟨item.address, .value (setInfoBits item.maxQueueSize value)⟩)) := by
  obtain ⟨n, carrier, present⟩ : ∃ n, infoBitsCarrier item = some n ∧ n ∈ item.queue := by
    rw [infoBitsCarrier]
    by_cases oldest : item.discardOldest
    · rw [if_pos oldest]
      exact ⟨_, head?_eq_some_head queued, head_mem queued⟩
    · rw [if_neg oldest]
      exact ⟨_, getLast?_eq_some_getLast queued, getLast_mem queued⟩
  obtain ⟨-, data, stored, fits⟩ := consistent.queued member present
  cases data with
  | event fields =>
    rw [change] at fits
    exact absurd fits Bool.false_ne_true
  | value value =>
    refine ⟨n, value, carrier, present, stored, ?_⟩
    simp only [markOverflow, if_pos change, carrier, stored, Option.bind_eq_bind, Option.bind_some]

theorem setInfoBits_fits (maxQueueSize : Nat) (value : SampledValue Content)
    (type : MonitoredItemType) :
    (NotificationData.value (setInfoBits maxQueueSize value)).fits type =
      (NotificationData.value value).fits type := by
  cases type <;> rfl

section

variable (consistent : Consistent room sub) (recorded : Recorded sub moving)
  (member : item ∈ sub.monitoredItems)
include consistent recorded member

theorem markOverflow_reworked (queued : item.queue ≠ []) :
    ∃ after, sub.markOverflow item = some after ∧ Reworked room sub item moving after item := by
  by_cases change : item.monitoredItemType = .changeNotify
  · obtain ⟨n, value, -, -, stored, marks⟩ := markOverflow_eq consistent member queued change
    refine ⟨_, marks, ?_⟩
    exact {
      consistent := consistent.store stored (setInfoBits_fits _ value)
      recorded := recorded.store stored
      only := rfl
      created := rfl
      items := (setItem_self consistent member).symm
      form := rfl }
  · refine ⟨sub, ?_, .refl consistent recorded member⟩
    rw [markOverflow, if_neg change]

theorem ensureQueueSpace_reworked :
    Yields item.maxQueueSize (sub.ensureQueueSpace item.address) fun after => ∃ changed,
      Reworked room sub item moving after changed ∧
      changed.queueSize = min item.queueSize item.maxQueueSize := by
  by_cases space : item.queueSize ≤ item.maxQueueSize
  · have done : sub.ensureQueueSpace item.address = some sub := by
      simp [ensureQueueSpace, consistent.item_eq member, space]
    rw [done]
    exact .some ⟨item, .refl consistent recorded member, by omega⟩
  · have makes : sub.ensureQueueSpace item.address =
        (shrinkQueue item.queueSize sub item.address).bind fun sub =>
          (sub.item item.address).bind fun item => sub.markOverflow item := by
      simp [ensureQueueSpace, consistent.item_eq member, space]
    rw [makes]
    refine (shrinkQueue_reworked consistent recorded member (Nat.le_add_left _ _)).bind ?_
    rintro middle ⟨changed, first, size⟩
    have present := first.member member
    have found := first.consistent.item_eq present
    rw [first.address] at found
    rw [found, Option.bind_some]
    by_cases empty : changed.queue = []
    · -- The queue has no room, and the carrier of the info bits is missing.
      have length := first.consistent.sizes changed present
      rw [empty, length_nil] at length
      have none : item.maxQueueSize = 0 := by omega
      by_cases change : changed.monitoredItemType = .changeNotify
      · refine .inr ⟨none, ?_⟩
        simp [markOverflow, change, infoBitsCarrier, empty]
      · rw [markOverflow, if_neg change]
        exact .some ⟨changed, first, size⟩
    · obtain ⟨after, marks, second⟩ :=
        markOverflow_reworked first.consistent first.recorded present empty
      rw [marks]
      exact .some ⟨changed, first.trans second, size⟩

end

theorem notificationEnqueue_sound (sound : Sound room sub) (member : item ∈ sub.monitoredItems)
    {data : NotificationData Content} (fits : data.fits item.monitoredItemType) :
    Yields item.maxQueueSize (sub.notificationEnqueue item.address data) fun after =>
      Kept room sub after ∧ after.created = sub.created ++ [(item.address, sub.unused)] ∧
      ∃ changed ∈ after.monitoredItems, changed.address = item.address ∧
        after.monitoredItems = (sub.setItem changed).monitoredItems ∧
        changed = { item with queue := changed.queue, queueSize := changed.queueSize } := by
  have consistent := sound.consistent.extended member fits
  have recorded := sound.recorded.extended sound.consistent item data
  have present : { item with
      queue := item.queue ++ [sub.unused], queueSize := item.queueSize + 1 } ∈
        (sub.extended item data).monitoredItems := mem_setItem_self member rfl
  have appends : sub.notificationEnqueue item.address data =
      (sub.extended item data).ensureQueueSpace item.address := by
    simp only [notificationEnqueue, sound.consistent.item_eq member, Option.bind_eq_bind,
      Option.bind_some, append_eq]
  rw [appends]
  refine (ensureQueueSpace_reworked consistent recorded present).imp ?_
  rintro after ⟨changed, reworked, size⟩
  have items : after.monitoredItems = (sub.setItem changed).monitoredItems := by
    rw [reworked.items]
    exact setItem_setItem rfl reworked.address
  refine ⟨⟨⟨reworked.consistent, reworked.recorded, ?_⟩, ?_⟩, reworked.created, changed,
    reworked.member present, reworked.address, items, reworked.form⟩
  · have limit := reworked.maxQueueSize
    exact sound.bounded.setItem items (by omega)
  · have only : QueuesOnly sub (sub.extended item data) := rfl
    exact only.trans reworked.only

end Shrinking

section Items

section

variable (sound : Sound room sub) (member : item ∈ sub.monitoredItems)
include sound member

theorem Sound.setItem {changed : MonitoredItem} (same : SameQueue item changed)
    (limit : changed.maxQueueSize = item.maxQueueSize) : Sound room (sub.setItem changed) where
  consistent := by
    refine sound.consistent.setItem member same ?_
    rw [limit]
    exact sound.consistent.roomy item member
  recorded := sound.recorded.setItem changed
  bounded := by
    refine sound.bounded.setItem rfl ?_
    rw [same.queueSize, limit]
    exact sound.bounded item member

theorem sampleCallbackWithValue_sound (change : item.monitoredItemType = .changeNotify)
    (sample : Sample Content) :
    Yields room (sub.sampleCallbackWithValue item.address sample) (Kept room sub) := by
  have found := sound.consistent.item_eq member
  by_cases needed : sample.changed
  · by_cases memory : sample.memory
    · have fits : (NotificationData.value sample.value).fits item.monitoredItemType := by
        rw [change]
        rfl
      have samples : sub.sampleCallbackWithValue item.address sample =
          (sub.notificationEnqueue item.address (.value sample.value)).bind fun sub =>
            (sub.item item.address).bind fun item =>
              some (sub.setItem { item with lastValue := sample.value.numeric }) := by
        simp [sampleCallbackWithValue, found, change, needed, memory]
      rw [samples]
      have enqueues := (notificationEnqueue_sound sound member fits).weaken
        (sound.consistent.roomy item member)
      refine enqueues.bind ?_
      rintro after ⟨kept, -, changed, present, address, -⟩
      have again := kept.sound.consistent.item_eq present
      rw [address] at again
      rw [again]
      exact .some ⟨kept.sound.setItem present ⟨rfl, rfl, rfl, rfl, rfl⟩ rfl, kept.only.trans rfl⟩
    · have same : sub.sampleCallbackWithValue item.address sample = some sub := by
        simp [sampleCallbackWithValue, found, change, needed, memory]
      rw [same]
      exact .some (.refl sound)
  · have same : sub.sampleCallbackWithValue item.address sample = some sub := by
      simp [sampleCallbackWithValue, found, change, needed]
    rw [same]
    exact .some (.refl sound)

theorem sampleCallback_sound (sample : Sample Content) :
    Yields room (sub.sampleCallback item.address sample) (Kept room sub) := by
  have found := sound.consistent.item_eq member
  by_cases change : item.monitoredItemType = .changeNotify
  · have samples : sub.sampleCallback item.address sample =
        sub.sampleCallbackWithValue item.address sample := by
      simp [sampleCallback, found, change]
    rw [samples]
    exact sampleCallbackWithValue_sound sound member change sample
  · have same : sub.sampleCallback item.address sample = some sub := by
      simp [sampleCallback, found, change]
    rw [same]
    exact .some (.refl sound)

theorem addEventToMonitoredItem_sound (event : item.monitoredItemType = .eventNotify)
    (filtered : Except StatusCode (List Content)) (memory : Bool) :
    Yields room (sub.addEventToMonitoredItem item.address filtered memory) fun outcome =>
      Kept room sub outcome.2 := by
  cases memory with
  | false => exact .some (.refl sound)
  | true =>
    cases filtered with
    | error status => exact .some (.refl sound)
    | ok fields =>
      have fits : (NotificationData.event fields).fits item.monitoredItemType := by
        rw [event]
        rfl
      have enqueues := (notificationEnqueue_sound sound member fits).weaken
        (sound.consistent.roomy item member)
      refine enqueues.bind ?_
      rintro after ⟨kept, -⟩
      exact .some kept

end

theorem bound_ge {limits : ValueRange Nat} (ordered : limits.min ≤ limits.max) (source : Nat) :
    limits.min ≤ limits.bound source := by
  rw [ValueRange.bound]
  split
  · exact ordered
  · split
    · exact Nat.le_refl _
    · omega

variable {config : SubscriptionConfig}

theorem setFilter_ne_good {dataType : Option Bool} {requested : RequestedFilter}
    {status : StatusCode} (failed : setFilter item dataType requested = .error status) :
    status ≠ .good := by
  cases requested with
  | notDecoded => cases failed
  | eventFilter filter => cases failed
  | other =>
    injection failed with failed
    subst failed
    decide
  | dataChangeFilter filter =>
    rw [setFilter] at failed
    split at failed
    · injection failed with failed
      subst failed
      decide
    · split at failed <;> split at failed
      · cases failed
      · injection failed with failed
        subst failed
        decide
      · cases failed
      · injection failed with failed
        subst failed
        decide

structure Settled (config : SubscriptionConfig) (item changed : MonitoredItem) : Prop where
  address : changed.address = item.address
  queue : changed.queue = item.queue
  queueSize : changed.queueSize = item.queueSize
  attributeId : changed.attributeId = item.attributeId
  typed : changed.monitoredItemType =
    if changed.attributeId = attributeIdEventNotifier then .eventNotify else .changeNotify
  room : config.queueSizeLimits.min ≤ changed.maxQueueSize

theorem setMonitoredItemSettings_settled (item : MonitoredItem) (monitoringMode : MonitoringMode)
    (params : MonitoringParameters) (dataType : Option Bool)
    (good : (setMonitoredItemSettings config item monitoringMode params dataType).1 = .good) :
    Settled config item
      (setMonitoredItemSettings config item monitoringMode params dataType).2 := by
  rw [setMonitoredItemSettings] at good ⊢
  cases filter : setFilter item dataType params.filter with
  | error status =>
    rw [filter] at good
    exact absurd good (setFilter_ne_good filter)
  | ok filter =>
    exact ⟨rfl, rfl, rfl, rfl, rfl, bound_ge config.queueSizesOrdered _⟩

theorem modifyMonitoredItem_sound (limits : room ≤ config.queueSizeLimits.min)
    (sound : Sound room sub) (request : MonitoredItemModifyRequest) :
    Yields room (sub.modifyMonitoredItem config request) fun outcome =>
      Kept room sub outcome.2 := by
  rw [modifyMonitoredItem]
  cases found : sub.getMonitoredItem request.monitoredItemId with
  | none => exact .some (.refl sound)
  | some item =>
    have member := getMonitoredItem_mem found
    generalize settings : setMonitoredItemSettings config item item.monitoringMode
      request.requestedParameters none = outcome
    obtain ⟨status, modified⟩ := outcome
    by_cases good : status = .good
    · have settled := setMonitoredItemSettings_settled item item.monitoringMode
        request.requestedParameters none (by rw [settings]; exact good)
      rw [settings] at settled
      have typed : modified.monitoredItemType = item.monitoredItemType := by
        rw [settled.typed, settled.attributeId]
        exact (sound.consistent.typed item member).symm
      have consistent : Consistent room (sub.setItem modified) := sound.consistent.setItem member
        ⟨settled.address, settled.queue, settled.queueSize, typed, settled.attributeId⟩
        (Nat.le_trans limits settled.room)
      have space := ensureQueueSpace_reworked consistent (sound.recorded.setItem modified)
        (mem_setItem_self member settled.address)
      rw [settled.address] at space
      simp only [settings, good, ne_eq, not_true_eq_false, if_false]
      refine (space.weaken (Nat.le_trans limits settled.room)).bind ?_
      rintro after ⟨changed, reworked, size⟩
      refine .some ⟨⟨reworked.consistent, reworked.recorded, ?_⟩, ?_⟩
      · have items : after.monitoredItems = (sub.setItem changed).monitoredItems := by
          rw [reworked.items]
          exact setItem_setItem rfl reworked.address
        have limit := reworked.maxQueueSize
        exact sound.bounded.setItem items (by omega)
      · have only : QueuesOnly sub (sub.setItem modified) := rfl
        exact only.trans reworked.only
    · simp only [settings, good, ne_eq, not_false_eq_true, if_true]
      exact .some (.refl sound)

theorem firstSample_sound (sound : Sound room sub) (member : item ∈ sub.monitoredItems)
    (monitoringMode : MonitoringMode) (sample : Sample Content) :
    Yields room (sub.firstSample monitoringMode item.address sample) (Kept room sub) := by
  rw [firstSample]
  split
  · exact sampleCallback_sound sound member sample
  · exact .some (.refl sound)

theorem registerItem_sound (sound : Sound room sub)
    (limits : room ≤ config.queueSizeLimits.min) {attributeId : Nat}
    (settled : Settled config (sub.newItem attributeId) item) :
    Sound room ({ sub with unusedItem := sub.unusedItem + 1 }.registerItem item) where
  consistent := by
    have consistent : Consistent room { sub with
        monitoredItems :=
          { item with monitoredItemId := sub.lastMonitoredItemId + 1 } :: sub.monitoredItems
        unusedItem := sub.unusedItem + 1 } :=
      sound.consistent.addItem settled.address settled.queue settled.queueSize settled.typed
        (Nat.le_trans limits settled.room)
    exact { consistent with }
  recorded := { sound.recorded with }
  bounded := by
    intro other member
    rcases mem_cons.mp member with rfl | present
    · exact Nat.le_trans (Nat.le_of_eq settled.queueSize) (Nat.zero_le _)
    · exact sound.bounded other present

theorem createMonitoredItem_sound (limits : room ≤ config.queueSizeLimits.min)
    (sound : Sound room sub) (request : MonitoredItemCreateRequest Content) :
    Yields room (sub.createMonitoredItem config request) fun outcome =>
      Kept room sub outcome.2 := by
  rw [createMonitoredItem]
  split
  · exact .some (.refl sound)
  split
  · exact .some (.refl sound)
  split
  · exact .some (.refl sound)
  split
  · exact .some (.refl sound)
  split
  · exact .some (.refl sound)
  generalize settings : setMonitoredItemSettings config (sub.newItem request.attributeId)
    request.monitoringMode request.requestedParameters request.read.numeric = outcome
  obtain ⟨status, newMon⟩ := outcome
  by_cases good : request.copied ||| status = .good
  · have settled := setMonitoredItemSettings_settled (sub.newItem request.attributeId)
      request.monitoringMode request.requestedParameters request.read.numeric
      (by rw [settings]; exact ((StatusCode.or_eq_good_iff _ _).mp good).2)
    rw [settings] at settled
    have registered := registerItem_sound sound limits settled
    simp only [settings, good, ne_eq, not_true_eq_false, if_false]
    refine (firstSample_sound registered (mem_cons_self ..) request.monitoringMode
      request.sample).bind ?_
    intro after kept
    have first : QueuesOnly sub
        ({ sub with unusedItem := sub.unusedItem + 1 }.registerItem newMon) := rfl
    exact .some ⟨kept.sound, first.trans kept.only⟩
  · simp only [settings, good, ne_eq, not_false_eq_true, if_true]
    refine .some ⟨?_, rfl⟩
    exact {
      consistent := { sound.consistent with
        items_old := fun item member =>
          Nat.lt_succ_of_lt (sound.consistent.items_old item member) }
      recorded := { sound.recorded with }
      bounded := sound.bounded }

theorem setMonitoringMode_sound (sound : Sound room sub) (monitoringMode : MonitoringMode)
    (monitoredItemId : BitVec 32) :
    ∃ status after, sub.setMonitoringMode monitoringMode monitoredItemId = some (status, after) ∧
      Sound room after ∧ QueuesOnly sub after := by
  rw [setMonitoringMode]
  cases found : sub.getMonitoredItem monitoredItemId with
  | none => exact ⟨_, sub, rfl, sound, rfl⟩
  | some item =>
    have member := getMonitoredItem_mem found
    have set : Sound room (sub.setItem { item with monitoringMode := monitoringMode }) :=
      sound.setItem member ⟨rfl, rfl, rfl, rfl, rfl⟩ rfl
    have present : { item with monitoringMode := monitoringMode } ∈
        (sub.setItem { item with monitoringMode := monitoringMode }).monitoredItems :=
      mem_setItem_self member rfl
    obtain ⟨middle, drops, reworked⟩ :=
      dropAll_reworked .disabled set.consistent set.recorded present rfl
    have left := reworked.member present
    have dropped : Sound room middle :=
      ⟨reworked.consistent, reworked.recorded, set.bounded.setItem reworked.items (Nat.zero_le _)⟩
    have cleared : Sound room (middle.setItem { item with
        monitoringMode := monitoringMode, queue := [], queueSize := 0, lastValue := none }) :=
      dropped.setItem left ⟨rfl, rfl, rfl, rfl, rfl⟩ rfl
    have again := reworked.consistent.item_eq left
    have only : QueuesOnly sub (sub.setItem { item with monitoringMode := monitoringMode }) := rfl
    dsimp only
    split
    · exact ⟨_, sub, rfl, sound, rfl⟩
    split
    · exact ⟨_, sub, rfl, sound, rfl⟩
    split
    · exact ⟨_, sub, rfl, sound, rfl⟩
    split
    · exact ⟨_, _, rfl, set, rfl⟩
    · refine ⟨.good, _, ?_, cleared, (only.trans reworked.only).trans rfl⟩
      simp only [drops, again, Option.bind_eq_bind, Option.bind_some]

theorem setItem_filter (sub : Subscription Content) (changed : MonitoredItem) :
    (sub.setItem changed).monitoredItems.filter (·.address ≠ changed.address) =
      sub.monitoredItems.filter (·.address ≠ changed.address) := by
  rw [setItem]
  induction sub.monitoredItems with
  | nil => rfl
  | cons first rest ih =>
    rw [map_cons, filter_cons, ih]
    by_cases same : first.address = changed.address <;> simp [same]

theorem monitoredItemDelete_sound (sound : Sound room sub) (member : item ∈ sub.monitoredItems) :
    ∃ after, sub.monitoredItemDelete item = some after ∧ Sound room after ∧ QueuesOnly sub after ∧
      after.monitoredItems = sub.monitoredItems.filter (·.address ≠ item.address) := by
  obtain ⟨middle, drops, reworked⟩ :=
    dropAll_reworked .deleted sound.consistent sound.recorded member rfl
  have empty : middle.part item.address = [] := by
    have parts := reworked.consistent.parts _ (reworked.member member)
    exact parts.symm
  have bounded := sound.bounded.setItem reworked.items (Nat.zero_le _)
  have only : QueuesOnly middle
      { middle with monitoredItems := middle.monitoredItems.filter (·.address ≠ item.address) } :=
    rfl
  refine ⟨_, by rw [monitoredItemDelete, drops]; rfl, ?_, reworked.only.trans only, ?_⟩
  · exact {
      consistent := reworked.consistent.removeItem empty
      recorded := { reworked.recorded with }
      bounded := fun other present => bounded other (mem_of_mem_filter present) }
  · rw [reworked.items]
    exact setItem_filter sub { item with queue := [], queueSize := 0 }

theorem deleteMonitoredItem_sound (sound : Sound room sub) (monitoredItemId : BitVec 32) :
    ∃ status after, sub.deleteMonitoredItem monitoredItemId = some (status, after) ∧
      Sound room after ∧ QueuesOnly sub after := by
  rw [deleteMonitoredItem]
  cases found : sub.getMonitoredItem monitoredItemId with
  | none => exact ⟨_, sub, rfl, sound, rfl⟩
  | some item =>
    obtain ⟨after, deletes, kept, only, -⟩ :=
      monitoredItemDelete_sound sound (getMonitoredItem_mem found)
    refine ⟨.good, { after with monitoredItemsSize := after.monitoredItemsSize - 1 }, ?_,
      ⟨{ kept.consistent with }, { kept.recorded with }, kept.bounded⟩, only.trans rfl⟩
    simp [deletes]

theorem deleteItems_sound : ∀ {items : List MonitoredItem} {sub : Subscription Content},
    Sound room sub → sub.monitoredItems = items →
      ∃ after, deleteItems items sub = some after ∧ Sound room after ∧ QueuesOnly sub after ∧
        after.monitoredItems = [] := by
  intro items
  induction items with
  | nil =>
    intro sub sound none
    exact ⟨sub, rfl, sound, rfl, none⟩
  | cons item rest ih =>
    intro sub sound list
    have member : item ∈ sub.monitoredItems := by
      rw [list]
      exact mem_cons_self ..
    obtain ⟨middle, deletes, kept, first, items⟩ := monitoredItemDelete_sound sound member
    have others : ∀ other ∈ rest, other.address ≠ item.address := by
      have nodup := sound.consistent.items_nodup
      rw [list, map_cons, nodup_cons] at nodup
      intro other present same
      exact nodup.1 (same ▸ mem_map_of_mem present)
    have left : middle.monitoredItems = rest := by
      rw [items, list, filter_cons, if_neg (by simp), filter_eq_self]
      intro other present
      exact decide_eq_true (others other present)
    obtain ⟨after, rests, sound, second, none⟩ := ih kept left
    refine ⟨after, ?_, sound, first.trans second, none⟩
    rw [deleteItems, deletes]
    exact rests

end Items

end Subscription

end OpcUa
