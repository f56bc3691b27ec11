import OpcUa.SubscriptionCore

/-!
The two queues of a notification agree. Every operation on a subscription is made of a few steps
on the queues: a notification is appended, deleted, moved or changed, an item is added, changed or
taken out. Each step keeps the queues consistent and the record balanced.
-/

namespace OpcUa

open OwnedQueue List

variable {Content : Type} {room : Nat}

namespace Subscription

variable {sub : Subscription Content} {item : MonitoredItem}

/-! What the queues hold -/

section

variable (sub : Subscription Content)

def owner (n : Nat) : Option Nat :=
  (sub.memory n).map Notification.mon

def part (mon : Nat) : List Nat :=
  sub.notificationQueue.filter fun n => sub.owner n = some mon

def carries (type : MonitoredItemType) (n : Nat) : Bool :=
  (sub.memory n).any fun notification => notification.data.fits type

def counter : MonitoredItemType → Nat
  | .changeNotify => sub.dataChangeNotifications
  | .statusNotify => sub.statusChangeNotifications
  | .eventNotify => sub.eventNotifications

end

structure Consistent (room : Nat) (sub : Subscription Content) : Prop where
  items_nodup : (sub.monitoredItems.map MonitoredItem.address).Nodup
  items_old : ∀ item ∈ sub.monitoredItems, item.address < sub.unusedItem
  queue_nodup : sub.notificationQueue.Nodup
  queue_old : ∀ n ∈ sub.notificationQueue, n < sub.unused
  held : ∀ n ∈ sub.notificationQueue, ∃ item ∈ sub.monitoredItems, ∃ data,
    sub.memory n = some ⟨item.address, data⟩ ∧ data.fits item.monitoredItemType
  parts : ∀ item ∈ sub.monitoredItems, item.queue = sub.part item.address
  sizes : ∀ item ∈ sub.monitoredItems, item.queueSize = item.queue.length
  typed : ∀ item ∈ sub.monitoredItems, item.monitoredItemType =
    if item.attributeId = attributeIdEventNotifier then .eventNotify else .changeNotify
  roomy : ∀ item ∈ sub.monitoredItems, room ≤ item.maxQueueSize
  size : sub.notificationQueueSize = sub.notificationQueue.length
  counted : ∀ type, sub.counter type = sub.notificationQueue.countP (sub.carries type)
  retained : sub.retransmissionQueueSize = sub.retransmissionQueue.length

def origins (dcn : Option (List (MonitoredItemNotification Content)))
    (enl : Option (List (EventFieldList Content))) (mon : Nat) : List Nat :=
  ((dcn.getD []).filter (·.mon = mon)).map MonitoredItemNotification.origin ++
    ((enl.getD []).filter (·.mon = mon)).map EventFieldList.origin

def sentBy (sub : Subscription Content) (mon : Nat) : List Nat :=
  sub.sent.flatMap fun sent =>
    origins sent.message.dataChangeNotification sent.message.eventNotificationList mon

def ledger (sub : Subscription Content) (moving : Nat → List Nat) : Ledger Nat Nat where
  created := sub.created
  dropped := sub.dropped.map Prod.snd
  sent := fun mon => sub.sentBy mon ++ moving mon
  queued := sub.part

structure Recorded (sub : Subscription Content) (moving : Nat → List Nat) : Prop where
  balanced : (sub.ledger moving).Balanced
  old : ∀ entry ∈ sub.created, entry.2 < sub.unused

theorem item_mem {mon : Nat} (found : sub.item mon = some item) :
    item ∈ sub.monitoredItems ∧ item.address = mon := by
  exact ⟨mem_of_find?_eq_some found, by simpa using find?_some found⟩

theorem getMonitoredItem_mem {monitoredItemId : BitVec 32}
    (found : sub.getMonitoredItem monitoredItemId = some item) : item ∈ sub.monitoredItems :=
  mem_of_find?_eq_some found

theorem setItem_addresses (sub : Subscription Content) (item : MonitoredItem) :
    (sub.setItem item).monitoredItems.map MonitoredItem.address =
      sub.monitoredItems.map MonitoredItem.address := by
  rw [setItem, map_map]
  apply map_congr_left
  intro other _
  by_cases same : other.address = item.address <;> simp [same]

theorem mem_setItem {other : MonitoredItem} (member : other ∈ (sub.setItem item).monitoredItems) :
    other = item ∨ other ∈ sub.monitoredItems ∧ other.address ≠ item.address := by
  obtain ⟨old, present, rfl⟩ := mem_map.mp member
  by_cases same : old.address = item.address
  · exact .inl (if_pos same)
  · rw [if_neg same]
    exact .inr ⟨present, same⟩

theorem setItem_mem (item : MonitoredItem) {old : MonitoredItem}
    (present : old ∈ sub.monitoredItems) :
    (if old.address = item.address then item else old) ∈ (sub.setItem item).monitoredItems :=
  mem_map_of_mem present

namespace Consistent

section

variable (consistent : Consistent room sub)
include consistent

theorem item_eq (member : item ∈ sub.monitoredItems) : sub.item item.address = some item := by
  have found : (sub.item item.address).isSome := by
    rw [Subscription.item, find?_isSome]
    exact ⟨item, member, by simp⟩
  obtain ⟨other, same⟩ := Option.isSome_iff_exists.mp found
  obtain ⟨present, address⟩ := item_mem same
  rw [same, inj_on_of_nodup_map consistent.items_nodup present member address]

theorem address_unique {other : MonitoredItem} (member : item ∈ sub.monitoredItems)
    (present : other ∈ sub.monitoredItems) (same : other.address = item.address) : other = item :=
  inj_on_of_nodup_map consistent.items_nodup present member same

theorem owner_eq {n : Nat} (queued : n ∈ sub.notificationQueue) :
    ∃ item ∈ sub.monitoredItems, sub.owner n = some item.address := by
  obtain ⟨item, member, data, stored, -⟩ := consistent.held n queued
  exact ⟨item, member, by rw [owner, stored]; rfl⟩

theorem queued {n : Nat} (member : item ∈ sub.monitoredItems) (queued : n ∈ item.queue) :
    n ∈ sub.notificationQueue ∧ ∃ data, sub.memory n = some ⟨item.address, data⟩ ∧
      data.fits item.monitoredItemType := by
  rw [consistent.parts item member, part, mem_filter, decide_eq_true_eq] at queued
  obtain ⟨other, present, data, stored, fits⟩ := consistent.held n queued.1
  have same : other.address = item.address := by
    have belongs := queued.2
    rw [owner, stored] at belongs
    exact Option.some.inj belongs
  rw [consistent.address_unique member present same] at stored fits
  exact ⟨queued.1, data, stored, fits⟩

end

end Consistent

/-! A notification is deleted -/

def without (sub : Subscription Content) (item : MonitoredItem) (n : Nat) :
    Subscription Content :=
  { sub with
    monitoredItems := (sub.setItem
      { item with queue := item.queue.erase n, queueSize := item.queueSize - 1 }).monitoredItems
    notificationQueue := sub.notificationQueue.erase n
    notificationQueueSize := sub.notificationQueueSize - 1
    dataChangeNotifications := sub.dataChangeNotifications -
      if item.monitoredItemType = .changeNotify then 1 else 0
    eventNotifications := sub.eventNotifications -
      if item.monitoredItemType = .eventNotify then 1 else 0
    statusChangeNotifications := sub.statusChangeNotifications -
      if item.monitoredItemType = .statusNotify then 1 else 0
    memory := fun address => if address = n then none else sub.memory address }

theorem fits_iff {data : NotificationData Content} {type other : MonitoredItemType}
    (fits : data.fits type) : data.fits other ↔ type = other := by
  cases data <;> cases type <;> cases other <;> simp_all [NotificationData.fits]

section Deletion

variable {n : Nat}

theorem notificationDelete_eq (consistent : Consistent room sub) (member : item ∈ sub.monitoredItems)
    (queued : n ∈ item.queue) :
    sub.notificationDelete item.address n = some (sub.without item n) := by
  obtain ⟨present, data, stored, fits⟩ := consistent.queued member queued
  simp only [notificationDelete, consistent.item_eq member, stored, Option.bind_eq_bind,
    Option.bind_some, fits, Bool.not_true, Bool.false_eq_true, if_false, queued, present,
    not_true_eq_false, or_self]
  cases type : item.monitoredItemType <;> simp [countDown, without, setItem, store, type]

theorem part_without (consistent : Consistent room sub) (item : MonitoredItem) (n mon : Nat) :
    (sub.without item n).part mon = (sub.part mon).erase n := by
  rw [part, part, erase_filter]
  apply filter_congr
  intro other present
  have different : other ≠ n := (consistent.queue_nodup.mem_erase_iff.mp present).1
  simp [owner, without, different]

theorem counter_without (sub : Subscription Content) (item : MonitoredItem) (n : Nat)
    (type : MonitoredItemType) : (sub.without item n).counter type =
      sub.counter type - if item.monitoredItemType = type then 1 else 0 := by
  cases type <;> rfl

section

variable (consistent : Consistent room sub) (member : item ∈ sub.monitoredItems)
  (queued : n ∈ item.queue)
include consistent member queued

theorem countP_without (type : MonitoredItemType) :
    sub.notificationQueue.countP (sub.carries type) =
      (sub.without item n).notificationQueue.countP ((sub.without item n).carries type) +
        if item.monitoredItemType = type then 1 else 0 := by
  obtain ⟨present, data, stored, fits⟩ := consistent.queued member queued
  have same : (sub.notificationQueue.erase n).countP ((sub.without item n).carries type) =
      (sub.notificationQueue.erase n).countP (sub.carries type) := by
    apply countP_congr
    intro other left
    have different : other ≠ n := (consistent.queue_nodup.mem_erase_iff.mp left).1
    simp [carries, without, different]
  have carried : sub.carries type n ↔ item.monitoredItemType = type := by
    rw [carries, stored]
    exact fits_iff fits
  rw [(perm_cons_erase present).countP_eq, countP_cons, ← same]
  simp only [carried]
  rfl

theorem Consistent.without : Consistent room (sub.without item n) where
  items_nodup := by
    rw [Subscription.without, setItem_addresses]
    exact consistent.items_nodup
  items_old := by
    intro other present
    rcases mem_setItem present with rfl | ⟨present, -⟩
    · exact consistent.items_old item member
    · exact consistent.items_old other present
  queue_nodup := consistent.queue_nodup.erase n
  queue_old := fun other present => consistent.queue_old other (mem_of_mem_erase present)
  held := by
    intro other present
    obtain ⟨different, present⟩ := consistent.queue_nodup.mem_erase_iff.mp present
    obtain ⟨holder, old, data, stored, fits⟩ := consistent.held other present
    refine ⟨_, setItem_mem _ old, data, ?_⟩
    have unchanged : (sub.without item n).memory other = sub.memory other := if_neg different
    rw [unchanged, stored]
    by_cases same : holder.address = item.address
    · rw [if_pos same, ← consistent.address_unique member old same]
      exact ⟨rfl, fits⟩
    · rw [if_neg same]
      exact ⟨rfl, fits⟩
  parts := by
    intro other present
    rw [part_without consistent]
    rcases mem_setItem present with rfl | ⟨present, different⟩
    · exact congrArg (List.erase · n) (consistent.parts item member)
    · rw [consistent.parts other present, erase_of_not_mem]
      intro shared
      rw [← consistent.parts other present] at shared
      obtain ⟨-, data, stored, -⟩ := consistent.queued member queued
      obtain ⟨-, data, again, -⟩ := consistent.queued present shared
      rw [stored] at again
      exact different (congrArg Notification.mon (Option.some.inj again)).symm
  sizes := by
    intro other present
    rcases mem_setItem present with rfl | ⟨present, -⟩
    · rw [length_erase_of_mem queued, consistent.sizes item member]
    · exact consistent.sizes other present
  typed := by
    intro other present
    rcases mem_setItem present with rfl | ⟨present, -⟩
    · exact consistent.typed item member
    · exact consistent.typed other present
  roomy := by
    intro other present
    rcases mem_setItem present with rfl | ⟨present, -⟩
    · exact consistent.roomy item member
    · exact consistent.roomy other present
  size := by
    obtain ⟨present, -⟩ := consistent.queued member queued
    have length := length_erase_of_mem present
    exact (congrArg (· - 1) consistent.size).trans length.symm
  counted := by
    intro type
    rw [counter_without, consistent.counted type, countP_without consistent member queued type,
      Nat.add_sub_cancel]
  retained := consistent.retained

end

def discard (sub : Subscription Content) (cause : DropCause) (item : MonitoredItem) (n : Nat) :
    Subscription Content :=
  { sub.without item n with dropped := sub.dropped ++ [(cause, n)] }

section

variable (cause : DropCause) (consistent : Consistent room sub) (member : item ∈ sub.monitoredItems)
  (queued : n ∈ item.queue)
include consistent member queued

theorem drop_eq : sub.drop cause item.address n = some (sub.discard cause item n) := by
  rw [drop, notificationDelete_eq consistent member queued]
  rfl

theorem Consistent.discard : Consistent room (sub.discard cause item n) :=
  { consistent.without member queued with }

end

theorem Recorded.discard (cause : DropCause) {moving : Nat → List Nat}
    (recorded : Recorded sub moving) (consistent : Consistent room sub)
    (member : item ∈ sub.monitoredItems) (queued : n ∈ item.queue) :
    Recorded (sub.discard cause item n) moving where
  balanced := by
    have present : n ∈ (sub.ledger moving).queued item.address := by
      rw [consistent.parts item member] at queued
      exact queued
    have queued := part_without consistent item n
    exact recorded.balanced.drop present rfl map_append rfl queued
  old := recorded.old

theorem Recorded.move {moving : Nat → List Nat} {rest : List Nat} (recorded : Recorded sub moving)
    (consistent : Consistent room sub) (first : sub.notificationQueue = n :: rest)
    (belongs : sub.owner n = some item.address) :
    Recorded (sub.without item n) fun mon =>
      moving mon ++ if item.address = mon then [n] else [] where
  balanced := by
    have tail : ∀ mon, sub.part mon =
        (if item.address = mon then [n] else []) ++ (sub.without item n).part mon := by
      intro mon
      rw [part_without consistent, part, first, filter_cons, belongs]
      by_cases same : item.address = mon
      · simp [same]
      · have absent : n ∉ rest := by
          have nodup := consistent.queue_nodup
          rw [first] at nodup
          exact (nodup_cons.mp nodup).1
        simp [same, erase_of_not_mem, absent]
    have moved : ∀ mon, (sub.sentBy mon ++ (moving mon ++ if item.address = mon then [n] else [])) ++
        (sub.without item n).part mon = (sub.sentBy mon ++ moving mon) ++ sub.part mon := by
      intro mon
      rw [tail mon]
      simp
    exact recorded.balanced.move rfl rfl moved
  old := recorded.old

end Deletion

section Reordering

variable {queue : List Nat}

theorem Consistent.reorder (consistent : Consistent room sub) (perm : queue.Perm sub.notificationQueue)
    (kept : ∀ mon, queue.filter (fun n => sub.owner n = some mon) = sub.part mon) :
    Consistent room { sub with notificationQueue := queue } :=
  { consistent with
    queue_nodup := perm.nodup_iff.mpr consistent.queue_nodup
    queue_old := fun n present => consistent.queue_old n (perm.mem_iff.mp present)
    held := fun n present => consistent.held n (perm.mem_iff.mp present)
    parts := fun item member => (consistent.parts item member).trans (kept item.address).symm
    size := consistent.size.trans perm.length_eq.symm
    counted := fun type => (consistent.counted type).trans (perm.countP_eq _).symm }

theorem Recorded.reorder {moving : Nat → List Nat} (recorded : Recorded sub moving)
    (kept : ∀ mon, queue.filter (fun n => sub.owner n = some mon) = sub.part mon) :
    Recorded { sub with notificationQueue := queue } moving where
  balanced := by
    have moved : ∀ mon, (sub.sentBy mon ++ moving mon) ++
        queue.filter (fun n => sub.owner n = some mon) =
          (sub.sentBy mon ++ moving mon) ++ sub.part mon := by
      intro mon
      rw [kept mon]
    exact recorded.balanced.move rfl rfl moved
  old := recorded.old

end Reordering

/-! A notification is appended -/

def extended (sub : Subscription Content) (item : MonitoredItem)
    (data : NotificationData Content) : Subscription Content :=
  { sub with
    monitoredItems := (sub.setItem { item with
      queue := item.queue ++ [sub.unused], queueSize := item.queueSize + 1 }).monitoredItems
    notificationQueue := sub.notificationQueue ++ [sub.unused]
    notificationQueueSize := sub.notificationQueueSize + 1
    dataChangeNotifications := sub.dataChangeNotifications +
      if item.monitoredItemType = .changeNotify then 1 else 0
    eventNotifications := sub.eventNotifications +
      if item.monitoredItemType = .eventNotify then 1 else 0
    statusChangeNotifications := sub.statusChangeNotifications +
      if item.monitoredItemType = .statusNotify then 1 else 0
    memory := fun address =>
      if address = sub.unused then some ⟨item.address, data⟩ else sub.memory address
    unused := sub.unused + 1
    created := sub.created ++ [(item.address, sub.unused)] }

section Appending

variable {data : NotificationData Content}

theorem append_eq (sub : Subscription Content) (item : MonitoredItem)
    (data : NotificationData Content) : sub.append item data = sub.extended item data := by
  cases type : item.monitoredItemType <;> simp [append, extended, countUp, setItem, store, type]

theorem counter_extended (sub : Subscription Content) (item : MonitoredItem)
    (data : NotificationData Content) (type : MonitoredItemType) :
    (sub.extended item data).counter type =
      sub.counter type + if item.monitoredItemType = type then 1 else 0 := by
  cases type <;> rfl

theorem Consistent.ne_unused (consistent : Consistent room sub) {n : Nat}
    (queued : n ∈ sub.notificationQueue) : n ≠ sub.unused :=
  Nat.ne_of_lt (consistent.queue_old n queued)

theorem memory_extended_self (sub : Subscription Content) (item : MonitoredItem)
    (data : NotificationData Content) :
    (sub.extended item data).memory sub.unused = some ⟨item.address, data⟩ :=
  if_pos rfl

theorem memory_extended_of_ne (item : MonitoredItem) (data : NotificationData Content) {n : Nat}
    (different : n ≠ sub.unused) : (sub.extended item data).memory n = sub.memory n :=
  if_neg different

section

variable (consistent : Consistent room sub)
include consistent

theorem part_extended (item : MonitoredItem) (data : NotificationData Content) (mon : Nat) :
    (sub.extended item data).part mon =
      sub.part mon ++ if item.address = mon then [sub.unused] else [] := by
  have front : sub.notificationQueue.filter
      (fun n => (sub.extended item data).owner n = some mon) = sub.part mon := by
    apply filter_congr
    intro n queued
    rw [owner, memory_extended_of_ne item data (consistent.ne_unused queued), owner]
  have back : (sub.extended item data).owner sub.unused = some item.address := by
    rw [owner, memory_extended_self]
    rfl
  have split : (sub.extended item data).notificationQueue =
      sub.notificationQueue ++ [sub.unused] := rfl
  rw [part, split, filter_append, front, filter_singleton, back]
  by_cases same : item.address = mon <;> simp [same]

theorem countP_extended (fits : data.fits item.monitoredItemType) (type : MonitoredItemType) :
    (sub.extended item data).notificationQueue.countP ((sub.extended item data).carries type) =
      sub.notificationQueue.countP (sub.carries type) +
        if item.monitoredItemType = type then 1 else 0 := by
  have front : sub.notificationQueue.countP ((sub.extended item data).carries type) =
      sub.notificationQueue.countP (sub.carries type) := by
    apply countP_congr
    intro n queued
    rw [carries, memory_extended_of_ne item data (consistent.ne_unused queued), carries]
  have back : (sub.extended item data).carries type sub.unused ↔ item.monitoredItemType = type := by
    rw [carries, memory_extended_self]
    exact fits_iff fits
  have split : (sub.extended item data).notificationQueue =
      sub.notificationQueue ++ [sub.unused] := rfl
  rw [split, countP_append, front, countP_singleton]
  simp only [back]

theorem Consistent.extended (member : item ∈ sub.monitoredItems)
    (fits : data.fits item.monitoredItemType) : Consistent room (sub.extended item data) where
  items_nodup := by
    rw [Subscription.extended, setItem_addresses]
    exact consistent.items_nodup
  items_old := by
    intro other present
    rcases mem_setItem present with rfl | ⟨present, -⟩
    · exact consistent.items_old item member
    · exact consistent.items_old other present
  queue_nodup := by
    refine nodup_append.mpr ⟨consistent.queue_nodup, by simp, ?_⟩
    intro n queued other present
    rw [mem_singleton.mp present]
    exact consistent.ne_unused queued
  queue_old := by
    intro n present
    rcases mem_append.mp present with queued | last
    · exact Nat.lt_succ_of_lt (consistent.queue_old n queued)
    · rw [mem_singleton.mp last]
      exact Nat.lt_succ_self _
  held := by
    intro n present
    rcases mem_append.mp present with queued | last
    · obtain ⟨holder, old, data, stored, fits⟩ := consistent.held n queued
      refine ⟨_, setItem_mem _ old, data, ?_⟩
      rw [memory_extended_of_ne item _ (consistent.ne_unused queued), stored]
      by_cases same : holder.address = item.address
      · rw [if_pos same, ← consistent.address_unique member old same]
        exact ⟨rfl, fits⟩
      · rw [if_neg same]
        exact ⟨rfl, fits⟩
    · refine ⟨_, setItem_mem _ member, data, ?_⟩
      rw [if_pos rfl, mem_singleton.mp last]
      exact ⟨memory_extended_self sub item data, fits⟩
  parts := by
    intro other present
    rw [part_extended consistent]
    rcases mem_setItem present with rfl | ⟨present, different⟩
    · rw [if_pos rfl, consistent.parts item member]
    · rw [if_neg (Ne.symm different), consistent.parts other present, append_nil]
  sizes := by
    intro other present
    rcases mem_setItem present with rfl | ⟨present, -⟩
    · rw [length_append, consistent.sizes item member]
      rfl
    · exact consistent.sizes other present
  typed := by
    intro other present
    rcases mem_setItem present with rfl | ⟨present, -⟩
    · exact consistent.typed item member
    · exact consistent.typed other present
  roomy := by
    intro other present
    rcases mem_setItem present with rfl | ⟨present, -⟩
    · exact consistent.roomy item member
    · exact consistent.roomy other present
  size := by
    have length : (sub.notificationQueue ++ [sub.unused]).length =
        sub.notificationQueue.length + 1 := length_append
    exact (congrArg (· + 1) consistent.size).trans length.symm
  counted := by
    intro type
    rw [counter_extended, consistent.counted type, countP_extended consistent fits]
  retained := consistent.retained

end

theorem Recorded.extended {moving : Nat → List Nat} (recorded : Recorded sub moving)
    (consistent : Consistent room sub) (item : MonitoredItem) (data : NotificationData Content) :
    Recorded (sub.extended item data) moving where
  balanced := by
    have fresh : sub.unused ∉ (sub.ledger moving).created.map Prod.snd := by
      intro member
      obtain ⟨entry, present, same⟩ := mem_map.mp member
      exact Nat.ne_of_lt (recorded.old entry present) same
    have queued := part_extended consistent item data
    exact recorded.balanced.create fresh rfl rfl rfl queued
  old := by
    intro entry member
    rcases mem_append.mp member with present | last
    · exact Nat.lt_succ_of_lt (recorded.old entry present)
    · rw [mem_singleton.mp last]
      exact Nat.lt_succ_self _

end Appending

section Changing

structure SameQueue (item other : MonitoredItem) : Prop where
  address : other.address = item.address
  queue : other.queue = item.queue
  queueSize : other.queueSize = item.queueSize
  monitoredItemType : other.monitoredItemType = item.monitoredItemType
  attributeId : other.attributeId = item.attributeId

theorem Consistent.setItem (consistent : Consistent room sub) {changed : MonitoredItem}
    (member : item ∈ sub.monitoredItems) (same : SameQueue item changed)
    (space : room ≤ changed.maxQueueSize) : Consistent room (sub.setItem changed) :=
  { consistent with
    items_nodup := by
      rw [setItem_addresses]
      exact consistent.items_nodup
    items_old := by
      intro other present
      rcases mem_setItem present with rfl | ⟨present, -⟩
      · rw [same.address]
        exact consistent.items_old item member
      · exact consistent.items_old other present
    held := by
      intro n queued
      obtain ⟨holder, old, data, stored, fits⟩ := consistent.held n queued
      refine ⟨_, setItem_mem changed old, data, ?_⟩
      by_cases address : holder.address = changed.address
      · have is := consistent.address_unique member old (address.trans same.address)
        subst is
        rw [if_pos address, same.address, same.monitoredItemType]
        exact ⟨stored, fits⟩
      · rw [if_neg address]
        exact ⟨stored, fits⟩
    parts := by
      intro other present
      rcases mem_setItem present with rfl | ⟨present, -⟩
      · rw [same.queue, same.address]
        exact consistent.parts item member
      · exact consistent.parts other present
    sizes := by
      intro other present
      rcases mem_setItem present with rfl | ⟨present, -⟩
      · rw [same.queue, same.queueSize]
        exact consistent.sizes item member
      · exact consistent.sizes other present
    typed := by
      intro other present
      rcases mem_setItem present with rfl | ⟨present, -⟩
      · rw [same.monitoredItemType, same.attributeId]
        exact consistent.typed item member
      · exact consistent.typed other present
    roomy := by
      intro other present
      rcases mem_setItem present with rfl | ⟨present, -⟩
      · exact space
      · exact consistent.roomy other present }

theorem Recorded.setItem {moving : Nat → List Nat} (recorded : Recorded sub moving)
    (changed : MonitoredItem) : Recorded (sub.setItem changed) moving :=
  { recorded with }

variable {n mon : Nat} {data changed : NotificationData Content}

section

variable (stored : sub.memory n = some ⟨mon, data⟩)
include stored

theorem owner_store (other : Nat) :
    (sub.store n (some ⟨mon, changed⟩)).owner other = sub.owner other := by
  rw [owner, owner, store]
  by_cases same : other = n
  · subst same
    simp [stored]
  · simp [same]

theorem carries_store (fits : ∀ type, changed.fits type = data.fits type) (type : MonitoredItemType)
    (other : Nat) :
    (sub.store n (some ⟨mon, changed⟩)).carries type other = sub.carries type other := by
  rw [carries, carries, store]
  by_cases same : other = n
  · subst same
    simp [stored, fits]
  · simp [same]

theorem part_store : (sub.store n (some ⟨mon, changed⟩)).part = sub.part := by
  funext other
  apply filter_congr
  intro entry _
  rw [owner_store stored]

end

theorem Consistent.store (consistent : Consistent room sub) (stored : sub.memory n = some ⟨mon, data⟩)
    (fits : ∀ type, changed.fits type = data.fits type) :
    Consistent room (sub.store n (some ⟨mon, changed⟩)) :=
  { consistent with
    held := by
      intro other queued
      obtain ⟨item, member, held, holds, typed⟩ := consistent.held other queued
      by_cases same : other = n
      · subst same
        rw [stored] at holds
        injection holds with holds
        injection holds with address holds
        subst address holds
        exact ⟨item, member, changed, if_pos rfl, (fits _).trans typed⟩
      · exact ⟨item, member, held, (if_neg same).trans holds, typed⟩
    parts := by
      intro item member
      rw [part_store stored]
      exact consistent.parts item member
    counted := by
      intro type
      rw [funext (carries_store stored fits type)]
      exact consistent.counted type }

theorem Recorded.store {moving : Nat → List Nat} (recorded : Recorded sub moving)
    (stored : sub.memory n = some ⟨mon, data⟩) :
    Recorded (sub.store n (some ⟨mon, changed⟩)) moving where
  balanced := by
    have same : (sub.store n (some ⟨mon, changed⟩)).ledger moving = sub.ledger moving := by
      rw [ledger, part_store stored]
      rfl
    rw [same]
    exact recorded.balanced
  old := recorded.old

end Changing

section Membership

section

variable (consistent : Consistent room sub)
include consistent

theorem part_eq_nil {mon : Nat} (absent : ∀ item ∈ sub.monitoredItems, item.address ≠ mon) :
    sub.part mon = [] := by
  rw [part, filter_eq_nil_iff]
  intro n queued belongs
  obtain ⟨item, member, owned⟩ := consistent.owner_eq queued
  rw [owned, decide_eq_true_eq, Option.some.injEq] at belongs
  exact absent item member belongs

theorem Consistent.addItem (address : item.address = sub.unusedItem) (queue : item.queue = [])
    (queueSize : item.queueSize = 0)
    (typed : item.monitoredItemType = if item.attributeId =
      attributeIdEventNotifier then .eventNotify else .changeNotify)
    (space : room ≤ item.maxQueueSize) :
    Consistent room { sub with
      monitoredItems := item :: sub.monitoredItems, unusedItem := sub.unusedItem + 1 } := by
  have fresh : ∀ other ∈ sub.monitoredItems, other.address ≠ item.address := by
    intro other member
    rw [address]
    exact Nat.ne_of_lt (consistent.items_old other member)
  exact { consistent with
    items_nodup := by
      refine nodup_cons.mpr ⟨?_, consistent.items_nodup⟩
      intro member
      obtain ⟨other, present, same⟩ := mem_map.mp member
      exact fresh other present same
    items_old := by
      intro other member
      rcases mem_cons.mp member with rfl | present
      · rw [address]
        exact Nat.lt_succ_self _
      · exact Nat.lt_succ_of_lt (consistent.items_old other present)
    held := by
      intro n queued
      obtain ⟨holder, member, rest⟩ := consistent.held n queued
      exact ⟨holder, mem_cons_of_mem _ member, rest⟩
    parts := by
      intro other member
      rcases mem_cons.mp member with rfl | present
      · rw [queue]
        exact (part_eq_nil consistent fresh).symm
      · exact consistent.parts other present
    sizes := by
      intro other member
      rcases mem_cons.mp member with rfl | present
      · rw [queue, queueSize]
        rfl
      · exact consistent.sizes other present
    typed := by
      intro other member
      rcases mem_cons.mp member with rfl | present
      · exact typed
      · exact consistent.typed other present
    roomy := by
      intro other member
      rcases mem_cons.mp member with rfl | present
      · exact space
      · exact consistent.roomy other present }

theorem Consistent.removeItem {mon : Nat} (empty : sub.part mon = []) : Consistent room { sub with
      monitoredItems := sub.monitoredItems.filter (·.address ≠ mon) } :=
  { consistent with
    items_nodup := consistent.items_nodup.sublist (filter_sublist.map _)
    items_old := fun item member => consistent.items_old item (mem_of_mem_filter member)
    held := by
      intro n queued
      obtain ⟨item, member, data, stored, fits⟩ := consistent.held n queued
      refine ⟨item, mem_filter.mpr ⟨member, ?_⟩, data, stored, fits⟩
      rw [decide_eq_true_eq]
      intro same
      have belongs : n ∈ sub.part mon := by
        refine mem_filter.mpr ⟨queued, ?_⟩
        simp [owner, stored, same]
      rw [empty] at belongs
      cases belongs
    parts := fun item member => consistent.parts item (mem_of_mem_filter member)
    sizes := fun item member => consistent.sizes item (mem_of_mem_filter member)
    typed := fun item member => consistent.typed item (mem_of_mem_filter member)
    roomy := fun item member => consistent.roomy item (mem_of_mem_filter member) }

end

end Membership

end Subscription

end OpcUa
