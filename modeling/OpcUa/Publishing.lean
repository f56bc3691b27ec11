import OpcUa.SubscriptionOperations

/-!
A message takes notifications from the front of the queue. Each has its place in one of the two
arrays, which are long enough, and leaves both of its queues. So what is in the message is what
was taken.
-/

namespace OpcUa

open OwnedQueue List

variable {Content : Type} {room : Nat}

namespace Subscription

def entries (dcn : Option (List (MonitoredItemNotification Content)))
    (enl : Option (List (EventFieldList Content))) : List Nat :=
  (dcn.getD []).map MonitoredItemNotification.origin ++ (enl.getD []).map EventFieldList.origin

structure Filled (room : Nat) (sub : Subscription Content) (notifications : Nat)
    (taken : List Nat) (arrays : MessageArrays Content) (after : Subscription Content) : Prop where
  consistent : Consistent room after
  recorded : Recorded after (origins arrays.dcn arrays.enl)
  bounded : Bounded after
  only : QueuesOnly sub after
  queue : sub.notificationQueue = taken ++ after.notificationQueue
  memory : ∀ n ∈ after.notificationQueue, after.memory n = sub.memory n
  addresses : after.monitoredItems.map MonitoredItem.address =
    sub.monitoredItems.map MonitoredItem.address
  total : arrays.totalNotifications = taken.length
  perm : (entries arrays.dcn arrays.enl).Perm taken
  values : ∀ entry ∈ arrays.dcn.getD [],
    sub.memory entry.origin = some ⟨entry.mon, .value entry.value⟩
  fields : ∀ entry ∈ arrays.enl.getD [],
    sub.memory entry.origin = some ⟨entry.mon, .event entry.eventFields⟩
  kinds : ∀ entry ∈ arrays.enl.getD [], ∀ item ∈ after.monitoredItems,
    item.address = entry.mon → item.monitoredItemType = .eventNotify
  changes : (arrays.dcn.getD []).length + after.counter .changeNotify = sub.counter .changeNotify
  events : (arrays.enl.getD []).length + after.counter .eventNotify = sub.counter .eventNotify
  dcnSize : arrays.dcnSize = min (sub.counter .changeNotify) notifications
  enlSize : arrays.enlSize = min (sub.counter .eventNotify) notifications
  dcn : arrays.dcn = none → sub.counter .changeNotify = 0
  enl : arrays.enl = none → sub.counter .eventNotify = 0

theorem Consistent.statuses {sub : Subscription Content} (consistent : Consistent room sub) :
    sub.statusChangeNotifications = 0 := by
  have counted := consistent.counted .statusNotify
  have none : sub.notificationQueue.countP (sub.carries .statusNotify) = 0 := by
    rw [countP_eq_zero]
    intro n _ carried
    rw [carries] at carried
    cases stored : sub.memory n with
    | none => simp [stored] at carried
    | some notification =>
      cases notification.data <;> simp [stored, NotificationData.fits] at carried
  exact counted.trans none

theorem allocateArrays_filled {sub : Subscription Content} (sound : Sound room sub)
    (notifications : Nat) :
    Filled room sub notifications [] (sub.allocateArrays notifications) sub := by
  have statuses := sound.consistent.statuses
  have dcn : (sub.allocateArrays notifications).dcn.getD [] = [] := by
    rw [allocateArrays]
    split <;> rfl
  have enl : (sub.allocateArrays notifications).enl.getD [] = [] := by
    rw [allocateArrays]
    dsimp only
    split
    · rfl
    · split <;> rfl
  refine {
    consistent := sound.consistent
    recorded := ?_
    bounded := sound.bounded
    only := rfl
    queue := rfl
    memory := fun _ _ => rfl
    addresses := rfl
    total := rfl
    perm := ?_
    values := ?_
    fields := ?_
    kinds := ?_
    changes := ?_
    events := ?_
    dcnSize := rfl
    enlSize := rfl
    dcn := ?_
    enl := ?_ }
  · have none : origins (sub.allocateArrays notifications).dcn
        (sub.allocateArrays notifications).enl = fun _ => [] := by
      funext mon
      rw [origins, dcn, enl]
      rfl
    rw [none]
    exact sound.recorded
  · rw [entries, dcn, enl]
    exact .refl _
  · rw [dcn]
    intro entry member
    cases member
  · rw [enl]
    intro entry member
    cases member
  · rw [enl]
    intro entry member
    cases member
  · rw [dcn]
    simp
  · rw [enl]
    simp
  · intro none
    rw [allocateArrays] at none
    split at none
    · cases none
    · exact Nat.eq_zero_of_not_pos ‹_›
  · intro none
    rw [allocateArrays] at none
    dsimp only at none
    rw [statuses, if_neg (Nat.lt_irrefl 0)] at none
    split at none
    · cases none
    · exact Nat.eq_zero_of_not_pos ‹_›

section Loop

variable {sub after : Subscription Content} {notifications : Nat} {taken : List Nat}
  {arrays : MessageArrays Content} {item : MonitoredItem} {n : Nat} {rest : List Nat}

theorem Consistent.first (consistent : Consistent room after)
    (first : after.notificationQueue = n :: rest) :
    ∃ item ∈ after.monitoredItems, n ∈ item.queue ∧ after.owner n = some item.address ∧
      ∃ data, after.memory n = some ⟨item.address, data⟩ ∧ data.fits item.monitoredItemType := by
  have queued : n ∈ after.notificationQueue := by
    rw [first]
    exact mem_cons_self ..
  obtain ⟨item, member, data, stored, fits⟩ := consistent.held n queued
  have belongs : after.owner n = some item.address := by
    rw [owner, stored]
    rfl
  refine ⟨item, member, ?_, belongs, data, stored, fits⟩
  rw [consistent.parts item member]
  exact mem_filter.mpr ⟨queued, decide_eq_true belongs⟩

theorem counter_pos (consistent : Consistent room after) (member : item ∈ after.monitoredItems)
    (queued : n ∈ item.queue) : 0 < after.counter item.monitoredItemType := by
  rw [consistent.counted, countP_without consistent member queued, if_pos rfl]
  exact Nat.succ_pos _

structure Advanced (room : Nat) (sub after : Subscription Content) (taken : List Nat)
    (item : MonitoredItem) (n : Nat) (rest : List Nat) : Prop where
  consistent : Consistent room (after.without item n)
  bounded : Bounded (after.without item n)
  only : QueuesOnly sub (after.without item n)
  queue : sub.notificationQueue = (taken ++ [n]) ++ (after.without item n).notificationQueue
  left : (after.without item n).notificationQueue = rest
  memory : ∀ other ∈ (after.without item n).notificationQueue,
    (after.without item n).memory other = sub.memory other
  addresses : (after.without item n).monitoredItems.map MonitoredItem.address =
    sub.monitoredItems.map MonitoredItem.address
  types : ∀ other ∈ (after.without item n).monitoredItems, ∃ old ∈ after.monitoredItems,
    old.address = other.address ∧ old.monitoredItemType = other.monitoredItemType

theorem Filled.advance (filled : Filled room sub notifications taken arrays after)
    (first : after.notificationQueue = n :: rest) (member : item ∈ after.monitoredItems)
    (queued : n ∈ item.queue) : Advanced room sub after taken item n rest := by
  have left : (after.without item n).notificationQueue = rest := by
    change after.notificationQueue.erase n = rest
    rw [first, erase_cons_head]
  refine {
    consistent := filled.consistent.without member queued
    bounded := ?_
    only := filled.only.trans rfl
    queue := ?_
    left := left
    memory := ?_
    addresses := (setItem_addresses after _).trans filled.addresses
    types := ?_ }
  · refine filled.bounded.setItem rfl ?_
    exact Nat.le_trans (Nat.sub_le _ _) (filled.bounded item member)
  · rw [left, filled.queue, first]
    simp
  · intro other present
    have later : other ∈ after.notificationQueue := mem_of_mem_erase present
    have different : other ≠ n :=
      (filled.consistent.queue_nodup.mem_erase_iff.mp present).1
    rw [← filled.memory other later]
    exact if_neg different
  · intro other present
    rcases mem_setItem present with rfl | ⟨present, -⟩
    · exact ⟨item, member, rfl, rfl⟩
    · exact ⟨other, present, rfl, rfl⟩

theorem counter_without_self (consistent : Consistent room after)
    (member : item ∈ after.monitoredItems) (queued : n ∈ item.queue) :
    (after.without item n).counter item.monitoredItemType + 1 =
      after.counter item.monitoredItemType := by
  have positive := counter_pos consistent member queued
  rw [counter_without, if_pos rfl]
  omega

theorem counter_without_of_ne {type : MonitoredItemType} (different : item.monitoredItemType ≠ type) :
    (after.without item n).counter type = after.counter type := by
  rw [counter_without, if_neg different, Nat.sub_zero]

section

variable (filled : Filled room sub notifications taken arrays after)
  (first : after.notificationQueue = n :: rest) (member : item ∈ after.monitoredItems)
  (queued : n ∈ item.queue) (belongs : after.owner n = some item.address)
include filled first member queued belongs

theorem Filled.change (type : item.monitoredItemType = .changeNotify) {value : SampledValue Content}
    (stored : after.memory n = some ⟨item.address, .value value⟩)
    {dcn : List (MonitoredItemNotification Content)} (array : arrays.dcn = some dcn) :
    Filled room sub notifications (taken ++ [n]) { arrays with
        dcn := some (dcn ++ [⟨item.clientHandle, value, item.address, n⟩])
        totalNotifications := arrays.totalNotifications + 1 } (after.without item n) := by
  have advanced := filled.advance first member queued
  have present : n ∈ after.notificationQueue := (filled.consistent.queued member queued).1
  have others : (arrays.enl.getD []).filter (·.mon = item.address) = [] := by
    rw [filter_eq_nil_iff]
    intro entry there same
    rw [decide_eq_true_eq] at same
    have event := filled.kinds entry there item member same.symm
    rw [type] at event
    cases event
  have moved : origins (some (dcn ++ [⟨item.clientHandle, value, item.address, n⟩])) arrays.enl =
      fun mon => origins arrays.dcn arrays.enl mon ++ if item.address = mon then [n] else [] := by
    funext mon
    rw [origins, origins, array]
    by_cases same : item.address = mon
    · subst same
      simp [others]
    · simp [same]
  have count := filled.changes
  rw [array, Option.getD_some] at count
  have less := counter_without_self filled.consistent member queued
  rw [type] at less
  refine { filled with
    consistent := advanced.consistent
    recorded := ?_
    bounded := advanced.bounded
    only := advanced.only
    queue := advanced.queue
    memory := advanced.memory
    addresses := advanced.addresses
    total := ?_
    perm := ?_
    values := ?_
    kinds := ?_
    changes := ?_
    events := ?_
    dcn := ?_ }
  · rw [moved]
    exact filled.recorded.move filled.consistent first belongs
  · rw [length_append, filled.total]
    rfl
  · have before := filled.perm
    rw [entries, array, Option.getD_some] at before
    rw [entries, Option.getD_some, map_append, append_assoc]
    exact ((perm_append_comm.append_left _).trans (append_assoc _ _ _ ▸ before.append_right [n]))
  · intro entry there
    rcases mem_append.mp there with old | last
    · have known := filled.values entry
      rw [array] at known
      exact known old
    · rw [mem_singleton.mp last, ← filled.memory n present]
      exact stored
  · intro entry there other listed same
    obtain ⟨old, oldListed, address, kind⟩ := advanced.types other listed
    rw [← kind]
    exact filled.kinds entry there old oldListed (address.trans same)
  · rw [Option.getD_some, length_append, length_singleton]
    omega
  · rw [counter_without_of_ne (by rw [type]; decide)]
    exact filled.events
  · intro none
    cases none

theorem Filled.event (type : item.monitoredItemType = .eventNotify) {fields : List Content}
    (stored : after.memory n = some ⟨item.address, .event fields⟩)
    {enl : List (EventFieldList Content)} (array : arrays.enl = some enl) :
    Filled room sub notifications (taken ++ [n]) { arrays with
        enl := some (enl ++ [⟨item.clientHandle, fields, item.address, n⟩])
        totalNotifications := arrays.totalNotifications + 1 } (after.without item n) := by
  have advanced := filled.advance first member queued
  have present : n ∈ after.notificationQueue := (filled.consistent.queued member queued).1
  have moved : origins arrays.dcn (some (enl ++ [⟨item.clientHandle, fields, item.address, n⟩])) =
      fun mon => origins arrays.dcn arrays.enl mon ++ if item.address = mon then [n] else [] := by
    funext mon
    rw [origins, origins, array]
    by_cases same : item.address = mon <;> simp [same]
  have count := filled.events
  rw [array, Option.getD_some] at count
  have less := counter_without_self filled.consistent member queued
  rw [type] at less
  refine { filled with
    consistent := advanced.consistent
    recorded := ?_
    bounded := advanced.bounded
    only := advanced.only
    queue := advanced.queue
    memory := advanced.memory
    addresses := advanced.addresses
    total := ?_
    perm := ?_
    fields := ?_
    kinds := ?_
    changes := ?_
    events := ?_
    enl := ?_ }
  · rw [moved]
    exact filled.recorded.move filled.consistent first belongs
  · rw [length_append, filled.total]
    rfl
  · have before := filled.perm
    rw [entries, array] at before
    rw [entries, Option.getD_some, map_append, ← append_assoc]
    exact before.append_right [n]
  · intro entry there
    rcases mem_append.mp there with old | last
    · have known := filled.fields entry
      rw [array] at known
      exact known old
    · rw [mem_singleton.mp last, ← filled.memory n present]
      exact stored
  · intro entry there other listed same
    obtain ⟨old, oldListed, address, kind⟩ := advanced.types other listed
    rw [← kind]
    rcases mem_append.mp there with known | last
    · have kinds := filled.kinds entry
      rw [array] at kinds
      exact kinds known old oldListed (address.trans same)
    · rw [mem_singleton.mp last] at same
      rw [filled.consistent.address_unique member oldListed (address.trans same)]
      exact type
  · rw [counter_without_of_ne (by rw [type]; decide)]
    exact filled.changes
  · rw [Option.getD_some, length_append, length_singleton]
    omega
  · intro none
    cases none

end

section

variable (filled : Filled room sub notifications taken arrays after)
include filled

theorem Filled.places :
    (arrays.dcn.getD []).length + (arrays.enl.getD []).length = arrays.totalNotifications := by
  have length := filled.perm.length_eq
  rw [entries, length_append, length_map, length_map] at length
  rw [length, filled.total]

theorem moveNotifications_step (first : after.notificationQueue = n :: rest)
    (more : arrays.totalNotifications < notifications) :
    ∃ next left, moveNotifications notifications (n :: rest) arrays after =
        moveNotifications notifications rest next left ∧
      Filled room sub notifications (taken ++ [n]) next left ∧ left.notificationQueue = rest := by
  obtain ⟨item, member, queued, belongs, data, stored, fits⟩ := filled.consistent.first first
  have found := filled.consistent.item_eq member
  have deletes := notificationDelete_eq filled.consistent member queued
  have left := (filled.advance first member queued).left
  have positive := counter_pos filled.consistent member queued
  have places := filled.places
  have unfinished := Nat.not_le_of_lt more
  cases type : item.monitoredItemType with
  | changeNotify =>
    rw [type] at fits positive
    cases data with
    | event fields => exact absurd fits Bool.false_ne_true
    | value value =>
      cases array : arrays.dcn with
      | none =>
        have changes := filled.changes
        have zero := filled.dcn array
        omega
      | some dcn =>
        have changes := filled.changes
        rw [array, Option.getD_some] at changes places
        have place : ¬ dcn.length ≥ arrays.dcnSize := by
          rw [filled.dcnSize]
          omega
        refine ⟨_, _, ?_, filled.change first member queued belongs type stored array, left⟩
        simp only [moveNotifications, if_neg unfinished, stored, found, type, array, if_neg place,
          deletes, Option.bind_eq_bind, Option.bind_some]
  | statusNotify =>
    rw [type] at fits
    cases data <;> exact absurd fits Bool.false_ne_true
  | eventNotify =>
    rw [type] at fits positive
    cases data with
    | value value => exact absurd fits Bool.false_ne_true
    | event fields =>
      cases array : arrays.enl with
      | none =>
        have events := filled.events
        have zero := filled.enl array
        omega
      | some enl =>
        have events := filled.events
        rw [array, Option.getD_some] at events places
        have place : ¬ enl.length ≥ arrays.enlSize := by
          rw [filled.enlSize]
          omega
        refine ⟨_, _, ?_, filled.event first member queued belongs type stored array, left⟩
        simp only [moveNotifications, if_neg unfinished, stored, found, type, array, if_neg place,
          deletes, Option.bind_eq_bind, Option.bind_some]

end

theorem moveNotifications_filled : ∀ {queue : List Nat} {taken : List Nat}
    {arrays : MessageArrays Content} {after : Subscription Content},
    Filled room sub notifications taken arrays after → after.notificationQueue = queue →
      taken.length ≤ notifications →
      ∃ taken arrays' left, moveNotifications notifications queue arrays after =
          some (arrays', left) ∧ Filled room sub notifications taken arrays' left ∧
        taken.length = min notifications sub.notificationQueue.length := by
  intro queue
  induction queue with
  | nil =>
    intro taken arrays after filled empty few
    refine ⟨taken, arrays, after, rfl, filled, ?_⟩
    rw [filled.queue, empty, append_nil]
    omega
  | cons n rest ih =>
    intro taken arrays after filled first few
    by_cases full : arrays.totalNotifications ≥ notifications
    · refine ⟨taken, arrays, after, ?_, filled, ?_⟩
      · rw [moveNotifications, if_pos full]
      · have total := filled.total
        rw [filled.queue, length_append]
        omega
    · have total := filled.total
      obtain ⟨next, left, step, advanced, queue⟩ :=
        moveNotifications_step filled first (Nat.lt_of_not_le full)
      obtain ⟨all, arrays', final, moves, done, length⟩ := ih advanced queue (by
        rw [length_append, length_singleton]
        omega)
      exact ⟨all, arrays', final, step.trans moves, done, length⟩

structure Prepared (room : Nat) (sub : Subscription Content) (notifications : Nat)
    (taken : List Nat) (message : NotificationMessage Content) (after : Subscription Content) : Prop where
  consistent : Consistent room after
  recorded : Recorded after (origins message.dataChangeNotification message.eventNotificationList)
  bounded : Bounded after
  only : QueuesOnly sub after
  queue : sub.notificationQueue = taken ++ after.notificationQueue
  memory : ∀ n ∈ after.notificationQueue, after.memory n = sub.memory n
  addresses : after.monitoredItems.map MonitoredItem.address =
    sub.monitoredItems.map MonitoredItem.address
  nonempty : taken ≠ []
  length : taken.length = min notifications sub.notificationQueue.length
  perm : (entries message.dataChangeNotification message.eventNotificationList).Perm taken
  values : ∀ entry ∈ message.dataChangeNotification.getD [],
    sub.memory entry.origin = some ⟨entry.mon, .value entry.value⟩
  fields : ∀ entry ∈ message.eventNotificationList.getD [],
    sub.memory entry.origin = some ⟨entry.mon, .event entry.eventFields⟩

theorem prepareNotificationMessage_prepared (sound : Sound room sub) (wanted : 0 < notifications)
    (available : 0 < sub.notificationQueue.length) :
    ∃ taken message after, sub.prepareNotificationMessage notifications = some (message, after) ∧
      Prepared room sub notifications taken message after := by
  obtain ⟨taken, arrays, after, moves, filled, length⟩ :=
    moveNotifications_filled (allocateArrays_filled sound notifications) rfl (Nat.zero_le _)
  have present : ¬ ((sub.allocateArrays notifications).dcn.isNone ∧
      (!(sub.allocateArrays notifications).scn) = true ∧
      (sub.allocateArrays notifications).enl.isNone) := by
    rintro ⟨noChange, -, noEvent⟩
    obtain ⟨n, rest, first⟩ := exists_cons_of_length_pos available
    obtain ⟨item, member, queued, -, data, -, fits⟩ := sound.consistent.first first
    have positive := counter_pos sound.consistent member queued
    have changes := (allocateArrays_filled sound notifications).dcn
      (Option.isNone_iff_eq_none.mp noChange)
    have events := (allocateArrays_filled sound notifications).enl
      (Option.isNone_iff_eq_none.mp noEvent)
    cases type : item.monitoredItemType with
    | changeNotify =>
      rw [type] at positive
      omega
    | eventNotify =>
      rw [type] at positive
      omega
    | statusNotify =>
      rw [type] at fits
      cases data <;> exact absurd fits Bool.false_ne_true
  refine ⟨taken, ⟨0, arrays.dcn, (sub.allocateArrays notifications).scn, arrays.enl⟩, after, ?_, ?_⟩
  · have nonzero : ¬ notifications = 0 := Nat.ne_of_gt wanted
    rw [prepareNotificationMessage, if_neg nonzero, if_neg present, moves]
    rfl
  · have nonempty : taken ≠ [] := by
      rintro rfl
      rw [length_nil] at length
      omega
    exact { filled with nonempty := nonempty, length := length }

theorem Prepared.items {message : NotificationMessage Content}
    (prepared : Prepared room sub notifications taken message after) (consistent : Consistent room sub)
    (member : item ∈ sub.monitoredItems) :
    ∃ left ∈ after.monitoredItems, left.address = item.address ∧
      item.queue = (taken.filter fun n => sub.owner n = some item.address) ++ left.queue := by
  have listed : item.address ∈ after.monitoredItems.map MonitoredItem.address := by
    rw [prepared.addresses]
    exact mem_map_of_mem member
  obtain ⟨left, present, same⟩ := mem_map.mp listed
  refine ⟨left, present, same, ?_⟩
  have rest : after.notificationQueue.filter (fun n => sub.owner n = some item.address) =
      after.part item.address := by
    apply filter_congr
    intro n queued
    rw [owner, owner, prepared.memory n queued]
  rw [consistent.parts item member, part, prepared.queue, filter_append, rest,
    prepared.consistent.parts left present, same]

end Loop

end Subscription

end OpcUa
