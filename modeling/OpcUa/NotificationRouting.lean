import OpcUa.ClientSubscriptions
import OpcUa.ItemSettings

/-!
A client and a server with the same subscription: which callback of the client gets what the server
puts into a message for an item. The two number the items on their own, and every step leaves them
with the same items under the same numbers.
-/

namespace OpcUa

open List

variable {Content : Type}

abbrev ItemRoute := Nat × BitVec 32 × BitVec 32 × Bool

def MonitoredItem.route (item : MonitoredItem) : ItemRoute :=
  (item.address, item.clientHandle, item.monitoredItemId, item.monitoredItemType = .eventNotify)

def ClientMonitoredItem.route (item : ClientMonitoredItem) : ItemRoute :=
  (item.mon, item.clientHandle, item.monitoredItemId, item.isEventMonitoredItem)

namespace Subscription

variable {sub after : Subscription Content}

def routes (sub : Subscription Content) : List ItemRoute := sub.monitoredItems.map MonitoredItem.route

def Distinct (sub : Subscription Content) : Prop := (sub.routes.map Prod.fst).Nodup

structure SameRoutes (sub after : Subscription Content) : Prop where
  routes : after.routes = sub.routes
  unusedItem : after.unusedItem = sub.unusedItem
  subscriptionId : after.subscriptionId = sub.subscriptionId

theorem SameRoutes.refl (sub : Subscription Content) : SameRoutes sub sub := ⟨rfl, rfl, rfl⟩

theorem SameRoutes.distinct (same : SameRoutes sub after) (distinct : sub.Distinct)
    : after.Distinct := by
  rw [Distinct, same.routes]
  exact distinct

theorem distinct_iff : sub.Distinct ↔ sub.DistinctItems := by
  rw [Distinct, routes, map_map]
  rfl

theorem SameSettings.sameRoutes (same : SameSettings sub after) : SameRoutes sub after :=
  ⟨same.map MonitoredItem.route fun _ => rfl, same.unusedItem, same.subscriptionId⟩

section Operations

variable {sub after : Subscription Content} {mon : Nat} {item changed : MonitoredItem}
variable {notifications : Nat} {monitoredItemId : BitVec 32}

structure Stamped (sub : Subscription Content)
    (dcn : Option (List (MonitoredItemNotification Content)))
    (enl : Option (List (EventFieldList Content))) : Prop where
  values : ∀ entry ∈ dcn.getD [], ∃ monitoredItemId,
    (entry.mon, entry.clientHandle, monitoredItemId, false) ∈ sub.routes
  events : ∀ entry ∈ enl.getD [], ∃ monitoredItemId,
    (entry.mon, entry.clientHandle, monitoredItemId, true) ∈ sub.routes

theorem mem_push {Entry : Type} {entries : List Entry} {entry last : Entry}
    (member : entry ∈ (some (entries ++ [last])).getD []) : entry ∈ entries ∨ entry = last := by
  rcases mem_append.mp member with before | here
  · exact .inl before
  · exact .inr (mem_singleton.mp here)

theorem moveNotifications_stamped {arrays' : MessageArrays Content} :
    ∀ {queue : List Nat} {arrays : MessageArrays Content} {middle : Subscription Content},
      sub.DistinctItems → SameSettings sub middle → Stamped sub arrays.dcn arrays.enl →
        moveNotifications notifications queue arrays middle = some (arrays', after) →
          SameSettings sub after ∧ Stamped sub arrays'.dcn arrays'.enl := by
  intro queue
  induction queue with
  | nil =>
    intro arrays middle _ same stamped moves
    cases moves
    exact ⟨same, stamped⟩
  | cons n rest ih =>
    intro arrays middle distinct same stamped moves
    rw [moveNotifications] at moves
    split at moves
    · cases moves
      exact ⟨same, stamped⟩
    obtain ⟨notification, -, moves⟩ := Option.bind_eq_some_iff.mp moves
    obtain ⟨mon, found, moves⟩ := Option.bind_eq_some_iff.mp moves
    have here : mon.route ∈ sub.routes := by
      rw [← same.sameRoutes.routes]
      exact mem_map_of_mem (item_mem found).1
    split at moves
    · rename_i change
      split at moves
      · rename_i dcn value listed stored
        split at moves
        · cases moves
        obtain ⟨later, deletes, moves⟩ := Option.bind_eq_some_iff.mp moves
        have kept := notificationDelete_sameSettings (same.distinct distinct) deletes
        refine ih distinct (same.trans kept) ?_ moves
        refine ⟨?_, stamped.events⟩
        intro entry member
        rcases mem_push member with before | rfl
        · exact stamped.values entry (listed ▸ before)
        · refine ⟨mon.monitoredItemId, ?_⟩
          rw [MonitoredItem.route, change] at here
          exact here
      · cases moves
    · split at moves
      · obtain ⟨later, deletes, moves⟩ := Option.bind_eq_some_iff.mp moves
        have kept := notificationDelete_sameSettings (same.distinct distinct) deletes
        refine ih distinct (same.trans kept) ?_ moves
        exact ⟨stamped.values, stamped.events⟩
      · exact ih distinct same stamped moves
    · rename_i event
      split at moves
      · rename_i enl fields listed stored
        split at moves
        · cases moves
        obtain ⟨later, deletes, moves⟩ := Option.bind_eq_some_iff.mp moves
        have kept := notificationDelete_sameSettings (same.distinct distinct) deletes
        refine ih distinct (same.trans kept) ?_ moves
        refine ⟨stamped.values, ?_⟩
        intro entry member
        rcases mem_push member with before | rfl
        · exact stamped.events entry (listed ▸ before)
        · refine ⟨mon.monitoredItemId, ?_⟩
          rw [MonitoredItem.route, event] at here
          exact here
      · cases moves
      · exact ih distinct same stamped moves

theorem prepareNotificationMessage_stamped (distinct : sub.DistinctItems)
    {message : NotificationMessage Content}
    (prepares : sub.prepareNotificationMessage notifications = some (message, after)) :
    SameSettings sub after ∧
      Stamped sub message.dataChangeNotification message.eventNotificationList := by
  rw [prepareNotificationMessage] at prepares
  split at prepares
  · cases prepares
  dsimp only at prepares
  split at prepares
  · cases prepares
  obtain ⟨⟨filled, left⟩, moves, prepares⟩ := Option.bind_eq_some_iff.mp prepares
  have empty : Stamped sub (sub.allocateArrays notifications).dcn
      (sub.allocateArrays notifications).enl := by
    constructor
    · intro entry member
      rw [allocateArrays] at member
      split at member <;> cases member
    · intro entry member
      rw [allocateArrays] at member
      dsimp only at member
      split at member
      · cases member
      · split at member <;> cases member
  have moved := moveNotifications_stamped distinct (.refl sub) empty moves
  cases prepares
  exact moved

/-- What a creation leaves: the same items, or one more with the address and the id that are
next. -/
inductive Created (sub : Subscription Content) (request : MonitoredItemCreateRequest Content)
    (result : MonitoredItemCreateResult) (after : Subscription Content) : Prop
  | refused (bad : result.statusCode ≠ .good) (routes : after.routes = sub.routes)
      (unusedItem : sub.unusedItem ≤ after.unusedItem)
      (subscriptionId : after.subscriptionId = sub.subscriptionId)
  | added (good : result.statusCode = .good)
      (routes : after.routes = (sub.unusedItem, request.requestedParameters.clientHandle,
        result.monitoredItemId, decide (request.attributeId = attributeIdEventNotifier)) ::
          sub.routes)
      (unusedItem : after.unusedItem = sub.unusedItem + 1)
      (subscriptionId : after.subscriptionId = sub.subscriptionId)

def Old (sub : Subscription Content) : Prop := ∀ route ∈ sub.routes, route.1 < sub.unusedItem

theorem old_iff : sub.Old ↔ sub.OldItems := forall_mem_map

theorem createMonitoredItem_routes {config : SubscriptionConfig}
    {request : MonitoredItemCreateRequest Content} {result : MonitoredItemCreateResult}
    (distinct : sub.Distinct) (old : sub.Old)
    (creates : sub.createMonitoredItem config request = some (result, after)) :
    Created sub request result after := by
  cases createMonitoredItem_created (distinct_iff.mp distinct) (old_iff.mp old) creates with
  | refused bad items unusedItem subscriptionId =>
    refine .refused bad ?_ unusedItem subscriptionId
    rw [routes, items]
    rfl
  | @added new good sets items unusedItem subscriptionId =>
    refine .added good ?_ unusedItem subscriptionId
    obtain ⟨filter, -, form⟩ := setMonitoredItemSettings_good sets
    have mapped := congrArg (List.map MonitoredItem.route) items
    rw [map_cons, map_map, map_map] at mapped
    have kind : decide (new.monitoredItemType = .eventNotify) =
        decide (request.attributeId = attributeIdEventNotifier) := by
      rw [form]
      by_cases event : request.attributeId = attributeIdEventNotifier
      · simp only [newItem, event, if_true]
      · simp only [newItem, event, if_false, reduceCtorEq, decide_false]
    have route : MonitoredItem.route
        { new with monitoredItemId := result.monitoredItemId }.settings =
        (sub.unusedItem, request.requestedParameters.clientHandle, result.monitoredItemId,
          decide (request.attributeId = attributeIdEventNotifier)) := by
      rw [← kind, form]
      rfl
    rw [route] at mapped
    exact mapped

theorem eraseP_eq_filter {items : List MonitoredItem}
    (distinct : (items.map MonitoredItem.address).Nodup)
    (found : items.find? (·.monitoredItemId = monitoredItemId) = some item) :
    items.eraseP (·.monitoredItemId = monitoredItemId) =
      items.filter (·.address ≠ item.address) := by
  induction items with
  | nil => cases found
  | cons first rest ih =>
    rw [map_cons, nodup_cons] at distinct
    rw [find?_cons] at found
    by_cases here : first.monitoredItemId = monitoredItemId
    · rw [decide_eq_true here] at found
      injection found with found
      subst found
      have others : rest.filter (·.address ≠ first.address) = rest := by
        rw [filter_eq_self]
        intro other member
        refine decide_eq_true fun same => distinct.1 ?_
        exact same ▸ mem_map_of_mem member
      rw [eraseP_cons_of_pos (by simpa using here), filter_cons_of_neg (by simp), others]
    · rw [decide_eq_false here] at found
      have apart : first.address ≠ item.address := by
        intro same
        refine distinct.1 ?_
        rw [same]
        exact mem_map_of_mem (mem_of_find?_eq_some found)
      rw [eraseP_cons_of_neg (by simpa using here),
        filter_cons_of_pos (by simpa using apart), ih distinct.2 found]

theorem deleteMonitoredItem_erases {status : StatusCode} (distinct : sub.Distinct)
    (deletes : sub.deleteMonitoredItem monitoredItemId = some (status, after)) :
    (status = .good ∨ status = .badMonitoredItemIdInvalid) ∧
      after.routes = sub.routes.eraseP (·.2.2.1 = monitoredItemId) ∧
      after.unusedItem = sub.unusedItem ∧ after.subscriptionId = sub.subscriptionId := by
  rcases deleteMonitoredItem_cases deletes with
    ⟨found, rfl, rfl⟩ | ⟨item, middle, found, drops, rfl, rfl⟩
  · refine ⟨.inr rfl, ?_, rfl, rfl⟩
    rw [routes, eraseP_of_forall_not]
    intro route member
    obtain ⟨item, listed, rfl⟩ := mem_map.mp member
    have apart := find?_eq_none.mp found item listed
    exact apart
  · have same := (dropAll_sameSettings (distinct_iff.mp distinct) drops).sameRoutes
    refine ⟨.inl rfl, ?_, same.unusedItem, same.subscriptionId⟩
    have addresses (other : Subscription Content) :
        other.monitoredItems.map MonitoredItem.address = other.routes.map Prod.fst := by
      rw [routes, map_map]
      rfl
    have kept : (sub.monitoredItems.filter (·.address ≠ item.address)).map MonitoredItem.route =
        (middle.monitoredItems.filter (·.address ≠ item.address)).map MonitoredItem.route := by
      have pushed (items : List MonitoredItem) :
          (items.filter (·.address ≠ item.address)).map MonitoredItem.route =
            (items.map MonitoredItem.route).filter (·.1 ≠ item.address) := by
        rw [filter_map]
        rfl
      rw [pushed, pushed]
      exact congrArg _ same.routes.symm
    rw [routes, ← kept, ← eraseP_eq_filter (addresses sub ▸ distinct) found, routes, eraseP_map]
    rfl

end Operations

end Subscription

end OpcUa
