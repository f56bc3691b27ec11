import OpcUa.NotificationRouting

/-!
Whether the client gives each notification of a publish response to the callback for its item. The
client looks for the client handle that stands in a data change among its handles, and for the one
in an event among its ids.
-/

namespace OpcUa

variable {Content : Type} {config : SubscriptionConfig}

open Subscription List

variable {sub after : Subscription Content} {client : Client} {clientSub : ClientSubscription}
variable {items : List ClientMonitoredItem} {subscriptionId : BitVec 32} {mon : Nat}
  {client' : Client} {reached : Bool}

structure RoutingState (Content : Type) where
  client : Client
  sub : Subscription Content

inductive ServerMove : Subscription Content → Subscription Content → Prop
  | sample {sub after : Subscription Content} {mon : Nat} {sample : Sample Content}
      (samples : sub.sampleCallback mon sample = some after) : ServerMove sub after
  | event {sub after : Subscription Content} {mon : Nat} {memory : Bool} {status : StatusCode}
      {filtered : Except StatusCode (List Content)}
      (adds : sub.addEventToMonitoredItem mon filtered memory = some (status, after)) :
      ServerMove sub after
  | mode {sub after : Subscription Content} {mode : MonitoringMode} {monitoredItemId : BitVec 32}
      {status : StatusCode}
      (sets : sub.setMonitoringMode mode monitoredItemId = some (status, after)) :
      ServerMove sub after
  | message {sub after : Subscription Content} {notifications : Nat}
      {message : NotificationMessage Content}
      (prepares : sub.prepareNotificationMessage notifications = some (message, after)) :
      ServerMove sub after
  | settings {sub after : Subscription Content} (items : after.monitoredItems = sub.monitoredItems)
      (unusedItem : after.unusedItem = sub.unusedItem)
      (subscriptionId : after.subscriptionId = sub.subscriptionId) : ServerMove sub after

inductive RoutingStep (config : SubscriptionConfig) :
    RoutingState Content → RoutingState Content → Prop
  | create {client client' : Client} {sub after : Subscription Content} {reached : Bool}
      {items : List (ItemToCreate Content)}
      (creates : monitoredItemsCreate config client sub reached items = some (client', after)) :
      RoutingStep config ⟨client, sub⟩ ⟨client', after⟩
  | delete {client client' : Client} {sub after : Subscription Content} {reached : Bool}
      {ids : List (BitVec 32)}
      (deletes : monitoredItemsDelete client sub reached ids = some (client', after)) :
      RoutingStep config ⟨client, sub⟩ ⟨client', after⟩
  | server {client : Client} {sub after : Subscription Content} (moves : ServerMove sub after) :
      RoutingStep config ⟨client, sub⟩ ⟨client, after⟩
  | elsewhere {client client' : Client} {sub : Subscription Content}
      (same : client'.findSubscription sub.subscriptionId =
        client.findSubscription sub.subscriptionId) :
      RoutingStep config ⟨client, sub⟩ ⟨client', sub⟩

inductive RoutingRun (config : SubscriptionConfig) : RoutingState Content → Prop
  | start {client : Client} {sub : Subscription Content} {statusChangeCallback : Bool}
      (found : client.findSubscription sub.subscriptionId =
        some ⟨sub.subscriptionId, statusChangeCallback, []⟩)
      (items : sub.monitoredItems = []) : RoutingRun config ⟨client, sub⟩
  | step {state after : RoutingState Content} (run : RoutingRun config state)
      (step : RoutingStep config state after) : RoutingRun config after

structure ItemsAgree (items : List ClientMonitoredItem) (sub : Subscription Content) : Prop where
  routes : items.map ClientMonitoredItem.route = sub.routes
  distinct : sub.Distinct
  old : sub.Old

structure KeepsNumbers (sub after : Subscription Content) : Prop where
  routes : ∀ route ∈ after.routes, route.1 < sub.unusedItem → route ∈ sub.routes
  unusedItem : sub.unusedItem ≤ after.unusedItem
  subscriptionId : after.subscriptionId = sub.subscriptionId

def StateAgrees (state : RoutingState Content) : Prop :=
  ∃ clientSub, state.client.findSubscription state.sub.subscriptionId = some clientSub ∧
    ItemsAgree clientSub.monitoredItems state.sub

theorem ItemsAgree.same (agree : ItemsAgree items sub) (same : SameRoutes sub after)
    : ItemsAgree items after where
  routes := agree.routes.trans same.routes.symm
  distinct := same.distinct agree.distinct
  old := by
    rw [Old, same.routes, same.unusedItem]
    exact agree.old

theorem KeepsNumbers.trans {middle : Subscription Content} (first : KeepsNumbers sub middle)
    (second : KeepsNumbers middle after) :
    KeepsNumbers sub after where
  routes := by
    intro route listed before
    exact first.routes route (second.routes route listed
      (Nat.lt_of_lt_of_le before first.unusedItem)) before
  unusedItem := Nat.le_trans first.unusedItem second.unusedItem
  subscriptionId := second.subscriptionId.trans first.subscriptionId

theorem KeepsNumbers.of_same (same : SameRoutes sub after) : KeepsNumbers sub after where
  routes := by
    intro route listed _
    exact same.routes ▸ listed
  unusedItem := Nat.le_of_eq same.unusedItem.symm
  subscriptionId := same.subscriptionId

theorem ServerMove.sameSettings (moves : ServerMove sub after) (distinct : sub.DistinctItems) :
    SameSettings sub after := by
  cases moves with
  | sample samples => exact sampleCallback_sameSettings distinct samples
  | event adds => exact addEventToMonitoredItem_sameSettings distinct adds
  | mode sets => exact setMonitoringMode_sameSettings distinct sets
  | message prepares => exact (prepareNotificationMessage_stamped distinct prepares).1
  | settings items unusedItem subscriptionId =>
    refine ⟨?_, unusedItem, subscriptionId⟩
    rw [items]

section

variable (found : client.findSubscription subscriptionId = some clientSub)
include found

theorem findSubscription_id : clientSub.subscriptionId = subscriptionId := by
  have matched := find?_some found
  exact of_decide_eq_true matched

theorem setItems_findSubscription (items : List ClientMonitoredItem) :
    (client.setItems clientSub.subscriptionId items).findSubscription subscriptionId =
      some { clientSub with monitoredItems := items } := by
  have id := findSubscription_id found
  rw [show client.setItems clientSub.subscriptionId items = client.setItems subscriptionId items by
    rw [id]]
  rw [Client.findSubscription] at found ⊢
  rw [Client.setItems]
  generalize client.subscriptions = subscriptions at found
  induction subscriptions with
  | nil => cases found
  | cons first rest ih =>
    rw [find?_cons] at found
    rw [map_cons, find?_cons]
    by_cases here : first.subscriptionId = subscriptionId
    · rw [decide_eq_true here] at found
      injection found with found
      rw [if_pos here, decide_eq_true here, found]
    · rw [decide_eq_false here] at found
      rw [if_neg here, decide_eq_false here]
      exact ih found

end

theorem createAddressed_agrees {item : ItemToCreate Content} {result : MonitoredItemCreateResult}
    (agree : ItemsAgree items sub)
    (creates : createAddressed config sub item.request = some ((result, mon), after)) :
    ItemsAgree (if result.statusCode = .good then newClientItem item result mon :: items else items)
      after ∧ KeepsNumbers sub after := by
  obtain ⟨⟨made, final⟩, creates, same⟩ := Option.bind_eq_some_iff.mp creates
  cases same
  cases createMonitoredItem_routes agree.distinct agree.old creates with
  | refused bad routes unusedItem subscriptionId =>
    rw [if_neg bad]
    refine ⟨⟨agree.routes.trans routes.symm, ?_, ?_⟩, ?_, unusedItem, subscriptionId⟩
    · rw [Distinct, routes]
      exact agree.distinct
    · intro route listed
      rw [routes] at listed
      exact Nat.lt_of_lt_of_le (agree.old route listed) unusedItem
    · intro route listed _
      exact routes ▸ listed
  | added good routes unusedItem subscriptionId =>
    rw [if_pos good]
    refine ⟨⟨?_, ?_, ?_⟩, ?_, by omega, subscriptionId⟩
    · rw [map_cons, agree.routes, routes]
      rfl
    · rw [Distinct, routes, map_cons, nodup_cons]
      refine ⟨?_, agree.distinct⟩
      intro member
      obtain ⟨route, listed, same⟩ := mem_map.mp member
      have less := agree.old route listed
      dsimp only at same
      omega
    · intro route listed
      rw [routes] at listed
      rw [unusedItem]
      rcases mem_cons.mp listed with rfl | before
      · exact Nat.lt_succ_self _
      · exact Nat.lt_succ_of_lt (agree.old route before)
    · intro route listed older
      rw [routes] at listed
      rcases mem_cons.mp listed with rfl | before
      · exact absurd older (Nat.lt_irrefl _)
      · exact before

theorem performCreate_agrees : ∀ {itemsToCreate : List (ItemToCreate Content)}
    {results : List (MonitoredItemCreateResult × Nat)} {items : List ClientMonitoredItem}
    {sub after : Subscription Content}, ItemsAgree items sub →
      performOperations (createAddressed config) sub (itemsToCreate.map ItemToCreate.request) =
          some (results, after) →
        ItemsAgree (addInternally itemsToCreate results items) after ∧ KeepsNumbers sub after := by
  intro itemsToCreate
  induction itemsToCreate with
  | nil =>
    intro results items sub after agree performs
    cases performs
    exact ⟨agree, .of_same (.refl sub)⟩
  | cons item rest ih =>
    intro results items sub after agree performs
    obtain ⟨⟨⟨result, mon⟩, middle⟩, creates, performs⟩ := Option.bind_eq_some_iff.mp performs
    obtain ⟨⟨others, final⟩, performs, same⟩ := Option.bind_eq_some_iff.mp performs
    cases same
    obtain ⟨added, kept⟩ := createAddressed_agrees agree creates
    obtain ⟨all, keeps⟩ := ih added performs
    exact ⟨all, kept.trans keeps⟩

theorem performDelete_agrees : ∀ {ids : List (BitVec 32)} {results : List StatusCode}
    {items : List ClientMonitoredItem} {sub after : Subscription Content}, ItemsAgree items sub →
      performOperations Subscription.deleteMonitoredItem sub ids = some (results, after) →
        ItemsAgree (deleteInternally ids results items) after ∧ KeepsNumbers sub after := by
  intro ids
  induction ids with
  | nil =>
    intro results items sub after agree performs
    cases performs
    exact ⟨agree, .of_same (.refl sub)⟩
  | cons monitoredItemId rest ih =>
    intro results items sub after agree performs
    obtain ⟨⟨result, middle⟩, deletes, performs⟩ := Option.bind_eq_some_iff.mp performs
    obtain ⟨⟨others, final⟩, performs, same⟩ := Option.bind_eq_some_iff.mp performs
    cases same
    obtain ⟨statuses, routes, unusedItem, id⟩ := deleteMonitoredItem_erases agree.distinct deletes
    have reported : ¬ (result ≠ .good ∧ result ≠ .badMonitoredItemIdInvalid) := by
      rintro ⟨bad, other⟩
      rcases statuses with good | invalid
      · exact bad good
      · exact other invalid
    have erased : ItemsAgree (items.eraseP (·.monitoredItemId = monitoredItemId)) middle := by
      refine ⟨?_, ?_, ?_⟩
      · rw [routes, ← agree.routes, eraseP_map]
        rfl
      · rw [Distinct, routes]
        exact agree.distinct.sublist ((eraseP_sublist).map _)
      · intro route listed
        rw [routes] at listed
        rw [unusedItem]
        exact agree.old route (mem_of_mem_eraseP listed)
    rw [deleteInternally, if_neg reported]
    have kept : KeepsNumbers sub middle := by
      refine ⟨?_, Nat.le_of_eq unusedItem.symm, id⟩
      intro route listed _
      rw [routes] at listed
      exact mem_of_mem_eraseP listed
    obtain ⟨all, keeps⟩ := ih erased performs
    exact ⟨all, kept.trans keeps⟩

theorem create_agrees {items : List (ItemToCreate Content)} (agrees : StateAgrees ⟨client, sub⟩)
    (creates : monitoredItemsCreate config client sub reached items = some (client', after)) :
    StateAgrees ⟨client', after⟩ ∧ KeepsNumbers sub after := by
  obtain ⟨clientSub, found, agree⟩ := agrees
  rw [monitoredItemsCreate, found] at creates
  cases reached with
  | false =>
    cases creates
    exact ⟨⟨clientSub, found, agree⟩, .of_same (.refl sub)⟩
  | true =>
    obtain ⟨⟨results, final⟩, performs, same⟩ := Option.bind_eq_some_iff.mp creates
    cases same
    obtain ⟨all, kept⟩ := performCreate_agrees agree performs
    refine ⟨⟨{ clientSub with monitoredItems := _ }, ?_, all⟩, kept⟩
    rw [kept.subscriptionId]
    exact setItems_findSubscription found _

theorem delete_agrees {ids : List (BitVec 32)} (agrees : StateAgrees ⟨client, sub⟩)
    (deletes : monitoredItemsDelete client sub reached ids = some (client', after)) :
    StateAgrees ⟨client', after⟩ ∧ KeepsNumbers sub after := by
  obtain ⟨clientSub, found, agree⟩ := agrees
  cases reached with
  | false =>
    cases deletes
    exact ⟨⟨clientSub, found, agree⟩, .of_same (.refl sub)⟩
  | true =>
    obtain ⟨⟨results, final⟩, performs, same⟩ := Option.bind_eq_some_iff.mp deletes
    rw [found] at same
    cases same
    obtain ⟨all, kept⟩ := performDelete_agrees agree performs
    refine ⟨⟨{ clientSub with monitoredItems := _ }, ?_, all⟩, kept⟩
    rw [kept.subscriptionId]
    exact setItems_findSubscription found _

variable {state : RoutingState Content}

theorem RoutingStep.agrees {after : RoutingState Content} (step : RoutingStep config state after)
    (agrees : StateAgrees state) : StateAgrees after ∧ KeepsNumbers state.sub after.sub := by
  cases step with
  | create creates => exact create_agrees agrees creates
  | delete deletes => exact delete_agrees agrees deletes
  | server moves =>
    obtain ⟨clientSub, found, agree⟩ := agrees
    have same := (moves.sameSettings (distinct_iff.mp agree.distinct)).sameRoutes
    refine ⟨⟨clientSub, ?_, agree.same same⟩, .of_same same⟩
    exact same.subscriptionId ▸ found
  | elsewhere same =>
    obtain ⟨clientSub, found, agree⟩ := agrees
    exact ⟨⟨clientSub, same.trans found, agree⟩, .of_same (.refl _)⟩

theorem RoutingRun.agrees (run : RoutingRun config state) : StateAgrees state := by
  induction run with
  | @start client sub callback found items =>
    have none : sub.routes = [] := by rw [routes, items, map_nil]
    refine ⟨_, found, none.symm, ?_, ?_⟩
    · rw [Distinct, none]
      exact nodup_nil
    · intro route listed
      rw [none] at listed
      cases listed
  | step _ step ih => exact (step.agrees ih).1

inductive RoutingSteps (config : SubscriptionConfig) (state : RoutingState Content) :
    RoutingState Content → Prop
  | refl : RoutingSteps config state state
  | step {middle after : RoutingState Content} (steps : RoutingSteps config state middle)
      (step : RoutingStep config middle after) : RoutingSteps config state after

theorem RoutingSteps.agrees {later : RoutingState Content} (steps : RoutingSteps config state later)
    (agrees : StateAgrees state) : StateAgrees later ∧ KeepsNumbers state.sub later.sub := by
  induction steps with
  | refl => exact ⟨agrees, .of_same (.refl _)⟩
  | step _ step ih =>
    obtain ⟨again, keeps⟩ := step.agrees ih.1
    exact ⟨again, ih.2.trans keeps⟩

namespace ClientSubscription

/-- Each notification leads to a call for the item that it is for, or to none if the client does
not have the item any more. -/
structure Routes (clientSub : ClientSubscription) (message : NotificationMessage Content) : Prop where
  dataChanges : ∀ entry ∈ message.dataChangeNotification.getD [],
    clientSub.processDataChange entry =
      (clientSub.registered entry.mon).map (.dataChange · entry.value)
  events : ∀ entry ∈ message.eventNotificationList.getD [], clientSub.processEvent entry =
      (clientSub.registered entry.mon).map (.event · entry.eventFields)

section

variable (clientSub : ClientSubscription) (mon : Nat)

def newer : List ClientMonitoredItem :=
  clientSub.monitoredItems.takeWhile (·.mon ≠ mon)

def LeadsDataChange (clientHandle : BitVec 32) : Prop :=
  match clientSub.registered mon with
  | some _ => ∀ other ∈ clientSub.newer mon, other.clientHandle ≠ clientHandle
  | none => ∀ other ∈ clientSub.monitoredItems.find? (·.clientHandle = clientHandle),
      other.isEventMonitoredItem = true

def LeadsEvent (clientHandle : BitVec 32) : Prop :=
  match clientSub.registered mon with
  | some item => item.monitoredItemId = clientHandle ∧
      ∀ other ∈ clientSub.newer mon, other.monitoredItemId ≠ clientHandle
  | none => ∀ other ∈ clientSub.monitoredItems.find? (·.monitoredItemId = clientHandle),
      other.isEventMonitoredItem = false

end

section

variable (distinct : (clientSub.monitoredItems.map ClientMonitoredItem.mon).Nodup)
include distinct

theorem find_registered {mon : Nat} {item : ClientMonitoredItem}
    (found : clientSub.registered mon = some item) (key : ClientMonitoredItem → Bool) :
    clientSub.monitoredItems.find? key = some item ↔
      key item = true ∧ ∀ other ∈ clientSub.newer mon, key other = false := by
  rw [registered] at found
  rw [newer]
  generalize clientSub.monitoredItems = items at distinct found
  induction items with
  | nil => cases found
  | cons first rest ih =>
    rw [map_cons, nodup_cons] at distinct
    rw [find?_cons] at found ⊢
    by_cases here : first.mon = mon
    · rw [decide_eq_true here] at found
      injection found with found
      subst found
      rw [takeWhile_cons_of_neg (by simpa using here)]
      cases keyed : key first with
      | true => exact iff_of_true rfl ⟨rfl, nofun⟩
      | false =>
        refine iff_of_false ?_ (fun leads => absurd leads.1 Bool.false_ne_true)
        intro later
        exact distinct.1 (mem_map_of_mem (mem_of_find?_eq_some later))
    · rw [decide_eq_false here] at found
      rw [takeWhile_cons_of_pos (by simpa using here)]
      cases keyed : key first with
      | true =>
        refine iff_of_false ?_ ?_
        · rintro ⟨⟩
          exact distinct.1 (mem_map_of_mem (mem_of_find?_eq_some found))
        · rintro ⟨-, others⟩
          have apart := others first mem_cons_self
          rw [keyed] at apart
          cases apart
      | false =>
        dsimp only
        rw [ih distinct.2 found, forall_mem_cons]
        exact ⟨fun leads => ⟨leads.1, keyed, leads.2⟩, fun leads => ⟨leads.1, leads.2.2⟩⟩

theorem processDataChange_iff {entry : MonitoredItemNotification Content}
    (stamped : ∀ item, clientSub.registered entry.mon = some item → item.clientHandle =
      entry.clientHandle ∧ item.isEventMonitoredItem = false) :
    clientSub.processDataChange entry =
        (clientSub.registered entry.mon).map (.dataChange · entry.value) ↔
      clientSub.LeadsDataChange entry.mon entry.clientHandle := by
  rw [processDataChange, LeadsDataChange]
  cases own : clientSub.registered entry.mon with
  | none =>
    cases found : clientSub.monitoredItems.find? (·.clientHandle = entry.clientHandle) with
    | none => exact iff_of_true rfl nofun
    | some other => cases kind : other.isEventMonitoredItem <;> simp [kind]
  | some item =>
    obtain ⟨handle, kind⟩ := stamped item own
    have leads := find_registered distinct own fun other => other.clientHandle = entry.clientHandle
    simp only [handle, decide_true, true_and, decide_eq_false_iff_not] at leads
    rw [← leads]
    cases found : clientSub.monitoredItems.find? (·.clientHandle = entry.clientHandle) with
    | none => simp
    | some other =>
      dsimp only [Option.map_some]
      constructor
      · intro called
        split at called
        · cases called
        · injection called with called
          injection called with same
          rw [same]
      · intro same
        injection same with same
        rw [same, kind]
        rfl

theorem processEvent_iff {entry : EventFieldList Content}
    (stamped : ∀ item, clientSub.registered entry.mon = some item → item.isEventMonitoredItem =
      true) :
    clientSub.processEvent entry =
        (clientSub.registered entry.mon).map (.event · entry.eventFields) ↔
      clientSub.LeadsEvent entry.mon entry.clientHandle := by
  rw [processEvent, LeadsEvent]
  cases own : clientSub.registered entry.mon with
  | none =>
    cases found : clientSub.monitoredItems.find? (·.monitoredItemId = entry.clientHandle) with
    | none => exact iff_of_true rfl nofun
    | some other => cases kind : other.isEventMonitoredItem <;> simp [kind]
  | some item =>
    have kind := stamped item own
    have leads := find_registered distinct own
      fun other => other.monitoredItemId = entry.clientHandle
    simp only [decide_eq_true_iff, decide_eq_false_iff_not] at leads
    dsimp only
    rw [← leads]
    cases found : clientSub.monitoredItems.find? (·.monitoredItemId = entry.clientHandle) with
    | none => simp
    | some other =>
      dsimp only [Option.map_some]
      constructor
      · intro called
        split at called
        · cases called
        · injection called with called
          injection called with same
          rw [same]
      · intro same
        injection same with same
        rw [same, kind]
        rfl

end

end ClientSubscription

theorem registered_stamped {later : Subscription Content} {clientHandle monitoredItemId : BitVec 32}
    {event : Bool} {item : ClientMonitoredItem} (distinct : sub.Distinct) (old : sub.Old)
    (agree : ItemsAgree clientSub.monitoredItems later) (keeps : KeepsNumbers sub later)
    (stamped : (mon, clientHandle, monitoredItemId, event) ∈ sub.routes)
    (own : clientSub.registered mon = some item) :
    item.clientHandle = clientHandle ∧ item.isEventMonitoredItem = event := by
  have address : item.mon = mon := by
    have matched := find?_some own
    exact of_decide_eq_true matched
  have listed : item.route ∈ later.routes := by
    rw [← agree.routes]
    exact mem_map_of_mem (mem_of_find?_eq_some own)
  have before : item.route.1 < sub.unusedItem := by
    have less : mon < sub.unusedItem := old _ stamped
    rw [← address] at less
    exact less
  have same := inj_on_of_nodup_map distinct (keeps.routes _ listed before) stamped address
  exact ⟨congrArg (·.2.1) same, congrArg (·.2.2.2) same⟩

/-- For every message that the server prepares and that arrives at the client at any time later:
each notification goes to the callback of its item if and only if the handle leads the client
there. -/
theorem notifications_routed {state later : RoutingState Content} {clientSub : ClientSubscription}
    {notifications : Nat} {message : NotificationMessage Content} {after : Subscription Content}
    {response : PublishResponse Content} (run : RoutingRun config state)
    (prepares : state.sub.prepareNotificationMessage notifications = some (message, after))
    (steps : RoutingSteps config ⟨state.client, after⟩ later)
    (found : later.client.findSubscription later.sub.subscriptionId = some clientSub)
    (answer : response.serviceResult = .good ∧ response.subscriptionId = later.sub.subscriptionId ∧
      response.notificationMessage =
        { message with sequenceNumber := response.notificationMessage.sequenceNumber }) :
    processPublishResponse later.client response =
        clientSub.processNotificationMessage response.notificationMessage ∧
      (clientSub.Routes response.notificationMessage ↔
        (∀ entry ∈ message.dataChangeNotification.getD [],
            clientSub.LeadsDataChange entry.mon entry.clientHandle) ∧
          ∀ entry ∈ message.eventNotificationList.getD [],
            clientSub.LeadsEvent entry.mon entry.clientHandle) := by
  obtain ⟨served, subscriptionId, same⟩ := answer
  obtain ⟨_, found', agree⟩ := run.agrees
  obtain ⟨settings, stamped⟩ := prepareNotificationMessage_stamped
    (distinct_iff.mp agree.distinct) prepares
  have same' := settings.sameRoutes
  have start : StateAgrees ⟨state.client, after⟩ :=
    ⟨_, same'.subscriptionId ▸ found', agree.same same'⟩
  obtain ⟨⟨clientSub', found'', again⟩, keeps⟩ := steps.agrees start
  obtain rfl : clientSub' = clientSub := Option.some.inj (found''.symm.trans found)
  have kept : KeepsNumbers state.sub later.sub := (KeepsNumbers.of_same same').trans keeps
  have distinct : (clientSub'.monitoredItems.map ClientMonitoredItem.mon).Nodup := by
    have routes := again.distinct
    rw [Distinct, ← again.routes, map_map] at routes
    exact routes
  refine ⟨?_, ?_⟩
  · rw [processPublishResponse, if_neg (not_not.mpr served), subscriptionId, found]
  rw [same]
  constructor
  · rintro ⟨dataChanges, events⟩
    refine ⟨?_, ?_⟩
    · intro entry member
      obtain ⟨_, listed⟩ := stamped.values entry member
      refine (ClientSubscription.processDataChange_iff distinct ?_).mp (dataChanges entry member)
      exact fun _ => registered_stamped agree.distinct agree.old again kept listed
    · intro entry member
      obtain ⟨_, listed⟩ := stamped.events entry member
      refine (ClientSubscription.processEvent_iff distinct ?_).mp (events entry member)
      exact fun _ own => (registered_stamped agree.distinct agree.old again kept listed own).2
  · rintro ⟨dataChanges, events⟩
    refine ⟨?_, ?_⟩
    · intro entry member
      obtain ⟨_, listed⟩ := stamped.values entry member
      refine (ClientSubscription.processDataChange_iff distinct ?_).mpr (dataChanges entry member)
      exact fun _ => registered_stamped agree.distinct agree.old again kept listed
    · intro entry member
      obtain ⟨_, listed⟩ := stamped.events entry member
      refine (ClientSubscription.processEvent_iff distinct ?_).mpr (events entry member)
      exact fun _ own => (registered_stamped agree.distinct agree.old again kept listed own).2

/-! An event item with the handle 2 and the id 1, and one with the handle 3 and the id 2 -/

def eventItem (handler : Nat) : ItemToCreate Nat where
  request := ⟨attributeIdEventNotifier, .unnamed, .reporting, ⟨0, .eventFilter ⟨1⟩, 10, true⟩,
    ⟨0, none, false, .good⟩, true, .good, ⟨⟨0, none, false, .good⟩, false, false⟩⟩
  handler := handler

def emptySubscription (handles : BitVec 32) : RoutingState Nat :=
  ⟨⟨handles, [⟨1, false, []⟩]⟩, Subscription.new 0 1⟩

def eventState (handles : BitVec 32) : Option (RoutingState Nat) := do
  let (client, sub) ← monitoredItemsCreate defaultConfig (emptySubscription handles).client
    (emptySubscription handles).sub true [eventItem 10, eventItem 11]
  let (_, sub) ← sub.addEventToMonitoredItem 0 (.ok [7]) true
  some ⟨client, sub⟩

theorem eventState_run {handles : BitVec 32} {state : RoutingState Nat}
    (ends : eventState handles = some state) : RoutingRun defaultConfig state := by
  have found : (emptySubscription handles).client.findSubscription
      (emptySubscription handles).sub.subscriptionId = some ⟨1, false, []⟩ := rfl
  have start : RoutingRun defaultConfig (emptySubscription handles) := .start found rfl
  obtain ⟨⟨client, sub⟩, creates, ends⟩ := Option.bind_eq_some_iff.mp ends
  obtain ⟨⟨status, after⟩, adds, ends⟩ := Option.bind_eq_some_iff.mp ends
  cases ends
  exact .step (.step start (.create creates)) (.server (.event adds))

def firstEvent (handles : BitVec 32) : EventFieldList Nat := ⟨handles + 1, [7], 0, 0⟩

def eventMessage (handles : BitVec 32) : NotificationMessage Nat :=
  ⟨0, none, false, some [firstEvent handles]⟩

def twoItems (handles : BitVec 32) : ClientSubscription :=
  ⟨1, false, [⟨handles + 2, 2, true, 11, 1⟩, ⟨handles + 1, 1, true, 10, 0⟩]⟩

/-- The client has created one item in another subscription: the event for the first item goes to
the callback of the second one. -/
theorem event_misrouted : ∃ state after, RoutingRun defaultConfig state ∧
    state.sub.prepareNotificationMessage 1 = some (eventMessage 1, after) ∧
    state.client.findSubscription state.sub.subscriptionId = some (twoItems 1) ∧
    (twoItems 1).registered (firstEvent 1).mon = some ⟨2, 1, true, 10, 0⟩ ∧
    (twoItems 1).processEvent (firstEvent 1) = some (.event ⟨3, 2, true, 11, 1⟩ [7]) ∧
    ¬ (twoItems 1).Routes (eventMessage 1) := by
  refine ⟨_, _, eventState_run (show eventState 1 = some _ from rfl), rfl, rfl, rfl, rfl, ?_⟩
  intro routes
  have same := routes.events (firstEvent 1) mem_cons_self
  revert same
  decide

def eventResponse (handles : BitVec 32) : PublishResponse Nat where
  channel := none
  requestId := 1
  requestHandle := 1
  serviceResult := .good
  subscriptionId := 1
  availableSequenceNumbers := []
  moreNotifications := false
  notificationMessage := eventMessage handles
  results := []

theorem firstSubscription_routed : (twoItems 0).Routes (eventResponse 0).notificationMessage := by
  have run := eventState_run (show eventState 0 = some _ from rfl)
  have routed := notifications_routed run
    (show Subscription.prepareNotificationMessage _ 1 = some (eventMessage 0, _) from rfl) .refl
    (show Client.findSubscription _ _ = some (twoItems 0) from rfl)
    (show (eventResponse 0).serviceResult = .good ∧ _ ∧ _ from ⟨rfl, rfl, rfl⟩)
  refine routed.2.mpr ⟨?_, ?_⟩
  · intro entry member
    cases member
  · intro entry member
    cases mem_singleton.mp member
    exact ⟨rfl, by decide⟩

end OpcUa
