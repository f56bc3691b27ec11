import OpcUa.SessionChanges

/-!
Runs of a session: requests, callbacks and changes of the channel in any order. In every session
that is reached the queues of every subscription agree. No step fails if every queue of an item has
room for a notification.
-/

namespace OpcUa

open Subscription

variable {Content : Type}

namespace Session

section Services

variable {config : SubscriptionConfig} {session : Session Content} {sub : Subscription Content}

theorem createSubscription_advances (listed : Listed session) (publishingEnabled : Bool)
    (settings : SubscriptionSettings) (memory : Bool) :
    Advances config session
      (session.createSubscription config publishingEnabled settings memory).2 := by
  rw [createSubscription]
  split
  · exact .refl listed
  split
  · exact .refl listed
  · exact addSubscription_advances listed rfl (.settings rfl)

theorem lateSubscription_mem (found : session.lateSubscription = some sub) :
    sub ∈ session.serverSubscriptions := by
  rw [lateSubscription] at found
  split at found
  · rename_i late there
    injection found with found
    subst found
    have member := List.mem_of_find?_eq_some there
    split at member
    · exact List.dropWhile_sublist _ |>.mem (List.mem_of_mem_tail member)
    · cases member
  · exact List.mem_of_find?_eq_some found

theorem serveLate_advances (config : SubscriptionConfig) (intact : Intact config session)
    (memory : List Bool) :
    ∃ after, session.serveLate config memory = some after ∧ Advances config session after := by
  rw [serveLate]
  split
  · exact ⟨_, rfl, SameSubscriptions.advances ⟨rfl, rfl, rfl, rfl⟩ intact.toListed⟩
  · rename_i sub found
    have first : Advances config session
        { session with lastSeenSubscriptionId := sub.subscriptionId } :=
      SameSubscriptions.advances ⟨rfl, rfl, rfl, rfl⟩ intact.toListed
    have member := lateSubscription_mem found
    obtain ⟨after, publishes, second⟩ :=
      publish_advances config (first.intact intact) member memory
    exact ⟨after, publishes, first.trans second⟩

theorem servicePublish_advances (config : SubscriptionConfig) (intact : Intact config session)
    (request : PublishRequest) :
    ∃ after, session.servicePublish config request = some after ∧
      Advances config session after := by
  rcases servicePublish_cases intact.toListed request with
    ⟨-, after, ran, continues⟩ | ⟨waiting, -, ran, continues⟩
  · exact ⟨after, ran, continues.toAdvances⟩
  · have first := continues.toAdvances
    obtain ⟨after, serves, second⟩ :=
      serveLate_advances config (first.intact intact) request.publishMemory
    exact ⟨after, ran.trans serves, first.trans second⟩

theorem serve_advances (intact : Intact config session) (request : SessionRequest Content) :
    Yields config.queueSizeLimits.min (session.serve config request) (Advances config session) := by
  cases request with
  | createSubscription publishingEnabled settings memory =>
    exact .some (createSubscription_advances intact.toListed publishingEnabled settings memory)
  | deleteSubscriptions subscriptionIds memory =>
    exact (serviceDeleteSubscriptions_stems intact subscriptionIds memory).map
      fun _ leaves => leaves.2
  | publish request => exact .inl (servicePublish_advances config intact request)
  | _ =>
    exact (serve_updates intact id).imp
      fun _ updates => (updates.continues intact.toListed).toAdvances

theorem readied_advances (intact : Intact config session)
    (member : sub ∈ session.serverSubscriptions) :
    Advances config session
      (session.setSubscription { sub with readyNotifications := sub.notificationQueueSize }) :=
  ((readied_updates intact member).continues intact.toListed).toAdvances

theorem publishCallback_advances (config : SubscriptionConfig) (intact : Intact config session)
    (member : sub ∈ session.serverSubscriptions) (memory : List Bool) :
    ∃ after, session.publishCallback config sub memory = some after ∧
      Advances config session after := by
  have first := readied_advances intact member
  have present : { sub with readyNotifications := sub.notificationQueueSize } ∈
      (session.setSubscription
        { sub with readyNotifications := sub.notificationQueueSize }).serverSubscriptions :=
    mem_setSubscription_self member rfl
  obtain ⟨after, publishes, second⟩ :=
    publish_advances config (first.intact intact) present memory
  exact ⟨after, publishes, first.trans second⟩

theorem step_advances (intact : Intact config session) (step : SessionStep Content) :
    Yields config.queueSizeLimits.min (session.step config step) (Advances config session) := by
  have same : Advances config session session := .refl intact.toListed
  cases step with
  | request request =>
    rw [Session.step]
    split
    · exact .some same
    · exact serve_advances intact request
  | publishCallback address memory =>
    rw [Session.step]
    split
    · exact .some same
    · rename_i sub found
      exact .inl (publishCallback_advances config intact (subscription_mem found).1 memory)
  | attachToSecureChannel channel =>
    exact .some (SameSubscriptions.advances ⟨rfl, rfl, rfl, rfl⟩ intact.toListed)
  | detachFromSecureChannel =>
    exact .some (SameSubscriptions.advances ⟨rfl, rfl, rfl, rfl⟩ intact.toListed)
  | _ =>
    exact (step_updates intact id id).imp
      fun _ updates => (updates.continues intact.toListed).toAdvances

end Services

end Session

inductive SessionRun (config : SubscriptionConfig) : Session Content → Prop
  | start : SessionRun config Session.new
  | step {session after} (step : SessionStep Content) (run : SessionRun config session)
      (steps : session.step config step = some after) : SessionRun config after
  | round {session after address memory again} (run : SessionRun config session)
      (publishes : session.publishOnce config address memory = some (again, after)) :
      SessionRun config after

namespace SessionRun

open Session

variable {config : SubscriptionConfig} {session : Session Content}

theorem new_intact : Intact config (Session.new : Session Content) where
  nodup := List.nodup_nil
  old := fun _ member => nomatch member
  count := rfl
  sound := fun _ member => nomatch member

theorem invariant {holds : Subscription Content → Prop}
    (kept : ∀ {sub next}, holds sub → SubscriptionStep config sub next → holds next)
    (new : ∀ address subscriptionId, holds (Subscription.new address subscriptionId))
    (run : SessionRun config session) :
    Intact config session ∧ ∀ sub ∈ session.subscriptions, holds sub := by
  induction run with
  | start => exact ⟨new_intact, fun _ member => nomatch member⟩
  | step step _ steps ih =>
    obtain ⟨intact, known⟩ := ih
    have advances := step_advances intact step
    rw [steps] at advances
    have advances := advances.of_some
    exact ⟨advances.intact intact, advances.evolves holds kept new known⟩
  | round _ publishes ih =>
    obtain ⟨intact, known⟩ := ih
    obtain ⟨sub, found, round⟩ := publishOnce_inv intact publishes
    have advances := round.advances intact (subscription_mem found).1
    exact ⟨advances.intact intact, advances.evolves holds kept new known⟩

theorem intact (run : SessionRun config session) : Intact config session := by
  have all := run.invariant (fun _ _ => trivial) fun _ _ => trivial
  exact all.1

theorem of_run {start : Session Content} {steps : List (SessionStep Content)}
    (run : SessionRun config start) (runs : start.run config steps = some session) :
    SessionRun config session := by
  induction steps generalizing start with
  | nil =>
    injection runs with runs
    exact runs ▸ run
  | cons step rest ih =>
    rw [Session.run] at runs
    cases steps : start.step config step with
    | none =>
      rw [steps] at runs
      cases runs
    | some middle =>
      rw [steps] at runs
      exact ih (.step step run steps) runs

end SessionRun

namespace Subscription

variable {room : Nat}

structure QueuesAgree (sub : Subscription Content) : Prop where
  length : sub.notificationQueueSize = sub.notificationQueue.length
  items : sub.notificationQueueSize = (sub.monitoredItems.map MonitoredItem.queueSize).sum
  kinds : sub.notificationQueueSize =
    sub.dataChangeNotifications + sub.eventNotifications + sub.statusChangeNotifications
  parts : ∀ item ∈ sub.monitoredItems,
    item.queue = sub.notificationQueue.filter fun n => sub.owner n = some item.address
  bounded : ∀ item ∈ sub.monitoredItems, item.queueSize ≤ item.maxQueueSize

theorem Consistent.kinds {sub : Subscription Content} (consistent : Consistent room sub) :
    sub.notificationQueue.length = sub.dataChangeNotifications + sub.eventNotifications := by
  have changes := consistent.counted .changeNotify
  have events := consistent.counted .eventNotify
  have others : sub.notificationQueue.countP (fun n => ¬ sub.carries .changeNotify n) =
      sub.notificationQueue.countP (sub.carries .eventNotify) := by
    apply List.countP_congr
    intro n queued
    obtain ⟨item, -, data, stored, fits⟩ := consistent.held n queued
    cases data with
    | value value => simp [carries, stored, NotificationData.fits]
    | event fields => simp [carries, stored, NotificationData.fits]
  have split := List.length_eq_countP_add_countP (sub.carries .changeNotify)
    (l := sub.notificationQueue)
  rw [others, ← changes, ← events] at split
  exact split

theorem Consistent.items {sub : Subscription Content} (consistent : Consistent room sub) :
    (sub.monitoredItems.map MonitoredItem.queueSize).sum = sub.notificationQueue.length := by
  have sizes : sub.monitoredItems.map MonitoredItem.queueSize =
      (sub.monitoredItems.map MonitoredItem.address).map fun mon => (sub.part mon).length := by
    rw [List.map_map]
    apply List.map_congr_left
    intro item member
    rw [consistent.sizes item member, consistent.parts item member]
    rfl
  rw [sizes]
  apply OwnedQueue.sum_parts consistent.items_nodup sub.owner
  intro n queued
  obtain ⟨item, member, belongs⟩ := consistent.owner_eq queued
  exact ⟨item.address, List.mem_map_of_mem member, belongs⟩

theorem Sound.queuesAgree {sub : Subscription Content} (sound : Sound room sub) :
    QueuesAgree sub where
  length := sound.consistent.size
  items := sound.consistent.size.trans sound.consistent.items.symm
  kinds := by
    rw [sound.consistent.statuses, Nat.add_zero, sound.consistent.size]
    exact sound.consistent.kinds
  parts := sound.consistent.parts
  bounded := sound.bounded

end Subscription

/-- In every session that is reached the queues of all subscriptions agree, and every further step can
be taken, if only to be refused with a status. -/
theorem session_queues_agree {config : SubscriptionConfig}
    (limits : 1 ≤ config.queueSizeLimits.min) {session : Session Content}
    (run : SessionRun config session) :
    (∀ sub ∈ session.subscriptions, QueuesAgree sub) ∧
      ∀ step : SessionStep Content, ∃ after, session.step config step = some after := by
  have intact := run.intact
  refine ⟨fun sub member => (intact.sound sub member).queuesAgree, ?_⟩
  intro step
  obtain ⟨after, steps, -⟩ := (Session.step_advances intact step).value limits
  exact ⟨after, steps⟩

def numberSample (content : Nat) : Sample Nat := ⟨⟨content, some true, false, .good⟩, true, true⟩

def valueItem (queueSize : Nat) : MonitoredItemCreateRequest Nat where
  attributeId := attributeIdValue
  dataEncoding := .unnamed
  monitoringMode := .reporting
  requestedParameters := ⟨7, .notDecoded, queueSize, true⟩
  read := ⟨0, some true, false, .good⟩
  memory := true
  copied := .good
  sample := numberSample 0

def sampledSteps : List (SessionStep Nat) :=
  [.attachToSecureChannel 1, .request (.createSubscription true ⟨100, 10, 0⟩ true),
    .request (.createMonitoredItems 1 true [valueItem 1, valueItem 2] true),
    .sampleCallback 0 0 (numberSample 1), .sampleCallback 0 1 (numberSample 1)]

theorem sampledSteps_agree : ∃ session : Session Nat,
    Session.new.run defaultConfig sampledSteps = some session ∧
      session.subscriptions.map Subscription.notificationQueue = [[2, 1, 3]] ∧
      ∀ sub ∈ session.subscriptions, QueuesAgree sub := by
  have queues : (Session.new.run defaultConfig sampledSteps).map (fun session =>
      session.subscriptions.map Subscription.notificationQueue) = some [[2, 1, 3]] := by
    decide +kernel
  obtain ⟨session, runs, same⟩ := Option.map_eq_some_iff.mp queues
  have limits : 1 ≤ defaultConfig.queueSizeLimits.min := by decide
  exact ⟨session, runs, same, (session_queues_agree limits (.of_run .start runs)).1⟩

end OpcUa
