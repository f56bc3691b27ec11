import OpcUa.SessionSteps

/-!
What a request leaves of the subscriptions of a session. Most requests change some of them in their
places. Requests to delete take some out, and a publish request comes to the subscription that is
late.
-/

namespace OpcUa

open Subscription List

variable {Content : Type}

section Operations

variable {State Request Result : Type} {room : Nat} (related : State → State → Prop)
  (good : State → Prop) {operation : State → Request → Option (Result × State)}

section

variable (refl : ∀ {state}, good state → related state state)
  (trans : ∀ {first second third}, related first second → related second third →
    related first third)
  (kept : ∀ {state after}, related state after → good state → good after)
  (each : ∀ {state} request, good state → Yields room (operation state request) fun outcome =>
    related state outcome.2)
include refl trans kept each

theorem performOperations_related : ∀ {requests : List Request} {state : State}, good state →
      Yields room (performOperations operation state requests) fun outcome =>
        related state outcome.2 := by
  intro requests
  induction requests with
  | nil =>
    intro state known
    exact .some (refl known)
  | cons request rest ih =>
    intro state known
    refine (each request known).bind ?_
    rintro ⟨result, middle⟩ first
    refine (ih (kept first known)).bind ?_
    rintro ⟨results, after⟩ second
    exact .some (trans first second)

theorem processServiceOperations_related {state : State} (known : good state)
    (requests : List Request) (memory : Bool) :
    Yields room (processServiceOperations operation state requests memory) fun outcome =>
      related state outcome.2 := by
  rw [processServiceOperations]
  split
  · exact .some (refl known)
  split
  · exact .some (refl known)
  · refine (performOperations_related related good refl trans kept each known).bind ?_
    rintro ⟨results, after⟩ relates
    exact .some relates

end

end Operations

namespace Subscription

structure Alike (sub changed : Subscription Content) : Prop where
  address : changed.address = sub.address
  subscriptionId : changed.subscriptionId = sub.subscriptionId
  count : changed.currentLifetimeCount = sub.currentLifetimeCount

structure Renewed (sub changed : Subscription Content) : Prop where
  address : changed.address = sub.address
  subscriptionId : changed.subscriptionId = sub.subscriptionId
  state : changed.state = sub.state
  count : changed.currentLifetimeCount = sub.currentLifetimeCount ∨ changed.currentLifetimeCount = 0

section Renewed

variable {sub middle changed : Subscription Content} {room : Nat}

theorem Alike.trans (first : Alike sub middle) (second : Alike middle changed) :
    Alike sub changed :=
  ⟨second.address.trans first.address, second.subscriptionId.trans first.subscriptionId,
    second.count.trans first.count⟩

theorem Renewed.refl (sub : Subscription Content) : Renewed sub sub := ⟨rfl, rfl, rfl, .inl rfl⟩

theorem Renewed.trans (first : Renewed sub middle) (second : Renewed middle changed) :
    Renewed sub changed where
  address := second.address.trans first.address
  subscriptionId := second.subscriptionId.trans first.subscriptionId
  state := second.state.trans first.state
  count := by
    rcases second.count with same | started
    · rw [same]
      exact first.count
    · exact .inr started

theorem Renewed.count_le (renewed : Renewed sub changed) :
    changed.currentLifetimeCount.toNat ≤ sub.currentLifetimeCount.toNat := by
  rcases renewed.count with same | started
  · rw [same]
  · rw [started]
    exact Nat.zero_le _

theorem QueuesOnly.alike (only : QueuesOnly sub changed) : Alike sub changed := by
  have address := congrArg Subscription.address only
  have subscriptionId := congrArg Subscription.subscriptionId only
  have count := congrArg Subscription.currentLifetimeCount only
  exact ⟨address, subscriptionId, count⟩

theorem QueuesOnly.renewed (only : QueuesOnly sub changed) : Renewed sub changed := by
  have alike := only.alike
  have state := congrArg Subscription.state only
  exact ⟨alike.address, alike.subscriptionId, state, .inl alike.count⟩

theorem addRetransmissionMessage_alike {config : SubscriptionConfig}
    {message : NotificationMessage Content}
    (adds : sub.addRetransmissionMessage config message = some changed) : Alike sub changed := by
  rw [addRetransmissionMessage] at adds
  split at adds
  · split at adds
    · cases adds
    · injection adds with same
      subst same
      exact ⟨rfl, rfl, rfl⟩
  · injection adds with same
    subst same
    exact ⟨rfl, rfl, rfl⟩

theorem removeRetransmissionMessage_renewed (sub : Subscription Content)
    (sequenceNumber : BitVec 32) :
    Renewed sub (sub.removeRetransmissionMessage sequenceNumber).2 := by
  rw [removeRetransmissionMessage]
  split <;> exact ⟨rfl, rfl, rfl, .inl rfl⟩

end Renewed

end Subscription

def SessionRequest.Lists : SessionRequest Content → Prop
  | .createSubscription _ _ _ => True
  | .deleteSubscriptions _ _ => True
  | .publish _ => True
  | _ => False

def SessionStep.Lists : SessionStep Content → Prop
  | .request made => made.Lists
  | .publishCallback _ _ => True
  | _ => False

def SessionStep.Attaches : SessionStep Content → Prop
  | .attachToSecureChannel _ => True
  | .detachFromSecureChannel => True
  | _ => False

namespace Session

variable {config : SubscriptionConfig} {session middle after : Session Content}
  {sub changed : Subscription Content} {subscriptionId : BitVec 32} {status : StatusCode}
  {memory : Bool} {request : PublishRequest}

theorem Advances.refl (listed : Listed session) : Advances config session session :=
  SameSubscriptions.advances ⟨rfl, rfl, rfl, rfl⟩ listed

structure Keeps (session after : Session Content) : Prop where
  changes : ∃ change : Subscription Content → Subscription Content,
    after.serverSubscriptions = session.serverSubscriptions.map change ∧
      ∀ sub ∈ session.serverSubscriptions, Renewed sub (change sub)
  unusedSubscription : after.unusedSubscription = session.unusedSubscription
  lastSeenSubscriptionId : after.lastSeenSubscriptionId = session.lastSeenSubscriptionId

theorem Keeps.refl (session : Session Content) : Keeps session session where
  changes := ⟨id, (map_id _).symm, fun sub _ => .refl sub⟩
  unusedSubscription := rfl
  lastSeenSubscriptionId := rfl

theorem Keeps.trans (first : Keeps session middle) (second : Keeps middle after) :
    Keeps session after where
  changes := by
    obtain ⟨change, list, renews⟩ := first.changes
    obtain ⟨change2, list2, renews2⟩ := second.changes
    refine ⟨change2 ∘ change, ?_, ?_⟩
    · rw [list2, list, map_map]
    · intro sub member
      have there : change sub ∈ middle.serverSubscriptions := by
        rw [list]
        exact mem_map_of_mem member
      exact (renews sub member).trans (renews2 _ there)
  unusedSubscription := second.unusedSubscription.trans first.unusedSubscription
  lastSeenSubscriptionId := second.lastSeenSubscriptionId.trans first.lastSeenSubscriptionId

theorem Keeps.of_same (list : after.serverSubscriptions = session.serverSubscriptions)
    (unused : after.unusedSubscription = session.unusedSubscription)
    (lastSeen : after.lastSeenSubscriptionId = session.lastSeenSubscriptionId) :
    Keeps session after where
  changes := ⟨id, by rw [list, map_id], fun sub _ => .refl sub⟩
  unusedSubscription := unused
  lastSeenSubscriptionId := lastSeen

theorem Keeps.mem (keeps : Keeps session after) (member : changed ∈ after.serverSubscriptions) :
    ∃ sub ∈ session.serverSubscriptions, Renewed sub changed := by
  obtain ⟨change, list, renews⟩ := keeps.changes
  rw [list] at member
  obtain ⟨sub, present, rfl⟩ := mem_map.mp member
  exact ⟨sub, present, renews sub present⟩

theorem Keeps.addresses (keeps : Keeps session after) :
    after.serverSubscriptions.map Subscription.address =
      session.serverSubscriptions.map Subscription.address := by
  obtain ⟨change, list, renews⟩ := keeps.changes
  rw [list, map_map]
  exact map_congr_left fun sub member => (renews sub member).address

def tags (session : Session Content) : List (Nat × BitVec 32) :=
  session.serverSubscriptions.map fun sub => (sub.address, sub.subscriptionId)

def ids (session : Session Content) : List (BitVec 32) :=
  session.serverSubscriptions.map Subscription.subscriptionId

theorem tags_ids (session : Session Content) : session.tags.map Prod.snd = session.ids := by
  rw [tags, map_map]
  rfl

theorem Keeps.tags (keeps : Keeps session after) : after.tags = session.tags := by
  obtain ⟨change, list, renews⟩ := keeps.changes
  rw [Session.tags, list, map_map]
  apply map_congr_left
  intro sub member
  exact Prod.ext (renews sub member).address (renews sub member).subscriptionId

section

variable (listed : Listed session) (member : sub ∈ session.serverSubscriptions)
include listed member

theorem setSubscription_tags (address : changed.address = sub.address)
    (subscriptionId : changed.subscriptionId = sub.subscriptionId) :
    (session.setSubscription changed).tags = session.tags := by
  rw [tags, setSubscription, map_map]
  apply map_congr_left
  intro other present
  dsimp only [Function.comp_apply]
  split
  · rename_i same
    have equal := listed.address_unique (mem_append_left _ present)
      (mem_append_left _ member) (same.trans address)
    rw [address, subscriptionId, equal]
  · rfl

theorem setSubscription_keeps (renewed : Renewed sub changed) :
    Keeps session (session.setSubscription changed) where
  changes := ⟨_, rfl, setSubscription_each listed member renewed.address Renewed .refl renewed⟩
  unusedSubscription := rfl
  lastSeenSubscriptionId := rfl

end

structure Continues (config : SubscriptionConfig) (session after : Session Content) : Prop
    extends Advances config session after, Keeps session after

theorem Continues.trans (first : Continues config session middle)
    (second : Continues config middle after) : Continues config session after :=
  { first.toAdvances.trans second.toAdvances, first.toKeeps.trans second.toKeeps with }

theorem Continues.of_same (listed : Listed session) (same : SameSubscriptions session after)
    (lastSeen : after.lastSeenSubscriptionId = session.lastSeenSubscriptionId) :
    Continues config session after :=
  { same.advances listed,
    Keeps.of_same same.serverSubscriptions same.unusedSubscription lastSeen with }

/-! Subscriptions that change in their places -/

def Updates (config : SubscriptionConfig) (session after : Session Content) : Prop :=
  ∃ change : Subscription Content → Subscription Content,
    after = { session with serverSubscriptions := session.serverSubscriptions.map change } ∧
      ∀ sub ∈ session.serverSubscriptions,
        Renewed sub (change sub) ∧ Becomes config sub (change sub)

theorem Updates.refl (session : Session Content) : Updates config session session :=
  ⟨id, by rw [map_id], fun sub _ => ⟨.refl sub, .refl⟩⟩

theorem Updates.trans (first : Updates config session middle)
    (second : Updates config middle after) : Updates config session after := by
  obtain ⟨change, rfl, each⟩ := first
  obtain ⟨change2, rfl, each2⟩ := second
  refine ⟨change2 ∘ change, by rw [map_map], ?_⟩
  intro sub member
  obtain ⟨renewed, becomes⟩ := each sub member
  obtain ⟨renewed2, becomes2⟩ := each2 _ (mem_map_of_mem member)
  exact ⟨renewed.trans renewed2, becomes.trans becomes2⟩

theorem Updates.continues (updates : Updates config session after) (listed : Listed session) :
    Continues config session after := by
  obtain ⟨change, rfl, each⟩ := updates
  have advances := mapped_advances listed fun sub member => (each sub member).2
  have keeps : Keeps session
      { session with serverSubscriptions := session.serverSubscriptions.map change } :=
    ⟨⟨change, rfl, fun sub member => (each sub member).1⟩, rfl, rfl⟩
  exact { advances, keeps with }

section

variable (listed : Listed session)
include listed

theorem setSubscription_updates (member : sub ∈ session.serverSubscriptions)
    (renewed : Renewed sub changed) (becomes : Becomes config sub changed) :
    Updates config session (session.setSubscription changed) :=
  ⟨_, rfl, setSubscription_each listed member renewed.address
    (fun other next => Renewed other next ∧ Becomes config other next)
    (fun other => ⟨.refl other, .refl⟩) ⟨renewed, becomes⟩⟩

theorem modifySubscription_updates (subscriptionId : BitVec 32) (settings : SubscriptionSettings) :
    Updates config session (session.modifySubscription config subscriptionId settings).2 := by
  rw [modifySubscription]
  split
  · exact .refl session
  · rename_i sub found
    exact setSubscription_updates listed (getSubscriptionById_mem found) ⟨rfl, rfl, rfl, .inr rfl⟩
      (.step (.settings rfl))

theorem setPublishingMode_updates (publishingEnabled : Bool) (subscriptionId : BitVec 32) :
    Yields config.queueSizeLimits.min
      (setPublishingMode publishingEnabled session subscriptionId) fun outcome =>
        Updates config session outcome.2 := by
  rw [setPublishingMode]
  split
  · exact .some (.refl session)
  · rename_i sub found
    exact .some (setSubscription_updates listed (getSubscriptionById_mem found)
      ⟨rfl, rfl, rfl, .inr rfl⟩ (.step (.settings rfl)))

theorem serviceRepublish_updates (subscriptionId sequenceNumber : BitVec 32) :
    Updates config session (session.serviceRepublish subscriptionId sequenceNumber).2 := by
  rw [serviceRepublish]
  split
  · exact .refl session
  · rename_i sub found
    have step : Updates config session
        (session.setSubscription { sub with currentLifetimeCount := 0 }) :=
      setSubscription_updates listed (getSubscriptionById_mem found) ⟨rfl, rfl, rfl, .inr rfl⟩
        (.step (.settings rfl))
    split <;> exact step

end

theorem acknowledge_updates (acknowledgements : List SubscriptionAcknowledgement) :
    ∀ {session : Session Content}, Listed session →
      Updates config session (session.acknowledge acknowledgements).2 := by
  induction acknowledgements with
  | nil =>
    intro session _
    exact .refl session
  | cons ack rest ih =>
    intro session listed
    rw [acknowledge]
    split
    · exact ih listed
    · rename_i sub found
      have first : Updates config session (session.setSubscription
          (sub.removeRetransmissionMessage ack.sequenceNumber).2) :=
        setSubscription_updates listed (getSubscriptionById_mem found)
          (removeRetransmissionMessage_renewed sub ack.sequenceNumber)
          (.step (.acknowledge sub ack.sequenceNumber))
      exact first.trans (ih (first.continues listed).listed)

section

variable (intact : Intact config session)
include intact

theorem serveItems_updates {Request Result : Type} (subscriptionId : BitVec 32)
    {operation : Subscription Content → Request → Option (Result × Subscription Content)}
    (each : ∀ {sub} request, Sound config.queueSizeLimits.min sub →
      Yields config.queueSizeLimits.min (operation sub request) fun outcome =>
      Kept config.queueSizeLimits.min sub outcome.2)
    (requests : List Request) (memory : Bool) :
    Yields config.queueSizeLimits.min
      (session.serveItems subscriptionId operation requests memory) fun outcome =>
        Updates config session outcome.2 := by
  rw [serveItems]
  split
  · exact .some (.refl session)
  · rename_i sub found
    have member := getSubscriptionById_mem found
    have started : Renewed sub { sub with currentLifetimeCount := 0 } := ⟨rfl, rfl, rfl, .inr rfl⟩
    have reset : Becomes config sub { sub with currentLifetimeCount := 0 } := .step (.settings rfl)
    refine (processServiceOperations_related
      (fun sub after => Renewed sub after ∧ Becomes config sub after)
      (Sound config.queueSizeLimits.min) (fun _ => ⟨.refl _, .refl⟩)
      (fun first second => ⟨first.1.trans second.1, first.2.trans second.2⟩)
      (fun related sound => related.2.sound sound)
      (fun request sound => (each request sound).imp fun _ kept =>
        ⟨kept.only.renewed, .step (.items kept)⟩)
      (reset.sound (intact.sound sub (mem_append_left _ member))) requests memory).bind ?_
    rintro ⟨results, changed⟩ ⟨renewed, becomes⟩
    exact .some (setSubscription_updates intact.toListed member (started.trans renewed)
      (reset.trans becomes))

theorem serve_updates {request : SessionRequest Content} (other : ¬request.Lists) :
    Yields config.queueSizeLimits.min (session.serve config request) (Updates config session) := by
  have same : Updates config session session := .refl session
  cases request with
  | createSubscription publishingEnabled settings memory => exact absurd trivial other
  | deleteSubscriptions subscriptionIds memory => exact absurd trivial other
  | publish request => exact absurd trivial other
  | modifySubscription subscriptionId settings =>
    exact .some (modifySubscription_updates intact.toListed subscriptionId settings)
  | republish subscriptionId sequenceNumber =>
    exact .some (serviceRepublish_updates intact.toListed subscriptionId sequenceNumber)
  | setPublishingMode publishingEnabled subscriptionIds memory =>
    exact (processServiceOperations_related (Updates config) (Intact config)
      (fun _ => .refl _) Updates.trans
      (fun updates intact => (updates.continues intact.toListed).intact intact)
      (fun subscriptionId intact =>
        setPublishingMode_updates intact.toListed publishingEnabled subscriptionId)
      intact subscriptionIds memory).map fun _ updates => updates
  | createMonitoredItems subscriptionId validTimestamps itemsToCreate memory =>
    rw [serve, serviceCreateMonitoredItems]
    split
    · exact .some same
    split
    · exact .some same
    · exact (serveItems_updates intact subscriptionId
        (fun request sound => createMonitoredItem_sound (Nat.le_refl _) sound request)
        itemsToCreate memory).map fun _ updates => updates
  | modifyMonitoredItems subscriptionId validTimestamps itemsToModify memory =>
    rw [serve, serviceModifyMonitoredItems]
    split
    · exact .some same
    split
    · exact .some same
    · exact (serveItems_updates intact subscriptionId
        (fun request sound => modifyMonitoredItem_sound (Nat.le_refl _) sound request)
        itemsToModify memory).map fun _ updates => updates
  | setMonitoringMode subscriptionId monitoringMode monitoredItemIds memory =>
    rw [serve, serviceSetMonitoringMode]
    split
    · exact .some same
    · refine (serveItems_updates intact subscriptionId ?_ monitoredItemIds memory).map
        fun _ updates => updates
      intro sub monitoredItemId sound
      obtain ⟨status, after, sets, kept⟩ :=
        setMonitoringMode_sound sound monitoringMode monitoredItemId
      exact .inl ⟨(status, after), sets, ⟨kept.1, kept.2⟩⟩
  | deleteMonitoredItems subscriptionId monitoredItemIds memory =>
    rw [serve, serviceDeleteMonitoredItems]
    split
    · exact .some same
    · refine (serveItems_updates intact subscriptionId ?_ monitoredItemIds memory).map
        fun _ updates => updates
      intro sub monitoredItemId sound
      obtain ⟨status, after, deletes, kept⟩ := deleteMonitoredItem_sound sound monitoredItemId
      exact .inl ⟨(status, after), deletes, ⟨kept.1, kept.2⟩⟩

theorem step_updates {step : SessionStep Content} (other : ¬step.Lists) (stays : ¬step.Attaches) :
    Yields config.queueSizeLimits.min (session.step config step) (Updates config session) := by
  have same : Updates config session session := .refl session
  cases step with
  | request request =>
    rw [Session.step]
    split
    · exact .some same
    · exact serve_updates intact other
  | publishCallback address memory => exact absurd trivial other
  | sampleCallback address mon sample =>
    rw [Session.step]
    split
    · exact .some same
    · rename_i sub found
      have member := (subscription_mem found).1
      split
      · exact .some same
      · rename_i there
        obtain ⟨item, itemFound⟩ := Option.ne_none_iff_exists'.mp
          (mt Option.isNone_iff_eq_none.mpr there)
        obtain ⟨itemMember, rfl⟩ := item_mem itemFound
        refine (sampleCallback_sound (intact.sound sub (mem_append_left _ member))
          itemMember sample).bind ?_
        intro after kept
        exact .some (setSubscription_updates intact.toListed member kept.only.renewed
          (.step (.items kept)))
  | event address mon filtered memory =>
    rw [Session.step]
    split
    · exact .some same
    · rename_i sub found
      have member := (subscription_mem found).1
      split
      · exact .some same
      · rename_i typed
        obtain ⟨item, itemFound, type⟩ := Option.map_eq_some_iff.mp (not_not.mp typed)
        obtain ⟨itemMember, rfl⟩ := item_mem itemFound
        refine (addEventToMonitoredItem_sound (intact.sound sub (mem_append_left _ member))
          itemMember type filtered memory).bind ?_
        rintro ⟨status, after⟩ kept
        exact .some (setSubscription_updates intact.toListed member kept.only.renewed
          (.step (.items kept)))
  | attachToSecureChannel channel => exact absurd trivial stays
  | detachFromSecureChannel => exact absurd trivial stays

theorem readied_updates (member : sub ∈ session.serverSubscriptions) : Updates config session
      (session.setSubscription { sub with readyNotifications := sub.notificationQueueSize }) :=
  setSubscription_updates intact.toListed member ⟨rfl, rfl, rfl, .inl rfl⟩ (.step (.settings rfl))

end

structure Stems (session after : Session Content) : Prop where
  renewed : ∀ changed ∈ after.serverSubscriptions, ∃ sub ∈ session.serverSubscriptions,
    Renewed sub changed
  tags : after.tags.Sublist session.tags
  unusedSubscription : after.unusedSubscription = session.unusedSubscription
  lastSeenSubscriptionId : after.lastSeenSubscriptionId = session.lastSeenSubscriptionId

theorem Keeps.stems (keeps : Keeps session after) : Stems session after where
  renewed _ member := keeps.mem member
  tags := by rw [keeps.tags]
  unusedSubscription := keeps.unusedSubscription
  lastSeenSubscriptionId := keeps.lastSeenSubscriptionId

theorem Stems.trans (first : Stems session middle) (second : Stems middle after) :
    Stems session after where
  renewed changed member := by
    obtain ⟨between, there, renewed2⟩ := second.renewed changed member
    obtain ⟨sub, present, renewed⟩ := first.renewed between there
    exact ⟨sub, present, renewed.trans renewed2⟩
  tags := second.tags.trans first.tags
  unusedSubscription := second.unusedSubscription.trans first.unusedSubscription
  lastSeenSubscriptionId := second.lastSeenSubscriptionId.trans first.lastSeenSubscriptionId

section

variable (intact : Intact config session)
  (deletes : session.deleteSubscription subscriptionId memory = some (status, after))
include intact deletes

theorem deleteSubscription_lists :
    Keeps session after ∨ ∃ gone, session.getSubscriptionById subscriptionId = some gone ∧
      after.serverSubscriptions = session.serverSubscriptions.filter (·.address ≠ gone.address) ∧
      after.unusedSubscription = session.unusedSubscription ∧
      after.lastSeenSubscriptionId = session.lastSeenSubscriptionId := by
  rw [deleteSubscription] at deletes
  cases found : session.getSubscriptionById subscriptionId with
  | none =>
    rw [found] at deletes
    injection deletes with same
    injection same with _ same
    exact .inl (same ▸ .refl session)
  | some sub =>
    have member := getSubscriptionById_mem found
    have sound := intact.sound sub (mem_append_left _ member)
    obtain ⟨middle, items, -, only, -⟩ := deleteItems_sound sound rfl
    simp only [found, deleteMembers, items, Option.bind_eq_bind, Option.bind_some] at deletes
    split at deletes
    · injection deletes with same
      injection same with _ same
      subst same
      have renewed := only.renewed
      exact .inl (setSubscription_keeps intact.toListed member
        ⟨renewed.address, renewed.subscriptionId, renewed.state, renewed.count⟩)
    split at deletes
    · cases deletes
    · injection deletes with same
      injection same with _ same
      subst same
      refine .inr ⟨sub, rfl, ?_, rfl, rfl⟩
      rw [only.alike.address]

theorem deleteSubscription_stems : Stems session after := by
  rcases deleteSubscription_lists intact deletes with keeps | ⟨gone, -, list, lastId, lastSeen⟩
  · exact keeps.stems
  · refine ⟨?_, ?_, lastId, lastSeen⟩
    · intro changed member
      rw [list] at member
      exact ⟨changed, mem_of_mem_filter member, .refl changed⟩
    · rw [tags, list]
      exact filter_sublist.map _

end

theorem deleteOperations_related {related : Session Content → Session Content → Prop}
    (refl : ∀ session, related session session)
    (trans : ∀ {first second third}, related first second → related second third →
      related first third)
    (each : ∀ {session after subscriptionId memory status}, Intact config session →
      session.deleteSubscription subscriptionId memory = some (status, after) →
      related session after)
    (intact : Intact config session) (subscriptionIds : List (BitVec 32 × Bool)) (memory : Bool) :
    Yields config.queueSizeLimits.min (processServiceOperations
      (fun session request => session.deleteSubscription request.1 request.2)
      session subscriptionIds memory)
      fun outcome => related session outcome.2 ∧ Advances config session outcome.2 := by
  refine processServiceOperations_related
    (fun session after => related session after ∧ Advances config session after) (Intact config)
    (fun intact => ⟨refl _, .refl intact.toListed⟩)
    (fun first second => ⟨trans first.1 second.1, first.2.trans second.2⟩)
    (fun both intact => both.2.intact intact) ?_ intact subscriptionIds memory
  intro session request intact
  obtain ⟨status, after, deletes, advances⟩ :=
    deleteSubscription_advances config intact request.1 request.2
  exact .inl ⟨(status, after), deletes, each intact deletes, advances⟩

theorem answerPublishRequestsNoSubscription_same (session : Session Content) :
    SameSubscriptions session session.answerPublishRequestsNoSubscription := by
  rw [answerPublishRequestsNoSubscription]
  split <;> exact ⟨rfl, rfl, rfl, rfl⟩

section

variable (intact : Intact config session) (subscriptionIds : List (BitVec 32 × Bool))
  (memory : Bool)
include intact

theorem serviceDeleteSubscriptions_stems : Yields config.queueSizeLimits.min
      (session.serviceDeleteSubscriptions subscriptionIds memory) fun outcome =>
        Stems session outcome.2 ∧ Advances config session outcome.2 := by
  refine (deleteOperations_related (fun session => (Keeps.refl session).stems) Stems.trans
    deleteSubscription_stems intact subscriptionIds memory).bind ?_
  rintro ⟨results, middle⟩ ⟨stems, advances⟩
  have same := answerPublishRequestsNoSubscription_same middle
  have lastSeen : middle.answerPublishRequestsNoSubscription.lastSeenSubscriptionId =
      middle.lastSeenSubscriptionId := by
    rw [answerPublishRequestsNoSubscription]
    split <;> rfl
  have last : Continues config middle _ := .of_same advances.listed same lastSeen
  exact .some ⟨stems.trans last.stems, advances.trans last.toAdvances⟩

end

/-! The publish request from which a late subscription is served -/

def queued (session : Session Content) (request : PublishRequest) : Option (Session Content) :=
  if !request.entryMemory then none
  else if request.subscriptionAcknowledgements ≠ [] ∧ !request.resultsMemory then none
  else
    let (results, session) := session.acknowledge request.subscriptionAcknowledgements
    some (session.queuePublishReq
      ⟨request.requestId, request.requestHandle, results, session.channel⟩ false)

def accepted (config : SubscriptionConfig) (session : Session Content)
    (request : PublishRequest) : Option (Session Content) :=
  if session.serverSubscriptions.isEmpty then none
  else if config.maxPublishReqPerSession ≠ 0 ∧
      session.numPublishReq ≥ config.maxPublishReqPerSession then
    match session.reachedPublishReqLimit with
    | (false, _) => none
    | (true, session) => session.queued request
  else session.queued request

theorem queueRequest_cases (listed : Listed session) (request : PublishRequest) :
    (session.queued request = none ∧ ∃ after, session.queueRequest config request = some after ∧
        Continues config session after) ∨
    ∃ waiting, session.queued request = some waiting ∧
      session.queueRequest config request = waiting.serveLate config request.publishMemory ∧
      Continues config session waiting := by
  rw [queued, queueRequest]
  split
  · exact .inl ⟨rfl, _, rfl, .of_same listed ⟨rfl, rfl, rfl, rfl⟩ rfl⟩
  split
  · exact .inl ⟨rfl, _, rfl, .of_same listed ⟨rfl, rfl, rfl, rfl⟩ rfl⟩
  · have updates : Updates config session _ :=
      acknowledge_updates request.subscriptionAcknowledgements listed
    generalize session.acknowledge request.subscriptionAcknowledgements = acknowledged at updates
    obtain ⟨results, middle⟩ := acknowledged
    have first := updates.continues listed
    exact .inr ⟨_, rfl, rfl, first.trans (.of_same first.listed ⟨rfl, rfl, rfl, rfl⟩ rfl)⟩

theorem reachedPublishReqLimit_same (session : Session Content) :
    SameSubscriptions session session.reachedPublishReqLimit.2 := by
  have same := dequeuePublishReq_same session
  rw [reachedPublishReqLimit]
  generalize session.dequeuePublishReq = dequeued at same
  obtain ⟨pre, middle⟩ := dequeued
  cases pre with
  | none => exact same
  | some entry => exact { same with }

theorem servicePublish_cases (listed : Listed session) (request : PublishRequest) :
    (session.accepted config request = none ∧
      ∃ after, session.servicePublish config request = some after ∧
        Continues config session after) ∨
    ∃ waiting, session.accepted config request = some waiting ∧
      session.servicePublish config request = waiting.serveLate config request.publishMemory ∧
      Continues config session waiting := by
  rw [accepted, servicePublish]
  split
  · exact .inl ⟨rfl, _, rfl, .of_same listed ⟨rfl, rfl, rfl, rfl⟩ rfl⟩
  split
  · have lastSeen : session.reachedPublishReqLimit.2.lastSeenSubscriptionId =
        session.lastSeenSubscriptionId := by
      rw [reachedPublishReqLimit, dequeuePublishReq]
      cases session.responseQueue <;> rfl
    have first : Continues config session _ :=
      .of_same listed (reachedPublishReqLimit_same session) lastSeen
    generalize session.reachedPublishReqLimit = limited at first
    obtain ⟨reached, middle⟩ := limited
    cases reached with
    | false =>
      exact .inl ⟨rfl, _, rfl, first.trans (.of_same first.listed ⟨rfl, rfl, rfl, rfl⟩ rfl)⟩
    | true =>
      rcases queueRequest_cases first.listed request with
        ⟨none, after, ran, second⟩ | ⟨waiting, queues, ran, second⟩
      · exact .inl ⟨none, after, ran, first.trans second⟩
      · exact .inr ⟨waiting, queues, ran, first.trans second⟩
  · exact queueRequest_cases listed request

theorem accepted_continues (listed : Listed session) {waiting : Session Content}
    (accepts : session.accepted config request = some waiting) :
    Continues config session waiting := by
  rcases servicePublish_cases listed request with ⟨none, -⟩ | ⟨other, some, -, continues⟩
  · rw [accepts] at none
    cases none
  · obtain rfl : waiting = other := Option.some.inj (accepts.symm.trans some)
    exact continues

end Session

end OpcUa
