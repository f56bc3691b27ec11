import OpcUa.SessionRuns

/-!
The notifications of an item reach the client once and in order. Each was sent in a message, was
dropped, or is still queued, and a message carries what its round of publishing took from the
queues.
-/

namespace OpcUa

open Subscription List

variable {Content : Type}

namespace Session

structure Takes (session after : Session Content) (sub changed : Subscription Content)
    (message : NotificationMessage Content) (taken : List Nat) : Prop where
  response : ∃ response, after.sent = session.sent ++ [response] ∧
    response.notificationMessage = message
  queue : sub.notificationQueue = taken ++ changed.notificationQueue
  items : ∀ item ∈ sub.monitoredItems, ∃ left ∈ changed.monitoredItems,
    left.address = item.address ∧
      item.queue = (taken.filter fun n => sub.owner n = some item.address) ++ left.queue
  perm : (entries message.dataChangeNotification message.eventNotificationList).Perm taken
  values : ∀ entry ∈ message.dataChangeNotification.getD [],
    sub.memory entry.origin = some ⟨entry.mon, .value entry.value⟩
  fields : ∀ entry ∈ message.eventNotificationList.getD [],
    sub.memory entry.origin = some ⟨entry.mon, .event entry.eventFields⟩

section Rounds

variable {config : SubscriptionConfig} {session after : Session Content}
  {sub changed : Subscription Content}
variable {memory : Bool} {response : PublishResponse Content} {set : Subscription Content}
variable {final : Subscription Content} {subscriptionId : BitVec 32} {status : StatusCode}
  {room : Nat} {again : Bool}

theorem setSubscription_unique (listed : Listed session)
    (member : sub ∈ session.serverSubscriptions) (address : final.address = sub.address)
    (present : changed ∈ (session.setSubscription final).subscriptions)
    (same : changed.address = sub.address) : changed = final := by
  rcases mem_append.mp present with live | gone
  · rcases mem_setSubscription live with there | ⟨-, different⟩
    · exact there
    · exact absurd (same.trans address.symm) different
  · have equal := listed.address_unique (mem_append_right _ gone) (mem_append_left _ member) same
    have nodup := listed.nodup
    rw [subscriptions, map_append, nodup_append] at nodup
    exact absurd same (Ne.symm (nodup.2.2 sub.address (mem_map_of_mem member) changed.address
      (mem_map_of_mem gone)))

theorem deleteSubscription_cases
    (deletes : session.deleteSubscription subscriptionId memory = some (status, after))
    (present : changed ∈ after.subscriptions) :
    changed ∈ session.subscriptions ∨
      ∃ sub ∈ session.serverSubscriptions, sub.deleteMembers = some changed := by
  rw [deleteSubscription] at deletes
  split at deletes
  · injection deletes with deletes
    injection deletes with _ deletes
    exact .inl (deletes ▸ present)
  · rename_i sub found
    have member := getSubscriptionById_mem found
    cases cleared : sub.deleteMembers with
    | none =>
      rw [cleared] at deletes
      cases deletes
    | some gone =>
      simp only [cleared, Option.bind_eq_bind, Option.bind_some] at deletes
      split at deletes
      · injection deletes with deletes
        injection deletes with _ deletes
        subst deletes
        rcases mem_append.mp present with live | old
        · rcases mem_setSubscription live with rfl | ⟨there, -⟩
          · exact .inr ⟨sub, member, cleared⟩
          · exact .inl (mem_append_left _ there)
        · exact .inl (mem_append_right _ old)
      · split at deletes
        · cases deletes
        · injection deletes with deletes
          injection deletes with _ deletes
          subst deletes
          rcases mem_append.mp present with live | old
          · exact .inl (mem_append_left _ (mem_of_mem_filter live))
          · rcases mem_append.mp old with there | last
            · exact .inl (mem_append_right _ there)
            · rw [mem_singleton.mp last]
              exact .inr ⟨sub, member, cleared⟩

theorem deleteMembers_keeps (sound : Sound room sub) (clears : sub.deleteMembers = some changed) :
    changed.address = sub.address ∧ changed.sent = sub.sent ∧ changed.monitoredItems = [] := by
  obtain ⟨middle, deletes, -, only, none⟩ := deleteItems_sound sound rfl
  rw [deleteMembers, deletes] at clears
  injection clears with clears
  subst clears
  exact ⟨only.address, only.sent, none⟩

theorem SettingsOnly.contents (only : SettingsOnly sub changed) :
    changed.sent = sub.sent ∧ changed.notificationQueue = sub.notificationQueue ∧
      changed.monitoredItems = sub.monitoredItems ∧ changed.memory = sub.memory := by
  have sent := congrArg Subscription.sent only
  have queue := congrArg Subscription.notificationQueue only
  have items := congrArg Subscription.monitoredItems only
  have memory := congrArg Subscription.memory only
  exact ⟨sent, queue, items, memory⟩

theorem answered_unique (listed : Listed session) (member : sub ∈ session.serverSubscriptions)
    (address : final.address = sub.address)
    (present : changed ∈ (session.answered final response).subscriptions)
    (same : changed.address = sub.address) : changed = final := by
  have dequeued := (dequeuePublishReq_same session).listed listed
  exact setSubscription_unique dequeued (dequeued_mem member) address present same

theorem answered_sent (session : Session Content) (final : Subscription Content)
    (response : PublishResponse Content) :
    (session.answered final response).sent = session.sent ++ [response] := by
  rw [answered, dequeuePublishReq]
  split <;> rfl

theorem expired_keeps (intact : Intact config session) (member : sub ∈ session.serverSubscriptions)
    (only : SettingsOnly sub set)
    (deletes : (session.setSubscription set).deleteSubscription subscriptionId memory =
      some (status, after)) (present : changed ∈ after.subscriptions)
    (same : changed.address = sub.address) :
    changed.sent = sub.sent ∧
      (changed.notificationQueue = sub.notificationQueue ∨ changed.monitoredItems = []) := by
  have first : Advances config session (session.setSubscription set) :=
    setSubscription_advances intact.toListed member (.step (.settings only))
  rcases deleteSubscription_cases deletes present with there | ⟨old, oldMember, clears⟩
  · have equal := setSubscription_unique intact.toListed member only.address there same
    subst equal
    obtain ⟨sent, queue, -, -⟩ := SettingsOnly.contents only
    exact ⟨sent, .inl queue⟩
  · have oldSound := (first.intact intact).sound old (mem_append_left _ oldMember)
    obtain ⟨address, sent, none⟩ := deleteMembers_keeps oldSound clears
    have equal := setSubscription_unique intact.toListed member only.address
      (mem_append_left _ oldMember) (address.symm.trans same)
    subst equal
    exact ⟨sent.trans (SettingsOnly.contents only).1, .inr none⟩

theorem keepAlive_takes (only : SettingsOnly sub set)
    (finish : SettingsOnly (set.record set.keepAliveMessage) changed)
    (carries : response.notificationMessage = set.keepAliveMessage) :
    ∃ sent taken, changed.sent = sub.sent ++ [sent] ∧
      Takes session (session.answered changed response) sub changed sent.message taken := by
  obtain ⟨sent, queue, items, -⟩ := SettingsOnly.contents only
  obtain ⟨sentAfter, queueAfter, itemsAfter, -⟩ := SettingsOnly.contents finish
  refine ⟨⟨set.notificationsPerPublish, set.keepAliveMessage⟩, [], ?_, ?_⟩
  · rw [sentAfter, ← sent]
    rfl
  · exact {
      response := ⟨response, answered_sent session changed response, carries⟩
      queue := (queueAfter.trans queue).symm
      items := by
        intro item there
        refine ⟨item, ?_, rfl, rfl⟩
        rw [itemsAfter]
        exact items ▸ there
      perm := .refl _
      values := forall_mem_nil _
      fields := forall_mem_nil _ }

theorem message_takes (sound : Sound room sub) {prepared retained : Subscription Content}
    {message : NotificationMessage Content} {taken : List Nat} {notifications : Nat}
    (only : SettingsOnly sub set)
    (prepares : Prepared room set notifications taken message prepared)
    (retains : prepared.retain config message = some retained)
    (finish : SettingsOnly (retained.record message) changed)
    (carries : response.notificationMessage = message) :
    ∃ sent taken, changed.sent = sub.sent ++ [sent] ∧
      Takes session (session.answered changed response) sub changed sent.message taken := by
  have form := SubscriptionStep.retain_eq retains
  obtain ⟨sent, queue, items, memory⟩ := SettingsOnly.contents only
  obtain ⟨sentAfter, queueAfter, itemsAfter, -⟩ := SettingsOnly.contents finish
  have queueRetained := congrArg Subscription.notificationQueue form
  have itemsRetained := congrArg Subscription.monitoredItems form
  have sentRetained := congrArg Subscription.sent form
  have owners : set.owner = sub.owner := by
    funext n
    rw [owner, owner, memory]
  refine ⟨⟨retained.notificationsPerPublish, message⟩, taken, ?_, ?_⟩
  · rw [sentAfter, ← sent, ← prepares.only.sent]
    exact congrArg (· ++ _) sentRetained
  · exact {
      response := ⟨response, answered_sent session changed response, carries⟩
      queue := by
        rw [← queue, prepares.queue, queueAfter]
        exact congrArg (taken ++ ·) queueRetained.symm
      items := by
        intro item there
        have kept := SubscriptionStep.settings_sound only sound
        obtain ⟨left, leftMember, leftAddress, leftQueue⟩ :=
          prepares.items kept.consistent (items.symm ▸ there)
        refine ⟨left, ?_, leftAddress, ?_⟩
        · rw [itemsAfter]
          exact itemsRetained.symm ▸ leftMember
        · rw [owners] at leftQueue
          exact leftQueue
      perm := prepares.perm
      values := memory ▸ prepares.values
      fields := memory ▸ prepares.fields }

theorem PublishRound.takes (round : PublishRound config session sub memory again after)
    (intact : Intact config session) (member : sub ∈ session.serverSubscriptions)
    (present : changed ∈ after.subscriptions) (same : changed.address = sub.address) :
    (∃ sent taken, changed.sent = sub.sent ++ [sent] ∧
        Takes session after sub changed sent.message taken) ∨
      changed.sent = sub.sent ∧
        (changed.notificationQueue = sub.notificationQueue ∨ changed.monitoredItems = []) := by
  cases round with
  | expires _ only deletes => exact .inr (expired_keeps intact member only deletes present same)
  | @waits set only =>
    right
    have there : changed ∈ (session.dequeuePublishReq.2.setSubscription set).subscriptions := by
      have kept := requeue_same (session.dequeuePublishReq.2.setSubscription set)
        session.dequeuePublishReq.1
      exact kept.subscriptions ▸ present
    have dequeued := (dequeuePublishReq_same session).listed intact.toListed
    have equal := setSubscription_unique dequeued (dequeued_mem member) only.address there same
    subst equal
    obtain ⟨sent, queue, -, -⟩ := SettingsOnly.contents only
    exact ⟨sent, .inl queue⟩
  | keepAlive _ _ only finish =>
    have equal := answered_unique intact.toListed member
      (finish.address.trans only.address) present same
    subst equal
    exact .inl (keepAlive_takes only finish rfl)
  | @message _ _ _ _ _ prepared retained final set _ _ _ _ only _ _ prepares _ retains finish =>
    have address : final.address = sub.address := by
      have retainedAddress := congrArg Subscription.address (SubscriptionStep.retain_eq retains)
      calc final.address = retained.address := finish.address
        _ = prepared.address := retainedAddress
        _ = set.address := prepares.only.address
        _ = sub.address := only.address
    have equal := answered_unique intact.toListed member address present same
    subst equal
    exact .inl (message_takes (intact.sound sub (mem_append_left _ member)) only prepares
      retains finish rfl)

def RoundTakes (session after : Session Content) (sub : Subscription Content) : Prop :=
  ∀ changed ∈ after.subscriptions, changed.address = sub.address →
    (∃ sent taken, changed.sent = sub.sent ++ [sent] ∧
        Takes session after sub changed sent.message taken) ∨
      changed.sent = sub.sent ∧
        (changed.notificationQueue = sub.notificationQueue ∨ changed.monitoredItems = [])

theorem publishOnce_takes (intact : Intact config session) {address : Nat}
    (found : session.subscription address = some sub)
    (publishes : session.publishOnce config address memory = some (again, after)) :
    RoundTakes session after sub := by
  obtain ⟨other, there, round⟩ := publishOnce_inv intact publishes
  rw [found] at there
  injection there with there
  subst there
  intro changed present address
  exact round.takes intact (subscription_mem found).1 present address

end Rounds

end Session

namespace Subscription

def createdBy (sub : Subscription Content) (mon : Nat) : List Nat :=
  (sub.created.filter (·.1 = mon)).map Prod.snd

structure Delivered (sub : Subscription Content) : Prop where
  account : ∀ mon, sub.sentBy mon ++ sub.part mon =
    (sub.createdBy mon).filter (· ∉ sub.dropped.map Prod.snd)
  distinct : ∀ mon, (sub.createdBy mon).Nodup
  queued : ∀ item ∈ sub.monitoredItems, item.queue = sub.part item.address
  limited : SubscriptionStep.Limited sub

end Subscription

/-- In every session that is reached, what was sent of an item is what was created of it, less what
was dropped and what is queued. A further round of publishing sends what it takes. -/
theorem notifications_delivered {config : SubscriptionConfig} {session : Session Content}
    (run : SessionRun config session) :
    (∀ sub ∈ session.subscriptions, Delivered sub) ∧
      ∀ address sub memory again after, session.subscription address = some sub →
        session.publishOnce config address memory = some (again, after) →
        session.RoundTakes after sub := by
  obtain ⟨intact, limited⟩ : Session.Intact config session ∧
      ∀ sub ∈ session.subscriptions, SubscriptionStep.Limited sub :=
    run.invariant (fun known step => step.limited known) fun _ _ _ member => nomatch member
  constructor
  · intro sub member
    have sound := intact.sound sub member
    have balanced := sound.recorded.balanced
    refine ⟨?_, balanced.createdBy_nodup, sound.consistent.parts, limited sub member⟩
    intro mon
    have account : (sub.sentBy mon ++ []) ++ sub.part mon =
        (sub.createdBy mon).filter (· ∉ sub.dropped.map Prod.snd) := balanced.account mon
    rw [append_nil] at account
    exact account
  · intro address sub memory again after found publishes
    exact Session.publishOnce_takes intact found publishes

def publishRequest (requestId : BitVec 32) : PublishRequest :=
  ⟨requestId, 100 + requestId, [], true, true, []⟩

def publishedSteps : List (SessionStep Nat) :=
  [.attachToSecureChannel 1, .request (.createSubscription true ⟨100, 10, 2⟩ true),
    .request (.createMonitoredItems 1 true [valueItem 1, valueItem 2] true),
    .sampleCallback 0 0 (numberSample 1), .sampleCallback 0 1 (numberSample 1),
    .request (.publish (publishRequest 1)), .request (.publish (publishRequest 2)),
    .publishCallback 0 []]

theorem publishedSteps_delivered : ∃ session : Session Nat,
    Session.new.run defaultConfig publishedSteps = some session ∧
      session.subscriptions.map (fun sub => (sub.sentBy 0, sub.sentBy 1, sub.sent.length)) =
        [([2], [1, 3], 2)] ∧
      ∀ sub ∈ session.subscriptions, Delivered sub := by
  have sent : (Session.new.run defaultConfig publishedSteps).map (fun session =>
      session.subscriptions.map fun sub => (sub.sentBy 0, sub.sentBy 1, sub.sent.length)) =
        some [([2], [1, 3], 2)] := by
    decide +kernel
  obtain ⟨session, runs, same⟩ := Option.map_eq_some_iff.mp sent
  exact ⟨session, runs, same, (notifications_delivered (.of_run .start runs)).1⟩

end OpcUa
