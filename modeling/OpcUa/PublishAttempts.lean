import OpcUa.PublishRequests

/-!
Attempts to publish, and what else can happen to the subscriptions of a session. An attempt finds a
publish request or it does not. All other steps leave each subscription what it is and at most start
the count of attempts without a request again.
-/

namespace OpcUa

open Subscription

variable {Content : Type}

def SessionStep.creates : SessionStep Content → Bool
  | .request (.createSubscription _ _ _) => true
  | _ => false

namespace Session

variable {config : SubscriptionConfig} {session middle after : Session Content}
  {sub changed : Subscription Content} {memory again : Bool}
variable {notifications address : Nat} {more : Bool} {pre : Option PublishResponseEntry}

structure Sets (session : Session Content) (changed : Subscription Content)
    (after : Session Content) : Prop where
  serverSubscriptions : after.serverSubscriptions =
    (session.setSubscription changed).serverSubscriptions
  unusedSubscription : after.unusedSubscription = session.unusedSubscription
  lastSeenSubscriptionId : after.lastSeenSubscriptionId = session.lastSeenSubscriptionId

theorem Sets.tags (sets : Sets session changed after) (listed : Listed session)
    (member : sub ∈ session.serverSubscriptions) (address : changed.address = sub.address)
    (subscriptionId : changed.subscriptionId = sub.subscriptionId) :
    after.tags = session.tags := by
  rw [← setSubscription_tags listed member address subscriptionId, Session.tags, Session.tags,
    sets.serverSubscriptions]

theorem send_sets (session : Session Content) (changed : Subscription Content)
    (response : PublishResponse Content) :
    Sets session changed ((session.setSubscription changed).send response) := ⟨rfl, rfl, rfl⟩

theorem sendMessage_sets {pre : PublishResponseEntry} {message : NotificationMessage Content}
    (sends : session.sendMessage config sub pre notifications more message = some after) :
    ∃ changed, Alike sub changed ∧ Sets session changed after := by
  rw [sendMessage] at sends
  split at sends
  · cases sends
  dsimp only at sends
  split at sends
  · obtain ⟨middle, adds, sends⟩ := Option.bind_eq_some_iff.mp sends
    have alike := addRetransmissionMessage_alike adds
    split at sends
    · cases sends
    · injection sends with same
      subst same
      refine ⟨_, ?_, send_sets session _ _⟩
      exact ⟨alike.address, alike.subscriptionId, alike.count⟩
  · obtain ⟨middle, adds, sends⟩ := Option.bind_eq_some_iff.mp sends
    injection adds with adds
    subst adds
    split at sends
    · cases sends
    · injection sends with same
      subst same
      refine ⟨_, ?_, send_sets session _ _⟩
      exact ⟨rfl, rfl, rfl⟩

theorem requeue_sets (session : Session Content) (changed : Subscription Content)
    (pre : Option PublishResponseEntry) :
    Sets session changed ((session.setSubscription changed).requeue pre) := by
  cases pre <;> exact ⟨rfl, rfl, rfl⟩

theorem respond_sets (sound : Sound config.queueSizeLimits.min sub)
    (present : notifications ≤ sub.notificationQueue.length)
    (responds : session.respond config sub pre notifications more memory = some (again, after)) :
    ∃ changed, Alike sub changed ∧ Sets session changed after := by
  have late : ∃ changed, Alike sub changed ∧ Sets session changed (session.becomeLate sub pre) :=
    ⟨{ sub with state := .late }, ⟨rfl, rfl, rfl⟩, requeue_sets session _ pre⟩
  cases attached : session.channel with
  | none =>
    simp only [respond, attached, Option.some.injEq, Prod.mk.injEq] at responds
    exact responds.2 ▸ late
  | some channel =>
    cases pre with
    | none =>
      simp only [respond, attached, Option.some.injEq, Prod.mk.injEq] at responds
      exact responds.2 ▸ late
    | some entry =>
      simp only [respond, attached] at responds
      split at responds
      · obtain ⟨result, sends, same⟩ := Option.bind_eq_some_iff.mp responds
        injection same with same
        injection same with _ same
        exact same ▸ sendMessage_sets sends
      rename_i wanted
      cases memory with
      | false =>
        injection responds with same
        injection same with _ same
        exact same ▸ late
      | true =>
        obtain ⟨⟨message, prepared⟩, prepares, responds⟩ :=
          Option.bind_eq_some_iff.mp responds
        obtain ⟨result, sends, same⟩ := Option.bind_eq_some_iff.mp responds
        injection same with same
        injection same with _ same
        subst same
        obtain ⟨taken, message2, other, prepares2, facts⟩ :=
          prepareNotificationMessage_prepared sound (Nat.pos_of_ne_zero wanted) (by omega)
        rw [prepares] at prepares2
        injection prepares2 with same
        injection same with _ same
        subst same
        obtain ⟨changed, alike, sets⟩ := sendMessage_sets sends
        exact ⟨changed, facts.only.alike.trans alike, sets⟩

theorem publishAvailable_sets (sound : Sound config.queueSizeLimits.min sub)
    (publishes : session.publishAvailable config sub pre memory = some (again, after)) :
    ∃ changed, Alike sub changed ∧ Sets session changed after := by
  have counted : SettingsOnly sub sub.countReady := rfl
  have few : sub.countReady.available ≤ sub.countReady.notificationQueue.length := by
    have ready : sub.countReady.readyNotifications ≤ sub.notificationQueueSize :=
      Nat.min_le_right _ _
    have size : sub.notificationQueueSize = sub.countReady.notificationQueue.length :=
      sound.consistent.size
    rw [available]
    split <;> omega
  have soundCounted := SubscriptionStep.settings_sound counted sound
  rw [publishAvailable] at publishes
  dsimp only at publishes
  split at publishes
  · have alive : SettingsOnly sub.countReady sub.countReady.countKeepAlive := rfl
    split at publishes
    · injection publishes with same
      injection same with _ same
      exact same ▸ ⟨sub.countReady.countKeepAlive, ⟨rfl, rfl, rfl⟩, requeue_sets session _ pre⟩
    · obtain ⟨changed, alike, sets⟩ := respond_sets
        (SubscriptionStep.settings_sound alive soundCounted) (Nat.zero_le _) publishes
      exact ⟨changed, ⟨alike.address, alike.subscriptionId, alike.count⟩, sets⟩
  · obtain ⟨changed, alike, sets⟩ := respond_sets soundCounted
      (Nat.le_trans (Nat.min_le_left _ _) few) publishes
    exact ⟨changed, ⟨alike.address, alike.subscriptionId, alike.count⟩, sets⟩

theorem publishOnce_cases (intact : Intact config session)
    (publishes : session.publishOnce config address memory = some (again, after)) :
    ∃ sub, session.subscription address = some sub ∧
      ((∃ changed : Subscription Content, changed.address = sub.address ∧
          changed.subscriptionId = sub.subscriptionId ∧
          changed.currentLifetimeCount =
            (if session.responseQueue = [] then sub.currentLifetimeCount + 1 else 0) ∧
          Sets session changed after) ∨
        session.responseQueue = [] ∧ sub.lifeTimeCount < sub.currentLifetimeCount + 1 ∧
          ∃ status, (session.setSubscription
            { sub with currentLifetimeCount := sub.currentLifetimeCount + 1 }).deleteSubscription
              sub.subscriptionId memory = some (status, after)) := by
  obtain ⟨sub, found, publishes⟩ := Option.bind_eq_some_iff.mp publishes
  have sound := intact.sound sub (List.mem_append_left _ (subscription_mem found).1)
  refine ⟨sub, found, ?_⟩
  cases queue : session.responseQueue with
  | nil =>
    have dequeued : session.dequeuePublishReq = (none, session) := by
      rw [dequeuePublishReq, queue]
    have only : SettingsOnly sub
        { sub with currentLifetimeCount := sub.currentLifetimeCount + 1 } := rfl
    rw [dequeued] at publishes
    dsimp only at publishes
    split at publishes
    · rename_i expired
      obtain ⟨⟨status, result⟩, deletes, same⟩ := Option.bind_eq_some_iff.mp publishes
      injection same with same
      injection same with _ same
      exact .inr ⟨rfl, expired, status, same ▸ deletes⟩
    · obtain ⟨changed, alike, sets⟩ := publishAvailable_sets
        (SubscriptionStep.settings_sound only sound) publishes
      refine .inl ⟨changed, alike.address, alike.subscriptionId, ?_, sets⟩
      exact alike.count
  | cons entry rest =>
    have dequeued : session.dequeuePublishReq.1 = some entry := by
      rw [dequeuePublishReq, queue]
    have only : SettingsOnly sub { sub with currentLifetimeCount := 0 } := rfl
    have others : Keeps session session.dequeuePublishReq.2 := by
      rw [dequeuePublishReq, queue]
      exact .of_same rfl rfl rfl
    have list := (dequeuePublishReq_same session).serverSubscriptions
    generalize session.dequeuePublishReq = outcome at dequeued others list publishes
    obtain ⟨pre, rested⟩ := outcome
    subst dequeued
    obtain ⟨changed, alike, sets⟩ := publishAvailable_sets
      (SubscriptionStep.settings_sound only sound) publishes
    refine .inl ⟨changed, alike.address, alike.subscriptionId, ?_, ?_⟩
    · exact alike.count
    · refine ⟨?_, sets.unusedSubscription.trans others.unusedSubscription,
        sets.lastSeenSubscriptionId.trans others.lastSeenSubscriptionId⟩
      rw [sets.serverSubscriptions, setSubscription, setSubscription]
      exact congrArg (List.map _) list

structure Thins (session after : Session Content) : Prop where
  tags : after.tags.Sublist session.tags
  lastSeen : after.lastSeenSubscriptionId = session.lastSeenSubscriptionId
  unused : after.unusedSubscription = session.unusedSubscription

theorem Thins.trans (first : Thins session middle) (second : Thins middle after) :
    Thins session after :=
  ⟨second.tags.trans first.tags, second.lastSeen.trans first.lastSeen,
    second.unused.trans first.unused⟩

theorem Stems.thins (stems : Stems session after) : Thins session after :=
  ⟨stems.tags, stems.lastSeenSubscriptionId, stems.unusedSubscription⟩

theorem publishOnce_thins (intact : Intact config session)
    (publishes : session.publishOnce config address memory = some (again, after)) :
    Thins session after := by
  obtain ⟨sub, found, ⟨changed, same, sameId, -, sets⟩ | ⟨-, -, status, deletes⟩⟩ :=
    publishOnce_cases intact publishes
  · have member := (subscription_mem found).1
    refine ⟨?_, sets.lastSeenSubscriptionId, sets.unusedSubscription⟩
    rw [sets.tags intact.toListed member same sameId]
  · have member := (subscription_mem found).1
    have only : SettingsOnly sub
        { sub with currentLifetimeCount := sub.currentLifetimeCount + 1 } := rfl
    have advances : Advances config session _ :=
      setSubscription_advances intact.toListed member (.step (.settings only))
    have stems := deleteSubscription_stems (advances.intact intact) deletes
    have same : (session.setSubscription
        { sub with currentLifetimeCount := sub.currentLifetimeCount + 1 }).tags = session.tags :=
      setSubscription_tags intact.toListed member rfl rfl
    exact ⟨same ▸ stems.tags, stems.lastSeenSubscriptionId, stems.unusedSubscription⟩

theorem publishRounds_thins {rounds : Nat} {memory : List Bool} (intact : Intact config session)
    (publishes : publishRounds config rounds session address memory = some after) :
    Thins session after :=
  publishRounds_once (fun intact once thins => thins.trans (publishOnce_thins intact once)) intact
    publishes ⟨.refl _, rfl, rfl⟩

theorem Stems.distinct (stems : Stems session after) (distinct : session.ids.Nodup) :
    after.ids.Nodup := by
  rw [← tags_ids] at distinct ⊢
  exact (stems.tags.map Prod.snd).nodup distinct

theorem getSubscriptionById_unique (distinct : session.ids.Nodup)
    (member : sub ∈ session.serverSubscriptions) :
    session.getSubscriptionById sub.subscriptionId = some sub := by
  have found : (session.getSubscriptionById sub.subscriptionId).isSome := by
    rw [getSubscriptionById, List.find?_isSome]
    exact ⟨sub, member, by simp⟩
  obtain ⟨other, same⟩ := Option.isSome_iff_exists.mp found
  have id : other.subscriptionId = sub.subscriptionId := by
    simpa using List.find?_some same
  rw [same, List.inj_on_of_nodup_map distinct (getSubscriptionById_mem same) member id]

theorem createSubscription_cases (config : SubscriptionConfig) (session : Session Content)
    (publishingEnabled : Bool) (settings : SubscriptionSettings) (memory : Bool) :
    (session.createSubscription config publishingEnabled settings memory).2 = session ∨
      ∃ sub : Subscription Content, sub.address = session.unusedSubscription ∧
        sub.subscriptionId = session.lastSubscriptionId + 1 ∧ sub.currentLifetimeCount = 0 ∧
        (session.createSubscription config publishingEnabled settings memory).2 = { session with
            lastSubscriptionId := session.lastSubscriptionId + 1
            unusedSubscription := session.unusedSubscription + 1
            serverSubscriptions := sub :: session.serverSubscriptions
            numSubscriptions := session.numSubscriptions + 1 } := by
  rw [createSubscription]
  split
  · exact .inl rfl
  split
  · exact .inl rfl
  · exact .inr ⟨_, rfl, rfl, rfl, rfl⟩

def Quiet (config : SubscriptionConfig) (session : Session Content) : SessionStep Content → Prop
  | .publishCallback address _ => session.subscription address = none
  | .request (.publish request) =>
    session.channel.isNone = true ∨ session.accepted config request = none
  | _ => True

inductive Does (config : SubscriptionConfig) (session : Session Content) :
    SessionStep Content → Session Content → Prop
  | keeps {step after} (quiet : session.Quiet config step) (keeps : Keeps session after) :
      Does config session step after
  | creates {publishingEnabled settings memory} {sub : Subscription Content}
      (address : sub.address = session.unusedSubscription)
      (id : sub.subscriptionId = session.lastSubscriptionId + 1)
      (count : sub.currentLifetimeCount = 0) :
      Does config session (.request (.createSubscription publishingEnabled settings memory))
        { session with
          lastSubscriptionId := session.lastSubscriptionId + 1
          unusedSubscription := session.unusedSubscription + 1
          serverSubscriptions := sub :: session.serverSubscriptions
          numSubscriptions := session.numSubscriptions + 1 }
  | deletes {subscriptionIds memory after} (stems : Stems session after) :
      Does config session (.request (.deleteSubscriptions subscriptionIds memory)) after
  | publishes {request waiting after} (attached : ¬session.channel.isNone = true)
      (accepts : session.accepted config request = some waiting) (keeps : Keeps session waiting)
      (intact : Intact config waiting)
      (serves : waiting.serveLate config request.publishMemory = some after) :
      Does config session (.request (.publish request)) after
  | calls {address memory sub readied after} (found : session.subscription address = some sub)
      (ready : readied = session.setSubscription
        { sub with readyNotifications := sub.notificationQueueSize })
      (keeps : Keeps session readied) (intact : Intact config readied)
      (publishes : publishRounds config (session.responseQueue.length + 1) readied sub.address
        memory = some after) :
      Does config session (.publishCallback address memory) after

theorem serve_does (intact : Intact config session) (attached : ¬session.channel.isNone = true)
    {request : SessionRequest Content} (serves : session.serve config request = some after) :
    Does config session (.request request) after := by
  cases request with
  | createSubscription publishingEnabled settings memory =>
    injection serves with same
    subst same
    rcases createSubscription_cases config session publishingEnabled settings memory with
      same | ⟨sub, address, id, count, same⟩
    · rw [same]
      exact .keeps trivial (.refl session)
    · rw [same]
      exact .creates address id count
  | deleteSubscriptions subscriptionIds memory =>
    obtain ⟨⟨results, result⟩, deletes, rfl⟩ := Option.map_eq_some_iff.mp serves
    exact .deletes ((serviceDeleteSubscriptions_stems intact subscriptionIds memory).of_eq
      deletes).1
  | publish request =>
    rcases servicePublish_cases intact.toListed request with
      ⟨refuses, result, ran, continues⟩ | ⟨waiting, accepts, ran, continues⟩
    · obtain rfl : result = after := Option.some.inj (ran.symm.trans serves)
      exact .keeps (.inr refuses) continues.toKeeps
    · exact .publishes attached accepts continues.toKeeps (continues.toAdvances.intact intact)
        (ran.symm.trans serves)
  | _ =>
    have updates := (serve_updates intact id).of_eq serves
    exact .keeps trivial (updates.continues intact.toListed).toKeeps

theorem step_does (intact : Intact config session) {step : SessionStep Content}
    (steps : session.step config step = some after) : Does config session step after := by
  cases step with
  | request request =>
    rw [Session.step] at steps
    split at steps
    · rename_i detached
      injection steps with same
      subst same
      refine .keeps ?_ (.refl session)
      cases request with
      | publish request => exact .inl detached
      | _ => trivial
    · rename_i attached
      exact serve_does intact attached steps
  | publishCallback address memory =>
    rw [Session.step] at steps
    split at steps
    · rename_i none
      injection steps with same
      exact .keeps none (same ▸ .refl session)
    · rename_i sub found
      have ready := (readied_updates intact (subscription_mem found).1).continues intact.toListed
      exact .calls found rfl ready.toKeeps (ready.toAdvances.intact intact) steps
  | attachToSecureChannel channel =>
    injection steps with same
    exact .keeps trivial (same ▸ .of_same rfl rfl rfl)
  | detachFromSecureChannel =>
    injection steps with same
    exact .keeps trivial (same ▸ .of_same rfl rfl rfl)
  | _ =>
    have updates := (step_updates intact id id).of_eq steps
    exact .keeps trivial (updates.continues intact.toListed).toKeeps

end Session

end OpcUa
