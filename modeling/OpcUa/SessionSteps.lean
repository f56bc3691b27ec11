import OpcUa.Publishing
import OpcUa.SessionCore

/-!
What can happen to a subscription, and that every step of a session consists of that. An
invariant of subscriptions needs a proof for each of the few ways in which one changes, and then it
holds in every session that is reached.
-/

namespace OpcUa

variable {Content : Type} {room : Nat}

namespace Subscription

variable {sub after : Subscription Content}

def withSettings (sub other : Subscription Content) : Subscription Content :=
  { sub with
    lifeTimeCount := other.lifeTimeCount
    maxKeepAliveCount := other.maxKeepAliveCount
    notificationsPerPublish := other.notificationsPerPublish
    publishingEnabled := other.publishingEnabled
    state := other.state
    currentKeepAliveCount := other.currentKeepAliveCount
    currentLifetimeCount := other.currentLifetimeCount
    readyNotifications := other.readyNotifications }

def SettingsOnly (sub after : Subscription Content) : Prop := after = sub.withSettings after

theorem SettingsOnly.trans {middle : Subscription Content} (first : SettingsOnly sub middle)
    (second : SettingsOnly middle after) : SettingsOnly sub after := by
  calc after = middle.withSettings after := second
    _ = (sub.withSettings middle).withSettings after := by rw [← first]
    _ = sub.withSettings after := rfl

theorem SettingsOnly.address (only : SettingsOnly sub after) : after.address = sub.address := by
  have same := congrArg Subscription.address only
  exact same

def keepAliveMessage (sub : Subscription Content) : NotificationMessage Content :=
  { emptyMessage with sequenceNumber := nextSequenceNumber sub.sequenceNumber }

def record (sub : Subscription Content) (message : NotificationMessage Content) :
    Subscription Content :=
  { sub with sent := sub.sent ++ [⟨sub.notificationsPerPublish, message⟩] }

def retain (config : SubscriptionConfig) (sub : Subscription Content)
    (message : NotificationMessage Content) : Option (Subscription Content) :=
  { sub with sequenceNumber := message.sequenceNumber }.addRetransmissionMessage config message

end Subscription

open Subscription List

inductive SubscriptionStep (config : SubscriptionConfig) :
    Subscription Content → Subscription Content → Prop
  | settings {sub after} (only : SettingsOnly sub after) : SubscriptionStep config sub after
  | items {sub after} (kept : Kept config.queueSizeLimits.min sub after) :
      SubscriptionStep config sub after
  | acknowledge (sub) (sequenceNumber : BitVec 32) :
      SubscriptionStep config sub (sub.removeRetransmissionMessage sequenceNumber).2
  | keepAlive (sub) : SubscriptionStep config sub (sub.record sub.keepAliveMessage)
  | message {sub taken message prepared retained} {notifications : Nat}
      (wanted : 0 < notifications) (limit : notifications ≤ sub.notificationsPerPublish)
      (prepares : Prepared config.queueSizeLimits.min sub notifications taken message prepared)
      (numbered : message.sequenceNumber = nextSequenceNumber sub.sequenceNumber)
      (retains : prepared.retain config message = some retained) :
      SubscriptionStep config sub (retained.record message)
  | clear {sub after} (kept : Kept config.queueSizeLimits.min sub after)
      (none : after.monitoredItems = []) :
      SubscriptionStep config sub { after with
        monitoredItemsSize := 0
        retransmissionQueue := []
        retransmissionQueueSize := 0
        released := after.retransmissionQueue.map ((ReleaseCause.deleted, ·)) ++ after.released }

namespace SubscriptionStep

variable {config : SubscriptionConfig} {sub after : Subscription Content}
variable {message : NotificationMessage Content}
variable {prepared retained : Subscription Content}

theorem retain_eq (retains : prepared.retain config message = some retained) :
    retained = { prepared with
      sequenceNumber := message.sequenceNumber
      retransmissionQueue := retained.retransmissionQueue
      retransmissionQueueSize := retained.retransmissionQueueSize
      released := retained.released } := by
  rw [retain, addRetransmissionMessage] at retains
  split at retains
  · split at retains
    · cases retains
    · injection retains with retains
      rw [← retains]
  · injection retains with retains
    rw [← retains]

theorem address (step : SubscriptionStep config sub after) : after.address = sub.address := by
  cases step with
  | settings only => exact only.address
  | items kept => exact kept.only.address
  | acknowledge number =>
    rw [removeRetransmissionMessage]
    split <;> rfl
  | keepAlive => rfl
  | @message taken message prepared retained _ _ _ prepares _ retains =>
    have same := congrArg Subscription.address (retain_eq retains)
    exact same.trans prepares.only.address
  | clear kept _ => exact kept.only.address

theorem sentBy_record (sub : Subscription Content) (message : NotificationMessage Content)
    (mon : Nat) : (sub.record message).sentBy mon = sub.sentBy mon ++
      origins message.dataChangeNotification message.eventNotificationList mon := by
  rw [record]
  simp [sentBy]

theorem recorded_record {moving : Nat → List Nat} (recorded : Recorded sub moving)
    (moved : ∀ mon, moving mon =
      origins message.dataChangeNotification message.eventNotificationList mon) :
    Recorded (sub.record message) fun _ => [] where
  balanced := by
    have same : ∀ mon, ((sub.record message).sentBy mon ++ []) ++ sub.part mon =
        (sub.sentBy mon ++ moving mon) ++ sub.part mon := by
      intro mon
      rw [sentBy_record, moved mon, append_nil]
    exact recorded.balanced.move rfl rfl same
  old := recorded.old

theorem retained_retain (retains : prepared.retain config message = some retained)
    (sized : prepared.retransmissionQueueSize = prepared.retransmissionQueue.length) :
    retained.retransmissionQueueSize = retained.retransmissionQueue.length := by
  rw [retain, addRetransmissionMessage] at retains
  split at retains
  · split at retains
    · cases retains
    · rename_i full last found
      injection retains with retains
      rw [← retains]
      have positive : 0 < prepared.retransmissionQueue.length :=
        length_pos_of_mem (mem_of_getLast? found)
      simp only [length_cons, length_dropLast]
      omega
  · injection retains with retains
    rw [← retains]
    simp only [length_cons]
    omega

theorem retained_remove (sub : Subscription Content) (sequenceNumber : BitVec 32)
    (sized : sub.retransmissionQueueSize = sub.retransmissionQueue.length) :
    (sub.removeRetransmissionMessage sequenceNumber).2.retransmissionQueueSize =
      (sub.removeRetransmissionMessage sequenceNumber).2.retransmissionQueue.length := by
  rw [removeRetransmissionMessage]
  split
  · exact sized
  · rename_i message found
    rw [length_eraseP_of_mem (mem_of_find?_eq_some found) (find?_some found), sized]

theorem settings_sound (only : SettingsOnly sub after) (sound : Sound room sub) :
    Sound room after := by
  rw [only]
  exact ⟨{ sound.consistent with }, { sound.recorded with }, sound.bounded⟩

theorem sound (step : SubscriptionStep config sub after)
    (sound : Sound config.queueSizeLimits.min sub) : Sound config.queueSizeLimits.min after := by
  cases step with
  | settings only => exact settings_sound only sound
  | items kept => exact kept.sound
  | acknowledge number =>
    have sized := retained_remove sub number sound.consistent.retained
    rw [removeRetransmissionMessage] at sized ⊢
    cases found : sub.retransmissionQueue.find? (·.sequenceNumber = number) with
    | none => exact sound
    | some message =>
      rw [found] at sized
      exact ⟨{ sound.consistent with retained := sized }, { sound.recorded with }, sound.bounded⟩
  | keepAlive =>
    exact ⟨{ sound.consistent with }, recorded_record sound.recorded fun _ => rfl, sound.bounded⟩
  | @message taken message prepared retained _ _ _ prepares _ retains =>
    have form := retain_eq retains
    have sized := retained_retain retains prepares.consistent.retained
    have recorded : Recorded retained
        (origins message.dataChangeNotification message.eventNotificationList) := by
      rw [form]
      exact { prepares.recorded with }
    refine ⟨?_, recorded_record recorded fun _ => rfl, ?_⟩
    · rw [form] at sized ⊢
      exact { prepares.consistent with retained := sized }
    · rw [form]
      exact prepares.bounded
  | clear kept _ =>
    exact ⟨{ kept.sound.consistent with retained := rfl }, { kept.sound.recorded with },
      kept.sound.bounded⟩

def Limited (sub : Subscription Content) : Prop :=
  ∀ sent ∈ sub.sent, (entries sent.message.dataChangeNotification
    sent.message.eventNotificationList).length ≤ sent.notificationsPerPublish

theorem limited (step : SubscriptionStep config sub after) (limited : Limited sub) :
    Limited after := by
  cases step with
  | settings only =>
    rw [only]
    exact limited
  | items kept =>
    rw [Limited, kept.only.sent]
    exact limited
  | acknowledge number =>
    rw [removeRetransmissionMessage]
    split <;> exact limited
  | keepAlive =>
    intro sent member
    rcases mem_append.mp member with old | last
    · exact limited sent old
    · rw [mem_singleton.mp last]
      exact Nat.zero_le _
  | @message taken message prepared retained notifications _ limit prepares _ retains =>
    have form := retain_eq retains
    intro sent member
    rcases mem_append.mp member with old | last
    · rw [form] at old
      exact limited sent (prepares.only.sent ▸ old)
    · have few : taken.length ≤ sub.notificationsPerPublish := by
        have length := prepares.length
        omega
      have same : retained.notificationsPerPublish = sub.notificationsPerPublish := by
        rw [form, prepares.only]
        rfl
      rw [mem_singleton.mp last, prepares.perm.length_eq, same]
      exact few
  | clear kept _ =>
    intro sent member
    exact limited sent (kept.only.sent ▸ member)

end SubscriptionStep

def Becomes (config : SubscriptionConfig) (sub after : Subscription Content) : Prop :=
  ∀ holds : Subscription Content → Prop,
    (∀ {sub next}, holds sub → SubscriptionStep config sub next → holds next) →
    holds sub → holds after

namespace Becomes

variable {config : SubscriptionConfig} {sub middle after : Subscription Content}

theorem refl : Becomes config sub sub := fun _ _ known => known

theorem step (step : SubscriptionStep config sub after) : Becomes config sub after :=
  fun _ preserved known => preserved known step

theorem trans (first : Becomes config sub middle) (second : Becomes config middle after) :
    Becomes config sub after :=
  fun holds preserved known => second holds preserved (first holds preserved known)

theorem address (becomes : Becomes config sub after) : after.address = sub.address :=
  becomes (·.address = sub.address) (fun same step => step.address.trans same) rfl

theorem sound (becomes : Becomes config sub after)
    (known : Sound config.queueSizeLimits.min sub) : Sound config.queueSizeLimits.min after :=
  becomes (Sound config.queueSizeLimits.min) (fun known step => step.sound known) known

end Becomes

namespace Session

def subscriptions (session : Session Content) : List (Subscription Content) :=
  session.serverSubscriptions ++ session.removed

structure Listed (session : Session Content) : Prop where
  nodup : (session.subscriptions.map Subscription.address).Nodup
  old : ∀ sub ∈ session.subscriptions, sub.address < session.unusedSubscription
  count : session.numSubscriptions = session.serverSubscriptions.length

def Evolves (config : SubscriptionConfig) (session after : Session Content) : Prop :=
  ∀ holds : Subscription Content → Prop,
    (∀ {sub next}, holds sub → SubscriptionStep config sub next → holds next) →
    (∀ address subscriptionId, holds (Subscription.new address subscriptionId)) →
    (∀ sub ∈ session.subscriptions, holds sub) → ∀ sub ∈ after.subscriptions, holds sub

structure Intact (config : SubscriptionConfig) (session : Session Content) : Prop
    extends Listed session where
  sound : ∀ sub ∈ session.subscriptions, Sound config.queueSizeLimits.min sub

structure Advances (config : SubscriptionConfig) (session after : Session Content) : Prop where
  evolves : Evolves config session after
  listed : Listed after

theorem new_sound (address : Nat) (subscriptionId : BitVec 32) :
    Sound room (Subscription.new address subscriptionId : Subscription Content) where
  consistent := {
    items_nodup := nodup_nil
    items_old := fun _ member => nomatch member
    queue_nodup := nodup_nil
    queue_old := fun _ member => nomatch member
    held := fun _ member => nomatch member
    parts := fun _ member => nomatch member
    sizes := fun _ member => nomatch member
    typed := fun _ member => nomatch member
    roomy := fun _ member => nomatch member
    size := rfl
    counted := fun type => by cases type <;> rfl
    retained := rfl }
  recorded := {
    balanced := {
      distinct := nodup_nil
      known := fun _ member => nomatch member
      account := fun _ => rfl }
    old := fun _ member => nomatch member }
  bounded := fun _ member => nomatch member

section Steps

variable {config : SubscriptionConfig} {session middle after : Session Content}
  {sub changed : Subscription Content}
variable {subscriptionId : BitVec 32} {prepared : Subscription Content} {notifications : Nat}
  {holds : Session Content → Prop}

theorem Evolves.trans (first : Evolves config session middle)
    (second : Evolves config middle after) : Evolves config session after :=
  fun holds step new all => second holds step new (first holds step new all)

theorem Advances.trans (first : Advances config session middle)
    (second : Advances config middle after) : Advances config session after :=
  ⟨first.evolves.trans second.evolves, second.listed⟩

theorem Advances.intact (advances : Advances config session after)
    (intact : Intact config session) : Intact config after :=
  { advances.listed with
    sound := advances.evolves (Sound config.queueSizeLimits.min)
      (fun sound step => step.sound sound) new_sound intact.sound }

structure SameSubscriptions (session after : Session Content) : Prop where
  serverSubscriptions : after.serverSubscriptions = session.serverSubscriptions
  removed : after.removed = session.removed
  unusedSubscription : after.unusedSubscription = session.unusedSubscription
  numSubscriptions : after.numSubscriptions = session.numSubscriptions

section

variable (same : SameSubscriptions session after)
include same

theorem SameSubscriptions.subscriptions : after.subscriptions = session.subscriptions := by
  rw [Session.subscriptions, same.serverSubscriptions, same.removed, Session.subscriptions]

theorem SameSubscriptions.listed (listed : Listed session) : Listed after where
  nodup := by
    rw [same.subscriptions]
    exact listed.nodup
  old := by
    rw [same.subscriptions, same.unusedSubscription]
    exact listed.old
  count := by
    rw [same.numSubscriptions, same.serverSubscriptions]
    exact listed.count

theorem SameSubscriptions.advances (listed : Listed session) : Advances config session after :=
  ⟨fun _ _ _ known => same.subscriptions ▸ known, same.listed listed⟩

end

theorem subscription_mem {address : Nat} (found : session.subscription address = some sub) :
    sub ∈ session.serverSubscriptions ∧ sub.address = address := by
  exact ⟨mem_of_find?_eq_some found, by simpa using find?_some found⟩

theorem Listed.subscription_eq (listed : Listed session)
    (member : sub ∈ session.serverSubscriptions) :
    session.subscription sub.address = some sub := by
  have found : (session.subscription sub.address).isSome := by
    rw [Session.subscription, find?_isSome]
    exact ⟨sub, member, by simp⟩
  obtain ⟨other, same⟩ := Option.isSome_iff_exists.mp found
  obtain ⟨present, address⟩ := subscription_mem same
  have nodup := listed.nodup
  rw [subscriptions, map_append, nodup_append] at nodup
  rw [same, inj_on_of_nodup_map nodup.1 present member address]

theorem setSubscription_addresses (session : Session Content) (sub : Subscription Content) :
    (session.setSubscription sub).serverSubscriptions.map Subscription.address =
      session.serverSubscriptions.map Subscription.address := by
  rw [setSubscription, map_map]
  apply map_congr_left
  intro other _
  by_cases same : other.address = sub.address <;> simp [same]

theorem mem_setSubscription {other : Subscription Content}
    (member : other ∈ (session.setSubscription sub).serverSubscriptions) :
    other = sub ∨ other ∈ session.serverSubscriptions ∧ other.address ≠ sub.address := by
  obtain ⟨old, present, rfl⟩ := mem_map.mp member
  by_cases same : old.address = sub.address
  · exact .inl (if_pos same)
  · rw [if_neg same]
    exact .inr ⟨present, same⟩

theorem mem_setSubscription_self (member : sub ∈ session.serverSubscriptions)
    (address : changed.address = sub.address) :
    changed ∈ (session.setSubscription changed).serverSubscriptions := by
  have place : (if sub.address = changed.address then changed else sub) ∈
      (session.setSubscription changed).serverSubscriptions := mem_map_of_mem member
  rw [if_pos address.symm] at place
  exact place

section

variable (listed : Listed session)
include listed

theorem Listed.address_unique {first second : Subscription Content}
    (one : first ∈ session.subscriptions) (other : second ∈ session.subscriptions)
    (same : first.address = second.address) : first = second :=
  inj_on_of_nodup_map listed.nodup one other same

theorem mapped_advances {change : Subscription Content → Subscription Content}
    (each : ∀ sub ∈ session.serverSubscriptions, Becomes config sub (change sub)) :
    Advances config session
      { session with serverSubscriptions := session.serverSubscriptions.map change } where
  evolves := by
    intro holds preserved _ known other present
    rcases mem_append.mp present with present | gone
    · obtain ⟨sub, member, rfl⟩ := mem_map.mp present
      exact each sub member holds preserved (known sub (mem_append_left _ member))
    · exact known other (mem_append_right _ gone)
  listed := by
    have addresses : (session.serverSubscriptions.map change ++ session.removed).map
        Subscription.address = session.subscriptions.map Subscription.address := by
      rw [subscriptions, map_append, map_append, map_map]
      congr 1
      exact map_congr_left fun sub member => (each sub member).address
    refine ⟨?_, ?_, listed.count.trans (length_map _).symm⟩
    · rw [subscriptions, addresses]
      exact listed.nodup
    · intro other present
      have there := addresses ▸ mem_map_of_mem present
      obtain ⟨old, known, same⟩ := mem_map.mp there
      exact same ▸ listed.old old known

theorem setSubscription_each (member : sub ∈ session.serverSubscriptions)
    (address : changed.address = sub.address)
    (related : Subscription Content → Subscription Content → Prop)
    (refl : ∀ other, related other other) (one : related sub changed) :
    ∀ other ∈ session.serverSubscriptions,
      related other (if other.address = changed.address then changed else other) := by
  intro other present
  split
  · rename_i same
    have equal := listed.address_unique (mem_append_left _ present)
      (mem_append_left _ member) (same.trans address)
    exact equal ▸ one
  · exact refl other

theorem setSubscription_advances (member : sub ∈ session.serverSubscriptions)
    (becomes : Becomes config sub changed) :
    Advances config session (session.setSubscription changed) :=
  mapped_advances listed
    (setSubscription_each listed member becomes.address (Becomes config) (fun _ => .refl) becomes)

theorem Listed.address_absent {address : Nat} (unused : session.unusedSubscription ≤ address) :
    address ∉ session.subscriptions.map Subscription.address := by
  intro member
  obtain ⟨sub, present, same⟩ := mem_map.mp member
  have old := listed.old sub present
  omega

theorem addSubscription_advances (address : changed.address = session.unusedSubscription)
    (step : SubscriptionStep config (Subscription.new session.unusedSubscription subscriptionId)
      changed) :
    Advances config session ({ session with
      lastSubscriptionId := subscriptionId
      unusedSubscription := session.unusedSubscription + 1 }.addSubscription changed) where
  evolves := by
    intro holds preserved new known other present
    rcases mem_cons.mp present with rfl | old
    · exact preserved (new _ _) step
    · exact known other old
  listed := by
    refine ⟨?_, ?_, ?_⟩
    · refine nodup_cons.mpr ⟨?_, listed.nodup⟩
      rw [address]
      exact listed.address_absent (Nat.le_refl _)
    · intro other present
      rcases mem_cons.mp present with rfl | old
      · rw [address]
        exact Nat.lt_succ_self _
      · exact Nat.lt_succ_of_lt (listed.old other old)
    · exact congrArg (· + 1) listed.count

end

theorem getSubscriptionById_mem (found : session.getSubscriptionById subscriptionId = some sub) :
    sub ∈ session.serverSubscriptions :=
  mem_of_find?_eq_some found

theorem deleteMembers_step (sound : Sound config.queueSizeLimits.min sub) :
    ∃ after, sub.deleteMembers = some after ∧ SubscriptionStep config sub after := by
  obtain ⟨middle, deletes, kept, only, none⟩ := deleteItems_sound sound rfl
  refine ⟨_, ?_, .clear ⟨kept, only⟩ none⟩
  rw [deleteMembers, deletes]
  rfl

theorem removed_advances (listed : Listed session) (member : sub ∈ session.serverSubscriptions)
    (step : SubscriptionStep config sub changed) :
    Advances config session { session with
      serverSubscriptions := session.serverSubscriptions.filter (·.address ≠ changed.address)
      numSubscriptions := session.numSubscriptions - 1
      removed := session.removed ++ [changed] } := by
  have nodup := listed.nodup
  rw [subscriptions, map_append, nodup_append] at nodup
  have split : ∃ front back, session.serverSubscriptions = front ++ sub :: back ∧
      session.serverSubscriptions.filter (·.address ≠ changed.address) = front ++ back := by
    obtain ⟨front, back, list⟩ := append_of_mem member
    refine ⟨front, back, list, ?_⟩
    have different := nodup.1
    rw [list, map_append, map_cons, nodup_append, nodup_cons] at different
    obtain ⟨-, ⟨late, -⟩, early⟩ := different
    have fronts : front.filter (·.address ≠ changed.address) = front := by
      rw [filter_eq_self]
      intro other present
      rw [decide_eq_true_eq, step.address]
      exact early other.address (mem_map_of_mem present) sub.address (mem_cons_self ..)
    have backs : back.filter (·.address ≠ changed.address) = back := by
      rw [filter_eq_self]
      intro other present
      rw [decide_eq_true_eq, step.address]
      intro same
      exact late (same ▸ mem_map_of_mem present)
    rw [list, filter_append, fronts, filter_cons, if_neg (by simp [step.address]), backs]
  obtain ⟨front, back, list, filtered⟩ := split
  constructor
  · intro holds preserved _ known other present
    rcases mem_append.mp present with live | gone
    · exact known other (mem_append_left _ (mem_of_mem_filter live))
    · rcases mem_append.mp gone with old | last
      · exact known other (mem_append_right _ old)
      · rw [mem_singleton.mp last]
        exact preserved (known sub (mem_append_left _ member)) step
  · have addresses : ((front ++ back) ++ (session.removed ++ [changed])).map Subscription.address
        |>.Perm (session.subscriptions.map Subscription.address) := by
      rw [subscriptions, list]
      simp only [map_append, map_cons, map_nil, step.address, append_assoc]
      refine List.Perm.append_left _ ?_
      rw [← append_assoc]
      exact perm_append_singleton _ _
    refine ⟨?_, ?_, ?_⟩
    · rw [subscriptions]
      dsimp only
      rw [filtered]
      exact addresses.nodup_iff.mpr listed.nodup
    · intro other present
      have there : other.address ∈ session.subscriptions.map Subscription.address := by
        rw [subscriptions] at present
        rw [filtered] at present
        exact addresses.mem_iff.mp (mem_map_of_mem present)
      obtain ⟨old, known, same⟩ := mem_map.mp there
      rw [← same]
      exact listed.old old known
    · dsimp only
      rw [filtered, listed.count, list]
      simp

theorem deleteSubscription_advances (config : SubscriptionConfig)
    (intact : Intact config session) (subscriptionId : BitVec 32) (memory : Bool) :
    ∃ status after, session.deleteSubscription subscriptionId memory = some (status, after) ∧
      Advances config session after := by
  rw [deleteSubscription]
  cases found : session.getSubscriptionById subscriptionId with
  | none =>
    exact ⟨_, session, rfl, SameSubscriptions.advances ⟨rfl, rfl, rfl, rfl⟩ intact.toListed⟩
  | some sub =>
    have member := getSubscriptionById_mem found
    obtain ⟨cleared, deletes, step⟩ : ∃ cleared, sub.deleteMembers = some cleared ∧
        SubscriptionStep config sub cleared :=
      deleteMembers_step (intact.sound sub (mem_append_left _ member))
    have positive : session.numSubscriptions ≠ 0 := by
      rw [intact.count]
      exact Nat.ne_of_gt (length_pos_of_mem member)
    cases memory with
    | false =>
      refine ⟨.badOutOfMemory, session.setSubscription cleared, by simp [deletes], ?_⟩
      exact setSubscription_advances intact.toListed member (.step step)
    | true =>
      refine ⟨.good, _, ?_, removed_advances intact.toListed member step⟩
      simp only [deletes, Option.bind_eq_bind, Option.bind_some, Bool.not_true,
        Bool.false_eq_true, if_false, if_neg positive]

/-! A round of publishing -/

def answer (session : Session Content) (entry : PublishResponseEntry) (sub : Subscription Content)
    (more : Bool) (message : NotificationMessage Content) : PublishResponse Content where
  channel := session.channel
  requestId := entry.requestId
  requestHandle := entry.requestHandle
  serviceResult := .good
  subscriptionId := sub.subscriptionId
  availableSequenceNumbers := sub.retransmissionQueue.map (·.sequenceNumber)
  moreNotifications := more
  notificationMessage := message
  results := entry.results

def answered (session : Session Content) (sub : Subscription Content)
    (response : PublishResponse Content) : Session Content :=
  (session.dequeuePublishReq.2.setSubscription sub).send response

inductive PublishRound (config : SubscriptionConfig) (session : Session Content)
    (sub : Subscription Content) (memory : Bool) : Bool → Session Content → Prop
  | expires {changed : Subscription Content} {status : StatusCode} {after : Session Content}
      (empty : session.responseQueue = [])
      (only : SettingsOnly sub changed)
      (deletes : (session.setSubscription changed).deleteSubscription sub.subscriptionId memory =
        some (status, after)) :
      PublishRound config session sub memory false after
  | waits {changed : Subscription Content} (only : SettingsOnly sub changed) :
      PublishRound config session sub memory false
        ((session.dequeuePublishReq.2.setSubscription changed).requeue session.dequeuePublishReq.1)
  | keepAlive {entry rest channel final} {changed : Subscription Content} {more : Bool}
      (first : session.responseQueue = entry :: rest) (attached : session.channel = some channel)
      (only : SettingsOnly sub changed)
      (finish : SettingsOnly (changed.record changed.keepAliveMessage) final) :
      PublishRound config session sub memory more
        (session.answered final (session.answer entry changed more changed.keepAliveMessage))
  | message {entry rest channel taken message prepared retained final}
      {changed : Subscription Content} {notifications : Nat} {more : Bool}
      (first : session.responseQueue = entry :: rest) (attached : session.channel = some channel)
      (only : SettingsOnly sub changed) (wanted : 0 < notifications)
      (limit : notifications ≤ changed.notificationsPerPublish)
      (prepares : Prepared config.queueSizeLimits.min changed notifications taken message prepared)
      (numbered : message.sequenceNumber = nextSequenceNumber changed.sequenceNumber)
      (retains : prepared.retain config message = some retained)
      (finish : SettingsOnly (retained.record message) final) :
      PublishRound config session sub memory more
        (session.answered final (session.answer entry retained more message))

theorem retain_some (config : SubscriptionConfig) (consistent : Consistent room prepared)
    (message : NotificationMessage Content) :
    ∃ retained, prepared.retain config message = some retained := by
  rw [retain, addRetransmissionMessage]
  split
  · rename_i full
    split
    · rename_i empty
      have sized := consistent.retained
      dsimp only at full empty
      rw [getLast?_eq_none_iff.mp empty, length_nil] at sized
      omega
    · exact ⟨_, rfl⟩
  · exact ⟨_, rfl⟩

theorem sendMessage_eq (session : Session Content) {message : NotificationMessage Content}
    {retained : Subscription Content} (pre : PublishResponseEntry) (more : Bool)
    (wanted : 0 < notifications) (ready : notifications ≤ prepared.readyNotifications)
    (sized : prepared.retransmissionQueueSize = prepared.retransmissionQueue.length)
    (retains : prepared.retain config
      { message with sequenceNumber := nextSequenceNumber prepared.sequenceNumber } =
        some retained) :
    ∃ final, SettingsOnly (retained.record
        { message with sequenceNumber := nextSequenceNumber prepared.sequenceNumber }) final ∧
      final.address = prepared.address ∧
      session.sendMessage config prepared pre notifications more message =
        some ((session.setSubscription final).send (session.answer pre retained more
          { message with sequenceNumber := nextSequenceNumber prepared.sequenceNumber })) := by
  have enough := Nat.not_lt_of_le ready
  have form := SubscriptionStep.retain_eq retains
  have size := SubscriptionStep.retained_retain retains sized
  have counted : { prepared with
      readyNotifications := prepared.readyNotifications - notifications
      sequenceNumber := nextSequenceNumber prepared.sequenceNumber }.addRetransmissionMessage config
        { message with sequenceNumber := nextSequenceNumber prepared.sequenceNumber } =
      some { retained with
        readyNotifications := prepared.readyNotifications - notifications } := by
    rw [retain, addRetransmissionMessage] at retains
    rw [addRetransmissionMessage]
    split at retains
    · rename_i full
      rw [if_pos full]
      split at retains
      · cases retains
      · rename_i last found
        injection retains with retains
        rw [← retains]
        simp only [found]
    · rename_i full
      rw [if_neg full]
      injection retains with retains
      rw [← retains]
  refine ⟨{ retained with
    readyNotifications := prepared.readyNotifications - notifications
    state := .normal
    currentKeepAliveCount := 0
    sent := retained.sent ++ [⟨retained.notificationsPerPublish,
      { message with sequenceNumber := nextSequenceNumber prepared.sequenceNumber }⟩] },
    rfl, ?_, ?_⟩
  · have same := congrArg Subscription.address form
    exact same
  · have fits : ¬ retained.retransmissionQueueSize < retained.retransmissionQueue.length := by
      omega
    rw [sendMessage, if_neg enough]
    dsimp only
    rw [if_pos wanted, counted]
    simp only [Option.bind_eq_bind, Option.bind_some, if_neg fits]
    rfl

theorem sendKeepAlive_eq (config : SubscriptionConfig) (session : Session Content)
    (pre : PublishResponseEntry) (more : Bool)
    (sized : sub.retransmissionQueueSize = sub.retransmissionQueue.length) :
    ∃ final, SettingsOnly (sub.record sub.keepAliveMessage) final ∧ final.address = sub.address ∧
      session.sendMessage config sub pre 0 more emptyMessage =
        some ((session.setSubscription final).send
          (session.answer pre sub more sub.keepAliveMessage)) := by
  refine ⟨{ sub with
    readyNotifications := sub.readyNotifications - 0
    state := .normal
    currentKeepAliveCount := 0
    sent := sub.sent ++ [⟨sub.notificationsPerPublish, sub.keepAliveMessage⟩] }, rfl, rfl, ?_⟩
  have fits : ¬ sub.retransmissionQueueSize < sub.retransmissionQueue.length := by omega
  rw [sendMessage]
  simp only [gt_iff_lt, Nat.lt_irrefl, if_false, Option.bind_eq_bind, Option.bind_some,
    if_neg fits]
  rfl

theorem dequeuePublishReq_channel (session : Session Content) :
    session.dequeuePublishReq.2.channel = session.channel := by
  rw [dequeuePublishReq]
  split <;> rfl

theorem dequeuePublishReq_some {entry : PublishResponseEntry}
    (dequeued : session.dequeuePublishReq.1 = some entry) :
    ∃ rest, session.responseQueue = entry :: rest := by
  rw [dequeuePublishReq] at dequeued
  split at dequeued
  · cases dequeued
  · rename_i first rest queue
    injection dequeued with dequeued
    exact ⟨rest, dequeued ▸ queue⟩

theorem becomeLate_round (only : SettingsOnly sub changed) (memory : Bool) :
    PublishRound config session sub memory false
      (session.dequeuePublishReq.2.becomeLate changed session.dequeuePublishReq.1) := by
  have late : SettingsOnly changed { changed with state := .late } := rfl
  exact .waits (only.trans late)

theorem dequeued_answer (session : Session Content) :
    session.dequeuePublishReq.2.answer = session.answer := by
  funext entry sub more message
  rw [answer, dequeuePublishReq_channel, answer]

theorem respond_round (sound : Sound config.queueSizeLimits.min sub)
    (only : SettingsOnly sub changed) (limit : notifications ≤ changed.notificationsPerPublish)
    (ready : notifications ≤ changed.readyNotifications)
    (few : changed.readyNotifications ≤ changed.notificationQueueSize) (more memory : Bool) :
    ∃ again after, session.dequeuePublishReq.2.respond config changed session.dequeuePublishReq.1
        notifications more memory = some (again, after) ∧
      PublishRound config session sub memory again after := by
  have kept := SubscriptionStep.settings_sound only sound
  have channels := dequeuePublishReq_channel session
  cases attached : session.channel with
  | none =>
    refine ⟨_, _, ?_, becomeLate_round only memory⟩
    rw [attached] at channels
    simp only [respond, channels]
  | some channel =>
    rw [attached] at channels
    cases dequeued : session.dequeuePublishReq.1 with
    | none =>
      have late : PublishRound config session sub memory false _ :=
        becomeLate_round only memory
      rw [dequeued] at late
      refine ⟨_, _, ?_, late⟩
      simp only [respond, channels]
    | some entry =>
      obtain ⟨rest, first⟩ := dequeuePublishReq_some dequeued
      simp only [respond, channels]
      by_cases none : notifications = 0
      · obtain ⟨final, finish, -, sends⟩ := sendKeepAlive_eq config
          session.dequeuePublishReq.2 entry more kept.consistent.retained
        refine ⟨more, _, ?_, .keepAlive first attached only finish⟩
        rw [if_pos none, sends, dequeued_answer]
        rfl
      · rw [if_neg none]
        cases memory with
        | false =>
          have late : PublishRound config session sub false false _ :=
            becomeLate_round only false
          rw [dequeued] at late
          exact ⟨_, _, rfl, late⟩
        | true =>
          have wanted : 0 < notifications := Nat.pos_of_ne_zero none
          have present : 0 < changed.notificationQueue.length := by
            rw [← kept.consistent.size]
            omega
          obtain ⟨taken, message, prepared, prepares, filled⟩ :=
            prepareNotificationMessage_prepared kept wanted present
          obtain ⟨retained, retains⟩ := retain_some config filled.consistent
            { message with sequenceNumber := nextSequenceNumber prepared.sequenceNumber }
          have enough : notifications ≤ prepared.readyNotifications := by
            have same := congrArg Subscription.readyNotifications filled.only
            exact Nat.le_trans ready (Nat.le_of_eq same.symm)
          obtain ⟨final, finish, -, sends⟩ := sendMessage_eq
            session.dequeuePublishReq.2 entry more wanted enough filled.consistent.retained
            retains
          have numbers : nextSequenceNumber prepared.sequenceNumber =
              nextSequenceNumber changed.sequenceNumber := by
            have same := congrArg Subscription.sequenceNumber filled.only
            exact congrArg nextSequenceNumber same
          have renumbered : Prepared config.queueSizeLimits.min changed notifications taken
              { message with sequenceNumber := nextSequenceNumber prepared.sequenceNumber }
              prepared := { filled with }
          refine ⟨more, _, ?_, .message first attached only wanted limit renumbered numbers
            retains finish⟩
          simp only [Bool.not_true, Bool.false_eq_true, if_false, prepares,
            Option.bind_eq_bind, Option.bind_some, sends, dequeued_answer]
          rfl

theorem publishAvailable_round (config : SubscriptionConfig) (session : Session Content)
    (sound : Sound config.queueSizeLimits.min sub) (only : SettingsOnly sub changed)
    (memory : Bool) :
    ∃ again after, session.dequeuePublishReq.2.publishAvailable config changed
        session.dequeuePublishReq.1 memory = some (again, after) ∧
      PublishRound config session sub memory again after := by
  have counted : SettingsOnly changed changed.countReady := rfl
  have first := only.trans counted
  have few : changed.countReady.readyNotifications ≤ changed.countReady.notificationQueueSize :=
    Nat.min_le_right _ _
  have ready : changed.countReady.available ≤ changed.countReady.readyNotifications := by
    rw [available]
    split
    · exact Nat.le_refl _
    · exact Nat.zero_le _
  rw [publishAvailable]
  dsimp only
  split
  · have alive : SettingsOnly changed.countReady changed.countReady.countKeepAlive := rfl
    have second := first.trans alive
    split
    · exact ⟨_, _, rfl, .waits second⟩
    · exact respond_round sound second (Nat.zero_le _) (Nat.zero_le _) few _ memory
  · exact respond_round sound first (Nat.min_le_right _ _)
      (Nat.le_trans (Nat.min_le_left _ _) ready) few _ memory

theorem publishOnce_round (config : SubscriptionConfig) (intact : Intact config session) {address : Nat}
    (found : session.subscription address = some sub) (memory : Bool) :
    ∃ again after, session.publishOnce config address memory = some (again, after) ∧
      PublishRound config session sub memory again after := by
  have member := (subscription_mem found).1
  have sound := intact.sound sub (mem_append_left _ member)
  rw [publishOnce, found]
  cases queue : session.responseQueue with
  | nil =>
    have dequeued : session.dequeuePublishReq = (none, session) := by
      rw [dequeuePublishReq, queue]
    have only : SettingsOnly sub
        { sub with currentLifetimeCount := sub.currentLifetimeCount + 1 } := rfl
    simp only [dequeued, Option.bind_eq_bind, Option.bind_some]
    split
    · have step : Advances config session _ :=
        setSubscription_advances intact.toListed member (.step (.settings only))
      obtain ⟨status, after, deletes, -⟩ := deleteSubscription_advances config
        (step.intact intact) sub.subscriptionId memory
      refine ⟨false, after, ?_, .expires queue only deletes⟩
      rw [deletes]
      rfl
    · have round := publishAvailable_round config session sound only memory
      rw [dequeued] at round
      exact round
  | cons entry rest =>
    have dequeued : session.dequeuePublishReq.1 = some entry := by
      rw [dequeuePublishReq, queue]
    have only : SettingsOnly sub { sub with currentLifetimeCount := 0 } := rfl
    have round := publishAvailable_round config session sound only memory
    rw [dequeued] at round
    simp only [dequeued, Option.bind_eq_bind, Option.bind_some]
    exact round

theorem publishOnce_inv (intact : Intact config session) {address : Nat} {memory again : Bool}
    (publishes : session.publishOnce config address memory = some (again, after)) :
    ∃ sub, session.subscription address = some sub ∧
      PublishRound config session sub memory again after := by
  obtain ⟨sub, found, -⟩ := Option.bind_eq_some_iff.mp publishes
  obtain ⟨other, result, same, round⟩ := publishOnce_round config intact found memory
  rw [publishes] at same
  injection same with same
  injection same with first second
  subst first second
  exact ⟨sub, found, round⟩

theorem dequeuePublishReq_same (session : Session Content) :
    SameSubscriptions session session.dequeuePublishReq.2 := by
  rw [dequeuePublishReq]
  split <;> exact ⟨rfl, rfl, rfl, rfl⟩

theorem requeue_same (session : Session Content) (pre : Option PublishResponseEntry) :
    SameSubscriptions session (session.requeue pre) := by
  cases pre <;> exact ⟨rfl, rfl, rfl, rfl⟩

theorem dequeued_mem (member : sub ∈ session.serverSubscriptions) :
    sub ∈ session.dequeuePublishReq.2.serverSubscriptions := by
  rw [(dequeuePublishReq_same session).serverSubscriptions]
  exact member

theorem answered_advances (listed : Listed session) (member : sub ∈ session.serverSubscriptions)
    (response : PublishResponse Content)
    (becomes : Becomes config sub changed) :
    Advances config session (session.answered changed response) := by
  have first : Advances config session _ := (dequeuePublishReq_same session).advances listed
  have second := setSubscription_advances first.listed (dequeued_mem member) becomes
  have third : SameSubscriptions (session.dequeuePublishReq.2.setSubscription changed)
      (session.answered changed response) := ⟨rfl, rfl, rfl, rfl⟩
  exact (first.trans second).trans (third.advances second.listed)

namespace PublishRound

variable {memory again : Bool}

theorem advances (round : PublishRound config session sub memory again after)
    (intact : Intact config session) (member : sub ∈ session.serverSubscriptions) :
    Advances config session after := by
  cases round with
  | expires _ only deletes =>
    have first : Advances config session _ :=
      setSubscription_advances intact.toListed member (.step (.settings only))
    obtain ⟨status, result, same, second⟩ := deleteSubscription_advances config
      (first.intact intact) sub.subscriptionId memory
    rw [deletes] at same
    injection same with same
    injection same with _ same
    subst same
    exact first.trans second
  | waits only =>
    have first : Advances config session _ :=
      (dequeuePublishReq_same session).advances intact.toListed
    have second : Advances config _ _ :=
      setSubscription_advances first.listed (dequeued_mem member) (.step (.settings only))
    have third : Advances config _ _ := (requeue_same _ session.dequeuePublishReq.1).advances
      second.listed
    exact (first.trans second).trans third
  | @keepAlive _ _ _ _ changed _ _ _ only finish =>
    have settled : Becomes config sub changed := .step (.settings only)
    have sends : Becomes config changed _ := .step (.keepAlive changed)
    exact answered_advances intact.toListed member _
      ((settled.trans sends).trans (.step (.settings finish)))
  | message _ _ only wanted limit prepares numbered retains finish =>
    have settled : Becomes config sub _ := .step (.settings only)
    have sends : Becomes config _ _ :=
      .step (.message wanted limit prepares numbered retains)
    exact answered_advances intact.toListed member _
      ((settled.trans sends).trans (.step (.settings finish)))

theorem repeats (round : PublishRound config session sub memory true after)
    (listed : Listed after) (member : sub ∈ session.serverSubscriptions) :
    after.responseQueue.length < session.responseQueue.length ∧
      (after.subscription sub.address).isSome := by
  have shorter : ∀ {entry rest} (final : Subscription Content) response,
      session.responseQueue = entry :: rest →
      (session.answered final response).responseQueue.length < session.responseQueue.length := by
    intro entry rest final response first
    rw [answered, dequeuePublishReq, first]
    exact Nat.lt_succ_self _
  have there : ∀ (final : Subscription Content) response, Listed (session.answered final response) →
      final.address = sub.address →
      ((session.answered final response).subscription sub.address).isSome := by
    intro final response listed same
    have present := mem_setSubscription_self (dequeued_mem member) same
    rw [← same, listed.subscription_eq present]
    rfl
  cases round with
  | keepAlive first _ only finish =>
    exact ⟨shorter _ _ first, there _ _ listed (finish.address.trans only.address)⟩
  | message first _ only _ _ prepares _ retains finish =>
    refine ⟨shorter _ _ first, there _ _ listed ?_⟩
    have retained := congrArg Subscription.address (SubscriptionStep.retain_eq retains)
    calc _ = _ := finish.address
      _ = _ := retained
      _ = _ := prepares.only.address
      _ = _ := only.address

end PublishRound

theorem publishRounds_advances : ∀ {rounds : Nat} {session : Session Content} {address : Nat}
    {memory : List Bool}, Intact config session → (session.subscription address).isSome →
      session.responseQueue.length < rounds →
      ∃ after, publishRounds config rounds session address memory = some after ∧
        Advances config session after := by
  intro rounds
  induction rounds with
  | zero =>
    intro session address memory _ _ none
    exact absurd none (Nat.not_lt_zero _)
  | succ rounds ih =>
    intro session address memory intact found enough
    obtain ⟨sub, found⟩ := Option.isSome_iff_exists.mp found
    obtain ⟨member, same⟩ := subscription_mem found
    obtain ⟨again, middle, publishes, round⟩ :=
      publishOnce_round config intact found (memory.headD true)
    have first := round.advances intact member
    cases again with
    | false =>
      refine ⟨middle, ?_, first⟩
      rw [publishRounds, publishes]
      rfl
    | true =>
      obtain ⟨shorter, present⟩ := round.repeats first.listed member
      obtain ⟨after, rest, second⟩ : ∃ after,
          publishRounds config rounds middle address memory.tail = some after ∧
            Advances config middle after :=
        ih (first.intact intact) (same ▸ present) (by omega)
      refine ⟨after, ?_, first.trans second⟩
      rw [publishRounds, publishes]
      exact rest

theorem publishRounds_once (each : ∀ {session after address memory again}, Intact config session →
      session.publishOnce config address memory = some (again, after) →
      holds session → holds after) :
    ∀ {rounds : Nat} {session after : Session Content} {address : Nat} {memory : List Bool},
      Intact config session → publishRounds config rounds session address memory = some after →
      holds session → holds after := by
  intro rounds
  induction rounds with
  | zero =>
    intro session after address memory _ publishes _
    cases publishes
  | succ rounds ih =>
    intro session after address memory intact publishes known
    obtain ⟨⟨again, middle⟩, once, publishes⟩ := Option.bind_eq_some_iff.mp publishes
    have first := each intact once known
    cases again with
    | false =>
      injection publishes with same
      exact same ▸ first
    | true =>
      obtain ⟨sub, found, round⟩ := publishOnce_inv intact once
      exact ih ((round.advances intact (subscription_mem found).1).intact intact) publishes first

theorem publishRounds_kept (each : ∀ {session after sub memory again},
      PublishRound config session sub memory again after → holds session → holds after)
    {rounds : Nat} {address : Nat} {memory : List Bool} (intact : Intact config session)
    (publishes : publishRounds config rounds session address memory = some after) :
    holds session → holds after := by
  refine publishRounds_once ?_ intact publishes
  intro session after address memory again intact once
  obtain ⟨sub, -, round⟩ := publishOnce_inv intact once
  exact each round

theorem publish_advances (config : SubscriptionConfig) (intact : Intact config session)
    (member : sub ∈ session.serverSubscriptions) (memory : List Bool) :
    ∃ after, session.publish config sub.address memory = some after ∧
      Advances config session after := by
  have found := intact.toListed.subscription_eq member
  exact publishRounds_advances intact (by rw [found]; rfl) (Nat.lt_succ_self _)

end Steps

end Session

end OpcUa
