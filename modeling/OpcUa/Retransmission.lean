import OpcUa.Delivery

/-!
The sequence numbers of the messages of a subscription, and the messages it keeps for
retransmission. The messages with notifications have the numbers from 1 to 2^32 - 1 in turn. Those
that no client has acknowledged are in the queue for retransmission, or they are older than all
that is there.
-/

namespace OpcUa

open Subscription List

variable {Content : Type}

def messageNumber (index : Nat) : BitVec 32 := BitVec.ofNat 32 (index % (2 ^ 32 - 1) + 1)

theorem messageNumber_toNat (index : Nat) :
    (messageNumber index).toNat = index % (2 ^ 32 - 1) + 1 := by
  have small : index % (2 ^ 32 - 1) < 2 ^ 32 - 1 := Nat.mod_lt _ (by decide)
  rw [messageNumber, BitVec.toNat_ofNat]
  omega

theorem messageNumber_ne_zero (index : Nat) : messageNumber index ≠ 0 := by
  intro zero
  have number := messageNumber_toNat index
  rw [zero] at number
  exact absurd number.symm (Nat.succ_ne_zero _)

theorem nextSequenceNumber_messageNumber (index : Nat) :
    nextSequenceNumber (messageNumber index) = messageNumber (index + 1) := by
  have number := messageNumber_toNat index
  have next := messageNumber_toNat (index + 1)
  have small : index % (2 ^ 32 - 1) < 2 ^ 32 - 1 := Nat.mod_lt _ (by decide)
  have sum : (messageNumber index + 1).toNat = (index % (2 ^ 32 - 1) + 2) % 2 ^ 32 := by
    rw [BitVec.toNat_add, number]
    rfl
  apply BitVec.eq_of_toNat_eq
  rw [nextSequenceNumber, next]
  by_cases last : index % (2 ^ 32 - 1) = 2 ^ 32 - 2
  · have wraps : messageNumber index + 1 = 0 := by
      apply BitVec.eq_of_toNat_eq
      rw [sum, last]
      rfl
    rw [if_pos wraps]
    change 1 = _
    omega
  · have goes : messageNumber index + 1 ≠ 0 := by
      intro zero
      rw [zero] at sum
      change 0 = _ at sum
      omega
    rw [if_neg goes, sum]
    omega

theorem messageNumber_ne {first second : Nat} (before : first < second)
    (near : second < first + (2 ^ 32 - 1)) : messageNumber first ≠ messageNumber second := by
  intro same
  have numbers := congrArg BitVec.toNat same
  rw [messageNumber_toNat, messageNumber_toNat] at numbers
  omega

def NotificationMessage.isKeepAlive (message : NotificationMessage Content) : Bool :=
  (entries message.dataChangeNotification message.eventNotificationList).isEmpty

def notificationMessages (sent : List (SentMessage Content)) : List (NotificationMessage Content) :=
  (sent.map SentMessage.message).filter fun message => !message.isKeepAlive

namespace Subscription

section Messages

variable {sub after : Subscription Content} {room : Nat}
variable {moving : Nat → List Nat}

structure SameMessages (sub after : Subscription Content) : Prop where
  sequenceNumber : after.sequenceNumber = sub.sequenceNumber
  retransmissionQueue : after.retransmissionQueue = sub.retransmissionQueue
  retransmissionQueueSize : after.retransmissionQueueSize = sub.retransmissionQueueSize
  sent : after.sent = sub.sent
  acknowledged : after.acknowledged = sub.acknowledged
  released : after.released = sub.released

theorem SettingsOnly.messages (only : SettingsOnly sub after) : SameMessages sub after := by
  rw [only]
  exact ⟨rfl, rfl, rfl, rfl, rfl, rfl⟩

theorem QueuesOnly.messages (only : QueuesOnly sub after) : SameMessages sub after := by
  rw [only]
  exact ⟨rfl, rfl, rfl, rfl, rfl, rfl⟩

theorem keepAliveMessage_isKeepAlive (sub : Subscription Content) :
    sub.keepAliveMessage.isKeepAlive = true := rfl

theorem notificationMessages_record (sub : Subscription Content)
    (message : NotificationMessage Content) :
    notificationMessages (sub.record message).sent =
      notificationMessages sub.sent ++ if message.isKeepAlive then [] else [message] := by
  rw [record]
  cases alive : message.isKeepAlive <;> simp [notificationMessages, alive]

theorem origins_nonempty {message : NotificationMessage Content}
    (notifies : message.isKeepAlive = false) :
    ∃ mon n, n ∈ origins message.dataChangeNotification message.eventNotificationList mon := by
  rw [NotificationMessage.isKeepAlive, isEmpty_eq_false_iff] at notifies
  obtain ⟨n, member⟩ := exists_mem_of_ne_nil _ notifies
  rcases mem_append.mp member with change | event
  · obtain ⟨entry, there, rfl⟩ := mem_map.mp change
    refine ⟨entry.mon, entry.origin, mem_append_left _ (mem_map_of_mem ?_)⟩
    exact mem_filter.mpr ⟨there, by simp⟩
  · obtain ⟨entry, there, rfl⟩ := mem_map.mp event
    refine ⟨entry.mon, entry.origin, mem_append_right _ (mem_map_of_mem ?_)⟩
    exact mem_filter.mpr ⟨there, by simp⟩

theorem Recorded.messages_nodup (recorded : Recorded sub moving) :
    (notificationMessages sub.sent).Nodup := by
  rw [notificationMessages, nodup_iff_pairwise_ne, pairwise_filter, pairwise_map,
    pairwise_iff_getElem]
  intro first second firstBound secondBound before notifies _ same
  obtain ⟨mon, n, there⟩ := origins_nonempty (by simpa using notifies)
  have nodup : (sub.sentBy mon).Nodup := by
    have all := recorded.balanced.nodup mon
    exact (nodup_append.mp (nodup_append.mp all).1).1
  rw [sentBy, nodup_flatMap, pairwise_iff_getElem] at nodup
  have apart := nodup.2 first second firstBound secondBound before
  have again := there
  rw [same] at again
  exact apart there again

/-- Every message has the number of its turn. A keep-alive has the number of the next message with
notifications. -/
structure Numbered (sub : Subscription Content) : Prop where
  next : nextSequenceNumber sub.sequenceNumber =
    messageNumber (notificationMessages sub.sent).length
  numbers : (notificationMessages sub.sent).map NotificationMessage.sequenceNumber =
    (List.range (notificationMessages sub.sent).length).map messageNumber
  keepAlives : ∀ index sent, sub.sent[index]? = some sent → sent.message.isKeepAlive →
    sent.message.sequenceNumber = messageNumber (notificationMessages (sub.sent.take index)).length

theorem Numbered.of_same (numbered : Numbered sub) (same : SameMessages sub after) :
    Numbered after := by
  refine ⟨?_, ?_, ?_⟩
  · rw [same.sequenceNumber, same.sent]
    exact numbered.next
  · rw [same.sent]
    exact numbered.numbers
  · rw [same.sent]
    exact numbered.keepAlives

theorem Numbered.keepAlive (numbered : Numbered sub) :
    Numbered (sub.record sub.keepAliveMessage) := by
  have same : notificationMessages (sub.record sub.keepAliveMessage).sent =
      notificationMessages sub.sent := by
    rw [notificationMessages_record, keepAliveMessage_isKeepAlive, if_pos rfl, append_nil]
  refine ⟨?_, ?_, ?_⟩
  · rw [same]
    exact numbered.next
  · rw [same]
    exact numbered.numbers
  · intro index sent found alive
    rw [record, getElem?_append] at found
    rw [record]
    split at found
    · rename_i inside
      rw [take_append_of_le_length (Nat.le_of_lt inside)]
      exact numbered.keepAlives index sent found alive
    · rename_i outside
      obtain ⟨bound, rfl⟩ := List.getElem?_eq_some_iff.mp found
      have last : index = sub.sent.length := by
        rw [List.length_singleton] at bound
        omega
      subst last
      simpa [keepAliveMessage] using numbered.next

theorem Numbered.message (numbered : Numbered sub) {message : NotificationMessage Content}
    (number : message.sequenceNumber = nextSequenceNumber sub.sequenceNumber)
    (notifies : message.isKeepAlive = false) (set : after.sequenceNumber = message.sequenceNumber)
    (sent : after.sent = sub.sent) : Numbered (after.record message) := by
  have longer : notificationMessages (after.record message).sent =
      notificationMessages sub.sent ++ [message] := by
    rw [notificationMessages_record, notifies, sent]
    rfl
  refine ⟨?_, ?_, ?_⟩
  · rw [longer, length_append, List.length_singleton, ← nextSequenceNumber_messageNumber,
      ← numbered.next, ← number]
    exact congrArg nextSequenceNumber set
  · rw [longer, length_append, List.length_singleton, range_succ, map_append,
      map_append, numbered.numbers, map_singleton, map_singleton, number,
      numbered.next]
  · intro index entry found alive
    rw [record, sent, getElem?_append] at found
    rw [record, sent]
    split at found
    · rename_i inside
      rw [take_append_of_le_length (Nat.le_of_lt inside)]
      exact numbered.keepAlives index entry found alive
    · obtain ⟨bound, rfl⟩ := List.getElem?_eq_some_iff.mp found
      simp [notifies] at alive

/-! The queue for retransmission -/

theorem removeRetransmissionMessage_cases (sub : Subscription Content)
    (sequenceNumber : BitVec 32) :
    (∀ message ∈ sub.retransmissionQueue, message.sequenceNumber ≠ sequenceNumber) ∧
        sub.removeRetransmissionMessage sequenceNumber = (.badSequenceNumberUnknown, sub) ∨
      ∃ front message back, sub.retransmissionQueue = front ++ message :: back ∧
        message.sequenceNumber = sequenceNumber ∧
        (∀ other ∈ front, other.sequenceNumber ≠ sequenceNumber) ∧
        sub.removeRetransmissionMessage sequenceNumber = (.good, { sub with
          retransmissionQueue := front ++ back
          retransmissionQueueSize := sub.retransmissionQueueSize - 1
          acknowledged := sub.acknowledged ++ [message] }) := by
  rw [removeRetransmissionMessage]
  cases found : sub.retransmissionQueue.find? (·.sequenceNumber = sequenceNumber) with
  | none =>
    refine .inl ⟨?_, rfl⟩
    intro message member
    simpa using find?_eq_none.mp found message member
  | some message =>
    obtain ⟨same, front, back, queue, others⟩ := find?_eq_some_iff_append.mp found
    have different : ∀ other ∈ front, other.sequenceNumber ≠ sequenceNumber := by
      intro other member
      simpa using others other member
    have erased : sub.retransmissionQueue.eraseP (·.sequenceNumber = sequenceNumber) =
        front ++ back := by
      rw [queue, eraseP_append_right, eraseP_cons, same, cond_true]
      intro other member
      simpa using different other member
    exact .inr ⟨front, message, back, queue, by simpa using same, different, by simp only [erased]⟩

theorem addRetransmissionMessage_cases {config : SubscriptionConfig}
    {message : NotificationMessage Content}
    (adds : sub.addRetransmissionMessage config message = some after) :
    (∃ rest last, sub.retransmissionQueue = rest ++ [last] ∧ config.maxRetransmissionQueueSize ≠ 0 ∧
        config.maxRetransmissionQueueSize ≤ sub.retransmissionQueueSize ∧
        after = { sub with
          retransmissionQueue := message :: rest
          retransmissionQueueSize := sub.retransmissionQueueSize - 1 + 1
          released := (.full, last) :: sub.released }) ∨
      (config.maxRetransmissionQueueSize ≠ 0 →
        sub.retransmissionQueueSize < config.maxRetransmissionQueueSize) ∧
        after = { sub with
          retransmissionQueue := message :: sub.retransmissionQueue
          retransmissionQueueSize := sub.retransmissionQueueSize + 1 } := by
  rw [addRetransmissionMessage] at adds
  split at adds
  · rename_i full
    split at adds
    · cases adds
    · rename_i last found
      injection adds with adds
      refine .inl ⟨sub.retransmissionQueue.dropLast, last, ?_, Nat.ne_of_gt full.1, full.2,
        adds.symm⟩
      exact (dropLast_append_getLast? last found).symm
  · rename_i space
    injection adds with adds
    refine .inr ⟨?_, adds.symm⟩
    intro limited
    exact Nat.lt_of_not_le fun full => space ⟨Nat.pos_of_ne_zero limited, full⟩

variable [DecidableEq Content]

def unacknowledged (sub : Subscription Content) : List (NotificationMessage Content) :=
  (notificationMessages sub.sent).reverse.filter (· ∉ sub.acknowledged)

/-- The queue has the most recent of the messages that were not acknowledged. The others were
released because the queue was full or with the subscription. -/
structure Retained (config : SubscriptionConfig) (sub : Subscription Content) : Prop where
  account : sub.unacknowledged = sub.retransmissionQueue ++ sub.released.map Prod.snd
  known : ∀ message ∈ sub.acknowledged, message ∈ notificationMessages sub.sent
  spacious : config.maxRetransmissionQueueSize = 0 → ∀ entry ∈ sub.released, entry.1 = .deleted
  bounded : config.maxRetransmissionQueueSize ≠ 0 →
    sub.retransmissionQueue.length ≤ config.maxRetransmissionQueueSize

variable {config : SubscriptionConfig}

section

variable (retained : Retained config sub)
include retained

theorem Retained.of_same (same : SameMessages sub after) : Retained config after := by
  refine ⟨?_, ?_, ?_, ?_⟩
  · rw [unacknowledged, same.sent, same.acknowledged, same.retransmissionQueue, same.released]
    exact retained.account
  · rw [same.acknowledged, same.sent]
    exact retained.known
  · rw [same.released]
    exact retained.spacious
  · rw [same.retransmissionQueue]
    exact retained.bounded

theorem Retained.keepAlive : Retained config (sub.record sub.keepAliveMessage) := by
  have messages : notificationMessages (sub.record sub.keepAliveMessage).sent =
      notificationMessages sub.sent := by
    rw [notificationMessages_record, keepAliveMessage_isKeepAlive, if_pos rfl, append_nil]
  refine ⟨?_, ?_, retained.spacious, retained.bounded⟩
  · rw [unacknowledged, messages]
    exact retained.account
  · rw [messages]
    exact retained.known

theorem Retained.clear (items : Nat) : Retained config { sub with
      monitoredItemsSize := items
      retransmissionQueue := []
      retransmissionQueueSize := 0
      released := sub.retransmissionQueue.map ((ReleaseCause.deleted, ·)) ++ sub.released } where
  account := by
    exact retained.account.trans (by simp [Function.comp_def])
  known := retained.known
  spacious := by
    intro unlimited entry member
    rcases mem_append.mp member with last | old
    · obtain ⟨message, -, rfl⟩ := mem_map.mp last
      rfl
    · exact retained.spacious unlimited entry old
  bounded := fun _ => Nat.zero_le _

end

theorem unacknowledged_nodup (recorded : Recorded sub moving) : sub.unacknowledged.Nodup :=
  (nodup_reverse.mpr recorded.messages_nodup).filter _

theorem Retained.acknowledge (retained : Retained config sub) (recorded : Recorded sub moving)
    (sequenceNumber : BitVec 32) :
    Retained config (sub.removeRetransmissionMessage sequenceNumber).2 := by
  rcases removeRetransmissionMessage_cases sub sequenceNumber with
    ⟨-, same⟩ | ⟨front, message, back, queue, -, -, removes⟩
  · rw [same]
    exact retained
  · have nodup := unacknowledged_nodup recorded
    have account := retained.account
    rw [account, queue] at nodup
    rw [queue] at account
    have member : message ∈ sub.unacknowledged := by
      rw [account]
      simp
    have fewer : (notificationMessages sub.sent).reverse.filter
        (· ∉ sub.acknowledged ++ [message]) = sub.unacknowledged.filter (· ≠ message) := by
      rw [unacknowledged, filter_filter]
      apply filter_congr
      intro other _
      by_cases same : other = message <;> by_cases old : other ∈ sub.acknowledged <;>
        simp [same, old]
    rw [removes]
    refine ⟨?_, ?_, retained.spacious, ?_⟩
    · rw [unacknowledged]
      refine fewer.trans ?_
      rw [account, append_assoc, cons_append] at *
      have apart := nodup
      rw [nodup_middle] at apart
      obtain ⟨absent, -⟩ := nodup_cons.mp apart
      rw [filter_append, filter_cons, if_neg (by simp), ← filter_append,
        append_assoc, filter_eq_self]
      intro other there
      rw [decide_eq_true_eq]
      rintro rfl
      exact absent there
    · intro other there
      rcases mem_append.mp there with old | last
      · exact retained.known other old
      · rw [mem_singleton.mp last]
        exact mem_reverse.mp (mem_of_mem_filter member)
    · intro limited
      have bound := retained.bounded limited
      rw [queue] at bound
      simp only [length_append, length_cons] at bound ⊢
      omega

theorem Retained.message (retained : Retained config sub) {prepared : Subscription Content}
    {message : NotificationMessage Content} (only : QueuesOnly sub prepared)
    (notifies : message.isKeepAlive = false)
    (sized : sub.retransmissionQueueSize = sub.retransmissionQueue.length)
    (retains : prepared.retain config message = some after)
    (recorded : Recorded (after.record message) moving) :
    Retained config (after.record message) := by
  obtain ⟨-, queue, size, sent, acknowledged, released⟩ := only.messages
  have form := SubscriptionStep.retain_eq retains
  have afterSent : after.sent = sub.sent := by
    rw [form]
    exact sent
  have afterAcknowledged : after.acknowledged = sub.acknowledged := by
    rw [form]
    exact acknowledged
  have longer : notificationMessages (after.record message).sent =
      notificationMessages sub.sent ++ [message] := by
    rw [notificationMessages_record, notifies, afterSent]
    rfl
  have fresh : message ∉ sub.acknowledged := by
    intro old
    have nodup := recorded.messages_nodup
    rw [longer, nodup_append] at nodup
    exact nodup.2.2 message (retained.known message old) message (mem_singleton_self _) rfl
  have account : (after.record message).unacknowledged = message :: sub.unacknowledged := by
    rw [unacknowledged, longer, reverse_append, reverse_singleton, singleton_append]
    change List.filter (fun other => other ∉ after.acknowledged) _ = _
    rw [afterAcknowledged, filter_cons, if_pos (decide_eq_true fresh)]
    rfl
  have known : ∀ other ∈ (after.record message).acknowledged,
      other ∈ notificationMessages (after.record message).sent := by
    intro other member
    rw [longer]
    exact mem_append_left _ (retained.known other (afterAcknowledged ▸ member))
  rcases addRetransmissionMessage_cases retains with
    ⟨rest, last, parts, limited, full, same⟩ | ⟨space, same⟩
  · dsimp only at parts full same
    rw [queue] at parts
    refine ⟨?_, known, ?_, ?_⟩
    · rw [account, retained.account, same, parts, released]
      simp [record]
    · intro unlimited
      exact absurd unlimited limited
    · intro _
      have bound := retained.bounded limited
      rw [parts, length_append, List.length_singleton] at bound
      rw [same]
      exact bound
  · dsimp only at space same
    refine ⟨?_, known, ?_, ?_⟩
    · rw [account, retained.account, same, released, queue]
      rfl
    · intro unlimited entry member
      rw [same] at member
      exact retained.spacious unlimited entry (released ▸ member)
    · intro limited
      have bound := space limited
      rw [size, sized] at bound
      rw [same]
      change (message :: prepared.retransmissionQueue).length ≤ _
      rw [queue]
      exact bound

end Messages

end Subscription

namespace SubscriptionStep

variable {config : SubscriptionConfig} {sub after : Subscription Content}

theorem notifies_of_prepared {room notifications : Nat} {taken : List Nat}
    {message : NotificationMessage Content} {prepared : Subscription Content}
    (prepares : Prepared room sub notifications taken message prepared) :
    message.isKeepAlive = false := by
  rw [NotificationMessage.isKeepAlive, isEmpty_eq_false_iff]
  intro empty
  have perm := prepares.perm
  rw [empty] at perm
  exact prepares.nonempty perm.nil_eq.symm

theorem numbered (step : SubscriptionStep config sub after) (numbered : Numbered sub) :
    Numbered after := by
  cases step with
  | settings only => exact numbered.of_same only.messages
  | items kept => exact numbered.of_same kept.only.messages
  | acknowledge number =>
    rw [removeRetransmissionMessage]
    split
    · exact numbered
    · exact { numbered with }
  | keepAlive => exact numbered.keepAlive
  | message _ _ prepares number retains =>
    have form := retain_eq retains
    refine numbered.message number (notifies_of_prepared prepares) ?_ ?_
    · rw [form]
    · rw [form]
      exact prepares.only.sent
  | clear kept _ => exact { numbered.of_same kept.only.messages with }

theorem retained [DecidableEq Content] (step : SubscriptionStep config sub after)
    (sound : Sound config.queueSizeLimits.min sub) (retained : Retained config sub) :
    Retained config after := by
  have balanced := (step.sound sound).recorded
  cases step with
  | settings only => exact retained.of_same only.messages
  | items kept => exact retained.of_same kept.only.messages
  | acknowledge number => exact retained.acknowledge sound.recorded number
  | keepAlive => exact retained.keepAlive
  | message _ _ prepares number retains =>
    exact retained.message prepares.only (notifies_of_prepared prepares)
      sound.consistent.retained retains balanced
  | clear kept _ => exact (retained.of_same kept.only.messages).clear 0

end SubscriptionStep

namespace Subscription

variable {sub : Subscription Content}

theorem new_numbered (address : Nat) (subscriptionId : BitVec 32) :
    Numbered (Subscription.new address subscriptionId : Subscription Content) where
  next := rfl
  numbers := rfl
  keepAlives := fun index sent found _ => by cases found

theorem new_retained [DecidableEq Content] (config : SubscriptionConfig) (address : Nat)
    (subscriptionId : BitVec 32) :
    Retained config (Subscription.new address subscriptionId : Subscription Content) where
  account := rfl
  known := fun _ member => nomatch member
  spacious := fun _ _ member => nomatch member
  bounded := fun _ => Nat.zero_le _

def recentMessages (sub : Subscription Content) : List (NotificationMessage Content) :=
  (notificationMessages sub.sent).drop ((notificationMessages sub.sent).length - (2 ^ 32 - 1))

theorem Numbered.injective (numbered : Numbered sub) {first second : NotificationMessage Content}
    (one : first ∈ sub.recentMessages) (other : second ∈ sub.recentMessages)
    (same : first.sequenceNumber = second.sequenceNumber) : first = second := by
  have number : ∀ index (inside : index < (notificationMessages sub.sent).length),
      (notificationMessages sub.sent)[index].sequenceNumber = messageNumber index := by
    intro index inside
    have numbers := congrArg (·[index]?) numbered.numbers
    simpa [inside] using numbers
  obtain ⟨left, leftBound, rfl⟩ := mem_iff_getElem.mp one
  obtain ⟨right, rightBound, rfl⟩ := mem_iff_getElem.mp other
  simp only [recentMessages, length_drop] at leftBound rightBound
  simp only [recentMessages, getElem_drop] at same ⊢
  rw [number, number] at same
  rcases Nat.lt_trichotomy left right with before | rfl | behind
  · exact absurd same (messageNumber_ne (by omega) (by omega))
  · rfl
  · exact absurd same.symm (messageNumber_ne (by omega) (by omega))

theorem Retained.queue_nodup [DecidableEq Content] {config : SubscriptionConfig}
    {moving : Nat → List Nat} (retained : Retained config sub) (recorded : Recorded sub moving) :
    sub.retransmissionQueue.Nodup := by
  have nodup := unacknowledged_nodup recorded
  rw [retained.account] at nodup
  exact (nodup_append.mp nodup).1

structure Retransmits [DecidableEq Content] (config : SubscriptionConfig)
    (sub : Subscription Content) : Prop extends Numbered sub, Retained config sub where
  nonzero : ∀ message ∈ notificationMessages sub.sent, message.sequenceNumber ≠ 0
  recent : sub.retransmissionQueue <+: sub.unacknowledged
  size : sub.retransmissionQueueSize = sub.retransmissionQueue.length
  distinct : (∀ message ∈ sub.retransmissionQueue, message ∈ sub.recentMessages) →
    (sub.retransmissionQueue.map NotificationMessage.sequenceNumber).Nodup
  removes : ∀ message ∈ sub.retransmissionQueue, ∃ front removed back,
    sub.retransmissionQueue = front ++ removed :: back ∧
      removed.sequenceNumber = message.sequenceNumber ∧
      (∀ other ∈ front, other.sequenceNumber ≠ message.sequenceNumber) ∧
      sub.removeRetransmissionMessage message.sequenceNumber = (.good, { sub with
        retransmissionQueue := front ++ back
        retransmissionQueueSize := sub.retransmissionQueueSize - 1
        acknowledged := sub.acknowledged ++ [removed] })

end Subscription

/-- In every session that is reached, the numbers of the messages follow each other, and what was
not acknowledged is kept for retransmission. -/
theorem messages_retransmitted [DecidableEq Content] {config : SubscriptionConfig}
    {session : Session Content} (run : SessionRun config session) :
    ∀ sub ∈ session.subscriptions, Retransmits config sub := by
  obtain ⟨intact, known⟩ : Session.Intact config session ∧ ∀ sub ∈ session.subscriptions,
      Sound config.queueSizeLimits.min sub ∧ Numbered sub ∧ Retained config sub :=
    run.invariant (fun known step =>
        ⟨step.sound known.1, step.numbered known.2.1, step.retained known.1 known.2.2⟩)
      fun _ _ => ⟨Session.new_sound _ _, new_numbered _ _, new_retained _ _ _⟩
  intro sub member
  obtain ⟨sound, numbered, retained⟩ := known sub member
  refine { numbered, retained with
    nonzero := ?_
    recent := ?_
    size := sound.consistent.retained
    distinct := ?_
    removes := ?_ }
  · intro message there
    have number : message.sequenceNumber ∈
        (notificationMessages sub.sent).map NotificationMessage.sequenceNumber :=
      mem_map_of_mem there
    rw [numbered.numbers] at number
    obtain ⟨index, -, same⟩ := mem_map.mp number
    rw [← same]
    exact messageNumber_ne_zero index
  · rw [retained.account]
    exact prefix_append _ _
  · intro recent
    refine List.Nodup.map_on ?_ (retained.queue_nodup sound.recorded)
    intro first one second other same
    exact numbered.injective (recent first one) (recent second other) same
  · intro message there
    rcases removeRetransmissionMessage_cases sub message.sequenceNumber with
      ⟨absent, -⟩ | removed
    · exact absurd rfl (absent message there)
    · exact removed

def acknowledgedSteps : List (SessionStep Nat) :=
  publishedSteps ++
    [.request (.publish { publishRequest 3 with subscriptionAcknowledgements := [⟨1, 1⟩] })]

theorem acknowledgedSteps_retransmitted : ∃ session : Session Nat,
    Session.new.run defaultConfig acknowledgedSteps = some session ∧
      session.subscriptions.map (fun sub => (sub.sent.map (·.message.sequenceNumber),
        sub.retransmissionQueue.map (·.sequenceNumber))) = [([1, 2], [2])] ∧
      ∀ sub ∈ session.subscriptions, Retransmits defaultConfig sub := by
  have sent : (Session.new.run defaultConfig acknowledgedSteps).map (fun session =>
      session.subscriptions.map fun sub => (sub.sent.map (·.message.sequenceNumber),
        sub.retransmissionQueue.map (·.sequenceNumber))) = some [([1, 2], [2])] := by
    decide +kernel
  obtain ⟨session, runs, same⟩ := Option.map_eq_some_iff.mp sent
  exact ⟨session, runs, same, messages_retransmitted (.of_run .start runs)⟩

/-! A run in which the oldest message stays in the queue while every later one is acknowledged.
Each cycle samples the item, acknowledges the last message and publishes the next one. -/

def repeatedItem : MonitoredItem where
  address := 0
  monitoredItemId := 1
  clientHandle := 7
  monitoredItemType := .changeNotify
  monitoringMode := .sampling
  attributeId := attributeIdValue
  maxQueueSize := 1
  discardOldest := true
  filter := .dataChangeFilter ⟨.statusValue, .none⟩
  lastValue := some true
  queue := []
  queueSize := 0

structure CycleRecords where
  memory : Nat → Option (Notification Nat)
  unused : Nat
  created : List (Nat × Nat)
  sent : List (SentMessage Nat)
  acknowledged : List (NotificationMessage Nat)
  responses : List (PublishResponse Nat)

section

variable (number : BitVec 32) (queue : List (NotificationMessage Nat)) (records : CycleRecords)

def cycledSubscription : Subscription Nat where
  address := 0
  subscriptionId := 1
  lifeTimeCount := 100
  maxKeepAliveCount := 10
  notificationsPerPublish := 1000
  publishingEnabled := true
  state := .normal
  sequenceNumber := number
  currentKeepAliveCount := 0
  currentLifetimeCount := 0
  lastMonitoredItemId := 1
  monitoredItems := [repeatedItem]
  monitoredItemsSize := 1
  notificationQueue := []
  notificationQueueSize := 0
  dataChangeNotifications := 0
  eventNotifications := 0
  statusChangeNotifications := 0
  readyNotifications := 0
  retransmissionQueue := queue
  retransmissionQueueSize := queue.length
  memory := records.memory
  unused := records.unused
  unusedItem := 1
  created := records.created
  dropped := []
  sent := records.sent
  acknowledged := records.acknowledged
  released := []

def filledSubscription (n ready : Nat) : Subscription Nat :=
  { cycledSubscription number queue records with
    monitoredItems := [{ repeatedItem with queue := [n], queueSize := 1 }]
    notificationQueue := [n]
    notificationQueueSize := 1
    dataChangeNotifications := 1
    readyNotifications := ready }

end

def cycledSession (sub : Subscription Nat) (waiting : List PublishResponseEntry)
    (responses : List (PublishResponse Nat)) : Session Nat where
  channel := some 1
  lastSubscriptionId := 1
  lastSeenSubscriptionId := 0
  serverSubscriptions := [sub]
  numSubscriptions := 1
  responseQueue := waiting
  numPublishReq := waiting.length
  unusedSubscription := 1
  removed := []
  sent := responses

def cycleSteps (number : BitVec 32) : List (SessionStep Nat) :=
  [.sampleCallback 0 0 (numberSample 1),
    .request (.publish { publishRequest 1 with subscriptionAcknowledgements := [⟨1, number⟩] }),
    .publishCallback 0 []]

def nextMessage (number : BitVec 32) (n : Nat) : NotificationMessage Nat :=
  ⟨nextSequenceNumber number, some [⟨7, (numberSample 1).value, 0, n⟩], false, none⟩

namespace CycleRecords

section

variable (records : CycleRecords)

def sample : CycleRecords :=
  { records with
    memory := fun address => if address = records.unused then
      some ⟨0, .value (numberSample 1).value⟩ else records.memory address
    unused := records.unused + 1
    created := records.created ++ [(0, records.unused)] }

def acknowledge (message : NotificationMessage Nat) : CycleRecords :=
  { records with acknowledged := records.acknowledged ++ [message] }

def take (n : Nat) : CycleRecords :=
  { records with memory := fun address => if address = n then none else records.memory address }

def publish (number : BitVec 32) (old : NotificationMessage Nat) (n : Nat) : CycleRecords :=
  { records.take n with
    sent := records.sent ++ [⟨1000, nextMessage number n⟩]
    responses := records.responses ++ [⟨some 1, 1, 101, .good, 1,
      [nextSequenceNumber number, old.sequenceNumber], false, nextMessage number n, [.good]⟩] }

end

end CycleRecords

section Cycle

variable (number : BitVec 32) (queue : List (NotificationMessage Nat))
  (head old : NotificationMessage Nat) (records : CycleRecords)
variable {n : Nat}

theorem cycle_samples :
    (cycledSubscription number queue records).sampleCallback 0 (numberSample 1) =
      some (filledSubscription number queue records.sample records.unused 0) := by
  simp [sampleCallback, item, cycledSubscription, repeatedItem, sampleCallbackWithValue,
    numberSample, notificationEnqueue, append, ensureQueueSpace, store, setItem, countUp,
    filledSubscription, CycleRecords.sample]
  rfl

theorem cycle_acknowledges (last : head.sequenceNumber = number) :
    (filledSubscription number [head, old] records n 0).removeRetransmissionMessage number =
      (.good, filledSubscription number [old] (records.acknowledge head) n 0) := by
  simp [removeRetransmissionMessage, filledSubscription, cycledSubscription, last,
    CycleRecords.acknowledge]

section

variable (stored : records.memory n = some ⟨0, .value (numberSample 1).value⟩)
include stored

theorem cycle_prepares :
    (filledSubscription number queue records n 1).prepareNotificationMessage 1 =
      some ({ nextMessage number n with sequenceNumber := 0 },
        { cycledSubscription number queue (records.take n) with readyNotifications := 1 }) := by
  simp [prepareNotificationMessage, filledSubscription, cycledSubscription, allocateArrays,
    moveNotifications, stored, item, repeatedItem, notificationDelete, NotificationData.fits,
    countDown, store, setItem, CycleRecords.take, nextMessage]

theorem cycle_publishes :
    (cycledSession (filledSubscription number [old] records n 0) [⟨1, 101, [.good], some 1⟩]
        records.responses).step defaultConfig (.publishCallback 0 []) =
      some (cycledSession (cycledSubscription (nextSequenceNumber number)
        [nextMessage number n, old] (records.publish number old n)) []
        (records.publish number old n).responses) := by
  have prepares := cycle_prepares number [old] records stored
  have responds : (cycledSession (filledSubscription number [old] records n 1) []
      records.responses).respond defaultConfig (filledSubscription number [old] records n 1)
        (some ⟨1, 101, [.good], some 1⟩) 1 false true =
      some (false, cycledSession (cycledSubscription (nextSequenceNumber number)
        [nextMessage number n, old] (records.publish number old n)) []
        (records.publish number old n).responses) := by
    simp only [Session.respond, cycledSession, prepares]
    rfl
  have once : (cycledSession (filledSubscription number [old] records n 1)
      [⟨1, 101, [.good], some 1⟩] records.responses).publishOnce defaultConfig 0 true =
      (cycledSession (filledSubscription number [old] records n 1) []
        records.responses).respond defaultConfig (filledSubscription number [old] records n 1)
          (some ⟨1, 101, [.good], some 1⟩) 1 false true := rfl
  change Session.publishRounds defaultConfig 2 (cycledSession
    (filledSubscription number [old] records n 1) [⟨1, 101, [.good], some 1⟩]
      records.responses) 0 [] = _
  change (Session.publishOnce _ _ _ true).bind _ = _
  rw [once, responds]
  rfl

end

theorem cycleSteps_run (last : head.sequenceNumber = number) :
    ∃ after, (cycledSession (cycledSubscription number [head, old] records) []
        records.responses).run defaultConfig (cycleSteps number) =
      some (cycledSession (cycledSubscription (nextSequenceNumber number)
        [nextMessage number records.unused, old] after) [] after.responses) := by
  have samples := cycle_samples number [head, old] records
  have acknowledges := cycle_acknowledges number head old records.sample (n := records.unused) last
  have publishes := cycle_publishes number old (records.sample.acknowledge head)
    (n := records.unused) (if_pos rfl)
  refine ⟨(records.sample.acknowledge head).publish number old records.unused, ?_⟩
  have first : (cycledSession (cycledSubscription number [head, old] records) []
      records.responses).step defaultConfig (.sampleCallback 0 0 (numberSample 1)) =
      some (cycledSession (filledSubscription number [head, old] records.sample records.unused 0) []
        records.responses) := by
    have steps : (cycledSession (cycledSubscription number [head, old] records) []
        records.responses).step defaultConfig (.sampleCallback 0 0 (numberSample 1)) =
        ((cycledSubscription number [head, old] records).sampleCallback 0 (numberSample 1)).bind
          fun sub => some ((cycledSession (cycledSubscription number [head, old] records) []
            records.responses).setSubscription sub) := rfl
    rfl
  have second : (cycledSession (filledSubscription number [head, old] records.sample
      records.unused 0) [] records.responses).step defaultConfig (.request (.publish
        { publishRequest 1 with subscriptionAcknowledgements := [⟨1, number⟩] })) =
      some (cycledSession (filledSubscription number [old] (records.sample.acknowledge head)
        records.unused 0) [⟨1, 101, [.good], some 1⟩] records.responses) := by
    have found : (cycledSession (filledSubscription number [head, old] records.sample
        records.unused 0) [] records.responses).getSubscriptionById 1 =
        some (filledSubscription number [head, old] records.sample records.unused 0) := rfl
    have acked : (cycledSession (filledSubscription number [head, old] records.sample
        records.unused 0) [] records.responses).acknowledge [⟨1, number⟩] =
        ([.good], cycledSession (filledSubscription number [old]
          (records.sample.acknowledge head) records.unused 0) [] records.responses) := by
      simp only [Session.acknowledge, found, acknowledges]
      rfl
    have steps : (cycledSession (filledSubscription number [head, old] records.sample
        records.unused 0) [] records.responses).step defaultConfig (.request (.publish
          { publishRequest 1 with subscriptionAcknowledgements := [⟨1, number⟩] })) =
        (cycledSession (filledSubscription number [head, old] records.sample records.unused 0) []
          records.responses).queueRequest defaultConfig
            { publishRequest 1 with subscriptionAcknowledgements := [⟨1, number⟩] } := rfl
    rw [steps, Session.queueRequest]
    simp only [acked]
    rfl
  rw [cycleSteps, Session.run, first]
  change Session.run _ _ _ = _
  rw [Session.run, second]
  change Session.run _ _ _ = _
  rw [Session.run]
  change (Session.step _ (cycledSession _ _ (records.sample.acknowledge head).responses) _).bind _ = _
  rw [publishes]
  rfl

end Cycle

def startSteps : List (SessionStep Nat) :=
  [.attachToSecureChannel 1, .request (.createSubscription true ⟨100, 10, 0⟩ true),
    .request (.createMonitoredItems 1 true [{ valueItem 1 with monitoringMode := .sampling }] true),
    .sampleCallback 0 0 (numberSample 1), .request (.publish (publishRequest 1)),
    .publishCallback 0 [], .sampleCallback 0 0 (numberSample 1),
    .request (.publish (publishRequest 1)), .publishCallback 0 []]

theorem startSteps_run : ∃ head old records, Session.new.run defaultConfig startSteps =
        some (cycledSession (cycledSubscription 2 [head, old] records) [] records.responses) ∧
      head.sequenceNumber = 2 ∧ old.sequenceNumber = 1 :=
  ⟨_, _, ⟨_, _, _, _, _, _⟩, rfl, rfl, rfl⟩

theorem cycles_reached (cycles : Nat) : ∃ head old records, SessionRun defaultConfig (cycledSession
        (cycledSubscription (messageNumber (cycles + 1)) [head, old] records) []
        records.responses) ∧
      head.sequenceNumber = messageNumber (cycles + 1) ∧ old.sequenceNumber = 1 := by
  induction cycles with
  | zero =>
    obtain ⟨head, old, records, runs, last, first⟩ := startSteps_run
    have two : messageNumber (0 + 1) = 2 := by decide
    exact ⟨head, old, records, .of_run .start runs, last, first⟩
  | succ cycles ih =>
    obtain ⟨head, old, records, run, last, first⟩ := ih
    obtain ⟨after, runs⟩ := cycleSteps_run _ head old records last
    rw [nextSequenceNumber_messageNumber] at runs
    exact ⟨_, old, after, .of_run run runs, nextSequenceNumber_messageNumber _, first⟩

/-- After 2^32 - 2 cycles the numbers have come round to the first message. -/
theorem sequenceNumber_repeats : ∃ session : Session Nat, SessionRun defaultConfig session ∧
    ∃ sub ∈ session.subscriptions, sub.retransmissionQueue.length = 2 ∧
      ¬ (sub.retransmissionQueue.map NotificationMessage.sequenceNumber).Nodup := by
  obtain ⟨head, old, records, run, last, first⟩ := cycles_reached (2 ^ 32 - 2)
  refine ⟨_, run, _, mem_append_left _ (mem_singleton_self _), rfl, ?_⟩
  have one : messageNumber (2 ^ 32 - 2 + 1) = 1 := by decide
  rw [one] at last
  change ¬ [head.sequenceNumber, old.sequenceNumber].Nodup
  rw [last, first]
  decide

end OpcUa
