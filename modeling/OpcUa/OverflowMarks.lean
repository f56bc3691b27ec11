import OpcUa.QueueOverflow

/-!
How many notifications in the queue of an item have got overflow bits from the server while the
parameters of the item stay. If the oldest ones are discarded, only the first of the queue can have
them. Otherwise the last one of a full queue has them, and it keeps them when a message takes
notifications in front of it.
-/

namespace OpcUa

open Subscription List

variable {Content : Type} {room : Nat} {config : SubscriptionConfig}
variable {marked : List Nat} {taken : Nat}

namespace Subscription

section Elsewhere

variable {sub after : Subscription Content} {mon other : Nat} {item : MonitoredItem}
variable {n : Nat} {cause : DropCause} {status : StatusCode} {monitoredItemId : BitVec 32}

theorem notificationDelete_item_ne (different : other ≠ mon)
    (deletes : sub.notificationDelete other n = some after) : after.item mon = sub.item mon := by
  simp only [notificationDelete, Option.bind_eq_bind, Option.bind_eq_some_iff] at deletes
  obtain ⟨item, found, notification, -, deletes⟩ := deletes
  split at deletes
  · cases deletes
  split at deletes
  · cases deletes
  · injection deletes with deletes
    have address := (item_mem found).2
    rw [← deletes, ← countDown_item sub item.monitoredItemType mon]
    refine setItem_item_ne (sub.countDown item.monitoredItemType)
      { item with queue := item.queue.erase n, queueSize := item.queueSize - 1 } ?_
    exact fun same => different (address.symm.trans same)

theorem drop_item_ne (different : other ≠ mon) (drops : sub.drop cause other n = some after)
    : after.item mon = sub.item mon := by
  simp only [drop, Option.bind_eq_bind, Option.bind_eq_some_iff] at drops
  obtain ⟨middle, deletes, drops⟩ := drops
  injection drops with drops
  have same := notificationDelete_item_ne different deletes
  rw [← drops, ← same]
  rfl

theorem dropAll_item_ne (different : other ≠ mon) : ∀ {queue : List Nat}
    {sub : Subscription Content}, dropAll cause other queue sub = some after →
      after.item mon = sub.item mon := by
  intro queue
  induction queue with
  | nil =>
    intro sub drops
    cases drops
    rfl
  | cons n rest ih =>
    intro sub drops
    simp only [dropAll, Option.bind_eq_bind, Option.bind_eq_some_iff] at drops
    obtain ⟨middle, first, drops⟩ := drops
    exact (ih drops).trans (drop_item_ne different first)

theorem dropSurplus_item_ne (different : item.address ≠ mon)
    (drops : sub.dropSurplus item = some after) : after.item mon = sub.item mon := by
  rw [dropSurplus] at drops
  split at drops
  · cases drops
  simp only [Option.bind_eq_bind, Option.bind_eq_some_iff] at drops
  obtain ⟨⟨del, afterDel⟩, -, drops⟩ := drops
  split at drops
  · cases drops
  · have same := drop_item_ne different drops
    exact same

theorem shrinkQueue_item_ne (different : other ≠ mon) : ∀ {rounds : Nat}
    {sub : Subscription Content}, shrinkQueue rounds sub other = some after →
      after.item mon = sub.item mon := by
  intro rounds
  induction rounds with
  | zero =>
    intro sub shrinks
    simp only [shrinkQueue, Option.bind_eq_bind, Option.bind_eq_some_iff] at shrinks
    obtain ⟨item, -, shrinks⟩ := shrinks
    split at shrinks
    · cases shrinks
    · cases shrinks
      rfl
  | succ rounds ih =>
    intro sub shrinks
    simp only [shrinkQueue, Option.bind_eq_bind, Option.bind_eq_some_iff] at shrinks
    obtain ⟨item, found, shrinks⟩ := shrinks
    split at shrinks
    · obtain ⟨middle, drops, shrinks⟩ := Option.bind_eq_some_iff.mp shrinks
      have apart : item.address ≠ mon := by
        rw [(item_mem found).2]
        exact different
      exact (ih shrinks).trans (dropSurplus_item_ne apart drops)
    · cases shrinks
      rfl

theorem markOverflow_item (marks : sub.markOverflow item = some after) (mon : Nat) :
    after.item mon = sub.item mon := by
  rw [markOverflow] at marks
  split at marks
  · simp only [Option.bind_eq_bind, Option.bind_eq_some_iff] at marks
    obtain ⟨n, -, notification, -, marks⟩ := marks
    split at marks
    · cases marks
    · cases marks
      rfl
  · cases marks
    rfl

section

variable (different : other ≠ mon)
include different

theorem ensureQueueSpace_item_ne (ensures : sub.ensureQueueSpace other = some after) :
    after.item mon = sub.item mon := by
  simp only [ensureQueueSpace, Option.bind_eq_bind, Option.bind_eq_some_iff] at ensures
  obtain ⟨item, -, ensures⟩ := ensures
  split at ensures
  · cases ensures
    rfl
  · obtain ⟨middle, shrinks, ensures⟩ := Option.bind_eq_some_iff.mp ensures
    obtain ⟨item, -, marks⟩ := Option.bind_eq_some_iff.mp ensures
    exact (markOverflow_item marks mon).trans (shrinkQueue_item_ne different shrinks)

theorem notificationEnqueue_item_ne {data : NotificationData Content}
    (enqueues : sub.notificationEnqueue other data = some after) :
    after.item mon = sub.item mon := by
  simp only [notificationEnqueue, Option.bind_eq_bind, Option.bind_eq_some_iff] at enqueues
  obtain ⟨item, found, ensures⟩ := enqueues
  rw [append_eq] at ensures
  have apart : item.address ≠ mon := by
    rw [(item_mem found).2]
    exact different
  refine (ensureQueueSpace_item_ne different ensures).trans ?_
  exact setItem_item_ne sub { item with
    queue := item.queue ++ [sub.unused], queueSize := item.queueSize + 1 } apart

theorem sampleCallback_item_ne {sample : Sample Content}
    (samples : sub.sampleCallback other sample = some after) : after.item mon = sub.item mon := by
  simp only [sampleCallback, sampleCallbackWithValue, Option.bind_eq_bind,
    Option.bind_eq_some_iff] at samples
  obtain ⟨item, -, samples⟩ := samples
  split at samples
  · cases samples
    rfl
  obtain ⟨again, -, samples⟩ := Option.bind_eq_some_iff.mp samples
  split at samples
  · cases samples
  split at samples
  · cases samples
    rfl
  split at samples
  · cases samples
    rfl
  · obtain ⟨middle, enqueues, samples⟩ := Option.bind_eq_some_iff.mp samples
    obtain ⟨item, found, samples⟩ := Option.bind_eq_some_iff.mp samples
    injection samples with samples
    have apart : item.address ≠ mon := by
      rw [(item_mem found).2]
      exact different
    rw [← samples]
    exact (setItem_item_ne middle { item with lastValue := sample.value.numeric }
      apart).trans (notificationEnqueue_item_ne different enqueues)

theorem addEventToMonitoredItem_item_ne {filtered : Except StatusCode (List Content)}
    {memory : Bool}
    (adds : sub.addEventToMonitoredItem other filtered memory = some (status, after)) :
    after.item mon = sub.item mon := by
  cases memory with
  | false =>
    cases adds
    rfl
  | true =>
    cases filtered with
    | error status =>
      cases adds
      rfl
    | ok fields =>
      obtain ⟨middle, enqueues, adds⟩ := Option.bind_eq_some_iff.mp adds
      cases adds
      exact notificationEnqueue_item_ne different enqueues

end

theorem setMonitoringMode_item_ne {mode : MonitoringMode}
    (found : sub.getMonitoredItem monitoredItemId = some item) (different : item.address ≠ mon)
    (sets : sub.setMonitoringMode mode monitoredItemId = some (status, after)) :
    after.item mon = sub.item mon := by
  rw [setMonitoringMode, found] at sets
  dsimp only at sets
  have first : (sub.setItem { item with monitoringMode := mode }).item mon = sub.item mon :=
    setItem_item_ne sub _ different
  split at sets
  · cases sets
    rfl
  split at sets
  · cases sets
    rfl
  split at sets
  · cases sets
    rfl
  split at sets
  · cases sets
    exact first
  · obtain ⟨middle, drops, sets⟩ := Option.bind_eq_some_iff.mp sets
    obtain ⟨left, again, sets⟩ := Option.bind_eq_some_iff.mp sets
    have apart : left.address ≠ mon := by
      rw [(item_mem again).2]
      exact different
    cases sets
    exact (setItem_item_ne middle { left with lastValue := none } apart).trans
      ((dropAll_item_ne different drops).trans first)

theorem modifyMonitoredItem_item_ne {request : MonitoredItemModifyRequest}
    {result : MonitoredItemModifyResult}
    (found : sub.getMonitoredItem request.monitoredItemId = some item)
    (different : item.address ≠ mon)
    (modifies : sub.modifyMonitoredItem config request = some (result, after)) :
    after.item mon = sub.item mon := by
  rw [modifyMonitoredItem, found] at modifies
  dsimp only at modifies
  generalize settings : setMonitoredItemSettings config item item.monitoringMode
    request.requestedParameters none = set at modifies
  obtain ⟨status, changed⟩ := set
  dsimp only at modifies
  split at modifies
  · cases modifies
    rfl
  · rename_i good
    obtain ⟨final, ensures, modifies⟩ := Option.bind_eq_some_iff.mp modifies
    cases modifies
    obtain ⟨filter, -, rfl⟩ := setMonitoredItemSettings_good (not_not.mp good ▸ settings)
    exact (ensureQueueSpace_item_ne different ensures).trans (setItem_item_ne sub _ different)

theorem deleteMonitoredItem_item_ne
    (different : ∀ item, sub.getMonitoredItem monitoredItemId = some item → item.address ≠ mon)
    (deletes : sub.deleteMonitoredItem monitoredItemId = some (status, after)) :
    after.item mon = sub.item mon := by
  rcases deleteMonitoredItem_cases deletes with ⟨-, -, rfl⟩ | ⟨item, middle, found, drops, -, rfl⟩
  · rfl
  · have apart := different item found
    rw [← dropAll_item_ne apart drops, Subscription.item, find?_filter]
    congr 1
    funext candidate
    by_cases same : candidate.address = mon
    · simp [same, apart.symm]
    · simp [same]

theorem createMonitoredItem_item_ne {request : MonitoredItemCreateRequest Content}
    {result : MonitoredItemCreateResult} (different : sub.unusedItem ≠ mon)
    (creates : sub.createMonitoredItem config request = some (result, after)) :
    after.item mon = sub.item mon := by
  rw [createMonitoredItem] at creates
  iterate 5
    split at creates
    · cases creates
      rfl
  dsimp only at creates
  generalize settings : setMonitoredItemSettings config (sub.newItem request.attributeId)
    request.monitoringMode request.requestedParameters request.read.numeric = set at creates
  obtain ⟨status, new⟩ := set
  dsimp only at creates
  split at creates
  · cases creates
    rfl
  · rename_i good
    obtain ⟨final, samples, creates⟩ := Option.bind_eq_some_iff.mp creates
    cases creates
    have both := (StatusCode.or_eq_good_iff _ _).mp (not_not.mp good)
    obtain ⟨filter, -, form⟩ := setMonitoredItemSettings_good (both.2 ▸ settings)
    have address : new.address = sub.unusedItem := congrArg MonitoredItem.address form
    have registered : ({ sub with unusedItem := sub.unusedItem + 1 }.registerItem new).item mon =
          sub.item mon := by
      rw [Subscription.item, registerItem, addMonitoredItem, find?_cons_of_neg]
      · rfl
      · simpa [address] using different
    rw [← registered]
    rw [firstSample] at samples
    split at samples
    · exact sampleCallback_item_ne (by rw [address]; exact different) samples
    · cases samples
      rfl

end Elsewhere

section

variable (sub : Subscription Content) (mon : Nat)

/-- The notification whose info bits `MonitoredItem_ensureQueueSpace` sets. -/
def overflowMark : Option Nat := do
  let item ← sub.item mon
  if item.queueSize ≤ item.maxQueueSize then none
  else
    let sub ← shrinkQueue item.queueSize sub mon
    let item ← sub.item mon
    if item.monitoredItemType = .changeNotify ∧ item.maxQueueSize > 1 then infoBitsCarrier item
    else none

def sampleMark (sample : Sample Content) : Option Nat := do
  let item ← sub.item mon
  if item.monitoredItemType = .changeNotify ∧ sample.changed ∧ sample.memory then
    (sub.append item (.value sample.value)).overflowMark mon
  else none

def queueOf : List Nat :=
  ((sub.item mon).map MonitoredItem.queue).getD []

end

def countTaken (before after : List Nat) (taken : Nat) : Nat :=
  if after = [] then 0 else if after = before then taken else taken + 1

end Subscription

inductive BystanderStep (config : SubscriptionConfig) (mon : Nat) :
    Subscription Content → Subscription Content → Prop
  | sample {sub after : Subscription Content} {other : Nat} {sample : Sample Content}
      (different : other ≠ mon) (samples : sub.sampleCallback other sample = some after) :
      BystanderStep config mon sub after
  | event {sub after : Subscription Content} {other : Nat} {item : MonitoredItem} {memory : Bool}
      {status : StatusCode} {filtered : Except StatusCode (List Content)}
      (found : sub.item other = some item) (event : item.monitoredItemType = .eventNotify)
      (adds : sub.addEventToMonitoredItem other filtered memory = some (status, after)) :
      BystanderStep config mon sub after
  | mode {sub after : Subscription Content} {mode : MonitoringMode} {monitoredItemId : BitVec 32}
      {status : StatusCode}
      (sets : sub.setMonitoringMode mode monitoredItemId = some (status, after)) :
      BystanderStep config mon sub after
  | create {sub after : Subscription Content} {request : MonitoredItemCreateRequest Content}
      {result : MonitoredItemCreateResult}
      (creates : sub.createMonitoredItem config request = some (result, after)) :
      BystanderStep config mon sub after
  | modify {sub after : Subscription Content} {request : MonitoredItemModifyRequest}
      {result : MonitoredItemModifyResult}
      (different : ∀ item, sub.getMonitoredItem request.monitoredItemId = some item →
        item.address ≠ mon)
      (modifies : sub.modifyMonitoredItem config request = some (result, after)) :
      BystanderStep config mon sub after
  | delete {sub after : Subscription Content} {monitoredItemId : BitVec 32} {status : StatusCode}
      (different : ∀ item, sub.getMonitoredItem monitoredItemId = some item → item.address ≠ mon)
      (deletes : sub.deleteMonitoredItem monitoredItemId = some (status, after)) :
      BystanderStep config mon sub after
  | settings {sub after : Subscription Content} (only : SettingsOnly sub after) :
      BystanderStep config mon sub after
  | acknowledge (sub : Subscription Content) (sequenceNumber : BitVec 32) :
      BystanderStep config mon sub (sub.removeRetransmissionMessage sequenceNumber).2
  | keepAlive (sub : Subscription Content) :
      BystanderStep config mon sub (sub.record sub.keepAliveMessage)

/-- A run of a subscription since the creation of an item, whose parameters stay. It tells which
notifications in the queue of the item have got overflow bits, and how often a message took a part
of the queue. -/
inductive MarkedRun (config : SubscriptionConfig) (mon : Nat) :
    Subscription Content → List Nat → Nat → Prop
  | created {address : Nat} {subscriptionId : BitVec 32} {sub after : Subscription Content}
      {request : MonitoredItemCreateRequest Content} {result : MonitoredItemCreateResult}
      (becomes : Becomes config (Subscription.new address subscriptionId) sub)
      (creates : sub.createMonitoredItem config request = some (result, after))
      (good : result.statusCode = .good) (place : mon = sub.unusedItem) :
      MarkedRun config mon after [] 0
  | sample {sub after : Subscription Content} {marked : List Nat} {taken : Nat}
      {sample : Sample Content} (run : MarkedRun config mon sub marked taken)
      (samples : sub.sampleCallback mon sample = some after) :
      MarkedRun config mon after
        ((marked ++ (sub.sampleMark mon sample).toList).filter (· ∈ after.queueOf mon)) taken
  | message {sub prepared retained : Subscription Content} {marked : List Nat}
      {taken notifications : Nat} {message : NotificationMessage Content}
      (run : MarkedRun config mon sub marked taken) (wanted : 0 < notifications)
      (limit : notifications ≤ sub.notificationsPerPublish)
      (available : 0 < sub.notificationQueue.length)
      (prepares : sub.prepareNotificationMessage notifications = some (message, prepared))
      (retains : prepared.retain config
        { message with sequenceNumber := nextSequenceNumber sub.sequenceNumber } = some retained) :
      MarkedRun config mon (retained.record
          { message with sequenceNumber := nextSequenceNumber sub.sequenceNumber })
        (marked.filter (· ∈ retained.queueOf mon))
        (countTaken (sub.queueOf mon) (retained.queueOf mon) taken)
  | bystander {sub after : Subscription Content} {marked : List Nat} {taken : Nat}
      (run : MarkedRun config mon sub marked taken) (step : BystanderStep config mon sub after) :
      MarkedRun config mon after (marked.filter (· ∈ after.queueOf mon)) taken

namespace Subscription

structure MarksFit (item : MonitoredItem) (marked : List Nat) (taken : Nat) : Prop where
  queued : ∀ n ∈ marked, n ∈ item.queue
  change : ∀ n ∈ marked, item.monitoredItemType = .changeNotify
  oldest : item.discardOldest = true → ∀ n ∈ marked, item.queue.head? = some n
  newest : item.discardOldest = false → (item.queue.filter (· ∈ marked)).length ≤ taken ∨
    (item.queue.filter (· ∈ marked)).length ≤ taken + 1 ∧
      item.queue.length = item.maxQueueSize ∧ ∀ last ∈ item.queue.getLast?, last ∈ marked

section Marking

variable {sub after : Subscription Content} {mon : Nat} {item changed : MonitoredItem}

theorem SameSettings.item_some (same : SameSettings sub after) (found : sub.item mon = some item) :
    ∃ changed, after.item mon = some changed ∧ changed.settings = item.settings := by
  have reads : ∀ sub : Subscription Content, (sub.item mon).map MonitoredItem.settings =
      (sub.monitoredItems.map MonitoredItem.settings).find? (·.address = mon) := by
    intro sub
    rw [find?_map]
    rfl
  have equal : (after.item mon).map MonitoredItem.settings = some item.settings := by
    rw [reads, same.items, ← reads, found]
    rfl
  exact Option.map_eq_some_iff.mp equal

theorem queueOf_eq (found : sub.item mon = some item) : sub.queueOf mon = item.queue := by
  rw [queueOf, found]
  rfl

theorem overflowMark_eq (consistent : Consistent room sub) (member : item ∈ sub.monitoredItems)
    (positive : 1 ≤ item.maxQueueSize) (larger : item.maxQueueSize < item.queueSize) :
    sub.overflowMark item.address = if 1 < item.maxQueueSize then overflowCarrier item else none := by
  obtain ⟨after, shrinks, survives⟩ := shrinkQueue_survives consistent member positive
    (Nat.le_of_lt larger) (Nat.le_add_left item.queueSize item.maxQueueSize)
  have found := survives.consistent.item_eq (survives.member member)
  rw [survives.address] at found
  have kind : (shortened item).monitoredItemType = item.monitoredItemType := rfl
  have limit : (shortened item).maxQueueSize = item.maxQueueSize := rfl
  by_cases change : item.monitoredItemType = .changeNotify
  · simp [overflowMark, consistent.item_eq member, larger, shrinks, found, overflowCarrier, change,
      kind, limit]
  · simp [overflowMark, consistent.item_eq member, shrinks, found, overflowCarrier, change, kind]

inductive SampledQueue (sub : Subscription Content) (item : MonitoredItem) :
    Option Nat → List Nat → Prop
  | same : SampledQueue sub item none item.queue
  | space (change : item.monitoredItemType = .changeNotify)
      (room : item.queue.length < item.maxQueueSize) :
      SampledQueue sub item none (item.queue ++ [sub.unused])
  | full {mark : Option Nat} {queue : List Nat} (change : item.monitoredItemType = .changeNotify)
      (full : item.queue.length = item.maxQueueSize) (positive : 1 ≤ item.maxQueueSize)
      (left : queue = survivors item.discardOldest item.maxQueueSize (item.queue ++ [sub.unused]))
      (marks : mark = if 1 < item.maxQueueSize then
        if item.discardOldest then queue.head? else queue.getLast? else none) :
      SampledQueue sub item mark queue

theorem ensureQueueSpace_roomless (found : sub.item mon = some item) (one : item.queueSize = 1)
    (none : item.maxQueueSize = 0) : sub.ensureQueueSpace mon = Option.none := by
  simp [ensureQueueSpace, found, one, none, shrinkQueue, dropSurplus]

theorem notificationEnqueue_sampled (sound : Sound room sub) (found : sub.item mon = some item)
    (change : item.monitoredItemType = .changeNotify) {value : SampledValue Content}
    (enqueues : sub.notificationEnqueue mon (.value value) = some after) :
    ∃ changed, after.item mon = some changed ∧
      SampledQueue sub item ((sub.append item (.value value)).overflowMark mon) changed.queue := by
  obtain ⟨member, rfl⟩ := item_mem found
  have fits : (NotificationData.value value).fits item.monitoredItemType := by
    rw [change]
    rfl
  have consistent := sound.consistent.extended member fits
  have present : { item with
      queue := item.queue ++ [sub.unused], queueSize := item.queueSize + 1 } ∈
        (sub.extended item (.value value)).monitoredItems := mem_setItem_self member rfl
  have here := consistent.item_eq present
  have length := sound.consistent.sizes item member
  have limit := sound.bounded item member
  simp only [notificationEnqueue, found, Option.bind_eq_bind, Option.bind_some] at enqueues
  rw [append_eq] at enqueues ⊢
  by_cases space : item.queueSize < item.maxQueueSize
  · have within : item.queueSize + 1 ≤ item.maxQueueSize := space
    have done : (sub.extended item (.value value)).ensureQueueSpace item.address =
        some (sub.extended item (.value value)) := by
      simp [ensureQueueSpace, here, within]
    have unmarked : (sub.extended item (.value value)).overflowMark item.address = none := by
      simp [overflowMark, here, within]
    rw [done] at enqueues
    cases enqueues
    refine ⟨_, here, ?_⟩
    rw [unmarked]
    exact .space change (by omega)
  · by_cases positive : 1 ≤ item.maxQueueSize
    · obtain ⟨final, ensures, made, -⟩ := ensureQueueSpace_spaceMade consistent present positive
        (by dsimp only; omega)
      rw [ensures] at enqueues
      cases enqueues
      refine ⟨_, made.found, .full change (by omega) positive rfl ?_⟩
      rw [overflowMark_eq consistent present positive (by dsimp only; omega), overflowCarrier,
        if_pos change]
      rfl
    · rw [ensureQueueSpace_roomless here (by dsimp only; omega) (by dsimp only; omega)] at enqueues
      cases enqueues

theorem sampleCallback_sampled (sound : Sound room sub) (found : sub.item mon = some item)
    {sample : Sample Content} (samples : sub.sampleCallback mon sample = some after) :
    ∃ changed, after.item mon = some changed ∧
      SampledQueue sub item (sub.sampleMark mon sample) changed.queue := by
  by_cases enqueued : item.monitoredItemType = .changeNotify ∧ sample.changed ∧ sample.memory
  · obtain ⟨change, needed, memory⟩ := enqueued
    have marks : sub.sampleMark mon sample =
        (sub.append item (.value sample.value)).overflowMark mon := by
      simp [sampleMark, found, change, needed, memory]
    simp only [sampleCallback, sampleCallbackWithValue, found, Option.bind_eq_bind,
      Option.bind_some, change, needed, memory, ne_eq, not_true_eq_false, if_false, Bool.not_true,
      Bool.false_eq_true] at samples
    obtain ⟨middle, enqueues, samples⟩ := Option.bind_eq_some_iff.mp samples
    obtain ⟨changed, again, queue⟩ := notificationEnqueue_sampled sound found change enqueues
    rw [again] at samples
    cases samples
    rw [marks]
    exact ⟨{ changed with lastValue := sample.value.numeric }, setItem_item_self again rfl, queue⟩
  · have unmarked : sub.sampleMark mon sample = none := by
      simp [sampleMark, found, enqueued]
    have same : after = sub := by
      by_cases change : item.monitoredItemType = .changeNotify
      · by_cases needed : sample.changed
        · have missing : sample.memory = false := by
            simpa [change, needed] using enqueued
          simp [sampleCallback, sampleCallbackWithValue, found, change, missing] at samples
          exact samples.symm
        · simp [sampleCallback, sampleCallbackWithValue, found, change, needed] at samples
          exact samples.symm
      · simp [sampleCallback, found, change] at samples
        exact samples.symm
    rw [same, unmarked]
    exact ⟨item, found, .same⟩

theorem setMonitoringMode_queue (sound : Sound room sub) {mode : MonitoringMode}
    {monitoredItemId : BitVec 32} {status : StatusCode}
    (found : sub.getMonitoredItem monitoredItemId = some item)
    (sets : sub.setMonitoringMode mode monitoredItemId = some (status, after)) :
    ∃ changed, after.item item.address = some changed ∧
      (changed.queue = item.queue ∨ changed.queue = []) := by
  have member := getMonitoredItem_mem found
  have here := sound.consistent.item_eq member
  rw [setMonitoringMode, found] at sets
  dsimp only at sets
  have set : Sound room (sub.setItem { item with monitoringMode := mode }) :=
    sound.setItem member ⟨rfl, rfl, rfl, rfl, rfl⟩ rfl
  have present : { item with monitoringMode := mode } ∈
      (sub.setItem { item with monitoringMode := mode }).monitoredItems :=
    mem_setItem_self member rfl
  split at sets
  · cases sets
    exact ⟨item, here, .inl rfl⟩
  split at sets
  · cases sets
    exact ⟨item, here, .inl rfl⟩
  split at sets
  · cases sets
    exact ⟨item, here, .inl rfl⟩
  split at sets
  · cases sets
    exact ⟨_, setItem_item_self here rfl, .inl rfl⟩
  · obtain ⟨middle, drops, reworked⟩ :=
      dropAll_reworked .disabled set.consistent set.recorded present rfl
    have left := reworked.consistent.item_eq (reworked.member present)
    simp only [drops, left, Option.bind_eq_bind, Option.bind_some] at sets
    cases sets
    exact ⟨_, setItem_item_self left rfl, .inr rfl⟩

end Marking

namespace MarksFit

variable {sub : Subscription Content} {item changed : MonitoredItem} {marked : List Nat}
  {taken : Nat} {mark : Option Nat}

theorem filter_queued (marked queue : List Nat) :
    queue.filter (· ∈ marked.filter (· ∈ queue)) = queue.filter (· ∈ marked) := by
  apply filter_congr
  intro n queued
  simp [queued]

theorem settings_eq (same : changed.settings = item.settings) :
    changed.monitoredItemType = item.monitoredItemType ∧
      changed.discardOldest = item.discardOldest ∧
      changed.maxQueueSize = item.maxQueueSize := by
  have kind := congrArg MonitoredItem.monitoredItemType same
  have policy := congrArg MonitoredItem.discardOldest same
  have limit := congrArg MonitoredItem.maxQueueSize same
  exact ⟨kind, policy, limit⟩

theorem unmarked (item : MonitoredItem) (taken : Nat) : MarksFit item [] taken where
  queued := fun _ member => absurd member not_mem_nil
  change := fun _ member => absurd member not_mem_nil
  oldest := fun _ _ member => absurd member not_mem_nil
  newest := by
    intro _
    left
    simp

section

variable (fit : MarksFit item marked taken) (same : changed.settings = item.settings)
include fit same

theorem suffix (front : List Nat) (queue : item.queue = front ++ changed.queue)
    (nodup : item.queue.Nodup) :
    MarksFit changed (marked.filter (· ∈ changed.queue))
      (countTaken item.queue changed.queue taken) := by
  obtain ⟨kind, policy, limit⟩ := settings_eq same
  refine ⟨?_, ?_, ?_, ?_⟩
  · intro n member
    exact of_decide_eq_true (mem_filter.mp member).2
  · intro n member
    rw [kind]
    exact fit.change n (mem_filter.mp member).1
  · intro oldest n member
    rw [policy] at oldest
    obtain ⟨before, left⟩ := mem_filter.mp member
    rw [decide_eq_true_eq] at left
    have head := fit.oldest oldest n before
    rw [queue] at head nodup
    cases front with
    | nil => exact head
    | cons first rest =>
      have same : first = n := Option.some.inj head
      subst same
      exact absurd rfl ((nodup_append.mp nodup).2.2 first mem_cons_self first left)
  · intro newest
    rw [policy] at newest
    rw [filter_queued, countTaken]
    by_cases empty : changed.queue = []
    · left
      simp [empty]
    by_cases whole : changed.queue = item.queue
    · rw [if_neg empty, if_pos whole, whole, limit]
      rcases fit.newest newest with few | ⟨few, full, last⟩
      · exact .inl few
      · right
        refine ⟨few, full, ?_⟩
        intro n final
        exact mem_filter.mpr ⟨last n final, decide_eq_true (mem_of_getLast? final)⟩
    · left
      rw [if_neg empty, if_neg whole]
      have fewer : (changed.queue.filter (· ∈ marked)).length ≤
          (item.queue.filter (· ∈ marked)).length := by
        rw [queue, filter_append, length_append]
        omega
      rcases fit.newest newest with few | ⟨few, -⟩ <;> omega

theorem quiet (queue : item.monitoredItemType = .changeNotify → changed.queue = item.queue ∨
      changed.queue = [])
    (nodup : item.queue.Nodup) : MarksFit changed (marked.filter (· ∈ changed.queue)) taken := by
  by_cases change : item.monitoredItemType = .changeNotify
  · rcases queue change with whole | empty
    · have fits := fit.suffix same [] whole.symm nodup
      rw [countTaken] at fits
      by_cases empty : changed.queue = []
      · simp only [empty, not_mem_nil, decide_false, filter_false]
        exact unmarked changed taken
      · rwa [if_neg empty, if_pos whole] at fits
    · simp only [empty, not_mem_nil, decide_false, filter_false]
      exact unmarked changed taken
  · have none : marked = [] := by
      rw [eq_nil_iff_forall_not_mem]
      exact fun n member => change (fit.change n member)
    subst none
    exact unmarked changed taken

theorem space (room : item.queue.length < item.maxQueueSize) {n : Nat}
    (queue : changed.queue = item.queue ++ [n]) (fresh : n ∉ item.queue) :
    MarksFit changed (marked.filter (· ∈ changed.queue)) taken := by
  obtain ⟨kind, policy, limit⟩ := settings_eq same
  refine ⟨?_, ?_, ?_, ?_⟩
  · intro m member
    exact of_decide_eq_true (mem_filter.mp member).2
  · intro m member
    rw [kind]
    exact fit.change m (mem_filter.mp member).1
  · intro oldest m member
    rw [policy] at oldest
    rw [queue, head?_append, fit.oldest oldest m (mem_filter.mp member).1]
    rfl
  · intro newest
    rw [policy] at newest
    have unmarked : n ∉ marked := fun member => fresh (fit.queued n member)
    rw [filter_queued, queue, filter_append, filter_cons_of_neg (by simp [unmarked])]
    rcases fit.newest newest with few | ⟨-, full, -⟩
    · left
      simpa using few
    · omega

theorem full (change : item.monitoredItemType = .changeNotify)
    (full : item.queue.length = item.maxQueueSize) (positive : 1 ≤ item.maxQueueSize) {n : Nat}
    (left : changed.queue = survivors item.discardOldest item.maxQueueSize (item.queue ++ [n]))
    (marks : mark = if 1 < item.maxQueueSize then if item.discardOldest then
      changed.queue.head? else changed.queue.getLast? else none)
    (fresh : n ∉ item.queue) (nodup : item.queue.Nodup) :
    MarksFit changed ((marked ++ mark.toList).filter (· ∈ changed.queue)) taken := by
  obtain ⟨kind, policy, limit⟩ := settings_eq same
  have unmarked : n ∉ marked := fun member => fresh (fit.queued n member)
  have length : changed.queue.length = item.maxQueueSize := by
    rw [left]
    apply survivors_length positive
    rw [length_append]
    omega
  refine ⟨?_, ?_, ?_, ?_⟩
  · intro m member
    exact of_decide_eq_true (mem_filter.mp member).2
  · intro m member
    rw [kind, change]
  · intro oldest m member
    rw [policy] at oldest
    obtain ⟨before, present⟩ := mem_filter.mp member
    rw [decide_eq_true_eq] at present
    rcases mem_append.mp before with old | new
    · -- The first of the queue was the only one that could be marked, and it is the one that goes.
      have head := fit.oldest oldest m old
      have drops : changed.queue = item.queue.tail ++ [n] := by
        rw [left, survivors, if_pos oldest, length_append, full, length_singleton,
          Nat.add_sub_cancel_left, drop_append_of_le_length (by omega), drop_one]
      rw [drops] at present
      obtain ⟨rest, queue⟩ : ∃ rest, item.queue = m :: rest := head?_eq_some_iff.mp head
      rw [queue] at present nodup fresh
      rcases mem_append.mp present with again | last
      · exact absurd again (nodup_cons.mp nodup).1
      · rw [mem_singleton] at last
        exact absurd (last ▸ mem_cons_self) fresh
    · rw [marks, Option.mem_toList] at new
      split at new
      · exact new
      · cases new
  · intro newest
    rw [policy] at newest
    rw [filter_queued]
    have drops : changed.queue = item.queue.dropLast ++ [n] := by
      rw [left, survivors, newest, if_neg Bool.false_ne_true,
        take_append_of_le_length (by omega), ← full, ← dropLast_eq_take,
        getLast?_append]
      rfl
    have front : (item.queue.dropLast.filter (· ∈ marked)).length ≤ taken := by
      have nonempty : item.queue ≠ [] := ne_nil_of_length_pos (by omega)
      have split := dropLast_append_getLast nonempty
      have counts := congrArg (fun queue => (queue.filter (· ∈ marked)).length) split
      simp only [filter_append, length_append] at counts
      rcases fit.newest newest with few | ⟨few, -, last⟩
      · omega
      · have marks := last _ (getLast?_eq_some_getLast nonempty)
        rw [filter_cons_of_pos (by simpa using marks), filter_nil, length_singleton] at counts
        omega
    have absent : n ∉ item.queue.dropLast := fun member => fresh (mem_of_mem_dropLast member)
    by_cases several : 1 < item.maxQueueSize
    · right
      rw [if_pos several, newest, if_neg Bool.false_ne_true, drops, getLast?_concat] at marks
      subst marks
      have others : item.queue.dropLast.filter (· ∈ marked ++ (some n).toList) =
          item.queue.dropLast.filter (· ∈ marked) := by
        apply filter_congr
        intro m member
        have different : m ≠ n := fun equal => absent (equal ▸ member)
        simp [different]
      refine ⟨?_, length.trans limit.symm, ?_⟩
      · rw [drops, filter_append, length_append, others, filter_cons_of_pos (by simp)]
        simp only [filter_nil, length_singleton]
        omega
      · intro last final
        rw [drops, getLast?_concat, Option.mem_some] at final
        subst final
        simp [drops]
    · left
      rw [if_neg several] at marks
      subst marks
      have single : item.queue.dropLast = [] := by
        apply eq_nil_of_length_eq_zero
        rw [length_dropLast]
        omega
      rw [drops, single]
      simp [unmarked]

theorem sampled (queue : SampledQueue sub item mark changed.queue) (fresh : sub.unused ∉ item.queue)
    (nodup : item.queue.Nodup) :
    MarksFit changed ((marked ++ mark.toList).filter (· ∈ changed.queue)) taken := by
  generalize left : changed.queue = queue at queue
  cases queue with
  | same =>
    rw [Option.toList_none, append_nil, ← left]
    exact fit.quiet same (fun _ => .inl left) nodup
  | space change room =>
    rw [Option.toList_none, append_nil, ← left]
    exact fit.space same room left fresh
  | full change full positive form marks =>
    rw [← left] at form marks ⊢
    exact fit.full same change full positive form marks fresh nodup

end

end MarksFit

end Subscription

section Steps

variable {sub after : Subscription Content} {mon : Nat} {item : MonitoredItem}

theorem Subscription.Sound.nodup (sound : Sound room sub) (found : sub.item mon = some item) :
    item.queue.Nodup := by
  rw [sound.consistent.parts item (item_mem found).1]
  exact sound.consistent.queue_nodup.filter _

theorem Subscription.Sound.fresh (sound : Sound room sub) (found : sub.item mon = some item) :
    sub.unused ∉ item.queue := by
  intro queued
  have old := sound.consistent.queue_old _ (sound.consistent.queued (item_mem found).1 queued).1
  exact absurd old (Nat.lt_irrefl _)

structure ItemUndisturbed (mon : Nat) (item : MonitoredItem) (after : Subscription Content)
    (changed : MonitoredItem) : Prop where
  found : after.item mon = some changed
  settings : changed.settings = item.settings
  queue : item.monitoredItemType = .changeNotify → changed.queue = item.queue ∨ changed.queue = []

theorem ItemUndisturbed.of_item (found : sub.item mon = some item)
    (same : after.item mon = sub.item mon) : ItemUndisturbed mon item after item :=
  ⟨same.trans found, rfl, fun _ => .inl rfl⟩

theorem BystanderStep.undisturbed (step : BystanderStep config mon sub after)
    (sound : Sound config.queueSizeLimits.min sub) (found : sub.item mon = some item) :
    ∃ changed, ItemUndisturbed mon item after changed := by
  have distinct : sub.DistinctItems := sound.consistent.items_nodup
  cases step with
  | sample different samples =>
    exact ⟨item, .of_item found (sampleCallback_item_ne different samples)⟩
  | @event _ other holder _ _ _ holds event adds =>
    by_cases different : other = mon
    · subst different
      rw [found] at holds
      cases holds
      obtain ⟨changed, here, same⟩ :=
        (addEventToMonitoredItem_sameSettings distinct adds).item_some found
      refine ⟨changed, here, same, ?_⟩
      intro change
      rw [event] at change
      cases change
    · exact ⟨item, .of_item found (addEventToMonitoredItem_item_ne different adds)⟩
  | @mode _ mode monitoredItemId _ sets =>
    cases known : sub.getMonitoredItem monitoredItemId with
    | none =>
      rw [setMonitoringMode, known] at sets
      cases sets
      exact ⟨item, .of_item found rfl⟩
    | some other =>
      by_cases different : other.address = mon
      · have same : other = item := distinct.item_eq (item_mem found).1
          (getMonitoredItem_mem known) (different.trans (item_mem found).2.symm)
        subst same
        subst different
        obtain ⟨changed, here, settings⟩ :=
          (setMonitoringMode_sameSettings distinct sets).item_some found
        obtain ⟨again, also, queue⟩ := setMonitoringMode_queue sound known sets
        rw [here] at also
        cases also
        exact ⟨changed, here, settings, fun _ => queue⟩
      · exact ⟨item, .of_item found (setMonitoringMode_item_ne known different sets)⟩
  | create creates =>
    have old := sound.consistent.items_old item (item_mem found).1
    rw [(item_mem found).2] at old
    exact ⟨item, .of_item found (createMonitoredItem_item_ne (Nat.ne_of_gt old) creates)⟩
  | @modify _ request _ different modifies =>
    cases known : sub.getMonitoredItem request.monitoredItemId with
    | none =>
      rw [modifyMonitoredItem, known] at modifies
      cases modifies
      exact ⟨item, .of_item found rfl⟩
    | some other =>
      exact ⟨item, .of_item found
        (modifyMonitoredItem_item_ne known (different other known) modifies)⟩
  | delete different deletes =>
    exact ⟨item, .of_item found (deleteMonitoredItem_item_ne different deletes)⟩
  | settings only =>
    rw [only]
    exact ⟨item, .of_item found rfl⟩
  | acknowledge number =>
    refine ⟨item, .of_item found ?_⟩
    rw [removeRetransmissionMessage]
    split <;> rfl
  | keepAlive => exact ⟨item, .of_item found rfl⟩

theorem BystanderStep.sound (step : BystanderStep config mon sub after)
    (sound : Sound config.queueSizeLimits.min sub) : Sound config.queueSizeLimits.min after := by
  cases step with
  | @sample _ other sample _ samples =>
    cases found : sub.item other with
    | none =>
      rw [sampleCallback, found] at samples
      cases samples
    | some item =>
      obtain ⟨member, rfl⟩ := item_mem found
      have yields := sampleCallback_sound sound member sample
      rw [samples] at yields
      exact yields.of_some.sound
  | @event _ _ _ memory _ filtered found event adds =>
    obtain ⟨member, rfl⟩ := item_mem found
    have yields := addEventToMonitoredItem_sound sound member event filtered memory
    rw [adds] at yields
    exact yields.of_some.sound
  | @mode _ mode monitoredItemId _ sets =>
    obtain ⟨status, final, same, kept, -⟩ := setMonitoringMode_sound sound mode monitoredItemId
    rw [sets] at same
    cases same
    exact kept
  | @create _ request _ creates =>
    have yields := createMonitoredItem_sound (Nat.le_refl _) sound request
    rw [creates] at yields
    exact yields.of_some.sound
  | @modify _ request _ _ modifies =>
    have yields := modifyMonitoredItem_sound (Nat.le_refl _) sound request
    rw [modifies] at yields
    exact yields.of_some.sound
  | @delete _ monitoredItemId _ _ deletes =>
    obtain ⟨status, final, same, kept, -⟩ := deleteMonitoredItem_sound sound monitoredItemId
    rw [deletes] at same
    cases same
    exact kept
  | settings only => exact SubscriptionStep.settings_sound only sound
  | acknowledge number => exact (SubscriptionStep.acknowledge sub number).sound sound
  | keepAlive => exact (SubscriptionStep.keepAlive sub).sound sound

theorem prepareNotificationMessage_item (sound : Sound room sub) {notifications : Nat}
    {message : NotificationMessage Content} (wanted : 0 < notifications)
    (available : 0 < sub.notificationQueue.length)
    (prepares : sub.prepareNotificationMessage notifications = some (message, after))
    (found : sub.item mon = some item) :
    ∃ taken changed front, Prepared room sub notifications taken message after ∧
      after.item mon = some changed ∧ changed.settings = item.settings ∧
      item.queue = front ++ changed.queue := by
  obtain ⟨taken, other, final, same, prepared⟩ :=
    prepareNotificationMessage_prepared sound wanted available
  rw [prepares] at same
  cases same
  have kept := (ServerMove.message prepares).sameSettings sound.consistent.items_nodup
  obtain ⟨changed, here, settings⟩ := kept.item_some found
  obtain ⟨member, rfl⟩ := item_mem found
  obtain ⟨left, present, address, queue⟩ := prepared.items sound.consistent member
  have again := prepared.consistent.item_eq present
  rw [address, here] at again
  cases again
  exact ⟨taken, changed, _, prepared, here, settings, queue⟩

structure Marking (config : SubscriptionConfig) (mon : Nat) (sub : Subscription Content)
    (marked : List Nat) (taken : Nat) : Prop where
  sound : Sound config.queueSizeLimits.min sub
  fits : ∃ item, sub.item mon = some item ∧ MarksFit item marked taken

theorem MarkedRun.marking {marked : List Nat} {taken : Nat}
    (run : MarkedRun config mon sub marked taken) : Marking config mon sub marked taken := by
  induction run with
  | @created address subscriptionId before after request result becomes creates good place =>
    have sound := becomes.sound (Session.new_sound address subscriptionId)
    have yields := createMonitoredItem_sound (Nat.le_refl _) sound request
    rw [creates] at yields
    have kept := yields.of_some.sound
    refine ⟨kept, ?_⟩
    cases createMonitoredItem_created sound.consistent.items_nodup sound.consistent.items_old
      creates with
    | refused bad => exact absurd good bad
    | @added new _ sets items =>
      obtain ⟨filter, -, rfl⟩ := setMonitoredItemSettings_good sets
      have listed : before.unusedItem ∈ after.monitoredItems.map MonitoredItem.address := by
        have addresses := congrArg (List.map MonitoredItem.address) items
        rw [map_map, map_cons] at addresses
        exact addresses ▸ mem_cons_self
      obtain ⟨item, member, address⟩ := mem_map.mp listed
      have found := kept.consistent.item_eq member
      rw [address, ← place] at found
      exact ⟨item, found, .unmarked item 0⟩
  | @sample before after marked taken sample _ samples ih =>
    obtain ⟨item, found, fit⟩ := ih.fits
    obtain ⟨member, same⟩ := item_mem found
    have yields := sampleCallback_sound ih.sound member sample
    rw [same, samples] at yields
    obtain ⟨changed, here, queue⟩ := sampleCallback_sampled ih.sound found samples
    obtain ⟨again, also, settings⟩ :=
      (sampleCallback_sameSettings ih.sound.consistent.items_nodup samples).item_some found
    rw [here] at also
    cases also
    refine ⟨yields.of_some.sound, changed, here, ?_⟩
    rw [queueOf_eq here]
    exact fit.sampled settings queue (ih.sound.fresh found) (ih.sound.nodup found)
  | @message before prepared retained marked taken notifications message _ wanted limit available
      prepares retains ih =>
      obtain ⟨item, found, fit⟩ := ih.fits
      obtain ⟨moved, changed, front, filled, here, settings, queue⟩ :=
        prepareNotificationMessage_item ih.sound wanted available prepares found
      have numbered : Prepared config.queueSizeLimits.min before notifications moved
          { message with sequenceNumber := nextSequenceNumber before.sequenceNumber } prepared :=
        { filled with }
      have step := SubscriptionStep.message wanted limit numbered rfl retains
      have kept : retained.item mon = some changed := by
        rw [SubscriptionStep.retain_eq retains]
        exact here
      refine ⟨step.sound ih.sound, changed, kept, ?_⟩
      rw [queueOf_eq found, queueOf_eq kept]
      exact fit.suffix settings front queue (ih.sound.nodup found)
  | bystander _ step ih =>
    obtain ⟨item, found, fit⟩ := ih.fits
    obtain ⟨changed, undisturbed⟩ := step.undisturbed ih.sound found
    refine ⟨step.sound ih.sound, changed, undisturbed.found, ?_⟩
    rw [queueOf_eq undisturbed.found]
    exact fit.quiet undisturbed.settings undisturbed.queue (ih.sound.nodup found)

end Steps

theorem Subscription.MarksFit.few {item : MonitoredItem} (fit : MarksFit item marked taken)
    (nodup : item.queue.Nodup) :
    (item.queue.filter (· ∈ marked)).length ≤ if item.discardOldest then 1 else taken + 1 := by
  cases policy : item.discardOldest with
  | true =>
    have first := fit.oldest policy
    cases queue : item.queue with
    | nil => simp
    | cons head rest =>
      rw [queue] at first nodup
      have others : rest.filter (· ∈ marked) = [] := by
        rw [filter_eq_nil_iff]
        intro n member marks
        have same : head = n := Option.some.inj (first n (of_decide_eq_true marks))
        exact (nodup_cons.mp nodup).1 (same ▸ member)
      rw [filter_cons, others]
      split <;> simp
  | false =>
    rw [if_neg Bool.false_ne_true]
    rcases fit.newest policy with few | ⟨few, -⟩ <;> omega

/-- A queue above its maximum loses exactly its surplus, and one notification carries the info bits.
At most one has got overflow bits if the oldest are discarded, and otherwise one more than messages
took a part of the queue. -/
theorem overflow_marks :
    (∀ (room : Nat) (sub : Subscription Content) (item : MonitoredItem), Consistent room sub →
      item ∈ sub.monitoredItems → 1 ≤ item.maxQueueSize → item.maxQueueSize < item.queueSize →
      ∃ after, sub.ensureQueueSpace item.address = some after ∧ SpaceMade sub item after) ∧
    ∀ (config : SubscriptionConfig) (mon : Nat) (sub : Subscription Content) (marked : List Nat)
      (taken : Nat), MarkedRun config mon sub marked taken →
      ∀ item, sub.item mon = some item → (item.queue.filter (· ∈ marked)).length ≤
          if item.discardOldest then 1 else taken + 1 := by
  constructor
  · intro room sub item consistent member positive larger
    obtain ⟨after, ensures, made, -⟩ :=
      ensureQueueSpace_spaceMade consistent member positive larger
    exact ⟨after, ensures, made⟩
  · intro config mon sub marked taken run item found
    obtain ⟨other, same, fit⟩ := run.marking.fits
    rw [found] at same
    cases same
    exact fit.few (run.marking.sound.nodup found)

/-! A queue for two values, which keeps its oldest one -/

def keepOldestRequest : MonitoredItemCreateRequest Nat :=
  ⟨attributeIdValue, .unnamed, .disabled, ⟨0, .notDecoded, 2, false⟩, ⟨0, none, false, .good⟩, true,
    .good, ⟨⟨0, none, false, .good⟩, false, false⟩⟩

def singlePublish : Subscription Nat := { Subscription.new 0 1 with notificationsPerPublish := 1 }

def keepOldest : Subscription Nat :=
  ((singlePublish.createMonitoredItem defaultConfig keepOldestRequest).map Prod.snd).getD
    singlePublish

def plainSample (value : Nat) : Sample Nat := ⟨⟨value, none, false, .good⟩, true, true⟩

def sampled (sub : Subscription Nat) (value : Nat) : Subscription Nat :=
  (sub.sampleCallback 0 (plainSample value)).getD sub

def published (sub : Subscription Nat) : Subscription Nat :=
  ((sub.prepareNotificationMessage 1).bind fun (message, prepared) =>
    let message := { message with sequenceNumber := nextSequenceNumber sub.sequenceNumber }
    (prepared.retain defaultConfig message).map (·.record message)).getD sub

def firstLoss : Subscription Nat := sampled (sampled (sampled keepOldest 1) 2) 3

def secondLoss : Subscription Nat := sampled (sampled (published firstLoss) 4) 5

theorem keepOldest_run : MarkedRun defaultConfig 0 keepOldest [] 0 := by
  have becomes : Becomes defaultConfig (Subscription.new 0 1) singlePublish := .step (.settings rfl)
  have creates : singlePublish.createMonitoredItem defaultConfig keepOldestRequest
      = some (⟨.good, 1, 2⟩, keepOldest) := rfl
  exact .created becomes creates rfl rfl

theorem sampled_run {sub : Subscription Nat} {left : List Nat} {value : Nat}
    (run : MarkedRun defaultConfig 0 sub marked taken)
    (possible : (sub.sampleCallback 0 (plainSample value)).isSome)
    (marks : (marked ++ (sub.sampleMark 0 (plainSample value)).toList).filter
      (· ∈ (sampled sub value).queueOf 0) = left) :
    MarkedRun defaultConfig 0 (sampled sub value) left taken := by
  obtain ⟨after, samples⟩ := Option.isSome_iff_exists.mp possible
  have same : sampled sub value = after := by
    rw [sampled, samples]
    rfl
  rw [← marks, same]
  exact run.sample samples

theorem firstLoss_run : MarkedRun defaultConfig 0 firstLoss [2] 0 := by
  have one : MarkedRun defaultConfig 0 (sampled keepOldest 1) [] 0 :=
    sampled_run keepOldest_run (by decide) (by decide)
  have two : MarkedRun defaultConfig 0 (sampled (sampled keepOldest 1) 2) [] 0 :=
    sampled_run one (by decide) (by decide)
  exact sampled_run two (by decide) (by decide)

theorem published_run : MarkedRun defaultConfig 0 (published firstLoss) [2] 1 := by
  have possible : (firstLoss.prepareNotificationMessage 1).isSome := by decide
  obtain ⟨⟨message, prepared⟩, prepares⟩ := Option.isSome_iff_exists.mp possible
  obtain ⟨retained, retains⟩ : ∃ retained, prepared.retain defaultConfig
      { message with sequenceNumber := nextSequenceNumber firstLoss.sequenceNumber } =
        some retained := by
    have unlimited : ¬ defaultConfig.maxRetransmissionQueueSize > 0 := by decide
    exact ⟨_, rfl⟩
  have same : published firstLoss = retained.record
      { message with sequenceNumber := nextSequenceNumber firstLoss.sequenceNumber } := by
    rw [published, prepares, Option.bind_some]
    dsimp only
    rw [retains]
    rfl
  have run := firstLoss_run.message (by decide) (by decide) (by decide) prepares retains
  have queue : retained.queueOf 0 = [2] := by
    have left : (published firstLoss).queueOf 0 = [2] := by decide
    rw [same] at left
    exact left
  have before : firstLoss.queueOf 0 = [0, 2] := by decide
  rw [← same, queue] at run
  exact run

theorem secondLoss_run : MarkedRun defaultConfig 0 secondLoss [2, 4] 1 := by
  have one : MarkedRun defaultConfig 0 (sampled (published firstLoss) 4) [2] 1 :=
    sampled_run published_run (by decide) (by decide)
  exact sampled_run one (by decide) (by decide)

/-- Both values in the queue have got overflow bits. -/
theorem keepOldest_marksTwo : ¬∀ (config : SubscriptionConfig) (mon : Nat)
    (sub : Subscription Nat) (marked : List Nat) (taken : Nat),
    MarkedRun config mon sub marked taken → ∀ item, sub.item mon = some item →
      (item.queue.filter (· ∈ marked)).length ≤ 1 := by
  intro always
  have found : ∃ item, secondLoss.item 0 = some item ∧ item.queue = [2, 4] := ⟨_, rfl, rfl⟩
  obtain ⟨item, found, queue⟩ := found
  have one := always defaultConfig 0 secondLoss [2, 4] 1 secondLoss_run item found
  rw [queue] at one
  exact absurd one (by decide)

theorem thirdValue_spaceMade : ∃ (sub : Subscription Nat) (item : MonitoredItem)
    (after : Subscription Nat), item.queue = [0, 1, 2] ∧
      sub.ensureQueueSpace item.address = some after ∧ SpaceMade sub item after ∧
      ([0, 2].filter (· ∈ [2])).length ≤ 0 + 1 := by
  have one : MarkedRun defaultConfig 0 (sampled keepOldest 1) [] 0 :=
    sampled_run keepOldest_run (by decide) (by decide)
  have two : MarkedRun defaultConfig 0 (sampled (sampled keepOldest 1) 2) [] 0 :=
    sampled_run one (by decide) (by decide)
  obtain ⟨item, found, queue, size, limit, change⟩ :
      ∃ item, (sampled (sampled keepOldest 1) 2).item 0 = some item ∧ item.queue = [0, 1] ∧
        item.queueSize = 2 ∧ item.maxQueueSize = 2 ∧ item.monitoredItemType = .changeNotify :=
    ⟨_, rfl, rfl, rfl, rfl, rfl⟩
  have fresh : (sampled (sampled keepOldest 1) 2).unused = 2 := by decide
  have fits : (NotificationData.value ⟨3, none, false, .good⟩).fits item.monitoredItemType := by
    rw [change]
    rfl
  have consistent := two.marking.sound.consistent.extended (item_mem found).1 fits
  obtain ⟨after, ensures, made⟩ := overflow_marks.1 _ _ _ consistent
    (mem_setItem_self (item_mem found).1 rfl) (by dsimp only; omega) (by dsimp only; omega)
  obtain ⟨last, here, left, policy⟩ : ∃ last, firstLoss.item 0 = some last ∧ last.queue = [0, 2] ∧
      last.discardOldest = false := ⟨_, rfl, rfl, rfl⟩
  have few := overflow_marks.2 defaultConfig 0 firstLoss [2] 0 firstLoss_run last here
  rw [left, policy, if_neg Bool.false_ne_true] at few
  exact ⟨_, _, after, by rw [queue, fresh]; rfl, ensures, made, few⟩

end OpcUa
