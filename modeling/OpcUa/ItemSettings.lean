import OpcUa.SubscriptionOperations

/-!
What the work on the queues of a subscription leaves as it is: the settings of every item, and which
items there are.
-/

namespace OpcUa

variable {Content : Type}

def MonitoredItem.settings (item : MonitoredItem) : MonitoredItem :=
  { item with monitoringMode := .disabled, lastValue := none, queue := [], queueSize := 0 }

namespace Subscription

def DistinctItems (sub : Subscription Content) : Prop :=
  (sub.monitoredItems.map MonitoredItem.address).Nodup

structure SameSettings (sub after : Subscription Content) : Prop where
  items : after.monitoredItems.map MonitoredItem.settings =
    sub.monitoredItems.map MonitoredItem.settings
  unusedItem : after.unusedItem = sub.unusedItem
  subscriptionId : after.subscriptionId = sub.subscriptionId

namespace SameSettings

variable {sub middle after : Subscription Content}

theorem refl (sub : Subscription Content) : SameSettings sub sub := ⟨rfl, rfl, rfl⟩

theorem trans (first : SameSettings sub middle) (second : SameSettings middle after) :
    SameSettings sub after where
  items := second.items.trans first.items
  unusedItem := second.unusedItem.trans first.unusedItem
  subscriptionId := second.subscriptionId.trans first.subscriptionId

theorem map (same : SameSettings sub after) {Key : Type} (key : MonitoredItem → Key)
    (reads : ∀ item, key item.settings = key item) :
    after.monitoredItems.map key = sub.monitoredItems.map key := by
  have composed : key ∘ MonitoredItem.settings = key := funext reads
  have mapped := congrArg (List.map key) same.items
  rw [List.map_map, List.map_map, composed] at mapped
  exact mapped

theorem distinct (same : SameSettings sub after) (distinct : sub.DistinctItems) :
    after.DistinctItems := by
  rw [DistinctItems, same.map MonitoredItem.address fun _ => rfl]
  exact distinct

end SameSettings

section Operations

variable {sub after : Subscription Content} {mon : Nat} {item changed : MonitoredItem}
variable {status : StatusCode} {monitoredItemId : BitVec 32} {config : SubscriptionConfig}

theorem DistinctItems.item_eq (distinct : sub.DistinctItems) {other : MonitoredItem}
    (member : item ∈ sub.monitoredItems) (present : other ∈ sub.monitoredItems)
    (same : other.address = item.address) : other = item := by
  exact List.inj_on_of_nodup_map distinct present member same

theorem setItem_sameSettings (changed : MonitoredItem) (distinct : sub.DistinctItems)
    (found : sub.item mon = some item) (settings : changed.settings = item.settings) :
    SameSettings sub (sub.setItem changed) := by
  refine ⟨?_, rfl, rfl⟩
  rw [setItem, List.map_map]
  apply List.map_congr_left
  intro other member
  rw [Function.comp_apply]
  by_cases same : other.address = changed.address
  · have address : changed.settings.address = item.settings.address :=
      congrArg MonitoredItem.address settings
    rw [if_pos same, settings, distinct.item_eq (item_mem found).1 member (same.trans address)]
  · rw [if_neg same]

theorem countDown_sameSettings (sub : Subscription Content) (type : MonitoredItemType) :
    SameSettings sub (sub.countDown type) := by
  cases type <;> exact ⟨rfl, rfl, rfl⟩

theorem countUp_sameSettings (sub : Subscription Content) (type : MonitoredItemType) :
    SameSettings sub (sub.countUp type) := by
  cases type <;> exact ⟨rfl, rfl, rfl⟩

theorem countDown_item (sub : Subscription Content) (type : MonitoredItemType) (mon : Nat) :
    (sub.countDown type).item mon = sub.item mon := by
  cases type <;> rfl

theorem notificationDelete_sameSettings (distinct : sub.DistinctItems) {n : Nat}
    (deletes : sub.notificationDelete mon n = some after) : SameSettings sub after := by
  simp only [notificationDelete, Option.bind_eq_bind, Option.bind_eq_some_iff] at deletes
  obtain ⟨item, found, notification, -, deletes⟩ := deletes
  split at deletes
  · cases deletes
  split at deletes
  · cases deletes
  · injection deletes with deletes
    have counted := countDown_sameSettings sub item.monitoredItemType
    have here : (sub.countDown item.monitoredItemType).item mon = some item := by
      rw [countDown_item, found]
    have kept := setItem_sameSettings { item with
      queue := item.queue.erase n, queueSize := item.queueSize - 1 } (counted.distinct distinct)
      here rfl
    rw [← deletes]
    exact counted.trans (kept.trans ⟨rfl, rfl, rfl⟩)

theorem drop_sameSettings (distinct : sub.DistinctItems) {cause : DropCause} {n : Nat}
    (drops : sub.drop cause mon n = some after) : SameSettings sub after := by
  simp only [drop, Option.bind_eq_bind, Option.bind_eq_some_iff] at drops
  obtain ⟨middle, deletes, drops⟩ := drops
  injection drops with drops
  rw [← drops]
  exact (notificationDelete_sameSettings distinct deletes).trans ⟨rfl, rfl, rfl⟩

theorem dropAll_sameSettings {cause : DropCause} : ∀ {queue : List Nat}
    {sub : Subscription Content}, sub.DistinctItems → dropAll cause mon queue sub = some after →
      SameSettings sub after := by
  intro queue
  induction queue with
  | nil =>
    rintro sub - drops
    injection drops with drops
    exact drops ▸ .refl sub
  | cons n rest ih =>
    intro sub distinct drops
    simp only [dropAll, Option.bind_eq_bind, Option.bind_eq_some_iff] at drops
    obtain ⟨middle, first, drops⟩ := drops
    have same := drop_sameSettings distinct first
    exact same.trans (ih (same.distinct distinct) drops)

theorem dropSurplus_sameSettings (distinct : sub.DistinctItems)
    (drops : sub.dropSurplus item = some after) : SameSettings sub after := by
  rw [dropSurplus] at drops
  split at drops
  · cases drops
  simp only [Option.bind_eq_bind, Option.bind_eq_some_iff] at drops
  obtain ⟨⟨del, afterDel⟩, -, drops⟩ := drops
  split at drops
  · cases drops
  · have moved : SameSettings sub { sub with
      notificationQueue := OwnedQueue.moveBehind del afterDel sub.notificationQueue } :=
        ⟨rfl, rfl, rfl⟩
    exact moved.trans (drop_sameSettings (moved.distinct distinct) drops)

theorem shrinkQueue_sameSettings : ∀ {rounds : Nat} {sub : Subscription Content},
    sub.DistinctItems → shrinkQueue rounds sub mon = some after → SameSettings sub after := by
  intro rounds
  induction rounds with
  | zero =>
    rintro sub - shrinks
    simp only [shrinkQueue, Option.bind_eq_bind, Option.bind_eq_some_iff] at shrinks
    obtain ⟨item, -, shrinks⟩ := shrinks
    split at shrinks
    · cases shrinks
    · injection shrinks with shrinks
      exact shrinks ▸ .refl sub
  | succ rounds ih =>
    intro sub distinct shrinks
    simp only [shrinkQueue, Option.bind_eq_bind, Option.bind_eq_some_iff] at shrinks
    obtain ⟨item, -, shrinks⟩ := shrinks
    split at shrinks
    · obtain ⟨middle, drops, shrinks⟩ := Option.bind_eq_some_iff.mp shrinks
      have same := dropSurplus_sameSettings distinct drops
      exact same.trans (ih (same.distinct distinct) shrinks)
    · injection shrinks with shrinks
      exact shrinks ▸ .refl sub

theorem markOverflow_sameSettings (marks : sub.markOverflow item = some after) :
    SameSettings sub after := by
  rw [markOverflow] at marks
  split at marks
  · simp only [Option.bind_eq_bind, Option.bind_eq_some_iff] at marks
    obtain ⟨n, -, notification, -, marks⟩ := marks
    split at marks
    · cases marks
    · injection marks with marks
      rw [← marks]
      exact ⟨rfl, rfl, rfl⟩
  · injection marks with marks
    exact marks ▸ .refl sub

section

variable (distinct : sub.DistinctItems)
include distinct

theorem ensureQueueSpace_sameSettings (ensures : sub.ensureQueueSpace mon = some after) :
    SameSettings sub after := by
  simp only [ensureQueueSpace, Option.bind_eq_bind, Option.bind_eq_some_iff] at ensures
  obtain ⟨item, -, ensures⟩ := ensures
  split at ensures
  · injection ensures with ensures
    exact ensures ▸ .refl sub
  · obtain ⟨middle, shrinks, ensures⟩ := Option.bind_eq_some_iff.mp ensures
    obtain ⟨item, -, marks⟩ := Option.bind_eq_some_iff.mp ensures
    exact (shrinkQueue_sameSettings distinct shrinks).trans (markOverflow_sameSettings marks)

theorem append_sameSettings (found : sub.item mon = some item) (data : NotificationData Content) :
    SameSettings sub (sub.append item data) := by
  have stored : SameSettings sub (sub.store sub.unused (some ⟨item.address, data⟩)) :=
    ⟨rfl, rfl, rfl⟩
  have kept := setItem_sameSettings { item with
    queue := item.queue ++ [sub.unused], queueSize := item.queueSize + 1 }
    (stored.distinct distinct) found rfl
  refine .trans ?_ (countUp_sameSettings _ _)
  exact (stored.trans kept).trans ⟨rfl, rfl, rfl⟩

theorem notificationEnqueue_sameSettings {data : NotificationData Content}
    (enqueues : sub.notificationEnqueue mon data = some after) : SameSettings sub after := by
  simp only [notificationEnqueue, Option.bind_eq_bind, Option.bind_eq_some_iff] at enqueues
  obtain ⟨item, found, ensures⟩ := enqueues
  have appended := append_sameSettings distinct found data
  exact appended.trans (ensureQueueSpace_sameSettings (appended.distinct distinct) ensures)

theorem sampleCallback_sameSettings {sample : Sample Content}
    (samples : sub.sampleCallback mon sample = some after) : SameSettings sub after := by
  simp only [sampleCallback, sampleCallbackWithValue, Option.bind_eq_bind,
    Option.bind_eq_some_iff] at samples
  obtain ⟨item, -, samples⟩ := samples
  split at samples
  · injection samples with samples
    exact samples ▸ .refl sub
  obtain ⟨again, -, samples⟩ := Option.bind_eq_some_iff.mp samples
  split at samples
  · cases samples
  split at samples
  · injection samples with samples
    exact samples ▸ .refl sub
  split at samples
  · injection samples with samples
    exact samples ▸ .refl sub
  · obtain ⟨middle, enqueues, samples⟩ := Option.bind_eq_some_iff.mp samples
    obtain ⟨item, found, samples⟩ := Option.bind_eq_some_iff.mp samples
    injection samples with samples
    have same := notificationEnqueue_sameSettings distinct enqueues
    have kept := setItem_sameSettings { item with lastValue := sample.value.numeric }
      (same.distinct distinct) found rfl
    rw [← samples]
    exact same.trans kept

theorem addEventToMonitoredItem_sameSettings {filtered : Except StatusCode (List Content)}
    {memory : Bool} (adds : sub.addEventToMonitoredItem mon filtered memory = some (status, after))
    :
    SameSettings sub after := by
  cases memory with
  | false =>
    cases adds
    exact .refl sub
  | true =>
    cases filtered with
    | error status =>
      cases adds
      exact .refl sub
    | ok fields =>
      obtain ⟨middle, enqueues, adds⟩ := Option.bind_eq_some_iff.mp adds
      cases adds
      exact notificationEnqueue_sameSettings distinct enqueues

theorem setMonitoringMode_sameSettings {mode : MonitoringMode}
    (sets : sub.setMonitoringMode mode monitoredItemId = some (status, after)) :
    SameSettings sub after := by
  rw [setMonitoringMode] at sets
  cases found : sub.getMonitoredItem monitoredItemId with
  | none =>
    rw [found] at sets
    cases sets
    exact .refl sub
  | some item =>
    rw [found] at sets
    dsimp only at sets
    split at sets
    · cases sets
      exact .refl sub
    split at sets
    · cases sets
      exact .refl sub
    split at sets
    · cases sets
      exact .refl sub
    have member := getMonitoredItem_mem found
    obtain ⟨first, here⟩ : ∃ first, sub.item item.address = some first := by
      rw [← Option.isSome_iff_exists, Subscription.item, List.find?_isSome]
      exact ⟨item, member, decide_eq_true rfl⟩
    have only := distinct.item_eq member (item_mem here).1 (item_mem here).2
    rw [only] at here
    have kept := setItem_sameSettings { item with monitoringMode := mode } distinct
      here rfl
    split at sets
    · cases sets
      exact kept
    · obtain ⟨middle, drops, sets⟩ := Option.bind_eq_some_iff.mp sets
      obtain ⟨left, found, sets⟩ := Option.bind_eq_some_iff.mp sets
      cases sets
      have dropped := dropAll_sameSettings (kept.distinct distinct) drops
      have cleared := setItem_sameSettings { left with lastValue := none }
        (dropped.distinct (kept.distinct distinct)) found rfl
      exact kept.trans (dropped.trans cleared)

end

/-! Creation, modification and deletion -/

theorem setMonitoredItemSettings_good {mode : MonitoringMode} {params : MonitoringParameters}
    {dataType : Option Bool}
    (sets : setMonitoredItemSettings config item mode params dataType = (.good, changed)) :
    ∃ filter, setFilter item dataType params.filter = .ok filter ∧ changed = { item with
      filter := filter
      monitoringMode := mode
      clientHandle := params.clientHandle
      monitoredItemType :=
        if item.attributeId = attributeIdEventNotifier then .eventNotify else .changeNotify
      maxQueueSize := config.queueSizeLimits.bound params.queueSize
      discardOldest := params.discardOldest } := by
  rw [setMonitoredItemSettings] at sets
  cases filtered : setFilter item dataType params.filter with
  | error status =>
    rw [filtered] at sets
    injection sets with bad
    exact absurd bad (setFilter_ne_good filtered)
  | ok filter =>
    rw [filtered] at sets
    injection sets with _ same
    exact ⟨filter, rfl, same.symm⟩

def OldItems (sub : Subscription Content) : Prop :=
  ∀ item ∈ sub.monitoredItems, item.address < sub.unusedItem

inductive CreatedItem (config : SubscriptionConfig) (sub : Subscription Content)
    (request : MonitoredItemCreateRequest Content) (result : MonitoredItemCreateResult)
    (after : Subscription Content) : Prop
  | refused (bad : result.statusCode ≠ .good) (items : after.monitoredItems = sub.monitoredItems)
      (unusedItem : sub.unusedItem ≤ after.unusedItem)
      (subscriptionId : after.subscriptionId = sub.subscriptionId)
  | added {new : MonitoredItem} (good : result.statusCode = .good)
      (sets : setMonitoredItemSettings config (sub.newItem request.attributeId)
        request.monitoringMode request.requestedParameters request.read.numeric = (.good, new))
      (items : after.monitoredItems.map MonitoredItem.settings =
        { new with monitoredItemId := result.monitoredItemId }.settings ::
          sub.monitoredItems.map MonitoredItem.settings)
      (unusedItem : after.unusedItem = sub.unusedItem + 1)
      (subscriptionId : after.subscriptionId = sub.subscriptionId)

theorem registerItem_distinct (distinct : sub.DistinctItems) (old : sub.OldItems)
    (new : MonitoredItem) (address : new.address = sub.unusedItem) :
    (sub.registerItem new).DistinctItems := by
  refine List.nodup_cons.mpr ⟨?_, distinct⟩
  intro member
  obtain ⟨item, listed, same⟩ := List.mem_map.mp member
  have less := old item listed
  dsimp only at same
  omega

theorem createMonitoredItem_created {request : MonitoredItemCreateRequest Content}
    {result : MonitoredItemCreateResult} (distinct : sub.DistinctItems) (old : sub.OldItems)
    (creates : sub.createMonitoredItem config request = some (result, after)) :
    CreatedItem config sub request result after := by
  rw [createMonitoredItem] at creates
  split at creates
  · cases creates
    exact .refused (by decide) rfl (Nat.le_refl _) rfl
  split at creates
  · rename_i refuses
    cases creates
    refine .refused ?_ rfl (Nat.le_refl _) rfl
    intro (good : request.read.status = .good)
    have fine : ¬ (1#32 < StatusCode.good >>> 30) := by decide
    rw [SampledValue.refuses, good] at refuses
    simp [fine] at refuses
  split at creates
  · cases creates
    exact .refused (by decide) rfl (Nat.le_refl _) rfl
  split at creates
  · cases creates
    exact .refused (by decide) rfl (Nat.le_refl _) rfl
  split at creates
  · cases creates
    exact .refused (by decide) rfl (Nat.le_refl _) rfl
  dsimp only at creates
  generalize settings : setMonitoredItemSettings config (sub.newItem request.attributeId)
    request.monitoringMode request.requestedParameters request.read.numeric = set at creates
  obtain ⟨status, new⟩ := set
  dsimp only at creates
  split at creates
  · rename_i bad
    cases creates
    exact .refused bad rfl (Nat.le_succ _) rfl
  · rename_i good
    obtain ⟨final, samples, creates⟩ := Option.bind_eq_some_iff.mp creates
    injection creates with creates
    obtain ⟨rfl, rfl⟩ := Prod.mk.inj creates
    have both := (StatusCode.or_eq_good_iff _ _).mp (not_not.mp good)
    have sets := both.2 ▸ settings
    obtain ⟨filter, -, form⟩ := setMonitoredItemSettings_good sets
    have address : new.address = sub.unusedItem := congrArg MonitoredItem.address form
    have registered := registerItem_distinct distinct old new address
    have same : SameSettings ({ sub with unusedItem := sub.unusedItem + 1 }.registerItem new)
        final := by
      rw [firstSample] at samples
      split at samples
      · exact sampleCallback_sameSettings registered samples
      · cases samples
        exact .refl _
    exact .added rfl sets same.items same.unusedItem same.subscriptionId

inductive ModifiedItem (config : SubscriptionConfig) (sub : Subscription Content)
    (request : MonitoredItemModifyRequest) (result : MonitoredItemModifyResult)
    (after : Subscription Content) : Prop
  | refused (bad : result.statusCode ≠ .good) (same : after = sub)
  | changed {item changed : MonitoredItem} (good : result.statusCode = .good)
      (found : sub.getMonitoredItem request.monitoredItemId = some item)
      (sets : setMonitoredItemSettings config item item.monitoringMode
        request.requestedParameters none = (.good, changed))
      (same : SameSettings (sub.setItem changed) after)

theorem modifyMonitoredItem_modified {request : MonitoredItemModifyRequest}
    {result : MonitoredItemModifyResult} (distinct : sub.DistinctItems)
    (modifies : sub.modifyMonitoredItem config request = some (result, after)) :
    ModifiedItem config sub request result after := by
  rw [modifyMonitoredItem] at modifies
  cases found : sub.getMonitoredItem request.monitoredItemId with
  | none =>
    rw [found] at modifies
    cases modifies
    exact .refused (by decide) rfl
  | some item =>
    rw [found] at modifies
    dsimp only at modifies
    generalize settings : setMonitoredItemSettings config item item.monitoringMode
      request.requestedParameters none = set at modifies
    obtain ⟨status, changed⟩ := set
    dsimp only at modifies
    split at modifies
    · rename_i bad
      cases modifies
      exact .refused bad rfl
    · rename_i good
      obtain ⟨final, ensures, modifies⟩ := Option.bind_eq_some_iff.mp modifies
      cases modifies
      have sets := not_not.mp good ▸ settings
      refine .changed rfl found sets (ensureQueueSpace_sameSettings ?_ ensures)
      rw [DistinctItems, setItem_addresses]
      exact distinct

theorem deleteMonitoredItem_cases
    (deletes : sub.deleteMonitoredItem monitoredItemId = some (status, after)) :
    sub.getMonitoredItem monitoredItemId = none ∧ status = .badMonitoredItemIdInvalid ∧
        after = sub ∨
      ∃ item middle, sub.getMonitoredItem monitoredItemId = some item ∧
        dropAll .deleted item.address item.queue sub = some middle ∧ status = .good ∧
        after = { middle with
          monitoredItems := middle.monitoredItems.filter (·.address ≠ item.address)
          monitoredItemsSize := middle.monitoredItemsSize - 1 } := by
  rw [deleteMonitoredItem] at deletes
  cases found : sub.getMonitoredItem monitoredItemId with
  | none =>
    rw [found] at deletes
    cases deletes
    exact .inl ⟨rfl, rfl, rfl⟩
  | some item =>
    rw [found] at deletes
    simp only [monitoredItemDelete, Option.bind_eq_bind, Option.bind_eq_some_iff] at deletes
    obtain ⟨left, ⟨middle, drops, removes⟩, deletes⟩ := deletes
    cases removes
    cases deletes
    exact .inr ⟨item, middle, rfl, drops, rfl, rfl⟩

theorem deleteMonitoredItem_sublist (distinct : sub.DistinctItems)
    (deletes : sub.deleteMonitoredItem monitoredItemId = some (status, after)) :
    (after.monitoredItems.map MonitoredItem.settings).Sublist
        (sub.monitoredItems.map MonitoredItem.settings) ∧ after.unusedItem = sub.unusedItem := by
  rcases deleteMonitoredItem_cases deletes with
    ⟨-, -, rfl⟩ | ⟨item, middle, -, drops, -, rfl⟩
  · exact ⟨List.Sublist.refl _, rfl⟩
  · have same := dropAll_sameSettings distinct drops
    refine ⟨?_, same.unusedItem⟩
    rw [← same.items]
    exact List.filter_sublist.map _

end Operations

end Subscription

end OpcUa
