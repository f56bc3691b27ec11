import OpcUa.NotificationDispatch

/-!
The filter of a monitored item. The request says which member of the union is set, and the attribute
says whether the item is for events. Sampling reads the data change filter of an item for data
changes, the delivery of events and the deletion read the event filter of an item for events.
-/

namespace OpcUa

open Subscription List

variable {Content : Type} {config : SubscriptionConfig}
variable {item : MonitoredItem} {sub : Subscription Content}
variable {dataType : Option Bool} {allowed : Nat → RequestedFilter → Prop}

structure MonitoredItem.Matches (item : MonitoredItem) : Prop where
  event : item.monitoredItemType = .eventNotify → ∃ filter, item.filter = .eventFilter filter
  change : item.monitoredItemType = .changeNotify → ∃ filter, item.filter = .dataChangeFilter filter

def RequestedFilter.Fits (attributeId : Nat) : RequestedFilter → Prop
  | .eventFilter _ => attributeId = attributeIdEventNotifier
  | .other => True
  | _ => attributeId ≠ attributeIdEventNotifier

/-- Any operations on a subscription and its items, with the filters that are allowed for an
attribute. -/
inductive FilterRun (config : SubscriptionConfig) (allowed : Nat → RequestedFilter → Prop) :
    Subscription Content → Prop
  | new {sub : Subscription Content} (items : sub.monitoredItems = []) :
      FilterRun config allowed sub
  | create {sub after : Subscription Content} {request : MonitoredItemCreateRequest Content}
      {result : MonitoredItemCreateResult} (run : FilterRun config allowed sub)
      (fits : allowed request.attributeId request.requestedParameters.filter)
      (creates : sub.createMonitoredItem config request = some (result, after)) :
      FilterRun config allowed after
  | modify {sub after : Subscription Content} {request : MonitoredItemModifyRequest}
      {result : MonitoredItemModifyResult} (run : FilterRun config allowed sub)
      (fits : ∀ item, sub.getMonitoredItem request.monitoredItemId = some item →
        allowed item.attributeId request.requestedParameters.filter)
      (modifies : sub.modifyMonitoredItem config request = some (result, after)) :
      FilterRun config allowed after
  | delete {sub after : Subscription Content} {monitoredItemId : BitVec 32} {status : StatusCode}
      (run : FilterRun config allowed sub)
      (deletes : sub.deleteMonitoredItem monitoredItemId = some (status, after)) :
      FilterRun config allowed after
  | moves {sub after : Subscription Content} (run : FilterRun config allowed sub)
      (moves : ServerMove sub after) : FilterRun config allowed after

theorem setFilter_kind {requested : RequestedFilter} {filter : MonitoringFilter}
    (accepted : setFilter item dataType requested = .ok filter) :
    (∃ event, requested = .eventFilter event ∧ filter = .eventFilter event) ∨
      ((∀ attributeId, requested.Fits attributeId ↔ attributeId ≠ attributeIdEventNotifier) ∧
        ∃ change, filter = .dataChangeFilter change) := by
  cases requested with
  | notDecoded =>
    cases accepted
    exact .inr ⟨fun _ => Iff.rfl, _, rfl⟩
  | dataChangeFilter change =>
    rw [setFilter] at accepted
    split at accepted
    · cases accepted
    · split at accepted <;> split at accepted
      · cases accepted
        exact .inr ⟨fun _ => Iff.rfl, _, rfl⟩
      · cases accepted
      · cases accepted
        exact .inr ⟨fun _ => Iff.rfl, _, rfl⟩
      · cases accepted
  | eventFilter event =>
    cases accepted
    exact .inl ⟨event, rfl, rfl⟩
  | other => cases accepted

theorem setMonitoredItemSettings_matches {changed : MonitoredItem} {mode : MonitoringMode}
    {params : MonitoringParameters}
    (sets : setMonitoredItemSettings config item mode params dataType = (.good, changed)) :
    changed.Matches ↔ params.filter.Fits item.attributeId := by
  obtain ⟨filter, accepted, rfl⟩ := setMonitoredItemSettings_good sets
  by_cases event : item.attributeId = attributeIdEventNotifier
  · rcases setFilter_kind accepted with ⟨requested, same, rfl⟩ | ⟨fits, change, rfl⟩
    · rw [same]
      refine iff_of_true ⟨fun _ => ⟨requested, rfl⟩, ?_⟩ event
      intro impossible
      rw [if_pos event] at impossible
      cases impossible
    · rw [fits]
      refine iff_of_false ?_ (not_not.mpr event)
      intro fit
      obtain ⟨other, impossible⟩ := fit.event (if_pos event)
      cases impossible
  · rcases setFilter_kind accepted with ⟨requested, same, rfl⟩ | ⟨fits, change, rfl⟩
    · rw [same]
      refine iff_of_false ?_ event
      intro fit
      obtain ⟨other, impossible⟩ := fit.change (if_neg event)
      cases impossible
    · rw [fits]
      refine iff_of_true ⟨?_, fun _ => ⟨change, rfl⟩⟩ event
      intro impossible
      rw [if_neg event] at impossible
      cases impossible

structure ItemsHave (holds : MonitoredItem → Prop) (sub : Subscription Content) : Prop where
  distinct : sub.DistinctItems
  old : sub.OldItems
  each : ∀ settings ∈ sub.monitoredItems.map MonitoredItem.settings, holds settings

namespace ItemsHave

variable {after : Subscription Content} {holds : MonitoredItem → Prop}

section

variable (known : ItemsHave holds sub)
include known

theorem sublist (items : (after.monitoredItems.map MonitoredItem.settings).Sublist
      (sub.monitoredItems.map MonitoredItem.settings))
    (unusedItem : sub.unusedItem ≤ after.unusedItem) : ItemsHave holds after where
  distinct := by
    have addresses := items.map MonitoredItem.address
    rw [map_map, map_map] at addresses
    exact known.distinct.sublist addresses
  old := by
    intro item member
    obtain ⟨former, present, same⟩ := mem_map.mp (items.subset (mem_map_of_mem member))
    have address : former.settings.address = item.settings.address :=
      congrArg MonitoredItem.address same
    have less := known.old former present
    have same : former.address = item.address := address
    omega
  each := by
    intro settings member
    exact known.each settings (items.subset member)

theorem same (same : SameSettings sub after) : ItemsHave holds after :=
  known.sublist (same.items ▸ List.Sublist.refl _) (Nat.le_of_eq same.unusedItem.symm)

theorem created {request : MonitoredItemCreateRequest Content} {result : MonitoredItemCreateResult}
    (settled : ∀ new, setMonitoredItemSettings config (sub.newItem request.attributeId)
      request.monitoringMode request.requestedParameters request.read.numeric = (.good, new) →
      holds { new with monitoredItemId := result.monitoredItemId }.settings)
    (created : CreatedItem config sub request result after) : ItemsHave holds after := by
  cases created with
  | refused bad items unusedItem =>
    exact known.sublist (items ▸ List.Sublist.refl _) unusedItem
  | @added new good sets items unusedItem =>
    have place : new.address = sub.unusedItem := by
      obtain ⟨filter, -, rfl⟩ := setMonitoredItemSettings_good sets
      rfl
    have addresses := congrArg (List.map MonitoredItem.address) items
    rw [map_cons, map_map, map_map] at addresses
    have fresh : sub.unusedItem ∉ sub.monitoredItems.map MonitoredItem.address := by
      intro member
      obtain ⟨item, listed, same⟩ := mem_map.mp member
      exact absurd (known.old item listed) (by omega)
    refine ⟨?_, ?_, ?_⟩
    · rw [DistinctItems]
      refine addresses ▸ nodup_cons.mpr ⟨?_, known.distinct⟩
      intro member
      exact fresh (place ▸ member)
    · intro item member
      have listed := mem_map_of_mem (f := MonitoredItem.address) member
      rcases mem_cons.mp (addresses ▸ listed) with same | before
      · have here := same.trans place
        omega
      · obtain ⟨former, present, same⟩ := mem_map.mp before
        have less := known.old former present
        have here : former.address = item.address := same
        omega
    · rw [items]
      intro settings member
      rcases mem_cons.mp member with rfl | before
      · exact settled new sets
      · exact known.each settings before

theorem modified {request : MonitoredItemModifyRequest} {result : MonitoredItemModifyResult}
    (settled : ∀ item changed, sub.getMonitoredItem request.monitoredItemId = some item →
      setMonitoredItemSettings config item item.monitoringMode request.requestedParameters none =
      (.good, changed) → holds changed.settings)
    (modified : ModifiedItem config sub request result after) : ItemsHave holds after := by
  cases modified with
  | refused bad same => exact same ▸ known
  | @changed item changed good found sets same =>
    obtain ⟨filter, -, form⟩ := setMonitoredItemSettings_good sets
    have address : changed.address = item.address := by rw [form]
    refine ItemsHave.same ?_ same
    refine ⟨?_, ?_, ?_⟩
    · rw [DistinctItems, setItem_addresses]
      exact known.distinct
    · intro other member
      rcases mem_setItem member with rfl | ⟨present, -⟩
      · rw [address]
        exact known.old item (getMonitoredItem_mem found)
      · exact known.old other present
    · intro settings member
      obtain ⟨other, listed, rfl⟩ := mem_map.mp member
      rcases mem_setItem listed with rfl | ⟨present, -⟩
      · exact settled item _ found sets
      · exact known.each _ (mem_map_of_mem present)

end

end ItemsHave

theorem FilterRun.itemsHave {holds : MonitoredItem → Prop} (run : FilterRun config allowed sub)
    (settled : ∀ item changed mode params dataType id, allowed item.attributeId params.filter →
      setMonitoredItemSettings config item mode params dataType = (.good, changed) →
      holds { changed with monitoredItemId := id }.settings) : ItemsHave holds sub := by
  induction run with
  | new items =>
    refine ⟨?_, ?_, ?_⟩
    · rw [DistinctItems, items]
      exact nodup_nil
    · intro item member
      rw [items] at member
      cases member
    · intro settings member
      rw [items] at member
      cases member
  | create _ fits creates ih =>
    refine ih.created ?_ (createMonitoredItem_created ih.distinct ih.old creates)
    intro new sets
    exact settled _ new _ _ _ _ fits sets
  | modify _ fits modifies ih =>
    refine ih.modified ?_ (modifyMonitoredItem_modified ih.distinct modifies)
    intro item changed found sets
    exact settled item changed _ _ _ changed.monitoredItemId (fits item found) sets
  | delete _ deletes ih =>
    obtain ⟨items, unusedItem⟩ := deleteMonitoredItem_sublist ih.distinct deletes
    exact ih.sublist items (Nat.le_of_eq unusedItem.symm)
  | moves _ moves ih => exact ih.same (moves.sameSettings ih.distinct)

theorem MonitoredItem.settings_matches : item.settings.Matches ↔ item.Matches :=
  ⟨fun fit => ⟨fit.event, fit.change⟩, fun fit => ⟨fit.event, fit.change⟩⟩

theorem FilterRun.matches
    (run : FilterRun config (fun attributeId filter => filter.Fits attributeId) sub) :
    ∀ item ∈ sub.monitoredItems, item.Matches := by
  have known : ItemsHave MonitoredItem.Matches sub := by
    refine run.itemsHave ?_
    intro item changed mode params dataType id fits sets
    have fit := (setMonitoredItemSettings_matches sets).mpr fits
    exact ⟨fit.event, fit.change⟩
  intro item member
  exact MonitoredItem.settings_matches.mp (known.each _ (mem_map_of_mem member))

theorem FilterRun.numbered (run : FilterRun config allowed sub)
    : sub.DistinctItems ∧ sub.OldItems := by
  have known : ItemsHave (fun _ => True) sub :=
    run.itemsHave fun _ _ _ _ _ _ _ _ => trivial
  exact ⟨known.distinct, known.old⟩

/-- An item matches if and only if the filter that it was last given is one for its attribute. -/
theorem filters_match (config : SubscriptionConfig) : (∀ sub : Subscription Content,
      FilterRun config (fun attributeId filter => filter.Fits attributeId) sub →
      ∀ item ∈ sub.monitoredItems, item.Matches) ∧
    (∀ sub : Subscription Content, FilterRun config (fun _ _ => True) sub →
      ∀ request result after, sub.createMonitoredItem config request = some (result, after) →
      result.statusCode = .good → ∃ item ∈ after.monitoredItems,
        item.monitoredItemId = result.monitoredItemId ∧ item.attributeId = request.attributeId ∧
        (item.Matches ↔ request.requestedParameters.filter.Fits request.attributeId)) ∧
    ∀ sub : Subscription Content, FilterRun config (fun _ _ => True) sub →
      ∀ request result after item, sub.getMonitoredItem request.monitoredItemId = some item →
      sub.modifyMonitoredItem config request = some (result, after) →
      result.statusCode = .good → ∃ changed ∈ after.monitoredItems,
        changed.monitoredItemId = item.monitoredItemId ∧
        changed.attributeId = item.attributeId ∧
        (changed.Matches ↔ request.requestedParameters.filter.Fits item.attributeId) := by
  refine ⟨fun sub run => run.matches, ?_, ?_⟩
  · intro sub run request result after creates good
    obtain ⟨distinct, old⟩ := run.numbered
    cases createMonitoredItem_created distinct old creates with
    | refused bad => exact absurd good bad
    | @added new _ sets items =>
      have listed : { new with monitoredItemId := result.monitoredItemId }.settings ∈
          after.monitoredItems.map MonitoredItem.settings := by
        rw [items]
        exact mem_cons_self
      obtain ⟨item, member, same⟩ := mem_map.mp listed
      have matching := setMonitoredItemSettings_matches sets
      obtain ⟨filter, -, rfl⟩ := setMonitoredItemSettings_good sets
      refine ⟨item, member, congrArg MonitoredItem.monitoredItemId same,
        congrArg MonitoredItem.attributeId same, ?_⟩
      rw [← MonitoredItem.settings_matches, same, MonitoredItem.settings_matches]
      exact ⟨fun fit => matching.mp ⟨fit.event, fit.change⟩,
        fun fits => ⟨(matching.mpr fits).event, (matching.mpr fits).change⟩⟩
  · intro sub run request result after item found modifies good
    cases modifyMonitoredItem_modified run.numbered.1 modifies with
    | refused bad => exact absurd good bad
    | @changed other changed _ also sets same =>
      rw [found] at also
      cases also
      have matching := setMonitoredItemSettings_matches sets
      obtain ⟨filter, -, form⟩ := setMonitoredItemSettings_good sets
      have place : changed ∈ (sub.setItem changed).monitoredItems :=
        mem_setItem_self (getMonitoredItem_mem found) (by rw [form])
      have listed := mem_map_of_mem (f := MonitoredItem.settings) place
      rw [← same.items] at listed
      obtain ⟨kept, member, settings⟩ := mem_map.mp listed
      have number : kept.settings.monitoredItemId = changed.settings.monitoredItemId :=
        congrArg MonitoredItem.monitoredItemId settings
      have kind : kept.settings.attributeId = changed.settings.attributeId :=
        congrArg MonitoredItem.attributeId settings
      refine ⟨kept, member, ?_, ?_, ?_⟩
      · rw [form] at number
        exact number
      · rw [form] at kind
        exact kind
      · rw [← MonitoredItem.settings_matches, settings, MonitoredItem.settings_matches]
        exact matching

def eventNotifierRequest (filter : RequestedFilter) : MonitoredItemCreateRequest Nat :=
  ⟨attributeIdEventNotifier, .unnamed, .disabled, ⟨0, filter, 10, true⟩,
    ⟨0, none, false, .good⟩, true, .good, ⟨⟨0, none, false, .good⟩, false, false⟩⟩

theorem eventFilter_matches : ∃ result after,
    (Subscription.new 0 1).createMonitoredItem defaultConfig
        (eventNotifierRequest (.eventFilter ⟨1⟩)) = some (result, after) ∧
      after.monitoredItems.length = 1 ∧ ∀ item ∈ after.monitoredItems, item.Matches := by
  obtain ⟨result, after, creates, size⟩ : ∃ result after,
      (Subscription.new 0 1).createMonitoredItem defaultConfig
        (eventNotifierRequest (.eventFilter ⟨1⟩)) = some (result, after) ∧
        after.monitoredItems.length = 1 := ⟨_, _, rfl, rfl⟩
  have start : FilterRun defaultConfig (fun attributeId filter => filter.Fits attributeId)
      (Subscription.new 0 1 : Subscription Nat) := .new rfl
  have fits : (eventNotifierRequest (.eventFilter ⟨1⟩)).requestedParameters.filter.Fits
      (eventNotifierRequest (.eventFilter ⟨1⟩)).attributeId := rfl
  exact ⟨result, after, creates, size,
    (filters_match defaultConfig).1 after (start.create fits creates)⟩

/-- Without a filter in the request, an item for events has a data change filter. -/
theorem missingFilter_mismatch : ¬∀ sub : Subscription Nat,
    FilterRun defaultConfig (fun _ _ => True) sub → ∀ item ∈ sub.monitoredItems, item.Matches := by
  intro always
  obtain ⟨result, after, creates, item, items, event, change⟩ : ∃ result after,
      (Subscription.new 0 1).createMonitoredItem defaultConfig (eventNotifierRequest .notDecoded) =
        some (result, after) ∧ ∃ item, after.monitoredItems = [item] ∧
          item.monitoredItemType = .eventNotify ∧
          item.filter = .dataChangeFilter ⟨.statusValue, .none⟩ := ⟨_, _, rfl, _, rfl, rfl, rfl⟩
  have start : FilterRun defaultConfig (fun _ _ => True)
      (Subscription.new 0 1 : Subscription Nat) := .new rfl
  have member : item ∈ after.monitoredItems := by
    rw [items]
    exact mem_cons_self
  obtain ⟨filter, same⟩ := (always after (start.create trivial creates) item member).event event
  rw [change] at same
  cases same

end OpcUa
