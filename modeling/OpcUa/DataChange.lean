import OpcUa.DataChangeCore
import OpcUa.NetworkMessageWire
import OpcUa.SessionSteps

/-!
Which samples of a monitored item lead to a notification. In every run the encoding that an item
keeps is that of the last sample which was reported, so that the same sample is not reported twice.

A full buffer is reported as an encoding error when there is no callback, so that the larger buffer
of the detection is never tried: a change whose encoding does not fit into the buffer on the stack
is not seen.
-/

namespace OpcUa

open LittleEndian StatusCode Subscription

section Detection

variable {env : TypeEnv}
variable {value : DataValue}

def DataValue.wire (env : TypeEnv) (value : DataValue) : List Byte :=
  valueWire env value.toValue dataValueType

def DataValue.encodable (env : TypeEnv) (value : DataValue) : Bool :=
  OpcUa.encodable env value.toValue dataValueType

theorem encodeMember_status (memSize : Nat) (encode : Encoder) {ctx : Ctx}
    (alone : ∀ after, encode ctx = after → (after.2.restore ctx).supply = none)
    (rounds : ctx.supply = none) :
    (encodeMember memSize encode ctx).1 ≠ badEncodingLimitsExceeded := by
  have once : ctx.rounds = 0 + 1 := by
    rw [Ctx.rounds, rounds]
    rfl
  rw [encodeMember, once, retryMember]
  split
  rename_i status after encodes
  split
  · rw [exchangeBuffer_alone (alone _ encodes)]
    dsimp only
    split
    · change badResponseTooLarge ≠ badEncodingLimitsExceeded
      decide
    · change badEncodingError ≠ badEncodingLimitsExceeded
      decide
  · assumption

theorem encodeValue_status (value : DataValue) (size : Nat) :
    (encodeValue env value size).1 ≠ badEncodingLimitsExceeded := by
  have writes := encodeBinaryJump_writes env value.toValue dataValueType (0 + 1)
  have enters : ¬ 0 > encodingMaxRecursion := Nat.not_lt_zero _
  have flat : value.toValue.isStruct = false := rfl
  rw [encodeValue, uaDataValueEncodeBinary, uaEncodeBinary, encodeBinaryInternal,
    encodeInternalWith, flat, if_neg Bool.false_ne_true, encodeBuiltinInternal, if_neg enters]
  apply encodeMember_status
  · intro after encodes
    obtain ⟨written, result, -⟩ := writes.pushes (singleBuffer size) rfl (Nat.zero_le _)
    rw [encodes] at result
    rw [result]
    rfl
  · rfl

theorem encodeValue_good_iff (value : DataValue) (size : Nat) :
    (encodeValue env value size).1 = good ↔
      value.encodable env ∧ (value.wire env).length ≤ size := by
  have writes := uaDataValueEncodeBinary_writes env value
  constructor
  · intro success
    obtain ⟨accepted, -, fits⟩ :=
      writes.good_only (singleBuffer size) rfl (Nat.zero_le _) success
    rw [singleBuffer, List.length_nil, Nat.zero_add] at fits
    exact ⟨accepted, fits⟩
  · rintro ⟨accepted, fits⟩
    refine writes.succeeds (singleBuffer size) rfl accepted ?_
    rw [singleBuffer, List.length_nil, Nat.zero_add]
    exact fits

theorem encodeValue_out {size : Nat} (success : (encodeValue env value size).1 = good) :
    (encodeValue env value size).2.out = value.wire env := by
  obtain ⟨-, result, -⟩ := (uaDataValueEncodeBinary_writes env value).good_only
    (singleBuffer size) rfl (Nat.zero_le _) success
  exact congrArg Ctx.out result

theorem detectValueChange_some {filter : DataChangeFilter} {stored : Option (List Byte)}
    {around : SampleSurroundings} {encoding : List Byte}
    (detects : detectValueChange env filter stored value around = some encoding) :
    encoding = (value.restrict filter.trigger).wire env := by
  rw [detectValueChange, detectValueChangeWithFilter] at detects
  split at detects
  · cases detects
  rw [if_neg (encodeValue_status _ _)] at detects
  split at detects
  · cases detects
  rename_i success
  split at detects
  · cases detects
  split at detects
  · injection detects with same
    rw [← same]
    exact encodeValue_out (not_not.mp success)
  · cases detects

theorem detectValueChange_isSome_iff {filter : DataChangeFilter}
    (undamped : filter.deadbandType ≠ .absolute) (stored : Option (List Byte))
    (encodable : (value.restrict filter.trigger).encodable env) (around : SampleSurroundings) :
    (detectValueChange env filter stored value around).isSome = true ↔
      stored ≠ some ((value.restrict filter.trigger).wire env) ∧
      ((value.restrict filter.trigger).wire env).length ≤ valueEncodingMaxStack ∧
      around.copied = true := by
  rw [detectValueChange, detectValueChangeWithFilter, if_neg (fun damped => undamped damped.2.2.1)]
  rw [if_neg (encodeValue_status _ _)]
  by_cases success :
      (encodeValue env (value.restrict filter.trigger) valueEncodingMaxStack).1 = good
  · obtain ⟨-, fits⟩ := (encodeValue_good_iff _ _).mp success
    rw [if_neg (not_not.mpr success), encodeValue_out success]
    by_cases same : stored = some ((value.restrict filter.trigger).wire env)
    · rw [if_pos same]
      exact iff_of_false Bool.false_ne_true fun changed => changed.1 same
    · rw [if_neg same]
      cases copied : around.copied with
      | false => exact iff_of_false Bool.false_ne_true fun changed => nomatch changed.2.2
      | true => exact iff_of_true rfl ⟨same, fits, rfl⟩
  · rw [if_pos success]
    exact iff_of_false Bool.false_ne_true fun changed =>
      success ((encodeValue_good_iff _ _).mpr ⟨encodable, changed.2.1⟩)

end Detection

namespace Subscription

variable {Content : Type} {room : Nat} {sub : Subscription Content} {item : MonitoredItem}

section

variable (sound : Sound room sub) (member : item ∈ sub.monitoredItems)
include sound member

theorem notificationEnqueue_roomless (roomless : item.maxQueueSize = 0)
    {data : NotificationData Content} (fits : data.fits item.monitoredItemType) :
    sub.notificationEnqueue item.address data = none := by
  have empty := sound.bounded item member
  have consistent := sound.consistent.extended member fits
  have present : { item with
      queue := item.queue ++ [sub.unused], queueSize := item.queueSize + 1 } ∈
        (sub.extended item data).monitoredItems := mem_setItem_self member rfl
  have found := consistent.item_eq present
  have one : item.queueSize + 1 = 1 := by omega
  have shrinks : shrinkQueue 1 (sub.extended item data) item.address = none := by
    rw [shrinkQueue, found]
    simp [roomless, dropSurplus, one]
  simp only [notificationEnqueue, sound.consistent.item_eq member, Option.bind_eq_bind,
    Option.bind_some, append_eq, ensureQueueSpace, found, roomless, one, shrinks]
  rfl

theorem sampleCallback_skips {sample : Sample Content}
    (skips : ¬ (sample.changed = true ∧ sample.memory = true)) :
    sub.sampleCallback item.address sample = some sub := by
  have found := sound.consistent.item_eq member
  by_cases change : item.monitoredItemType = .changeNotify
  · by_cases changed : sample.changed = true
    · have memory : ¬ sample.memory = true := fun memory => skips ⟨changed, memory⟩
      simp [sampleCallback, sampleCallbackWithValue, found, change, changed, memory]
    · simp [sampleCallback, sampleCallbackWithValue, found, change, changed]
  · simp [sampleCallback, found, change]

theorem sampleCallback_enqueues (change : item.monitoredItemType = .changeNotify)
    (value : SampledValue Content) :
    sub.sampleCallback item.address ⟨value, true, true⟩ =
      (sub.notificationEnqueue item.address (.value value)).bind fun sub =>
        (sub.item item.address).bind fun item =>
          some (sub.setItem { item with lastValue := value.numeric }) := by
  have found := sound.consistent.item_eq member
  simp [sampleCallback, sampleCallbackWithValue, found, change]

end

theorem value_fits (change : item.monitoredItemType = .changeNotify) (value : SampledValue Content) :
    (NotificationData.value value).fits item.monitoredItemType := by
  rw [change]
  rfl

section

variable (sound : Sound room sub) (member : item ∈ sub.monitoredItems)
  (change : item.monitoredItemType = .changeNotify)
include sound member change

theorem sampleCallback_roomless (roomless : item.maxQueueSize = 0) (value : SampledValue Content) :
    sub.sampleCallback item.address ⟨value, true, true⟩ = none := by
  rw [sampleCallback_enqueues sound member change,
    notificationEnqueue_roomless sound member roomless (value_fits change _)]
  rfl

theorem sampleCallback_created (value : SampledValue Content) :
    Yields item.maxQueueSize (sub.sampleCallback item.address ⟨value, true, true⟩) fun after =>
      Sound room after ∧ after.created = sub.created ++ [(item.address, sub.unused)] := by
  rw [sampleCallback_enqueues sound member change]
  refine (notificationEnqueue_sound sound member (value_fits change _)).bind ?_
  rintro after ⟨kept, created, left, present, address, -⟩
  have again := kept.sound.consistent.item_eq present
  rw [address] at again
  rw [again]
  exact .some ⟨kept.sound.setItem present ⟨rfl, rfl, rfl, rfl, rfl⟩ rfl, created⟩

end

end Subscription

/-- What was reported for an item: the encoding of the last sample that led to a notification since
the item was last enabled. -/
abbrev Reported := Nat → Option (List Byte)

def Reported.set (reported : Reported) (mon : Nat) (encoding : Option (List Byte)) : Reported :=
  fun address => if address = mon then encoding else reported address

def Reported.note (reported : Reported) (before after : SampledSubscription) (mon : Nat)
    (encoding : List Byte) : Reported :=
  if after.sub.created = before.sub.created then reported else reported.set mon (some encoding)

/-- The states of a subscription, each with what was reported. The first sample of a new item is a
step of its own, and whatever else happens to the subscription is a step too. -/
inductive Samples (env : TypeEnv) (config : SubscriptionConfig) :
    SampledSubscription → Reported → Prop
  | start (address : Nat) (subscriptionId : BitVec 32) :
      Samples env config ⟨Subscription.new address subscriptionId, fun _ => none⟩ fun _ => none
  | sample {state after : SampledSubscription} {reported : Reported} {mon : Nat}
      {item : MonitoredItem} {filter : DataChangeFilter} (value : DataValue)
      (around : SampleSurroundings) :
      Samples env config state reported → state.sub.item mon = some item →
      item.filter = .dataChangeFilter filter →
      state.sampleCallback env mon value around = some after →
      Samples env config after
        (reported.note state after mon ((value.restrict filter.trigger).wire env))
  | register {state after : SampledSubscription} {reported : Reported}
      (request : MonitoredItemCreateRequest DataValue) {result : MonitoredItemCreateResult} :
      Samples env config state reported →
      state.registerMonitoredItem config request = some (result, after) →
      Samples env config after (reported.set state.sub.unusedItem none)
  | setMonitoringMode {state after : SampledSubscription} {reported : Reported}
      (monitoringMode : MonitoringMode) (monitoredItemId : BitVec 32) {status : StatusCode} :
      Samples env config state reported →
      state.setMonitoringMode monitoringMode monitoredItemId = some (status, after) →
      Samples env config after (match state.stopped monitoringMode monitoredItemId with
        | none => reported
        | some mon => reported.set mon none)
  | other {state : SampledSubscription} {reported : Reported} {sub : Subscription DataValue} :
      Samples env config state reported → Sound config.queueSizeLimits.min sub →
      Samples env config { state with sub := sub } reported

namespace SampledSubscription

variable {env : TypeEnv} {config : SubscriptionConfig} {state after : SampledSubscription}
  {reported : Reported} {item : MonitoredItem} {filter : DataChangeFilter} {room : Nat}
variable {value : DataValue} {around : SampleSurroundings}

theorem keep_self (state : SampledSubscription) (mon : Nat) :
    state.keep mon (state.lastSampledValue mon) = state := by
  have same : (fun address => if address = mon then state.lastSampledValue mon
      else state.lastSampledValue address) = state.lastSampledValue := by
    funext address
    by_cases here : address = mon
    · rw [if_pos here, here]
    · rw [if_neg here]
  rw [keep, same]

section

variable (sound : Sound room state.sub) (member : item ∈ state.sub.monitoredItems)
  (filtered : item.filter = .dataChangeFilter filter)
include sound member filtered

theorem sampleCallback_skips
    (skips : ¬ ((detectValueChange env filter (state.lastSampledValue item.address) value
      around).isSome = true ∧ around.notification = true)) :
    state.sampleCallback env item.address value around = some state := by
  have found := sound.consistent.item_eq member
  rw [sampleCallback, found]
  dsimp only [Option.bind_eq_bind, Option.bind_some]
  split
  · rfl
  · rw [filtered]
    dsimp only
    rw [Subscription.sampleCallback_skips sound member skips, kept, if_neg skips]
    exact congrArg some (state.keep_self item.address)

theorem sampleCallback_detects (change : item.monitoredItemType = .changeNotify)
    {encoding : List Byte}
    (detects : detectValueChange env filter (state.lastSampledValue item.address) value around =
      some encoding)
    (memory : around.notification = true) :
    state.sampleCallback env item.address value around =
      (state.sub.sampleCallback item.address ⟨value.sampled, true, true⟩).map fun sub =>
        { state with sub := sub }.keep item.address (some encoding) := by
  have found := sound.consistent.item_eq member
  rw [sampleCallback, found]
  dsimp only [Option.bind_eq_bind, Option.bind_some]
  rw [if_neg (not_not.mpr change), filtered]
  dsimp only
  rw [detects, sample, kept, memory, Option.map_eq_bind]
  rfl

end

theorem samples_kept (samples : Samples env config state reported) :
    Sound config.queueSizeLimits.min state.sub ∧ state.lastSampledValue = reported := by
  induction samples with
  | start address subscriptionId => exact ⟨Session.new_sound address subscriptionId, rfl⟩
  | @sample state after reported mon item filter value around _ found filtered runs ih =>
    obtain ⟨sound, same⟩ := ih
    obtain ⟨member, rfl⟩ := item_mem found
    by_cases detected : (detectValueChange env filter (state.lastSampledValue item.address) value
        around).isSome = true ∧ around.notification = true
    · obtain ⟨some, memory⟩ := detected
      obtain ⟨encoding, detects⟩ := Option.isSome_iff_exists.mp some
      by_cases change : item.monitoredItemType = .changeNotify
      · rw [sampleCallback_detects sound member filtered change detects memory] at runs
        obtain ⟨sub, enqueues, rfl⟩ := Option.map_eq_some_iff.mp runs
        have effect := sampleCallback_created sound member change value.sampled
        rw [enqueues] at effect
        obtain ⟨soundAfter, created⟩ := effect.of_some
        refine ⟨soundAfter, ?_⟩
        have grown : sub.created ≠ state.sub.created := by
          rw [created]
          exact mt List.append_right_eq_self.mp (List.cons_ne_nil _ _)
        rw [Reported.note]
        rw [if_neg (by exact grown), detectValueChange_some detects, ← same]
        rfl
      · rw [sampleCallback, found] at runs
        dsimp only [Option.bind_eq_bind, Option.bind_some] at runs
        rw [if_pos change] at runs
        cases runs
        rw [Reported.note, if_pos rfl]
        exact ⟨sound, same⟩
    · rw [sampleCallback_skips sound member filtered detected] at runs
      cases runs
      rw [Reported.note, if_pos rfl]
      exact ⟨sound, same⟩
  | @register state after reported request result _ registers ih =>
    obtain ⟨sound, same⟩ := ih
    rw [registerMonitoredItem] at registers
    obtain ⟨⟨status, sub⟩, creates, ends⟩ := Option.bind_eq_some_iff.mp registers
    cases ends
    have outcome := createMonitoredItem_sound (Nat.le_refl _) sound
      { request with sample := ⟨request.read, false, false⟩ }
    rw [creates] at outcome
    rw [← same]
    exact ⟨outcome.of_some.sound, rfl⟩
  | @setMonitoringMode state after reported mode id status _ sets ih =>
    obtain ⟨sound, same⟩ := ih
    obtain ⟨_, sub, changes, soundAfter, -⟩ :=
      setMonitoringMode_sound sound mode id
    rw [SampledSubscription.setMonitoringMode, changes] at sets
    dsimp only [Option.bind_eq_bind, Option.bind_some] at sets
    rw [← same]
    cases stops : state.stopped mode id with
    | none =>
      rw [stops] at sets
      cases sets
      exact ⟨soundAfter, rfl⟩
    | some mon =>
      rw [stops] at sets
      cases sets
      exact ⟨soundAfter, rfl⟩
  | other _ sound ih => exact ⟨sound, ih.2⟩

/-- What a sample of an item has to do: a single notification if the encoding differs from what was
reported, and none if it is the same. -/
def Detects (env : TypeEnv) (state : SampledSubscription) (reported : Reported) (mon : Nat)
    (encoding : List Byte) (value : DataValue) (around : SampleSurroundings) : Prop :=
  ∃ after, state.sampleCallback env mon value around = some after ∧
    (reported mon ≠ some encoding → ∃ n, after.sub.created = state.sub.created ++ [(mon, n)]) ∧
    (reported mon = some encoding → after.sub.created = state.sub.created)

theorem sampleCallback_overlooks (samples : Samples env config state reported)
    (member : item ∈ state.sub.monitoredItems) (filtered : item.filter = .dataChangeFilter filter)
    (undamped : filter.deadbandType ≠ .absolute)
    (encodable : (value.restrict filter.trigger).encodable env)
    (unfit : ¬ (((value.restrict filter.trigger).wire env).length ≤ valueEncodingMaxStack ∧
      around.copied = true ∧ around.notification = true)) :
    state.sampleCallback env item.address value around = some state := by
  apply sampleCallback_skips (samples_kept samples).1 member filtered
  rintro ⟨changed, memory⟩
  obtain ⟨-, short, copied⟩ :=
    (detectValueChange_isSome_iff undamped (state.lastSampledValue item.address) encodable
      around).mp changed
  exact unfit ⟨short, copied, memory⟩

theorem Detects.enqueues {encoding : List Byte} {mon : Nat}
    (detects : state.Detects env reported mon encoding value around)
    (new : reported mon ≠ some encoding) :
    state.sampleCallback env mon value around ≠ some state := by
  obtain ⟨after, runs, enqueues, -⟩ := detects
  obtain ⟨n, created⟩ := enqueues new
  rw [runs]
  rintro same
  cases same
  exact List.cons_ne_nil _ _ (List.append_right_eq_self.mp created.symm)

/-- A change is seen exactly if its encoding fits into the buffer on the stack. -/
theorem sampleCallback_detects_iff (samples : Samples env config state reported)
    (member : item ∈ state.sub.monitoredItems) (change : item.monitoredItemType = .changeNotify)
    (filtered : item.filter = .dataChangeFilter filter)
    (undamped : filter.deadbandType ≠ .absolute) {value : DataValue}
    (encodable : (value.restrict filter.trigger).encodable env) (around : SampleSurroundings) :
    state.Detects env reported item.address ((value.restrict filter.trigger).wire env) value
        around ↔
      reported item.address = some ((value.restrict filter.trigger).wire env) ∨
        ((value.restrict filter.trigger).wire env).length ≤ valueEncodingMaxStack ∧
          around.copied = true ∧ around.notification = true ∧ item.maxQueueSize ≠ 0 := by
  obtain ⟨sound, same⟩ := samples_kept samples
  have detected := detectValueChange_isSome_iff undamped (reported item.address) encodable around
  by_cases known : reported item.address = some ((value.restrict filter.trigger).wire env)
  · refine iff_of_true ⟨state, ?_, fun new => absurd known new, fun _ => rfl⟩ (.inl known)
    apply sampleCallback_skips sound member filtered
    rw [same]
    exact fun changed => (detected.mp changed.1).1 known
  · by_cases fits : ((value.restrict filter.trigger).wire env).length ≤ valueEncodingMaxStack ∧
        around.copied = true ∧ around.notification = true
    · obtain ⟨short, copied, memory⟩ := fits
      obtain ⟨encoding, detects⟩ := Option.isSome_iff_exists.mp
        (detected.mpr ⟨known, short, copied⟩)
      rw [← same] at detects
      have runs := sampleCallback_detects sound member filtered change detects memory
      by_cases roomless : item.maxQueueSize = 0
      · rw [sampleCallback_roomless sound member change roomless] at runs
        refine iff_of_false ?_ ?_
        · rintro ⟨after, ends, -⟩
          rw [runs] at ends
          cases ends
        · rintro (reports | ⟨-, -, -, room⟩)
          · exact known reports
          · exact room roomless
      · obtain ⟨sub, enqueues, -, created⟩ := (sampleCallback_created sound member change
          value.sampled).value (Nat.one_le_iff_ne_zero.mpr roomless)
        rw [enqueues] at runs
        refine iff_of_true ⟨_, runs, fun _ => ⟨_, created⟩, fun reports => absurd reports known⟩ ?_
        exact .inr ⟨short, copied, memory, roomless⟩
    · refine iff_of_false (fun detects => detects.enqueues known
        (sampleCallback_overlooks samples member filtered undamped encodable fits)) ?_
      rintro (reports | ⟨short, copied, memory, -⟩)
      · exact known reports
      · exact fits ⟨short, copied, memory⟩

/-! An item that has just been created -/

def stringSample (length : Nat) : DataValue :=
  ⟨default, true, .variantScalar stringType
    (.leaf (.string (.alloc (List.replicate length 65)))) []⟩

def sampledItem : MonitoredItemCreateRequest DataValue where
  attributeId := attributeIdValue
  dataEncoding := .unnamed
  monitoringMode := .reporting
  requestedParameters := ⟨7, .notDecoded, 1, true⟩
  read := (stringSample 0).sampled
  memory := true
  copied := good
  sample := ⟨(stringSample 0).sampled, false, false⟩

def enoughMemory : SampleSurroundings := ⟨true, true, true, true⟩

theorem sampledItem_registered : ∃ state reported item,
    Samples sampleEnv defaultConfig state reported ∧ item ∈ state.sub.monitoredItems ∧
      item.monitoredItemType = .changeNotify ∧
      item.filter = .dataChangeFilter ⟨.statusValue, .none⟩ ∧ item.maxQueueSize ≠ 0 ∧
      reported item.address = none :=
  ⟨_, _, _, .register sampledItem (.start 0 1) rfl, List.mem_cons_self .., rfl, rfl, by decide, rfl⟩

theorem shortString_detected : ∃ state reported item,
    Samples sampleEnv defaultConfig state reported ∧ item ∈ state.sub.monitoredItems ∧
      state.Detects sampleEnv reported item.address
        (((stringSample 3).restrict .statusValue).wire sampleEnv) (stringSample 3)
        enoughMemory := by
  obtain ⟨state, reported, item, samples, member, change, filtered, room, -⟩ :=
    sampledItem_registered
  refine ⟨state, reported, item, samples, member, ?_⟩
  exact (sampleCallback_detects_iff samples member change filtered (by decide) (by decide +kernel)
    enoughMemory).mpr (.inr ⟨by decide +kernel, rfl, rfl, room⟩)

/-- The first sample of an item is not reported if it is a string of 600 bytes. -/
theorem longString_overlooked : ¬ ∀ state reported item filter,
    Samples sampleEnv defaultConfig state reported → item ∈ state.sub.monitoredItems →
      item.monitoredItemType = .changeNotify → item.filter = .dataChangeFilter filter →
      filter.deadbandType ≠ .absolute → ∀ value : DataValue,
        (value.restrict filter.trigger).encodable sampleEnv →
        state.Detects sampleEnv reported item.address
          ((value.restrict filter.trigger).wire sampleEnv) value enoughMemory := by
  intro complete
  obtain ⟨state, reported, item, samples, member, change, filtered, -, unreported⟩ :=
    sampledItem_registered
  have encodable : ((stringSample 600).restrict .statusValue).encodable sampleEnv := by
    decide +kernel
  have detects := complete state reported item _ samples member change filtered (by decide)
    (stringSample 600) encodable
  have new : reported item.address ≠
      some (((stringSample 600).restrict .statusValue).wire sampleEnv) := by
    rw [unreported]
    exact (Option.some_ne_none _).symm
  apply detects.enqueues new
  exact sampleCallback_overlooks samples member filtered (by decide) encodable
    fun fits => absurd fits.1 (by decide +kernel)

end SampledSubscription
end OpcUa
