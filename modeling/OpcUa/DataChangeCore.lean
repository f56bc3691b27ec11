import OpcUa.DataSetMessageCore
import OpcUa.SubscriptionCore

/-!
The detection of data changes from `ua_subscription_datachange.c`: a sample is restricted to what
the trigger looks at, encoded into a buffer, and compared with the encoding that the item keeps.

The outcomes of allocations and the comparison of numbers in the absolute deadband are inputs.
-/

namespace OpcUa

open LittleEndian StatusCode

def valueEncodingMaxStack : Nat := 512

/-- `isDataTypeNumeric`, from `UA_TYPES_SBYTE` to `UA_TYPES_DOUBLE` -/
def isDataTypeNumeric (type : DataType) : Bool :=
  type.builtin && 1 ≤ type.typeIndex && type.typeIndex ≤ 10

def Value.variantTypeOf : Value → Option DataType
  | .variantScalar type _ _ => some type
  | .variantArray type _ _ _ => some type
  | _ => none

def DataValue.numeric (value : DataValue) : Option Bool :=
  value.value.variantTypeOf.map isDataTypeNumeric

def DataValue.sampled (value : DataValue) : SampledValue DataValue where
  content := value
  numeric := value.numeric
  hasStatus := value.info.status.isSome
  status := value.info.status.getD good

def DataValue.restrict (trigger : DataChangeTrigger) (value : DataValue) : DataValue where
  info :=
    { status := value.info.status
      serverTimestamp := none
      serverPicoseconds := none
      sourceTimestamp :=
        if trigger = .statusValueTimestamp then value.info.sourceTimestamp else none
      sourcePicoseconds :=
        if trigger = .statusValueTimestamp then value.info.sourcePicoseconds else none }
  hasValue := if trigger = .status then false else value.hasValue
  value := value.value

/-- What happens around a detection: whether the larger buffer, the copy of the encoding and the
notification can be allocated, and whether a number is out of the deadband. -/
structure SampleSurroundings where
  buffer : Bool
  copied : Bool
  notification : Bool
  outOfDeadband : Bool

section Detection

variable (env : TypeEnv)

def encodeValue (value : DataValue) (size : Nat) : StatusCode × Ctx :=
  uaDataValueEncodeBinary env value (singleBuffer size)

section

variable (filter : DataChangeFilter) (lastSampledValue : Option (List Byte)) (value : DataValue)
  (around : SampleSurroundings)

/-- `detectValueChangeWithFilter` with the encoding that the item keeps. The result is the new
encoding if there is a change. -/
def detectValueChangeWithFilter : Option (List Byte) :=
  if value.numeric = some true ∧
      (filter.trigger = .statusValue ∨ filter.trigger = .statusValueTimestamp) ∧
      filter.deadbandType = .absolute ∧ !around.outOfDeadband then none
  else
    let stack := encodeValue env value valueEncodingMaxStack
    if stack.1 = badEncodingLimitsExceeded then
      -- a buffer of the calculated size, which is kept if there is a change
      let binsize := calcSizeBinary env value.toValue dataValueType
      let heap := encodeValue env value binsize
      if binsize = 0 then none
      else if !around.buffer then none
      else if heap.1 ≠ good then none
      else if lastSampledValue = some heap.2.out then none
      else some heap.2.out
    else if stack.1 ≠ good then none
    else if lastSampledValue = some stack.2.out then none
    else if around.copied then some stack.2.out
    else none

def detectValueChange : Option (List Byte) :=
  detectValueChangeWithFilter env filter lastSampledValue (value.restrict filter.trigger) around

end

end Detection

structure SampledSubscription where
  sub : Subscription DataValue
  lastSampledValue : Nat → Option (List Byte)

namespace SampledSubscription

variable (env : TypeEnv)

def keep (state : SampledSubscription) (mon : Nat) (encoding : Option (List Byte)) :
    SampledSubscription :=
  { state with
    lastSampledValue := fun address =>
      if address = mon then encoding else state.lastSampledValue address }

def sample (value : DataValue) (encoding : Option (List Byte)) (around : SampleSurroundings) :
    Sample DataValue :=
  ⟨value.sampled, encoding.isSome, around.notification⟩

def kept (lastSampledValue encoding : Option (List Byte)) (around : SampleSurroundings) :
    Option (List Byte) :=
  if encoding.isSome ∧ around.notification then encoding else lastSampledValue

/-- `UA_MonitoredItem_sampleCallback`. The filter of the union is read only for a data change. -/
def sampleCallback (state : SampledSubscription) (mon : Nat) (value : DataValue)
    (around : SampleSurroundings) : Option SampledSubscription := do
  let item ← state.sub.item mon
  if item.monitoredItemType ≠ .changeNotify then some state
  else
    match item.filter with
    | .eventFilter _ => none
    | .dataChangeFilter filter =>
      let encoding := detectValueChange env filter (state.lastSampledValue mon) value around
      let sub ← state.sub.sampleCallback mon (sample value encoding around)
      some ({ state with sub := sub }.keep mon (kept (state.lastSampledValue mon) encoding around))

section

variable (config : SubscriptionConfig) (state : SampledSubscription)
  (request : MonitoredItemCreateRequest DataValue)

/-- The part of `Operation_CreateMonitoredItem` before the first sample. A new item keeps
nothing. -/
def registerMonitoredItem : Option (MonitoredItemCreateResult × SampledSubscription) := do
  let (result, sub) ← state.sub.createMonitoredItem config
    { request with sample := ⟨request.read, false, false⟩ }
  some (result, { state with sub := sub }.keep state.sub.unusedItem none)

end

def stopped (state : SampledSubscription) (monitoringMode : MonitoringMode)
    (monitoredItemId : BitVec 32) : Option Nat :=
  match state.sub.getMonitoredItem monitoredItemId with
  | none => none
  | some item =>
    if item.monitoredItemType ≠ .changeNotify ∧ item.monitoredItemType ≠ .eventNotify then none
    else
      match monitoringMode with
      | .invalid _ => none
      | .reporting => none
      | mode => if item.monitoringMode = mode then none else some item.address

def setMonitoringMode (state : SampledSubscription) (monitoringMode : MonitoringMode)
    (monitoredItemId : BitVec 32) : Option (StatusCode × SampledSubscription) := do
  let (status, sub) ← state.sub.setMonitoringMode monitoringMode monitoredItemId
  let after := { state with sub := sub }
  match state.stopped monitoringMode monitoredItemId with
  | none => some (status, after)
  | some mon => some (status, after.keep mon none)

end SampledSubscription

end OpcUa
