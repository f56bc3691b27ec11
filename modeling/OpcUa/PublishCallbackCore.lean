import OpcUa.DataSetWriterCore
import OpcUa.NetworkMessageCore

/-!
`UA_WriterGroup_publishCallback`: the DataSetMessages of the writers of a group are put into one
array and sent in NetworkMessages.

The result is `none` where the source accesses an array outside of its bounds, uses the array of
the messages after it is freed, or frees what was not allocated.
-/

namespace OpcUa

open LittleEndian StatusCode

variable {Id : Type} [DecidableEq Id]

structure StoredMessage (Id : Type) where
  origin : Option Id
  message : DataSetMessage
deriving Repr

structure MessageStore (Id : Type) where
  dsmStore : List (StoredMessage Id)
  dsmSizes : List (BitVec 16)
  combinedNetworkMessageCount : BitVec 16
  singleNetworkMessagesCount : BitVec 16
  writers : List (DataSetWriter Id)

/-- A NetworkMessage that went to the channel. The encoder takes the messages from the front of the
part of the array that the payload points to. -/
structure PublishedMessage (Id : Type) where
  message : NetworkMessage
  stored : List (StoredMessage Id)
  buf : List Byte

def PublishedMessage.encoded (sent : PublishedMessage Id) : List (StoredMessage Id) :=
  sent.stored.take sent.message.messageCount

structure PublishCallbackRun (Id : Type) where
  sent : List (PublishedMessage Id)
  writers : List (DataSetWriter Id)

/-- What the fields are sampled with in the cycle, the time, and the outcomes of allocations. -/
structure PublishInputs (Id : Type) where
  sample : Id → Id → DataValue
  now : Id → BitVec 64
  memory : Id → CycleMemory
  dsmStore : Bool
  buf : Nat → Bool

def WriterGroupConfig.maximum (config : WriterGroupConfig) : BitVec 16 :=
  if config.maxEncapsulatedDataSetMessageCount = 0 ∨
      config.maxEncapsulatedDataSetMessageCount.toNat > byteMax then 1
  else config.maxEncapsulatedDataSetMessageCount

section Callback

variable (env : TypeEnv) (manager : PubSubManager Id) (inputs : PublishInputs Id)

def MessageStore.put (store : MessageStore Id) (position : Nat) (origin : Id)
    (message : DataSetMessage) : MessageStore Id :=
  { store with
    dsmStore := store.dsmStore.set position ⟨some origin, message⟩
    dsmSizes :=
      store.dsmSizes.set position (BitVec.ofNat 16 (dataSetMessageCalcSizeBinary env message)) }

/-- The place of the next message: from the right for data sets with promoted fields. -/
def MessageStore.position (store : MessageStore Id) (writersCount : BitVec 32) (promoted : Bool) :
    Nat :=
  if promoted then (writersCount - 1 - store.singleNetworkMessagesCount.zeroExtend 32).toNat
  else store.combinedNetworkMessageCount.toNat

def MessageStore.countUp (store : MessageStore Id) (promoted : Bool) : MessageStore Id :=
  if promoted then
    { store with singleNetworkMessagesCount := store.singleNetworkMessagesCount + 1 }
  else { store with combinedNetworkMessageCount := store.combinedNetworkMessageCount + 1 }

def collectMessages (writersCount : BitVec 32) :
    List (DataSetWriter Id) → MessageStore Id → Option (Bool × MessageStore Id)
  | [], store => some (true, store)
  | writer :: rest, store =>
    match manager.findPDSById writer.connectedDataSet with
    | none => some (false, { store with writers := store.writers ++ writer :: rest })
    | some dataSet =>
      let promoted := dataSet.promotedFieldsCount.toNat > 0
      let position := store.position writersCount promoted
      if store.dsmStore.length ≤ position then none
      else
        match writer.generateDataSetMessage env dataSet (inputs.sample writer.identifier)
            (inputs.now writer.identifier) (inputs.memory writer.identifier) with
        | none => none
        | some (status, message, changed) =>
          if status ≠ good then
            some (false, { store with writers := store.writers ++ changed :: rest })
          else
            collectMessages writersCount rest
              { (store.put env position writer.identifier message).countUp promoted with
                writers := store.writers ++ [changed] }

/-- The number of combined NetworkMessages. The conditional operator takes the whole sum of the
quotient and the remainder as its condition. -/
def combinedCount (combined maximum : Nat) : Nat :=
  if combined ≠ 0 then if combined / maximum + combined % maximum = 0 then 0 else 1 else 0

/-- The position of the first message of a NetworkMessage and the count in its payload header.
The arithmetic has 32 bits, the count is cast to a byte. -/
def networkMessageCut (writersCount : BitVec 32) (combined single maximum : Nat)
    (i : BitVec 32) : Nat × Byte :=
  let networkMessageCount := BitVec.ofNat 32 (single + combined)
  let step := i * BitVec.ofNat 32 maximum
  if i.toNat < (networkMessageCount - BitVec.ofNat 32 single).toNat then
    if BitVec.ofNat 32 combined - step ≠ 0 then
      if combined = 1 then (0, (writersCount - BitVec.ofNat 32 single).truncate 8)
      else (step.toNat, BitVec.ofNat 8 maximum)
    else (step.toNat, (step - (i - 1) * BitVec.ofNat 32 maximum).truncate 8)
  else
    -- the outcome of the comparison is added, not the sum that is compared
    (combined +
      (if i - BitVec.ofNat 32 (combined / maximum) + BitVec.ofNat 32 (combined % maximum) = 0
        then 0 else 1), 1)

/-- The message as the encoder sees it. The payload header is enabled behind the encoding only, and
the size table is always stored in the first message. -/
def preparedMessage (store : MessageStore Id) (position : Nat) (first : Bool) : NetworkMessage :=
  { (default : NetworkMessage) with
    version := 1
    payload :=
      { sizes := if first then some (store.dsmSizes.drop position) else none
        dataSetMessages := (store.dsmStore.drop position).map (·.message) } }

/-- The loop over the NetworkMessages. Each of them frees the array that its payload points to, so
that only the first one finds the array, and only if it points to the start of it. -/
def sendMessages (connection : Option (PubSubConnection Id)) (store : MessageStore Id)
    (cut : BitVec 32 → Nat × Byte) :
    List Nat → Bool → List (PublishedMessage Id) → Option (List (PublishedMessage Id))
  | [], _, sent => some sent
  | i :: rest, freed, sent =>
    match connection with
    | none => some sent
    | some _ =>
      let (position, count) := cut (BitVec.ofNat 32 i)
      let message := preparedMessage store position (i == 0)
      let stored := store.dsmStore.drop position
      if freed ∨ stored.length < max message.messageCount count.toNat then none
      else
        let result := networkMessageEncodeBinary env message
          (singleBuffer (networkMessageCalcSizeBinary env message))
        if inputs.buf i ∧ result.1 ≠ good then some sent
        else if position ≠ 0 then none
        else
          sendMessages connection store cut rest true
            (if inputs.buf i then sent ++ [⟨message, stored, result.2.out⟩] else sent)

def publishCallback (writerGroup : WriterGroup Id) : Option (PublishCallbackRun Id) :=
  if writerGroup.writersCount.toNat = 0 then some ⟨[], writerGroup.writers⟩
  else if writerGroup.config.encodingMimeType ≠ .uadp then some ⟨[], writerGroup.writers⟩
  else if !inputs.dsmStore then some ⟨[], writerGroup.writers⟩
  else
    match collectMessages env manager inputs writerGroup.writersCount writerGroup.writers
        ⟨List.replicate writerGroup.writersCount.toNat ⟨none, default⟩,
          List.replicate writerGroup.writersCount.toNat 0, 0, 0, []⟩ with
    | none => none
    | some (false, store) => some ⟨[], store.writers⟩
    | some (true, store) =>
      let single := store.singleNetworkMessagesCount.toNat
      let combined :=
        combinedCount store.combinedNetworkMessageCount.toNat writerGroup.config.maximum.toNat
      (sendMessages env inputs (manager.findConnectionById writerGroup.linkedConnection) store
        (networkMessageCut writerGroup.writersCount combined single
          writerGroup.config.maximum.toNat)
        (List.range (single + combined)) false []).map fun sent => ⟨sent, store.writers⟩

end Callback

end OpcUa
