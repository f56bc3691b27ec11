import OpcUa.PublishCallbackCore
import OpcUa.TypeTable

/-!
What a run of `UA_WriterGroup_publishCallback` sends: every message once, within the maximum, apart
where fields are promoted, and with its own size table.

The encoder skips the payload header, so that a NetworkMessage carries a single DataSetMessage, and
the members of the first NetworkMessage take the array of the messages along. So a run does what
it is for exactly for the groups that have at most one writer.
-/

namespace OpcUa

open LittleEndian StatusCode
open scoped List

variable {Id : Type} [DecidableEq Id]

section Callback

variable {env : TypeEnv} {manager : PubSubManager Id} {inputs : PublishInputs Id}
variable {writerGroup : WriterGroup Id} {run : PublishCallbackRun Id} {writer : DataSetWriter Id}
variable {sent : List (PublishedMessage Id)} {store : MessageStore Id}
  {cut : BitVec 32 → Nat × Byte} {changed : DataSetWriter Id} {dataSet : PublishedDataSet Id}
  {message : DataSetMessage}

def DataSetWriter.Promoted (manager : PubSubManager Id) (writer : DataSetWriter Id) : Prop :=
  ∃ dataSet, manager.findPDSById writer.connectedDataSet = some dataSet ∧
    dataSet.promotedFieldsCount.toNat > 0

/-- Every message is encoded once, in a NetworkMessage that is not too large, alone where its data
set has promoted fields, and with the sizes of that NetworkMessage. -/
structure PublishCallbackRun.Complete (env : TypeEnv) (manager : PubSubManager Id)
    (writerGroup : WriterGroup Id) (run : PublishCallbackRun Id) : Prop where
  once : (run.sent.flatMap (·.encoded)).map (·.origin) ~
    writerGroup.writers.map fun writer => some writer.identifier
  bounded : ∀ sent ∈ run.sent, sent.encoded.length ≤ writerGroup.config.maximum.toNat
  alone : ∀ sent ∈ run.sent, ∀ writer ∈ writerGroup.writers, writer.Promoted manager →
    some writer.identifier ∈ sent.encoded.map (·.origin) → sent.encoded.length = 1
  sizes : ∀ sent ∈ run.sent, ∀ table, sent.message.payload.sizes = some table →
    table.take sent.message.messageCount = sent.encoded.map fun stored =>
      BitVec.ofNat 16 (dataSetMessageCalcSizeBinary env stored.message)

def soleMessage (env : TypeEnv) (message : DataSetMessage) : NetworkMessage :=
  { (default : NetworkMessage) with
    version := 1
    payload :=
      { sizes := some [BitVec.ofNat 16 (dataSetMessageCalcSizeBinary env message)]
        dataSetMessages := [message] } }

structure Publishable (env : TypeEnv) (manager : PubSubManager Id) (inputs : PublishInputs Id)
    (writerGroup : WriterGroup Id) (writer : DataSetWriter Id) : Prop where
  encoding : writerGroup.config.encodingMimeType = .uadp
  store : inputs.dsmStore = true
  buffer : inputs.buf 0 = true
  connection : (manager.findConnectionById writerGroup.linkedConnection).isSome
  message : ∃ dataSet message changed, manager.findPDSById writer.connectedDataSet = some dataSet ∧
    writer.generateDataSetMessage env dataSet (inputs.sample writer.identifier)
      (inputs.now writer.identifier) (inputs.memory writer.identifier) =
        some (good, message, changed) ∧
    (networkMessageEncodeBinary env (soleMessage env message)
      (singleBuffer (networkMessageCalcSizeBinary env (soleMessage env message)))).1 = good

omit [DecidableEq Id] in
theorem sendMessages_freed (connection : PubSubConnection Id) (store : MessageStore Id)
    (cut : BitVec 32 → Nat × Byte) (indices : List Nat) {after : List (PublishedMessage Id)}
    (sends : sendMessages env inputs (some connection) store cut indices true sent = some after) :
    after = sent := by
  cases indices with
  | nil =>
    injection sends with sends
    exact sends.symm
  | cons i rest =>
    rw [sendMessages] at sends
    dsimp only at sends
    cases sends

omit [DecidableEq Id] in
theorem sendMessages_encoded {connection : Option (PubSubConnection Id)} {indices : List Nat}
    (sends : sendMessages env inputs connection store cut indices false [] = some sent) :
    (sent.flatMap (·.encoded)).length ≤ 1 := by
  cases indices with
  | nil =>
    cases sends
    exact Nat.zero_le _
  | cons i rest =>
    cases connection with
    | none =>
      cases sends
      exact Nat.zero_le _
    | some connection =>
      rw [sendMessages] at sends
      dsimp only at sends
      split at sends
      · cases sends
      split at sends
      · cases sends
        exact Nat.zero_le _
      split at sends
      · cases sends
      · have same := sendMessages_freed connection store cut rest sends
        rw [same]
        split
        · rw [List.nil_append, List.flatMap_singleton, PublishedMessage.encoded, List.length_take]
          exact Nat.min_le_left _ _
        · exact Nat.zero_le _

theorem publishCallback_encoded (runs : publishCallback env manager inputs writerGroup = some run) :
    (run.sent.flatMap (·.encoded)).length ≤ 1 := by
  rw [publishCallback] at runs
  split at runs
  · cases runs
    exact Nat.zero_le _
  split at runs
  · cases runs
    exact Nat.zero_le _
  split at runs
  · cases runs
    exact Nat.zero_le _
  split at runs
  · cases runs
  · cases runs
    exact Nat.zero_le _
  · obtain ⟨sent, sends, same⟩ := Option.map_eq_some_iff.mp runs
    rw [← same]
    exact sendMessages_encoded sends

theorem PublishCallbackRun.Complete.writers_le (complete : run.Complete env manager writerGroup)
    (runs : publishCallback env manager inputs writerGroup = some run) :
    writerGroup.writers.length ≤ 1 := by
  have lengths := complete.once.length_eq
  rw [List.length_map, List.length_map] at lengths
  rw [← lengths]
  exact publishCallback_encoded runs

theorem WriterGroupConfig.maximum_pos (config : WriterGroupConfig) : 0 < config.maximum.toNat := by
  rw [maximum]
  split
  · decide
  · rename_i positive
    exact Nat.pos_of_ne_zero fun zero => (not_or.mp positive).1 (BitVec.eq_of_toNat_eq zero)

theorem combinedCount_of_ne_zero {combined maximum : Nat} (some : combined ≠ 0) :
    combinedCount combined maximum = 1 := by
  have parts := Nat.div_add_mod combined maximum
  rw [combinedCount, if_pos some, if_neg]
  intro empty
  obtain ⟨quotient, remainder⟩ := Nat.add_eq_zero_iff.mp empty
  rw [quotient, remainder] at parts
  exact some parts.symm

theorem sole_cut (maximum : Nat) (promoted : Bool) :
    networkMessageCut 1 (combinedCount (if promoted then 0 else 1) maximum)
        (if promoted then 1 else 0) maximum 0 = (0, 1) ∧
      (if promoted then 1 else 0) + combinedCount (if promoted then 0 else 1) maximum = 1 := by
  cases promoted with
  | true =>
    have none : combinedCount 0 maximum = 0 := rfl
    simp [none, networkMessageCut]
  | false =>
    have one : combinedCount 1 maximum = 1 := combinedCount_of_ne_zero Nat.one_ne_zero
    simp [one, networkMessageCut]

def soleStore (env : TypeEnv) (writer changed : DataSetWriter Id) (message : DataSetMessage)
    (promoted : Bool) : MessageStore Id :=
  { dsmStore := [⟨some writer.identifier, message⟩]
    dsmSizes := [BitVec.ofNat 16 (dataSetMessageCalcSizeBinary env message)]
    combinedNetworkMessageCount := if promoted then 0 else 1
    singleNetworkMessagesCount := if promoted then 1 else 0
    writers := [changed] }

theorem collectMessages_sole (found : manager.findPDSById writer.connectedDataSet = some dataSet)
    (generates : writer.generateDataSetMessage env dataSet (inputs.sample writer.identifier)
      (inputs.now writer.identifier) (inputs.memory writer.identifier) =
        some (good, message, changed)) :
    collectMessages env manager inputs 1 [writer]
        ⟨List.replicate 1 ⟨none, default⟩, List.replicate 1 0, 0, 0, []⟩ =
      some (true, soleStore env writer changed message (dataSet.promotedFieldsCount.toNat > 0)) := by
  rw [collectMessages, found]
  by_cases promoted : dataSet.promotedFieldsCount.toNat > 0
  · simp [promoted, generates, MessageStore.position, MessageStore.put, MessageStore.countUp,
      collectMessages, soleStore]
  · simp [promoted, generates, MessageStore.position, MessageStore.put, MessageStore.countUp,
      collectMessages, soleStore]

theorem collectMessages_sole_bad
    (bad : ∀ dataSet message changed, manager.findPDSById writer.connectedDataSet = some dataSet →
      writer.generateDataSetMessage env dataSet (inputs.sample writer.identifier)
        (inputs.now writer.identifier) (inputs.memory writer.identifier) ≠
          some (good, message, changed)) {result : Bool × MessageStore Id}
    (collects : collectMessages env manager inputs 1 [writer] store = some result) :
    result.1 = false := by
  rw [collectMessages] at collects
  cases found : manager.findPDSById writer.connectedDataSet with
  | none =>
    rw [found] at collects
    cases collects
    rfl
  | some dataSet =>
    rw [found] at collects
    dsimp only at collects
    split at collects
    · cases collects
    split at collects
    · cases collects
    · rename_i status message changed generates
      split at collects
      · cases collects
        rfl
      · rename_i succeeded
        exact absurd (not_not.mp succeeded ▸ generates) (bad dataSet message changed found)

omit [DecidableEq Id] in
theorem sendMessages_sole (connection : PubSubConnection Id) (writer changed : DataSetWriter Id)
    (message : DataSetMessage) (promoted : Bool) (start : cut 0 = (0, 1)) :
    sendMessages env inputs (some connection) (soleStore env writer changed message promoted) cut
        [0] false [] =
      some (if inputs.buf 0 ∧ (networkMessageEncodeBinary env (soleMessage env message)
          (singleBuffer (networkMessageCalcSizeBinary env (soleMessage env message)))).1 = good
        then [⟨soleMessage env message, [⟨some writer.identifier, message⟩],
          (networkMessageEncodeBinary env (soleMessage env message)
            (singleBuffer (networkMessageCalcSizeBinary env (soleMessage env message)))).2.out⟩]
        else []) := by
  have same : preparedMessage (soleStore env writer changed message promoted) 0 true =
      soleMessage env message := rfl
  rw [sendMessages]
  rw [show BitVec.ofNat 32 0 = 0 from rfl, start]
  dsimp only
  rw [show ((0 : Nat) == 0) = true from rfl, same]
  have inside : ¬(false = true ∨ ((soleStore env writer changed message promoted).dsmStore.drop
      0).length < max (soleMessage env message).messageCount (1 : Byte).toNat) := by
    rw [not_or]
    have one : (soleMessage env message).messageCount = 1 := rfl
    exact ⟨Bool.false_ne_true, by rw [one]; simp [soleStore]⟩
  rw [if_neg inside]
  cases inputs.buf 0 with
  | false => simp [sendMessages]
  | true =>
    by_cases succeeds : (networkMessageEncodeBinary env (soleMessage env message)
        (singleBuffer (networkMessageCalcSizeBinary env (soleMessage env message)))).1 = good
    · simp [succeeds, sendMessages, soleStore]
    · simp [succeeds]

variable (env) in
omit [DecidableEq Id] in
theorem soleStore_counts (writer changed : DataSetWriter Id) (message : DataSetMessage)
    (promoted : Bool) :
    (soleStore env writer changed message promoted).singleNetworkMessagesCount.toNat =
        (if promoted then 1 else 0) ∧
      (soleStore env writer changed message promoted).combinedNetworkMessageCount.toNat =
        (if promoted then 0 else 1) := by
  cases promoted <;> exact ⟨rfl, rfl⟩

section

variable (only : writerGroup.writers = [writer]) (counted : writerGroup.writersCount = 1)
include only counted

theorem publishCallback_sole (encoding : writerGroup.config.encodingMimeType = .uadp)
    (memory : inputs.dsmStore = true)
    (found : manager.findPDSById writer.connectedDataSet = some dataSet)
    (generates : writer.generateDataSetMessage env dataSet
      (inputs.sample writer.identifier) (inputs.now writer.identifier) (inputs.memory
      writer.identifier) = some (good, message, changed)) :
    publishCallback env manager inputs writerGroup =
      (sendMessages env inputs (manager.findConnectionById writerGroup.linkedConnection)
        (soleStore env writer changed message (dataSet.promotedFieldsCount.toNat > 0))
        (networkMessageCut 1 (combinedCount
            (if decide (dataSet.promotedFieldsCount.toNat > 0) then 0 else 1)
            writerGroup.config.maximum.toNat)
          (if decide (dataSet.promotedFieldsCount.toNat > 0) then 1 else 0)
          writerGroup.config.maximum.toNat) [0] false []).map fun sent => ⟨sent, [changed]⟩ := by
  have one : (1 : BitVec 32).toNat = 1 := rfl
  rw [publishCallback, counted, one, if_neg Nat.one_ne_zero, if_neg (not_not.mpr encoding), memory,
    Bool.not_true, if_neg Bool.false_ne_true, only, collectMessages_sole found generates]
  dsimp only
  obtain ⟨single, combined⟩ := soleStore_counts env writer changed message
    (decide (dataSet.promotedFieldsCount.toNat > 0))
  obtain ⟨-, total⟩ := sole_cut writerGroup.config.maximum.toNat
    (decide (dataSet.promotedFieldsCount.toNat > 0))
  rw [single, combined, total]
  rfl

theorem publishCallback_publishable
    (publishable : Publishable env manager inputs writerGroup writer) :
    ∃ run message bytes, publishCallback env manager inputs writerGroup = some run ∧
      run.sent = [⟨soleMessage env message, [⟨some writer.identifier, message⟩], bytes⟩] := by
  obtain ⟨dataSet, message, changed, found, generates, succeeds⟩ := publishable.message
  obtain ⟨connection, connected⟩ := Option.isSome_iff_exists.mp publishable.connection
  have runs := publishCallback_sole only counted publishable.encoding publishable.store found
    generates
  rw [connected, sendMessages_sole connection writer changed message _ (sole_cut _ _).1,
    if_pos ⟨publishable.buffer, succeeds⟩] at runs
  exact ⟨_, message, _, runs, rfl⟩

theorem publishCallback_silent (failing : ¬ Publishable env manager inputs writerGroup writer)
    (runs : publishCallback env manager inputs writerGroup = some run) : run.sent = [] := by
  by_cases generated : ∃ dataSet message changed,
      manager.findPDSById writer.connectedDataSet = some dataSet ∧
      writer.generateDataSetMessage env dataSet (inputs.sample writer.identifier)
        (inputs.now writer.identifier) (inputs.memory writer.identifier) =
          some (good, message, changed)
  · by_cases encoding : writerGroup.config.encodingMimeType = .uadp
    · cases memory : inputs.dsmStore with
      | false =>
        rw [publishCallback, memory] at runs
        split at runs
        · cases runs
          rfl
        split at runs
        · cases runs
          rfl
        · cases runs
          rfl
      | true =>
        obtain ⟨dataSet, message, changed, found, generates⟩ := generated
        rw [publishCallback_sole only counted encoding memory found generates] at runs
        cases connected : manager.findConnectionById writerGroup.linkedConnection with
        | none =>
          rw [connected] at runs
          cases runs
          rfl
        | some connection =>
          rw [connected, sendMessages_sole connection writer changed message _
            (sole_cut _ _).1] at runs
          rw [if_neg] at runs
          · cases runs
            rfl
          · intro sends
            exact failing ⟨encoding, memory, sends.1, by rw [connected]; rfl,
              dataSet, message, changed, found, generates, sends.2⟩
    · rw [publishCallback] at runs
      split at runs
      · cases runs
        rfl
      · cases runs
        rfl
  · have bad : ∀ dataSet message changed,
        manager.findPDSById writer.connectedDataSet = some dataSet →
        writer.generateDataSetMessage env dataSet (inputs.sample writer.identifier)
          (inputs.now writer.identifier) (inputs.memory writer.identifier) ≠
            some (good, message, changed) :=
      fun dataSet message changed found generates =>
        generated ⟨dataSet, message, changed, found, generates⟩
    rw [publishCallback, counted, only] at runs
    split at runs
    · cases runs
      rfl
    split at runs
    · cases runs
      rfl
    split at runs
    · cases runs
      rfl
    split at runs
    · cases runs
    · cases runs
      rfl
    · rename_i store collects
      cases collectMessages_sole_bad bad collects

end

/-- A callback does what it is for exactly for groups without writers and for groups with a single
writer whose message can be generated, encoded and sent. -/
theorem publishCallback_complete_iff {writerGroup : WriterGroup Id}
    (counted : writerGroup.writersCount.toNat = writerGroup.writers.length) :
    (∃ run, publishCallback env manager inputs writerGroup = some run ∧
      run.Complete env manager writerGroup) ↔
      writerGroup.writers = [] ∨ ∃ writer, writerGroup.writers = [writer] ∧
        Publishable env manager inputs writerGroup writer := by
  constructor
  · rintro ⟨run, runs, complete⟩
    have few := complete.writers_le runs
    rcases Nat.le_one_iff_eq_zero_or_eq_one.mp few with none | one
    · exact .inl (List.length_eq_zero_iff.mp none)
    · obtain ⟨writer, only⟩ := List.length_eq_one_iff.mp one
      refine .inr ⟨writer, only, ?_⟩
      by_contra failing
      have once := complete.once.length_eq
      rw [publishCallback_silent only (BitVec.eq_of_toNat_eq (counted.trans one)) failing runs,
        only] at once
      cases once
  · rintro (none | ⟨writer, only, publishable⟩)
    · refine ⟨⟨[], writerGroup.writers⟩, ?_, ?_⟩
      · rw [publishCallback, if_pos]
        rw [counted, none]
        rfl
      · refine ⟨by rw [none]; exact .nil, ?_, ?_, ?_⟩
        · exact fun _ member => (nomatch member)
        · exact fun _ member => (nomatch member)
        · exact fun _ member => (nomatch member)
    · have one : writerGroup.writersCount.toNat = 1 := by
        rw [counted, only]
        rfl
      obtain ⟨run, message, bytes, runs, sends⟩ :=
        publishCallback_publishable only (BitVec.eq_of_toNat_eq one) publishable
      refine ⟨run, runs, ?_⟩
      have encoded : ∀ sent ∈ run.sent, sent.message = soleMessage env message ∧
            sent.encoded = [⟨some writer.identifier, message⟩] := by
        intro sent member
        rw [sends, List.mem_singleton] at member
        rw [member]
        exact ⟨rfl, rfl⟩
      constructor
      · rw [sends, only]
        exact .refl _
      · intro sent member
        rw [(encoded sent member).2]
        exact writerGroup.config.maximum_pos
      · intro sent member _ _ _ _
        rw [(encoded sent member).2]
        rfl
      · intro sent member table stored
        rw [(encoded sent member).1] at stored
        rw [(encoded sent member).1, (encoded sent member).2]
        cases stored
        rfl

end Callback

def levelDataSet : PublishedDataSet Nat :=
  ⟨.publishedItems, ⟨0, 0⟩, [⟨⟨.variable, false⟩, 6, 1⟩], 1, 1, 0⟩

def levelWriter (identifier : Nat) : DataSetWriter Nat :=
  ⟨⟨0, 3, none⟩, identifier, 3, 1, ⟨0, 0⟩, 0, 1, [.cleared], 0⟩

def levelGroup (maximum : BitVec 16) (writers : List (DataSetWriter Nat)) : WriterGroup Nat :=
  ⟨⟨.uadp, maximum⟩, 3, 2, writers, BitVec.ofNat 32 writers.length⟩

def levelManager (writerGroup : WriterGroup Nat) : PubSubManager Nat :=
  ⟨[⟨2, [writerGroup]⟩], [levelDataSet], []⟩

def levelInputs : PublishInputs Nat :=
  ⟨fun _ _ => ⟨default, true, .variantScalar byteType (.leaf (.byte 9)) []⟩, fun _ => 7,
    fun _ => ⟨true, true, fun _ => true, fun _ => true⟩, true, fun _ => true⟩

theorem soleWriter_complete :
    ∃ run, publishCallback sampleEnv (levelManager (levelGroup 1 [levelWriter 4])) levelInputs
        (levelGroup 1 [levelWriter 4]) = some run ∧
      run.Complete sampleEnv (levelManager (levelGroup 1 [levelWriter 4]))
        (levelGroup 1 [levelWriter 4]) := by
  refine (publishCallback_complete_iff rfl).mpr (.inr ⟨levelWriter 4, rfl, ?_⟩)
  exact ⟨rfl, rfl, rfl, rfl, levelDataSet, _, _, rfl, rfl, by decide +kernel⟩

/-- Both messages belong to one NetworkMessage, but its payload header is not enabled yet, so that only
the first message is encoded. -/
theorem twoWriters_incomplete : ¬ ∃ run, publishCallback sampleEnv
        (levelManager (levelGroup 2 [levelWriter 4, levelWriter 5])) levelInputs
        (levelGroup 2 [levelWriter 4, levelWriter 5]) = some run ∧
      run.Complete sampleEnv (levelManager (levelGroup 2 [levelWriter 4, levelWriter 5]))
        (levelGroup 2 [levelWriter 4, levelWriter 5]) := by
  rintro ⟨run, runs, complete⟩
  exact absurd (complete.writers_le runs) (by decide)

end OpcUa

