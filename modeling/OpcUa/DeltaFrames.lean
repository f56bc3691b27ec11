import OpcUa.DataSetWriterCore
import OpcUa.Library.Deltas
import OpcUa.Library.Dependents
import OpcUa.NetworkMessageWire

/-!
Delta frames over runs of publish cycles: every access to the stored samples stays inside of the
store, and a subscriber holds what the fields were sampled with.
-/

namespace OpcUa

open StatusCode Deltas Dependents List

variable {Id : Type}

section Cycle

variable {env : TypeEnv}
variable {memory : CycleMemory}
variable {α : Type}

def SameEncoding (env : TypeEnv) (held value : DataValue) : Prop :=
  valueWire env held.value variantType = valueWire env value.value variantType

def Measured (env : TypeEnv) (value : DataValue) : Prop :=
  calcSizeBinary env value.value variantType ≠ 0 ∧ (encodeToSize env value.value).1 = good

theorem encodeToSize_out {value : Value} (success : (encodeToSize env value).1 = good) :
    (encodeToSize env value).2.out = valueWire env value variantType := by
  obtain ⟨-, result, -⟩ := (uaVariantEncodeBinary_writes env value).good_only
    (singleBuffer (calcSizeBinary env value variantType)) rfl (Nat.zero_le _) success
  exact congrArg Ctx.out result

theorem valueChangedVariant_false {old new : DataValue} (first : Measured env old)
    (second : Measured env new)
    (unchanged : valueChangedVariant env old.value new.value true = false) :
    SameEncoding env old new := by
  rw [valueChangedVariant] at unchanged
  rw [if_neg (not_or.mpr ⟨first.1, second.1⟩)] at unchanged
  split at unchanged
  · cases unchanged
  rw [Bool.not_true, if_neg Bool.false_ne_true, if_neg (not_not.mpr first.2),
    if_neg (not_not.mpr second.2), bne_eq_false_iff_eq] at unchanged
  rw [SameEncoding, ← encodeToSize_out first.2, ← encodeToSize_out second.2]
  exact unchanged

structure CycleMemory.Available (memory : CycleMemory) : Prop where
  grown : memory.grown = true
  fields : memory.fields = true
  compared : ∀ index, memory.compared index = true
  copied : ∀ index, memory.copied index = true

theorem CycleMemory.Available.copy (available : memory.Available) (index : Nat)
    (value : DataValue) : memory.copy index value = value :=
  if_pos (available.copied index)

def keyStore (mask : BitVec 32) (sample : Id → DataValue) (lastSamples : List DataSetWriterSample)
    (fields : List (DataSetField Id)) : List DataSetWriterSample :=
  List.zipWith (fun last dsf => { last with value := (sample dsf.identifier).deactivate mask })
    lastSamples fields

theorem modify_length_append (front : List α) (element : α) (rest : List α) (change : α → α) :
    (front ++ element :: rest).modify front.length change =
      (front ++ [change element]) ++ rest := by
  induction front with
  | nil => rfl
  | cons first front ih => exact congrArg (first :: ·) ih

theorem set_length_append (front : List α) (element new : α) (rest : List α) :
    (front ++ element :: rest).set front.length new = (front ++ [new]) ++ rest := by
  induction front with
  | nil => rfl
  | cons first front ih => exact congrArg (first :: ·) ih

theorem keyFrameFields_run (available : memory.Available) (mask : BitVec 32)
    (sample : Id → DataValue) (fields : List (DataSetField Id)) (values room : List DataValue)
    (written lastSamples : List DataSetWriterSample) (spaces : room.length = fields.length)
    (samples : lastSamples.length = fields.length) (together : values.length = written.length) :
    keyFrameFields mask sample memory fields written.length (values ++ room)
        (written ++ lastSamples) =
      some (values ++ fields.map fun dsf => (sample dsf.identifier).deactivate mask,
        written ++ keyStore mask sample lastSamples fields) := by
  induction fields generalizing values written room lastSamples with
  | nil =>
    rw [length_eq_zero_iff.mp spaces, length_eq_zero_iff.mp samples]
    rfl
  | cons dsf fields ih =>
    obtain ⟨space, room, rfl⟩ := exists_cons_of_length_eq_add_one spaces
    obtain ⟨last, lastSamples, rfl⟩ := exists_cons_of_length_eq_add_one samples
    rw [keyFrameFields, if_pos]
    · dsimp only
      rw [available.copy, modify_length_append]
      have value := set_length_append values space ((sample dsf.identifier).deactivate mask) room
      rw [together] at value
      rw [value]
      have next := ih (values ++ [(sample dsf.identifier).deactivate mask]) room
        (written ++ [{ last with value := (sample dsf.identifier).deactivate mask }]) lastSamples
        (Nat.succ.inj spaces) (Nat.succ.inj samples) (by simp [together])
      rw [length_append, length_singleton] at next
      rw [next]
      simp [keyStore]
    · simp only [length_append, length_cons]
      omega

def refresh (env : TypeEnv) (last : DataSetWriterSample) (value : DataValue) :
    DataSetWriterSample :=
  if valueChangedVariant env last.value.value value.value true then ⟨true, value⟩
  else { last with valueChanged := false }

variable (env) in
theorem deltaFrameChanges_run (available : memory.Available) (sample : Id → DataValue)
    (fields : List (DataSetField Id)) (fieldCount : BitVec 16)
    (written lastSamples : List DataSetWriterSample) (samples : lastSamples.length = fields.length)
    (room : fieldCount.toNat + fields.length < 2 ^ 16) :
    ∃ count, deltaFrameChanges env sample memory fields written.length fieldCount
        (written ++ lastSamples) =
      some (count, written ++ List.zipWith (refresh env) lastSamples
        (fields.map fun dsf => sample dsf.identifier)) ∧
      count.toNat = fieldCount.toNat + (List.zipWith (refresh env) lastSamples
        (fields.map fun dsf => sample dsf.identifier)).countP (·.valueChanged) := by
  induction fields generalizing fieldCount written lastSamples with
  | nil =>
    rw [length_eq_zero_iff.mp samples]
    exact ⟨fieldCount, rfl, rfl⟩
  | cons dsf fields ih =>
    obtain ⟨last, lastSamples, rfl⟩ := exists_cons_of_length_eq_add_one samples
    rw [length_cons] at room
    have here : (written ++ last :: lastSamples)[written.length]? = some last := by simp
    rw [deltaFrameChanges, here]
    dsimp only
    rw [available.compared, set_length_append, set_length_append, map_cons,
      zipWith_cons_cons, countP_cons]
    cases differs : valueChangedVariant env last.value.value (sample dsf.identifier).value true with
    | true =>
      have counted : (fieldCount + 1).toNat = fieldCount.toNat + 1 := by
        exact Nat.mod_eq_of_lt (by simp; omega)
      obtain ⟨count, runs, total⟩ := ih (fieldCount + 1)
        (written ++ [⟨true, sample dsf.identifier⟩]) lastSamples (Nat.succ.inj samples)
        (by omega)
      rw [length_append, length_singleton] at runs
      refine ⟨count, ?_, ?_⟩
      · rw [if_pos rfl, runs]
        simp [refresh, differs]
      · rw [total, counted]
        simp only [refresh, differs, if_true]
        omega
    | false =>
      obtain ⟨count, runs, total⟩ := ih fieldCount
        (written ++ [{ last with valueChanged := false }]) lastSamples (Nat.succ.inj samples)
        (by omega)
      rw [length_append, length_singleton] at runs
      refine ⟨count, ?_, ?_⟩
      · rw [if_neg Bool.false_ne_true, runs]
        simp [refresh, differs]
      · rw [total]
        simp [refresh, differs]

def sentFields (mask : BitVec 32) : Nat → List DataSetWriterSample → List DeltaFrameField
  | _, [] => []
  | start, last :: rest =>
    if last.valueChanged then
      ⟨BitVec.ofNat 16 start, last.value.deactivateDelta mask⟩ :: sentFields mask (start + 1) rest
    else sentFields mask (start + 1) rest

def DataSetWriterSample.settle (last : DataSetWriterSample) : DataSetWriterSample :=
  { last with valueChanged := false }

theorem deltaFrameFields_run (available : memory.Available) (mask : BitVec 32) (fieldCount : Nat)
    (deltaFields : List DeltaFrameField) (written lastSamples : List DataSetWriterSample)
    (room : deltaFields.length + lastSamples.countP (·.valueChanged) ≤ fieldCount) :
    deltaFrameFields mask memory fieldCount (List.range' written.length lastSamples.length)
        deltaFields (written ++ lastSamples) =
      some (deltaFields ++ sentFields mask written.length lastSamples,
        written ++ lastSamples.map DataSetWriterSample.settle) := by
  induction lastSamples generalizing deltaFields written with
  | nil => simp [deltaFrameFields, sentFields]
  | cons last lastSamples ih =>
    have here : (written ++ last :: lastSamples)[written.length]? = some last := by simp
    have settled : written ++ last.settle :: lastSamples =
        (written ++ [last.settle]) ++ lastSamples := by simp
    rw [countP_cons] at room
    rw [length_cons, List.range'_succ, deltaFrameFields, here]
    dsimp only
    cases changed : last.valueChanged with
    | false =>
      have same : last = last.settle := by
        rw [DataSetWriterSample.settle, ← changed]
      have next := ih deltaFields (written ++ [last]) (by simp [changed] at room; omega)
      rw [length_append, length_singleton, append_assoc, singleton_append] at next
      rw [Bool.not_false, next]
      simp [sentFields, changed, ← same]
    | true =>
      rw [changed, if_pos rfl] at room
      rw [Bool.not_true, if_neg Bool.false_ne_true, if_pos (by omega), available.copy,
        set_length_append]
      have next := ih (deltaFields ++
          [⟨BitVec.ofNat 16 written.length, last.value.deactivateDelta mask⟩])
        (written ++ [last.settle]) (by simp; omega)
      rw [length_append, length_singleton] at next
      refine next.trans ?_
      simp [sentFields, changed]

theorem sentFields_changes (mask : BitVec 32) (lastSamples : List DataSetWriterSample)
    (values : List DataValue) (start : Nat) (bound : start + values.length ≤ 2 ^ 16) :
    (sentFields mask start (List.zipWith (refresh env) lastSamples values)).map
        (fun field => (field.fieldIndex.toNat, field.fieldValue)) =
      changes (fun old new => valueChangedVariant env old.value new.value true)
        (·.deactivateDelta mask) start (lastSamples.map (·.value)) values := by
  induction lastSamples generalizing values start with
  | nil => simp [sentFields, changes]
  | cons last lastSamples ih =>
    cases values with
    | nil => simp [sentFields, changes]
    | cons value values =>
      rw [length_cons] at bound
      have next := ih values (start + 1) (by omega)
      rw [zipWith_cons_cons, sentFields, map_cons, changes]
      cases differs : valueChangedVariant env last.value.value value.value true with
      | true =>
        have index : (BitVec.ofNat 16 start).toNat = start := by
          exact Nat.mod_eq_of_lt (by omega)
        simp [refresh, differs, next, index]
      | false => simp [refresh, differs, next]

variable (env) in
theorem settled_store (lastSamples : List DataSetWriterSample) (values : List DataValue) :
    ((List.zipWith (refresh env) lastSamples values).map DataSetWriterSample.settle).map (·.value) =
      stored (fun old new => valueChangedVariant env old.value new.value true)
        (lastSamples.map (·.value)) values := by
  rw [stored, map_map, map_zipWith, zipWith_map_left]
  congr 1
  funext last value
  rw [refresh]
  split <;> rfl

end Cycle

def processMessage (image : List DataValue) (message : DataSetMessage) : List DataValue :=
  match message.data with
  | .dataKeyFrame fieldCount dataSetFields => dataSetFields.take fieldCount.toNat
  | .dataDeltaFrame fieldCount deltaFrameFields =>
    overwrite image ((deltaFrameFields.take fieldCount.toNat).map fun field =>
      (field.fieldIndex.toNat, field.fieldValue))
  | _ => image

structure Publication (Id : Type) where
  dataSet : PublishedDataSet Id
  writer : DataSetWriter Id
  image : List DataValue

/-- What happens between and in the cycles. The values of a cycle are those that the fields are
sampled with. -/
inductive PublicationStep (Id : Type) where
  | addField (config : DataSetFieldConfig) (identifier : Id) (now : BitVec 32)
  | removeField (field : DataSetField Id) (now : BitVec 32)
  | publish (sample : Id → DataValue) (now : BitVec 64) (memory : CycleMemory)

namespace Publication

variable (env : TypeEnv)

def publish (sample : Id → DataValue) (now : BitVec 64) (memory : CycleMemory)
    (publication : Publication Id) : Option (Publication Id) :=
  (publication.writer.generateDataSetMessage env publication.dataSet sample now memory).map
    fun (status, message, writer) =>
      { publication with
        writer
        image := if status = good then processMessage publication.image message
          else publication.image }

def perform [DecidableEq Id] (publication : Publication Id) :
    PublicationStep Id → Option (Publication Id)
  | .addField config identifier now =>
    some { publication with
      dataSet := publication.dataSet.addField now
        ⟨config, identifier, publication.dataSet.identifier⟩ }
  | .removeField field now =>
    some { publication with
      dataSet := publication.dataSet.removeField publication.dataSet.identifier now field }
  | .publish sample now memory => publication.publish env sample now memory

def Possible (publication : Publication Id) : PublicationStep Id → Prop
  | .addField _ identifier _ =>
    identifier ∉ publication.dataSet.fields.map (·.identifier)
  | .removeField field _ => field ∈ publication.dataSet.fields
  | .publish .. => True

/-- A change of the fields does not get the stamp that the writer has already seen, the counter of
the fields does not wrap, the allocations of a cycle succeed and the sampled values can be encoded
in their calculated size. -/
def Admissible (publication : Publication Id) : PublicationStep Id → Prop
  | .addField _ _ now =>
    publication.dataSet.fields.length + 1 < 2 ^ 16 ∧
      now ≠ publication.writer.connectedDataSetVersion.majorVersion
  | .removeField _ now => now ≠ publication.writer.connectedDataSetVersion.majorVersion
  | .publish sample _ memory =>
    memory.Available ∧ ∀ field ∈ publication.dataSet.fields, Measured env (sample field.identifier)

def Holds (sample : Id → DataValue) (publication : Publication Id) : Prop :=
  Deltas.Agrees (SameEncoding env) publication.image
    (publication.dataSet.fields.map fun field => sample field.identifier)

end Publication

structure PublishedDataSet.Ordered (dataSet : PublishedDataSet Id) : Prop where
  fieldSize : dataSet.fieldSize.toNat = dataSet.fields.length
  distinct : (dataSet.fields.map (·.identifier)).Nodup

inductive Publishes [DecidableEq Id] (env : TypeEnv) (begins : PublishedDataSet Id → Prop)
    (admissible : Publication Id → PublicationStep Id → Prop) : Publication Id → Prop
  | start {dataSet : PublishedDataSet Id} (config : DataSetWriterConfig)
      (identifier linkedWriterGroup : Id) :
      dataSet.Ordered → begins dataSet →
      Publishes env begins admissible
        ⟨dataSet, dataSet.newWriter config identifier linkedWriterGroup, []⟩
  | step {publication after : Publication Id} (step : PublicationStep Id) :
      Publishes env begins admissible publication → publication.Possible step →
      admissible publication step → publication.perform env step = some after →
      Publishes env begins admissible after

namespace Publication

variable {env : TypeEnv} {publication after : Publication Id}
variable {memory : CycleMemory} {dataSet : PublishedDataSet Id} {writer : DataSetWriter Id}
  {sample : Id → DataValue}
variable {lastSamples : List DataSetWriterSample} {field : DataSetField Id}

/-- The store has an element for each field unless the version tells the writer to make a new one,
and it is what the subscriber holds. -/
structure Synchronized (env : TypeEnv) (publication : Publication Id) : Prop where
  ordered : publication.dataSet.Ordered
  allocated : publication.writer.lastSamples.length = publication.writer.lastSamplesCount
  current : publication.writer.connectedDataSetVersion = publication.dataSet.configurationVersion →
    publication.writer.lastSamples.length = publication.dataSet.fields.length
  agrees : Deltas.Agrees (SameEncoding env) publication.image
    (publication.writer.lastSamples.map (·.value))
  measured : ∀ last ∈ publication.writer.lastSamples, Measured env last.value

theorem keyFrame_run (available : memory.Available) (ordered : dataSet.Ordered)
    (sample : Id → DataValue) (header : DataSetMessageHeader)
    (samples : writer.lastSamples.length = dataSet.fields.length) :
    generateKeyFrameMessage dataSet sample memory header writer =
      some (⟨{ header with dataSetMessageValid := true }, .dataKeyFrame dataSet.fieldSize
          (dataSet.fields.map fun dsf => (sample dsf.identifier).deactivate
            writer.config.dataSetFieldContentMask)⟩,
        { writer with
          lastSamples := keyStore writer.config.dataSetFieldContentMask sample writer.lastSamples
            dataSet.fields }) := by
  have runs := keyFrameFields_run available writer.config.dataSetFieldContentMask sample
    dataSet.fields [] (List.replicate dataSet.fieldSize.toNat default) [] writer.lastSamples
    (by rw [length_replicate, ordered.fieldSize]) samples rfl
  rw [length_nil, nil_append, nil_append] at runs
  rw [generateKeyFrameMessage, available.fields, runs]
  rfl

theorem sentFields_length (mask : BitVec 32) (start : Nat)
    (lastSamples : List DataSetWriterSample) :
    (sentFields mask start lastSamples).length = lastSamples.countP (·.valueChanged) := by
  induction lastSamples generalizing start with
  | nil => rfl
  | cons last lastSamples ih =>
    rw [sentFields, countP_cons]
    split
    · rw [length_cons, ih]
    · exact ih _

variable (env) in
theorem deltaFrame_run (available : memory.Available) (ordered : dataSet.Ordered)
    (sample : Id → DataValue) (writer : DataSetWriter Id)
    (samples : writer.lastSamples.length = dataSet.fields.length) :
    ∃ fieldCount : BitVec 16, ∃ deltaFields,
      generateDeltaFrameMessage env dataSet sample memory writer =
        some (⟨deltaFrameHeader, .dataDeltaFrame fieldCount deltaFields⟩, { writer with
            lastSamples := (List.zipWith (refresh env) writer.lastSamples
              (dataSet.fields.map fun dsf => sample dsf.identifier)).map
                DataSetWriterSample.settle }) ∧
      (deltaFields.take fieldCount.toNat).map
          (fun field => (field.fieldIndex.toNat, field.fieldValue)) =
        changes (fun old new => valueChangedVariant env old.value new.value true)
          (·.deactivateDelta writer.config.dataSetFieldContentMask) 0
          (writer.lastSamples.map (·.value))
          (dataSet.fields.map fun dsf => sample dsf.identifier) := by
  have bound : dataSet.fields.length < 2 ^ 16 := by
    rw [← ordered.fieldSize]
    exact dataSet.fieldSize.isLt
  obtain ⟨count, compares, total⟩ := deltaFrameChanges_run env available sample
    dataSet.fields 0 [] writer.lastSamples samples (by simpa using bound)
  have zero : (0 : BitVec 16).toNat = 0 := rfl
  rw [zero, Nat.zero_add] at total
  have collects := deltaFrameFields_run available writer.config.dataSetFieldContentMask count.toNat
    [] [] (List.zipWith (refresh env) writer.lastSamples
      (dataSet.fields.map fun dsf => sample dsf.identifier)) (by simp [total])
  have size : (List.zipWith (refresh env) writer.lastSamples
      (dataSet.fields.map fun dsf => sample dsf.identifier)).length = dataSet.fieldSize.toNat := by
    rw [length_zipWith, length_map, samples, Nat.min_self, ordered.fieldSize]
  rw [length_nil, nil_append, nil_append] at compares
  rw [length_nil, nil_append, nil_append, nil_append, size, ← range_eq_range'] at collects
  refine ⟨count, sentFields writer.config.dataSetFieldContentMask 0
    (List.zipWith (refresh env) writer.lastSamples
      (dataSet.fields.map fun dsf => sample dsf.identifier)), ?_, ?_⟩
  · rw [generateDeltaFrameMessage, compares]
    dsimp only
    rw [available.fields, collects]
    rfl
  · rw [take_of_length_le (by rw [sentFields_length, total])]
    exact sentFields_changes _ _ _ 0 (by simp; omega)

theorem keyStore_values (mask : BitVec 32) (sample : Id → DataValue)
    {fields : List (DataSetField Id)} (samples : lastSamples.length = fields.length) :
    (keyStore mask sample lastSamples fields).map (·.value) =
      fields.map fun dsf => (sample dsf.identifier).deactivate mask := by
  induction fields generalizing lastSamples with
  | nil =>
    rw [length_eq_zero_iff.mp samples]
    rfl
  | cons dsf fields ih =>
    obtain ⟨last, lastSamples, rfl⟩ := exists_cons_of_length_eq_add_one samples
    exact congrArg (_ :: ·) (ih (Nat.succ.inj samples))

theorem keyFrame_synchronized (ordered : dataSet.Ordered)
    (measured : ∀ field ∈ dataSet.fields, Measured env (sample field.identifier))
    (samples : lastSamples.length = dataSet.fields.length) (mask : BitVec 32)
    (store : writer.lastSamples = keyStore mask sample lastSamples dataSet.fields)
    (count : writer.lastSamplesCount = dataSet.fields.length) :
    Synchronized env ⟨dataSet, writer,
        dataSet.fields.map fun dsf => (sample dsf.identifier).deactivate mask⟩ ∧
      Holds env sample ⟨dataSet, writer,
        dataSet.fields.map fun dsf => (sample dsf.identifier).deactivate mask⟩ := by
  have size : writer.lastSamples.length = dataSet.fields.length := by
    rw [store, keyStore, length_zipWith, samples, Nat.min_self]
  have values := keyStore_values mask sample samples
  rw [← store] at values
  refine ⟨⟨ordered, size.trans count.symm, fun _ => size, ?_, ?_⟩, ?_⟩
  · intro index element stored
    rw [values] at stored
    exact ⟨element, stored, rfl⟩
  · intro last member
    have listed : last.value ∈ writer.lastSamples.map (·.value) :=
      mem_map.mpr ⟨last, member, rfl⟩
    rw [values] at listed
    obtain ⟨field, present, same⟩ := mem_map.mp listed
    rw [← same]
    exact measured field present
  · intro index element sampled
    obtain ⟨field, present, same⟩ := Option.map_eq_some_iff.mp (getElem?_map ▸ sampled)
    refine ⟨(sample field.identifier).deactivate mask, ?_, ?_⟩
    · rw [getElem?_map, present]
      rfl
    · rw [← same]
      rfl

theorem deltaFrame_synchronized (synchronized : Synchronized env publication)
    (measured : ∀ field ∈ publication.dataSet.fields, Measured env (sample field.identifier))
    (samples : publication.writer.lastSamples.length = publication.dataSet.fields.length)
    (mask : BitVec 32)
    (store : writer.lastSamples = (List.zipWith (refresh env) publication.writer.lastSamples
      (publication.dataSet.fields.map fun dsf => sample dsf.identifier)).map
        DataSetWriterSample.settle)
    (count : writer.lastSamplesCount = publication.writer.lastSamplesCount) :
    Synchronized env ⟨publication.dataSet, writer, overwrite publication.image
        (changes (fun old new => valueChangedVariant env old.value new.value true)
          (·.deactivateDelta mask) 0 (publication.writer.lastSamples.map (·.value))
          (publication.dataSet.fields.map fun dsf => sample dsf.identifier))⟩ ∧
      Holds env sample ⟨publication.dataSet, writer, overwrite publication.image
        (changes (fun old new => valueChangedVariant env old.value new.value true)
          (·.deactivateDelta mask) 0 (publication.writer.lastSamples.map (·.value))
          (publication.dataSet.fields.map fun dsf => sample dsf.identifier))⟩ := by
  have newMeasured : ∀ value ∈ publication.dataSet.fields.map fun dsf => sample dsf.identifier,
      Measured env value := by
    intro value member
    obtain ⟨field, present, same⟩ := mem_map.mp member
    exact same ▸ measured field present
  have oldMeasured : ∀ value ∈ publication.writer.lastSamples.map (·.value),
      Measured env value := by
    intro value member
    obtain ⟨last, present, same⟩ := mem_map.mp member
    exact same ▸ synchronized.measured last present
  have size : writer.lastSamples.length = publication.dataSet.fields.length := by
    rw [store, length_map, length_zipWith, length_map, samples, Nat.min_self]
  have values := settled_store env publication.writer.lastSamples
    (publication.dataSet.fields.map fun dsf => sample dsf.identifier)
  rw [← store] at values
  have sends : ∀ new : DataValue, SameEncoding env (new.deactivateDelta mask) new := fun _ => rfl
  obtain ⟨news, stays⟩ := overwrite_agrees
    (fun old new => valueChangedVariant env old.value new.value true)
    (·.deactivateDelta mask) (by simp [samples]) synchronized.agrees sends
    (fun held old new before sampled unchanged close => close.trans
      (valueChangedVariant_false (oldMeasured old before) (newMeasured new sampled) unchanged))
  rw [← values] at stays
  refine ⟨⟨synchronized.ordered, ?_, fun _ => size, stays, ?_⟩, news⟩
  · rw [size, count, ← synchronized.allocated, samples]
  · intro last member
    have listed : last.value ∈ writer.lastSamples.map (·.value) :=
      mem_map.mpr ⟨last, member, rfl⟩
    rw [values, stored] at listed
    obtain ⟨index, inside, same⟩ := mem_iff_getElem.mp listed
    rw [getElem_zipWith] at same
    split at same
    · exact same ▸ newMeasured _ (getElem_mem _)
    · exact same ▸ oldMeasured _ (getElem_mem _)

theorem receive_keyFrame (ordered : dataSet.Ordered) (image : List DataValue)
    (header : DataSetMessageHeader) {values : List DataValue}
    (size : values.length = dataSet.fields.length) :
    (if good = good then processMessage image ⟨header, .dataKeyFrame dataSet.fieldSize values⟩
      else image) = values := by
  exact take_of_length_le (by rw [size, ordered.fieldSize])

theorem receive_deltaFrame (image : List DataValue) (header : DataSetMessageHeader)
    {fieldCount : BitVec 16} {deltaFields : List DeltaFrameField} {frame : List (Nat × DataValue)}
    (same : (deltaFields.take fieldCount.toNat).map
      (fun field => (field.fieldIndex.toNat, field.fieldValue)) = frame) :
    (if good = good then processMessage image ⟨header, .dataDeltaFrame fieldCount deltaFields⟩
      else image) = overwrite image frame := by
  exact congrArg (overwrite image) same

theorem Synchronized.publish (synchronized : Synchronized env publication)
    (available : memory.Available)
    (measured : ∀ field ∈ publication.dataSet.fields, Measured env (sample field.identifier))
    (now : BitVec 64) : ∃ after, publication.publish env sample now memory = some after ∧
      Synchronized env after ∧ Holds env sample after := by
  have ordered := synchronized.ordered
  rw [Publication.publish, DataSetWriter.generateDataSetMessage]
  split
  · have kept : ¬ publication.writer.lastSamples.length < publication.writer.lastSamplesCount := by
      rw [synchronized.allocated]
      exact Nat.lt_irrefl _
    have fresh : (List.replicate publication.dataSet.fieldSize.toNat
        DataSetWriterSample.cleared).length = publication.dataSet.fields.length := by
      rw [length_replicate, ordered.fieldSize]
    rw [if_neg kept, available.grown, Bool.not_true, if_neg Bool.false_ne_true,
      keyFrame_run available ordered _ _ fresh]
    refine ⟨_, rfl, ?_⟩
    dsimp only
    rw [receive_keyFrame ordered _ _ (length_map _)]
    exact keyFrame_synchronized ordered measured fresh _ rfl ordered.fieldSize
  rename_i same
  have samples := synchronized.current (not_not.mp same)
  split
  · obtain ⟨fieldCount, deltaFields, runs, frame⟩ := deltaFrame_run env available ordered sample
      { publication.writer with
        actualDataSetMessageSequenceCount :=
          publication.writer.actualDataSetMessageSequenceCount + 1 } samples
    rw [runs]
    refine ⟨_, rfl, ?_⟩
    dsimp only
    rw [receive_deltaFrame _ _ frame]
    exact deltaFrame_synchronized synchronized measured samples _ rfl rfl
  · rw [keyFrame_run available ordered]
    · refine ⟨_, rfl, ?_⟩
      dsimp only
      rw [receive_keyFrame ordered _ _ (length_map _)]
      exact keyFrame_synchronized ordered measured samples _ rfl
        (synchronized.allocated.symm.trans samples)
    · exact samples

theorem newWriter_synchronized (env : TypeEnv) (ordered : dataSet.Ordered)
    (bare : dataSet.fields = []) (config : DataSetWriterConfig)
    (identifier linkedWriterGroup : Id) :
    Synchronized env ⟨dataSet, dataSet.newWriter config identifier linkedWriterGroup, []⟩ := by
  have size := ordered.fieldSize
  rw [bare] at size
  refine ⟨ordered, size.symm, fun _ => ?_, fun _ _ stored => ?_, fun _ member => ?_⟩
  · exact (congrArg List.length bare).symm
  · cases stored
  · cases member

variable [DecidableEq Id]

omit [DecidableEq Id] in
theorem Synchronized.changed (synchronized : Synchronized env publication)
    (ordered : dataSet.Ordered) (stamp : dataSet.configurationVersion.majorVersion ≠
      publication.writer.connectedDataSetVersion.majorVersion) :
    Synchronized env { publication with dataSet } where
  ordered := ordered
  allocated := synchronized.allocated
  current same := absurd (congrArg ConfigurationVersion.majorVersion same).symm stamp
  agrees := synchronized.agrees
  measured := synchronized.measured

omit [DecidableEq Id] in
theorem addField_ordered (ordered : dataSet.Ordered) (now : BitVec 32)
    (fresh : field.identifier ∉ dataSet.fields.map (·.identifier))
    (room : dataSet.fields.length + 1 < 2 ^ 16) : (dataSet.addField now field).Ordered where
  fieldSize := by
    rw [← countP_true]
    refine counter_cons (fun _ => true) (by decide) ?_ ?_
    · rw [countP_true, ordered.fieldSize]
    · rw [countP_true]
      exact room
  distinct := nodup_cons.mpr ⟨fresh, ordered.distinct⟩

theorem removeField_ordered (ordered : dataSet.Ordered) (now : BitVec 32)
    (member : field ∈ dataSet.fields) :
    (dataSet.removeField dataSet.identifier now field).Ordered where
  fieldSize := by
    simp only [PublishedDataSet.removeField, if_true]
    rw [← countP_true]
    refine counter_filter (fun _ => true) (by decide) ?_ ordered.distinct member
    rw [countP_true, ordered.fieldSize]
  distinct := ordered.distinct.sublist (filter_sublist.map _)

theorem Synchronized.step (synchronized : Synchronized env publication)
    {step : PublicationStep Id} (possible : publication.Possible step)
    (admissible : publication.Admissible env step)
    (performs : publication.perform env step = some after) : Synchronized env after := by
  cases step with
  | addField config identifier now =>
    cases performs
    exact synchronized.changed
      (addField_ordered synchronized.ordered now possible admissible.1) admissible.2
  | removeField field now =>
    cases performs
    refine synchronized.changed (removeField_ordered synchronized.ordered now possible) ?_
    rw [PublishedDataSet.removeField, if_pos rfl]
    exact admissible
  | publish sample now memory =>
    obtain ⟨next, runs, kept, -⟩ := synchronized.publish admissible.1 admissible.2 now
    rw [perform, runs] at performs
    cases performs
    exact kept

theorem publishes_synchronized (reachable : Publishes env (fun dataSet => dataSet.fields = [])
      (Publication.Admissible env) publication) :
    Synchronized env publication := by
  induction reachable with
  | start config identifier linkedWriterGroup ordered bare =>
    exact newWriter_synchronized env ordered bare config identifier linkedWriterGroup
  | step step _ possible admissible performs ih => exact ih.step possible admissible performs

/-- In every run of a writer that starts with an empty data set, each cycle stays inside of the
store, and afterwards the subscriber holds what was sampled. -/
theorem cycle_reconstructed (reachable : Publishes env (fun dataSet => dataSet.fields = [])
      (Publication.Admissible env) publication)
    {sample : Id → DataValue} {now : BitVec 64} {memory : CycleMemory}
    (admissible : publication.Admissible env (.publish sample now memory)) :
    ∃ after, publication.publish env sample now memory = some after ∧ after.Holds env sample := by
  obtain ⟨after, runs, -, holds⟩ := (publishes_synchronized reachable).publish admissible.1 admissible.2 now
  exact ⟨after, runs, holds⟩

/-! A writer that is added to a data set with a field -/

def steadyMemory : CycleMemory := ⟨true, true, fun _ => true, fun _ => true⟩

theorem steadyMemory_available : steadyMemory.Available :=
  ⟨rfl, rfl, fun _ => rfl, fun _ => rfl⟩

def emptyDataSet : PublishedDataSet Nat := ⟨.publishedItems, ⟨0, 0⟩, [], 1, 0, 0⟩

def soleField : DataSetField Nat := ⟨⟨.variable, false⟩, 2, 1⟩

def fieldDataSet : PublishedDataSet Nat := emptyDataSet.addField 9 soleField

theorem emptyValue_measured : Measured sampleEnv default := ⟨by decide, by decide⟩

theorem emptyDataSet_ordered : emptyDataSet.Ordered := ⟨rfl, nodup_nil⟩

theorem fieldDataSet_ordered : fieldDataSet.Ordered :=
  addField_ordered emptyDataSet_ordered 9 (by decide) (by decide)

def levelSample (level : LittleEndian.Byte) (field : Nat) : DataValue :=
  ⟨default, true, .variantScalar byteType (.leaf (.byte (if field = 2 then level else 0))) []⟩

theorem levelSample_measured (level : LittleEndian.Byte) (field : Nat) :
    Measured sampleEnv (levelSample level field) := ⟨Nat.succ_ne_zero 1, rfl⟩

def twoFieldDataSet : PublishedDataSet Nat := fieldDataSet.addField 10 ⟨⟨.variable, false⟩, 3, 1⟩

/-- The first two cycles send key frames, as the version of the data set was new in the first. -/
def afterKeyFrames : Option (Publication Nat) :=
  (Publication.publish sampleEnv (levelSample 1) 0 steadyMemory
    ⟨twoFieldDataSet, emptyDataSet.newWriter ⟨0, 3, none⟩ 4 5, []⟩).bind
      (Publication.publish sampleEnv (levelSample 1) 0 steadyMemory)

theorem thirdCycle_deltaFrame :
    (afterKeyFrames.bind (Publication.publish sampleEnv (levelSample 2) 0 steadyMemory)).map
      (·.writer.deltaFrameCounter) = some 2 := by
  decide +kernel

/-- The third cycle sends the field that has changed in a delta frame. -/
theorem deltaFrame_reconstructed :
    ∃ publication after, afterKeyFrames = some publication ∧
      publication.publish sampleEnv (levelSample 2) 0 steadyMemory = some after ∧
      after.writer.deltaFrameCounter = 2 ∧ after.Holds sampleEnv (levelSample 2) := by
  have started : Publishes sampleEnv (fun dataSet => dataSet.fields = [])
      (Publication.Admissible sampleEnv)
      ⟨emptyDataSet, emptyDataSet.newWriter ⟨0, 3, none⟩ 4 5, []⟩ :=
    .start ⟨0, 3, none⟩ 4 5 emptyDataSet_ordered rfl
  have one := started.step (.addField ⟨.variable, false⟩ 2 9) not_mem_nil
    ⟨by decide, by decide⟩ rfl
  have two : Publishes sampleEnv (fun dataSet => dataSet.fields = [])
      (Publication.Admissible sampleEnv)
      ⟨twoFieldDataSet, emptyDataSet.newWriter ⟨0, 3, none⟩ 4 5, []⟩ :=
    one.step (.addField ⟨.variable, false⟩ 3 10) (show 3 ∉ [2] by decide)
      ⟨by decide, by decide⟩ rfl
  have measured (level : LittleEndian.Byte) (publication : Publication Nat) :
      publication.Admissible sampleEnv (.publish (levelSample level) 0 steadyMemory) :=
    ⟨steadyMemory_available, fun _ _ => levelSample_measured level _⟩
  obtain ⟨keyFrame, firstCycle, -⟩ := cycle_reconstructed two (measured 1 _)
  have first := two.step (.publish (levelSample 1) 0 steadyMemory) trivial (measured 1 _) firstCycle
  obtain ⟨again, secondCycle, -⟩ := cycle_reconstructed first (measured 1 _)
  have second := first.step (.publish (levelSample 1) 0 steadyMemory) trivial (measured 1 _)
    secondCycle
  obtain ⟨after, runs, holds⟩ := cycle_reconstructed second (measured 2 _)
  have ran : afterKeyFrames = some again :=
    Option.bind_eq_some_iff.mpr ⟨keyFrame, firstCycle, secondCycle⟩
  have counter := thirdCycle_deltaFrame
  rw [ran, Option.bind_some, runs] at counter
  exact ⟨again, after, ran, runs, Option.some.inj counter, holds⟩

/-- The first cycle of a writer writes behind the end of its store if the data set already has a
field. -/
theorem firstCycle_outside : ¬ ∀ publication : Publication Nat, Publishes sampleEnv (fun _ => True)
        (Publication.Admissible sampleEnv) publication →
      ∀ (sample : Nat → DataValue) (now : BitVec 64) (memory : CycleMemory),
        publication.Admissible sampleEnv (.publish sample now memory) →
          ∃ after, publication.publish sampleEnv sample now memory = some after ∧
            after.Holds sampleEnv sample := by
  intro reconstructed
  obtain ⟨after, runs, -⟩ := reconstructed _
    (.start ⟨0, 3, none⟩ 4 5 fieldDataSet_ordered trivial) (fun _ => default) 0 steadyMemory
    ⟨steadyMemory_available, fun _ _ => emptyValue_measured⟩
  cases runs

end Publication

end OpcUa
