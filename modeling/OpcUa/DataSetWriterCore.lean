import OpcUa.PubSubCore

/-!
The generation of DataSetMessages by a DataSetWriter, from `ua_pubsub.c` with delta frames.

What the fields hold at the time of a cycle is an input, as is every allocation. The result is
`none` where the source accesses an array outside of its bounds.
-/

namespace OpcUa

open StatusCode

variable {Id : Type}

namespace DataSetFieldContentMask

def statusCode : BitVec 32 := 1
def sourceTimestamp : BitVec 32 := 2
def serverTimestamp : BitVec 32 := 4
def sourcePicoSeconds : BitVec 32 := 8
def serverPicoSeconds : BitVec 32 := 16
def rawDataEncoding : BitVec 32 := 32

end DataSetFieldContentMask

namespace UadpDataSetMessageContentMask

def timestamp : BitVec 32 := 1
def majorVersion : BitVec 32 := 8
def minorVersion : BitVec 32 := 16
def sequenceNumber : BitVec 32 := 32

def default : BitVec 32 := timestamp ||| majorVersion ||| minorVersion

end UadpDataSetMessageContentMask

def keepWhen {α : Type} (mask bit : BitVec 32) (field : Option α) : Option α :=
  if mask &&& bit = 0 then none else field

open DataSetFieldContentMask in
def DataValue.deactivate (mask : BitVec 32) (dfv : DataValue) : DataValue :=
  { dfv with
    info :=
      { status := keepWhen mask statusCode dfv.info.status
        sourceTimestamp := keepWhen mask sourceTimestamp dfv.info.sourceTimestamp
        sourcePicoseconds := keepWhen mask sourcePicoSeconds dfv.info.sourcePicoseconds
        serverTimestamp := keepWhen mask serverTimestamp dfv.info.serverTimestamp
        serverPicoseconds := keepWhen mask serverPicoSeconds dfv.info.serverPicoseconds } }

open DataSetFieldContentMask in
/-- In a delta frame the bit of the source picoseconds takes the server picoseconds away. -/
def DataValue.deactivateDelta (mask : BitVec 32) (fieldValue : DataValue) : DataValue :=
  { fieldValue with
    info :=
      { status := keepWhen mask statusCode fieldValue.info.status
        sourceTimestamp := keepWhen mask sourceTimestamp fieldValue.info.sourceTimestamp
        sourcePicoseconds := fieldValue.info.sourcePicoseconds
        serverTimestamp := keepWhen mask serverTimestamp fieldValue.info.serverTimestamp
        serverPicoseconds := keepWhen mask serverPicoSeconds
          (keepWhen mask sourcePicoSeconds fieldValue.info.serverPicoseconds) } }

section Change

variable (env : TypeEnv)

def encodeToSize (value : Value) : StatusCode × Ctx :=
  uaEncodeBinary env value variantType (singleBuffer (calcSizeBinary env value variantType))

def valueChangedVariant (oldValue newValue : Value) (memory : Bool) : Bool :=
  let oldValueEncodingSize := calcSizeBinary env oldValue variantType
  let newValueEncodingSize := calcSizeBinary env newValue variantType
  if oldValueEncodingSize = 0 ∨ newValueEncodingSize = 0 then false
  else if oldValueEncodingSize ≠ newValueEncodingSize then true
  else if !memory then false
  else if (encodeToSize env oldValue).1 ≠ good then false
  else if (encodeToSize env newValue).1 ≠ good then false
  else (encodeToSize env oldValue).2.out != (encodeToSize env newValue).2.out

end Change

/-- What the allocations of a cycle do. The comparisons and copies are numbered by the field. -/
structure CycleMemory where
  grown : Bool
  fields : Bool
  compared : Nat → Bool
  copied : Nat → Bool

def CycleMemory.copy (memory : CycleMemory) (index : Nat) (value : DataValue) : DataValue :=
  if memory.copied index then value else default

def DataSetWriterSample.cleared : DataSetWriterSample := ⟨false, default⟩

def keyFrameFields (mask : BitVec 32) (sample : Id → DataValue) (memory : CycleMemory) :
    List (DataSetField Id) → Nat → List DataValue → List DataSetWriterSample →
      Option (List DataValue × List DataSetWriterSample)
  | [], _, dataSetFields, lastSamples => some (dataSetFields, lastSamples)
  | dsf :: rest, counter, dataSetFields, lastSamples =>
    if counter < dataSetFields.length ∧ counter < lastSamples.length then
      let dfv := (sample dsf.identifier).deactivate mask
      keyFrameFields mask sample memory rest (counter + 1) (dataSetFields.set counter dfv)
        (lastSamples.modify counter fun last => { last with value := memory.copy counter dfv })
    else none

/-- `UA_PubSubDataSetWriter_generateKeyFrameMessage`. Nothing looks at the status. -/
def generateKeyFrameMessage (dataSet : PublishedDataSet Id) (sample : Id → DataValue)
    (memory : CycleMemory) (header : DataSetMessageHeader) (writer : DataSetWriter Id) :
    Option (DataSetMessage × DataSetWriter Id) :=
  let header := { header with dataSetMessageValid := true }
  if !memory.fields then some (⟨header, .dataKeyFrame dataSet.fieldSize []⟩, writer)
  else
    (keyFrameFields writer.config.dataSetFieldContentMask sample memory dataSet.fields 0
      (List.replicate dataSet.fieldSize.toNat default) writer.lastSamples).map
      fun (dataSetFields, lastSamples) =>
        (⟨header, .dataKeyFrame dataSet.fieldSize dataSetFields⟩, { writer with lastSamples })

def deltaFrameChanges (env : TypeEnv) (sample : Id → DataValue) (memory : CycleMemory) :
    List (DataSetField Id) → Nat → BitVec 16 → List DataSetWriterSample →
      Option (BitVec 16 × List DataSetWriterSample)
  | [], _, fieldCount, lastSamples => some (fieldCount, lastSamples)
  | dsf :: rest, counter, fieldCount, lastSamples =>
    match lastSamples[counter]? with
    | none => none
    | some last =>
      let value := sample dsf.identifier
      if valueChangedVariant env last.value.value value.value (memory.compared counter) then
        deltaFrameChanges env sample memory rest (counter + 1) (fieldCount + 1)
          (lastSamples.set counter ⟨true, value⟩)
      else
        deltaFrameChanges env sample memory rest (counter + 1) fieldCount
          (lastSamples.set counter { last with valueChanged := false })

/-- The loop over all samples that collects those that changed, into an array of
`fieldCount` elements. -/
def deltaFrameFields (mask : BitVec 32) (memory : CycleMemory) (fieldCount : Nat) :
    List Nat → List DeltaFrameField → List DataSetWriterSample →
      Option (List DeltaFrameField × List DataSetWriterSample)
  | [], deltaFields, lastSamples => some (deltaFields, lastSamples)
  | i :: rest, deltaFields, lastSamples =>
    match lastSamples[i]? with
    | none => none
    | some last =>
      if !last.valueChanged then
        deltaFrameFields mask memory fieldCount rest deltaFields lastSamples
      else if deltaFields.length < fieldCount then
        deltaFrameFields mask memory fieldCount rest (deltaFields ++
            [⟨BitVec.ofNat 16 i, (memory.copy i last.value).deactivateDelta mask⟩])
          (lastSamples.set i { last with valueChanged := false })
      else none

def deltaFrameHeader : DataSetMessageHeader :=
  { (default : DataSetMessageHeader) with dataSetMessageValid := true }

/-- `UA_PubSubDataSetWriter_generateDeltaFrameMessage`. Nothing looks at the status. -/
def generateDeltaFrameMessage (env : TypeEnv) (dataSet : PublishedDataSet Id)
    (sample : Id → DataValue) (memory : CycleMemory) (writer : DataSetWriter Id) :
    Option (DataSetMessage × DataSetWriter Id) :=
  match deltaFrameChanges env sample memory dataSet.fields 0 0 writer.lastSamples with
  | none => none
  | some (fieldCount, lastSamples) =>
    if !memory.fields then
      some (⟨deltaFrameHeader, .dataDeltaFrame fieldCount []⟩, { writer with lastSamples })
    else
      (deltaFrameFields writer.config.dataSetFieldContentMask memory fieldCount.toNat
        (List.range dataSet.fieldSize.toNat) [] lastSamples).map fun (deltaFields, lastSamples) =>
          (⟨deltaFrameHeader, .dataDeltaFrame fieldCount deltaFields⟩, { writer with lastSamples })

open DataSetFieldContentMask in
def DataSetWriterConfig.fieldEncoding (config : DataSetWriterConfig) : FieldEncoding :=
  if config.dataSetFieldContentMask &&& rawDataEncoding ≠ 0 then .rawData
  else if config.dataSetFieldContentMask &&&
      (sourceTimestamp ||| serverPicoSeconds ||| sourcePicoSeconds ||| statusCode) ≠ 0 then
    .dataValue
  else .variant

open UadpDataSetMessageContentMask in
def DataSetWriter.header (writer : DataSetWriter Id) (version : ConfigurationVersion)
    (now : BitVec 64) : DataSetMessageHeader :=
  let mask := writer.config.dataSetMessageContentMask.getD UadpDataSetMessageContentMask.default
  { dataSetMessageValid := false
    fieldEncoding := writer.config.fieldEncoding
    dataSetMessageSequenceNr :=
      keepWhen mask sequenceNumber (some writer.actualDataSetMessageSequenceCount)
    timestamp := keepWhen mask timestamp (some now)
    picoSeconds := none
    status := none
    configVersionMajorVersion := keepWhen mask majorVersion (some version.majorVersion)
    configVersionMinorVersion := keepWhen mask minorVersion (some version.minorVersion) }

def DataSetWriter.clearSamples (writer : DataSetWriter Id) (fieldSize : BitVec 16) :
    DataSetWriter Id :=
  { writer with
    lastSamplesCount := fieldSize.toNat
    lastSamples := writer.lastSamples.mapIdx fun index last =>
      if index < writer.lastSamplesCount then { last with value := default } else last }

/-- `UA_DataSetWriter_generateDataSetMessage` for the data set that the writer is connected to. -/
def DataSetWriter.generateDataSetMessage (env : TypeEnv) (dataSet : PublishedDataSet Id)
    (sample : Id → DataValue) (now : BitVec 64) (memory : CycleMemory)
    (dataSetWriter : DataSetWriter Id) :
    Option (StatusCode × DataSetMessage × DataSetWriter Id) :=
  let header := dataSetWriter.header dataSet.configurationVersion now
  let writer := { dataSetWriter with
    actualDataSetMessageSequenceCount := dataSetWriter.actualDataSetMessageSequenceCount + 1 }
  if writer.connectedDataSetVersion ≠ dataSet.configurationVersion then
    -- the old samples are deleted up to the number that is stored
    if writer.lastSamples.length < writer.lastSamplesCount then none
    else if !memory.grown then
      some (badOutOfMemory, ⟨header, default⟩, writer.clearSamples dataSet.fieldSize)
    else
      (generateKeyFrameMessage dataSet sample memory header { writer with
          lastSamplesCount := dataSet.fieldSize.toNat
          lastSamples := List.replicate dataSet.fieldSize.toNat .cleared
          connectedDataSetVersion := dataSet.configurationVersion }).map
        fun (message, writer) => (good, message, { writer with deltaFrameCounter := 0 })
  else if dataSet.fieldSize.toNat > 1 ∧ writer.deltaFrameCounter.toNat > 0 ∧
      writer.deltaFrameCounter.toNat ≤ writer.config.keyFrameCount.toNat then
    (generateDeltaFrameMessage env dataSet sample memory writer).map fun (message, writer) =>
      (good, message, { writer with deltaFrameCounter := writer.deltaFrameCounter + 1 })
  else
    (generateKeyFrameMessage dataSet sample memory header
      { writer with deltaFrameCounter := 1 }).map fun (message, writer) => (good, message, writer)

end OpcUa
