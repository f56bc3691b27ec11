import OpcUa.DataSetMessageCore
import OpcUa.Library.SwapRemove

/-!
The PubSub configuration of `ua_pubsub_manager.c` and `ua_pubsub.c`: connections with writer
groups with data set writers, and published data sets with fields, with delta frames enabled.

An entity is found by its identifier, and what the source changes through the pointer that it
found is changed here in the entity with that identifier. New identifiers, the clock and the
outcomes of allocations, deep copies and callback registrations are inputs. The names, the
properties and the transport settings of the configurations are left out.
-/

namespace OpcUa

open StatusCode SwapRemove

structure ConfigurationVersion where
  majorVersion : BitVec 32
  minorVersion : BitVec 32
deriving DecidableEq, Repr

inductive DataSetFieldType where
  | variable
  | event
deriving DecidableEq, Repr

structure DataSetFieldConfig where
  dataSetFieldType : DataSetFieldType
  promotedField : Bool
deriving DecidableEq, Repr

structure DataSetField (Id : Type) where
  config : DataSetFieldConfig
  identifier : Id
  publishedDataSet : Id
deriving DecidableEq, Repr

inductive PublishedDataSetType where
  | publishedItems
  | publishedEvents
  | publishedItemsTemplate
  | publishedEventsTemplate
deriving DecidableEq, Repr

structure PublishedDataSet (Id : Type) where
  publishedDataSetType : PublishedDataSetType
  configurationVersion : ConfigurationVersion
  fields : List (DataSetField Id)
  identifier : Id
  fieldSize : BitVec 16
  promotedFieldsCount : BitVec 16
deriving DecidableEq, Repr

structure DataSetWriterSample where
  valueChanged : Bool
  value : DataValue
deriving Repr

/-- The content mask is `none` where the message settings are not those of UADP. -/
structure DataSetWriterConfig where
  dataSetFieldContentMask : BitVec 32
  keyFrameCount : BitVec 32
  dataSetMessageContentMask : Option (BitVec 32)
deriving DecidableEq, Repr

/-- The number of samples and the samples that are allocated are separate, as in the source. -/
structure DataSetWriter (Id : Type) where
  config : DataSetWriterConfig
  identifier : Id
  linkedWriterGroup : Id
  connectedDataSet : Id
  connectedDataSetVersion : ConfigurationVersion
  deltaFrameCounter : BitVec 16
  lastSamplesCount : Nat
  lastSamples : List DataSetWriterSample
  actualDataSetMessageSequenceCount : BitVec 16
deriving Repr

inductive PubSubEncodingType where
  | binary
  | json
  | uadp
deriving DecidableEq, Repr

structure WriterGroupConfig where
  encodingMimeType : PubSubEncodingType
  maxEncapsulatedDataSetMessageCount : BitVec 16
deriving DecidableEq, Repr

structure WriterGroup (Id : Type) where
  config : WriterGroupConfig
  identifier : Id
  linkedConnection : Id
  writers : List (DataSetWriter Id)
  writersCount : BitVec 32
deriving Repr

structure PubSubConnection (Id : Type) where
  identifier : Id
  writerGroups : List (WriterGroup Id)
deriving Repr

/-- The detached groups belong to a connection that is gone. Their callbacks are still
registered. -/
structure PubSubManager (Id : Type) where
  connections : List (PubSubConnection Id)
  publishedDataSets : List (PublishedDataSet Id)
  detached : List (WriterGroup Id)
deriving Repr

def DataSetFieldConfig.copyStatus (config : DataSetFieldConfig) : StatusCode :=
  match config.dataSetFieldType with
  | .variable => good
  | .event => badNotSupported

def PubSubConnection.mapGroups {Id : Type} (change : WriterGroup Id → WriterGroup Id)
    (connection : PubSubConnection Id) : PubSubConnection Id :=
  { connection with writerGroups := connection.writerGroups.map change }

namespace PubSubManager

variable {Id : Type}

def empty : PubSubManager Id := ⟨[], [], []⟩

def writerGroups (manager : PubSubManager Id) : List (WriterGroup Id) :=
  manager.connections.flatMap (·.writerGroups)

def writers (manager : PubSubManager Id) : List (DataSetWriter Id) :=
  manager.writerGroups.flatMap (·.writers)

def fields (manager : PubSubManager Id) : List (DataSetField Id) :=
  manager.publishedDataSets.flatMap (·.fields)

def mapGroups (change : WriterGroup Id → WriterGroup Id) (manager : PubSubManager Id) :
    PubSubManager Id :=
  { manager with connections := manager.connections.map (·.mapGroups change) }

def mapDataSets (change : PublishedDataSet Id → PublishedDataSet Id) (manager : PubSubManager Id) :
    PubSubManager Id :=
  { manager with publishedDataSets := manager.publishedDataSets.map change }

variable [DecidableEq Id]

section

variable (manager : PubSubManager Id) (identifier : Id)

def findConnectionById : Option (PubSubConnection Id) :=
  manager.connections.find? (·.identifier = identifier)

def findWGById : Option (WriterGroup Id) :=
  manager.writerGroups.find? (·.identifier = identifier)

def findDSWById : Option (DataSetWriter Id) :=
  manager.writers.find? (·.identifier = identifier)

def findPDSById : Option (PublishedDataSet Id) :=
  manager.publishedDataSets.find? (·.identifier = identifier)

def findDSFById : Option (DataSetField Id) :=
  manager.fields.find? (·.identifier = identifier)

end

end PubSubManager

variable {Id : Type} [DecidableEq Id]

structure DataSetFieldResult where
  result : StatusCode
  configurationVersion : ConfigurationVersion
deriving DecidableEq, Repr

def PublishedDataSet.addField (publishedDataSet : PublishedDataSet Id) (now : BitVec 32)
    (newField : DataSetField Id) : PublishedDataSet Id :=
  { publishedDataSet with
    configurationVersion := { publishedDataSet.configurationVersion with majorVersion := now }
    fields := newField :: publishedDataSet.fields
    promotedFieldsCount := if newField.config.promotedField
      then publishedDataSet.promotedFieldsCount + 1 else publishedDataSet.promotedFieldsCount
    fieldSize := publishedDataSet.fieldSize + 1 }

/-- A field is unlinked wherever it is, and the data set that it names counts it out. -/
def PublishedDataSet.removeField (parent : Id) (now : BitVec 32) (field : DataSetField Id)
    (dataSet : PublishedDataSet Id) : PublishedDataSet Id :=
  { dataSet with
    fields := dataSet.fields.filter (·.identifier ≠ field.identifier)
    fieldSize := if dataSet.identifier = parent then dataSet.fieldSize - 1 else dataSet.fieldSize
    promotedFieldsCount := if dataSet.identifier = parent ∧ field.config.promotedField
      then dataSet.promotedFieldsCount - 1 else dataSet.promotedFieldsCount
    configurationVersion := if dataSet.identifier = parent
      then { dataSet.configurationVersion with majorVersion := now }
      else dataSet.configurationVersion }

namespace PubSubManager

def addDataSetField (manager : PubSubManager Id) (publishedDataSet : Id)
    (fieldConfig : Option DataSetFieldConfig) (memory : Bool) (now : BitVec 32) (identifier : Id) :
    DataSetFieldResult × PubSubManager Id :=
  match fieldConfig with
  | none => (⟨badInvalidArgument, ⟨0, 0⟩⟩, manager)
  | some config =>
    match manager.findPDSById publishedDataSet with
    | none => (⟨badNotFound, ⟨0, 0⟩⟩, manager)
    | some currentDataSet =>
      if currentDataSet.publishedDataSetType ≠ .publishedItems then
        (⟨badNotImplemented, ⟨0, 0⟩⟩, manager)
      else if !memory then (⟨badInternalError, ⟨0, 0⟩⟩, manager)
      else
        (⟨config.copyStatus, { currentDataSet.configurationVersion with majorVersion := now }⟩,
          manager.mapDataSets fun dataSet =>
            if dataSet.identifier = currentDataSet.identifier then
              dataSet.addField now ⟨config, identifier, currentDataSet.identifier⟩
            else dataSet)

def removeDataSetField (manager : PubSubManager Id) (dsf : Id) (now : BitVec 32) :
    DataSetFieldResult × PubSubManager Id :=
  match manager.findDSFById dsf with
  | none => (⟨badNotFound, ⟨0, 0⟩⟩, manager)
  | some currentField =>
    match manager.findPDSById currentField.publishedDataSet with
    | none => (⟨badNotFound, ⟨0, 0⟩⟩, manager)
    | some parentPublishedDataSet =>
      (⟨good, { parentPublishedDataSet.configurationVersion with majorVersion := now }⟩,
        manager.mapDataSets (.removeField parentPublishedDataSet.identifier now currentField))

end PubSubManager

/-- The store of the last samples is allocated with the number of samples that the cleared writer
has, which is zero, and the number is set afterwards. -/
def PublishedDataSet.newWriter (dataSet : PublishedDataSet Id) (config : DataSetWriterConfig)
    (identifier linkedWriterGroup : Id) : DataSetWriter Id :=
  { config, identifier, linkedWriterGroup
    connectedDataSet := dataSet.identifier
    connectedDataSetVersion := dataSet.configurationVersion
    deltaFrameCounter := 0
    lastSamplesCount := dataSet.fieldSize.toNat
    lastSamples := []
    actualDataSetMessageSequenceCount := 0 }

def WriterGroup.addWriter (group : WriterGroup Id) (newDataSetWriter : DataSetWriter Id) :
    WriterGroup Id :=
  { group with
    writers := newDataSetWriter :: group.writers
    writersCount := group.writersCount + 1 }

/-- A writer is unlinked wherever it is, and the group that it names counts it out. -/
def WriterGroup.removeWriter (linkedWriterGroup : Id) (dataSetWriter : DataSetWriter Id)
    (group : WriterGroup Id) : WriterGroup Id :=
  { group with
    writers := group.writers.filter (·.identifier ≠ dataSetWriter.identifier)
    writersCount := if group.identifier = linkedWriterGroup
      then group.writersCount - 1 else group.writersCount }

namespace PubSubManager

section

variable (manager : PubSubManager Id)

def addDataSetWriter (writerGroup dataSet : Id) (dataSetWriterConfig : Option DataSetWriterConfig)
    (memory : Bool) (copied : StatusCode) (samplesMemory : Bool) (identifier : Id) :
    StatusCode × PubSubManager Id :=
  match dataSetWriterConfig with
  | none => (badInvalidArgument, manager)
  | some config =>
    match manager.findPDSById dataSet with
    | none => (badNotFound, manager)
    | some currentDataSet =>
      match manager.findWGById writerGroup with
      | none => (badNotFound, manager)
      | some group =>
        if !memory || !samplesMemory then (badOutOfMemory, manager)
        else
          (copied, manager.mapGroups fun other =>
            if other.identifier = group.identifier then
              other.addWriter (currentDataSet.newWriter config identifier group.identifier)
            else other)

def removeDataSetWriter (dsw : Id) : StatusCode × PubSubManager Id :=
  match manager.findDSWById dsw with
  | none => (badNotFound, manager)
  | some dataSetWriter =>
    match manager.findWGById dataSetWriter.linkedWriterGroup with
    | none => (badNotFound, manager)
    | some linkedWriterGroup =>
      (good, manager.mapGroups (.removeWriter linkedWriterGroup.identifier dataSetWriter))

/-- `UA_Server_addWriterGroup`. The group is added whatever the copy and the registration of the
publish callback say. -/
def addWriterGroup (connection : Id) (writerGroupConfig : Option WriterGroupConfig) (memory : Bool)
    (copied registered : StatusCode) (identifier : Id) : StatusCode × PubSubManager Id :=
  match writerGroupConfig with
  | none => (badInvalidArgument, manager)
  | some config =>
    match manager.findConnectionById connection with
    | none => (badNotFound, manager)
    | some currentConnectionContext =>
      if !memory then (badOutOfMemory, manager)
      else
        (copied ||| registered, { manager with
            connections := manager.connections.map fun other =>
              if other.identifier = currentConnectionContext.identifier then
                { other with
                  writerGroups :=
                    ⟨config, identifier, currentConnectionContext.identifier, [], 0⟩ ::
                      other.writerGroups }
              else other })

/-- `UA_WriterGroup_deleteMembers`. The statuses are ignored. -/
def deleteGroupMembers (group : WriterGroup Id) : PubSubManager Id :=
  group.writers.foldl (fun manager writer => (manager.removeDataSetWriter writer.identifier).2)
    manager

def unlinkGroup (identifier : Id) : PubSubManager Id :=
  { manager with
    connections := manager.connections.map fun connection =>
      { connection with
        writerGroups := connection.writerGroups.filter (·.identifier ≠ identifier) } }

def removeWriterGroup (writerGroup : Id) (unregistered : Bool) : StatusCode × PubSubManager Id :=
  match manager.findWGById writerGroup with
  | none => (badNotFound, manager)
  | some group =>
    match manager.findConnectionById group.linkedConnection with
    | none => (badNotFound, manager)
    | some _ =>
      if !unregistered then (badInternalError, manager)
      else (good, (manager.deleteGroupMembers group).unlinkGroup writerGroup)

end

structure ConnectionSetup where
  transportLayer : Bool
  memory : Bool
  copied : Bool
  grown : Bool
  channel : Bool
deriving DecidableEq, Repr

def addPubSubConnection (manager : PubSubManager Id) (setup : ConnectionSetup) (identifier : Id) :
    StatusCode × PubSubManager Id :=
  if !setup.transportLayer then (badNotFound, manager)
  else if !setup.memory || !setup.copied || !setup.grown then (badOutOfMemory, manager)
  else if !setup.channel then (badInternalError, manager)
  else (good, { manager with connections := manager.connections ++ [⟨identifier, []⟩] })

def deleteConnectionMembers (manager : PubSubManager Id) (connection : PubSubConnection Id)
    (unregistered : Id → Bool) : PubSubManager Id :=
  connection.writerGroups.foldl (fun manager group =>
    (manager.removeWriterGroup group.identifier (unregistered group.identifier)).2) manager

/-- `UA_Server_removePubSubConnection`. The groups that are left lose their connection. The result
is `none` where the array is lost: its pointer is null and its size is not zero. -/
def removePubSubConnection (manager : PubSubManager Id) (connection : Id)
    (unregistered : Id → Bool) (shrunk : Bool) : Option (StatusCode × PubSubManager Id) :=
  match manager.findConnectionById connection with
  | none => some (badNotFound, manager)
  | some currentConnection =>
    let connectionIndex :=
      manager.connections.findIdx fun other => decide (other.identifier = connection)
    let emptied := manager.deleteConnectionMembers currentConnection unregistered
    let connections := swapRemove emptied.connections connectionIndex
    if connections.isEmpty || shrunk then
      some (good, { emptied with
          connections
          detached := emptied.detached ++
            (emptied.connections[connectionIndex]?.elim [] (·.writerGroups)) })
    else none

structure AddPublishedDataSetResult where
  addResult : StatusCode
  configurationVersion : ConfigurationVersion
deriving DecidableEq, Repr

section

variable (manager : PubSubManager Id)

/-- `UA_Server_addPublishedDataSet`. The version of the result is read from the clock. The one of
the data set stays zero. -/
def addPublishedDataSet (publishedDataSetConfig : Option PublishedDataSetType) (copied grown : Bool)
    (now : ConfigurationVersion) (identifier : Id) : AddPublishedDataSetResult × PubSubManager Id :=
  match publishedDataSetConfig with
  | none => (⟨badInvalidArgument, ⟨0, 0⟩⟩, manager)
  | some publishedDataSetType =>
    if publishedDataSetType ≠ .publishedItems then (⟨badInvalidArgument, ⟨0, 0⟩⟩, manager)
    else if !copied then (⟨badInternalError, ⟨0, 0⟩⟩, manager)
    else if !grown then (⟨badOutOfMemory, ⟨0, 0⟩⟩, manager)
    else
      (⟨good, now⟩, { manager with
          publishedDataSets := manager.publishedDataSets ++
            [⟨publishedDataSetType, ⟨0, 0⟩, [], identifier, 0, 0⟩] })

/-- The loop that is to remove the writers of a data set. It looks at the identifier of the
writer itself. -/
def removeReferencedWriters (publishedDataSet : Id) : PubSubManager Id :=
  manager.writers.foldl (fun left currentWriter =>
    if currentWriter.identifier = publishedDataSet then
      (left.removeDataSetWriter currentWriter.identifier).2 else left) manager

def deleteDataSetMembers (publishedDataSet : PublishedDataSet Id) (now : Id → BitVec 32) :
    PubSubManager Id :=
  publishedDataSet.fields.foldl (fun manager field =>
    (manager.removeDataSetField field.identifier (now field.identifier)).2) manager

def removePublishedDataSet (pds : Id) (now : Id → BitVec 32) (shrunk : Bool) :
    Option (StatusCode × PubSubManager Id) :=
  match manager.findPDSById pds with
  | none => some (badNotFound, manager)
  | some publishedDataSet =>
    let publishedDataSetIndex :=
      manager.publishedDataSets.findIdx fun other => decide (other.identifier = pds)
    let emptied := (manager.removeReferencedWriters publishedDataSet.identifier).deleteDataSetMembers
      publishedDataSet now
    let publishedDataSets := swapRemove emptied.publishedDataSets publishedDataSetIndex
    if publishedDataSets.isEmpty || shrunk then some (good, { emptied with publishedDataSets })
    else none

end

end PubSubManager

end OpcUa
