import OpcUa.Library.Dependents
import OpcUa.PubSubCore

/-!
The integrity of the PubSub configuration over every sequence of operations. The entities of a
configuration are the rows of one table, and what contains an entity is what it depends on.
-/

namespace OpcUa

open StatusCode Dependents SwapRemove

open scoped List

inductive EntityKind where
  | connection
  | writerGroup
  | dataSetWriter
  | publishedDataSet
  | dataSetField
deriving DecidableEq, Repr

inductive Entity (Id : Type) where
  | connection (identifier : Id)
  | writerGroup (identifier linkedConnection owner : Id)
  | dataSetWriter (writer : DataSetWriter Id) (group owner : Id)
  | publishedDataSet (identifier : Id)
  | dataSetField (field : DataSetField Id) (dataSet : Id)

variable {Id : Type}

namespace Entity

def key : Entity Id → EntityKind × Id
  | connection identifier => (.connection, identifier)
  | writerGroup identifier _ _ => (.writerGroup, identifier)
  | dataSetWriter writer _ _ => (.dataSetWriter, writer.identifier)
  | publishedDataSet identifier => (.publishedDataSet, identifier)
  | dataSetField field _ => (.dataSetField, field.identifier)

def references : Entity Id → List (EntityKind × Id)
  | connection _ => []
  | writerGroup _ _ owner => [(.connection, owner)]
  | dataSetWriter writer group owner =>
    [(.writerGroup, group), (.connection, owner), (.publishedDataSet, writer.connectedDataSet)]
  | publishedDataSet _ => []
  | dataSetField _ dataSet => [(.publishedDataSet, dataSet)]

def schema : Schema (Entity Id) EntityKind Id := ⟨key, references⟩

def Linked : Entity Id → Prop
  | writerGroup _ linkedConnection owner => linkedConnection = owner
  | dataSetWriter writer group _ => writer.linkedWriterGroup = group
  | dataSetField field dataSet => field.publishedDataSet = dataSet
  | _ => True

end Entity

attribute [local simp] Schema.dependsOn Schema.ofKind Schema.identifier Entity.schema Entity.key
  Entity.references

def WriterGroup.entities (owner : Id) (group : WriterGroup Id) : List (Entity Id) :=
  .writerGroup group.identifier group.linkedConnection owner ::
    group.writers.map (.dataSetWriter · group.identifier owner)

def PubSubConnection.entities (connection : PubSubConnection Id) : List (Entity Id) :=
  .connection connection.identifier ::
    connection.writerGroups.flatMap (·.entities connection.identifier)

def PublishedDataSet.entities (dataSet : PublishedDataSet Id) : List (Entity Id) :=
  .publishedDataSet dataSet.identifier :: dataSet.fields.map (.dataSetField · dataSet.identifier)

namespace PubSubManager

variable {group : WriterGroup Id} {connection : PubSubConnection Id} {writer : DataSetWriter Id}
  {dataSet : PublishedDataSet Id} {field : DataSetField Id} {identifier : Id} {index : Nat}
variable {α β Element : Type} {change : WriterGroup Id → WriterGroup Id} {other : WriterGroup Id}
  {dsw dsf : Id} {middle : PubSubManager Id} {unregistered : Id → Bool} {shrunk : Bool}
  {status : StatusCode}

def entities (manager : PubSubManager Id) : List (Entity Id) :=
  manager.connections.flatMap (·.entities) ++ manager.publishedDataSets.flatMap (·.entities)

structure Sound (manager : PubSubManager Id) : Prop where
  connectedDataSet : ∀ writer ∈ manager.writers, ∃ dataSet ∈ manager.publishedDataSets,
    dataSet.identifier = writer.connectedDataSet
  linkedConnection : ∀ connection ∈ manager.connections, ∀ group ∈ connection.writerGroups,
    group.linkedConnection = connection.identifier
  linkedWriterGroup : ∀ group ∈ manager.writerGroups, ∀ writer ∈ group.writers,
    writer.linkedWriterGroup = group.identifier
  publishedDataSet : ∀ dataSet ∈ manager.publishedDataSets, ∀ field ∈ dataSet.fields,
    field.publishedDataSet = dataSet.identifier
  writersCount : ∀ group ∈ manager.writerGroups, group.writersCount.toNat = group.writers.length
  fieldSize : ∀ dataSet ∈ manager.publishedDataSets, dataSet.fieldSize.toNat = dataSet.fields.length
  promotedFieldsCount : ∀ dataSet ∈ manager.publishedDataSets,
    dataSet.promotedFieldsCount.toNat = dataSet.fields.countP (·.config.promotedField)
  attached : manager.detached = []

structure Counted (manager : PubSubManager Id) : Prop where
  writersCount : ∀ group ∈ manager.writerGroups, group.writersCount.toNat = group.writers.length
  fieldSize : ∀ dataSet ∈ manager.publishedDataSets, dataSet.fieldSize.toNat = dataSet.fields.length
  promotedFieldsCount : ∀ dataSet ∈ manager.publishedDataSets,
    dataSet.promotedFieldsCount.toNat = dataSet.fields.countP (·.config.promotedField)

structure Integrity (manager : PubSubManager Id) : Prop where
  consistent : Consistent Entity.schema manager.entities
  linked : ∀ entity ∈ manager.entities, entity.Linked
  counted : manager.Counted
  attached : manager.detached = []

variable {manager after : PubSubManager Id}

/-! The rows of the table -/

theorem mem_writerGroups : group ∈ manager.writerGroups ↔
      ∃ connection ∈ manager.connections, group ∈ connection.writerGroups :=
  List.mem_flatMap

section

variable (member : connection ∈ manager.connections)
include member

theorem connection_entity : .connection connection.identifier ∈ manager.entities :=
  List.mem_append_left _ (List.mem_flatMap.mpr ⟨connection, member, List.mem_cons_self⟩)

theorem group_entity (inside : group ∈ connection.writerGroups) :
    .writerGroup group.identifier group.linkedConnection connection.identifier ∈
      manager.entities := by
  refine List.mem_append_left _ (List.mem_flatMap.mpr ⟨connection, member, ?_⟩)
  exact List.mem_cons_of_mem _ (List.mem_flatMap.mpr ⟨group, inside, List.mem_cons_self⟩)

theorem writer_entity (inside : group ∈ connection.writerGroups) (present : writer ∈ group.writers)
    :
    .dataSetWriter writer group.identifier connection.identifier ∈ manager.entities := by
  refine List.mem_append_left _ (List.mem_flatMap.mpr ⟨connection, member, ?_⟩)
  refine List.mem_cons_of_mem _ (List.mem_flatMap.mpr ⟨group, inside, ?_⟩)
  exact List.mem_cons_of_mem _ (List.mem_map.mpr ⟨writer, present, rfl⟩)

end

theorem dataSet_entity (member : dataSet ∈ manager.publishedDataSets) :
    .publishedDataSet dataSet.identifier ∈ manager.entities :=
  List.mem_append_right _ (List.mem_flatMap.mpr ⟨dataSet, member, List.mem_cons_self⟩)

theorem field_entity (member : dataSet ∈ manager.publishedDataSets)
    (present : field ∈ dataSet.fields) :
    .dataSetField field dataSet.identifier ∈ manager.entities := by
  refine List.mem_append_right _ (List.mem_flatMap.mpr ⟨dataSet, member, ?_⟩)
  exact List.mem_cons_of_mem _ (List.mem_map.mpr ⟨field, present, rfl⟩)

theorem dataSet_of_entity (member : Entity.publishedDataSet identifier ∈ manager.entities) :
    ∃ dataSet ∈ manager.publishedDataSets, dataSet.identifier = identifier := by
  simp only [entities, PubSubConnection.entities, WriterGroup.entities, PublishedDataSet.entities,
    List.mem_append, List.mem_flatMap, List.mem_cons, List.mem_map] at member
  grind

theorem Integrity.sound (integrity : manager.Integrity) : manager.Sound where
  connectedDataSet writer member := by
    obtain ⟨group, inside, present⟩ := List.mem_flatMap.mp member
    obtain ⟨connection, here, inside⟩ := mem_writerGroups.mp inside
    have row := writer_entity here inside present
    obtain ⟨target, found, same⟩ := integrity.consistent.closed _ row
      (.publishedDataSet, writer.connectedDataSet) (by simp)
    cases target with
    | publishedDataSet identifier =>
      obtain ⟨dataSet, known, names⟩ := dataSet_of_entity found
      exact ⟨dataSet, known, names.trans (congrArg Prod.snd same)⟩
    | connection => cases congrArg Prod.fst same
    | writerGroup => cases congrArg Prod.fst same
    | dataSetWriter => cases congrArg Prod.fst same
    | dataSetField => cases congrArg Prod.fst same
  linkedConnection connection member group inside :=
    integrity.linked _ (group_entity member inside)
  linkedWriterGroup group member writer present := by
    obtain ⟨connection, here, inside⟩ := mem_writerGroups.mp member
    exact integrity.linked _ (writer_entity here inside present)
  publishedDataSet dataSet member field present :=
    integrity.linked _ (field_entity member present)
  writersCount := integrity.counted.writersCount
  fieldSize := integrity.counted.fieldSize
  promotedFieldsCount := integrity.counted.promotedFieldsCount
  attached := integrity.attached

theorem flatMap_nil_right (elements : List α) : (elements.flatMap fun _ => ([] : List β)) = [] :=
  List.flatMap_eq_nil_iff.mpr fun _ _ => rfl

attribute [local simp] entities writers writerGroups fields PubSubConnection.entities
  WriterGroup.entities PublishedDataSet.entities List.filterMap_flatMap List.filterMap_map
  List.map_flatMap List.flatMap_assoc Function.comp_def flatMap_nil_right

theorem ofKind_connection (manager : PubSubManager Id) :
    manager.entities.filterMap (Entity.schema.ofKind .connection) =
      manager.connections.map (·.identifier) := by
  simp [List.map_eq_flatMap]

theorem ofKind_writerGroup (manager : PubSubManager Id) :
    manager.entities.filterMap (Entity.schema.ofKind .writerGroup) =
      manager.writerGroups.map (·.identifier) := by
  simp [List.map_eq_flatMap]

theorem ofKind_dataSetWriter (manager : PubSubManager Id) :
    manager.entities.filterMap (Entity.schema.ofKind .dataSetWriter) =
      manager.writers.map (·.identifier) := by
  simp

theorem ofKind_publishedDataSet (manager : PubSubManager Id) :
    manager.entities.filterMap (Entity.schema.ofKind .publishedDataSet) =
      manager.publishedDataSets.map (·.identifier) := by
  simp [List.map_eq_flatMap]

theorem ofKind_dataSetField (manager : PubSubManager Id) :
    manager.entities.filterMap (Entity.schema.ofKind .dataSetField) =
      manager.fields.map (·.identifier) := by
  simp

section

variable (integrity : manager.Integrity)
include integrity

theorem Integrity.groups_nodup : (manager.writerGroups.map (·.identifier)).Nodup := by
  rw [← ofKind_writerGroup]
  exact integrity.consistent.nodup_ofKind .writerGroup

theorem Integrity.writers_nodup (member : group ∈ manager.writerGroups) :
    (group.writers.map (·.identifier)).Nodup := by
  have all := integrity.consistent.nodup_ofKind .dataSetWriter
  rw [ofKind_dataSetWriter] at all
  exact all.sublist ((List.sublist_flatten_of_mem (List.mem_map_of_mem member)).map _)

theorem Integrity.dataSets_nodup : (manager.publishedDataSets.map (·.identifier)).Nodup := by
  rw [← ofKind_publishedDataSet]
  exact integrity.consistent.nodup_ofKind .publishedDataSet

theorem Integrity.fields_nodup (member : dataSet ∈ manager.publishedDataSets) :
    (dataSet.fields.map (·.identifier)).Nodup := by
  have all := integrity.consistent.nodup_ofKind .dataSetField
  rw [ofKind_dataSetField] at all
  exact all.sublist ((List.sublist_flatten_of_mem (List.mem_map_of_mem member)).map _)

end

theorem mem_writerGroups_mapGroups : group ∈ (manager.mapGroups change).writerGroups ↔
      ∃ before ∈ manager.writerGroups, change before = group := by
  simp only [mem_writerGroups, mapGroups, PubSubConnection.mapGroups, List.mem_map]
  grind

theorem Integrity.group_eq (integrity : manager.Integrity) {twin : DataSetWriter Id}
    (member : group ∈ manager.writerGroups) (present : writer ∈ group.writers)
    (elsewhere : other ∈ manager.writerGroups) (inside : twin ∈ other.writers)
    (same : twin.identifier = writer.identifier) : twin = writer ∧ other = group := by
  obtain ⟨connection, here, contains⟩ := mem_writerGroups.mp member
  obtain ⟨second, there, holds⟩ := mem_writerGroups.mp elsewhere
  have rows := integrity.consistent.row_eq (writer_entity there holds inside)
    (writer_entity here contains present) same
  injection rows with writers groups
  exact ⟨writers, List.inj_on_of_nodup_map integrity.groups_nodup elsewhere member groups⟩

variable [DecidableEq Id]

theorem mapGroups_entities (identifier : ∀ group, (change group).identifier = group.identifier)
    (linkedConnection : ∀ group, (change group).linkedConnection = group.linkedConnection)
    (writers : ∀ group, (change group).writers = group.writers.filter (·.identifier ≠ dsw))
    (manager : PubSubManager Id) :
    (manager.mapGroups change).entities = manager.entities.filter fun entity =>
      !Entity.schema.dependsOn (.dataSetWriter, dsw) entity := by
  simp [mapGroups, PubSubConnection.mapGroups, List.flatMap_map, List.filter_flatMap,
    List.filter_map, identifier, linkedConnection, writers]

theorem mapDataSets_entities {change : PublishedDataSet Id → PublishedDataSet Id}
    (identifier : ∀ dataSet, (change dataSet).identifier = dataSet.identifier)
    (fields : ∀ dataSet, (change dataSet).fields = dataSet.fields.filter (·.identifier ≠ dsf))
    (manager : PubSubManager Id) :
    (manager.mapDataSets change).entities = manager.entities.filter fun entity =>
      !Entity.schema.dependsOn (.dataSetField, dsf) entity := by
  simp [mapDataSets, List.flatMap_map, List.filter_flatMap, List.filter_map, identifier, fields]

structure Drops (key : EntityKind × Id) (manager after : PubSubManager Id) : Prop where
  integrity : after.Integrity
  removes : Removes (Entity.schema.dependsOn key) manager.entities after.entities

theorem Integrity.drops (integrity : manager.Integrity) {key : EntityKind × Id}
    (removes : Removes (Entity.schema.dependsOn key) manager.entities after.entities)
    (counted : after.Counted) (attached : after.detached = []) : Drops key manager after where
  integrity :=
    { consistent := integrity.consistent.removes_dependents removes
      linked := fun entity member => integrity.linked entity (removes.mem_iff.mp member).1
      counted, attached }
  removes := removes

theorem Integrity.drops_nothing (integrity : manager.Integrity) {key : EntityKind × Id}
    (missing : ∀ entity ∈ manager.entities, entity.key ≠ key) : Drops key manager manager where
  integrity := integrity
  removes := by
    apply Removes.refl
    intro entity member
    rw [Schema.dependsOn, Bool.or_eq_false_iff, decide_eq_false_iff_not, decide_eq_false_iff_not]
    refine ⟨missing entity member, ?_⟩
    intro reference
    obtain ⟨target, present, same⟩ := integrity.consistent.closed entity member key reference
    exact missing target present same

structure Removal (key : EntityKind × Id) (manager : PubSubManager Id)
    (outcome : StatusCode × PubSubManager Id) : Prop where
  drops : Drops key manager outcome.2
  fails : outcome.1 ≠ good → outcome.2 = manager

theorem Drops.succeeds {key : EntityKind × Id} (drops : Drops key manager after) :
    Removal key manager (good, after) := ⟨drops, fun failed => absurd rfl failed⟩

section

variable (integrity : manager.Integrity)
include integrity

theorem Integrity.unknown {kind : EntityKind} {name : Element → Id} {elements : List Element}
    {wanted : Id}
    (rows : manager.entities.filterMap (Entity.schema.ofKind kind) = elements.map name)
    (missing : elements.find? (name · = wanted) = none) :
    Removal (kind, wanted) manager (status, manager) where
  drops := integrity.drops_nothing fun _ member same =>
    find_none missing (rows ▸ Entity.schema.mem_ofKind member same)
  fails _ := rfl

theorem Integrity.writersCount_removed (member : group ∈ manager.writerGroups)
    (present : writer ∈ group.writers) (elsewhere : other ∈ manager.writerGroups) :
    (other.removeWriter group.identifier writer).writersCount.toNat =
      (other.removeWriter group.identifier writer).writers.length := by
  refine length_removed (by decide) (integrity.counted.writersCount other elsewhere)
    (integrity.writers_nodup elsewhere) (fun same => ?_) fun differs twin inside twice => ?_
  · rwa [List.inj_on_of_nodup_map integrity.groups_nodup elsewhere member same]
  · exact differs (congrArg _ (integrity.group_eq member present elsewhere inside twice).2)

theorem removeDataSetWriter_removal (dsw : Id) :
    Removal (.dataSetWriter, dsw) manager (manager.removeDataSetWriter dsw) := by
  rw [removeDataSetWriter]
  cases found : manager.findDSWById dsw with
  | none => exact integrity.unknown (ofKind_dataSetWriter manager) found
  | some writer =>
    obtain ⟨group, member, present, names⟩ := find_flatMap found
    have linked := integrity.sound.linkedWriterGroup group member writer present
    obtain ⟨parent, parentFound⟩ := find_isSome WriterGroup.identifier member linked.symm
    have parentNames := (find_some parentFound).2.trans linked
    dsimp only
    rw [findWGById, parentFound, ← names]
    dsimp only
    rw [parentNames]
    refine (integrity.drops (.of_eq (mapGroups_entities ?_ ?_ ?_ manager)) ?_
      integrity.attached).succeeds
    · exact fun _ => rfl
    · exact fun _ => rfl
    · exact fun _ => rfl
    · refine ⟨?_, integrity.counted.fieldSize, integrity.counted.promotedFieldsCount⟩
      intro changed inside
      obtain ⟨other, elsewhere, rfl⟩ := mem_writerGroups_mapGroups.mp inside
      exact integrity.writersCount_removed member present elsewhere

omit [DecidableEq Id] in
theorem Integrity.dataSet_eq {other : PublishedDataSet Id} {twin : DataSetField Id}
    (member : dataSet ∈ manager.publishedDataSets) (present : field ∈ dataSet.fields)
    (elsewhere : other ∈ manager.publishedDataSets) (inside : twin ∈ other.fields)
    (same : twin.identifier = field.identifier) : other = dataSet := by
  have rows := integrity.consistent.row_eq (field_entity elsewhere inside)
    (field_entity member present) same
  injection rows with fields dataSets
  exact List.inj_on_of_nodup_map integrity.dataSets_nodup elsewhere member dataSets

theorem Integrity.fields_removed {other : PublishedDataSet Id}
    (member : dataSet ∈ manager.publishedDataSets) (present : field ∈ dataSet.fields)
    (elsewhere : other ∈ manager.publishedDataSets) (now : BitVec 32) :
    (other.removeField dataSet.identifier now field).fieldSize.toNat =
        (other.removeField dataSet.identifier now field).fields.length ∧
      (other.removeField dataSet.identifier now field).promotedFieldsCount.toNat =
        (other.removeField dataSet.identifier now field).fields.countP
          (·.config.promotedField) := by
  have distinct := integrity.fields_nodup elsewhere
  have inside (same : other.identifier = dataSet.identifier) : field ∈ other.fields := by
    rwa [List.inj_on_of_nodup_map integrity.dataSets_nodup elsewhere member same]
  have outside (differs : other.identifier ≠ dataSet.identifier) :
      ∀ twin ∈ other.fields, twin.identifier ≠ field.identifier := fun twin listed twice =>
    differs (congrArg _ (integrity.dataSet_eq member present elsewhere listed twice))
  exact ⟨length_removed (by decide) (integrity.counted.fieldSize other elsewhere) distinct inside
      outside,
    counter_removed _ (by decide) (integrity.counted.promotedFieldsCount other elsewhere) distinct
      inside outside⟩

theorem removeDataSetField_removal (dsf : Id) (now : BitVec 32) :
    Removal (.dataSetField, dsf) manager
      ((manager.removeDataSetField dsf now).1.result, (manager.removeDataSetField dsf now).2) := by
  rw [removeDataSetField]
  cases found : manager.findDSFById dsf with
  | none => exact integrity.unknown (ofKind_dataSetField manager) found
  | some field =>
    obtain ⟨dataSet, member, present, names⟩ := find_flatMap found
    have linked := integrity.sound.publishedDataSet dataSet member field present
    obtain ⟨parent, parentFound⟩ := find_isSome PublishedDataSet.identifier member linked.symm
    have parentNames := (find_some parentFound).2.trans linked
    dsimp only
    rw [findPDSById, parentFound, ← names]
    dsimp only
    rw [parentNames]
    refine (integrity.drops (.of_eq (mapDataSets_entities ?_ ?_ manager)) ?_
      integrity.attached).succeeds
    · exact fun _ => rfl
    · exact fun _ => rfl
    · refine ⟨integrity.counted.writersCount, ?_, ?_⟩
      · intro changed inside
        obtain ⟨other, elsewhere, rfl⟩ := List.mem_map.mp inside
        exact (integrity.fields_removed member present elsewhere now).1
      · intro changed inside
        obtain ⟨other, elsewhere, rfl⟩ := List.mem_map.mp inside
        exact (integrity.fields_removed member present elsewhere now).2

/-! Removal of what contains others -/

theorem deleteGroupMembers_removes (group : WriterGroup Id) :
    (manager.deleteGroupMembers group).Integrity ∧
      Removes (fun entity => group.writers.any fun writer =>
        Entity.schema.dependsOn (.dataSetWriter, writer.identifier) entity)
        manager.entities (manager.deleteGroupMembers group).entities := by
  apply Removes.foldl _ integrity
  intro state holds writer _
  have drops := (removeDataSetWriter_removal holds writer.identifier).drops
  exact ⟨drops.integrity, drops.removes⟩

theorem deleteDataSetMembers_removes (dataSet : PublishedDataSet Id) (now : Id → BitVec 32) :
    (manager.deleteDataSetMembers dataSet now).Integrity ∧
      Removes (fun entity => dataSet.fields.any fun field =>
        Entity.schema.dependsOn (.dataSetField, field.identifier) entity)
        manager.entities (manager.deleteDataSetMembers dataSet now).entities := by
  apply Removes.foldl _ integrity
  intro state holds field _
  have drops := (removeDataSetField_removal holds field.identifier (now field.identifier)).drops
  exact ⟨drops.integrity, drops.removes⟩

end

theorem groupEntities_filter (group : WriterGroup Id) (owner identifier : Id) :
    ((group.entities owner).filter fun entity =>
      !Entity.schema.dependsOn (.writerGroup, identifier) entity) =
      if group.identifier = identifier then [] else group.entities owner := by
  by_cases same : group.identifier = identifier
  · simp [same]
  · simp [same, Ne.symm same]

omit [DecidableEq Id] in
theorem flatMap_filter (elements : List α) (keep : α → Bool) (rows : α → List β) :
    (elements.filter keep).flatMap rows =
      elements.flatMap fun element => if keep element then rows element else [] := by
  induction elements with
  | nil => rfl
  | cons first rest ih =>
    cases here : keep first <;> simp [here, ih]

theorem unlinkGroup_entities (manager : PubSubManager Id) (identifier : Id) :
    (manager.unlinkGroup identifier).entities = manager.entities.filter fun entity =>
      !Entity.schema.dependsOn (.writerGroup, identifier) entity := by
  have groups : ∀ connection : PubSubConnection Id, PubSubConnection.entities { connection with
        writerGroups := connection.writerGroups.filter (·.identifier ≠ identifier) } =
        connection.entities.filter fun entity =>
          !Entity.schema.dependsOn (.writerGroup, identifier) entity := by
    intro connection
    rw [PubSubConnection.entities, PubSubConnection.entities, flatMap_filter]
    rw [List.filter_cons_of_pos (by simp), List.filter_flatMap]
    congr 2
    funext group
    rw [groupEntities_filter]
    by_cases same : group.identifier = identifier <;> simp [same]
  have dataSets : ∀ dataSet : PublishedDataSet Id, (dataSet.entities.filter fun entity =>
        !Entity.schema.dependsOn (.writerGroup, identifier) entity) = dataSet.entities := by
    intro dataSet
    simp
  rw [entities, entities, List.filter_append, List.filter_flatMap, List.filter_flatMap]
  simp only [unlinkGroup, List.flatMap_map, groups, dataSets]

theorem unlinkGroup_drops (integrity : manager.Integrity) (identifier : Id) :
    Drops (.writerGroup, identifier) manager (manager.unlinkGroup identifier) := by
  refine integrity.drops (.of_eq (unlinkGroup_entities manager identifier)) ?_ integrity.attached
  constructor
  · intro group member
    apply integrity.counted.writersCount
    obtain ⟨connection, here, inside⟩ := mem_writerGroups.mp member
    obtain ⟨before, known, same⟩ := List.mem_map.mp here
    rw [← same] at inside
    exact mem_writerGroups.mpr ⟨before, known, List.mem_of_mem_filter inside⟩
  · exact integrity.counted.fieldSize
  · exact integrity.counted.promotedFieldsCount

theorem Drops.absorb {key : EntityKind × Id} {gone : Entity Id → Bool}
    (first : Removes gone manager.entities middle.entities) (second : Drops key middle after)
    (within : ∀ entity ∈ manager.entities, gone entity = true →
      Entity.schema.dependsOn key entity = true) : Drops key manager after where
  integrity := second.integrity
  removes := first.absorb second.removes within

section

variable (integrity : manager.Integrity)
include integrity

theorem removeWriterGroup_removal (writerGroup : Id) :
    Removal (.writerGroup, writerGroup) manager (manager.removeWriterGroup writerGroup true) := by
  rw [removeWriterGroup]
  cases found : manager.findWGById writerGroup with
  | none => exact integrity.unknown (ofKind_writerGroup manager) found
  | some group =>
    obtain ⟨member, names⟩ := find_some found
    obtain ⟨connection, here, inside⟩ := mem_writerGroups.mp member
    have linked := integrity.sound.linkedConnection connection here group inside
    obtain ⟨parent, parentFound⟩ := find_isSome PubSubConnection.identifier here linked.symm
    dsimp only
    rw [findConnectionById, parentFound]
    obtain ⟨kept, emptied⟩ := deleteGroupMembers_removes integrity group
    refine Drops.succeeds (.absorb emptied (unlinkGroup_drops kept writerGroup) ?_)
    intro entity present gone
    obtain ⟨writer, contained, depends⟩ := List.any_eq_true.mp gone
    have row := writer_entity here inside contained
    exact integrity.consistent.dependsOn_trans present row depends (by simp [names])

theorem deleteConnectionMembers_removes (connection : PubSubConnection Id)
    (removable : ∀ group ∈ connection.writerGroups, unregistered group.identifier = true) :
    (manager.deleteConnectionMembers connection unregistered).Integrity ∧
      Removes (fun entity => connection.writerGroups.any fun group =>
        Entity.schema.dependsOn (.writerGroup, group.identifier) entity)
        manager.entities (manager.deleteConnectionMembers connection unregistered).entities := by
  apply Removes.foldl _ integrity
  intro state holds group member
  rw [removable group member]
  have drops := (removeWriterGroup_removal holds group.identifier).drops
  exact ⟨drops.integrity, drops.removes⟩

end

omit [DecidableEq Id] in
theorem group_of_entity {linkedConnection owner : Id}
    (member : Entity.writerGroup identifier linkedConnection owner ∈ manager.entities) :
    ∃ connection ∈ manager.connections, connection.identifier = owner ∧
      ∃ group ∈ connection.writerGroups, group.identifier = identifier := by
  simp only [entities, PubSubConnection.entities, WriterGroup.entities, PublishedDataSet.entities,
    List.mem_append, List.mem_flatMap, List.mem_cons, List.mem_map] at member
  grind

theorem removeDataSetWriter_connections (manager : PubSubManager Id) (dsw : Id) :
    (manager.removeDataSetWriter dsw).2.connections.map (·.identifier) =
      manager.connections.map (·.identifier) := by
  rw [removeDataSetWriter]
  split
  · rfl
  split
  · rfl
  · simp [mapGroups, PubSubConnection.mapGroups]

theorem removeWriterGroup_connections (manager : PubSubManager Id) (writerGroup : Id)
    (unregistered : Bool) :
    (manager.removeWriterGroup writerGroup unregistered).2.connections.map (·.identifier) =
      manager.connections.map (·.identifier) := by
  rw [removeWriterGroup]
  split
  · rfl
  rename_i group _
  split
  · rfl
  split
  · rfl
  · have members : (manager.deleteGroupMembers group).connections.map (·.identifier) =
        manager.connections.map (·.identifier) := by
      refine List.foldlRecOn (motive := fun state : PubSubManager Id => state.connections.map _ = _)
        _ _ rfl fun state same writer _ => ?_
      exact (removeDataSetWriter_connections state writer.identifier).trans same
    simpa [unlinkGroup, Function.comp_def] using members

theorem deleteConnectionMembers_connections (manager : PubSubManager Id)
    (connection : PubSubConnection Id) (unregistered : Id → Bool) :
    (manager.deleteConnectionMembers connection unregistered).connections.map (·.identifier) =
      manager.connections.map (·.identifier) := by
  refine List.foldlRecOn (motive := fun state : PubSubManager Id => state.connections.map _ = _)
    _ _ rfl fun state same group _ => ?_
  exact (removeWriterGroup_connections state group.identifier _).trans same

theorem connection_removes (integrity : manager.Integrity)
    (found : manager.connections[index]? = some connection) :
    Removes (Entity.schema.dependsOn (.connection, connection.identifier)) manager.entities
      { manager with connections := swapRemove manager.connections index }.entities := by
  have split := swapRemove_perm found
  have distinct := integrity.consistent.nodup_ofKind .connection
  rw [ofKind_connection, ← (split.map _).nodup_iff, List.map_cons, List.nodup_cons] at distinct
  apply Removes.append
  · apply Removes.flatMap split
    · intro entity member
      simp only [PubSubConnection.entities, WriterGroup.entities, List.mem_cons, List.mem_flatMap,
        List.mem_map] at member
      rcases member with rfl | ⟨group, -, rfl | ⟨writer, -, rfl⟩⟩ <;> simp
    · intro other present entity member
      have differs : connection.identifier ≠ other.identifier :=
        fun same => distinct.1 (List.mem_map.mpr ⟨other, present, same.symm⟩)
      simp only [PubSubConnection.entities, WriterGroup.entities, List.mem_cons, List.mem_flatMap,
        List.mem_map] at member
      rcases member with rfl | ⟨group, -, rfl | ⟨writer, -, rfl⟩⟩ <;> simp [differs, differs.symm]
  · apply Removes.refl
    intro entity member
    obtain ⟨dataSet, -, listed⟩ := List.mem_flatMap.mp member
    rcases List.mem_cons.mp listed with rfl | listed
    · simp
    · obtain ⟨field, -, rfl⟩ := List.mem_map.mp listed
      simp

theorem dataSet_removes (integrity : manager.Integrity)
    (found : manager.publishedDataSets[index]? = some dataSet)
    (unused : ∀ writer ∈ manager.writers, writer.connectedDataSet ≠ dataSet.identifier) :
    Removes (Entity.schema.dependsOn (.publishedDataSet, dataSet.identifier)) manager.entities
      { manager with publishedDataSets := swapRemove manager.publishedDataSets index }.entities := by
  have split := swapRemove_perm found
  have distinct := integrity.dataSets_nodup
  rw [← (split.map _).nodup_iff, List.map_cons, List.nodup_cons] at distinct
  apply Removes.append
  · apply Removes.refl
    intro entity member
    obtain ⟨connection, here, listed⟩ := List.mem_flatMap.mp member
    simp only [PubSubConnection.entities, WriterGroup.entities, List.mem_cons, List.mem_flatMap,
      List.mem_map] at listed
    rcases listed with rfl | ⟨group, inside, rfl | ⟨writer, present, rfl⟩⟩
    · simp
    · simp
    · have differs := unused writer
        (List.mem_flatMap.mpr ⟨group, mem_writerGroups.mpr ⟨connection, here, inside⟩, present⟩)
      simp [differs.symm]
  · apply Removes.flatMap split
    · intro entity member
      rcases List.mem_cons.mp member with rfl | member
      · simp
      · obtain ⟨field, -, rfl⟩ := List.mem_map.mp member
        simp
    · intro other present entity member
      have differs : dataSet.identifier ≠ other.identifier :=
        fun same => distinct.1 (List.mem_map.mpr ⟨other, present, same.symm⟩)
      rcases List.mem_cons.mp member with rfl | member
      · simp [differs.symm]
      · obtain ⟨field, -, rfl⟩ := List.mem_map.mp member
        simp [differs]

omit [DecidableEq Id] in
theorem Counted.withoutConnection (counted : manager.Counted)
    (found : manager.connections[index]? = some connection) (detached : List (WriterGroup Id)) :
    Counted { manager with
      connections := swapRemove manager.connections index
      detached := detached } where
  writersCount group member := by
    obtain ⟨other, there, inside⟩ := mem_writerGroups.mp member
    have listed := (swapRemove_perm found).mem_iff.mp (List.mem_cons_of_mem _ there)
    exact counted.writersCount group (mem_writerGroups.mpr ⟨other, listed, inside⟩)
  fieldSize := counted.fieldSize
  promotedFieldsCount := counted.promotedFieldsCount

omit [DecidableEq Id] in
theorem Counted.withoutDataSet (counted : manager.Counted)
    (found : manager.publishedDataSets[index]? = some dataSet) :
    Counted { manager with publishedDataSets := swapRemove manager.publishedDataSets index } where
  writersCount := counted.writersCount
  fieldSize other member :=
    counted.fieldSize other ((swapRemove_perm found).mem_iff.mp (List.mem_cons_of_mem _ member))
  promotedFieldsCount other member :=
    counted.promotedFieldsCount other
      ((swapRemove_perm found).mem_iff.mp (List.mem_cons_of_mem _ member))

section

variable (integrity : manager.Integrity)
include integrity

theorem no_groups_left {left : PubSubConnection Id} (member : connection ∈ manager.connections)
    (emptied : Removes (fun entity => connection.writerGroups.any fun group =>
      Entity.schema.dependsOn (.writerGroup, group.identifier) entity) manager.entities
      middle.entities)
    (present : left ∈ middle.connections) (same : left.identifier = connection.identifier) :
    left.writerGroups = [] := by
  rw [List.eq_nil_iff_forall_not_mem]
  intro group inside
  obtain ⟨before, stays⟩ := emptied.mem_iff.mp (group_entity present inside)
  obtain ⟨other, there, owner, twin, contained, twins⟩ := group_of_entity before
  have distinct := integrity.consistent.nodup_ofKind .connection
  rw [ofKind_connection] at distinct
  have only := List.inj_on_of_nodup_map distinct there member (owner.trans same)
  rw [List.any_eq_false] at stays
  refine stays twin (only ▸ contained) ?_
  simp [twins]

theorem removePubSubConnection_removal (identifier : Id)
    (removable : ∀ connection ∈ manager.connections, connection.identifier = identifier →
      ∀ group ∈ connection.writerGroups, unregistered group.identifier = true) :
    ∃ outcome, manager.removePubSubConnection identifier unregistered true = some outcome ∧
      Removal (.connection, identifier) manager outcome := by
  rw [removePubSubConnection]
  cases found : manager.findConnectionById identifier with
  | none => exact ⟨_, rfl, integrity.unknown (ofKind_connection manager) found⟩
  | some connection =>
    obtain ⟨member, names⟩ := find_some found
    obtain ⟨kept, emptied⟩ := deleteConnectionMembers_removes integrity connection
      (removable connection member names)
    have identifiers := deleteConnectionMembers_connections manager connection unregistered
    dsimp only
    rw [Bool.or_true]
    generalize manager.deleteConnectionMembers connection unregistered = middle at *
    obtain ⟨left, place, leftIdentifier⟩ := found_place identifiers found
    refine ⟨_, rfl, Drops.succeeds (.absorb emptied (kept.drops ?_ ?_ ?_) ?_)⟩
    · have removed := connection_removes kept place
      rwa [leftIdentifier] at removed
    · exact kept.counted.withoutConnection place _
    · have bare := no_groups_left integrity member emptied (List.mem_of_getElem? place)
        (leftIdentifier.trans names.symm)
      rw [place]
      simp [kept.attached, bare]
    · intro entity present gone
      obtain ⟨group, contained, depends⟩ := List.any_eq_true.mp gone
      have row := group_entity member contained
      exact integrity.consistent.dependsOn_trans present row depends (by simp [names])

theorem removeReferencedWriters_eq (member : dataSet ∈ manager.publishedDataSets) :
    manager.removeReferencedWriters dataSet.identifier = manager := by
  have differs : ∀ writer ∈ manager.writers, writer.identifier ≠ dataSet.identifier := by
    intro writer listed same
    obtain ⟨group, inside, present⟩ := List.mem_flatMap.mp listed
    obtain ⟨connection, here, inside⟩ := mem_writerGroups.mp inside
    cases integrity.consistent.row_eq (writer_entity here inside present) (dataSet_entity member)
      same
  rw [removeReferencedWriters]
  generalize manager.writers = writers at differs
  induction writers with
  | nil => rfl
  | cons writer writers ih =>
    rw [List.foldl_cons, if_neg (differs writer List.mem_cons_self)]
    exact ih fun other present => differs other (List.mem_cons_of_mem _ present)

end

theorem removeDataSetField_dataSets (manager : PubSubManager Id) (dsf : Id) (now : BitVec 32) :
    (manager.removeDataSetField dsf now).2.publishedDataSets.map (·.identifier) =
      manager.publishedDataSets.map (·.identifier) ∧
    (manager.removeDataSetField dsf now).2.connections = manager.connections := by
  rw [removeDataSetField]
  split
  · exact ⟨rfl, rfl⟩
  split
  · exact ⟨rfl, rfl⟩
  · simp [mapDataSets, PublishedDataSet.removeField]

theorem deleteDataSetMembers_dataSets (manager : PubSubManager Id) (dataSet : PublishedDataSet Id)
    (now : Id → BitVec 32) :
    (manager.deleteDataSetMembers dataSet now).publishedDataSets.map (·.identifier) =
      manager.publishedDataSets.map (·.identifier) ∧
    (manager.deleteDataSetMembers dataSet now).connections = manager.connections := by
  refine List.foldlRecOn (motive := fun state : PubSubManager Id =>
    state.publishedDataSets.map _ = _ ∧ state.connections = _) _ _ ⟨rfl, rfl⟩
    fun state same field _ => ?_
  have kept := removeDataSetField_dataSets state field.identifier (now field.identifier)
  exact ⟨kept.1.trans same.1, kept.2.trans same.2⟩

theorem removePublishedDataSet_removal (integrity : manager.Integrity) (pds : Id)
    (unused : ∀ writer ∈ manager.writers, writer.connectedDataSet ≠ pds) (now : Id → BitVec 32) :
    ∃ outcome, manager.removePublishedDataSet pds now true = some outcome ∧
      Removal (.publishedDataSet, pds) manager outcome := by
  rw [removePublishedDataSet]
  cases found : manager.findPDSById pds with
  | none => exact ⟨_, rfl, integrity.unknown (ofKind_publishedDataSet manager) found⟩
  | some dataSet =>
    obtain ⟨member, names⟩ := find_some found
    obtain ⟨kept, emptied⟩ := deleteDataSetMembers_removes integrity dataSet now
    obtain ⟨identifiers, untouched⟩ := deleteDataSetMembers_dataSets manager dataSet now
    dsimp only
    rw [removeReferencedWriters_eq integrity member, Bool.or_true]
    generalize manager.deleteDataSetMembers dataSet now = middle at *
    obtain ⟨left, place, leftIdentifier⟩ := found_place identifiers found
    have disconnected : ∀ writer ∈ middle.writers, writer.connectedDataSet ≠ left.identifier := by
      rw [writers, writerGroups, untouched, leftIdentifier]
      exact unused
    refine ⟨_, rfl, Drops.succeeds (.absorb emptied (kept.drops ?_ ?_ kept.attached) ?_)⟩
    · have removed := dataSet_removes kept place disconnected
      rwa [leftIdentifier] at removed
    · exact kept.counted.withoutDataSet place
    · intro entity present gone
      obtain ⟨field, contained, depends⟩ := List.any_eq_true.mp gone
      have row := field_entity member contained
      exact integrity.consistent.dependsOn_trans present row depends (by simp [names])

structure Adds (entity : Entity Id) (manager after : PubSubManager Id) : Prop where
  integrity : after.Integrity
  adds : after.entities ~ entity :: manager.entities

def identifiers (manager : PubSubManager Id) : List Id :=
  manager.entities.map Entity.schema.identifier

omit [DecidableEq Id] in
theorem Integrity.adds (integrity : manager.Integrity) {entity : Entity Id}
    (fresh : entity.key.2 ∉ manager.identifiers)
    (known : ∀ key ∈ entity.references, ∃ target ∈ manager.entities, target.key = key ∧
      target.references ⊆ entity.references)
    (linked : entity.Linked) (perm : after.entities ~ entity :: manager.entities)
    (counted : after.Counted) (attached : after.detached = []) : Adds entity manager after where
  integrity :=
    { consistent := (integrity.consistent.cons fresh known).perm perm
      linked := by
        intro other member
        rcases List.mem_cons.mp (perm.mem_iff.mp member) with rfl | before
        · exact linked
        · exact integrity.linked other before
      counted, attached }
  adds := perm

omit [DecidableEq Id] in
theorem addConnection_adds (integrity : manager.Integrity)
    (fresh : identifier ∉ manager.identifiers) :
    Adds (.connection identifier) manager
      { manager with connections := manager.connections ++ [⟨identifier, []⟩] } := by
  refine integrity.adds fresh (fun key reference => nomatch reference) trivial ?_ ?_
    integrity.attached
  · simp only [entities, List.flatMap_append, List.flatMap_cons, List.flatMap_nil,
      PubSubConnection.entities, List.append_assoc]
    exact List.perm_middle
  · refine ⟨?_, integrity.counted.fieldSize, integrity.counted.promotedFieldsCount⟩
    intro group member
    apply integrity.counted.writersCount
    simpa [mem_writerGroups] using member

omit [DecidableEq Id] in
theorem addDataSet_adds (integrity : manager.Integrity) (fresh : identifier ∉ manager.identifiers)
    (publishedDataSetType : PublishedDataSetType) :
    Adds (.publishedDataSet identifier) manager { manager with
        publishedDataSets := manager.publishedDataSets ++
          [⟨publishedDataSetType, ⟨0, 0⟩, [], identifier, 0, 0⟩] } := by
  refine integrity.adds fresh (fun key reference => nomatch reference) trivial ?_ ?_
    integrity.attached
  · simp only [entities, List.flatMap_append, List.flatMap_cons, List.flatMap_nil,
      PublishedDataSet.entities, List.map_nil, List.append_nil, ← List.append_assoc]
    exact List.perm_append_singleton _ _
  · refine ⟨integrity.counted.writersCount, ?_, ?_⟩
    · intro dataSet member
      rcases List.mem_append.mp member with before | new
      · exact integrity.counted.fieldSize dataSet before
      · rw [List.mem_singleton.mp new]
        rfl
    · intro dataSet member
      rcases List.mem_append.mp member with before | new
      · exact integrity.counted.promotedFieldsCount dataSet before
      · rw [List.mem_singleton.mp new]
        rfl

theorem addGroup_adds (integrity : manager.Integrity) (member : connection ∈ manager.connections)
    (fresh : identifier ∉ manager.identifiers) (config : WriterGroupConfig) :
    Adds (.writerGroup identifier connection.identifier connection.identifier) manager
      { manager with
        connections := manager.connections.map fun other =>
          if other.identifier = connection.identifier then
            { other with
              writerGroups :=
                ⟨config, identifier, connection.identifier, [], 0⟩ :: other.writerGroups }
          else other } := by
  have distinct := integrity.consistent.nodup_ofKind .connection
  rw [ofKind_connection] at distinct
  refine integrity.adds fresh ?_ rfl ?_ ?_ integrity.attached
  · intro key reference
    rw [List.mem_singleton.mp reference]
    exact ⟨_, connection_entity member, rfl, List.nil_subset _⟩
  · rw [entities, entities, ← List.cons_append]
    apply List.Perm.append_right
    apply flatMap_insert distinct member
    exact .swap _ _ _
  · refine ⟨?_, integrity.counted.fieldSize, integrity.counted.promotedFieldsCount⟩
    intro group inside
    obtain ⟨changed, here, listed⟩ := mem_writerGroups.mp inside
    obtain ⟨before, known, same⟩ := List.mem_map.mp here
    have old : ∀ group ∈ before.writerGroups, group.writersCount.toNat = group.writers.length :=
      fun group present =>
        integrity.counted.writersCount group (mem_writerGroups.mpr ⟨before, known, present⟩)
    rw [← same] at listed
    split at listed
    · rcases List.mem_cons.mp listed with rfl | present
      · rfl
      · exact old group present
    · exact old group listed

theorem mapGroups_connections (integrity : manager.Integrity)
    (member : connection ∈ manager.connections) (inside : group ∈ connection.writerGroups)
    (change : WriterGroup Id → WriterGroup Id) :
    (manager.mapGroups fun other =>
      if other.identifier = group.identifier then change other else other).connections =
      manager.connections.map fun other =>
        if other.identifier = connection.identifier then
          other.mapGroups fun other =>
            if other.identifier = group.identifier then change other else other
        else other := by
  apply List.map_congr_left
  intro other present
  by_cases same : other.identifier = connection.identifier
  · rw [if_pos same]
  · rw [if_neg same, PubSubConnection.mapGroups]
    have kept : other.writerGroups.map (fun other =>
        if other.identifier = group.identifier then change other else other) =
        other.writerGroups := by
      refine (List.map_congr_left fun twin listed => ?_).trans (List.map_id _)
      have differs : twin.identifier ≠ group.identifier := by
        intro twins
        have rows := integrity.consistent.row_eq (group_entity present listed)
          (group_entity member inside) twins
        injection rows with _ _ owners
        exact same owners
      exact if_neg differs
    rw [kept]

theorem addWriter_adds (integrity : manager.Integrity) (member : connection ∈ manager.connections)
    (inside : group ∈ connection.writerGroups) (fresh : writer.identifier ∉ manager.identifiers)
    (known : dataSet ∈ manager.publishedDataSets)
    (connected : writer.connectedDataSet = dataSet.identifier)
    (linked : writer.linkedWriterGroup = group.identifier)
    (room : group.writers.length + 1 < 2 ^ 32) :
    Adds (.dataSetWriter writer group.identifier connection.identifier) manager
      (manager.mapGroups fun other =>
        if other.identifier = group.identifier then other.addWriter writer else other) := by
  have distinct := integrity.consistent.nodup_ofKind .connection
  rw [ofKind_connection] at distinct
  have groupsDistinct := integrity.groups_nodup.sublist
      ((List.sublist_flatten_of_mem (List.mem_map_of_mem member)).map _)
  refine integrity.adds fresh ?_ linked ?_ ?_ integrity.attached
  · intro key reference
    simp only [Entity.references, List.mem_cons, List.not_mem_nil, or_false] at reference
    rcases reference with rfl | rfl | rfl
    · refine ⟨_, group_entity member inside, rfl, ?_⟩
      intro key reference
      rw [List.mem_singleton.mp reference]
      simp
    · exact ⟨_, connection_entity member, rfl, List.nil_subset _⟩
    · rw [connected]
      exact ⟨_, dataSet_entity known, rfl, List.nil_subset _⟩
  · rw [entities, entities, ← List.cons_append,
      mapGroups_connections integrity member inside (·.addWriter writer)]
    apply List.Perm.append_right
    apply flatMap_insert distinct member
    refine List.Perm.trans (List.Perm.cons _ ?_) (.swap _ _ _)
    apply flatMap_insert groupsDistinct inside
    exact .swap _ _ _
  · refine ⟨?_, integrity.counted.fieldSize, integrity.counted.promotedFieldsCount⟩
    intro changed listed
    obtain ⟨before, present, rfl⟩ := mem_writerGroups_mapGroups.mp listed
    have counted := integrity.counted.writersCount before present
    split
    · rename_i here
      have only := List.inj_on_of_nodup_map integrity.groups_nodup present
        (mem_writerGroups.mpr ⟨connection, member, inside⟩) here
      exact toNat_succ (by decide) counted (only ▸ room)
    · exact counted

theorem addField_adds (integrity : manager.Integrity) (member : dataSet ∈ manager.publishedDataSets)
    (fresh : field.identifier ∉ manager.identifiers)
    (linked : field.publishedDataSet = dataSet.identifier)
    (room : dataSet.fields.length + 1 < 2 ^ 16) (now : BitVec 32) :
    Adds (.dataSetField field dataSet.identifier) manager (manager.mapDataSets fun other =>
        if other.identifier = dataSet.identifier then other.addField now field else other) := by
  refine integrity.adds fresh ?_ linked ?_ ?_ integrity.attached
  · intro key reference
    rw [List.mem_singleton.mp reference]
    exact ⟨_, dataSet_entity member, rfl, List.nil_subset _⟩
  · refine (List.Perm.append_left _ ?_).trans List.perm_middle
    apply flatMap_insert integrity.dataSets_nodup member
    exact .swap _ _ _
  · have counted : ∀ changed ∈ (manager.mapDataSets fun other =>
        if other.identifier = dataSet.identifier then other.addField now field
        else other).publishedDataSets,
        changed.fieldSize.toNat = changed.fields.length ∧
          changed.promotedFieldsCount.toNat = changed.fields.countP (·.config.promotedField) := by
      intro changed listed
      obtain ⟨before, present, rfl⟩ := List.mem_map.mp listed
      have size := integrity.counted.fieldSize before present
      have promoted := integrity.counted.promotedFieldsCount before present
      split
      · rename_i here
        obtain rfl := List.inj_on_of_nodup_map integrity.dataSets_nodup present member here
        exact ⟨toNat_succ (by decide) size room, counter_cons _ (by decide) promoted
          (Nat.lt_of_le_of_lt (Nat.succ_le_succ List.countP_le_length) room)⟩
      · exact ⟨size, promoted⟩
    exact ⟨integrity.counted.writersCount, fun changed listed => (counted changed listed).1,
      fun changed listed => (counted changed listed).2⟩

end PubSubManager

end OpcUa
