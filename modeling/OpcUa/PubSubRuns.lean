import OpcUa.PubSubIntegrity

/-!
Runs of the PubSub configuration. The writers of a data set that is removed stay behind: the loop
that looks for them compares their own identifiers.
-/

namespace OpcUa

open StatusCode Dependents

open scoped List

variable {Id : Type} [DecidableEq Id]

inductive PubSubOperation (Id : Type) where
  | addConnection (setup : PubSubManager.ConnectionSetup) (identifier : Id)
  | removeConnection (connection : Id) (unregistered : Id → Bool) (shrunk : Bool)
  | addWriterGroup (connection : Id) (config : Option WriterGroupConfig) (memory : Bool)
      (copied registered : StatusCode) (identifier : Id)
  | removeWriterGroup (writerGroup : Id) (unregistered : Bool)
  | addDataSetWriter (writerGroup dataSet : Id) (config : Option DataSetWriterConfig)
      (memory : Bool) (copied : StatusCode) (samplesMemory : Bool) (identifier : Id)
  | removeDataSetWriter (dsw : Id)
  | addPublishedDataSet (config : Option PublishedDataSetType) (copied grown : Bool)
      (now : ConfigurationVersion) (identifier : Id)
  | removePublishedDataSet (pds : Id) (now : Id → BitVec 32) (shrunk : Bool)
  | addDataSetField (publishedDataSet : Id) (config : Option DataSetFieldConfig) (memory : Bool)
      (now : BitVec 32) (identifier : Id)
  | removeDataSetField (dsf : Id) (now : BitVec 32)

namespace PubSubOperation

open PubSubManager

def perform (manager : PubSubManager Id) :
    PubSubOperation Id → Option (StatusCode × PubSubManager Id)
  | addConnection setup identifier => some (manager.addPubSubConnection setup identifier)
  | removeConnection connection unregistered shrunk =>
    manager.removePubSubConnection connection unregistered shrunk
  | addWriterGroup connection config memory copied registered identifier =>
    some (manager.addWriterGroup connection config memory copied registered identifier)
  | removeWriterGroup writerGroup unregistered =>
    some (manager.removeWriterGroup writerGroup unregistered)
  | addDataSetWriter writerGroup dataSet config memory copied samplesMemory identifier =>
    some (manager.addDataSetWriter writerGroup dataSet config memory copied samplesMemory identifier)
  | removeDataSetWriter dsw => some (manager.removeDataSetWriter dsw)
  | addPublishedDataSet config copied grown now identifier =>
    let (result, after) := manager.addPublishedDataSet config copied grown now identifier
    some (result.addResult, after)
  | removePublishedDataSet pds now shrunk => manager.removePublishedDataSet pds now shrunk
  | addDataSetField publishedDataSet config memory now identifier =>
    let (result, after) := manager.addDataSetField publishedDataSet config memory now identifier
    some (result.result, after)
  | removeDataSetField dsf now =>
    let (result, after) := manager.removeDataSetField dsf now
    some (result.result, after)

def removed : PubSubOperation Id → Option (EntityKind × Id)
  | removeConnection connection _ _ => some (.connection, connection)
  | removeWriterGroup writerGroup _ => some (.writerGroup, writerGroup)
  | removeDataSetWriter dsw => some (.dataSetWriter, dsw)
  | removePublishedDataSet pds _ _ => some (.publishedDataSet, pds)
  | removeDataSetField dsf _ => some (.dataSetField, dsf)
  | _ => none

def added : PubSubOperation Id → Option (EntityKind × Id)
  | addConnection _ identifier => some (.connection, identifier)
  | addWriterGroup _ _ _ _ _ identifier => some (.writerGroup, identifier)
  | addDataSetWriter _ _ _ _ _ _ identifier => some (.dataSetWriter, identifier)
  | addPublishedDataSet _ _ _ _ identifier => some (.publishedDataSet, identifier)
  | addDataSetField _ _ _ _ identifier => some (.dataSetField, identifier)
  | _ => none

def Fresh (manager : PubSubManager Id) (operation : PubSubOperation Id) : Prop :=
  ∀ key, operation.added = some key → key.2 ∉ manager.identifiers

/-- No writer is connected to a data set that is removed, the callbacks of a connection that is
removed can be unregistered, the arrays can be shrunk, and no counter is full. -/
def Admissible (manager : PubSubManager Id) : PubSubOperation Id → Prop
  | removeConnection identifier unregistered shrunk =>
    shrunk = true ∧ ∀ connection ∈ manager.connections, connection.identifier = identifier →
      ∀ group ∈ connection.writerGroups, unregistered group.identifier = true
  | removePublishedDataSet pds _ shrunk =>
    shrunk = true ∧ ∀ writer ∈ manager.writers, writer.connectedDataSet ≠ pds
  | addDataSetWriter writerGroup .. =>
    ∀ group ∈ manager.writerGroups, group.identifier = writerGroup →
      group.writers.length + 1 < 2 ^ 32
  | addDataSetField publishedDataSet .. =>
    ∀ dataSet ∈ manager.publishedDataSets, dataSet.identifier = publishedDataSet →
      dataSet.fields.length + 1 < 2 ^ 16
  | _ => True

/-- A removal takes the entity and what depends on it, or changes nothing where it fails. An
addition adds one entity at most. -/
structure Exact (manager : PubSubManager Id) (operation : PubSubOperation Id) (status : StatusCode)
    (after : PubSubManager Id) : Prop where
  removes : ∀ key, operation.removed = some key → status = good →
    Removes (Entity.schema.dependsOn key) manager.entities after.entities
  fails : ∀ key, operation.removed = some key → status ≠ good → after = manager
  adds : ∀ key, operation.added = some key → after = manager ∨
    ∃ entity, entity.key = key ∧ after.entities ~ entity :: manager.entities

end PubSubOperation

namespace PubSubManager

variable {operation : PubSubOperation Id} {key : EntityKind × Id} {identifier : Id}

inductive Reachable (admissible : PubSubManager Id → PubSubOperation Id → Prop) :
    PubSubManager Id → Prop
  | start : Reachable admissible empty
  | step {manager after : PubSubManager Id} {status : StatusCode} (operation : PubSubOperation Id) :
      Reachable admissible manager → operation.Fresh manager → admissible manager operation →
      operation.perform manager = some (status, after) → Reachable admissible after

variable {manager after : PubSubManager Id}

omit [DecidableEq Id] in
theorem empty_integrity : (empty : PubSubManager Id).Integrity where
  consistent :=
    ⟨List.nodup_nil, fun _ member => (nomatch member), fun _ member => (nomatch member)⟩
  linked _ member := (nomatch member)
  counted :=
    ⟨fun _ member => (nomatch member), fun _ member => (nomatch member),
      fun _ member => (nomatch member)⟩
  attached := rfl

def Steps (manager : PubSubManager Id) (operation : PubSubOperation Id) : Prop :=
  ∃ status after, operation.perform manager = some (status, after) ∧ after.Integrity ∧
    operation.Exact manager status after

theorem Removal.steps {outcome : StatusCode × PubSubManager Id}
    (removal : Removal key manager outcome) (names : operation.removed = some key)
    (adds : operation.added = none) (performs : operation.perform manager = some outcome) :
    manager.Steps operation := by
  refine ⟨outcome.1, outcome.2, performs, removal.drops.integrity, ?_, fun _ _ => removal.fails, ?_⟩
  · intro other same _
    rw [names] at same
    cases same
    exact removal.drops.removes
  · intro other same
    rw [adds] at same
    cases same

def AddsAtMost (key : EntityKind × Id) (manager after : PubSubManager Id) : Prop :=
  after = manager ∨ ∃ entity, entity.key = key ∧ Adds entity manager after

section

variable (integrity : manager.Integrity)
include integrity

theorem Integrity.steps {status : StatusCode} (names : operation.added = some key)
    (removes : operation.removed = none)
    (performs : operation.perform manager = some (status, after))
    (outcome : AddsAtMost key manager after) : manager.Steps operation := by
  have exact : ∀ other, operation.removed = some other → False := by
    intro other same
    rw [removes] at same
    cases same
  rcases outcome with rfl | ⟨entity, same, adds⟩
  · exact ⟨status, _, performs, integrity, fun other names => (exact other names).elim,
      fun other names => (exact other names).elim, fun _ _ => .inl rfl⟩
  · refine ⟨status, after, performs, adds.integrity, fun other names => (exact other names).elim,
      fun other names => (exact other names).elim, ?_⟩
    intro other again
    rw [names] at again
    cases again
    exact .inr ⟨entity, same, adds.adds⟩

theorem removeWriterGroup_steps (writerGroup : Id) (unregistered : Bool) :
    manager.Steps (.removeWriterGroup writerGroup unregistered) := by
  cases unregistered with
  | true => exact (removeWriterGroup_removal integrity writerGroup).steps rfl rfl rfl
  | false =>
    have kept : ∃ status, status ≠ good ∧
        manager.removeWriterGroup writerGroup false = (status, manager) := by
      rw [removeWriterGroup]
      split
      · exact ⟨_, by decide, rfl⟩
      split
      · exact ⟨_, by decide, rfl⟩
      · exact ⟨_, by decide, rfl⟩
    obtain ⟨status, failed, same⟩ := kept
    refine ⟨status, manager, congrArg some same, integrity, ?_, fun _ _ _ => rfl, ?_⟩
    · exact fun _ _ succeeded => absurd succeeded failed
    · intro _ names
      cases names

omit [DecidableEq Id] in
theorem addPubSubConnection_adds (setup : ConnectionSetup)
    (fresh : identifier ∉ manager.identifiers) :
    AddsAtMost (.connection, identifier) manager
      (manager.addPubSubConnection setup identifier).2 := by
  rw [addPubSubConnection]
  split
  · exact .inl rfl
  split
  · exact .inl rfl
  split
  · exact .inl rfl
  · exact .inr ⟨_, rfl, addConnection_adds integrity fresh⟩

omit [DecidableEq Id] in
theorem addPublishedDataSet_adds (config : Option PublishedDataSetType) (copied grown : Bool)
    (now : ConfigurationVersion) (fresh : identifier ∉ manager.identifiers) :
    AddsAtMost (.publishedDataSet, identifier) manager
      (manager.addPublishedDataSet config copied grown now identifier).2 := by
  cases config with
  | none => exact .inl rfl
  | some publishedDataSetType =>
    rw [addPublishedDataSet]
    split
    · exact .inl rfl
    split
    · exact .inl rfl
    split
    · exact .inl rfl
    · exact .inr ⟨_, rfl, addDataSet_adds integrity fresh publishedDataSetType⟩

theorem addWriterGroup_adds (connection : Id) (config : Option WriterGroupConfig) (memory : Bool)
    (copied registered : StatusCode) (fresh : identifier ∉ manager.identifiers) :
    AddsAtMost (.writerGroup, identifier) manager
      (manager.addWriterGroup connection config memory copied registered identifier).2 := by
  cases config with
  | none => exact .inl rfl
  | some config =>
    rw [addWriterGroup]
    split
    · exact .inl rfl
    rename_i current found
    split
    · exact .inl rfl
    · exact .inr ⟨_, rfl, addGroup_adds integrity (find_some found).1 fresh config⟩

theorem addDataSetWriter_adds (writerGroup dataSet : Id) (config : Option DataSetWriterConfig)
    (memory : Bool) (copied : StatusCode) (samplesMemory : Bool)
    (fresh : identifier ∉ manager.identifiers)
    (room : ∀ group ∈ manager.writerGroups, group.identifier = writerGroup →
      group.writers.length + 1 < 2 ^ 32) :
    AddsAtMost (.dataSetWriter, identifier) manager (manager.addDataSetWriter writerGroup dataSet
      config memory copied samplesMemory identifier).2 := by
  cases config with
  | none => exact .inl rfl
  | some config =>
    rw [addDataSetWriter]
    split
    · exact .inl rfl
    rename_i current known
    split
    · exact .inl rfl
    rename_i group found
    split
    · exact .inl rfl
    · obtain ⟨member, names⟩ := find_some found
      obtain ⟨connection, here, inside⟩ := mem_writerGroups.mp member
      refine .inr ⟨_, ?_, addWriter_adds integrity here inside ?_ (find_some known).1 ?_ ?_
        (room group member names)⟩
      · rfl
      · exact fresh
      · rfl
      · rfl

theorem addDataSetField_adds (publishedDataSet : Id) (config : Option DataSetFieldConfig)
    (memory : Bool) (now : BitVec 32) (fresh : identifier ∉ manager.identifiers)
    (room : ∀ dataSet ∈ manager.publishedDataSets, dataSet.identifier = publishedDataSet →
      dataSet.fields.length + 1 < 2 ^ 16) :
    AddsAtMost (.dataSetField, identifier) manager
      (manager.addDataSetField publishedDataSet config memory now identifier).2 := by
  cases config with
  | none => exact .inl rfl
  | some config =>
    rw [addDataSetField]
    split
    · exact .inl rfl
    rename_i dataSet found
    split
    · exact .inl rfl
    split
    · exact .inl rfl
    · obtain ⟨member, names⟩ := find_some found
      refine .inr ⟨_, ?_, addField_adds integrity member ?_ ?_ (room dataSet member names) now⟩
      · rfl
      · exact fresh
      · rfl

theorem Integrity.step (fresh : operation.Fresh manager)
    (admissible : operation.Admissible manager) : manager.Steps operation := by
  cases operation with
  | addConnection setup identifier =>
    exact integrity.steps rfl rfl rfl (addPubSubConnection_adds integrity setup (fresh _ rfl))
  | removeConnection connection unregistered shrunk =>
    obtain ⟨rfl, removable⟩ := admissible
    obtain ⟨outcome, performs, removal⟩ :=
      removePubSubConnection_removal integrity connection removable
    exact removal.steps rfl rfl performs
  | addWriterGroup connection config memory copied registered identifier =>
    exact integrity.steps rfl rfl rfl
      (addWriterGroup_adds integrity connection config memory copied registered (fresh _ rfl))
  | removeWriterGroup writerGroup unregistered =>
    exact removeWriterGroup_steps integrity writerGroup unregistered
  | addDataSetWriter writerGroup dataSet config memory copied samplesMemory identifier =>
    exact integrity.steps rfl rfl rfl (addDataSetWriter_adds integrity writerGroup dataSet config
      memory copied samplesMemory (fresh _ rfl) admissible)
  | removeDataSetWriter dsw =>
    exact (removeDataSetWriter_removal integrity dsw).steps rfl rfl rfl
  | addPublishedDataSet config copied grown now identifier =>
    exact integrity.steps rfl rfl rfl
      (addPublishedDataSet_adds integrity config copied grown now (fresh _ rfl))
  | removePublishedDataSet pds now shrunk =>
    obtain ⟨rfl, unused⟩ := admissible
    obtain ⟨outcome, performs, removal⟩ := removePublishedDataSet_removal integrity pds unused now
    exact removal.steps rfl rfl performs
  | addDataSetField publishedDataSet config memory now identifier =>
    exact integrity.steps rfl rfl rfl
      (addDataSetField_adds integrity publishedDataSet config memory now (fresh _ rfl) admissible)
  | removeDataSetField dsf now =>
    exact (removeDataSetField_removal integrity dsf now).steps rfl rfl rfl

end

theorem Reachable.integrity (reachable : Reachable PubSubOperation.Admissible manager) : manager.Integrity := by
  induction reachable with
  | start => exact empty_integrity
  | step operation _ fresh admissible performs ih =>
    obtain ⟨status, after, performed, kept, -⟩ := ih.step fresh admissible
    rw [performs] at performed
    cases performed
    exact kept

/-- As long as the steps are admissible the configuration is sound, and every further step of that
kind adds or removes exactly what it is called for. -/
theorem configuration_sound (reachable : Reachable PubSubOperation.Admissible manager) :
    manager.Sound ∧ ∀ operation : PubSubOperation Id, operation.Fresh manager →
      operation.Admissible manager → ∃ status after,
        operation.perform manager = some (status, after) ∧ operation.Exact manager status after := by
  refine ⟨reachable.integrity.sound, ?_⟩
  intro operation fresh admissible
  obtain ⟨status, after, performs, -, exact⟩ := reachable.integrity.step fresh admissible
  exact ⟨status, after, performs, exact⟩

theorem Reachable.weaken {admissible weaker : PubSubManager Id → PubSubOperation Id → Prop}
    (implies : ∀ manager operation, admissible manager operation → weaker manager operation)
    (reachable : Reachable admissible manager) : Reachable weaker manager := by
  induction reachable with
  | start => exact .start
  | step operation _ fresh meets performs ih =>
    exact ih.step operation fresh (implies _ _ meets) performs

/-! A writer that is left behind -/

def soleWriter : DataSetWriter Nat := ⟨⟨0, 0, none⟩, 4, 2, 3, ⟨0, 0⟩, 0, 0, [], 0⟩

def soleGroup : WriterGroup Nat := ⟨⟨.uadp, 1⟩, 2, 1, [soleWriter], 1⟩

def soleDataSet : PublishedDataSet Nat := ⟨.publishedItems, ⟨0, 0⟩, [], 3, 0, 0⟩

def publishing : PubSubManager Nat := ⟨[⟨1, [soleGroup]⟩], [soleDataSet], []⟩

omit [DecidableEq Id] in
theorem fresh_of_added (names : operation.added = some key) (unused : key.2 ∉ manager.identifiers) :
    operation.Fresh manager := by
  intro other same
  rw [names] at same
  cases same
  exact unused

theorem publishing_reachable : Reachable PubSubOperation.Admissible publishing := by
  have connection : Reachable PubSubOperation.Admissible (⟨[⟨1, []⟩], [], []⟩ : PubSubManager Nat) :=
    Reachable.start.step (.addConnection ⟨true, true, true, true, true⟩ 1)
      (fresh_of_added rfl (by decide)) trivial rfl
  have group := connection.step (.addWriterGroup 1 (some ⟨.uadp, 1⟩) true good good 2)
      (fresh_of_added rfl (by decide)) trivial rfl
  have dataSet := group.step (.addPublishedDataSet (some .publishedItems) true true ⟨7, 7⟩ 3)
      (fresh_of_added rfl (by decide)) trivial rfl
  refine dataSet.step (.addDataSetWriter 2 3 (some ⟨0, 0, none⟩) true good true 4)
    (fresh_of_added rfl (by decide)) ?_ rfl
  intro other member _
  rw [List.mem_singleton.mp member]
  decide

theorem publishing_sound : publishing.Sound := (configuration_sound publishing_reachable).1

/-- The data set goes, and the writer that is connected to it stays. -/
theorem writer_left_behind :
    ¬ ∀ manager : PubSubManager Nat, Reachable (fun _ _ => True) manager → manager.Sound := by
  intro sound
  have reached : Reachable (fun _ _ => True) publishing :=
    publishing_reachable.weaken fun _ _ _ => trivial
  have removed :=
    reached.step (.removePublishedDataSet 3 (fun _ => 0) true) (fun _ names => nomatch names)
      trivial rfl
  obtain ⟨dataSet, member, -⟩ := (sound _ removed).connectedDataSet soleWriter
    (show soleWriter ∈ [soleWriter] from List.mem_cons_self)
  cases member

end PubSubManager

end OpcUa
