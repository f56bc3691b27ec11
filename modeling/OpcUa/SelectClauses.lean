import OpcUa.BrowsePaths
import OpcUa.EventCore
import OpcUa.SelectClauseCore
import OpcUa.TreeSearch

/-!
The fields of an event. The code tests the property `EventType` itself instead of its value, and
tests it for the type of the first clause.
-/

namespace OpcUa

open BoundedReach StatusCode

section Paths

variable {store : Nodestore} {memory : Nat → Bool} {nodeClassMask : BitVec 32}

theorem walkNodes_ample (ample : ∀ n, memory n = true) (elem : RelativePathElement)
    {elemDepth : Nat} (targetName : Option QualifiedName) : ∀ {current : List NodeId}
      {walk : PathWalk}, walk.Roomy → walk.statusCode = good →
      (elemDepth = 0 → ∀ nodeId ∈ current, (store.getNode nodeId).isSome) →
      ∃ after, walkNodes store memory nodeClassMask elem elemDepth targetName current walk =
        some after ∧ after.Roomy ∧ after.statusCode = good := by
  intro current
  induction current with
  | nil => exact fun roomy fine _ => ⟨_, rfl, roomy, fine⟩
  | cons nodeId current ih =>
    intro walk roomy fine known
    have others : elemDepth = 0 → ∀ other ∈ current, (store.getNode other).isSome :=
      fun start other member => known start other (List.mem_cons_of_mem _ member)
    rw [walkNodes]
    cases here : store.getNode nodeId with
    | none =>
      have deeper : elemDepth ≠ 0 := by
        intro start
        have there := known start nodeId List.mem_cons_self
        rw [here] at there
        cases there
      rw [if_neg deeper]
      exact ih roomy fine others
    | some node =>
      dsimp only
      split
      · exact ih roomy fine others
      · split
        · exact ih roomy fine others
        · obtain ⟨middle, references, finds, -⟩ :=
            @walkReferences_finds store memory elem node.references _ roomy
          rw [references]
          exact ih finds.roomy (finds.ample ample fine) others

theorem walkBrowsePathElement_ample (ample : ∀ n, memory n = true) (elem : RelativePathElement)
    {elemDepth : Nat} (targetName : Option QualifiedName) {current : List NodeId}
    {walk : PathWalk} (roomy : walk.Roomy) (fine : walk.statusCode = good)
    (known : elemDepth = 0 → ∀ nodeId ∈ current, (store.getNode nodeId).isSome) :
    ∃ after, walkBrowsePathElement store memory nodeClassMask elem elemDepth targetName current
      walk = some after ∧ after.Roomy ∧ after.statusCode = good := by
  rw [walkBrowsePathElement]
  split
  · exact ⟨walk, rfl, roomy, fine⟩
  · exact walkNodes_ample ample elem targetName roomy fine known

theorem addBrowsePathTargets_fits (targetName : QualifiedName) {size : Nat} :
    ∀ {current : List NodeId} {targets : List BrowsePathTarget},
      targets.length + current.length ≤ size →
      ∃ after, addBrowsePathTargets store nodeClassMask targetName size current targets =
        some after := by
  intro current
  induction current with
  | nil => exact fun _ => ⟨_, rfl⟩
  | cons nodeId current ih =>
    intro targets fits
    rw [List.length_cons] at fits
    rw [addBrowsePathTargets]
    cases store.getNode nodeId with
    | none => exact ih (by omega)
    | some node =>
      dsimp only
      split
      · exact ih (by omega)
      · rw [if_neg (by omega)]
        refine ih ?_
        rw [List.length_append, List.length_singleton]
        omega

theorem finishBrowsePath_fits (targetName : QualifiedName) (current : List NodeId)
    (walk : PathWalk) : ∃ after,
      finishBrowsePath store memory nodeClassMask (some targetName) current walk = some after := by
  rw [finishBrowsePath]
  dsimp only [Option.bind_eq_bind, Option.bind_some]
  split
  · exact ⟨_, rfl⟩
  · rename_i enough
    obtain ⟨targets, added⟩ := @addBrowsePathTargets_fits store nodeClassMask targetName
      (if walk.targetsSize < walk.targets.length + current.length then
        walk.targets.length + current.length else walk.targetsSize) current walk.targets
      (by split <;> omega)
    rw [added]
    exact ⟨_, rfl⟩

theorem walkBrowsePath_ample (ample : ∀ n, memory n = true) :
    ∀ {elements : List RelativePathElement} {elemDepth : Nat} {targetName : Option QualifiedName}
      {current : List NodeId} {currentSize : Nat} {walk : PathWalk}, walk.Roomy →
      walk.statusCode = good → 0 < currentSize →
      (elemDepth = 0 → ∀ nodeId ∈ current, (store.getNode nodeId).isSome) →
      (elements = [] → targetName.isSome) →
      ∃ after, walkBrowsePath store memory nodeClassMask elements elemDepth targetName current
        currentSize walk = some after := by
  intro elements
  induction elements with
  | nil =>
    intro elemDepth targetName current currentSize walk _ _ _ _ names
    obtain ⟨name, rfl⟩ := Option.isSome_iff_exists.mp (names rfl)
    exact finishBrowsePath_fits name current walk
  | cons elem elements ih =>
    intro elemDepth targetName current currentSize walk roomy fine size known _
    obtain ⟨middle, walks, spacious, good⟩ :=
      @walkBrowsePathElement_ample store memory nodeClassMask ample elem _ targetName _ _ roomy
        fine known
    rw [walkBrowsePath, walks]
    dsimp only [Option.bind_eq_bind, Option.bind_some]
    split
    · exact ⟨middle, rfl⟩
    · rw [if_neg (not_not.mpr good)]
      exact ih ⟨spacious.targets, spacious.targetsSize, size, Nat.zero_le _⟩ good
        spacious.nextSize (fun start => absurd start (Nat.succ_ne_zero _)) fun _ => rfl

theorem walkBrowsePath_unknown {start : NodeId} (unknown : store.getNode start = none)
    {elements : List RelativePathElement} (nonempty : elements ≠ []) {currentSize : Nat}
    {walk : PathWalk} (nothing : walk.next = []) :
    ∃ after, walkBrowsePath store memory nodeClassMask elements 0 none [start] currentSize walk =
      some after := by
  cases elements with
  | nil => exact absurd rfl nonempty
  | cons elem elements =>
    rw [walkBrowsePath, walkBrowsePathElement]
    split
    · dsimp only [Option.bind_eq_bind, Option.bind_some]
      rw [if_pos nothing]
      exact ⟨walk, rfl⟩
    · rw [walkNodes, unknown]
      dsimp only [walkNodes, Option.bind_eq_bind, Option.bind_some]
      rw [if_pos rfl, if_pos nothing]
      exact ⟨_, rfl⟩

theorem operationTranslateBrowsePathToNodeIds_ample (ample : ∀ n, memory n = true)
    (path : BrowsePath) : ∃ result,
      operationTranslateBrowsePathToNodeIds store memory nodeClassMask path = some result := by
  rw [operationTranslateBrowsePathToNodeIds]
  split
  · exact ⟨_, rfl⟩
  · rename_i several
    have nonempty : path.relativePath.elements ≠ [] := by
      intro empty
      simp [empty] at several
    split
    · exact ⟨_, rfl⟩
    · split
      · exact ⟨_, rfl⟩
      · obtain ⟨walk, walks⟩ : ∃ walk, walkBrowsePath store memory nodeClassMask
            path.relativePath.elements 0 none [path.startingNode] 10 ⟨good, [], 10, [], 10, 4⟩ =
              some walk := by
          cases known : store.getNode path.startingNode with
          | none => exact walkBrowsePath_unknown known nonempty rfl
          | some node =>
            refine walkBrowsePath_ample ample ⟨rfl, by decide, by decide, by decide⟩ rfl
              (by decide) ?_ fun empty => absurd empty nonempty
            intro _ nodeId member
            rw [List.mem_singleton.mp member, known]
            rfl
        rw [walks]
        exact ⟨_, rfl⟩

theorem browseSimplifiedBrowsePath_ample (ample : ∀ n, memory n = true) (origin : NodeId)
    (browsePath : List QualifiedName) (short : browsePath.length < 2 ^ 32) : ∃ result,
      browseSimplifiedBrowsePath store memory origin browsePath short = some result :=
  operationTranslateBrowsePathToNodeIds_ample ample _

end Paths

/-! The type of an event -/

def eventTypeProperty (store : Nodestore) (memory : Nat → Bool) (event : NodeId) :
    Option NodeId := do
  let bpr ← browseSimplifiedBrowsePath store memory event [eventTypeName] eventTypeName_short
  if bpr.statusCode ≠ good then none else bpr.targets.head?.map (·.targetId.nodeId)

def rangelessMemory : ReadMemory :=
  ⟨⟨fun _ => true, fun _ => .variantEmpty, fun _ => [], fun _ _ => true⟩, 0, good, good⟩

namespace ReadServer

variable (server : ReadServer)

def eventType (event : NodeId) : Option NodeId := do
  let property ← eventTypeProperty server.space.store (fun _ => true) event
  let itself := { server with rights := ⟨adminRights, fun _ => true⟩ }
  match (itself.readInto rangelessMemory ⟨property, .value, .null⟩).2 with
  | some (.variantScalar type (.leaf (.nodeId typeId)) _) =>
    if type = nodeIdType then some typeId else none
  | _ => none

def Selects (event : NodeId) (clause : SimpleAttributeOperand) : Prop :=
  ∃ type, server.eventType event = some type ∧
    Relation.ReflTransGen (server.space.store.Inverse [hasSubtypeId]) type.content
      clause.typeDefinitionId.content

def addressed (memory : ClauseMemory) (event : NodeId) (clause : SimpleAttributeOperand) : Value :=
  ((server.resolveSimpleAttributeOperand memory event clause).bind (·.2)).getD .variantEmpty

structure PerClause (memory : ClauseMemory) (event : NodeId) (clause : SimpleAttributeOperand)
    (field : Value) : Prop where
  selected : server.Selects event clause → field = server.addressed memory event clause
  others : ¬server.Selects event clause → field = .variantEmpty

/-- The test of the code: the clause is for all events, or the property itself is a subtype of the
type of the first clause, at most so many references away. -/
def Tested (memory : ClauseMemory) (event firstType : NodeId) (clause : SimpleAttributeOperand) :
    Prop :=
  clause.typeDefinitionId.content = baseEventTypeId.content ∨
    ∃ property, eventTypeProperty server.space.store memory.typePath event = some property ∧
      Within (server.space.store.Inverse [hasSubtypeId]) maxTreeRecurse property.content
        firstType.content

end ReadServer

structure FilterMemory.Ample (memory : FilterMemory) : Prop where
  fields : memory.fields = true
  typePath : ∀ index n, (memory.clause index).typePath n = true
  path : ∀ index n, (memory.clause index).path n = true

theorem isValidEvent_eq (store : Nodestore) (memory : Nat → Bool) (parent event : NodeId) :
    isValidEvent store memory parent event =
      (browseSimplifiedBrowsePath store memory event [eventTypeName] (by decide)).map fun _ =>
        (eventTypeProperty store memory event).any fun property =>
          isNodeInTree store property parent [hasSubtypeId] := by
  rw [isValidEvent, eventTypeProperty]
  cases browseSimplifiedBrowsePath store memory event [eventTypeName] (by decide) with
  | none => rfl
  | some bpr =>
    obtain ⟨statusCode, targets⟩ := bpr
    dsimp only [Option.bind_eq_bind, Option.bind_some, Option.map_some]
    by_cases fine : statusCode = good
    · rw [if_neg (not_not.mpr fine), if_neg (not_not.mpr fine)]
      cases targets <;> rfl
    · rw [if_pos fine, if_pos fine]
      rfl

section Fields

variable {server : ReadServer} {event firstType : NodeId} {clause : SimpleAttributeOperand}

theorem skipsClause_some {memory : ClauseMemory} {skipped : Bool}
    (tests : server.skipsClause memory event firstType clause = some skipped) :
    skipped = false ↔ server.Tested memory event firstType clause := by
  rw [ReadServer.skipsClause] at tests
  rw [ReadServer.Tested, ← nodeIdEqual_iff]
  split at tests
  · rename_i base
    cases tests
    exact iff_of_true rfl (.inl base)
  · rename_i other
    rw [isValidEvent_eq] at tests
    obtain ⟨valid, found, rfl⟩ := Option.map_eq_some_iff.mp tests
    obtain ⟨-, -, rfl⟩ := Option.map_eq_some_iff.mp found
    rw [or_iff_right other]
    simp only [Bool.not_eq_false', Option.any_eq_true, isNodeInTree_iff]

section

variable {memory : ClauseMemory} {field : Value}
  (built : server.eventField memory event firstType clause = some field)
include built

theorem eventField_some :
    (server.Tested memory event firstType clause → field = server.addressed memory event clause) ∧
      (¬server.Tested memory event firstType clause → field = .variantEmpty) := by
  obtain ⟨skipped, tests, built⟩ := Option.bind_eq_some_iff.mp built
  have tested := skipsClause_some tests
  cases skipped with
  | true =>
    cases built
    exact ⟨fun passes => absurd (tested.mpr passes) (by decide), fun _ => rfl⟩
  | false =>
    obtain ⟨⟨status, value⟩, resolves, same⟩ := Option.bind_eq_some_iff.mp built
    cases same
    refine ⟨fun _ => ?_, fun refused => absurd (tested.mp rfl) refused⟩
    rw [ReadServer.addressed, resolves]
    rfl

theorem eventField_perClause_iff : server.PerClause memory event clause field ↔
      server.addressed memory event clause = .variantEmpty ∨
        (server.Tested memory event firstType clause ↔ server.Selects event clause) := by
  obtain ⟨passes, refused⟩ := eventField_some built
  by_cases tested : server.Tested memory event firstType clause
  · by_cases selected : server.Selects event clause
    · exact iff_of_true ⟨fun _ => passes tested, fun other => absurd selected other⟩
        (.inr (iff_of_true tested selected))
    · constructor
      · intro claimed
        exact .inl ((passes tested).symm.trans (claimed.others selected))
      · rintro (nothing | same)
        · exact ⟨fun other => absurd other selected, fun _ => (passes tested).trans nothing⟩
        · exact absurd (same.mp tested) selected
  · by_cases selected : server.Selects event clause
    · constructor
      · intro claimed
        exact .inl ((claimed.selected selected).symm.trans (refused tested))
      · rintro (nothing | same)
        · exact ⟨fun _ => (refused tested).trans nothing.symm, fun other => absurd selected other⟩
        · exact absurd (same.mpr selected) tested
    · exact iff_of_true ⟨fun other => absurd other selected, fun _ => refused tested⟩
        (.inr (iff_of_false tested selected))

end

theorem eventFields_some {memory : Nat → ClauseMemory} : ∀ {clauses : List SimpleAttributeOperand}
    {start : Nat} {fields : List Value},
    server.eventFields memory event firstType start clauses = some fields →
      fields.length = clauses.length ∧
      ∀ index clause field, clauses[index]? = some clause → fields[index]? = some field →
        server.eventField (memory (start + index)) event firstType clause = some field := by
  intro clauses
  induction clauses with
  | nil =>
    intro start fields built
    cases built
    exact ⟨rfl, fun _ _ _ listed => by cases listed⟩
  | cons first rest ih =>
    intro start fields built
    obtain ⟨field, one, built⟩ := Option.bind_eq_some_iff.mp built
    obtain ⟨others, all, same⟩ := Option.bind_eq_some_iff.mp built
    cases same
    obtain ⟨length, each⟩ := ih all
    refine ⟨congrArg (· + 1) length, ?_⟩
    intro index clause found listed selected
    cases index with
    | zero =>
      cases listed
      cases selected
      exact one
    | succ index =>
      have later := each index clause found listed selected
      rwa [Nat.add_right_comm] at later

theorem eventField_ample {memory : ClauseMemory} (typePath : ∀ n, memory.typePath n = true)
    (path : ∀ n, memory.path n = true) (firstType : NodeId) :
    ∃ field, server.eventField memory event firstType clause = some field := by
  have tested : ∃ skipped, server.skipsClause memory event firstType clause = some skipped := by
    rw [ReadServer.skipsClause]
    split
    · exact ⟨_, rfl⟩
    · obtain ⟨bpr, found⟩ := @browseSimplifiedBrowsePath_ample server.space.store memory.typePath
        typePath event [eventTypeName] (by decide)
      rw [isValidEvent_eq, found]
      exact ⟨_, rfl⟩
  have resolves : ∃ result,
      server.resolveSimpleAttributeOperand memory event clause = some result := by
    rw [ReadServer.resolveSimpleAttributeOperand]
    split
    · exact ⟨_, rfl⟩
    · obtain ⟨bpr, found⟩ := @browseSimplifiedBrowsePath_ample server.space.store memory.path path
        event clause.browsePath clause.short
      rw [found]
      dsimp only [Option.bind_eq_bind, Option.bind_some]
      split
      · exact ⟨_, rfl⟩
      · split <;> exact ⟨_, rfl⟩
  obtain ⟨skipped, test⟩ := tested
  obtain ⟨⟨status, value⟩, result⟩ := resolves
  rw [ReadServer.eventField, test]
  cases skipped with
  | true => exact ⟨_, rfl⟩
  | false =>
    dsimp only [Option.bind_eq_bind, Option.bind_some]
    rw [if_neg Bool.false_ne_true, result]
    exact ⟨_, rfl⟩

theorem eventFields_ample {memory : Nat → ClauseMemory}
    (typePath : ∀ index n, (memory index).typePath n = true)
    (path : ∀ index n, (memory index).path n = true) (firstType : NodeId) :
    ∀ (clauses : List SimpleAttributeOperand) (start : Nat), ∃ fields,
      server.eventFields memory event firstType start clauses = some fields := by
  intro clauses
  induction clauses with
  | nil => exact fun _ => ⟨_, rfl⟩
  | cons first rest ih =>
    intro start
    obtain ⟨field, one⟩ := @eventField_ample server event first (memory start) (typePath start)
      (path start) firstType
    obtain ⟨fields, all⟩ := ih (start + 1)
    rw [ReadServer.eventFields, one]
    rw [all]
    exact ⟨_, rfl⟩

end Fields

/-- With memory there is a notification, and it has a field for each clause. A field is the one that its
clause selects exactly if the clause addresses nothing or the test of the code has the outcome of the
one for the clause. -/
theorem filterEvent_perClause_iff (server : ReadServer) (memory : FilterMemory) (event : NodeId)
    (first : SimpleAttributeOperand) (rest : List SimpleAttributeOperand) :
    (memory.Ample → ∃ fields, server.filterEvent memory event (first :: rest) = some (.ok fields)) ∧
    ∀ fields, server.filterEvent memory event (first :: rest) = some (.ok fields) →
      fields.length = (first :: rest).length ∧
      ∀ index clause field, (first :: rest)[index]? = some clause → fields[index]? = some field →
        (server.PerClause (memory.clause index) event clause field ↔
          server.addressed (memory.clause index) event clause = .variantEmpty ∨
            (server.Tested (memory.clause index) event first.typeDefinitionId clause ↔
              server.Selects event clause)) := by
  constructor
  · intro ample
    obtain ⟨fields, all⟩ := @eventFields_ample server event memory.clause ample.typePath ample.path
      first.typeDefinitionId (first :: rest) 0
    refine ⟨fields, ?_⟩
    rw [ReadServer.filterEvent, ample.fields, all]
    rfl
  · intro fields built
    rw [ReadServer.filterEvent] at built
    split at built
    · cases built
    · obtain ⟨all, loop, same⟩ := Option.map_eq_some_iff.mp built
      cases same
      obtain ⟨length, each⟩ := eventFields_some loop
      refine ⟨length, fun index clause field listed found => ?_⟩
      have one := each index clause field listed found
      rw [Nat.zero_add] at one
      exact eventField_perClause_iff one

def alarmId (identifier : BitVec 32) : NodeId := ⟨1, .numeric identifier⟩

/-- `Message` -/
def messageName : QualifiedName := ⟨0, .alloc [77, 101, 115, 115, 97, 103, 101]⟩

def propertyMembers (value : Value) : NodeMembers where
  dataType := .null
  valueRank := -2
  arrayDimensions := []
  value := .data ⟨default, true, value⟩
  accessLevel := accessLevelMaskRead
  writeMask := 0
  description := ⟨.null, .null⟩
  symmetric := false
  inverseName := ⟨.null, .null⟩
  containsNoLoops := false
  eventNotifier := 0
  minimumSamplingInterval := 0
  historizing := false
  executable := false

def alarmType : NodeId := alarmId 100

def alarmMessage : Value := .variantScalar uint32Type (.leaf (.uint32 7)) []

def alarmServer : ReadServer where
  space := {
    store := ⟨[ ⟨hierarchicalReferencesId, .referenceType, ⟨0, .null⟩, ⟨.null, .null⟩, true, []⟩,
      ⟨baseEventTypeId, .objectType, ⟨0, .null⟩, ⟨.null, .null⟩, true, []⟩,
      ⟨alarmType, .objectType, ⟨1, .null⟩, ⟨.null, .null⟩, false,
        [⟨hasSubtypeId, true, [.ofNodeId baseEventTypeId]⟩]⟩,
      ⟨alarmId 1, .object, ⟨1, .null⟩, ⟨.null, .null⟩, false,
        [⟨hierarchicalReferencesId, false, [.ofNodeId (alarmId 2), .ofNodeId (alarmId 3)]⟩]⟩,
      ⟨alarmId 2, .variable, eventTypeName, ⟨.null, .null⟩, false, []⟩,
      ⟨alarmId 3, .variable, messageName, ⟨.null, .null⟩, false, []⟩ ]⟩
    members := fun id =>
      if id = (alarmId 2).content then
        some (propertyMembers (.variantScalar nodeIdType (.leaf (.nodeId alarmType)) []))
      else if id = (alarmId 3).content then some (propertyMembers alarmMessage) else none }
  rights := ⟨⟨false, fun _ => 0, fun _ => accessLevelMaskRead⟩, fun _ => false⟩
  callbacks := ⟨fun _ _ value => value, fun _ _ => none⟩
  queueByte := fun _ => 0

def messageOf (typeDefinitionId : NodeId) : SimpleAttributeOperand :=
  ⟨typeDefinitionId, [messageName], .value, .null, by decide⟩

def ampleMemory : FilterMemory := ⟨true, fun _ => ⟨fun _ => true, fun _ => true, rangelessMemory⟩⟩

theorem alarm_eventType : alarmServer.eventType (alarmId 1) = some alarmType := rfl

/-- The event has the type of the second clause, and its field stays empty all the same. -/
theorem alarmClause_empty : alarmServer.filterEvent ampleMemory (alarmId 1)
        [messageOf baseEventTypeId, messageOf alarmType] =
          some (.ok [alarmMessage, .variantEmpty]) ∧
      ¬alarmServer.PerClause (ampleMemory.clause 1) (alarmId 1) (messageOf alarmType)
        .variantEmpty := by
  refine ⟨rfl, fun claimed => ?_⟩
  have lost : Value.variantEmpty = alarmMessage :=
    claimed.selected ⟨alarmType, alarm_eventType, .refl⟩
  cases lost

/-- The second clause is for a type that the event does not have. -/
theorem baseClause_selected :
    alarmServer.filterEvent ampleMemory (alarmId 1)
        [messageOf baseEventTypeId, messageOf (alarmId 200)] =
      some (.ok [alarmMessage, .variantEmpty]) ∧
    alarmServer.PerClause (ampleMemory.clause 0) (alarmId 1) (messageOf baseEventTypeId)
      alarmMessage ∧
    alarmServer.PerClause (ampleMemory.clause 1) (alarmId 1) (messageOf (alarmId 200))
      .variantEmpty := by
  obtain ⟨-, each⟩ := (filterEvent_perClause_iff alarmServer ampleMemory (alarmId 1)
    (messageOf baseEventTypeId) [messageOf (alarmId 200)]).2 [alarmMessage, .variantEmpty] rfl
  have single {source target : NodeIdContent} {node : Node}
      (found : alarmServer.space.store.nodeAt source = some node)
      (step : alarmServer.space.store.Inverse [hasSubtypeId] source target) :
      node.references ≠ [] := by
    obtain ⟨other, same, refs, member, -⟩ := inverse_iff.mp step
    rw [found] at same
    cases same
    exact List.ne_nil_of_mem member
  refine ⟨rfl, (each 0 _ _ rfl rfl).mpr (.inr ?_), (each 1 _ _ rfl rfl).mpr (.inr ?_)⟩
  · have above : alarmServer.space.store.Inverse [hasSubtypeId] alarmType.content
        baseEventTypeId.content :=
      inverse_iff.mpr ⟨_, rfl, _, List.mem_cons_self, rfl, ⟨_, List.mem_cons_self, rfl⟩, _,
        List.mem_cons_self, rfl⟩
    exact iff_of_true (.inl rfl) ⟨alarmType, alarm_eventType, .single above⟩
  · refine iff_of_false ?_ ?_
    · rintro (base | ⟨property, found, within⟩)
      · cases base
      · cases found
        rcases within with same | ⟨next, step, -⟩
        · cases same
        · exact single rfl step rfl
    · rintro ⟨type, found, reaches⟩
      rw [alarm_eventType] at found
      cases found
      rcases reaches.cases_head with same | ⟨next, step, rest⟩
      · cases same
      · obtain ⟨node, here, refs, member, -, -, targetId, inside, rfl⟩ := inverse_iff.mp step
        cases here
        obtain rfl := List.mem_singleton.mp member
        obtain rfl := List.mem_singleton.mp inside
        rcases rest.cases_head with same | ⟨next, step, -⟩
        · cases same
        · exact single rfl step rfl

end OpcUa
