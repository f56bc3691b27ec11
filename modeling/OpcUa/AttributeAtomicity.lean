import OpcUa.HeldReferences
import OpcUa.NodeAttributeCore
import OpcUa.VariantRangeWrites

/-!
What a write changes: nothing if it fails, and otherwise the attribute that it names. Only a range
of a value can go wrong, after all checks have passed and the elements are copied one by one.
-/

namespace OpcUa

open LittleEndian StatusCode RowMajor GatherScatter

/-! Attributes as they are stored -/

inductive AttributeContent where
  | nodeId (content : NodeId)
  | nodeClass (content : NodeClass)
  | qualifiedName (content : QualifiedName)
  | localizedText (content : LocalizedText)
  | number (content : BitVec 32)
  | byte (content : Byte)
  | boolean (content : Bool)
  | interval (content : BitVec 64)
  | value (content : ValueSource)
  | valueRank (content : Int)
  | arrayDimensions (content : List (BitVec 32))
  | computed

def EditedNode.attribute (edited : EditedNode) : NodeAttributeId → AttributeContent
  | .nodeId => .nodeId edited.1.nodeId
  | .nodeClass => .nodeClass edited.1.nodeClass
  | .browseName => .qualifiedName edited.1.browseName
  | .displayName => .localizedText edited.1.displayName
  | .description => .localizedText edited.2.description
  | .writeMask => .number edited.2.writeMask
  | .isAbstract => .boolean edited.1.isAbstract
  | .symmetric => .boolean edited.2.symmetric
  | .inverseName => .localizedText edited.2.inverseName
  | .containsNoLoops => .boolean edited.2.containsNoLoops
  | .eventNotifier => .byte edited.2.eventNotifier
  | .value => .value edited.2.value
  | .dataType => .nodeId edited.2.dataType
  | .valueRank => .valueRank edited.2.valueRank
  | .arrayDimensions => .arrayDimensions edited.2.arrayDimensions
  | .accessLevel => .byte edited.2.accessLevel
  | .minimumSamplingInterval => .interval edited.2.minimumSamplingInterval
  | .historizing => .boolean edited.2.historizing
  | .executable => .boolean edited.2.executable
  | _ => .computed

def EditedNode.SameBut (before after : EditedNode) (attributeId : NodeAttributeId) : Prop :=
  after.1.references = before.1.references ∧
    ∀ other, other ≠ attributeId → after.attribute other = before.attribute other

/-- The elements outside of the range are the same, and of the rest of the value all but the status
and the time of the source. -/
def RangeWritten (range : List NumericRangeDimension) : ValueSource → ValueSource → Prop
  | .data before, .data after =>
    after.hasValue = before.hasValue ∧ after.info.serverTimestamp = before.info.serverTimestamp ∧
      after.info.serverPicoseconds = before.info.serverPicoseconds ∧
      ∃ type undefined elements changed dimensions,
        before.value = .variantArray type undefined elements dimensions ∧
        after.value = .variantArray type undefined changed dimensions ∧
        changed.length = elements.length ∧
        ∀ position, position ∉ selectedPositions (arrayDims elements.length dimensions) range →
          changed[position]? = elements[position]?
  | .dataSource, .dataSource => True
  | _, _ => False

def AttributeSpace.editedAt (space : AttributeSpace) (id : NodeIdContent) :
    Option Node × Option NodeMembers :=
  (space.store.nodeAt id, space.members id)

structure WritesAtomically (space : AttributeSpace) (wvalue : NodeWriteValue)
    (status : StatusCode) (after : AttributeSpace) : Prop where
  failed : status ≠ good → ∀ id, after.editedAt id = space.editedAt id
  others : status = good → ∀ id, id ≠ wvalue.nodeId.content → after.editedAt id = space.editedAt id
  addressed : status = good → ∀ node members,
    space.editedAt wvalue.nodeId.content = (some node, some members) →
    ∃ written : EditedNode, after.editedAt wvalue.nodeId.content =
        (some written.1, some written.2) ∧
      EditedNode.SameBut (node, members) written wvalue.attributeId ∧
      (wvalue.attributeId = .value → ∀ range, 0 < wvalue.indexRange.length →
        parseRange wvalue.indexRange = some range →
        RangeWritten range members.value written.2.value)

structure RangeCopy where
  type : DataType
  undefined : Bool
  elements : List Value
  dimensions : List (BitVec 32)
  range : List NumericRangeDimension
  strides : Strides
  array : List Value

def RangeCopy.valueOf (copy : RangeCopy) (elements : List Value) : Value :=
  .variantArray copy.type copy.undefined elements copy.dimensions

/-- The checks of `writeValueAttributeWithRange` and of `Variant_setRange`. -/
def rangeCopy (stored value : DataValue) (range : List NumericRangeDimension) : Option RangeCopy :=
  if value.info.status.getD good ≠ stored.info.status.getD good ∨ value.hasValue = false ∨
    stored.hasValue = false then none
  else
    match stored.value, value.value.variantType with
    | .variantArray storedType undefined elements dimensions, some type =>
      if !nodeIdEqual storedType.typeId type.typeId then none
      else
        match computeStrides (.variantArray storedType undefined elements dimensions) range with
        | .error _ => none
        | .ok strides =>
          if strides.total ≠ (rangeElements value.value).length then none
          else some ⟨storedType, undefined, elements, dimensions, range, strides,
            rangeElements value.value⟩
    | _, _ => none

def valueRangeCopy (env : TypeEnv) (outcome : ValueOutcome) (store : Nodestore)
    (node : VariableAttributes) (value : DataValue) (indexRange : UaString) : Option RangeCopy :=
  let adjusted := adjustedValue env outcome node value
  if indexRange.length > 0 then
    match parseRange indexRange, node.value with
    | some range, .data stored =>
      if !checkValue store node value adjusted.value true then none
      else rangeCopy stored adjusted range
    | _, _ => none
  else none

def NodeWriteValue.rangeCopy (env : TypeEnv) (rights : WriteRights) (outcome : ValueOutcome)
    (space : AttributeSpace) (wvalue : NodeWriteValue) : Option RangeCopy := do
  let node ← space.store.getNode wvalue.nodeId
  let members ← space.members node.nodeId.content
  if wvalue.attributeId = .value ∧ checkValueAccess rights (node, members) = good then
    valueRangeCopy env outcome space.store members.toVariableAttributes wvalue.value
      wvalue.indexRange
  else none

/-- The type has no pointers, or the call of `UA_copy` for each element finds memory. -/
def RangeCopy.Copied (copy : RangeCopy) (memory : ElementMemory) : Prop :=
  memory.pointerFree copy.type = true ∨ memory.FindsAll copy.array

/-- If all elements are copied, what comes to a place outside of the range is there already.
Otherwise the write fails, and everything that it leaves is there already. -/
structure RangeCopy.Harmless (copy : RangeCopy) (memory : ElementMemory) : Prop where
  copied : copy.Copied memory → Lands copy.strides.visited copy.array copy.elements
    (· ∈ selectedPositions (arrayDims copy.elements.length copy.dimensions) copy.range)
  failed : ¬copy.Copied memory →
    Lands copy.strides.visited (memory.copies copy.type copy.array) copy.elements fun _ => False

/-- Behind the first dimension with more than one selected index all dimensions are selected
completely, up to the last one that is selected in part, and the copies find memory. -/
structure RangeCopy.Sound (copy : RangeCopy) (memory : ElementMemory) : Prop where
  contiguous : Contiguous
    (outer (extents (arrayDims copy.elements.length copy.dimensions) copy.range))
  copied : copy.Copied memory

/-- The product of the dimensions of a stored value fits into a `size_t`. Otherwise the places of
the elements can be outside of the array. -/
def ValueSource.Countable (source : ValueSource) : Prop :=
  ∀ stored, source = .data stored →
    (arrayDims stored.value.arrayLength stored.value.arrayDimensions).prod < 2 ^ 64

/-! A node that is edited -/

structure EditsAtomically (edited : EditedNode) (wvalue : NodeWriteValue)
    (result : StatusCode × EditedNode) : Prop where
  failed : result.1 ≠ good → result.2 = edited
  addressed : result.1 = good → EditedNode.SameBut edited result.2 wvalue.attributeId ∧
    (wvalue.attributeId = .value → ∀ range, 0 < wvalue.indexRange.length →
      parseRange wvalue.indexRange = some range →
      RangeWritten range edited.2.value result.2.2.value)

section Edits

variable {edited written : EditedNode} {wvalue : NodeWriteValue} {status : StatusCode}
variable {Argument : Type}

theorem EditsAtomically.refused (bad : status ≠ good) :
    EditsAtomically edited wvalue (status, edited) :=
  ⟨fun _ => rfl, fun equal => absurd equal bad⟩

theorem EditsAtomically.assigned (other : wvalue.attributeId ≠ .value)
    (same : EditedNode.SameBut edited written wvalue.attributeId) :
    EditsAtomically edited wvalue (good, written) :=
  ⟨fun bad => absurd rfl bad, fun _ => ⟨same, fun value => absurd value other⟩⟩

theorem checkedWrite_edits {classes : Bool} {userWriteMask mask : BitVec 32}
    {argument : Option Argument} {assign : Argument → StatusCode × EditedNode}
    (edits : ∀ given, EditsAtomically edited wvalue (assign given)) :
    EditsAtomically edited wvalue
      (checkedWrite edited classes userWriteMask mask argument assign) := by
  unfold checkedWrite
  split
  · exact .refused (by decide)
  split
  · exact .refused (by decide)
  cases argument with
  | none => exact .refused (by decide)
  | some given => exact edits given

theorem writeIsAbstractAttribute_edits (named : wvalue.attributeId = .isAbstract) (value : Bool) :
    EditsAtomically edited wvalue (writeIsAbstractAttribute edited value) := by
  have same : EditedNode.SameBut edited ({ edited.1 with isAbstract := value }, edited.2)
      wvalue.attributeId := by
    refine ⟨rfl, fun other apart => ?_⟩
    rw [named] at apart
    cases other <;> first | rfl | exact absurd rfl apart
  have other : wvalue.attributeId ≠ .value := by
    rw [named]
    decide
  unfold writeIsAbstractAttribute
  split
  · exact .assigned other same
  · exact .assigned other same
  · exact .assigned other same
  · exact .assigned other same
  · exact .refused (by decide)

def Assigns (node changed : VariableAttributes) (result : StatusCode × VariableAttributes) : Prop :=
  (result.1 ≠ good ∧ result.2 = node) ∨ result = (good, changed)

theorem Assigns.refused {node changed : VariableAttributes} (bad : status ≠ good) :
    Assigns node changed (status, node) :=
  .inl ⟨bad, rfl⟩

section Types

variable {outcome : ValueOutcome} {store : Nodestore} {nodeClass : NodeClass}
  {hasInstances : Bool} {node type : VariableAttributes}

theorem writeDataTypeAttribute_assigns (dataType : NodeId) : Assigns node { node with dataType }
      (writeDataTypeAttribute outcome store nodeClass hasInstances node type dataType) := by
  rw [writeDataTypeAttribute]
  split
  · exact .refused (by decide)
  split
  · exact .refused (by decide)
  cases readValueAttribute outcome node with
  | mk status value =>
    dsimp only
    split
    · exact .refused ‹_›
    split
    · exact .refused (by decide)
    split
    · exact .refused ‹_›
    exact .inr rfl

theorem writeArrayDimensionsAttribute_assigns (arrayDimensions : List (BitVec 32)) :
    Assigns node { node with arrayDimensions }
      (writeArrayDimensionsAttribute outcome nodeClass hasInstances node type arrayDimensions) := by
  rw [writeArrayDimensionsAttribute]
  split
  · exact .refused (by decide)
  split
  · exact .refused (by decide)
  split
  · exact .refused (by decide)
  cases readValueAttribute outcome node with
  | mk status value =>
    dsimp only
    split
    · exact .refused ‹_›
    split
    · exact .refused (by decide)
    split
    · exact .refused ‹_›
    exact .inr rfl

theorem writeValueRankAttribute_assigns (valueRank : Int) : Assigns node { node with valueRank }
      (writeValueRankAttribute outcome nodeClass hasInstances node type valueRank) := by
  have ranked (count : Nat) : Assigns node { node with valueRank }
      (if !compatibleValueRankArrayDimensions valueRank count then (badTypeMismatch, node)
        else (good, { node with valueRank })) := by
    split
    · exact .refused (by decide)
    · exact .inr rfl
  rw [writeValueRankAttribute]
  split
  · exact .refused (by decide)
  split
  · exact .refused (by decide)
  split
  · cases readValueAttribute outcome node with
    | mk status value =>
      dsimp only
      split
      · exact .refused ‹_›
      split
      · exact .inr rfl
      · exact ranked _
  · exact ranked _

end Types

theorem typedWrite_edits {type : Option NodeMembers}
    {write : VariableAttributes → Argument → StatusCode × VariableAttributes}
    {changed : Argument → VariableAttributes} (other : wvalue.attributeId ≠ .value)
    (assigns : ∀ type argument,
      Assigns edited.2.toVariableAttributes (changed argument) (write type argument))
    (same : ∀ argument, EditedNode.SameBut edited
      (edited.1, { edited.2 with toVariableAttributes := changed argument }) wvalue.attributeId)
    (argument : Argument) :
    EditsAtomically edited wvalue (typedWrite edited type write argument) := by
  unfold typedWrite
  cases type with
  | none => exact .refused (by decide)
  | some type =>
    dsimp only [NodeMembers.withVariable]
    rcases assigns type.toVariableAttributes argument with ⟨bad, unchanged⟩ | assigned
    · rw [unchanged]
      exact .refused bad
    · rw [assigned]
      exact .assigned other (same argument)

theorem copyAttributeIntoNode_edits (memory : ElementMemory) (env : TypeEnv) (rights : WriteRights)
    (outcome : ValueOutcome) (space : AttributeSpace) (edited : EditedNode)
    (wvalue : NodeWriteValue) (other : wvalue.attributeId ≠ .value) :
    EditsAtomically edited wvalue
      (memory.copyAttributeIntoNode env rights outcome space edited wvalue) := by
  obtain ⟨node, members⟩ := edited
  obtain ⟨nodeId, attributeId, indexRange, value⟩ := wvalue
  have assigned {written : EditedNode}
      (same : EditedNode.SameBut (node, members) written attributeId) :
      EditsAtomically (node, members) ⟨nodeId, attributeId, indexRange, value⟩ (good, written) :=
    .assigned other same
  cases attributeId with
  | value => exact absurd rfl other
  | isAbstract => exact checkedWrite_edits (writeIsAbstractAttribute_edits rfl)
  | dataType =>
    refine checkedWrite_edits (typedWrite_edits other
      (fun _ => writeDataTypeAttribute_assigns) fun _ => ⟨rfl, fun kept apart => ?_⟩)
    cases kept <;> first | rfl | exact absurd rfl apart
  | valueRank =>
    refine checkedWrite_edits (typedWrite_edits other
      (fun _ => writeValueRankAttribute_assigns) fun _ => ⟨rfl, fun kept apart => ?_⟩)
    cases kept <;> first | rfl | exact absurd rfl apart
  | arrayDimensions =>
    refine checkedWrite_edits (typedWrite_edits other
      (fun _ => writeArrayDimensionsAttribute_assigns) fun _ => ⟨rfl, fun kept apart => ?_⟩)
    cases kept <;> first | rfl | exact absurd rfl apart
  | nodeId | nodeClass | userWriteMask | userAccessLevel | userExecutable | unknown =>
    exact .refused (by decide)
  | _ =>
    refine checkedWrite_edits fun _ => assigned ⟨rfl, fun kept apart => ?_⟩
    cases kept <;> first | rfl | exact absurd rfl apart

end Edits

theorem computeStrides_empty {value : Value} {range : List NumericRangeDimension}
    {strides : Strides} (empty : value.arrayLength = 0)
    (countable : (arrayDims value.arrayLength value.arrayDimensions).prod < 2 ^ 64)
    (computed : computeStrides value range = .ok strides) : False := by
  obtain ⟨-, product, fits⟩ := computeStridesOf_ok (by decide) computed
  have positive := fits.prod_pos
  by_cases given : value.arrayDimensions = []
  · rw [arrayDims, if_pos given, empty] at positive
    cases positive
  · have remainder := product given
    omega

section RangeWrites

variable {memory : ElementMemory} {stored value : DataValue} {range : List NumericRangeDimension}
  {type storedType : DataType}
variable {copy : RangeCopy}

theorem setRange_refused {elements : Value} {array : List Value}
    (refused : ∀ strides, computeStrides elements range = .ok strides →
      strides.total ≠ array.length) :
    (memory.setRange elements array range true).status ≠ good ∧
      (memory.setRange elements array range true).value = elements := by
  rw [ElementMemory.setRange]
  cases computed : computeStrides elements range with
  | error status => exact ⟨computeStridesOf_bad computed, rfl⟩
  | ok strides =>
    dsimp only
    rw [if_pos (refused strides computed)]
    exact ⟨show badIndexRangeInvalid ≠ good by decide, rfl⟩

theorem writeValueAttributeWithRange_eq
    (present : ¬(value.info.status.getD good ≠ stored.info.status.getD good ∨
      value.hasValue = false ∨ stored.hasValue = false))
    (storedTyped : stored.value.variantType = some storedType)
    (typed : value.value.variantType = some type)
    (same : nodeIdEqual storedType.typeId type.typeId = true) :
    memory.writeValueAttributeWithRange stored value range =
      let written := memory.setRange stored.value (rangeElements value.value) range true
      if written.status ≠ good then (written.status, { stored with value := written.value })
      else (good, { stored with
        value := written.value
        info := { stored.info with
          status := value.info.status
          sourceTimestamp := value.info.sourceTimestamp
          sourcePicoseconds := value.info.sourcePicoseconds } }) := by
  rw [ElementMemory.writeValueAttributeWithRange, if_neg present, storedTyped, typed]
  dsimp only
  rw [same]
  rfl

theorem rangeCopy_none (countable : ValueSource.Countable (.data stored))
    (present : ¬(value.info.status.getD good ≠ stored.info.status.getD good ∨
      value.hasValue = false ∨ stored.hasValue = false))
    (storedTyped : stored.value.variantType = some storedType)
    (typed : value.value.variantType = some type)
    (same : nodeIdEqual storedType.typeId type.typeId = true)
    (refused : rangeCopy stored value range = none) {strides : Strides}
    (computed : computeStrides stored.value range = .ok strides) :
    strides.total ≠ (rangeElements value.value).length := by
  have sized := countable stored rfl
  rw [rangeCopy, if_neg present, typed] at refused
  cases content : stored.value with
  | variantArray arrayType undefined elements dimensions =>
    rw [content] at storedTyped computed refused
    obtain rfl := Option.some.inj storedTyped
    dsimp only at refused
    rw [same, computed] at refused
    intro total
    dsimp only at refused
    rw [if_neg (not_not.mpr total)] at refused
    cases refused
  | variantScalar scalarType data dimensions =>
    rw [content] at computed sized
    exact (computeStrides_empty rfl sized computed).elim
  | _ =>
    rw [content] at storedTyped
    cases storedTyped

theorem writeValueAttributeWithRange_refused (countable : ValueSource.Countable (.data stored))
    (refused : rangeCopy stored value range = none) :
    ∃ status, status ≠ good ∧
      memory.writeValueAttributeWithRange stored value range = (status, stored) := by
  by_cases absent : value.info.status.getD good ≠ stored.info.status.getD good ∨
      value.hasValue = false ∨ stored.hasValue = false
  · rw [ElementMemory.writeValueAttributeWithRange, if_pos absent]
    exact ⟨_, by decide, rfl⟩
  cases storedTyped : stored.value.variantType with
  | none =>
    rw [ElementMemory.writeValueAttributeWithRange, if_neg absent, storedTyped]
    exact ⟨_, by decide, rfl⟩
  | some storedType =>
    cases typed : value.value.variantType with
    | none =>
      rw [ElementMemory.writeValueAttributeWithRange, if_neg absent, storedTyped, typed]
      exact ⟨_, by decide, rfl⟩
    | some type =>
      cases same : nodeIdEqual storedType.typeId type.typeId with
      | false =>
        rw [ElementMemory.writeValueAttributeWithRange, if_neg absent, storedTyped, typed]
        dsimp only
        rw [same]
        exact ⟨_, by decide, rfl⟩
      | true =>
        have unfit (strides : Strides) :=
          @rangeCopy_none _ _ _ _ _ countable absent storedTyped typed same refused strides
        obtain ⟨bad, unchanged⟩ := @setRange_refused memory _ _ _ unfit
        rw [writeValueAttributeWithRange_eq absent storedTyped typed same]
        dsimp only
        rw [if_pos bad, unchanged]
        exact ⟨_, bad, rfl⟩

structure Copies (copy : RangeCopy) (stored value : DataValue) (range : List NumericRangeDimension) :
    Prop where
  present : ¬(value.info.status.getD good ≠ stored.info.status.getD good ∨
    value.hasValue = false ∨ stored.hasValue = false)
  content : stored.value = copy.valueOf copy.elements
  typed : ∃ type, value.value.variantType = some type ∧
    nodeIdEqual copy.type.typeId type.typeId = true
  ranged : copy.range = range
  computed : computeStrides stored.value range = .ok copy.strides
  total : copy.strides.total = copy.array.length
  array : copy.array = rangeElements value.value

theorem Copies.enough (copies : Copies copy stored value range) :
    copy.strides.visited.length ≤ copy.array.length := by
  rw [Strides.visited, strided_length, ← copies.total]
  exact Nat.div_mul_le_self ..

theorem rangeCopy_some (found : rangeCopy stored value range = some copy) :
    Copies copy stored value range := by
  rw [rangeCopy] at found
  split at found
  · cases found
  rename_i present
  split at found
  · rename_i arrayType undefined elements dimensions type content typed
    split at found
    · cases found
    rename_i same
    rw [Bool.not_eq_true', Bool.not_eq_false] at same
    cases computed : computeStrides (.variantArray arrayType undefined elements dimensions) range with
    | error status =>
      rw [computed] at found
      cases found
    | ok strides =>
      rw [computed] at found
      dsimp only at found
      split at found
      · cases found
      rename_i total
      obtain rfl := Option.some.inj found
      exact ⟨present, content, ⟨type, typed, same⟩, rfl, content ▸ computed, not_not.mp total, rfl⟩
  · cases found

theorem writeValueAttributeWithRange_copies {copy : RangeCopy}
    (copies : Copies copy stored value range) :
    (copy.Copied memory → ∃ info : DataValueInfo,
      info.serverTimestamp = stored.info.serverTimestamp ∧
      info.serverPicoseconds = stored.info.serverPicoseconds ∧
      memory.writeValueAttributeWithRange stored value range = (good, ⟨info, stored.hasValue,
        copy.valueOf (scatter copy.strides.visited copy.array copy.elements)⟩)) ∧
    (¬copy.Copied memory → ∃ status, status ≠ good ∧
      memory.writeValueAttributeWithRange stored value range = (status, ⟨stored.info,
        stored.hasValue, copy.valueOf (scatter copy.strides.visited
          (memory.copies copy.type copy.array) copy.elements)⟩)) := by
  obtain ⟨type, typed, same⟩ := copies.typed
  have storedTyped : stored.value.variantType = some copy.type := by
    rw [copies.content]
    rfl
  have computed := copies.computed
  rw [copies.content] at computed
  have written := @ElementMemory.setRange_eq memory copy.type copy.undefined true copy.elements
    copy.array copy.dimensions range copy.strides computed copies.total
  have results := ElementMemory.copyResults_good memory copy.array
  rw [writeValueAttributeWithRange_eq copies.present storedTyped typed same, ← copies.array,
    copies.content, RangeCopy.valueOf, written]
  cases pointers : memory.pointerFree copy.type with
  | true =>
    constructor
    · intro _
      refine ⟨_, ?_, ?_, rfl⟩
      all_goals rfl
    · intro missing
      exact absurd (Or.inl pointers) missing
  | false =>
    have found : copy.Copied memory ↔ memory.FindsAll copy.array := by
      rw [RangeCopy.Copied, pointers]
      exact ⟨fun copied => copied.resolve_left Bool.false_ne_true, .inr⟩
    rw [found]
    constructor
    · intro all
      rw [ElementMemory.copies_eq_self all, results.mpr all]
      refine ⟨_, ?_, ?_, rfl⟩
      all_goals rfl
    · intro missing
      have bad := mt results.mp missing
      exact ⟨_, bad, if_pos bad⟩

section Sound

variable (copies : Copies copy stored value range)
  (countable : ValueSource.Countable (.data stored))
include copies countable

theorem Copies.described :
    (arrayDims copy.elements.length copy.dimensions).prod = copy.elements.length ∧
      copy.strides.Describes (arrayDims copy.elements.length copy.dimensions) copy.range := by
  have sized := countable stored rfl
  have computed := copies.computed
  rw [copies.content] at sized computed
  obtain ⟨short, product, fits⟩ := computeStridesOf_ok (by decide) computed
  have consistent :
      (arrayDims copy.elements.length copy.dimensions).prod = copy.elements.length := by
    by_cases given : copy.dimensions = []
    · rw [arrayDims, if_pos given, List.prod_singleton]
    · have remainder := product given
      rwa [Nat.mod_eq_of_lt sized] at remainder
  obtain ⟨strides, known, describes⟩ := fits.strides copy.type copy.undefined consistent short
  obtain rfl := Except.ok.inj (computed.symm.trans known)
  exact ⟨consistent, copies.ranged ▸ describes⟩

theorem Copies.harmless (sound : copy.Sound memory) : copy.Harmless memory := by
  refine ⟨fun _ index position entry old here _ _ _ outside => ?_,
    fun missing => absurd sound.copied missing⟩
  rw [(copies.described countable).2.selects.mpr sound.contiguous] at here
  exact absurd (List.mem_of_getElem? here) outside

theorem Copies.sound (harmless : copy.Harmless memory)
    (distinct : (memory.null copy.type :: (copy.elements ++ copy.array)).Nodup) :
    copy.Sound memory := by
  obtain ⟨consistent, describes⟩ := copies.described countable
  obtain ⟨absent, distinct⟩ := List.nodup_cons.mp distinct
  have apart := (List.nodup_append.mp distinct).2.2
  have length : copy.strides.visited.length = copy.array.length := by
    rw [Strides.visited, strided_length, describes.counted, copies.total]
  have stored {position : Nat} (visited : position ∈ copy.strides.visited) :
      ∃ old, copy.elements[position]? = some old :=
    ⟨_, List.getElem?_eq_getElem (consistent ▸ describes.inside position visited)⟩
  have once {index position : Nat} (here : copy.strides.visited[index]? = some position) (later : Nat)
      (behind : index < later) : copy.strides.visited[later]? ≠ some position := by
    intro again
    have inside := (List.getElem?_eq_some_iff.mp here).1
    exact absurd ((List.getElem?_inj inside describes.nodup).mp (here.trans again.symm))
      (Nat.ne_of_lt behind)
  have copied : copy.Copied memory := by
    by_contra missing
    have lost : ¬memory.FindsAll copy.array := fun found => missing (.inr found)
    simp only [ElementMemory.FindsAll, not_forall] at lost
    obtain ⟨index, element, here, lost⟩ := lost
    have below : index < copy.strides.visited.length :=
      length ▸ (List.getElem?_eq_some_iff.mp here).1
    have place := List.getElem?_eq_getElem below
    obtain ⟨old, held⟩ := stored (List.mem_of_getElem? place)
    have null : (memory.copies copy.type copy.array)[index]? = some (memory.null copy.type) := by
      rw [ElementMemory.copies, List.getElem?_mapIdx, here, Option.map_some, if_neg lost]
    have same := harmless.failed missing index _ _ _ place (once place) null held not_false
    exact absent (same ▸ List.mem_append_left _ (List.mem_of_getElem? held))
  refine ⟨describes.selects.mp ?_, copied⟩
  have subset : copy.strides.visited ⊆
      selectedPositions (arrayDims copy.elements.length copy.dimensions) copy.range := by
    intro position visited
    by_contra outside
    obtain ⟨index, place⟩ := List.mem_iff_getElem?.mp visited
    obtain ⟨old, held⟩ := stored visited
    have below : index < copy.array.length := length ▸ (List.getElem?_eq_some_iff.mp place).1
    have entry := List.getElem?_eq_getElem below
    have same := harmless.copied copied index position _ _ place (once place) entry held outside
    exact apart old (List.mem_of_getElem? held) _ (List.mem_of_getElem? entry) same.symm
  have selected : (selectedPositions (arrayDims copy.elements.length copy.dimensions)
      copy.range).Pairwise (· < ·) := List.pairwise_lt_range.filter _
  have perm := (List.subperm_of_subset describes.nodup subset).perm_of_length_le
    (Nat.le_of_eq describes.visited_length.symm)
  exact describes.ordered.eq_of_mem_iff selected fun _ => perm.mem_iff

end Sound

end RangeWrites

section Values

variable {memory : ElementMemory} {env : TypeEnv} {outcome : ValueOutcome} {store : Nodestore}
  {node : VariableAttributes} {value : DataValue} {indexRange : UaString}

theorem writeValueAttribute_assigns (countable : node.value.Countable)
    (refused : valueRangeCopy env outcome store node value indexRange = none) :
    ∃ source, Assigns node { node with value := source }
        (memory.writeValueAttribute env outcome store node value indexRange) ∧
      (0 < indexRange.length →
        (memory.writeValueAttribute env outcome store node value indexRange).1 = good →
        node.value = .dataSource ∧ source = .dataSource) := by
  obtain ⟨dataType, valueRank, arrayDimensions, source, accessLevel, writeMask⟩ := node
  have kept {status : StatusCode} {Goal : Prop} (bad : status ≠ good) (written : status = good) :
      Goal := absurd written bad
  rw [valueRangeCopy] at refused
  rw [ElementMemory.writeValueAttribute]
  by_cases ranged : indexRange.length > 0
  · rw [if_pos ranged] at refused ⊢
    cases parsed : parseRange indexRange with
    | none =>
      have bad : badIndexRangeInvalid ≠ good := by decide
      exact ⟨source, .refused bad, fun _ => kept bad⟩
    | some range =>
      rw [parsed] at refused
      dsimp only [Option.isSome_some] at refused ⊢
      split
      · have bad : badTypeMismatch ≠ good := by decide
        exact ⟨source, .refused bad, fun _ => kept bad⟩
      rename_i checked
      cases source with
      | dataSource =>
        refine ⟨.dataSource, ?_, fun _ _ => ⟨rfl, rfl⟩⟩
        by_cases written : outcome.sourceWrite = good
        · exact .inr (congrArg (·, _) written)
        · exact .refused written
      | data stored =>
        dsimp only at refused ⊢
        rw [if_neg checked] at refused
        obtain ⟨status, bad, unchanged⟩ :=
          @writeValueAttributeWithRange_refused memory _ _ _ countable refused
        rw [unchanged]
        exact ⟨.data stored, .refused bad, fun _ => kept bad⟩
  · rw [if_neg ranged]
    dsimp only [Option.isSome_none]
    have plain {Goal : Prop} (impossible : 0 < indexRange.length) : Goal := absurd impossible ranged
    cases source with
    | dataSource =>
      refine ⟨.dataSource, ?_, plain⟩
      split
      · exact .refused (by decide)
      by_cases written : outcome.sourceWrite = good
      · exact .inr (congrArg (·, _) written)
      · exact .refused written
    | data stored =>
      let node : VariableAttributes :=
        ⟨dataType, valueRank, arrayDimensions, .data stored, accessLevel, writeMask⟩
      refine ⟨.data (adjustedValue env outcome node value), ?_, plain⟩
      split
      · exact .refused (by decide)
      by_cases copied : outcome.copy ≠ good
      · rw [if_pos copied]
        exact .refused copied
      · rw [if_neg copied]
        exact .inr rfl

theorem writeValueAttribute_copies {copy : RangeCopy}
    (found : valueRangeCopy env outcome store node value indexRange = some copy) :
    ∃ stored range, node.value = .data stored ∧ 0 < indexRange.length ∧
      parseRange indexRange = some range ∧
      Copies copy stored (adjustedValue env outcome node value) range ∧
      memory.writeValueAttribute env outcome store node value indexRange =
        let (status, changed) := memory.writeValueAttributeWithRange stored
          (adjustedValue env outcome node value) range
        (status, { node with value := .data changed }) := by
  rw [valueRangeCopy] at found
  rw [ElementMemory.writeValueAttribute]
  split at found
  · rename_i ranged
    split at found
    · rename_i range stored parsed source
      split at found
      · cases found
      rename_i checked
      refine ⟨stored, range, source, ranged, parsed, rangeCopy_some found, ?_⟩
      rw [if_pos ranged, parsed]
      dsimp only [Option.isSome_some]
      rw [if_neg checked, source]
    · cases found
  · cases found

end Values

section ValueEdits

variable {memory : ElementMemory} {edited : EditedNode} {wvalue : NodeWriteValue}
variable {copy : RangeCopy} {stored value : DataValue} {range : List NumericRangeDimension}

theorem sameBut_value (named : wvalue.attributeId = .value) (source : ValueSource) :
    EditedNode.SameBut edited (edited.1, { edited.2 with
      toVariableAttributes := { edited.2.toVariableAttributes with value := source } })
      wvalue.attributeId := by
  refine ⟨rfl, fun kept apart => ?_⟩
  rw [named] at apart
  cases kept <;> first | rfl | exact absurd rfl apart

theorem rangeWritten_iff (copies : Copies copy stored value range) {info : DataValueInfo}
    (server : info.serverTimestamp = stored.info.serverTimestamp)
    (picoseconds : info.serverPicoseconds = stored.info.serverPicoseconds) :
    RangeWritten range (.data stored) (.data ⟨info, stored.hasValue,
        copy.valueOf (scatter copy.strides.visited copy.array copy.elements)⟩) ↔
      Lands copy.strides.visited copy.array copy.elements
        (· ∈ selectedPositions (arrayDims copy.elements.length copy.dimensions) copy.range) := by
  rw [← scatter_keeps_iff copies.enough, copies.ranged]
  constructor
  · rintro ⟨_, _, _, type, undefined, elements, changed, dimensions, before, after, _, same⟩
    rw [copies.content] at before
    cases before
    cases after
    exact same
  · intro same
    exact ⟨rfl, server, picoseconds, _, _, _, _, _, copies.content, rfl, scatter_length .., same⟩

theorem failed_iff (copies : Copies copy stored value range) (memory : ElementMemory) :
    (⟨stored.info, stored.hasValue, copy.valueOf (scatter copy.strides.visited
        (memory.copies copy.type copy.array) copy.elements)⟩ : DataValue) = stored ↔
      Lands copy.strides.visited (memory.copies copy.type copy.array) copy.elements
        fun _ => False := by
  have enough : copy.strides.visited.length ≤ (memory.copies copy.type copy.array).length := by
    rw [ElementMemory.copies_length]
    exact copies.enough
  rw [← scatter_keeps_iff enough]
  constructor
  · intro same position _
    have contents : copy.valueOf (scatter copy.strides.visited
        (memory.copies copy.type copy.array) copy.elements) = copy.valueOf copy.elements :=
      (congrArg DataValue.value same).trans copies.content
    injection contents with _ _ equal _
    rw [equal]
  · intro same
    rw [List.ext_getElem? fun position => same position not_false, ← copies.content]

theorem copyValueIntoNode_edits {env : TypeEnv} {rights : WriteRights} {outcome : ValueOutcome}
    {store : Nodestore} (named : wvalue.attributeId = .value)
    (countable : edited.2.value.Countable) :
    EditsAtomically edited wvalue
        (memory.copyValueIntoNode env rights outcome store edited wvalue) ↔
      ∀ copy, checkValueAccess rights edited = good →
        valueRangeCopy env outcome store edited.2.toVariableAttributes wvalue.value
          wvalue.indexRange = some copy →
        copy.Harmless memory := by
  rw [ElementMemory.copyValueIntoNode]
  by_cases access : checkValueAccess rights edited = good
  swap
  · rw [if_pos access]
    exact ⟨fun _ _ granted => absurd granted access, fun _ => .refused access⟩
  rw [if_neg (not_not.mpr access)]
  cases found : valueRangeCopy env outcome store edited.2.toVariableAttributes wvalue.value
      wvalue.indexRange with
  | none =>
    obtain ⟨source, assigns, ranged⟩ :=
      @writeValueAttribute_assigns memory env outcome store _ _ _ countable found
    refine iff_of_true ?_ fun _ _ impossible => nomatch impossible
    revert assigns ranged
    generalize memory.writeValueAttribute env outcome store edited.2.toVariableAttributes
      wvalue.value wvalue.indexRange = result
    obtain ⟨status, node⟩ := result
    rintro (⟨bad, rfl⟩ | assigned) ranged
    · exact .refused bad
    · cases assigned
      refine ⟨fun bad => absurd rfl bad, fun _ => ⟨sameBut_value named source, ?_⟩⟩
      intro _ range given _
      obtain ⟨before, rfl⟩ := ranged given rfl
      rw [before]
      trivial
  | some copy =>
    obtain ⟨stored, range, source, ranged, parsed, copies, written⟩ :=
      @writeValueAttribute_copies memory _ _ _ _ _ _ _ found
    obtain ⟨copied, failed⟩ := @writeValueAttributeWithRange_copies memory _ _ _ _ copies
    rw [written]
    have only : (∀ other, checkValueAccess rights edited = good → some copy = some other →
        other.Harmless memory) ↔ copy.Harmless memory :=
      ⟨fun all => all copy access rfl, fun harmless _ _ same => Option.some.inj same ▸ harmless⟩
    rw [only]
    by_cases all : copy.Copied memory
    · obtain ⟨info, server, picoseconds, result⟩ := copied all
      have ranges := rangeWritten_iff copies server picoseconds
      rw [result]
      constructor
      · intro edits
        refine ⟨fun _ => ranges.mp ?_, fun missing => absurd all missing⟩
        rw [← source]
        exact (edits.addressed rfl).2 named range ranged parsed
      · intro harmless
        refine ⟨fun bad => absurd rfl bad, fun _ => ⟨sameBut_value named _, ?_⟩⟩
        intro _ other _ again
        cases parsed.symm.trans again
        rw [source]
        exact ranges.mpr (harmless.copied all)
    · obtain ⟨status, bad, result⟩ := failed all
      have leaves := failed_iff copies memory
      rw [result]
      dsimp only [NodeMembers.withVariable]
      constructor
      · intro edits
        refine ⟨fun copied => absurd copied all, fun _ => leaves.mp ?_⟩
        have same := congrArg (fun written : EditedNode => written.2.value) (edits.failed bad)
        exact ValueSource.data.inj (same.trans source)
      · intro harmless
        rw [leaves.mpr (harmless.failed all), ← source]
        exact .refused bad

end ValueEdits

section Writes

variable {memory : ElementMemory} {env : TypeEnv} {rights : WriteRights} {outcome : ValueOutcome}
  {space : AttributeSpace} {wvalue : NodeWriteValue} {node : Node} {members : NodeMembers}

theorem copyAttributeIntoNode_nodeId (edited : EditedNode) :
    (memory.copyAttributeIntoNode env rights outcome space edited wvalue).2.1.nodeId
      = edited.1.nodeId := by
  by_cases named : wvalue.attributeId = .value
  · obtain ⟨nodeId, attributeId, indexRange, value⟩ := wvalue
    obtain rfl := named
    unfold ElementMemory.copyAttributeIntoNode
    dsimp only
    rw [ElementMemory.copyValueIntoNode]
    split
    · rfl
    · rfl
  · have edits := copyAttributeIntoNode_edits memory env rights outcome space edited wvalue named
    by_cases written :
        (memory.copyAttributeIntoNode env rights outcome space edited wvalue).1 = good
    · by_cases id : wvalue.attributeId = .nodeId
      · obtain ⟨nodeId, attributeId, indexRange, value⟩ := wvalue
        obtain rfl := id
        rfl
      · have same := (edits.addressed written).1.2 .nodeId (Ne.symm id)
        injection same
    · rw [edits.failed written]

def AttributeSpace.withEdited (space : AttributeSpace) (edited : EditedNode) : AttributeSpace :=
  ⟨space.store.replaceNode edited.1,
    Function.update space.members edited.1.nodeId.content (some edited.2)⟩

theorem editedAt_withEdited {edited : EditedNode}
    (stored : space.editedAt edited.1.nodeId.content = (some node, some members))
    (id : NodeIdContent) :
    (space.withEdited edited).editedAt id =
      if id = edited.1.nodeId.content then (some edited.1, some edited.2)
      else space.editedAt id := by
  have present : edited.1.nodeId.content ∈ space.store.stored := ⟨node, congrArg Prod.fst stored⟩
  rw [AttributeSpace.editedAt, AttributeSpace.withEdited]
  dsimp only
  rw [nodeAt_replaceNode present]
  by_cases here : id = edited.1.nodeId.content
  · rw [if_pos here, if_pos here, here, Function.update_self]
  · rw [if_neg here, if_neg here, Function.update_of_ne here]
    rfl

theorem writesAtomically_iff {status : StatusCode} {written : EditedNode}
    (stored : space.editedAt wvalue.nodeId.content = (some node, some members))
    (addressed : written.1.nodeId.content = wvalue.nodeId.content) :
    WritesAtomically space wvalue status (space.withEdited written) ↔
      EditsAtomically (node, members) wvalue (status, written) := by
  have after := fun id => @editedAt_withEdited space node members written (addressed ▸ stored) id
  rw [addressed] at after
  have here : (space.withEdited written).editedAt wvalue.nodeId.content
      = (some written.1, some written.2) := by rw [after, if_pos rfl]
  constructor
  · rintro ⟨failed, others, changes⟩
    constructor
    · intro bad
      have same := failed bad wvalue.nodeId.content
      rw [here, stored] at same
      cases same
      rfl
    · intro succeeded
      obtain ⟨⟨_, _⟩, found, same, ranged⟩ := changes succeeded node members stored
      obtain ⟨_, _⟩ := written
      rw [here] at found
      cases found
      exact ⟨same, ranged⟩
  · rintro ⟨failed, changes⟩
    constructor
    · intro bad id
      obtain rfl : written = (node, members) := failed bad
      rw [after]
      by_cases there : id = wvalue.nodeId.content
      · rw [if_pos there, there, stored]
      · rw [if_neg there]
    · intro _ id apart
      rw [after, if_neg apart]
    · intro good other others found
      rw [stored] at found
      cases found
      exact ⟨written, here, (changes good).1, (changes good).2⟩

theorem rangeCopy_copies (memory : ElementMemory) {copy : RangeCopy}
    (countable : ∀ members, space.members wvalue.nodeId.content = some members →
      members.value.Countable)
    (found : wvalue.rangeCopy env rights outcome space = some copy) : ∃ stored value range,
      Copies copy stored value range ∧ ValueSource.Countable (.data stored) := by
  obtain ⟨node, here, found⟩ := Option.bind_eq_some_iff.mp found
  obtain ⟨members, known, found⟩ := Option.bind_eq_some_iff.mp found
  split at found
  · obtain ⟨stored, range, source, -, -, copies, -⟩ :=
      @writeValueAttribute_copies memory _ _ _ _ _ _ _ found
    rw [getNode_eq] at here
    rw [nodeAt_content here] at known
    exact ⟨stored, _, range, copies, source ▸ countable members known⟩
  · cases found

end Writes

/-- Only a range of a value can go wrong: by a place outside of the range, or by a copy that finds no
memory behind others that did. -/
theorem operationWrite_harmless (memory : ElementMemory) (env : TypeEnv) (rights : WriteRights)
    (outcome : ValueOutcome) (space : AttributeSpace) (wvalue : NodeWriteValue)
    (countable : ∀ members, space.members wvalue.nodeId.content = some members →
      members.value.Countable) :
    WritesAtomically space wvalue (memory.operationWrite env rights outcome space wvalue).1
        (memory.operationWrite env rights outcome space wvalue).2 ↔
      ∀ copy, wvalue.rangeCopy env rights outcome space = some copy → copy.Harmless memory := by
  have missing (bad : memory.operationWrite env rights outcome space wvalue
        = (badNodeIdUnknown, space))
      (none : wvalue.rangeCopy env rights outcome space = none) :
      WritesAtomically space wvalue (memory.operationWrite env rights outcome space wvalue).1
          (memory.operationWrite env rights outcome space wvalue).2 ↔
        ∀ copy, wvalue.rangeCopy env rights outcome space = some copy → copy.Harmless memory := by
    have unknown : badNodeIdUnknown ≠ good := by decide
    rw [bad, none]
    refine iff_of_true ⟨fun _ _ => rfl, ?_, ?_⟩ fun _ impossible => nomatch impossible
    · exact fun written => absurd written unknown
    · exact fun written => absurd written unknown
  cases found : space.store.getNode wvalue.nodeId with
  | none =>
    apply missing
    · rw [ElementMemory.operationWrite, found]
    · rw [NodeWriteValue.rangeCopy, found]
      rfl
  | some node =>
    have stored := getNode_eq space.store wvalue.nodeId ▸ found
    have id := nodeAt_content stored
    cases known : space.members node.nodeId.content with
    | none =>
      apply missing
      · rw [ElementMemory.operationWrite, found]
        dsimp only
        rw [known]
      · rw [NodeWriteValue.rangeCopy, found]
        change (space.members node.nodeId.content).bind _ = _
        rw [known]
        rfl
    | some members =>
      have counted := countable members (id ▸ known)
      have held : space.editedAt wvalue.nodeId.content = (some node, some members) := by
        rw [AttributeSpace.editedAt, stored, ← id, known]
      have written : memory.operationWrite env rights outcome space wvalue
          = ((memory.copyAttributeIntoNode env rights outcome space (node, members) wvalue).1,
            space.withEdited (memory.copyAttributeIntoNode env rights outcome space
              (node, members) wvalue).2) := by
        have kept := @copyAttributeIntoNode_nodeId memory env rights outcome space wvalue
          (node, members)
        rw [ElementMemory.operationWrite, found]
        dsimp only
        rw [known]
        dsimp only
        rw [AttributeSpace.withEdited, kept]
      rw [written, writesAtomically_iff held (by rw [copyAttributeIntoNode_nodeId, id])]
      have copies : wvalue.rangeCopy env rights outcome space =
          if wvalue.attributeId = .value ∧ checkValueAccess rights (node, members) = good then
            valueRangeCopy env outcome space.store members.toVariableAttributes wvalue.value
              wvalue.indexRange
          else none := by
        rw [NodeWriteValue.rangeCopy, found]
        change (space.members node.nodeId.content).bind _ = _
        rw [known]
        rfl
      rw [copies]
      by_cases named : wvalue.attributeId = .value
      · have edits := @copyValueIntoNode_edits memory (node, members) wvalue env rights outcome
          space.store named counted
        have branch : memory.copyAttributeIntoNode env rights outcome space (node, members) wvalue
            = memory.copyValueIntoNode env rights outcome space.store (node, members) wvalue := by
          unfold ElementMemory.copyAttributeIntoNode
          rw [named]
        rw [branch]
        by_cases access : checkValueAccess rights (node, members) = good
        · rw [if_pos ⟨named, access⟩]
          exact edits.trans ⟨fun all copy => all copy access, fun all copy _ => all copy⟩
        · rw [if_neg fun both => access both.2]
          exact iff_of_true (edits.mpr fun _ granted => absurd granted access)
            fun _ impossible => nomatch impossible
      · rw [if_neg fun both => named both.1]
        exact iff_of_true (copyAttributeIntoNode_edits memory env rights outcome space _ _ named)
          fun _ impossible => nomatch impossible

def valueId : NodeId := ⟨1, .numeric 5⟩

def valueMembers (value : Value) : NodeMembers where
  dataType := value.variantType.elim .null DataType.typeId
  valueRank := -2
  arrayDimensions := []
  value := .data ⟨⟨none, none, none, none, none⟩, true, value⟩
  accessLevel := 3
  writeMask := 0
  description := ⟨.null, .null⟩
  symmetric := false
  inverseName := ⟨.null, .null⟩
  containsNoLoops := false
  eventNotifier := 0
  minimumSamplingInterval := 0
  historizing := false
  executable := false

def valueNode : Node := ⟨valueId, .variable, ⟨1, .null⟩, ⟨.null, .null⟩, false, []⟩

def valueSpace (value : Value) : AttributeSpace where
  store := ⟨[valueNode]⟩
  members id := if id = valueId.content then some (valueMembers value) else none

def rangeWrite (range : String) (value : Value) : NodeWriteValue where
  nodeId := valueId
  attributeId := .value
  indexRange := .alloc (range.toList.map fun character => BitVec.ofNat 8 character.toNat)
  value := ⟨⟨none, none, none, none, none⟩, true, value⟩

def plainValues : ValueOutcome :=
  ⟨(good, ⟨⟨none, none, none, none, none⟩, false, .variantEmpty⟩), good, 0, good⟩
def matrixValue : Value := .variantArray byteType false (byteElements [1, 2, 3, 4]) [2, 2]

def cubeValue : Value :=
  .variantArray byteType false (byteElements [1, 2, 3, 4, 5, 6, 7, 8, 9, 10, 11, 12]) [2, 3, 2]

def textsValue (first second : Byte) : Value :=
  .variantArray stringType false
    [.leaf (.string (.alloc [first])), .leaf (.string (.alloc [second]))] []

def matrixWrite : NodeWriteValue :=
  rangeWrite "0:1,1" (.variantArray byteType false (byteElements [8, 9]) [])

def cubeWrite : NodeWriteValue :=
  rangeWrite "0:1,0:1,0" (.variantArray byteType false (byteElements [21, 22, 23, 24]) [])

def textsWrite : NodeWriteValue := rangeWrite "0:1" (textsValue 99 100)

def scarceMemory : ElementMemory := { stringMemory with found := fun index _ => index = 0 }

def writtenRange (memory : ElementMemory) (value : Value) (wvalue : NodeWriteValue) :
    StatusCode × AttributeSpace :=
  memory.operationWrite ⟨[], []⟩ adminRights plainValues (valueSpace value) wvalue

end OpcUa
