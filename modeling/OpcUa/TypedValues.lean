import OpcUa.AttributeCore
import OpcUa.TreeSearch

/-!
What it means that the value of a variable fits its data type, its rank and its array dimensions,
and what the checks and the writes do for it. Every write of one of the four attributes is checked
against the other three.
-/

namespace OpcUa

open StatusCode

variable {store : Nodestore} {dataType : NodeId} {value : Value}
variable {before after : Nodestore} {typeId : NodeId} {node : VariableAttributes}

def Nodestore.Subtype (store : Nodestore) : NodeIdContent → NodeIdContent → Prop :=
  Relation.ReflTransGen (store.Inverse [hasSubtypeId])

/-- The type is the data type or a subtype of it, or the data type takes everything. An enumeration
takes an Int32 too, and a subtype of a builtin type takes values of the builtin type. -/
def TypeFits (store : Nodestore) (typeId dataType : NodeId) : Prop :=
  nodeIdIsNull dataType = true ∨ dataType.content = variantType.typeId.content ∨
    store.Subtype typeId.content dataType.content ∨
    typeId.content = int32Type.typeId.content ∧ store.Subtype dataType.content enumerationId.content ∨
    typeId.isBuiltin = true ∧ store.Subtype dataType.content typeId.content

theorem isNodeInTree_subtype {sub super : NodeId}
    (found : isNodeInTree store sub super [hasSubtypeId] = true) :
    store.Subtype sub.content super.content :=
  ((isNodeInTree_iff store sub super [hasSubtypeId]).mp found).reaches

theorem compatibleDataType_fits {constraintDataType : NodeId} {isValue : Bool}
    (compatible : compatibleDataType store dataType constraintDataType isValue =
      true) : TypeFits store dataType constraintDataType := by
  rw [compatibleDataType] at compatible
  split at compatible
  · cases compatible
  split at compatible
  · rename_i null
    exact .inl null
  split at compatible
  · rename_i same
    refine .inr (.inr (.inl ?_))
    rw [Nodestore.Subtype, (nodeIdEqual_iff _ _).mp same]
  split at compatible
  · rename_i anything
    exact .inr (.inl ((nodeIdEqual_iff _ _).mp anything))
  split at compatible
  · rename_i below
    exact .inr (.inr (.inl (isNodeInTree_subtype below)))
  split at compatible
  · rename_i enumeration
    obtain ⟨int32, below⟩ := Bool.and_eq_true_iff.mp enumeration
    exact .inr (.inr (.inr (.inl ⟨(nodeIdEqual_iff _ _).mp int32, isNodeInTree_subtype below⟩)))
  · obtain ⟨both, above⟩ := Bool.and_eq_true_iff.mp compatible
    obtain ⟨-, builtin⟩ := Bool.and_eq_true_iff.mp both
    exact .inr (.inr (.inr (.inr ⟨builtin, isNodeInTree_subtype above⟩)))

theorem TypeFits.mono (fits : TypeFits before typeId dataType)
    (covers : ∀ sub super, before.Subtype sub super → after.Subtype sub super) :
    TypeFits after typeId dataType := by
  rcases fits with null | anything | below | ⟨int32, below⟩ | ⟨builtin, above⟩
  · exact .inl null
  · exact .inr (.inl anything)
  · exact .inr (.inr (.inl (covers _ _ below)))
  · exact .inr (.inr (.inr (.inl ⟨int32, covers _ _ below⟩)))
  · exact .inr (.inr (.inr (.inr ⟨builtin, covers _ _ above⟩)))

theorem TypeFits.same (store : Nodestore) (same : typeId.content = dataType.content)
    : TypeFits store typeId dataType := by
  refine .inr (.inr (.inl ?_))
  rw [Nodestore.Subtype, same]

def Value.dimensions (value : Value) : List Nat :=
  if value.arrayDimensions = [] ∧ value.isScalar = false then [value.arrayLength]
  else value.arrayDimensions.map BitVec.toNat

def RankFits (valueRank : Int) (count : Nat) : Prop :=
  valueRank = -3 ∧ count ≤ 1 ∨ valueRank = -2 ∨ valueRank = -1 ∧ count = 0 ∨
    valueRank = 0 ∧ 1 ≤ count ∨ 0 < valueRank ∧ (count : Int) = valueRank

def DimensionsFit (limits : List (BitVec 32)) (dimensions : List Nat) : Prop :=
  limits = [] ∨ List.Forall₂ (fun limit length => limit = 0 ∨ length ≤ limit.toNat) limits dimensions

theorem compatibleValueRankArrayDimensions_iff (valueRank : Int) (count : Nat) :
    compatibleValueRankArrayDimensions valueRank count = true ↔ RankFits valueRank count := by
  rw [compatibleValueRankArrayDimensions, RankFits]
  split
  · simp_all
  split
  · simp_all
  split
  · simp_all
  split
  · simp_all
  split
  · simp only [Bool.false_eq_true, false_iff]
    omega
  · rw [decide_eq_true_iff]
    omega

theorem dimensions_length (value : Value) : value.dimensions.length =
      if value.arrayDimensions.length = 0 ∧ value.isScalar = false then 1
      else value.arrayDimensions.length := by
  simp only [Value.dimensions, List.length_eq_zero_iff]
  split
  · rfl
  · rw [List.length_map]

theorem compatibleValueRankValue_iff (valueRank : Int) (value : Value) :
    compatibleValueRankValue valueRank value = true ↔
      value.dataNull = true ∨ RankFits valueRank value.dimensions.length := by
  rw [compatibleValueRankValue, dimensions_length, ← compatibleValueRankArrayDimensions_iff]
  cases value.dataNull with
  | true => simp
  | false =>
    rw [if_neg Bool.false_ne_true]
    split <;> simp

theorem compatibleArrayDimensions_forall {constraint test : List (BitVec 32)}
    (compatible : compatibleArrayDimensions constraint test = true) :
    constraint = [] ∨ List.Forall₂ (fun limit length => limit = 0 ∨ length = limit) constraint test := by
  rw [compatibleArrayDimensions] at compatible
  split at compatible
  · rename_i none
    exact .inl (List.length_eq_zero_iff.mp none)
  split at compatible
  · cases compatible
  · rename_i sameLength
    rw [not_not] at sameLength
    right
    refine List.forall₂_iff_zip.mpr ⟨sameLength.symm, ?_⟩
    intro limit length member
    have tested := of_decide_eq_true (List.all_eq_true.mp compatible _ member)
    rcases tested with equal | unlimited
    · exact .inr equal.symm
    · exact .inl unlimited

theorem compatibleValueArrayDimensions_fits {target : List (BitVec 32)}
    (countable : value.arrayLength < 2 ^ 32)
    (compatible : compatibleValueArrayDimensions value target = true) :
    DimensionsFit target value.dimensions := by
  rw [compatibleValueArrayDimensions] at compatible
  rw [Value.dimensions]
  split at compatible
  · rename_i implicit
    rw [if_pos implicit]
    refine (compatibleArrayDimensions_forall compatible).imp_right fun matched => ?_
    cases matched with
    | cons first rest =>
      cases rest
      refine .cons (first.imp_right fun equal => ?_) .nil
      rw [← equal, BitVec.toNat_ofNat, Nat.mod_eq_of_lt countable]
  · rename_i explicit
    rw [if_neg explicit]
    refine (compatibleArrayDimensions_forall compatible).imp_right fun matched => ?_
    rw [List.forall₂_map_right_iff]
    refine matched.imp fun limit length tested => tested.imp_right fun equal => ?_
    rw [equal]

def Value.extent : Value → Nat
  | .variantScalar _ (.leaf (.string text)) _ => text.length
  | .variantArray _ _ elements _ => elements.length
  | _ => 0

theorem arrayLength_le_extent (value : Value) : value.arrayLength ≤ value.extent := by
  cases value with
  | variantArray type undefined elements dimensions => exact Nat.le_refl _
  | _ => exact Nat.zero_le _

/-- The value in the node, if there is one, fits the data type, the rank and the array dimensions.
An array without a length fits every rank. -/
def VariableAttributes.Fits (store : Nodestore) (node : VariableAttributes) : Prop :=
  ∀ stored type, node.value = .data stored → stored.hasValue = true →
    stored.value.variantType = some type →
    TypeFits store type.typeId node.dataType ∧
      (stored.value.dataNull = true ∨ RankFits node.valueRank stored.value.dimensions.length) ∧
      DimensionsFit node.arrayDimensions stored.value.dimensions ∧ stored.value.extent < 2 ^ 32

theorem VariableAttributes.Fits.mono (fits : node.Fits before)
    (covers : ∀ sub super, before.Subtype sub super → after.Subtype sub super) :
    node.Fits after := by
  intro stored type source present typed
  obtain ⟨data, rest⟩ := fits stored type source present typed
  exact ⟨data.mono covers, rest⟩

structure Value.SameShape (first second : Value) : Prop where
  type : second.variantType = first.variantType
  scalar : second.isScalar = first.isScalar
  length : second.arrayLength = first.arrayLength
  dimensions : second.arrayDimensions = first.arrayDimensions
  null : second.dataNull = first.dataNull
  extent : second.extent = first.extent

theorem Value.SameShape.refl (value : Value) : value.SameShape value := ⟨rfl, rfl, rfl, rfl, rfl, rfl⟩

theorem Value.SameShape.counts {first second : Value} (same : first.SameShape second) :
    second.dimensions = first.dimensions := by
  rw [Value.dimensions, Value.dimensions, same.dimensions, same.scalar, same.length]

theorem copyBlock_length (block : List Value) (nextdst : Nat) (elements : List Value) :
    (copyBlock block nextdst elements).length = elements.length := by
  induction block generalizing nextdst elements with
  | nil => rfl
  | cons element block ih =>
    rw [copyBlock, ih, List.length_set]

theorem copyBlocks_length (strides : Strides) (left : Nat) (array : List Value) (nextdst : Nat)
    (elements : List Value) :
    (copyBlocks strides left array nextdst elements).length = elements.length := by
  induction left generalizing array nextdst elements with
  | zero => rfl
  | succ left ih =>
    rw [copyBlocks, ih, copyBlock_length]

theorem setRangeCopy_sameShape {changed : Value} {array : List Value}
    {range : List NumericRangeDimension} (set : setRangeCopy value array range = .ok changed) :
    value.SameShape changed := by
  rw [setRangeCopy] at set
  cases strided : computeStrides value range with
  | error status =>
    rw [strided] at set
    cases set
  | ok strides =>
    rw [strided] at set
    change (if strides.total ≠ array.length then throw badIndexRangeInvalid else _) = _ at set
    split at set
    · cases set
    · cases value with
      | variantArray type undefined elements dimensions =>
        obtain rfl := Except.ok.inj set
        have length := copyBlocks_length strides (strides.total / strides.block) array
          strides.first elements
        have empty : (copyBlocks strides (strides.total / strides.block) array strides.first
            elements).isEmpty = elements.isEmpty := by
          rw [Bool.eq_iff_iff, List.isEmpty_iff_length_eq_zero,
            List.isEmpty_iff_length_eq_zero, length]
        exact ⟨rfl, rfl, length, rfl, congrArg (· && undefined) empty, length⟩
      | _ =>
        obtain rfl := Except.ok.inj set
        exact .refl _

def VariableAttributes.Admits (store : Nodestore) (node : VariableAttributes) (value : Value) :
    Prop :=
  (∀ type, value.variantType = some type → type.typeId.isStructureNumber = true →
    TypeFits store type.typeId node.dataType) ∧ value.extent < 2 ^ 32

def VariableAttributes.Accepts (types store : Nodestore) (node : VariableAttributes)
    (value : Value) : Prop :=
  ∀ type, value.variantType = some type → type.typeId.isStructureNumber = true ∨
      compatibleDataType store type.typeId node.dataType true = true →
    TypeFits types type.typeId node.dataType

theorem VariableAttributes.Admits.accepts (admits : node.Admits store value)
    : node.Accepts store store value := by
  rintro type typed (structureNumber | compatible)
  · exact admits.1 type typed structureNumber
  · exact compatibleDataType_fits compatible

def VariableAttributes.Plain (node : VariableAttributes) : Prop :=
  node.arrayDimensions = [] → ∀ stored type, node.value = .data stored → stored.hasValue = true →
    stored.value.variantType = some type →
    stored.value.dataNull = true ∨
      stored.value.dimensions.length = if stored.value.isScalar then 0 else 1

section Writes

variable {env : TypeEnv} {outcome : ValueOutcome} {nodeClass : NodeClass} {hasInstances : Bool}
  {node type : VariableAttributes}
variable {targetDataTypeId : NodeId}
variable {types : Nodestore}

theorem readValueAttribute_data {stored : DataValue} (source : node.value = .data stored) :
    readValueAttribute outcome node = (good, stored) := by
  rw [readValueAttribute, source]

theorem compatibleValue_fits {valueRank : Int} {arrayDimensions : List (BitVec 32)}
    {type : DataType} (typed : value.variantType = some type) (countable : value.extent < 2 ^ 32)
    (compatible : compatibleValue store targetDataTypeId valueRank arrayDimensions value false =
      true) :
    compatibleDataType store type.typeId targetDataTypeId true = true ∧
      (value.dataNull = true ∨ RankFits valueRank value.dimensions.length) ∧
      DimensionsFit arrayDimensions value.dimensions := by
  rw [compatibleValue, typed] at compatible
  dsimp only at compatible
  split at compatible
  · cases compatible
  rename_i data
  rw [if_neg Bool.false_ne_true] at compatible
  split at compatible
  · cases compatible
  rename_i dimensions
  rw [Bool.not_eq_true', Bool.not_eq_false] at data dimensions
  exact ⟨data, (compatibleValueRankValue_iff _ _).mp compatible,
    compatibleValueArrayDimensions_fits (Nat.lt_of_le_of_lt (arrayLength_le_extent value) countable)
      dimensions⟩

theorem writeArrayDimensionsAttribute_fits (fits : node.Fits store)
    (arrayDimensions : List (BitVec 32)) :
    (writeArrayDimensionsAttribute outcome nodeClass hasInstances node type
      arrayDimensions).2.Fits store := by
  rw [writeArrayDimensionsAttribute]
  split
  · exact fits
  split
  · exact fits
  split
  · exact fits
  cases read : readValueAttribute outcome node with
  | mk status value =>
    dsimp only
    split
    · exact fits
    split
    · exact fits
    rename_i compatible
    split
    · exact fits
    intro stored type source present typed
    obtain ⟨data, rank, -, countable⟩ := fits stored type source present typed
    obtain rfl : stored = value :=
      congrArg Prod.snd ((readValueAttribute_data source).symm.trans read)
    have length := Nat.lt_of_le_of_lt (arrayLength_le_extent stored.value) countable
    refine ⟨data, rank, compatibleValueArrayDimensions_fits length ?_, countable⟩
    rw [present, Bool.true_and, Bool.not_eq_true', Bool.not_eq_false] at compatible
    exact compatible

theorem writeValueRankAttribute_fits (fits : node.Fits store) (plain : node.Plain)
    (valueRank : Int) :
    (writeValueRankAttribute outcome nodeClass hasInstances node type valueRank).2.Fits store := by
  have ranked (count : Nat) (counts : ∀ stored type, node.value = .data stored →
      stored.hasValue = true → stored.value.variantType = some type →
      stored.value.dataNull = true ∨ stored.value.dimensions.length = count) :
      (if !compatibleValueRankArrayDimensions valueRank count then (badTypeMismatch, node)
        else (good, { node with valueRank })).2.Fits store := by
    split
    · exact fits
    rename_i compatible
    rw [Bool.not_eq_true', Bool.not_eq_false, compatibleValueRankArrayDimensions_iff] at compatible
    intro stored type source present typed
    obtain ⟨data, -, rest⟩ := fits stored type source present typed
    refine ⟨data, (counts stored type source present typed).imp_right fun same => ?_, rest⟩
    rw [same]
    exact compatible
  rw [writeValueRankAttribute]
  split
  · exact fits
  split
  · exact fits
  split
  · rename_i none
    cases read : readValueAttribute outcome node with
    | mk status value =>
      have sees {stored : DataValue} (source : node.value = .data stored) : stored = value :=
        congrArg Prod.snd ((readValueAttribute_data source).symm.trans read)
      dsimp only
      split
      · exact fits
      split
      · rename_i empty
        intro stored type source present typed
        obtain rfl := sees source
        rcases empty with absent | untyped
        · rw [absent] at present
          cases present
        · rw [untyped] at typed
          cases typed
      · refine ranked _ fun stored type source present typed => ?_
        obtain rfl := sees source
        exact plain (List.length_eq_zero_iff.mp none) _ type source present typed
  · rename_i some
    refine ranked _ fun stored type source present typed => ?_
    obtain ⟨-, -, dimensions, -⟩ := fits stored type source present typed
    rcases dimensions with none | matched
    · exact absurd (List.length_eq_zero_iff.mpr none) some
    · exact .inr matched.length_eq.symm

theorem writeDataTypeAttribute_fits (fits : node.Fits store) (dataType : NodeId) :
    (writeDataTypeAttribute outcome store nodeClass hasInstances node type dataType).2.Fits
      store := by
  rw [writeDataTypeAttribute]
  split
  · exact fits
  split
  · exact fits
  cases read : readValueAttribute outcome node with
  | mk status value =>
    dsimp only
    split
    · exact fits
    split
    · exact fits
    rename_i compatible
    split
    · exact fits
    intro stored type source present typed
    obtain ⟨-, -, -, countable⟩ := fits stored type source present typed
    obtain rfl : stored = value :=
      congrArg Prod.snd ((readValueAttribute_data source).symm.trans read)
    rw [present, Bool.true_and, Bool.not_eq_true', Bool.not_eq_false] at compatible
    obtain ⟨data, rank, dimensions⟩ := compatibleValue_fits typed countable compatible
    exact ⟨compatibleDataType_fits data, rank, dimensions, countable⟩

theorem writeValueAttributeWithRange_sameShape (stored value : DataValue)
    (range : List NumericRangeDimension) :
    (writeValueAttributeWithRange stored value range).2.hasValue = stored.hasValue ∧
      stored.value.SameShape (writeValueAttributeWithRange stored value range).2.value := by
  have same : stored.hasValue = stored.hasValue ∧ stored.value.SameShape stored.value :=
    ⟨rfl, .refl _⟩
  rw [writeValueAttributeWithRange]
  split
  · exact same
  split
  · split
    · exact same
    split
    · exact same
    · rename_i set
      exact ⟨rfl, setRangeCopy_sameShape set⟩
  · exact same

omit store node in
theorem adjustValue_untyped (untyped : value.variantType = none) :
    adjustValue env value targetDataTypeId = value := by
  rw [adjustValue, untyped]
  cases env.findDataType targetDataTypeId <;> rfl

omit store node in
theorem findDataType_typeId {typeId : NodeId} {type : DataType}
    (found : env.findDataType typeId = some type) : type.typeId = typeId := by
  rw [TypeEnv.findDataType] at found
  split at found
  · have matched := List.find?_some found
    exact of_decide_eq_true matched
  · cases found

omit store node in
theorem adjustValue_type {adjusted : DataType}
    (typed : (adjustValue env value targetDataTypeId).variantType = some adjusted) :
    value.variantType = some adjusted ∨ adjusted.typeId = targetDataTypeId := by
  rw [adjustValue] at typed
  split at typed
  · rename_i target type found own
    have given := findDataType_typeId found
    have retyped (typed : (if typeEquivalence target ≠ .none ∧
        typeEquivalence target = typeEquivalence type then value.withType target
          else value).variantType = some adjusted) :
        value.variantType = some adjusted ∨ adjusted.typeId = targetDataTypeId := by
      split at typed
      · right
        cases value <;> cases typed <;> exact given
      · exact .inl typed
    dsimp only at typed
    split at typed
    · split at typed
      · rename_i bytes
        right
        rw [← given, bytes.1]
        rename_i text dimensions _
        unfold bytesVariant at typed
        split at typed <;> cases typed <;> rfl
      · exact retyped typed
    · exact retyped typed
  · exact .inl typed

omit store node in
theorem adjustValue_extent (value : Value) (targetDataTypeId : NodeId) :
    (adjustValue env value targetDataTypeId).extent ≤ value.extent := by
  rw [adjustValue]
  split
  · rename_i target type _ _
    have retyped : (if typeEquivalence target ≠ .none ∧
        typeEquivalence target = typeEquivalence type then value.withType target
          else value).extent ≤ value.extent := by
      split
      · cases value with
        | variantScalar type data dimensions =>
          cases data with
          | leaf content => cases content <;> exact Nat.le_refl _
          | _ => exact Nat.le_refl _
        | _ => exact Nat.le_refl _
      · exact Nat.le_refl _
    dsimp only
    split
    · split
      · rename_i text dimensions _
        unfold bytesVariant
        split
        · exact Nat.zero_le _
        · exact Nat.zero_le _
        · exact Nat.zero_le _
        · exact Nat.le_of_eq (List.length_map _)
      · exact retyped
    · exact retyped
  · exact Nat.le_refl _

theorem checkValue_fits {value : DataValue} {info : DataValueInfo}
    (accepts : value.hasValue = true → node.Accepts types store value.value)
    (countable : value.hasValue = true → value.value.extent < 2 ^ 32)
    (checked : checkValue store node value (adjustedValue env outcome node value).value false =
      true) :
    ({ node with value := .data { adjustedValue env outcome node value with info } } :
      VariableAttributes).Fits types := by
  rintro stored type ⟨⟩ present typed
  have has : value.hasValue = true := present
  have adjusted : (adjustedValue env outcome node value).value =
      adjustValue env value.value node.dataType := by
    rw [adjustedValue, if_pos has]
  rw [adjusted] at typed checked ⊢
  have small : (adjustValue env value.value node.dataType).extent < 2 ^ 32 :=
    Nat.lt_of_le_of_lt (adjustValue_extent value.value node.dataType) (countable has)
  cases given : value.value.variantType with
  | none =>
    rw [adjustValue_untyped given, given] at typed
    cases typed
  | some own =>
    rw [checkValue, has, given] at checked
    dsimp only at checked
    -- the type was adjusted to the data type, or it is the one that was checked
    have data (passed : own.typeId.isStructureNumber = true ∨
        compatibleDataType store type.typeId node.dataType true = true) :
        TypeFits types type.typeId node.dataType := by
      rcases adjustValue_type typed with same | same
      · obtain rfl := Option.some.inj (given.symm.trans same)
        exact accepts has own given passed
      · exact .same types (congrArg NodeId.content same)
    by_cases structureNumber : own.typeId.isStructureNumber = true
    · obtain ⟨-, rank, dimensions⟩ := compatibleValue_fits typed small checked
      exact ⟨data (.inl structureNumber), rank, dimensions, small⟩
    · rw [if_neg structureNumber] at checked
      obtain ⟨compatible, rank, dimensions⟩ := compatibleValue_fits typed small checked
      exact ⟨data (.inr compatible), rank, dimensions, small⟩

theorem writeValueAttribute_fits (fits : node.Fits types) {value : DataValue}
    (accepts : value.hasValue = true → node.Accepts types store value.value)
    (countable : value.hasValue = true → value.value.extent < 2 ^ 32) (indexRange : UaString) :
    (writeValueAttribute env outcome store node value indexRange).2.Fits types := by
  have ranged (stored : DataValue) (source : node.value = .data stored)
      (range : List NumericRangeDimension) :
      ({ node with value := .data (writeValueAttributeWithRange stored
        (adjustedValue env outcome node value) range).2 } : VariableAttributes).Fits types := by
    obtain ⟨has, shape⟩ := writeValueAttributeWithRange_sameShape stored
      (adjustedValue env outcome node value) range
    rintro changed type ⟨⟩ present typed
    rw [has] at present
    rw [shape.type] at typed
    rw [shape.null, shape.counts, shape.extent]
    exact fits stored type source present typed
  rw [writeValueAttribute]
  dsimp only
  split
  · split
    · exact fits
    rename_i range parsed
    split
    · exact fits
    cases source : node.value with
    | dataSource => exact fits
    | data stored => exact ranged stored source range
  · split
    · exact fits
    rename_i checked
    rw [Bool.not_eq_true', Bool.not_eq_false] at checked
    cases source : node.value with
    | dataSource => exact fits
    | data stored =>
      dsimp only
      split
      · exact fits
      · exact checkValue_fits accepts countable checked

end Writes

end OpcUa
