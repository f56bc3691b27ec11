import OpcUa.SingleBuffer

/-!
`UA_calcSizeBinary` against the number of bytes the encoder writes. Both traverse the
value independently; `sizeDefect` adds up the places where they take different
branches, and the computed size is exact where the sum is zero.
-/

namespace OpcUa

open LittleEndian StatusCode List

variable {type : DataType} {indices : List Nat} {content : Leaf} {env : TypeEnv}
  {elements : List Value}

/-! Where the two traversals differ -/

def leafDefect : Leaf → Int
  | .expandedNodeId id =>
    if id.namespaceUri.beyondSentinel && id.namespaceUri.length == 0 then -4 else 0
  | _ => 0

def typeIdDefect (type : DataType) : Int :=
  (nodeIdCalcSizeBinary type.typeId : Int) - nodeIdCalcSizeBinary type.binaryTypeId

def variantDefect (env : TypeEnv) (type : DataType) : Int :=
  if type.builtin then 0
  else if isAlias env type then nodeIdCalcSizeBinary type.typeId + 5
  else typeIdDefect type

def uncounted (type : DataType) : Bool := !type.builtin && !type.typeId.identifier.isNumeric

mutual

def packedSize : Value → Nat
  | .leaf content => (leafMemory content).length
  | .struct members => packedSizes members
  | _ => 0

def packedSizes : List Value → Nat
  | [] => 0
  | value :: rest => packedSize value + packedSizes rest

end

mutual

def sizeDefect (env : TypeEnv) : Value → DataType → Int
  | .leaf content, _ => leafDefect content
  | .extensionObject _ contentType data, _ =>
    typeIdDefect contentType + sizeDefect env data contentType
  | .extensionObjectNull, _ => 0
  | .dataValue _ hasValue value, _ => if hasValue then sizeDefect env value variantType else 0
  | .variantEmpty, _ => 0
  | .variantScalar contentType data arrayDimensions, type =>
    if uncounted contentType then
      -(valueWire env (.variantScalar contentType data arrayDimensions) type).length
    else variantDefect env contentType + sizeDefect env data contentType
  | .variantArray contentType undefined elements arrayDimensions, type =>
    if uncounted contentType then
      -(valueWire env (.variantArray contentType undefined elements arrayDimensions) type).length
    else
      variantDefect env contentType * elements.length +
        if contentType.overlayable then
          -- the size in memory is counted, but each wrapped element is written without padding
          if isWrapped env contentType then
            (contentType.memSize : Int) * elements.length - packedSizes elements
          else 0
        else elementsDefect env elements contentType
  | .struct members, type => membersDefect env members type type.members
  | .array _ elements, type =>
    if type.overlayable then 0 else elementsDefect env elements type

def elementsDefect (env : TypeEnv) : List Value → DataType → Int
  | [], _ => 0
  | element :: rest, type => sizeDefect env element type + elementsDefect env rest type

def membersDefect (env : TypeEnv) : List Value → DataType → List DataTypeMember → Int
  | value :: rest, type, member :: members =>
    sizeDefect env value (env.memberType type member) + membersDefect env rest type members
  | _, _, _ => 0

end

theorem stringWire_length (text : UaString) :
    (stringWire text).length = stringCalcSizeBinary text := by
  simp [stringWire, stringCalcSizeBinary, UaString.length]

theorem guidWire_length (guid : Guid) : (guidWire guid).length = 16 := by
  simp [guidWire]

theorem nodeIdWire_length (mask : Byte) (id : NodeId) :
    (nodeIdWire mask id).length = nodeIdCalcSizeBinary id := by
  unfold nodeIdWire nodeIdCalcSizeBinary
  cases id.identifier with
  | numeric value =>
    simp only
    split
    · simp
    · split <;> simp
  | string value => simp [stringWire_length]; omega
  | guid value => simp [guidWire_length]
  | byteString value => simp [stringWire_length]; omega

theorem wireOption_length {α : Type} (field : Option α) (wire : α → List Byte) (size : α → Nat)
    (sizes : ∀ value, (wire value).length = size value) :
    (wireOption field wire).length = optionSize field size := by
  cases field with
  | none => rfl
  | some value => exact sizes value

theorem wireWhen_length (present : Bool) (bytes : List Byte) :
    (wireWhen present bytes).length = if present then bytes.length else 0 := by
  cases present <;> rfl

theorem diagnosticFieldsWire_length (fields : DiagnosticFields) (hasInner : Bool) :
    (diagnosticFieldsWire fields hasInner).length = diagnosticFieldsCalcSizeBinary fields := by
  simp only [diagnosticFieldsWire, length_cons, length_append, diagnosticFieldsCalcSizeBinary,
    wireOption_length _ wordWire (fun _ => 4) (fun word => leBytes_length 4 word.toNat),
    wireOption_length _ stringWire stringCalcSizeBinary stringWire_length]
  have status : optionSize (α := BitVec 32) fields.innerStatusCode (fun _ => 4) =
      optionSize (α := StatusCode) fields.innerStatusCode (fun _ => 4) := rfl
  omega

theorem diagnosticInfoWire_length (info : DiagnosticInfo) :
    (diagnosticInfoWire info).length = diagnosticInfoCalcSizeBinary info := by
  induction info with
  | plain fields => exact diagnosticFieldsWire_length fields false
  | nested fields inner ih =>
    simp [diagnosticInfoWire, diagnosticInfoCalcSizeBinary, diagnosticFieldsWire_length, ih]

theorem expandedNodeId_size (id : ExpandedNodeId) : (expandedNodeIdCalcSizeBinary id : Int) =
      (expandedNodeIdWire id).length + leafDefect (.expandedNodeId id) := by
  simp only [expandedNodeIdCalcSizeBinary, expandedNodeIdWire, length_append,
    nodeIdWire_length, wireWhen_length, stringWire_length, leBytes_length, leafDefect]
  cases id.namespaceUri with
  | null => simp [UaString.beyondSentinel, UaString.length, UaString.bytes]
  | empty => simp [UaString.beyondSentinel, UaString.length, UaString.bytes]
  | alloc content =>
    cases content with
    | nil =>
      simp [UaString.beyondSentinel, UaString.length, UaString.bytes, stringCalcSizeBinary]
      omega
    | cons byte rest =>
      simp [UaString.beyondSentinel, UaString.length, UaString.bytes]
      omega

theorem localizedTextWire_length (text : LocalizedText) :
    (localizedTextWire text).length = localizedTextCalcSizeBinary text := by
  simp only [localizedTextWire, length_cons, length_append, wireWhen_length,
    stringWire_length, localizedTextCalcSizeBinary]
  omega

theorem encodedObjectWire_length (encoding : EncodedBody) (typeId : NodeId) (body : UaString) :
    (encodedObjectWire encoding typeId body).length =
      encodedObjectCalcSizeBinary encoding typeId body := by
  cases encoding <;>
    simp [encodedObjectWire, encodedObjectCalcSizeBinary, nodeIdWire_length, stringWire_length] <;>
    omega

/-! A description with its own encoding functions agrees with the row of the builtin type. -/

section

variable (takes : type.takes indices = true)
include takes

theorem takes_row :
    ∃ index ∈ indices, type.memSize = (builtinTypes.getD index booleanType).memSize ∧
      type.overlayable = (builtinTypes.getD index booleanType).overlayable ∧
      type.builtin = true ∧ type.typeIndex = index := by
  simp only [DataType.takes, DataType.agreesWithRow, DataType.builtinRow, Bool.and_eq_true,
    beq_iff_eq, contains_iff_mem] at takes
  exact ⟨type.typeIndex, takes.2, takes.1.1.2, takes.1.2, takes.1.1.1, rfl⟩

theorem takes_builtin : type.builtin = true := by
  obtain ⟨_, _, _, _, builtin, _⟩ := takes_row takes
  exact builtin

theorem takes_size (size : Nat) (overlayable : Bool)
    (rows : ∀ index ∈ indices, (builtinTypes.getD index booleanType).memSize = size ∧
      (builtinTypes.getD index booleanType).overlayable = overlayable) :
    type.memSize = size ∧ type.overlayable = overlayable := by
  obtain ⟨index, member, memSize, overlay, _⟩ := takes_row takes
  rw [memSize, overlay]
  exact rows index member

end

def Leaf.memSize : Leaf → Nat
  | .boolean _ => 1
  | .byte _ => 1
  | .uint16 _ => 2
  | .uint32 _ => 4
  | .uint64 _ => 8
  | .string _ => 16
  | .guid _ => 16
  | .nodeId _ => 24
  | .expandedNodeId _ => 48
  | .qualifiedName _ => 24
  | .localizedText _ => 32
  | .extensionObject .. => 48
  | .diagnosticInfo _ => 56

def Leaf.overlayable : Leaf → Bool
  | .boolean _ => true
  | .byte _ => true
  | .uint16 _ => true
  | .uint32 _ => true
  | .uint64 _ => true
  | .guid _ => true
  | _ => false

theorem takes_leaf (takes : type.takes content.typeIndices = true) :
    type.memSize = content.memSize ∧ type.overlayable = content.overlayable := by
  refine takes_size takes _ _ ?_
  cases content <;> simp only [Leaf.typeIndices, Leaf.memSize, Leaf.overlayable] <;> decide

theorem leaf_size (takes : type.takes content.typeIndices = true) :
    (leafCalcSizeBinary content type : Int) = (leafWire content).length + leafDefect content := by
  cases content with
  | boolean raw =>
    simp [leafCalcSizeBinary, leafWire, leafDefect, (takes_leaf takes).1, Leaf.memSize]
  | byte value =>
    simp [leafCalcSizeBinary, leafWire, leafDefect, (takes_leaf takes).1, Leaf.memSize]
  | uint16 value =>
    simp [leafCalcSizeBinary, leafWire, leafDefect, (takes_leaf takes).1, Leaf.memSize]
  | uint32 value =>
    simp [leafCalcSizeBinary, leafWire, leafDefect, (takes_leaf takes).1, Leaf.memSize]
  | uint64 value =>
    simp [leafCalcSizeBinary, leafWire, leafDefect, (takes_leaf takes).1, Leaf.memSize]
  | string value => simp [leafCalcSizeBinary, leafWire, leafDefect, stringWire_length]
  | guid value => simp [leafCalcSizeBinary, leafWire, leafDefect, guidWire_length]
  | nodeId value => simp [leafCalcSizeBinary, leafWire, leafDefect, nodeIdWire_length]
  | expandedNodeId value => exact expandedNodeId_size value
  | qualifiedName value =>
    simp [leafCalcSizeBinary, leafWire, leafDefect, qualifiedNameWire, stringWire_length,
      qualifiedNameCalcSizeBinary]
  | localizedText value =>
    simp [leafCalcSizeBinary, leafWire, leafDefect, localizedTextWire_length]
  | extensionObject encoding typeId body =>
    simp [leafCalcSizeBinary, leafWire, leafDefect, encodedObjectWire_length]
  | diagnosticInfo value =>
    simp [leafCalcSizeBinary, leafWire, leafDefect, diagnosticInfoWire_length]

/-! Overlayable values occupy `memSize` bytes in memory and are written without the padding. -/

theorem describes_wellFormed (wellFormed : env.WellFormed) (described : env.describes type = true)
    (notBuiltin : type.builtin = false) : DataType.WellFormed env type := by
  have rows : ∀ row ∈ builtinTypes, row.builtin = true := by decide
  simp only [TypeEnv.describes, TypeEnv.types, Bool.or_eq_true, contains_iff_mem,
    mem_append] at described
  rcases described with (row | structured) | custom
  · simp [rows type row] at notBuiltin
  · exact wellFormed.1 type structured
  · exact wellFormed.2 type custom

theorem leaf_overlay (takes : type.takes content.typeIndices = true)
    (overlayable : type.overlayable = true) :
    (leafMemory content).length = type.memSize ∧ leafWire content = leafMemory content := by
  cases content with
  | boolean raw => simp [leafMemory, leafWire, (takes_leaf takes).1, Leaf.memSize]
  | byte value => simp [leafMemory, leafWire, (takes_leaf takes).1, Leaf.memSize]
  | uint16 value => simp [leafMemory, leafWire, (takes_leaf takes).1, Leaf.memSize]
  | uint32 value => simp [leafMemory, leafWire, (takes_leaf takes).1, Leaf.memSize]
  | uint64 value => simp [leafMemory, leafWire, (takes_leaf takes).1, Leaf.memSize]
  | guid value => simp [leafMemory, leafWire, guidWire, (takes_leaf takes).1, Leaf.memSize]
  | string value => simp [(takes_leaf takes).2, Leaf.overlayable] at overlayable
  | nodeId value => simp [(takes_leaf takes).2, Leaf.overlayable] at overlayable
  | expandedNodeId value => simp [(takes_leaf takes).2, Leaf.overlayable] at overlayable
  | qualifiedName value => simp [(takes_leaf takes).2, Leaf.overlayable] at overlayable
  | localizedText value => simp [(takes_leaf takes).2, Leaf.overlayable] at overlayable
  | extensionObject encoding typeId body =>
    simp [(takes_leaf takes).2, Leaf.overlayable] at overlayable
  | diagnosticInfo value => simp [(takes_leaf takes).2, Leaf.overlayable] at overlayable

def OverlaySizes (env : TypeEnv) (value : Value) : Prop :=
  ∀ type, Value.hasType env value type = true → type.overlayable = true →
    (valueMemory env value type).length = type.memSize ∧
      (valueWire env value type).length = packedSize value

theorem members_overlay {values : List Value} {members : List DataTypeMember}
    (sizes : ∀ value ∈ values, OverlaySizes env value)
    (typed : Value.membersHaveType env values type members = true)
    (plain : ∀ member ∈ members, member.isArray = false ∧
      (env.memberType type member).overlayable = true) :
    (membersMemory env values type members).length =
        (members.map fun member => (env.memberType type member).memSize).sum ∧
      (membersWire env values type members).length = packedSizes values := by
  induction values generalizing members with
  | nil =>
    cases members with
    | nil => simp [membersMemory, membersWire, packedSizes]
    | cons member members => simp [Value.membersHaveType] at typed
  | cons value rest ih =>
    cases members with
    | nil => simp [Value.membersHaveType] at typed
    | cons member members =>
      have scalar := plain member (by simp)
      obtain ⟨sameKind, memberTyped, restTyped⟩ := membersHaveType_cons typed
      have valueTyped : Value.hasType env value (env.memberType type member) = true := by
        cases value with
        | array undefined elements => simp [scalar.1, Value.isArray] at sameKind
        | _ => exact memberTyped
      have head := sizes value (by simp) _ valueTyped scalar.2
      have tail := ih (fun later inside => sizes later (by simp [inside])) restTyped
        (fun later inside => plain later (by simp [inside]))
      simp [membersMemory, membersWire, packedSizes, head.1, head.2, tail.1, tail.2]

theorem takes_not_overlayable {index : Nat} (takes : type.takes [index] = true)
    (kind : index = 21 ∨ index = 22 ∨ index = 23) : type.overlayable = false := by
  rcases kind with rfl | rfl | rfl
  · exact (takes_size takes 48 false (by decide)).2
  · exact (takes_size takes 96 false (by decide)).2
  · exact (takes_size takes 48 false (by decide)).2

theorem overlayable_cases {value : Value} (typed : Value.hasType env value type = true)
    (overlayable : type.overlayable = true) :
    (∃ content, value = .leaf content) ∨ ∃ members, value = .struct members := by
  cases value with
  | leaf content => exact Or.inl ⟨content, rfl⟩
  | struct members => exact Or.inr ⟨members, rfl⟩
  | extensionObject noDelete contentType data =>
    simp only [Value.hasType, Bool.and_eq_true] at typed
    simp [takes_not_overlayable typed.1.1 (by simp)] at overlayable
  | extensionObjectNull =>
    simp [takes_not_overlayable (by simpa [Value.hasType] using typed) (Or.inl rfl)] at overlayable
  | dataValue info hasValue value =>
    simp only [Value.hasType, Bool.and_eq_true] at typed
    simp [takes_not_overlayable typed.1.1 (by simp)] at overlayable
  | variantEmpty =>
    simp [takes_not_overlayable (by simpa [Value.hasType] using typed) (Or.inr (Or.inr rfl))]
      at overlayable
  | variantScalar contentType data arrayDimensions =>
    simp only [Value.hasType, Bool.and_eq_true] at typed
    simp [takes_not_overlayable typed.1.1 (by simp)] at overlayable
  | variantArray contentType undefined elements arrayDimensions =>
    simp only [Value.hasType, Bool.and_eq_true] at typed
    simp [takes_not_overlayable typed.1.1 (by simp)] at overlayable
  | array undefined elements => simp [Value.hasType] at typed

theorem Value.overlayInduct (wellFormed : env.WellFormed) {motive : Value → DataType → Prop}
    (leaf : ∀ content type, type.takes content.typeIndices = true → type.overlayable = true →
      motive (.leaf content) type)
    (struct : ∀ members type, type.builtin = false → DataType.WellFormed env type →
      type.overlayable = true → Value.membersHaveType env members type type.members = true →
      (∀ value ∈ members, ∀ memberType, Value.hasType env value memberType = true →
        memberType.overlayable = true → motive value memberType) →
      motive (.struct members) type) (value : Value) (type : DataType)
    (typed : Value.hasType env value type = true) (overlayable : type.overlayable = true) :
    motive value type := by
  induction value using Value.induct generalizing type with
  | leaf content => exact leaf content type (by simpa [Value.hasType] using typed) overlayable
  | struct members ih =>
    simp only [Value.hasType, Bool.and_eq_true, Bool.not_eq_true'] at typed
    exact struct members type typed.1.1 (describes_wellFormed wellFormed typed.1.2 typed.1.1)
      overlayable typed.2 ih
  | _ =>
    rcases overlayable_cases typed overlayable with ⟨content, same⟩ | ⟨members, same⟩
    · cases same
    · cases same

theorem overlaySizes (wellFormed : env.WellFormed) (value : Value) : OverlaySizes env value := by
  refine Value.overlayInduct wellFormed (motive := fun value type =>
    (valueMemory env value type).length = type.memSize ∧
      (valueWire env value type).length = packedSize value) ?_ ?_ value
  · intro content type takes overlayable
    have leaf := leaf_overlay takes overlayable
    simp [valueMemory, valueWire, packedSize, leaf.1, leaf.2]
  · intro members type notBuiltin description overlayable membersTyped ih
    have layout := description.2 overlayable notBuiltin
    have sizes := members_overlay ih membersTyped layout.1
    refine ⟨?_, by simpa [valueWire, packedSize] using sizes.2⟩
    simp only [valueMemory, padTo, length_append, length_replicate, sizes.1]
    omega

section

variable (wellFormed : env.WellFormed) (typed : Value.haveType env elements type = true)
  (overlayable : type.overlayable = true)
include wellFormed typed overlayable

theorem elements_memory : (elements.flatMap fun element => valueMemory env element type).length =
      type.memSize * elements.length := by
  induction elements with
  | nil => simp
  | cons element rest ih =>
    simp only [Value.haveType, Bool.and_eq_true] at typed
    have size := (overlaySizes wellFormed element type typed.1 overlayable).1
    simp [size, ih typed.2, Nat.mul_add]
    omega

theorem wrapped_packed : (wrappedWire env elements type).length =
      (nodeIdCalcSizeBinary type.binaryTypeId + 5) * elements.length + packedSizes elements := by
  induction elements with
  | nil => simp [wrappedWire, packedSizes]
  | cons element rest ih =>
    simp only [Value.haveType, Bool.and_eq_true] at typed
    have size := (overlaySizes wellFormed element type typed.1 overlayable).2
    simp [wrappedWire, packedSizes, objectHeaderWire, nodeIdWire_length, size, ih typed.2,
      Nat.mul_add]
    omega

end

def HasSize (env : TypeEnv) (value : Value) : Prop :=
  ∀ type depth, Value.memberTyped env value type = true → accepts env value type depth = true →
    (calcSizeBinary env value type : Int) =
      (valueWire env value type).length + sizeDefect env value type

section Lists

variable {depth : Nat}

section

variable (sizes : ∀ element ∈ elements, HasSize env element)
  (typed : Value.haveType env elements type = true)
include sizes typed

theorem elements_size (accepted : acceptsElements env elements type depth = true) :
    (calcSizeElements env elements type : Int) =
      (elementsWire env elements type).length + elementsDefect env elements type := by
  induction elements with
  | nil => simp [calcSizeElements, elementsWire, elementsDefect]
  | cons element rest ih =>
    simp only [Value.haveType, acceptsElements, Bool.and_eq_true] at typed accepted
    have head := sizes element (by simp) type depth (memberTyped_of_hasType typed.1) accepted.1
    have tail := ih (fun later inside => sizes later (by simp [inside])) typed.2 accepted.2
    simp only [calcSizeElements, elementsWire, elementsDefect, length_append]
    omega

theorem wrapped_size (accepted : acceptsWrapped env elements type depth = true) :
    (calcSizeElements env elements type : Int) +
        (nodeIdCalcSizeBinary type.binaryTypeId + 5) * elements.length =
      (wrappedWire env elements type).length + elementsDefect env elements type := by
  induction elements with
  | nil => simp [calcSizeElements, wrappedWire, elementsDefect]
  | cons element rest ih =>
    simp only [Value.haveType, acceptsWrapped, Bool.and_eq_true] at typed accepted
    have head := sizes element (by simp) type _ (memberTyped_of_hasType typed.1) accepted.1.2.2.2
    have tail := ih (fun later inside => sizes later (by simp [inside])) typed.2 accepted.2
    simp only [calcSizeElements, wrappedWire, elementsDefect, length_append,
      objectHeaderWire, nodeIdWire_length, length_cons, leBytes_length]
    push_cast
    rw [Int.mul_add]
    omega

end

theorem members_size {values : List Value} {members : List DataTypeMember}
    (sizes : ∀ value ∈ values, HasSize env value)
    (typed : Value.membersHaveType env values type members = true)
    (accepted : acceptsMembers env values type members depth = true) :
    (calcSizeMembers env values type members : Int) =
      (membersWire env values type members).length + membersDefect env values type members := by
  induction values generalizing members with
  | nil => simp [calcSizeMembers, membersWire, membersDefect]
  | cons value rest ih =>
    cases members with
    | nil => simp [Value.membersHaveType] at typed
    | cons member members =>
      obtain ⟨-, memberTyped, restTyped⟩ := membersHaveType_cons typed
      simp only [acceptsMembers, Bool.and_eq_true] at accepted
      have head := sizes value (by simp) _ depth memberTyped accepted.1
      have tail := ih (fun later inside => sizes later (by simp [inside])) restTyped accepted.2
      simp only [calcSizeMembers, membersWire, membersDefect, length_append]
      omega

theorem array_size (wellFormed : env.WellFormed) (undefined : Bool)
    (sizes : ∀ element ∈ elements, HasSize env element)
    (typed : Value.haveType env elements type = true)
    (accepted : (type.overlayable || acceptsElements env elements type depth) = true) :
    (arrayCalcSizeBinary type elements.length (calcSizeElements env elements type) : Int) =
      (leBytes 4 (arrayLengthField elements.length (!undefined)) ++
        if type.overlayable then elements.flatMap fun element => valueMemory env element type
        else elementsWire env elements type).length +
      if type.overlayable then 0 else elementsDefect env elements type := by
  cases overlay : type.overlayable with
  | true =>
    simp only [arrayCalcSizeBinary, overlay, ↓reduceIte, length_append, leBytes_length,
      elements_memory wellFormed typed overlay]
    omega
  | false =>
    have sum := elements_size sizes typed (by simpa [overlay] using accepted)
    simp only [arrayCalcSizeBinary, overlay, Bool.false_eq_true, ↓reduceIte, length_append,
      leBytes_length]
    omega

theorem words_length (words : List (BitVec 32)) :
    (words.flatMap fun word => leBytes 4 word.toNat).length = 4 * words.length := by
  induction words with
  | nil => rfl
  | cons word rest ih =>
    simp only [flatMap_cons, length_append, ih, leBytes_length, length_cons]
    omega

theorem dimensions_size (arrayDimensions : List (BitVec 32)) :
    (dimensionsWire arrayDimensions).length =
      if arrayDimensions.length > 0 then 4 + 4 * arrayDimensions.length else 0 := by
  simp only [dimensionsWire, wireWhen_length, length_append, words_length, leBytes_length,
    decide_eq_true_eq]

end Lists

theorem variantCalcSizeBinary_uncounted (skip : uncounted type = true) (contentSize length : Nat)
    (arrayDimensions : List (BitVec 32)) (isArray : Bool) :
    variantCalcSizeBinary type contentSize length arrayDimensions isArray = 0 :=
  if_pos skip

theorem variantCalcSizeBinary_counted (counted : ¬uncounted type = true) (contentSize length : Nat)
    (arrayDimensions : List (BitVec 32)) (isArray : Bool) :
    variantCalcSizeBinary type contentSize length arrayDimensions isArray = 1 + contentSize +
        (if type.builtin then 0 else (nodeIdCalcSizeBinary type.typeId + 1 + 4) * length) +
        (if isArray && arrayDimensions.length > 0 then 4 + 4 * arrayDimensions.length else 0) :=
  if_neg counted

theorem scalarVariant_size {contentType : DataType} {data : Value}
    (arrayDimensions : List (BitVec 32)) (type : DataType) {depth : Nat} (size : HasSize env data)
    (typed : Value.hasType env data contentType = true)
    (accepted : accepts env (.variantScalar contentType data arrayDimensions) type depth = true) :
    (calcSizeBinary env (.variantScalar contentType data arrayDimensions) type : Int) =
      (valueWire env (.variantScalar contentType data arrayDimensions) type).length +
        sizeDefect env (.variantScalar contentType data arrayDimensions) type := by
  have content : (calcSizeBinary env data contentType : Int) =
      (valueWire env data contentType).length + sizeDefect env data contentType := by
    simp only [accepts] at accepted
    split at accepted
    · simp only [Bool.and_eq_true] at accepted
      exact size _ _ (memberTyped_of_hasType typed) accepted.2.2.2
    · simp only [Bool.and_eq_true] at accepted
      exact size _ _ (memberTyped_of_hasType typed) accepted.2
  by_cases uncountedType : uncounted contentType = true
  · simp only [calcSizeBinary, variantCalcSizeBinary_uncounted uncountedType, sizeDefect,
      uncountedType, ↓reduceIte]
    omega
  · simp only [calcSizeBinary, variantCalcSizeBinary_counted uncountedType, sizeDefect]
    rw [if_neg uncountedType]
    simp only [Bool.false_and, Bool.false_eq_true, ↓reduceIte, Nat.mul_one, variantDefect,
      valueWire, isWrapped, length_cons, typeIdDefect]
    by_cases builtin : contentType.builtin = true
    · simp only [builtin, ↓reduceIte, Bool.not_true, Bool.false_and, Bool.false_eq_true]
      omega
    · by_cases aliased : isAlias env contentType = true
      · simp only [builtin, aliased, ↓reduceIte, Bool.not_true, Bool.and_false, Bool.false_eq_true]
        omega
      · simp only [builtin, aliased, ↓reduceIte, Bool.not_false, Bool.and_true, Bool.false_eq_true,
          length_append, objectHeaderWire, nodeIdWire_length, length_cons,
          leBytes_length]
        omega

theorem arrayVariant_size (wellFormed : env.WellFormed) {contentType : DataType} (undefined : Bool)
    (arrayDimensions : List (BitVec 32)) (type : DataType) {depth : Nat}
    (sizes : ∀ element ∈ elements, HasSize env element)
    (typed : Value.haveType env elements contentType = true) (accepted :
      accepts env (.variantArray contentType undefined elements arrayDimensions) type depth = true)
    :
    (calcSizeBinary env (.variantArray contentType undefined elements arrayDimensions) type : Int) =
      (valueWire env (.variantArray contentType undefined elements arrayDimensions) type).length +
        sizeDefect env (.variantArray contentType undefined elements arrayDimensions) type := by
  by_cases uncountedType : uncounted contentType = true
  · simp only [calcSizeBinary, variantCalcSizeBinary_uncounted uncountedType, sizeDefect,
      uncountedType, ↓reduceIte]
    omega
  simp only [accepts, Bool.and_eq_true] at accepted
  simp only [calcSizeBinary, variantCalcSizeBinary_counted uncountedType, sizeDefect]
  rw [if_neg uncountedType]
  simp only [Bool.true_and, variantDefect, valueWire, length_cons, length_append,
    dimensions_size, typeIdDefect, arrayCalcSizeBinary, decide_eq_true_eq]
  cases wrapped : isWrapped env contentType with
  | false =>
    have array := array_size wellFormed undefined sizes typed
      (show (contentType.overlayable || acceptsElements env elements contentType depth) = true by
        simpa [wrapped] using accepted.2)
    simp only [arrayCalcSizeBinary, length_append] at array
    simp only [isWrapped, Bool.and_eq_false_iff, Bool.not_eq_false'] at wrapped
    by_cases builtin : contentType.builtin = true
    · simp only [builtin, ↓reduceIte, Bool.false_eq_true, Int.zero_mul, length_append]
      omega
    · simp only [builtin, wrapped.resolve_left builtin, ↓reduceIte, Bool.false_eq_true,
        length_append]
      push_cast at array ⊢
      simp only [Int.add_mul]
      omega
  | true =>
    have both := wrapped
    simp only [isWrapped, Bool.and_eq_true, Bool.not_eq_true'] at both
    simp only [both.1, both.2, Bool.false_eq_true, ↓reduceIte, length_append, leBytes_length]
    cases overlay : contentType.overlayable with
    | true =>
      simp only [↓reduceIte, wrapped_packed wellFormed typed overlay]
      push_cast
      simp only [Int.add_mul, Int.sub_mul]
      omega
    | false =>
      have sum := wrapped_size sizes typed
        (show acceptsWrapped env elements contentType depth = true by
          simpa [wrapped] using accepted.2)
      simp only [Bool.false_eq_true, ↓reduceIte]
      push_cast
      simp only [Int.add_mul, Int.sub_mul] at sum ⊢
      omega

theorem calcSizeBinary_eq (wellFormed : env.WellFormed) (value : Value) : HasSize env value := by
  induction value using Value.induct with
  | leaf content =>
    intro type depth typed _
    exact leaf_size (by simpa [Value.memberTyped, Value.hasType] using typed)
  | extensionObject noDelete contentType data ih =>
    intro type depth typed accepted
    simp only [Value.memberTyped, Value.hasType, Bool.and_eq_true] at typed
    simp only [accepts, objectAccepted, Bool.and_eq_true] at accepted
    have content := ih _ _ (memberTyped_of_hasType typed.2) accepted.2.2
    simp only [calcSizeBinary, accepted.1.1, ↓reduceIte, valueWire, sizeDefect, typeIdDefect,
      objectHeaderWire, length_append, length_cons, nodeIdWire_length, leBytes_length]
    omega
  | extensionObjectNull =>
    intro type depth _ accepted
    simp [accepts] at accepted
  | dataValue info hasValue value ih =>
    intro type depth typed accepted
    simp only [Value.memberTyped, Value.hasType, Bool.and_eq_true] at typed
    have infoSize : (dataValueInfoWire info).length = dataValueInfoCalcSizeBinary info := by
      have status := wireOption_length info.status wordWire (fun _ => 4)
        (fun word => leBytes_length 4 word.toNat)
      simp only [dataValueInfoWire, dataValueInfoCalcSizeBinary, length_append, status,
        wireOption_length _ (fun word : BitVec 64 => leBytes 8 word.toNat) (fun _ => 8)
          (fun word => leBytes_length 8 word.toNat),
        wireOption_length _ (fun word : BitVec 16 => leBytes 2 word.toNat) (fun _ => 2)
          (fun word => leBytes_length 2 word.toNat)]
      omega
    simp only [calcSizeBinary, valueWire, sizeDefect, length_cons, length_append,
      wireWhen_length, infoSize]
    cases hasValue with
    | false =>
      simp only [Bool.false_eq_true, ↓reduceIte]
      omega
    | true =>
      have content := ih _ _ (memberTyped_of_hasType typed.2) (by simpa [accepts] using accepted)
      simp only [↓reduceIte]
      omega
  | variantEmpty =>
    intro type depth _ _
    simp [calcSizeBinary, valueWire, sizeDefect]
  | variantScalar contentType data arrayDimensions ih =>
    intro type depth typed accepted
    simp only [Value.memberTyped, Value.hasType, Bool.and_eq_true] at typed
    exact scalarVariant_size arrayDimensions type ih typed.2 accepted
  | variantArray contentType undefined elements arrayDimensions ih =>
    intro type depth typed accepted
    simp only [Value.memberTyped, Value.hasType, Bool.and_eq_true] at typed
    exact arrayVariant_size wellFormed undefined arrayDimensions type ih typed.2 accepted
  | struct members ih =>
    intro type depth typed accepted
    simp only [Value.memberTyped, Value.hasType, Bool.and_eq_true] at typed
    simp only [accepts, Bool.and_eq_true] at accepted
    simp only [calcSizeBinary, valueWire, sizeDefect]
    exact members_size ih typed.2 accepted.2
  | array undefined elements ih =>
    intro type depth typed accepted
    simp only [Value.memberTyped, Bool.and_eq_true] at typed
    simp only [accepts, Bool.and_eq_true] at accepted
    simp only [calcSizeBinary, valueWire, sizeDefect]
    exact array_size wellFormed undefined ih typed.2 accepted.2

/-- The size is exact, and a buffer of that size is enough, if and only if the defects of
the value add up to zero. -/
theorem calcSizeBinary_exact_iff (env : TypeEnv) (value : Value) (type : DataType) (size : Nat)
    (wellFormed : env.WellFormed) (typed : Value.hasType env value type = true)
    (encoded : (uaEncodeBinary env value type (singleBuffer size)).1 = good) :
    (calcSizeBinary env value type = (uaEncodeBinary env value type (singleBuffer size)).2.out.length ∧
      (uaEncodeBinary env value type (singleBuffer (calcSizeBinary env value type))).1 = good) ↔
      sizeDefect env value type = 0 := by
  have writes := uaEncodeBinary_writes env value type
  obtain ⟨accepted, result, -⟩ := writes.good_only (singleBuffer size) rfl (Nat.zero_le _) encoded
  have parts := accepted
  simp only [Bool.and_eq_true] at parts
  have sizes := calcSizeBinary_eq wellFormed value type _ (memberTyped_of_hasType typed) parts.2
  have written : (uaEncodeBinary env value type (singleBuffer size)).2.out =
      valueWire env value type := by
    rw [result]
    simp [singleBuffer]
  rw [written]
  constructor
  · rintro ⟨exact, -⟩
    omega
  · intro zero
    have exact : calcSizeBinary env value type = (valueWire env value type).length := by omega
    refine ⟨exact, writes.succeeds _ rfl accepted ?_⟩
    simp [singleBuffer, exact]

def enumFieldObject : Value :=
  .extensionObject false enumFieldType
    (.struct [.leaf (.uint64 0), .leaf (.localizedText ⟨.null, .null⟩),
      .leaf (.localizedText ⟨.null, .null⟩), .leaf (.string .null)])

theorem enumFieldObject_tooSmall :
    (uaEncodeBinary sampleEnv enumFieldObject extensionObjectType (singleBuffer 64)).1 = good ∧
      (uaEncodeBinary sampleEnv enumFieldObject extensionObjectType
        (singleBuffer 64)).2.out.length = 23 ∧
      calcSizeBinary sampleEnv enumFieldObject extensionObjectType = 21 ∧
      (uaEncodeBinary sampleEnv enumFieldObject extensionObjectType (singleBuffer 21)).1 ≠ good := by
  decide

def argumentArray : Value :=
  .variantArray argumentType false
    [.struct [.leaf (.string (.alloc [65])), .leaf (.nodeId .null), .leaf (.uint32 3),
      .array false [.leaf (.uint32 1), .leaf (.uint32 2)], .leaf (.localizedText ⟨.null, .empty⟩)]]
    [1, 1]

theorem argumentArray_exact : calcSizeBinary sampleEnv argumentArray variantType =
        (uaEncodeBinary sampleEnv argumentArray variantType (singleBuffer 100)).2.out.length ∧
      (uaEncodeBinary sampleEnv argumentArray variantType
        (singleBuffer (calcSizeBinary sampleEnv argumentArray variantType))).1 = good :=
  (calcSizeBinary_exact_iff sampleEnv argumentArray variantType 100 sampleEnv_wellFormed
    (by decide) (by decide)).mpr (by decide)

end OpcUa
