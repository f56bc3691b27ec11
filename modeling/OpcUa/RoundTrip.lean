import OpcUa.RoundTripParts

/-!
The decoder on the bytes of a value. `decodes_value` is the induction over the value; from
it follows what `UA_decodeBinary` returns for everything `UA_encodeBinary` writes, as long
as the value is `parsable`.
-/

namespace OpcUa

open LittleEndian StatusCode

variable {env : TypeEnv} {type : DataType} {value : Value}

/-! The induction over the value -/

theorem described_row (wellFormed : env.WellFormed) (described : env.describes type = true)
    (builtin : type.builtin = true) :
    type.typeIndex < 25 ∧ (builtinRowAt type.typeIndex).memSize = type.memSize ∧
      (builtinRowAt type.typeIndex).overlayable = type.overlayable := by
  have rows : ∀ row ∈ builtinTypes, row.typeIndex < 25 ∧
      (builtinRowAt row.typeIndex).memSize = row.memSize ∧
      (builtinRowAt row.typeIndex).overlayable = row.overlayable := by decide
  have enumeration (description : DataType.WellFormed env type) :
      type.typeIndex < 25 ∧ (builtinRowAt type.typeIndex).memSize = type.memSize ∧
        (builtinRowAt type.typeIndex).overlayable = type.overlayable := by
    obtain ⟨index, size, overlayable, -⟩ := description.1 builtin
    rw [index, size, overlayable]
    decide
  simp only [TypeEnv.describes, TypeEnv.types, Bool.or_eq_true, List.contains_iff_mem,
    List.mem_append] at described
  rcases described with (row | structured) | custom
  · exact rows type row
  · exact enumeration (wellFormed.1 type structured)
  · exact enumeration (wellFormed.2 type custom)

theorem variantTypeIdBits_builtin (env : TypeEnv) (builtin : type.builtin = true) :
    variantTypeIdBits env type = 0x3F &&& BitVec.ofNat 8 (type.typeIndex + 1) := by
  rw [variantTypeIdBits, if_pos builtin]

theorem variantTypeIdBits_wrapped (env : TypeEnv) (builtin : type.builtin = false)
    (notAlias : isAlias env type = false) :
    variantTypeIdBits env type = 0x3F &&& BitVec.ofNat 8 (21 + 1) := by
  rw [variantTypeIdBits, if_neg (by simp [builtin]), if_neg (by simp [notAlias])]

theorem decodeBinaryJump_takes (input : Input) (fuel depth : Nat) {index : Nat}
    (takes : type.takes [index] = true) :
    decodeBinaryJump input (fuel + 1) depth type =
      builtinDecodeBinary input (decodeBinaryJump input fuel) fuel depth index := by
  obtain ⟨only, member, -, -, builtin, same⟩ := takes_row takes
  simp only [List.mem_singleton] at member
  funext pos
  rw [decodeBinaryJump, if_pos builtin, same, member]

theorem unwrapped_other {data : Value} (typed : Value.hasType env data type = true)
    (other : type.typeIndex ≠ 21) :
    unwrapped type (decodedValue env data type) =
      .variantScalar (builtinRowAt type.typeIndex) (decodedValue env data type) [] := by
  cases data with
  | extensionObject noDelete contentType content =>
    simp only [Value.hasType, Bool.and_eq_true] at typed
    obtain ⟨index, member, -, -, -, same⟩ := takes_row typed.1.1
    simp only [List.mem_singleton] at member
    exact absurd (same.trans member) other
  | variantScalar contentType content arrayDimensions =>
    simp only [decodedValue]
    split
    · cases shape : decodedValue env content contentType <;> rfl
    · rfl
  | variantArray contentType undefined elements arrayDimensions =>
    simp only [decodedValue]
    split <;> rfl
  | _ => rfl

def DecodesWithContent (input : Input) (value : Value) : Prop :=
  Decodes input value ∧
    ∀ noDelete type data, value = .extensionObject noDelete type data → Decodes input data

section Cases

variable {input : Input}
variable {data : Value} {elements : List Value}

theorem fuel_pos {fuel depth : Nat} (fuelled : enoughFuel input fuel depth type) :
    ∃ rest, fuel = rest + 1 := by
  unfold enoughFuel at fuelled
  exact ⟨fuel - 1, by split at fuelled <;> omega⟩

theorem decodes_leaf (content : Leaf) : Decodes input (.leaf content) := by
  intro type depth fuel encodeDepth typed accepted parses shallow fuelled
  have takes : type.takes content.typeIndices = true := by
    simpa [Value.memberTyped, Value.hasType] using typed
  obtain ⟨index, member, -, -, builtin, same⟩ := takes_row takes
  unfold enoughFuel at fuelled
  obtain ⟨fuel, rfl⟩ : ∃ rest, fuel = rest + 2 := ⟨fuel - 2, by split at fuelled <;> omega⟩
  have reads := leaf_reads input (decodeBinaryJump input (fuel + 1)) content encodeDepth fuel depth
    index member accepted parses
  have entry : decodeBinaryJump input (fuel + 2) depth type =
      builtinDecodeBinary input (decodeBinaryJump input (fuel + 1)) (fuel + 1) depth index := by
    funext pos
    rw [decodeBinaryJump, if_pos builtin, same]
  have jumpReads : Reads input (decodeBinaryJump input (fuel + 2) depth type) (leafWire content)
      (.leaf content.decoded) := by
    rw [entry]
    exact reads
  rw [nesting_leaf]
  exact jumpReads.readsIf.of_iff (by simpa using shallow)

theorem decodes_extensionObject (noDelete : Bool) (contentType : DataType)
    (content : Decodes input data) :
    Decodes input (.extensionObject noDelete contentType data) := by
  intro type depth fuel encodeDepth typed accepted parses shallow fuelled
  simp only [Value.memberTyped, Value.hasType, Bool.and_eq_true] at typed
  simp only [accepts, Bool.and_eq_true] at accepted
  simp only [parsable, Bool.and_eq_true] at parses
  have notBuiltin : contentType.builtin = false := by
    have recovers := parses.1
    simp only [TypeEnv.recovers, Bool.and_eq_true, Bool.not_eq_true'] at recovers
    exact recovers.1
  obtain ⟨fuel, rfl⟩ := fuel_pos fuelled
  have contentFuelled : enoughFuel input fuel depth contentType := by
    unfold enoughFuel at fuelled ⊢
    simp only [takes_builtin typed.1.1, ↓reduceIte, notBuiltin, Bool.false_eq_true] at fuelled ⊢
    omega
  have reads : ReadsIf input _ _ (objectHeaderWire contentType
      (calcSizeBinary input.env data contentType) ++ _) _ := extensionObject_reads parses.1
    (content.jump typed.2 accepted.2.2 parses.2 shallow contentFuelled)
  change ReadsIf input _ (decodeBinaryJump input (fuel + 1) depth type) _ _
  rw [decodeBinaryJump_takes input fuel depth typed.1.1]
  exact reads

theorem decodes_dataValue (info : DataValueInfo) (hasValue : Bool)
    (content : Decodes input value) : Decodes input (.dataValue info hasValue value) := by
  intro type depth fuel encodeDepth typed accepted parses shallow fuelled
  simp only [Value.memberTyped, Value.hasType, Bool.and_eq_true] at typed
  simp only [accepts, Bool.or_eq_true, Bool.not_eq_true'] at accepted
  simp only [parsable, Bool.or_eq_true, Bool.not_eq_true'] at parses
  obtain ⟨fuel, rfl⟩ := fuel_pos fuelled
  simp only [valueWire, decodedValue, nesting]
  change ReadsIf input _ (decodeBinaryJump input (fuel + 1) depth type) _ _
  rw [decodeBinaryJump_takes input fuel depth typed.1.1]
  have variantReads (present : hasValue = true) (inside : depth ≤ input.maxRecursion) :
      ReadsIf input (depth + 1 + nesting input.env value variantType ≤ input.maxRecursion + 1)
        (decodeBinaryJump input (fuel + 1) (depth + 1) variantType)
        (valueWire input.env value variantType) (decodedValue input.env value variantType) :=
    content.jump typed.2 (accepted.resolve_left (by simp [present]))
      (parses.resolve_left (by simp [present])) (Nat.succ_le_succ inside) (by
        unfold enoughFuel at fuelled ⊢
        simp only [takes_builtin typed.1.1, ↓reduceIte] at fuelled
        split <;> omega)
  refine ReadsIf.of_iff (dataValue_reads info hasValue variantReads) ?_
  cases hasValue with
  | false =>
    simp only [Bool.false_eq_true, false_implies, and_true, ↓reduceIte]
    omega
  | true =>
    simp only [forall_const, ↓reduceIte]
    omega

theorem scalarObject_reads {contentType : DataType} {depth fuel encodeDepth : Nat}
    (content : DecodesWithContent input data) (builtin : contentType.builtin = true)
    (object : contentType.typeIndex = 21) (typed : Value.hasType input.env data contentType = true)
    (accepted : accepts input.env data contentType encodeDepth = true)
    (parses : parsable input.env data contentType = true) (inside : depth ≤ input.maxRecursion)
    (fuelled : ∀ other, enoughFuel input fuel (depth + 1) other) :
    ReadsIf input (depth + 1 + nesting input.env data contentType ≤ input.maxRecursion + 1)
      (variantDecodeBinaryUnwrap input (decodeBinaryJump input fuel) (depth + 1))
      (valueWire input.env data contentType)
      (unwrapped contentType (decodedValue input.env data contentType)) := by
  have notOther {index : Nat} (takes : contentType.takes [index] = true) : index = 21 := by
    obtain ⟨only, member, -, -, -, same⟩ := takes_row takes
    simp only [List.mem_singleton] at member
    omega
  cases data with
  | extensionObject noDelete innerType inner =>
    simp only [Value.hasType, Bool.and_eq_true] at typed
    simp only [accepts, Bool.and_eq_true] at accepted
    simp only [parsable, Bool.and_eq_true] at parses
    exact unwrap_reads parses.1 ((content.2 noDelete innerType inner rfl).jump typed.2
      accepted.2.2 parses.2 (by omega) (fuelled innerType))
  | leaf leaf =>
    have reads := content.1.jump typed accepted parses (by omega) (fuelled contentType)
    have rowObject : decodeBinaryJump input fuel (depth + 1) contentType =
        decodeBinaryJump input fuel (depth + 1) extensionObjectType :=
      decodeBinaryJump_sameIndex input fuel (depth + 1) builtin rfl object
    rw [rowObject] at reads
    simp only [Value.hasType] at typed
    obtain ⟨index, member, -, -, -, same⟩ := takes_row typed
    rw [← same, object] at member
    cases leaf with
    | extensionObject encoding typeId body =>
      simp only [accepts, Leaf.accepted, Bool.and_eq_true] at accepted
      have shape : unwrapped contentType (decodedValue input.env
          (.leaf (.extensionObject encoding typeId body)) contentType) =
          .variantScalar extensionObjectType (decodedValue input.env
            (.leaf (.extensionObject encoding typeId body)) contentType) [] := by
        simp only [decodedValue, unwrapped, object]
        rfl
      rw [shape]
      exact unwrap_encoded_reads accepted.1 parses reads
    | _ => simp [Leaf.typeIndices] at member
  | extensionObjectNull => simp [accepts] at accepted
  | dataValue info hasValue value =>
    simp only [Value.hasType, Bool.and_eq_true] at typed
    cases notOther typed.1.1
  | variantEmpty => cases notOther (by simpa [Value.hasType] using typed)
  | variantScalar innerType inner arrayDimensions =>
    simp only [Value.hasType, Bool.and_eq_true] at typed
    cases notOther typed.1.1
  | variantArray innerType undefined elements arrayDimensions =>
    simp only [Value.hasType, Bool.and_eq_true] at typed
    cases notOther typed.1.1
  | struct members => simp [Value.hasType, builtin] at typed
  | array undefined elements => simp [Value.hasType] at typed

theorem decodes_scalar (wellFormed : input.env.WellFormed) (contentType : DataType)
    (arrayDimensions : List (BitVec 32)) (content : DecodesWithContent input data) :
    Decodes input (.variantScalar contentType data arrayDimensions) := by
  intro type depth fuel encodeDepth typed accepted parses shallow fuelled
  simp only [Value.memberTyped, Value.hasType, Bool.and_eq_true] at typed
  obtain ⟨fuel, rfl⟩ := fuel_pos fuelled
  have inner : 2 * (input.maxRecursion + 1 - depth) + 2 ≤ fuel := by
    unfold enoughFuel at fuelled
    simp only [takes_builtin typed.1.1, ↓reduceIte] at fuelled
    omega
  simp only [valueWire, decodedValue, nesting]
  change ReadsIf input _ (decodeBinaryJump input (fuel + 1) depth type) _ _
  rw [decodeBinaryJump_takes input fuel depth typed.1.1]
  refine ReadsIf.of_iff (?_ : ReadsIf input (depth ≤ input.maxRecursion ∧
    depth + 1 + nesting input.env data contentType ≤ input.maxRecursion + 1) _ _ _) (by omega)
  have enough (inside : depth ≤ input.maxRecursion) (other : DataType) :
      enoughFuel input fuel (depth + 1) other := by
    unfold enoughFuel
    split <;> omega
  cases builtin : contentType.builtin with
  | false =>
    simp only [parsable, builtin, Bool.false_eq_true, ↓reduceIte, Bool.and_eq_true,
      Bool.not_eq_true'] at parses
    have wrapped : isWrapped input.env contentType = true := by
      simp [isWrapped, builtin, parses.1.1]
    simp only [accepts, wrapped, ↓reduceIte, Bool.and_eq_true] at accepted
    simp only [wrapped, ↓reduceIte, Bool.false_eq_true]
    exact variant_reads (variantTypeIdBits_wrapped input.env builtin parses.1.1) (by decide)
      (by decide) fun inside => unwrap_reads parses.1.2
        (content.1.jump typed.2 accepted.2.2.2 parses.2 (by omega) (enough inside contentType))
  | true =>
    simp only [parsable, builtin, ↓reduceIte, Bool.and_eq_true, bne_iff_ne, ne_eq] at parses
    have notWrapped : isWrapped input.env contentType = false := by simp [isWrapped, builtin]
    simp only [accepts, notWrapped, Bool.false_eq_true, ↓reduceIte, Bool.and_eq_true] at accepted
    simp only [notWrapped, Bool.false_eq_true, ↓reduceIte]
    have row := described_row wellFormed typed.1.2 builtin
    have rowAt := builtinRowAt_members row.1
    refine variant_reads (variantTypeIdBits_builtin input.env builtin) row.1
      (fun _ => parses.1) fun inside => ?_
    have jumpReads := content.1.jump typed.2 accepted.2 parses.2 (by omega)
      (enough inside contentType)
    by_cases object : contentType.typeIndex = 21
    · have body : variantBody input (decodeBinaryJump input fuel) contentType.typeIndex
          (depth + 1) false false =
          variantDecodeBinaryUnwrap input (decodeBinaryJump input fuel) (depth + 1) := by
        funext pos
        simp [variantBody, object]
      rw [body]
      exact scalarObject_reads content builtin object typed.2 accepted.2 parses.2 inside
        (enough inside)
    · rw [decodeBinaryJump_sameIndex input fuel (depth + 1) builtin rowAt.2.1 rowAt.2.2.symm]
        at jumpReads
      have body : variantBody input (decodeBinaryJump input fuel) contentType.typeIndex
          (depth + 1) false false = fun pos => (decodeBinaryJump input fuel (depth + 1)
            (builtinRowAt contentType.typeIndex) pos).map fun data =>
              .variantScalar (builtinRowAt contentType.typeIndex) data [] := by
        funext pos
        simp [variantBody, object]
      rw [body, unwrapped_other typed.2 object]
      exact jumpReads.map _

theorem overlayFits_builtin (env : TypeEnv) (levels : Nat) (builtin : type.builtin = true) :
    env.overlayFits levels type = true := by
  cases levels <;> simp [TypeEnv.overlayFits, builtin]

theorem overlayFits_described (wellFormed : env.WellFormed)
    (described : env.describes type = true) (overlayable : type.overlayable = true) :
    env.overlayFits env.overlayNesting type = true := by
  cases builtin : type.builtin with
  | true => exact overlayFits_builtin env _ builtin
  | false => exact ((describes_wellFormed wellFormed described builtin).2 overlayable builtin).2.2

theorem nestingElements_overlay (typed : Value.haveType env elements type = true)
    (overlayable : type.overlayable = true) (builtin : type.builtin = true) :
    nestingElements env elements type = 0 := by
  induction elements with
  | nil => simp [nestingElements]
  | cons element rest ih =>
    simp only [Value.haveType, Bool.and_eq_true] at typed
    rcases overlayable_cases typed.1 overlayable with ⟨content, rfl⟩ | ⟨members, rfl⟩
    · simp [nestingElements, nesting, ih typed.2]
    · simp [Value.hasType, builtin] at typed

theorem elementsOfMemory_row (env : TypeEnv) {row : DataType} (builtin : type.builtin = true)
    (rowBuiltin : row.builtin = true) (sameIndex : row.typeIndex = type.typeIndex)
    (sameSize : row.memSize = type.memSize) (count : Nat) (memory : List Byte) :
    elementsOfMemory env row count memory = elementsOfMemory env type count memory := by
  induction count generalizing memory with
  | zero => rfl
  | succ count ih =>
    have value (bytes : List Byte) : valueOfMemory env env.overlayNesting row bytes =
        valueOfMemory env env.overlayNesting type bytes := by
      unfold valueOfMemory
      simp only [builtin, rowBuiltin, ↓reduceIte, sameIndex]
    simp only [elementsOfMemory, sameSize, value, ih]

theorem decodes_variantArray (wellFormed : input.env.WellFormed) (contentType : DataType)
    (undefined : Bool) (arrayDimensions : List (BitVec 32))
    (decodes : ∀ element ∈ elements, Decodes input element) :
    Decodes input (.variantArray contentType undefined elements arrayDimensions) := by
  intro type depth fuel encodeDepth typed accepted parses shallow fuelled
  simp only [Value.memberTyped, Value.hasType, Bool.and_eq_true] at typed
  simp only [accepts, Bool.and_eq_true, decide_eq_true_eq] at accepted
  obtain ⟨fuel, rfl⟩ := fuel_pos fuelled
  have inner : 2 * (input.maxRecursion + 1 - depth) + 2 ≤ fuel := by
    unfold enoughFuel at fuelled
    simp only [takes_builtin typed.1.1, ↓reduceIte] at fuelled
    omega
  have enough (inside : depth ≤ input.maxRecursion) (other : DataType) :
      enoughFuel input fuel (depth + 1) other := by
    unfold enoughFuel
    split <;> omega
  simp only [valueWire, decodedValue, nesting]
  change ReadsIf input _ (decodeBinaryJump input (fuel + 1) depth type) _ _
  rw [decodeBinaryJump_takes input fuel depth typed.1.1]
  refine ReadsIf.of_iff (?_ : ReadsIf input (depth ≤ input.maxRecursion ∧
    depth + 1 + nestingElements input.env elements contentType ≤ input.maxRecursion + 1) _ _ _)
    (by omega)
  have body (index : Nat) {content : List Byte} {result : Bool × List Value}
      (inside : depth ≤ input.maxRecursion)
      (array : ReadsIf input
        (depth + 1 + nestingElements input.env elements contentType ≤ input.maxRecursion + 1)
        (arrayDecodeBinary input (decodeBinaryJump input fuel) (depth + 1) (builtinRowAt index))
        content result) :
      ReadsIf input
        (depth + 1 + nestingElements input.env elements contentType ≤ input.maxRecursion + 1)
        (variantBody input (decodeBinaryJump input fuel) index (depth + 1) true
          (arrayDimensions.length > 0))
        (content ++ dimensionsWire arrayDimensions)
        (.variantArray (builtinRowAt index) result.1 result.2 arrayDimensions) := by
    have dimensions := dimensions_reads input arrayDimensions accepted.1.2
    have shape : variantBody input (decodeBinaryJump input fuel) index (depth + 1) true
        (arrayDimensions.length > 0) = fun pos =>
          (arrayDecodeBinary input (decodeBinaryJump input fuel) (depth + 1) (builtinRowAt index)
            pos).thenOr fun content pos =>
              ((decodeWhen (arrayDimensions.length > 0) (dimensionsDecodeBinary input) pos).map
                fun dimensions => dimensions.getD []).map fun dimensions =>
                  .variantArray (builtinRowAt index) content.1 content.2 dimensions := rfl
    rw [shape]
    refine ReadsIf.of_iff (ReadsIf.thenOr array (Reads.readsIf (Reads.map dimensions
      fun dimensions => Value.variantArray (builtinRowAt index) result.1 result.2 dimensions)))
      (iff_of_eq (and_true _))
  cases builtin : contentType.builtin with
  | false =>
    simp only [parsable, builtin, Bool.false_eq_true, ↓reduceIte, Bool.and_eq_true,
      Bool.not_eq_true'] at parses
    have wrapped : isWrapped input.env contentType = true := by
      simp [isWrapped, builtin, parses.1.1]
    simp only [wrapped, ↓reduceIte] at accepted
    simp only [wrapped, ↓reduceIte, Bool.false_eq_true]
    obtain ⟨fuel, rfl⟩ : ∃ rest, fuel = rest + 1 := ⟨fuel - 1, by omega⟩
    refine variant_reads (variantTypeIdBits_wrapped input.env builtin parses.1.1) (by decide)
      (by decide) fun inside => ?_
    exact body 21 inside (wrappedArray_reads parses.1.2 accepted.1.1 decodes typed.2
      accepted.2 parses.2 (by omega) (by
        unfold enoughFuel
        simp only [builtin, Bool.false_eq_true, ↓reduceIte]
        omega))
  | true =>
    simp only [parsable, builtin, ↓reduceIte] at parses
    have notWrapped : isWrapped input.env contentType = false := by simp [isWrapped, builtin]
    simp only [notWrapped, Bool.false_eq_true, ↓reduceIte] at accepted
    simp only [notWrapped, Bool.false_eq_true, ↓reduceIte]
    have row := described_row wellFormed typed.1.2 builtin
    have rowAt := builtinRowAt_members row.1
    refine variant_reads (variantTypeIdBits_builtin input.env builtin) row.1 (by simp)
      fun inside => ?_
    have array := arrayDecodeBinary_reads wellFormed undefined
      (decodeBinaryJump_sameIndex input fuel (depth + 1) rowAt.2.1 builtin rowAt.2.2)
      row.2.1 row.2.2
      (fun overlayable => by
        rw [elementsOfMemory_row input.env builtin rowAt.2.1 rowAt.2.2 row.2.1]
        exact elementsOfMemory_flatMap wellFormed typed.2 overlayable
          (overlayFits_builtin input.env _ builtin))
      decodes typed.2 (show (elements.length ≤ int32Max && (contentType.overlayable ||
        acceptsElements input.env elements contentType encodeDepth)) = true by
          simp only [accepted.1.1, decide_true, accepted.2, Bool.and_self])
      parses (by omega) (enough inside contentType)
    refine body _ inside (array.of_iff ?_)
    cases overlay : contentType.overlayable with
    | false => simp
    | true =>
      simp only [↓reduceIte, nestingElements_overlay typed.2 overlay builtin]

theorem decodes_struct {members : List Value} (decodes : ∀ member ∈ members, Decodes input member) :
    Decodes input (.struct members) := by
  intro type depth fuel encodeDepth typed accepted parses shallow fuelled
  simp only [Value.memberTyped, Value.hasType, Bool.and_eq_true, Bool.not_eq_true'] at typed
  simp only [accepts, Bool.and_eq_true] at accepted
  obtain ⟨fuel, rfl⟩ := fuel_pos fuelled
  simp only [valueWire, decodedValue, nesting]
  change ReadsIf input _ (decodeBinaryJump input (fuel + 1) depth type) _ _
  have entry : decodeBinaryJump input (fuel + 1) depth type = fun pos =>
      if depth > input.maxRecursion then .fail badEncodingError pos
      else (decodeMembers input (decodeBinaryJump input fuel) (depth + 1) type type.members pos).map
        (valueOfMembers type) := by
    funext pos
    rw [decodeBinaryJump, if_neg (by simp [typed.1.1]), decodeBinaryInternal]
  rw [entry]
  refine ReadsIf.of_iff (ReadsIf.limited fun inside => ReadsIf.valued (ReadsIf.map
    (decodeMembers_reads decodes typed.2 accepted.2 parses (by omega) ?_) (valueOfMembers type)) ?_)
    (by omega)
  · unfold enoughFuel at fuelled
    simp only [typed.1.1, Bool.false_eq_true, ↓reduceIte] at fuelled
    omega
  · simp [valueOfMembers, typed.1.1]

theorem decodes_array (wellFormed : input.env.WellFormed) (undefined : Bool)
    (decodes : ∀ element ∈ elements, Decodes input element) :
    Decodes input (.array undefined elements) := by
  intro type depth fuel encodeDepth typed accepted parses shallow fuelled
  simp only [Value.memberTyped, Bool.and_eq_true] at typed
  exact ReadsIf.map (arrayDecodeBinary_reads wellFormed undefined rfl rfl rfl
    (fun overlayable => elementsOfMemory_flatMap wellFormed typed.2 overlayable
      (overlayFits_described wellFormed typed.1 overlayable))
    decodes typed.2 accepted parses shallow fuelled) fun content => Value.array content.1 content.2

end Cases

theorem decodes_value {input : Input} (wellFormed : input.env.WellFormed) (value : Value) :
    Decodes input value := by
  suffices both : DecodesWithContent input value from both.1
  have plain {value : Value} (decodes : Decodes input value)
      (other : ∀ noDelete type data, value ≠ .extensionObject noDelete type data) :
      DecodesWithContent input value :=
    ⟨decodes, fun noDelete type data same => absurd same (other noDelete type data)⟩
  induction value using Value.induct with
  | leaf content => exact plain (decodes_leaf content) (by simp)
  | extensionObject noDelete contentType data ih =>
    refine ⟨decodes_extensionObject noDelete contentType ih.1, ?_⟩
    rintro _ _ _ ⟨⟩
    exact ih.1
  | extensionObjectNull =>
    refine plain ?_ (by simp)
    intro type depth fuel encodeDepth _ accepted
    simp [accepts] at accepted
  | dataValue info hasValue value ih => exact plain (decodes_dataValue info hasValue ih.1) (by simp)
  | variantEmpty =>
    refine plain ?_ (by simp)
    intro type depth fuel encodeDepth typed _ _ shallow fuelled
    obtain ⟨fuel, rfl⟩ := fuel_pos fuelled
    simp only [valueWire, decodedValue, nesting]
    change ReadsIf input _ (decodeBinaryJump input (fuel + 1) depth type) _ _
    rw [decodeBinaryJump_takes input fuel depth
      (by simpa [Value.memberTyped, Value.hasType] using typed)]
    have empty : Reads input (variantDecodeBinary input (decodeBinaryJump input fuel) depth) [0]
        .variantEmpty := by
      intro pos holds
      rw [variantDecodeBinary, byteDecodeBinary_reads input 0 pos holds, Res.ok_thenCheck,
        if_pos rfl]
    exact empty.readsIf.of_iff (by simpa using shallow)
  | variantScalar contentType data arrayDimensions ih =>
    exact plain (decodes_scalar wellFormed contentType arrayDimensions ih) (by simp)
  | variantArray contentType undefined elements arrayDimensions ih =>
    exact plain (decodes_variantArray wellFormed contentType undefined arrayDimensions
      fun element inside => (ih element inside).1) (by simp)
  | struct members ih => exact plain (decodes_struct fun member inside => (ih member inside).1) (by simp)
  | array undefined elements ih =>
    exact plain (decodes_array wellFormed undefined fun element inside => (ih element inside).1)
      (by simp)

/-- The levels the decoder counts: `UA_decodeBinary` enters a structure at depth zero and
the entry of a builtin type at depth one. -/
def rootNesting (env : TypeEnv) (value : Value) (type : DataType) : Nat :=
  if value.isStruct then nesting env value type else nesting env value type + 1

theorem described_member (wellFormed : env.WellFormed) (described : env.describes type = true)
    (builtin : type.builtin = true) : type.members = [⟨type.typeIndex, true, false⟩] := by
  have rows : ∀ row ∈ builtinTypes, row.members = [⟨row.typeIndex, true, false⟩] := by decide
  simp only [TypeEnv.describes, TypeEnv.types, Bool.or_eq_true, List.contains_iff_mem,
    List.mem_append] at described
  rcases described with (row | structured) | custom
  · exact rows type row
  · obtain ⟨index, -, -, members⟩ := (wellFormed.1 type structured).1 builtin
    rw [members, index]
  · obtain ⟨index, -, -, members⟩ := (wellFormed.2 type custom).1 builtin
    rw [members, index]

theorem typed_builtin (typed : Value.hasType env value type = true) :
    type.builtin = !value.isStruct := by
  cases value with
  | leaf content => simpa [Value.isStruct] using takes_builtin (by simpa [Value.hasType] using typed)
  | struct members =>
    simp only [Value.hasType, Bool.and_eq_true, Bool.not_eq_true'] at typed
    simpa [Value.isStruct] using typed.1.1
  | array undefined elements => simp [Value.hasType] at typed
  | extensionObjectNull =>
    simpa [Value.isStruct] using takes_builtin (by simpa [Value.hasType] using typed)
  | variantEmpty =>
    simpa [Value.isStruct] using takes_builtin (by simpa [Value.hasType] using typed)
  | _ =>
    simp only [Value.hasType, Bool.and_eq_true] at typed
    simpa [Value.isStruct] using takes_builtin typed.1.1

theorem decodeBinaryInternal_reads (input : Input) (wellFormed : input.env.WellFormed)
    {encodeDepth : Nat} (described : input.env.describes type = true)
    (typed : Value.hasType input.env value type = true)
    (accepted : accepts input.env value type encodeDepth = true)
    (parses : parsable input.env value type = true) :
    ReadsIf input (rootNesting input.env value type ≤ input.maxRecursion + 1)
      (decodeBinaryInternal input
        (decodeBinaryJump input (recursionBound input.maxRecursion)) 0 type)
      (valueWire input.env value type) (decodedValue input.env value type) := by
  have kind := typed_builtin typed
  unfold rootNesting
  cases struct : value.isStruct with
  | true =>
    rw [struct, Bool.not_true] at kind
    have reads : ReadsIf input _
        (decodeBinaryJump input (recursionBound input.maxRecursion + 1) 0 type) _ _ :=
      (decodes_value wellFormed value).jump typed accepted parses (Nat.zero_le _)
      (by
        unfold enoughFuel recursionBound
        simp only [kind, Bool.false_eq_true, ↓reduceIte]
        omega)
    have entry : decodeBinaryJump input (recursionBound input.maxRecursion + 1) 0 type =
        decodeBinaryInternal input (decodeBinaryJump input (recursionBound input.maxRecursion))
          0 type := by
      funext pos
      rw [decodeBinaryJump, if_neg (by simp [kind])]
    rw [entry] at reads
    simpa using reads
  | false =>
    rw [struct, Bool.not_false] at kind
    have row := described_row wellFormed described kind
    have rowAt := builtinRowAt_members row.1
    have reads : ReadsIf input _
        (decodeBinaryJump input (recursionBound input.maxRecursion) 1 type) _ _ :=
      (decodes_value wellFormed value).jump typed accepted parses (by omega)
      (by
        unfold enoughFuel recursionBound
        simp only [kind, ↓reduceIte]
        omega)
    rw [decodeBinaryJump_sameIndex input _ 1 kind rowAt.2.1 rowAt.2.2.symm] at reads
    have entry : decodeBinaryInternal input
        (decodeBinaryJump input (recursionBound input.maxRecursion)) 0 type = fun pos =>
          ((decodeBinaryJump input (recursionBound input.maxRecursion) 1
            (builtinRowAt type.typeIndex) pos).thenCheck fun value pos =>
              Res.ok [value] pos).map (valueOfMembers type) := by
      funext pos
      rw [decodeBinaryInternal, if_neg (by omega), described_member wellFormed described kind]
      simp only [decodeMembers, decodeMember, Bool.false_eq_true, ↓reduceIte,
        memberType_row _ _ row.1, Res.ok_thenCheck]
    rw [entry]
    refine ReadsIf.of_iff (ReadsIf.valued (ReadsIf.map (ReadsIf.of_eq
      (ReadsIf.thenCheck reads (Reads.pure [decodedValue input.env value type]).readsIf)
      (List.append_nil _)) (valueOfMembers type)) (by simp [valueOfMembers, kind])) ?_
    simp only [and_true, Bool.false_eq_true, ↓reduceIte]
    omega

theorem describes_row (env : TypeEnv) (row : type ∈ builtinTypes) : env.describes type = true := by
  simp [TypeEnv.describes, TypeEnv.types, row]

theorem uaDecodeBinaryFrom_encoded (wellFormed : env.WellFormed) {size : Nat} (limit : Nat)
    (described : env.describes type = true) (typed : Value.hasType env value type = true)
    (parses : parsable env value type = true)
    (encoded : (uaEncodeBinary env value type (singleBuffer size)).1 = good) :
    let bytes := (uaEncodeBinary env value type (singleBuffer size)).2.out
    let result := uaDecodeBinaryFrom ⟨bytes, bytes.length, env, limit⟩ 0 type
    (rootNesting env value type ≤ limit + 1 →
      result = ⟨good, some (decodedValue env value type), bytes.length, false⟩) ∧
      (¬rootNesting env value type ≤ limit + 1 → result.status ≠ good) := by
  obtain ⟨accepted, written, -⟩ := (uaEncodeBinary_writes env value type).good_only
    (singleBuffer size) rfl (Nat.zero_le _) encoded
  simp only [Bool.and_eq_true] at accepted
  have out : (uaEncodeBinary env value type (singleBuffer size)).2.out =
      valueWire env value type := by
    rw [written]
    simp [singleBuffer]
  rw [out]
  have reads := decodeBinaryInternal_reads
    ⟨valueWire env value type, (valueWire env value type).length, env, limit⟩ wellFormed described
    typed accepted.2 parses 0 (Input.holds_self _ _ _)
  refine ⟨fun inside => ?_, fun outside => ?_⟩
  · simp only [uaDecodeBinaryFrom, reads.1 inside, Res.ok, ↓reduceIte, Nat.zero_add]
  · have bad := reads.2 outside
    simp only [uaDecodeBinaryFrom, bad, ↓reduceIte]
    exact bad

end OpcUa
