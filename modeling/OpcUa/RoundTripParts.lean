import OpcUa.RoundTripCore

/-!
The decoder on the bytes of the parts of a value: leaves, the memory of overlayable arrays,
arrays, ExtensionObjects, the body of a Variant, members and the fields of a DataValue.
-/

namespace OpcUa

open LittleEndian StatusCode List

variable {type : DataType} {env : TypeEnv}
variable {input : Input} {value : Value} {depth : Nat}

section Leaves

variable (input : Input) (jump : Nat → DataType → Nat → Res Value)

theorem encodedObject_reads (depth : Nat) (encoding : EncodedBody) (typeId : NodeId)
    (body : UaString)
    (accepted : (typeId.accepted && (encoding == .noBody || body.accepted)) = true)
    (unknown : (Leaf.extensionObject encoding typeId body).parsable input.env = true) :
    Reads input (extensionObjectDecodeBinary input jump depth)
      (encodedObjectWire encoding typeId body)
      (.leaf (Leaf.extensionObject encoding typeId body).decoded) := by
  simp only [Bool.and_eq_true, Bool.or_eq_true, beq_iff_eq] at accepted
  have header (code : Byte) : Reads input
      (fun pos => (nodeIdDecodeBinary input pos).thenOr fun typeId pos =>
        (byteDecodeBinary input pos).map fun encoding => (typeId, encoding))
      (nodeIdWire 0 typeId ++ [code]) (typeId.decoded, code) :=
    fun pos holds => objectHeader_at input typeId code pos accepted.1 holds
  cases encoding with
  | noBody =>
    exact Reads.of_eq (Reads.thenCheck (header 0) (Reads.pure _))
      (by simp [encodedObjectWire, EncodedBody.code])
  | byteString =>
    refine Reads.of_eq (Reads.thenCheck (header 1) (?_ : Reads input _ (stringWire body) _))
      (by simp [encodedObjectWire, EncodedBody.code])
    simp only [Leaf.parsable, Option.isNone_iff_eq_none] at unknown
    simp only [BitVec.ofNat_eq_ofNat, BitVec.toNat_ofNat, Nat.reducePow, Nat.reduceMod,
      extensionObjectDecodeBinaryContent, unknown]
    exact Reads.map (stringDecodeBinary_reads input body (accepted.2.resolve_left (by simp))) _
  | xml =>
    exact Reads.of_eq (Reads.thenCheck (header 2)
      (Reads.map (stringDecodeBinary_reads input body (accepted.2.resolve_left (by simp))) _))
      (by simp [encodedObjectWire, EncodedBody.code])

theorem leaf_reads (content : Leaf) (encodeDepth fuel depth index : Nat)
    (member : index ∈ content.typeIndices) (accepted : content.accepted encodeDepth = true)
    (unknown : content.parsable input.env = true) :
    Reads input (builtinDecodeBinary input jump (fuel + 1) depth index) (leafWire content)
      (.leaf content.decoded) := by
  cases content with
  | boolean raw =>
    simp only [Leaf.typeIndices, mem_singleton] at member
    subst member
    exact Reads.map (Reads.map (byteDecodeBinary_reads input raw)
      fun byte => if byte.toNat > 0 then 1 else 0) fun raw => Value.leaf (.boolean raw)
  | byte value =>
    simp only [Leaf.typeIndices, mem_cons, not_mem_nil, or_false] at member
    rcases member with rfl | rfl <;> exact Reads.map (byteDecodeBinary_reads input value)
        fun value => Value.leaf (.byte value)
  | uint16 value =>
    simp only [Leaf.typeIndices, mem_cons, not_mem_nil, or_false] at member
    rcases member with rfl | rfl <;> exact Reads.map (uint16DecodeBinary_reads input value)
        fun value => Value.leaf (.uint16 value)
  | uint32 value =>
    simp only [Leaf.typeIndices, mem_cons, not_mem_nil, or_false] at member
    rcases member with rfl | rfl | rfl | rfl <;>
      exact Reads.map (uint32DecodeBinary_reads input value) fun value => Value.leaf (.uint32 value)
  | uint64 value =>
    simp only [Leaf.typeIndices, mem_cons, not_mem_nil, or_false] at member
    rcases member with rfl | rfl | rfl | rfl <;>
      exact Reads.map (uint64DecodeBinary_reads input value) fun value => Value.leaf (.uint64 value)
  | string value =>
    simp only [Leaf.typeIndices, mem_cons, not_mem_nil, or_false] at member
    rcases member with rfl | rfl | rfl <;>
      exact Reads.map (stringDecodeBinary_reads input value accepted)
        fun value => Value.leaf (.string value)
  | guid value =>
    simp only [Leaf.typeIndices, mem_singleton] at member
    subst member
    exact Reads.map (guidDecodeBinary_reads input value) fun value => Value.leaf (.guid value)
  | nodeId value =>
    simp only [Leaf.typeIndices, mem_singleton] at member
    subst member
    exact Reads.map (nodeIdDecodeBinary_reads input 0 value (by decide) accepted)
        fun value => Value.leaf (.nodeId value)
  | expandedNodeId value =>
    simp only [Leaf.typeIndices, mem_singleton] at member
    subst member
    exact Reads.map (expandedNodeIdDecodeBinary_reads input value accepted)
        fun value => Value.leaf (.expandedNodeId value)
  | qualifiedName value =>
    simp only [Leaf.typeIndices, mem_singleton] at member
    subst member
    exact Reads.map (qualifiedNameDecodeBinary_reads input value accepted)
        fun value => Value.leaf (.qualifiedName value)
  | localizedText value =>
    simp only [Leaf.typeIndices, mem_singleton] at member
    subst member
    exact Reads.map (localizedTextDecodeBinary_reads input value accepted)
        fun value => Value.leaf (.localizedText value)
  | extensionObject encoding typeId body =>
    simp only [Leaf.typeIndices, mem_singleton] at member
    subst member
    exact encodedObject_reads input jump depth encoding typeId body accepted unknown
  | diagnosticInfo value =>
    simp only [Leaf.typeIndices, mem_singleton] at member
    subst member
    cases value with
    | nested fields inner => simp [Leaf.parsable] at unknown
    | plain fields =>
      simp only [Leaf.parsable, Option.isNone_iff_eq_none] at unknown
      exact Reads.map (diagnosticInfoDecodeBinary_reads input fields fuel depth accepted unknown)
        fun value => Value.leaf (.diagnosticInfo value)

end Leaves

theorem leafOfMemory_leafMemory {content : Leaf} (takes : type.takes content.typeIndices = true)
    (overlayable : type.overlayable = true) :
    leafOfMemory type.typeIndex (leafMemory content) = content := by
  obtain ⟨index, member, -, -, -, same⟩ := takes_row takes
  have word {bits : Nat} (width : Nat) (value : BitVec bits) (fits : bits ≤ 8 * width) :=
    ofNat_ofLeBytes_leBytes width bits value fits
  rw [(takes_leaf takes).2] at overlayable
  rw [same]
  cases content with
  | boolean raw =>
    simp only [Leaf.typeIndices, mem_singleton] at member
    subst member
    simp [leafOfMemory, leafMemory, ofLeBytes]
  | byte value =>
    simp only [Leaf.typeIndices, mem_cons, not_mem_nil, or_false] at member
    rcases member with rfl | rfl <;> simp [leafOfMemory, leafMemory, ofLeBytes]
  | uint16 value =>
    simp only [Leaf.typeIndices, mem_cons, not_mem_nil, or_false] at member
    rcases member with rfl | rfl <;> simp only [leafOfMemory, leafMemory, word 2 value (by decide)]
  | uint32 value =>
    simp only [Leaf.typeIndices, mem_cons, not_mem_nil, or_false] at member
    rcases member with rfl | rfl | rfl | rfl <;>
      simp only [leafOfMemory, leafMemory, word 4 value (by decide)]
  | uint64 value =>
    simp only [Leaf.typeIndices, mem_cons, not_mem_nil, or_false] at member
    rcases member with rfl | rfl | rfl | rfl <;>
      simp only [leafOfMemory, leafMemory, word 8 value (by decide)]
  | guid value =>
    simp only [Leaf.typeIndices, mem_singleton] at member
    subst member
    have parts : leafMemory (.guid value) = leBytes 4 value.data1.toNat ++
        (leBytes 2 value.data2.toNat ++ (leBytes 2 value.data3.toNat ++
          leBytes 8 value.data4.toNat)) := by simp [leafMemory]
    have first : (leafMemory (.guid value)).take 4 = leBytes 4 value.data1.toNat := by
      rw [parts, take_left' (by simp)]
    have second : ((leafMemory (.guid value)).drop 4).take 2 = leBytes 2 value.data2.toNat := by
      rw [parts, drop_left' (by simp), take_left' (by simp)]
    have third : ((leafMemory (.guid value)).drop 6).take 2 = leBytes 2 value.data3.toNat := by
      rw [parts, ← append_assoc, drop_left' (by simp), take_left' (by simp)]
    have fourth : (leafMemory (.guid value)).drop 8 = leBytes 8 value.data4.toNat := by
      rw [parts, ← append_assoc, ← append_assoc, drop_left' (by simp)]
    simp only [leafOfMemory, first, second, third, fourth, word 4 value.data1 (by decide),
      word 2 value.data2 (by decide), word 2 value.data3 (by decide),
      word 8 value.data4 (by decide)]
  | _ => simp [Leaf.overlayable] at overlayable

theorem membersOfMemory_membersMemory {valueOf : DataType → List Byte → Value} {values : List Value}
    {members : List DataTypeMember} (padding : List Byte)
    (typed : Value.membersHaveType env values type members = true)
    (sizes : ∀ value ∈ values, ∀ member ∈ members, member.isArray = value.isArray →
      Value.memberTyped env value (env.memberType type member) = true →
      (valueMemory env value (env.memberType type member)).length =
          (env.memberType type member).memSize ∧
        valueOf (env.memberType type member)
          (valueMemory env value (env.memberType type member)) = value) :
    membersOfMemory env valueOf type members
      (membersMemory env values type members ++ padding) = values := by
  induction values generalizing members with
  | nil =>
    cases members with
    | nil => rfl
    | cons member members => simp [Value.membersHaveType] at typed
  | cons value rest ih =>
    cases members with
    | nil => simp [Value.membersHaveType] at typed
    | cons member members =>
      obtain ⟨sameKind, memberTyped, restTyped⟩ := membersHaveType_cons typed
      obtain ⟨size, same⟩ := sizes value (by simp) member (by simp) sameKind memberTyped
      have tail := ih restTyped fun later inside other insideToo =>
        sizes later (by simp [inside]) other (by simp [insideToo])
      simp only [membersMemory, membersOfMemory, append_assoc,
        take_left' size, drop_left' size, same, tail]

theorem valueOfMemory_valueMemory (wellFormed : env.WellFormed) (value : Value) (type : DataType)
    (typed : Value.hasType env value type = true) (overlayable : type.overlayable = true)
    (levels : Nat) (fits : env.overlayFits levels type = true) :
    valueOfMemory env levels type (valueMemory env value type) = value := by
  revert levels fits
  refine Value.overlayInduct wellFormed (motive := fun value type => ∀ levels,
    env.overlayFits levels type = true →
      valueOfMemory env levels type (valueMemory env value type) = value) ?_ ?_ value type typed
    overlayable
  · intro content type takes overlayable levels _
    unfold valueOfMemory
    rw [if_pos (takes_builtin takes), valueMemory, leafOfMemory_leafMemory takes overlayable]
  · intro members type notBuiltin description overlayable membersTyped ih levels fits
    have layout := description.2 overlayable notBuiltin
    cases levels with
    | zero => simp [TypeEnv.overlayFits, notBuiltin] at fits
    | succ levels =>
      simp only [TypeEnv.overlayFits, notBuiltin, Bool.false_or, all_eq_true] at fits
      unfold valueOfMemory
      rw [if_neg (by simp [notBuiltin]), valueMemory, padTo]
      simp only
      rw [membersOfMemory_membersMemory _ membersTyped]
      intro value inside member insideToo sameKind memberTyped
      have scalar := layout.1 member insideToo
      have valueTyped : Value.hasType env value (env.memberType type member) = true := by
        cases value with
        | array undefined elements => simp [scalar.1, Value.isArray] at sameKind
        | _ => exact memberTyped
      exact ⟨(overlaySizes wellFormed value _ valueTyped scalar.2).1,
        ih value inside _ valueTyped scalar.2 levels (fits member insideToo)⟩

theorem elementsOfMemory_flatMap (wellFormed : env.WellFormed) {elements : List Value}
    (typed : Value.haveType env elements type = true) (overlayable : type.overlayable = true)
    (fits : env.overlayFits env.overlayNesting type = true) :
    elementsOfMemory env type elements.length
      (elements.flatMap fun element => valueMemory env element type) = elements := by
  induction elements with
  | nil => rfl
  | cons element rest ih =>
    simp only [Value.haveType, Bool.and_eq_true] at typed
    have size := (overlaySizes wellFormed element type typed.1 overlayable).1
    simp only [length_cons, elementsOfMemory, flatMap_cons, take_left' size,
      drop_left' size, ih typed.2,
      valueOfMemory_valueMemory wellFormed element type typed.1 overlayable _ fits]

def enoughFuel (input : Input) (fuel depth : Nat) (type : DataType) : Prop :=
  2 * (input.maxRecursion + 1 - depth) + (if type.builtin then 3 else 2) ≤ fuel

def Decodes (input : Input) (value : Value) : Prop :=
  ∀ type depth fuel encodeDepth, Value.memberTyped input.env value type = true →
    accepts input.env value type encodeDepth = true → parsable input.env value type = true →
    depth ≤ input.maxRecursion + 1 → enoughFuel input fuel depth type →
    ReadsIf input (depth + nesting input.env value type ≤ input.maxRecursion + 1)
      (decodeMember input (decodeBinaryJump input fuel) depth type value.isArray)
      (valueWire input.env value type) (decodedValue input.env value type)

theorem Decodes.jump (decodes : Decodes input value) {fuel encodeDepth : Nat}
    (typed : Value.hasType input.env value type = true)
    (accepted : accepts input.env value type encodeDepth = true)
    (parses : parsable input.env value type = true) (shallow : depth ≤ input.maxRecursion + 1)
    (fuelled : enoughFuel input fuel depth type) :
    ReadsIf input (depth + nesting input.env value type ≤ input.maxRecursion + 1)
      (decodeBinaryJump input fuel depth type) (valueWire input.env value type)
      (decodedValue input.env value type) := by
  have reads := decodes type depth fuel encodeDepth (memberTyped_of_hasType typed) accepted parses
    shallow fuelled
  have scalar : value.isArray = false := by
    cases value with
    | array undefined elements => simp [Value.hasType] at typed
    | _ => rfl
  rw [scalar] at reads
  exact reads

theorem decodeBinaryJump_sameIndex (input : Input) (fuel depth : Nat) {other : DataType}
    (builtin : type.builtin = true) (builtinToo : other.builtin = true)
    (same : type.typeIndex = other.typeIndex) :
    decodeBinaryJump input fuel depth type = decodeBinaryJump input fuel depth other := by
  cases fuel with
  | zero => rfl
  | succ fuel =>
    funext pos
    simp only [decodeBinaryJump, builtin, builtinToo, ↓reduceIte, same]

section Arrays

variable {input : Input} {elements : List Value} {depth fuel encodeDepth : Nat}

theorem decodeElements_reads {decode : Nat → Res Value}
    (sameEntry : decode = decodeBinaryJump input fuel depth type)
    (decodes : ∀ element ∈ elements, Decodes input element)
    (typed : Value.haveType input.env elements type = true)
    (accepted : acceptsElements input.env elements type encodeDepth = true)
    (parses : parsableElements input.env elements type = true)
    (shallow : depth ≤ input.maxRecursion + 1) (fuelled : enoughFuel input fuel depth type) :
    ReadsIf input (depth + nestingElements input.env elements type ≤ input.maxRecursion + 1)
      (decodeElements decode elements.length)
      (elementsWire input.env elements type) (decodedElements input.env elements type) := by
  subst sameEntry
  induction elements with
  | nil =>
    simp only [elementsWire, decodedElements, nestingElements]
    exact (Reads.pure _).readsIf.of_iff (by simpa using shallow)
  | cons element rest ih =>
    simp only [Value.haveType, acceptsElements, parsableElements, Bool.and_eq_true]
      at typed accepted parses
    have head := (decodes element (by simp)).jump typed.1 accepted.1 parses.1 shallow fuelled
    have tail := ih (fun later inside => decodes later (by simp [inside])) typed.2 accepted.2
      parses.2
    simp only [elementsWire, decodedElements, nestingElements]
    refine ReadsIf.of_iff (ReadsIf.thenCheck head (ReadsIf.of_eq
      (ReadsIf.thenCheck tail (Reads.pure _).readsIf) (append_nil _))) ?_
    simp only [and_true]
    omega

theorem arrayDecodeBinary_reads (wellFormed : input.env.WellFormed) (undefined : Bool)
    {row : DataType}
    (sameEntry : decodeBinaryJump input fuel depth row = decodeBinaryJump input fuel depth type)
    (sameSize : row.memSize = type.memSize) (sameOverlay : row.overlayable = type.overlayable)
    (sameMemory : type.overlayable = true → elementsOfMemory input.env row elements.length
      (elements.flatMap fun element => valueMemory input.env element type) = elements)
    (decodes : ∀ element ∈ elements, Decodes input element)
    (typed : Value.haveType input.env elements type = true)
    (accepted : (elements.length ≤ int32Max &&
      (type.overlayable || acceptsElements input.env elements type encodeDepth)) = true)
    (parses : (type.overlayable ||
      (passesFilter type elements.length (elementsWire input.env elements type).length &&
        parsableElements input.env elements type)) = true)
    (shallow : depth ≤ input.maxRecursion + 1) (fuelled : enoughFuel input fuel depth type) :
    ReadsIf input
      (depth + (if type.overlayable then 0 else nestingElements input.env elements type) ≤
        input.maxRecursion + 1)
      (arrayDecodeBinary input (decodeBinaryJump input fuel) depth row)
      (leBytes 4 (arrayLengthField elements.length (!undefined)) ++
        if type.overlayable then elements.flatMap fun element => valueMemory input.env element type
        else elementsWire input.env elements type)
      (undefined && elements.isEmpty,
        if type.overlayable then elements else decodedElements input.env elements type) := by
  simp only [Bool.and_eq_true, decide_eq_true_eq] at accepted
  intro pos holds
  have parts := holds.append
  simp only [leBytes_length] at parts
  have enough : pos + 4 + row.memSize * elements.length / 32 ≤ input.length := by
    have inside := parts.2.1
    rw [sameSize]
    cases overlay : type.overlayable with
    | true =>
      simp only [overlay, ↓reduceIte, elements_memory wellFormed typed overlay] at inside
      omega
    | false =>
      simp only [overlay, Bool.false_or, Bool.and_eq_true, passesFilter, decide_eq_true_eq,
        Bool.false_eq_true, ↓reduceIte] at parses inside
      omega
  have length := arrayDecodeLength_at input row.memSize elements.length (!undefined) pos
    accepted.1 parts.1 enough
  rw [arrayDecodeBinary, length, Res.ok_thenCheck, length_append, leBytes_length]
  cases elements with
  | nil =>
    cases undefined <;> cases overlay : type.overlayable <;>
      simp [arrayLengthOf, decodedElements, elementsWire, nestingElements, shallow]
  | cons element rest =>
    simp only [arrayLengthOf, length_cons, Nat.zero_lt_succ, ↓reduceIte, sameOverlay]
    cases overlay : type.overlayable with
    | true =>
      simp only [overlay, ↓reduceIte] at parts ⊢
      have memory := readBytes_reads input _ (pos + 4) parts.2
      rw [elements_memory wellFormed typed overlay] at memory
      rw [sameSize, ← length_cons (a := element), memory, Res.ok_thenCheck,
        sameMemory overlay, elements_memory wellFormed typed overlay, Nat.add_assoc]
      exact ⟨fun _ => by simp, fun fails => absurd shallow fails⟩
    | false =>
      simp only [overlay, Bool.false_eq_true, ↓reduceIte] at parts ⊢
      simp only [overlay, Bool.false_or, Bool.and_eq_true] at accepted parses
      have content := decodeElements_reads sameEntry decodes typed accepted.2 parses.2 shallow
        fuelled (pos + 4) parts.2
      simp only [isEmpty_cons, Bool.and_false]
      refine ⟨fun inside => ?_, content.2⟩
      rw [← length_cons (a := element), content.1 inside, Res.ok_map, Nat.add_assoc]

end Arrays

section Objects

variable {input : Input} {jump : Nat → DataType → Nat → Res Value} {condition : Prop}
  {depth size : Nat} {bytes : List Byte} {data : Value}
variable {index : Nat}
variable {isArray hasDimensions : Bool}

theorem objectHeaderWire_parts (type : DataType) (size : Nat) (bytes : List Byte) :
    objectHeaderWire type size ++ bytes =
      (nodeIdWire 0 type.binaryTypeId ++ [1]) ++ (leBytes 4 size ++ bytes) := by
  simp [objectHeaderWire]

section

variable (recovers : input.env.recovers type = true)
  (content : ReadsIf input condition (jump depth type) bytes data)
include recovers content

theorem extensionObject_reads :
    ReadsIf input condition (extensionObjectDecodeBinary input jump depth)
      (objectHeaderWire type size ++ bytes) (.extensionObject false type data) := by
  simp only [TypeEnv.recovers, Bool.and_eq_true, Bool.not_eq_true', beq_iff_eq] at recovers
  rw [objectHeaderWire_parts]
  have header : Reads input (fun pos => (nodeIdDecodeBinary input pos).thenOr fun typeId pos =>
        (byteDecodeBinary input pos).map fun encoding => (typeId, encoding))
      (nodeIdWire 0 type.binaryTypeId ++ [1]) (type.binaryTypeId, 1) :=
    fun pos holds => objectHeader_at input type.binaryTypeId 1 pos rfl holds
  refine ReadsIf.of_iff (ReadsIf.thenCheck header.readsIf
    (?_ : ReadsIf input _ _ (leBytes 4 size ++ bytes) _))
    (iff_of_eq (true_and _))
  have one : (1 : Byte).toNat = 1 := rfl
  simp only [one, extensionObjectDecodeBinaryContent, recovers.2]
  have skip := ReadsIf.skipped (leBytes 4 size) content
  exact skip.map fun data => Value.extensionObject false type data

theorem unwrap_reads : ReadsIf input condition (variantDecodeBinaryUnwrap input jump depth)
      (objectHeaderWire type size ++ bytes) (.variantScalar type data []) := by
  simp only [TypeEnv.recovers, Bool.and_eq_true, Bool.not_eq_true', beq_iff_eq] at recovers
  intro pos holds
  rw [objectHeaderWire_parts, append_assoc] at holds
  have typeIdRead := nodeIdDecodeBinary_reads input 0 type.binaryTypeId (by decide) rfl pos
    holds.append.1
  have codeRead := byteDecodeBinary_reads input 1 _ holds.append.2.append.1
  have skip := ReadsIf.skipped (leBytes 4 size) content _ holds.append.2.append.2
  rw [variantDecodeBinaryUnwrap, typeIdRead, Res.ok_thenCheck, codeRead, Res.ok_thenCheck]
  have found : input.env.findDataTypeByBinaryInternal type.binaryTypeId.decoded = some type :=
    recovers.2
  have one : (1 : Byte).toNat = 1 := rfl
  simp only [one, ↓reduceIte, found]
  simp only [leBytes_length, length_append, length_singleton, Nat.add_assoc] at skip ⊢
  refine ⟨fun holdsToo => ?_, skip.2⟩
  rw [skip.1 holdsToo, Res.ok_map]
  congr 1
  simp only [objectHeaderWire, length_append, length_cons, leBytes_length]
  omega

end

theorem unwrap_encoded_reads {encoding : EncodedBody} {typeId : NodeId} {body : UaString}
    {result : Value} (accepted : typeId.accepted = true)
    (unknown : (Leaf.extensionObject encoding typeId body).parsable input.env = true)
    (content : ReadsIf input condition (jump depth extensionObjectType)
      (encodedObjectWire encoding typeId body) result) :
    ReadsIf input condition (variantDecodeBinaryUnwrap input jump depth)
      (encodedObjectWire encoding typeId body) (.variantScalar extensionObjectType result []) := by
  intro pos holds
  have whole := content pos holds
  have parts := holds.append
  have typeIdRead := nodeIdDecodeBinary_reads input 0 typeId (by decide) accepted pos parts.1
  have codeRead := byteDecodeBinary_reads input encoding.code _ parts.2.cons.1
  have notFound : (if encoding.code.toNat = 1 then
      input.env.findDataTypeByBinaryInternal typeId.decoded else none) = none := by
    cases encoding with
    | noBody => simp [EncodedBody.code]
    | xml => simp [EncodedBody.code]
    | byteString => simpa [EncodedBody.code, Leaf.parsable, Option.isNone_iff_eq_none] using unknown
  rw [variantDecodeBinaryUnwrap, typeIdRead, Res.ok_thenCheck, codeRead, Res.ok_thenCheck]
  simp only [notFound]
  refine ⟨fun holdsToo => ?_, whole.2⟩
  rw [whole.1 holdsToo, Res.ok_map]

theorem variantEncodingByte_bits (env : TypeEnv) (isArray hasDimensions : Bool)
    (bits : variantTypeIdBits env type = 0x3F &&& BitVec.ofNat 8 (index + 1)) (small : index < 25) :
    variantEncodingByte env type isArray hasDimensions ≠ 0 ∧
      testBit (variantEncodingByte env type isArray hasDimensions) 0x80 = isArray ∧
      testBit (variantEncodingByte env type isArray hasDimensions) 0x40 = hasDimensions ∧
      (variantEncodingByte env type isArray hasDimensions &&& 0x3F).toNat = index + 1 := by
  have table : ∀ index < 25, ∀ isArray hasDimensions : Bool,
      let byte := (0x3F &&& BitVec.ofNat 8 (index + 1)) ||| flagBit isArray 7 ||| flagBit hasDimensions 6
      byte ≠ 0 ∧ testBit byte 0x80 = isArray ∧ testBit byte 0x40 = hasDimensions ∧
        (byte &&& 0x3F).toNat = index + 1 := by decide
  rw [variantEncodingByte, bits]
  exact table index small isArray hasDimensions

def variantBody (input : Input) (jump : Nat → DataType → Nat → Res Value)
    (index depth : Nat) (isArray hasDimensions : Bool) (pos : Nat) : Res Value :=
  if isArray then
    (arrayDecodeBinary input jump depth (builtinRowAt index) pos).thenOr fun content pos =>
      (decodeWhen hasDimensions (dimensionsDecodeBinary input) pos).map fun arrayDimensions =>
        .variantArray (builtinRowAt index) content.1 content.2 (arrayDimensions.getD [])
  else if index ≠ 21 then
    (jump depth (builtinRowAt index) pos).map fun data => .variantScalar (builtinRowAt index) data []
  else variantDecodeBinaryUnwrap input jump depth pos

section

variable (bits : variantTypeIdBits input.env type = 0x3F &&& BitVec.ofNat 8 (index + 1))
  (small : index < 25) (notNested : isArray = false → index ≠ 23)
include bits small notNested

theorem variantDecodeBinary_at {pos : Nat}
    (holds : input.Holds pos [variantEncodingByte input.env type isArray hasDimensions]) :
    variantDecodeBinary input jump depth pos =
      if depth > input.maxRecursion then .fail badEncodingError (pos + 1)
      else variantBody input jump index (depth + 1) isArray hasDimensions (pos + 1) := by
  obtain ⟨nonzero, arrayBit, dimensionsBit, indexBits⟩ :=
    variantEncodingByte_bits input.env isArray hasDimensions bits small
  rw [variantDecodeBinary, byteDecodeBinary_reads input _ pos holds, Res.ok_thenCheck,
    if_neg nonzero]
  simp only [arrayBit, dimensionsBit, indexBits, Nat.add_sub_cancel, builtinRow_eq _ _ small]
  rw [if_neg (by omega), if_neg (fun both => notNested both.2 both.1)]
  rfl

theorem variant_reads {value : Value} (body : depth ≤ input.maxRecursion →
      ReadsIf input condition (variantBody input jump index (depth + 1) isArray hasDimensions) bytes
      value) :
    ReadsIf input (depth ≤ input.maxRecursion ∧ condition) (variantDecodeBinary input jump depth)
      (variantEncodingByte input.env type isArray hasDimensions :: bytes) value := by
  intro pos holds
  have result := ReadsIf.limited body (pos + 1) holds.cons.2
  rw [variantDecodeBinary_at bits small notNested holds.cons.1]
  rwa [Nat.add_assoc, Nat.add_comm 1] at result

end

end Objects

/-! Dimensions, wrapped arrays, members and DataValues -/

theorem wordsOfMemory_flatMap (words : List (BitVec 32)) :
    wordsOfMemory words.length (words.flatMap fun word => leBytes 4 word.toNat) = words := by
  induction words with
  | nil => rfl
  | cons word rest ih =>
    have size : (leBytes 4 word.toNat).length = 4 := by simp
    simp only [length_cons, wordsOfMemory, flatMap_cons, take_left' size,
      drop_left' size, ih, ofNat_ofLeBytes_leBytes 4 32 word (by decide)]

theorem dimensions_reads (input : Input) (arrayDimensions : List (BitVec 32))
    (short : arrayDimensions.length ≤ int32Max) :
    Reads input
      (fun pos => (decodeWhen (arrayDimensions.length > 0) (dimensionsDecodeBinary input) pos).map
        fun dimensions => dimensions.getD [])
      (dimensionsWire arrayDimensions) arrayDimensions := by
  cases shape : arrayDimensions with
  | nil => exact Reads.pure []
  | cons size rest =>
    rw [← shape]
    have positive : arrayDimensions.length > 0 := by simp [shape]
    have content : Reads input (dimensionsDecodeBinary input) (leBytes 4 arrayDimensions.length ++
          arrayDimensions.flatMap fun size => leBytes 4 size.toNat) arrayDimensions := by
      intro pos holds
      have parts := holds.append
      have field : arrayLengthField arrayDimensions.length false = arrayDimensions.length := by
        simp [arrayLengthField, positive]
      have inside := parts.2.1
      rw [words_length] at inside
      have length := arrayDecodeLength_at input int32Type.memSize arrayDimensions.length false pos
        short (by rw [field]; exact parts.1)
        (by simp only [int32Type, builtinType]; omega)
      have memory := readBytes_reads input _ (pos + 4) parts.2
      rw [words_length] at memory
      rw [dimensionsDecodeBinary, length, Res.ok_thenCheck]
      simp only [arrayLengthOf, positive, ↓reduceIte]
      have memSize : int32Type.memSize = 4 := rfl
      rw [memSize, memory, Res.ok_thenCheck, wordsOfMemory_flatMap, length_append,
        leBytes_length, words_length, Nat.add_assoc]
    have present : Reads input (decodeWhen (arrayDimensions.length > 0) _) (wireWhen _ _) _ :=
      Reads.decodeWhen fun _ => content
    have reads := present.map fun dimensions => dimensions.getD []
    exact reads.valued (by simp [positive])

section Lists

variable {input : Input} {depth fuel encodeDepth : Nat}
variable {elements : List Value}

theorem wrappedElements_reads (recovers : input.env.recovers type = true)
    (decodes : ∀ element ∈ elements, Decodes input element)
    (typed : Value.haveType input.env elements type = true)
    (accepted : acceptsWrapped input.env elements type encodeDepth = true)
    (parses : parsableElements input.env elements type = true)
    (shallow : depth ≤ input.maxRecursion + 1) (fuelled : enoughFuel input fuel depth type) :
    ReadsIf input (depth + nestingElements input.env elements type ≤ input.maxRecursion + 1)
      (decodeElements (decodeBinaryJump input (fuel + 1) depth extensionObjectType) elements.length)
      (wrappedWire input.env elements type) (decodedObjects input.env elements type) := by
  induction elements with
  | nil =>
    simp only [wrappedWire, decodedObjects, nestingElements]
    exact (Reads.pure _).readsIf.of_iff (by simpa using shallow)
  | cons element rest ih =>
    simp only [Value.haveType, acceptsWrapped, parsableElements, Bool.and_eq_true]
      at typed accepted parses
    have content := (decodes element (by simp)).jump typed.1 accepted.1.2.2.2 parses.1 shallow
      fuelled
    have head : ReadsIf input (depth + nesting input.env element type ≤ input.maxRecursion + 1)
        (decodeBinaryJump input (fuel + 1) depth extensionObjectType)
        (objectHeaderWire type (calcSizeBinary input.env element type) ++
          valueWire input.env element type)
        (.extensionObject false type (decodedValue input.env element type)) :=
      extensionObject_reads recovers content
    have tail := ih (fun later inside => decodes later (by simp [inside])) typed.2 accepted.2
      parses.2
    simp only [wrappedWire, decodedObjects, nestingElements]
    refine ReadsIf.of_iff (ReadsIf.thenCheck head (ReadsIf.of_eq
      (ReadsIf.thenCheck tail (Reads.pure _).readsIf) (append_nil _))) ?_
    simp only [and_true]
    omega

theorem wrappedWire_long (env : TypeEnv) (elements : List Value) (type : DataType) :
    2 * elements.length ≤ (wrappedWire env elements type).length := by
  induction elements with
  | nil => simp
  | cons element rest ih =>
    simp only [wrappedWire, objectHeaderWire, length_append, length_cons, leBytes_length]
    omega

theorem wrappedArray_reads (recovers : input.env.recovers type = true)
    (short : elements.length ≤ int32Max) (decodes : ∀ element ∈ elements, Decodes input element)
    (typed : Value.haveType input.env elements type = true)
    (accepted : acceptsWrapped input.env elements type encodeDepth = true)
    (parses : parsableElements input.env elements type = true)
    (shallow : depth ≤ input.maxRecursion + 1) (fuelled : enoughFuel input fuel depth type) :
    ReadsIf input (depth + nestingElements input.env elements type ≤ input.maxRecursion + 1)
      (arrayDecodeBinary input (decodeBinaryJump input (fuel + 1)) depth extensionObjectType)
      (leBytes 4 elements.length ++ wrappedWire input.env elements type)
      (false, decodedObjects input.env elements type) := by
  have field : arrayLengthField elements.length true = elements.length := by
    cases elements <;> simp [arrayLengthField]
  intro pos holds
  have parts := holds.append
  simp only [leBytes_length] at parts
  have inside := parts.2.1
  have long := wrappedWire_long input.env elements type
  have memSize : extensionObjectType.memSize = 48 := rfl
  have length := arrayDecodeLength_at input extensionObjectType.memSize elements.length true pos
    short (by rw [field]; exact parts.1) (by rw [memSize]; omega)
  have content := wrappedElements_reads recovers decodes typed accepted parses shallow fuelled
    (pos + 4) parts.2
  rw [arrayDecodeBinary, length, Res.ok_thenCheck, length_append, leBytes_length]
  cases elements with
  | nil => simp [arrayLengthOf, decodedObjects, wrappedWire, nestingElements, shallow]
  | cons element rest =>
    have notOverlay : extensionObjectType.overlayable = false := rfl
    simp only [arrayLengthOf, length_cons, Nat.zero_lt_succ, ↓reduceIte, notOverlay,
      Bool.false_eq_true] at content ⊢
    refine ⟨fun fits => ?_, content.2⟩
    rw [content.1 fits, Res.ok_map, Nat.add_assoc]

theorem decodeMembers_reads {values : List Value} {members : List DataTypeMember}
    (decodes : ∀ value ∈ values, Decodes input value)
    (typed : Value.membersHaveType input.env values type members = true)
    (accepted : acceptsMembers input.env values type members encodeDepth = true)
    (parses : parsableMembers input.env values type members = true)
    (shallow : depth ≤ input.maxRecursion + 1)
    (fuelled : 2 * (input.maxRecursion + 1 - depth) + 3 ≤ fuel) :
    ReadsIf input (depth + nestingMembers input.env values type members ≤ input.maxRecursion + 1)
      (decodeMembers input (decodeBinaryJump input fuel) depth type members)
      (membersWire input.env values type members)
      (decodedMembers input.env values type members) := by
  induction values generalizing members with
  | nil =>
    cases members with
    | nil =>
      simp only [membersWire, decodedMembers, nestingMembers]
      exact (Reads.pure _).readsIf.of_iff (by simpa using shallow)
    | cons member members => simp [Value.membersHaveType] at typed
  | cons value rest ih =>
    cases members with
    | nil => simp [Value.membersHaveType] at typed
    | cons member members =>
      obtain ⟨sameKind, memberTyped, restTyped⟩ := membersHaveType_cons typed
      simp only [acceptsMembers, parsableMembers, Bool.and_eq_true] at accepted parses
      have head := decodes value (by simp) _ depth fuel encodeDepth memberTyped accepted.1
        parses.1 shallow (by unfold enoughFuel; split <;> omega)
      have tail := ih (fun later inside => decodes later (by simp [inside])) restTyped
        accepted.2 parses.2
      rw [← sameKind] at head
      simp only [membersWire, decodedMembers, nestingMembers]
      refine ReadsIf.of_iff (ReadsIf.thenCheck head (ReadsIf.of_eq
        (ReadsIf.thenCheck tail (Reads.pure _).readsIf) (append_nil _))) ?_
      simp only [and_true]
      omega

end Lists

theorem dataValueMask_bits (info : DataValueInfo) (hasValue : Bool) :
    testBit (dataValueMask info hasValue) 0x01 = hasValue ∧
    testBit (dataValueMask info hasValue) 0x02 = info.status.isSome ∧
    testBit (dataValueMask info hasValue) 0x04 = info.sourceTimestamp.isSome ∧
    testBit (dataValueMask info hasValue) 0x08 = info.serverTimestamp.isSome ∧
    testBit (dataValueMask info hasValue) 0x10 = info.sourcePicoseconds.isSome ∧
    testBit (dataValueMask info hasValue) 0x20 = info.serverPicoseconds.isSome := by
  unfold dataValueMask
  generalize info.status.isSome = status
  generalize info.sourceTimestamp.isSome = sourceTimestamp
  generalize info.serverTimestamp.isSome = serverTimestamp
  generalize info.sourcePicoseconds.isSome = sourcePicoseconds
  generalize info.serverPicoseconds.isSome = serverPicoseconds
  revert hasValue status sourceTimestamp serverTimestamp sourcePicoseconds serverPicoseconds
  decide

theorem wordOption_reads (input : Input) {bits : Nat} (field : Option (BitVec bits)) (width : Nat)
    (fits : bits ≤ 8 * width) :
    Reads input (decodeWhen field.isSome (readWord input width bits))
      (wireOption field fun word => leBytes width word.toNat) field := by
  have reads : Reads input (decodeWhen field.isSome (readWord input width bits))
      (wireOption field fun word => leBytes width word.toNat) (field.map id) :=
    Reads.decodeOption fun content _ => readWord_reads input width content fits
  exact reads.valued (by simp)

theorem dataValue_reads {jump : Nat → DataType → Nat → Res Value} {condition : Prop}
    {bytes : List Byte} (info : DataValueInfo) (hasValue : Bool)
    (content : hasValue = true → depth ≤ input.maxRecursion →
      ReadsIf input condition (variantDecodeBinary input jump (depth + 1)) bytes value) :
    ReadsIf input (depth ≤ input.maxRecursion ∧ (hasValue = true → condition))
      (dataValueDecodeBinary input jump depth)
      (dataValueMask info hasValue :: (wireWhen hasValue bytes ++ dataValueInfoWire info))
      (.dataValue info.decoded hasValue (if hasValue then value else .variantEmpty)) := by
  obtain ⟨valueBit, statusBit, sourceBit, serverBit, sourcePart, serverPart⟩ :=
    dataValueMask_bits info hasValue
  refine ReadsIf.of_iff (ReadsIf.thenCheck
    (byteDecodeBinary_reads input (dataValueMask info hasValue)).readsIf
    (?_ : ReadsIf input (depth ≤ input.maxRecursion ∧ (hasValue = true → condition)) _
      (wireWhen hasValue bytes ++ dataValueInfoWire info) _)) (iff_of_eq (true_and _))
  refine ReadsIf.limited fun inside => ?_
  simp only [valueBit, statusBit, sourceBit, serverBit, sourcePart, serverPart]
  refine ReadsIf.of_iff (ReadsIf.thenOr (ReadsIf.decodeWhen fun present => content present inside)
    (Reads.readsIf (Reads.valued (Reads.thenOr (wordOption_reads input info.status 4 (by decide))
      (Reads.thenOr (wordOption_reads input info.sourceTimestamp 8 (by decide))
        (Reads.thenOr (wordOption_reads input info.sourcePicoseconds 2 (by decide))
          (Reads.thenOr (wordOption_reads input info.serverTimestamp 8 (by decide))
            (Reads.map (wordOption_reads input info.serverPicoseconds 2 (by decide)) _))))) ?_)))
    (iff_of_eq (and_true _))
  cases hasValue <;> simp [DataValueInfo.decoded]

end OpcUa
