import OpcUa.DecodeSafety
import OpcUa.RoundTripParts

/-!
The filter of the array decoder for arrays that are too long for the message. It takes an element
to need a byte of the message for every 32 bytes of its memory, which short elements do not.
-/

namespace OpcUa

open LittleEndian StatusCode

/-! What the elements take in the message -/

def elementBytes (env : TypeEnv) (type : DataType) (element : Value) : List Byte :=
  if type.overlayable then valueMemory env element type else valueWire env element type

/-- What an element takes in memory beyond 32 bytes for each byte that it takes in the message. -/
def excess (env : TypeEnv) (type : DataType) (element : Value) : Int :=
  type.memSize - 32 * (elementBytes env type element).length

def ElementsFit (env : TypeEnv) (elements : List Value) (type : DataType) (rest : List Byte) : Prop :=
  (elements.map (excess env type)).sum ≤ 32 * rest.length + 31

theorem elementsFit_iff {env : TypeEnv} {elements : List Value} {type : DataType} {rest : List Byte} :
    ElementsFit env elements type rest ↔ type.memSize * elements.length / 32 ≤
      (elements.flatMap (elementBytes env type)).length + rest.length := by
  have total : (elements.map (excess env type)).sum = (type.memSize * elements.length : Nat) -
      32 * ((elements.flatMap (elementBytes env type)).length : Int) := by
    induction elements with
    | nil => simp
    | cons element elements ih =>
      rw [List.map_cons, List.sum_cons, ih, excess, List.flatMap_cons, List.length_append,
        List.length_cons, Nat.mul_succ]
      push_cast
      ring
  rw [ElementsFit, total]
  omega

theorem elementsFit_of_long {env : TypeEnv} {elements : List Value} {type : DataType}
    (rest : List Byte)
    (long : ∀ element ∈ elements, type.memSize ≤ 32 * (elementBytes env type element).length) :
    ElementsFit env elements type rest := by
  suffices small : (elements.map (excess env type)).sum ≤ 0 by
    rw [ElementsFit]
    omega
  induction elements with
  | nil => exact Int.le_refl 0
  | cons element elements ih =>
    have first := long element List.mem_cons_self
    have others := ih fun other inside => long other (List.mem_cons_of_mem element inside)
    rw [List.map_cons, List.sum_cons, excess]
    omega

theorem nodeIdWire_two (mask : Byte) (id : NodeId) : 2 ≤ (nodeIdWire mask id).length := by
  rw [nodeIdWire]
  split
  · split
    · simp
    · split <;> simp
  all_goals
    simp only [List.length_cons, List.length_append, leBytes_length]
    omega

/-- Only Variants, DataValues and DiagnosticInfos can be shorter than a 32nd part of their memory. -/
theorem builtin_long {env : TypeEnv} (wellFormed : env.WellFormed) {type : DataType}
    {element : Value} {depth : Nat} (typed : Value.hasType env element type = true)
    (builtin : type.builtin = true) (early : type.typeIndex < 22)
    (accepted : type.overlayable = true ∨ accepts env element type depth = true) :
    type.memSize ≤ 32 * (elementBytes env type element).length := by
  rw [elementBytes]
  cases overlayable : type.overlayable with
  | true =>
    rw [if_pos rfl, (overlaySizes wellFormed element type typed overlayable).1]
    omega
  | false =>
    rw [if_neg Bool.false_ne_true]
    have index {wanted : Nat} (takes : type.takes [wanted] = true) :
        type.typeIndex = wanted ∧ type.memSize = (builtinTypes.getD wanted booleanType).memSize := by
      obtain ⟨only, member, memSize, -, -, same⟩ := takes_row takes
      obtain rfl := List.mem_singleton.mp member
      exact ⟨same, memSize⟩
    cases element with
    | leaf content =>
      have takes : type.takes content.typeIndices = true := by simpa [Value.hasType] using typed
      rw [(takes_leaf takes).1, valueWire]
      cases content with
      | nodeId value =>
        have two := nodeIdWire_two 0 value
        simp only [Leaf.memSize, leafWire]
        omega
      | expandedNodeId value =>
        have two := nodeIdWire_two (expandedNodeIdMask value) value.nodeId
        simp only [Leaf.memSize, leafWire, expandedNodeIdWire, List.length_append]
        omega
      | extensionObject encoding typeId body =>
        have two := nodeIdWire_two 0 typeId
        simp only [Leaf.memSize, leafWire, encodedObjectWire, List.length_append]
        omega
      | diagnosticInfo value =>
        have last := (index takes).1
        omega
      | _ =>
        simp [Leaf.memSize, leafWire, stringWire, guidWire, qualifiedNameWire, localizedTextWire]
        try omega
    | extensionObject noDelete contentType data =>
      simp only [Value.hasType, Bool.and_eq_true] at typed
      have two := nodeIdWire_two 0 contentType.binaryTypeId
      rw [(index typed.1.1).2, valueWire, objectHeaderWire]
      simp only [List.length_append]
      change 48 ≤ _
      omega
    | extensionObjectNull => simp [overlayable, accepts] at accepted
    | struct members => simp [Value.hasType, builtin] at typed
    | array undefined elements => simp [Value.hasType] at typed
    | _ =>
      simp only [Value.hasType, Bool.and_eq_true] at typed
      first
      | have last := (index typed).1
        omega
      | have last := (index typed.1.1).1
        omega

theorem elementsWire_eq (env : TypeEnv) (elements : List Value) (type : DataType) :
    elementsWire env elements type = elements.flatMap (valueWire env · type) := by
  induction elements with
  | nil => rfl
  | cons element elements ih => rw [elementsWire, ih, List.flatMap_cons]

theorem acceptsElements_mem {env : TypeEnv} {elements : List Value} {type : DataType} {depth : Nat}
    (accepted : acceptsElements env elements type depth = true) :
    ∀ element ∈ elements, accepts env element type depth = true := by
  induction elements with
  | nil => simp
  | cons element elements ih =>
    simp only [acceptsElements, Bool.and_eq_true] at accepted
    exact List.forall_mem_cons.mpr ⟨accepted.1, ih accepted.2⟩

theorem arrayEncodeBinary_out {env : TypeEnv} {undefined : Bool} {elements : List Value}
    {type : DataType} {depth size : Nat}
    (encodes : (encodeBinaryJump env (.array undefined elements) type depth
      (singleBuffer size)).1 = good) :
    elements.length ≤ int32Max ∧
      (∀ element ∈ elements, type.overlayable = true ∨ accepts env element type depth = true) ∧
      (encodeBinaryJump env (.array undefined elements) type depth (singleBuffer size)).2.out =
        leBytes 4 (arrayLengthField elements.length (!undefined)) ++
          elements.flatMap (elementBytes env type) := by
  obtain ⟨accepted, written, -⟩ := (encodeBinaryJump_writes env (.array undefined elements) type
    depth).good_only (singleBuffer size) rfl (Nat.zero_le _) encodes
  simp only [accepts, Bool.and_eq_true, Bool.or_eq_true, decide_eq_true_eq] at accepted
  refine ⟨accepted.1, fun element inside => ?_, ?_⟩
  · exact accepted.2.imp id fun all => acceptsElements_mem all element inside
  · rw [written]
    have bytes : elements.flatMap (elementBytes env type) =
        if type.overlayable then elements.flatMap fun element => valueMemory env element type
        else elementsWire env elements type := by
      rw [elementsWire_eq]
      unfold elementBytes
      cases type.overlayable <;> rfl
    simp [singleBuffer, valueWire, bytes]

theorem arrayDecodeLength_beyond (input : Input) (memSize length : Nat) (isSentinel : Bool)
    (pos : Nat) (short : length ≤ int32Max)
    (holds : input.Holds pos (leBytes 4 (arrayLengthField length isSentinel)))
    (beyond : input.length < pos + 4 + memSize * length / 32) :
    arrayDecodeLength input memSize pos = .fail badDecodingError (pos + 4) := by
  have inside := holds.1
  rw [leBytes_length] at inside
  have positive : 0 < length := by
    by_contra none
    have zero : length = 0 := by omega
    rw [zero] at beyond
    omega
  have field : arrayLengthField length isSentinel = length := by
    rw [arrayLengthField, if_pos positive]
  have bound : length < 2 ^ 32 := by
    rw [int32Max] at short
    omega
  have value : (BitVec.ofNat 32 length).toNat = length := by
    rw [BitVec.toNat_ofNat, Nat.mod_eq_of_lt bound]
  rw [field] at holds
  have word := uint32DecodeBinary_reads input (BitVec.ofNat 32 length) pos
    (by rw [value]; exact holds)
  rw [arrayDecodeLength, word, Res.ok_thenCheck, value, leBytes_length, if_neg (by omega),
    if_neg (by omega), if_pos (by omega)]

/-- The filter passes an array that was encoded exactly if its elements, together with the bytes
behind it, are long enough for their memory. Elements of the builtin types before DataValue always
are, short DataValues, Variants and DiagnosticInfos are not. -/
theorem arrayFilter_passes_iff {env : TypeEnv} {undefined : Bool} {elements : List Value}
    {type : DataType} {depth size : Nat}
    (encodes : (encodeBinaryJump env (.array undefined elements) type depth
      (singleBuffer size)).1 = good) (limit : Nat) (front rest : List Byte) :
    let out :=
      (encodeBinaryJump env (.array undefined elements) type depth (singleBuffer size)).2.out
    let input : Input := ⟨front ++ (out ++ rest), (front ++ (out ++ rest)).length, env, limit⟩
    ((arrayDecodeLength input type.memSize front.length).status = good ↔
      ElementsFit env elements type rest) ∧
    (¬ElementsFit env elements type rest → ∀ jump decodeDepth,
      (arrayDecodeBinary input jump decodeDepth type front.length).status = badDecodingError) ∧
    ((∀ element ∈ elements, type.memSize ≤ 32 * (elementBytes env type element).length) →
      ElementsFit env elements type rest) ∧
    (env.WellFormed → type.builtin = true → type.typeIndex < 22 →
      (∀ element ∈ elements, Value.hasType env element type = true) →
        ElementsFit env elements type rest) := by
  obtain ⟨short, accepted, written⟩ := arrayEncodeBinary_out encodes
  intro out input
  have total : input.length =
      front.length + 4 + ((elements.flatMap (elementBytes env type)).length + rest.length) := by
    simp only [input, out, written, List.length_append, leBytes_length]
    omega
  have holds : input.Holds front.length (leBytes 4 (arrayLengthField elements.length (!undefined))) := by
    refine ⟨by rw [leBytes_length]; omega, ?_⟩
    simp only [input, out, written, List.drop_left, List.append_assoc, List.take_left]
  have fails (beyond : ¬ElementsFit env elements type rest) :
      arrayDecodeLength input type.memSize front.length =
        .fail badDecodingError (front.length + 4) := by
    rw [elementsFit_iff] at beyond
    exact arrayDecodeLength_beyond input type.memSize elements.length (!undefined) front.length
      short holds (by omega)
  refine ⟨⟨fun success => ?_, fun passes => ?_⟩, fun beyond jump decodeDepth => ?_,
    elementsFit_of_long rest, fun wellFormed builtin early typed => ?_⟩
  · by_contra beyond
    rw [fails beyond] at success
    exact badDecodingError_ne_good success
  · rw [elementsFit_iff] at passes
    rw [arrayDecodeLength_at input type.memSize elements.length (!undefined) front.length short
      holds (by omega)]
    rfl
  · rw [arrayDecodeBinary, fails beyond]
    rfl
  · exact elementsFit_of_long rest fun element inside =>
      builtin_long wellFormed (typed element inside) builtin early (accepted element inside)

def emptyVariants : Value := .array false [.variantEmpty, .variantEmpty]

/-- The encoder writes them, and the decoder refuses them at the end of a message. -/
theorem emptyVariants_rejected :
    encodeBinaryJump sampleEnv emptyVariants variantType 0 (singleBuffer 16) =
        (good, { singleBuffer 16 with out := [2, 0, 0, 0, 0, 0] }) ∧
      (arrayDecodeLength (Input.mk [2, 0, 0, 0, 0, 0] 6 sampleEnv encodingMaxRecursion)
        variantType.memSize 0).status = badDecodingError := by
  constructor <;> decide

theorem emptyVariants_pass :
    (arrayDecodeLength (Input.mk [2, 0, 0, 0, 0, 0, 7] 7 sampleEnv encodingMaxRecursion)
      variantType.memSize 0).status = good := by
  have passes : ElementsFit sampleEnv [.variantEmpty, .variantEmpty] variantType [7] := by
    rw [ElementsFit]
    decide
  have filter := @arrayFilter_passes_iff sampleEnv false [.variantEmpty, .variantEmpty] variantType
    0 16 (by decide) encodingMaxRecursion [] [7]
  exact filter.1.mpr passes

end OpcUa
