import OpcUa.ChunkedBuffers

/-!
With fresh buffers that are large enough the chunked encoding is the encoding into a
single buffer. The first write of every builtin value needs at most 19 bytes, those of a
NodeId with a Guid; everything behind it can continue in another buffer.
-/

namespace OpcUa

open LittleEndian StatusCode List

variable {type : DataType}

def largestUnit : Nat := 19

def largestBuiltin : Nat := 96

def StartsSmall (least : Nat) (encode : Encoder) (bytes : List Byte) : Prop :=
  ∃ unit ≤ largestUnit, Chunks least unit encode bytes

namespace StartsSmall

variable {least : Nat} {first second encode : Encoder} {bytes more : List Byte}

theorem of_eq (starts : StartsSmall least encode bytes) (equal : bytes = more) :
    StartsSmall least encode more := equal ▸ starts

theorem of_flows (flows : Flows least encode bytes) : StartsSmall least encode bytes :=
  ⟨0, Nat.zero_le _, flows⟩

theorem of_atomic (atomic : Atomic encode bytes) (small : bytes.length ≤ largestUnit) :
    StartsSmall least encode bytes :=
  ⟨bytes.length, small, Chunks.of_atomic atomic⟩

theorem of_head (atomic : Atomic first bytes) (small : bytes.length ≤ largestUnit)
    (continues : Flows least second more) :
    StartsSmall least (OpcUa.andThen first second) (bytes ++ more) :=
  ⟨bytes.length + 0, small, Chunks.after_atomic atomic continues⟩

theorem andThen (starts : StartsSmall least first bytes) (continues : Flows least second more) :
    StartsSmall least (OpcUa.andThen first second) (bytes ++ more) := by
  obtain ⟨unit, small, chunks⟩ := starts
  exact ⟨unit, small, chunks.andThen continues⟩

section

variable (starts : StartsSmall least encode bytes) (large : largestBuiltin ≤ least)
include starts large

theorem encodeElement : Flows least (encodeElement encode) bytes := by
  obtain ⟨unit, small, chunks⟩ := starts
  exact chunks.encodeElement (by simp only [largestUnit, largestBuiltin] at small large; omega)

theorem encodeMember {memSize : Nat} (smallToo : memSize ≤ largestBuiltin) :
    Flows least (encodeMember memSize encode) bytes := by
  obtain ⟨unit, small, chunks⟩ := starts
  exact chunks.encodeMember (by simp only [largestUnit, largestBuiltin] at small large; omega)
    fun _ => Nat.le_trans smallToo large

end

theorem encodeBuiltinInternal {encode : Nat → Encoder} {memSize depth : Nat}
    (starts : StartsSmall least (encode (depth + 1)) bytes) (large : largestBuiltin ≤ least)
    (smallToo : memSize ≤ largestBuiltin) (shallow : depth ≤ encodingMaxRecursion) :
    Flows least (encodeBuiltinInternal memSize encode depth) bytes := by
  unfold OpcUa.encodeBuiltinInternal
  rw [if_neg (by omega)]
  exact starts.encodeMember large smallToo

end StartsSmall

section Leaves

variable {least : Nat} (large : largestBuiltin ≤ least)
variable {id : NodeId}

include large

theorem stringEncodeBinary_flows {text : UaString} (accepted : text.accepted = true) :
    Flows least (stringEncodeBinary text) (stringWire text) := by
  simp only [largestBuiltin] at large
  refine arrayEncodeBinary_flows _ _ (by simpa [UaString.accepted] using accepted) (by omega)
    (arrayEncodeBinaryOverlayable_flows (Nat.one_mul text.length).symm (by omega)) ?_
  exact length_eq_zero_iff.mp

theorem exchangeOption_flows {bits : Nat} (field : Option (BitVec bits)) (width : Nat)
    (narrow : width ≤ 8) :
    Flows least (encodeOption field fun word => encodeWithExchangeBuffer (leBytes width word.toNat))
      (wireOption field fun word => leBytes width word.toNat) := by
  simp only [largestBuiltin] at large
  exact Chunks.encodeOption fun value _ => encodeWithExchangeBuffer_flows (by simp; omega)

omit large in
theorem guidEncodeBinary_atomic (guid : Guid) : Atomic (guidEncodeBinary guid) (guidWire guid) := by
  have head : Atomic (encodeAll [uint32EncodeBinary guid.data1, uint16EncodeBinary guid.data2,
      uint16EncodeBinary guid.data3])
      (leBytes 4 guid.data1.toNat ++ leBytes 2 guid.data2.toNat ++ leBytes 2 guid.data3.toNat) :=
    ((Atomic.writeBytes _).encodeAll_cons ((Atomic.writeBytes _).encodeAll_cons
      ((Atomic.writeBytes _).encodeAll_cons Atomic.encodeAll_nil))).of_eq (by simp)
  intro ctx room
  have size := guidWire_length guid
  rcases head ctx room with ⟨fits, result⟩ | ⟨full, status, junk, after, junkFits⟩
  · simp only [guidEncodeBinary, result, Ctx.push_out, Ctx.push_cap, length_append,
      leBytes_length, size]
    split
    · exact Or.inr ⟨by omega, rfl, _, rfl, fits⟩
    · exact Or.inl ⟨by omega, by simp [guidWire]⟩
  · simp only [length_append, leBytes_length] at full
    simp only [guidEncodeBinary, status, after, Ctx.push_out, Ctx.push_cap, length_append, size]
    refine Or.inr ⟨by omega, ?_⟩
    split
    · exact ⟨rfl, junk, rfl, junkFits⟩
    next space =>
      exact ⟨rfl, junk ++ leBytes 8 guid.data4.toNat, by simp, by simp; omega⟩

omit large in
theorem numericNodeId_atomic {value : BitVec 32} (numeric : id.identifier = .numeric value)
    (mask : Byte) :
    Atomic (nodeIdEncodeBinaryWithEncodingMask id mask) (nodeIdWire mask id) ∧
      (nodeIdWire mask id).length ≤ 7 := by
  unfold nodeIdEncodeBinaryWithEncodingMask nodeIdWire
  rw [numeric]
  simp only
  split
  · exact ⟨((Atomic.writeBytes _).encodeAll_cons ((Atomic.writeBytes _).encodeAll_cons
      ((Atomic.writeBytes _).encodeAll_cons Atomic.encodeAll_nil))).of_eq (by simp), by simp⟩
  · split
    · exact ⟨((Atomic.writeBytes _).encodeAll_cons ((Atomic.writeBytes _).encodeAll_cons
        ((Atomic.writeBytes _).encodeAll_cons Atomic.encodeAll_nil))).of_eq (by simp), by simp⟩
    · exact ⟨((Atomic.writeBytes _).encodeAll_cons ((Atomic.writeBytes _).encodeAll_cons
        Atomic.encodeAll_nil)).of_eq (by simp), by simp⟩

theorem nodeIdEncodeBinary_startsSmall (accepted : id.accepted = true) (mask : Byte) :
    StartsSmall least (nodeIdEncodeBinaryWithEncodingMask id mask) (nodeIdWire mask id) := by
  have header (kind : Byte) : Atomic
      (encodeAll [byteEncodeBinary (mask ||| kind), uint16EncodeBinary id.namespaceIndex])
      ((mask ||| kind) :: leBytes 2 id.namespaceIndex.toNat) :=
    ((Atomic.writeBytes _).encodeAll_cons ((Atomic.writeBytes _).encodeAll_cons
      Atomic.encodeAll_nil)).of_eq (by simp)
  unfold NodeId.accepted at accepted
  cases identifier : id.identifier with
  | numeric value =>
    obtain ⟨atomic, short⟩ := numericNodeId_atomic identifier mask
    exact StartsSmall.of_atomic atomic (by simp only [largestUnit]; omega)
  | string value =>
    unfold nodeIdEncodeBinaryWithEncodingMask nodeIdWire
    rw [identifier] at accepted ⊢
    exact (StartsSmall.of_head (header 3) (by simp [largestUnit])
      (stringEncodeBinary_flows large accepted)).of_eq (by simp)
  | guid value =>
    unfold nodeIdEncodeBinaryWithEncodingMask nodeIdWire
    rw [identifier]
    exact StartsSmall.of_atomic (((Atomic.writeBytes _).encodeAll_cons
      ((Atomic.writeBytes _).encodeAll_cons ((guidEncodeBinary_atomic value).encodeAll_cons
        Atomic.encodeAll_nil))).of_eq (by simp)) (by simp [largestUnit, guidWire_length])
  | byteString value =>
    unfold nodeIdEncodeBinaryWithEncodingMask nodeIdWire
    rw [identifier] at accepted ⊢
    exact (StartsSmall.of_head (header 5) (by simp [largestUnit])
      (stringEncodeBinary_flows large accepted)).of_eq (by simp)

theorem expandedNodeIdEncodeBinary_startsSmall {id : ExpandedNodeId}
    (accepted : (id.nodeId.accepted && id.namespaceUri.accepted) = true) :
    StartsSmall least (expandedNodeIdEncodeBinary id) (expandedNodeIdWire id) := by
  simp only [Bool.and_eq_true] at accepted
  refine (nodeIdEncodeBinary_startsSmall large accepted.1 _).andThen (Chunks.andThen
    (Chunks.encodeWhen fun _ => stringEncodeBinary_flows large accepted.2)
    (Chunks.encodeWhen fun _ => encodeWithExchangeBuffer_flows ?_))
  simp only [largestBuiltin] at large
  simp only [leBytes_length]
  omega

theorem localizedTextEncodeBinary_startsSmall {text : LocalizedText}
    (accepted : (text.locale.accepted && text.text.accepted) = true) :
    StartsSmall least (localizedTextEncodeBinary text) (localizedTextWire text) := by
  simp only [Bool.and_eq_true] at accepted
  exact (StartsSmall.of_head (Atomic.writeBytes _) (by simp [largestUnit])
    (Chunks.encodeAll_cons (Chunks.encodeWhen fun _ => stringEncodeBinary_flows large accepted.1)
      (Chunks.encodeAll_cons (Chunks.encodeWhen fun _ => stringEncodeBinary_flows large accepted.2)
        Chunks.encodeAll_nil))).of_eq (by simp [localizedTextWire])

theorem encodedObjectEncodeBinary_startsSmall {encoding : EncodedBody} {typeId : NodeId}
    {body : UaString}
    (accepted : (typeId.accepted && (encoding == .noBody || body.accepted)) = true) :
    StartsSmall least (encodedObjectEncodeBinary encoding typeId body)
      (encodedObjectWire encoding typeId body) := by
  simp only [Bool.and_eq_true, Bool.or_eq_true] at accepted
  have code : Flows least (encodeWithExchangeBuffer [encoding.code]) [encoding.code] := by
    simp only [largestBuiltin] at large
    exact encodeWithExchangeBuffer_flows (by simp; omega)
  have header := nodeIdEncodeBinary_startsSmall large accepted.1 0
  cases encoding with
  | noBody => exact (header.andThen (code.andThen Chunks.succeed)).of_eq (by simp [encodedObjectWire])
  | byteString =>
    exact (header.andThen (code.andThen
      (stringEncodeBinary_flows large (by simpa using accepted.2)))).of_eq
      (by simp [encodedObjectWire])
  | xml =>
    exact (header.andThen (code.andThen
      (stringEncodeBinary_flows large (by simpa using accepted.2)))).of_eq
      (by simp [encodedObjectWire])

omit large in
theorem uint32Option_atomic (field : Option (BitVec 32)) :
    Atomic (encodeOption field uint32EncodeBinary) (wireOption field wordWire) := by
  cases field with
  | none => exact Atomic.succeed
  | some value => exact Atomic.writeBytes _

omit large in
theorem wordOption_length (field : Option (BitVec 32)) : (wireOption field wordWire).length ≤ 4 := by
  cases field <;> simp [wireOption, wordWire]

theorem diagnosticFieldsEncodeBinary_startsSmall {fields : DiagnosticFields}
    (accepted : fields.accepted = true) (hasInner : Bool) :
    StartsSmall least (diagnosticFieldsEncodeBinary fields hasInner)
      (diagnosticFieldsWire fields hasInner) := by
  have first := wordOption_length fields.symbolicId
  have second := wordOption_length fields.namespaceUri
  have third := wordOption_length fields.localizedText
  have fourth := wordOption_length fields.locale
  have texts : Flows least (encodeOption fields.additionalInfo stringEncodeBinary)
      (wireOption fields.additionalInfo stringWire) :=
    Chunks.encodeOption fun value present => stringEncodeBinary_flows large (by
      simpa [DiagnosticFields.accepted, present] using accepted)
  refine (StartsSmall.of_head ((Atomic.writeBytes _).encodeAll_cons
    ((uint32Option_atomic _).encodeAll_cons ((uint32Option_atomic _).encodeAll_cons
      ((uint32Option_atomic _).encodeAll_cons ((uint32Option_atomic _).encodeAll_cons
        Atomic.encodeAll_nil))))) ?_
    (texts.andThen (exchangeOption_flows large fields.innerStatusCode 4 (by omega)))).of_eq
    (by simp [diagnosticFieldsWire]; rfl)
  simp only [length_append, length_cons, length_nil, largestUnit]
  omega

theorem diagnosticInfoEncodeBinary_startsSmall (info : DiagnosticInfo) (depth : Nat)
    (accepted : info.accepted depth = true) :
    StartsSmall least (diagnosticInfoEncodeBinary info depth) (diagnosticInfoWire info) := by
  induction info generalizing depth with
  | plain fields => exact diagnosticFieldsEncodeBinary_startsSmall large accepted false
  | nested fields inner ih =>
    simp only [DiagnosticInfo.accepted, Bool.and_eq_true, decide_eq_true_eq] at accepted
    exact (diagnosticFieldsEncodeBinary_startsSmall large accepted.1 true).andThen
      ((ih (depth + 1) accepted.2.2).encodeBuiltinInternal large (by decide) accepted.2.1)

def Leaf.chunkable : Leaf → Bool
  | .qualifiedName _ => false
  | _ => true

theorem leafEncodeBinary_startsSmall {content : Leaf} {depth : Nat}
    (accepted : content.accepted depth = true) (chunkable : content.chunkable = true) :
    StartsSmall least (leafEncodeBinary content depth) (leafWire content) := by
  cases content with
  | boolean raw => exact StartsSmall.of_atomic (Atomic.writeBytes _) (by simp [leafWire, largestUnit])
  | byte value => exact StartsSmall.of_atomic (Atomic.writeBytes _) (by simp [leafWire, largestUnit])
  | uint16 value => exact StartsSmall.of_atomic (Atomic.writeBytes _) (by simp [leafWire, largestUnit])
  | uint32 value => exact StartsSmall.of_atomic (Atomic.writeBytes _) (by simp [leafWire, largestUnit])
  | uint64 value => exact StartsSmall.of_atomic (Atomic.writeBytes _) (by simp [leafWire, largestUnit])
  | string value => exact StartsSmall.of_flows (stringEncodeBinary_flows large accepted)
  | guid value =>
    exact StartsSmall.of_atomic (guidEncodeBinary_atomic value)
      (by simp [leafWire, largestUnit, guidWire_length])
  | nodeId value => exact nodeIdEncodeBinary_startsSmall large accepted 0
  | expandedNodeId value => exact expandedNodeIdEncodeBinary_startsSmall large accepted
  | qualifiedName value => exact absurd chunkable (by simp [Leaf.chunkable])
  | localizedText value => exact localizedTextEncodeBinary_startsSmall large accepted
  | extensionObject encoding typeId body =>
    exact encodedObjectEncodeBinary_startsSmall large accepted
  | diagnosticInfo value => exact diagnosticInfoEncodeBinary_startsSmall large value depth accepted

end Leaves

mutual

def chunkable (env : TypeEnv) (least : Nat) : Value → DataType → Bool
  | .leaf content, _ => content.chunkable
  | .extensionObject _ contentType data, _ => chunkable env least data contentType
  | .extensionObjectNull, _ => true
  | .dataValue _ _ value, _ => chunkable env least value variantType
  | .variantEmpty, _ => true
  | .variantScalar contentType data _, _ => chunkable env least data contentType
  | .variantArray contentType _ elements _, _ =>
    if contentType.overlayable && !isWrapped env contentType then contentType.memSize ≤ least
    else elementsChunkable env least elements contentType
  | .struct members, type => membersChunkable env least members type type.members
  | .array _ elements, type =>
    if type.overlayable then type.memSize ≤ least
    else elementsChunkable env least elements type

def elementsChunkable (env : TypeEnv) (least : Nat) : List Value → DataType → Bool
  | [], _ => true
  | element :: rest, type =>
    chunkable env least element type && elementsChunkable env least rest type

def membersChunkable (env : TypeEnv) (least : Nat) :
    List Value → DataType → List DataTypeMember → Bool
  | value :: rest, type, member :: members =>
    chunkable env least value (env.memberType type member) &&
      membersChunkable env least rest type members
  | _, _, _ => true

end

def Value.unitLimit : Value → Nat
  | .struct _ => 0
  | .array _ _ => 0
  | .variantEmpty => 5
  | .variantScalar .. => 5
  | .variantArray .. => 5
  | _ => largestUnit

theorem unitLimit_le (value : Value) : value.unitLimit ≤ largestUnit := by
  cases value <;> simp [Value.unitLimit, largestUnit]

theorem takes_memSize_le {indices : List Nat} (takes : type.takes indices = true) :
    type.memSize ≤ largestBuiltin := by
  have rows : ∀ row ∈ builtinTypes, row.memSize ≤ largestBuiltin := by decide
  obtain ⟨index, -, size, -⟩ := takes_row takes
  rw [size, getD_eq_getElem?_getD]
  cases found : builtinTypes[index]? with
  | none => decide
  | some row => exact rows row (mem_of_getElem? found)

theorem hasType_memSize_le {env : TypeEnv} {value : Value}
    (typed : Value.hasType env value type = true) (builtin : value.isStruct = false) :
    type.memSize ≤ largestBuiltin := by
  cases value with
  | struct members => simp [Value.isStruct] at builtin
  | array undefined elements => simp [Value.hasType] at typed
  | leaf content => exact takes_memSize_le typed
  | extensionObjectNull => exact takes_memSize_le typed
  | variantEmpty => exact takes_memSize_le typed
  | _ =>
    simp only [Value.hasType, Bool.and_eq_true] at typed
    exact takes_memSize_le typed.1.1

section Values

variable {env : TypeEnv} {least : Nat}
variable {value : Value} {type : DataType} {depth : Nat} {elements : List Value}
variable {undefined : Bool} {arrayDimensions : List (BitVec 32)}

def ValueChunks (env : TypeEnv) (least : Nat) (value : Value) : Prop :=
  ∀ type depth, Value.memberTyped env value type = true → accepts env value type depth = true →
    chunkable env least value type = true →
    ∃ unit ≤ value.unitLimit,
      Chunks least unit (encodeBinaryJump env value type depth) (valueWire env value type)

theorem ValueChunks.startsSmall (chunks : ValueChunks env least value)
    (typed : Value.memberTyped env value type = true)
    (accepted : accepts env value type depth = true)
    (pieces : chunkable env least value type = true) :
    StartsSmall least (encodeBinaryJump env value type depth) (valueWire env value type) := by
  obtain ⟨unit, small, run⟩ := chunks type depth typed accepted pieces
  exact ⟨unit, Nat.le_trans small (unitLimit_le value), run⟩

variable (large : largestBuiltin ≤ least)

include large

section

variable (chunks : ValueChunks env least value) (typed : Value.hasType env value type = true)
include chunks typed

theorem ValueChunks.encodeMember (accepted : accepts env value type depth = true)
    (pieces : chunkable env least value type = true) :
    Flows least (encodeMember type.memSize (encodeBinaryJump env value type depth))
      (valueWire env value type) := by
  obtain ⟨unit, small, run⟩ := chunks type depth (memberTyped_of_hasType typed) accepted pieces
  have limit := unitLimit_le value
  simp only [largestUnit] at limit
  refine run.encodeMember (by simp only [largestBuiltin] at large; omega) fun positive => ?_
  cases structure? : value.isStruct with
  | true =>
    obtain ⟨members, rfl⟩ : ∃ members, value = .struct members := by
      cases value <;> simp_all [Value.isStruct]
    simp only [Value.unitLimit] at small
    omega
  | false => exact Nat.le_trans (hasType_memSize_le typed structure?) large

theorem encodeInternalWith_flows
    (accepted : (enters value depth && accepts env value type (entered value depth)) = true)
    (pieces : chunkable env least value type = true) :
    Flows least (encodeInternalWith value type (encodeBinaryJump env value type) depth)
      (valueWire env value type) := by
  simp only [enters, entered, Bool.and_eq_true] at accepted
  unfold encodeInternalWith
  cases structure? : value.isStruct with
  | true =>
    simp only [structure?, ↓reduceIte] at accepted
    obtain ⟨unit, small, run⟩ := chunks type depth (memberTyped_of_hasType typed) accepted.2 pieces
    obtain ⟨members, rfl⟩ : ∃ members, value = .struct members := by
      cases value <;> simp_all [Value.isStruct]
    obtain rfl : unit = 0 := Nat.le_zero.mp small
    exact run
  | false =>
    simp only [structure?, Bool.false_or, decide_eq_true_eq, Bool.false_eq_true,
      ↓reduceIte] at accepted
    exact (chunks.startsSmall (memberTyped_of_hasType typed) accepted.2
      pieces).encodeBuiltinInternal large (hasType_memSize_le typed structure?) accepted.1

end

omit large in
theorem decodedObjectEncodeBinary_startsSmall {content : Encoder} {bytes : List Byte} {size : Nat}
    (accepted : objectAccepted type size = true) (flows : Flows least content bytes) :
    StartsSmall least (decodedObjectEncodeBinary type size content)
      (objectHeaderWire type size ++ bytes) := by
  simp only [objectAccepted, Bool.and_eq_true, decide_eq_true_eq] at accepted
  unfold decodedObjectEncodeBinary
  rw [if_pos accepted.1, if_neg (by omega)]
  have numeric : type.binaryTypeId.identifier = .numeric (type.binaryEncodingId.setWidth 32) := rfl
  obtain ⟨typeIdAtomic, short⟩ := numericNodeId_atomic numeric 0
  refine (StartsSmall.of_head (typeIdAtomic.encodeAll_cons ((Atomic.writeBytes [1]).encodeAll_cons
    ((Atomic.writeBytes _).encodeAll_cons Atomic.encodeAll_nil))) ?_ flows).of_eq
    (by simp [objectHeaderWire])
  simp only [length_append, length_cons, length_nil, leBytes_length, largestUnit]
  omega

theorem wrapped_flows (chunks : ValueChunks env least value)
    (typed : Value.hasType env value type = true) (accepted : (depth ≤ encodingMaxRecursion &&
      (objectAccepted type (calcSizeBinary env value type) &&
        (enters value (depth + 1) && accepts env value type (entered value (depth + 1))))) = true)
    (pieces : chunkable env least value type = true) :
    Flows least (encodeBuiltinInternal extensionObjectType.memSize (fun inner =>
        decodedObjectEncodeBinary type (calcSizeBinary env value type)
          (encodeInternalWith value type (encodeBinaryJump env value type) inner)) depth)
      (objectHeaderWire type (calcSizeBinary env value type) ++ valueWire env value type) := by
  rw [Bool.and_eq_true, Bool.and_eq_true, decide_eq_true_eq] at accepted
  exact (decodedObjectEncodeBinary_startsSmall accepted.2.1
    (encodeInternalWith_flows large chunks typed accepted.2.2 pieces)).encodeBuiltinInternal large
    (by decide) accepted.1

section

variable (chunks : ∀ element ∈ elements, ValueChunks env least element)
  (typed : Value.haveType env elements type = true)
include chunks typed

theorem encodeElements_flows (accepted : acceptsElements env elements type depth = true)
    (pieces : elementsChunkable env least elements type = true) :
    Flows least (encodeElements env elements type depth) (elementsWire env elements type) := by
  induction elements with
  | nil => exact Chunks.succeed.of_eq (by simp [elementsWire])
  | cons element rest ih =>
    simp only [Value.haveType, acceptsElements, elementsChunkable, Bool.and_eq_true] at typed accepted pieces
    have head := (chunks element (by simp)).startsSmall (memberTyped_of_hasType typed.1)
      accepted.1 pieces.1
    exact ((head.encodeElement large).andThen (ih (fun later inside => chunks later (by simp [inside]))
      typed.2 accepted.2 pieces.2)).of_eq (by simp [elementsWire])

theorem encodeWrapped_flows (accepted : acceptsWrapped env elements type depth = true)
    (pieces : elementsChunkable env least elements type = true) :
    Flows least (encodeWrapped env elements type depth) (wrappedWire env elements type) := by
  induction elements with
  | nil => exact Chunks.succeed.of_eq (by simp [wrappedWire])
  | cons element rest ih =>
    rw [acceptsWrapped, Bool.and_eq_true] at accepted
    simp only [Value.haveType, elementsChunkable, Bool.and_eq_true] at typed pieces
    exact ((wrapped_flows large (chunks element (by simp)) typed.1 accepted.1 pieces.1).andThen
      (ih (fun later inside => chunks later (by simp [inside])) typed.2 accepted.2 pieces.2)).of_eq
      (by simp only [wrappedWire])

end

theorem encodeMembers_flows {values : List Value} {members : List DataTypeMember}
    (chunks : ∀ value ∈ values, ValueChunks env least value)
    (typed : Value.membersHaveType env values type members = true)
    (accepted : acceptsMembers env values type members depth = true)
    (pieces : membersChunkable env least values type members = true) :
    Flows least (encodeMembers env values type members depth)
      (membersWire env values type members) := by
  induction values generalizing members with
  | nil => exact Chunks.succeed.of_eq (by simp [membersWire])
  | cons value rest ih =>
    cases members with
    | nil => exact Chunks.succeed.of_eq (by simp [membersWire])
    | cons member members =>
      obtain ⟨kind, first, others⟩ := membersHaveType_cons typed
      simp only [acceptsMembers, membersChunkable, Bool.and_eq_true] at accepted pieces
      have tail := ih (fun later inside => chunks later (by simp [inside])) others accepted.2
        pieces.2
      unfold encodeMembers membersWire
      rw [kind]
      cases value with
      | array undefined elements =>
        obtain ⟨unit, small, run⟩ := chunks _ (by simp) _ _ first accepted.1 pieces.1
        obtain rfl : unit = 0 := Nat.le_zero.mp small
        exact run.andThen tail
      | _ =>
        exact ((chunks _ (by simp)).encodeMember large first accepted.1 pieces.1).andThen tail

theorem arrayContent_flows (wellFormed : env.WellFormed)
    (chunks : ∀ element ∈ elements, ValueChunks env least element)
    (typed : Value.haveType env elements type = true) (short : elements.length ≤ int32Max)
    (accepted : (type.overlayable || acceptsElements env elements type depth) = true)
    (pieces : (if type.overlayable then decide (type.memSize ≤ least)
      else elementsChunkable env least elements type) = true) :
    Flows least (arrayEncodeBinary elements.length (!undefined) (if type.overlayable then
          arrayEncodeBinaryOverlayable type.memSize
            (elements.flatMap fun element => valueMemory env element type)
        else encodeElements env elements type depth))
      (leBytes 4 (arrayLengthField elements.length (!undefined)) ++
        if type.overlayable then elements.flatMap fun element => valueMemory env element type
        else elementsWire env elements type) := by
  have small : 4 ≤ least := by simp only [largestBuiltin] at large; omega
  cases overlay : type.overlayable with
  | true =>
    simp only [overlay, ↓reduceIte, decide_eq_true_eq] at pieces
    exact arrayEncodeBinary_flows _ _ short small
      (arrayEncodeBinaryOverlayable_flows (elements_memory wellFormed typed overlay) pieces)
      fun zero => by simp [length_eq_zero_iff.mp zero]
  | false =>
    simp only [overlay, Bool.false_eq_true, ↓reduceIte, Bool.false_or] at pieces accepted
    exact arrayEncodeBinary_flows _ _ short small
      (encodeElements_flows large chunks typed accepted pieces)
      fun zero => by simp [length_eq_zero_iff.mp zero, elementsWire]

theorem dimensionsEncodeBinary_flows (short : arrayDimensions.length ≤ int32Max) :
    Flows least (encodeWhen (arrayDimensions.length > 0) (dimensionsEncodeBinary arrayDimensions))
      (dimensionsWire arrayDimensions) := by
  simp only [largestBuiltin] at large
  refine Chunks.encodeWhen fun some => ?_
  simp only [gt_iff_lt, decide_eq_true_eq] at some
  have length : arrayLengthField arrayDimensions.length false = arrayDimensions.length := by
    simp [arrayLengthField, some]
  exact (arrayEncodeBinary_flows _ _ short (by omega)
    (arrayEncodeBinaryOverlayable_flows (words_length arrayDimensions) (by omega))
    (fun zero => by omega)).of_eq (by rw [length])

theorem dataValueInfoEncodeBinary_flows (info : DataValueInfo) :
    Flows least (dataValueInfoEncodeBinary info) (dataValueInfoWire info) :=
  (Chunks.encodeAll_cons (exchangeOption_flows large _ 4 (by omega))
    (Chunks.encodeAll_cons (exchangeOption_flows large _ 8 (by omega))
      (Chunks.encodeAll_cons (exchangeOption_flows large _ 2 (by omega))
        (Chunks.encodeAll_cons (exchangeOption_flows large _ 8 (by omega))
          (Chunks.encodeAll_cons (exchangeOption_flows large _ 2 (by omega))
            Chunks.encodeAll_nil))))).of_eq (by simp [dataValueInfoWire]; rfl)

theorem variantArray_chunks (wellFormed : env.WellFormed) {contentType : DataType}
    (chunks : ∀ element ∈ elements, ValueChunks env least element)
    (typed : Value.haveType env elements contentType = true)
    (accepted : accepts env (.variantArray contentType undefined elements arrayDimensions) type
      depth = true)
    (pieces : chunkable env least (.variantArray contentType undefined elements arrayDimensions)
      type = true) :
    ∃ unit ≤ 5, Chunks least unit
      (encodeBinaryJump env (.variantArray contentType undefined elements arrayDimensions) type depth)
      (valueWire env (.variantArray contentType undefined elements arrayDimensions) type) := by
  unfold encodeBinaryJump
  simp only [accepts, Bool.and_eq_true, decide_eq_true_eq] at accepted
  have dimensions := dimensionsEncodeBinary_flows large accepted.1.2
  cases wrapped : isWrapped env contentType with
  | true =>
    simp only [wrapped, ↓reduceIte] at accepted
    simp only [chunkable, wrapped, Bool.not_true, Bool.and_false, Bool.false_eq_true,
      ↓reduceIte] at pieces
    rw [if_pos (by simpa [isWrapped] using wrapped), if_neg (by omega)]
    have elementsFlow := encodeWrapped_flows large chunks typed accepted.2 pieces
    have count : Chunks least 4 _ _ := Chunks.after_atomic
      (Atomic.writeBytes (leBytes 4 elements.length)) elementsFlow
    exact ⟨1 + 4, Nat.le_refl 5, (Chunks.after_byte _ (count.andThen dimensions)).of_eq
      (by simp [valueWire, wrapped])⟩
  | false =>
    simp only [wrapped, Bool.false_eq_true, ↓reduceIte] at accepted
    simp only [chunkable, wrapped, Bool.not_false, Bool.and_true] at pieces
    rw [if_neg (by simpa [isWrapped] using wrapped)]
    exact ⟨1 + 0, by omega, (Chunks.after_byte _
      ((arrayContent_flows large wellFormed chunks typed accepted.1.1 accepted.2 pieces).andThen
        dimensions)).of_eq (by simp [valueWire, wrapped])⟩

theorem encodeBinaryJump_chunks (wellFormed : env.WellFormed) (value : Value) :
    ValueChunks env least value := by
  induction value using Value.induct with
  | leaf content =>
    intro type depth typed accepted pieces
    simpa [StartsSmall, Value.unitLimit, encodeBinaryJump, valueWire] using
      leafEncodeBinary_startsSmall large accepted pieces
  | extensionObject noDelete contentType data ih =>
    intro type depth typed accepted pieces
    simp only [Value.memberTyped, Value.hasType, Bool.and_eq_true] at typed
    rw [accepts, Bool.and_eq_true] at accepted
    simpa [StartsSmall, Value.unitLimit, encodeBinaryJump, valueWire] using
      decodedObjectEncodeBinary_startsSmall accepted.1
        (encodeInternalWith_flows large ih typed.2 accepted.2 pieces)
  | extensionObjectNull =>
    intro type depth typed accepted pieces
    simp [accepts] at accepted
  | dataValue info hasValue value ih =>
    intro type depth typed accepted pieces
    simp only [Value.memberTyped, Value.hasType, Bool.and_eq_true] at typed
    simp only [accepts, chunkable] at accepted pieces
    have infoFlow := dataValueInfoEncodeBinary_flows large info
    unfold encodeBinaryJump valueWire
    cases hasValue with
    | false =>
      exact ⟨1 + 0, by simp [Value.unitLimit, largestUnit], Chunks.after_byte
        (dataValueMask info false) (Chunks.succeed.andThen infoFlow)⟩
    | true =>
      obtain ⟨unit, small, run⟩ := ih variantType depth (memberTyped_of_hasType typed.2)
        (by simpa using accepted) pieces
      have limit : value.unitLimit = 5 := by
        cases value <;> simp_all [Value.isVariant, Value.unitLimit]
      exact ⟨1 + unit, by simp only [Value.unitLimit, largestUnit]; omega, Chunks.after_byte
        (dataValueMask info true) (run.andThen infoFlow)⟩
  | variantEmpty =>
    intro type depth typed accepted pieces
    exact ⟨1, by simp [Value.unitLimit], (Chunks.of_atomic (Atomic.writeBytes [0])).of_eq
      (by simp [valueWire])⟩
  | variantScalar contentType data arrayDimensions ih =>
    intro type depth typed accepted pieces
    simp only [Value.memberTyped, Value.hasType, Bool.and_eq_true] at typed
    simp only [chunkable] at pieces
    rw [accepts] at accepted
    unfold encodeBinaryJump
    cases wrapped : isWrapped env contentType with
    | true =>
      rw [if_pos wrapped] at accepted
      rw [if_pos (by simpa [isWrapped] using wrapped)]
      exact ⟨1 + 0, by simp [Value.unitLimit], (Chunks.after_byte _
        (wrapped_flows large ih typed.2 accepted pieces)).of_eq (by simp [valueWire, wrapped])⟩
    | false =>
      rw [if_neg (by simp [wrapped])] at accepted
      rw [if_neg (by simpa [isWrapped] using wrapped)]
      exact ⟨1 + 0, by simp [Value.unitLimit], (Chunks.after_byte _
        (encodeInternalWith_flows large ih typed.2 accepted pieces)).of_eq
        (by simp [valueWire, wrapped])⟩
  | variantArray contentType undefined elements arrayDimensions ih =>
    intro type depth typed accepted pieces
    simp only [Value.memberTyped, Value.hasType, Bool.and_eq_true] at typed
    exact variantArray_chunks large wellFormed ih typed.2 accepted pieces
  | struct members ih =>
    intro type depth typed accepted pieces
    simp only [Value.memberTyped, Value.hasType, Bool.and_eq_true] at typed
    simp only [accepts, Bool.and_eq_true, decide_eq_true_eq] at accepted
    simp only [chunkable] at pieces
    unfold encodeBinaryJump valueWire
    rw [if_neg (by omega)]
    exact ⟨0, Nat.le_refl _, encodeMembers_flows large ih typed.2 accepted.2 pieces⟩
  | array undefined elements ih =>
    intro type depth typed accepted pieces
    simp only [Value.memberTyped, Bool.and_eq_true] at typed
    simp only [accepts, Bool.and_eq_true, decide_eq_true_eq] at accepted
    simp only [chunkable] at pieces
    unfold encodeBinaryJump valueWire
    exact ⟨0, Nat.le_refl _, arrayContent_flows large wellFormed ih typed.2 accepted.1 accepted.2
      pieces⟩

end Values

/-- A first buffer of `initial` bytes and a callback that hands out buffers of the given sizes. -/
def chunkedBuffers (initial : Nat) (sizes : List Nat) : Ctx := ⟨[], [], initial, some sizes, false⟩

/-- If a value can be encoded into a single buffer, then `UA_encodeBinary` with the exchange
callback succeeds from a first buffer of any size, provided the fresh buffers hold every builtin
type and every element that is copied as memory. The buffers in order contain the single-buffer
encoding, no position of a buffer that was handed over is used again, and one fresh buffer for
each byte is enough. -/
theorem chunkedEncoding_eq_singleBuffer (env : TypeEnv) (value : Value) (type : DataType)
    (size initial least : Nat) (sizes : List Nat) (wellFormed : env.WellFormed)
    (typed : Value.hasType env value type = true)
    (encoded : (uaEncodeBinary env value type (singleBuffer size)).1 = good)
    (large : largestBuiltin ≤ least) (pieces : chunkable env least value type = true)
    (fresh : ∀ size ∈ sizes, least ≤ size)
    (enough : (uaEncodeBinary env value type (singleBuffer size)).2.out.length ≤ sizes.length) :
    (uaEncodeBinary env value type (chunkedBuffers initial sizes)).1 = good ∧
      (uaEncodeBinary env value type (chunkedBuffers initial sizes)).2.stream =
        (uaEncodeBinary env value type (singleBuffer size)).2.out ∧
      (uaEncodeBinary env value type (chunkedBuffers initial sizes)).2.fault = false := by
  obtain ⟨accepted, result, -⟩ := (uaEncodeBinary_writes env value type).good_only
    (singleBuffer size) rfl (Nat.zero_le _) encoded
  have written : (uaEncodeBinary env value type (singleBuffer size)).2.out =
      valueWire env value type := by
    rw [result]
    simp [singleBuffer]
  rw [written] at enough ⊢
  have flows :=
    encodeInternalWith_flows large (encodeBinaryJump_chunks large wellFormed value) typed accepted
      pieces
  rcases flows.run (chunkedBuffers initial sizes) sizes rfl fresh (Nat.zero_le _) (by omega) with
    ⟨success, progress⟩ | ⟨_, needs, _⟩
  · exact ⟨success, progress.stream, progress.fault⟩
  · simp [chunkedBuffers] at needs

def chunkedWriteValue : Value :=
  .struct [.leaf (.nodeId ⟨1, .numeric 100000⟩), .leaf (.uint32 13), .leaf (.string .null),
    .dataValue ⟨some good, none, none, none, none⟩ true
      (.variantArray doubleType false [.leaf (.uint64 1), .leaf (.uint64 2)] [])]

theorem chunkedWriteValue_eq_singleBuffer :
    (uaEncodeBinary sampleEnv chunkedWriteValue writeValueType
        (chunkedBuffers 3 (List.replicate 64 96))).1 = good ∧
      (uaEncodeBinary sampleEnv chunkedWriteValue writeValueType
          (chunkedBuffers 3 (List.replicate 64 96))).2.stream =
        (uaEncodeBinary sampleEnv chunkedWriteValue writeValueType (singleBuffer 100)).2.out ∧
      (uaEncodeBinary sampleEnv chunkedWriteValue writeValueType
        (chunkedBuffers 3 (List.replicate 64 96))).2.fault = false :=
  chunkedEncoding_eq_singleBuffer sampleEnv chunkedWriteValue writeValueType 100 3 96 _
    sampleEnv_wellFormed (by decide) (by decide) (Nat.le_refl _) (by decide)
    (fun size inside => (eq_of_mem_replicate inside).ge) (by decide)

/-- A NodeId of seven bytes that does not fit into the rest of the first buffer is not tried
again in a fresh buffer of 16 bytes, since 16 bytes are less than a NodeId in memory. -/
theorem nodeId_needsLargerBuffers :
    (uaEncodeBinary sampleEnv (.leaf (.nodeId ⟨1, .numeric 100000⟩)) nodeIdType
        (singleBuffer 16)).1 = good ∧
      (uaEncodeBinary sampleEnv (.leaf (.nodeId ⟨1, .numeric 100000⟩)) nodeIdType
        (chunkedBuffers 4 (List.replicate 16 16))).1 = badResponseTooLarge := by
  decide

end OpcUa
