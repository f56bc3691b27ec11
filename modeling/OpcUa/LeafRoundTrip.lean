import OpcUa.SingleBuffer

/-!
Decoding the bytes of a leaf. `Reads` says that a decoder turns given bytes, wherever
they lie in the message, into a value and stops behind them; it composes like the
decoders do. A string of length zero comes back as `NULL` or as the sentinel.
-/

namespace OpcUa

open LittleEndian StatusCode List

def Input.Holds (input : Input) (pos : Nat) (bytes : List Byte) : Prop :=
  pos + bytes.length ≤ input.length ∧ (input.memory.drop pos).take bytes.length = bytes

namespace Input.Holds

variable {input : Input} {pos : Nat} {first second : List Byte}

theorem append (holds : input.Holds pos (first ++ second)) :
    input.Holds pos first ∧ input.Holds (pos + first.length) second := by
  obtain ⟨inside, equal⟩ := holds
  simp only [length_append] at inside equal
  rw [take_add, drop_drop] at equal
  have split := append_inj equal (by
    have total := congrArg List.length equal
    simp only [length_append, length_take, length_drop] at total ⊢
    omega)
  exact ⟨⟨by omega, split.1⟩, ⟨by omega, split.2⟩⟩

theorem cons {byte : Byte} (holds : input.Holds pos (byte :: second)) :
    input.Holds pos [byte] ∧ input.Holds (pos + 1) second :=
  append (show input.Holds pos ([byte] ++ second) from holds)

theorem head {byte : Byte} (holds : input.Holds pos (byte :: second)) :
    pos < input.length ∧ input.memory.getD pos 0 = byte := by
  obtain ⟨inside, equal⟩ := holds
  simp only [length_cons] at inside equal
  refine ⟨by omega, ?_⟩
  have first := congrArg List.head? equal
  simp only [head?_take, Nat.add_eq_zero_iff, Nat.one_ne_zero, and_false, ↓reduceIte,
    head?_drop, head?_cons] at first
  rw [getD_eq_getElem?_getD, first, Option.getD_some]

end Input.Holds

theorem Input.holds_self (bytes : List Byte) (env : TypeEnv) (maxRecursion : Nat) :
    Input.Holds ⟨bytes, bytes.length, env, maxRecursion⟩ 0 bytes := by
  simp [Input.Holds]

namespace Res

variable {α β : Type}

@[simp] theorem ok_map (value : α) (pos : Nat) (convert : α → β) :
    (ok value pos).map convert = ok (convert value) pos := rfl

@[simp] theorem ok_thenOr (value : α) (pos : Nat) (next : α → Nat → Res β) :
    (ok value pos).thenOr next = next value pos := by
  simp [ok, thenOr, good]

@[simp] theorem ok_thenCheck [Inhabited β] (value : α) (pos : Nat) (next : α → Nat → Res β) :
    (ok value pos).thenCheck next = next value pos := by
  simp [ok, thenCheck]

theorem thenCheck_good [Inhabited β] {first : Res α} {next : α → Nat → Res β}
    (success : (first.thenCheck next).status = good) :
    first.status = good ∧ (next first.value first.pos).status = good ∧
      (first.thenCheck next).pos = (next first.value first.pos).pos ∧
      (first.thenCheck next).value = (next first.value first.pos).value := by
  unfold thenCheck at success ⊢
  by_cases firstGood : first.status = good
  · simp only [firstGood, ↓reduceIte] at success ⊢
    exact ⟨trivial, success, trivial, trivial⟩
  · simp only [firstGood, ↓reduceIte] at success

end Res

def Reads {α : Type} (input : Input) (decode : Nat → Res α) (bytes : List Byte) (value : α) : Prop :=
  ∀ pos, input.Holds pos bytes → decode pos = .ok value (pos + bytes.length)

namespace Reads

variable {α β : Type} {input : Input} {decode : Nat → Res α} {bytes more : List Byte} {value : α}

section

variable (reads : Reads input decode bytes value)
include reads

theorem of_eq (equal : bytes = more) : Reads input decode more value := equal ▸ reads

theorem valued {other : α} (equal : value = other) : Reads input decode bytes other := equal ▸ reads

theorem map (convert : α → β) :
    Reads input (fun pos => (decode pos).map convert) bytes (convert value) := by
  intro pos holds
  simp only [reads pos holds, Res.ok_map]

end

theorem pure (value : α) : Reads input (fun pos => .ok value pos) [] value := by
  intro pos _
  simp

theorem thenOr {next : α → Nat → Res β} {result : β} (reads : Reads input decode bytes value)
    (continues : Reads input (next value) more result) :
    Reads input (fun pos => (decode pos).thenOr next) (bytes ++ more) result := by
  intro pos holds
  have parts := holds.append
  simp only [reads pos parts.1, Res.ok_thenOr, continues _ parts.2, length_append, Nat.add_assoc]

theorem thenCheck [Inhabited β] {next : α → Nat → Res β} {result : β}
    (reads : Reads input decode bytes value) (continues : Reads input (next value) more result) :
    Reads input (fun pos => (decode pos).thenCheck next) (bytes ++ more) result := by
  intro pos holds
  have parts := holds.append
  simp only [reads pos parts.1, Res.ok_thenCheck, continues _ parts.2, length_append, Nat.add_assoc]

theorem decodeWhen {present : Bool} (reads : present = true → Reads input decode bytes value) :
    Reads input (decodeWhen present decode) (wireWhen present bytes)
      (if present then some value else none) := by
  cases present with
  | false => exact pure none
  | true => exact (reads rfl).map some

theorem decodeOption {field : Option β} {wire : β → List Byte} {convert : β → α}
    (reads : ∀ content, field = some content → Reads input decode (wire content) (convert content)) :
    Reads input (OpcUa.decodeWhen field.isSome decode) (wireOption field wire)
      (field.map convert) := by
  cases field with
  | none => exact pure none
  | some content => exact (reads content rfl).map some

end Reads

section Leaves

variable (input : Input)

theorem readBytes_reads (bytes : List Byte) :
    Reads input (readBytes input bytes.length) bytes bytes := by
  intro pos holds
  rw [readBytes, if_neg (by have := holds.1; omega), holds.2]

theorem readWord_reads {bits : Nat} (width : Nat) (word : BitVec bits) (fits : bits ≤ 8 * width) :
    Reads input (readWord input width bits) (leBytes width word.toNat) word := by
  have bytes := (readBytes_reads input (leBytes width word.toNat)).map
    fun bytes => BitVec.ofNat bits (ofLeBytes bytes)
  rw [ofNat_ofLeBytes_leBytes width bits word fits, leBytes_length] at bytes
  exact bytes

theorem byteDecodeBinary_reads (byte : Byte) : Reads input (byteDecodeBinary input) [byte] byte :=
  (readWord_reads input 1 byte (by decide)).of_eq (by simp [leBytes])

theorem uint16DecodeBinary_reads (word : BitVec 16) :
    Reads input (uint16DecodeBinary input) (leBytes 2 word.toNat) word :=
  readWord_reads input 2 word (by decide)

theorem uint32DecodeBinary_reads (word : BitVec 32) :
    Reads input (uint32DecodeBinary input) (leBytes 4 word.toNat) word :=
  readWord_reads input 4 word (by decide)

theorem uint64DecodeBinary_reads (word : BitVec 64) :
    Reads input (uint64DecodeBinary input) (leBytes 8 word.toNat) word :=
  readWord_reads input 8 word (by decide)

def arrayLengthOf (length : Nat) (isSentinel : Bool) : ArrayLength :=
  if length > 0 then .elements length else if isSentinel then .empty else .undefined

theorem arrayDecodeLength_at (memSize length : Nat) (isSentinel : Bool) (pos : Nat)
    (short : length ≤ int32Max)
    (holds : input.Holds pos (leBytes 4 (arrayLengthField length isSentinel)))
    (enough : pos + 4 + memSize * length / 32 ≤ input.length) :
    arrayDecodeLength input memSize pos = .ok (arrayLengthOf length isSentinel) (pos + 4) := by
  have bound : arrayLengthField length isSentinel < 4294967296 := by
    unfold arrayLengthField int32Max at *
    split
    · omega
    · split <;> omega
  have word := uint32DecodeBinary_reads input (BitVec.ofNat 32 (arrayLengthField length isSentinel))
    pos (by simpa [Nat.mod_eq_of_lt bound] using holds)
  rw [arrayDecodeLength, word, Res.ok_thenCheck]
  simp only [BitVec.toNat_ofNat, Nat.reducePow, Nat.mod_eq_of_lt bound, leBytes_length]
  unfold arrayLengthField arrayLengthOf
  by_cases some : length > 0
  · simp only [some, ↓reduceIte]
    rw [if_neg (by omega), if_neg (by omega), if_neg (by omega)]
  · cases isSentinel with
    | false => simp [some, int32Max]
    | true => simp [some]

def UaString.decoded : UaString → UaString
  | .alloc [] => .null
  | text => text

theorem stringDecodeBinary_reads (text : UaString) (accepted : text.accepted = true) :
    Reads input (stringDecodeBinary input) (stringWire text) text.decoded := by
  intro pos holds
  have parts := holds.append
  have short : text.length ≤ int32Max := by simpa [UaString.accepted] using accepted
  have inside : pos + 4 + text.length ≤ input.length := parts.2.1
  have length := arrayDecodeLength_at input 1 text.length text.isSentinel pos short parts.1
    (by omega)
  rw [stringDecodeBinary, length, Res.ok_thenCheck]
  simp only [stringWire, length_append, leBytes_length]
  cases text with
  | null => rfl
  | empty => rfl
  | alloc bytes =>
    cases bytes with
    | nil => rfl
    | cons byte rest =>
      have content := readBytes_reads input (byte :: rest) (pos + 4) parts.2
      simp only [arrayLengthOf, UaString.length, UaString.bytes, length_cons,
        Nat.zero_lt_succ, ↓reduceIte, UaString.decoded] at content ⊢
      rw [content, Res.ok_thenCheck]
      simp [Nat.add_assoc]

theorem guidDecodeBinary_reads (guid : Guid) :
    Reads input (guidDecodeBinary input) (guidWire guid) guid :=
  ((uint32DecodeBinary_reads input guid.data1).thenOr
    ((uint16DecodeBinary_reads input guid.data2).thenOr
      ((uint16DecodeBinary_reads input guid.data3).thenOr
        ((uint64DecodeBinary_reads input guid.data4).map _)))).of_eq (by simp [guidWire])

def NodeIdentifier.decoded : NodeIdentifier → NodeIdentifier
  | .string value => .string value.decoded
  | .byteString value => .byteString value.decoded
  | identifier => identifier

def NodeId.decoded (id : NodeId) : NodeId := { id with identifier := id.identifier.decoded }

theorem kind_of_mask (mask kind : Byte) (clear : mask &&& 0x3F = 0) (small : kind &&& 0x3F = kind) :
    (mask ||| kind) &&& 0x3F = kind := by
  rw [BitVec.and_comm, BitVec.and_or_distrib_left, BitVec.and_comm _ mask, clear,
    BitVec.and_comm _ kind, small]
  exact BitVec.zero_or

theorem setWidth_setWidth_of_le {narrow wide : Nat} (word : BitVec wide)
    (fits : word.toNat < 2 ^ narrow) : (word.setWidth narrow).setWidth wide = word := by
  apply BitVec.eq_of_toNat_eq
  simp [Nat.mod_eq_of_lt fits]

theorem nodeIdDecodeBinary_reads (mask : Byte) (id : NodeId) (clear : mask &&& 0x3F = 0)
    (accepted : id.accepted = true) :
    Reads input (nodeIdDecodeBinary input) (nodeIdWire mask id) id.decoded := by
  obtain ⟨index, identifier⟩ := id
  have header (kind : Byte) (small : kind &&& 0x3F = kind) {rest : List Byte} {result : NodeId}
      {next : Byte → Nat → Res NodeId} (continues : Reads input (next (mask ||| kind)) rest result) :=
    (byteDecodeBinary_reads input (mask ||| kind)).thenCheck continues
  cases identifier with
  | numeric value =>
    simp only [nodeIdWire, NodeId.decoded, NodeIdentifier.decoded, Bool.or_eq_true,
      decide_eq_true_eq]
    split
    · refine header 2 (by decide) ?_
      simp only [kind_of_mask mask 2 clear (by decide)]
      exact (uint16DecodeBinary_reads input index).thenOr
        ((uint32DecodeBinary_reads input value).map _)
    next large =>
      have valueBound : value.toNat < 2 ^ 16 := by simp only [uint16Max] at large; omega
      have indexBound : index.toNat < 2 ^ 8 := by simp only [byteMax] at large; omega
      split
      · refine header 1 (by decide) ?_
        simp only [kind_of_mask mask 1 clear (by decide)]
        refine Reads.valued (Reads.thenOr (byteDecodeBinary_reads input (index.setWidth 8))
          (Reads.map (uint16DecodeBinary_reads input (value.setWidth 16)) _)) ?_
        rw [setWidth_setWidth_of_le index indexBound, setWidth_setWidth_of_le value valueBound]
      next small =>
        have byteBound : value.toNat < 2 ^ 8 := by simp only [byteMax] at small; omega
        have indexZero : index = 0 := by
          apply BitVec.eq_of_toNat_eq
          simp only [BitVec.ofNat_eq_ofNat, BitVec.toNat_ofNat, Nat.zero_mod]
          omega
        refine header 0 (by decide) ?_
        simp only [kind_of_mask mask 0 clear (by decide)]
        refine Reads.valued (Reads.map (byteDecodeBinary_reads input (value.setWidth 8)) _) ?_
        rw [setWidth_setWidth_of_le value byteBound, indexZero]
  | string value =>
    refine header 3 (by decide) ?_
    simp only [kind_of_mask mask 3 clear (by decide)]
    exact (uint16DecodeBinary_reads input index).thenOr
      ((stringDecodeBinary_reads input value accepted).map _)
  | guid value =>
    refine header 4 (by decide) ?_
    simp only [kind_of_mask mask 4 clear (by decide)]
    exact (uint16DecodeBinary_reads input index).thenOr ((guidDecodeBinary_reads input value).map _)
  | byteString value =>
    refine header 5 (by decide) ?_
    simp only [kind_of_mask mask 5 clear (by decide)]
    exact (uint16DecodeBinary_reads input index).thenOr
      ((stringDecodeBinary_reads input value accepted).map _)

theorem nodeIdWire_head (mask : Byte) (id : NodeId) :
    ∃ kind rest, kind &&& 0xC0 = 0 ∧ nodeIdWire mask id = (mask ||| kind) :: rest := by
  unfold nodeIdWire
  cases id.identifier with
  | numeric value =>
    simp only
    split
    · exact ⟨2, _, by decide, rfl⟩
    · split
      · exact ⟨1, _, by decide, rfl⟩
      · exact ⟨0, _, by decide, rfl⟩
  | string value => exact ⟨3, _, by decide, rfl⟩
  | guid value => exact ⟨4, _, by decide, rfl⟩
  | byteString value => exact ⟨5, _, by decide, rfl⟩

def ExpandedNodeId.decoded (id : ExpandedNodeId) : ExpandedNodeId :=
  if id.namespaceUri.beyondSentinel then
    ⟨{ id.nodeId.decoded with namespaceIndex := 0 }, id.namespaceUri.decoded, id.serverIndex⟩
  else ⟨id.nodeId.decoded, .null, id.serverIndex⟩

theorem expandedNodeIdMask_clear (id : ExpandedNodeId) : expandedNodeIdMask id &&& 0x3F = 0 := by
  unfold expandedNodeIdMask
  generalize id.namespaceUri.beyondSentinel = uri
  generalize decide (id.serverIndex.toNat > 0) = server
  revert uri server
  decide

theorem expandedNodeIdMask_bits (id : ExpandedNodeId) (kind : Byte) (free : kind &&& 0xC0 = 0) :
    testBit (expandedNodeIdMask id ||| kind) 0x80 = id.namespaceUri.beyondSentinel ∧
      testBit (expandedNodeIdMask id ||| kind) 0x40 = decide (id.serverIndex.toNat > 0) := by
  have high : (expandedNodeIdMask id ||| kind) &&& 0xC0 = expandedNodeIdMask id := by
    rw [BitVec.and_comm, BitVec.and_or_distrib_left, BitVec.and_comm _ kind, free]
    unfold expandedNodeIdMask
    generalize id.namespaceUri.beyondSentinel = uri
    generalize decide (id.serverIndex.toNat > 0) = server
    revert uri server
    decide
  have mask (bit : Byte) (inside : bit &&& 0xC0 = bit) :
      testBit (expandedNodeIdMask id ||| kind) bit = testBit (expandedNodeIdMask id) bit := by
    have same : (expandedNodeIdMask id ||| kind) &&& bit = expandedNodeIdMask id &&& bit := by
      calc (expandedNodeIdMask id ||| kind) &&& bit
          = (expandedNodeIdMask id ||| kind) &&& (0xC0 &&& bit) := by
            rw [BitVec.and_comm 0xC0, inside]
        _ = expandedNodeIdMask id &&& bit := by rw [← BitVec.and_assoc, high]
    rw [testBit, testBit, same]
  rw [mask 0x80 (by decide), mask 0x40 (by decide)]
  unfold expandedNodeIdMask
  generalize id.namespaceUri.beyondSentinel = uri
  generalize decide (id.serverIndex.toNat > 0) = server
  revert uri server
  decide

theorem expandedNodeIdDecodeBinary_reads (id : ExpandedNodeId)
    (accepted : (id.nodeId.accepted && id.namespaceUri.accepted) = true) :
    Reads input (expandedNodeIdDecodeBinary input) (expandedNodeIdWire id) id.decoded := by
  simp only [Bool.and_eq_true] at accepted
  intro pos holds
  obtain ⟨kind, rest, free, shape⟩ := nodeIdWire_head (expandedNodeIdMask id) id.nodeId
  have first : pos < input.length ∧ input.memory.getD pos 0 = expandedNodeIdMask id ||| kind := by
    have whole := holds.append.1
    rw [shape] at whole
    exact whole.head
  have bits := expandedNodeIdMask_bits id kind free
  have server : (if decide (id.serverIndex.toNat > 0) = true then some id.serverIndex
      else none).getD 0 = id.serverIndex := by
    by_cases positive : id.serverIndex.toNat > 0
    · simp [positive]
    · have zero : id.serverIndex = 0 := BitVec.eq_of_toNat_eq (by simp; omega)
      simp [zero]
  rw [expandedNodeIdDecodeBinary, if_neg (by omega)]
  simp only [first.2, bits.1, bits.2]
  clear first
  revert pos
  refine Reads.valued (Reads.thenOr
    (nodeIdDecodeBinary_reads input (expandedNodeIdMask id) id.nodeId
      (expandedNodeIdMask_clear id) accepted.1)
    (Reads.thenOr
      (Reads.decodeWhen fun _ => stringDecodeBinary_reads input id.namespaceUri accepted.2)
      (Reads.map (Reads.decodeWhen fun _ => uint32DecodeBinary_reads input id.serverIndex) _))) ?_
  rw [server]
  cases present : id.namespaceUri.beyondSentinel <;> simp [ExpandedNodeId.decoded, present]

def QualifiedName.decoded (name : QualifiedName) : QualifiedName :=
  { name with name := name.name.decoded }

theorem qualifiedNameDecodeBinary_reads (name : QualifiedName)
    (accepted : name.name.accepted = true) :
    Reads input (qualifiedNameDecodeBinary input) (qualifiedNameWire name) name.decoded :=
  Reads.thenOr (uint16DecodeBinary_reads input name.namespaceIndex)
    (Reads.map (stringDecodeBinary_reads input name.name accepted) _)

def LocalizedText.decoded (text : LocalizedText) : LocalizedText :=
  ⟨text.locale.decoded, text.text.decoded⟩

theorem present_decoded (text : UaString) :
    (if text.nonNull = true then some text.decoded else none).getD .null = text.decoded := by
  cases text <;> rfl

theorem localizedTextMask_bits (text : LocalizedText) :
    testBit (localizedTextMask text) 0x01 = text.locale.nonNull ∧
      testBit (localizedTextMask text) 0x02 = text.text.nonNull := by
  unfold localizedTextMask
  generalize text.locale.nonNull = locale
  generalize text.text.nonNull = content
  revert locale content
  decide

theorem localizedTextDecodeBinary_reads (text : LocalizedText)
    (accepted : (text.locale.accepted && text.text.accepted) = true) :
    Reads input (localizedTextDecodeBinary input) (localizedTextWire text) text.decoded := by
  simp only [Bool.and_eq_true] at accepted
  have bits := localizedTextMask_bits text
  refine Reads.thenOr (byteDecodeBinary_reads input (localizedTextMask text)) ?_
  simp only [bits.1, bits.2]
  refine Reads.valued (Reads.thenOr
    (Reads.decodeWhen fun _ => stringDecodeBinary_reads input text.locale accepted.1)
    (Reads.map (Reads.decodeWhen fun _ => stringDecodeBinary_reads input text.text accepted.2) _)) ?_
  rw [present_decoded, present_decoded]
  rfl

theorem diagnosticInfoMask_bits (fields : DiagnosticFields) (hasInner : Bool) :
    testBit (diagnosticInfoMask fields hasInner) 0x01 = fields.symbolicId.isSome ∧
    testBit (diagnosticInfoMask fields hasInner) 0x02 = fields.namespaceUri.isSome ∧
    testBit (diagnosticInfoMask fields hasInner) 0x04 = fields.localizedText.isSome ∧
    testBit (diagnosticInfoMask fields hasInner) 0x08 = fields.locale.isSome ∧
    testBit (diagnosticInfoMask fields hasInner) 0x10 = fields.additionalInfo.isSome ∧
    testBit (diagnosticInfoMask fields hasInner) 0x20 = hasInner ∧
    testBit (diagnosticInfoMask fields hasInner) 0x40 = false := by
  unfold diagnosticInfoMask
  generalize fields.symbolicId.isSome = symbolicId
  generalize fields.namespaceUri.isSome = namespaceUri
  generalize fields.localizedText.isSome = localizedText
  generalize fields.locale.isSome = locale
  generalize fields.additionalInfo.isSome = additionalInfo
  revert symbolicId namespaceUri localizedText locale additionalInfo hasInner
  decide

def DiagnosticFields.decoded (fields : DiagnosticFields) : DiagnosticFields :=
  { fields with additionalInfo := fields.additionalInfo.map UaString.decoded }

theorem uint32Option_reads (field : Option (BitVec 32)) :
    Reads input (decodeWhen field.isSome (uint32DecodeBinary input)) (wireOption field wordWire)
      field := by
  have reads : Reads input (decodeWhen field.isSome (uint32DecodeBinary input))
      (wireOption field wordWire) (field.map id) :=
    Reads.decodeOption fun content _ => uint32DecodeBinary_reads input content
  exact reads.valued (by simp)

theorem diagnosticInfoDecodeBinary_reads (fields : DiagnosticFields) (fuel depth : Nat)
    (accepted : fields.accepted = true) (noStatus : fields.innerStatusCode = none) :
    Reads input (diagnosticInfoDecodeBinary input (fuel + 1) depth)
      (diagnosticInfoWire (.plain fields)) (.plain fields.decoded) := by
  have bits := diagnosticInfoMask_bits fields false
  refine Reads.thenCheck (byteDecodeBinary_reads input (diagnosticInfoMask fields false)) ?_
  have content : Reads input (diagnosticFieldsDecodeBinary input (diagnosticInfoMask fields false))
      (wireOption fields.symbolicId wordWire ++ (wireOption fields.namespaceUri wordWire ++
        (wireOption fields.localizedText wordWire ++ (wireOption fields.locale wordWire ++
          (wireOption fields.additionalInfo stringWire ++
            wireOption fields.innerStatusCode wordWire))))) fields.decoded := by
    unfold diagnosticFieldsDecodeBinary
    simp only [bits.1, bits.2.1, bits.2.2.1, bits.2.2.2.1, bits.2.2.2.2.1, bits.2.2.2.2.2.1]
    refine Reads.valued (Reads.thenOr (uint32Option_reads input _)
      (Reads.thenOr (uint32Option_reads input _) (Reads.thenOr (uint32Option_reads input _)
        (Reads.thenOr (uint32Option_reads input _)
          (Reads.thenOr (Reads.decodeOption fun text present =>
              stringDecodeBinary_reads input text (by
                simpa [DiagnosticFields.accepted, present] using accepted))
            (Reads.map (?_ : Reads input _ _ none) _)))))) (by rw [← noStatus]; rfl)
    rw [noStatus]
    exact Reads.pure none
  intro pos holds
  simp only [bits.2.2.2.2.2.2, content pos holds, Res.ok, Bool.false_eq_true, ↓reduceIte]
  rfl

theorem objectHeader_at (typeId : NodeId) (code : Byte) (pos : Nat)
    (accepted : typeId.accepted = true)
    (holds : input.Holds pos (nodeIdWire 0 typeId ++ [code])) :
    ((nodeIdDecodeBinary input pos).thenOr fun typeId pos =>
      (byteDecodeBinary input pos).map fun encoding => (typeId, encoding)) =
      .ok (typeId.decoded, code) (pos + (nodeIdWire 0 typeId ++ [code]).length) :=
  Reads.thenOr (nodeIdDecodeBinary_reads input 0 typeId (by decide) accepted)
    (Reads.map (byteDecodeBinary_reads input code) _) pos holds

end Leaves

def builtinRowAt (index : Nat) : DataType := builtinTypes.getD index booleanType

theorem builtinRowAt_members {index : Nat} (first : index < 25) :
    (builtinRowAt index).members = [⟨index, true, false⟩] ∧
      (builtinRowAt index).builtin = true ∧ (builtinRowAt index).typeIndex = index := by
  have rows : ∀ row < 25, (builtinRowAt row).members = [⟨row, true, false⟩] ∧
      (builtinRowAt row).builtin = true ∧ (builtinRowAt row).typeIndex = row := by decide
  exact rows index first

theorem memberType_row (env : TypeEnv) (type : DataType) {index : Nat} (first : index < 25) :
    env.memberType type ⟨index, true, false⟩ = builtinRowAt index :=
  builtinRow_eq env index first

end OpcUa
