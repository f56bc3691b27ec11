import OpcUa.IdentifierRoundTrip
import OpcUa.RoundTrip

/-!
The ByteString body of an ExtensionObject. A body with an id that is not known is kept as it is. The
content of a known type is decoded from behind the length, which is not looked at, so it has to be
as long as the length says.
-/

namespace OpcUa

open LittleEndian StatusCode

namespace Input.Holds

variable {input : Input} {pos : Nat} {first second : List Byte}

theorem join (before : input.Holds pos first)
    (behind : input.Holds (pos + first.length) second) : input.Holds pos (first ++ second) := by
  refine ⟨?_, ?_⟩
  · rw [List.length_append, ← Nat.add_assoc]
    exact behind.1
  · rw [List.length_append, List.take_add, before.2, List.drop_drop, behind.2]

theorem unique (holds : input.Holds pos first) (other : input.Holds pos second)
    (length : first.length = second.length) : first = second := by
  rw [← holds.2, ← other.2, length]

theorem word_unique {width : Nat} {word other : Nat} (holds : input.Holds pos (leBytes width word))
    (too : input.Holds pos (leBytes width other)) (fits : word < 256 ^ width)
    (fitsToo : other < 256 ^ width) : word = other := by
  have same := unique holds too (by rw [leBytes_length, leBytes_length])
  have values := congrArg ofLeBytes same
  rwa [ofLeBytes_leBytes, ofLeBytes_leBytes, Nat.mod_eq_of_lt fits, Nat.mod_eq_of_lt fitsToo]
    at values

end Input.Holds

section Received

variable {input : Input} {pos : Nat}
variable {jump : Nat → DataType → Nat → Res Value} {depth : Nat}

theorem readBytes_holds {count : Nat} (backed : input.Backed)
    (success : (readBytes input count pos).status = good) :
    (readBytes input count pos).pos = pos + count ∧
      input.Holds pos (readBytes input count pos).value := by
  have length := readBytes_length backed success
  rw [readBytes] at success length ⊢
  split
  · rename_i beyond
    rw [if_pos beyond] at success
    exact absurd success badDecodingError_ne_good
  · rename_i inside
    rw [if_neg inside] at length
    refine ⟨rfl, ?_, ?_⟩
    · omega
    · rw [length]
      rfl

theorem readWord_holds {width bits : Nat} (backed : input.Backed) (fits : 8 * width ≤ bits)
    (success : (readWord input width bits pos).status = good) :
    (readWord input width bits pos).pos = pos + width ∧
      input.Holds pos (leBytes width (readWord input width bits pos).value.toNat) := by
  have read := success
  obtain ⟨behind, holds⟩ := readBytes_holds backed read
  have length := readBytes_length backed read
  have below : ofLeBytes (readBytes input width pos).value < 2 ^ bits := by
    have bound := ofLeBytes_lt (readBytes input width pos).value
    rw [length, show (256 : Nat) = 2 ^ 8 by decide, ← Nat.pow_mul] at bound
    exact bound.trans_le (Nat.pow_le_pow_right (by decide) fits)
  have word : (readWord input width bits pos).value.toNat =
      ofLeBytes (readBytes input width pos).value := by
    have value : (readWord input width bits pos).value =
        BitVec.ofNat bits (ofLeBytes (readBytes input width pos).value) := rfl
    rw [value, BitVec.toNat_ofNat, Nat.mod_eq_of_lt below]
  have bytes := leBytes_ofLeBytes (readBytes input width pos).value
  rw [length] at bytes
  rw [word, bytes]
  exact ⟨behind, holds⟩

def announcedLength (input : Input) (pos : Nat) : Nat :=
  if (uint32DecodeBinary input pos).value.toNat > int32Max then 0
  else (uint32DecodeBinary input pos).value.toNat

def CompactLength (input : Input) (pos : Nat) : Prop :=
  (uint32DecodeBinary input pos).value.toNat ≤ int32Max ∨
    (uint32DecodeBinary input pos).value.toNat = 4294967295

theorem arrayDecodeLength_received {memSize : Nat} (backed : input.Backed)
    (success : (arrayDecodeLength input memSize pos).status = good) :
    (arrayDecodeLength input memSize pos).pos = pos + 4 ∧
      input.Holds pos (leBytes 4 (uint32DecodeBinary input pos).value.toNat) ∧
      (arrayDecodeLength input memSize pos).value =
        if (uint32DecodeBinary input pos).value.toNat > int32Max then .undefined
        else if (uint32DecodeBinary input pos).value.toNat = 0 then .empty
        else .elements (uint32DecodeBinary input pos).value.toNat := by
  rw [arrayDecodeLength] at success ⊢
  obtain ⟨wordGood, passes, final, same⟩ := Res.thenCheck_good success
  obtain ⟨behind, holds⟩ := readWord_holds backed (Nat.le_refl 32) wordGood
  rw [final, same]
  have next : (uint32DecodeBinary input pos).pos = pos + 4 := behind
  rw [next] at passes ⊢
  by_cases negative : (uint32DecodeBinary input pos).value.toNat > int32Max
  · simp only [if_pos negative]
    exact ⟨rfl, holds, rfl⟩
  by_cases zero : (uint32DecodeBinary input pos).value.toNat = 0
  · simp only [if_neg negative, if_pos zero]
    exact ⟨rfl, holds, rfl⟩
  simp only [if_neg negative, if_neg zero] at passes ⊢
  split at passes
  · exact absurd passes badDecodingError_ne_good
  · rename_i inside
    simp only [if_neg inside]
    exact ⟨rfl, holds, rfl⟩

theorem stringDecodeBinary_kept (backed : input.Backed)
    (success : (stringDecodeBinary input pos).status = good) :
    (stringDecodeBinary input pos).pos = pos + 4 + announcedLength input pos ∧
      (stringDecodeBinary input pos).value.length = announcedLength input pos ∧
      input.Holds (pos + 4) (stringDecodeBinary input pos).value.bytes ∧
      (CompactLength input pos ↔ input.Holds pos (stringWire (stringDecodeBinary input pos).value)) := by
  rw [stringDecodeBinary] at success ⊢
  obtain ⟨lengthGood, contentGood, final, same⟩ := Res.thenCheck_good success
  obtain ⟨behind, holds, shape⟩ := arrayDecodeLength_received backed lengthGood
  have inside := holds.1
  have nothing : input.Holds (pos + 4) [] := ⟨by simpa using inside, rfl⟩
  have word := (uint32DecodeBinary input pos).value.isLt
  rw [final, same, behind, announcedLength, CompactLength]
  rw [behind] at contentGood
  generalize (uint32DecodeBinary input pos).value.toNat = raw at *
  by_cases negative : raw > int32Max
  · rw [if_pos negative] at shape
    rw [shape, if_pos negative]
    refine ⟨rfl, rfl, nothing, ?_⟩
    have wire : stringWire .null = leBytes 4 4294967295 := by decide
    dsimp only [Res.ok]
    rw [wire]
    constructor
    · rintro (short | minus)
      · exact absurd short (Nat.not_le_of_gt negative)
      · rwa [minus] at holds
    · intro null
      exact .inr (holds.word_unique null word (by decide))
  rw [if_neg negative] at shape ⊢
  by_cases zero : raw = 0
  · rw [if_pos zero] at shape
    rw [shape, zero]
    rw [zero] at holds
    refine ⟨rfl, rfl, nothing, ?_⟩
    have wire : stringWire .empty = leBytes 4 0 := by decide
    dsimp only [Res.ok]
    rw [wire]
    exact ⟨fun _ => holds, fun _ => .inl (Nat.zero_le _)⟩
  · rw [if_neg zero] at shape
    rw [shape] at contentGood ⊢
    obtain ⟨bytesGood, -, finalToo, sameToo⟩ := Res.thenCheck_good contentGood
    obtain ⟨behindBytes, bytes⟩ := readBytes_holds backed bytesGood
    have length := readBytes_length backed bytesGood
    rw [finalToo, sameToo]
    dsimp only [Res.ok, UaString.length, UaString.bytes]
    refine ⟨behindBytes, length, bytes, fun _ => ?_, fun _ => .inl (Nat.le_of_not_gt negative)⟩
    have field : arrayLengthField (UaString.alloc (readBytes input raw (pos + 4)).value).length
        (UaString.alloc (readBytes input raw (pos + 4)).value).isSentinel = raw := by
      rw [UaString.length, UaString.bytes, length, arrayLengthField,
        if_pos (Nat.pos_of_ne_zero zero)]
    rw [stringWire, field]
    refine holds.join ?_
    rw [leBytes_length]
    exact bytes

/-! The parts of an ExtensionObject -/

section

variable (input : Input) (pos : Nat)

def bodyPosition : Nat := (nodeIdDecodeBinary input pos).pos + 1

def announcedEnd : Nat :=
  bodyPosition input pos + 4 + announcedLength input (bodyPosition input pos)

def HasByteString : Prop :=
  (byteDecodeBinary input (nodeIdDecodeBinary input pos).pos).value = 1

def CompactHeader : Prop :=
  input.Holds pos (nodeIdWire 0 (nodeIdDecodeBinary input pos).value) ∧
    (nodeIdDecodeBinary input pos).pos =
      pos + (nodeIdWire 0 (nodeIdDecodeBinary input pos).value).length ∧
    CompactLength input (bodyPosition input pos)

end

def SameBytes (input : Input) (pos final : Nat) (typeId : NodeId) (body : UaString) : Prop :=
  ∃ least, ∀ size, least ≤ size →
    ∃ out, encodedObjectEncodeBinary .byteString typeId body (singleBuffer size) =
        (good, { singleBuffer size with out := out }) ∧
      input.Holds pos out ∧ final = pos + out.length

theorem extensionObjectDecodeBinary_body (backed : input.Backed)
    (success : (extensionObjectDecodeBinary input jump depth pos).status = good)
    (body : HasByteString input pos) :
    (nodeIdDecodeBinary input pos).status = good ∧
      input.Holds (nodeIdDecodeBinary input pos).pos [1] ∧
      (extensionObjectDecodeBinaryContent input jump depth (nodeIdDecodeBinary input pos).value
        (bodyPosition input pos)).status = good ∧
      (extensionObjectDecodeBinary input jump depth pos).pos =
        (extensionObjectDecodeBinaryContent input jump depth (nodeIdDecodeBinary input pos).value
          (bodyPosition input pos)).pos ∧
      (extensionObjectDecodeBinary input jump depth pos).value =
        (extensionObjectDecodeBinaryContent input jump depth (nodeIdDecodeBinary input pos).value
          (bodyPosition input pos)).value := by
  rw [extensionObjectDecodeBinary] at success ⊢
  obtain ⟨headerGood, contentGood, final, same⟩ := Res.thenCheck_good success
  obtain ⟨idGood, byteGood, behind⟩ := thenOr_good headerGood
  have byteRead := byteGood
  obtain ⟨next, byte⟩ := readWord_holds backed (Nat.le_refl 8) byteRead
  have value : (readWord input 1 8 (nodeIdDecodeBinary input pos).pos).value = 1 := body
  rw [value] at byte
  rw [final, same]
  generalize parts : ((nodeIdDecodeBinary input pos).thenOr fun typeId pos =>
    (byteDecodeBinary input pos).map fun encoding => (typeId, encoding)) = header at *
  have whole : header.value = ((nodeIdDecodeBinary input pos).value, 1) := by
    rw [← parts]
    exact Prod.ext rfl body
  have ends : header.pos = bodyPosition input pos := by
    rw [← parts]
    exact next
  rw [whole, ends] at contentGood ⊢
  exact ⟨idGood, byte, contentGood, rfl, rfl⟩

theorem encodedObject_run {typeId : NodeId} {body : UaString} (accepted : typeId.accepted = true)
    (acceptedToo : body.accepted = true) {size : Nat}
    (enough : (encodedObjectWire .byteString typeId body).length ≤ size) :
    encodedObjectEncodeBinary .byteString typeId body (singleBuffer size) =
      (good, { singleBuffer size with out := encodedObjectWire .byteString typeId body }) := by
  have writes := encodedObjectEncodeBinary_writes .byteString typeId body
  have fits : (singleBuffer size).out.length + (encodedObjectWire .byteString typeId body).length ≤
      size := by simpa [singleBuffer] using enough
  rw [writes.run (singleBuffer size) rfl (by simp [accepted, acceptedToo]) fits]
  simp [Ctx.push, singleBuffer]

theorem sameBytes_iff {final : Nat} {body : UaString} (backed : input.Backed)
    (idGood : (nodeIdDecodeBinary input pos).status = good)
    (byte : input.Holds (nodeIdDecodeBinary input pos).pos [1])
    (accepted : body.accepted = true)
    (compact : CompactLength input (bodyPosition input pos) ↔
      input.Holds (bodyPosition input pos) (stringWire body))
    (ends : final = bodyPosition input pos + 4 + body.length) :
    CompactHeader input pos ↔
      SameBytes input pos final (nodeIdDecodeBinary input pos).value body := by
  obtain ⟨canonical, idAccepted⟩ := nodeIdDecodeBinary_received backed idGood
  have wire : encodedObjectWire .byteString (nodeIdDecodeBinary input pos).value body =
      nodeIdWire 0 (nodeIdDecodeBinary input pos).value ++ ([1] ++ stringWire body) := rfl
  have stringLength : (stringWire body).length = 4 + body.length := by
    rw [stringWire, List.length_append]
    rfl
  constructor
  · rintro ⟨id, idEnd, length⟩
    refine ⟨_, fun size enough => ⟨_, encodedObject_run idAccepted accepted enough, ?_, ?_⟩⟩
    · refine id.join ?_
      rw [← idEnd]
      exact byte.join (compact.mp length)
    · rw [wire, List.length_append, List.length_append, stringLength, ends, bodyPosition]
      simp only [List.length_singleton]
      omega
  · rintro ⟨least, writes⟩
    obtain ⟨out, ran, holds, -⟩ := writes _ (Nat.le_max_left least
      (encodedObjectWire .byteString (nodeIdDecodeBinary input pos).value body).length)
    rw [encodedObject_run idAccepted accepted (Nat.le_max_right _ _)] at ran
    injection ran with _ same
    injection same with _ same
    rw [← same, wire] at holds
    obtain ⟨id, rest⟩ := holds.append
    have reads := nodeIdDecodeBinary_reads input 0 _ (by decide) idAccepted pos id
    have idEnd : (nodeIdDecodeBinary input pos).pos =
        pos + (nodeIdWire 0 (nodeIdDecodeBinary input pos).value).length := congrArg Res.pos reads
    have body := rest.append.2
    rw [← idEnd, List.length_singleton] at body
    exact ⟨id, idEnd, compact.mpr body⟩

/-- What the length and the id on the wire promise: the announced bytes are consumed, and the body
is of the type whose encoding has the id, or it is kept and written again as the same bytes. -/
structure Faithful (input : Input) (pos : Nat) (result : Res Value) : Prop where
  consumed : result.pos = announcedEnd input pos
  object : (∃ type data, result.value = .extensionObject false type data ∧
      input.env.describes type = true ∧ type.binaryEncodingId ≠ 0 ∧
      (nodeIdDecodeBinary input pos).value = type.binaryTypeId) ∨
    ∃ body, result.value =
        .leaf (.extensionObject .byteString (nodeIdDecodeBinary input pos).value body) ∧
      body.length = announcedLength input (bodyPosition input pos) ∧
      input.Holds (bodyPosition input pos + 4) body.bytes ∧
      SameBytes input pos result.pos (nodeIdDecodeBinary input pos).value body

/-- A header in the form the encoder writes for a body that is kept, and for a type that is known
an encoding and a content of the announced length. -/
def KeepsLength (input : Input) (jump : Nat → DataType → Nat → Res Value) (depth pos : Nat) : Prop :=
  match input.env.findDataTypeByBinaryInternal (nodeIdDecodeBinary input pos).value with
  | none => CompactHeader input pos
  | some type => type.binaryEncodingId ≠ 0 ∧
      (jump depth type (bodyPosition input pos + 4)).pos = announcedEnd input pos

theorem unknownBody_faithful (backed : input.Backed)
    (success : (extensionObjectDecodeBinary input jump depth pos).status = good)
    (body : HasByteString input pos)
    (unknown : input.env.findDataTypeByBinaryInternal (nodeIdDecodeBinary input pos).value = none) :
    Faithful input pos (extensionObjectDecodeBinary input jump depth pos) ↔
      CompactHeader input pos := by
  obtain ⟨idGood, byte, contentGood, ends, same⟩ :=
    extensionObjectDecodeBinary_body backed success body
  rw [extensionObjectDecodeBinaryContent, unknown] at contentGood ends same
  have stringGood := contentGood
  obtain ⟨stringEnd, length, bytes, compact⟩ := stringDecodeBinary_kept backed stringGood
  obtain ⟨-, accepted⟩ := stringDecodeBinary_received backed stringGood
  have final : (extensionObjectDecodeBinary input jump depth pos).pos = announcedEnd input pos :=
    ends.trans stringEnd
  have again := sameBytes_iff backed idGood byte accepted compact (by
    rw [final, length]
    rfl : (extensionObjectDecodeBinary input jump depth pos).pos = _)
  rw [again]
  refine ⟨fun faithful => ?_, fun written => ⟨final, .inr ⟨_, same, length, bytes, written⟩⟩⟩
  rcases faithful.object with ⟨type, data, object, -⟩ | ⟨kept, object, -, -, written⟩
  · rw [same] at object
    cases object
  · rw [same] at object
    cases object
    exact written

theorem findDataTypeByBinary_found {env : TypeEnv} {typeId : NodeId} {type : DataType}
    (found : env.findDataTypeByBinaryInternal typeId = some type) :
    env.describes type = true ∧ typeId = type.binaryTypeId := by
  obtain ⟨index, identifier⟩ := typeId
  have of_find {descriptions : List DataType} {id : BitVec 32}
      (first : TypeEnv.findIn descriptions index id = some type) :
      type ∈ descriptions ∧ (⟨index, .numeric id⟩ : NodeId) = type.binaryTypeId := by
    have matching := List.find?_some first
    simp only [Bool.and_eq_true, beq_iff_eq] at matching
    refine ⟨List.mem_of_find?_eq_some first, ?_⟩
    rw [DataType.binaryTypeId, matching.1, matching.2]
  cases identifier with
  | numeric id =>
    simp only [TypeEnv.findDataTypeByBinaryInternal] at found
    cases known : TypeEnv.findIn env.types index id with
    | some other =>
      rw [known] at found
      injection found with same
      subst same
      obtain ⟨member, same⟩ := of_find known
      exact ⟨by simp [TypeEnv.describes, member], same⟩
    | none =>
      rw [known] at found
      dsimp only at found
      split at found
      · obtain ⟨member, same⟩ := of_find found
        exact ⟨by simp [TypeEnv.describes, member], same⟩
      · cases found
  | string value => cases found
  | guid value => cases found
  | byteString value => cases found

theorem knownBody_faithful {type : DataType} (backed : input.Backed)
    (success : (extensionObjectDecodeBinary input jump depth pos).status = good)
    (body : HasByteString input pos)
    (known : input.env.findDataTypeByBinaryInternal (nodeIdDecodeBinary input pos).value =
      some type) :
    Faithful input pos (extensionObjectDecodeBinary input jump depth pos) ↔
      type.binaryEncodingId ≠ 0 ∧
        (jump depth type (bodyPosition input pos + 4)).pos = announcedEnd input pos := by
  obtain ⟨-, -, -, ends, same⟩ := extensionObjectDecodeBinary_body backed success body
  rw [extensionObjectDecodeBinaryContent, known] at ends same
  have final : (extensionObjectDecodeBinary input jump depth pos).pos =
      (jump depth type (bodyPosition input pos + 4)).pos := ends
  obtain ⟨described, typeId⟩ := findDataTypeByBinary_found known
  constructor
  · intro faithful
    refine ⟨?_, final.symm.trans faithful.consumed⟩
    rcases faithful.object with ⟨other, data, object, -, encoding, -⟩ | ⟨kept, object, -⟩
    · rw [same] at object
      cases object
      exact encoding
    · rw [same] at object
      cases object
  · rintro ⟨encoding, exact⟩
    exact ⟨final.trans exact, .inl ⟨type, _, same, described, encoding, typeId⟩⟩

end Received

/-- What an encoder puts into a body of the announced length is decoded. -/
theorem encodedContent_faithful {input : Input} (wellFormed : input.env.WellFormed)
    (backed : input.Backed) {fuel depth pos encodeDepth : Nat} {type : DataType} {data : Value}
    (success : (extensionObjectDecodeBinary input (decodeBinaryJump input fuel) depth pos).status =
      good)
    (body : HasByteString input pos)
    (known : input.env.findDataTypeByBinaryInternal (nodeIdDecodeBinary input pos).value =
      some type)
    (encoding : type.binaryEncodingId ≠ 0) (typed : Value.hasType input.env data type = true)
    (accepted : accepts input.env data type encodeDepth = true)
    (parses : parsable input.env data type = true)
    (shallow : depth + nesting input.env data type ≤ input.maxRecursion + 1)
    (fuelled : enoughFuel input fuel depth type)
    (content : input.Holds (bodyPosition input pos + 4) (valueWire input.env data type))
    (length : (valueWire input.env data type).length =
      announcedLength input (bodyPosition input pos)) :
    KeepsLength input (decodeBinaryJump input fuel) depth pos ∧
      (extensionObjectDecodeBinary input (decodeBinaryJump input fuel) depth pos).value =
        .extensionObject false type (decodedValue input.env data type) := by
  have reads := ((decodes_value wellFormed data).jump typed accepted parses (by omega) fuelled
    _ content).1 shallow
  obtain ⟨-, -, -, -, same⟩ := extensionObjectDecodeBinary_body backed success body
  rw [extensionObjectDecodeBinaryContent, known] at same
  constructor
  · rw [KeepsLength, known]
    refine ⟨encoding, ?_⟩
    rw [reads, Res.ok, length]
    rfl
  · rw [same]
    dsimp only
    rw [reads]
    rfl

def decodeObject (bytes : List Byte) : Res Value :=
  extensionObjectDecodeBinary (plainInput bytes)
    (decodeBinaryJump (plainInput bytes) (recursionBound encodingMaxRecursion)) 1 0

def keptObject : List Byte := [0, 5, 1, 2, 0, 0, 0, 7, 8]
def versionObject : List Byte := [1, 0, 0xFF, 0x39, 1, 8, 0, 0, 0, 1, 0, 0, 0, 2, 0, 0, 0]

def emptyLength : List Byte := [1, 0, 0xFF, 0x39, 1, 0, 0, 0, 0, 1, 0, 0, 0, 2, 0, 0, 0]
def zeroId : List Byte := [0, 0, 1, 1, 0, 0, 0, 1]
def wideHeader : List Byte := [2, 0, 0, 5, 0, 0, 0, 1, 0xFF, 0xFF, 0xFF, 0xFF]

end OpcUa
