import OpcUa.EncodeCore

/-!
The binary decoder of `ua_types_encoding_binary.c`. The position is an index into the
memory the byte string lies in; it may be moved behind the end of the string. The
decoders follow each other with `ret |=` in many places and then go on after a failure,
so a result carries a value and a position also when the status is bad.

The decoding jump table is entered recursively. `fuel` bounds the number of entries
that are active at the same time; `exhausted` tells that the bound was hit.
-/

namespace OpcUa

open LittleEndian StatusCode

/-- The byte string is the first `length` bytes of `memory`. -/
structure Input where
  memory : List Byte
  length : Nat
  env : TypeEnv
  maxRecursion : Nat

structure Res (α : Type) where
  status : StatusCode
  value : α
  pos : Nat
  exhausted : Bool

namespace Res

variable {α β : Type}

def ok (value : α) (pos : Nat) : Res α := ⟨good, value, pos, false⟩

def fail [Inhabited α] (status : StatusCode) (pos : Nat) : Res α := ⟨status, default, pos, false⟩

def map (convert : α → β) : Res α → Res β
  | ⟨status, value, pos, exhausted⟩ => ⟨status, convert value, pos, exhausted⟩

/-- `ret |= next` -/
def thenOr (first : Res α) (next : α → Nat → Res β) : Res β :=
  match first with
  | ⟨status, value, pos, exhausted⟩ =>
    match next value pos with
    | ⟨later, result, final, deeper⟩ => ⟨status ||| later, result, final, exhausted || deeper⟩

/-- `if(ret != GOOD) return ret;` in front of `next` -/
def thenCheck [Inhabited β] (first : Res α) (next : α → Nat → Res β) : Res β :=
  match first with
  | ⟨status, value, pos, exhausted⟩ =>
    if status = good then
      match next value pos with
      | ⟨later, result, final, deeper⟩ => ⟨later, result, final, exhausted || deeper⟩
    else ⟨status, default, pos, exhausted⟩

end Res

instance : Inhabited UaString := ⟨.null⟩
instance : Inhabited Guid := ⟨⟨0, 0, 0, 0⟩⟩
instance : Inhabited NodeId := ⟨.null⟩
instance : Inhabited ExpandedNodeId := ⟨⟨.null, .null, 0⟩⟩
instance : Inhabited DiagnosticFields := ⟨⟨none, none, none, none, none, none⟩⟩
instance : Inhabited DiagnosticInfo := ⟨.plain default⟩
instance : Inhabited DataValueInfo := ⟨⟨none, none, none, none, none⟩⟩
instance : Inhabited Value := ⟨.variantEmpty⟩

section Leaves

variable (input : Input)

def readBytes (count pos : Nat) : Res (List Byte) :=
  if pos + count > input.length then ⟨badDecodingError, [], pos, false⟩
  else .ok ((input.memory.drop pos).take count) (pos + count)

def readWord (width bits pos : Nat) : Res (BitVec bits) :=
  (readBytes input width pos).map fun bytes => BitVec.ofNat bits (ofLeBytes bytes)

def byteDecodeBinary (pos : Nat) : Res Byte := readWord input 1 8 pos
def uint16DecodeBinary (pos : Nat) : Res (BitVec 16) := readWord input 2 16 pos
def uint32DecodeBinary (pos : Nat) : Res (BitVec 32) := readWord input 4 32 pos
def uint64DecodeBinary (pos : Nat) : Res (BitVec 64) := readWord input 8 64 pos

def booleanDecodeBinary (pos : Nat) : Res Byte :=
  (byteDecodeBinary input pos).map fun byte => if byte.toNat > 0 then 1 else 0

inductive ArrayLength where
  | undefined
  | empty
  | elements (count : Nat)

instance : Inhabited ArrayLength := ⟨.undefined⟩

/-- The length field of an array and the filter for arrays that are too long for the
rest of the message. -/
def arrayDecodeLength (memSize pos : Nat) : Res ArrayLength :=
  (uint32DecodeBinary input pos).thenCheck fun length next =>
    if length.toNat > int32Max then .ok .undefined next
    else if length.toNat = 0 then .ok .empty next
    else if next + memSize * length.toNat / 32 > input.length then .fail badDecodingError next
    else .ok (.elements length.toNat) next

def stringDecodeBinary (pos : Nat) : Res UaString :=
  (arrayDecodeLength input 1 pos).thenCheck fun length next =>
    match length with
    | .undefined => .ok .null next
    | .empty => .ok .empty next
    | .elements count => (readBytes input count next).thenCheck fun bytes final =>
      .ok (.alloc bytes) final

def guidDecodeBinary (pos : Nat) : Res Guid :=
  (uint32DecodeBinary input pos).thenOr fun data1 pos =>
  (uint16DecodeBinary input pos).thenOr fun data2 pos =>
  (uint16DecodeBinary input pos).thenOr fun data3 pos =>
  (uint64DecodeBinary input pos).map fun data4 => ⟨data1, data2, data3, data4⟩

def nodeIdDecodeBinary (pos : Nat) : Res NodeId :=
  (byteDecodeBinary input pos).thenCheck fun encodingByte pos =>
    -- the two bits used only for ExpandedNodeIds are filtered out
    match (encodingByte &&& 0x3F).toNat with
    | 0 => (byteDecodeBinary input pos).map fun id => ⟨0, .numeric (id.setWidth 32)⟩
    | 1 =>
      (byteDecodeBinary input pos).thenOr fun index pos =>
      (uint16DecodeBinary input pos).map fun id =>
        ⟨index.setWidth 16, .numeric (id.setWidth 32)⟩
    | 2 =>
      (uint16DecodeBinary input pos).thenOr fun index pos =>
      (uint32DecodeBinary input pos).map fun id => ⟨index, .numeric id⟩
    | 3 =>
      (uint16DecodeBinary input pos).thenOr fun index pos =>
      (stringDecodeBinary input pos).map fun text => ⟨index, .string text⟩
    | 4 =>
      (uint16DecodeBinary input pos).thenOr fun index pos =>
      (guidDecodeBinary input pos).map fun guid => ⟨index, .guid guid⟩
    | 5 =>
      (uint16DecodeBinary input pos).thenOr fun index pos =>
      (stringDecodeBinary input pos).map fun text => ⟨index, .byteString text⟩
    | _ => .fail badInternalError pos

def decodeWhen {α : Type} (present : Bool) (decode : Nat → Res α) (pos : Nat) : Res (Option α) :=
  if present then (decode pos).map some else .ok none pos

def testBit (mask : Byte) (bit : Byte) : Bool := mask &&& bit != 0

def expandedNodeIdDecodeBinary (pos : Nat) : Res ExpandedNodeId :=
  if pos ≥ input.length then .fail badDecodingError pos
  else
    let encoding := input.memory.getD pos 0
    (nodeIdDecodeBinary input pos).thenOr fun nodeId pos =>
    (decodeWhen (testBit encoding 0x80) (stringDecodeBinary input) pos).thenOr fun uri pos =>
    (decodeWhen (testBit encoding 0x40) (uint32DecodeBinary input) pos).map fun serverIndex =>
      match uri with
      | some uri => ⟨{ nodeId with namespaceIndex := 0 }, uri, serverIndex.getD 0⟩
      | none => ⟨nodeId, .null, serverIndex.getD 0⟩

def qualifiedNameDecodeBinary (pos : Nat) : Res QualifiedName :=
  (uint16DecodeBinary input pos).thenOr fun index pos =>
  (stringDecodeBinary input pos).map fun name => ⟨index, name⟩

def localizedTextDecodeBinary (pos : Nat) : Res LocalizedText :=
  (byteDecodeBinary input pos).thenOr fun encoding pos =>
  (decodeWhen (testBit encoding 0x01) (stringDecodeBinary input) pos).thenOr fun locale pos =>
  (decodeWhen (testBit encoding 0x02) (stringDecodeBinary input) pos).map fun text =>
    ⟨locale.getD .null, text.getD .null⟩

def diagnosticFieldsDecodeBinary (mask : Byte) (pos : Nat) : Res DiagnosticFields :=
  (decodeWhen (testBit mask 0x01) (uint32DecodeBinary input) pos).thenOr fun symbolicId pos =>
  (decodeWhen (testBit mask 0x02) (uint32DecodeBinary input) pos).thenOr fun namespaceUri pos =>
  (decodeWhen (testBit mask 0x04) (uint32DecodeBinary input) pos).thenOr fun localizedText pos =>
  (decodeWhen (testBit mask 0x08) (uint32DecodeBinary input) pos).thenOr fun locale pos =>
  (decodeWhen (testBit mask 0x10) (stringDecodeBinary input) pos).thenOr fun additionalInfo pos =>
  (decodeWhen (testBit mask 0x20) (uint32DecodeBinary input) pos).map fun innerStatusCode =>
    ⟨symbolicId, namespaceUri, localizedText, locale, additionalInfo, innerStatusCode⟩

def diagnosticInfoDecodeBinary : Nat → Nat → Nat → Res DiagnosticInfo
  | 0, _, pos => ⟨badInternalError, default, pos, true⟩
  | fuel + 1, depth, pos =>
    (byteDecodeBinary input pos).thenCheck fun mask pos =>
      match diagnosticFieldsDecodeBinary input mask pos with
      | ⟨status, fields, pos, exhausted⟩ =>
        if testBit mask 0x40 then
          if depth > input.maxRecursion then ⟨badEncodingError, .plain fields, pos, exhausted⟩
          else
            match diagnosticInfoDecodeBinary fuel (depth + 1) pos with
            | ⟨later, inner, final, deeper⟩ =>
              ⟨status ||| later, .nested fields inner, final, exhausted || deeper⟩
        else ⟨status, .plain fields, pos, exhausted⟩

end Leaves

/-! The memory of an overlayable array is copied from the message. The values in it are
found with the description; `nesting` bounds the nesting of the structures. -/

def leafOfMemory (typeIndex : Nat) (memory : List Byte) : Leaf :=
  match typeIndex with
  | 0 => .boolean (BitVec.ofNat 8 (ofLeBytes memory))
  | 1 | 2 => .byte (BitVec.ofNat 8 (ofLeBytes memory))
  | 3 | 4 => .uint16 (BitVec.ofNat 16 (ofLeBytes memory))
  | 5 | 6 | 9 | 18 => .uint32 (BitVec.ofNat 32 (ofLeBytes memory))
  | 13 =>
    .guid ⟨BitVec.ofNat 32 (ofLeBytes (memory.take 4)),
      BitVec.ofNat 16 (ofLeBytes ((memory.drop 4).take 2)),
      BitVec.ofNat 16 (ofLeBytes ((memory.drop 6).take 2)),
      BitVec.ofNat 64 (ofLeBytes (memory.drop 8))⟩
  | _ => .uint64 (BitVec.ofNat 64 (ofLeBytes memory))

def membersOfMemory (env : TypeEnv) (valueOf : DataType → List Byte → Value) (type : DataType) :
    List DataTypeMember → List Byte → List Value
  | [], _ => []
  | member :: members, memory =>
    let memberType := env.memberType type member
    valueOf memberType (memory.take memberType.memSize) ::
      membersOfMemory env valueOf type members (memory.drop memberType.memSize)

def valueOfMemory (env : TypeEnv) : Nat → DataType → List Byte → Value
  | nesting, type, memory =>
    if type.builtin then .leaf (leafOfMemory type.typeIndex memory)
    else
      match nesting with
      | 0 => .struct []
      | nesting + 1 =>
        .struct (membersOfMemory env (valueOfMemory env nesting) type type.members memory)

def elementsOfMemory (env : TypeEnv) (type : DataType) : Nat → List Byte → List Value
  | 0, _ => []
  | count + 1, memory =>
    valueOfMemory env env.overlayNesting type (memory.take type.memSize) ::
      elementsOfMemory env type count (memory.drop type.memSize)

def wordsOfMemory : Nat → List Byte → List (BitVec 32)
  | 0, _ => []
  | count + 1, memory =>
    BitVec.ofNat 32 (ofLeBytes (memory.take 4)) :: wordsOfMemory count (memory.drop 4)

section Recursive

/- `jump` is the entry of the jump table for a description, at a depth and a position. -/
variable (input : Input) (jump : Nat → DataType → Nat → Res Value)

def decodeElements (decode : Nat → Res Value) : Nat → Nat → Res (List Value)
  | 0, pos => .ok [] pos
  | count + 1, pos =>
    (decode pos).thenCheck fun value pos =>
    (decodeElements decode count pos).thenCheck fun rest pos => .ok (value :: rest) pos

/-- `Array_decodeBinary`: whether the array is undefined, and its elements. -/
def arrayDecodeBinary (depth : Nat) (type : DataType) (pos : Nat) : Res (Bool × List Value) :=
  (arrayDecodeLength input type.memSize pos).thenCheck fun length pos =>
    match length with
    | .undefined => .ok (true, []) pos
    | .empty => .ok (false, []) pos
    | .elements count =>
      if type.overlayable then
        (readBytes input (type.memSize * count) pos).thenCheck fun memory pos =>
          .ok (false, elementsOfMemory input.env type count memory) pos
      else (decodeElements (jump depth type) count pos).map fun elements => (false, elements)

def dimensionsDecodeBinary (pos : Nat) : Res (List (BitVec 32)) :=
  (arrayDecodeLength input int32Type.memSize pos).thenCheck fun length pos =>
    match length with
    | .undefined => .ok [] pos
    | .empty => .ok [] pos
    | .elements count =>
      (readBytes input (int32Type.memSize * count) pos).thenCheck fun memory pos =>
        .ok (wordsOfMemory count memory) pos

/-- `ExtensionObject_decodeBinaryContent`. The length field is skipped without a check. -/
def extensionObjectDecodeBinaryContent (depth : Nat) (typeId : NodeId) (pos : Nat) : Res Value :=
  match input.env.findDataTypeByBinaryInternal typeId with
  | none =>
    (stringDecodeBinary input pos).map fun body =>
      .leaf (.extensionObject .byteString typeId body)
  | some type => (jump depth type (pos + 4)).map fun data => .extensionObject false type data

def extensionObjectDecodeBinary (depth pos : Nat) : Res Value :=
  ((nodeIdDecodeBinary input pos).thenOr fun typeId pos =>
    (byteDecodeBinary input pos).map fun encoding => (typeId, encoding)).thenCheck
  fun header pos =>
    match header.2.toNat with
    | 1 => extensionObjectDecodeBinaryContent input jump depth header.1 pos
    | 0 => .ok (.leaf (.extensionObject .noBody header.1 .null)) pos
    | 2 => (stringDecodeBinary input pos).map fun body =>
      .leaf (.extensionObject .xml header.1 body)
    | _ => .fail badDecodingError pos

/-- `Variant_decodeBinaryUnwrapExtensionObject`. If the type is not known, the position is
set back and a normal ExtensionObject is decoded. -/
def variantDecodeBinaryUnwrap (depth pos : Nat) : Res Value :=
  (nodeIdDecodeBinary input pos).thenCheck fun typeId next =>
  (byteDecodeBinary input next).thenCheck fun encoding next =>
    let found := if encoding.toNat = 1 then input.env.findDataTypeByBinaryInternal typeId else none
    match found with
    | some type => (jump depth type (next + 4)).map fun data => .variantScalar type data []
    | none => (jump depth extensionObjectType pos).map fun data =>
      .variantScalar extensionObjectType data []

def variantDecodeBinary (depth pos : Nat) : Res Value :=
  (byteDecodeBinary input pos).thenCheck fun encodingByte pos =>
    if encodingByte = 0 then .ok .variantEmpty pos
    else
      let isArray := testBit encodingByte 0x80
      let typeId := (encodingByte &&& 0x3F).toNat
      -- the type index is typeId - 1, which wraps around for zero
      if typeId = 0 ∨ typeId - 1 > 24 then .fail badDecodingError pos
      else if typeId - 1 = 23 ∧ isArray = false then .fail badDecodingError pos
      else if depth > input.maxRecursion then .fail badEncodingError pos
      else
        let type := input.env.types.getD (typeId - 1) booleanType
        if isArray then
          (arrayDecodeBinary input jump (depth + 1) type pos).thenOr fun content pos =>
            (decodeWhen (testBit encodingByte 0x40) (dimensionsDecodeBinary input) pos).map
              fun arrayDimensions =>
                .variantArray type content.1 content.2 (arrayDimensions.getD [])
        else if typeId - 1 ≠ 21 then
          (jump (depth + 1) type pos).map fun data => .variantScalar type data []
        else variantDecodeBinaryUnwrap input jump (depth + 1) pos

def maxPicoSeconds : Nat := 9999

def clampPicoSeconds (part : BitVec 16) : BitVec 16 :=
  if part.toNat > maxPicoSeconds then BitVec.ofNat 16 maxPicoSeconds else part

def dataValueDecodeBinary (depth pos : Nat) : Res Value :=
  (byteDecodeBinary input pos).thenCheck fun mask pos =>
    if depth > input.maxRecursion then .fail badEncodingError pos
    else
      (decodeWhen (testBit mask 0x01) (variantDecodeBinary input jump (depth + 1)) pos).thenOr
        fun value pos =>
      (decodeWhen (testBit mask 0x02) (uint32DecodeBinary input) pos).thenOr fun status pos =>
      (decodeWhen (testBit mask 0x04) (uint64DecodeBinary input) pos).thenOr fun sourceTime pos =>
      (decodeWhen (testBit mask 0x10) (uint16DecodeBinary input) pos).thenOr fun sourcePart pos =>
      (decodeWhen (testBit mask 0x08) (uint64DecodeBinary input) pos).thenOr fun serverTime pos =>
      (decodeWhen (testBit mask 0x20) (uint16DecodeBinary input) pos).map fun serverPart =>
        .dataValue ⟨status, sourceTime, sourcePart.map clampPicoSeconds, serverTime,
          serverPart.map clampPicoSeconds⟩ value.isSome (value.getD .variantEmpty)

def decodeMember (depth : Nat) (memberType : DataType) (isArray : Bool) (pos : Nat) : Res Value :=
  if isArray then
    (arrayDecodeBinary input jump depth memberType pos).map fun content =>
      .array content.1 content.2
  else jump depth memberType pos

def decodeMembers (depth : Nat) (type : DataType) : List DataTypeMember → Nat → Res (List Value)
  | [], pos => .ok [] pos
  | member :: members, pos =>
    (decodeMember input jump depth (input.env.memberType type member) member.isArray
      pos).thenCheck fun value pos =>
    (decodeMembers depth type members pos).thenCheck fun rest pos => .ok (value :: rest) pos

def valueOfMembers (type : DataType) (members : List Value) : Value :=
  if type.builtin then members.headD default else .struct members

def decodeBinaryInternal (depth : Nat) (type : DataType) (pos : Nat) : Res Value :=
  if depth > input.maxRecursion then .fail badEncodingError pos
  else (decodeMembers input jump (depth + 1) type type.members pos).map (valueOfMembers type)

def builtinDecodeBinary (fuel depth typeIndex pos : Nat) : Res Value :=
  match typeIndex with
  | 0 => (booleanDecodeBinary input pos).map fun raw => .leaf (.boolean raw)
  | 1 | 2 => (byteDecodeBinary input pos).map fun value => .leaf (.byte value)
  | 3 | 4 => (uint16DecodeBinary input pos).map fun value => .leaf (.uint16 value)
  | 5 | 6 | 9 | 18 => (uint32DecodeBinary input pos).map fun value => .leaf (.uint32 value)
  | 7 | 8 | 10 | 12 => (uint64DecodeBinary input pos).map fun value => .leaf (.uint64 value)
  | 11 | 14 | 15 => (stringDecodeBinary input pos).map fun value => .leaf (.string value)
  | 13 => (guidDecodeBinary input pos).map fun value => .leaf (.guid value)
  | 16 => (nodeIdDecodeBinary input pos).map fun value => .leaf (.nodeId value)
  | 17 => (expandedNodeIdDecodeBinary input pos).map fun value => .leaf (.expandedNodeId value)
  | 19 => (qualifiedNameDecodeBinary input pos).map fun value => .leaf (.qualifiedName value)
  | 20 => (localizedTextDecodeBinary input pos).map fun value => .leaf (.localizedText value)
  | 21 => extensionObjectDecodeBinary input jump depth pos
  | 22 => dataValueDecodeBinary input jump depth pos
  | 23 => variantDecodeBinary input jump depth pos
  | 24 => (diagnosticInfoDecodeBinary input fuel depth pos).map fun value =>
    .leaf (.diagnosticInfo value)
  | _ => .fail badInternalError pos

end Recursive

def decodeBinaryJump (input : Input) : Nat → Nat → DataType → Nat → Res Value
  | 0, _, _, pos => ⟨badInternalError, default, pos, true⟩
  | fuel + 1, depth, type, pos =>
    if type.builtin then
      builtinDecodeBinary input (decodeBinaryJump input fuel) fuel depth type.typeIndex pos
    else decodeBinaryInternal input (decodeBinaryJump input fuel) depth type pos

def recursionBound (maxRecursion : Nat) : Nat := 2 * maxRecursion + 4

/-- What `UA_decodeBinary` leaves in its arguments; `none` is a zeroed destination. -/
structure DecodeResult where
  status : StatusCode
  dst : Option Value
  offset : Nat
  exhausted : Bool

def uaDecodeBinaryFrom (input : Input) (offset : Nat) (type : DataType) : DecodeResult :=
  match decodeBinaryInternal input (decodeBinaryJump input (recursionBound input.maxRecursion)) 0
      type offset with
  | ⟨status, value, pos, exhausted⟩ =>
    if status = good then ⟨good, some value, pos, exhausted⟩
    else ⟨status, none, offset, exhausted⟩

def uaDecodeBinary (env : TypeEnv) (src : List Byte) (offset : Nat) (type : DataType) :
    DecodeResult :=
  uaDecodeBinaryFrom ⟨src, src.length, env, encodingMaxRecursion⟩ offset type

end OpcUa
