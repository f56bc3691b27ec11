import OpcUa.CalcSizeCore

/-!
The binary encoder of `ua_types_encoding_binary.c`. An encoder takes the context with
the current buffer and returns a status and the context it leaves behind, also when it
fails. The recursion depth is a parameter, since every increment of `ctx->depth` in the
encoder is undone before the function returns.
-/

namespace OpcUa

open LittleEndian StatusCode

def encodingMaxRecursion : Nat := 20

/-- The buffers given to the callback so far, the bytes written to the current buffer
and its size, and the sizes of the buffers the callback will still hand out (`none`
without a callback). `fault` records that a position of a buffer that was already
handed over has been used again. -/
structure Ctx where
  sent : List (List Byte)
  out : List Byte
  cap : Nat
  supply : Option (List Nat)
  fault : Bool
deriving DecidableEq, Repr

namespace Ctx

def push (ctx : Ctx) (bytes : List Byte) : Ctx := { ctx with out := ctx.out ++ bytes }

/-- `ctx->pos = oldpos`, where the position was taken in the context `old`. -/
def restore (ctx old : Ctx) : Ctx :=
  if ctx.sent.length = old.sent.length then { ctx with out := ctx.out.take old.out.length }
  else { ctx with fault := true }

/-- The loops that try again do so after an exchange, so this many rounds suffice. -/
def rounds (ctx : Ctx) : Nat := (ctx.supply.getD []).length + 1

end Ctx

abbrev Encoder := Ctx → StatusCode × Ctx

def succeed : Encoder := fun ctx => (good, ctx)

def failWith (status : StatusCode) : Encoder := fun ctx => (status, ctx)

/-- `ret = first; if(ret != GOOD) return ret; return second;` -/
def andThen (first second : Encoder) : Encoder := fun ctx =>
  match first ctx with
  | (status, after) => if status = good then second after else (status, after)

/-- `ret |= ...` for every encoder of the list. -/
def encodeAll : List Encoder → Encoder
  | [] => succeed
  | first :: rest => fun ctx =>
    match first ctx with
    | (status, after) =>
      match encodeAll rest after with
      | (later, final) => (status ||| later, final)

def encodeWhen (present : Bool) (encode : Encoder) : Encoder :=
  if present then encode else succeed

def encodeOption {α : Type} (field : Option α) (encode : α → Encoder) : Encoder :=
  match field with
  | some value => encode value
  | none => succeed

/-- The check for space in front of every `memcpy` of the numeric types. -/
def writeBytes (bytes : List Byte) : Encoder := fun ctx =>
  if ctx.out.length + bytes.length > ctx.cap then (badEncodingLimitsExceeded, ctx)
  else (good, ctx.push bytes)

def exchangeBuffer : Encoder := fun ctx =>
  match ctx.supply with
  | none => (badEncodingError, ctx)
  | some [] => (badOutOfMemory, ctx)
  | some (size :: rest) =>
    (good, { ctx with sent := ctx.sent ++ [ctx.out], out := [], cap := size, supply := some rest })

/-- Used for the numeric types only, whose encoders write `bytes` or nothing. The second
attempt is not checked. -/
def encodeWithExchangeBuffer (bytes : List Byte) : Encoder := fun ctx =>
  match writeBytes bytes ctx with
  | (status, after) =>
    if status = badEncodingLimitsExceeded then
      match exchangeBuffer after with
      | (exchanged, fresh) =>
        if exchanged = good then (good, (writeBytes bytes fresh).2) else (exchanged, fresh)
    else (good, after)

/-- Copies the memory of the remaining elements, as many whole elements as fit, and
exchanges the buffer until everything is written. -/
def overlayLoop (elementMemSize : Nat) : Nat → List Byte → Encoder
  | 0, _, ctx => (badInternalError, ctx)
  | round + 1, memory, ctx =>
    if ctx.cap < ctx.out.length + memory.length then
      let possibleMem := (ctx.cap - ctx.out.length) / elementMemSize * elementMemSize
      match exchangeBuffer (ctx.push (memory.take possibleMem)) with
      | (exchanged, fresh) =>
        if exchanged = good then
          overlayLoop elementMemSize round (memory.drop possibleMem) fresh
        else (exchanged, fresh)
    else (good, ctx.push memory)

def arrayEncodeBinaryOverlayable (elementMemSize : Nat) (memory : List Byte) : Encoder := fun ctx =>
  overlayLoop elementMemSize ctx.rounds memory ctx

/-- One turn of the loop in `Array_encodeBinaryComplex`: an element that does not fit is
encoded again from the start of the next buffer. -/
def retryElement (encode : Encoder) : Nat → Encoder
  | 0, ctx => (badInternalError, ctx)
  | round + 1, ctx =>
    match encode ctx with
    | (status, after) =>
      if status = badEncodingLimitsExceeded then
        match exchangeBuffer (after.restore ctx) with
        | (exchanged, fresh) =>
          if exchanged = good then retryElement encode round fresh else (exchanged, fresh)
      else (status, after)

def encodeElement (encode : Encoder) : Encoder := fun ctx => retryElement encode ctx.rounds ctx

def arrayLengthField (length : Nat) (isSentinel : Bool) : Nat :=
  if length > 0 then length else if isSentinel then 0 else 4294967295

def arrayEncodeBinary (length : Nat) (isSentinel : Bool) (content : Encoder) : Encoder :=
  if length > int32Max then failWith badInternalError
  else
    andThen (encodeWithExchangeBuffer (leBytes 4 (arrayLengthField length isSentinel)))
      (if length = 0 then succeed else content)

def byteEncodeBinary (value : Byte) : Encoder := writeBytes [value]
def uint16EncodeBinary (value : BitVec 16) : Encoder := writeBytes (leBytes 2 value.toNat)
def uint32EncodeBinary (value : BitVec 32) : Encoder := writeBytes (leBytes 4 value.toNat)
def uint64EncodeBinary (value : BitVec 64) : Encoder := writeBytes (leBytes 8 value.toNat)

def UaString.isSentinel : UaString → Bool
  | .empty => true
  | _ => false

def stringEncodeBinary (text : UaString) : Encoder :=
  arrayEncodeBinary text.length text.isSentinel (arrayEncodeBinaryOverlayable 1 text.bytes)

def guidEncodeBinary (guid : Guid) : Encoder := fun ctx =>
  match encodeAll [uint32EncodeBinary guid.data1, uint16EncodeBinary guid.data2,
      uint16EncodeBinary guid.data3] ctx with
  | (status, after) =>
    if after.out.length + 8 > after.cap then (badEncodingLimitsExceeded, after)
    else (status, after.push (leBytes 8 guid.data4.toNat))

def nodeIdEncodeBinaryWithEncodingMask (id : NodeId) (encoding : Byte) : Encoder :=
  match id.identifier with
  | .numeric value =>
    if value.toNat > uint16Max || id.namespaceIndex.toNat > byteMax then
      encodeAll [byteEncodeBinary (encoding ||| 2), uint16EncodeBinary id.namespaceIndex,
        uint32EncodeBinary value]
    else if value.toNat > byteMax || id.namespaceIndex.toNat > 0 then
      encodeAll [byteEncodeBinary (encoding ||| 1),
        byteEncodeBinary (id.namespaceIndex.setWidth 8), uint16EncodeBinary (value.setWidth 16)]
    else
      encodeAll [byteEncodeBinary (encoding ||| 0), byteEncodeBinary (value.setWidth 8)]
  | .string value =>
    andThen (encodeAll [byteEncodeBinary (encoding ||| 3), uint16EncodeBinary id.namespaceIndex])
      (stringEncodeBinary value)
  | .guid value =>
    encodeAll [byteEncodeBinary (encoding ||| 4), uint16EncodeBinary id.namespaceIndex,
      guidEncodeBinary value]
  | .byteString value =>
    andThen (encodeAll [byteEncodeBinary (encoding ||| 5), uint16EncodeBinary id.namespaceIndex])
      (stringEncodeBinary value)

def nodeIdEncodeBinary (id : NodeId) : Encoder := nodeIdEncodeBinaryWithEncodingMask id 0

/-- The namespace URI flag is 0x80, the server index flag 0x40. -/
def expandedNodeIdMask (id : ExpandedNodeId) : Byte :=
  flagBit id.namespaceUri.beyondSentinel 7 ||| flagBit (id.serverIndex.toNat > 0) 6

def expandedNodeIdEncodeBinary (id : ExpandedNodeId) : Encoder :=
  andThen (nodeIdEncodeBinaryWithEncodingMask id.nodeId (expandedNodeIdMask id))
    (andThen (encodeWhen id.namespaceUri.beyondSentinel (stringEncodeBinary id.namespaceUri))
      (encodeWhen (id.serverIndex.toNat > 0)
        (encodeWithExchangeBuffer (leBytes 4 id.serverIndex.toNat))))

def qualifiedNameEncodeBinary (name : QualifiedName) : Encoder :=
  encodeAll [uint16EncodeBinary name.namespaceIndex, stringEncodeBinary name.name]

def localizedTextMask (text : LocalizedText) : Byte :=
  flagBit text.locale.nonNull 0 ||| flagBit text.text.nonNull 1

def localizedTextEncodeBinary (text : LocalizedText) : Encoder :=
  andThen (byteEncodeBinary (localizedTextMask text))
    (encodeAll [encodeWhen text.locale.nonNull (stringEncodeBinary text.locale),
      encodeWhen text.text.nonNull (stringEncodeBinary text.text)])

def EncodedBody.code : EncodedBody → Byte
  | .noBody => 0
  | .byteString => 1
  | .xml => 2

/-- The first branch of `ExtensionObject_encodeBinary`: no content or content that is
already encoded. -/
def encodedObjectEncodeBinary (encoding : EncodedBody) (typeId : NodeId) (body : UaString) :
    Encoder :=
  andThen (nodeIdEncodeBinary typeId) (andThen (encodeWithExchangeBuffer [encoding.code])
      (match encoding with
        | .noBody => succeed
        | .byteString => stringEncodeBinary body
        | .xml => stringEncodeBinary body))

def DataType.binaryTypeId (type : DataType) : NodeId :=
  ⟨type.typeId.namespaceIndex, .numeric (type.binaryEncodingId.setWidth 32)⟩

/-- The second branch of `ExtensionObject_encodeBinary`: `size` is the computed length of
the content and `content` its encoder. -/
def decodedObjectEncodeBinary (type : DataType) (size : Nat) (content : Encoder) : Encoder :=
  if type.typeId.identifier.isNumeric then
    if size > int32Max then fun ctx =>
      (badEncodingError, (encodeAll [nodeIdEncodeBinary type.binaryTypeId, byteEncodeBinary 1] ctx).2)
    else
      andThen (encodeAll [nodeIdEncodeBinary type.binaryTypeId, byteEncodeBinary 1,
        writeBytes (leBytes 4 size)]) content
  else failWith badEncodingError

/-- Bit 5 announces the inner diagnostic info; the inner status code has no bit. -/
def diagnosticInfoMask (fields : DiagnosticFields) (hasInner : Bool) : Byte :=
  flagBit fields.symbolicId.isSome 0 ||| flagBit fields.namespaceUri.isSome 1 |||
    flagBit fields.localizedText.isSome 2 ||| flagBit fields.locale.isSome 3 |||
    flagBit fields.additionalInfo.isSome 4 ||| flagBit hasInner 5

def diagnosticFieldsEncodeBinary (fields : DiagnosticFields) (hasInner : Bool) : Encoder :=
  andThen (encodeAll [byteEncodeBinary (diagnosticInfoMask fields hasInner),
      encodeOption fields.symbolicId uint32EncodeBinary,
      encodeOption fields.namespaceUri uint32EncodeBinary,
      encodeOption fields.localizedText uint32EncodeBinary,
      encodeOption fields.locale uint32EncodeBinary])
    (andThen (encodeOption fields.additionalInfo stringEncodeBinary)
      (encodeOption fields.innerStatusCode fun code =>
        encodeWithExchangeBuffer (leBytes 4 code.toNat)))

/-- One turn of the loop in `encodeBinaryInternal` for a member that is no array. -/
def retryMember (memSize : Nat) (encode : Encoder) : Nat → Encoder
  | 0, ctx => (badInternalError, ctx)
  | round + 1, ctx =>
    match encode ctx with
    | (status, after) =>
      if status = badEncodingLimitsExceeded then
        match exchangeBuffer (after.restore ctx) with
        | (exchanged, fresh) =>
          if exchanged = badEncodingLimitsExceeded ∨ fresh.out.length + memSize > fresh.cap
          then (badResponseTooLarge, fresh)
          else if exchanged = good then retryMember memSize encode round fresh
          else (exchanged, fresh)
      else (status, after)

def encodeMember (memSize : Nat) (encode : Encoder) : Encoder := fun ctx =>
  retryMember memSize encode ctx.rounds ctx

/-- `encodeBinaryInternal` for a builtin type, whose only member is the type itself. -/
def encodeBuiltinInternal (memSize : Nat) (encode : Nat → Encoder) (depth : Nat) : Encoder :=
  if depth > encodingMaxRecursion then failWith badEncodingError
  else encodeMember memSize (encode (depth + 1))

def diagnosticInfoEncodeBinary : DiagnosticInfo → Nat → Encoder
  | .plain fields, _ => diagnosticFieldsEncodeBinary fields false
  | .nested fields inner, depth =>
    andThen (diagnosticFieldsEncodeBinary fields true)
      (encodeBuiltinInternal diagnosticInfoType.memSize (diagnosticInfoEncodeBinary inner) depth)

def leafEncodeBinary (content : Leaf) (depth : Nat) : Encoder :=
  match content with
  | .boolean raw => byteEncodeBinary raw
  | .byte value => byteEncodeBinary value
  | .uint16 value => uint16EncodeBinary value
  | .uint32 value => uint32EncodeBinary value
  | .uint64 value => uint64EncodeBinary value
  | .string value => stringEncodeBinary value
  | .guid value => guidEncodeBinary value
  | .nodeId value => nodeIdEncodeBinary value
  | .expandedNodeId value => expandedNodeIdEncodeBinary value
  | .qualifiedName value => qualifiedNameEncodeBinary value
  | .localizedText value => localizedTextEncodeBinary value
  | .extensionObject encoding typeId body => encodedObjectEncodeBinary encoding typeId body
  | .diagnosticInfo value => diagnosticInfoEncodeBinary value depth

section

variable (env : TypeEnv) (type : DataType)

/-- A type with exactly one member of a builtin type counts as an alias of that type. -/
def isAlias : Bool :=
  match type.members with
  | [member] => (env.types.getD member.memberTypeIndex booleanType).builtin
  | _ => false

def variantTypeIdBits : Byte :=
  if type.builtin then 0x3F &&& BitVec.ofNat 8 (type.typeIndex + 1)
  else if isAlias env type then
    0x3F &&& BitVec.ofNat 8 ((type.members.head?.map (·.memberTypeIndex)).getD 0 + 1)
  else 0x3F &&& BitVec.ofNat 8 (21 + 1)

def variantEncodingByte (isArray hasDimensions : Bool) : Byte :=
  variantTypeIdBits env type ||| flagBit isArray 7 ||| flagBit hasDimensions 6

end

def dimensionsEncodeBinary (arrayDimensions : List (BitVec 32)) : Encoder :=
  arrayEncodeBinary arrayDimensions.length false
    (arrayEncodeBinaryOverlayable 4 (arrayDimensions.flatMap fun size => leBytes 4 size.toNat))

def dataValueMask (info : DataValueInfo) (hasValue : Bool) : Byte :=
  flagBit hasValue 0 ||| flagBit info.status.isSome 1 ||| flagBit info.sourceTimestamp.isSome 2 |||
    flagBit info.serverTimestamp.isSome 3 ||| flagBit info.sourcePicoseconds.isSome 4 |||
    flagBit info.serverPicoseconds.isSome 5

def dataValueInfoEncodeBinary (info : DataValueInfo) : Encoder :=
  encodeAll [encodeOption info.status fun code => encodeWithExchangeBuffer (leBytes 4 code.toNat),
    encodeOption info.sourceTimestamp fun time => encodeWithExchangeBuffer (leBytes 8 time.toNat),
    encodeOption info.sourcePicoseconds fun part => encodeWithExchangeBuffer (leBytes 2 part.toNat),
    encodeOption info.serverTimestamp fun time => encodeWithExchangeBuffer (leBytes 8 time.toNat),
    encodeOption info.serverPicoseconds fun part => encodeWithExchangeBuffer (leBytes 2 part.toNat)]

def leafMemory : Leaf → List Byte
  | .boolean raw => [raw]
  | .byte value => [value]
  | .uint16 value => leBytes 2 value.toNat
  | .uint32 value => leBytes 4 value.toNat
  | .uint64 value => leBytes 8 value.toNat
  | .guid value =>
    leBytes 4 value.data1.toNat ++ leBytes 2 value.data2.toNat ++ leBytes 2 value.data3.toNat ++
      leBytes 8 value.data4.toNat
  | _ => []

def padTo (size : Nat) (memory : List Byte) : List Byte :=
  memory ++ List.replicate (size - memory.length) 0

mutual

def valueMemory (env : TypeEnv) : Value → DataType → List Byte
  | .leaf content, _ => leafMemory content
  | .struct members, type => padTo type.memSize (membersMemory env members type type.members)
  | _, _ => []

def membersMemory (env : TypeEnv) : List Value → DataType → List DataTypeMember → List Byte
  | value :: rest, type, member :: members =>
    valueMemory env value (env.memberType type member) ++ membersMemory env rest type members
  | _, _, _ => []

end

/-- `encodeBinaryInternal` for a value with the jump table entry `encode`. -/
def encodeInternalWith (value : Value) (type : DataType) (encode : Nat → Encoder) (depth : Nat) :
    Encoder :=
  if value.isStruct then encode depth else encodeBuiltinInternal type.memSize encode depth

mutual

/-- The entries of `encodeBinaryJumpTable`; the last one, for structures, is
`encodeBinaryInternal`. -/
def encodeBinaryJump (env : TypeEnv) : Value → DataType → Nat → Encoder
  | .leaf content, _, depth => leafEncodeBinary content depth
  | .extensionObject _ contentType data, _, depth =>
    decodedObjectEncodeBinary contentType (calcSizeBinary env data contentType)
      (encodeInternalWith data contentType (encodeBinaryJump env data contentType) depth)
  | .extensionObjectNull, _, _ => failWith badEncodingError
  | .dataValue info hasValue value, _, depth =>
    andThen (byteEncodeBinary (dataValueMask info hasValue))
      (andThen (encodeWhen hasValue (encodeBinaryJump env value variantType depth))
        (dataValueInfoEncodeBinary info))
  | .variantEmpty, _, _ => byteEncodeBinary 0
  | .variantScalar contentType data _, _, depth =>
    andThen (byteEncodeBinary (variantEncodingByte env contentType false false))
      (if !contentType.builtin && !isAlias env contentType then
        encodeBuiltinInternal extensionObjectType.memSize (fun inner =>
          decodedObjectEncodeBinary contentType (calcSizeBinary env data contentType)
            (encodeInternalWith data contentType (encodeBinaryJump env data contentType) inner))
          depth
      else encodeInternalWith data contentType (encodeBinaryJump env data contentType) depth)
  | .variantArray contentType undefined elements arrayDimensions, _, depth =>
    andThen (byteEncodeBinary
        (variantEncodingByte env contentType true (arrayDimensions.length > 0)))
      (andThen (if !contentType.builtin && !isAlias env contentType then
          if elements.length > int32Max then failWith badEncodingError
          else
            andThen (writeBytes (leBytes 4 elements.length))
              (encodeWrapped env elements contentType depth)
        else
          arrayEncodeBinary elements.length (!undefined) (if contentType.overlayable then
              arrayEncodeBinaryOverlayable contentType.memSize
                (elements.flatMap fun element => valueMemory env element contentType)
            else encodeElements env elements contentType depth))
        (encodeWhen (arrayDimensions.length > 0) (dimensionsEncodeBinary arrayDimensions)))
  | .struct members, type, depth =>
    if depth > encodingMaxRecursion then failWith badEncodingError
    else encodeMembers env members type type.members (depth + 1)
  | .array undefined elements, type, depth =>
    arrayEncodeBinary elements.length (!undefined) (if type.overlayable then
        arrayEncodeBinaryOverlayable type.memSize
          (elements.flatMap fun element => valueMemory env element type)
      else encodeElements env elements type depth)

/-- `Array_encodeBinaryComplex` -/
def encodeElements (env : TypeEnv) : List Value → DataType → Nat → Encoder
  | [], _, _ => succeed
  | element :: rest, type, depth =>
    andThen (encodeElement (encodeBinaryJump env element type depth))
      (encodeElements env rest type depth)

/-- The loop of `Variant_encodeBinaryWrapExtensionObject` over an array. -/
def encodeWrapped (env : TypeEnv) : List Value → DataType → Nat → Encoder
  | [], _, _ => succeed
  | element :: rest, type, depth =>
    andThen (encodeBuiltinInternal extensionObjectType.memSize (fun inner =>
        decodedObjectEncodeBinary type (calcSizeBinary env element type)
          (encodeInternalWith element type (encodeBinaryJump env element type) inner)) depth)
      (encodeWrapped env rest type depth)

/-- The loop of `encodeBinaryInternal` over the members of a structure. -/
def encodeMembers (env : TypeEnv) : List Value → DataType → List DataTypeMember → Nat → Encoder
  | value :: rest, type, member :: members, depth =>
    andThen (if member.isArray then encodeBinaryJump env value (env.memberType type member) depth
      else
        encodeMember (env.memberType type member).memSize
          (encodeBinaryJump env value (env.memberType type member) depth))
      (encodeMembers env rest type members depth)
  | _, _, _, _ => succeed

end

def encodeBinaryInternal (env : TypeEnv) (value : Value) (type : DataType) (depth : Nat) : Encoder :=
  encodeInternalWith value type (encodeBinaryJump env value type) depth

/-- `UA_encodeBinary` starts at depth zero with the buffer of the caller. -/
def uaEncodeBinary (env : TypeEnv) (value : Value) (type : DataType) : Encoder :=
  encodeBinaryInternal env value type 0

def singleBuffer (size : Nat) : Ctx := ⟨[], [], size, none, false⟩

end OpcUa
