import OpcUa.CalcSizeExact
import OpcUa.LeafRoundTrip

/-!
What decoding the bytes of a value gives. `parsable` is a condition on the value under which the
decoder takes the bytes apart along the structure of the value, `decodedValue` is what it
then returns, and `nesting` counts the levels against the recursion limit of the decoder.
-/

namespace OpcUa

open LittleEndian StatusCode

/-! What the decoder returns -/

def Leaf.decoded : Leaf → Leaf
  | .boolean raw => .boolean (if raw.toNat > 0 then 1 else 0)
  | .string value => .string value.decoded
  | .nodeId value => .nodeId value.decoded
  | .expandedNodeId value => .expandedNodeId value.decoded
  | .qualifiedName value => .qualifiedName value.decoded
  | .localizedText value => .localizedText value.decoded
  | .extensionObject .noBody typeId _ => .extensionObject .noBody typeId.decoded .null
  | .extensionObject encoding typeId body => .extensionObject encoding typeId.decoded body.decoded
  | .diagnosticInfo (.plain fields) => .diagnosticInfo (.plain fields.decoded)
  | content => content

def DataValueInfo.decoded (info : DataValueInfo) : DataValueInfo where
  status := info.status
  sourceTimestamp := info.sourceTimestamp
  sourcePicoseconds := info.sourcePicoseconds.map clampPicoSeconds
  serverTimestamp := info.serverTimestamp
  serverPicoseconds := info.serverPicoseconds.map clampPicoSeconds

/-- A scalar Variant of decoded content: the ExtensionObject around it is taken off. -/
def unwrapped (type : DataType) : Value → Value
  | .extensionObject _ contentType data => .variantScalar contentType data []
  | data => .variantScalar (builtinRowAt type.typeIndex) data []

mutual

/-- Enumerations come back as Int32, structures in a scalar Variant as themselves and in an
array as ExtensionObjects. The dimensions of a scalar are not transmitted. -/
def decodedValue (env : TypeEnv) : Value → DataType → Value
  | .leaf content, _ => .leaf content.decoded
  | .extensionObject _ contentType data, _ =>
    .extensionObject false contentType (decodedValue env data contentType)
  | .extensionObjectNull, _ => .extensionObjectNull
  | .dataValue info hasValue value, _ =>
    .dataValue info.decoded hasValue
      (if hasValue then decodedValue env value variantType else .variantEmpty)
  | .variantEmpty, _ => .variantEmpty
  | .variantScalar contentType data _, _ =>
    if contentType.builtin then unwrapped contentType (decodedValue env data contentType)
    else .variantScalar contentType (decodedValue env data contentType) []
  | .variantArray contentType undefined elements arrayDimensions, _ =>
    if contentType.builtin then
      .variantArray (builtinRowAt contentType.typeIndex) (undefined && elements.isEmpty)
        (if contentType.overlayable then elements
        else decodedElements env elements contentType) arrayDimensions
    else
      .variantArray extensionObjectType false (decodedObjects env elements contentType)
        arrayDimensions
  | .struct members, type => .struct (decodedMembers env members type type.members)
  | .array undefined elements, type =>
    .array (undefined && elements.isEmpty)
      (if type.overlayable then elements else decodedElements env elements type)

def decodedElements (env : TypeEnv) : List Value → DataType → List Value
  | [], _ => []
  | element :: rest, type => decodedValue env element type :: decodedElements env rest type

def decodedObjects (env : TypeEnv) : List Value → DataType → List Value
  | [], _ => []
  | element :: rest, type =>
    .extensionObject false type (decodedValue env element type) :: decodedObjects env rest type

def decodedMembers (env : TypeEnv) : List Value → DataType → List DataTypeMember → List Value
  | value :: rest, type, member :: members =>
    decodedValue env value (env.memberType type member) :: decodedMembers env rest type members
  | _, _, _ => []

end

/-! When the bytes are taken apart along the structure of the value -/

/-- A DiagnosticInfo has nothing inside, and an encoded body has a type id that is not
known, since the decoder would decode it otherwise. -/
def Leaf.parsable (env : TypeEnv) : Leaf → Bool
  | .extensionObject .byteString typeId _ => (env.findDataTypeByBinaryInternal typeId.decoded).isNone
  | .diagnosticInfo (.plain fields) => fields.innerStatusCode.isNone
  | .diagnosticInfo (.nested _ _) => false
  | _ => true

/-- The content of an ExtensionObject is found again by the id that is written. -/
def TypeEnv.recovers (env : TypeEnv) (type : DataType) : Bool :=
  !type.builtin && env.findDataTypeByBinaryInternal type.binaryTypeId == some type

/-- The filter for arrays that are too long for the message lets the array pass. -/
def passesFilter (type : DataType) (length bytes : Nat) : Bool := type.memSize * length / 32 ≤ bytes

mutual

def parsable (env : TypeEnv) : Value → DataType → Bool
  | .leaf content, _ => content.parsable env
  | .extensionObject _ contentType data, _ =>
    env.recovers contentType && parsable env data contentType
  | .extensionObjectNull, _ => false
  | .dataValue _ hasValue value, _ => !hasValue || parsable env value variantType
  | .variantEmpty, _ => true
  | .variantScalar contentType data _, _ =>
    if contentType.builtin then contentType.typeIndex != 23 && parsable env data contentType
    else !isAlias env contentType && env.recovers contentType && parsable env data contentType
  | .variantArray contentType _ elements _, _ =>
    if contentType.builtin then
      contentType.overlayable ||
        (passesFilter contentType elements.length (elementsWire env elements contentType).length &&
          parsableElements env elements contentType)
    else
      !isAlias env contentType && env.recovers contentType &&
        parsableElements env elements contentType
  | .struct members, type => parsableMembers env members type type.members
  | .array _ elements, type =>
    type.overlayable ||
      (passesFilter type elements.length (elementsWire env elements type).length &&
        parsableElements env elements type)

def parsableElements (env : TypeEnv) : List Value → DataType → Bool
  | [], _ => true
  | element :: rest, type => parsable env element type && parsableElements env rest type

def parsableMembers (env : TypeEnv) : List Value → DataType → List DataTypeMember → Bool
  | value :: rest, type, member :: members =>
    parsable env value (env.memberType type member) && parsableMembers env rest type members
  | _, _, _ => true

end

/-! How deep the decoder goes: an entry at `depth` passes the checks against the recursion
limit if `depth + nesting` is at most the limit plus one. -/

mutual

def nesting (env : TypeEnv) : Value → DataType → Nat
  | .leaf _, _ => 0
  | .extensionObject _ contentType data, _ => nesting env data contentType
  | .extensionObjectNull, _ => 0
  | .dataValue _ hasValue value, _ => (if hasValue then nesting env value variantType else 0) + 1
  | .variantEmpty, _ => 0
  | .variantScalar contentType data _, _ => nesting env data contentType + 1
  | .variantArray contentType _ elements _, _ => nestingElements env elements contentType + 1
  | .struct members, type => nestingMembers env members type type.members + 1
  | .array _ elements, type => if type.overlayable then 0 else nestingElements env elements type

def nestingElements (env : TypeEnv) : List Value → DataType → Nat
  | [], _ => 0
  | element :: rest, type => max (nesting env element type) (nestingElements env rest type)

def nestingMembers (env : TypeEnv) : List Value → DataType → List DataTypeMember → Nat
  | value :: rest, type, member :: members =>
    max (nesting env value (env.memberType type member)) (nestingMembers env rest type members)
  | _, _, _ => 0

end

section

variable (env : TypeEnv) (content : Leaf) (type : DataType)

theorem nesting_leaf : nesting env (.leaf content) type = 0 := by
  rw [nesting]

end

/-! Reading under a condition: if the condition fails, so does the decoder. -/

def ReadsIf {α : Type} (input : Input) (condition : Prop) (decode : Nat → Res α)
    (bytes : List Byte) (value : α) : Prop :=
  ∀ pos, input.Holds pos bytes → (condition → decode pos = .ok value (pos + bytes.length)) ∧
      (¬condition → (decode pos).status ≠ good)

theorem Reads.readsIf {α : Type} {input : Input} {decode : Nat → Res α} {bytes : List Byte}
    {value : α} (reads : Reads input decode bytes value) : ReadsIf input True decode bytes value :=
  fun pos holds => ⟨fun _ => reads pos holds, fun never => absurd trivial never⟩

namespace ReadsIf

variable {α β : Type} {input : Input} {condition conditionToo : Prop} {decode : Nat → Res α}
  {bytes more : List Byte} {value : α}

section

variable (reads : ReadsIf input condition decode bytes value)
include reads

theorem of_iff (same : condition ↔ conditionToo) :
    ReadsIf input conditionToo decode bytes value := by
  rwa [← propext same]

theorem of_eq (equal : bytes = more) : ReadsIf input condition decode more value := equal ▸ reads

theorem valued {other : α} (equal : value = other) :
    ReadsIf input condition decode bytes other := equal ▸ reads

theorem map (convert : α → β) :
    ReadsIf input condition (fun pos => (decode pos).map convert) bytes (convert value) := by
  intro pos holds
  refine ⟨fun holdsToo => ?_, (reads pos holds).2⟩
  simp only [(reads pos holds).1 holdsToo, Res.ok_map]

theorem thenCheck [Inhabited β] {next : α → Nat → Res β} {result : β}
    (continues : ReadsIf input conditionToo (next value) more result) :
    ReadsIf input (condition ∧ conditionToo) (fun pos => (decode pos).thenCheck next)
      (bytes ++ more) result := by
  intro pos holds
  have parts := holds.append
  have first := reads pos parts.1
  have second := continues _ parts.2
  refine ⟨fun both => ?_, fun fails => ?_⟩
  · simp only [first.1 both.1, Res.ok_thenCheck, second.1 both.2, List.length_append, Nat.add_assoc]
  · by_cases firstHolds : condition
    · simp only [first.1 firstHolds, Res.ok_thenCheck]
      exact second.2 fun secondHolds => fails ⟨firstHolds, secondHolds⟩
    · simp [Res.thenCheck, first.2 firstHolds]

theorem thenOr {next : α → Nat → Res β} {result : β}
    (continues : ReadsIf input conditionToo (next value) more result) :
    ReadsIf input (condition ∧ conditionToo) (fun pos => (decode pos).thenOr next)
      (bytes ++ more) result := by
  intro pos holds
  have parts := holds.append
  have first := reads pos parts.1
  have second := continues _ parts.2
  refine ⟨fun both => ?_, fun fails => ?_⟩
  · simp only [first.1 both.1, Res.ok_thenOr, second.1 both.2, List.length_append, Nat.add_assoc]
  · by_cases firstHolds : condition
    · simp only [first.1 firstHolds, Res.ok_thenOr]
      exact second.2 fun secondHolds => fails ⟨firstHolds, secondHolds⟩
    · intro success
      exact first.2 firstHolds ((or_eq_good_iff _ _).mp success).1

end

theorem limited [Inhabited α] {depth limit : Nat}
    (reads : depth ≤ limit → ReadsIf input condition decode bytes value) :
    ReadsIf input (depth ≤ limit ∧ condition)
      (fun pos => if depth > limit then .fail badEncodingError pos else decode pos) bytes value := by
  intro pos holds
  beta_reduce
  by_cases inside : depth ≤ limit
  · rw [if_neg (by omega)]
    exact ⟨fun both => (reads inside pos holds).1 both.2,
      fun fails => (reads inside pos holds).2 fun rest => fails ⟨inside, rest⟩⟩
  · rw [if_pos (by omega)]
    exact ⟨fun both => absurd both.1 inside, fun _ => badEncodingError_ne_good⟩

theorem skipped (skip : List Byte) (reads : ReadsIf input condition decode bytes value) :
    ReadsIf input condition (fun pos => decode (pos + skip.length)) (skip ++ bytes) value := by
  intro pos holds
  have rest := reads _ holds.append.2
  rwa [List.length_append, ← Nat.add_assoc]

theorem decodeWhen {present : Bool}
    (reads : present = true → ReadsIf input condition decode bytes value) :
    ReadsIf input (present = true → condition) (OpcUa.decodeWhen present decode)
      (wireWhen present bytes) (if present then some value else none) := by
  cases present with
  | false => exact (Reads.pure none).readsIf.of_iff (by simp)
  | true => exact ((reads rfl).map some).of_iff (by simp)

end ReadsIf

end OpcUa
