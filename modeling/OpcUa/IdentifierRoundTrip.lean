import OpcUa.DecodeSafety
import OpcUa.LeafRoundTrip

/-!
Strings and the types that identify or name something. What is encoded comes back, and what is
decoded can be encoded again and comes back. An empty namespace URI does not.
-/

namespace OpcUa

open LittleEndian StatusCode

/-! Types with an encoder and a decoder -/

structure Codec (Content : Type) where
  encode : Content → Encoder
  decode : Input → Nat → Res Content
  accepted : Content → Bool
  wire : Content → List Byte
  decoded : Content → Content
  writes : ∀ content, Writes (encode content) (accepted content = true) (wire content)
  reads : ∀ input content, accepted content = true →
    Reads input (decode input) (wire content) (decoded content)

def Input.Backed (input : Input) : Prop := input.length ≤ input.memory.length

namespace Codec

variable {Content : Type} (codec : Codec Content)

def Returns (content back : Content) : Prop :=
  ∀ size, (codec.encode content (singleBuffer size)).1 = good → ∀ input,
    Reads input (codec.decode input) (codec.encode content (singleBuffer size)).2.out back

def Encodes (content : Content) : Prop :=
  ∃ least, ∀ size, least ≤ size → (codec.encode content (singleBuffer size)).1 = good

def Reencodes (change : Content → Content) : Prop :=
  ∀ input pos, input.Backed → (codec.decode input pos).status = good →
    codec.Encodes (codec.decode input pos).value ∧
      codec.Returns (codec.decode input pos).value (change (codec.decode input pos).value)

variable {codec} {content : Content}

theorem returns_decoded : codec.Returns content (codec.decoded content) := by
  intro size encodes input
  obtain ⟨accepted, written, -⟩ :=
    (codec.writes content).good_only (singleBuffer size) rfl (Nat.zero_le _) encodes
  have out : (codec.encode content (singleBuffer size)).2.out = codec.wire content := by
    rw [written]
    exact List.nil_append _
  rw [out]
  exact codec.reads input content accepted

theorem returns_same (same : codec.decoded content = content) : codec.Returns content content := by
  have returns : codec.Returns content (codec.decoded content) := returns_decoded
  rwa [same] at returns

theorem encodes_accepted (accepted : codec.accepted content = true) : codec.Encodes content := by
  refine ⟨(codec.wire content).length, fun size enough => ?_⟩
  have fits : (singleBuffer size).out.length + (codec.wire content).length ≤ size := by
    simpa [singleBuffer] using enough
  exact (codec.writes content).succeeds (singleBuffer size) rfl accepted fits

theorem reencodes {change : Content → Content}
    (receives : ∀ input pos, input.Backed → (codec.decode input pos).status = good →
      codec.accepted (codec.decode input pos).value = true ∧
        codec.decoded (codec.decode input pos).value = change (codec.decode input pos).value) :
    codec.Reencodes change := by
  intro input pos backed success
  obtain ⟨accepted, changed⟩ := receives input pos backed success
  refine ⟨encodes_accepted accepted, ?_⟩
  rw [← changed]
  exact returns_decoded

end Codec

def stringCodec : Codec UaString where
  encode := stringEncodeBinary
  decode := stringDecodeBinary
  accepted := UaString.accepted
  wire := stringWire
  decoded := UaString.decoded
  writes := stringEncodeBinary_writes
  reads := stringDecodeBinary_reads

def nodeIdCodec : Codec NodeId where
  encode := nodeIdEncodeBinary
  decode := nodeIdDecodeBinary
  accepted := NodeId.accepted
  wire := nodeIdWire 0
  decoded := NodeId.decoded
  writes := nodeIdEncodeBinary_writes
  reads input id := nodeIdDecodeBinary_reads input 0 id (by decide)

def expandedNodeIdCodec : Codec ExpandedNodeId where
  encode := expandedNodeIdEncodeBinary
  decode := expandedNodeIdDecodeBinary
  accepted id := id.nodeId.accepted && id.namespaceUri.accepted
  wire := expandedNodeIdWire
  decoded := ExpandedNodeId.decoded
  writes := expandedNodeIdEncodeBinary_writes
  reads := expandedNodeIdDecodeBinary_reads

def qualifiedNameCodec : Codec QualifiedName where
  encode := qualifiedNameEncodeBinary
  decode := qualifiedNameDecodeBinary
  accepted name := name.name.accepted
  wire := qualifiedNameWire
  decoded := QualifiedName.decoded
  writes := qualifiedNameEncodeBinary_writes
  reads := qualifiedNameDecodeBinary_reads

def localizedTextCodec : Codec LocalizedText where
  encode := localizedTextEncodeBinary
  decode := localizedTextDecodeBinary
  accepted text := text.locale.accepted && text.text.accepted
  wire := localizedTextWire
  decoded := LocalizedText.decoded
  writes := localizedTextEncodeBinary_writes
  reads := localizedTextDecodeBinary_reads

/-! The form in which lengths of zero are kept apart -/

def UaString.Canonical (text : UaString) : Prop := text ≠ .alloc []

def NodeId.Canonical (id : NodeId) : Prop :=
  ∀ text, id.identifier = .string text ∨ id.identifier = .byteString text → text.Canonical

def ExpandedNodeId.Canonical (id : ExpandedNodeId) : Prop :=
  id.nodeId.Canonical ∧ (id.namespaceUri = .null ∨
    id.namespaceUri.bytes ≠ [] ∧ id.nodeId.namespaceIndex = 0)

def QualifiedName.Canonical (name : QualifiedName) : Prop := name.name.Canonical

def LocalizedText.Canonical (text : LocalizedText) : Prop :=
  text.locale.Canonical ∧ text.text.Canonical

theorem UaString.Canonical.decoded_eq {text : UaString} (canonical : text.Canonical) :
    text.decoded = text := by
  cases text with
  | null => rfl
  | empty => rfl
  | alloc bytes =>
    cases bytes with
    | nil => exact absurd rfl canonical
    | cons byte rest => rfl

theorem NodeId.Canonical.decoded_eq {id : NodeId} (canonical : id.Canonical) : id.decoded = id := by
  obtain ⟨index, identifier⟩ := id
  cases identifier with
  | string text =>
    have same := (canonical text (.inl rfl)).decoded_eq
    simp only [NodeId.decoded, NodeIdentifier.decoded, same]
  | byteString text =>
    have same := (canonical text (.inr rfl)).decoded_eq
    simp only [NodeId.decoded, NodeIdentifier.decoded, same]
  | _ => rfl

def ExpandedNodeId.withoutEmptyUri (id : ExpandedNodeId) : ExpandedNodeId :=
  if id.namespaceUri.bytes = [] then { id with namespaceUri := .null } else id

section Received

variable {input : Input} {pos : Nat}

theorem arrayDecodeLength_elements {memSize count : Nat}
    (success : (arrayDecodeLength input memSize pos).status = good)
    (some : (arrayDecodeLength input memSize pos).value = .elements count) :
    0 < count ∧ count ≤ int32Max := by
  rw [arrayDecodeLength] at success some
  obtain ⟨-, passes, -, same⟩ := Res.thenCheck_good success
  rw [same] at some
  generalize (uint32DecodeBinary input pos).value = length at passes some
  generalize (uint32DecodeBinary input pos).pos = next at passes some
  split at some
  · cases some
  · split at some
    · cases some
    · split at some
      · cases some
      · injection some with equal
        omega

section

variable (backed : input.Backed)
include backed

theorem readBytes_length {count : Nat} (success : (readBytes input count pos).status = good) :
    (readBytes input count pos).value.length = count := by
  rw [readBytes] at success ⊢
  split
  · rename_i beyond
    rw [if_pos beyond] at success
    exact absurd success badDecodingError_ne_good
  · rw [Input.Backed] at backed
    simp only [Res.ok, List.length_take, List.length_drop]
    omega

theorem stringDecodeBinary_received (success : (stringDecodeBinary input pos).status = good) :
    (stringDecodeBinary input pos).value.Canonical ∧
      (stringDecodeBinary input pos).value.accepted = true := by
  rw [stringDecodeBinary] at success ⊢
  obtain ⟨lengthGood, contentGood, -, same⟩ := Res.thenCheck_good success
  rw [same]
  cases shape : (arrayDecodeLength input 1 pos).value with
  | undefined => exact ⟨by rintro ⟨⟩, rfl⟩
  | empty => exact ⟨by rintro ⟨⟩, rfl⟩
  | elements count =>
    obtain ⟨positive, short⟩ := arrayDecodeLength_elements lengthGood shape
    rw [shape] at contentGood
    obtain ⟨bytesGood, -, -, sameToo⟩ := Res.thenCheck_good contentGood
    rw [sameToo]
    have length := readBytes_length backed bytesGood
    refine ⟨?_, ?_⟩
    · intro none
      injection none with none
      rw [none] at length
      exact absurd length.symm (Nat.ne_of_gt positive)
    · rw [UaString.accepted, decide_eq_true_iff]
      exact length.le.trans short

theorem nodeIdDecodeBinary_received (success : (nodeIdDecodeBinary input pos).status = good) :
    (nodeIdDecodeBinary input pos).value.Canonical ∧
      (nodeIdDecodeBinary input pos).value.accepted = true := by
  rw [nodeIdDecodeBinary] at success ⊢
  obtain ⟨-, passes, -, same⟩ := Res.thenCheck_good success
  rw [same]
  revert passes
  generalize (byteDecodeBinary input pos).value = encodingByte
  generalize (byteDecodeBinary input pos).pos = next
  split
  · intro _
    refine ⟨?_, rfl⟩
    rintro text (same | same) <;> cases same
  · intro _
    refine ⟨?_, rfl⟩
    rintro text (same | same) <;> cases same
  · intro _
    refine ⟨?_, rfl⟩
    rintro text (same | same) <;> cases same
  · intro passes
    obtain ⟨canonical, accepted⟩ := stringDecodeBinary_received backed (thenOr_good passes).2.1
    refine ⟨?_, accepted⟩
    rintro text (same | same) <;> cases same
    exact canonical
  · intro _
    refine ⟨?_, rfl⟩
    rintro text (same | same) <;> cases same
  · intro passes
    obtain ⟨canonical, accepted⟩ := stringDecodeBinary_received backed (thenOr_good passes).2.1
    refine ⟨?_, accepted⟩
    rintro text (same | same) <;> cases same
    exact canonical
  · intro fails
    exact absurd fails badInternalError_ne_good

theorem qualifiedNameDecodeBinary_received
    (success : (qualifiedNameDecodeBinary input pos).status = good) :
    (qualifiedNameDecodeBinary input pos).value.Canonical ∧
      (qualifiedNameDecodeBinary input pos).value.name.accepted = true := by
  exact stringDecodeBinary_received backed (thenOr_good success).2.1

theorem decodeWhen_received {present : Bool}
    (success : (decodeWhen present (stringDecodeBinary input) pos).status = good) :
    ((decodeWhen present (stringDecodeBinary input) pos).value.getD .null).Canonical ∧
      ((decodeWhen present (stringDecodeBinary input) pos).value.getD .null).accepted = true := by
  cases present with
  | false => exact ⟨nofun, rfl⟩
  | true => exact stringDecodeBinary_received backed success

theorem localizedTextDecodeBinary_received
    (success : (localizedTextDecodeBinary input pos).status = good) :
    (localizedTextDecodeBinary input pos).value.Canonical ∧
      ((localizedTextDecodeBinary input pos).value.locale.accepted &&
        (localizedTextDecodeBinary input pos).value.text.accepted) = true := by
  obtain ⟨-, parts, -⟩ := thenOr_good success
  obtain ⟨localeGood, textGood, -⟩ := thenOr_good parts
  obtain ⟨locale, localeAccepted⟩ := decodeWhen_received backed localeGood
  obtain ⟨text, textAccepted⟩ := decodeWhen_received backed textGood
  refine ⟨⟨locale, text⟩, ?_⟩
  rw [Bool.and_eq_true]
  exact ⟨localeAccepted, textAccepted⟩

theorem expandedNodeIdDecodeBinary_received
    (success : (expandedNodeIdDecodeBinary input pos).status = good) :
    (expandedNodeIdDecodeBinary input pos).value.nodeId.Canonical ∧
      ((expandedNodeIdDecodeBinary input pos).value.namespaceUri.beyondSentinel →
        (expandedNodeIdDecodeBinary input pos).value.namespaceUri.Canonical ∧
          (expandedNodeIdDecodeBinary input pos).value.nodeId.namespaceIndex = 0) ∧
      ((expandedNodeIdDecodeBinary input pos).value.nodeId.accepted &&
        (expandedNodeIdDecodeBinary input pos).value.namespaceUri.accepted) = true := by
  rw [expandedNodeIdDecodeBinary] at success ⊢
  split
  · rename_i beyond
    rw [if_pos beyond] at success
    exact absurd success badDecodingError_ne_good
  · rename_i inside
    rw [if_neg inside] at success
    dsimp only at success ⊢
    obtain ⟨idGood, parts, -⟩ := thenOr_good success
    obtain ⟨uriGood, -, -⟩ := thenOr_good parts
    obtain ⟨canonical, accepted⟩ := nodeIdDecodeBinary_received backed idGood
    revert uriGood
    cases testBit (input.memory.getD pos 0) 0x80 with
    | false =>
      intro _
      refine ⟨canonical, fun wrong => absurd wrong Bool.false_ne_true, ?_⟩
      rw [Bool.and_eq_true]
      exact ⟨accepted, rfl⟩
    | true =>
      intro uriGood
      obtain ⟨uri, uriAccepted⟩ := stringDecodeBinary_received backed uriGood
      refine ⟨canonical, fun _ => ⟨uri, rfl⟩, ?_⟩
      rw [Bool.and_eq_true]
      exact ⟨accepted, uriAccepted⟩

end

end Received

theorem ExpandedNodeId.Canonical.decoded_eq {id : ExpandedNodeId} (canonical : id.Canonical) :
    id.decoded = id := by
  obtain ⟨⟨index, identifier⟩, uri, serverIndex⟩ := id
  obtain ⟨node, none | ⟨bytes, zero⟩⟩ := canonical
  · dsimp only at none node
    rw [ExpandedNodeId.decoded, node.decoded_eq, none]
    rfl
  · dsimp only at bytes zero node
    cases uri with
    | null => exact absurd rfl bytes
    | empty => exact absurd rfl bytes
    | alloc content =>
      have uri : (UaString.alloc content).Canonical := by
        rintro ⟨⟩
        exact bytes rfl
      rw [ExpandedNodeId.decoded, node.decoded_eq, uri.decoded_eq, zero]
      rfl

theorem ExpandedNodeId.decoded_received {id : ExpandedNodeId} (node : id.nodeId.Canonical)
    (uri : id.namespaceUri.beyondSentinel →
      id.namespaceUri.Canonical ∧ id.nodeId.namespaceIndex = 0) :
    id.decoded = id.withoutEmptyUri := by
  obtain ⟨nodeId, namespaceUri, serverIndex⟩ := id
  cases namespaceUri with
  | null => rw [ExpandedNodeId.decoded, node.decoded_eq]; rfl
  | empty => rw [ExpandedNodeId.decoded, node.decoded_eq]; rfl
  | alloc content =>
    obtain ⟨canonical, zero⟩ := uri rfl
    have bytes : content ≠ [] := by
      rintro rfl
      exact canonical rfl
    have kept : ExpandedNodeId.withoutEmptyUri ⟨nodeId, .alloc content, serverIndex⟩ =
        ⟨nodeId, .alloc content, serverIndex⟩ := if_neg bytes
    rw [kept]
    exact ExpandedNodeId.Canonical.decoded_eq ⟨node, .inr ⟨bytes, zero⟩⟩

/-- What is written comes back. What is read can be written and comes back, except for an empty
namespace URI. -/
theorem identifiers_roundTrip :
    ((∀ text : UaString, text.Canonical → stringCodec.Returns text text) ∧
      stringCodec.Reencodes fun text => text) ∧
    ((∀ id : NodeId, id.Canonical → nodeIdCodec.Returns id id) ∧
      nodeIdCodec.Reencodes fun id => id) ∧
    ((∀ id : ExpandedNodeId, id.Canonical → expandedNodeIdCodec.Returns id id) ∧
      expandedNodeIdCodec.Reencodes ExpandedNodeId.withoutEmptyUri) ∧
    ((∀ name : QualifiedName, name.Canonical → qualifiedNameCodec.Returns name name) ∧
      qualifiedNameCodec.Reencodes fun name => name) ∧
    ((∀ text : LocalizedText, text.Canonical → localizedTextCodec.Returns text text) ∧
      localizedTextCodec.Reencodes fun text => text) := by
  have name_decoded {name : QualifiedName} (canonical : name.Canonical) : name.decoded = name := by
    rw [QualifiedName.decoded, UaString.Canonical.decoded_eq canonical]
  have text_decoded {text : LocalizedText} (canonical : text.Canonical) : text.decoded = text := by
    rw [LocalizedText.decoded, canonical.1.decoded_eq, canonical.2.decoded_eq]
  refine ⟨⟨?_, ?_⟩, ⟨?_, ?_⟩, ⟨?_, ?_⟩, ⟨?_, ?_⟩, ?_, ?_⟩
  · intro text canonical
    exact Codec.returns_same canonical.decoded_eq
  · refine Codec.reencodes fun input pos backed success => ?_
    obtain ⟨canonical, accepted⟩ := stringDecodeBinary_received backed success
    exact ⟨accepted, canonical.decoded_eq⟩
  · intro id canonical
    exact Codec.returns_same canonical.decoded_eq
  · refine Codec.reencodes fun input pos backed success => ?_
    obtain ⟨canonical, accepted⟩ := nodeIdDecodeBinary_received backed success
    exact ⟨accepted, canonical.decoded_eq⟩
  · intro id canonical
    exact Codec.returns_same canonical.decoded_eq
  · refine Codec.reencodes fun input pos backed success => ?_
    obtain ⟨node, uri, accepted⟩ := expandedNodeIdDecodeBinary_received backed success
    exact ⟨accepted, ExpandedNodeId.decoded_received node uri⟩
  · intro name canonical
    exact Codec.returns_same (name_decoded canonical)
  · refine Codec.reencodes fun input pos backed success => ?_
    obtain ⟨canonical, accepted⟩ := qualifiedNameDecodeBinary_received backed success
    exact ⟨accepted, name_decoded canonical⟩
  · intro text canonical
    exact Codec.returns_same (text_decoded canonical)
  · refine Codec.reencodes fun input pos backed success => ?_
    obtain ⟨canonical, accepted⟩ := localizedTextDecodeBinary_received backed success
    exact ⟨accepted, text_decoded canonical⟩

theorem namedId_roundTrip :
    nodeIdCodec.Returns ⟨2, .string (.alloc [65])⟩ ⟨2, .string (.alloc [65])⟩ := by
  refine identifiers_roundTrip.2.1.1 _ ?_
  rintro text (same | same) <;> cases same
  exact nofun

def emptyUriId : ExpandedNodeId := ⟨⟨0, .numeric 1⟩, .empty, 0⟩

def plainInput (bytes : List Byte) : Input := ⟨bytes, bytes.length, sampleEnv, encodingMaxRecursion⟩

/-- The URI is not written, and what was decoded from its bytes is written without it. -/
theorem emptyUri_lost : expandedNodeIdEncodeBinary emptyUriId (singleBuffer 16) =
        (good, { singleBuffer 16 with out := [0, 1] }) ∧
      (expandedNodeIdDecodeBinary (plainInput [0, 1]) 0).value =
        { emptyUriId with namespaceUri := .null } ∧
      (expandedNodeIdDecodeBinary (plainInput [0x80, 1, 0, 0, 0, 0]) 0).status = good ∧
      (expandedNodeIdDecodeBinary (plainInput [0x80, 1, 0, 0, 0, 0]) 0).value = emptyUriId := by
  refine ⟨?_, ?_, ?_, ?_⟩ <;> decide

end OpcUa
