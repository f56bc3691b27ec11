import OpcUa.LeafRoundTrip

/-!
DiagnosticInfos through `DiagnosticInfo_encodeBinary` and `DiagnosticInfo_decodeBinary`.
The encoder announces the inner diagnostic info with the bit the decoder takes for the
inner status code, and it has no bit for the inner status code itself.
-/

namespace OpcUa

open LittleEndian StatusCode

/-! Equality, with strings compared by `UA_String_equal`. -/

def UaString.equal (first second : UaString) : Bool := first.bytes == second.bytes

def optionEqual {α : Type} (equal : α → α → Bool) : Option α → Option α → Bool
  | none, none => true
  | some first, some second => equal first second
  | _, _ => false

def DiagnosticFields.equal (first second : DiagnosticFields) : Bool :=
  first.symbolicId == second.symbolicId && first.namespaceUri == second.namespaceUri &&
    first.localizedText == second.localizedText && first.locale == second.locale &&
    optionEqual UaString.equal first.additionalInfo second.additionalInfo &&
    first.innerStatusCode == second.innerStatusCode

def DiagnosticInfo.equal : DiagnosticInfo → DiagnosticInfo → Bool
  | .plain first, .plain second => first.equal second
  | .nested first inner, .nested second innerToo => first.equal second && inner.equal innerToo
  | _, _ => false

def DiagnosticInfo.hasInnerDiagnosticInfo : DiagnosticInfo → Bool
  | .plain _ => false
  | .nested _ _ => true

def DiagnosticInfo.fields : DiagnosticInfo → DiagnosticFields
  | .plain fields => fields
  | .nested fields _ => fields

def DiagnosticInfo.hasInnerStatusCode (info : DiagnosticInfo) : Bool :=
  info.fields.innerStatusCode.isSome

theorem UaString.equal_decoded (text : UaString) : text.decoded.equal text = true := by
  cases text with
  | null => rfl
  | empty => rfl
  | alloc bytes => cases bytes <;> simp [UaString.decoded, UaString.equal, UaString.bytes]

theorem DiagnosticFields.equal_decoded (fields : DiagnosticFields) :
    fields.decoded.equal fields = true := by
  cases additional : fields.additionalInfo with
  | none => simp [DiagnosticFields.equal, DiagnosticFields.decoded, additional, optionEqual]
  | some text =>
    simp [DiagnosticFields.equal, DiagnosticFields.decoded, additional, optionEqual,
      UaString.equal_decoded]

def decodesTo (env : TypeEnv) (bytes : List Byte) (fuel depth : Nat) (info : DiagnosticInfo) : Prop :=
  let result := diagnosticInfoDecodeBinary ⟨bytes, bytes.length, env, encodingMaxRecursion⟩
    fuel depth 0
  result.status = good ∧ result.pos = bytes.length ∧ result.value.equal info = true

section Values

variable {α β : Type} (input : Input)

@[simp] theorem Res.map_value (convert : α → β) (first : Res α) :
    (first.map convert).value = convert first.value := rfl

@[simp] theorem Res.thenOr_value (first : Res α) (next : α → Nat → Res β) :
    (first.thenOr next).value = (next first.value first.pos).value := rfl

theorem diagnosticFieldsDecodeBinary_noStatus (mask : Byte) (pos : Nat)
    (unset : testBit mask 0x20 = false) :
    (diagnosticFieldsDecodeBinary input mask pos).value.innerStatusCode = none := by
  simp only [diagnosticFieldsDecodeBinary, Res.thenOr_value, Res.map_value]
  rw [decodeWhen, unset]
  rfl

theorem diagnosticInfoDecodeBinary_value (mask : Byte) (fuel depth pos : Nat)
    (holds : input.Holds pos [mask]) (unset : testBit mask 0x40 = false) :
    (diagnosticInfoDecodeBinary input (fuel + 1) depth pos).value =
      .plain (diagnosticFieldsDecodeBinary input mask (pos + 1)).value := by
  rw [diagnosticInfoDecodeBinary, byteDecodeBinary_reads input mask pos holds, Res.ok_thenCheck]
  simp only [unset, Bool.false_eq_true, ↓reduceIte]
  rfl

end Values

theorem diagnosticInfoWire_head (info : DiagnosticInfo) : ∃ rest, diagnosticInfoWire info =
      diagnosticInfoMask info.fields info.hasInnerDiagnosticInfo :: rest := by
  cases info with
  | plain fields => exact ⟨_, rfl⟩
  | nested fields inner => exact ⟨_, rfl⟩

/-- A DiagnosticInfo the encoder accepts survives the round trip exactly if it has neither
an inner status code nor an inner diagnostic info. -/
theorem diagnosticInfo_roundTrip_iff (env : TypeEnv) (info : DiagnosticInfo)
    (size encodeDepth fuel decodeDepth : Nat)
    (accepted : (diagnosticInfoEncodeBinary info encodeDepth (singleBuffer size)).1 = good) :
    decodesTo env (diagnosticInfoEncodeBinary info encodeDepth (singleBuffer size)).2.out
        (fuel + 1) decodeDepth info ↔
      info.hasInnerStatusCode = false ∧ info.hasInnerDiagnosticInfo = false := by
  obtain ⟨holdsToo, written, -⟩ := (diagnosticInfoEncodeBinary_writes info encodeDepth).good_only
    (singleBuffer size) rfl (Nat.zero_le _) accepted
  have bytes : (diagnosticInfoEncodeBinary info encodeDepth (singleBuffer size)).2.out =
      diagnosticInfoWire info := by
    rw [written]
    simp [singleBuffer]
  rw [bytes, decodesTo]
  generalize inputIs : (⟨diagnosticInfoWire info, (diagnosticInfoWire info).length, env,
    encodingMaxRecursion⟩ : Input) = input
  have whole : input.Holds 0 (diagnosticInfoWire info) := by
    rw [← inputIs]
    exact Input.holds_self _ _ _
  constructor
  · rintro ⟨-, -, same⟩
    obtain ⟨rest, shape⟩ := diagnosticInfoWire_head info
    have bits := diagnosticInfoMask_bits info.fields info.hasInnerDiagnosticInfo
    rw [shape] at whole
    rw [diagnosticInfoDecodeBinary_value input _ fuel decodeDepth 0 whole.cons.1
      bits.2.2.2.2.2.2] at same
    cases info with
    | nested fields inner => simp [DiagnosticInfo.equal] at same
    | plain fields =>
      refine ⟨?_, rfl⟩
      simp only [DiagnosticInfo.equal, DiagnosticFields.equal, Bool.and_eq_true, beq_iff_eq,
        diagnosticFieldsDecodeBinary_noStatus input _ _ bits.2.2.2.2.2.1] at same
      simp [DiagnosticInfo.hasInnerStatusCode, DiagnosticInfo.fields, ← same.2]
  · rintro ⟨noStatus, noInner⟩
    cases info with
    | nested fields inner => simp [DiagnosticInfo.hasInnerDiagnosticInfo] at noInner
    | plain fields =>
      have absent : fields.innerStatusCode = none := by
        simpa [DiagnosticInfo.hasInnerStatusCode, DiagnosticInfo.fields] using noStatus
      have decoded := diagnosticInfoDecodeBinary_reads input fields fuel decodeDepth holdsToo
        absent 0 whole
      rw [decoded]
      exact ⟨rfl, by simp [Res.ok], DiagnosticFields.equal_decoded fields⟩

def sampleDiagnosticInfo : DiagnosticInfo :=
  .plain ⟨some 7, none, none, none, some (.alloc [65, 66]), none⟩

theorem sampleDiagnosticInfo_roundTrip : decodesTo sampleEnv
      (diagnosticInfoEncodeBinary sampleDiagnosticInfo 0 (singleBuffer 64)).2.out 22 0
      sampleDiagnosticInfo :=
  (diagnosticInfo_roundTrip_iff sampleEnv sampleDiagnosticInfo 64 0 21 0 (by decide)).mpr ⟨rfl, rfl⟩

def statusDiagnosticInfo : DiagnosticInfo :=
  .plain ⟨none, none, none, none, none, some 0x80000000⟩

/-- The inner status code is written but not announced: the decoder stops in front of it. -/
theorem statusDiagnosticInfo_lost :
    (diagnosticInfoEncodeBinary statusDiagnosticInfo 0 (singleBuffer 64)).1 = good ∧
      ¬decodesTo sampleEnv
        (diagnosticInfoEncodeBinary statusDiagnosticInfo 0 (singleBuffer 64)).2.out 22 0
        statusDiagnosticInfo := by
  unfold decodesTo
  decide

end OpcUa
