import OpcUa.VariantRoundTrip

/-!
DataValues through the encoder and the decoder, and the picoseconds of a decoded one.
-/

namespace OpcUa

open LittleEndian StatusCode

structure DataValueInfo.Clamped (info : DataValueInfo) : Prop where
  source : ∀ part ∈ info.sourcePicoseconds, part.toNat ≤ maxPicoSeconds
  server : ∀ part ∈ info.serverPicoseconds, part.toNat ≤ maxPicoSeconds

theorem clampPicoSeconds_le (part : BitVec 16) : (clampPicoSeconds part).toNat ≤ maxPicoSeconds := by
  rw [clampPicoSeconds]
  split
  · exact Nat.le_refl _
  · rename_i short
    exact Nat.le_of_not_gt short

theorem clampPicoSeconds_eq {part : BitVec 16} (short : part.toNat ≤ maxPicoSeconds) :
    clampPicoSeconds part = part := by
  rw [clampPicoSeconds, if_neg (Nat.not_lt_of_le short)]

theorem DataValueInfo.Clamped.decoded_eq {info : DataValueInfo} (clamped : info.Clamped) :
    info.decoded = info := by
  have same {field : Option (BitVec 16)} (short : ∀ part ∈ field, part.toNat ≤ maxPicoSeconds) :
      field.map clampPicoSeconds = field := by
    cases field with
    | none => rfl
    | some part => exact congrArg some (clampPicoSeconds_eq (short part rfl))
  rw [DataValueInfo.decoded, same clamped.source, same clamped.server]

theorem dataValueDecodeBinary_clamped {input : Input} {jump : Nat → DataType → Nat → Res Value}
    {depth pos : Nat} (success : (dataValueDecodeBinary input jump depth pos).status = good) :
    ∃ info hasValue value, info.Clamped ∧
      (dataValueDecodeBinary input jump depth pos).value = .dataValue info hasValue value := by
  have clamped (field : Option (BitVec 16)) :
      ∀ part ∈ field.map clampPicoSeconds, part.toNat ≤ maxPicoSeconds := by
    intro part member
    obtain ⟨raw, -, rfl⟩ := Option.mem_map.mp member
    exact clampPicoSeconds_le raw
  rw [dataValueDecodeBinary] at success ⊢
  obtain ⟨-, passes, -, same⟩ := Res.thenCheck_good success
  rw [same]
  split at passes
  · exact absurd passes badEncodingError_ne_good
  · rename_i inside
    rw [if_neg inside]
    exact ⟨_, _, _, ⟨clamped _, clamped _⟩, rfl⟩

/-- A DataValue comes back with its flags and fields, the value as Variants do. All picoseconds that
are decoded are at most 9999. -/
theorem dataValue_roundTrip (env : TypeEnv) (wellFormed : env.WellFormed) :
    (∀ info hasValue value size, info.Clamped →
      Value.hasType env (.dataValue info hasValue value) dataValueType = true →
      parsable env (.dataValue info hasValue value) dataValueType = true →
      nesting env (.dataValue info hasValue value) dataValueType ≤ encodingMaxRecursion →
      (uaEncodeBinary env (.dataValue info hasValue value) dataValueType (singleBuffer size)).1 =
        good →
      uaDecodeBinary env (uaEncodeBinary env (.dataValue info hasValue value) dataValueType
            (singleBuffer size)).2.out 0 dataValueType =
        ⟨good, some (.dataValue info hasValue
            (if hasValue then decodedValue env value variantType else .variantEmpty)),
          (uaEncodeBinary env (.dataValue info hasValue value) dataValueType
            (singleBuffer size)).2.out.length, false⟩) ∧
    (∀ input fuel depth pos,
      (dataValueDecodeBinary input (decodeBinaryJump input fuel) depth pos).status = good →
      ∃ info hasValue value, info.Clamped ∧
        (dataValueDecodeBinary input (decodeBinaryJump input fuel) depth pos).value =
          .dataValue info hasValue value) := by
  refine ⟨?_, fun input fuel depth pos success => dataValueDecodeBinary_clamped success⟩
  intro info hasValue value size clamped typed parses shallow encoded
  have whole := (uaDecodeBinaryFrom_encoded wellFormed encodingMaxRecursion
    (describes_row env (by decide)) typed parses encoded).1 (Nat.succ_le_succ shallow)
  rw [decodedValue, clamped.decoded_eq] at whole
  exact whole

def fullInfo : DataValueInfo := ⟨some 0x80000000, some 1, some 9999, some 2, some 10⟩

theorem fullInfo_clamped : fullInfo.Clamped := by
  constructor <;> rintro part ⟨⟩ <;> decide

def byteVariant : Value := .variantScalar byteType (.leaf (.byte 7)) []

theorem fullDataValue_roundTrip : uaDecodeBinary sampleEnv
        (uaEncodeBinary sampleEnv (.dataValue fullInfo true byteVariant) dataValueType
          (singleBuffer 64)).2.out 0 dataValueType =
      ⟨good, some (.dataValue fullInfo true byteVariant),
        (uaEncodeBinary sampleEnv (.dataValue fullInfo true byteVariant) dataValueType
          (singleBuffer 64)).2.out.length, false⟩ := by
  have same : decodedValue sampleEnv byteVariant variantType = byteVariant := rfl
  have whole := (dataValue_roundTrip sampleEnv sampleEnv_wellFormed).1 fullInfo true byteVariant 64
    fullInfo_clamped (by decide) (by decide) (by decide) (by decide)
  rw [if_pos rfl, same] at whole
  exact whole

def DecodeResult.dataValueContent (result : DecodeResult) : Option DataType :=
  result.dst.bind fun decoded =>
    match decoded with
    | .dataValue _ _ value => value.contentType
    | _ => none

/-- A Variant in the Variant is written and refused, and an ExtensionObject is taken off its
content. -/
theorem dataValue_changes : (∀ value ∈ [variantInVariant, argumentObject],
      (uaEncodeBinary sampleEnv (.dataValue ⟨none, none, none, none, none⟩ true value)
        dataValueType (singleBuffer 64)).1 = good) ∧
      (uaDecodeBinary sampleEnv
        (uaEncodeBinary sampleEnv (.dataValue ⟨none, none, none, none, none⟩ true variantInVariant)
          dataValueType (singleBuffer 64)).2.out 0 dataValueType).status = badDecodingError ∧
      (uaDecodeBinary sampleEnv
        (uaEncodeBinary sampleEnv (.dataValue ⟨none, none, none, none, none⟩ true argumentObject)
          dataValueType (singleBuffer 64)).2.out 0 dataValueType).dataValueContent =
            some argumentType := by
  refine ⟨?_, by decide, by decide⟩
  intro value inside
  simp only [List.mem_cons, List.not_mem_nil, or_false] at inside
  rcases inside with rfl | rfl <;> decide

end OpcUa
