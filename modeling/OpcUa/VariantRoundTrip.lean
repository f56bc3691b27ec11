import OpcUa.RoundTrip

/-!
Variants through `UA_encodeBinary` and `UA_decodeBinary`.
-/

namespace OpcUa

open LittleEndian StatusCode

def Value.contentType : Value → Option DataType
  | .variantScalar type _ _ => some type
  | .variantArray type _ _ _ => some type
  | _ => none

/-- A Variant comes back with its shape, dimensions and values; see `decodedValue` for the
form it has then. -/
theorem variant_roundTrip (env : TypeEnv) (value : Value) (size : Nat)
    (wellFormed : env.WellFormed) (typed : Value.hasType env value variantType = true)
    (parses : parsable env value variantType = true)
    (shallow : nesting env value variantType ≤ encodingMaxRecursion)
    (encoded : (uaEncodeBinary env value variantType (singleBuffer size)).1 = good) :
    uaDecodeBinary env (uaEncodeBinary env value variantType (singleBuffer size)).2.out 0
        variantType =
      ⟨good, some (decodedValue env value variantType),
        (uaEncodeBinary env value variantType (singleBuffer size)).2.out.length, false⟩ := by
  have notStruct : value.isStruct = false := by
    have kind := typed_builtin typed
    cases struct : value.isStruct with
    | false => rfl
    | true =>
      rw [struct] at kind
      cases kind
  refine (uaDecodeBinaryFrom_encoded wellFormed encodingMaxRecursion (describes_row env (by decide))
    typed parses encoded).1 ?_
  simp only [rootNesting, notStruct, Bool.false_eq_true, ↓reduceIte]
  omega

def nodeClassArray : Value :=
  .variantArray nodeClassType false [.leaf (.uint32 1), .leaf (.uint32 2)] [2, 1]

theorem nodeClassArray_roundTrip : uaDecodeBinary sampleEnv
        (uaEncodeBinary sampleEnv nodeClassArray variantType (singleBuffer 64)).2.out 0 variantType =
      ⟨good, some (.variantArray int32Type false [.leaf (.uint32 1), .leaf (.uint32 2)] [2, 1]),
        25, false⟩ :=
  variant_roundTrip sampleEnv nodeClassArray 64 sampleEnv_wellFormed (by decide) (by decide)
    (by decide) (by decide)

def argumentObject : Value :=
  .variantScalar extensionObjectType (.extensionObject false argumentType
      (.struct [.leaf (.string .null), .leaf (.nodeId .null), .leaf (.uint32 0), .array true [],
        .leaf (.localizedText ⟨.null, .null⟩)])) []

def variantInVariant : Value :=
  .variantScalar variantType (.variantScalar byteType (.leaf (.byte 1)) []) []

def anonymousToken : Value :=
  .variantScalar anonymousIdentityTokenType (.struct [.leaf (.string (.alloc [65]))]) []

/-- The encoder accepts all three. The ExtensionObject is taken off its content, the inner
Variant is refused, and the structure comes back as its member. -/
theorem variant_roundTrip_changes : (∀ value ∈ [argumentObject, variantInVariant, anonymousToken],
      Value.hasType sampleEnv value variantType = true ∧
        (uaEncodeBinary sampleEnv value variantType (singleBuffer 64)).1 = good) ∧
      (uaDecodeBinary sampleEnv
        (uaEncodeBinary sampleEnv argumentObject variantType (singleBuffer 64)).2.out 0
        variantType).dst.bind Value.contentType = some argumentType ∧
      (uaDecodeBinary sampleEnv
        (uaEncodeBinary sampleEnv variantInVariant variantType (singleBuffer 64)).2.out 0
        variantType).status = badDecodingError ∧
      (uaDecodeBinary sampleEnv
        (uaEncodeBinary sampleEnv anonymousToken variantType (singleBuffer 64)).2.out 0
        variantType).dst.bind Value.contentType = some stringType := by
  refine ⟨?_, by decide, by decide, by decide⟩
  intro value inside
  simp only [List.mem_cons, List.not_mem_nil, or_false] at inside
  rcases inside with rfl | rfl | rfl <;> decide

end OpcUa
