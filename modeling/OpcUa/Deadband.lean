import OpcUa.AttributeCore
import OpcUa.Library.FloatRounding

/-!
The absolute deadband of a data change filter. The difference of two integers is taken in the type
that C promotes the operands to, where a signed difference that does not fit wraps around, and then
compared as a double.
-/

namespace OpcUa

open FloatRounding

inductive IntegerType where
  | sByte
  | byte
  | int16
  | uint16
  | int32
  | uint32
  | int64
  | uint64
deriving DecidableEq, Repr

namespace IntegerType

def all : List IntegerType := [sByte, byte, int16, uint16, int32, uint32, int64, uint64]

def type : IntegerType → DataType
  | sByte => builtinType 1 1 true
  | byte => byteType
  | int16 => builtinType 3 2 true
  | uint16 => uint16Type
  | int32 => int32Type
  | uint32 => uint32Type
  | int64 => builtinType 7 8 true
  | uint64 => uint64Type

def isSigned : IntegerType → Bool
  | sByte => true
  | int16 => true
  | int32 => true
  | int64 => true
  | _ => false

def width : IntegerType → Nat
  | sByte => 8
  | byte => 8
  | int16 => 16
  | uint16 => 16
  | int32 => 32
  | uint32 => 32
  | _ => 64

section

variable (kind : IntegerType)

/-- An operand that is narrower than an `int` becomes one. -/
def promotedSigned : Bool := kind.isSigned || kind.width < 32

def promotedWidth : Nat := max 32 kind.width

def limit : Nat :=
  if kind.promotedSigned then 2 ^ (kind.promotedWidth - 1) else 2 ^ kind.promotedWidth

def interpret {size : Nat} (raw : BitVec size) : Int :=
  if kind.isSigned then raw.toInt else raw.toNat

def read : Value → Option Int
  | .leaf (.byte raw) => if kind.width = 8 then some (kind.interpret raw) else none
  | .leaf (.uint16 raw) => if kind.width = 16 then some (kind.interpret raw) else none
  | .leaf (.uint32 raw) => if kind.width = 32 then some (kind.interpret raw) else none
  | .leaf (.uint64 raw) => if kind.width = 64 then some (kind.interpret raw) else none
  | _ => none

def readAt (data : List Value) (index : Nat) : Option Int :=
  data[index]?.bind kind.read

def subtract (first second : Int) : Int :=
  if kind.promotedSigned then (first - second).bmod (2 ^ kind.promotedWidth)
  else (first - second) % 2 ^ kind.promotedWidth

def absSubtract (first second : Int) : Int :=
  if first > second then kind.subtract first second else kind.subtract second first

end

end IntegerType

def floatType : DataType := builtinType 9 4 true

section Filter

-- The comparison of two floats or doubles is an argument.
variable (floating : DataType → Value → Value → BitVec 64 → Bool)

/-- `outOfDeadBand` for the elements at an index. Other types are always out of the deadband, and
their elements are not read. -/
def outOfDeadBand (data1 data2 : List Value) (index : Nat) (type : DataType)
    (deadbandValue : BitVec 64) : Option Bool :=
  match IntegerType.all.find? (·.type = type) with
  | some kind => do
    let first ← kind.readAt data1 index
    let second ← kind.readAt data2 index
    return !Double.atMost (Double.ofInt (kind.absSubtract first second)) deadbandValue
  | none =>
    if type = floatType ∨ type = doubleType then do
      return floating type (← data1[index]?) (← data2[index]?) deadbandValue
    else some true

def anyOutOfDeadBand (data1 data2 : List Value) (type : DataType) (deadbandValue : BitVec 64) :
    List Nat → Option Bool
  | [] => some false
  | index :: rest => do
    if ← outOfDeadBand floating data1 data2 index type deadbandValue then return true
    else anyOutOfDeadBand data1 data2 type deadbandValue rest

def updateNeededForFilteredValue (value oldValue : Value) (deadbandValue : BitVec 64) :
    Option Bool :=
  if value.arrayLength ≠ oldValue.arrayLength then some true
  else if value.variantType ≠ oldValue.variantType then some true
  else
    match value.variantType with
    | none => some false
    | some type =>
      let data := rangeElements value
      let oldData := rangeElements oldValue
      if value.isScalar then outOfDeadBand floating data oldData 0 type deadbandValue
      else anyOutOfDeadBand floating data oldData type deadbandValue (List.range value.arrayLength)

end Filter

namespace IntegerType

variable {kind : IntegerType}

theorem find_type (kind : IntegerType) : all.find? (·.type = kind.type) = some kind := by
  cases kind <;> decide

def Fits (kind : IntegerType) (number : Int) : Prop :=
  if kind.isSigned then -2 ^ (kind.width - 1) ≤ number ∧ number < 2 ^ (kind.width - 1)
  else 0 ≤ number ∧ number < 2 ^ kind.width

theorem interpret_fits {size : Nat} (kind : IntegerType) (same : kind.width = size)
    (raw : BitVec size) : kind.Fits (kind.interpret raw) := by
  subst same
  unfold Fits interpret
  by_cases signed : kind.isSigned = true
  · rw [if_pos signed, if_pos signed]
    exact ⟨BitVec.le_toInt raw, BitVec.toInt_lt⟩
  · rw [if_neg signed, if_neg signed]
    exact ⟨Int.natCast_nonneg _, by exact_mod_cast raw.isLt⟩

theorem read_fits {element : Value} {number : Int} (reads : kind.read element = some number) :
    kind.Fits number := by
  unfold read at reads
  split at reads
  all_goals try cases reads
  all_goals
    split at reads
    · rename_i same
      obtain rfl := Option.some.inj reads
      exact interpret_fits kind same _
    · cases reads

theorem readAt_fits {data : List Value} {index : Nat} {number : Int}
    (reads : kind.readAt data index = some number) : kind.Fits number := by
  obtain ⟨element, -, reads⟩ := Option.bind_eq_some_iff.mp reads
  exact read_fits reads

theorem subtract_eq {first second : Int} (one : kind.Fits first) (other : kind.Fits second)
    (order : second ≤ first) :
    kind.subtract first second =
      if first - second < kind.limit then first - second
      else first - second - 2 ^ kind.promotedWidth := by
  cases kind <;> simp only [Fits, subtract, limit, promotedSigned, promotedWidth, isSigned, width,
      Int.bmod_def] at * <;> norm_num at * <;> omega

theorem absSubtract_cases {first second : Int} (one : kind.Fits first) (other : kind.Fits second) :
    |first - second| < kind.limit ∧ kind.absSubtract first second = |first - second| ∨
      (kind.limit : Int) ≤ |first - second| ∧ kind.absSubtract first second < 0 := by
  have positive : |first - second| < 2 ^ kind.promotedWidth := by
    rw [abs_lt]
    cases kind <;> simp only [Fits, promotedWidth, isSigned, width] at * <;> norm_num at * <;> omega
  rw [absSubtract]
  by_cases order : first > second
  · rw [if_pos order, subtract_eq one other (by omega)]
    rw [abs_of_pos (by omega)] at positive ⊢
    split <;> omega
  · rw [if_neg order, subtract_eq other one (by omega)]
    rw [abs_sub_comm, abs_of_nonneg (by omega)] at positive ⊢
    split <;> omega

end IntegerType

open Double

def distance (first second : Int) : WithTop ℚ := ((|first - second| : Int) : ℚ)

def IntegerType.Compares (kind : IntegerType) (first second : Int) (deadbandValue : BitVec 64) : Prop :=
  |first - second| < kind.limit ∧
    (((round precision (first - second).natAbs : ℚ)) : WithTop ℚ) ≠ magnitude deadbandValue

theorem distance_eq (first second : Int) :
    distance first second = ((((first - second).natAbs : ℚ)) : WithTop ℚ) := by
  rw [distance, Int.abs_eq_natAbs, Int.cast_natCast]

section Distances

variable {floating : DataType → Value → Value → BitVec 64 → Bool} {kind : IntegerType}
  {deadbandValue : BitVec 64}
variable {data1 data2 : List Value} {index : Nat} {first second : Int}

section

variable (nonNegative : NonNegative deadbandValue) (reads : kind.readAt data1 index = some first)
  (readsOther : kind.readAt data2 index = some second)
include nonNegative reads readsOther

theorem outOfDeadBand_iff :
    outOfDeadBand floating data1 data2 index kind.type deadbandValue = some true ↔
      |first - second| < kind.limit ∧ magnitude deadbandValue <
        (((round precision (first - second).natAbs : ℚ)) : WithTop ℚ) := by
  have result : outOfDeadBand floating data1 data2 index kind.type deadbandValue =
      some (!atMost (ofInt (kind.absSubtract first second)) deadbandValue) := by
    simp [outOfDeadBand, kind.find_type, reads, readsOther]
  rw [result, Option.some.injEq, Bool.not_eq_true', ← Bool.not_eq_true, atMost_iff nonNegative,
    not_le]
  rcases IntegerType.absSubtract_cases (IntegerType.readAt_fits reads)
    (IntegerType.readAt_fits readsOther) with ⟨fits, same⟩ | ⟨large, wrapped⟩
  · rw [same, ofInt, Int.natAbs_abs]
    have sign : |first - second|.sign * (round precision (first - second).natAbs : Int) =
        round precision (first - second).natAbs := by
      rcases eq_or_lt_of_le (abs_nonneg (first - second)) with zero | positive
      · rw [abs_eq_zero.mp zero.symm]
        rfl
      · rw [Int.sign_eq_one_of_pos positive, one_mul]
    rw [sign, Int.cast_natCast]
    exact ⟨fun above => ⟨fits, above⟩, And.right⟩
  · refine ⟨fun above => ?_, fun both => absurd both.1 (by omega)⟩
    have negative : ofInt (kind.absSubtract first second) ≤ 0 := by
      rw [ofInt, Int.sign_eq_neg_one_of_neg wrapped]
      omega
    have least : (0 : WithTop ℚ) ≤ magnitude deadbandValue := by
      unfold magnitude
      split
      · exact le_top
      · exact_mod_cast div_nonneg (Nat.cast_nonneg _) (by positivity)
    have below : ((((ofInt (kind.absSubtract first second) : Int) : ℚ)) : WithTop ℚ) ≤ 0 := by
      exact_mod_cast negative
    exact absurd above (not_lt_of_ge (below.trans least))

theorem outOfDeadBand_right_iff :
    (outOfDeadBand floating data1 data2 index kind.type deadbandValue = some true ↔
        magnitude deadbandValue < distance first second) ↔
      distance first second ≤ magnitude deadbandValue ∨
        kind.Compares first second deadbandValue := by
  rw [outOfDeadBand_iff nonNegative reads readsOther, IntegerType.Compares]
  by_cases inside : distance first second ≤ magnitude deadbandValue
  · refine ⟨fun _ => .inl inside, fun _ => ?_⟩
    refine ⟨?_, fun above => absurd above (not_lt_of_ge inside)⟩
    rintro ⟨-, above⟩
    rw [distance_eq] at inside
    exact absurd above (not_lt_of_ge (round_le_magnitude inside))
  · have outside := lt_of_not_ge inside
    rw [or_iff_right inside, iff_true_right outside]
    refine and_congr_right fun _ => ?_
    rw [distance_eq] at outside
    exact (magnitude_le_round outside.le).lt_iff_ne'

end

theorem IntegerType.Compares.of_narrow (narrow : kind.width ≤ 32)
    (fits : |first - second| < kind.limit)
    (outside : magnitude deadbandValue < distance first second) :
    kind.Compares first second deadbandValue := by
  have limit : (kind.limit : Int) ≤ 2 ^ 32 := by
    cases kind <;> first | decide | exact absurd narrow (by decide)
  have small : (first - second).natAbs < 2 ^ precision := by
    rw [Int.abs_eq_natAbs] at fits
    unfold precision
    omega
  rw [distance_eq] at outside
  refine ⟨fits, ?_⟩
  rw [round_small (by decide) small]
  exact outside.ne'

theorem anyOutOfDeadBand_iff {type : DataType} {indices : List Nat} (known : ∀ index ∈ indices,
      (outOfDeadBand floating data1 data2 index type deadbandValue).isSome = true) :
    ∃ result, anyOutOfDeadBand floating data1 data2 type deadbandValue indices = some result ∧
      (result = true ↔ ∃ index ∈ indices,
        outOfDeadBand floating data1 data2 index type deadbandValue = some true) := by
  induction indices with
  | nil => exact ⟨false, rfl, by simp⟩
  | cons index rest ih =>
    obtain ⟨out, here⟩ := Option.isSome_iff_exists.mp (known index List.mem_cons_self)
    obtain ⟨result, goes, iff⟩ := ih fun other member => known other (List.mem_cons_of_mem _ member)
    cases out with
    | true =>
      refine ⟨true, by simp [anyOutOfDeadBand, here], ?_⟩
      simp [here]
    | false =>
      refine ⟨result, by simp [anyOutOfDeadBand, here, goes], ?_⟩
      simp [here, iff]

theorem outOfDeadBand_isSome (reads : (kind.readAt data1 index).isSome = true)
    (readsOther : (kind.readAt data2 index).isSome = true) :
    (outOfDeadBand floating data1 data2 index kind.type deadbandValue).isSome = true := by
  obtain ⟨first, here⟩ := Option.isSome_iff_exists.mp reads
  obtain ⟨second, there⟩ := Option.isSome_iff_exists.mp readsOther
  simp [outOfDeadBand, kind.find_type, here, there]

end Distances

def IntegerType.Stores (kind : IntegerType) (elements : List Value) : Prop :=
  ∀ element ∈ elements, (kind.read element).isSome = true

theorem IntegerType.Stores.readAt {kind : IntegerType} {elements : List Value}
    (stores : kind.Stores elements) {index : Nat} (inside : index < elements.length) :
    (kind.readAt elements index).isSome = true := by
  rw [IntegerType.readAt, List.getElem?_eq_getElem inside, Option.bind_some]
  exact stores _ (List.getElem_mem inside)

/-- Two numbers of a type are reported as the distance tells if and only if the distance is inside
the deadband, or it fits and does not become the deadband as a double. Two arrays are reported if
and only if the lengths or the elements at an index are. -/
theorem deadband_exact_iff (floating : DataType → Value → Value → BitVec 64 → Bool)
    (kind : IntegerType) {deadbandValue : BitVec 64} (nonNegative : NonNegative deadbandValue) :
    (∀ data1 data2 index first second, kind.readAt data1 index = some first →
      kind.readAt data2 index = some second →
      ((outOfDeadBand floating data1 data2 index kind.type deadbandValue = some true ↔
          magnitude deadbandValue < distance first second) ↔
        distance first second ≤ magnitude deadbandValue ∨
          kind.Compares first second deadbandValue)) ∧
    ∀ undefined elements dimensions oldUndefined oldElements oldDimensions,
      kind.Stores elements → kind.Stores oldElements →
      ∃ result, updateNeededForFilteredValue floating
          (.variantArray kind.type undefined elements dimensions)
          (.variantArray kind.type oldUndefined oldElements oldDimensions) deadbandValue =
            some result ∧
        (result = true ↔ elements.length ≠ oldElements.length ∨ ∃ index < elements.length,
          outOfDeadBand floating elements oldElements index kind.type deadbandValue =
            some true) := by
  refine ⟨fun _ _ _ _ _ reads other => outOfDeadBand_right_iff nonNegative reads other, ?_⟩
  intro undefined elements dimensions oldUndefined oldElements oldDimensions stores oldStores
  by_cases same : elements.length = oldElements.length
  · have known : ∀ index ∈ List.range elements.length, (outOfDeadBand floating elements oldElements
        index kind.type deadbandValue).isSome = true := by
      intro index member
      have inside := List.mem_range.mp member
      exact outOfDeadBand_isSome (stores.readAt inside) (oldStores.readAt (same ▸ inside))
    obtain ⟨result, ran, iff⟩ := anyOutOfDeadBand_iff known
    refine ⟨result, ?_, ?_⟩
    · rw [← ran, updateNeededForFilteredValue]
      simp [Value.arrayLength, Value.variantType, Value.isScalar, rangeElements, same]
    · simp [iff, same]
  · refine ⟨true, ?_, by simp [same]⟩
    simp [updateNeededForFilteredValue, Value.arrayLength, same]

instance (bits : BitVec 64) : Decidable (NonNegative bits) := inferInstanceAs (Decidable (_ ∧ _))

def anyFloatChanges : DataType → Value → Value → BitVec 64 → Bool := fun _ _ _ _ => true

/-- From -1 to the largest Int32 without a deadband, and from 0 to 2^53 + 1 with a deadband of
2^53. -/
theorem largeDistances_unreported :
    (outOfDeadBand anyFloatChanges [.leaf (.uint32 0x7FFFFFFF)] [.leaf (.uint32 0xFFFFFFFF)] 0
        IntegerType.int32.type 0 = some false ∧
      IntegerType.int32.readAt [.leaf (.uint32 0x7FFFFFFF)] 0 = some 2147483647 ∧
      IntegerType.int32.readAt [.leaf (.uint32 0xFFFFFFFF)] 0 = some (-1) ∧
      magnitude 0 < distance 2147483647 (-1)) ∧
    outOfDeadBand anyFloatChanges [.leaf (.uint64 0x20000000000001)] [.leaf (.uint64 0)] 0
        IntegerType.uint64.type 0x4340000000000000 = some false ∧
      IntegerType.uint64.readAt [.leaf (.uint64 0x20000000000001)] 0 = some 9007199254740993 ∧
      IntegerType.uint64.readAt [.leaf (.uint64 0)] 0 = some 0 ∧
      magnitude 0x4340000000000000 < distance 9007199254740993 0 := by
  refine ⟨⟨by decide +kernel, by decide, by decide, ?_⟩, by decide +kernel, by decide, by decide, ?_⟩
  · rw [distance, ← not_le, ← atMost_iff (by decide)]
    decide +kernel
  · rw [distance, ← not_le, ← atMost_iff (by decide +kernel)]
    decide +kernel

theorem byteChange_reported : outOfDeadBand anyFloatChanges [.leaf (.byte 9)] [.leaf (.byte 3)] 0
    IntegerType.byte.type 0x4000000000000000 = some true := by
  have nonNegative : NonNegative 0x4000000000000000 := by decide +kernel
  have outside : magnitude 0x4000000000000000 < distance 9 3 := by
    rw [distance, ← not_le, ← atMost_iff nonNegative]
    decide +kernel
  have compares : IntegerType.byte.Compares 9 3 0x4000000000000000 :=
    .of_narrow (by decide) (by decide) outside
  have exact := (deadband_exact_iff anyFloatChanges .byte nonNegative).1 [.leaf (.byte 9)]
    [.leaf (.byte 3)] 0 9 3 (by decide) (by decide)
  exact (exact.mpr (.inr compares)).mpr outside

end OpcUa
