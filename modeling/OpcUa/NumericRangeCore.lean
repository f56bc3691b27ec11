import OpcUa.AttributeCore
import OpcUa.Library.DecimalText

/-!
`UA_NumericRange_parseFromString` with the array of dimensions that grows while it reads, and what
a text says that is written as a range. A read behind the text or a write behind the array has no
result.
-/

namespace OpcUa

open LittleEndian StatusCode

structure RangeParse where
  dimensions : List NumericRangeDimension
  dimensionsMax : Nat
  offset : Nat

/-- There is memory for an array of the given size, or there is none. -/
def parseDimensions (memory : Nat → Bool) (str : List Byte) :
    Nat → RangeParse → Option (StatusCode × List NumericRangeDimension)
  | 0, _ => none
  | left + 1, ⟨dimensions, dimensionsMax, offset⟩ =>
    let full := dimensions.length ≥ dimensionsMax
    if full ∧ !memory (dimensionsMax + 2) then some (badOutOfMemory, dimensions)
    else
      let dimensionsMax := if full then dimensionsMax + 2 else dimensionsMax
      if dimensions.length ≥ dimensionsMax ∨ offset > str.length then none
      else
        match readDimension (str.drop offset) with
        | none => some (badIndexRangeInvalid, dimensions)
        | some (progress, dim) =>
          let offset := offset + progress
          let dimensions := dimensions ++ [dim]
          if offset ≥ str.length then some (good, dimensions)
          else do
            let separator ← str[offset]?
            if separator ≠ 44 then some (badIndexRangeInvalid, dimensions)
            else parseDimensions memory str left ⟨dimensions, dimensionsMax, offset + 1⟩

/-- `UA_NumericRange_parseFromString`, with the range if one is set. -/
def parseFromString (memory : Nat → Bool) (str : UaString) :
    Option (StatusCode × Option (List NumericRangeDimension)) := do
  let (retval, dimensions) ← parseDimensions memory str.bytes (str.length + 1) ⟨[], 0, 0⟩
  if retval = good ∧ dimensions.length > 0 then some (retval, some dimensions)
  else some (retval, none)

/-! Ranges as they are written -/

/-- The digits of a number, or of two numbers with a colon between them. -/
inductive DimensionText where
  | index (digits : List Byte)
  | bounds (low high : List Byte)

namespace DimensionText

def text : DimensionText → List Byte
  | index digits => digits
  | bounds low high => low ++ 58 :: high

def low : DimensionText → Nat
  | index digits => DecimalText.value digits
  | bounds low _ => DecimalText.value low

def high : DimensionText → Nat
  | index digits => DecimalText.value digits
  | bounds _ high => DecimalText.value high

def WellFormed : DimensionText → Prop
  | index digits => DecimalText.Numeral digits
  | bounds low high => DecimalText.Numeral low ∧ DecimalText.Numeral high

/-- The numbers fit their words, and the second one is greater than the first. -/
def Proper (dim : DimensionText) : Prop :=
  dim.low < 2 ^ 32 ∧ dim.high < 2 ^ 32 ∧
    match dim with
    | index _ => True
    | bounds low high => DecimalText.value low < DecimalText.value high

def dimension (dim : DimensionText) : NumericRangeDimension :=
  ⟨BitVec.ofNat 32 dim.low, BitVec.ofNat 32 dim.high⟩

def Ascends (dim : DimensionText) : Prop :=
  match dim with
  | index _ => True
  | bounds _ _ => dim.low % 2 ^ 32 < dim.high % 2 ^ 32

instance : DecidablePred Ascends
  | index _ => .isTrue trivial
  | bounds _ _ => inferInstanceAs (Decidable (_ < _))

end DimensionText

def rangeText (first : DimensionText) (more : List DimensionText) : List Byte :=
  first.text ++ more.flatMap fun dim => 44 :: dim.text

def printDimension (dim : NumericRangeDimension) : DimensionText :=
  if dim.min = dim.max then .index (DecimalText.print dim.min.toNat)
  else .bounds (DecimalText.print dim.min.toNat) (DecimalText.print dim.max.toNat)

/-- The text is a list of dimensions of numbers below 2^32, and the range has their bounds. -/
def Describes (text : List Byte) (range : List NumericRangeDimension) : Prop :=
  ∃ first more, (∀ dim ∈ first :: more, dim.WellFormed ∧ dim.Proper) ∧
    text = rangeText first more ∧ range = (first :: more).map DimensionText.dimension

/-- The text is a list of dimensions, and a number in it does not fit its word, but what is left of
the numbers ascends. -/
def Overflows (text : List Byte) : Prop :=
  ∃ first more, (∀ dim ∈ first :: more, dim.WellFormed ∧ dim.Ascends) ∧
    text = rangeText first more ∧
    ∃ dim ∈ first :: more, 2 ^ 32 ≤ dim.low ∨ 2 ^ 32 ≤ dim.high

def ParsedAsDescribed (text : List Byte) (status : StatusCode)
    (range : Option (List NumericRangeDimension)) : Prop :=
  (status = good ↔ ∃ described, Describes text described) ∧
    ∀ described, Describes text described → range = some described

end OpcUa
