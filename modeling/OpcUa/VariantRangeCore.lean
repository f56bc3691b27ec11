import OpcUa.AttributeCore
import OpcUa.TypeTable

/-!
Reading and writing a range of a variant in `ua_types.c`. The new arrays find their memory. The
copy of an element may fail, which leaves the element zeroed.
-/

namespace OpcUa

open LittleEndian StatusCode

/-- What the type descriptions, the memory layout and the memory say about elements: the types
without pointers, the zeroed element of a type, the bytes of an element, and which copies of a call
find memory. -/
structure ElementMemory where
  pointerFree : DataType → Bool
  null : DataType → Value
  bytes : Value → List Byte
  found : Nat → Value → Bool

def xmlElementType : DataType := builtinType 15 16 false

def isStringLike (type : DataType) : Bool :=
  type = stringType || type = byteStringType || type = xmlElementType

def copySubString (src : Value) (dim : NumericRangeDimension) : Except StatusCode Value :=
  match src with
  | .leaf (.string text) =>
    if dim.min > dim.max then throw badIndexRangeInvalid
    else if dim.min.toNat ≥ text.length then throw badIndexRangeNoData
    else
      let length := if dim.max.toNat < text.length then dim.max.toNat - dim.min.toNat + 1
        else text.length - dim.min.toNat
      return .leaf (.string (.alloc ((text.bytes.drop dim.min.toNat).take length)))
  | value => return value

def readBlocks {Element : Type} (strides : Strides) : Nat → Nat → List Element → List Element
  | 0, _, _ => []
  | left + 1, nextsrc, elements =>
    (elements.drop nextsrc).take strides.block
      ++ readBlocks strides left (nextsrc + strides.stride) elements

namespace ElementMemory

variable (memory : ElementMemory)

def copies (type : DataType) (elements : List Value) : List Value :=
  elements.mapIdx fun index element =>
    if memory.found index element then element else memory.null type

def copyResults (elements : List Value) : List StatusCode :=
  elements.mapIdx fun index element => if memory.found index element then good else badOutOfMemory

section

variable (inner : Value → List NumericRangeDimension → Except StatusCode Value)

/-- The loops of `UA_Variant_copyRange`. Without a next range the result of the last copy counts. -/
def copyContent (type : DataType) (elements : List Value) (nextrange : List NumericRangeDimension) :
    Except StatusCode (List Value) :=
  match nextrange with
  | [] =>
    if memory.pointerFree type then return elements
    else
      let retval := (memory.copyResults elements).getLastD good
      if retval ≠ good then throw retval else return memory.copies type elements
  | dim :: others =>
    if type ≠ variantType ∧ (!isStringLike type ∨ others ≠ []) then throw badIndexRangeNoData
    else elements.mapM fun element =>
      if isStringLike type then copySubString element dim else inner element nextrange

/-- The body of `UA_Variant_copyRange`. `inner` is the call for a variant in the array. -/
def copyRangeWith (src : Value) (range : List NumericRangeDimension) : Except StatusCode Value :=
  match src with
  | .variantScalar type data dimensions => do
    let strides ← computeStrides (.variantArray type false [data] dimensions) [⟨0, 0⟩]
    let elements := readBlocks strides (strides.total / strides.block) strides.first [data]
    let content ← memory.copyContent inner type elements range
    return .variantScalar type (content.headD (memory.null type)) []
  | .variantArray type _ array dimensions =>
    let dims := if dimensions = [] then 1 else dimensions.length
    if dims > range.length then throw badIndexRangeInvalid
    else do
      let thisrange := range.take dims
      let strides ← computeStrides src thisrange
      let elements := readBlocks strides (strides.total / strides.block) strides.first array
      let content ← memory.copyContent inner type elements (range.drop dims)
      return .variantArray type false content
        (if dimensions = [] then [] else thisrange.map fun dim => dim.max - dim.min + 1)
  | _ => throw badInvalidArgument

end

/-- `UA_Variant_copyRange` for variants that are nested in less than so many levels. -/
def copyRange : Nat → Value → List NumericRangeDimension → Except StatusCode Value
  | 0, _, _ => throw badInternalError
  | levels + 1, src, range => memory.copyRangeWith (copyRange levels) src range

end ElementMemory

structure SetRange where
  status : StatusCode
  value : Value
  source : List Byte

def elemSizeSize : Nat := 8

def zeroed (length : Nat) (source : List Byte) : List Byte :=
  List.replicate (min length source.length) 0 ++ source.drop length

def ElementMemory.setRange (memory : ElementMemory) (value : Value) (array : List Value)
    (range : List NumericRangeDimension) (copy : Bool) : SetRange :=
  let source := array.flatMap memory.bytes
  match computeStrides value range with
  | .error retval => ⟨retval, value, source⟩
  | .ok strides =>
    if strides.total ≠ array.length then ⟨badIndexRangeInvalid, value, source⟩
    else
      match value with
      | .variantArray type undefined elements dimensions =>
        let left := strides.total / strides.block
        if memory.pointerFree type || !copy then
          let source := if !copy && !memory.pointerFree type then
            zeroed (elemSizeSize * array.length) source else source
          ⟨good, .variantArray type undefined
            (copyBlocks strides left array strides.first elements) dimensions, source⟩
        else
          let retval := (memory.copyResults array).foldl (· ||| ·) good
          ⟨retval, .variantArray type undefined (copyBlocks strides left
            (memory.copies type array) strides.first elements) dimensions, source⟩
      | value => ⟨good, value, source⟩

end OpcUa
