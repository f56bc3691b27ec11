import OpcUa.VariantRanges

/-!
Writing a range of an array, and what is left of the source array when its elements are moved. Only
the first bytes of it are zeroed, as many as its elements would have if each were a size.
-/

namespace OpcUa

open LittleEndian StatusCode RowMajor GatherScatter

structure Written (dims : List Nat) (range : List NumericRangeDimension)
    (elements array changed : List Value) : Prop where
  length : changed.length = elements.length
  selected : gather (selectedPositions dims range) changed = array
  others : ∀ position, position ∉ selectedPositions dims range →
    changed[position]? = elements[position]?

theorem mem_zeroed_iff (length : Nat) (source : List Byte) :
    (∀ byte ∈ zeroed length source, byte = 0) ↔ ∀ byte ∈ source.drop length, byte = 0 := by
  rw [zeroed, List.forall_mem_append]
  apply and_iff_right_of_imp
  intro _ byte member
  exact List.eq_of_mem_replicate member

theorem foldl_or_eq_good (results : List StatusCode) (status : StatusCode) :
    results.foldl (· ||| ·) status = good ↔ status = good ∧ ∀ result ∈ results, result = good := by
  induction results generalizing status with
  | nil => exact (and_iff_left (List.forall_mem_nil _)).symm
  | cons result results ih =>
    rw [List.foldl_cons, ih, or_eq_good_iff, List.forall_mem_cons, and_assoc]

namespace ElementMemory

variable {memory : ElementMemory} {type : DataType} {undefined copy : Bool}
  {elements array : List Value} {dimensions : List (BitVec 32)}
  {range : List NumericRangeDimension}

def FindsAll (memory : ElementMemory) (elements : List Value) : Prop :=
  ∀ index element, elements[index]? = some element → memory.found index element = true

theorem copyResults_good (memory : ElementMemory) (elements : List Value) :
    (memory.copyResults elements).foldl (· ||| ·) good = good ↔ memory.FindsAll elements := by
  rw [foldl_or_eq_good, and_iff_right rfl]
  constructor
  · intro results index element here
    by_contra missing
    have member : badOutOfMemory ∈ memory.copyResults elements := by
      apply List.mem_of_getElem? (i := index)
      rw [copyResults, List.getElem?_mapIdx, here, Option.map_some, if_neg missing]
    cases results _ member
  · intro found result member
    obtain ⟨index, below, rfl⟩ := List.getElem_of_mem member
    rw [copyResults, List.length_mapIdx] at below
    simp only [copyResults, List.getElem_mapIdx]
    exact if_pos (found index _ (List.getElem?_eq_getElem below))

theorem copyContent_all (found : memory.FindsAll elements)
    (inner : Value → List NumericRangeDimension → Except StatusCode Value) :
    memory.copyContent inner type elements [] = .ok elements := by
  rw [copyContent]
  cases memory.pointerFree type with
  | true => rfl
  | false =>
    have last : (memory.copyResults elements).getLastD good = good := by
      have results := (foldl_or_eq_good _ _).mp ((copyResults_good memory elements).mpr found)
      rw [List.getLastD_eq_getLast?]
      cases ends : (memory.copyResults elements).getLast? with
      | none => rfl
      | some result => exact results.2 result (List.mem_of_getLast? ends)
    simp only [Bool.false_eq_true, if_false, last, ne_eq, not_true_eq_false, copies_eq_self found]
    rfl

/-- What the call is to leave behind: the array is written, reading the range gives what was
written, and the source array is zeroed if its elements were moved. -/
structure SetsRange (memory : ElementMemory) (type : DataType) (undefined : Bool)
    (elements array : List Value) (dimensions : List (BitVec 32))
    (range : List NumericRangeDimension) (copy : Bool) (outcome : SetRange) : Prop where
  good : outcome.status = good
  written : ∃ changed, outcome.value = .variantArray type undefined changed dimensions ∧
    Written (arrayDims elements.length dimensions) range elements array changed
  readBack : ∀ reader : ElementMemory, reader.FindsAll array → ∀ levels,
    ∃ lengths, reader.copyRange (levels + 1) outcome.value range
      = .ok (.variantArray type false array lengths)
  moved : copy = false → memory.pointerFree type = false → ∀ byte ∈ outcome.source, byte = 0

/-- The blocks are right, the copies find memory, and what `memset` leaves out of elements that are
moved is zero already. -/
structure Writable (memory : ElementMemory) (type : DataType) (elements array : List Value)
    (dimensions : List (BitVec 32)) (range : List NumericRangeDimension) (copy : Bool) : Prop where
  contiguous : Contiguous (outer (extents (arrayDims elements.length dimensions) range))
  found : copy = true → memory.pointerFree type = false → memory.FindsAll array
  blank : copy = false → memory.pointerFree type = false →
    ∀ byte ∈ (array.flatMap memory.bytes).drop (elemSizeSize * array.length), byte = 0

def sourceAfter (memory : ElementMemory) (type : DataType) (array : List Value) (copy : Bool) :
    List Byte :=
  if !copy && !memory.pointerFree type then
    zeroed (elemSizeSize * array.length) (array.flatMap memory.bytes)
  else array.flatMap memory.bytes

theorem setRange_eq {strides : Strides}
    (computed : computeStrides (.variantArray type undefined elements dimensions) range
      = .ok strides)
    (total : strides.total = array.length) :
    memory.setRange (.variantArray type undefined elements dimensions) array range copy
      = if memory.pointerFree type || !copy then
          ⟨good, .variantArray type undefined (scatter strides.visited array elements) dimensions,
            memory.sourceAfter type array copy⟩
        else
          ⟨(memory.copyResults array).foldl (· ||| ·) good, .variantArray type undefined
            (scatter strides.visited (memory.copies type array) elements) dimensions,
            array.flatMap memory.bytes⟩ := by
  have enough : strides.total / strides.block * strides.block ≤ array.length :=
    total ▸ Nat.div_mul_le_self ..
  have copied : strides.total / strides.block * strides.block
      ≤ (memory.copies type array).length := by
    rwa [copies_length]
  rw [setRange, computed]
  simp only [total, ne_eq, not_true_eq_false, if_false]
  rw [← total, copyBlocks_eq strides _ _ _ _ enough, copyBlocks_eq strides _ _ _ _ copied]
  rw [sourceAfter, Strides.visited, total]

theorem written_iff {strides : Strides} (distinct : (elements ++ array).Nodup)
    (consistent : (arrayDims elements.length dimensions).prod = elements.length)
    (describes : strides.Describes (arrayDims elements.length dimensions) range)
    (many : array.length = (selectedPositions (arrayDims elements.length dimensions) range).length)
    (written : Written (arrayDims elements.length dimensions) range elements array
      (scatter strides.visited array elements)) :
    Contiguous (outer (extents (arrayDims elements.length dimensions) range)) := by
  apply describes.selects.mp
  exact scatter_inj distinct describes.nodup (selected_inside range consistent)
    (describes.visited_length.trans many.symm) many.symm written.selected

theorem written_of_contiguous {strides : Strides}
    (consistent : (arrayDims elements.length dimensions).prod = elements.length)
    (describes : strides.Describes (arrayDims elements.length dimensions) range)
    (many : array.length = (selectedPositions (arrayDims elements.length dimensions) range).length)
    (contiguous : Contiguous (outer (extents (arrayDims elements.length dimensions) range))) :
    Written (arrayDims elements.length dimensions) range elements array
      (scatter strides.visited array elements) := by
  have visited := describes.selects.mpr contiguous
  have nodup := describes.nodup
  rw [visited] at nodup ⊢
  exact ⟨scatter_length .., gather_scatter nodup (selected_inside range consistent) many.symm,
    fun _ => scatter_other⟩

theorem readBack_of_contiguous {changed : List Value} {reader : ElementMemory}
    (fits : Fits (arrayDims elements.length dimensions) range)
    (consistent : (arrayDims elements.length dimensions).prod = elements.length)
    (short : elements.length < 2 ^ 32)
    (written : Written (arrayDims elements.length dimensions) range elements array changed)
    (contiguous : Contiguous (outer (extents (arrayDims elements.length dimensions) range)))
    (found : reader.FindsAll array) (levels : Nat) :
    ∃ lengths, reader.copyRange (levels + 1) (.variantArray type undefined changed dimensions)
      range = .ok (.variantArray type false array lengths) := by
  have selected := written.selected
  rw [← written.length] at fits consistent short contiguous selected
  obtain ⟨strides, computed, describes⟩ := fits.strides type undefined consistent short
  refine ⟨if dimensions = [] then [] else resultDimensions range, ?_⟩
  rw [copyRange_array reader levels type undefined fits.length_eq, computed]
  change (reader.copyContent _ type (gather strides.visited changed) []).bind _ = _
  rw [describes.selects.mpr contiguous, selected, copyContent_all found]
  rfl

/-- Writing a range that fits an array with consistent dimensions. In the second part all elements
differ, which shows where they are written. -/
theorem setRange_sets (memory : ElementMemory) (type : DataType) (undefined copy : Bool)
    (consistent : (arrayDims elements.length dimensions).prod = elements.length)
    (short : elements.length < 2 ^ 32)
    (fits : Fits (arrayDims elements.length dimensions) range)
    (many : array.length
      = (selectedPositions (arrayDims elements.length dimensions) range).length) :
    (memory.Writable type elements array dimensions range copy →
      memory.SetsRange type undefined elements array dimensions range copy
        (memory.setRange (.variantArray type undefined elements dimensions) array range copy)) ∧
    ((elements ++ array).Nodup →
      memory.SetsRange type undefined elements array dimensions range copy
        (memory.setRange (.variantArray type undefined elements dimensions) array range copy) →
      memory.Writable type elements array dimensions range copy) := by
  obtain ⟨strides, computed, describes⟩ := fits.strides type undefined consistent short
  rw [setRange_eq computed (describes.total.trans many.symm)]
  by_cases moves : (memory.pointerFree type || !copy) = true
  · rw [if_pos moves]
    have plain : copy = true → memory.pointerFree type = false → False := by
      rintro rfl pointers
      rw [pointers] at moves
      cases moves
    have source : copy = false → memory.pointerFree type = false →
        ((∀ byte ∈ memory.sourceAfter type array copy, byte = 0) ↔
          ∀ byte ∈ (array.flatMap memory.bytes).drop (elemSizeSize * array.length), byte = 0) := by
      rintro rfl pointers
      rw [sourceAfter, pointers]
      exact mem_zeroed_iff _ _
    constructor
    · intro writable
      have written := written_of_contiguous consistent describes many writable.contiguous
      refine ⟨rfl, ⟨_, rfl, written⟩, ?_, ?_⟩
      · intro reader found levels
        exact readBack_of_contiguous fits consistent short written writable.contiguous found levels
      · intro moved pointers
        exact (source moved pointers).mpr (writable.blank moved pointers)
    · rintro distinct ⟨_, ⟨changed, equal, written⟩, _, moved⟩
      cases equal
      refine ⟨written_iff distinct consistent describes many written, ?_, ?_⟩
      · intro copied pointers
        exact (plain copied pointers).elim
      · intro moves pointers
        exact (source moves pointers).mp (moved moves pointers)
  · rw [if_neg moves]
    simp only [Bool.or_eq_true, Bool.not_eq_true', not_or, Bool.not_eq_true,
      Bool.not_eq_false] at moves
    obtain ⟨pointers, rfl⟩ := moves
    constructor
    · intro writable
      have found := writable.found rfl pointers
      have written := written_of_contiguous consistent describes many writable.contiguous
      rw [copies_eq_self found]
      refine ⟨(copyResults_good memory array).mpr found, ⟨_, rfl, written⟩, ?_, ?_⟩
      · intro reader found levels
        exact readBack_of_contiguous fits consistent short written writable.contiguous found levels
      · intro impossible
        cases impossible
    · rintro distinct ⟨status, ⟨changed, equal, written⟩, _, _⟩
      have found := (copyResults_good memory array).mp status
      rw [copies_eq_self found] at equal
      cases equal
      refine ⟨written_iff distinct consistent describes many written, fun _ _ => found, ?_⟩
      intro impossible
      cases impossible

end ElementMemory

theorem byteMatrix_sets : byteMemory.SetsRange byteType false (byteElements [1, 2, 3, 4])
    (byteElements [8, 9]) [2, 2] [⟨0, 1⟩, ⟨1, 1⟩] false
    (byteMemory.setRange (.variantArray byteType false (byteElements [1, 2, 3, 4]) [2, 2])
      (byteElements [8, 9]) [⟨0, 1⟩, ⟨1, 1⟩] false) := by
  have fits : Fits (arrayDims 4 [2, 2]) [⟨0, 1⟩, ⟨1, 1⟩] :=
    .cons (by decide) (by decide) (.cons (by decide) (by decide) .nil)
  have sets := @ElementMemory.setRange_sets (byteElements [1, 2, 3, 4]) (byteElements [8, 9])
    [2, 2] [⟨0, 1⟩, ⟨1, 1⟩] byteMemory byteType false false rfl (by decide) fits rfl
  refine sets.1 ⟨by decide, ?_, ?_⟩
  · intro impossible
    cases impossible
  · intro _ pointers
    cases pointers

def stringMemory : ElementMemory where
  pointerFree := fun _ => false
  null := fun _ => .leaf (.string .null)
  bytes
    | .leaf (.string text) =>
      [BitVec.ofNat 8 text.length, 0, 0, 0, 0, 0, 0, 0, if text.beyondSentinel then 16 else 0, 0, 0,
        0, 0, 0, 0, 0]
    | _ => []
  found := fun _ _ => true

/-- The third block of the cube is written to a neighbour. Of two strings that are moved only the
first one is zeroed, and both arrays have the other one. -/
theorem byteCube_overwrites : ¬byteMemory.SetsRange byteType false
      (byteElements [1, 2, 3, 4, 5, 6, 7, 8, 9, 10, 11, 12]) (byteElements [21, 22, 23, 24])
      [2, 3, 2] [⟨0, 1⟩, ⟨0, 1⟩, ⟨0, 0⟩] true
      (byteMemory.setRange (.variantArray byteType false
        (byteElements [1, 2, 3, 4, 5, 6, 7, 8, 9, 10, 11, 12]) [2, 3, 2])
        (byteElements [21, 22, 23, 24]) [⟨0, 1⟩, ⟨0, 1⟩, ⟨0, 0⟩] true) ∧
    ¬stringMemory.SetsRange stringType false
      [.leaf (.string (.alloc [97])), .leaf (.string (.alloc [98]))]
      [.leaf (.string (.alloc [99])), .leaf (.string (.alloc [100]))] [] [⟨0, 1⟩] false
      (stringMemory.setRange (.variantArray stringType false
        [.leaf (.string (.alloc [97])), .leaf (.string (.alloc [98]))] [])
        [.leaf (.string (.alloc [99])), .leaf (.string (.alloc [100]))] [⟨0, 1⟩] false) := by
  constructor
  · rintro ⟨_, ⟨changed, equal, written⟩, _, _⟩
    have positions : selectedPositions (arrayDims 12 [2, 3, 2]) [⟨0, 1⟩, ⟨0, 1⟩, ⟨0, 0⟩]
        = [0, 2, 6, 8] := by decide
    change Value.variantArray byteType false
      (byteElements [21, 2, 22, 4, 23, 6, 24, 8, 9, 10, 11, 12]) [2, 3, 2]
        = .variantArray byteType false changed [2, 3, 2] at equal
    cases equal
    have selected := written.selected
    change gather (selectedPositions (arrayDims 12 [2, 3, 2]) _) _ = _ at selected
    rw [positions] at selected
    change byteElements [21, 22, 24, 9] = byteElements [21, 22, 23, 24] at selected
    cases selected
  · rintro ⟨_, _, _, moved⟩
    exact absurd (moved rfl rfl) (by decide)

end OpcUa
