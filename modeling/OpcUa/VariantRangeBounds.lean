import OpcUa.VariantRanges

/-!
Which elements the blocks of a range touch. The number of elements is checked against a product of
the dimensions that may wrap around. If it does, some range leads out of the array.
-/

namespace OpcUa

open StatusCode RowMajor

variable {dims : List Nat} {position : Nat}
variable {word arrayLength : Nat} {arrayDimensions : List (BitVec 32)}

def Strides.TouchesInside (strides : Strides) (word arrayLength : Nat) : Prop :=
  strides.block ≠ 0 ∧ ∀ i j, i < strides.total / strides.block → j < strides.block →
    (strides.first + i * strides.stride + j) % word < arrayLength

def DimensionsWrap (word arrayLength : Nat) (arrayDimensions : List (BitVec 32)) : Prop :=
  arrayLength < 2 ^ 32 ∧ word ≤ (arrayDimensions.map BitVec.toNat).prod ∧
    (arrayDimensions.map BitVec.toNat).prod % word = arrayLength

instance (word arrayLength : Nat) (arrayDimensions : List (BitVec 32)) :
    Decidable (DimensionsWrap word arrayLength arrayDimensions) :=
  inferInstanceAs (Decidable (_ ∧ _ ∧ _))

theorem exactStrides_inside {rows : List Extent} (valid : ∀ row ∈ rows, row.Valid) :
    (exactStrides rows (size rows)).block ≠ 0 ∧
      ∀ i j, i < (exactStrides rows (size rows)).total / (exactStrides rows (size rows)).block →
        j < (exactStrides rows (size rows)).block →
        (exactStrides rows (size rows)).first + i * (exactStrides rows (size rows)).stride + j
          < size rows := by
  have positive := count_pos valid
  rcases exactStrides_cases valid (size rows) with
    ⟨full, strides⟩ | ⟨row, inner, split, whole, _, strides⟩
  · rw [strides]
    refine ⟨Nat.ne_of_gt positive, fun i j blocks offset => ?_⟩
    have single : i = 0 := by
      rw [Nat.div_self positive] at blocks
      omega
    rw [single, Nat.zero_mul, Nat.add_zero, Nat.zero_add, ← full.count_eq]
    exact offset
  · rw [strides]
    generalize outer rows = before at split
    subst split
    obtain ⟨_, behind⟩ := List.forall_mem_append.mp valid
    obtain ⟨here, there⟩ := List.forall_mem_cons.mp behind
    have width : 0 < row.len * size inner :=
      Nat.mul_pos here.1 ((count_pos there).trans_le (count_le_size there))
    refine ⟨Nat.ne_of_gt width, fun i j blocks offset => ?_⟩
    have total : count (before ++ row :: inner) = count before * (row.len * size inner) := by
      rw [count_append, count_cons, whole.count_eq]
    rw [total, Nat.mul_div_cancel _ width] at blocks
    exact strided_lt_size whole valid blocks offset

/-! A range with a single element -/

def pointRange : List Nat → Nat → List NumericRangeDimension
  | [], _ => []
  | _ :: dims, position =>
    ⟨BitVec.ofNat 32 (position / dims.prod), BitVec.ofNat 32 (position / dims.prod)⟩
      :: pointRange dims (position % dims.prod)

def pointExtents : List Nat → Nat → List Extent
  | [], _ => []
  | dim :: dims, position =>
    ⟨dim, position / dims.prod, 1⟩ :: pointExtents dims (position % dims.prod)

theorem pointRange_fits (words : ∀ dim ∈ dims, dim < 2 ^ 32) (below : position < dims.prod) :
    Fits dims (pointRange dims position) ∧
      extents dims (pointRange dims position) = pointExtents dims position := by
  induction dims generalizing position with
  | nil => exact ⟨.nil, rfl⟩
  | cons dim dims ih =>
    obtain ⟨word, others⟩ := List.forall_mem_cons.mp words
    rw [List.prod_cons] at below
    have positive : 0 < dims.prod := by
      rw [Nat.pos_iff_ne_zero]
      intro zero
      rw [zero, Nat.mul_zero] at below
      cases below
    have index : position / dims.prod < dim := Nat.div_lt_of_lt_mul (by rwa [Nat.mul_comm])
    have value : (BitVec.ofNat 32 (position / dims.prod)).toNat = position / dims.prod := by
      rw [BitVec.toNat_ofNat, Nat.mod_eq_of_lt (index.trans word)]
    obtain ⟨fits, rows⟩ := ih others (Nat.mod_lt position positive)
    refine ⟨.cons (BitVec.le_refl _) (value.symm ▸ index) fits, ?_⟩
    rw [pointRange, extents, rows, pointExtents, value, if_pos index, Nat.sub_self]

theorem pointExtents_start (below : position < dims.prod) :
    size (pointExtents dims position) = dims.prod ∧ count (pointExtents dims position) = 1 ∧
      start (pointExtents dims position) = position := by
  induction dims generalizing position with
  | nil =>
    rw [List.prod_nil] at below
    exact ⟨rfl, rfl, by rw [pointExtents, start]; omega⟩
  | cons dim dims ih =>
    have positive : 0 < dims.prod := by
      rw [Nat.pos_iff_ne_zero]
      intro zero
      rw [List.prod_cons, zero, Nat.mul_zero] at below
      cases below
    obtain ⟨sizes, counts, starts⟩ := ih (Nat.mod_lt position positive)
    rw [pointExtents, size_cons, count_cons, start, sizes, counts, starts, List.prod_cons]
    exact ⟨rfl, rfl, Nat.div_add_mod' position dims.prod⟩

theorem pointExtents_len : ∀ row ∈ pointExtents dims position, row.len = 1 := by
  induction dims generalizing position with
  | nil => exact List.forall_mem_nil _
  | cons dim dims ih => exact List.forall_mem_cons.mpr ⟨rfl, ih⟩

theorem exactStrides_point (words : ∀ dim ∈ dims, dim < 2 ^ 32) (below : position < dims.prod)
    (several : 1 < dims.prod) (length : Nat) :
    ∃ stride, exactStrides (extents dims (pointRange dims position)) length
      = ⟨1, 1, stride, position⟩ := by
  obtain ⟨fits, rows⟩ := pointRange_fits words below
  obtain ⟨sizes, counts, starts⟩ := pointExtents_start below
  have valid := fits.valid
  rw [rows] at valid ⊢
  rcases exactStrides_cases valid length with
    ⟨full, _⟩ | ⟨row, inner, split, whole, _, strides⟩
  · have single := full.count_eq
    omega
  · have member : row ∈ pointExtents dims position := by
      rw [split]
      exact List.mem_append_right _ List.mem_cons_self
    have ones : ∀ entry ∈ inner, entry.len = 1 := by
      intro entry inside
      apply pointExtents_len entry
      rw [split]
      exact List.mem_append_right _ (List.mem_cons_of_mem _ inside)
    have width : size inner = 1 := by
      rw [← whole.count_eq, count]
      exact List.prod_eq_one fun len mapped => by
        obtain ⟨entry, inside, rfl⟩ := List.mem_map.mp mapped
        exact ones entry inside
    refine ⟨row.dim * size inner, ?_⟩
    rw [strides, counts, starts, pointExtents_len row member, width]

theorem DimensionsWrap.selectsBehind (wide : 2 ^ 32 ≤ word)
    (wrap : DimensionsWrap word arrayLength arrayDimensions) :
    ∃ range stride, computeStridesOf word arrayLength arrayDimensions range =
      .ok ⟨1, 1, stride, arrayLength⟩ := by
  obtain ⟨short, wraps, product⟩ := wrap
  have given : arrayDimensions ≠ [] := by
    rintro rfl
    rw [List.map_nil, List.prod_nil] at wraps
    omega
  have dims : arrayDims arrayLength arrayDimensions = arrayDimensions.map BitVec.toNat :=
    if_neg given
  have words : ∀ dim ∈ arrayDims arrayLength arrayDimensions, dim < 2 ^ 32 := by
    intro dim member
    rw [dims] at member
    obtain ⟨value, _, rfl⟩ := List.mem_map.mp member
    exact value.isLt
  have below : arrayLength < (arrayDims arrayLength arrayDimensions).prod := by
    rw [dims]
    omega
  have several : 1 < (arrayDims arrayLength arrayDimensions).prod := by
    rw [dims]
    omega
  obtain ⟨stride, point⟩ := exactStrides_point words below several arrayLength
  have computed := computeStridesOf_eq wide short (fun _ => dims ▸ product)
    (pointRange_fits words below).1
  have reduced : (⟨1, 1, stride, arrayLength⟩ : Strides).reduce word
      = ⟨1, 1, stride % word, arrayLength⟩ := by
    rw [Strides.reduce, Nat.mod_eq_of_lt (show 1 < word by omega),
      Nat.mod_eq_of_lt (short.trans_le wide)]
  rw [point, reduced] at computed
  exact ⟨_, _, computed⟩

theorem size_eq_arrayLength {range : List NumericRangeDimension} (short : arrayLength < 2 ^ 32)
    (product : arrayDimensions ≠ [] →
      (arrayDims arrayLength arrayDimensions).prod % word = arrayLength)
    (fits : Fits (arrayDims arrayLength arrayDimensions) range)
    (straight : ¬DimensionsWrap word arrayLength arrayDimensions) :
    size (extents (arrayDims arrayLength arrayDimensions) range) = arrayLength := by
  rw [fits.size_eq]
  by_cases given : arrayDimensions = []
  · rw [arrayDims, if_pos given, List.prod_singleton]
  · have dims : arrayDims arrayLength arrayDimensions = arrayDimensions.map BitVec.toNat :=
      if_neg given
    have whole := product given
    rw [dims] at whole ⊢
    have fitting : (arrayDimensions.map BitVec.toNat).prod < word := by
      by_contra wraps
      exact straight ⟨short, Nat.not_lt.mp wraps, whole⟩
    rwa [Nat.mod_eq_of_lt fitting] at whole

/-- Every range keeps inside of the array if and only if the dimensions do not wrap around. -/
theorem computeStrides_touchesInside {word arrayLength : Nat} (wide : 2 ^ 32 ≤ word)
    (arrayDimensions : List (BitVec 32)) :
    (∀ range strides, computeStridesOf word arrayLength arrayDimensions range = .ok strides →
      strides.TouchesInside word arrayLength) ↔
        ¬DimensionsWrap word arrayLength arrayDimensions := by
  constructor
  · intro inside wrap
    obtain ⟨range, stride, computed⟩ := wrap.selectsBehind wide
    have single : 0 < 1 / 1 := Nat.one_pos
    have touched := (inside _ _ computed).2 0 0 single Nat.one_pos
    rw [Nat.zero_mul] at touched
    change arrayLength % word < arrayLength at touched
    rw [Nat.mod_eq_of_lt (wrap.1.trans_le wide)] at touched
    exact Nat.lt_irrefl _ touched
  · intro straight range strides computed
    obtain ⟨short, product, fits⟩ := computeStridesOf_ok wide computed
    have sizes := size_eq_arrayLength short product fits straight
    have fitting : arrayLength < word := short.trans_le wide
    rw [computeStridesOf_eq wide short product fits,
      exactStrides_reduce fits.valid (sizes.symm ▸ fitting) fitting] at computed
    have exact := exactStrides_inside fits.valid
    rw [sizes, Except.ok.inj computed] at exact
    refine ⟨exact.1, fun i j blocks offset => ?_⟩
    have below := exact.2 i j blocks offset
    rwa [Nat.mod_eq_of_lt (below.trans fitting)]

theorem matrix_touchesInside : ¬DimensionsWrap (2 ^ 64) 6 [2, 3] ∧
      ∀ range strides, computeStridesOf (2 ^ 64) 6 [2, 3] range = .ok strides →
        strides.TouchesInside (2 ^ 64) 6 := by
  have exact : ¬DimensionsWrap (2 ^ 64) 6 [2, 3] := by decide
  exact ⟨exact, (computeStrides_touchesInside (by decide) [2, 3]).mpr exact⟩

/-- An empty array whose dimensions have the product 2^64. A range with one element reads the first
one, and the range of all elements has blocks without elements. -/
theorem emptyArray_touchesOutside :
    (∃ strides, computeStrides (.variantArray byteType false [] [0x80000000, 0x80000000, 4])
        [⟨0, 0⟩, ⟨0, 0⟩, ⟨0, 0⟩] = .ok strides ∧ strides.block = 1 ∧
          ¬strides.TouchesInside (2 ^ 64) 0) ∧
      ∃ strides, computeStrides (.variantArray byteType false [] [0x80000000, 0x80000000, 4])
        [⟨0, 0x7FFFFFFF⟩, ⟨0, 0x7FFFFFFF⟩, ⟨0, 3⟩] = .ok strides ∧ strides.block = 0 := by
  refine ⟨⟨⟨1, 1, 4, 0⟩, rfl, rfl, fun inside => ?_⟩, ⟨⟨0, 0, 0, 0⟩, rfl, rfl⟩⟩
  exact absurd (inside.2 0 0 Nat.one_pos Nat.one_pos) (Nat.not_lt_zero _)

end OpcUa
