import OpcUa.Library.GatherScatter
import OpcUa.Library.RowMajor
import OpcUa.VariantRangeCore

/-!
Which elements of an array a range selects. The blocks that are read and written have equal
distances, which is right only if the dimensions in front of the last one that is selected in part
are selected without a gap. What is read has the dimensions of the range and not those of the part
of it that exists.
-/

namespace OpcUa

open LittleEndian StatusCode RowMajor GatherScatter

/-! The positions of a range -/

def arrayDims (length : Nat) (dimensions : List (BitVec 32)) : List Nat :=
  if dimensions = [] then [length] else dimensions.map BitVec.toNat

def InRange : List Nat → List NumericRangeDimension → Nat → Prop
  | _ :: dims, range :: ranges, position =>
    (range.min.toNat ≤ position / dims.prod ∧ position / dims.prod ≤ range.max.toNat) ∧
      InRange dims ranges (position % dims.prod)
  | _, _, _ => True

instance decidableInRange : (dims : List Nat) → (ranges : List NumericRangeDimension) →
    (position : Nat) → Decidable (InRange dims ranges position)
  | _ :: dims, _ :: ranges, position =>
    have := decidableInRange dims ranges (position % dims.prod)
    inferInstanceAs (Decidable ((_ ∧ _) ∧ _))
  | [], _, _ => inferInstanceAs (Decidable True)
  | _ :: _, [], _ => inferInstanceAs (Decidable True)

def selectedPositions (dims : List Nat) (range : List NumericRangeDimension) : List Nat :=
  (List.range dims.prod).filter fun position => decide (InRange dims range position)

inductive Fits : List Nat → List NumericRangeDimension → Prop
  | nil : Fits [] []
  | cons {dim : Nat} {dims : List Nat} {range : NumericRangeDimension}
      {ranges : List NumericRangeDimension} (ordered : range.min ≤ range.max)
      (starts : range.min.toNat < dim) (fits : Fits dims ranges) :
      Fits (dim :: dims) (range :: ranges)

def extents : List Nat → List NumericRangeDimension → List Extent
  | dim :: dims, range :: ranges =>
    let realmax := if range.max.toNat < dim then range.max.toNat else dim - 1
    ⟨dim, range.min.toNat, realmax - range.min.toNat + 1⟩ :: extents dims ranges
  | _, _ => []

section Extents

variable {dims : List Nat} {range : List NumericRangeDimension}

section

variable (fits : Fits dims range)
include fits

theorem Fits.length_eq : range.length = dims.length := by
  induction fits with
  | nil => rfl
  | cons _ _ _ ih => exact congrArg (· + 1) ih

theorem Fits.valid : ∀ row ∈ extents dims range, row.Valid := by
  induction fits with
  | nil => exact List.forall_mem_nil _
  | @cons dim dims range ranges ordered starts fits ih =>
    have before : range.min.toNat ≤ range.max.toNat := ordered
    rw [extents, List.forall_mem_cons]
    refine ⟨⟨Nat.succ_pos _, ?_⟩, ih⟩
    dsimp only
    split
    all_goals omega

theorem Fits.size_eq : size (extents dims range) = dims.prod := by
  induction fits with
  | nil => rfl
  | cons _ _ _ ih => rw [extents, size_cons, ih, List.prod_cons]

theorem Fits.inside_iff {position : Nat} (below : position < dims.prod) :
    Inside (extents dims range) position ↔ InRange dims range position := by
  induction fits generalizing position with
  | nil => exact Iff.rfl
  | @cons dim dims range ranges ordered starts fits ih =>
    have before : range.min.toNat ≤ range.max.toNat := ordered
    rw [List.prod_cons] at below
    have positive : 0 < dims.prod := by
      rw [Nat.pos_iff_ne_zero]
      intro zero
      rw [zero] at below
      cases below
    have index : position / dims.prod < dim := Nat.div_lt_of_lt_mul (by rwa [Nat.mul_comm])
    rw [extents, Inside, fits.size_eq, ih (Nat.mod_lt _ positive)]
    apply and_congr_left'
    dsimp only
    split
    all_goals omega

theorem Fits.prod_pos : 0 < dims.prod := by
  induction fits with
  | nil => exact Nat.one_pos
  | cons ordered starts fits ih =>
    exact Nat.mul_pos (Nat.zero_lt_of_lt starts) ih

theorem Fits.selected_eq : selectedPositions dims range = box (extents dims range) := by
  rw [box_eq_filter fits.valid, fits.size_eq]
  apply List.filter_congr
  intro position member
  rw [decide_eq_decide, fits.inside_iff (List.mem_range.mp member)]

theorem Fits.selected_length :
    (selectedPositions dims range).length = count (extents dims range) := by
  rw [fits.selected_eq, box_length]

theorem Fits.rangeLengths_eq :
    rangeLengths dims range = .ok ((extents dims range).map Extent.len) := by
  induction fits with
  | nil => rfl
  | cons ordered starts _ ih =>
    rw [rangeLengths, if_neg (BitVec.not_lt.mpr ordered), if_neg (Nat.not_le.mpr starts), ih]
    rfl

end

theorem rangeLengths_bad {status : StatusCode}
    (wrong : rangeLengths dims range = .error status) : status ≠ good := by
  induction dims generalizing range with
  | nil => cases wrong
  | cons dim dims ih =>
    cases range with
    | nil => cases wrong
    | cons first ranges =>
      rw [rangeLengths] at wrong
      split at wrong
      · obtain rfl := Except.error.inj wrong
        decide
      split at wrong
      · obtain rfl := Except.error.inj wrong
        decide
      cases rest : rangeLengths dims ranges with
      | error other =>
        rw [rest] at wrong
        obtain rfl := Except.error.inj wrong
        exact ih rest
      | ok lengths =>
        rw [rest] at wrong
        cases wrong

theorem fits_of_rangeLengths {lengths : List Nat} (same : range.length = dims.length)
    (checked : rangeLengths dims range = .ok lengths) : Fits dims range := by
  induction dims generalizing range lengths with
  | nil =>
    obtain rfl := List.length_eq_zero_iff.mp same
    exact .nil
  | cons dim dims ih =>
    cases range with
    | nil => cases same
    | cons first ranges =>
      rw [rangeLengths] at checked
      by_cases wrong : first.min > first.max
      · rw [if_pos wrong] at checked
        cases checked
      · rw [if_neg wrong] at checked
        by_cases behind : first.min.toNat ≥ dim
        · rw [if_pos behind] at checked
          cases checked
        · rw [if_neg behind] at checked
          cases rest : rangeLengths dims ranges with
          | error status =>
            rw [rest] at checked
            cases checked
          | ok others =>
            exact .cons (BitVec.not_lt.mp wrong) (Nat.not_le.mp behind)
              (ih (Nat.succ.inj same) rest)

def rowTriple (row : Extent) : Nat × Nat × Nat := (row.dim, row.min, row.len)

theorem Fits.rows_eq (fits : Fits dims range) :
    dims.zip ((range.map fun dim => dim.min.toNat).zip ((extents dims range).map Extent.len))
      = (extents dims range).map rowTriple := by
  induction fits with
  | nil => rfl
  | cons _ _ _ ih =>
    rw [extents, List.map_cons, List.map_cons, List.map_cons, List.zip_cons_cons,
      List.zip_cons_cons, ih]
    rfl

end Extents

theorem foldl_mul_mod (factors : List Nat) (start bound : Nat) (below : start < bound) :
    factors.foldl (fun elements dim => elements * dim % bound) start
      = start * factors.prod % bound := by
  induction factors generalizing start with
  | nil => rw [List.foldl_nil, List.prod_nil, Nat.mul_one, Nat.mod_eq_of_lt below]
  | cons factor factors ih =>
    rw [List.foldl_cons, ih _ (Nat.mod_lt _ (Nat.zero_lt_of_lt below)), Nat.mod_mul_mod,
      List.prod_cons, Nat.mul_assoc]

/-! The loop over the dimensions -/

def stridesFrom : List (Nat × Nat × Nat) → Nat → Bool → Strides → Strides
  | [], _, _, strides => strides
  | (dim, min, dimrange) :: rows, running, contiguous, strides =>
    let strides := if !contiguous && dimrange != dim then
      { strides with block := running * dimrange, stride := running * dim } else strides
    stridesFrom rows (running * dim) (contiguous || dimrange != dim)
      { strides with first := strides.first + running * min }

def Strides.reduce (word : Nat) (strides : Strides) : Strides :=
  ⟨strides.total % word, strides.block % word, strides.stride % word, strides.first % word⟩

theorem wordProduct_eq {word : Nat} (large : 1 < word) (factors : List Nat) :
    wordProduct word factors = factors.prod % word := by
  rw [wordProduct, foldl_mul_mod _ _ _ large, Nat.one_mul]

theorem wordStridesFrom_eq (word : Nat) (rows : List (Nat × Nat × Nat)) (running : Nat)
    (contiguous : Bool) (strides : Strides) :
    wordStridesFrom word rows (running % word) contiguous (strides.reduce word)
      = (stridesFrom rows running contiguous strides).reduce word := by
  induction rows generalizing running contiguous strides with
  | nil => rfl
  | cons row rows ih =>
    obtain ⟨dim, min, dimrange⟩ := row
    rw [wordStridesFrom, stridesFrom, Nat.mod_mul_mod, ← ih]
    congr 1
    cases !contiguous && dimrange != dim with
    | false => simp [Strides.reduce, Nat.add_mod]
    | true => simp [Strides.reduce, Nat.add_mod]

theorem stridesFrom_contiguous (rows : List Extent) (running : Nat) (strides : Strides) :
    stridesFrom (rows.reverse.map rowTriple) running true strides
      = { strides with first := strides.first + running * start rows } := by
  induction rows using List.reverseRecOn generalizing running strides with
  | nil => rfl
  | append_singleton rows row ih =>
    have single : start [row] = row.min := by simp [start]
    have width : size [row] = row.dim := by simp
    rw [List.reverse_append, List.reverse_singleton, List.singleton_append, List.map_cons,
      rowTriple, stridesFrom, start_append, single, width]
    simp only [Bool.not_true, Bool.false_and, Bool.false_eq_true, if_false, Bool.true_or]
    rw [ih]
    congr 1
    ring

theorem stridesFrom_full {inner : List Extent} (full : Full inner)
    (valid : ∀ row ∈ inner, row.Valid) (rest : List (Nat × Nat × Nat)) (running : Nat)
    (strides : Strides) :
    stridesFrom (inner.reverse.map rowTriple ++ rest) running false strides
      = stridesFrom rest (running * size inner) false strides := by
  induction inner using List.reverseRecOn generalizing running with
  | nil => simp
  | append_singleton inner row ih =>
    obtain ⟨front, behind⟩ := List.forall_mem_append.mp valid
    obtain ⟨wholes, last⟩ := List.forall_mem_append.mp full
    have whole : row.len = row.dim := last row List.mem_cons_self
    have inside := (behind row List.mem_cons_self).2
    have first : row.min = 0 := by omega
    have width : size (inner ++ [row]) = size inner * row.dim := by
      rw [size_append]
      simp
    rw [List.reverse_append, List.reverse_singleton, List.singleton_append, List.map_cons,
      rowTriple, List.cons_append, stridesFrom, whole, first, width]
    simp only [bne_self_eq_false, Bool.and_false, Bool.false_eq_true, if_false, Bool.or_false,
      Nat.mul_zero, Nat.add_zero]
    rw [ih wholes front, Nat.mul_comm (size inner), Nat.mul_assoc]

theorem stridesFrom_split {before inner : List Extent} {row : Extent} (full : Full inner)
    (valid : ∀ entry ∈ inner, entry.Valid) (short : row.len ≠ row.dim) (strides : Strides)
    (fresh : strides.first = 0) :
    stridesFrom ((before ++ row :: inner).reverse.map rowTriple) 1 false strides
      = ⟨strides.total, row.len * size inner, row.dim * size inner,
          start (before ++ row :: inner)⟩ := by
  have reversed : (before ++ row :: inner).reverse.map rowTriple
      = inner.reverse.map rowTriple ++ rowTriple row :: before.reverse.map rowTriple := by
    simp
  have apart : (row.len != row.dim) = true := bne_iff_ne.mpr short
  rw [reversed, stridesFrom_full full valid, rowTriple, stridesFrom, apart]
  simp only [Bool.not_false, Bool.true_and, if_true, Bool.or_true]
  rw [stridesFrom_contiguous, start_append, start, full.start_eq valid, size_cons, fresh]
  simp only [Strides.mk.injEq, true_and]
  refine ⟨?_, ?_, ?_⟩
  all_goals ring

def Strides.visited (strides : Strides) : List Nat :=
  strided strides.first strides.block strides.stride (strides.total / strides.block)

theorem readBlocks_eq {Element : Type} (strides : Strides) (left nextsrc : Nat)
    (elements : List Element) : readBlocks strides left nextsrc elements
      = gather (strided nextsrc strides.block strides.stride left) elements := by
  induction left generalizing nextsrc with
  | zero => rfl
  | succ left ih =>
    rw [readBlocks, strided_succ, gather_append, gather_range', ih]

theorem copyBlock_eq (block : List Value) (nextdst : Nat) (elements : List Value) :
    copyBlock block nextdst elements
      = scatter (List.range' nextdst block.length) block elements := by
  induction block generalizing nextdst elements with
  | nil => rfl
  | cons element block ih =>
    rw [copyBlock, List.length_cons, List.range'_succ, scatter, ih]

theorem copyBlocks_eq (strides : Strides) (left nextdst : Nat) (array elements : List Value)
    (enough : left * strides.block ≤ array.length) :
    copyBlocks strides left array nextdst elements
      = scatter (strided nextdst strides.block strides.stride left) array elements := by
  induction left generalizing array nextdst elements with
  | zero => rfl
  | succ left ih =>
    rw [Nat.succ_mul] at enough
    have block : (array.take strides.block).length = strides.block := by
      rw [List.length_take]
      omega
    have rest : left * strides.block ≤ (array.drop strides.block).length := by
      rw [List.length_drop]
      omega
    rw [copyBlocks, ih _ _ _ rest, strided_succ, copyBlock_eq, block]
    conv_rhs => rw [← List.take_append_drop strides.block array]
    rw [scatter_append (by rw [List.length_range', block])]

/-- What the blocks are for a range that fits: they have the right number of elements, each at
another place of the array, and they are the selected ones if the outer dimensions have no gap. -/
structure Strides.Describes (strides : Strides) (dims : List Nat)
    (range : List NumericRangeDimension) : Prop where
  total : strides.total = (selectedPositions dims range).length
  counted : strides.total / strides.block * strides.block = strides.total
  ordered : strides.visited.Pairwise (· < ·)
  inside : ∀ position ∈ strides.visited, position < dims.prod
  selects : strides.visited = selectedPositions dims range ↔ Contiguous (outer (extents dims range))

section Blocks

variable {dims : List Nat} {range : List NumericRangeDimension} {type : DataType}
  {undefined : Bool} {elements : List Value} {dimensions : List (BitVec 32)}

def exactStrides (rows : List Extent) (length : Nat) : Strides :=
  stridesFrom (rows.map rowTriple).reverse 1 false ⟨count rows, count rows, length, 0⟩

theorem exactStrides_cases {rows : List Extent} (valid : ∀ row ∈ rows, row.Valid) (length : Nat) :
    (Full rows ∧ exactStrides rows length = ⟨count rows, count rows, length, 0⟩) ∨
      ∃ row inner, rows = outer rows ++ row :: inner ∧ Full inner ∧ row.len ≠ row.dim ∧
        exactStrides rows length
          = ⟨count rows, row.len * size inner, row.dim * size inner, start rows⟩ := by
  by_cases full : Full rows
  · have strides := stridesFrom_full full valid [] 1 ⟨count rows, count rows, length, 0⟩
    rw [List.append_nil, List.map_reverse] at strides
    exact .inl ⟨full, strides⟩
  · obtain ⟨row, inner, split, whole, short⟩ := outer_split full
    have behind : ∀ entry ∈ row :: inner, entry.Valid :=
      fun entry member => valid entry (split ▸ List.mem_append_right _ member)
    have strides : exactStrides (outer rows ++ row :: inner) length
        = ⟨count (outer rows ++ row :: inner), row.len * size inner, row.dim * size inner,
            start (outer rows ++ row :: inner)⟩ := by
      rw [exactStrides, ← List.map_reverse]
      exact stridesFrom_split whole (List.forall_mem_cons.mp behind).2 short _ rfl
    rw [← split] at strides
    exact .inr ⟨row, inner, split, whole, short, strides⟩

theorem Fits.describes (fits : Fits dims range) :
    (exactStrides (extents dims range) dims.prod).Describes dims range := by
  have valid := fits.valid
  have selected := fits.selected_length
  have boxes := fits.selected_eq
  have sizes := fits.size_eq
  generalize same : extents dims range = rows at valid selected boxes sizes ⊢
  have positive := count_pos valid
  rcases exactStrides_cases valid dims.prod with
    ⟨full, strides⟩ | ⟨row, inner, split, whole, short, strides⟩
  · rw [strides]
    have whole : (⟨count rows, count rows, dims.prod, 0⟩ : Strides).visited = box rows := by
      rw [Strides.visited, Nat.div_self positive, ← sizes]
      exact strided_full full valid
    refine ⟨selected.symm, ?_, ?_, ?_, ?_⟩
    · rw [Nat.div_self positive, Nat.one_mul]
    · exact strided_pairwise (sizes ▸ count_le_size valid) _ _
    · rw [whole, ← boxes]
      exact fun position member => List.mem_range.mp (List.mem_filter.mp member).1
    · rw [whole, boxes, same, outer_full full]
      exact iff_of_true rfl trivial
  · generalize outers : outer rows = before at split
    subst split
    obtain ⟨front, behind⟩ := List.forall_mem_append.mp valid
    obtain ⟨here, there⟩ := List.forall_mem_cons.mp behind
    have width : 0 < row.len * size inner :=
      Nat.mul_pos here.1 ((count_pos there).trans_le (count_le_size there))
    have total : count (before ++ row :: inner) = count before * (row.len * size inner) := by
      rw [count_append, count_cons, whole.count_eq]
    have blocks : count (before ++ row :: inner) / (row.len * size inner) = count before := by
      rw [total, Nat.mul_div_cancel _ width]
    rw [strides]
    refine ⟨selected.symm, ?_, ?_, ?_, ?_⟩
    · rw [blocks, total]
    · exact strided_pairwise (Nat.mul_le_mul_right _ (le_trans (Nat.le_add_left _ _) here.2)) _ _
    · rw [Strides.visited, blocks, ← sizes]
      intro position member
      obtain ⟨index, block, member⟩ := List.mem_flatMap.mp member
      obtain ⟨offset, within, rfl⟩ := List.mem_range'.mp member
      rw [Nat.one_mul]
      exact strided_lt_size whole valid (List.mem_range.mp block) within
    · rw [Strides.visited, blocks, boxes, same, outers]
      exact strided_eq_box valid whole

theorem exactStrides_reduce {rows : List Extent} {word length : Nat}
    (valid : ∀ row ∈ rows, row.Valid) (fitting : size rows < word) (short : length < word) :
    (exactStrides rows length).reduce word = exactStrides rows length := by
  have counts : count rows < word := (count_le_size valid).trans_lt fitting
  rcases exactStrides_cases valid length with ⟨_, strides⟩ | ⟨row, inner, split, _, _, strides⟩
  · have positive : 0 < word := Nat.zero_lt_of_lt fitting
    rw [strides, Strides.reduce, Nat.mod_eq_of_lt counts, Nat.mod_eq_of_lt short, Nat.zero_mod]
  · have starts : start rows < word := by
      have room := start_add_count_le valid
      omega
    rw [split] at valid
    obtain ⟨front, behind⟩ := List.forall_mem_append.mp valid
    obtain ⟨here, there⟩ := List.forall_mem_cons.mp behind
    have stride : row.dim * size inner ≤ size rows := by
      rw [split, size_append]
      exact Nat.le_mul_of_pos_left _ ((count_pos front).trans_le (count_le_size front))
    have block : row.len * size inner ≤ row.dim * size inner :=
      Nat.mul_le_mul_right _ (le_trans (Nat.le_add_left _ _) here.2)
    rw [strides, Strides.reduce, Nat.mod_eq_of_lt counts,
      Nat.mod_eq_of_lt (block.trans_lt (stride.trans_lt fitting)),
      Nat.mod_eq_of_lt (stride.trans_lt fitting), Nat.mod_eq_of_lt starts]

section Words

variable {word length : Nat}

theorem computeStridesOf_eq (wide : 2 ^ 32 ≤ word) (short : length < 2 ^ 32)
    (product : dimensions ≠ [] → (arrayDims length dimensions).prod % word = length)
    (fits : Fits (arrayDims length dimensions) range) :
    computeStridesOf word length dimensions range
      = .ok ((exactStrides (extents (arrayDims length dimensions) range) length).reduce word) := by
  have large : 1 < word := by omega
  have sizes : ¬length > 2 ^ 32 - 1 := by omega
  have agrees : ¬(dimensions ≠ [] ∧ wordProduct word (arrayDims length dimensions) ≠ length) := by
    rintro ⟨given, other⟩
    rw [wordProduct_eq large] at other
    exact other (product given)
  rw [computeStridesOf, if_neg sizes]
  change (if dimensions ≠ [] ∧ wordProduct word (arrayDims length dimensions) ≠ length then _
    else if range.length ≠ (arrayDims length dimensions).length then _
    else (rangeLengths (arrayDims length dimensions) range).bind _) = _
  rw [if_neg agrees, if_neg (not_not_intro fits.length_eq), fits.rangeLengths_eq]
  change Except.ok (wordStridesFrom word ((arrayDims length dimensions).zip
    ((range.map fun dim => dim.min.toNat).zip _)).reverse 1 false _) = _
  rw [fits.rows_eq, wordProduct_eq large, exactStrides, ← wordStridesFrom_eq]
  congr 2
  · exact (Nat.mod_eq_of_lt large).symm
  · have fitting : length % word = length := Nat.mod_eq_of_lt (short.trans_le wide)
    rw [Strides.reduce, fitting, Nat.zero_mod]
    rfl

theorem computeStridesOf_ok (wide : 2 ^ 32 ≤ word) {strides : Strides}
    (computed : computeStridesOf word length dimensions range = .ok strides) :
    length < 2 ^ 32 ∧ (dimensions ≠ [] → (arrayDims length dimensions).prod % word = length) ∧
      Fits (arrayDims length dimensions) range := by
  have large : 1 < word := by omega
  rw [computeStridesOf] at computed
  by_cases long : length > 2 ^ 32 - 1
  · rw [if_pos long] at computed
    cases computed
  rw [if_neg long] at computed
  change (if dimensions ≠ [] ∧ wordProduct word (arrayDims length dimensions) ≠ length then _
    else if range.length ≠ (arrayDims length dimensions).length then _
    else (rangeLengths (arrayDims length dimensions) range).bind _) = _ at computed
  by_cases differs : dimensions ≠ [] ∧ wordProduct word (arrayDims length dimensions) ≠ length
  · rw [if_pos differs] at computed
    cases computed
  rw [if_neg differs] at computed
  by_cases same : range.length ≠ (arrayDims length dimensions).length
  · rw [if_pos same] at computed
    cases computed
  rw [if_neg same] at computed
  refine ⟨by omega, fun given => ?_, ?_⟩
  · rw [← wordProduct_eq large]
    by_contra other
    exact differs ⟨given, other⟩
  · cases checked : rangeLengths (arrayDims length dimensions) range with
    | error status =>
      rw [checked] at computed
      cases computed
    | ok lengths => exact fits_of_rangeLengths (not_not.mp same) checked

theorem computeStridesOf_bad {status : StatusCode}
    (wrong : computeStridesOf word length dimensions range = .error status) : status ≠ good := by
  change (if length > 2 ^ 32 - 1 then _
    else if dimensions ≠ [] ∧ wordProduct word (arrayDims length dimensions) ≠ length then _
    else if range.length ≠ (arrayDims length dimensions).length then _
    else (rangeLengths (arrayDims length dimensions) range).bind _) = _ at wrong
  split at wrong
  · obtain rfl := Except.error.inj wrong
    decide
  split at wrong
  · obtain rfl := Except.error.inj wrong
    decide
  split at wrong
  · obtain rfl := Except.error.inj wrong
    decide
  cases checked : rangeLengths (arrayDims length dimensions) range with
  | error other =>
    rw [checked] at wrong
    obtain rfl := Except.error.inj wrong
    exact rangeLengths_bad checked
  | ok lengths =>
    rw [checked] at wrong
    cases wrong

end Words

theorem Fits.strides (type : DataType) (undefined : Bool)
    (fits : Fits (arrayDims elements.length dimensions) range)
    (consistent : (arrayDims elements.length dimensions).prod = elements.length)
    (short : elements.length < 2 ^ 32) :
    ∃ strides, computeStrides (.variantArray type undefined elements dimensions) range
      = .ok strides ∧ strides.Describes (arrayDims elements.length dimensions) range := by
  have describes := fits.describes
  have sizes := fits.size_eq
  rw [consistent] at describes sizes
  have word : elements.length < 2 ^ 64 := by omega
  refine ⟨_, ?_, describes⟩
  change computeStridesOf (2 ^ 64) elements.length dimensions range = _
  rw [computeStridesOf_eq (by decide) short _ fits, exactStrides_reduce fits.valid _ word]
  · rw [sizes]
    exact word
  · intro _
    rw [consistent, Nat.mod_eq_of_lt word]

theorem fits_of_computeStrides {strides : Strides}
    (computed : computeStrides (.variantArray type undefined elements dimensions) range
      = .ok strides) :
    Fits (arrayDims elements.length dimensions) range ∧ elements.length < 2 ^ 32 := by
  have checked := computed
  obtain ⟨short, _, fits⟩ := computeStridesOf_ok (by decide) checked
  exact ⟨fits, short⟩

theorem Strides.Describes.nodup {strides : Strides} (describes : strides.Describes dims range) :
    strides.visited.Nodup :=
  describes.ordered.imp Nat.ne_of_lt

theorem Strides.Describes.visited_length {strides : Strides}
    (describes : strides.Describes dims range) :
    strides.visited.length = (selectedPositions dims range).length := by
  rw [Strides.visited, strided_length, describes.counted, describes.total]

end Blocks

section ResultDimensions

theorem resultLength_eq_iff {dim : Nat} {range : NumericRangeDimension}
    (ordered : range.min ≤ range.max) (starts : range.min.toNat < dim) (small : dim < 2 ^ 32) :
    let len := (if range.max.toNat < dim then range.max.toNat else dim - 1) - range.min.toNat + 1
    let length := (range.max - range.min + 1).toNat
    (length = len ↔ range.max.toNat < dim) ∧ (length = 0 ∨ len ≤ length) := by
  have before : range.min.toNat ≤ range.max.toNat := ordered
  have bound := range.max.isLt
  have difference := BitVec.toNat_sub_of_le ordered
  have length : (range.max - range.min + 1).toNat
      = (range.max.toNat - range.min.toNat + 1) % 2 ^ 32 := by
    rw [BitVec.toNat_add, difference]
    rfl
  rw [length]
  by_cases inside : range.max.toNat < dim
  · rw [if_pos inside, Nat.mod_eq_of_lt (by omega)]
    exact ⟨iff_of_true rfl inside, .inr (Nat.le_refl _)⟩
  · rw [if_neg inside]
    by_cases whole : range.max.toNat - range.min.toNat + 1 = 2 ^ 32
    · rw [whole]
      exact ⟨iff_of_false (Nat.succ_ne_zero _).symm inside, .inl rfl⟩
    · exact ⟨iff_of_false (by omega) inside, .inr (by omega)⟩

def resultExtents : List Nat → List NumericRangeDimension → List Extent
  | dim :: dims, range :: ranges =>
    let realmax := if range.max.toNat < dim then range.max.toNat else dim - 1
    ⟨(range.max - range.min + 1).toNat, 0, realmax - range.min.toNat + 1⟩ ::
      resultExtents dims ranges
  | _, _ => []

variable {dims : List Nat} {range : List NumericRangeDimension}

def resultDimensions (range : List NumericRangeDimension) : List (BitVec 32) :=
  range.map fun dim => dim.max - dim.min + 1

def Ends (dims : List Nat) (range : List NumericRangeDimension) : Prop :=
  ∀ pair ∈ dims.zip range, pair.2.max.toNat < pair.1

section

variable (fits : Fits dims range)
include fits

theorem resultExtents_size :
    size (resultExtents dims range) = ((resultDimensions range).map BitVec.toNat).prod := by
  induction fits with
  | nil => rfl
  | cons _ _ _ ih =>
    rw [resultExtents, size_cons, ih]
    simp [resultDimensions]

theorem resultExtents_count : count (resultExtents dims range) = count (extents dims range) := by
  induction fits with
  | nil => rfl
  | cons _ _ _ ih => rw [resultExtents, extents, count_cons, count_cons, ih]

theorem resultExtents_full (small : ∀ dim ∈ dims, dim < 2 ^ 32) :
    Full (resultExtents dims range) ↔ Ends dims range := by
  induction fits with
  | nil => exact iff_of_true (List.forall_mem_nil _) (List.forall_mem_nil _)
  | cons ordered starts fits ih =>
    obtain ⟨here, there⟩ := List.forall_mem_cons.mp small
    rw [resultExtents, Full, List.forall_mem_cons, Ends, List.zip_cons_cons, List.forall_mem_cons]
    exact and_congr (eq_comm.trans (resultLength_eq_iff ordered starts here).1) (ih there)

theorem resultExtents_valid (small : ∀ dim ∈ dims, dim < 2 ^ 32)
    (positive : 0 < size (resultExtents dims range)) :
    ∀ row ∈ resultExtents dims range, row.Valid := by
  induction fits with
  | nil => exact List.forall_mem_nil _
  | cons ordered starts fits ih =>
    obtain ⟨here, there⟩ := List.forall_mem_cons.mp small
    rw [resultExtents, size_cons] at positive
    rw [resultExtents, List.forall_mem_cons]
    refine ⟨⟨Nat.succ_pos _, ?_⟩, ih there (Nat.pos_of_mul_pos_left positive)⟩
    have length := (resultLength_eq_iff ordered starts here).2
    rw [Nat.zero_add]
    refine length.resolve_left fun zero => ?_
    rw [zero, Nat.zero_mul] at positive
    cases positive

theorem resultDimensions_product (small : ∀ dim ∈ dims, dim < 2 ^ 32) :
    ((resultDimensions range).map BitVec.toNat).prod = (selectedPositions dims range).length ↔
      Ends dims range := by
  rw [fits.selected_length, ← resultExtents_size fits, ← resultExtents_count fits,
    ← resultExtents_full fits small]
  constructor
  · intro same
    have positive : 0 < size (resultExtents dims range) := by
      rw [same, resultExtents_count fits]
      exact count_pos fits.valid
    exact full_of_count (resultExtents_valid fits small positive) (Nat.le_of_eq same)
  · intro full
    exact full.count_eq.symm

end

end ResultDimensions

def HoldsRange (type : DataType) (elements : List Value) (dims : List Nat)
    (range : List NumericRangeDimension) (dst : Value) : Prop :=
  ∃ lengths, dst = .variantArray type false (gather (selectedPositions dims range) elements) lengths ∧
    (lengths = [] ∨ (lengths.map BitVec.toNat).prod
      = (gather (selectedPositions dims range) elements).length)

namespace ElementMemory

section Copies

variable {memory : ElementMemory} {type : DataType} {elements : List Value}

theorem copies_length (memory : ElementMemory) (type : DataType) (elements : List Value) :
    (memory.copies type elements).length = elements.length := by
  rw [copies, List.length_mapIdx]

theorem copies_eq_self (found : ∀ index element, elements[index]? = some element →
    memory.found index element = true) : memory.copies type elements = elements := by
  apply List.ext_getElem?
  intro index
  rw [copies, List.getElem?_mapIdx]
  cases here : elements[index]? with
  | none => rfl
  | some element =>
    rw [Option.map_some, found index element here, if_pos rfl]

theorem found_of_copies (absent : memory.null type ∉ memory.copies type elements) (index : Nat)
    (element : Value) (here : elements[index]? = some element) :
    memory.found index element = true := by
  by_contra missing
  apply absent
  apply List.mem_of_getElem? (i := index)
  rw [copies, List.getElem?_mapIdx, here, Option.map_some, if_neg missing]

theorem found_last (last : (memory.copyResults elements).getLastD good = good) (index : Nat)
    (element : Value) (here : elements[index]? = some element)
    (end' : index + 1 = elements.length) : memory.found index element = true := by
  rw [List.getLastD_eq_getLast?, List.getLast?_eq_getElem?, copyResults, List.length_mapIdx,
    List.getElem?_mapIdx, ← end', Nat.add_sub_cancel, here] at last
  by_contra missing
  rw [Option.map_some, if_neg missing] at last
  cases last

end Copies

section Reading

variable {memory : ElementMemory} {levels : Nat} {type : DataType} {undefined : Bool}
  {elements : List Value} {dimensions : List (BitVec 32)} {range : List NumericRangeDimension}
variable {inner : Value → List NumericRangeDimension → Except StatusCode Value}
  {content : List Value}

theorem arrayDims_length (length : Nat) (dimensions : List (BitVec 32)) :
    (arrayDims length dimensions).length = if dimensions = [] then 1 else dimensions.length := by
  rw [arrayDims]
  split
  · rfl
  · rw [List.length_map]

theorem copyRange_array (memory : ElementMemory) (levels : Nat) (type : DataType)
    (undefined : Bool) (same : range.length = (arrayDims elements.length dimensions).length) :
    memory.copyRange (levels + 1) (.variantArray type undefined elements dimensions) range
      = (computeStrides (.variantArray type undefined elements dimensions) range).bind
        fun strides =>
          (memory.copyContent (memory.copyRange levels) type (gather strides.visited elements)
            []).bind fun content => .ok (.variantArray type false content
              (if dimensions = [] then [] else resultDimensions range)) := by
  rw [arrayDims_length] at same
  rw [copyRange, copyRangeWith]
  simp only [← same, gt_iff_lt, Nat.lt_irrefl, if_false, List.take_length, List.drop_length,
    readBlocks_eq]
  rfl

/-- Behind the first dimension with more than one selected index all dimensions are selected
completely, up to the last one that is selected in part. The range ends inside of each dimension of
an array that has dimensions. No copy but the last one runs out of memory. -/
structure Readable (memory : ElementMemory) (type : DataType) (elements : List Value)
    (dimensions : List (BitVec 32)) (range : List NumericRangeDimension) : Prop where
  contiguous : Contiguous (outer (extents (arrayDims elements.length dimensions) range))
  ends : dimensions ≠ [] → Ends (arrayDims elements.length dimensions) range
  found : memory.pointerFree type = true ∨ ∀ index element,
    (gather (selectedPositions (arrayDims elements.length dimensions) range) elements)[index]?
      = some element →
    index + 1 < (selectedPositions (arrayDims elements.length dimensions) range).length →
      memory.found index element = true

theorem selected_inside {dims : List Nat} (range : List NumericRangeDimension)
    (consistent : dims.prod = elements.length) :
    ∀ position ∈ selectedPositions dims range, position < elements.length := by
  intro position member
  rw [← consistent]
  exact List.mem_range.mp (List.mem_filter.mp member).1

theorem dims_small (short : elements.length < 2 ^ 32) :
    ∀ dim ∈ arrayDims elements.length dimensions, dim < 2 ^ 32 := by
  intro dim member
  rw [arrayDims] at member
  by_cases none : dimensions = []
  · rw [if_pos none, List.mem_singleton] at member
    rw [member]
    exact short
  · rw [if_neg none] at member
    obtain ⟨length, _, rfl⟩ := List.mem_map.mp member
    exact length.isLt

theorem copyContent_ok (copied : memory.copyContent inner type elements [] = .ok content) :
    (memory.pointerFree type = true ∧ content = elements) ∨
      (memory.pointerFree type = false ∧ (memory.copyResults elements).getLastD good = good ∧
        content = memory.copies type elements) := by
  rw [copyContent] at copied
  cases plain : memory.pointerFree type with
  | true =>
    rw [plain] at copied
    exact .inl ⟨rfl, (Except.ok.inj copied).symm⟩
  | false =>
    rw [plain] at copied
    by_cases last : (memory.copyResults elements).getLastD good = good
    · simp only [Bool.false_eq_true, if_false, last, ne_eq, not_true_eq_false] at copied
      exact .inr ⟨rfl, last, (Except.ok.inj copied).symm⟩
    · simp only [Bool.false_eq_true, if_false, ne_eq, last, not_false_eq_true, if_true] at copied
      cases copied

theorem resultLengths_iff (fits : Fits (arrayDims elements.length dimensions) range)
    (short : elements.length < 2 ^ 32) :
    ((if dimensions = [] then [] else resultDimensions range) = [] ∨
      ((if dimensions = [] then [] else resultDimensions range).map BitVec.toNat).prod
        = (selectedPositions (arrayDims elements.length dimensions) range).length) ↔
      (dimensions ≠ [] → Ends (arrayDims elements.length dimensions) range) := by
  by_cases none : dimensions = []
  · rw [if_pos none]
    exact iff_of_true (.inl rfl) fun some => absurd none some
  · rw [if_neg none, ← resultDimensions_product fits (dims_small short)]
    have present : resultDimensions range ≠ [] := by
      intro empty
      have length := fits.length_eq
      rw [List.map_eq_nil_iff.mp empty, arrayDims, if_neg none, List.length_map] at length
      exact none (List.length_eq_zero_iff.mp length.symm)
    exact (or_iff_right present).trans ⟨fun product _ => product, fun product => product none⟩

theorem Readable.content_eq {strides : Strides}
    (readable : memory.Readable type elements dimensions range)
    (consistent : (arrayDims elements.length dimensions).prod = elements.length)
    (describes : strides.Describes (arrayDims elements.length dimensions) range)
    (copied : memory.copyContent inner type (gather strides.visited elements) [] = .ok content) :
    content = gather (selectedPositions (arrayDims elements.length dimensions) range) elements := by
  rw [describes.selects.mpr readable.contiguous] at copied
  rcases copyContent_ok copied with ⟨_, same⟩ | ⟨pointers, last, same⟩
  · exact same
  · rw [same]
    apply copies_eq_self
    intro index element here
    have below : index < _ := (List.getElem?_eq_some_iff.mp here).1
    have length := gather_length (selected_inside range consistent)
    by_cases later : index + 1
        < (selectedPositions (arrayDims elements.length dimensions) range).length
    · rcases readable.found with plain | found
      · rw [plain] at pointers
        cases pointers
      · exact found index element here later
    · exact found_last last index element here (by omega)

theorem visited_of_content {strides : Strides} (distinct : (memory.null type :: elements).Nodup)
    (consistent : (arrayDims elements.length dimensions).prod = elements.length)
    (describes : strides.Describes (arrayDims elements.length dimensions) range)
    (copied : memory.copyContent inner type (gather strides.visited elements) [] = .ok content)
    (selects : content
      = gather (selectedPositions (arrayDims elements.length dimensions) range) elements) :
    strides.visited = selectedPositions (arrayDims elements.length dimensions) range ∧
      (memory.pointerFree type = true ∨ ∀ index element,
        (gather strides.visited elements)[index]? = some element →
          memory.found index element = true) := by
  obtain ⟨absent, nodup⟩ := List.nodup_cons.mp distinct
  have inside := selected_inside range consistent
  rcases copyContent_ok copied with ⟨plain, same⟩ | ⟨_, _, same⟩
  · rw [selects] at same
    exact ⟨gather_inj nodup inside describes.visited_length same.symm, .inl plain⟩
  · rw [selects] at same
    have missing : memory.null type ∉ memory.copies type (gather strides.visited elements) := by
      rw [← same]
      exact fun member => absent (mem_of_gather member)
    have found := found_of_copies missing
    rw [copies_eq_self found] at same
    exact ⟨gather_inj nodup inside describes.visited_length same.symm, .inr found⟩

/-- Reading a range of an array with consistent dimensions. In the second part the elements differ,
which shows where they come from. -/
theorem copyRange_holds {dst : Value}
    (consistent : (arrayDims elements.length dimensions).prod = elements.length)
    (same : range.length = (arrayDims elements.length dimensions).length)
    (succeeds : memory.copyRange (levels + 1) (.variantArray type undefined elements dimensions)
      range = .ok dst) :
    (memory.Readable type elements dimensions range →
      HoldsRange type elements (arrayDims elements.length dimensions) range dst) ∧
    ((memory.null type :: elements).Nodup →
      HoldsRange type elements (arrayDims elements.length dimensions) range dst →
        memory.Readable type elements dimensions range) := by
  rw [copyRange_array memory levels type undefined same] at succeeds
  cases computed : computeStrides (.variantArray type undefined elements dimensions) range with
  | error status =>
    rw [computed] at succeeds
    cases succeeds
  | ok strides =>
    obtain ⟨fits, short⟩ := fits_of_computeStrides computed
    obtain ⟨known, result, describes⟩ := fits.strides type undefined consistent short
    cases computed.symm.trans result
    have length := gather_length (selected_inside range consistent)
    have lengths := resultLengths_iff fits short
    rw [computed] at succeeds
    change (memory.copyContent _ type (gather strides.visited elements) []).bind _ = _ at succeeds
    cases copied : memory.copyContent (memory.copyRange levels) type
        (gather strides.visited elements) [] with
    | error status =>
      rw [copied] at succeeds
      cases succeeds
    | ok content =>
      rw [copied] at succeeds
      obtain rfl := Except.ok.inj succeeds
      constructor
      · intro readable
        rw [readable.content_eq consistent describes copied]
        exact ⟨_, rfl, by rw [length]; exact lengths.mpr readable.ends⟩
      · rintro distinct ⟨others, equal, product⟩
        cases equal
        rw [length] at product
        obtain ⟨visited, found⟩ :=
          visited_of_content distinct consistent describes copied rfl
        refine ⟨describes.selects.mp visited, lengths.mp product, ?_⟩
        rw [← visited]
        exact found.imp_right fun all index element here _ => all index element here

end Reading

end ElementMemory

def byteMemory : ElementMemory where
  pointerFree := fun _ => true
  null := fun _ => .leaf (.byte 0)
  bytes := fun _ => [0]
  found := fun _ _ => true

def byteElements (bytes : List Byte) : List Value := bytes.map fun byte => .leaf (.byte byte)

theorem byteMatrix_holds : HoldsRange byteType (byteElements [1, 2, 3, 4])
    (arrayDims 4 [2, 2]) [⟨0, 1⟩, ⟨1, 1⟩]
    (.variantArray byteType false (byteElements [2, 4]) [2, 1]) := by
  have copied : byteMemory.copyRange 1 (.variantArray byteType false (byteElements [1, 2, 3, 4])
      [2, 2]) [⟨0, 1⟩, ⟨1, 1⟩] = .ok (.variantArray byteType false (byteElements [2, 4]) [2, 1]) :=
    rfl
  refine (ElementMemory.copyRange_holds rfl rfl copied).1 ⟨by decide, fun _ => ?_, .inl rfl⟩
  rw [Ends]
  decide

/-- Two inner dimensions that are selected in part: the third block is not where the second plane
starts. And a range that ends behind its dimension: the result says that it has ten elements. -/
theorem byteCube_misses : (∃ dst, byteMemory.copyRange 1 (.variantArray byteType false
      (byteElements [1, 2, 3, 4, 5, 6, 7, 8, 9, 10, 11, 12]) [2, 3, 2])
      [⟨0, 1⟩, ⟨0, 1⟩, ⟨0, 0⟩] = .ok dst ∧
    ¬HoldsRange byteType
      (byteElements [1, 2, 3, 4, 5, 6, 7, 8, 9, 10, 11, 12]) (arrayDims 12 [2, 3, 2])
      [⟨0, 1⟩, ⟨0, 1⟩, ⟨0, 0⟩] dst) ∧
    ∃ dst, byteMemory.copyRange 1 (.variantArray byteType false (byteElements [1, 2, 3, 4])
      [2, 2]) [⟨0, 1⟩, ⟨1, 5⟩] = .ok dst ∧
    ¬HoldsRange byteType (byteElements [1, 2, 3, 4]) (arrayDims 4 [2, 2]) [⟨0, 1⟩, ⟨1, 5⟩] dst := by
  constructor
  · have positions : selectedPositions (arrayDims 12 [2, 3, 2]) [⟨0, 1⟩, ⟨0, 1⟩, ⟨0, 0⟩]
        = [0, 2, 6, 8] := by decide
    refine ⟨_, rfl, ?_⟩
    rintro ⟨lengths, equal, _⟩
    rw [positions] at equal
    change Value.variantArray byteType false (byteElements [1, 3, 5, 7]) _
      = .variantArray byteType false (byteElements [1, 3, 7, 9]) lengths at equal
    cases equal
  · have positions : selectedPositions (arrayDims 4 [2, 2]) [⟨0, 1⟩, ⟨1, 5⟩] = [1, 3] := by
      decide
    refine ⟨_, rfl, ?_⟩
    rintro ⟨lengths, equal, product⟩
    rw [positions] at equal product
    change Value.variantArray byteType false (byteElements [2, 4]) [2, 5]
      = .variantArray byteType false (byteElements [2, 4]) lengths at equal
    cases equal
    rcases product with none | wrong
    · cases none
    · exact absurd wrong (by decide)

end OpcUa
