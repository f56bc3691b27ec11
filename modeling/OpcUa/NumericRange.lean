import OpcUa.NumericRangeCore

/-!
Which texts `UA_NumericRange_parseFromString` takes. The parser stays within the text and its array
whatever memory there is. It takes each text that describes a range and gives that range, and it
also takes the texts of greater numbers if what is left of them in words of 32 bits ascends.
-/

namespace OpcUa

open LittleEndian StatusCode DecimalText List

variable {digits rest buf : List Byte} {dim first : DimensionText} {more : List DimensionText}
  {left : Nat} {range : List NumericRangeDimension}

theorem digit_word {digit : Byte} (known : IsDigit digit) (number : Nat) :
    BitVec.ofNat 32 number * 10 + (digit - 48).setWidth 32 =
      BitVec.ofNat 32 (number * 10 + digitValue digit) := by
  have least := BitVec.le_def.mp known.1
  have most := BitVec.le_def.mp known.2
  simp only [BitVec.ofNat_eq_ofNat, BitVec.toNat_ofNat] at least most
  apply BitVec.eq_of_toNat_eq
  rw [digitValue]
  simp only [BitVec.ofNat_eq_ofNat, BitVec.toNat_add, BitVec.toNat_mul, BitVec.toNat_ofNat,
    BitVec.toNat_setWidth, BitVec.toNat_sub]
  omega

theorem readNumber_extend (all : ∀ digit ∈ digits, IsDigit digit) (stops : Stops rest)
    (progress number : Nat) :
    readNumber (digits ++ rest) progress (BitVec.ofNat 32 number) =
      (progress + digits.length, BitVec.ofNat 32 (extend number digits)) := by
  induction digits generalizing progress number with
  | nil =>
    cases rest with
    | nil => rfl
    | cons byte rest =>
      have other := stops byte (by simp)
      have outside : byte < 48 ∨ byte > 57 := by
        by_contra inside
        simp only [not_or, BitVec.not_lt, gt_iff_lt] at inside
        exact other inside
      rw [nil_append, readNumber, if_pos outside]
      rfl
  | cons digit digits ih =>
    have first := all digit (mem_cons_self ..)
    have inside : ¬(digit < 48 ∨ digit > 57) := by
      simp only [not_or, BitVec.not_lt, gt_iff_lt]
      exact first
    rw [cons_append, readNumber, if_neg inside, digit_word first,
      ih fun other member => all other (mem_cons_of_mem _ member)]
    simp only [extend, foldl_cons, length_cons]
    congr 1
    omega

theorem readNumber_split (all : ∀ digit ∈ digits, IsDigit digit) (stops : Stops rest) :
    readNumber (digits ++ rest) 0 0 = (digits.length, BitVec.ofNat 32 (value digits)) := by
  have read := readNumber_extend all stops 0 0
  rw [Nat.zero_add] at read
  exact read

theorem stops_byte {byte : Byte} (other : ¬IsDigit byte) : Stops (byte :: rest) := by
  simpa [Stops] using other

def Separated (rest : List Byte) : Prop := rest = [] ∨ ∃ more, rest = 44 :: more

theorem Separated.stops (separated : Separated rest) : Stops rest := by
  rcases separated with rfl | ⟨more, rfl⟩
  · simp [Stops]
  · exact stops_byte (by decide)

theorem readDimension_numeral (numeral : Numeral digits) (stops : Stops rest) :
    readDimension (digits ++ rest) =
      if rest.length ≤ 1 ∨ rest.head? ≠ some 58 then
        some (digits.length, (DimensionText.index digits).dimension)
      else
        match readNumber rest.tail 0 0 with
        | (0, _) => none
        | (progress2, max) =>
          if BitVec.ofNat 32 (value digits) ≥ max then none
          else some (digits.length + 1 + progress2, ⟨BitVec.ofNat 32 (value digits), max⟩) := by
  have read := readNumber_split numeral.digits stops
  have some_digits : digits.length ≠ 0 := by
    simpa using numeral.nonempty
  have next : (digits ++ rest)[digits.length]? = rest.head? := by
    rw [getElem?_append_right (Nat.le_refl _), Nat.sub_self, head?_eq_getElem?]
  have behind : (digits ++ rest).drop (digits.length + 1) = rest.tail := by
    rw [drop_append, drop_eq_nil_of_le (by omega), Nat.add_sub_cancel_left, drop_one, nil_append]
  have short : (digits ++ rest).length ≤ digits.length + 1 ↔ rest.length ≤ 1 := by
    rw [length_append]
    omega
  rw [readDimension]
  split
  · rename_i none_read
    rw [read] at none_read
    exact absurd (congrArg Prod.fst none_read) some_digits
  · rename_i progress min _ numbers
    rw [read] at numbers
    obtain ⟨rfl, rfl⟩ := Prod.mk.inj numbers
    rw [next, behind]
    simp only [short]
    rfl

theorem readDimension_bounds {low high : List Byte} (numeral : Numeral low)
    (numeral2 : Numeral high) (stops : Stops rest) :
    readDimension ((DimensionText.bounds low high).text ++ rest) =
      if (DimensionText.bounds low high).Ascends then
        some ((DimensionText.bounds low high).text.length,
          (DimensionText.bounds low high).dimension)
      else none := by
  have second := readNumber_split numeral2.digits stops
  have some_high : 0 < high.length := length_pos_iff.mpr numeral2.nonempty
  have colon : ¬((58 :: (high ++ rest)).length ≤ 1 ∨
      (58 :: (high ++ rest)).head? ≠ some (58 : Byte)) := by
    simp only [length_cons, length_append, head?_cons, ne_eq, not_true_eq_false, or_false]
    omega
  have order : BitVec.ofNat 32 (value low) ≥ BitVec.ofNat 32 (value high) ↔
      ¬(DimensionText.bounds low high).Ascends := by
    simp only [ge_iff_le, BitVec.le_def, BitVec.toNat_ofNat, DimensionText.Ascends,
      DimensionText.low, DimensionText.high]
    omega
  rw [DimensionText.text, append_assoc, cons_append,
    readDimension_numeral numeral (stops_byte (by decide)), if_neg colon, tail_cons]
  split
  · rename_i none_read
    rw [second] at none_read
    have empty := congrArg Prod.fst none_read
    omega
  · rename_i progress2 max _ numbers
    rw [second] at numbers
    obtain ⟨rfl, rfl⟩ := Prod.mk.inj numbers
    by_cases ascends : (DimensionText.bounds low high).Ascends
    · rw [if_neg (order.not.mpr (not_not.mpr ascends)), if_pos ascends]
      simp only [length_append, length_cons, DimensionText.dimension,
        DimensionText.low, DimensionText.high]
      congr 2
      omega
    · rw [if_pos (order.mpr ascends), if_neg ascends]

theorem readDimension_text (formed : dim.WellFormed) (separated : Separated rest) :
    readDimension (dim.text ++ rest) =
      if dim.Ascends then some (dim.text.length, dim.dimension) else none := by
  cases dim with
  | index digits =>
    have plain : rest.length ≤ 1 ∨ rest.head? ≠ some 58 := by
      rcases separated with rfl | ⟨more, rfl⟩ <;> simp
    have ascends : (DimensionText.index digits).Ascends := trivial
    rw [DimensionText.text, readDimension_numeral formed separated.stops, if_pos plain,
      if_pos ascends]
  | bounds low high => exact readDimension_bounds formed.1 formed.2 separated.stops

theorem readDimension_sound {progress : Nat} {dim : NumericRangeDimension}
    (reads : readDimension buf = some (progress, dim)) :
    ∃ written : DimensionText, written.WellFormed ∧ written.Ascends ∧
      (∃ rest, buf = written.text ++ rest) ∧ progress = written.text.length ∧
      dim = written.dimension := by
  obtain ⟨digits, rest, rfl, all, stops⟩ := exists_split buf
  by_cases none_first : digits = []
  · have none_read := readNumber_split all stops
    rw [none_first, nil_append] at none_read
    rw [none_first, nil_append, readDimension, none_read] at reads
    cases reads
  have numeral : Numeral digits := ⟨none_first, all⟩
  by_cases plain : rest.length ≤ 1 ∨ rest.head? ≠ some 58
  · rw [readDimension_numeral numeral stops, if_pos plain] at reads
    obtain ⟨rfl, rfl⟩ := Prod.mk.inj (Option.some.inj reads)
    exact ⟨.index digits, numeral, trivial, ⟨rest, rfl⟩, rfl, rfl⟩
  obtain ⟨colon, tail, rfl⟩ : ∃ colon tail, rest = colon :: tail := by
    apply exists_cons_of_ne_nil
    rintro rfl
    exact plain (.inl (by simp))
  obtain rfl : colon = 58 := by
    by_contra other
    exact plain (.inr (by simpa using other))
  obtain ⟨high, behind, rfl, all2, stops2⟩ := exists_split tail
  by_cases none_second : high = []
  · have none_read := readNumber_split all2 stops2
    rw [none_second, nil_append] at none_read
    rw [readDimension_numeral numeral stops, if_neg plain, none_second, tail_cons,
      nil_append, none_read] at reads
    cases reads
  · have numeral2 : Numeral high := ⟨none_second, all2⟩
    have whole := readDimension_bounds numeral numeral2 stops2
    rw [DimensionText.text, append_assoc, cons_append, reads] at whole
    split at whole
    · rename_i ascends
      obtain ⟨rfl, rfl⟩ := Prod.mk.inj (Option.some.inj whole)
      exact ⟨.bounds digits high, ⟨numeral, numeral2⟩, ascends,
        ⟨behind, by simp [DimensionText.text]⟩, rfl, rfl⟩
    · cases whole

/-! Texts of several dimensions -/

def DimensionText.Taken (dim : DimensionText) : Prop := dim.WellFormed ∧ dim.Ascends

theorem rangeText_cons (first second : DimensionText) (more : List DimensionText) :
    rangeText first (second :: more) = first.text ++ 44 :: rangeText second more := by
  simp [rangeText]

theorem separated_flatMap (more : List DimensionText) :
    Separated (more.flatMap fun dim => 44 :: dim.text) := by
  cases more with
  | nil => exact .inl rfl
  | cons dim more => exact .inr ⟨_, by rw [flatMap_cons, cons_append]⟩

theorem length_more (first : DimensionText) (more : List DimensionText) :
    more.length ≤ (rangeText first more).length := by
  induction more generalizing first with
  | nil => exact Nat.zero_le _
  | cons second more ih =>
    have later := ih second
    rw [rangeText_cons, length_append, length_cons, length_cons]
    omega

theorem readDimensions_text (taken : ∀ dim ∈ first :: more, dim.Taken) (enough : more.length < left)
    :
    readDimensions left (rangeText first more) =
      some ((first :: more).map DimensionText.dimension) := by
  induction more generalizing first left with
  | nil =>
    obtain ⟨formed, ascends⟩ := taken first (mem_singleton_self first)
    have read := readDimension_text formed (.inl rfl : Separated [])
    rw [if_pos ascends] at read
    obtain ⟨left, rfl⟩ := Nat.exists_eq_succ_of_ne_zero (Nat.ne_of_gt enough)
    rw [rangeText, flatMap_nil, readDimensions, read]
    simp
  | cons second more ih =>
    obtain ⟨formed, ascends⟩ := taken first (mem_cons_self ..)
    have read := readDimension_text formed
      (.inr ⟨rangeText second more, rfl⟩ : Separated (44 :: rangeText second more))
    rw [if_pos ascends] at read
    obtain ⟨left, rfl⟩ := Nat.exists_eq_succ_of_ne_zero (Nat.ne_of_gt (Nat.zero_lt_of_lt enough))
    have fewer : more.length < left := by
      rw [length_cons] at enough
      omega
    have later := ih (fun dim member => taken dim (mem_cons_of_mem _ member)) fewer
    rw [rangeText_cons, readDimensions, read]
    simp [later]

theorem readDimensions_sound (reads : readDimensions left buf = some range) :
    ∃ first more, (∀ dim ∈ first :: more, dim.Taken) ∧ buf = rangeText first more ∧
      range = (first :: more).map DimensionText.dimension := by
  induction left generalizing buf range with
  | zero => cases reads
  | succ left ih =>
    obtain ⟨⟨progress, dim⟩, read, rest_read⟩ := Option.bind_eq_some_iff.mp reads
    obtain ⟨written, formed, ascends, ⟨rest, rfl⟩, rfl, rfl⟩ := readDimension_sound read
    have behind : (written.text ++ rest).drop written.text.length = rest := drop_left
    dsimp only at rest_read
    rw [behind] at rest_read
    cases rest with
    | nil =>
      obtain rfl := Option.some.inj rest_read
      refine ⟨written, [], ?_, by simp [rangeText], rfl⟩
      intro dim member
      rw [mem_singleton.mp member]
      exact ⟨formed, ascends⟩
    | cons separator rest =>
      dsimp only at rest_read
      split at rest_read
      · cases rest_read
      · rename_i comma
        obtain ⟨others, later, whole⟩ := Option.bind_eq_some_iff.mp rest_read
        obtain rfl := Option.some.inj whole
        obtain ⟨second, more, taken, rfl, rfl⟩ := ih later
        refine ⟨written, second :: more, ?_, ?_, rfl⟩
        · intro dim member
          rcases mem_cons.mp member with rfl | member
          · exact ⟨formed, ascends⟩
          · exact taken dim member
        · rw [rangeText_cons, not_not.mp comma]

theorem readDimensions_iff (enough : buf.length < left) : readDimensions left buf = some range ↔
      ∃ first more, (∀ dim ∈ first :: more, dim.Taken) ∧ buf = rangeText first more ∧
        range = (first :: more).map DimensionText.dimension := by
  constructor
  · exact readDimensions_sound
  · rintro ⟨first, more, taken, rfl, rfl⟩
    exact readDimensions_text taken (Nat.lt_of_le_of_lt (length_more first more) enough)

theorem readDimension_positive {progress : Nat} {dim : NumericRangeDimension}
    (reads : readDimension buf = some (progress, dim)) : 0 < progress ∧ progress ≤ buf.length := by
  obtain ⟨written, formed, -, ⟨rest, rfl⟩, rfl, -⟩ := readDimension_sound reads
  refine ⟨?_, by simp⟩
  cases written with
  | index digits => exact length_pos_iff.mpr formed.nonempty
  | bounds low high => simp [DimensionText.text]

theorem parseDimensions_reads (memory : Nat → Bool) {str : List Byte}
    {dimensions : List NumericRangeDimension} {dimensionsMax offset : Nat}
    (fits : dimensions.length ≤ dimensionsMax) (inside : offset ≤ str.length)
    (enough : str.length - offset < left) :
    ∃ status read, parseDimensions memory str left ⟨dimensions, dimensionsMax, offset⟩ =
      some (status, read) ∧
      (status = badOutOfMemory ∧ (∃ size, memory size = false) ∨
        status = badIndexRangeInvalid ∧ readDimensions left (str.drop offset) = none ∨
        status = good ∧ ∃ more, readDimensions left (str.drop offset) = some more ∧
          read = dimensions ++ more) := by
  induction left generalizing dimensions dimensionsMax offset with
  | zero => omega
  | succ left ih =>
    rw [parseDimensions]
    by_cases noMemory : dimensions.length ≥ dimensionsMax ∧ (!memory (dimensionsMax + 2)) = true
    · rw [if_pos noMemory]
      exact ⟨_, _, rfl, .inl ⟨rfl, _, by simpa using noMemory.2⟩⟩
    rw [if_neg noMemory]
    have room : dimensions.length <
        (if dimensions.length ≥ dimensionsMax then dimensionsMax + 2 else dimensionsMax) := by
      split <;> omega
    generalize (if dimensions.length ≥ dimensionsMax then dimensionsMax + 2 else dimensionsMax) =
      grown at room ⊢
    rw [if_neg (by omega), readDimensions]
    cases reads : readDimension (str.drop offset) with
    | none => exact ⟨_, _, rfl, .inr (.inl ⟨rfl, rfl⟩)⟩
    | some read =>
      obtain ⟨progress, dim⟩ := read
      obtain ⟨positive, within⟩ := readDimension_positive reads
      dsimp only [Option.bind_eq_bind, Option.bind_some]
      rw [drop_drop]
      by_cases ends : offset + progress ≥ str.length
      · rw [if_pos ends, drop_eq_nil_of_le ends]
        exact ⟨_, _, rfl, .inr (.inr ⟨rfl, _, rfl, rfl⟩)⟩
      · have next : offset + progress < str.length := by omega
        rw [if_neg ends, drop_eq_getElem_cons next, getElem?_eq_getElem next]
        dsimp only [Option.bind_some]
        by_cases comma : str[offset + progress] = 44
        · rw [if_neg (not_not.mpr comma), if_neg (not_not.mpr comma)]
          have fits : (dimensions ++ [dim]).length ≤ grown := by
            rw [length_append, length_singleton]
            omega
          obtain ⟨status, read, ran, outcome⟩ := ih fits next (by omega)
          refine ⟨status, read, ran, ?_⟩
          rcases outcome with failed | ⟨invalid, none_read⟩ | ⟨succeeded, more, rest, rfl⟩
          · exact .inl failed
          · rw [none_read]
            exact .inr (.inl ⟨invalid, rfl⟩)
          · rw [rest]
            exact .inr (.inr ⟨succeeded, _, rfl, by simp⟩)
        · rw [if_pos comma, if_pos comma]
          exact ⟨_, _, rfl, .inr (.inl ⟨rfl, rfl⟩)⟩

theorem text_unique {second : DimensionText} {behind : List Byte} (formed : first.WellFormed)
    (formed2 : second.WellFormed) (separated : Separated rest) (separated2 : Separated behind)
    (same : first.text ++ rest = second.text ++ behind) : first = second ∧ rest = behind := by
  have colon {digits low high rest behind : List Byte} (numeral : Numeral digits)
      (numeral2 : Numeral low) (separated : Separated rest)
      (same : digits ++ rest = low ++ 58 :: (high ++ behind)) : False := by
    obtain ⟨-, tails⟩ := split_unique numeral.digits numeral2.digits separated.stops
      (stops_byte (by decide)) same
    rcases separated with rfl | ⟨more, rfl⟩
    · cases tails
    · exact absurd (List.cons.inj tails).1 (by decide)
  cases first with
  | index digits =>
    cases second with
    | index others =>
      obtain ⟨rfl, tails⟩ := split_unique formed.digits formed2.digits separated.stops
        separated2.stops same
      exact ⟨rfl, tails⟩
    | bounds low high =>
      rw [DimensionText.text, DimensionText.text, append_assoc, cons_append] at same
      exact (colon formed formed2.1 separated same).elim
  | bounds low high =>
    cases second with
    | index others =>
      rw [DimensionText.text, DimensionText.text, append_assoc] at same
      exact (colon formed2 formed.1 separated2 same.symm).elim
    | bounds low2 high2 =>
      rw [DimensionText.text, DimensionText.text, append_assoc, append_assoc,
        cons_append, cons_append] at same
      obtain ⟨rfl, tails⟩ := split_unique formed.1.digits formed2.1.digits
        (stops_byte (by decide)) (stops_byte (by decide)) same
      obtain ⟨rfl, rests⟩ := split_unique formed.2.digits formed2.2.digits separated.stops
        separated2.stops (List.cons.inj tails).2
      exact ⟨rfl, rests⟩

theorem rangeText_unique {first2 : DimensionText} {more2 : List DimensionText}
    (formed : ∀ dim ∈ first :: more, dim.WellFormed)
    (formed2 : ∀ dim ∈ first2 :: more2, dim.WellFormed)
    (same : rangeText first more = rangeText first2 more2) : first :: more = first2 :: more2 := by
  induction more generalizing first first2 more2 with
  | nil =>
    obtain ⟨rfl, tails⟩ := text_unique (formed first (mem_cons_self ..))
      (formed2 first2 (mem_cons_self ..)) (separated_flatMap []) (separated_flatMap more2)
      same
    cases more2 with
    | nil => rfl
    | cons dim more2 => cases tails
  | cons second more ih =>
    obtain ⟨rfl, tails⟩ := text_unique (formed first (mem_cons_self ..))
      (formed2 first2 (mem_cons_self ..)) (separated_flatMap (second :: more))
      (separated_flatMap more2) same
    cases more2 with
    | nil => cases tails
    | cons second2 more2 =>
      rw [ih (fun dim member => formed dim (mem_cons_of_mem _ member))
        (fun dim member => formed2 dim (mem_cons_of_mem _ member))
        (List.cons.inj tails).2]

theorem DimensionText.Proper.ascends (proper : dim.Proper) : dim.Ascends := by
  obtain ⟨low, high, order⟩ := proper
  cases dim with
  | index digits => trivial
  | bounds first second =>
    dsimp only [DimensionText.low, DimensionText.high] at low high order
    simp only [Ascends, DimensionText.low, DimensionText.high]
    omega

theorem DimensionText.Ascends.proper (ascends : dim.Ascends) (low : dim.low < 2 ^ 32)
    (high : dim.high < 2 ^ 32) : dim.Proper := by
  refine ⟨low, high, ?_⟩
  cases dim with
  | index digits => trivial
  | bounds first second =>
    simp only [Ascends, DimensionText.low, DimensionText.high] at ascends low high
    omega

theorem describes_iff (taken : ∀ dim ∈ first :: more, dim.Taken) :
    (∃ range, Describes (rangeText first more) range) ↔ ¬Overflows (rangeText first more) := by
  constructor
  · rintro ⟨range, first2, more2, proper, same, -⟩
    rintro ⟨first3, more3, taken3, same3, dim, member, great⟩
    have one := rangeText_unique (fun dim member => (proper dim member).1)
      (fun dim member => (taken3 dim member).1) (same.symm.trans same3)
    rw [← one] at member
    have small := (proper dim member).2
    rcases great with great | great
    · exact absurd small.1 (Nat.not_lt.mpr great)
    · exact absurd small.2.1 (Nat.not_lt.mpr great)
  · intro fits
    refine ⟨_, first, more, fun dim member => ⟨(taken dim member).1, ?_⟩, rfl, rfl⟩
    have small : dim.low < 2 ^ 32 ∧ dim.high < 2 ^ 32 := by
      by_contra great
      refine fits ⟨first, more, taken, rfl, dim, member, ?_⟩
      omega
    exact (taken dim member).2.proper small.1 small.2

theorem printDimension_formed {dim : NumericRangeDimension} (order : dim.min ≤ dim.max) :
    (printDimension dim).WellFormed ∧ (printDimension dim).Proper ∧
      (printDimension dim).dimension = dim := by
  have small := dim.min.isLt
  have small2 := dim.max.isLt
  rw [printDimension]
  by_cases same : dim.min = dim.max
  · rw [if_pos same]
    refine ⟨numeral_print _, ⟨?_, ?_, trivial⟩, ?_⟩
    · rwa [DimensionText.low, value_print]
    · rwa [DimensionText.high, value_print]
    · rw [DimensionText.dimension, DimensionText.low, DimensionText.high, value_print,
        BitVec.ofNat_toNat, BitVec.setWidth_eq]
      cases dim
      simpa using same
  · rw [if_neg same]
    have less : dim.min.toNat < dim.max.toNat := by
      have distinct := mt BitVec.eq_of_toNat_eq same
      have most := BitVec.le_def.mp order
      omega
    refine ⟨⟨numeral_print _, numeral_print _⟩, ⟨?_, ?_, ?_⟩, ?_⟩
    · rwa [DimensionText.low, value_print]
    · rwa [DimensionText.high, value_print]
    · dsimp only
      rwa [value_print, value_print]
    · simp [DimensionText.dimension, DimensionText.low, DimensionText.high, value_print]

theorem describes_print {first : NumericRangeDimension} {more : List NumericRangeDimension}
    (order : ∀ dim ∈ first :: more, dim.min ≤ dim.max) :
    Describes (rangeText (printDimension first) (more.map printDimension)) (first :: more) := by
  refine ⟨_, _, ?_, rfl, ?_⟩
  · rw [← map_cons]
    intro dim member
    obtain ⟨printed, present, rfl⟩ := mem_map.mp member
    obtain ⟨formed, proper, -⟩ := printDimension_formed (order printed present)
    exact ⟨formed, proper⟩
  · rw [← map_cons, map_map]
    symm
    apply (map_congr_left fun dim member =>
      (printDimension_formed (order dim member)).2.2).trans
    exact map_id _

theorem parseFromString_reads (memory : Nat → Bool) (str : UaString) :
    ∃ status range, parseFromString memory str = some (status, range) ∧
      (status = badOutOfMemory ∧ (∃ size, memory size = false) ∨
        status = badIndexRangeInvalid ∧ parseRange str = none ∧ range = none ∨
        status = good ∧ ∃ read, parseRange str = some read ∧ range = some read) := by
  have fits : ([] : List NumericRangeDimension).length ≤ 0 := Nat.le_refl 0
  have enough : str.bytes.length - 0 < str.length + 1 := by
    rw [UaString.length]
    omega
  obtain ⟨status, read, ran, outcome⟩ :=
    parseDimensions_reads memory fits (Nat.zero_le str.bytes.length) enough
  rw [parseFromString, ran]
  dsimp only [Option.bind_eq_bind, Option.bind_some]
  rcases outcome with ⟨rfl, failed⟩ | ⟨rfl, none_read⟩ | ⟨rfl, more, whole, rfl⟩
  · exact ⟨_, _, if_neg fun both => absurd both.1 (by decide), .inl ⟨rfl, failed⟩⟩
  · exact ⟨_, _, if_neg fun both => absurd both.1 (by decide), .inr (.inl ⟨rfl, none_read, rfl⟩)⟩
  · obtain ⟨first, rest, -, -, rfl⟩ := readDimensions_sound whole
    exact ⟨_, _, if_pos ⟨rfl, by simp⟩, .inr (.inr ⟨rfl, _, whole, rfl⟩)⟩

theorem parseRange_iff (str : UaString) (range : List NumericRangeDimension) :
    parseRange str = some range ↔
      ∃ first more, (∀ dim ∈ first :: more, dim.Taken) ∧ str.bytes = rangeText first more ∧
        range = (first :: more).map DimensionText.dimension :=
  readDimensions_iff (by rw [UaString.length]; omega)

theorem Describes.parseRange {str : UaString} (describes : Describes str.bytes range) :
    parseRange str = some range := by
  obtain ⟨first, more, proper, text, rfl⟩ := describes
  exact (parseRange_iff str _).mpr ⟨first, more, fun dim member =>
    ⟨(proper dim member).1, (proper dim member).2.ascends⟩, text, rfl⟩

/-- With memory for the array, a text is parsed as what it describes exactly if it has no number
that is taken although it is too great for its word. -/
theorem parseFromString_asDescribed (memory : Nat → Bool) (str : UaString) :
    ∃ status range, parseFromString memory str = some (status, range) ∧
      (status = badOutOfMemory → ∃ size, memory size = false) ∧
      (status ≠ badOutOfMemory → (ParsedAsDescribed str.bytes status range ↔ ¬Overflows str.bytes) ∧
        ∀ first more, (∀ dim ∈ first :: more, dim.min ≤ dim.max) →
          str.bytes = rangeText (printDimension first) (more.map printDimension) →
          status = good ∧ range = some (first :: more)) := by
  obtain ⟨status, range, ran, outcome⟩ := parseFromString_reads memory str
  refine ⟨status, range, ran, ?_, ?_⟩
  · rintro rfl
    rcases outcome with ⟨-, failed⟩ | ⟨other, -⟩ | ⟨other, -⟩
    · exact failed
    · exact absurd other (by decide)
    · exact absurd other (by decide)
  · intro ended
    have printed : ∀ described, Describes str.bytes described →
        status = good ∧ range = some described := by
      intro described describes
      have reads := describes.parseRange
      rcases outcome with ⟨failed, -⟩ | ⟨-, none_read, -⟩ | ⟨succeeded, read, whole, rfl⟩
      · exact absurd failed ended
      · rw [reads] at none_read
        cases none_read
      · exact ⟨succeeded, congrArg some (Option.some.inj (whole.symm.trans reads))⟩
    constructor
    · constructor
      · rintro ⟨exact, -⟩ overflows
        obtain ⟨first, more, taken, text, -⟩ := id overflows
        have reads := (parseRange_iff str _).mpr ⟨first, more, taken, text, rfl⟩
        rcases outcome with ⟨failed, -⟩ | ⟨-, none_read, -⟩ | ⟨succeeded, -⟩
        · exact ended failed
        · rw [reads] at none_read
          cases none_read
        · have describes := exact.mp succeeded
          rw [text] at describes overflows
          exact (describes_iff taken).mp describes overflows
      · intro fits
        refine ⟨⟨?_, fun ⟨described, describes⟩ => (printed described describes).1⟩,
          fun described describes => (printed described describes).2⟩
        intro succeeded
        rcases outcome with ⟨failed, -⟩ | ⟨invalid, -⟩ | ⟨-, read, whole, -⟩
        · exact absurd failed ended
        · rw [succeeded] at invalid
          exact absurd invalid (by decide)
        · obtain ⟨first, more, taken, text, -⟩ := (parseRange_iff str _).mp whole
          rw [text] at fits ⊢
          exact (describes_iff taken).mpr fits
    · intro first more order text
      exact printed _ (text ▸ describes_print order)

def overflowText : List Byte := [52, 50, 57, 52, 57, 54, 55, 50, 57, 54]

theorem overflowText_parses :
    parseFromString (fun _ => true) (.alloc overflowText) = some (good, some [⟨0, 0⟩]) ∧
      ¬ParsedAsDescribed overflowText good (some [⟨0, 0⟩]) := by
  refine ⟨by decide, ?_⟩
  rintro ⟨exact, -⟩
  have taken : ∀ dim ∈ [DimensionText.index overflowText], dim.Taken := by
    intro dim member
    rw [mem_singleton.mp member]
    exact ⟨⟨by decide, by decide⟩, trivial⟩
  have text : overflowText = rangeText (.index overflowText) [] := by decide
  have describes := exact.mp rfl
  rw [text] at describes
  exact (describes_iff taken).mp describes
    ⟨_, [], taken, rfl, _, mem_singleton_self _, .inl (by decide)⟩

end OpcUa
