import Mathlib.Data.List.Range
import Mathlib.Algebra.BigOperators.Group.List.Basic
import Mathlib.Algebra.Order.BigOperators.Group.List
import Mathlib.Tactic.Ring

/-!
Boxes in an array with several dimensions that is stored in row-major order. A box is given by a
row for each dimension, the outermost one first: the length of the dimension, and the start and the
length of the part of it that is in the box. A box that is visited in blocks at equal distances is
visited correctly only if its outer rows are contiguous.
-/

namespace RowMajor

open List

structure Extent where
  dim : Nat
  min : Nat
  len : Nat
deriving DecidableEq, Repr

def Extent.Valid (row : Extent) : Prop := 0 < row.len ∧ row.min + row.len ≤ row.dim

def size (rows : List Extent) : Nat := (rows.map Extent.dim).prod

def count (rows : List Extent) : Nat := (rows.map Extent.len).prod

def start : List Extent → Nat
  | [] => 0
  | row :: rows => row.min * size rows + start rows

def Inside : List Extent → Nat → Prop
  | [], _ => True
  | row :: rows, position =>
    (row.min ≤ position / size rows ∧ position / size rows < row.min + row.len) ∧
      Inside rows (position % size rows)

instance decidableInside : (rows : List Extent) → (position : Nat) →
    Decidable (Inside rows position)
  | [], _ => inferInstanceAs (Decidable True)
  | _ :: rows, position =>
    have := decidableInside rows (position % size rows)
    inferInstanceAs (Decidable ((_ ∧ _) ∧ _))

def box : List Extent → List Nat
  | [] => [0]
  | row :: rows => (List.range' row.min row.len).flatMap fun index =>
    (box rows).map (index * size rows + ·)

def Full (rows : List Extent) : Prop := ∀ row ∈ rows, row.len = row.dim

instance (rows : List Extent) : Decidable (Full rows) :=
  inferInstanceAs (Decidable (∀ row ∈ rows, row.len = row.dim))

def Contiguous : List Extent → Prop
  | [] => True
  | row :: rows => (row.len = 1 ∧ Contiguous rows) ∨ Full rows

instance decidableContiguous : (rows : List Extent) → Decidable (Contiguous rows)
  | [] => inferInstanceAs (Decidable True)
  | _ :: rows =>
    have := decidableContiguous rows
    inferInstanceAs (Decidable ((_ ∧ _) ∨ _))

def outer : List Extent → List Extent
  | [] => []
  | row :: rows => if Full rows then [] else row :: outer rows

def strided (first block stride blocks : Nat) : List Nat :=
  (List.range blocks).flatMap fun index => List.range' (first + index * stride) block

section Lists

theorem range_mul (dim inner : Nat) : List.range (dim * inner)
    = (List.range dim).flatMap fun index => (List.range inner).map (index * inner + ·) := by
  induction dim with
  | zero => simp
  | succ dim ih =>
    rw [Nat.succ_mul, range_add, ih, range_succ]
    simp

theorem filter_range (dim min len : Nat) (inside : min + len ≤ dim) :
    (List.range dim).filter (fun index => decide (min ≤ index ∧ index < min + len))
      = List.range' min len := by
  obtain ⟨rest, rfl⟩ := Nat.exists_eq_add_of_le inside
  rw [range_eq_range', ← List.range'_append_1, ← List.range'_append_1, filter_append, filter_append]
  have before : (List.range' 0 min).filter
      (fun index => decide (min ≤ index ∧ index < min + len)) = [] := by
    rw [filter_eq_nil_iff]
    intro index member
    rw [mem_range'_1] at member
    simp
    omega
  have between : (List.range' (0 + min) len).filter
      (fun index => decide (min ≤ index ∧ index < min + len)) = List.range' min len := by
    rw [Nat.zero_add, filter_eq_self]
    intro index member
    rw [mem_range'_1] at member
    simp
    omega
  have behind : (List.range' (0 + (min + len)) rest).filter
      (fun index => decide (min ≤ index ∧ index < min + len)) = [] := by
    rw [filter_eq_nil_iff]
    intro index member
    rw [mem_range'_1] at member
    simp
    omega
  rw [before, between, behind, nil_append, append_nil]

theorem flatMap_filter (indices : List Nat) (kept : Nat → Bool) (entries : Nat → List Nat) :
    (indices.filter kept).flatMap entries
      = indices.flatMap fun index => if kept index then entries index else [] := by
  induction indices with
  | nil => rfl
  | cons index indices ih =>
    rw [filter_cons, flatMap_cons, ← ih]
    cases kept index with
    | false => rfl
    | true => rfl

theorem flatMap_blocks (first blocks block : Nat) :
    ((List.range' first blocks).flatMap fun index => List.range' (index * block) block)
      = List.range' (first * block) (blocks * block) := by
  induction blocks generalizing first with
  | zero => simp
  | succ blocks ih =>
    rw [List.range'_succ, flatMap_cons, ih, Nat.succ_mul first block,
      List.range'_append_1, Nat.succ_mul blocks, Nat.add_comm block]

theorem flatMap_inj {entries : Nat → List Nat} {width : Nat} (positive : 0 < width)
    (widths : ∀ index, (entries index).length = width)
    (distinct : ∀ left right, entries left = entries right → left = right)
    {left right : List Nat} (same : left.flatMap entries = right.flatMap entries) :
    left = right := by
  induction left generalizing right with
  | nil =>
    cases right with
    | nil => rfl
    | cons index _ =>
      have lengths := congrArg List.length same
      rw [flatMap_cons, length_append, widths] at lengths
      simp only [flatMap_nil, length_nil] at lengths
      omega
  | cons first left ih =>
    cases right with
    | nil =>
      have lengths := congrArg List.length same
      rw [flatMap_cons, length_append, widths] at lengths
      simp only [flatMap_nil, length_nil] at lengths
      omega
    | cons second right =>
      obtain ⟨heads, tails⟩ := append_inj same ((widths first).trans (widths second).symm)
      rw [distinct first second heads, ih tails]

end Lists

@[simp] theorem size_nil : size [] = 1 := rfl

@[simp] theorem size_cons (row : Extent) (rows : List Extent) :
    size (row :: rows) = row.dim * size rows := prod_cons

@[simp] theorem count_nil : count [] = 1 := rfl

@[simp] theorem count_cons (row : Extent) (rows : List Extent) :
    count (row :: rows) = row.len * count rows := prod_cons

section Boxes

variable {row : Extent} {rows others : List Extent}

theorem size_append (rows others : List Extent) :
    size (rows ++ others) = size rows * size others := by
  rw [size, map_append, prod_append, size, size]

theorem count_append (rows others : List Extent) :
    count (rows ++ others) = count rows * count others := by
  rw [count, map_append, prod_append, count, count]

theorem start_append (rows others : List Extent) :
    start (rows ++ others) = start rows * size others + start others := by
  induction rows with
  | nil => simp [start]
  | cons row rows ih =>
    rw [cons_append, start, start, ih, size_append]
    ring

theorem box_length (rows : List Extent) : (box rows).length = count rows := by
  induction rows with
  | nil => rfl
  | cons row rows ih =>
    rw [box]
    simp [ih]

theorem box_append (rows others : List Extent) : box (rows ++ others)
    = (box rows).flatMap fun position => (box others).map (position * size others + ·) := by
  induction rows with
  | nil => simp [box]
  | cons row rows ih =>
    rw [cons_append, box, box, flatMap_assoc]
    apply flatMap_congr
    intro index _
    rw [ih, map_flatMap, flatMap_map]
    apply flatMap_congr
    intro position _
    rw [map_map]
    apply map_congr_left
    intro inner _
    rw [Function.comp_apply, size_append]
    ring

section

variable (valid : ∀ row ∈ rows, row.Valid)
include valid

theorem count_pos : 0 < count rows := by
  induction rows with
  | nil => exact Nat.one_pos
  | cons row rows ih =>
    obtain ⟨here, there⟩ := forall_mem_cons.mp valid
    exact Nat.mul_pos here.1 (ih there)

theorem count_le_size : count rows ≤ size rows := by
  induction rows with
  | nil => exact Nat.le_refl _
  | cons row rows ih =>
    obtain ⟨here, there⟩ := forall_mem_cons.mp valid
    exact Nat.mul_le_mul (le_trans (Nat.le_add_left _ _) here.2) (ih there)

theorem start_add_count_le : start rows + count rows ≤ size rows := by
  induction rows with
  | nil => exact Nat.le_refl _
  | cons row rows ih =>
    obtain ⟨here, there⟩ := forall_mem_cons.mp valid
    obtain ⟨others, length⟩ := Nat.exists_eq_add_one.mpr here.1
    have inner := ih there
    have counts := Nat.mul_le_mul_left others (count_le_size there)
    have within := Nat.mul_le_mul_right (size rows) here.2
    rw [start, count_cons, size_cons, length, Nat.succ_mul]
    rw [length, Nat.add_mul, Nat.succ_mul] at within
    omega

theorem box_eq_filter :
    box rows = (List.range (size rows)).filter fun position => decide (Inside rows position) := by
  induction rows with
  | nil => rfl
  | cons row rows ih =>
    obtain ⟨here, there⟩ := forall_mem_cons.mp valid
    rw [box, size_cons, range_mul, filter_flatMap, ← filter_range row.dim _ _ here.2,
      flatMap_filter]
    apply flatMap_congr
    intro index _
    have positive : 0 < size rows := (count_pos there).trans_le (count_le_size there)
    have coordinates : ∀ position < size rows, Inside (row :: rows) (index * size rows + position)
        ↔ (row.min ≤ index ∧ index < row.min + row.len) ∧ Inside rows position := by
      intro position below
      rw [Inside, Nat.mul_comm, Nat.mul_add_div positive, Nat.div_eq_of_lt below,
        Nat.mul_add_mod, Nat.mod_eq_of_lt below, Nat.add_zero]
    rw [filter_map, ih there]
    by_cases inside : row.min ≤ index ∧ index < row.min + row.len
    · rw [if_pos (decide_eq_true inside)]
      apply congrArg
      apply filter_congr
      intro position member
      rw [Function.comp_apply, decide_eq_decide, coordinates _ (mem_range.mp member)]
      exact (and_iff_right inside).symm
    · rw [if_neg (by simpa using inside)]
      symm
      rw [map_eq_nil_iff, filter_eq_nil_iff]
      intro position member
      rw [Function.comp_apply, decide_eq_true_iff, coordinates _ (mem_range.mp member)]
      exact fun both => inside both.1

end

/-! Boxes without a gap -/

theorem Extent.Valid.min_eq (valid : row.Valid) (whole : row.len = row.dim) : row.min = 0 := by
  have inside := valid.2
  omega

theorem Full.start_eq (full : Full rows) (valid : ∀ row ∈ rows, row.Valid) : start rows = 0 := by
  induction rows with
  | nil => rfl
  | cons row rows ih =>
    obtain ⟨here, there⟩ := forall_mem_cons.mp valid
    obtain ⟨whole, wholes⟩ := forall_mem_cons.mp full
    rw [start, here.min_eq whole, Nat.zero_mul, ih wholes there]

theorem Full.count_eq (full : Full rows) : count rows = size rows := by
  exact congrArg List.prod (map_congr_left full)

theorem full_of_count (valid : ∀ row ∈ rows, row.Valid) (counted : size rows ≤ count rows) :
    Full rows := by
  induction rows with
  | nil => exact forall_mem_nil _
  | cons row rows ih =>
    obtain ⟨here, there⟩ := forall_mem_cons.mp valid
    have below : row.len ≤ row.dim := le_trans (Nat.le_add_left _ _) here.2
    have inner := count_le_size there
    have positive := count_pos there
    have first : row.len = row.dim := by
      by_contra short
      have less : row.len < row.dim := Nat.lt_of_le_of_ne below short
      have strict := Nat.mul_lt_mul_of_pos_right less positive
      exact absurd counted (Nat.not_le.mpr (strict.trans_le (Nat.mul_le_mul_left _ inner)))
    have others : size rows ≤ count rows := by
      by_contra less
      have strict := Nat.mul_lt_mul_of_pos_left (Nat.not_le.mp less) here.1
      exact absurd counted (Nat.not_le.mpr (strict.trans_le (Nat.mul_le_mul_right _ below)))
    exact forall_mem_cons.mpr ⟨first, ih there others⟩

theorem Full.box_eq (full : Full rows) (valid : ∀ row ∈ rows, row.Valid) :
    box rows = List.range' 0 (size rows) := by
  induction rows with
  | nil => rfl
  | cons row rows ih =>
    obtain ⟨here, there⟩ := forall_mem_cons.mp valid
    obtain ⟨whole, wholes⟩ := forall_mem_cons.mp full
    rw [box, ih wholes there, here.min_eq whole, whole, size_cons]
    simp only [map_add_range', Nat.add_zero]
    rw [flatMap_blocks, Nat.zero_mul]

theorem Contiguous.box_eq (contiguous : Contiguous rows) (valid : ∀ row ∈ rows, row.Valid) :
    box rows = List.range' (start rows) (count rows) := by
  induction rows with
  | nil => rfl
  | cons row rows ih =>
    obtain ⟨here, there⟩ := forall_mem_cons.mp valid
    rcases contiguous with ⟨single, rest⟩ | full
    · rw [box, ih rest there, count_cons, single, start]
      simp [map_add_range']
    · rw [box, full.box_eq there, start, full.start_eq there, count_cons, full.count_eq]
      simp only [map_add_range', Nat.add_zero]
      exact flatMap_blocks row.min row.len (size rows)

theorem contiguous_of_box (valid : ∀ row ∈ rows, row.Valid)
    (interval : box rows = List.range' (start rows) (count rows)) : Contiguous rows := by
  induction rows with
  | nil => trivial
  | cons row rows ih =>
    obtain ⟨here, there⟩ := forall_mem_cons.mp valid
    obtain ⟨others, length⟩ : ∃ others, row.len = others + 1 :=
      Nat.exists_eq_add_one.mpr here.1
    rw [box, length, List.range'_succ, flatMap_cons, start, count_cons, length,
      Nat.succ_mul, Nat.add_comm (others * count rows), ← List.range'_append_1] at interval
    have lengths : ((box rows).map (row.min * size rows + ·)).length
        = (List.range' (row.min * size rows + start rows) (count rows)).length := by
      rw [length_map, box_length, length_range']
    obtain ⟨heads, tails⟩ := append_inj interval lengths
    rw [← map_add_range'] at heads
    have block := map_injective_iff.mpr (fun _ _ => Nat.add_left_cancel) heads
    cases others with
    | zero => exact .inl ⟨length, ih there block⟩
    | succ others =>
      right
      apply full_of_count there
      -- the second block starts where the first one ends
      obtain ⟨width, positive⟩ : ∃ width, count rows = width + 1 :=
        Nat.exists_eq_add_one.mpr (count_pos there)
      have more : (others + 1) * (width + 1) = others * (width + 1) + width + 1 := by ring
      have heads := congrArg List.head? tails
      rw [block, positive, more] at heads
      simp only [List.range'_succ, flatMap_cons, map_cons, cons_append,
        head?_cons, Option.some.injEq] at heads
      rw [Nat.succ_mul] at heads
      omega

/-! Blocks at equal distances -/

theorem outer_full (full : Full rows) : outer rows = [] := by
  cases rows with
  | nil => rfl
  | cons row rows =>
    have rest : Full rows := (forall_mem_cons.mp full).2
    rw [outer, if_pos rest]

theorem outer_split (broken : ¬Full rows) :
    ∃ row inner, rows = outer rows ++ row :: inner ∧ Full inner ∧ row.len ≠ row.dim := by
  induction rows with
  | nil => exact absurd (forall_mem_nil _) broken
  | cons row rows ih =>
    rw [outer]
    by_cases full : Full rows
    · rw [if_pos full]
      refine ⟨row, rows, rfl, full, ?_⟩
      intro whole
      exact broken (forall_mem_cons.mpr ⟨whole, full⟩)
    · rw [if_neg full]
      obtain ⟨last, inner, split, whole, short⟩ := ih full
      exact ⟨last, inner, congrArg (row :: ·) split, whole, short⟩

theorem strided_succ (first block stride blocks : Nat) : strided first block stride (blocks + 1)
      = List.range' first block ++ strided (first + stride) block stride blocks := by
  rw [strided, range_succ_eq_map, flatMap_cons, flatMap_map, Nat.zero_mul]
  apply congrArg
  apply flatMap_congr
  intro index _
  rw [Nat.succ_mul, Nat.add_assoc, Nat.add_comm stride]

theorem strided_length (first block stride blocks : Nat) :
    (strided first block stride blocks).length = blocks * block := by
  rw [strided]
  simp

theorem strided_lt_size {before inner : List Extent} (full : Full inner)
    (valid : ∀ entry ∈ before ++ row :: inner, entry.Valid) {index offset : Nat}
    (block : index < count before) (within : offset < row.len * size inner) :
    start (before ++ row :: inner) + index * (row.dim * size inner) + offset
      < size (before ++ row :: inner) := by
  obtain ⟨front, behind⟩ := forall_mem_append.mp valid
  obtain ⟨here, there⟩ := forall_mem_cons.mp behind
  have blocks : start before + index + 1 ≤ size before :=
    (Nat.add_le_add_left block _).trans (start_add_count_le front)
  have last : row.min * size inner + row.len * size inner ≤ row.dim * size inner := by
    rw [← Nat.add_mul]
    exact Nat.mul_le_mul_right _ here.2
  calc start (before ++ row :: inner) + index * (row.dim * size inner) + offset
      = (start before + index) * (row.dim * size inner) + (row.min * size inner + offset) := by
        rw [start_append, start, full.start_eq there, size_cons]
        ring
    _ < (start before + index + 1) * (row.dim * size inner) := by
        rw [Nat.succ_mul]
        omega
    _ ≤ size before * (row.dim * size inner) := Nat.mul_le_mul_right _ blocks
    _ = size (before ++ row :: inner) := by rw [size_append, size_cons]

theorem strided_pairwise {block stride : Nat} (narrow : block ≤ stride) (first blocks : Nat) :
    (strided first block stride blocks).Pairwise (· < ·) := by
  induction blocks generalizing first with
  | zero => exact Pairwise.nil
  | succ blocks ih =>
    rw [strided_succ, pairwise_append]
    refine ⟨pairwise_lt_range', ih (first + stride), ?_⟩
    intro position here other there
    rw [mem_range'_1] at here
    obtain ⟨index, _, inside⟩ := mem_flatMap.mp there
    rw [mem_range'_1] at inside
    omega

theorem strided_eq_box {before inner : List Extent}
    (valid : ∀ entry ∈ before ++ row :: inner, entry.Valid) (full : Full inner) :
    strided (start (before ++ row :: inner)) (row.len * size inner) (row.dim * size inner)
      (count before) = box (before ++ row :: inner) ↔ Contiguous before := by
  obtain ⟨front, behind⟩ := forall_mem_append.mp valid
  obtain ⟨here, there⟩ := forall_mem_cons.mp behind
  have positive : 0 < size inner := (count_pos there).trans_le (count_le_size there)
  have width : 0 < row.len * size inner := Nat.mul_pos here.1 positive
  have distance : 0 < row.dim * size inner :=
    Nat.mul_pos (here.1.trans_le (le_trans (Nat.le_add_left _ _) here.2)) positive
  -- a block behind a position of the dimensions in front
  let block position :=
    List.range' (position * (row.dim * size inner) + row.min * size inner) (row.len * size inner)
  have boxes : box (before ++ row :: inner) = (box before).flatMap block := by
    have last : Contiguous (row :: inner) := .inr full
    rw [box_append, last.box_eq behind, start, full.start_eq there, Nat.add_zero, count_cons,
      full.count_eq, size_cons]
    simp only [map_add_range', block]
  have blocks : strided (start (before ++ row :: inner)) (row.len * size inner)
      (row.dim * size inner) (count before)
        = (List.range' (start before) (count before)).flatMap block := by
    rw [strided, List.range'_eq_map_range, flatMap_map]
    apply flatMap_congr
    intro index _
    rw [start_append, start, full.start_eq there, size_cons]
    apply congrArg (List.range' · (row.len * size inner))
    ring
  rw [boxes, blocks]
  constructor
  · intro same
    apply contiguous_of_box front
    refine (flatMap_inj width ?_ ?_ same).symm
    · intro position
      exact length_range'
    · intro left right equal
      obtain ⟨length, positive⟩ := Nat.exists_eq_add_one.mpr width
      have heads := congrArg List.head? equal
      simp only [block, positive, List.range'_succ, head?_cons, Option.some.injEq] at heads
      exact Nat.eq_of_mul_eq_mul_right distance (Nat.add_right_cancel heads)
  · intro contiguous
    rw [contiguous.box_eq front]

theorem strided_full (full : Full rows) (valid : ∀ row ∈ rows, row.Valid) :
    strided 0 (count rows) (size rows) 1 = box rows := by
  rw [full.box_eq valid, full.count_eq]
  simp [strided]

end Boxes

end RowMajor
