import Mathlib.Data.List.Nodup
import Mathlib.Data.List.Range

/-!
Reading a list at some positions, and writing another list there.
-/

namespace GatherScatter

open List

variable {Element : Type}

def gather (positions : List Nat) (elements : List Element) : List Element :=
  positions.filterMap (elements[·]?)

def scatter : List Nat → List Element → List Element → List Element
  | position :: positions, entry :: entries, elements =>
    scatter positions entries (elements.set position entry)
  | _, _, elements => elements

section Gather

variable {positions others : List Nat} {elements : List Element}

theorem gather_append (positions others : List Nat) (elements : List Element) :
    gather (positions ++ others) elements = gather positions elements ++ gather others elements :=
  filterMap_append

theorem gather_range' (first length : Nat) (elements : List Element) :
    gather (List.range' first length) elements = (elements.drop first).take length := by
  induction length generalizing first with
  | zero => rfl
  | succ length ih =>
    rw [List.range'_succ, gather, filterMap_cons]
    cases here : elements[first]? with
    | none =>
      have short : elements.length ≤ first := getElem?_eq_none_iff.mp here
      rw [← gather, ih, drop_eq_nil_of_le short, drop_eq_nil_of_le (Nat.le_succ_of_le short)]
      simp
    | some element =>
      obtain ⟨below, rfl⟩ := List.getElem?_eq_some_iff.mp here
      rw [← gather, ih, List.drop_eq_getElem_cons below, List.take_succ_cons]

theorem gather_length (inside : ∀ position ∈ positions, position < elements.length) :
    (gather positions elements).length = positions.length := by
  induction positions with
  | nil => rfl
  | cons position positions ih =>
    obtain ⟨here, there⟩ := forall_mem_cons.mp inside
    rw [gather, filterMap_cons, List.getElem?_eq_getElem here, ← gather]
    exact congrArg (· + 1) (ih there)

theorem gather_length_le (positions : List Nat) (elements : List Element) :
    (gather positions elements).length ≤ positions.length :=
  length_filterMap_le _ _

theorem gather_getElem? (inside : ∀ position ∈ positions, position < elements.length)
    (index : Nat) :
    (gather positions elements)[index]? = positions[index]?.bind (elements[·]?) := by
  induction positions generalizing index with
  | nil => rfl
  | cons position positions ih =>
    obtain ⟨here, there⟩ := forall_mem_cons.mp inside
    rw [gather, filterMap_cons, List.getElem?_eq_getElem here, ← gather]
    cases index with
    | zero => simp [here]
    | succ index =>
      rw [getElem?_cons_succ, getElem?_cons_succ, ih there]

theorem mem_of_gather {element : Element} (member : element ∈ gather positions elements) :
    element ∈ elements := by
  obtain ⟨position, _, here⟩ := mem_filterMap.mp member
  exact mem_of_getElem? here

theorem gather_inj (nodup : elements.Nodup)
    (inside : ∀ position ∈ others, position < elements.length)
    (lengths : positions.length = others.length)
    (same : gather positions elements = gather others elements) : positions = others := by
  induction positions generalizing others with
  | nil => exact (length_eq_zero_iff.mp lengths.symm).symm
  | cons position positions ih =>
    cases others with
    | nil => cases lengths
    | cons other others =>
      obtain ⟨here, there⟩ := forall_mem_cons.mp inside
      have rest := Nat.succ.inj lengths
      rw [gather, gather, filterMap_cons, filterMap_cons,
        List.getElem?_eq_getElem here, ← gather, ← gather] at same
      cases found : elements[position]? with
      | none =>
        rw [found] at same
        have counted := congrArg List.length same
        have short := gather_length_le positions elements
        rw [length_cons, gather_length there] at counted
        change (gather positions elements).length = _ at counted
        omega
      | some element =>
        rw [found] at same
        obtain ⟨equal, tails⟩ := List.cons.inj same
        obtain ⟨below, rfl⟩ := List.getElem?_eq_some_iff.mp found
        rw [(nodup.getElem_inj_iff).mp equal, ih there rest tails]

end Gather

section Scatter

variable {positions : List Nat} {entries elements : List Element}
variable {others : List Nat} {position index : Nat}

@[simp] theorem scatter_length (positions : List Nat) (entries elements : List Element) :
    (scatter positions entries elements).length = elements.length := by
  induction positions generalizing entries elements with
  | nil => rfl
  | cons position positions ih =>
    cases entries with
    | nil => rfl
    | cons entry entries => rw [scatter, ih, length_set]

theorem scatter_append {rest : List Element} (lengths : positions.length = entries.length) :
    scatter (positions ++ others) (entries ++ rest) elements
      = scatter others rest (scatter positions entries elements) := by
  induction positions generalizing entries elements with
  | nil =>
    obtain rfl := length_eq_zero_iff.mp lengths.symm
    rfl
  | cons position positions ih =>
    cases entries with
    | nil => cases lengths
    | cons entry entries =>
      rw [cons_append, cons_append, scatter, scatter, ih (Nat.succ.inj lengths)]

theorem scatter_other (absent : position ∉ positions) :
    (scatter positions entries elements)[position]? = elements[position]? := by
  induction positions generalizing entries elements with
  | nil => rfl
  | cons first positions ih =>
    obtain ⟨apart, missing⟩ := not_or.mp (mt mem_cons.mpr absent)
    cases entries with
    | nil => rfl
    | cons entry entries =>
      rw [scatter, ih missing, getElem?_set_ne (Ne.symm apart)]

theorem scatter_last (here : positions[index]? = some position)
    (last : ∀ later, index < later → positions[later]? ≠ some position)
    (enough : positions.length ≤ entries.length) (below : position < elements.length) :
    (scatter positions entries elements)[position]? = entries[index]? := by
  induction positions generalizing entries elements index with
  | nil => cases here
  | cons first positions ih =>
    cases entries with
    | nil => cases enough
    | cons entry entries =>
      rw [scatter]
      cases index with
      | zero =>
        obtain rfl := Option.some.inj here
        have alone : first ∉ positions := by
          intro member
          obtain ⟨later, found⟩ := mem_iff_getElem?.mp member
          exact last (later + 1) (Nat.succ_pos _) found
        rw [scatter_other alone, getElem?_set_self below, getElem?_cons_zero]
      | succ index =>
        have others : ∀ later, index < later → positions[later]? ≠ some position :=
          fun later behind => last (later + 1) (Nat.succ_lt_succ behind)
        rw [ih here others (Nat.le_of_succ_le_succ enough) (by rwa [length_set]),
          getElem?_cons_succ]

theorem scatter_here (nodup : positions.Nodup) (here : positions[index]? = some position)
    (enough : positions.length ≤ entries.length) (below : position < elements.length) :
    (scatter positions entries elements)[position]? = entries[index]? := by
  refine scatter_last here ?_ enough below
  intro later behind again
  obtain ⟨bound, rfl⟩ := List.getElem?_eq_some_iff.mp again
  obtain ⟨first, same⟩ := List.getElem?_eq_some_iff.mp here
  exact absurd ((nodup.getElem_inj_iff).mp same) (Nat.ne_of_lt behind)

theorem exists_last (member : position ∈ positions) :
    ∃ index : Nat, positions[index]? = some position ∧
      ∀ later, index < later → positions[later]? ≠ some position := by
  induction positions with
  | nil => cases member
  | cons first positions ih =>
    by_cases behind : position ∈ positions
    · obtain ⟨index, here, last⟩ := ih behind
      refine ⟨index + 1, here, fun later after => ?_⟩
      cases later with
      | zero => cases after
      | succ later => exact last later (Nat.lt_of_succ_lt_succ after)
    · obtain rfl := (mem_cons.mp member).resolve_right behind
      refine ⟨0, rfl, fun later after found => ?_⟩
      cases later with
      | zero => cases after
      | succ later => exact behind (mem_of_getElem? found)

def Lands (positions : List Nat) (entries elements : List Element) (allowed : Nat → Prop) : Prop :=
  ∀ (index position : Nat) (entry old : Element), positions[index]? = some position →
    (∀ later, index < later → positions[later]? ≠ some position) →
    entries[index]? = some entry → elements[position]? = some old → ¬allowed position → entry = old

theorem scatter_keeps_iff (enough : positions.length ≤ entries.length) (allowed : Nat → Prop) :
    (∀ position, ¬allowed position →
      (scatter positions entries elements)[position]? = elements[position]?) ↔
    Lands positions entries elements allowed := by
  constructor
  · intro keeps index position entry old here last written stored outside
    have below := (List.getElem?_eq_some_iff.mp stored).1
    have same := scatter_last here last enough below
    rw [keeps position outside, stored, written] at same
    exact (Option.some.inj same).symm
  · intro lands position outside
    by_cases member : position ∈ positions
    · obtain ⟨index, here, last⟩ := exists_last member
      have bound := (List.getElem?_eq_some_iff.mp here).1.trans_le enough
      have written := List.getElem?_eq_getElem bound
      cases stored : elements[position]? with
      | none =>
        rw [getElem?_eq_none_iff] at stored ⊢
        rwa [scatter_length]
      | some old =>
        have below := (List.getElem?_eq_some_iff.mp stored).1
        rw [scatter_last here last enough below, written,
          lands index position _ old here last written stored outside]
    · exact scatter_other member

theorem gather_scatter (nodup : positions.Nodup)
    (inside : ∀ position ∈ positions, position < elements.length)
    (lengths : positions.length = entries.length) :
    gather positions (scatter positions entries elements) = entries := by
  apply ext_getElem?
  intro index
  rw [gather_getElem? (by rwa [scatter_length])]
  cases here : positions[index]? with
  | none =>
    have behind := getElem?_eq_none_iff.mp here
    exact (getElem?_eq_none (lengths ▸ behind)).symm
  | some position =>
    exact scatter_here nodup here (Nat.le_of_eq lengths) (inside position (mem_of_getElem? here))

theorem scatter_inj (distinct : (elements ++ entries).Nodup) (nodup : positions.Nodup)
    (inside : ∀ position ∈ others, position < elements.length)
    (lengths : positions.length = entries.length) (same : others.length = entries.length)
    (found : gather others (scatter positions entries elements) = entries) :
    positions = others := by
  obtain ⟨_, entriesNodup, apart⟩ := nodup_append.mp distinct
  apply ext_getElem (lengths.trans same.symm)
  intro index below bound
  have member : others[index] ∈ others := getElem_mem bound
  have entry : (scatter positions entries elements)[others[index]]? = entries[index]? := by
    have bounds : ∀ position ∈ others, position < (scatter positions entries elements).length := by
      rwa [scatter_length]
    have here := gather_getElem? bounds index
    rw [found, List.getElem?_eq_getElem bound] at here
    exact here.symm
  have known := List.getElem?_eq_getElem (lengths ▸ below)
  by_cases written : others[index] ∈ positions
  · obtain ⟨place, placed, equal⟩ := List.getElem_of_mem written
    have there := scatter_here nodup (List.getElem?_eq_some_iff.mpr ⟨placed, equal⟩)
      (Nat.le_of_eq lengths) (inside _ member)
    rw [entry, known, List.getElem?_eq_getElem (lengths ▸ placed)] at there
    have places := (entriesNodup.getElem_inj_iff).mp (Option.some.inj there)
    subst places
    exact equal
  · rw [scatter_other written, known] at entry
    exact absurd rfl (apart _ (mem_of_getElem? entry) _ (getElem_mem _))

end Scatter

end GatherScatter
