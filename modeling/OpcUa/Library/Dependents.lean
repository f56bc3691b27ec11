import Mathlib.Data.BitVec
import Mathlib.Data.List.Nodup
import Mathlib.Data.List.Perm.Basic

/-!
Tables whose rows refer to other rows by a key. A row that goes takes the rows that depend on it
with it.

A key is a kind with an identifier, and no identifier is used twice, not even by two kinds.
-/

namespace Dependents

open scoped List

variable {Row Kind Id : Type}

structure Schema (Row Kind Id : Type) where
  key : Row → Kind × Id
  references : Row → List (Kind × Id)

namespace Schema

variable (schema : Schema Row Kind Id)

def identifier (row : Row) : Id := (schema.key row).2

variable [DecidableEq Kind]

def ofKind (kind : Kind) (row : Row) : Option Id :=
  if (schema.key row).1 = kind then some (schema.key row).2 else none

theorem filterMap_ofKind_sublist (kind : Kind) (rows : List Row) :
    (rows.filterMap (schema.ofKind kind)).Sublist (rows.map schema.identifier) := by
  induction rows with
  | nil => exact .slnil
  | cons row rows ih =>
    rw [List.filterMap_cons, List.map_cons, ofKind]
    by_cases same : (schema.key row).1 = kind
    · rw [if_pos same]
      exact ih.cons_cons _
    · rw [if_neg same]
      exact ih.cons _

theorem mem_ofKind {kind : Kind} {identifier : Id} {rows : List Row} {row : Row}
    (member : row ∈ rows) (same : schema.key row = (kind, identifier)) :
    identifier ∈ rows.filterMap (schema.ofKind kind) := by
  refine List.mem_filterMap.mpr ⟨row, member, ?_⟩
  rw [ofKind, same, if_pos rfl]

variable [DecidableEq Id]

def dependsOn (key : Kind × Id) (row : Row) : Bool :=
  schema.key row = key || key ∈ schema.references row

end Schema

structure Consistent (schema : Schema Row Kind Id) (rows : List Row) : Prop where
  distinct : (rows.map schema.identifier).Nodup
  closed : ∀ row ∈ rows, ∀ key ∈ schema.references row, ∃ target ∈ rows, schema.key target = key
  nested : ∀ row ∈ rows, ∀ target ∈ rows, schema.key target ∈ schema.references row →
    schema.references target ⊆ schema.references row

def Removes (gone : Row → Bool) (before after : List Row) : Prop :=
  after ~ before.filter fun row => !gone row

namespace Removes

variable {first second : Row → Bool} {before middle after : List Row}

theorem refl (none : ∀ row ∈ before, first row = false) : Removes first before before := by
  rw [Removes, List.filter_eq_self.mpr fun row member => by rw [none row member]; rfl]

theorem of_eq (same : after = before.filter fun row => !first row) : Removes first before after :=
  List.Perm.of_eq same

theorem trans (front : Removes first before middle) (back : Removes second middle after) :
    Removes (fun row => first row || second row) before after := by
  have filtered := List.Perm.trans back (front.filter _)
  rw [List.filter_filter] at filtered
  refine filtered.trans (.of_eq (List.filter_congr ?_))
  intro row _
  rw [Bool.not_or, Bool.and_comm]

theorem congr (removes : Removes first before after)
    (same : ∀ row ∈ before, first row = second row) : Removes second before after := by
  refine List.Perm.trans removes (.of_eq (List.filter_congr ?_))
  intro row member
  rw [same row member]

theorem absorb (front : Removes first before middle) (back : Removes second middle after)
    (wider : ∀ row ∈ before, first row = true → second row = true) :
    Removes second before after := by
  refine (front.trans back).congr ?_
  intro row member
  cases goes : first row with
  | false => rfl
  | true => rw [wider row member goes, Bool.or_true]

theorem mem_iff (removes : Removes first before after) {row : Row} :
    row ∈ after ↔ row ∈ before ∧ first row = false := by
  rw [List.Perm.mem_iff removes, List.mem_filter, Bool.not_eq_true']

theorem append {others rest : List Row} (left : Removes first before after)
    (right : Removes first others rest) : Removes first (before ++ others) (after ++ rest) := by
  rw [Removes, List.filter_append]
  exact List.Perm.append left right

theorem flatMap {Element : Type} {rows : Element → List Row} {elements rest : List Element}
    {element : Element} (split : element :: rest ~ elements)
    (inside : ∀ row ∈ rows element, first row = true)
    (outside : ∀ other ∈ rest, ∀ row ∈ rows other, first row = false) :
    Removes first (elements.flatMap rows) (rest.flatMap rows) := by
  have parts := (split.flatMap_right rows).filter fun row => !first row
  rw [List.flatMap_cons, List.filter_append, List.filter_eq_nil_iff.mpr, List.nil_append] at parts
  · refine List.Perm.trans (.of_eq ?_) parts
    rw [List.filter_eq_self.mpr]
    intro row member
    obtain ⟨other, present, listed⟩ := List.mem_flatMap.mp member
    rw [outside other present row listed]
    rfl
  · intro row member
    rw [inside row member]
    exact Bool.false_ne_true

theorem foldl {State Item : Type} {Invariant : State → Prop} {rows : State → List Row}
    {step : State → Item → State} {gone : Item → Row → Bool} {items : List Item}
    (removes : ∀ state, Invariant state → ∀ item ∈ items,
      Invariant (step state item) ∧ Removes (gone item) (rows state) (rows (step state item)))
    {state : State} (start : Invariant state) :
    Invariant (items.foldl step state) ∧
      Removes (fun row => items.any fun item => gone item row) (rows state)
        (rows (items.foldl step state)) := by
  induction items generalizing state with
  | nil => exact ⟨start, .refl fun _ _ => rfl⟩
  | cons item items ih =>
    obtain ⟨kept, removed⟩ := removes state start item List.mem_cons_self
    obtain ⟨left, rest⟩ := ih
      (fun state holds item member => removes state holds item (List.mem_cons_of_mem _ member))
      kept
    exact ⟨left, removed.trans rest⟩

end Removes

namespace Consistent

variable {schema : Schema Row Kind Id} {rows after : List Row}

section

variable (consistent : Consistent schema rows)
include consistent

theorem row_eq {row other : Row} (member : row ∈ rows) (present : other ∈ rows)
    (same : schema.identifier row = schema.identifier other) : row = other :=
  List.inj_on_of_nodup_map consistent.distinct member present same

theorem perm (same : after ~ rows) : Consistent schema after where
  distinct := (same.map _).nodup_iff.mpr consistent.distinct
  closed row member key reference := by
    obtain ⟨target, present, found⟩ := consistent.closed row (same.mem_iff.mp member) key reference
    exact ⟨target, same.mem_iff.mpr present, found⟩
  nested row member target present :=
    consistent.nested row (same.mem_iff.mp member) target (same.mem_iff.mp present)

theorem removes {gone : Row → Bool} (removed : Removes gone rows after)
    (cascade : ∀ row ∈ rows, ∀ target ∈ rows, schema.key target ∈ schema.references row →
      gone target = true → gone row = true) :
    Consistent schema after := by
  refine perm ?_ removed
  have left : ∀ {row}, row ∈ rows.filter (fun row => !gone row) → row ∈ rows :=
    fun member => List.mem_of_mem_filter member
  constructor
  · exact consistent.distinct.sublist (List.filter_sublist.map _)
  · intro row member key reference
    obtain ⟨target, present, found⟩ := consistent.closed row (left member) key reference
    refine ⟨target, List.mem_filter.mpr ⟨present, ?_⟩, found⟩
    have stays := (List.mem_filter.mp member).2
    by_contra goes
    rw [Bool.not_eq_true, Bool.not_eq_false'] at goes
    rw [cascade row (left member) target present (found ▸ reference) goes] at stays
    cases stays
  · intro row member target present
    exact consistent.nested row (left member) target (left present)

theorem cons {row : Row} (fresh : schema.identifier row ∉ rows.map schema.identifier)
    (known : ∀ key ∈ schema.references row, ∃ target ∈ rows, schema.key target = key ∧
      schema.references target ⊆ schema.references row) :
    Consistent schema (row :: rows) := by
  have elsewhere : ∀ target ∈ rows, schema.key target ≠ schema.key row := by
    intro target present same
    exact fresh (List.mem_map.mpr ⟨target, present, congrArg Prod.snd same⟩)
  constructor
  · exact List.nodup_cons.mpr ⟨fresh, consistent.distinct⟩
  · intro other member key reference
    rcases List.mem_cons.mp member with rfl | member
    · obtain ⟨target, present, found, -⟩ := known key reference
      exact ⟨target, List.mem_cons_of_mem _ present, found⟩
    · obtain ⟨target, present, found⟩ := consistent.closed other member key reference
      exact ⟨target, List.mem_cons_of_mem _ present, found⟩
  · intro other member target present reference
    rcases List.mem_cons.mp present with rfl | below
    · rcases List.mem_cons.mp member with rfl | member
      · exact List.Subset.refl _
      · obtain ⟨owner, here, same⟩ := consistent.closed other member _ reference
        exact absurd same (elsewhere owner here)
    · rcases List.mem_cons.mp member with rfl | member
      · obtain ⟨owner, here, same, nested⟩ := known _ reference
        have only := consistent.row_eq here below (congrArg Prod.snd same)
        exact only ▸ nested
      · exact consistent.nested other member target below reference

end

variable [DecidableEq Kind]

theorem nodup_ofKind (consistent : Consistent schema rows) (kind : Kind) :
    (rows.filterMap (schema.ofKind kind)).Nodup :=
  consistent.distinct.sublist (schema.filterMap_ofKind_sublist kind rows)

variable [DecidableEq Id]

section

variable (consistent : Consistent schema rows)
include consistent

theorem dependsOn_cascade (key : Kind × Id) {row target : Row} (member : row ∈ rows)
    (present : target ∈ rows) (reference : schema.key target ∈ schema.references row)
    (goes : schema.dependsOn key target = true) : schema.dependsOn key row = true := by
  rw [Schema.dependsOn, Bool.or_eq_true, decide_eq_true_eq, decide_eq_true_eq] at goes ⊢
  rcases goes with here | above
  · exact .inr (here ▸ reference)
  · exact .inr (consistent.nested row member target present reference above)

theorem dependsOn_trans {row middle : Row} {key : Kind × Id} (member : row ∈ rows)
    (present : middle ∈ rows) (depends : schema.dependsOn (schema.key middle) row = true)
    (reference : key ∈ schema.references middle) : schema.dependsOn key row = true := by
  rw [Schema.dependsOn, Bool.or_eq_true, decide_eq_true_eq, decide_eq_true_eq] at depends ⊢
  rcases depends with here | above
  · have same := consistent.row_eq member present (congrArg Prod.snd here)
    exact .inr (same ▸ reference)
  · exact .inr (consistent.nested row member middle present above reference)

theorem removes_dependents {key : Kind × Id} (removed : Removes (schema.dependsOn key) rows after) :
    Consistent schema after :=
  consistent.removes removed fun _ member _ present => consistent.dependsOn_cascade key member present

end

end Consistent

section Lookup

variable {Element : Type} [DecidableEq Id] {identifier : Element → Id} {elements : List Element}
  {element : Element} {wanted : Id}

theorem find_some (found : elements.find? (identifier · = wanted) = some element) :
    element ∈ elements ∧ identifier element = wanted :=
  ⟨List.mem_of_find?_eq_some found, by simpa using List.find?_some found⟩

theorem find_none (missing : elements.find? (identifier · = wanted) = none) :
    wanted ∉ elements.map identifier := by
  intro listed
  obtain ⟨element, member, same⟩ := List.mem_map.mp listed
  simpa [same] using List.find?_eq_none.mp missing element member

theorem find_isSome (identifier : Element → Id) (member : element ∈ elements)
    (same : identifier element = wanted) :
    ∃ first, elements.find? (identifier · = wanted) = some first := by
  rw [← Option.isSome_iff_exists, List.find?_isSome]
  exact ⟨element, member, decide_eq_true same⟩

theorem find_flatMap {Parent : Type} {parents : List Parent} {contents : Parent → List Element}
    (found : (parents.flatMap contents).find? (identifier · = wanted) = some element) :
    ∃ parent ∈ parents, element ∈ contents parent ∧ identifier element = wanted := by
  obtain ⟨member, names⟩ := find_some found
  obtain ⟨parent, inside, present⟩ := List.mem_flatMap.mp member
  exact ⟨parent, inside, present, names⟩

theorem found_place {others : List Element} (same : others.map identifier = elements.map identifier)
    (found : elements.find? (identifier · = wanted) = some element) :
    ∃ other, others[elements.findIdx fun first => decide (identifier first = wanted)]? =
      some other ∧ identifier other = wanted := by
  have inside : elements.findIdx (fun first => decide (identifier first = wanted)) <
      elements.length :=
    List.findIdx_lt_length.mpr ⟨element, (find_some found).1, decide_eq_true (find_some found).2⟩
  have here := @List.findIdx_getElem _ (fun first => decide (identifier first = wanted)) elements
    inside
  have names := congrArg (·[elements.findIdx fun first => decide (identifier first = wanted)]?) same
  rw [List.getElem?_map, List.getElem?_map, List.getElem?_eq_getElem inside] at names
  obtain ⟨other, place, alike⟩ := Option.map_eq_some_iff.mp names
  exact ⟨other, place, alike.trans (of_decide_eq_true here)⟩

end Lookup

theorem flatMap_insert {Element : Type} [DecidableEq Id] {name : Element → Id}
    {rows : Element → List Row} {change : Element → Element} {elements : List Element}
    {element : Element} {row : Row} (distinct : (elements.map name).Nodup)
    (member : element ∈ elements) (grows : rows (change element) ~ row :: rows element) :
    (elements.map fun other => if name other = name element then change other else other).flatMap
      rows ~ row :: elements.flatMap rows := by
  induction elements with
  | nil => cases member
  | cons first rest ih =>
    obtain ⟨fresh, distinct⟩ := List.nodup_cons.mp distinct
    rw [List.map_cons, List.flatMap_cons, List.flatMap_cons]
    rcases List.mem_cons.mp member with rfl | member
    · have others : rest.map (fun other => if name other = name element then change other else other)
          = rest := by
        refine (List.map_congr_left fun other present => ?_).trans (List.map_id rest)
        have differs : name other ≠ name element :=
          fun same => fresh (same ▸ List.mem_map_of_mem present)
        exact if_neg differs
      rw [if_pos rfl, others]
      exact grows.append_right _
    · have differs : name first ≠ name element :=
        fun same => fresh (same ▸ List.mem_map_of_mem member)
      rw [if_neg differs]
      exact ((ih distinct member).append_left _).trans List.perm_middle

section Counters

variable {Element : Type} {identifier : Element → Id} {elements : List Element} {element : Element}
  {width : Nat} {counter : BitVec width}

theorem perm_cons_filter [DecidableEq Id] (distinct : (elements.map identifier).Nodup)
    (member : element ∈ elements) :
    elements ~ element :: elements.filter fun other => identifier other ≠ identifier element := by
  induction elements with
  | nil => cases member
  | cons first rest ih =>
    obtain ⟨fresh, distinct⟩ := List.nodup_cons.mp distinct
    have others : ∀ other ∈ rest, identifier other ≠ identifier first :=
      fun other present same => fresh (same ▸ List.mem_map_of_mem present)
    rcases List.mem_cons.mp member with rfl | member
    · rw [List.filter_cons_of_neg (by simp)]
      rw [List.filter_eq_self.mpr fun other present => decide_eq_true (others other present)]
    · have stays := decide_eq_true (others element member).symm
      rw [List.filter_cons, if_pos stays]
      exact ((ih distinct member).cons first).trans (.swap _ _ _)

theorem toNat_succ {count : Nat} (positive : 0 < width) (counted : counter.toNat = count)
    (room : count + 1 < 2 ^ width) : (counter + 1).toNat = count + 1 := by
  have one : (1 : BitVec width).toNat = 1 := BitVec.toNat_one positive
  rw [BitVec.toNat_add, one, counted, Nat.mod_eq_of_lt room]

section

variable (counts : Element → Bool) (positive : 0 < width)
  (counted : counter.toNat = elements.countP counts)
include positive counted

theorem counter_cons (room : elements.countP counts + 1 < 2 ^ width) :
    (if counts element then counter + 1 else counter).toNat =
      (element :: elements).countP counts := by
  rw [List.countP_cons]
  cases counts element with
  | false => exact counted
  | true => exact toNat_succ positive counted room

theorem counter_filter [DecidableEq Id] (distinct : (elements.map identifier).Nodup)
    (member : element ∈ elements) :
    (if counts element then counter - 1 else counter).toNat =
      (elements.filter fun other => identifier other ≠ identifier element).countP counts := by
  have split := (perm_cons_filter distinct member).countP_eq counts
  rw [List.countP_cons] at split
  cases here : counts element with
  | false =>
    rw [here, if_neg Bool.false_ne_true] at split
    exact counted.trans split
  | true =>
    have one : (1 : BitVec width).toNat = 1 := BitVec.toNat_one positive
    rw [here, if_pos rfl] at split
    rw [if_pos rfl, BitVec.toNat_sub_of_le, one, counted, split]
    · rfl
    · rw [BitVec.le_def, one, counted, split]
      omega

theorem counter_removed [DecidableEq Id] {here : Prop} [Decidable here]
    (distinct : (elements.map identifier).Nodup) (inside : here → element ∈ elements)
    (outside : ¬here → ∀ other ∈ elements, identifier other ≠ identifier element) :
    (if here ∧ counts element then counter - 1 else counter).toNat =
      (elements.filter fun other => identifier other ≠ identifier element).countP counts := by
  by_cases there : here
  · simp only [there, true_and]
    exact counter_filter counts positive counted distinct (inside there)
  · rw [if_neg fun both => there both.1, counted, List.filter_eq_self.mpr]
    exact fun other listed => decide_eq_true (outside there other listed)

end

theorem length_removed [DecidableEq Id] {here : Prop} [Decidable here] (positive : 0 < width)
    (counted : counter.toNat = elements.length) (distinct : (elements.map identifier).Nodup)
    (inside : here → element ∈ elements)
    (outside : ¬here → ∀ other ∈ elements, identifier other ≠ identifier element) :
    (if here then counter - 1 else counter).toNat =
      (elements.filter fun other => identifier other ≠ identifier element).length := by
  have removed := counter_removed (fun _ => true) positive (by rwa [List.countP_true]) distinct
    inside outside
  simpa only [and_true, List.countP_true] using removed

end Counters
end Dependents
