import Mathlib.Data.List.Nodup

/-!
Lists whose items have keys of their own. An item is found by its key, and it can be replaced in
its place or removed.
-/

namespace KeyedList

open List

variable {Key Item : Type} {key : Item → Key} {items : List Item} {item : Item}

theorem eq_of_key (distinct : (items.map key).Nodup) {other : Item} (member : item ∈ items)
    (also : other ∈ items) (same : key item = key other) : item = other :=
  inj_on_of_nodup_map distinct member also same

variable [DecidableEq Key]

def replace (key : Item → Key) (new : Item) (items : List Item) : List Item :=
  items.map fun other => if key other = key new then new else other

def remove (key : Item → Key) (wanted : Key) (items : List Item) : List Item :=
  items.filter fun other => key other ≠ wanted

theorem find_of_mem (distinct : (items.map key).Nodup) (member : item ∈ items) :
    items.find? (fun other => key other = key item) = some item := by
  cases found : items.find? (fun other => key other = key item) with
  | none =>
    have missing := find?_eq_none.mp found item member
    rw [decide_eq_true rfl] at missing
    exact absurd rfl missing
  | some other =>
    have same := of_decide_eq_true (find?_some (p := fun other => key other = key item) found)
    rw [eq_of_key distinct (mem_of_find?_eq_some found) member same]

theorem filterMap_find (distinct : (items.map key).Nodup) (selected : Item → Bool) :
    ((items.filter selected).map key).filterMap (fun wanted =>
      items.find? fun other => key other = wanted) = items.filter selected := by
  rw [filterMap_map]
  have found : ∀ item ∈ items.filter selected,
      ((fun wanted => items.find? fun other => key other = wanted) ∘ key) item = some item := by
    intro item member
    exact find_of_mem distinct (mem_of_mem_filter member)
  rw [filterMap_congr found, filterMap_some]

section Replace

variable {new : Item}

theorem map_replace : (replace key new items).map key = items.map key := by
  rw [replace, map_map]
  apply map_congr_left
  intro other _
  by_cases same : key other = key new
  · simp [same]
  · simp [same]

theorem replace_replace {other : Item} (same : key other = key new) :
    replace key new (replace key other items) = replace key new items := by
  rw [replace, replace, map_map]
  apply map_congr_left
  intro item _
  by_cases replaced : key item = key new <;> simp [same, replaced]

theorem replace_of_not_mem (missing : key new ∉ items.map key) : replace key new items = items := by
  conv_rhs => rw [← map_id items]
  apply map_congr_left
  intro item member
  rw [if_neg, id]
  rintro same
  exact missing (same ▸ mem_map_of_mem member)

theorem replace_cons {first : Item} (same : key first = key new)
    (missing : key new ∉ items.map key) : replace key new (first :: items) = new :: items := by
  change (if key first = key new then new else first) :: replace key new items = new :: items
  rw [if_pos same, replace_of_not_mem missing]

theorem mem_replace (known : key new ∈ items.map key) :
    item ∈ replace key new items ↔ item = new ∨ item ∈ items ∧ key item ≠ key new := by
  obtain ⟨old, member, sameKey⟩ := mem_map.mp known
  rw [replace, mem_map]
  constructor
  · rintro ⟨other, present, rfl⟩
    by_cases same : key other = key new
    · exact .inl (if_pos same)
    · rw [if_neg same]
      exact .inr ⟨present, same⟩
  · rintro (rfl | ⟨present, other⟩)
    · exact ⟨old, member, if_pos sameKey⟩
    · exact ⟨item, present, if_neg other⟩

theorem map_replace_of_eq {Part : Type} (distinct : (items.map key).Nodup) {old : Item}
    (member : old ∈ items) (same : key new = key old) {part : Item → Part}
    (kept : part new = part old) : (replace key new items).map part = items.map part := by
  rw [replace, map_map]
  apply map_congr_left
  intro other present
  by_cases replaced : key other = key new
  · have first : other = old := eq_of_key distinct present member (replaced.trans same)
    subst first
    simp [same, kept]
  · simp [replaced]

end Replace

theorem mem_remove {wanted : Key} : item ∈ remove key wanted items ↔ item ∈ items ∧ key item ≠ wanted := by
  rw [remove, mem_filter, decide_eq_true_eq]

theorem map_remove {wanted : Key} :
    (remove key wanted items).map key = (items.map key).filter fun other => other ≠ wanted := by
  rw [remove, filter_map]
  rfl

end KeyedList
