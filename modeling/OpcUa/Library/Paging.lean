import Mathlib.Data.List.Basic

/-!
Answers in pages. A call at a cursor gives some of the items that are left and the cursor for the
rest, or none when there is no rest.
-/

namespace Paging

variable {Cursor Item : Type} {page : Cursor → List Item → Option Cursor → Prop}

inductive Pages (page : Cursor → List Item → Option Cursor → Prop) : Cursor → List (List Item) → Prop
  | last {cursor : Cursor} {items : List Item} (answered : page cursor items none) :
      Pages page cursor [items]
  | more {cursor next : Cursor} {items : List Item} {pages : List (List Item)}
      (answered : page cursor items (some next)) (rest : Pages page next pages) :
      Pages page cursor (items :: pages)

structure Splits (page : Cursor → List Item → Option Cursor → Prop) (valid : Cursor → Prop)
    (left : Cursor → List Item) : Prop where
  ends : ∀ {cursor items}, valid cursor → page cursor items none → left cursor = items
  goes : ∀ {cursor items next}, valid cursor → page cursor items (some next) →
    left cursor = items ++ left next ∧ valid next ∧ items ≠ []

section Splits

variable {valid : Cursor → Prop} {left : Cursor → List Item}
variable {cursor : Cursor} {pages : List (List Item)}

section

variable (splits : Splits page valid left)
include splits

theorem Splits.flatten (known : valid cursor) (run : Pages page cursor pages) :
    pages.flatten = left cursor := by
  induction run with
  | last answered =>
    rw [splits.ends known answered, List.flatten_singleton]
  | more answered rest ih =>
    obtain ⟨split, follows, -⟩ := splits.goes known answered
    rw [List.flatten_cons, ih follows, split]

theorem Splits.pages_ne_nil (filled : ∀ cursor, valid cursor → left cursor ≠ [])
    (known : valid cursor) (run : Pages page cursor pages) : ∀ items ∈ pages, items ≠ [] := by
  induction run with
  | last answered =>
    intro items member
    rw [List.mem_singleton.mp member, ← splits.ends known answered]
    exact filled _ known
  | more answered rest ih =>
    obtain ⟨-, follows, nonempty⟩ := splits.goes known answered
    intro items member
    rcases List.mem_cons.mp member with first | later
    · rw [first]
      exact nonempty
    · exact ih follows items later

theorem Splits.exists_pages
    (answers : ∀ cursor, valid cursor → ∃ items next, page cursor items next) (known :
      valid cursor) :
    ∃ pages, Pages page cursor pages := by
  induction count : (left cursor).length using Nat.strongRecOn generalizing cursor with
  | ind size ih =>
    obtain ⟨items, next, answered⟩ := answers cursor known
    cases next with
    | none => exact ⟨_, .last answered⟩
    | some next =>
      obtain ⟨split, follows, nonempty⟩ := splits.goes known answered
      have shorter : (left next).length < size := by
        have positive := List.length_pos_iff.mpr nonempty
        rw [← count, split, List.length_append]
        omega
      obtain ⟨pages, run⟩ := ih _ shorter follows rfl
      exact ⟨_, .more answered run⟩

end

end Splits

end Paging
