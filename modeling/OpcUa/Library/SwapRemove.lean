import Mathlib.Data.List.Basic

/-!
Removal from an array without a gap: the last element takes the place of the one that goes. Up to
the order it is the removal of one element.
-/

namespace SwapRemove

open scoped List

variable {α : Type}

def swapRemove (elements : List α) (index : Nat) : List α :=
  match elements.getLast? with
  | none => []
  | some last => (elements.set index last).dropLast

theorem swapRemove_concat (elements : List α) (last : α) (index : Nat) :
    swapRemove (elements ++ [last]) index =
      if index < elements.length then elements.set index last else elements := by
  rw [swapRemove, List.getLast?_concat]
  dsimp only
  split
  · rename_i inside
    rw [List.set_append_left _ _ inside, List.dropLast_concat]
  · rename_i outside
    rw [List.set_append_right _ _ (Nat.le_of_not_lt outside)]
    cases gap : index - elements.length with
    | zero => rw [List.set_cons_zero, List.dropLast_concat]
    | succ gap => rw [List.set_cons_succ, List.set_nil, List.dropLast_concat]

theorem cons_set_perm {elements : List α} {index : Nat} {element : α}
    (found : elements[index]? = some element) (new : α) :
    element :: elements.set index new ~ new :: elements := by
  induction elements generalizing index with
  | nil => cases found
  | cons first rest ih =>
    cases index with
    | zero =>
      rw [List.getElem?_cons_zero, Option.some.injEq] at found
      rw [found, List.set_cons_zero]
      exact .swap _ _ _
    | succ index =>
      calc element :: first :: rest.set index new
          ~ first :: element :: rest.set index new := .swap _ _ _
        _ ~ first :: new :: rest := (ih found).cons first
        _ ~ new :: first :: rest := .swap _ _ _

theorem swapRemove_perm {elements : List α} {index : Nat} {element : α}
    (found : elements[index]? = some element) :
    element :: swapRemove elements index ~ elements := by
  rcases List.eq_nil_or_concat elements with empty | ⟨front, last, split⟩
  · rw [empty] at found
    cases found
  · subst split
    rw [List.concat_eq_append, swapRemove_concat]
    rw [List.concat_eq_append] at found
    by_cases inside : index < front.length
    · rw [if_pos inside]
      rw [List.getElem?_append_left inside] at found
      exact (cons_set_perm found last).trans (List.perm_append_singleton last front).symm
    · rw [if_neg inside]
      rw [List.getElem?_append_right (Nat.le_of_not_lt inside)] at found
      have same : element = last := by
        cases gap : index - front.length with
        | zero => simpa [gap, eq_comm] using found
        | succ gap => simp [gap] at found
      rw [same]
      exact (List.perm_append_singleton last front).symm

end SwapRemove
