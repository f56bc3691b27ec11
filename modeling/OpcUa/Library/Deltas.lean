import Mathlib.Data.List.Basic

/-!
A list that is kept at two places. The sender compares the new elements with those it has stored
and sends the indices and values of the ones that changed; the receiver overwrites its image.
-/

namespace Deltas

variable {α : Type}

def Agrees (same : α → α → Prop) (image elements : List α) : Prop :=
  ∀ (index : Nat) (element : α), elements[index]? = some element →
    ∃ held, image[index]? = some held ∧ same held element

section Frames

variable (changed : α → α → Bool) (send : α → α)

def changes : Nat → List α → List α → List (Nat × α)
  | start, old :: olds, new :: news =>
    if changed old new then (start, send new) :: changes (start + 1) olds news
    else changes (start + 1) olds news
  | _, _, _ => []

def stored (olds news : List α) : List α :=
  List.zipWith (fun old new => if changed old new then new else old) olds news

end Frames

def overwrite (image : List α) (frame : List (Nat × α)) : List α :=
  frame.foldl (fun image entry => image.set entry.1 entry.2) image

section Overwrite

variable {changed : α → α → Bool} {send : α → α}

theorem getElem?_overwrite_before (olds news image : List α) {start index : Nat}
    (before : index < start) :
    (overwrite image (changes changed send start olds news))[index]? = image[index]? := by
  induction olds generalizing start image news with
  | nil => rfl
  | cons old olds ih =>
    cases news with
    | nil => rfl
    | cons new news =>
      rw [changes]
      split
      · refine (ih news (image.set start (send new)) (Nat.lt_succ_of_lt before)).trans ?_
        exact List.getElem?_set_ne (Nat.ne_of_gt before)
      · exact ih news image (Nat.lt_succ_of_lt before)

theorem getElem?_overwrite (changed : α → α → Bool) (send : α → α) {olds news : List α}
    {old new held : α} (image : List α) {start index : Nat}
    (before : olds[index]? = some old) (sampled : news[index]? = some new)
    (holds : image[start + index]? = some held) :
    (overwrite image (changes changed send start olds news))[start + index]? =
      some (if changed old new then send new else held) := by
  induction olds generalizing start image news index with
  | nil => cases before
  | cons first olds ih =>
    cases news with
    | nil => cases sampled
    | cons fresh news =>
      cases index with
      | zero =>
        cases before
        cases sampled
        rw [changes]
        split
        · refine (getElem?_overwrite_before olds news _ (Nat.lt_succ_self start)).trans ?_
          obtain ⟨inside, -⟩ := List.getElem?_eq_some_iff.mp holds
          exact List.getElem?_set_self inside
        · exact (getElem?_overwrite_before olds news _ (Nat.lt_succ_self start)).trans holds
      | succ index =>
        have place : start + (index + 1) = start + 1 + index := by omega
        rw [place] at holds ⊢
        rw [changes]
        split
        · refine ih (image.set start (send fresh)) before sampled ?_
          rw [List.getElem?_set_ne (by omega)]
          exact holds
        · exact ih image before sampled holds

theorem overwrite_agrees (changed : α → α → Bool) (send : α → α) {same : α → α → Prop} {olds news image : List α}
    (lengths : olds.length = news.length) (agrees : Agrees same image olds)
    (sends : ∀ new, same (send new) new)
    (keeps : ∀ held old new, old ∈ olds → new ∈ news → changed old new = false →
      same held old → same held new) :
    Agrees same (overwrite image (changes changed send 0 olds news)) news ∧
      Agrees same (overwrite image (changes changed send 0 olds news))
        (stored changed olds news) := by
  have each : ∀ (index : Nat) (new : α), news[index]? = some new → ∃ old held, olds[index]? = some old ∧
      (overwrite image (changes changed send 0 olds news))[index]? =
        some (if changed old new then send new else held) ∧ same held old := by
    intro index new sampled
    obtain ⟨inside, -⟩ := List.getElem?_eq_some_iff.mp sampled
    have before := List.getElem?_eq_getElem (lengths ▸ inside)
    obtain ⟨held, holds, close⟩ := agrees index _ before
    have result := getElem?_overwrite changed send image before sampled (by rwa [Nat.zero_add])
    rw [Nat.zero_add] at result
    exact ⟨_, held, before, result, close⟩
  constructor
  · intro index new sampled
    obtain ⟨old, held, before, result, close⟩ := each index new sampled
    refine ⟨_, result, ?_⟩
    cases differs : changed old new with
    | true => exact sends new
    | false =>
      exact keeps held old new (List.mem_of_getElem? before) (List.mem_of_getElem? sampled)
        differs close
  · intro index element kept
    obtain ⟨old, new, before, sampled, chosen⟩ := List.getElem?_zipWith_eq_some.mp kept
    obtain ⟨other, held, again, result, close⟩ := each index new sampled
    rw [before] at again
    cases again
    refine ⟨_, result, ?_⟩
    rw [← chosen]
    cases changed old new with
    | true => exact sends new
    | false => exact close

end Overwrite

end Deltas
