import Mathlib.Data.List.Nodup
import Mathlib.Data.List.Perm.Subperm
import Mathlib.Logic.Function.Basic

/-!
Singly linked lists in a memory. A list is known by the pointer to its first entry. The searches
follow the links for a number of steps.
-/

namespace SinglyLinked

variable {Address : Type}

inductive Chain (next : Address → Option Address) : Option Address → List Address → Prop
  | nil : Chain next none []
  | cons {first : Address} {rest : List Address} (linked : Chain next (next first) rest) :
      Chain next (some first) (first :: rest)

section Chains

variable {next : Address → Option Address} {head : Option Address} {entries : List Address}

theorem Chain.congr {other : Address → Option Address} (chain : Chain next head entries)
    (same : ∀ entry ∈ entries, other entry = next entry) : Chain other head entries := by
  induction chain with
  | nil => exact .nil
  | @cons first rest _ ih =>
    have linked := ih fun entry member => same entry (List.mem_cons_of_mem _ member)
    rw [← same first List.mem_cons_self] at linked
    exact .cons linked

theorem Chain.head_eq (chain : Chain next head entries) : head = entries.head? := by
  cases chain with
  | nil => rfl
  | cons _ => rfl

end Chains

variable [DecidableEq Address]

def contains (next : Address → Option Address) (target : Address) :
    Nat → Option Address → Option Bool
  | _, none => some false
  | 0, some _ => none
  | fuel + 1, some entry =>
    if entry = target then some true else contains next target fuel (next entry)

def previous (next : Address → Option Address) (target : Address) : Nat → Address → Option Address
  | 0, _ => none
  | fuel + 1, entry =>
    if next entry = some target then some entry
    else (next entry).bind (previous next target fuel)

variable {next : Address → Option Address} {head : Option Address} {entries : List Address}

section

variable (chain : Chain next head entries)
include chain

theorem Chain.update {entry : Address} (absent : entry ∉ entries) (link : Option Address) :
    Chain (Function.update next entry link) head entries := by
  apply chain.congr
  intro other member
  apply Function.update_of_ne
  rintro rfl
  exact absent member

theorem Chain.push {entry : Address} (absent : entry ∉ entries) :
    Chain (Function.update next entry head) (some entry) (entry :: entries) := by
  refine .cons ?_
  rw [Function.update_self]
  exact chain.update absent head

theorem Chain.contains_eq {fuel : Nat} {target : Address} (enough : entries.length ≤ fuel) :
    contains next target fuel head = some (decide (target ∈ entries)) := by
  induction chain generalizing fuel with
  | nil =>
    cases fuel with
    | _ => rfl
  | @cons first rest _ ih =>
    cases fuel with
    | zero => cases enough
    | succ fuel =>
      rw [contains]
      by_cases here : first = target
      · rw [if_pos here, here]
        simp
      · rw [if_neg here, ih (Nat.le_of_succ_le_succ enough)]
        simp [Ne.symm here]

end

theorem Chain.unlink {fuel : Nat} {first target : Address} {rest : List Address}
    (chain : Chain next (some first) (first :: rest)) (nodup : (first :: rest).Nodup)
    (member : target ∈ rest) (enough : rest.length ≤ fuel) :
    ∃ entry, previous next target fuel first = some entry ∧ entry ∈ first :: rest ∧
      Chain (Function.update next entry (next target)) (some first)
        (first :: rest.erase target) := by
  induction rest generalizing first fuel with
  | nil => cases member
  | cons second rest ih =>
    obtain ⟨alone, others⟩ := List.nodup_cons.mp nodup
    cases fuel with
    | zero => cases enough
    | succ fuel =>
      cases chain with
      | cons linked =>
        have link : next first = some second := linked.head_eq
        rw [link] at linked
        rw [previous, link]
        by_cases here : second = target
        · subst here
          refine ⟨first, if_pos rfl, List.mem_cons_self, ?_⟩
          rw [List.erase_cons_head]
          cases linked with
          | cons behind =>
            refine .cons ?_
            rw [Function.update_self]
            exact behind.update (fun inside => alone (List.mem_cons_of_mem _ inside)) _
        · have later : target ∈ rest := by
            rcases List.mem_cons.mp member with same | inside
            · exact absurd same.symm here
            · exact inside
          obtain ⟨entry, found, inside, unlinked⟩ :=
            ih linked others later (Nat.le_of_succ_le_succ enough)
          refine ⟨entry, ?_, List.mem_cons_of_mem _ inside, ?_⟩
          · rw [if_neg (fun same => here (Option.some.inj same))]
            exact found
          · rw [List.erase_cons_tail (by simpa using here)]
            refine .cons ?_
            have apart : first ≠ entry := by
              rintro rfl
              exact alone inside
            rw [Function.update_of_ne apart, link]
            exact unlinked

end SinglyLinked
