import Mathlib.Data.Fintype.EquivFin
import Mathlib.Data.Nat.ModEq
import Mathlib.Data.Nat.Prime.Basic

/-!
Open addressing with double hashing and tombstones in a table of prime size. A probe sequence
visits every slot once, an entry is never behind an empty slot of its probe sequence, and so
the search of a key may stop at the first empty slot.
-/

namespace DoubleHashing

open List

variable {size stride : Nat}

inductive Slot (Entry : Type) where
  | null
  | tombstone
  | entry (value : Entry)
deriving DecidableEq

namespace Slot

variable {Entry : Type}

def isEntry : Slot Entry → Bool
  | entry _ => true
  | _ => false

def isNull : Slot Entry → Bool
  | null => true
  | _ => false

end Slot

structure Hashing (Key : Type) where
  equal : Key → Key → Bool
  hash : Key → Nat
  refl : ∀ key, equal key key = true
  symm : ∀ {first second}, equal first second = true → equal second first = true
  trans : ∀ {first second third}, equal first second = true → equal second third = true →
    equal first third = true
  hash_eq : ∀ {first second}, equal first second = true → hash first = hash second

def startOf (size hash : Nat) : Nat := hash % size

def strideOf (size hash : Nat) : Nat := 1 + hash % (size - 2)

def advance (size stride index : Nat) : Nat :=
  if index + stride ≥ size then index + stride - size else index + stride

def probe (size hash count : Nat) : Nat := (startOf size hash + count * strideOf size hash) % size

theorem advance_eq {index : Nat} (inside : index < size) (small : stride < size) :
    advance size stride index = (index + stride) % size := by
  rw [advance]
  split
  · rename_i beyond
    rw [Nat.mod_eq_sub_mod beyond, Nat.mod_eq_of_lt (by omega)]
  · exact (Nat.mod_eq_of_lt (by omega)).symm

section

variable (prime : size.Prime) (positive : 0 < stride) (small : stride < size) (start : Nat)
include prime positive small

theorem stride_inj {first second : Nat} (inside : first < size) (too : second < size)
    (same : (start + first * stride) % size = (start + second * stride) % size) :
    first = second := by
  have coprime : Nat.Coprime size stride := Nat.coprime_of_lt_prime positive.ne' small prime
  have steps := Nat.ModEq.add_left_cancel' start same
  have positions := Nat.ModEq.cancel_right_of_coprime coprime steps
  rwa [Nat.ModEq, Nat.mod_eq_of_lt inside, Nat.mod_eq_of_lt too] at positions

theorem stride_surj {index : Nat} (inside : index < size) :
    ∃ count < size, (start + count * stride) % size = index := by
  let visit (count : Fin size) : Fin size :=
    ⟨(start + count * stride) % size, Nat.mod_lt _ (by omega)⟩
  have injective : Function.Injective visit := by
    intro first second same
    exact Fin.ext (stride_inj prime positive small start first.isLt second.isLt
      (congrArg Fin.val same))
  obtain ⟨count, found⟩ := Finite.injective_iff_surjective.mp injective ⟨index, inside⟩
  exact ⟨count, count.isLt, congrArg Fin.val found⟩

end

section Probe

variable {hash : Nat}

theorem strideOf_bounds (hash : Nat) (large : 3 ≤ size) :
    0 < strideOf size hash ∧ strideOf size hash < size := by
  have bound := Nat.mod_lt hash (show 0 < size - 2 by omega)
  rw [strideOf]
  omega

theorem probe_lt (hash : Nat) (large : 3 ≤ size) (count : Nat) : probe size hash count < size :=
  Nat.mod_lt _ (by omega)

theorem probe_zero : probe size hash 0 = startOf size hash := by
  rw [probe, Nat.zero_mul, Nat.add_zero, startOf, Nat.mod_mod]

theorem advance_probe (large : 3 ≤ size) (count : Nat) :
    advance size (strideOf size hash) (probe size hash count) = probe size hash (count + 1) := by
  rw [advance_eq (probe_lt hash large count) (strideOf_bounds hash large).2, probe, probe,
    Nat.mod_add_mod, Nat.succ_mul, Nat.add_assoc]

theorem probe_inj (prime : size.Prime) (large : 3 ≤ size) {first second : Nat}
    (inside : first < size) (too : second < size)
    (same : probe size hash first = probe size hash second) : first = second := by
  have bounds := strideOf_bounds hash large
  exact stride_inj prime bounds.1 bounds.2 _ inside too same

theorem probe_surj (hash : Nat) (prime : size.Prime) (large : 3 ≤ size) {index : Nat}
    (inside : index < size) : ∃ count < size, probe size hash count = index := by
  have bounds := strideOf_bounds hash large
  exact stride_surj prime bounds.1 bounds.2 _ inside

theorem probe_start_iff (prime : size.Prime) (large : 3 ≤ size) {count : Nat}
    (inside : count < size) :
    probe size hash (count + 1) = startOf size hash ↔ count + 1 = size := by
  rw [← probe_zero]
  constructor
  · intro same
    by_contra early
    have zero := probe_inj prime large (by omega) (by omega) same
    omega
  · intro whole
    rw [whole, probe, probe, Nat.zero_mul, Nat.add_zero, Nat.add_mul_mod_self_left]

end Probe

section Search

variable {Key Entry : Type} (hashing : Hashing Key) (keyOf : Entry → Key)
variable {count : Nat}

def slotAt (slots : List (Slot Entry)) (index : Nat) : Slot Entry := slots.getD index .null

def matchesKey (key : Key) : Slot Entry → Bool
  | .entry value => hashing.equal (keyOf value) key
  | _ => false

/-- The slots from the index on, up to one with the key, an empty one or the start. The result
is missing as long as the loop runs. -/
def findOccupiedFrom (slots : List (Slot Entry)) (key : Key) : Nat → Nat → Option (Option Nat)
  | 0, _ => none
  | fuel + 1, index =>
    let slot := slotAt slots index
    let next := advance slots.length (strideOf slots.length (hashing.hash key)) index
    if matchesKey hashing keyOf key slot then some (some index)
    else if next ≠ startOf slots.length (hashing.hash key) ∧ !slot.isNull then
      findOccupiedFrom slots key fuel next
    else some none

def findOccupied (slots : List (Slot Entry)) (key : Key) : Option (Option Nat) :=
  findOccupiedFrom hashing keyOf slots key slots.length (startOf slots.length (hashing.hash key))

def findFreeFrom (slots : List (Slot Entry)) (key : Key) :
    Nat → Nat → Option Nat → Option (Option Nat)
  | 0, _, _ => none
  | fuel + 1, index, free =>
    let slot := slotAt slots index
    let next := advance slots.length (strideOf slots.length (hashing.hash key)) index
    if matchesKey hashing keyOf key slot then some none
    else
      let free := if free.isNone && !slot.isEntry then some index else free
      if next ≠ startOf slots.length (hashing.hash key) ∧ !slot.isNull then
        findFreeFrom slots key fuel next free
      else some free

def findFree (slots : List (Slot Entry)) (key : Key) : Option (Option Nat) :=
  findFreeFrom hashing keyOf slots key slots.length (startOf slots.length (hashing.hash key)) none

def Open (slots : List (Slot Entry)) (hash count : Nat) : Prop :=
  ∀ earlier < count, (slotAt slots (probe slots.length hash earlier)).isNull = false

/-- What a search has found out when it stops: the key is in the slot that was visited last, or
in none of the visited ones, and then that slot is empty or all were visited. -/
structure Visited (slots : List (Slot Entry)) (key : Key) (last : Nat) : Prop where
  inside : last < slots.length
  before : Open slots (hashing.hash key) last
  absent : ∀ count < last,
    matchesKey hashing keyOf key (slotAt slots (probe slots.length (hashing.hash key) count)) = false

variable {hashing keyOf} {slots : List (Slot Entry)} {key : Key}

theorem Visited.next (visited : Visited hashing keyOf slots key count)
    (other : matchesKey hashing keyOf key
      (slotAt slots (probe slots.length (hashing.hash key) count)) = false)
    (full : (slotAt slots (probe slots.length (hashing.hash key) count)).isNull = false)
    (more : count + 1 < slots.length) : Visited hashing keyOf slots key (count + 1) := by
  refine ⟨more, ?_, ?_⟩
  · intro earlier before
    rcases Nat.lt_succ_iff_lt_or_eq.mp before with less | same
    · exact visited.before earlier less
    · rw [same]
      exact full
  · intro earlier before
    rcases Nat.lt_succ_iff_lt_or_eq.mp before with less | same
    · exact visited.absent earlier less
    · rw [same]
      exact other

def Ends (slots : List (Slot Entry)) (hash last : Nat) : Prop :=
  (slotAt slots (probe slots.length hash last)).isNull = true ∨ last + 1 = slots.length

theorem continues_iff (prime : slots.length.Prime) (large : 3 ≤ slots.length) {hash : Nat}
    (inside : count < slots.length) :
    (advance slots.length (strideOf slots.length hash) (probe slots.length hash count) ≠
        startOf slots.length hash ∧
      (!(slotAt slots (probe slots.length hash count)).isNull) = true) ↔
        ¬Ends slots hash count := by
  rw [advance_probe large, ne_eq, probe_start_iff prime large inside, Ends, not_or, and_comm,
    Bool.not_eq_true', Bool.not_eq_true]

theorem findOccupiedFrom_spec (prime : slots.length.Prime) (large : 3 ≤ slots.length)
    (fuel count : Nat) (room : fuel + count = slots.length)
    (visited : Visited hashing keyOf slots key count) :
    ∃ last, Visited hashing keyOf slots key last ∧
      let index := probe slots.length (hashing.hash key) last
      ((findOccupiedFrom hashing keyOf slots key fuel
          (probe slots.length (hashing.hash key) count) = some (some index) ∧
        matchesKey hashing keyOf key (slotAt slots index) = true) ∨
      (findOccupiedFrom hashing keyOf slots key fuel
          (probe slots.length (hashing.hash key) count) = some none ∧
        matchesKey hashing keyOf key (slotAt slots index) = false ∧
        Ends slots (hashing.hash key) last)) := by
  induction fuel generalizing count with
  | zero =>
    have inside := visited.inside
    omega
  | succ fuel ih =>
    rw [findOccupiedFrom]
    by_cases found : matchesKey hashing keyOf key
        (slotAt slots (probe slots.length (hashing.hash key) count)) = true
    · rw [if_pos found]
      exact ⟨count, visited, .inl ⟨rfl, found⟩⟩
    · rw [if_neg found]
      rw [Bool.not_eq_true] at found
      by_cases ended : Ends slots (hashing.hash key) count
      · rw [if_neg (fun goes => (continues_iff prime large visited.inside).mp goes ended)]
        exact ⟨count, visited, .inr ⟨rfl, found, ended⟩⟩
      · rw [if_pos ((continues_iff prime large visited.inside).mpr ended), advance_probe large]
        rw [Ends, not_or, Bool.not_eq_true] at ended
        have inside := visited.inside
        exact ih (count + 1) (by omega) (visited.next found ended.1 (by omega))

def FirstFree (slots : List (Slot Entry)) (hash count : Nat) : Option Nat → Prop
  | none => ∀ earlier < count, (slotAt slots (probe slots.length hash earlier)).isEntry = true
  | some index => ∃ place < count, index = probe slots.length hash place ∧
      (slotAt slots index).isEntry = false ∧
      ∀ earlier < place, (slotAt slots (probe slots.length hash earlier)).isEntry = true

theorem FirstFree.next {hash : Nat} {free : Option Nat} (first : FirstFree slots hash count free) :
    FirstFree slots hash (count + 1)
      (if free.isNone && !(slotAt slots (probe slots.length hash count)).isEntry then
        some (probe slots.length hash count) else free) := by
  cases free with
  | some index =>
    obtain ⟨place, less, rest⟩ := first
    exact ⟨place, by omega, rest⟩
  | none =>
    cases kind : (slotAt slots (probe slots.length hash count)).isEntry with
    | false => exact ⟨count, by omega, rfl, kind, first⟩
    | true =>
      intro earlier before
      rcases Nat.lt_succ_iff_lt_or_eq.mp before with less | same
      · exact first earlier less
      · rw [same]
        exact kind

theorem findFreeFrom_spec (prime : slots.length.Prime) (large : 3 ≤ slots.length)
    (fuel count : Nat) (free : Option Nat) (room : fuel + count = slots.length)
    (visited : Visited hashing keyOf slots key count)
    (first : FirstFree slots (hashing.hash key) count free) :
    ∃ last result, Visited hashing keyOf slots key last ∧
      findFreeFrom hashing keyOf slots key fuel (probe slots.length (hashing.hash key) count) free =
        some result ∧
      ((result = none ∧ matchesKey hashing keyOf key
          (slotAt slots (probe slots.length (hashing.hash key) last)) = true) ∨
      (matchesKey hashing keyOf key
          (slotAt slots (probe slots.length (hashing.hash key) last)) = false ∧
        Ends slots (hashing.hash key) last ∧
        FirstFree slots (hashing.hash key) (last + 1) result)) := by
  induction fuel generalizing count free with
  | zero =>
    have inside := visited.inside
    omega
  | succ fuel ih =>
    rw [findFreeFrom]
    by_cases found : matchesKey hashing keyOf key
        (slotAt slots (probe slots.length (hashing.hash key) count)) = true
    · rw [if_pos found]
      exact ⟨count, none, visited, rfl, .inl ⟨rfl, found⟩⟩
    · rw [if_neg found]
      rw [Bool.not_eq_true] at found
      by_cases ended : Ends slots (hashing.hash key) count
      · rw [if_neg (fun goes => (continues_iff prime large visited.inside).mp goes ended)]
        exact ⟨count, _, visited, rfl, .inr ⟨found, ended, first.next⟩⟩
      · rw [if_pos ((continues_iff prime large visited.inside).mpr ended), advance_probe large]
        rw [Ends, not_or, Bool.not_eq_true] at ended
        have inside := visited.inside
        exact ih (count + 1) _ (by omega) (visited.next found ended.1 (by omega)) first.next

end Search

section Tables

variable {Key Entry : Type} (hashing : Hashing Key) (keyOf : Entry → Key)
variable {slot : Slot Entry} {index : Nat} {value former : Entry} {rest : List (Slot Entry)}

/-- Every entry can be reached from the start of its probe sequence, and no key is there twice. -/
structure Valid (slots : List (Slot Entry)) : Prop where
  prime : slots.length.Prime
  large : 3 ≤ slots.length
  reachable : ∀ index value, slotAt slots index = .entry value → ∃ place < slots.length,
    probe slots.length (hashing.hash (keyOf value)) place = index ∧
      Open slots (hashing.hash (keyOf value)) place
  unique : ∀ first second value other, slotAt slots first = .entry value →
    slotAt slots second = .entry other → hashing.equal (keyOf value) (keyOf other) = true →
    first = second

def Holds (slots : List (Slot Entry)) (key : Key) (value : Entry) : Prop :=
  ∃ index, slotAt slots index = .entry value ∧ hashing.equal (keyOf value) key = true

def occupied (slots : List (Slot Entry)) : Nat := slots.countP Slot.isEntry

variable {hashing keyOf} {slots : List (Slot Entry)} {key : Key}

theorem matchesKey_iff :
    matchesKey hashing keyOf key slot = true ↔
      ∃ value, slot = .entry value ∧ hashing.equal (keyOf value) key = true := by
  cases slot with
  | null => simp [matchesKey]
  | tombstone => simp [matchesKey]
  | entry value => simp [matchesKey]

theorem Valid.absent (valid : Valid hashing keyOf slots) {last : Nat}
    (visited : Visited hashing keyOf slots key last)
    (other : matchesKey hashing keyOf key
      (slotAt slots (probe slots.length (hashing.hash key) last)) = false)
    (ended : Ends slots (hashing.hash key) last) (value : Entry) :
    ¬Holds hashing keyOf slots key value := by
  rintro ⟨index, here, same⟩
  obtain ⟨place, inside, reached, opened⟩ := valid.reachable index value here
  rw [hashing.hash_eq same] at reached opened
  have found : matchesKey hashing keyOf key
      (slotAt slots (probe slots.length (hashing.hash key) place)) = true := by
    rw [reached]
    exact matchesKey_iff.mpr ⟨value, here, same⟩
  have bound := visited.inside
  rcases Nat.lt_trichotomy place last with less | equal | greater
  · rw [visited.absent place less] at found
    cases found
  · rw [equal, other] at found
    cases found
  · rcases ended with empty | all
    · rw [opened last greater] at empty
      cases empty
    · omega

theorem Visited.zero (large : 3 ≤ slots.length) : Visited hashing keyOf slots key 0 :=
  ⟨by omega, fun earlier before => absurd before (Nat.not_lt_zero earlier),
    fun earlier before => absurd before (Nat.not_lt_zero earlier)⟩

theorem findOccupied_spec (valid : Valid hashing keyOf slots) (key : Key) :
    ∃ result, findOccupied hashing keyOf slots key = some result ∧
      match result with
      | some index => ∃ value, slotAt slots index = .entry value ∧
          hashing.equal (keyOf value) key = true
      | none => ∀ value, ¬Holds hashing keyOf slots key value := by
  have search := findOccupiedFrom_spec valid.prime valid.large slots.length 0 rfl
    (show Visited hashing keyOf slots key 0 from .zero valid.large)
  rw [probe_zero] at search
  obtain ⟨last, visited, ⟨result, found⟩ | ⟨result, other, ended⟩⟩ := search
  · exact ⟨_, result, matchesKey_iff.mp found⟩
  · exact ⟨_, result, valid.absent visited other ended⟩

theorem slotAt_of_lt (inside : index < slots.length) : slotAt slots index = slots[index] := by
  rw [slotAt, getD_eq_getElem?_getD, getElem?_eq_getElem inside, Option.getD_some]

theorem slotAt_inside (here : slotAt slots index = .entry value) : index < slots.length := by
  by_contra outside
  rw [slotAt, getD_eq_getElem?_getD, getElem?_eq_none (not_lt.mp outside)] at here
  cases here

structure Place (hashing : Hashing Key) (slots : List (Slot Entry)) (key : Key) (index : Nat) :
    Prop where
  inside : index < slots.length
  free : (slotAt slots index).isEntry = false
  reached : ∃ place < slots.length, probe slots.length (hashing.hash key) place = index ∧
    ∀ earlier < place, (slotAt slots (probe slots.length (hashing.hash key) earlier)).isEntry = true

theorem occupied_full (valid : Valid hashing keyOf slots) {hash : Nat}
    (entries : ∀ count < slots.length,
      (slotAt slots (probe slots.length hash count)).isEntry = true) :
    occupied slots = slots.length := by
  rw [occupied, countP_eq_length]
  intro slot member
  obtain ⟨index, inside, rfl⟩ := mem_iff_getElem.mp member
  obtain ⟨count, bound, same⟩ := probe_surj hash valid.prime valid.large inside
  have entry := entries count bound
  rwa [same, slotAt_of_lt inside] at entry

theorem findFree_spec (valid : Valid hashing keyOf slots) (key : Key) :
    ∃ result, findFree hashing keyOf slots key = some result ∧
      match result with
      | some index => Place hashing slots key index ∧ ∀ value, ¬Holds hashing keyOf slots key value
      | none => (∃ value, Holds hashing keyOf slots key value) ∨ occupied slots = slots.length := by
  have search := findFreeFrom_spec valid.prime valid.large slots.length 0 none rfl
    (show Visited hashing keyOf slots key 0 from .zero valid.large)
    (fun earlier before => absurd before (Nat.not_lt_zero earlier))
  rw [probe_zero] at search
  obtain ⟨last, result, visited, ends, ⟨rfl, found⟩ | ⟨other, ended, first⟩⟩ := search
  · obtain ⟨value, here, same⟩ := matchesKey_iff.mp found
    exact ⟨none, ends, .inl ⟨value, _, here, same⟩⟩
  · refine ⟨result, ends, ?_⟩
    have bound := visited.inside
    cases result with
    | some index =>
      obtain ⟨place, less, reached, free, entries⟩ := first
      refine ⟨⟨?_, free, place, by omega, reached.symm, entries⟩, valid.absent visited other ended⟩
      rw [reached]
      exact probe_lt _ valid.large place
    | none =>
      right
      have all : last + 1 = slots.length := by
        rcases ended with empty | all
        · have entry := first last (by omega)
          cases slot : slotAt slots (probe slots.length (hashing.hash key) last) with
          | null => simp [slot, Slot.isEntry] at entry
          | tombstone => simp [slot, Slot.isEntry] at entry
          | entry value => simp [slot, Slot.isNull] at empty
        · exact all
      exact occupied_full valid fun count inside => first count (by omega)

theorem slotAt_set (slots : List (Slot Entry)) (inside : index < slots.length) (slot : Slot Entry)
    (other : Nat) :
    slotAt (slots.set index slot) other = if index = other then slot else slotAt slots other := by
  rw [slotAt, slotAt, getD_eq_getElem?_getD, getD_eq_getElem?_getD, getElem?_set]
  by_cases here : index = other
  · subst here
    rw [if_pos rfl, if_pos rfl, if_pos inside, Option.getD_some]
  · rw [if_neg here, if_neg here]

theorem Open.set {hash count : Nat} (opened : Open slots hash count) (inside : index < slots.length)
    (full : slot.isNull = false) : Open (slots.set index slot) hash count := by
  intro earlier before
  rw [length_set, slotAt_set slots inside]
  split
  · exact full
  · exact opened earlier before

theorem occupied_set (inside : index < slots.length) (slot : Slot Entry) :
    occupied (slots.set index slot) + (if (slotAt slots index).isEntry then 1 else 0) =
      occupied slots + (if slot.isEntry then 1 else 0) := by
  rw [occupied, occupied, countP_set inside, slotAt_of_lt inside]
  have counted : (if slots[index].isEntry = true then 1 else 0) ≤ slots.countP Slot.isEntry := by
    split
    · rename_i entry
      exact countP_pos_iff.mpr ⟨slots[index], getElem_mem inside, entry⟩
    · exact Nat.zero_le _
  omega

section

variable (valid : Valid hashing keyOf slots)
include valid

theorem Valid.insert (place : Place hashing slots (keyOf value) index)
    (absent : ∀ other, ¬Holds hashing keyOf slots (keyOf value) other) :
    Valid hashing keyOf (slots.set index (.entry value)) := by
  refine ⟨by rw [length_set]; exact valid.prime, by rw [length_set]; exact valid.large, ?_, ?_⟩
  · intro position other here
    rw [slotAt_set slots place.inside] at here
    rw [length_set]
    split at here
    · rename_i same
      cases here
      obtain ⟨count, bound, reached, entries⟩ := place.reached
      refine ⟨count, bound, reached.trans same, Open.set ?_ place.inside rfl⟩
      intro earlier before
      have entry := entries earlier before
      cases slot : slotAt slots (probe slots.length (hashing.hash (keyOf value)) earlier) with
      | null => simp [slot, Slot.isEntry] at entry
      | tombstone => rfl
      | entry _ => rfl
    · obtain ⟨count, bound, reached, opened⟩ := valid.reachable position other here
      exact ⟨count, bound, reached, opened.set place.inside rfl⟩
  · intro first second one two here there same
    rw [slotAt_set slots place.inside] at here there
    split at here
    · rename_i atFirst
      cases here
      split at there
      · rename_i atSecond
        exact atFirst.symm.trans atSecond
      · exact absurd ⟨second, there, hashing.symm same⟩ (absent two)
    · split at there
      · cases there
        exact absurd ⟨first, here, same⟩ (absent one)
      · exact valid.unique first second one two here there same

theorem Valid.remove (inside : index < slots.length) :
    Valid hashing keyOf (slots.set index .tombstone) := by
  refine ⟨by rw [length_set]; exact valid.prime, by rw [length_set]; exact valid.large, ?_, ?_⟩
  · intro position other here
    rw [slotAt_set slots inside] at here
    rw [length_set]
    split at here
    · cases here
    · obtain ⟨count, bound, reached, opened⟩ := valid.reachable position other here
      exact ⟨count, bound, reached, opened.set inside rfl⟩
  · intro first second one two here there same
    rw [slotAt_set slots inside] at here there
    split at here
    · cases here
    · split at there
      · cases there
      · exact valid.unique first second one two here there same

theorem Valid.replace (here : slotAt slots index = .entry former)
    (same : hashing.equal (keyOf value) (keyOf former) = true) :
    Valid hashing keyOf (slots.set index (.entry value)) := by
  have inside := slotAt_inside here
  refine ⟨by rw [length_set]; exact valid.prime, by rw [length_set]; exact valid.large, ?_, ?_⟩
  · intro position other there
    rw [slotAt_set slots inside] at there
    rw [length_set]
    split at there
    · rename_i found
      cases there
      obtain ⟨count, bound, reached, opened⟩ := valid.reachable index former here
      rw [← hashing.hash_eq same] at reached opened
      exact ⟨count, bound, reached.trans found, opened.set inside rfl⟩
    · obtain ⟨count, bound, reached, opened⟩ := valid.reachable position other there
      exact ⟨count, bound, reached, opened.set inside rfl⟩
  · intro first second one two atFirst atSecond equal
    rw [slotAt_set slots inside] at atFirst atSecond
    split at atFirst
    · rename_i found
      cases atFirst
      split at atSecond
      · rename_i foundToo
        exact found.symm.trans foundToo
      · have again := valid.unique second index two former atSecond here
          (hashing.trans (hashing.symm equal) same)
        exact found.symm.trans again.symm
    · split at atSecond
      · rename_i found
        cases atSecond
        have again := valid.unique first index one former atFirst here (hashing.trans equal same)
        exact again.trans found
      · exact valid.unique first second one two atFirst atSecond equal

theorem Holds.unique {other : Entry} (here : Holds hashing keyOf slots key value)
    (there : Holds hashing keyOf slots key other) : value = other := by
  obtain ⟨first, atFirst, same⟩ := here
  obtain ⟨second, atSecond, too⟩ := there
  have place := valid.unique first second value other atFirst atSecond
    (hashing.trans same (hashing.symm too))
  rw [place, atSecond] at atFirst
  injection atFirst with equal
  exact equal.symm

end

theorem holds_insert (inside : index < slots.length) (free : (slotAt slots index).isEntry = false)
    (key : Key) (found : Entry) :
    Holds hashing keyOf (slots.set index (.entry value)) key found ↔
      (found = value ∧ hashing.equal (keyOf value) key = true) ∨
        Holds hashing keyOf slots key found := by
  constructor
  · rintro ⟨position, here, same⟩
    rw [slotAt_set slots inside] at here
    split at here
    · cases here
      exact .inl ⟨rfl, same⟩
    · exact .inr ⟨position, here, same⟩
  · rintro (⟨rfl, same⟩ | ⟨position, here, same⟩)
    · exact ⟨index, by rw [slotAt_set slots inside, if_pos rfl], same⟩
    · refine ⟨position, ?_, same⟩
      rw [slotAt_set slots inside, if_neg]
      · exact here
      · intro there
        rw [there, here] at free
        cases free

theorem holds_set (here : slotAt slots index = .entry former) (slot : Slot Entry)
    (other : hashing.equal (keyOf former) key = false)
    (different : matchesKey hashing keyOf key slot = false) (found : Entry) :
    Holds hashing keyOf (slots.set index slot) key found ↔ Holds hashing keyOf slots key found := by
  have inside := slotAt_inside here
  constructor
  · rintro ⟨position, there, same⟩
    rw [slotAt_set slots inside] at there
    split at there
    · rw [matchesKey_iff.mpr ⟨found, there, same⟩] at different
      cases different
    · exact ⟨position, there, same⟩
  · rintro ⟨position, there, same⟩
    refine ⟨position, ?_, same⟩
    rw [slotAt_set slots inside, if_neg]
    · exact there
    · intro place
      rw [← place, here] at there
      injection there with equal
      rw [equal, same] at other
      cases other

theorem not_holds_set (valid : Valid hashing keyOf slots)
    (here : slotAt slots index = .entry former)
    (same : hashing.equal (keyOf former) key = true) (found : Entry) :
    ¬Holds hashing keyOf (slots.set index .tombstone) key found := by
  rintro ⟨position, there, too⟩
  rw [slotAt_set slots (slotAt_inside here)] at there
  split at there
  · cases there
  · rename_i elsewhere
    exact elsewhere (valid.unique index position former found here there
      (hashing.trans same (hashing.symm too)))

/-! Empty tables and moving to another table -/

theorem slotAt_replicate (size index : Nat) :
    slotAt (List.replicate size (.null : Slot Entry)) index = .null := by
  rw [slotAt, getD_eq_getElem?_getD, getElem?_replicate]
  split
  · rfl
  · rfl

theorem valid_replicate (prime : size.Prime) (large : 3 ≤ size) :
    Valid hashing keyOf (List.replicate size .null) := by
  refine ⟨by rwa [length_replicate], by rwa [length_replicate], ?_, ?_⟩
  · intro index value here
    rw [slotAt_replicate] at here
    cases here
  · intro first second value other here
    rw [slotAt_replicate] at here
    cases here

theorem occupied_replicate (size : Nat) :
    occupied (List.replicate size (.null : Slot Entry)) = 0 := by
  rw [occupied, countP_replicate]
  rfl

/-- The entries are put into the other table one after the other, until the given number of
them is moved. The outer result is missing if a search does not end, the inner one if an entry
finds no slot. -/
def moveEntries (hashing : Hashing Key) (keyOf : Entry → Key) :
    List (Slot Entry) → Nat → List (Slot Entry) → Option (Option (List (Slot Entry)))
  | [], _, target => some (some target)
  | slot :: rest, remaining, target =>
    if remaining = 0 then some (some target)
    else
      match slot with
      | .entry value =>
        match findFree hashing keyOf target (keyOf value) with
        | some (some index) =>
          moveEntries hashing keyOf rest (remaining - 1) (target.set index (.entry value))
        | some none => some none
        | none => none
      | _ => moveEntries hashing keyOf rest remaining target

theorem moveEntries_zero (source target : List (Slot Entry)) :
    moveEntries hashing keyOf source 0 target = some (some target) := by
  cases source with
  | nil => rfl
  | cons slot rest => rfl

theorem moveEntries_cons_free (free : slot.isEntry = false) (rest : List (Slot Entry))
    (remaining : Nat) (target : List (Slot Entry)) :
    moveEntries hashing keyOf (slot :: rest) remaining target =
      moveEntries hashing keyOf rest remaining target := by
  by_cases nothing : remaining = 0
  · rw [nothing, moveEntries_zero, moveEntries_zero]
  · cases slot with
    | null => exact if_neg nothing
    | tombstone => exact if_neg nothing
    | entry value => cases free

def Distinct (hashing : Hashing Key) (keyOf : Entry → Key) (slots : List (Slot Entry)) : Prop :=
  slots.Pairwise fun first second => ∀ value other, first = .entry value → second = .entry other →
    hashing.equal (keyOf value) (keyOf other) = false

theorem Valid.distinct (valid : Valid hashing keyOf slots) : Distinct hashing keyOf slots := by
  rw [Distinct, pairwise_iff_getElem]
  intro first second inside too order value other here there
  by_contra equal
  rw [Bool.not_eq_false] at equal
  have same := valid.unique first second value other (by rw [slotAt_of_lt inside, here])
    (by rw [slotAt_of_lt too, there]) equal
  omega

def Lists (hashing : Hashing Key) (keyOf : Entry → Key) (slots : List (Slot Entry)) (key : Key)
    (value : Entry) : Prop :=
  .entry value ∈ slots ∧ hashing.equal (keyOf value) key = true

theorem lists_iff_holds (value : Entry) :
    Lists hashing keyOf slots key value ↔ Holds hashing keyOf slots key value := by
  constructor
  · rintro ⟨member, same⟩
    obtain ⟨index, inside, here⟩ := mem_iff_getElem.mp member
    exact ⟨index, by rw [slotAt_of_lt inside, here], same⟩
  · rintro ⟨index, here, same⟩
    have inside := slotAt_inside here
    rw [slotAt_of_lt inside] at here
    exact ⟨here ▸ getElem_mem inside, same⟩

theorem lists_cons_entry {found : Entry} : Lists hashing keyOf (.entry value :: rest) key found ↔
      (found = value ∧ hashing.equal (keyOf value) key = true) ∨
        Lists hashing keyOf rest key found := by
  constructor
  · rintro ⟨member, same⟩
    rcases mem_cons.mp member with here | there
    · injection here with equal
      subst equal
      exact .inl ⟨rfl, same⟩
    · exact .inr ⟨there, same⟩
  · rintro (⟨rfl, same⟩ | ⟨member, same⟩)
    · exact ⟨mem_cons_self, same⟩
    · exact ⟨mem_cons_of_mem _ member, same⟩

theorem lists_cons_free (free : slot.isEntry = false) {found : Entry} :
    Lists hashing keyOf (slot :: rest) key found ↔ Lists hashing keyOf rest key found := by
  constructor
  · rintro ⟨member, same⟩
    rcases mem_cons.mp member with here | there
    · rw [← here] at free
      cases free
    · exact ⟨there, same⟩
  · rintro ⟨member, same⟩
    exact ⟨mem_cons_of_mem _ member, same⟩

structure Moved (hashing : Hashing Key) (keyOf : Entry → Key)
    (source target result : List (Slot Entry)) : Prop where
  valid : Valid hashing keyOf result
  length : result.length = target.length
  count : occupied result = occupied target + occupied source
  holds : ∀ key found, Holds hashing keyOf result key found ↔
    Lists hashing keyOf source key found ∨ Holds hashing keyOf target key found

theorem Moved.nil (valid : Valid hashing keyOf slots) : Moved hashing keyOf [] slots slots := by
  refine ⟨valid, rfl, rfl, fun key found => ?_⟩
  simp [Lists]

theorem occupied_cons_free (free : slot.isEntry = false) (rest : List (Slot Entry)) :
    occupied (slot :: rest) = occupied rest := by
  rw [occupied, countP_cons_of_neg (by rw [free]; decide), occupied]

theorem occupied_cons_entry (value : Entry) (rest : List (Slot Entry)) :
    occupied (.entry value :: rest) = occupied rest + 1 := by
  rw [occupied, countP_cons_of_pos rfl, occupied]

theorem Moved.cons_free (free : slot.isEntry = false) {target result : List (Slot Entry)}
    (moved : Moved hashing keyOf rest target result) :
    Moved hashing keyOf (slot :: rest) target result := by
  refine ⟨moved.valid, moved.length, ?_, ?_⟩
  · rw [occupied_cons_free free]
    exact moved.count
  · intro key found
    rw [moved.holds, lists_cons_free free]

theorem Place.occupied (place : Place hashing slots key index) (value : Entry) :
    occupied (slots.set index (.entry value)) = occupied slots + 1 := by
  have counted := occupied_set place.inside (.entry value)
  rw [place.free] at counted
  simpa [Slot.isEntry] using counted

theorem Moved.cons_entry {target result : List (Slot Entry)}
    (place : Place hashing target (keyOf value) index)
    (moved : Moved hashing keyOf rest (target.set index (.entry value)) result) :
    Moved hashing keyOf (.entry value :: rest) target result := by
  refine ⟨moved.valid, moved.length.trans length_set, ?_, ?_⟩
  · rw [moved.count, place.occupied, occupied_cons_entry]
    omega
  · intro key found
    rw [moved.holds, holds_insert place.inside place.free, lists_cons_entry]
    tauto

theorem moveEntries_spec (source : List (Slot Entry)) (target : List (Slot Entry))
    (valid : Valid hashing keyOf target) (distinct : Distinct hashing keyOf source)
    (apart : ∀ value other, .entry value ∈ source →
      ¬Holds hashing keyOf target (keyOf value) other) :
    ∃ outcome, moveEntries hashing keyOf source (occupied source) target = some outcome ∧
      match outcome with
      | some result => Moved hashing keyOf source target result
      | none => target.length ≤ occupied target + occupied source := by
  induction source generalizing target with
  | nil => exact ⟨some target, rfl, .nil valid⟩
  | cons slot rest ih =>
    obtain ⟨first, others⟩ := pairwise_cons.mp distinct
    by_cases kind : slot.isEntry = true
    · cases slot with
      | null => cases kind
      | tombstone => cases kind
      | entry value =>
        rw [occupied_cons_entry, moveEntries, if_neg (Nat.succ_ne_zero _)]
        obtain ⟨place, search, outcome⟩ := findFree_spec valid (keyOf value)
        rw [search]
        cases place with
        | none =>
          refine ⟨none, rfl, ?_⟩
          rcases outcome with ⟨other, holds⟩ | full
          · exact absurd holds (apart value other mem_cons_self)
          · omega
        | some index =>
          obtain ⟨place, absent⟩ := outcome
          obtain ⟨outcome, moved, result⟩ :=
            ih (target.set index (.entry value)) (valid.insert place absent) others (by
              intro other found member held
              rcases (holds_insert place.inside place.free _ found).mp held with
                ⟨-, equal⟩ | before
              · have apartToo := first _ member value other rfl rfl
                rw [equal] at apartToo
                cases apartToo
              · exact apart other found (mem_cons_of_mem _ member) before)
          refine ⟨outcome, moved, ?_⟩
          cases outcome with
          | some table => exact result.cons_entry place
          | none =>
            rw [length_set, place.occupied] at result
            omega
    · rw [Bool.not_eq_true] at kind
      rw [occupied_cons_free kind, moveEntries_cons_free kind]
      obtain ⟨outcome, moved, result⟩ := ih target valid others
        (fun other found member => apart other found (mem_cons_of_mem _ member))
      refine ⟨outcome, moved, ?_⟩
      cases outcome with
      | some table => exact result.cons_free kind
      | none => exact result

theorem exists_absent (keys : Fin slots.length → Key)
    (different : ∀ first second, hashing.equal (keys first) (keys second) = true → first = second)
    (room : occupied slots < slots.length) :
    ∃ number, ∀ value, ¬Holds hashing keyOf slots (keys number) value := by
  by_contra none
  push Not at none
  choose value index here same using none
  let place (number : Fin slots.length) : Fin slots.length :=
    ⟨index number, slotAt_inside (here number)⟩
  have injective : Function.Injective place := by
    intro first second equal
    have there : slotAt slots (index first) = .entry (value second) := by
      rw [show index first = index second from congrArg Fin.val equal]
      exact here second
    rw [here first] at there
    injection there with values
    apply different
    have again := same second
    rw [← values] at again
    exact hashing.trans (hashing.symm (same first)) again
  have full : occupied slots = slots.length := by
    rw [occupied, countP_eq_length]
    intro slot member
    obtain ⟨position, inside, rfl⟩ := mem_iff_getElem.mp member
    obtain ⟨number, found⟩ := Finite.injective_iff_surjective.mp injective ⟨position, inside⟩
    have entry := here number
    rw [show index number = position from congrArg Fin.val found, slotAt_of_lt inside] at entry
    rw [entry]
    rfl
  omega

end Tables

end DoubleHashing
