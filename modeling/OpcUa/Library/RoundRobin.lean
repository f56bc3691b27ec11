import Mathlib.Data.List.Nodup
import Mathlib.Data.List.TakeDrop
import Mathlib.Data.List.Infix

/-!
A line in which everybody has a turn, beginning behind the one who had the last turn, and in which
others join at the front. Who waits is served before anybody has two turns.
-/

namespace RoundRobin

open List

variable {Key : Type}
variable {first second key : Key} {line : List Key}

variable {earlier later front back : List Key}

theorem pair_later (absent : first ∉ earlier)
    (pair : [first, second].Sublist (earlier ++ key :: later)) :
    first = key ∨ [first, second].Sublist later := by
  induction earlier with
  | nil =>
    rcases cons_sublist_cons'.mp pair with behind | ⟨same, -⟩
    · exact .inr behind
    · exact .inl same
  | cons other earlier ih =>
    obtain ⟨distinct, absent⟩ : first ≠ other ∧ first ∉ earlier := by simpa using absent
    rcases cons_sublist_cons'.mp pair with behind | ⟨same, -⟩
    · exact ih absent behind
    · exact absurd same distinct

variable [DecidableEq Key]

def order (last : Option Key) (line : List Key) : List Key :=
  match last with
  | none => line
  | some key =>
    (line.dropWhile (· ≠ key)).tail ++
      (line.takeWhile (· ≠ key) ++ if key ∈ line then [key] else [])

def next (waiting : Key → Bool) (last : Option Key) (line : List Key) : Option Key :=
  (order last line).find? waiting

def Ahead (first second : Key) (last : Option Key) (line : List Key) : Prop :=
  [first, second].Sublist (order last line)

theorem order_split (absent : key ∉ front) :
    order (some key) (front ++ key :: back) = back ++ (front ++ [key]) := by
  have passes : ∀ other ∈ front, decide (other ≠ key) = true := by
    intro other member
    simpa using fun same : other = key => absent (same ▸ member)
  rw [order, dropWhile_append_of_pos passes, takeWhile_append_of_pos passes]
  simp

theorem order_absent (absent : key ∉ line) : order (some key) line = line := by
  have passes : ∀ other ∈ line, decide (other ≠ key) = true := by
    intro other member
    simpa using fun same : other = key => absent (same ▸ member)
  have drops : (line ++ []).dropWhile _ = [].dropWhile _ := dropWhile_append_of_pos passes
  have takes : (line ++ []).takeWhile _ = line ++ [].takeWhile _ :=
    takeWhile_append_of_pos passes
  rw [append_nil] at drops takes
  rw [order, drops, takes, if_neg absent]
  simp

theorem next_some (waiting : Key → Bool) (key : Key) (line : List Key) :
    next waiting (some key) line =
      ((line.dropWhile (· ≠ key)).tail.find? waiting).or (line.find? waiting) := by
  by_cases member : key ∈ line
  · obtain ⟨front, back, rfl, absent⟩ := eq_append_cons_of_mem member
    have passes : ∀ other ∈ front, decide (other ≠ key) = true := by
      intro other member
      simpa using fun same : other = key => absent (same ▸ member)
    have behind : ((front ++ key :: back).dropWhile (· ≠ key)).tail = back := by
      rw [dropWhile_append_of_pos passes]
      simp
    rw [next, order_split absent, behind, find?_append, find?_append, find?_append]
    cases found : back.find? waiting with
    | some other => rfl
    | none => rw [find?_cons, find?_cons, found, find?_nil]
  · have passes : ∀ other ∈ line, decide (other ≠ key) = true := by
      intro other present
      simpa using fun same : other = key => member (same ▸ present)
    have behind : (line ++ []).dropWhile (· ≠ key) = [].dropWhile (· ≠ key) :=
      dropWhile_append_of_pos passes
    rw [append_nil] at behind
    rw [next, order_absent member, behind]
    rfl

theorem order_perm (last : Option Key) (line : List Key) : (order last line).Perm line := by
  cases last with
  | none => exact .refl _
  | some key =>
    by_cases member : key ∈ line
    · obtain ⟨front, back, rfl, absent⟩ := eq_append_cons_of_mem member
      rw [order_split absent]
      calc back ++ (front ++ [key])
        _ |>.Perm (back ++ (key :: front)) := (perm_append_singleton key front).append_left _
        _ |>.Perm (key :: (back ++ front)) := perm_middle
        _ |>.Perm (key :: (front ++ back)) := (perm_append_comm).cons key
        _ |>.Perm (front ++ key :: back) := perm_middle.symm
    · rw [order_absent member]

theorem order_nodup (last : Option Key) (distinct : line.Nodup) :
    (order last line).Nodup := (order_perm last line).nodup_iff.mpr distinct

theorem ahead_last (member : first ∈ line) (other : second ∈ line) (distinct : first ≠ second) :
    Ahead first second (some second) line := by
  obtain ⟨front, back, rfl, absent⟩ := eq_append_cons_of_mem other
  rw [Ahead, order_split absent, ← append_assoc]
  have before : first ∈ back ++ front := by
    rcases mem_append.mp member with inFront | behind
    · exact mem_append_right _ inFront
    · exact mem_append_left _ ((mem_cons.mp behind).resolve_left distinct)
  exact (singleton_sublist.mpr before).append (List.Sublist.refl [second])

variable {last : Option Key}

theorem Ahead.joins (ahead : Ahead first second last line) (fresh : last ≠ some key)
    : Ahead first second last (key :: line) := by
  refine List.Sublist.trans ahead ?_
  cases last with
  | none => exact sublist_cons_self key line
  | some served =>
    have other : served ≠ key := fun same => fresh (congrArg some same)
    by_cases member : served ∈ line
    · obtain ⟨front, back, rfl, absent⟩ := eq_append_cons_of_mem member
      have absent2 : served ∉ key :: front := by
        simpa using ⟨other, absent⟩
      rw [order_split absent, ← cons_append, order_split absent2]
      exact (List.Sublist.refl back).append (sublist_cons_self key (front ++ [served]))
    · have absent : served ∉ key :: line := by
        simpa using ⟨other, member⟩
      rw [order_absent member, order_absent absent]
      exact sublist_cons_self key line

theorem order_nodup_split (distinct : (front ++ key :: back).Nodup) :
    order (some key) (front ++ key :: back) = back ++ (front ++ [key]) :=
  order_split fun member =>
    (nodup_append.mp distinct).2.2 key member key (mem_cons_self ..) rfl

theorem order_served (distinct : line.Nodup) (split : order last line = earlier ++ key :: later) :
    order (some key) line = later ++ (earlier ++ [key]) := by
  cases last with
  | none =>
    subst split
    exact order_nodup_split distinct
  | some served =>
    by_cases member : served ∈ line
    · obtain ⟨front, back, rfl, absent⟩ := eq_append_cons_of_mem member
      rw [order_split absent] at split
      rcases append_eq_append_iff.mp split with ⟨middle, rfl, inFront⟩ | ⟨middle, rfl, behind⟩
      · rcases eq_nil_or_concat later with rfl | ⟨rest, last, rfl⟩
        · obtain ⟨rfl, ends⟩ := append_inj' inFront rfl
          obtain rfl : served = key := by simpa using ends
          rw [order_split absent, nil_append, append_assoc]
        · have same : front ++ [served] = (middle ++ key :: rest) ++ [last] := by
            rw [inFront]
            simp
          obtain ⟨rfl, ends⟩ := append_inj' same rfl
          obtain rfl : served = last := by simpa using ends
          rw [append_assoc, cons_append] at distinct ⊢
          rw [order_nodup_split distinct]
          simp
      · cases middle with
        | nil =>
          rw [append_nil] at distinct ⊢
          cases front with
          | nil =>
            obtain ⟨rfl, rfl⟩ := List.cons.inj behind
            rw [order_split absent]
            simp
          | cons first front =>
            obtain ⟨rfl, rfl⟩ := List.cons.inj behind
            rw [cons_append] at distinct ⊢
            have turned : order (some key) ([] ++ key :: (front ++ served :: earlier)) =
                front ++ served :: earlier ++ ([] ++ [key]) := order_nodup_split distinct
            rw [nil_append, nil_append] at turned
            rw [turned]
            simp
        | cons first middle =>
          obtain ⟨rfl, rfl⟩ := List.cons.inj behind
          have same : front ++ served :: (earlier ++ key :: middle) =
              (front ++ served :: earlier) ++ key :: middle := by simp
          rw [same] at distinct ⊢
          rw [order_nodup_split distinct]
          simp
    · rw [order_absent member] at split
      subst split
      exact order_nodup_split distinct

section Turns

variable {last : Option Key} {waiting : Key → Bool}

theorem Ahead.distinct (distinct : line.Nodup) (ahead : Ahead first second last line) :
    first ≠ second := by
  have pair := ahead.nodup (order_nodup last distinct)
  simpa using pair

theorem Ahead.split (ahead : Ahead first second last line) (waits : waiting first = true)
    (served : next waiting last line = some key) :
    ∃ earlier later, order last line = earlier ++ key :: later ∧
      (first = key ∨ [first, second].Sublist later) := by
  obtain ⟨-, earlier, later, split, none⟩ := find?_eq_some_iff_append.mp served
  have absent : first ∉ earlier := by
    intro member
    simpa [waits] using none first member
  rw [Ahead, split] at ahead
  exact ⟨earlier, later, split, pair_later absent ahead⟩

section

variable (distinct : line.Nodup) (ahead : Ahead first second last line)
  (waits : waiting first = true) (served : next waiting last line = some key)
include distinct ahead waits served

theorem Ahead.turn : first = key ∨ Ahead first second (some key) line := by
  obtain ⟨earlier, later, split, same | behind⟩ := ahead.split waits served
  · exact .inl same
  · rw [Ahead, order_served distinct split]
    exact .inr (behind.trans (sublist_append_left _ _))

theorem Ahead.ne_next : key ≠ second := by
  obtain ⟨earlier, later, split, same | behind⟩ := ahead.split waits served
  · exact same ▸ ahead.distinct distinct
  · have unique := order_nodup last distinct
    rw [split] at unique
    have absent : key ∉ later := (nodup_cons.mp (nodup_append.mp unique).2.1).1
    rintro rfl
    exact absent (behind.subset (by simp))

end

theorem next_mem (served : next waiting last line = some key) : key ∈ line :=
  (order_perm last line).mem_iff.mp (mem_of_find?_eq_some served)

theorem exists_next (member : first ∈ line) (waits : waiting first = true) :
    ∃ key, next waiting last line = some key := by
  apply Option.isSome_iff_exists.mp
  rw [next, find?_isSome]
  exact ⟨first, (order_perm last line).mem_iff.mpr member, waits⟩

end Turns

end RoundRobin
