import OpcUa.Library.SwapRemove
import Mathlib.Data.List.Nodup
import Mathlib.Data.List.Perm.Basic

/-!
A set of pairs, stored as groups of the pairs with the same first member. There is one group for
a key, no group is empty, and no group has a target twice. The order is of no account.
-/

namespace GroupedSet

open SwapRemove
open scoped List

variable {Group Key Target : Type} {key : Group → Key} {targets : Group → List Target}
  {groups : List Group} {group new : Group} {index : Nat} {target : Target}

def pairs (key : Group → Key) (targets : Group → List Target) (groups : List Group) :
    List (Key × Target) := groups.flatMap fun group => (targets group).map (Prod.mk (key group))

structure WellFormed (key : Group → Key) (targets : Group → List Target) (groups : List Group) :
    Prop where
  keys : (groups.map key).Nodup
  filled : ∀ group ∈ groups, targets group ≠ []
  distinct : ∀ group ∈ groups, (targets group).Nodup

theorem WellFormed.nil : WellFormed key targets [] := ⟨List.nodup_nil, nofun, nofun⟩

theorem mem_pairs {pair : Key × Target} : pair ∈ pairs key targets groups ↔
      ∃ group ∈ groups, key group = pair.1 ∧ pair.2 ∈ targets group := by
  rw [pairs, List.mem_flatMap]
  constructor
  · rintro ⟨group, member, inside⟩
    obtain ⟨target, stored, same⟩ := List.mem_map.mp inside
    subst same
    exact ⟨group, member, rfl, stored⟩
  · rintro ⟨group, member, same, stored⟩
    exact ⟨group, member, List.mem_map.mpr ⟨pair.2, stored, by rw [same]⟩⟩

theorem WellFormed.same (known : WellFormed key targets groups) (member : group ∈ groups)
    (other : new ∈ groups) (equal : key group = key new) : group = new :=
  List.inj_on_of_nodup_map known.keys member other equal

theorem WellFormed.nodup (known : WellFormed key targets groups) :
    (pairs key targets groups).Nodup := by
  rw [pairs, List.nodup_flatMap]
  constructor
  · intro group member
    exact (known.distinct group member).map fun _ _ same => (Prod.mk.inj same).2
  · have apart := List.pairwise_map.mp known.keys
    refine apart.imp fun {first second} different => ?_
    intro pair inFirst inSecond
    obtain ⟨_, _, same⟩ := List.mem_map.mp inFirst
    obtain ⟨_, _, equal⟩ := List.mem_map.mp inSecond
    exact different (congrArg Prod.fst (same.trans equal.symm))

section Changes

variable (key targets)

section

variable (found : groups[index]? = some group)
include found

theorem pairs_set (new : Group) :
    (targets group).map (Prod.mk (key group)) ++ pairs key targets (groups.set index new) ~
      (targets new).map (Prod.mk (key new)) ++ pairs key targets groups := by
  have exchanged := (cons_set_perm found new).flatMap_right
    fun group => (targets group).map (Prod.mk (key group))
  exact exchanged

theorem pairs_grown (same : key new = key group) (grows : targets new ~ target :: targets group) :
    pairs key targets (groups.set index new) ~ (key group, target) :: pairs key targets groups := by
  have exchanged := pairs_set key targets found new
  rw [same] at exchanged
  refine (List.perm_append_left_iff ((targets group).map (Prod.mk (key group)))).mp
    (exchanged.trans ?_)
  exact ((grows.map _).append_right _).trans List.perm_middle.symm

theorem pairs_shrunk (same : key new = key group) (shrinks : target :: targets new ~ targets group)
    :
    (key group, target) :: pairs key targets (groups.set index new) ~
      pairs key targets groups := by
  have exchanged := pairs_set key targets found new
  rw [same] at exchanged
  refine (List.perm_append_left_iff ((targets new).map (Prod.mk (key group)))).mp
    (List.Perm.trans ?_ exchanged)
  exact List.perm_middle.trans ((shrinks.map (Prod.mk (key group))).append_right _)

theorem pairs_removed (single : targets group = [target]) :
    (key group, target) :: pairs key targets (swapRemove groups index) ~
      pairs key targets groups := by
  have exchanged := (swapRemove_perm found).flatMap_right
    fun group => (targets group).map (Prod.mk (key group))
  rw [List.flatMap_cons, single] at exchanged
  exact exchanged

end

theorem pairs_appended (groups : List Group) (single : targets new = [target]) :
    pairs key targets (groups ++ [new]) ~ (key new, target) :: pairs key targets groups := by
  rw [pairs, List.flatMap_append, List.flatMap_singleton, single]
  exact List.perm_append_singleton _ _

end Changes

section WellFormed

section

variable (known : WellFormed key targets groups)
include known

theorem WellFormed.set (found : groups[index]? = some group) (same : key new = key group)
    (filled : targets new ≠ []) (distinct : (targets new).Nodup) :
    WellFormed key targets (groups.set index new) := by
  have keys : (groups.set index new).map key = groups.map key := by
    obtain ⟨inside, here⟩ := List.getElem?_eq_some_iff.mp found
    have bound : index < (groups.map key).length := by rwa [List.length_map]
    have stored : (groups.map key)[index] = key group := by rw [List.getElem_map, here]
    rw [List.map_set, same, ← stored, List.set_getElem_self]
  refine ⟨keys ▸ known.keys, ?_, ?_⟩
  · intro other member
    rcases List.mem_or_eq_of_mem_set member with before | changed
    · exact known.filled other before
    · exact changed ▸ filled
  · intro other member
    rcases List.mem_or_eq_of_mem_set member with before | changed
    · exact known.distinct other before
    · exact changed ▸ distinct

theorem WellFormed.removed (found : groups[index]? = some group) :
    WellFormed key targets (swapRemove groups index) := by
  have moved := swapRemove_perm found
  have inside {other : Group} (member : other ∈ swapRemove groups index) : other ∈ groups :=
    moved.subset (List.mem_cons_of_mem _ member)
  refine ⟨?_, fun other member => known.filled other (inside member),
    fun other member => known.distinct other (inside member)⟩
  have keys := (moved.map key).nodup_iff.mpr known.keys
  rw [List.map_cons, List.nodup_cons] at keys
  exact keys.2

theorem WellFormed.appended (fresh : ∀ group ∈ groups, key group ≠ key new)
    (single : targets new = [target]) : WellFormed key targets (groups ++ [new]) := by
  have cases {other : Group} (member : other ∈ groups ++ [new]) : other ∈ groups ∨ other = new := by
    simpa using member
  refine ⟨?_, ?_, ?_⟩
  · rw [List.map_append, List.map_singleton, List.nodup_append]
    refine ⟨known.keys, List.nodup_singleton _, ?_⟩
    intro first inside second last
    obtain ⟨group, member, rfl⟩ := List.mem_map.mp inside
    rw [List.mem_singleton.mp last]
    exact fresh group member
  · intro other member
    rcases cases member with before | added
    · exact known.filled other before
    · rw [added, single]
      exact List.cons_ne_nil _ _
  · intro other member
    rcases cases member with before | added
    · exact known.distinct other before
    · rw [added, single]
      exact List.nodup_singleton _

end

end WellFormed

end GroupedSet
