import Mathlib.Data.List.Nodup
import Mathlib.Order.WellFounded

/-!
The unfolding of a graph from a point: the point and then the unfolding of each of its successors,
in order. Nothing remembers what has been visited, so that the unfolding is finite only if every
way ends, and a point stands in it once for each route that leads to it.
-/

namespace OpcUa.Unfolding

open List

variable {α : Type} (next : α → List α)
variable {fuel : Nat} {a b : α} {points : List α}
variable {more children : List α} {route : List Nat} {first : α}

def unfolding : Nat → α → Option (List α)
  | 0, _ => none
  | fuel + 1, a => ((next a).mapM (unfolding fuel)).map fun parts => a :: parts.flatten

inductive Route : α → List Nat → α → Prop
  | here (a : α) : Route a [] a
  | step {a b c : α} {i : Nat} {route : List Nat} :
      (next a)[i]? = some b → Route b route c → Route a (i :: route) c

def Reaches (a b : α) : Prop := ∃ route, Route next a route b

variable {next}

theorem mapM_eq_some_imp {f g : α → Option (List α)} :
    ∀ {children : List α} {parts : List (List α)},
      (∀ child ∈ children, ∀ part, f child = some part → g child = some part) →
      children.mapM f = some parts → children.mapM g = some parts
  | [], _, _, maps => maps
  | child :: rest, parts, imp, maps => by
    simp only [mapM_cons, Option.bind_eq_bind, Option.bind_eq_some_iff] at maps ⊢
    obtain ⟨part, first, others, later, same⟩ := maps
    refine ⟨part, imp child (mem_cons_self ..) part first, others, ?_, same⟩
    exact mapM_eq_some_imp (fun other member => imp other (mem_cons_of_mem _ member)) later

theorem mapM_part {f : α → Option (List α)} :
    ∀ {children : List α} {parts : List (List α)}, children.mapM f = some parts →
      ∀ child ∈ children, ∃ part, f child = some part
  | [], _, _, _, member => nomatch member
  | first :: rest, parts, maps, child, member => by
    simp only [mapM_cons, Option.bind_eq_bind, Option.bind_eq_some_iff] at maps
    obtain ⟨part, head, others, later, -⟩ := maps
    rcases mem_cons.mp member with rfl | inside
    · exact ⟨part, head⟩
    · exact mapM_part later child inside

theorem mapM_of_parts {f : α → Option (List α)} :
    ∀ {children : List α}, (∀ child ∈ children, ∃ part, f child = some part) →
      ∃ parts, children.mapM f = some parts
  | [], _ => ⟨[], rfl⟩
  | first :: rest, each => by
    obtain ⟨part, head⟩ := each first (mem_cons_self ..)
    obtain ⟨parts, later⟩ :=
      mapM_of_parts fun child member => each child (mem_cons_of_mem _ member)
    refine ⟨part :: parts, ?_⟩
    simp only [mapM_cons, head, later, Option.bind_eq_bind, Option.bind_some]
    rfl

theorem unfolding_succ (unfolds : unfolding next fuel a = some points) :
    unfolding next (fuel + 1) a = some points := by
  induction fuel generalizing a points with
  | zero => cases unfolds
  | succ fuel ih =>
    obtain ⟨parts, maps, same⟩ := Option.map_eq_some_iff.mp unfolds
    exact Option.map_eq_some_iff.mpr ⟨parts, mapM_eq_some_imp (fun _ _ _ => ih) maps, same⟩

theorem unfolding_le {more : Nat} (unfolds : unfolding next fuel a = some points)
    (enough : fuel ≤ more) : unfolding next more a = some points := by
  induction enough with
  | refl => exact unfolds
  | step _ ih => exact unfolding_succ ih

theorem unfolding_unique {other : Nat} (first : unfolding next fuel a = some points)
    (second : unfolding next other a = some more) : points = more := by
  have left := unfolding_le first (Nat.le_max_left fuel other)
  rw [unfolding_le second (Nat.le_max_right fuel other)] at left
  injection left with same
  exact same.symm

theorem acc_of_unfolding (unfolds : unfolding next fuel a = some points) :
    Acc (fun b a => b ∈ next a) a := by
  induction fuel generalizing a points with
  | zero => cases unfolds
  | succ fuel ih =>
    obtain ⟨parts, maps, -⟩ := Option.map_eq_some_iff.mp unfolds
    constructor
    intro b member
    obtain ⟨part, below⟩ := mapM_part maps b member
    exact ih below

theorem common_fuel : ∀ {children : List α},
    (∀ child ∈ children, ∃ fuel points, unfolding next fuel child = some points) →
      ∃ fuel, ∀ child ∈ children, ∃ points, unfolding next fuel child = some points
  | [], _ => ⟨0, fun _ member => nomatch member⟩
  | first :: rest, each => by
    obtain ⟨fuel, points, unfolds⟩ := each first (mem_cons_self ..)
    obtain ⟨other, others⟩ :=
      common_fuel fun child member => each child (mem_cons_of_mem _ member)
    refine ⟨max fuel other, ?_⟩
    intro child member
    rcases mem_cons.mp member with rfl | inside
    · exact ⟨points, unfolding_le unfolds (Nat.le_max_left _ _)⟩
    · obtain ⟨later, found⟩ := others child inside
      exact ⟨later, unfolding_le found (Nat.le_max_right _ _)⟩

theorem unfolding_of_acc (ends : Acc (fun b a => b ∈ next a) a) :
    ∃ fuel points, unfolding next fuel a = some points := by
  induction ends with
  | intro a _ ih =>
    obtain ⟨fuel, each⟩ := common_fuel ih
    obtain ⟨parts, maps⟩ := mapM_of_parts each
    refine ⟨fuel + 1, a :: parts.flatten, ?_⟩
    rw [unfolding, maps]
    rfl

theorem Route.unique {c : α} (first : Route next a route b) (second : Route next a route c)
    : b = c := by
  induction first with
  | here a =>
    cases second
    rfl
  | step leads _ ih =>
    cases second with
    | step again rest =>
      rw [leads] at again
      injection again with same
      subst same
      exact ih rest

def Traced (points : List α) (leads : List Nat → α → Prop) : Prop :=
  ∃ trace : List (List Nat × α), trace.map Prod.snd = points ∧
    (trace.map Prod.fst).Nodup ∧ ∀ route b, (route, b) ∈ trace ↔ leads route b

variable (next) in
def Through (children : List α) (route : List Nat) (b : α) : Prop :=
  ∃ i rest child, route = i :: rest ∧ children[i]? = some child ∧ Route next child rest b

theorem through_cons : Through next (first :: children) route b ↔
      (∃ rest, route = 0 :: rest ∧ Route next first rest b) ∨
        ∃ i rest, route = (i + 1) :: rest ∧ Through next children (i :: rest) b := by
  constructor
  · rintro ⟨i, rest, child, same, place, leads⟩
    cases i with
    | zero =>
      injection place with here
      subst here
      exact .inl ⟨rest, same, leads⟩
    | succ i =>
      exact .inr ⟨i, rest, same, i, rest, child, rfl, place, leads⟩
  · rintro (⟨rest, same, leads⟩ | ⟨i, rest, same, j, other, child, form, place, leads⟩)
    · exact ⟨0, rest, first, same, rfl, leads⟩
    · cases form
      exact ⟨i + 1, rest, child, same, place, leads⟩

def shift : List Nat → List Nat
  | [] => []
  | i :: rest => (i + 1) :: rest

theorem shift_injective : Function.Injective shift := by
  intro first second same
  cases first with
  | nil =>
    cases second with
    | nil => rfl
    | cons j other => cases same
  | cons i rest =>
    cases second with
    | nil => cases same
    | cons j other =>
      injection same with number tail
      rw [Nat.succ.inj number, tail]

section

variable (change : List Nat → List Nat) (trace : List (List Nat × α))

theorem map_fst_map : (trace.map fun entry => (change entry.1, entry.2)).map Prod.fst =
      (trace.map Prod.fst).map change := by
  rw [map_map, map_map]
  rfl

theorem map_snd_map :
    (trace.map fun entry => (change entry.1, entry.2)).map Prod.snd = trace.map Prod.snd := by
  rw [map_map]
  rfl

end

theorem Traced.append (head : Traced points (Route next first))
    (tail : Traced more (Through next children)) :
    Traced (points ++ more) (Through next (first :: children)) := by
  obtain ⟨trace, same, nodup, leads⟩ := head
  obtain ⟨others, sameToo, nodupToo, leadsToo⟩ := tail
  refine ⟨(trace.map fun entry => (0 :: entry.1, entry.2)) ++
    others.map fun entry => (shift entry.1, entry.2), ?_, ?_, ?_⟩
  · rw [map_append, map_snd_map (0 :: ·), map_snd_map, same, sameToo]
  · rw [map_append, map_fst_map (0 :: ·), map_fst_map]
    refine List.Nodup.append (nodup.map (cons_injective)) (nodupToo.map shift_injective) ?_
    intro route left right
    obtain ⟨rest, -, rfl⟩ := mem_map.mp left
    obtain ⟨other, inside, shifted⟩ := mem_map.mp right
    cases other with
    | nil => cases shifted
    | cons j other =>
      injection shifted with number
      cases number
  · intro route b
    rw [mem_append, mem_map, mem_map, through_cons]
    constructor
    · rintro (⟨⟨rest, c⟩, member, form⟩ | ⟨⟨other, c⟩, member, form⟩)
      · cases form
        exact .inl ⟨rest, rfl, (leads rest c).mp member⟩
      · cases form
        have through := (leadsToo other c).mp member
        obtain ⟨i, rest, child, rfl, -⟩ := id through
        exact .inr ⟨i, rest, rfl, through⟩
    · rintro (⟨rest, rfl, route⟩ | ⟨i, rest, rfl, through⟩)
      · exact .inl ⟨(rest, b), (leads rest b).mpr route, rfl⟩
      · exact .inr ⟨(i :: rest, b), (leadsToo _ b).mpr through, rfl⟩

theorem mapM_traced {f : α → Option (List α)} : ∀ {children : List α} {parts : List (List α)},
      (∀ child ∈ children, ∀ part, f child = some part → Traced part (Route next child)) →
      children.mapM f = some parts → Traced parts.flatten (Through next children)
  | [], parts, _, maps => by
    cases maps
    refine ⟨[], rfl, nodup_nil, ?_⟩
    rintro route b
    constructor
    · intro member
      cases member
    · rintro ⟨i, rest, child, -, place, -⟩
      cases place
  | child :: rest, parts, each, maps => by
    simp only [mapM_cons, Option.bind_eq_bind, Option.bind_eq_some_iff] at maps
    obtain ⟨part, head, others, later, same⟩ := maps
    cases same
    refine Traced.append (each child (mem_cons_self ..) part head) ?_
    exact mapM_traced (fun other member => each other (mem_cons_of_mem _ member)) later

section

variable (unfolds : unfolding next fuel a = some points)
include unfolds

theorem unfolding_traced : Traced points (Route next a) := by
  induction fuel generalizing a points with
  | zero => cases unfolds
  | succ fuel ih =>
    obtain ⟨parts, maps, same⟩ := Option.map_eq_some_iff.mp unfolds
    have below := mapM_traced (fun child _ part unfolds => ih unfolds) maps
    obtain ⟨trace, flat, nodup, leads⟩ := below
    refine ⟨([], a) :: trace, ?_, ?_, ?_⟩
    · rw [map_cons, flat, same]
    · rw [map_cons, nodup_cons]
      refine ⟨?_, nodup⟩
      intro member
      obtain ⟨⟨route, b⟩, inside, form⟩ := mem_map.mp member
      obtain ⟨i, rest, child, begins, -⟩ := (leads route b).mp inside
      cases form.symm.trans begins
    · intro route b
      rw [mem_cons, leads]
      constructor
      · rintro (here | ⟨i, rest, child, rfl, place, route⟩)
        · cases here
          exact .here a
        · exact .step place route
      · intro route
        cases route with
        | here => exact .inl rfl
        | step place rest => exact .inr ⟨_, _, _, rfl, place, rest⟩

theorem mem_unfolding : b ∈ points ↔ Reaches next a b := by
  obtain ⟨trace, same, -, leads⟩ := unfolding_traced unfolds
  rw [← same, mem_map]
  constructor
  · rintro ⟨⟨route, c⟩, member, rfl⟩
    exact ⟨route, (leads route c).mp member⟩
  · rintro ⟨route, way⟩
    exact ⟨(route, b), (leads route b).mpr way, rfl⟩

theorem countP_eq_one_iff (kind : α → Bool) :
    points.countP kind = 1 ↔ ∃! route, ∃ b, Route next a route b ∧ kind b = true := by
  obtain ⟨trace, same, nodup, leads⟩ := unfolding_traced unfolds
  rw [← same, countP_map, countP_eq_length_filter, length_eq_one_iff]
  constructor
  · rintro ⟨⟨route, b⟩, only⟩
    have member : (route, b) ∈ trace.filter (kind ∘ Prod.snd) := by
      rw [only]
      exact mem_singleton_self _
    obtain ⟨inside, suits⟩ := mem_filter.mp member
    refine ⟨route, ⟨b, (leads route b).mp inside, suits⟩, ?_⟩
    rintro other ⟨c, way, fits⟩
    have too : (other, c) ∈ trace.filter (kind ∘ Prod.snd) :=
      mem_filter.mpr ⟨(leads other c).mpr way, fits⟩
    rw [only, mem_singleton] at too
    exact congrArg Prod.fst too
  · rintro ⟨route, ⟨b, way, suits⟩, unique⟩
    have member : (route, b) ∈ trace.filter (kind ∘ Prod.snd) :=
      mem_filter.mpr ⟨(leads route b).mpr way, suits⟩
    refine ⟨(route, b), ?_⟩
    have all : ∀ entry ∈ trace.filter (kind ∘ Prod.snd), entry = (route, b) := by
      rintro ⟨other, c⟩ inside
      obtain ⟨present, fits⟩ := mem_filter.mp inside
      have found := (leads other c).mp present
      have same := unique other ⟨c, found, fits⟩
      subst same
      rw [found.unique way]
    have distinct : (trace.filter (kind ∘ Prod.snd)).Nodup := nodup.of_map.filter _
    apply perm_singleton.mp
    rw [perm_ext_iff_of_nodup distinct (nodup_singleton _)]
    intro entry
    rw [mem_singleton]
    exact ⟨all entry, fun same => same ▸ member⟩

end

end OpcUa.Unfolding
