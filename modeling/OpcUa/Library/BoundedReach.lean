import Mathlib.Data.List.Chain
import Mathlib.Data.Nat.Find
import Mathlib.Logic.Relation

/-!
Reachability in a bounded number of steps. The target lies within a number of steps if a way that
is not longer leads to it.
-/

namespace BoundedReach

variable {Vertex : Type}

def Within (step : Vertex → Vertex → Prop) : Nat → Vertex → Vertex → Prop
  | 0, vertex, target => vertex = target
  | bound + 1, vertex, target =>
    vertex = target ∨ ∃ next, step vertex next ∧ Within step bound next target

variable {step : Vertex → Vertex → Prop} {vertex target : Vertex} {bound : Nat}

theorem Within.refl (step : Vertex → Vertex → Prop) (bound : Nat) (vertex : Vertex) :
    Within step bound vertex vertex := by
  cases bound with
  | zero => exact rfl
  | succ bound => exact .inl rfl

theorem Within.mono {larger : Vertex → Vertex → Prop}
    (covers : ∀ source next, step source next → larger source next)
    (near : Within step bound vertex target) : Within larger bound vertex target := by
  induction bound generalizing vertex with
  | zero => exact near
  | succ bound ih =>
    rcases near with here | ⟨next, taken, rest⟩
    · exact .inl here
    · exact .inr ⟨next, covers vertex next taken, ih rest⟩

theorem Within.snoc {last : Vertex} (near : Within step bound vertex target)
    (taken : step target last) : Within step (bound + 1) vertex last := by
  induction bound generalizing vertex with
  | zero =>
    have here : vertex = target := near
    exact .inr ⟨last, here ▸ taken, rfl⟩
  | succ bound ih =>
    rcases near with rfl | ⟨next, first, rest⟩
    · exact .inr ⟨last, taken, .inl rfl⟩
    · exact .inr ⟨next, first, ih rest⟩

theorem Within.last (near : Within step (bound + 1) vertex target) :
    vertex = target ∨ ∃ source, Within step bound vertex source ∧ step source target := by
  rcases near with here | ⟨next, taken, rest⟩
  · exact .inl here
  · refine .inr ?_
    induction bound generalizing vertex next with
    | zero =>
      have same : next = target := rest
      exact ⟨vertex, rfl, same ▸ taken⟩
    | succ bound ih =>
      rcases rest with rfl | ⟨second, also, rest⟩
      · exact ⟨vertex, .refl step _ vertex, taken⟩
      · obtain ⟨source, before, final⟩ := ih second also rest
        exact ⟨source, .inr ⟨next, taken, before⟩, final⟩

theorem exists_within (reached : Relation.ReflTransGen step vertex target) :
    ∃ bound, Within step bound vertex target := by
  induction reached with
  | refl => exact ⟨0, rfl⟩
  | tail _ taken ih =>
    obtain ⟨bound, near⟩ := ih
    exact ⟨bound + 1, near.snoc taken⟩

theorem Within.reaches (near : Within step bound vertex target) :
    Relation.ReflTransGen step vertex target := by
  induction bound generalizing vertex with
  | zero =>
    have here : vertex = target := near
    rw [here]
  | succ bound ih =>
    rcases near with rfl | ⟨next, taken, rest⟩
    · exact .refl
    · exact .head taken (ih rest)

theorem within_iff_path : Within step bound vertex target ↔
    ∃ rest : List Vertex, rest.length ≤ bound ∧ (vertex :: rest).IsChain step ∧
      (vertex :: rest).getLast? = some target := by
  induction bound generalizing vertex with
  | zero =>
    constructor
    · rintro rfl
      exact ⟨[], Nat.le_refl 0, .singleton vertex, rfl⟩
    · rintro ⟨rest, short, -, last⟩
      obtain rfl := List.length_eq_zero_iff.mp (Nat.le_zero.mp short)
      exact Option.some.inj last
  | succ bound ih =>
    constructor
    · rintro (rfl | ⟨next, taken, near⟩)
      · exact ⟨[], Nat.zero_le _, .singleton vertex, rfl⟩
      · obtain ⟨rest, short, chain, last⟩ := ih.mp near
        refine ⟨next :: rest, ?_, .cons_cons taken chain, ?_⟩
        · rw [List.length_cons]
          omega
        · rw [List.getLast?_cons_cons]
          exact last
    · rintro ⟨rest, short, chain, last⟩
      cases rest with
      | nil => exact .inl (Option.some.inj last)
      | cons next rest =>
        obtain ⟨taken, chain⟩ := List.isChain_cons_cons.mp chain
        rw [List.getLast?_cons_cons] at last
        rw [List.length_cons] at short
        exact .inr ⟨next, taken, ih.mpr ⟨rest, by omega, chain, last⟩⟩

theorem step_of_mem_dropLast {way : List Vertex} (chain : way.IsChain step)
    (member : vertex ∈ way.dropLast) : ∃ next, step vertex next := by
  induction way with
  | nil => cases member
  | cons first rest ih =>
    cases rest with
    | nil => cases member
    | cons second rest =>
      obtain ⟨taken, chain⟩ := List.isChain_cons_cons.mp chain
      rw [List.dropLast_cons_cons] at member
      rcases List.mem_cons.mp member with rfl | behind
      · exact ⟨second, taken⟩
      · exact ih chain behind

theorem Within.exists_least (near : Within step bound vertex target) :
    ∃ least ≤ bound, Within step least vertex target ∧
      ∀ fewer < least, ¬Within step fewer vertex target := by
  classical
  have reached : ∃ number, Within step number vertex target := ⟨bound, near⟩
  refine ⟨Nat.find reached, Nat.find_min' reached near, Nat.find_spec reached, ?_⟩
  intro fewer below
  exact Nat.find_min reached below

end BoundedReach
