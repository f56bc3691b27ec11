import Mathlib.Data.Set.Card
import Mathlib.Logic.Relation
import Mathlib.Order.CompletePartialOrder

/-!
Walks along the edges of a graph from a vertex that reaches finitely many vertices. A graph without
cycles there has no endless walk.
-/

namespace AcyclicReach

open Relation

variable {Vertex : Type*} {edge : Vertex → Vertex → Prop}

def Acyclic (edge : Vertex → Vertex → Prop) (top : Vertex) : Prop :=
  ∀ vertex, ReflTransGen edge top vertex → ¬TransGen edge vertex vertex

theorem Acyclic.next {top below : Vertex} (acyclic : Acyclic edge top) (step : edge top below) :
    Acyclic edge below :=
  fun vertex reached => acyclic vertex (.head step reached)

theorem Acyclic.shrinks {top below : Vertex} (acyclic : Acyclic edge top) (step : edge top below) :
    {vertex | ReflTransGen edge below vertex} ⊂ {vertex | ReflTransGen edge top vertex} := by
  constructor
  · intro vertex reached
    exact .head step reached
  · intro covers
    have back := covers .refl
    exact acyclic top .refl (.head' step back)

theorem Acyclic.acc {top : Vertex} (acyclic : Acyclic edge top)
    (finite : {vertex | ReflTransGen edge top vertex}.Finite) :
    Acc (fun below above => edge above below) top := by
  induction count : {vertex | ReflTransGen edge top vertex}.ncard using Nat.strong_induction_on
    generalizing top with
  | h count ih =>
    refine ⟨top, ?_⟩
    intro below step
    have shrinks := acyclic.shrinks step
    have fewer := Set.ncard_lt_ncard shrinks finite
    exact ih _ (count ▸ fewer) (acyclic.next step) (finite.subset shrinks.subset) rfl

def Endless (edge : Vertex → Vertex → Prop) (vertex : Vertex) : Prop :=
  ∃ turn, ReflTransGen edge vertex turn ∧ TransGen edge turn turn

theorem Endless.next {vertex : Vertex} (endless : Endless edge vertex) :
    ∃ below, edge vertex below ∧ Endless edge below := by
  obtain ⟨turn, reached, cycle⟩ := endless
  rcases ReflTransGen.cases_head reached with rfl | ⟨below, step, rest⟩
  · obtain ⟨below, step, back⟩ := TransGen.head'_iff.mp cycle
    exact ⟨below, step, vertex, back, cycle⟩
  · exact ⟨below, step, turn, rest, cycle⟩

theorem endless_iff {top : Vertex} : Endless edge top ↔ ¬Acyclic edge top := by
  rw [Acyclic, not_forall]
  constructor
  · rintro ⟨turn, reached, cycle⟩
    exact ⟨turn, fun free => free reached cycle⟩
  · rintro ⟨turn, cyclic⟩
    rw [Classical.not_imp, not_not] at cyclic
    exact ⟨turn, cyclic⟩

end AcyclicReach
