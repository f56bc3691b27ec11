import Mathlib.Data.Option.Basic

/-!
A fold whose steps may give nothing. What holds at the start and is kept by the steps holds at the
end, if there is one. What a step reaches for its item and later steps keep holds at the end for
all items.
-/

namespace OptionFold

variable {State Item : Type} {step : State → Item → Option State} {items : List Item}
  {first last : State}

theorem foldlM_cons_some {item : Item} (run : (item :: items).foldlM step first = some last) :
    ∃ middle, step first item = some middle ∧ items.foldlM step middle = some last := by
  rw [List.foldlM_cons] at run
  exact Option.bind_eq_some_iff.mp run

theorem foldlM_keeps (Holds : State → Prop) (start : Holds first)
    (keeps : ∀ item ∈ items, ∀ state next, Holds state → step state item = some next → Holds next)
    (run : items.foldlM step first = some last) : Holds last := by
  induction items generalizing first with
  | nil => exact Option.some.inj run ▸ start
  | cons item items ih =>
    obtain ⟨middle, stepped, rest⟩ := foldlM_cons_some run
    refine ih (keeps item List.mem_cons_self first middle start stepped) ?_ rest
    intro later member
    exact keeps later (List.mem_cons_of_mem item member)

theorem foldlM_reaches (Holds : State → Prop) (Done : Item → State → Prop) (start : Holds first)
    (keeps : ∀ item ∈ items, ∀ state next, Holds state → step state item = some next →
      Holds next ∧ Done item next ∧ ∀ other, Done other state → Done other next)
    (run : items.foldlM step first = some last) :
    Holds last ∧ (∀ item ∈ items, Done item last) ∧ ∀ other, Done other first → Done other last := by
  induction items generalizing first with
  | nil =>
    obtain rfl := Option.some.inj run
    exact ⟨start, nofun, fun _ done => done⟩
  | cons item items ih =>
    obtain ⟨middle, stepped, rest⟩ := foldlM_cons_some run
    obtain ⟨holds, here, before⟩ := keeps item List.mem_cons_self first middle start stepped
    obtain ⟨ends, later, after⟩ := ih holds
      (fun later member => keeps later (List.mem_cons_of_mem item member)) rest
    refine ⟨ends, ?_, fun other done => after other (before other done)⟩
    intro other member
    rcases List.mem_cons.mp member with rfl | behind
    · exact after other here
    · exact later other behind

theorem foldlM_exists (Holds : State → Prop) (start : Holds first)
    (steps : ∀ item ∈ items, ∀ state, Holds state → ∃ next, step state item = some next ∧
      Holds next) :
    ∃ last, items.foldlM step first = some last := by
  induction items generalizing first with
  | nil => exact ⟨first, rfl⟩
  | cons item items ih =>
    obtain ⟨middle, stepped, holds⟩ := steps item List.mem_cons_self first start
    obtain ⟨last, rest⟩ := ih holds fun later member =>
      steps later (List.mem_cons_of_mem item member)
    refine ⟨last, ?_⟩
    rw [List.foldlM_cons, stepped]
    exact rest

theorem foldlM_mono {more : State → Item → Option State}
    (covers : ∀ item state next, step state item = some next → more state item = some next)
    (run : items.foldlM step first = some last) : items.foldlM more first = some last := by
  induction items generalizing first with
  | nil => exact run
  | cons item items ih =>
    obtain ⟨middle, stepped, rest⟩ := foldlM_cons_some run
    rw [List.foldlM_cons, covers item first middle stepped]
    exact ih rest

end OptionFold
