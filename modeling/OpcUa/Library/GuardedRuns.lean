import Mathlib.Tactic.SplitIfs

/-!
Runs of a machine whose steps may be undefined, and in which each step is allowed in the state in
which it is made. A run can be tried event by event, and an invariant is shown step by step.
-/

namespace GuardedRuns

variable {State Event : Type} (step : State → Event → Option State)
  (Allowed : State → Event → Prop)

inductive Reached (start : State) : State → Prop
  | start : Reached start start
  | step {state after : State} {event : Event} (reached : Reached start state)
      (allowed : Allowed state event) (steps : step state event = some after) :
      Reached start after

def run [∀ state event, Decidable (Allowed state event)] (state : State) : List Event → Option State
  | [] => some state
  | event :: events =>
    if Allowed state event then (step state event).bind fun after => run after events
    else none

variable {step Allowed}

theorem Reached.run [∀ state event, Decidable (Allowed state event)] {start state after : State}
    {events : List Event} (reached : Reached step Allowed start state)
    (runs : run step Allowed state events = some after) : Reached step Allowed start after := by
  induction events generalizing state with
  | nil => exact Option.some.inj runs ▸ reached
  | cons event events ih =>
    rw [GuardedRuns.run] at runs
    split_ifs at runs with allowed
    obtain ⟨next, steps, rest⟩ := Option.bind_eq_some_iff.mp runs
    exact ih (reached.step allowed steps) rest

theorem Reached.invariant {Holds : State → Prop} {start state : State}
    (reached : Reached step Allowed start state) (starts : Holds start)
    (keeps : ∀ state event after, Holds state → Allowed state event →
      step state event = some after → Holds after) : Holds state := by
  induction reached with
  | start => exact starts
  | step _ allowed steps holds => exact keeps _ _ _ holds allowed steps

end GuardedRuns
