import Mathlib.Data.List.Basic

/-!
Cutting a stream into frames. What is not yet a whole frame is kept and put in front of what
comes next, so it does not matter how the stream is cut into packets.
-/

namespace Framing

open List

/-- What can be said of the front of the stream: more is needed, it is refused, or there is a
frame of this length. -/
inductive Cut (Error : Type) where
  | wait
  | refuse (error : Error)
  | frame (length : Nat)

/-- Once something can be said of the front of the stream, more input does not change it. -/
structure Framer (State Item Error : Type) where
  cut : State → List Item → Cut Error
  process : State → List Item → Option Error × State
  cut_frame : ∀ state items length, cut state items = .frame length →
    0 < length ∧ length ≤ items.length
  cut_refuse : ∀ state items more error, cut state items = .refuse error →
    cut state (items ++ more) = .refuse error
  cut_append : ∀ state items more length, cut state items = .frame length →
    cut state (items ++ more) = .frame length

structure Outcome (State Item Error : Type) where
  error : Option Error
  state : State
  rest : List Item
  frames : List (List Item)

variable {State Item Error : Type}

def Outcome.after (outcome : Outcome State Item Error) (earlier : List (List Item)) :
    Outcome State Item Error :=
  { outcome with frames := earlier ++ outcome.frames }

def drain (framer : Framer State Item Error) (state : State) (items : List Item) :
    Outcome State Item Error :=
  match _found : framer.cut state items with
  | .wait => ⟨none, state, items, []⟩
  | .refuse error => ⟨some error, state, [], []⟩
  | .frame length =>
    match framer.process state (items.take length) with
    | (some error, state) => ⟨some error, state, [], [items.take length]⟩
    | (none, state) => (drain framer state (items.drop length)).after [items.take length]
termination_by items.length
decreasing_by
  have bounds := framer.cut_frame _ _ _ _found
  rw [length_drop]
  omega

def Outcome.continueWith (framer : Framer State Item Error) (outcome : Outcome State Item Error)
    (more : List Item) : Outcome State Item Error :=
  match outcome.error with
  | some _ => outcome
  | none => (drain framer outcome.state (outcome.rest ++ more)).after outcome.frames

def feed (framer : Framer State Item Error) (outcome : Outcome State Item Error) :
    List (List Item) → Outcome State Item Error
  | [] => outcome
  | packet :: packets => feed framer (outcome.continueWith framer packet) packets

variable (framer : Framer State Item Error)

section

variable (outcome : Outcome State Item Error)

@[simp] theorem Outcome.after_after (first second : List (List Item)) :
    (outcome.after second).after first = outcome.after (first ++ second) := by
  simp only [Outcome.after, append_assoc]

theorem Outcome.after_continueWith (earlier : List (List Item)) (more : List Item) :
    (outcome.after earlier).continueWith framer more =
      (outcome.continueWith framer more).after earlier := by
  obtain ⟨error, state, rest, frames⟩ := outcome
  cases error with
  | some error => rfl
  | none => exact (Outcome.after_after _ earlier frames).symm

end

variable {items : List Item}

variable {state : State}

theorem drain_wait (wait : framer.cut state items = .wait) :
    drain framer state items = ⟨none, state, items, []⟩ := by
  rw [drain]
  split
  · rfl
  · rename_i found
    rw [wait] at found
    cases found
  · rename_i found
    rw [wait] at found
    cases found

theorem drain_refuse {error : Error} (refuse : framer.cut state items = .refuse error) :
    drain framer state items = ⟨some error, state, [], []⟩ := by
  rw [drain]
  split
  · rename_i found
    rw [refuse] at found
    cases found
  · rename_i found
    rw [refuse] at found
    cases found
    rfl
  · rename_i found
    rw [refuse] at found
    cases found

theorem drain_frame {length : Nat} (frame : framer.cut state items = .frame length) :
    drain framer state items =
      match framer.process state (items.take length) with
      | (some error, state) => ⟨some error, state, [], [items.take length]⟩
      | (none, state) => (drain framer state (items.drop length)).after [items.take length] := by
  rw [drain]
  split
  · rename_i found
    rw [frame] at found
    cases found
  · rename_i found
    rw [frame] at found
    cases found
  · rename_i found
    rw [frame] at found
    cases found
    rfl

theorem drain_append (state : State) (items more : List Item) :
    drain framer state (items ++ more) = (drain framer state items).continueWith framer more := by
  induction state, items using drain.induct framer with
  | case1 state items wait =>
    rw [drain_wait framer wait]
    rfl
  | case2 state items error refuse =>
    rw [drain_refuse framer refuse, drain_refuse framer (framer.cut_refuse _ _ more _ refuse)]
    rfl
  | case3 state items length frame error after processed =>
    have bounds := framer.cut_frame _ _ _ frame
    rw [drain_frame framer frame, drain_frame framer (framer.cut_append _ _ more _ frame),
      take_append_of_le_length bounds.2, processed]
    rfl
  | case4 state items length frame after processed ih =>
    have bounds := framer.cut_frame _ _ _ frame
    rw [drain_frame framer frame, drain_frame framer (framer.cut_append _ _ more _ frame),
      take_append_of_le_length bounds.2, drop_append_of_le_length bounds.2, processed]
    simp only [ih, Outcome.after_continueWith]

theorem continueWith_append (outcome : Outcome State Item Error) (items more : List Item) :
    outcome.continueWith framer (items ++ more) =
      (outcome.continueWith framer items).continueWith framer more := by
  obtain ⟨error, state, rest, frames⟩ := outcome
  cases error with
  | some error => rfl
  | none =>
    change (drain framer state (rest ++ (items ++ more))).after frames =
      ((drain framer state (rest ++ items)).after frames).continueWith framer more
    rw [← append_assoc, drain_append, Outcome.after_continueWith]

theorem feed_cons (outcome : Outcome State Item Error) (packet : List Item)
    (packets : List (List Item)) :
    feed framer (outcome.continueWith framer packet) packets =
      outcome.continueWith framer (packet ++ packets.flatten) := by
  induction packets generalizing packet with
  | nil => rw [feed, flatten_nil, append_nil]
  | cons next packets ih =>
    rw [feed, ← continueWith_append, ih, flatten_cons, append_assoc]

theorem drain_frames (state : State) (items : List Item) :
    ((drain framer state items).error = none →
      (drain framer state items).frames.flatten ++ (drain framer state items).rest = items) ∧
    (drain framer state items).frames.flatten <+: items := by
  induction state, items using drain.induct framer with
  | case1 state items wait =>
    rw [drain_wait framer wait]
    exact ⟨fun _ => rfl, nil_prefix⟩
  | case2 state items error refuse =>
    rw [drain_refuse framer refuse]
    refine ⟨fun none => ?_, nil_prefix⟩
    cases none
  | case3 state items length frame error after processed =>
    rw [drain_frame framer frame, processed]
    refine ⟨fun none => ?_, ?_⟩
    · cases none
    · rw [flatten_singleton]
      exact take_prefix length items
  | case4 state items length frame after processed ih =>
    rw [drain_frame framer frame, processed]
    have whole := take_append_drop length items
    constructor
    · intro none
      have kept := ih.1 none
      change (items.take length :: (drain framer after (items.drop length)).frames).flatten ++
        (drain framer after (items.drop length)).rest = items
      rw [flatten_cons, append_assoc, kept, whole]
    · change (items.take length :: (drain framer after (items.drop length)).frames).flatten <+:
        items
      rw [flatten_cons]
      have longer := (prefix_append_right_inj (items.take length)).mpr ih.2
      rwa [whole] at longer

end Framing
