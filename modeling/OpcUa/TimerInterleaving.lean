import OpcUa.Timer

/-!
The calls of the timer in any order with the steps of `UA_Timer_process`. The entries that are due
are taken from the list when a round of processing starts, so a removal takes effect with the next
round.
-/

namespace OpcUa

open StubQueue List

variable {Callback : Type}

/-- Where the main loop is: outside of `UA_Timer_process`, or in front of what is left of
`executedNowList`. The new list is `upTo ++ following`, as in `dispatchLoop`. -/
inductive TimerStage (Callback : Type) where
  | outside
  | dispatching (now : Int) (executedNow upTo following : List (TimerCallbackEntry Callback))

/-- What happens, in the order of time: a request returns with the status good and its change in
the queue, a round has applied the waiting changes, a callback is called. -/
inductive TimerEvent (Callback : Type) where
  | enqueued (change : TimerChange Callback)
  | started
  | dispatched (entry : TimerCallbackEntry Callback)
deriving DecidableEq

namespace Timer

variable {next : Timer Callback} {now : Int} {upTo following : List (TimerCallbackEntry Callback)}

def startRound (now : Int) (callbacks : List (TimerCallbackEntry Callback)) :
    TimerStage Callback :=
  let executedNow := callbacks.takeWhile (·.nextTime ≤ now)
  if executedNow.isEmpty then .outside
  else .dispatching now executedNow [] (callbacks.dropWhile (·.nextTime ≤ now))

/-- The states that are reached from a first one, with all that happens on the way. A request is
made by a callback or by another thread, at any time. -/
inductive Interleaving (first : Timer Callback) (firstStage : TimerStage Callback) :
    Timer Callback → TimerStage Callback → List (TimerEvent Callback) → Prop
  | init : Interleaving first firstStage first firstStage []
  | request {timer : Timer Callback} {stage : TimerStage Callback}
      {events : List (TimerEvent Callback)} (request : TimerRequest Callback) :
      Interleaving first firstStage timer stage events →
      Interleaving first firstStage (timer.request request).2.2 stage
        (events ++ (timer.request request).2.1.toList.map .enqueued)
  | start {timer next : Timer Callback} {events : List (TimerEvent Callback)} (now : Int) :
      Interleaving first firstStage timer .outside events → timer.processChanges = some next →
      Interleaving first firstStage next (startRound now next.repeatedCallbacks)
        (events ++ [.started])
  | dispatch {timer : Timer Callback} {events : List (TimerEvent Callback)} {now : Int}
      {entry : TimerCallbackEntry Callback}
      {rest upTo following next later : List (TimerCallbackEntry Callback)} :
      Interleaving first firstStage timer (.dispatching now (entry :: rest) upTo following) events →
      insertDispatched now (reschedule now entry) upTo following = some (next, later) →
      Interleaving first firstStage timer (.dispatching now rest next later)
        (events ++ [.dispatched entry])
  | finish {timer next : Timer Callback} {events : List (TimerEvent Callback)} {now : Int}
      {upTo following : List (TimerCallbackEntry Callback)} :
      Interleaving first firstStage timer (.dispatching now [] upTo following) events →
      { timer with repeatedCallbacks := upTo ++ following }.processChanges = some next →
      Interleaving first firstStage next .outside events

def issued (events : List (TimerEvent Callback)) : List (TimerChange Callback) :=
  events.filterMap fun
    | .enqueued change => some change
    | _ => none

structure NeverAgain (events : List (TimerEvent Callback)) : Prop where
  removed : ∀ before after id, events = before ++ .enqueued (.remove id) :: after →
    id ∈ addedIds (issued before) → ∀ entry, .dispatched entry ∈ after → entry.id ≠ id
  registered : ∀ before after entry, events = before ++ .dispatched entry :: after →
    registered (issued before) entry.id ≠ none

/-- A callback that was removed is called no more in a round that starts afterwards. In a round
only what is registered when it starts is called, each callback once. -/
structure NotInLaterRounds (events : List (TimerEvent Callback)) : Prop where
  removed : ∀ before between later id,
    events = before ++ .enqueued (.remove id) :: between ++ .started :: later →
      id ∈ addedIds (issued before) → ∀ entry, .dispatched entry ∈ later → entry.id ≠ id
  registered : ∀ before after entry, events = before ++ .dispatched entry :: after →
    ∃ earlier round, before = earlier ++ .started :: round ∧ .started ∉ round ∧
      registered (issued earlier) entry.id = some (entry.callback, entry.interval) ∧
      ∀ other, .dispatched other ∈ round → other.id ≠ entry.id

def calledEntries (events : List (TimerEvent Callback)) : List (TimerCallbackEntry Callback) :=
  events.filterMap fun
    | .dispatched entry => some entry
    | _ => none

/-- A round that has started goes on with what is due in it, in this order and each entry once,
whatever is removed in the meantime: it ends with nothing left, and until then the next entry can
be called. -/
def FinishesRound (timer : Timer Callback) (now : Int)
    (executedNow upTo following : List (TimerCallbackEntry Callback)) : Prop :=
  ∀ later stage events,
    Interleaving timer (.dispatching now executedNow upTo following) later stage events →
    .started ∉ events → ∃ left, calledEntries events ++ left = executedNow ∧
      ((stage = .outside ∧ left = []) ∨ ∃ next after, stage = .dispatching now left next after ∧
        ∀ entry ∈ left.head?, (insertDispatched now (reschedule now entry) next after).isSome)

variable {timer : Timer Callback} {stage : TimerStage Callback}
  {events : List (TimerEvent Callback)}

theorem issued_append (first second : List (TimerEvent Callback)) :
    issued (first ++ second) = issued first ++ issued second :=
  filterMap_append

theorem issued_enqueued (changes : List (TimerChange Callback)) :
    issued (changes.map .enqueued) = changes := by
  induction changes with
  | nil => rfl
  | cons first rest ih => exact congrArg (first :: ·) ih

/-! The list in the course of a round -/

def listed (timer : Timer Callback) : TimerStage Callback → List (TimerCallbackEntry Callback)
  | .outside => timer.repeatedCallbacks
  | .dispatching _ executedNow upTo following => executedNow ++ (upTo ++ following)

def sorted (timer : Timer Callback) : TimerStage Callback → List (TimerCallbackEntry Callback)
  | .outside => timer.repeatedCallbacks
  | .dispatching _ _ upTo following => upTo ++ following

def InRound (events : List (TimerEvent Callback)) (applied : List (TimerChange Callback)) :
    TimerStage Callback → Prop
  | .outside => True
  | .dispatching _ executedNow _ _ =>
    ∃ earlier round, events = earlier ++ .started :: round ∧ .started ∉ round ∧
      applied = issued earlier ∧
      ∀ other, .dispatched other ∈ round → other.id ∉ executedNow.map TimerCallbackEntry.id

structure Progress (timer : Timer Callback) (stage : TimerStage Callback)
    (events : List (TimerEvent Callback)) (applied waiting : List (TimerChange Callback)) :
    Prop where
  changes : issued events = applied ++ waiting
  queued : Queued timer (applied ++ waiting) waiting
  scheduled : Scheduled (sorted timer stage)
  agrees : ∃ callbacks, Agrees callbacks applied ∧
    ((listed timer stage).map registration).Perm (callbacks.map registration)
  inRound : InRound events applied stage

variable {applied waiting : List (TimerChange Callback)}

theorem Progress.request (progress : Progress timer stage events applied waiting)
    (request : TimerRequest Callback) :
    Progress (timer.request request).2.2 stage
      (events ++ (timer.request request).2.1.toList.map .enqueued) applied
      (waiting ++ (timer.request request).2.1.toList) := by
  have requested := request_requested progress.queued request
  have lists : listed (timer.request request).2.2 stage = listed timer stage ∧
      sorted (timer.request request).2.2 stage = sorted timer stage := by
    cases stage with
    | outside => exact ⟨requested.callbacks, requested.callbacks⟩
    | dispatching now executedNow upTo following => exact ⟨rfl, rfl⟩
  refine ⟨?_, ?_, lists.2 ▸ progress.scheduled, lists.1 ▸ progress.agrees, ?_⟩
  · rw [issued_append, issued_enqueued, progress.changes, append_assoc]
  · rw [← append_assoc]
    exact requested.queued
  · cases stage with
    | outside => trivial
    | dispatching now executedNow upTo following =>
      obtain ⟨earlier, round, rfl, last, same, uncalled⟩ := progress.inRound
      refine ⟨earlier, round ++ (timer.request request).2.1.toList.map .enqueued,
        by rw [append_assoc, cons_append], ?_, same, ?_⟩
      · simp [last]
      · intro other called
        exact uncalled other (by simpa using called)

section

variable (progress : Progress timer .outside events applied waiting)
  (changed : timer.processChanges = some next)
include progress changed

theorem Progress.processChanges :
    Queued next (applied ++ waiting) [] ∧ Agrees next.repeatedCallbacks (applied ++ waiting) := by
  obtain ⟨result, same, callbacks, queued⟩ := processChanges_spec progress.queued
  rw [changed] at same
  injection same with same
  subst same
  obtain ⟨former, agrees, perm⟩ := progress.agrees
  have current : Agrees timer.repeatedCallbacks applied :=
    agrees_of_perm agrees progress.scheduled perm
  rw [callbacks]
  exact ⟨queued, current.applyAll waiting progress.queued.fresh⟩

theorem Progress.start (now : Int) :
    Progress next (startRound now next.repeatedCallbacks) (events ++ [.started])
      (applied ++ waiting) [] := by
  obtain ⟨queued, agrees⟩ := progress.processChanges changed
  have issues : issued (events ++ [TimerEvent.started]) = applied ++ waiting ++ [] := by
    rw [issued_append, progress.changes]
    rfl
  have whole : next.repeatedCallbacks.takeWhile (·.nextTime ≤ now) ++
      ([] ++ next.repeatedCallbacks.dropWhile (·.nextTime ≤ now)) = next.repeatedCallbacks := by
    rw [nil_append, takeWhile_append_dropWhile]
  rw [startRound]
  split
  · exact ⟨issues, by rwa [append_nil], agrees.scheduled, ⟨_, agrees, .refl _⟩, trivial⟩
  · refine ⟨issues, by rwa [append_nil], ?_, ⟨_, agrees, .of_eq (congrArg _ whole)⟩, ?_⟩
    · exact agrees.scheduled.sublist (dropWhile_sublist _)
    · refine ⟨events, [], rfl, not_mem_nil, progress.changes.symm, ?_⟩
      intro other called
      cases called

end

theorem Progress.finish
    (progress : Progress timer (.dispatching now [] upTo following) events applied waiting)
    (changed : { timer with repeatedCallbacks := upTo ++ following }.processChanges = some next) :
    Progress next .outside events (applied ++ waiting) [] := by
  have put : Progress { timer with repeatedCallbacks := upTo ++ following } .outside events applied
      waiting :=
    ⟨progress.changes, ⟨progress.queued.holds, progress.queued.fresh, progress.queued.bounded⟩,
      progress.scheduled, progress.agrees, trivial⟩
  obtain ⟨queued, agrees⟩ := put.processChanges changed
  exact ⟨by rw [progress.changes, append_nil], by rwa [append_nil], agrees.scheduled,
    ⟨_, agrees, .refl _⟩, trivial⟩

theorem Progress.dispatch {now : Int} {entry : TimerCallbackEntry Callback}
    {rest upTo following next later : List (TimerCallbackEntry Callback)}
    (progress : Progress timer (.dispatching now (entry :: rest) upTo following) events applied
      waiting)
    (placed : insertDispatched now (reschedule now entry) upTo following = some (next, later)) :
    Progress timer (.dispatching now rest next later) (events ++ [.dispatched entry]) applied
      waiting := by
  obtain ⟨next', later', before, after, same, whole, split, inserted⟩ :=
    insertDispatched_spec progress.scheduled (reschedule_ge now entry)
  rw [placed, Option.some.injEq, Prod.mk.injEq] at same
  obtain ⟨rfl, rfl⟩ := same
  obtain ⟨callbacks, agrees, perm⟩ := progress.agrees
  have moved : (rest ++ (next ++ later)).map registration |>.Perm
      ((entry :: rest ++ (upTo ++ following)).map registration) := by
    rw [split, ← whole]
    have front : (rest ++ (before ++ reschedule now entry :: after)).Perm
        (reschedule now entry :: (rest ++ (before ++ after))) := by
      rw [← append_assoc, ← append_assoc]
      exact perm_middle
    refine (front.map registration).trans (.of_eq ?_)
    rw [map_cons, registration_reschedule]
    rfl
  have unique : ((entry :: rest).map TimerCallbackEntry.id).Nodup := by
    have ids := perm.map Prod.fst
    rw [map_map, map_map] at ids
    have nodup := ids.nodup_iff.mpr agrees.nodup
    have front : ((entry :: rest ++ (upTo ++ following)).map TimerCallbackEntry.id).Nodup := nodup
    rw [map_append] at front
    exact (nodup_append.mp front).1
  rw [map_cons, nodup_cons] at unique
  refine ⟨?_, progress.queued, inserted, ⟨callbacks, agrees, moved.trans perm⟩, ?_⟩
  · rw [issued_append, progress.changes]
    exact append_nil _
  · obtain ⟨earlier, round, rfl, last, issues, uncalled⟩ := progress.inRound
    refine ⟨earlier, round ++ [.dispatched entry], by rw [append_assoc, cons_append],
      ?_, issues, ?_⟩
    · simp [last]
    · intro other called
      rcases mem_append.mp called with before | now
      · exact fun waits => uncalled other before (mem_cons_of_mem _ waits)
      · injection mem_singleton.mp now with same
        exact same ▸ unique.1

theorem Interleaving.progress (run : Interleaving .init .outside timer stage events) :
    ∃ applied waiting, Progress timer stage events applied waiting := by
  induction run with
  | init =>
    refine ⟨[], [], rfl, ⟨Holds.empty, nodup_nil, ?_⟩, .nil, ⟨[], .nil, .refl _⟩, trivial⟩
    intro id member
    cases member
  | request request _ ih =>
    obtain ⟨applied, waiting, progress⟩ := ih
    exact ⟨_, _, progress.request request⟩
  | start now _ changed ih =>
    obtain ⟨applied, waiting, progress⟩ := ih
    exact ⟨_, _, progress.start changed now⟩
  | dispatch _ placed ih =>
    obtain ⟨applied, waiting, progress⟩ := ih
    exact ⟨_, _, progress.dispatch placed⟩
  | finish _ changed ih =>
    obtain ⟨applied, waiting, progress⟩ := ih
    exact ⟨_, _, progress.finish changed⟩

theorem Interleaving.trans {first later : Timer Callback} {firstStage laterStage : TimerStage Callback}
    {more : List (TimerEvent Callback)} (run : Interleaving first firstStage timer stage events)
    (continues : Interleaving timer stage later laterStage more) :
    Interleaving first firstStage later laterStage (events ++ more) := by
  induction continues with
  | init => rwa [append_nil]
  | request request _ ih =>
    rw [← append_assoc]
    exact ih.request request
  | start now _ changed ih =>
    rw [← append_assoc]
    exact ih.start now changed
  | dispatch _ placed ih =>
    rw [← append_assoc]
    exact ih.dispatch placed
  | finish _ changed ih => exact ih.finish changed

theorem calledEntries_append (first second : List (TimerEvent Callback)) :
    calledEntries (first ++ second) = calledEntries first ++ calledEntries second :=
  filterMap_append

theorem calledEntries_enqueued (changes : List (TimerChange Callback)) :
    calledEntries (changes.map .enqueued) = [] := by
  induction changes with
  | nil => rfl
  | cons first rest ih => exact ih

theorem Interleaving.remaining {first later : Timer Callback}
    {executedNow : List (TimerCallbackEntry Callback)}
    (continues : Interleaving first (.dispatching now executedNow upTo following) later stage events)
    (same : .started ∉ events) : ∃ left, calledEntries events ++ left = executedNow ∧
      ((stage = .outside ∧ left = []) ∨ ∃ next after, stage = .dispatching now left next after) := by
  induction continues with
  | init => exact ⟨executedNow, rfl, Or.inr ⟨_, _, rfl⟩⟩
  | request request _ ih =>
    obtain ⟨left, whole, place⟩ := ih fun inside => same (mem_append_left _ inside)
    refine ⟨left, ?_, place⟩
    rw [calledEntries_append, calledEntries_enqueued, append_nil, whole]
  | start now _ changed ih => exact absurd (mem_append_right _ mem_cons_self) same
  | @dispatch timer events now' entry rest _ _ _ _ _ placed ih =>
    obtain ⟨left, whole, ⟨outside, -⟩ | ⟨_, _, place⟩⟩ :=
      ih fun inside => same (mem_append_left _ inside)
    · cases outside
    · injection place with sameTime sameLeft
      refine ⟨rest, ?_, Or.inr ⟨_, _, by rw [sameTime]⟩⟩
      rw [← whole, ← sameLeft, calledEntries_append, append_assoc]
      rfl
  | finish _ changed ih =>
    obtain ⟨left, whole, ⟨outside, -⟩ | ⟨_, _, place⟩⟩ := ih same
    · cases outside
    · injection place with _ sameLeft
      subst sameLeft
      exact ⟨[], whole, Or.inl ⟨rfl, rfl⟩⟩

theorem Interleaving.finishesRound {executedNow : List (TimerCallbackEntry Callback)}
    (run : Interleaving .init .outside timer (.dispatching now executedNow upTo following) events) :
    FinishesRound timer now executedNow upTo following := by
  intro later stage more continues same
  obtain ⟨left, whole, ended | ⟨next, after, rfl⟩⟩ := continues.remaining same
  · exact ⟨left, whole, Or.inl ended⟩
  · refine ⟨left, whole, Or.inr ⟨next, after, rfl, fun entry _ => ?_⟩⟩
    obtain ⟨applied, waiting, progress⟩ := (run.trans continues).progress
    obtain ⟨_, _, _, _, placed, -⟩ :=
      insertDispatched_spec progress.scheduled (reschedule_ge now entry)
    rw [placed]
    rfl

def CalledInRound (before : List (TimerEvent Callback)) (entry : TimerCallbackEntry Callback) :
    Prop :=
  ∃ earlier round, before = earlier ++ .started :: round ∧ .started ∉ round ∧
    registered (issued earlier) entry.id = some (entry.callback, entry.interval) ∧
    ∀ other, .dispatched other ∈ round → other.id ≠ entry.id

theorem Progress.called {entry : TimerCallbackEntry Callback}
    {rest : List (TimerCallbackEntry Callback)}
    (progress : Progress timer (.dispatching now (entry :: rest) upTo following) events applied
      waiting) : CalledInRound events entry := by
  obtain ⟨earlier, round, same, last, issues, uncalled⟩ := progress.inRound
  obtain ⟨callbacks, agrees, perm⟩ := progress.agrees
  refine ⟨earlier, round, same, last, ?_, ?_⟩
  · rw [← issues, ← agrees.entries, mem_registration, ← perm.mem_iff]
    exact mem_cons_self
  · intro other called equal
    exact uncalled other called (equal ▸ mem_cons_self)

theorem called_concat (known : ∀ before after entry, events = before ++ .dispatched entry :: after →
      CalledInRound before entry)
    {event : TimerEvent Callback}
    (last : ∀ entry, event = .dispatched entry → CalledInRound events entry)
    (before after : List (TimerEvent Callback)) (entry : TimerCallbackEntry Callback)
    (whole : events ++ [event] = before ++ .dispatched entry :: after) :
    CalledInRound before entry := by
  induction after using List.reverseRecOn with
  | nil =>
    obtain ⟨rfl, same⟩ := append_inj' whole rfl
    injection same with same
    exact last entry same
  | append_singleton after final _ =>
    rw [← cons_append, ← append_assoc] at whole
    obtain ⟨same, -⟩ := append_inj' whole rfl
    exact known before after entry same

theorem Interleaving.called (run : Interleaving .init .outside timer stage events) :
    ∀ before after entry, events = before ++ .dispatched entry :: after →
      CalledInRound before entry := by
  induction run with
  | init =>
    intro before after entry whole
    exact absurd whole (by simp)
  | @request timer stage events request _ ih =>
    cases (timer.request request).2.1 with
    | none =>
      rw [Option.toList_none, map_nil, append_nil]
      exact ih
    | some change =>
      refine called_concat ih ?_
      intro entry same
      cases same
  | start now _ _ ih =>
    refine called_concat ih ?_
    intro entry same
    cases same
  | @dispatch timer events now entry rest upTo following next later run placed ih =>
    refine called_concat ih ?_
    intro other same
    injection same with same
    subst same
    obtain ⟨applied, waiting, progress⟩ := run.progress
    exact progress.called
  | finish _ _ ih => exact ih

theorem registered_removed {first rest : List (TimerChange Callback)} {id : Nat}
    (added : id ∈ addedIds first) (fresh : (addedIds (first ++ .remove id :: rest)).Nodup) :
    registered (first ++ .remove id :: rest) id = none := by
  induction rest using List.reverseRecOn with
  | nil =>
    rw [registered_append, effect, if_pos rfl]
  | append_singleton rest change ih =>
    rw [← cons_append, ← append_assoc] at fresh ⊢
    rw [addedIds_append] at fresh
    have gone := ih (nodup_append.mp fresh).1
    rw [registered_append, gone]
    cases change with
    | add entry =>
      rw [effect, if_neg]
      rintro rfl
      refine (nodup_append.mp fresh).2.2 entry.id ?_ entry.id mem_cons_self rfl
      rw [addedIds_append]
      exact mem_append_left _ added
    | changeInterval other interval nextTime =>
      rw [effect]
      split <;> rfl
    | remove other =>
      rw [effect]
      split <;> rfl

/-- In whatever order the calls come, no round dispatches a callback that was removed before the
round started, and it dispatches what is registered at its start, each callback once. A round that
has started dispatches what is due in it, also what is removed before its turn has come. -/
theorem removed_notInLaterRounds (run : Interleaving .init .outside timer stage events) :
    NotInLaterRounds events ∧ ∀ now executedNow upTo following,
      stage = .dispatching now executedNow upTo following →
        FinishesRound timer now executedNow upTo following := by
  refine ⟨⟨?_, run.called⟩, ?_⟩
  case refine_2 =>
    rintro now executedNow upTo following rfl
    exact run.finishesRound
  intro before between later id whole added entry called same
  obtain ⟨front, back, rfl⟩ := append_of_mem called
  have position : events = before ++ .enqueued (.remove id) :: between ++ .started :: front ++
      .dispatched entry :: back := by
    rw [whole, append_assoc _ (_ :: front)]
    rfl
  obtain ⟨earlier, round, split, last, holds, -⟩ := run.called _ _ _ position
  -- the round started at the given event or later
  have reaches : ∃ between', earlier = before ++ .enqueued (.remove id) :: between' := by
    rcases append_eq_append_iff.mp split with ⟨more, longer, -⟩ | ⟨more, shorter, tail⟩
    · exact ⟨between ++ more, by rw [longer, append_assoc, cons_append]⟩
    · cases more with
      | nil => exact ⟨between, by rw [shorter, append_nil]⟩
      | cons first rest =>
        injection tail with _ inside
        exact absurd (inside ▸ mem_append_right rest mem_cons_self) last
  obtain ⟨between', rfl⟩ := reaches
  obtain ⟨applied, waiting, progress⟩ := run.progress
  have issues : issued (before ++ .enqueued (.remove id) :: between') =
      issued before ++ .remove id :: issued between' := issued_append _ _
  have fresh := progress.queued.fresh
  rw [← progress.changes, position, split, append_assoc, issued_append, addedIds_append,
    issues] at fresh
  have gone := registered_removed added (nodup_append.mp fresh).1
  rw [issues, same, gone] at holds
  cases holds

/-! Calls of `UA_Timer_process` -/

section

variable {first : Timer Callback} {firstStage : TimerStage Callback}
  {behave : TimerCallbackEntry Callback → List (TimerRequest Callback)}

theorem Interleaving.requestAll (run : Interleaving first firstStage timer stage events)
    (requests : List (TimerRequest Callback)) :
    Interleaving first firstStage (timer.requestAll requests).2 stage
      (events ++ (timer.requestAll requests).1.map .enqueued) := by
  induction requests generalizing timer events with
  | nil =>
    rw [Timer.requestAll, map_nil, append_nil]
    exact run
  | cons request rest ih =>
    have next := ih (run.request request)
    rw [append_assoc, ← map_append] at next
    exact next

/-- The loop calls the callbacks one after the other, each with its requests. -/
theorem Interleaving.dispatchLoop {entries upTo following : List (TimerCallbackEntry Callback)}
    {dispatched : Dispatched Callback}
    (run : Interleaving first firstStage timer (.dispatching now entries upTo following) events)
    (loops : Timer.dispatchLoop now behave entries timer upTo following = some dispatched) :
    ∃ round next later, dispatched.callbacks = next ++ later ∧
      Interleaving first firstStage dispatched.timer (.dispatching now [] next later)
        (events ++ round) ∧
      issued round = dispatched.changes ∧ calledEntries round = dispatched.entries := by
  induction entries generalizing timer events upTo following dispatched with
  | nil =>
    injection loops with same
    subst same
    exact ⟨[], upTo, following, rfl, by rwa [append_nil], rfl, rfl⟩
  | cons entry rest ih =>
    rw [dispatchLoop_cons, Option.bind_eq_some_iff] at loops
    obtain ⟨⟨next, later⟩, placed, loops⟩ := loops
    obtain ⟨others, continues, rfl⟩ := Option.map_eq_some_iff.mp loops
    obtain ⟨round, last, final, callbacks, reached, issues, calls⟩ :=
      ih ((run.dispatch placed).requestAll (behave entry)) continues
    refine ⟨.dispatched entry :: ((timer.requestAll (behave entry)).1.map .enqueued ++ round),
      last, final, callbacks, ?_, ?_, ?_⟩
    · rw [append_assoc, append_assoc] at reached
      exact reached
    · change issued (_ ++ round) = _
      rw [issued_append, issued_enqueued, issues]
    · change entry :: calledEntries (_ ++ round) = _
      rw [calledEntries_append, calledEntries_enqueued, calls]
      rfl

/-- A call of `UA_Timer_process` is one round, with the requests of its callbacks. -/
theorem Interleaving.process {processed : Processed Callback}
    (run : Interleaving first firstStage timer .outside events)
    (processes : timer.process now behave = some processed) :
    ∃ round, Interleaving first firstStage processed.timer .outside (events ++ .started :: round) ∧
      issued round = processed.changes ∧ calledEntries round = processed.entries := by
  rw [Timer.process] at processes
  cases changed : timer.processChanges with
  | none =>
    rw [changed] at processes
    cases processes
  | some current =>
    have started := run.start now changed
    rw [changed] at processes
    rw [startRound] at started
    dsimp only at processes
    by_cases nothing : (current.repeatedCallbacks.takeWhile (·.nextTime ≤ now)).isEmpty = true
    · rw [if_pos nothing] at processes started
      injection processes with same
      subst same
      exact ⟨[], started, rfl, rfl⟩
    · rw [if_neg nothing] at processes started
      cases loops : Timer.dispatchLoop now behave
          (current.repeatedCallbacks.takeWhile (·.nextTime ≤ now)) current []
          (current.repeatedCallbacks.dropWhile (·.nextTime ≤ now)) with
      | none =>
        rw [loops] at processes
        cases processes
      | some dispatched =>
        obtain ⟨round, next, later, callbacks, reached, issues, calls⟩ :=
          started.dispatchLoop loops
        rw [loops] at processes
        dsimp only at processes
        rw [callbacks] at processes
        cases again : { dispatched.timer with
            repeatedCallbacks := next ++ later }.processChanges with
        | none =>
          rw [again] at processes
          cases processes
        | some last =>
          rw [again] at processes
          injection processes with same
          subst same
          rw [append_assoc] at reached
          exact ⟨round, reached.finish again, issues, calls⟩

end

/-- The runs of whole calls are among the interleavings. -/
theorem Run.interleaving {changes : List (TimerChange Callback)} (run : Run timer changes) :
    ∃ events, Interleaving .init .outside timer .outside events ∧ issued events = changes := by
  induction run with
  | init => exact ⟨[], .init, rfl⟩
  | request request _ ih =>
    obtain ⟨events, reached, rfl⟩ := ih
    exact ⟨_, reached.request request, by rw [issued_append, issued_enqueued]⟩
  | process _ processes ih =>
    obtain ⟨events, reached, rfl⟩ := ih
    obtain ⟨round, final, issues, -⟩ := reached.process processes
    refine ⟨_, final, ?_⟩
    rw [issued_append, ← issues]
    rfl

def pairTimer : Timer Nat :=
  ((init.request (.add (some 10) 5 0 true)).2.2.request (.add (some 20) 5 0 true)).2.2

def firstEntry : TimerCallbackEntry Nat := ⟨50000, 50000, 1, 10⟩

def secondEntry : TimerCallbackEntry Nat := ⟨50000, 50000, 2, 20⟩

def pairRound : List (TimerEvent Nat) :=
  [.enqueued (.add firstEntry), .enqueued (.add secondEntry), .started]

def startedTimer : Timer Nat := pairTimer.processChanges.getD init

theorem startedTimer_interleaving :
    Interleaving .init .outside startedTimer (.dispatching 60000 [secondEntry, firstEntry] [] []) pairRound := by
  have changed : pairTimer.processChanges = some startedTimer := by
    have ends : pairTimer.processChanges.isSome = true := by decide +kernel
    obtain ⟨next, same⟩ := Option.isSome_iff_exists.mp ends
    rw [startedTimer, same, Option.getD_some]
  have lists : startedTimer.repeatedCallbacks = [secondEntry, firstEntry] := by decide +kernel
  have started : Interleaving .init .outside startedTimer (startRound 60000 startedTimer.repeatedCallbacks)
      pairRound :=
    .start 60000 (.request (.add (some 20) 5 0 true) (.request (.add (some 10) 5 0 true) .init))
      changed
  rw [lists] at started
  exact started

theorem secondCallback_interleaving :
    Interleaving .init .outside startedTimer (.dispatching 60000 [firstEntry] [reschedule 60000 secondEntry] [])
      (pairRound ++ [.dispatched secondEntry]) :=
  startedTimer_interleaving.dispatch (by decide +kernel)

theorem secondCallback_notInLaterRounds :
    NotInLaterRounds (pairRound ++ [.dispatched secondEntry]) ∧
      FinishesRound startedTimer 60000 [firstEntry] [reschedule 60000 secondEntry] [] := by
  have run := removed_notInLaterRounds secondCallback_interleaving
  exact ⟨run.1, run.2 _ _ _ _ rfl⟩

def removingRound : List (TimerEvent Nat) :=
  pairRound ++ [.dispatched secondEntry] ++ [.enqueued (.remove 1)] ++ [.dispatched firstEntry]

theorem removed_called :
    (∃ timer stage, Interleaving .init .outside timer stage removingRound) ∧ ¬NeverAgain removingRound := by
  constructor
  · have placed : insertDispatched 60000 (reschedule 60000 firstEntry)
        [reschedule 60000 secondEntry] [] =
          some ([reschedule 60000 secondEntry], [reschedule 60000 firstEntry]) := by
      decide +kernel
    exact ⟨_, _, (secondCallback_interleaving.request (.remove 1 true)).dispatch placed⟩
  · intro never
    exact never.removed (pairRound ++ [.dispatched secondEntry]) [.dispatched firstEntry] 1 rfl
      (by decide +kernel) firstEntry mem_cons_self rfl

end Timer

end OpcUa
