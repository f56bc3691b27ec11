import OpcUa.TimerCore
import Mathlib.Data.List.Induction
import Mathlib.Data.List.TakeWhile

/-!
Runs of the timer. The list of callbacks is sorted, no id is in it twice, and it has exactly the
callbacks that are registered by the changes so far, in the order in which they were requested.
Processing dispatches the entries that are due and puts them back for a later time.
-/

namespace OpcUa

open StubQueue List

variable {Callback : Type}
variable {callbacks : List (TimerCallbackEntry Callback)}

def Scheduled (callbacks : List (TimerCallbackEntry Callback)) : Prop :=
  callbacks.Pairwise fun first second => first.nextTime ≤ second.nextTime

theorem Scheduled.insert {before after : List (TimerCallbackEntry Callback)}
    (scheduled : Scheduled (before ++ after)) {tc : TimerCallbackEntry Callback}
    (below : ∀ entry ∈ before, entry.nextTime ≤ tc.nextTime)
    (above : ∀ entry ∈ after, tc.nextTime ≤ entry.nextTime) :
    Scheduled (before ++ tc :: after) := by
  obtain ⟨first, second, between⟩ := pairwise_append.mp scheduled
  apply pairwise_append.mpr
  refine ⟨first, pairwise_cons.mpr ⟨above, second⟩, ?_⟩
  intro entry member other later
  rcases mem_cons.mp later with rfl | later
  · exact below entry member
  · exact between entry member other later

theorem Scheduled.takeWhile_le (scheduled : Scheduled callbacks) (now : Int) :
    callbacks.takeWhile (·.nextTime ≤ now) = callbacks.filter (·.nextTime ≤ now) ∧
      callbacks.dropWhile (·.nextTime ≤ now) = callbacks.filter (now < ·.nextTime) := by
  induction callbacks with
  | nil => exact ⟨rfl, rfl⟩
  | cons first rest ih =>
    obtain ⟨least, others⟩ := pairwise_cons.mp scheduled
    by_cases due : first.nextTime ≤ now
    · rw [takeWhile_cons_of_pos (by simpa using due), dropWhile_cons_of_pos (by simpa using due),
        filter_cons_of_pos (by simpa using due),
        filter_cons_of_neg (by simpa using due)]
      exact ⟨congrArg _ (ih others).1, (ih others).2⟩
    · have late : ∀ entry ∈ first :: rest, now < entry.nextTime := by
        intro entry member
        rcases mem_cons.mp member with rfl | later
        · omega
        · have order := least entry later
          omega
      rw [takeWhile_cons_of_neg (by simpa using due),
        dropWhile_cons_of_neg (by simpa using due), eq_comm, filter_eq_nil_iff,
        eq_comm, filter_eq_self]
      constructor
      · intro entry member
        have order := late entry member
        simpa using order
      · intro entry member
        simpa using late entry member

theorem Scheduled.dropWhile_lt (scheduled : Scheduled callbacks) (time : Int) :
    ∀ entry ∈ callbacks.dropWhile (·.nextTime < time), time ≤ entry.nextTime := by
  induction callbacks with
  | nil =>
    intro entry member
    cases member
  | cons first rest ih =>
    obtain ⟨least, others⟩ := pairwise_cons.mp scheduled
    intro entry member
    by_cases before : first.nextTime < time
    · rw [dropWhile_cons_of_pos (by simpa using before)] at member
      exact ih others entry member
    · rw [dropWhile_cons_of_neg (by simpa using before)] at member
      rcases mem_cons.mp member with rfl | later
      · omega
      · have order := least entry later
        omega

theorem addTimerCallbackEntry_perm (tc : TimerCallbackEntry Callback)
    (callbacks : List (TimerCallbackEntry Callback)) :
    ∃ time, (addTimerCallbackEntry tc callbacks).Perm ({ tc with nextTime := time } :: callbacks) := by
  induction callbacks generalizing tc with
  | nil => exact ⟨tc.nextTime, .refl _⟩
  | cons first rest ih =>
    rw [addTimerCallbackEntry]
    split
    · exact ⟨tc.nextTime, .refl _⟩
    · split
      · obtain ⟨time, same⟩ := ih { tc with nextTime := first.nextTime }
        exact ⟨time, (same.cons first).trans (.swap _ _ _)⟩
      · obtain ⟨time, same⟩ := ih tc
        exact ⟨time, (same.cons first).trans (.swap _ _ _)⟩

theorem addTimerCallbackEntry_above {bound : Int} (tc : TimerCallbackEntry Callback)
    (callbacks : List (TimerCallbackEntry Callback)) (later : bound ≤ tc.nextTime)
    (above : ∀ entry ∈ callbacks, bound ≤ entry.nextTime) :
    ∀ entry ∈ addTimerCallbackEntry tc callbacks, bound ≤ entry.nextTime := by
  induction callbacks generalizing tc with
  | nil =>
    intro entry member
    rw [mem_singleton.mp member]
    exact later
  | cons first rest ih =>
    obtain ⟨least, others⟩ := forall_mem_cons.mp above
    rw [addTimerCallbackEntry]
    split
    · exact forall_mem_cons.mpr ⟨later, above⟩
    · split
      · exact forall_mem_cons.mpr ⟨least, ih { tc with nextTime := first.nextTime } least others⟩
      · exact forall_mem_cons.mpr ⟨least, ih tc later others⟩

theorem addTimerCallbackEntry_scheduled (tc : TimerCallbackEntry Callback)
    (scheduled : Scheduled callbacks) : Scheduled (addTimerCallbackEntry tc callbacks) := by
  induction callbacks generalizing tc with
  | nil => exact pairwise_singleton _ _
  | cons first rest ih =>
    obtain ⟨least, others⟩ := pairwise_cons.mp scheduled
    rw [addTimerCallbackEntry]
    split
    · rename_i before
      refine pairwise_cons.mpr ⟨?_, scheduled⟩
      intro entry member
      rcases mem_cons.mp member with rfl | later
      · exact before
      · exact le_trans before (least entry later)
    · rename_i before
      split
      · apply pairwise_cons.mpr
        refine ⟨?_, ih { tc with nextTime := first.nextTime } others⟩
        exact addTimerCallbackEntry_above _ rest le_rfl least
      · apply pairwise_cons.mpr
        refine ⟨?_, ih tc others⟩
        exact addTimerCallbackEntry_above tc rest (by omega) least

def effect (id : Nat) (current : Option (Callback × Nat)) :
    TimerChange Callback → Option (Callback × Nat)
  | .add entry => if entry.id = id then some (entry.callback, entry.interval) else current
  | .changeInterval other interval _ =>
    if other = id then current.map fun pair => (pair.1, interval) else current
  | .remove other => if other = id then none else current

section

variable (changes : List (TimerChange Callback))

def registered (id : Nat) : Option (Callback × Nat) :=
  changes.foldl (effect id) none

def addedIds : List Nat :=
  changes.filterMap fun
    | .add entry => some entry.id
    | _ => none

theorem registered_append (change : TimerChange Callback) (id : Nat) :
    registered (changes ++ [change]) id = effect id (registered changes id) change := by
  rw [registered, foldl_append]
  rfl

end

theorem addedIds_append (first second : List (TimerChange Callback)) :
    addedIds (first ++ second) = addedIds first ++ addedIds second :=
  filterMap_append

theorem mem_addedIds_of_registered {changes : List (TimerChange Callback)} {id : Nat}
    {value : Callback × Nat} (found : registered changes id = some value) :
    id ∈ addedIds changes := by
  induction changes using List.reverseRecOn generalizing value with
  | nil => cases found
  | append_singleton changes change ih =>
    rw [registered_append] at found
    rw [addedIds_append]
    cases change with
    | add entry =>
      rw [effect] at found
      split at found
      · rename_i same
        subst same
        exact mem_append_right _ mem_cons_self
      · exact mem_append_left _ (ih found)
    | changeInterval other interval nextTime =>
      rw [effect] at found
      split at found
      · obtain ⟨former, before, -⟩ := Option.map_eq_some_iff.mp found
        exact mem_append_left _ (ih before)
      · exact mem_append_left _ (ih found)
    | remove other =>
      rw [effect] at found
      split at found
      · cases found
      · exact mem_append_left _ (ih found)

structure Agrees (callbacks : List (TimerCallbackEntry Callback))
    (applied : List (TimerChange Callback)) : Prop where
  scheduled : Scheduled callbacks
  nodup : (callbacks.map TimerCallbackEntry.id).Nodup
  entries : ∀ id callback interval,
    (∃ entry ∈ callbacks, entry.id = id ∧ entry.callback = callback ∧ entry.interval = interval) ↔
      registered applied id = some (callback, interval)

theorem eraseP_eq_filter (nodup : (callbacks.map TimerCallbackEntry.id).Nodup) (id : Nat) :
    callbacks.eraseP (·.id = id) = callbacks.filter (·.id ≠ id) := by
  induction callbacks with
  | nil => rfl
  | cons first rest ih =>
    obtain ⟨alone, others⟩ := nodup_cons.mp nodup
    by_cases same : first.id = id
    · rw [eraseP_cons_of_pos (by simpa using same),
        filter_cons_of_neg (by simpa using same), eq_comm, filter_eq_self]
      intro entry member
      have different : entry.id ≠ id := by
        rintro rfl
        exact alone (same ▸ mem_map_of_mem member)
      simpa using different
    · rw [eraseP_cons_of_neg (by simpa using same),
        filter_cons_of_pos (by simpa using same), ih others]

section Agrees

variable {applied : List (TimerChange Callback)}
variable {tc : TimerCallbackEntry Callback}

theorem Agrees.nil : Agrees ([] : List (TimerCallbackEntry Callback)) [] := by
  refine ⟨List.Pairwise.nil, nodup_nil, ?_⟩
  intro id callback interval
  constructor
  · rintro ⟨entry, member, -⟩
    cases member
  · intro found
    cases found

section

variable (agrees : Agrees callbacks applied)
include agrees

theorem Agrees.mem_erased (id : Nat) (entry : TimerCallbackEntry Callback) :
    entry ∈ callbacks.eraseP (·.id = id) ↔ entry ∈ callbacks ∧ entry.id ≠ id := by
  rw [eraseP_eq_filter agrees.nodup, mem_filter, decide_eq_true_eq]

theorem Agrees.added {part : List (TimerCallbackEntry Callback)} (sublist : part.Sublist callbacks)
    (absent : ∀ entry ∈ part, entry.id ≠ tc.id) :
    Scheduled (addTimerCallbackEntry tc part) ∧
      ((addTimerCallbackEntry tc part).map TimerCallbackEntry.id).Nodup ∧
      ∀ id callback interval, (∃ entry ∈ addTimerCallbackEntry tc part,
          entry.id = id ∧ entry.callback = callback ∧ entry.interval = interval) ↔
        (tc.id = id ∧ tc.callback = callback ∧ tc.interval = interval) ∨
          ∃ entry ∈ part, entry.id = id ∧ entry.callback = callback ∧ entry.interval = interval := by
  obtain ⟨time, same⟩ := addTimerCallbackEntry_perm tc part
  refine ⟨addTimerCallbackEntry_scheduled tc (agrees.scheduled.sublist sublist), ?_, ?_⟩
  · rw [(same.map TimerCallbackEntry.id).nodup_iff]
    apply nodup_cons.mpr
    refine ⟨?_, agrees.nodup.sublist (sublist.map _)⟩
    intro member
    obtain ⟨entry, inside, equal⟩ := mem_map.mp member
    exact absent entry inside equal
  · intro id callback interval
    constructor
    · rintro ⟨entry, member, facts⟩
      rcases mem_cons.mp (same.mem_iff.mp member) with rfl | before
      · exact .inl facts
      · exact .inr ⟨entry, before, facts⟩
    · rintro (facts | ⟨entry, before, facts⟩)
      · exact ⟨_, same.mem_iff.mpr mem_cons_self, facts⟩
      · exact ⟨entry, same.mem_iff.mpr (mem_cons_of_mem _ before), facts⟩

theorem Agrees.add (fresh : tc.id ∉ addedIds applied) :
    Agrees (addTimerCallbackEntry tc callbacks) (applied ++ [.add tc]) := by
  have absent : ∀ entry ∈ callbacks, entry.id ≠ tc.id := by
    intro entry member same
    apply fresh
    rw [← same]
    exact mem_addedIds_of_registered ((agrees.entries _ _ _).mp ⟨entry, member, rfl, rfl, rfl⟩)
  obtain ⟨scheduled, nodup, entries⟩ := agrees.added (.refl callbacks) absent
  refine ⟨scheduled, nodup, ?_⟩
  intro id callback interval
  rw [entries, agrees.entries, registered_append, effect]
  by_cases same : tc.id = id
  · subst same
    have none : registered applied tc.id = none := by
      by_contra some
      obtain ⟨value, found⟩ := Option.ne_none_iff_exists'.mp some
      exact fresh (mem_addedIds_of_registered found)
    rw [none]
    simp
  · simp [same]

theorem Agrees.remove (callbackId : Nat) :
    Agrees (removeRepeatedCallback callbackId callbacks) (applied ++ [.remove callbackId]) := by
  have sublist : (removeRepeatedCallback callbackId callbacks).Sublist callbacks :=
    eraseP_sublist
  refine ⟨agrees.scheduled.sublist sublist, agrees.nodup.sublist (sublist.map _), ?_⟩
  intro id callback interval
  rw [registered_append, effect]
  constructor
  · rintro ⟨entry, member, same, facts⟩
    obtain ⟨before, other⟩ := (agrees.mem_erased callbackId entry).mp member
    rw [if_neg (by rw [← same]; exact other.symm)]
    exact (agrees.entries _ _ _).mp ⟨entry, before, same, facts⟩
  · intro found
    split at found
    · cases found
    · rename_i other
      obtain ⟨entry, member, same, facts⟩ := (agrees.entries _ _ _).mpr found
      refine ⟨entry, (agrees.mem_erased callbackId entry).mpr ⟨member, ?_⟩, same, facts⟩
      rw [same]
      exact fun equal => other equal.symm

theorem Agrees.changeInterval (callbackId newInterval : Nat) (nextTime : Int) :
    Agrees (changeTimerCallbackEntryInterval callbackId newInterval nextTime callbacks)
      (applied ++ [.changeInterval callbackId newInterval nextTime]) := by
  rw [changeTimerCallbackEntryInterval]
  cases search : callbacks.find? (·.id = callbackId) with
  | none =>
    have absent : registered applied callbackId = none := by
      by_contra some
      obtain ⟨⟨callback, interval⟩, found⟩ := Option.ne_none_iff_exists'.mp some
      obtain ⟨entry, member, same, -⟩ := (agrees.entries _ _ _).mpr found
      have other := find?_eq_none.mp search entry member
      simp [same] at other
    refine ⟨agrees.scheduled, agrees.nodup, ?_⟩
    intro id callback interval
    rw [agrees.entries, registered_append, effect]
    split
    · rename_i same
      rw [← same, absent]
      rfl
    · rfl
  | some tc =>
    have member := mem_of_find?_eq_some search
    have same : tc.id = callbackId := by simpa using find?_some search
    have current := (agrees.entries callbackId tc.callback tc.interval).mp
      ⟨tc, member, same, rfl, rfl⟩
    obtain ⟨scheduled, nodup, entries⟩ := agrees.added
      (show (callbacks.eraseP (·.id = callbackId)).Sublist callbacks from eraseP_sublist)
      (show ∀ entry ∈ callbacks.eraseP (·.id = callbackId),
          entry.id ≠ { tc with interval := newInterval, nextTime := nextTime }.id by
        intro entry inside
        rw [same]
        exact ((agrees.mem_erased callbackId entry).mp inside).2)
    refine ⟨scheduled, nodup, ?_⟩
    intro id callback interval
    rw [entries, registered_append, effect]
    by_cases equal : callbackId = id
    · subst equal
      rw [if_pos rfl, current, Option.map_some, Option.some.injEq, Prod.mk.injEq]
      constructor
      · rintro (⟨-, facts⟩ | ⟨entry, inside, found, -⟩)
        · exact facts
        · exact absurd found ((agrees.mem_erased callbackId entry).mp inside).2
      · intro facts
        exact .inl ⟨same, facts⟩
    · rw [if_neg equal, ← agrees.entries]
      constructor
      · rintro (⟨found, -⟩ | ⟨entry, inside, facts⟩)
        · exact absurd (same.symm.trans found) equal
        · exact ⟨entry, ((agrees.mem_erased callbackId entry).mp inside).1, facts⟩
      · rintro ⟨entry, inside, found, facts⟩
        refine .inr ⟨entry, (agrees.mem_erased callbackId entry).mpr ⟨inside, ?_⟩, found, facts⟩
        rw [found]
        exact fun other => equal other.symm

theorem Agrees.applyChange {change : TimerChange Callback}
    (fresh : (addedIds (applied ++ [change])).Nodup) :
    Agrees (applyChange callbacks change) (applied ++ [change]) := by
  cases change with
  | add tc =>
    apply agrees.add
    rw [addedIds_append] at fresh
    intro member
    exact (nodup_append.mp fresh).2.2 _ member _ mem_cons_self rfl
  | changeInterval id interval nextTime => exact agrees.changeInterval id interval nextTime
  | remove id => exact agrees.remove id

theorem Agrees.applyAll (changes : List (TimerChange Callback))
    (fresh : (addedIds (applied ++ changes)).Nodup) :
    Agrees (changes.foldl OpcUa.applyChange callbacks) (applied ++ changes) := by
  induction changes generalizing callbacks applied with
  | nil =>
    rw [append_nil]
    exact agrees
  | cons first rest ih =>
    rw [append_cons] at fresh ⊢
    apply ih (agrees.applyChange _) fresh
    rw [addedIds_append] at fresh
    exact (nodup_append.mp fresh).1

end

end Agrees

namespace Timer

variable {now : Int}
variable {tc : TimerCallbackEntry Callback} {upTo : List (TimerCallbackEntry Callback)}
  {applied : List (TimerChange Callback)}

structure Queued (timer : Timer Callback) (issued waiting : List (TimerChange Callback)) : Prop where
  holds : Holds timer.changes waiting
  fresh : (addedIds issued).Nodup
  bounded : ∀ id ∈ addedIds issued, id ≤ timer.idCounter

structure Requested (timer next : Timer Callback) (issued waiting : List (TimerChange Callback))
    (changes : List (TimerChange Callback)) : Prop where
  queued : Queued next (issued ++ changes) (waiting ++ changes)
  callbacks : next.repeatedCallbacks = timer.repeatedCallbacks

variable {timer : Timer Callback} {issued waiting : List (TimerChange Callback)}

section

variable (queued : Queued timer issued waiting)
include queued

theorem Requested.refused :
    Requested timer timer issued waiting (none : Option (TimerChange Callback)).toList := by
  refine ⟨?_, rfl⟩
  rw [Option.toList_none, append_nil, append_nil]
  exact queued

theorem Requested.unadded {change : TimerChange Callback} (none : addedIds [change] = []) :
    Requested timer (timer.enqueueChange change).2.2 issued waiting
      (timer.enqueueChange change).2.1.toList := by
  refine ⟨⟨queued.holds.push change, ?_, ?_⟩, rfl⟩
  · show (addedIds (issued ++ [change])).Nodup
    rw [addedIds_append, none, append_nil]
    exact queued.fresh
  · show ∀ id ∈ addedIds (issued ++ [change]), id ≤ timer.idCounter
    rw [addedIds_append, none, append_nil]
    exact queued.bounded

theorem Requested.added (next : tc.id = timer.idCounter + 1) :
    Requested timer ({ timer with idCounter := timer.idCounter + 1 }.enqueueChange (.add tc)).2.2
      issued waiting [.add tc] := by
  have added : addedIds [TimerChange.add tc] = [timer.idCounter + 1] := congrArg (· :: []) next
  refine ⟨⟨queued.holds.push (.add tc), ?_, ?_⟩, rfl⟩
  · rw [addedIds_append, nodup_append]
    refine ⟨queued.fresh, nodup_singleton _, ?_⟩
    intro id member other last same
    rw [mem_singleton.mp last] at same
    have bound := queued.bounded id member
    omega
  · intro id member
    rw [addedIds_append, added, mem_append, mem_singleton] at member
    rcases member with before | last
    · exact le_trans (queued.bounded id before) (Nat.le_succ _)
    · exact last.le

theorem request_requested (request : TimerRequest Callback) :
    Requested timer (timer.request request).2.2 issued waiting
      (timer.request request).2.1.toList := by
  cases request with
  | add callback interval now memory =>
    rw [Timer.request]
    cases callback with
    | none => exact .refused queued
    | some callback =>
      rw [addRepeatedCallback]
      split
      · exact .refused queued
      · split
        · exact .refused queued
        · exact .added queued rfl
  | changeInterval callbackId interval now memory =>
    rw [Timer.request, changeRepeatedCallbackInterval]
    split
    · exact .refused queued
    · split
      · exact .refused queued
      · exact .unadded queued rfl
  | remove callbackId memory =>
    rw [Timer.request, Timer.removeRepeatedCallback]
    split
    · exact .refused queued
    · exact .unadded queued rfl

theorem requestAll_requested (requests : List (TimerRequest Callback)) :
    Requested timer (timer.requestAll requests).2 issued waiting (timer.requestAll requests).1 := by
  induction requests generalizing timer issued waiting with
  | nil => exact .refused queued
  | cons first rest ih =>
    have step := request_requested queued first
    have others := ih step.queued
    refine ⟨?_, others.callbacks.trans step.callbacks⟩
    have queued := others.queued
    rw [append_assoc, append_assoc] at queued
    exact queued

end

theorem processChangesFrom_spec (fuel : Nat) (holds : Holds timer.changes waiting)
    (enough : waiting.length < fuel) :
    ∃ changes, processChangesFrom fuel timer = some { timer with
          repeatedCallbacks := waiting.foldl applyChange timer.repeatedCallbacks
          changes := changes } ∧ Holds changes [] := by
  induction fuel generalizing timer waiting with
  | zero => omega
  | succ fuel ih =>
    have popped := holds.pop
    cases waiting with
    | nil =>
      refine ⟨timer.changes, ?_, holds⟩
      rw [processChangesFrom, popped]
      rfl
    | cons first rest =>
      obtain ⟨changes, result, left⟩ := popped
      rw [processChangesFrom, result]
      rw [length_cons] at enough
      exact @ih { timer with
        repeatedCallbacks := applyChange timer.repeatedCallbacks first
        changes := changes } rest left (by omega)

theorem processChanges_spec (queued : Queued timer issued waiting) :
    ∃ next, timer.processChanges = some next ∧
      next.repeatedCallbacks = waiting.foldl applyChange timer.repeatedCallbacks ∧
      Queued next issued [] := by
  obtain ⟨changes, result, empty⟩ :=
    processChangesFrom_spec timer.changes.unused queued.holds queued.holds.length_lt
  exact ⟨_, result, rfl, empty, queued.fresh, queued.bounded⟩

theorem reschedule_ge (now : Int) (tc : TimerCallbackEntry Callback) :
    now ≤ (reschedule now tc).nextTime := by
  rw [reschedule]
  split
  · dsimp only
    omega
  · dsimp only
    omega

structure Swept (now : Int) (entries rest : List (TimerCallbackEntry Callback))
    (issued waiting : List (TimerChange Callback)) (dispatched : Dispatched Callback) : Prop where
  perm : dispatched.callbacks.Perm (entries.map (reschedule now) ++ rest)
  scheduled : Scheduled dispatched.callbacks
  queued : Queued dispatched.timer (issued ++ dispatched.changes) (waiting ++ dispatched.changes)
  entries : dispatched.entries = entries

theorem Swept.cons {entry : TimerCallbackEntry Callback}
    {entries before after : List (TimerCallbackEntry Callback)}
    {changes : List (TimerChange Callback)} {dispatched : Dispatched Callback}
    (swept : Swept now entries (before ++ reschedule now entry :: after) (issued ++ changes)
      (waiting ++ changes) dispatched) :
    Swept now (entry :: entries) (before ++ after) issued waiting { dispatched with
        changes := changes ++ dispatched.changes
        entries := entry :: dispatched.entries } := by
  refine ⟨?_, swept.scheduled, ?_, congrArg _ swept.entries⟩
  · have front : (before ++ reschedule now entry :: after).Perm
        (reschedule now entry :: (before ++ after)) := perm_middle
    exact (swept.perm.trans (front.append_left _)).trans perm_middle
  · have queued := swept.queued
    rw [append_assoc, append_assoc] at queued
    exact queued

theorem scheduled_le_last {last : TimerCallbackEntry Callback} (scheduled : Scheduled callbacks)
    (ends : callbacks.getLast? = some last) :
    ∀ entry ∈ callbacks, entry.nextTime ≤ last.nextTime := by
  obtain ⟨before, rfl⟩ := getLast?_eq_some_iff.mp ends
  intro entry member
  rcases mem_append.mp member with earlier | same
  · exact (pairwise_append.mp scheduled).2.2 entry earlier last mem_cons_self
  · rw [mem_singleton.mp same]

theorem upTo_le {time : Int} (scheduled : Scheduled upTo)
    (late : (upTo.getLast?.map TimerCallbackEntry.nextTime).getD (now - 1) ≤ time) :
    ∀ entry ∈ upTo, entry.nextTime ≤ time := by
  intro entry member
  cases ends : upTo.getLast? with
  | none =>
    rw [getLast?_eq_none_iff.mp ends] at member
    cases member
  | some last =>
    rw [ends] at late
    exact le_trans (scheduled_le_last scheduled ends entry member) late

def insertDispatched (now : Int) (tc : TimerCallbackEntry Callback)
    (upTo following : List (TimerCallbackEntry Callback)) :
    Option (List (TimerCallbackEntry Callback) × List (TimerCallbackEntry Callback)) :=
  let lastTime := (upTo.getLast?.map TimerCallbackEntry.nextTime).getD (now - 1)
  if lastTime = tc.nextTime then if upTo.isEmpty then none else some (upTo, tc :: following)
  else if lastTime < tc.nextTime then
    some (upTo ++ following.takeWhile (·.nextTime < tc.nextTime) ++ [tc],
      following.dropWhile (·.nextTime < tc.nextTime))
  else
    some ((upTo ++ following).takeWhile (·.nextTime < tc.nextTime) ++ [tc],
      (upTo ++ following).dropWhile (·.nextTime < tc.nextTime))

theorem dispatchLoop_cons (now : Int)
    (behave : TimerCallbackEntry Callback → List (TimerRequest Callback))
    (entry : TimerCallbackEntry Callback) (rest : List (TimerCallbackEntry Callback))
    (timer : Timer Callback) (upTo following : List (TimerCallbackEntry Callback)) :
    dispatchLoop now behave (entry :: rest) timer upTo following =
      (insertDispatched now (reschedule now entry) upTo following).bind fun placed =>
        (dispatchLoop now behave rest (timer.requestAll (behave entry)).2 placed.1 placed.2).map
          fun dispatched => { dispatched with
            changes := (timer.requestAll (behave entry)).1 ++ dispatched.changes
            entries := entry :: dispatched.entries } := by
  rw [dispatchLoop, insertDispatched]
  by_cases same : (upTo.getLast?.map TimerCallbackEntry.nextTime).getD (now - 1) =
      (reschedule now entry).nextTime
  · simp only [if_pos same]
    by_cases fresh : upTo.isEmpty = true
    · simp only [if_pos fresh]
      rfl
    · simp only [if_neg fresh, Option.bind_some]
      cases dispatchLoop now behave rest (timer.requestAll (behave entry)).2 upTo
        (reschedule now entry :: following) <;> rfl
  · by_cases behind : (upTo.getLast?.map TimerCallbackEntry.nextTime).getD (now - 1) <
        (reschedule now entry).nextTime
    · simp only [if_neg same, if_pos behind, Option.bind_some]
      cases dispatchLoop now behave rest (timer.requestAll (behave entry)).2 _ _ <;> rfl
    · simp only [if_neg same, if_neg behind, Option.bind_some]
      cases dispatchLoop now behave rest (timer.requestAll (behave entry)).2 _ _ <;> rfl

theorem insertDispatched_spec {following : List (TimerCallbackEntry Callback)}
    (scheduled : Scheduled (upTo ++ following)) (future : now ≤ tc.nextTime) :
    ∃ next later before after, insertDispatched now tc upTo following = some (next, later) ∧
      before ++ after = upTo ++ following ∧ next ++ later = before ++ tc :: after ∧
      Scheduled (next ++ later) := by
  obtain ⟨first, second, between⟩ := pairwise_append.mp scheduled
  rw [insertDispatched]
  by_cases same : (upTo.getLast?.map TimerCallbackEntry.nextTime).getD (now - 1) = tc.nextTime
  · cases ends : upTo.getLast? with
    | none =>
      rw [ends, Option.map_none, Option.getD_none] at same
      omega
    | some last =>
      have member : last ∈ upTo := mem_of_getLast? ends
      have filled : ¬upTo.isEmpty = true := by
        rw [List.isEmpty_iff]
        rintro rfl
        cases member
      have inserted : Scheduled (upTo ++ tc :: following) := by
        apply scheduled.insert (upTo_le first same.le)
        intro other later
        rw [← same, ends]
        exact between last member other later
      exact ⟨upTo, tc :: following, upTo, following,
        by rw [← ends, if_pos same, if_neg filled], rfl, rfl, inserted⟩
  · by_cases behind : (upTo.getLast?.map TimerCallbackEntry.nextTime).getD (now - 1) < tc.nextTime
    · have whole : upTo ++ following.takeWhile (·.nextTime < tc.nextTime) ++
          following.dropWhile (·.nextTime < tc.nextTime) = upTo ++ following := by
        rw [append_assoc, takeWhile_append_dropWhile]
      refine ⟨_, _, _, following.dropWhile (·.nextTime < tc.nextTime),
        by rw [if_neg same, if_pos behind], whole,
        append_assoc _ [tc] _, ?_⟩
      rw [append_assoc _ [tc], singleton_append]
      apply Scheduled.insert (whole ▸ scheduled)
      · intro other member
        rcases mem_append.mp member with earlier | skipped
        · exact upTo_le first behind.le other earlier
        · have less := mem_takeWhile_imp skipped
          exact (of_decide_eq_true less).le
      · exact Scheduled.dropWhile_lt second _
    · have whole : (upTo ++ following).takeWhile (·.nextTime < tc.nextTime) ++
          (upTo ++ following).dropWhile (·.nextTime < tc.nextTime) = upTo ++ following :=
        takeWhile_append_dropWhile
      refine ⟨_, _, _, (upTo ++ following).dropWhile (·.nextTime < tc.nextTime),
        by rw [if_neg same, if_neg behind], whole,
        append_assoc _ [tc] _, ?_⟩
      rw [append_assoc _ [tc], singleton_append]
      apply Scheduled.insert (by rwa [whole])
      · intro other member
        have less := mem_takeWhile_imp member
        exact (of_decide_eq_true less).le
      · exact Scheduled.dropWhile_lt scheduled _

theorem dispatchLoop_spec (now : Int)
    (behave : TimerCallbackEntry Callback → List (TimerRequest Callback))
    (entries : List (TimerCallbackEntry Callback)) (queued : Queued timer issued waiting)
    (upTo following : List (TimerCallbackEntry Callback))
    (scheduled : Scheduled (upTo ++ following)) :
    ∃ dispatched, dispatchLoop now behave entries timer upTo following = some dispatched ∧
      Swept now entries (upTo ++ following) issued waiting dispatched := by
  induction entries generalizing timer issued waiting upTo following with
  | nil =>
    refine ⟨_, rfl, .refl _, scheduled, ?_, rfl⟩
    rw [append_nil, append_nil]
    exact queued
  | cons entry rest ih =>
    have requested := requestAll_requested queued (behave entry)
    obtain ⟨next, later, before, after, placed, whole, split, inserted⟩ :=
      insertDispatched_spec scheduled (reschedule_ge now entry)
    obtain ⟨dispatched, loops, swept⟩ := ih requested.queued next later inserted
    rw [dispatchLoop_cons, placed, Option.bind_some, loops]
    refine ⟨_, rfl, ?_⟩
    rw [split] at swept
    rw [← whole]
    exact swept.cons

/-- The states after any sequence of requests and of calls of `UA_Timer_process`, with any requests
of the callbacks, and all the changes that were put into the queue in their order. -/
inductive Run : Timer Callback → List (TimerChange Callback) → Prop
  | init : Run .init []
  | request {timer : Timer Callback} {issued : List (TimerChange Callback)}
      (request : TimerRequest Callback) : Run timer issued →
      Run (timer.request request).2.2 (issued ++ (timer.request request).2.1.toList)
  | process {timer : Timer Callback} {issued : List (TimerChange Callback)} {now : Int}
      {behave : TimerCallbackEntry Callback → List (TimerRequest Callback)}
      {processed : Processed Callback} : Run timer issued →
      timer.process now behave = some processed →
      Run processed.timer (issued ++ processed.changes)

structure Invariant (timer : Timer Callback) (applied waiting : List (TimerChange Callback)) :
    Prop where
  queued : Queued timer (applied ++ waiting) waiting
  agrees : Agrees timer.repeatedCallbacks applied

structure Serves (now : Int) (callbacks : List (TimerCallbackEntry Callback))
    (processed : Processed Callback) : Prop where
  entries : processed.entries = callbacks.filter (·.nextTime ≤ now)
  swept : ∃ swept, Scheduled swept ∧
    swept.Perm (processed.entries.map (reschedule now) ++ callbacks.filter (now < ·.nextTime)) ∧
    processed.timer.repeatedCallbacks = processed.changes.foldl applyChange swept
  empty : Holds processed.timer.changes []
  returned : (processed.timer.repeatedCallbacks = [] ∧ processed.returned = int64Max) ∨
    ∃ first ∈ processed.timer.repeatedCallbacks, processed.returned = first.nextTime ∧
      ∀ entry ∈ processed.timer.repeatedCallbacks, processed.returned ≤ entry.nextTime

theorem nextRepetition_spec (scheduled : Scheduled timer.repeatedCallbacks) :
    (timer.repeatedCallbacks = [] ∧ timer.nextRepetition = int64Max) ∨
      ∃ first ∈ timer.repeatedCallbacks, timer.nextRepetition = first.nextTime ∧
        ∀ entry ∈ timer.repeatedCallbacks, timer.nextRepetition ≤ entry.nextTime := by
  rw [nextRepetition]
  cases callbacks : timer.repeatedCallbacks with
  | nil => exact .inl ⟨rfl, rfl⟩
  | cons first rest =>
    rw [callbacks] at scheduled
    refine .inr ⟨first, mem_cons_self, rfl, ?_⟩
    intro entry member
    rcases mem_cons.mp member with rfl | later
    · exact le_rfl
    · exact (pairwise_cons.mp scheduled).1 entry later

def registration (entry : TimerCallbackEntry Callback) : Nat × Callback × Nat :=
  (entry.id, entry.callback, entry.interval)

theorem mem_registration {id interval : Nat} {callback : Callback} : (∃ entry ∈ callbacks,
      entry.id = id ∧ entry.callback = callback ∧ entry.interval = interval) ↔
      (id, callback, interval) ∈ callbacks.map registration := by
  rw [mem_map]
  constructor
  · rintro ⟨entry, member, rfl, rfl, rfl⟩
    exact ⟨entry, member, rfl⟩
  · rintro ⟨entry, member, same⟩
    cases same
    exact ⟨entry, member, rfl, rfl, rfl⟩

theorem agrees_of_perm {other : List (TimerCallbackEntry Callback)}
    (agrees : Agrees callbacks applied) (scheduled : Scheduled other)
    (perm : (other.map registration).Perm (callbacks.map registration)) : Agrees other applied := by
  refine ⟨scheduled, ?_, ?_⟩
  · have ids := perm.map Prod.fst
    rw [map_map, map_map] at ids
    exact ids.nodup_iff.mpr agrees.nodup
  · intro id callback interval
    rw [mem_registration, perm.mem_iff, ← mem_registration]
    exact agrees.entries id callback interval

theorem registration_reschedule (now : Int) (entry : TimerCallbackEntry Callback) :
    registration (reschedule now entry) = registration entry := by
  rw [reschedule]
  split
  · rfl
  · rfl

theorem registration_swept (now : Int) (callbacks : List (TimerCallbackEntry Callback)) :
    (((callbacks.filter (·.nextTime ≤ now)).map (reschedule now) ++
      callbacks.filter (now < ·.nextTime)).map registration).Perm (callbacks.map registration) := by
  have parts := filter_append_perm (fun entry => decide (entry.nextTime ≤ now)) callbacks
  have others : (fun entry : TimerCallbackEntry Callback => !decide (entry.nextTime ≤ now)) =
      fun entry => decide (now < entry.nextTime) := by
    funext entry
    rw [← decide_not, decide_eq_decide, not_le]
  rw [others] at parts
  have same : registration ∘ reschedule now = (registration : TimerCallbackEntry Callback → _) :=
    funext (registration_reschedule now)
  rw [map_append, map_map, same, ← map_append]
  exact parts.map registration

theorem process_spec (invariant : Invariant timer applied waiting) (now : Int)
    (behave : TimerCallbackEntry Callback → List (TimerRequest Callback)) :
    ∃ processed, timer.process now behave = some processed ∧
      Serves now (waiting.foldl applyChange timer.repeatedCallbacks) processed ∧
      Invariant processed.timer (applied ++ waiting ++ processed.changes) [] := by
  obtain ⟨current, changed, callbacks, queued⟩ := processChanges_spec invariant.queued
  have agrees := invariant.agrees.applyAll waiting invariant.queued.fresh
  rw [← callbacks] at agrees ⊢
  obtain ⟨due, later⟩ := agrees.scheduled.takeWhile_le now
  rw [process, changed]
  dsimp only
  rw [due, later]
  by_cases nothing : (current.repeatedCallbacks.filter (·.nextTime ≤ now)).isEmpty = true
  · rw [if_pos nothing]
    rw [List.isEmpty_iff] at nothing
    refine ⟨_, rfl, ⟨nothing.symm, ?_, queued.holds, nextRepetition_spec agrees.scheduled⟩, ?_⟩
    · refine ⟨current.repeatedCallbacks, agrees.scheduled, ?_, rfl⟩
      have whole : current.repeatedCallbacks.takeWhile (·.nextTime ≤ now) ++
          current.repeatedCallbacks.dropWhile (·.nextTime ≤ now) = current.repeatedCallbacks :=
        takeWhile_append_dropWhile
      rw [due, later, nothing] at whole
      exact .of_eq whole.symm
    · rw [append_nil]
      exact ⟨by rw [append_nil]; exact queued, agrees⟩
  · rw [if_neg nothing]
    have following : Scheduled ([] ++ current.repeatedCallbacks.filter (now < ·.nextTime)) :=
      agrees.scheduled.sublist filter_sublist
    obtain ⟨dispatched, loops, swept⟩ := dispatchLoop_spec now behave
      (current.repeatedCallbacks.filter (·.nextTime ≤ now)) queued [] _ following
    rw [loops]
    dsimp only
    have waits : Queued { dispatched.timer with repeatedCallbacks := dispatched.callbacks }
        (applied ++ waiting ++ dispatched.changes) dispatched.changes := by
      have left := swept.queued
      exact ⟨left.holds, left.fresh, left.bounded⟩
    obtain ⟨last, again, final, done⟩ := processChanges_spec waits
    rw [again]
    have kept := agrees_of_perm agrees swept.scheduled
        ((swept.perm.map registration).trans (registration_swept now current.repeatedCallbacks))
    have settled := kept.applyAll dispatched.changes waits.fresh
    rw [show dispatched.changes.foldl applyChange dispatched.callbacks = last.repeatedCallbacks
      from final.symm] at settled
    refine ⟨_, rfl, ⟨swept.entries, ⟨dispatched.callbacks, swept.scheduled, ?_, final⟩, done.holds,
      nextRepetition_spec settled.scheduled⟩, ?_, settled⟩
    · rw [swept.entries]
      exact swept.perm
    · rw [append_nil]
      exact done

theorem Run.invariant (run : Run timer issued) :
    ∃ applied waiting, issued = applied ++ waiting ∧ Invariant timer applied waiting := by
  induction run with
  | init =>
    refine ⟨[], [], rfl, ⟨Holds.empty, nodup_nil, ?_⟩, .nil⟩
    intro id member
    cases member
  | @request timer issued request _ ih =>
    obtain ⟨applied, waiting, rfl, invariant⟩ := ih
    have requested := request_requested invariant.queued request
    refine ⟨applied, waiting ++ (timer.request request).2.1.toList, append_assoc _ _ _, ?_, ?_⟩
    · rw [← append_assoc]
      exact requested.queued
    · rw [requested.callbacks]
      exact invariant.agrees
  | @process timer issued now behave processed _ processes ih =>
    obtain ⟨applied, waiting, rfl, invariant⟩ := ih
    obtain ⟨result, same, -, kept⟩ := process_spec invariant now behave
    rw [processes] at same
    injection same with same
    subst same
    exact ⟨_, [], (append_nil _).symm, kept⟩

/-- In every state the list is sorted and has no id twice. It has the callbacks that the first of
the requested changes register, and the queue has the other changes in their order. Processing
applies them, dispatches the entries that are due, each once, puts them back for a time that is
not over, and returns the least time in the list. -/
theorem timer_runs {timer : Timer Callback} {issued : List (TimerChange Callback)}
    (run : Run timer issued) :
    Scheduled timer.repeatedCallbacks ∧
    (timer.repeatedCallbacks.map TimerCallbackEntry.id).Nodup ∧
    ∃ applied waiting, issued = applied ++ waiting ∧ Holds timer.changes waiting ∧
      (∀ id callback interval, (∃ entry ∈ timer.repeatedCallbacks,
          entry.id = id ∧ entry.callback = callback ∧ entry.interval = interval) ↔
          registered applied id = some (callback, interval)) ∧
      ∀ now behave, ∃ processed, timer.process now behave = some processed ∧
        Serves now (waiting.foldl applyChange timer.repeatedCallbacks) processed ∧
        (processed.entries.map TimerCallbackEntry.id).Nodup ∧
        ∀ entry ∈ processed.entries, now ≤ (reschedule now entry).nextTime := by
  obtain ⟨applied, waiting, split, invariant⟩ := run.invariant
  refine ⟨invariant.agrees.scheduled, invariant.agrees.nodup, applied, waiting, split,
    invariant.queued.holds, invariant.agrees.entries, ?_⟩
  intro now behave
  obtain ⟨processed, processes, serves, -⟩ := process_spec invariant now behave
  refine ⟨processed, processes, serves, ?_, fun entry _ => reschedule_ge now entry⟩
  have agrees := invariant.agrees.applyAll waiting invariant.queued.fresh
  rw [serves.entries]
  exact agrees.nodup.sublist (filter_sublist.map _)

def twoCallbacks : Timer Nat :=
  ((init.request (.add (some 7) 5 0 true)).2.2.request (.add (some 8) 10 0 true)).2.2

def removeSecond (entry : TimerCallbackEntry Nat) : List (TimerRequest Nat) :=
  if entry.callback = 7 then [.remove 2 true] else []

/-- Both callbacks are called in the first round, in which the first one removes the second. -/
theorem twoCallbacks_serve : ∃ first second : Processed Nat,
    twoCallbacks.process 120000 removeSecond = some first ∧
      first.entries.map TimerCallbackEntry.callback = [7, 8] ∧
      first.timer.process 250000 removeSecond = some second ∧
      second.entries.map TimerCallbackEntry.callback = [7] ∧
      Scheduled second.timer.repeatedCallbacks := by
  have added : Run twoCallbacks _ := .request _ (.request _ .init)
  obtain ⟨-, -, _, _, -, -, -, serves⟩ := timer_runs added
  obtain ⟨first, firstRuns, -⟩ := serves 120000 removeSecond
  have served := added.process firstRuns
  obtain ⟨-, -, _, _, -, -, -, servesToo⟩ := timer_runs served
  obtain ⟨second, secondRuns, -⟩ := servesToo 250000 removeSecond
  obtain ⟨scheduled, -⟩ := timer_runs (served.process secondRuns)
  have called : (twoCallbacks.process 120000 removeSecond).map (fun processed =>
      (processed.entries.map TimerCallbackEntry.callback,
        (processed.timer.process 250000 removeSecond).map fun later =>
          later.entries.map TimerCallbackEntry.callback)) = some ([7, 8], some [7]) := by
    decide +kernel
  rw [firstRuns, Option.map_some, secondRuns, Option.map_some, Option.some.injEq,
    Prod.mk.injEq, Option.some.injEq] at called
  exact ⟨first, second, firstRuns, called.1, secondRuns, called.2, scheduled⟩

end Timer

end OpcUa
