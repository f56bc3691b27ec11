import OpcUa.Types
import OpcUa.Library.StubQueue

/-!
The timer of `ua_timer.c`: a sorted list of repeated callbacks, a queue for the changes to it, and
the loop that dispatches the callbacks that are due. Times count intervals of 100 ns from the
start of the clock.
-/

namespace OpcUa

open StubQueue

def dateTimeMsec : Nat := 10000

def dateTimeSec : Int := 10000000

def int64Max : Int := 9223372036854775807

structure TimerCallbackEntry (Callback : Type) where
  nextTime : Int
  interval : Nat
  id : Nat
  callback : Callback
deriving DecidableEq

/-- An entry of the changes queue. Its kind is encoded in the callback pointer. -/
inductive TimerChange (Callback : Type) where
  | add (entry : TimerCallbackEntry Callback)
  | changeInterval (id interval : Nat) (nextTime : Int)
  | remove (id : Nat)
deriving DecidableEq

structure Timer (Callback : Type) where
  repeatedCallbacks : List (TimerCallbackEntry Callback)
  changes : Queue (TimerChange Callback)
  idCounter : Nat

variable {Callback : Type}

/-- The entry may move up to one second ahead, to the time of another one with its interval. -/
def addTimerCallbackEntry (tc : TimerCallbackEntry Callback) :
    List (TimerCallbackEntry Callback) → List (TimerCallbackEntry Callback)
  | [] => [tc]
  | tmpTc :: rest =>
    if tmpTc.nextTime ≥ tc.nextTime then tc :: tmpTc :: rest
    else if tmpTc.interval = tc.interval ∧ tmpTc.nextTime > tc.nextTime - dateTimeSec then
      tmpTc :: addTimerCallbackEntry { tc with nextTime := tmpTc.nextTime } rest
    else tmpTc :: addTimerCallbackEntry tc rest

def removeRepeatedCallback (callbackId : Nat) (callbacks : List (TimerCallbackEntry Callback)) :
    List (TimerCallbackEntry Callback) :=
  callbacks.eraseP (·.id = callbackId)

def changeTimerCallbackEntryInterval (callbackId interval : Nat) (nextTime : Int)
    (callbacks : List (TimerCallbackEntry Callback)) : List (TimerCallbackEntry Callback) :=
  match callbacks.find? (·.id = callbackId) with
  | none => callbacks
  | some tc =>
    addTimerCallbackEntry { tc with interval := interval, nextTime := nextTime }
      (callbacks.eraseP (·.id = callbackId))

def applyChange (callbacks : List (TimerCallbackEntry Callback)) :
    TimerChange Callback → List (TimerCallbackEntry Callback)
  | .remove id => removeRepeatedCallback id callbacks
  | .changeInterval id interval nextTime =>
    changeTimerCallbackEntryInterval id interval nextTime callbacks
  | .add entry => addTimerCallbackEntry entry callbacks

namespace Timer

def init : Timer Callback := ⟨[], Queue.empty, 0⟩

/-! Requests. Each returns its status and the change it has put into the queue. -/

section

variable (timer : Timer Callback)

def enqueueChange (change : TimerChange Callback) :
    StatusCode × Option (TimerChange Callback) × Timer Callback :=
  (.good, some change, { timer with changes := timer.changes.push change })

/-- The time `now` is read from the clock, and `memory` says whether the allocation succeeds. -/
def addRepeatedCallback (callback : Option Callback) (interval : BitVec 32) (now : Int)
    (memory : Bool) : StatusCode × Option (TimerChange Callback) × Timer Callback :=
  match callback with
  | none => (.badInternalError, none, timer)
  | some callback =>
    if interval.toNat < 5 then (.badInternalError, none, timer)
    else if !memory then (.badOutOfMemory, none, timer)
    else
      let timer := { timer with idCounter := timer.idCounter + 1 }
      let ticks := interval.toNat * dateTimeMsec
      timer.enqueueChange (.add ⟨now + ticks, ticks, timer.idCounter, callback⟩)

def changeRepeatedCallbackInterval (callbackId : Nat) (interval : BitVec 32) (now : Int)
    (memory : Bool) : StatusCode × Option (TimerChange Callback) × Timer Callback :=
  if interval.toNat < 5 then (.badInternalError, none, timer)
  else if !memory then (.badOutOfMemory, none, timer)
  else
    let ticks := interval.toNat * dateTimeMsec
    timer.enqueueChange (.changeInterval callbackId ticks (now + ticks))

def removeRepeatedCallback (callbackId : Nat) (memory : Bool) :
    StatusCode × Option (TimerChange Callback) × Timer Callback :=
  if !memory then (.badOutOfMemory, none, timer)
  else timer.enqueueChange (.remove callbackId)

end

end Timer

inductive TimerRequest (Callback : Type) where
  | add (callback : Option Callback) (interval : BitVec 32) (now : Int) (memory : Bool)
  | changeInterval (callbackId : Nat) (interval : BitVec 32) (now : Int) (memory : Bool)
  | remove (callbackId : Nat) (memory : Bool)

namespace Timer

def request (timer : Timer Callback) :
    TimerRequest Callback → StatusCode × Option (TimerChange Callback) × Timer Callback
  | .add callback interval now memory => timer.addRepeatedCallback callback interval now memory
  | .changeInterval callbackId interval now memory =>
    timer.changeRepeatedCallbackInterval callbackId interval now memory
  | .remove callbackId memory => timer.removeRepeatedCallback callbackId memory

def requestAll (timer : Timer Callback) :
    List (TimerRequest Callback) → List (TimerChange Callback) × Timer Callback
  | [] => ([], timer)
  | first :: rest =>
    let (_, change, timer) := timer.request first
    let (changes, timer) := timer.requestAll rest
    (change.toList ++ changes, timer)

def processChangesFrom : Nat → Timer Callback → Option (Timer Callback)
  | 0, _ => none
  | fuel + 1, timer =>
    match timer.changes.pop with
    | (none, changes) => some { timer with changes := changes }
    | (some change, changes) =>
      processChangesFrom fuel { timer with
        repeatedCallbacks := applyChange timer.repeatedCallbacks change
        changes := changes }

/-- There are fewer changes than nodes were ever allocated for. -/
def processChanges (timer : Timer Callback) : Option (Timer Callback) :=
  processChangesFrom timer.changes.unused timer

/-- The time of the next execution. It is not before the current time. -/
def reschedule (now : Int) (tc : TimerCallbackEntry Callback) : TimerCallbackEntry Callback :=
  if tc.nextTime + tc.interval < now then { tc with nextTime := now + 1 }
  else { tc with nextTime := tc.nextTime + tc.interval }

/-- What the dispatch loop leaves: the timer, the new list, the changes that the callbacks have
put into the queue and the entries that were dispatched. -/
structure Dispatched (Callback : Type) where
  timer : Timer Callback
  callbacks : List (TimerCallbackEntry Callback)
  changes : List (TimerChange Callback)
  entries : List (TimerCallbackEntry Callback)

/-- The loop over `executedNowList`. The new list is `upTo ++ following`, and `last_dispatched` is
the last entry of `upTo`, or `tmp_first` if there is none. The result is missing if the assertion
fails. -/
def dispatchLoop (now : Int) (behave : TimerCallbackEntry Callback → List (TimerRequest Callback)) :
    List (TimerCallbackEntry Callback) → Timer Callback → List (TimerCallbackEntry Callback) →
      List (TimerCallbackEntry Callback) → Option (Dispatched Callback)
  | [], timer, upTo, following => some ⟨timer, upTo ++ following, [], []⟩
  | entry :: rest, timer, upTo, following =>
    let (changes, timer) := timer.requestAll (behave entry)
    let tc := reschedule now entry
    let lastTime := (upTo.getLast?.map TimerCallbackEntry.nextTime).getD (now - 1)
    let result :=
      if lastTime = tc.nextTime then
        if upTo.isEmpty then none
        else dispatchLoop now behave rest timer upTo (tc :: following)
      else if lastTime < tc.nextTime then
        -- the search starts behind `last_dispatched`
        let skipped := following.takeWhile (·.nextTime < tc.nextTime)
        let later := following.dropWhile (·.nextTime < tc.nextTime)
        dispatchLoop now behave rest timer (upTo ++ skipped ++ [tc]) later
      else
        let skipped := (upTo ++ following).takeWhile (·.nextTime < tc.nextTime)
        let later := (upTo ++ following).dropWhile (·.nextTime < tc.nextTime)
        dispatchLoop now behave rest timer (skipped ++ [tc]) later
    match result with
    | none => none
    | some dispatched => some { dispatched with
        changes := changes ++ dispatched.changes
        entries := entry :: dispatched.entries }

def nextRepetition (timer : Timer Callback) : Int :=
  (timer.repeatedCallbacks.head?.map TimerCallbackEntry.nextTime).getD int64Max

structure Processed (Callback : Type) where
  timer : Timer Callback
  changes : List (TimerChange Callback)
  entries : List (TimerCallbackEntry Callback)
  returned : Int

def process (timer : Timer Callback) (now : Int)
    (behave : TimerCallbackEntry Callback → List (TimerRequest Callback)) :
    Option (Processed Callback) :=
  match timer.processChanges with
  | none => none
  | some timer =>
    let executedNow := timer.repeatedCallbacks.takeWhile (·.nextTime ≤ now)
    let firstAfter := timer.repeatedCallbacks.dropWhile (·.nextTime ≤ now)
    if executedNow.isEmpty then some ⟨timer, [], [], timer.nextRepetition⟩
    else
      match dispatchLoop now behave executedNow timer [] firstAfter with
      | none => none
      | some dispatched =>
        match { dispatched.timer with
            repeatedCallbacks := dispatched.callbacks }.processChanges with
        | none => none
        | some timer =>
          some ⟨timer, dispatched.changes, dispatched.entries, timer.nextRepetition⟩

end Timer

end OpcUa
