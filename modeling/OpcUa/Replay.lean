import OpcUa.SequenceNumbers
import OpcUa.ServerSecurity

/-!
Recorded chunks that are delivered again, with OPN chunks in between.
-/

namespace OpcUa

open LittleEndian StatusCode

variable {Context Application : Type}
variable {trace : List (Nat × AcceptedChunk)}

/-! The sender and the attacker -/

structure Sender where
  chunkAt : Nat → List Byte
  firstNumber : BitVec 32

def Sender.numberAt (sender : Sender) (position : Nat) : BitVec 32 :=
  sender.firstNumber + BitVec.ofNat 32 position

def isNumbered (chunk : AcceptedChunk) : Bool := chunk.messageType != .err

def recorded (position : Nat) (result : ProcessResult Context Application) :
    List (Nat × AcceptedChunk) :=
  (result.accepted.toList.filter isNumbered).map fun chunk => (position, chunk)

def ReadsNumber (sender : Sender) (position : Nat) (result : ProcessResult Context Application) :
    Prop :=
  ∀ chunk, result.accepted = some chunk → isNumbered chunk = true →
    chunk.sequenceNumber = sender.numberAt position

/-- Chunks of the sender arrive in any order and any number of times, before its numbers have
wrapped around. -/
inductive Replays (policy : SecurityPolicy Context)
    (callback : ProcessMessageCallback Context Application) (sender : Sender)
    (allowed : List (Nat × AcceptedChunk) → SecureChannel Context → Nat → Prop)
    (first : SecureChannel Context) : List (Nat × AcceptedChunk) → SecureChannel Context → Prop
  | start : Replays policy callback sender allowed first [] first
  | deliver {trace : List (Nat × AcceptedChunk)} {channel : SecureChannel Context}
      (application : Application) (position : Nat) :
      Replays policy callback sender allowed first trace channel → position + 1 < 2 ^ 32 →
      ReadsNumber sender position
        (processChunk policy callback application channel (sender.chunkAt position)) →
      allowed trace channel position →
      Replays policy callback sender allowed first (trace ++ recorded position
          (processChunk policy callback application channel (sender.chunkAt position)))
        (processChunk policy callback application channel (sender.chunkAt position)).channel
  | other {trace : List (Nat × AcceptedChunk)} {channel : SecureChannel Context}
      (after : SecureChannel Context) :
      Replays policy callback sender allowed first trace channel →
      after.receiveSequenceNumber = channel.receiveSequenceNumber →
      Replays policy callback sender allowed first trace after

def AcceptedOnce (trace : List (Nat × AcceptedChunk)) : Prop :=
  (trace.filter fun one => isSymmetric one.2).Pairwise fun earlier later =>
    (earlier.2.tokenId, earlier.2.sequenceNumber) ≠ (later.2.tokenId, later.2.sequenceNumber)

def RollsOver (stored number : BitVec 32) : Prop :=
  number ≠ stored + 1 ∧ (stored + 1).toNat > 4294966271 ∧ number.toNat < 1024

/-- Chunks whose number is not compared with the stored one are not older than what was
accepted before: OPN chunks and those that pass for the first ones after a rollover. -/
def KeepsOrder (sender : Sender) (trace : List (Nat × AcceptedChunk))
    (channel : SecureChannel Context) (position : Nat) : Prop :=
  headerMessageType (sender.chunkAt position) = some .opn ∨
      RollsOver channel.receiveSequenceNumber (sender.numberAt position) →
    ∀ earlier ∈ trace, earlier.1 ≤ position

theorem processChunk_recorded (policy : SecurityPolicy Context)
    (callback : ProcessMessageCallback Context Application) (application : Application)
    (channel : SecureChannel Context) (bytes : List Byte) (position : Nat) :
    let result := processChunk policy callback application channel bytes
    (recorded position result = [] ∧
      result.channel.receiveSequenceNumber = channel.receiveSequenceNumber) ∨
    ∃ chunk, result.accepted = some chunk ∧ isNumbered chunk = true ∧
      recorded position result = [(position, chunk)] ∧
      result.channel.receiveSequenceNumber = chunk.sequenceNumber ∧
      ((isSymmetric chunk = false ∧ headerMessageType bytes = some .opn) ∨
        SequenceFollows channel.receiveSequenceNumber chunk.sequenceNumber) := by
  intro result
  obtain ⟨status, after, checks, outcome⟩ | ⟨accepted, after, checks, outcome⟩ :=
    processChunk_cases policy callback application channel bytes
  · left
    simp only [result, outcome]
    refine ⟨rfl, ?_⟩
    cases checks with
    | refused _ _ _ => rfl
    | revolved _ _ selects =>
      obtain ⟨context, revolved⟩ := revolveTokens_channel policy channel selects.2.2
      rw [revolved]
  · simp only [result, recorded, outcome, processPayload_accepted,
      processPayload_receiveSequenceNumber]
    cases checks with
    | error _ _ => exact .inl ⟨rfl, rfl⟩
    | opened offset plain sort _ _ => exact .inr ⟨_, rfl, rfl, rfl, rfl, .inl ⟨rfl, sort⟩⟩
    | symmetric messageType plain current sort carries _ _ follows =>
      have symmetric := carries.2.2.1
      rw [sort, Option.some.injEq, Option.some.injEq] at symmetric
      rcases symmetric with msg | clo
      · subst msg
        exact .inr ⟨_, rfl, rfl, rfl, rfl, .inr follows⟩
      · subst clo
        exact .inr ⟨_, rfl, rfl, rfl, rfl, .inr follows⟩

theorem numberAt_inj (sender : Sender) {first second : Nat} (small : first < 2 ^ 32)
    (too : second < 2 ^ 32) (same : sender.numberAt first = sender.numberAt second) :
    first = second := by
  have equal : BitVec.ofNat 32 first = BitVec.ofNat 32 second := by
    exact (BitVec.add_right_inj _).mp same
  have values := congrArg BitVec.toNat equal
  rwa [BitVec.toNat_ofNat, BitVec.toNat_ofNat, Nat.mod_eq_of_lt small, Nat.mod_eq_of_lt too] at values

theorem numberAt_succ (sender : Sender) (position : Nat) :
    sender.numberAt (position + 1) = sender.numberAt position + 1 := by
  rw [Sender.numberAt, Sender.numberAt, BitVec.ofNat_add, BitVec.add_assoc]
  rfl

/-- The stored number is the one of the chunk that was accepted last, and nothing newer was
accepted before it. -/
structure Advancing (sender : Sender) (trace : List (Nat × AcceptedChunk))
    (stored : BitVec 32) : Prop where
  numbered : ∀ one ∈ trace, one.1 + 1 < 2 ^ 32 ∧ one.2.sequenceNumber = sender.numberAt one.1
  latest : trace = [] ∨ ∃ one ∈ trace, stored = sender.numberAt one.1 ∧
    ∀ earlier ∈ trace, earlier.1 ≤ one.1
  ordered : trace.Pairwise fun earlier later => isSymmetric later.2 = true → earlier.1 < later.1

variable {sender : Sender}

section

variable {stored : BitVec 32} {position : Nat} (advancing : Advancing sender trace stored)
  (small : position + 1 < 2 ^ 32)
include advancing small

theorem Advancing.concat {chunk : AcceptedChunk}
    (number : chunk.sequenceNumber = sender.numberAt position)
    (newer : ∀ earlier ∈ trace, earlier.1 ≤ position)
    (strictly : isSymmetric chunk = true → ∀ earlier ∈ trace, earlier.1 < position) :
    Advancing sender (trace ++ [(position, chunk)]) chunk.sequenceNumber := by
  refine ⟨?_, .inr ⟨(position, chunk), List.mem_append_right _ List.mem_cons_self, number, ?_⟩, ?_⟩
  · intro one member
    rcases List.mem_append.mp member with old | new
    · exact advancing.numbered one old
    · obtain rfl := List.mem_singleton.mp new
      exact ⟨small, number⟩
  · intro earlier member
    rcases List.mem_append.mp member with old | new
    · exact newer earlier old
    · obtain rfl := List.mem_singleton.mp new
      exact Nat.le_refl _
  · rw [List.pairwise_append]
    refine ⟨advancing.ordered, List.pairwise_singleton _ _, ?_⟩
    intro earlier member later new
    obtain rfl := List.mem_singleton.mp new
    exact fun symmetric => strictly symmetric earlier member

theorem Advancing.newer (follows : SequenceFollows stored (sender.numberAt position))
    (ordered : RollsOver stored (sender.numberAt position) → ∀ earlier ∈ trace,
      earlier.1 ≤ position) :
    ∀ earlier ∈ trace, earlier.1 < position := by
  rcases advancing.latest with empty | ⟨last, member, number, highest⟩
  · rw [empty]
    intro earlier nothing
    cases nothing
  · have bound := (advancing.numbered last member).1
    by_cases successor : sender.numberAt position = stored + 1
    · have next : position = last.1 + 1 := by
        rw [number, ← numberAt_succ] at successor
        exact numberAt_inj sender (by omega) bound successor
      intro earlier before
      have limit := highest earlier before
      omega
    · have rollover := follows.resolve_left successor
      have rolls : RollsOver stored (sender.numberAt position) := ⟨successor, rollover⟩
      have different : last.1 ≠ position := by
        intro same
        rw [← same, ← number] at rollover
        have value : (stored + 1).toNat = (stored.toNat + 1) % 2 ^ 32 := BitVec.toNat_add stored 1
        omega
      have after := ordered rolls last member
      intro earlier before
      have limit := highest earlier before
      omega

end

theorem Replays.advancing {policy : SecurityPolicy Context}
    {callback : ProcessMessageCallback Context Application} {first last : SecureChannel Context}
    (run : Replays policy callback sender (KeepsOrder sender) first trace last) :
    Advancing sender trace last.receiveSequenceNumber := by
  induction run with
  | start =>
    refine ⟨?_, .inl rfl, .nil⟩
    intro one member
    cases member
  | other after run same ih => rwa [same]
  | @deliver trace channel application position run small reads allowed ih =>
    obtain ⟨nothing, stored⟩ | ⟨chunk, accepted, numbered, one, stored, kind⟩ :=
      processChunk_recorded policy callback application channel (sender.chunkAt position) position
    · rw [nothing, stored, List.append_nil]
      exact ih
    · have number := reads chunk accepted numbered
      rw [one, stored]
      rcases kind with ⟨asymmetric, opn⟩ | follows
      · refine ih.concat small number (allowed (.inl opn)) fun symmetric => ?_
        rw [asymmetric] at symmetric
        cases symmetric
      · rw [number] at follows
        have newer := ih.newer small follows fun rolls => allowed (.inr rolls)
        exact ih.concat small number (fun earlier member => (newer earlier member).le)
          fun _ => newer

/-- As long as chunks whose number is not compared are not older than what was accepted
before, no MSG or CLO chunk is accepted twice. -/
theorem replays_acceptedOnce {policy : SecurityPolicy Context}
    {callback : ProcessMessageCallback Context Application} {sender : Sender}
    {first last : SecureChannel Context} {trace : List (Nat × AcceptedChunk)}
    (run : Replays policy callback sender (KeepsOrder sender) first trace last) :
    AcceptedOnce trace := by
  have advancing := run.advancing
  have kept : (trace.filter fun one => isSymmetric one.2).Pairwise fun earlier later =>
      isSymmetric later.2 = true → earlier.1 < later.1 := advancing.ordered.filter _
  rw [AcceptedOnce]
  refine kept.imp_of_mem ?_
  intro earlier later member too order same
  obtain ⟨before, -⟩ := List.mem_filter.mp member
  obtain ⟨behind, symmetric⟩ := List.mem_filter.mp too
  obtain ⟨bound, number⟩ := advancing.numbered earlier before
  obtain ⟨boundToo, numberToo⟩ := advancing.numbered later behind
  have numbers := (Prod.mk.inj same).2
  rw [number, numberToo] at numbers
  have positions := numberAt_inj sender (by omega) (by omega) numbers
  have less := order symmetric
  omega

/-! An OPN chunk and a message -/

def openedChannel : SecureChannel Unit where
  state := .opened
  securityMode := .none
  securityToken := ⟨1, 1, 0, 60000⟩
  nextSecurityToken := .init
  context := ()
  remoteNonce := []
  localNonce := []
  receiveSequenceNumber := 1
  sendSequenceNumber := 1
  chunks := []

def renewingSender : Sender where
  chunkAt position :=
    if position = 0 then opnChunk securityPolicyNoneUri 1 2 (openRequestWire 446 1 1)
    else symmetricChunk .msg 1 1 3
  firstNumber := 2

def serverCallback : ProcessMessageCallback Unit (Server Unit) :=
  processSecureChannelMessage plainConfig quietSurroundings securityPolicyNone 0

def openedServer : Server Unit :=
  afterChunks plainConfig [opnChunk securityPolicyNoneUri 0 1 (openRequestWire 446 0 1), helloChunk]

def afterDeliveries : List Nat → ProcessResult Unit (Server Unit)
  | [] => ⟨good, openedServer, openedChannel, none, []⟩
  | position :: earlier =>
    processChunk securityPolicyNone serverCallback (afterDeliveries earlier).application
      (afterDeliveries earlier).channel (renewingSender.chunkAt position)

theorem Replays.next {allowed : List (Nat × AcceptedChunk) → SecureChannel Unit → Nat → Prop}
    {earlier : List Nat}
    (run : Replays securityPolicyNone serverCallback renewingSender allowed openedChannel trace
      (afterDeliveries earlier).channel) (position : Nat) (small : position + 1 < 2 ^ 32)
    (reads : ((afterDeliveries (position :: earlier)).accepted.all fun chunk =>
      chunk.sequenceNumber == renewingSender.numberAt position) = true)
    (permitted : allowed trace (afterDeliveries earlier).channel position) :
    Replays securityPolicyNone serverCallback renewingSender allowed openedChannel
      (trace ++ recorded position (afterDeliveries (position :: earlier)))
      (afterDeliveries (position :: earlier)).channel := by
  refine run.deliver (afterDeliveries earlier).application position small ?_ permitted
  intro chunk accepted _
  change (afterDeliveries (position :: earlier)).accepted = some chunk at accepted
  rw [accepted, Option.all_some, beq_iff_eq] at reads
  exact reads

theorem renewal_acceptedOnce :
    ∃ trace last, Replays securityPolicyNone serverCallback renewingSender
        (KeepsOrder renewingSender) openedChannel trace last ∧ AcceptedOnce trace ∧
      trace.map (fun one => (one.1, one.2.sequenceNumber)) = [(0, 2), (1, 3)] := by
  have begin : Replays securityPolicyNone serverCallback renewingSender (KeepsOrder renewingSender)
      openedChannel [] (afterDeliveries []).channel := .start
  have message : headerMessageType (renewingSender.chunkAt 1) ≠ some .opn := by decide +kernel
  have renewed := begin.next 0 (by decide) (by decide +kernel) fun _ _ nothing => nomatch nothing
  have once := renewed.next 1 (by decide) (by decide +kernel) (by
    rintro (opn | rolls)
    · exact absurd opn message
    · exact absurd rolls.2.1 (by decide +kernel))
  have again := once.next 1 (by decide) (by decide +kernel) (by
    rintro (opn | rolls)
    · exact absurd opn message
    · exact absurd rolls.2.1 (by decide +kernel))
  exact ⟨_, _, again, replays_acceptedOnce again, by decide +kernel⟩

/-- The OPN chunk and the message are delivered again: both are accepted again. -/
theorem replayedOpn_acceptsTwice :
    ∃ trace last, Replays securityPolicyNone serverCallback renewingSender
        (fun _ _ _ => True) openedChannel trace last ∧ ¬AcceptedOnce trace ∧
      trace.map (fun one => (one.2.messageType, one.2.tokenId, one.2.sequenceNumber)) =
        [(.opn, 1, 2), (.msg, 1, 3), (.opn, 1, 2), (.msg, 1, 3)] := by
  have begin : Replays securityPolicyNone serverCallback renewingSender (fun _ _ _ => True)
      openedChannel [] (afterDeliveries []).channel := .start
  have renewed := begin.next 0 (by decide) (by decide +kernel) trivial
  have message := renewed.next 1 (by decide) (by decide +kernel) trivial
  have again := message.next 0 (by decide) (by decide +kernel) trivial
  have twice := again.next 1 (by decide) (by decide +kernel) trivial
  refine ⟨_, _, twice, ?_, by decide +kernel⟩
  rw [AcceptedOnce]
  decide +kernel

end OpcUa
