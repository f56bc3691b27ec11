import Mathlib.Data.List.Nodup
import Mathlib.Data.List.Perm.Basic
import OpcUa.PublishBookkeepingCore

/-!
The counter of the publish requests and the acknowledgements of the client over whole runs. Every
response that should be acknowledged is in one place: in a request that was sent, in the list of the
client, or with what was dropped.
-/

namespace OpcUa

open StatusCode GuardedRuns List

def PublishFrame.call? : PublishFrame → Option Nat
  | .sending _ => none
  | .answering call => some call
  | .deleting call _ => some call

def PublishFrame.acks? : PublishFrame → Option (List Acknowledgement)
  | .sending acks => some acks
  | _ => none

namespace PublishingClient

variable {call : Nat} {frames : List PublishFrame}

def answered (client : PublishingClient) : List Nat := client.frames.filterMap PublishFrame.call?

def inSending (client : PublishingClient) : List (List Acknowledgement) :=
  client.frames.filterMap PublishFrame.acks?

/-- A request counts from the send on until its callback runs, and an acknowledgement is in one
place. -/
structure Balanced (client : PublishingClient) : Prop where
  counted : client.currentlyOutStandingPublishRequests.toNat + client.answered.length
    = client.asyncServiceCalls.length + client.inSending.length
  nodup : client.asyncServiceCalls.Nodup
  known : ∀ call ∈ client.asyncServiceCalls, call < client.unused
  once : client.answered.Nodup
  listed : ∀ call ∈ client.answered, call ∈ client.asyncServiceCalls
  placed : ∀ ack, client.sent.flatten.count ack + client.inSending.flatten.count ack
    + client.pendingNotificationsAcks.count ack + client.dropped.count ack
      = client.received.count ack

variable {client : PublishingClient}

theorem Balanced.init (outStandingPublishRequests : BitVec 16) :
    (PublishingClient.init outStandingPublishRequests).Balanced where
  counted := rfl
  nodup := nodup_nil
  known := forall_mem_nil _
  once := nodup_nil
  listed := forall_mem_nil _
  placed := fun _ => rfl

section

variable (balanced : client.Balanced)
include balanced

theorem Balanced.configure (session : Bool) (subscriptions : List (BitVec 32))
    (outStandingPublishRequests : BitVec 16) :
    { client with session, subscriptions, outStandingPublishRequests }.Balanced :=
  ⟨balanced.counted, balanced.nodup, balanced.known, balanced.once, balanced.listed,
    balanced.placed⟩

theorem Balanced.clean : client.clean.Balanced where
  counted := balanced.counted
  nodup := balanced.nodup
  known := balanced.known
  once := balanced.once
  listed := balanced.listed
  placed := by
    intro ack
    have placed := balanced.placed ack
    change client.sent.flatten.count ack + client.inSending.flatten.count ack
      + [].count ack + (client.pendingNotificationsAcks ++ client.dropped).count ack
        = client.received.count ack
    rw [count_append, count_nil]
    omega

theorem Balanced.close : client.close.Balanced :=
  balanced.clean.configure false _ _

theorem Balanced.leave : ∃ after, client.leave = some after ∧ after.Balanced := by
  rw [PublishingClient.leave]
  cases frames : client.frames with
  | nil => exact ⟨client, rfl, balanced⟩
  | cons frame rest =>
    cases frame with
    | sending acks => exact ⟨client, rfl, balanced⟩
    | deleting call sub => exact ⟨client, rfl, balanced⟩
    | answering call =>
      have answered : client.answered = call :: rest.filterMap PublishFrame.call? := by
        rw [PublishingClient.answered, frames]
        rfl
      have inSending : client.inSending = rest.filterMap PublishFrame.acks? := by
        rw [PublishingClient.inSending, frames]
        rfl
      have once := balanced.once
      have counted := balanced.counted
      have listed := balanced.listed
      have placed := balanced.placed
      rw [answered] at once counted listed
      rw [inSending] at counted placed
      have member : call ∈ client.asyncServiceCalls := listed call mem_cons_self
      obtain ⟨alone, others⟩ := nodup_cons.mp once
      refine ⟨_, if_neg (not_not_intro member), ?_⟩
      constructor
      · change client.currentlyOutStandingPublishRequests.toNat
            + (rest.filterMap PublishFrame.call?).length
          = (client.asyncServiceCalls.erase call).length
            + (rest.filterMap PublishFrame.acks?).length
        have length := length_erase_add_one member
        rw [length_cons] at counted
        omega
      · exact balanced.nodup.erase call
      · intro other inside
        exact balanced.known other (mem_of_mem_erase inside)
      · exact others
      · intro other inside
        have apart : other ≠ call := by
          rintro rfl
          exact alone inside
        exact (mem_erase_of_ne apart).mpr (listed other (mem_cons_of_mem _ inside))
      · exact placed

theorem Balanced.backgroundPublish (memory : Bool) :
    ∃ after, client.backgroundPublish memory = some after ∧ after.Balanced := by
  rw [PublishingClient.backgroundPublish]
  cases client.session with
  | false => exact balanced.leave
  | true =>
    by_cases subscriptions : client.subscriptions = []
    · rw [if_pos subscriptions]
      exact balanced.leave
    · rw [if_neg subscriptions]
      by_cases below :
          client.currentlyOutStandingPublishRequests < client.outStandingPublishRequests
      · rw [if_pos below]
        cases memory with
        | false => exact balanced.leave
        | true =>
          refine ⟨_, rfl, ?_, balanced.nodup, balanced.known, balanced.once, balanced.listed, ?_⟩
          · have less := below
            have bound := client.outStandingPublishRequests.isLt
            have next : (client.currentlyOutStandingPublishRequests + 1).toNat
                = client.currentlyOutStandingPublishRequests.toNat + 1 := by
              rw [BitVec.toNat_add, Nat.mod_eq_of_lt]
              · rfl
              · exact Nat.lt_of_le_of_lt less bound
            have counted := balanced.counted
            change (client.currentlyOutStandingPublishRequests + 1).toNat + client.answered.length
                = client.asyncServiceCalls.length + (client.inSending.length + 1)
            omega
          · intro ack
            have placed := balanced.placed ack
            change client.sent.flatten.count ack
              + (client.pendingNotificationsAcks ++ client.inSending.flatten).count ack
              + [].count ack + client.dropped.count ack = client.received.count ack
            rw [count_append, count_nil]
            omega
      · rw [if_neg below]
        exact balanced.leave

theorem Balanced.outstanding (member : call ∈ client.asyncServiceCalls)
    (idle : call ∉ client.answered) : 0 < client.currentlyOutStandingPublishRequests.toNat := by
  have nodup : (call :: client.answered).Nodup := nodup_cons.mpr ⟨idle, balanced.once⟩
  have inside := cons_subset.mpr ⟨member, balanced.listed⟩
  have length := (subperm_of_subset nodup inside).length_le
  have counted := balanced.counted
  rw [length_cons] at length
  omega

theorem Balanced.answer {frame : PublishFrame} {received pending dropped : List Acknowledgement}
    (member : call ∈ client.asyncServiceCalls) (idle : call ∉ client.answered)
    (runs : frame.call? = some call) (sendsNot : frame.acks? = none)
    (placed : ∀ ack, pending.count ack + dropped.count ack + client.received.count ack =
      client.pendingNotificationsAcks.count ack + client.dropped.count ack + received.count ack) :
    { client with
      currentlyOutStandingPublishRequests := client.currentlyOutStandingPublishRequests - 1
      pendingNotificationsAcks := pending
      frames := frame :: client.frames
      received := received
      dropped := dropped }.Balanced := by
  have positive := balanced.outstanding member idle
  have answered : (frame :: client.frames).filterMap PublishFrame.call?
      = call :: client.answered := filterMap_cons_some runs
  have inSending : (frame :: client.frames).filterMap PublishFrame.acks?
      = client.inSending := filterMap_cons_none sendsNot
  constructor
  · have counted := balanced.counted
    have less : (client.currentlyOutStandingPublishRequests - 1).toNat
        = client.currentlyOutStandingPublishRequests.toNat - 1 :=
      BitVec.toNat_sub_of_le positive
    change (client.currentlyOutStandingPublishRequests - 1).toNat
      + ((frame :: client.frames).filterMap PublishFrame.call?).length
        = client.asyncServiceCalls.length
          + ((frame :: client.frames).filterMap PublishFrame.acks?).length
    rw [answered, inSending, length_cons]
    omega
  · exact balanced.nodup
  · exact balanced.known
  · change ((frame :: client.frames).filterMap PublishFrame.call?).Nodup
    rw [answered]
    exact nodup_cons.mpr ⟨idle, balanced.once⟩
  · change ∀ other ∈ (frame :: client.frames).filterMap PublishFrame.call?,
      other ∈ client.asyncServiceCalls
    rw [answered]
    exact forall_mem_cons.mpr ⟨member, balanced.listed⟩
  · intro ack
    have before := balanced.placed ack
    have now := placed ack
    change client.sent.flatten.count ack
      + ((frame :: client.frames).filterMap PublishFrame.acks?).flatten.count ack
      + pending.count ack + dropped.count ack = received.count ack
    rw [inSending]
    omega

theorem Balanced.acknowledge (member : call ∈ client.asyncServiceCalls)
    (idle : call ∉ client.answered) (answer : PublishAnswer) (stored : Bool) :
    ({ client with
      currentlyOutStandingPublishRequests := client.currentlyOutStandingPublishRequests - 1
      received := if answer.listed then answer.ack :: client.received else client.received
      frames := .answering call :: client.frames }.acknowledge answer stored).Balanced := by
  rw [PublishingClient.acknowledge]
  cases answer.listed with
  | false => exact balanced.answer member idle rfl rfl fun _ => rfl
  | true =>
    cases stored with
    | false =>
      refine balanced.answer member idle rfl rfl fun ack => ?_
      change client.pendingNotificationsAcks.count ack
          + (answer.ack :: client.dropped).count ack + client.received.count ack
        = client.pendingNotificationsAcks.count ack + client.dropped.count ack
          + (answer.ack :: client.received).count ack
      rw [count_cons, count_cons]
      omega
    | true =>
      refine balanced.answer member idle rfl rfl fun ack => ?_
      change (answer.ack :: client.pendingNotificationsAcks).count ack
          + client.dropped.count ack + client.received.count ack
        = client.pendingNotificationsAcks.count ack + client.dropped.count ack
          + (answer.ack :: client.received).count ack
      rw [count_cons, count_cons]
      omega

theorem Balanced.processPublishResponse (member : call ∈ client.asyncServiceCalls)
    (idle : call ∉ client.answered) (answer : PublishAnswer) (memory : Bool) :
    ∃ after, client.processPublishResponse call answer memory = some after ∧ after.Balanced := by
  -- Only a good response lists a sequence number.
  have silent (bad : answer.serviceResult ≠ good) : answer.listed = false := by
    rw [PublishAnswer.listed, decide_eq_false bad, Bool.false_and]
  have answering (bad : answer.serviceResult ≠ good) := by
    have result := balanced.acknowledge member idle answer false
    rw [PublishingClient.acknowledge, silent bad] at result
    exact result
  rw [PublishingClient.processPublishResponse]
  by_cases tooMany : answer.serviceResult = badTooManyPublishRequests
  · have bad : answer.serviceResult ≠ good := by
      rw [tooMany]
      decide
    rw [if_pos tooMany, silent bad]
    by_cases several : client.outStandingPublishRequests > 1
    · rw [if_pos several]
      exact ((answering bad).configure client.session client.subscriptions _).backgroundPublish
        memory
    · rw [if_neg several]
      refine ⟨_, rfl, ?_⟩
      exact (balanced.answer member idle rfl rfl fun _ => rfl).configure client.session _ _
  rw [if_neg tooMany]
  by_cases shutdown : answer.serviceResult = badShutdown
  · have bad : answer.serviceResult ≠ good := by
      rw [shutdown]
      decide
    rw [if_pos shutdown, silent bad]
    exact (answering bad).backgroundPublish memory
  rw [if_neg shutdown]
  by_cases none : client.subscriptions = []
  · rw [if_pos none]
    exact (balanced.acknowledge member idle answer false).backgroundPublish memory
  rw [if_neg none]
  by_cases closed : answer.serviceResult = badSessionClosed
  · have bad : answer.serviceResult ≠ good := by
      rw [closed]
      decide
    rw [if_pos closed, silent bad]
    exact (answering bad).backgroundPublish memory
  rw [if_neg closed]
  by_cases invalid : answer.serviceResult = badSessionIdInvalid
  · have bad : answer.serviceResult ≠ good := by
      rw [invalid]
      decide
    rw [if_pos invalid, silent bad]
    exact (answering bad).close.backgroundPublish memory
  rw [if_neg invalid]
  by_cases bad : answer.serviceResult ≠ good
  · rw [if_pos bad, silent bad]
    exact (answering bad).backgroundPublish memory
  rw [if_neg bad]
  by_cases unknown : answer.subscriptionId ∉ client.subscriptions
  · rw [if_pos unknown]
    exact (balanced.acknowledge member idle answer false).backgroundPublish memory
  · rw [if_neg unknown]
    exact (balanced.acknowledge member idle answer answer.memory).backgroundPublish memory

theorem Balanced.sent {acks : List Acknowledgement} (top : client.frames = .sending acks :: frames)
    :
    { client with
      asyncServiceCalls := client.unused :: client.asyncServiceCalls
      unused := client.unused + 1
      sent := acks :: client.sent
      frames := frames }.Balanced := by
  have answered : client.answered = frames.filterMap PublishFrame.call? := by
    rw [PublishingClient.answered, top]
    rfl
  have inSending : client.inSending = acks :: frames.filterMap PublishFrame.acks? := by
    rw [PublishingClient.inSending, top]
    rfl
  constructor
  · have counted := balanced.counted
    rw [answered, inSending, length_cons] at counted
    change client.currentlyOutStandingPublishRequests.toNat
        + (frames.filterMap PublishFrame.call?).length
      = (client.asyncServiceCalls.length + 1) + (frames.filterMap PublishFrame.acks?).length
    omega
  · exact nodup_cons.mpr ⟨fun inside => Nat.lt_irrefl _ (balanced.known _ inside), balanced.nodup⟩
  · rw [forall_mem_cons]
    exact ⟨Nat.lt_succ_self _, fun call inside => Nat.lt_succ_of_lt (balanced.known call inside)⟩
  · have once := balanced.once
    rw [answered] at once
    exact once
  · have listed := balanced.listed
    rw [answered] at listed
    exact fun call inside => mem_cons_of_mem _ (listed call inside)
  · intro ack
    have placed := balanced.placed ack
    rw [inSending, flatten_cons, count_append] at placed
    change (acks ++ client.sent.flatten).count ack
      + (frames.filterMap PublishFrame.acks?).flatten.count ack
      + client.pendingNotificationsAcks.count ack + client.dropped.count ack
        = client.received.count ack
    rw [count_append]
    omega

theorem Balanced.deleted {sub : Option (BitVec 32)}
    (top : client.frames = .deleting call sub :: frames) :
    { client with frames := .answering call :: frames }.Balanced := by
  have answered : client.answered = (.answering call :: frames).filterMap PublishFrame.call? := by
    rw [PublishingClient.answered, top]
    rfl
  have inSending : client.inSending = (.answering call :: frames).filterMap PublishFrame.acks? := by
    rw [PublishingClient.inSending, top]
    rfl
  have counted := balanced.counted
  have once := balanced.once
  have listed := balanced.listed
  have placed := balanced.placed
  rw [answered] at counted once listed
  rw [inSending] at counted placed
  exact ⟨counted, balanced.nodup, balanced.known, once, listed, placed⟩

end

theorem idle_empty (idle : client.frames = []) : client.answered = [] ∧ client.inSending = [] := by
  rw [PublishingClient.answered, PublishingClient.inSending, idle]
  exact ⟨rfl, rfl⟩

theorem Balanced.connect (balanced : client.Balanced) (idle : client.frames = []) :
    { client.removeAll with currentlyOutStandingPublishRequests := 0 }.Balanced := by
  obtain ⟨answered, inSending⟩ := idle_empty idle
  constructor
  · change 0 + client.answered.length = 0 + client.inSending.length
    rw [answered, inSending]
    rfl
  · exact nodup_nil
  · exact forall_mem_nil _
  · exact balanced.once
  · change ∀ call ∈ client.answered, call ∈ []
    rw [answered]
    exact forall_mem_nil _
  · exact balanced.placed

def Regular (client : PublishingClient) : PublishEvent → Prop
  | .response call _ _ => call ∉ client.answered
  | .sent good _ => good = true
  | _ => True

theorem Balanced.step (balanced : client.Balanced) {event : PublishEvent}
    (regular : client.Regular event) {after : PublishingClient}
    (steps : client.step event = some after) : after.Balanced := by
  -- What a step that is defined returns is what the lemma of the step returns.
  have settle {result : Option PublishingClient}
      (found : ∃ next, result = some next ∧ next.Balanced) (same : result = some after) :
      after.Balanced := by
    obtain ⟨next, equal, holds⟩ := found
    rw [same] at equal
    exact Option.some.inj equal ▸ holds
  cases event with
  | publish memory =>
    rw [PublishingClient.step] at steps
    split_ifs at steps
    exact settle (balanced.backgroundPublish memory) steps
  | response call answer memory =>
    rw [PublishingClient.step] at steps
    split_ifs at steps with waits member
    · exact settle (balanced.processPublishResponse member regular answer memory) steps
    · exact Option.some.inj steps ▸ balanced
  | sent good memory =>
    have good : good = true := regular
    subst good
    rw [PublishingClient.step] at steps
    split at steps
    case h_1 acks frames top => exact settle ((balanced.sent top).backgroundPublish memory) steps
    case h_2 => exact absurd steps (Option.some_ne_none after).symm
  | deleted removed memory =>
    rw [PublishingClient.step] at steps
    split at steps
    case h_1 call sub frames top =>
      exact settle (((balanced.deleted top).configure client.session _ _).backgroundPublish
        memory) steps
    case h_2 => exact absurd steps (Option.some_ne_none after).symm
  | closeSession =>
    rw [PublishingClient.step] at steps
    split_ifs at steps
    exact Option.some.inj steps ▸ balanced.configure false _ _
  | close => exact Option.some.inj steps ▸ balanced.close
  | connect =>
    rw [PublishingClient.step] at steps
    split_ifs at steps with busy
    have idle := not_not.mp (not_or.mp busy).1
    exact Option.some.inj steps ▸ balanced.connect idle
  | createSession =>
    rw [PublishingClient.step] at steps
    split_ifs at steps
    exact Option.some.inj steps ▸ balanced.clean.configure true _ _
  | createSubscription subscriptionId =>
    rw [PublishingClient.step] at steps
    split_ifs at steps
    exact Option.some.inj steps ▸ balanced.configure client.session _ _
  | deleteSubscription subscriptionId =>
    rw [PublishingClient.step] at steps
    split_ifs at steps
    exact Option.some.inj steps ▸ balanced.configure client.session _ _

theorem balanced_of_reached {outStandingPublishRequests : BitVec 16}
    (reached : Reached step Regular (init outStandingPublishRequests) client) :
    client.Balanced := by
  apply reached.invariant (.init outStandingPublishRequests)
  intro _ _ _ balanced regular steps
  exact balanced.step regular steps

/-! What the client drops -/

/-- Nothing is stored for a subscription that the client does not have, or without memory. -/
def unstored (client : PublishingClient) (answer : PublishAnswer) : List Acknowledgement :=
  if answer.listed && !(client.subscriptions.contains answer.subscriptionId && answer.memory) then
    [answer.ack]
  else []

/-- Responses drop what is not stored. The list is cleaned when the connection is closed, for a new
session, and when the server does not know the session. -/
def drops (client : PublishingClient) : PublishEvent → List Acknowledgement
  | .response call answer _ =>
    if call ∉ client.asyncServiceCalls then []
    else if answer.serviceResult = badSessionIdInvalid ∧ client.subscriptions ≠ [] then
      client.pendingNotificationsAcks
    else client.unstored answer
  | .close | .createSession => client.pendingNotificationsAcks
  | _ => []

section

variable {after : PublishingClient}

theorem leave_dropped (left : client.leave = some after) : after.dropped = client.dropped := by
  rw [PublishingClient.leave] at left
  split at left
  · split_ifs at left
    exact Option.some.inj left ▸ rfl
  · exact Option.some.inj left ▸ rfl

theorem backgroundPublish_dropped {memory : Bool}
    (published : client.backgroundPublish memory = some after) :
    after.dropped = client.dropped := by
  rw [PublishingClient.backgroundPublish] at published
  split_ifs at published
  · exact leave_dropped published
  · exact leave_dropped published
  · exact leave_dropped published
  · exact Option.some.inj published ▸ rfl
  · exact leave_dropped published

theorem acknowledge_dropped (answer : PublishAnswer) (stored : Bool) :
    (client.acknowledge answer stored).dropped =
      (if answer.listed ∧ stored = false then [answer.ack] else []) ++ client.dropped := by
  rw [PublishingClient.acknowledge]
  cases answer.listed <;> cases stored <;> rfl

theorem unstored_silent {answer : PublishAnswer} (bad : answer.serviceResult ≠ good) :
    client.unstored answer = [] := by
  rw [unstored, PublishAnswer.listed, decide_eq_false bad, Bool.false_and, Bool.false_and, if_neg]
  exact Bool.false_ne_true

theorem processPublishResponse_dropped {answer : PublishAnswer} {memory : Bool}
    (processed : client.processPublishResponse call answer memory = some after) :
    after.dropped = (if answer.serviceResult = badSessionIdInvalid ∧ client.subscriptions ≠ [] then
      client.pendingNotificationsAcks else client.unstored answer) ++ client.dropped := by
  rw [PublishingClient.processPublishResponse] at processed
  by_cases invalid : answer.serviceResult = badSessionIdInvalid ∧ client.subscriptions ≠ []
  · rw [if_pos invalid]
    rw [invalid.1, if_neg (by decide), if_neg (by decide), if_neg invalid.2, if_neg (by decide),
      if_pos rfl] at processed
    exact (backgroundPublish_dropped processed).trans rfl
  rw [if_neg invalid]
  by_cases bad : answer.serviceResult ≠ good
  · rw [unstored_silent bad]
    have silent : answer.listed = false := by
      rw [PublishAnswer.listed, decide_eq_false bad, Bool.false_and]
    by_cases tooMany : answer.serviceResult = badTooManyPublishRequests
    · rw [if_pos tooMany] at processed
      by_cases several : client.outStandingPublishRequests > 1
      · rw [if_pos several] at processed
        exact (backgroundPublish_dropped processed).trans rfl
      · rw [if_neg several] at processed
        exact Option.some.inj processed ▸ rfl
    rw [if_neg tooMany] at processed
    by_cases shutdown : answer.serviceResult = badShutdown
    · rw [if_pos shutdown] at processed
      exact (backgroundPublish_dropped processed).trans rfl
    rw [if_neg shutdown] at processed
    by_cases none : client.subscriptions = []
    · rw [if_pos none, acknowledge, silent] at processed
      exact (backgroundPublish_dropped processed).trans rfl
    rw [if_neg none, if_neg (fun same => invalid ⟨same, none⟩), if_pos bad, ite_self] at processed
    exact (backgroundPublish_dropped processed).trans rfl
  · have equal := not_not.mp bad
    rw [equal, if_neg (by decide), if_neg (by decide)] at processed
    have unknown (absent : answer.subscriptionId ∉ client.subscriptions) :
        client.unstored answer = if answer.listed ∧ false = false then [answer.ack] else [] := by
      simp [unstored, absent]
    by_cases none : client.subscriptions = []
    · rw [if_pos none] at processed
      rw [backgroundPublish_dropped processed, acknowledge_dropped, unknown (by simp [none])]
    rw [if_neg none, if_neg (by decide), if_neg (by decide), if_neg (not_not_intro rfl)] at processed
    by_cases member : answer.subscriptionId ∈ client.subscriptions
    · rw [if_neg (not_not_intro member)] at processed
      rw [backgroundPublish_dropped processed, acknowledge_dropped, unstored]
      simp [member]
    · rw [if_pos member] at processed
      rw [backgroundPublish_dropped processed, acknowledge_dropped, unknown member]

theorem step_dropped {event : PublishEvent} (steps : client.step event = some after) :
    after.dropped = client.drops event ++ client.dropped := by
  cases event with
  | publish memory =>
    rw [PublishingClient.step] at steps
    split_ifs at steps
    exact backgroundPublish_dropped steps
  | response call answer memory =>
    rw [PublishingClient.step] at steps
    rw [drops]
    split_ifs at steps with waits member
    · rw [if_neg (not_not_intro member)]
      exact processPublishResponse_dropped steps
    · rw [if_pos member]
      exact Option.some.inj steps ▸ rfl
  | sent good memory =>
    rw [PublishingClient.step] at steps
    split at steps
    case h_1 acks frames top =>
      cases good with
      | true => exact (backgroundPublish_dropped steps).trans rfl
      | false => exact (leave_dropped steps).trans rfl
    case h_2 => exact absurd steps (Option.some_ne_none after).symm
  | deleted removed memory =>
    rw [PublishingClient.step] at steps
    split at steps
    case h_1 call sub frames top => exact (backgroundPublish_dropped steps).trans rfl
    case h_2 => exact absurd steps (Option.some_ne_none after).symm
  | close => exact Option.some.inj steps ▸ rfl
  | _ =>
    rw [PublishingClient.step] at steps
    split_ifs at steps
    exact Option.some.inj steps ▸ rfl

end

/-- The counter is the number of the calls, and what was received is in a request that was sent or
pending. -/
structure Settled (client : PublishingClient) : Prop where
  counted : client.currentlyOutStandingPublishRequests.toNat = client.asyncServiceCalls.length
  acknowledged : (client.sent.flatten ++ client.pendingNotificationsAcks).Perm client.received

/-- Over every run the counter is the number of the calls, up to the callbacks that run and the
requests that are sent just now. It does not wrap, and what was received is sent, pending or
dropped, each once. No step drops more than `drops` says. -/
theorem publishing_balanced {outStandingPublishRequests : BitVec 16}
    (reached : Reached step Regular (init outStandingPublishRequests) client) :
    client.currentlyOutStandingPublishRequests.toNat + client.answered.length
        = client.asyncServiceCalls.length + client.inSending.length
      ∧ (∀ call ∈ client.asyncServiceCalls, call ∉ client.answered →
        0 < client.currentlyOutStandingPublishRequests.toNat)
      ∧ (client.sent.flatten ++ client.inSending.flatten ++ client.pendingNotificationsAcks
        ++ client.dropped).Perm client.received
      ∧ (client.frames = [] → client.dropped = [] → client.Settled)
      ∧ ∀ event after, client.step event = some after →
        after.dropped = client.drops event ++ client.dropped := by
  have balanced := balanced_of_reached reached
  have placed : (client.sent.flatten ++ client.inSending.flatten
      ++ client.pendingNotificationsAcks ++ client.dropped).Perm client.received := by
    rw [perm_iff_count]
    intro ack
    rw [count_append, count_append, count_append]
    exact balanced.placed ack
  refine ⟨balanced.counted, fun call member idle => balanced.outstanding member idle, placed, ?_,
    fun event after steps => step_dropped steps⟩
  intro idle kept
  obtain ⟨answered, inSending⟩ := idle_empty idle
  constructor
  · have counted := balanced.counted
    rw [answered, inSending] at counted
    exact counted
  · rw [inSending, kept] at placed
    simpa only [flatten_nil, append_nil] using placed

instance (client : PublishingClient) : DecidablePred client.Regular
  | .response call _ _ => inferInstanceAs (Decidable (call ∉ client.answered))
  | .sent good _ => inferInstanceAs (Decidable (good = true))
  | .publish _ | .deleted _ _ | .closeSession | .close | .connect | .createSession
  | .createSubscription _ | .deleteSubscription _ => inferInstanceAs (Decidable True)

theorem nextRequest_acknowledges :
    ∃ client, Reached step Regular (init 1) client ∧ client.frames = [] ∧ client.Settled
      ∧ client.sent = [[⟨7, 1⟩], []] := by
  let events : List PublishEvent := [.connect, .createSession, .createSubscription 7,
    .publish true, .sent true true, .response 0 ⟨good, 7, 1, [1], true⟩ true, .sent true true]
  have runs : (run step Regular (init 1) events).isSome := by decide
  have reached := (Reached.start : Reached step Regular (init 1) (init 1)).run (Option.some_get runs).symm
  exact ⟨_, reached, rfl, (publishing_balanced reached).2.2.2.1 rfl rfl, rfl⟩

/-- A response that comes while the client disconnects is not acknowledged any more: the list is
cleaned. -/
theorem disconnect_dropsAcknowledgement : ∃ client, Reached step Regular (init 1) client
      ∧ client.frames = [] ∧ client.received = [⟨7, 1⟩] ∧ client.sent.flatten = []
      ∧ client.pendingNotificationsAcks = [] ∧ ¬ client.Settled := by
  let events : List PublishEvent := [.connect, .createSession, .createSubscription 7,
    .publish true, .sent true true, .closeSession,
    .response 0 ⟨good, 7, 1, [1], true⟩ true, .close]
  have runs : (run step Regular (init 1) events).isSome := by decide
  have reached := (Reached.start : Reached step Regular (init 1) (init 1)).run (Option.some_get runs).symm
  refine ⟨_, reached, rfl, rfl, rfl, rfl, fun settled => ?_⟩
  have length : 0 = 1 := settled.acknowledged.length_eq
  exact Nat.zero_ne_one length

end PublishingClient

end OpcUa
