import OpcUa.Delivery

/-!
Every publish request is answered once, in the order of arrival. A session sends a response or an
error for the request at the head of its queue, or for a request that does not enter the queue. The
responses go to the channel of the session. So they find their requests as long as the session
does not change its channel in between, and as long as there is memory for the requests: the errors
for a request without memory have the request id and the handle in each other's place.
-/

namespace OpcUa

open Subscription List

variable {Content : Type}

structure PublishArrival where
  channel : Option Nat
  requestId : BitVec 32
  requestHandle : BitVec 32
deriving DecidableEq, Repr

def PublishResponseEntry.request (entry : PublishResponseEntry) : PublishArrival :=
  ⟨entry.arrival, entry.requestId, entry.requestHandle⟩

def PublishResponse.request (response : PublishResponse Content) : PublishArrival :=
  ⟨response.channel, response.requestId, response.requestHandle⟩

def PublishRequest.HasMemory (request : PublishRequest) : Prop :=
  request.entryMemory = true ∧
    (request.subscriptionAcknowledgements = [] ∨ request.resultsMemory = true)

namespace Session

def requests (session : Session Content) : List PublishArrival :=
  session.sent.map PublishResponse.request ++ session.responseQueue.map PublishResponseEntry.request

structure Answered (received : List PublishArrival) (session : Session Content) : Prop where
  account : session.requests = received
  count : session.numPublishReq = session.responseQueue.length
  attached : ∀ channel, session.channel = some channel →
    ∀ entry ∈ session.responseQueue, entry.arrival = some channel
  served : session.serverSubscriptions = [] → session.responseQueue = []

structure SameRequests (session after : Session Content) : Prop where
  channel : after.channel = session.channel
  responseQueue : after.responseQueue = session.responseQueue
  numPublishReq : after.numPublishReq = session.numPublishReq
  sent : after.sent = session.sent

structure Undisturbed (session after : Session Content) : Prop
    extends SameRequests session after where
  length : after.serverSubscriptions.length = session.serverSubscriptions.length

section Undisturbed

variable {session middle after : Session Content} {received : List PublishArrival}

theorem SameRequests.refl (session : Session Content) : SameRequests session session :=
  ⟨rfl, rfl, rfl, rfl⟩

theorem SameRequests.trans (first : SameRequests session middle)
    (second : SameRequests middle after) : SameRequests session after :=
  ⟨second.channel.trans first.channel, second.responseQueue.trans first.responseQueue,
    second.numPublishReq.trans first.numPublishReq, second.sent.trans first.sent⟩

theorem Undisturbed.populated (undisturbed : Undisturbed session after)
    (none : after.serverSubscriptions = []) : session.serverSubscriptions = [] := by
  have length := undisturbed.length
  rw [none] at length
  exact length_eq_zero_iff.mp length.symm

theorem SameRequests.answered (same : SameRequests session after)
    (answered : Answered received session)
    (served : after.serverSubscriptions = [] → session.responseQueue = []) :
    Answered received after where
  account := by
    rw [requests, same.sent, same.responseQueue]
    exact answered.account
  count := by
    rw [same.numPublishReq, same.responseQueue]
    exact answered.count
  attached := by
    rw [same.channel, same.responseQueue]
    exact answered.attached
  served := by
    rw [same.responseQueue]
    exact served

theorem Undisturbed.answered (undisturbed : Undisturbed session after)
    (answered : Answered received session) : Answered received after :=
  undisturbed.toSameRequests.answered answered fun none =>
    answered.served (undisturbed.populated none)

theorem setSubscription_undisturbed (session : Session Content) (sub : Subscription Content) :
    Undisturbed session (session.setSubscription sub) where
  channel := rfl
  responseQueue := rfl
  numPublishReq := rfl
  sent := rfl
  length := length_map _

theorem Updates.undisturbed {config : SubscriptionConfig} (updates : Updates config session after) :
    Undisturbed session after := by
  obtain ⟨change, rfl, -⟩ := updates
  exact ⟨⟨rfl, rfl, rfl, rfl⟩, length_map _⟩

end Undisturbed

section Services

variable {config : SubscriptionConfig} {session after : Session Content}
  {received : List PublishArrival}
variable {memory : Bool} {subscriptionId : BitVec 32} {channel : Nat}
variable {entry : PublishResponseEntry} {rest : List PublishResponseEntry}

theorem createSubscription_requests (config : SubscriptionConfig) (session : Session Content)
    (publishingEnabled : Bool) (settings : SubscriptionSettings) (memory : Bool) :
    SameRequests session
      (session.createSubscription config publishingEnabled settings memory).2 := by
  rw [createSubscription]
  split
  · exact .refl session
  split
  · exact .refl session
  · exact ⟨rfl, rfl, rfl, rfl⟩

theorem createSubscription_populated {publishingEnabled : Bool} {settings : SubscriptionSettings}
    (none : (session.createSubscription config publishingEnabled settings
      memory).2.serverSubscriptions = []) : session.serverSubscriptions = [] := by
  rw [createSubscription] at none
  split at none
  · exact none
  split at none
  · exact none
  · cases none

theorem deleteSubscription_requests {status : StatusCode}
    (deletes : session.deleteSubscription subscriptionId memory = some (status, after)) :
    SameRequests session after := by
  rw [deleteSubscription] at deletes
  split at deletes
  · injection deletes with deletes
    injection deletes with _ same
    exact same ▸ .refl session
  · obtain ⟨sub, -, deletes⟩ := Option.bind_eq_some_iff.mp deletes
    split at deletes
    · injection deletes with deletes
      injection deletes with _ same
      exact same ▸ (setSubscription_undisturbed session sub).toSameRequests
    · split at deletes
      · cases deletes
      · injection deletes with deletes
        injection deletes with _ same
        exact same ▸ ⟨rfl, rfl, rfl, rfl⟩

theorem answerPublishRequestsNoSubscription_answered (attached : session.channel = some channel)
    (account : session.requests = received)
    (count : session.numPublishReq = session.responseQueue.length)
    (arrivals : ∀ entry ∈ session.responseQueue, entry.arrival = some channel) :
    Answered received session.answerPublishRequestsNoSubscription := by
  rw [answerPublishRequestsNoSubscription]
  split
  · refine ⟨?_, ?_, ?_, fun _ => rfl⟩
    · rw [← account, requests, requests]
      simp only [map_nil, append_nil, map_append, map_map, append_cancel_left_eq]
      apply map_congr_left
      intro entry waits
      rw [PublishResponseEntry.request, arrivals entry waits, ← attached]
      rfl
    · rw [count, Nat.sub_self]
      rfl
    · intro _ _ entry waits
      cases waits
  · rename_i populated
    refine ⟨account, count, ?_, ?_⟩
    · intro other same entry waits
      rw [arrivals entry waits, ← attached, same]
    · intro none
      rw [none] at populated
      exact absurd rfl populated

theorem deleteSubscriptions_answered (intact : Intact config session)
    (answered : Answered received session) (attached : session.channel = some channel)
    {subscriptionIds : List (BitVec 32 × Bool)} {results : StatusCode × List StatusCode}
    (deletes : session.serviceDeleteSubscriptions subscriptionIds memory =
      some (results, after)) : Answered received after := by
  obtain ⟨⟨others, middle⟩, processes, deletes⟩ := Option.bind_eq_some_iff.mp deletes
  injection deletes with deletes
  injection deletes with _ result
  subst result
  have same : SameRequests session middle :=
    ((deleteOperations_related SameRequests.refl SameRequests.trans
      (fun _ deletes => deleteSubscription_requests deletes) intact _ _).of_eq processes).1
  apply answerPublishRequestsNoSubscription_answered (same.channel.trans attached)
  · rw [requests, same.sent, same.responseQueue]
    exact answered.account
  · rw [same.numPublishReq, same.responseQueue]
    exact answered.count
  · rw [same.responseQueue]
    exact answered.attached channel attached

section

variable (answered : Answered received session)
include answered

theorem dequeued_answered (first : session.responseQueue = entry :: rest)
    (attached : session.channel = some channel) (same : after.channel = session.channel)
    (queue : after.responseQueue = rest) (count : after.numPublishReq = session.numPublishReq - 1)
    {response : PublishResponse Content} (sent : after.sent = session.sent ++ [response])
    (answers : response.request = ⟨session.channel, entry.requestId, entry.requestHandle⟩)
    (populated : after.serverSubscriptions = [] → session.serverSubscriptions = []) :
    Answered received after := by
  have arrivals := answered.attached channel attached
  rw [first] at arrivals
  have arrival := arrivals entry (mem_cons_self ..)
  refine ⟨?_, ?_, ?_, ?_⟩
  · rw [← answered.account, requests, requests, sent, queue, first, map_append,
      append_assoc, map_singleton, answers, attached, ← arrival]
    rfl
  · rw [count, answered.count, first, queue, length_cons, Nat.add_sub_cancel]
  · intro other there waiting member
    rw [same, attached] at there
    injection there with there
    rw [queue] at member
    rw [← there]
    exact arrivals waiting (mem_cons_of_mem _ member)
  · intro none
    have empty := answered.served (populated none)
    rw [first] at empty
    cases empty

theorem requeued_undisturbed (changed : Subscription Content) :
    Undisturbed session ((session.dequeuePublishReq.2.setSubscription changed).requeue
      session.dequeuePublishReq.1) := by
  cases queue : session.responseQueue with
  | nil =>
    have dequeued : session.dequeuePublishReq = (none, session) := by
      rw [dequeuePublishReq, queue]
    rw [dequeued]
    exact setSubscription_undisturbed session changed
  | cons entry rest =>
    have count := answered.count
    have dequeued : session.dequeuePublishReq = (some entry, { session with
        responseQueue := rest, numPublishReq := session.numPublishReq - 1 }) := by
      rw [dequeuePublishReq, queue]
    rw [queue, length_cons] at count
    rw [dequeued]
    refine ⟨⟨rfl, queue.symm, ?_, rfl⟩, length_map _⟩
    change session.numPublishReq - 1 + 1 = session.numPublishReq
    omega

theorem answered_answered (first : session.responseQueue = entry :: rest)
    (attached : session.channel = some channel) (final sub : Subscription Content) (more : Bool)
    (message : NotificationMessage Content) :
    Answered received (session.answered final (session.answer entry sub more message)) := by
  have dequeued : session.dequeuePublishReq = (some entry, { session with
      responseQueue := rest, numPublishReq := session.numPublishReq - 1 }) := by
    rw [dequeuePublishReq, first]
  rw [Session.answered, dequeued]
  exact dequeued_answered answered first attached rfl rfl rfl rfl rfl map_eq_nil_iff.mp

end

theorem PublishRound.answered {sub : Subscription Content} {again : Bool}
    (round : PublishRound config session sub memory again after)
    (answered : Answered received session) : Answered received after := by
  cases round with
  | @expires changed _ _ empty _ deletes =>
    have first := setSubscription_undisturbed session changed
    have second := deleteSubscription_requests deletes
    exact (first.toSameRequests.trans second).answered answered fun _ => empty
  | waits _ => exact (requeued_undisturbed answered _).answered answered
  | keepAlive first attached _ _ => exact answered_answered answered first attached _ _ _ _
  | message first attached _ _ _ _ _ _ _ => exact answered_answered answered first attached _ _ _ _

section

variable (intact : Intact config session) (answered : Answered received session)
include intact answered

theorem serveLate_answered {memory : List Bool}
    (serves : session.serveLate config memory = some after) : Answered received after := by
  rw [serveLate] at serves
  split at serves
  · injection serves with same
    exact same ▸ { answered with }
  · rename_i sub found
    have advances : Advances config session { session with
        lastSeenSubscriptionId := sub.subscriptionId } :=
      SameSubscriptions.advances ⟨rfl, rfl, rfl, rfl⟩ intact.toListed
    have same : Answered received { session with
        lastSeenSubscriptionId := sub.subscriptionId } := { answered with }
    exact publishRounds_kept PublishRound.answered (advances.intact intact) serves same

theorem queueRequest_answered (populated : session.serverSubscriptions ≠ [])
    {request : PublishRequest} (memory : request.HasMemory)
    (queues : session.queueRequest config request = some after) :
    Answered (received ++ [⟨session.channel, request.requestId, request.requestHandle⟩]) after := by
  have results : ¬ (request.subscriptionAcknowledgements ≠ [] ∧
      (!request.resultsMemory) = true) := by
    rintro ⟨some, missing⟩
    rcases memory.2 with none | there
    · exact some none
    · rw [there] at missing
      exact absurd missing (by decide)
  rw [queueRequest, if_neg (by rw [memory.1]; decide), if_neg results] at queues
  have updates : Updates config session _ :=
    acknowledge_updates request.subscriptionAcknowledgements intact.toListed
  generalize session.acknowledge request.subscriptionAcknowledgements = acknowledged
    at updates queues
  obtain ⟨statuses, middle⟩ := acknowledged
  have first : Undisturbed session middle := updates.undisturbed
  have kept := first.answered answered
  have intactMiddle := (updates.continues intact.toListed).intact intact
  refine serveLate_answered ?_ ?_ queues
  · have queued : Advances config middle (middle.queuePublishReq
        ⟨request.requestId, request.requestHandle, statuses, middle.channel⟩ false) :=
      SameSubscriptions.advances ⟨rfl, rfl, rfl, rfl⟩ intactMiddle.toListed
    exact queued.intact intactMiddle
  · refine ⟨?_, ?_, ?_, ?_⟩
    · rw [← kept.account, requests, requests, ← first.channel]
      simp [queuePublishReq, PublishResponseEntry.request]
    · have count := kept.count
      simp [queuePublishReq, count]
    · intro channel there entry waits
      rcases mem_append.mp waits with old | last
      · exact kept.attached channel there entry old
      · rw [mem_singleton.mp last]
        exact there
    · intro none
      exact absurd (first.populated none) populated

end

theorem reachedPublishReqLimit_answered (answered : Answered received session)
    (attached : session.channel = some channel) :
    Answered received session.reachedPublishReqLimit.2 := by
  cases queue : session.responseQueue with
  | nil =>
    have same : session.reachedPublishReqLimit.2 = session := by
      rw [reachedPublishReqLimit, dequeuePublishReq, queue]
    rw [same]
    exact answered
  | cons entry rest =>
    rw [reachedPublishReqLimit, dequeuePublishReq, queue]
    exact dequeued_answered answered queue attached rfl rfl rfl rfl rfl id

theorem reachedPublishReqLimit_true (answered : Answered received session) {limit : Nat}
    (positive : limit ≠ 0) (reached : session.numPublishReq ≥ limit) :
    session.reachedPublishReqLimit.1 = true := by
  cases queue : session.responseQueue with
  | nil =>
    have count := answered.count
    rw [queue, length_nil] at count
    omega
  | cons entry rest => rw [reachedPublishReqLimit, dequeuePublishReq, queue]


theorem servicePublish_answered (intact : Intact config session)
    (answered : Answered received session) (attached : session.channel = some channel)
    {request : PublishRequest} (memory : session.serverSubscriptions ≠ [] → request.HasMemory)
    (serves : session.servicePublish config request = some after) :
    Answered (received ++ [⟨session.channel, request.requestId, request.requestHandle⟩])
      after := by
  rw [servicePublish] at serves
  split at serves
  · -- No request waits in front of this one.
    rename_i empty
    have none := isEmpty_iff.mp empty
    injection serves with same
    subst same
    have queue := answered.served none
    refine ⟨?_, answered.count, answered.attached, answered.served⟩
    rw [← answered.account, requests, requests, subscriptionSendError, send, queue]
    simp [PublishResponse.request]
  · rename_i some
    have populated : session.serverSubscriptions ≠ [] := fun none => some (by rw [none]; rfl)
    split at serves
    · rename_i limited
      have kept := reachedPublishReqLimit_answered answered attached
      have reached := reachedPublishReqLimit_true answered limited.1 limited.2
      have same := reachedPublishReqLimit_same session
      have channels : session.reachedPublishReqLimit.2.channel = session.channel := by
        rw [reachedPublishReqLimit, dequeuePublishReq]
        cases session.responseQueue <;> rfl
      have advances : Advances config session _ := same.advances intact.toListed
      have subscriptions := same.serverSubscriptions
      generalize session.reachedPublishReqLimit = outcome at *
      obtain ⟨answer, middle⟩ := outcome
      subst reached
      rw [← channels]
      exact queueRequest_answered (advances.intact intact) kept (subscriptions ▸ populated)
        (memory populated) serves
    · exact queueRequest_answered intact answered populated (memory populated) serves

end Services

def arrivals (session : Session Content) : SessionStep Content → List PublishArrival
  | .request (.publish request) =>
    if session.channel.isNone then []
    else [⟨session.channel, request.requestId, request.requestHandle⟩]
  | _ => []

def Orderly (session : Session Content) : SessionStep Content → Prop
  | .request (.publish request) => session.serverSubscriptions ≠ [] → request.HasMemory
  | .attachToSecureChannel channel =>
    ∀ entry ∈ session.responseQueue, entry.arrival = some channel
  | _ => True

section Steps

variable {config : SubscriptionConfig} {session after : Session Content}
  {received : List PublishArrival}

section

variable (intact : Intact config session) (answered : Answered received session)
include intact answered

theorem request_answered {request : SessionRequest Content}
    (orderly : Orderly session (.request request)) {channel : Nat}
    (attached : session.channel = some channel) (serves : session.serve config request = some after)
    :
    Answered (received ++ session.arrivals (.request request)) after := by
  cases request with
  | publish publish =>
    have arrives : session.arrivals (.request (.publish publish)) =
        [⟨session.channel, publish.requestId, publish.requestHandle⟩] := by
      rw [arrivals, attached]
      rfl
    rw [arrives]
    exact servicePublish_answered intact answered attached orderly serves
  | createSubscription publishingEnabled settings memory =>
    change Answered (received ++ []) after
    rw [append_nil]
    injection serves with same
    subst same
    exact (createSubscription_requests config session publishingEnabled settings memory).answered
      answered fun none => answered.served (createSubscription_populated none)
  | deleteSubscriptions subscriptionIds memory =>
    change Answered (received ++ []) after
    rw [append_nil]
    obtain ⟨⟨results, result⟩, removes, rfl⟩ := Option.map_eq_some_iff.mp serves
    exact deleteSubscriptions_answered intact answered attached removes
  | _ =>
    change Answered (received ++ []) after
    rw [append_nil]
    exact ((serve_updates intact id).of_eq serves).undisturbed.answered answered

theorem step_answered {step : SessionStep Content} (orderly : Orderly session step)
    (steps : session.step config step = some after) :
    Answered (received ++ session.arrivals step) after := by
  cases step with
  | request request =>
    rw [Session.step] at steps
    cases attached : session.channel with
    | none =>
      rw [attached] at steps
      injection steps with same
      have none : session.arrivals (.request request) = [] := by
        cases request with
        | publish publish =>
          rw [arrivals, attached]
          rfl
        | _ => rfl
      rw [none, append_nil]
      exact same ▸ answered
    | some channel =>
      rw [attached] at steps
      exact request_answered intact answered orderly attached steps
  | publishCallback address memory =>
    change Answered (received ++ []) after
    rw [append_nil]
    rw [Session.step] at steps
    split at steps
    · injection steps with same
      exact same ▸ answered
    · rename_i sub found
      have set := setSubscription_undisturbed session
        { sub with readyNotifications := sub.notificationQueueSize }
      have advances := readied_advances intact (subscription_mem found).1
      exact publishRounds_kept PublishRound.answered (advances.intact intact) steps
        (set.answered answered)
  | attachToSecureChannel channel =>
    change Answered (received ++ []) after
    rw [append_nil]
    injection steps with same
    subst same
    refine { answered with attached := ?_ }
    intro other there entry waits
    injection there with there
    exact there ▸ orderly entry waits
  | detachFromSecureChannel =>
    change Answered (received ++ []) after
    rw [append_nil]
    injection steps with same
    subst same
    refine { answered with attached := ?_ }
    intro other there
    cases there
  | _ =>
    change Answered (received ++ []) after
    rw [append_nil]
    exact ((step_updates intact id id).of_eq steps).undisturbed.answered answered

end

end Steps

end Session

open Session

inductive PublishRun (config : SubscriptionConfig) :
    Session Content → List PublishArrival → Prop
  | start : PublishRun config Session.new []
  | step {session after received} (step : SessionStep Content)
      (run : PublishRun config session received) (orderly : Orderly session step)
      (steps : session.step config step = some after) :
      PublishRun config after (received ++ session.arrivals step)

namespace PublishRun

variable {config : SubscriptionConfig} {session : Session Content}
  {received : List PublishArrival}

theorem sessionRun (run : PublishRun config session received) : SessionRun config session := by
  induction run with
  | start => exact .start
  | step step _ _ steps ih => exact .step step ih steps

theorem answered (run : PublishRun config session received) : Answered received session := by
  induction run with
  | start =>
    refine ⟨rfl, rfl, ?_, fun _ => rfl⟩
    intro _ _ entry waits
    cases waits
  | step step run orderly steps ih => exact step_answered run.sessionRun.intact ih orderly steps

end PublishRun

/-- The requests that were received are those that were answered, each with its own ids on its own
channel, and behind them those that wait. -/
theorem publishRequests_answered {config : SubscriptionConfig} {session : Session Content}
    {received : List PublishArrival} (run : PublishRun config session received) :
    session.sent.map PublishResponse.request ++
        session.responseQueue.map PublishResponseEntry.request = received ∧
      session.numPublishReq = session.responseQueue.length :=
  ⟨run.answered.account, run.answered.count⟩

def createdSteps : List (SessionStep Nat) :=
  [.attachToSecureChannel 1, .request (.createSubscription true ⟨100, 10, 2⟩ true)]

theorem keepAlive_answered : ∃ session : Session Nat,
    PublishRun defaultConfig session [⟨some 1, 1, 101⟩, ⟨some 1, 2, 102⟩] ∧
      session.sent.length = 1 ∧
      session.sent.map PublishResponse.request ++
        session.responseQueue.map PublishResponseEntry.request =
          [⟨some 1, 1, 101⟩, ⟨some 1, 2, 102⟩] := by
  have attached : PublishRun defaultConfig { (Session.new : Session Nat) with channel := some 1 }
      [] := .step (.attachToSecureChannel 1) .start (fun _ waits => nomatch waits) rfl
  have created := PublishRun.step (.request (.createSubscription true ⟨100, 10, 2⟩ true)) attached
    trivial rfl
  have waiting := PublishRun.step (.request (.publish (publishRequest 1))) created
    (fun _ => ⟨rfl, .inl rfl⟩) rfl
  have answered := PublishRun.step (.publishCallback 0 []) waiting trivial rfl
  have run := PublishRun.step (.request (.publish (publishRequest 2))) answered
    (fun _ => ⟨rfl, .inl rfl⟩) rfl
  exact ⟨_, run, rfl, (publishRequests_answered run).1⟩

/-- Without memory for its entry, the request 1 with handle 101 is answered as 101 with handle 1.
After the session has gone to channel 2, the request that arrived on channel 1 is answered there. -/
theorem publishResponse_misdirected : (Session.new.run defaultConfig (createdSteps ++
        [.request (.publish { publishRequest 1 with entryMemory := false })])).map
          (fun session => session.sent.map PublishResponse.request) = some [⟨some 1, 101, 1⟩] ∧
      (Session.new.run defaultConfig (createdSteps ++
        [.request (.publish (publishRequest 1)), .attachToSecureChannel 2,
          .publishCallback 0 []])).map
          (fun session => session.sent.map PublishResponse.request) = some [⟨some 2, 1, 101⟩] := by
  constructor
  · decide +kernel
  · decide +kernel

end OpcUa
