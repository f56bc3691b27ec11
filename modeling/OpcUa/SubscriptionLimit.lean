import OpcUa.PublishAttempts

/-!
The limit for the subscriptions of a session. The request for a new subscription is refused by the
count of the publish requests that wait, not by the count of the subscriptions. The limit holds as
long as the two counts are on the same side of it whenever a subscription is created.
-/

namespace OpcUa

open Subscription

variable {Content : Type}

namespace Session

def NoMore (session after : Session Content) : Prop :=
  after.serverSubscriptions.length ≤ session.serverSubscriptions.length

section Steps

variable {config : SubscriptionConfig} {session after : Session Content}

theorem Thins.noMore (thins : Thins session after) : NoMore session after := by
  have shorter := thins.tags.length_le
  rwa [Session.tags, Session.tags, List.length_map, List.length_map] at shorter

theorem serveLate_noMore (intact : Intact config session) {memory : List Bool}
    (serves : session.serveLate config memory = some after) : NoMore session after := by
  rw [serveLate] at serves
  split at serves
  · injection serves with same
    exact same ▸ Nat.le_refl _
  · rename_i sub found
    have same : SameSubscriptions session
        { session with lastSeenSubscriptionId := sub.subscriptionId } := ⟨rfl, rfl, rfl, rfl⟩
    have advances : Advances config session _ := same.advances intact.toListed
    have rounds := publishRounds_thins (advances.intact intact) serves
    exact rounds.noMore

theorem step_noMore (intact : Intact config session) {step : SessionStep Content}
    (notCreate : ∀ publishingEnabled settings memory,
      step ≠ .request (.createSubscription publishingEnabled settings memory))
    (steps : session.step config step = some after) : NoMore session after := by
  cases step_does intact steps with
  | keeps _ keeps => exact keeps.stems.thins.noMore
  | creates => exact absurd rfl (notCreate _ _ _)
  | deletes stems => exact stems.thins.noMore
  | publishes _ _ keeps intact serves =>
    exact Nat.le_trans (serveLate_noMore intact serves) keeps.stems.thins.noMore
  | calls _ _ keeps intact publishes =>
    exact Nat.le_trans (publishRounds_thins intact publishes).noMore keeps.stems.thins.noMore

def CountsAgree (config : SubscriptionConfig) (session : Session Content) : Prop :=
  config.maxSubscriptionsPerSession ≤ session.numPublishReq ↔
    config.maxSubscriptionsPerSession ≤ session.numSubscriptions

theorem createSubscription_limited (listed : Listed session) (agree : CountsAgree config session)
    (limited : config.maxSubscriptionsPerSession ≠ 0)
    (few : session.serverSubscriptions.length ≤ config.maxSubscriptionsPerSession)
    (publishingEnabled : Bool) (settings : SubscriptionSettings) (memory : Bool) :
    (session.createSubscription config publishingEnabled settings
      memory).2.serverSubscriptions.length ≤ config.maxSubscriptionsPerSession := by
  rw [createSubscription]
  split
  · exact few
  · rename_i space
    have less : ¬ config.maxSubscriptionsPerSession ≤ session.numPublishReq :=
      fun full => space ⟨limited, full⟩
    rw [CountsAgree] at agree
    rw [agree, listed.count] at less
    split
    · exact few
    · exact Nat.lt_of_not_le less

theorem createSubscription_refused {publishingEnabled : Bool} {settings : SubscriptionSettings}
    {memory : Bool} {subscriptionId : BitVec 32}
    (refused : (session.createSubscription config publishingEnabled settings memory).1 =
      (.badTooManySubscriptions, subscriptionId)) :
    config.maxSubscriptionsPerSession ≤ session.numPublishReq := by
  rw [createSubscription] at refused
  split at refused
  · rename_i full
    exact full.2
  · split at refused
    · injection refused with status
      cases status
    · injection refused with status
      cases status

end Steps

end Session

open Session

inductive AgreeingRun (config : SubscriptionConfig) : Session Content → Prop
  | start : AgreeingRun config Session.new
  | step {session after} (step : SessionStep Content) (run : AgreeingRun config session)
      (agree : ∀ publishingEnabled settings memory,
        step = .request (.createSubscription publishingEnabled settings memory) →
          CountsAgree config session)
      (steps : session.step config step = some after) : AgreeingRun config after

theorem AgreeingRun.sessionRun {config : SubscriptionConfig} {session : Session Content}
    (run : AgreeingRun config session) : SessionRun config session := by
  induction run with
  | start => exact .start
  | step step _ _ steps ih => exact .step step ih steps

/-- The limit holds, and a request for a subscription is refused only when it is reached. -/
theorem subscriptions_limited {config : SubscriptionConfig}
    (limited : config.maxSubscriptionsPerSession ≠ 0) {session : Session Content}
    (run : AgreeingRun config session) :
    session.serverSubscriptions.length ≤ config.maxSubscriptionsPerSession ∧
      session.numSubscriptions = session.serverSubscriptions.length ∧
      (CountsAgree config session → ∀ publishingEnabled settings memory subscriptionId,
        (session.createSubscription config publishingEnabled settings memory).1 =
          (.badTooManySubscriptions, subscriptionId) →
        config.maxSubscriptionsPerSession ≤ session.serverSubscriptions.length) := by
  have count := run.sessionRun.intact.count
  refine ⟨?_, count, ?_⟩
  · induction run with
    | start => exact Nat.zero_le _
    | @step session after step run agree steps ih =>
      have intact := run.sessionRun.intact
      have few := ih intact.count
      by_cases creates : ∃ publishingEnabled settings memory,
          step = .request (.createSubscription publishingEnabled settings memory)
      · obtain ⟨publishingEnabled, settings, memory, rfl⟩ := creates
        rw [Session.step] at steps
        split at steps
        · injection steps with same
          exact same ▸ few
        · injection steps with same
          subst same
          exact createSubscription_limited intact.toListed
            (agree publishingEnabled settings memory rfl) limited few publishingEnabled settings
            memory
      · refine Nat.le_trans (step_noMore intact ?_ steps) few
        rintro publishingEnabled settings memory rfl
        exact creates ⟨publishingEnabled, settings, memory, rfl⟩
  · intro agree publishingEnabled settings memory subscriptionId refused
    rw [← count]
    exact agree.mp (createSubscription_refused refused)

def limitedConfig (limit : Nat) : SubscriptionConfig :=
  { defaultConfig with maxSubscriptionsPerSession := limit }

theorem secondSubscription_refused : ∃ session : Session Nat,
    AgreeingRun (limitedConfig 1) session ∧
      (session.createSubscription (limitedConfig 1) true ⟨100, 10, 0⟩ true).1 =
        (.badTooManySubscriptions, 0) ∧
      session.serverSubscriptions.length ≤ 1 ∧ session.numSubscriptions = 1 := by
  have attached : AgreeingRun (limitedConfig 1)
      { (Session.new : Session Nat) with channel := some 1 } :=
    .step (.attachToSecureChannel 1) .start (fun _ _ _ => nofun) rfl
  have created := AgreeingRun.step (.request (.createSubscription true ⟨100, 10, 0⟩ true)) attached
    (fun _ _ _ _ => by rw [CountsAgree]; decide) rfl
  have waiting := AgreeingRun.step (.request (.publish (publishRequest 1))) created
    (fun _ _ _ => nofun) rfl
  exact ⟨_, waiting, rfl, (subscriptions_limited (by decide) waiting).1, rfl⟩

/-- Without a request that waits, a second subscription is created over the limit of one. With two
requests that wait, a second one is refused below the limit of two. -/
theorem subscriptionLimit_missed : (Session.new.run (limitedConfig 1) [.attachToSecureChannel 1,
        .request (.createSubscription true ⟨100, 10, 0⟩ true),
        .request (.createSubscription true ⟨100, 10, 0⟩ true)]).map
          (fun session : Session Nat => session.serverSubscriptions.length) = some 2 ∧
      (Session.new.run (limitedConfig 2) [.attachToSecureChannel 1,
        .request (.createSubscription true ⟨100, 10, 0⟩ true),
        .request (.publish (publishRequest 1)), .request (.publish (publishRequest 2))]).map
          (fun session : Session Nat => (session.serverSubscriptions.length,
            (session.createSubscription (limitedConfig 2) true ⟨100, 10, 0⟩ true).1)) =
        some (1, .badTooManySubscriptions, 0) := by
  constructor
  · decide +kernel
  · decide +kernel

end OpcUa
