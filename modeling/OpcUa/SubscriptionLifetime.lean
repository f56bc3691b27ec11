import OpcUa.Library.GuardedRuns
import OpcUa.PublishAttempts

/-!
The lifetime of subscriptions. It is three times the count for keep-alive messages or longer, unless
that is too great for a word. A subscription goes of itself only after more attempts to publish in a
row than its lifetime have found no request.
-/

namespace OpcUa

open Subscription Session List

variable {Content : Type}

def Subscription.Proportioned (sub : Subscription Content) : Prop :=
  3 * sub.maxKeepAliveCount.toNat ≤ sub.lifeTimeCount.toNat

def KeepAliveFits (limits : ValueRange (BitVec 32)) (requested : BitVec 32) : Prop :=
  if limits.max < requested then 3 * limits.max.toNat < 2 ^ 32
  else if requested < limits.min then 3 * limits.min.toNat < 2 ^ 32
  else 3 * requested.toNat < 2 ^ 32

theorem keepAliveFits_iff (limits : ValueRange (BitVec 32)) (requested : BitVec 32) :
    KeepAliveFits limits requested ↔ 3 * (limits.bound requested).toNat < 2 ^ 32 := by
  rw [KeepAliveFits, ValueRange.bound]
  split
  · exact Iff.rfl
  · split <;> exact Iff.rfl

theorem setSettings_proportioned (config : SubscriptionConfig) (sub : Subscription Content)
    (settings : SubscriptionSettings) :
    (sub.setSettings config settings).Proportioned ↔
      KeepAliveFits config.keepAliveCountLimits settings.requestedMaxKeepAliveCount := by
  rw [Proportioned, setSettings, keepAliveFits_iff]
  dsimp only
  generalize config.keepAliveCountLimits.bound settings.requestedMaxKeepAliveCount = keepAlive
  generalize config.lifeTimeCountLimits.bound settings.requestedLifetimeCount = lifeTime
  have product : (3 * keepAlive).toNat = 3 * keepAlive.toNat % 2 ^ 32 := by
    rfl
  have word := lifeTime.isLt
  constructor
  · intro least
    split at least <;> omega
  · intro fits
    split
    · omega
    · rename_i longer
      rw [BitVec.lt_def] at longer
      omega

def wordConfig : SubscriptionConfig :=
  { defaultConfig with keepAliveCountLimits := ⟨1, 0xFFFFFFFF⟩ }

theorem lifeTimeCount_wraps :
    (((Subscription.new 0 1 : Subscription Nat).setSettings wordConfig ⟨3, 0x55555556, 0⟩)
      |> fun sub => (sub.lifeTimeCount, sub.maxKeepAliveCount)) = (3, 0x55555556) ∧
    ¬((Subscription.new 0 1 : Subscription Nat).setSettings wordConfig
      ⟨3, 0x55555556, 0⟩).Proportioned := by
  constructor
  · decide +kernel
  · rw [Proportioned]
    decide +kernel

structure Attempt (Content : Type) where
  before : Session Content
  address : Nat
  after : Session Content

def Attempt.Deletes (attempt : Attempt Content) (sub : Subscription Content) : Prop :=
  sub ∈ attempt.before.serverSubscriptions ∧
    ∀ other ∈ attempt.after.serverSubscriptions, other.address ≠ sub.address

def misses (address : Nat) (attempts : List (Attempt Content)) : Nat :=
  attempts.foldl (fun count attempt =>
    if attempt.address = address then
      if attempt.before.responseQueue.isEmpty then count + 1 else 0
    else count) 0

theorem misses_append (address : Nat) (attempts : List (Attempt Content))
    (attempt : Attempt Content) :
    misses address (attempts ++ [attempt]) =
      if attempt.address = address then
        if attempt.before.responseQueue.isEmpty then misses address attempts + 1 else 0
      else misses address attempts := by
  rw [misses, foldl_append]
  rfl

namespace Session

variable {address : Nat} {memory : Bool} {step : SessionStep Content}

def publishAttempts (config : SubscriptionConfig) :
    Nat → Session Content → Nat → List Bool → List (Attempt Content)
  | 0, _, _, _ => []
  | rounds + 1, session, address, memory =>
    match session.publishOnce config address (memory.headD true) with
    | none => []
    | some (again, after) =>
      ⟨session, address, after⟩ ::
        if again then publishAttempts config rounds after address memory.tail else []

def lateAttempts (config : SubscriptionConfig) (session : Session Content) (memory : List Bool) :
    List (Attempt Content) :=
  match session.lateSubscription with
  | none => []
  | some sub =>
    publishAttempts config (session.responseQueue.length + 1)
      { session with lastSeenSubscriptionId := sub.subscriptionId } sub.address memory

def stepAttempts (config : SubscriptionConfig) (session : Session Content) :
    SessionStep Content → List (Attempt Content)
  | .publishCallback address memory =>
    match session.subscription address with
    | none => []
    | some sub =>
      publishAttempts config (session.responseQueue.length + 1)
        (session.setSubscription { sub with readyNotifications := sub.notificationQueueSize })
        sub.address memory
  | .request (.publish request) =>
    if session.channel.isNone then []
    else
      match session.accepted config request with
      | none => []
      | some waiting => waiting.lateAttempts config request.publishMemory
  | _ => []

/-! What the attempts leave -/

variable {config : SubscriptionConfig} {session middle after : Session Content}
  {sub changed : Subscription Content} {attempts : List (Attempt Content)}

/-- The count of a subscription is no more than the attempts that found no request, and what was
deleted by an attempt had no request for longer than its lifetime. -/
structure Counted (session : Session Content) (attempts : List (Attempt Content)) : Prop where
  distinct : session.ids.Nodup
  waited : ∀ sub ∈ session.serverSubscriptions,
    sub.currentLifetimeCount.toNat ≤ misses sub.address attempts
  expired : ∀ earlier attempt later, attempts = earlier ++ attempt :: later →
    ∀ sub, attempt.Deletes sub → sub.lifeTimeCount.toNat < misses sub.address (earlier ++ [attempt])

theorem Stems.counted (stems : Stems session after) (counted : Counted session attempts) :
    Counted after attempts where
  distinct := stems.distinct counted.distinct
  waited changed member := by
    obtain ⟨sub, present, renewed⟩ := stems.renewed changed member
    rw [renewed.address]
    exact renewed.count_le.trans (counted.waited sub present)
  expired := counted.expired

theorem Sets.addresses (sets : Sets session changed after) :
    after.serverSubscriptions.map Subscription.address =
      session.serverSubscriptions.map Subscription.address := by
  rw [sets.serverSubscriptions, setSubscription_addresses]

theorem not_deletes (addresses : after.serverSubscriptions.map Subscription.address =
      session.serverSubscriptions.map Subscription.address) :
    ¬Attempt.Deletes ⟨session, address, after⟩ sub := by
  rintro ⟨member, gone⟩
  have there : sub.address ∈ after.serverSubscriptions.map Subscription.address := by
    rw [addresses]
    exact mem_map_of_mem member
  obtain ⟨other, present, same⟩ := mem_map.mp there
  exact gone other present same

theorem deleted_address (intact : Intact config session) (distinct : session.ids.Nodup)
    (member : sub ∈ session.serverSubscriptions) {status : StatusCode}
    (deletes : session.deleteSubscription sub.subscriptionId memory = some (status, after))
    (listed : address ∈ session.serverSubscriptions.map Subscription.address)
    (absent : ∀ other ∈ after.serverSubscriptions, other.address ≠ address) :
    address = sub.address := by
  rcases deleteSubscription_lists intact deletes with keeps | ⟨gone, found, list, -, -⟩
  · rw [← keeps.addresses] at listed
    obtain ⟨other, present, same⟩ := mem_map.mp listed
    exact absurd same (absent other present)
  · rw [getSubscriptionById_unique distinct member] at found
    injection found with same
    by_contra different
    obtain ⟨other, present, rfl⟩ := mem_map.mp listed
    refine absent other ?_ rfl
    rw [list, ← same]
    exact mem_filter.mpr ⟨present, decide_eq_true different⟩

theorem expired_snoc {attempt : Attempt Content}
    (expired : ∀ earlier other later, attempts = earlier ++ other :: later →
      ∀ sub, other.Deletes sub → sub.lifeTimeCount.toNat < misses sub.address (earlier ++ [other]))
    (last : ∀ sub, attempt.Deletes sub →
      sub.lifeTimeCount.toNat < misses sub.address (attempts ++ [attempt]))
    {earlier later : List (Attempt Content)} {other : Attempt Content}
    (split : attempts ++ [attempt] = earlier ++ other :: later) (sub : Subscription Content)
    (deletes : other.Deletes sub) :
    sub.lifeTimeCount.toNat < misses sub.address (earlier ++ [other]) := by
  rcases eq_nil_or_concat later with rfl | ⟨front, final, rfl⟩
  · obtain ⟨rfl, same⟩ := append_inj' split rfl
    obtain rfl : attempt = other := by simpa using same
    exact last sub deletes
  · have regrouped : earlier ++ other :: (front ++ [final]) =
        (earlier ++ other :: front) ++ [final] := by simp
    rw [concat_eq_append, regrouped] at split
    obtain ⟨before, -⟩ := append_inj' split rfl
    exact expired earlier other front before sub deletes

theorem setSubscription_waited (counted : Counted session attempts)
    (found : session.subscription address = some sub) (same : changed.address = sub.address)
    (count : changed.currentLifetimeCount =
      if session.responseQueue = [] then sub.currentLifetimeCount + 1 else 0)
    (last : Session Content) :
    ∀ other ∈ (session.setSubscription changed).serverSubscriptions,
      other.currentLifetimeCount.toNat ≤
        misses other.address (attempts ++ [⟨session, address, last⟩]) := by
  obtain ⟨member, rfl⟩ := subscription_mem found
  intro other present
  rw [misses_append]
  rcases mem_setSubscription present with rfl | ⟨old, different⟩
  · rw [if_pos same.symm, count]
    have waited := counted.waited sub member
    by_cases empty : session.responseQueue = []
    · have successor : (sub.currentLifetimeCount + 1).toNat ≤ sub.currentLifetimeCount.toNat + 1 := by
        exact Nat.mod_le _ _
      rw [if_pos empty, if_pos (isEmpty_iff.mpr empty), same]
      exact Nat.le_trans successor (Nat.succ_le_succ waited)
    · rw [if_neg empty]
      exact Nat.zero_le _
  · rw [same] at different
    rw [if_neg different.symm]
    exact counted.waited other old

theorem publishOnce_counted (intact : Intact config session) (counted : Counted session attempts)
    {again : Bool} (publishes : session.publishOnce config address memory = some (again, after)) :
    Counted after (attempts ++ [⟨session, address, after⟩]) := by
  obtain ⟨sub, found, ⟨changed, same, sameId, count, sets⟩ | ⟨empty, expired, status, deletes⟩⟩ :=
    publishOnce_cases intact publishes
  · have member := (subscription_mem found).1
    refine ⟨?_, ?_, fun earlier other later split => ?_⟩
    · rw [← tags_ids, sets.tags intact.toListed member same sameId, tags_ids]
      exact counted.distinct
    · rw [sets.serverSubscriptions]
      exact setSubscription_waited counted found same count after
    · exact expired_snoc counted.expired
        (fun gone deletes => absurd deletes (not_deletes sets.addresses)) split
  · have member := (subscription_mem found).1
    obtain ⟨changed, counts⟩ : ∃ changed, changed =
        { sub with currentLifetimeCount := sub.currentLifetimeCount + 1 } := ⟨_, rfl⟩
    have only : SettingsOnly sub changed := by
      rw [counts]
      rfl
    have same : changed.address = sub.address := by rw [counts]
    have sameId : changed.subscriptionId = sub.subscriptionId := by rw [counts]
    have count : changed.currentLifetimeCount =
        if session.responseQueue = [] then sub.currentLifetimeCount + 1 else 0 := by
      rw [counts, if_pos empty]
    rw [← counts, ← sameId] at deletes
    have advances : Advances config session (session.setSubscription changed) :=
      setSubscription_advances intact.toListed member (.step (.settings only))
    have distinct : (session.setSubscription changed).ids.Nodup := by
      rw [← tags_ids, setSubscription_tags intact.toListed member same sameId, tags_ids]
      exact counted.distinct
    have waited := setSubscription_waited counted found same count after
    have stems := deleteSubscription_stems (advances.intact intact) deletes
    refine ⟨stems.distinct distinct, ?_, fun earlier other later split => ?_⟩
    · intro left present
      obtain ⟨before, there, renewed⟩ := stems.renewed left present
      rw [renewed.address]
      exact renewed.count_le.trans (waited before there)
    · refine expired_snoc counted.expired ?_ split
      rintro gone ⟨there, absent⟩
      have set := mem_setSubscription_self member same
      have listed : gone.address ∈
          (session.setSubscription changed).serverSubscriptions.map Subscription.address := by
        rw [setSubscription_addresses]
        exact mem_map_of_mem there
      have own := deleted_address (advances.intact intact) distinct set deletes listed absent
      have first : gone = sub := intact.toListed.address_unique (mem_append_left _ there)
        (mem_append_left _ member) (own.trans same)
      calc gone.lifeTimeCount.toNat
        _ = sub.lifeTimeCount.toNat := by rw [first]
        _ < (sub.currentLifetimeCount + 1).toNat := BitVec.lt_def.mp expired
        _ = changed.currentLifetimeCount.toNat := by rw [counts]
        _ ≤ misses changed.address (attempts ++ [⟨session, address, after⟩]) := waited changed set
        _ = misses gone.address (attempts ++ [⟨session, address, after⟩]) := by rw [own]

theorem publishRounds_counted : ∀ {rounds : Nat} {session after : Session Content} {address : Nat}
    {memory : List Bool} {attempts : List (Attempt Content)}, Intact config session →
      Counted session attempts → publishRounds config rounds session address memory = some after →
      Counted after (attempts ++ publishAttempts config rounds session address memory) := by
  intro rounds
  induction rounds with
  | zero =>
    intro session after address memory attempts _ _ publishes
    cases publishes
  | succ rounds ih =>
    intro session after address memory attempts intact counted publishes
    obtain ⟨⟨again, middle⟩, once, publishes⟩ := Option.bind_eq_some_iff.mp publishes
    have first := publishOnce_counted intact counted once
    obtain ⟨sub, found, round⟩ := publishOnce_inv intact once
    have advances := round.advances intact (subscription_mem found).1
    rw [publishAttempts, once]
    cases again with
    | false =>
      injection publishes with same
      exact same ▸ first
    | true =>
      have rest := ih (advances.intact intact) first publishes
      rw [append_assoc] at rest
      exact rest

theorem publishRounds_gone : ∀ {rounds : Nat} {session after : Session Content} {address : Nat}
    {memory : List Bool} {sub : Subscription Content},
      publishRounds config rounds session address memory = some after →
      sub ∈ session.serverSubscriptions →
      (∀ other ∈ after.serverSubscriptions, other.address ≠ sub.address) →
      ∃ attempt ∈ publishAttempts config rounds session address memory,
        ∃ last, attempt.Deletes last ∧ last.address = sub.address := by
  intro rounds
  induction rounds with
  | zero =>
    intro session after address memory sub publishes
    cases publishes
  | succ rounds ih =>
    intro session after address memory sub publishes member gone
    obtain ⟨⟨again, middle⟩, once, publishes⟩ := Option.bind_eq_some_iff.mp publishes
    rw [publishAttempts, once]
    by_cases stays : ∃ next ∈ middle.serverSubscriptions, next.address = sub.address
    · obtain ⟨next, present, same⟩ := stays
      cases again with
      | false =>
        injection publishes with equal
        subst equal
        exact absurd same (gone next present)
      | true =>
        obtain ⟨attempt, made, last, deletes, address⟩ :=
          ih publishes present (same ▸ gone)
        exact ⟨attempt, mem_cons_of_mem _ made, last, deletes, address.trans same⟩
    · have deletes : Attempt.Deletes ⟨session, address, middle⟩ sub :=
        ⟨member, fun other present same => stays ⟨other, present, same⟩⟩
      exact ⟨_, mem_cons_self, sub, deletes, rfl⟩

theorem Counted.of_list (counted : Counted session attempts)
    (list : after.serverSubscriptions = session.serverSubscriptions) : Counted after attempts where
  distinct := by
    rw [ids, list]
    exact counted.distinct
  waited := by
    rw [list]
    exact counted.waited
  expired := counted.expired

theorem serveLate_counted (intact : Intact config session) (counted : Counted session attempts)
    {memory : List Bool} (serves : session.serveLate config memory = some after) :
    Counted after (attempts ++ lateAttempts config session memory) := by
  rw [serveLate] at serves
  rw [lateAttempts]
  cases late : session.lateSubscription with
  | none =>
    rw [late] at serves
    injection serves with same
    subst same
    rw [append_nil]
    exact counted.of_list rfl
  | some sub =>
    rw [late] at serves
    have same : SameSubscriptions session
        { session with lastSeenSubscriptionId := sub.subscriptionId } := ⟨rfl, rfl, rfl, rfl⟩
    have advances : Advances config session _ := same.advances intact.toListed
    exact publishRounds_counted (advances.intact intact) (counted.of_list rfl) serves

theorem serveLate_gone {memory : List Bool} (serves : session.serveLate config memory = some after)
    (member : sub ∈ session.serverSubscriptions)
    (gone : ∀ other ∈ after.serverSubscriptions, other.address ≠ sub.address) :
    ∃ attempt ∈ lateAttempts config session memory,
      ∃ last, attempt.Deletes last ∧ last.address = sub.address := by
  rw [serveLate] at serves
  rw [lateAttempts]
  cases late : session.lateSubscription with
  | none =>
    rw [late] at serves
    injection serves with same
    subst same
    exact absurd rfl (gone sub member)
  | some first =>
    rw [late] at serves
    exact publishRounds_gone serves member gone

def Fresh (session : Session Content) (step : SessionStep Content) : Prop :=
  step.creates = true → session.lastSubscriptionId + 1 ∉ session.ids

instance (session : Session Content) (step : SessionStep Content) :
    Decidable (session.Fresh step) := inferInstanceAs (Decidable (_ → _))

theorem stepAttempts_quiet (quiet : session.Quiet config step) :
    session.stepAttempts config step = [] := by
  cases step with
  | publishCallback address memory =>
    have none : session.subscription address = none := quiet
    rw [stepAttempts, none]
  | request request =>
    cases request with
    | publish request =>
      rw [stepAttempts]
      split
      · rfl
      · rename_i attached
        rw [quiet.resolve_left attached]
    | _ => rfl
  | _ => rfl

theorem addSubscription_counted (counted : Counted session attempts)
    (id : sub.subscriptionId = session.lastSubscriptionId + 1)
    (count : sub.currentLifetimeCount = 0)
    (fresh : session.lastSubscriptionId + 1 ∉ session.ids) :
    Counted { session with
      lastSubscriptionId := session.lastSubscriptionId + 1
      unusedSubscription := session.unusedSubscription + 1
      serverSubscriptions := sub :: session.serverSubscriptions
      numSubscriptions := session.numSubscriptions + 1 } attempts := by
  refine ⟨?_, ?_, counted.expired⟩
  · rw [ids, map_cons, id]
    exact nodup_cons.mpr ⟨fresh, counted.distinct⟩
  · intro other member
    rcases mem_cons.mp member with rfl | present
    · rw [count]
      exact Nat.zero_le _
    · exact counted.waited other present

theorem step_counted (intact : Intact config session) (counted : Counted session attempts)
    (fresh : session.Fresh step) (steps : session.step config step = some after) :
    Counted after (attempts ++ session.stepAttempts config step) := by
  cases step_does intact steps with
  | keeps quiet keeps =>
    rw [stepAttempts_quiet quiet, append_nil]
    exact keeps.stems.counted counted
  | creates _ id count =>
    change Counted _ (attempts ++ [])
    rw [append_nil]
    exact addSubscription_counted counted id count (fresh rfl)
  | deletes stems =>
    change Counted _ (attempts ++ [])
    rw [append_nil]
    exact stems.counted counted
  | publishes attached accepts keeps intact serves =>
    rw [stepAttempts, if_neg attached, accepts]
    exact serveLate_counted intact (keeps.stems.counted counted) serves
  | calls found ready keeps intact publishes =>
    subst ready
    rw [stepAttempts, found]
    exact publishRounds_counted intact (keeps.stems.counted counted) publishes

theorem Keeps.stays (keeps : Keeps session after) (member : sub ∈ session.serverSubscriptions) :
    ∃ other ∈ after.serverSubscriptions, other.address = sub.address := by
  have there : sub.address ∈ after.serverSubscriptions.map Subscription.address := by
    rw [keeps.addresses]
    exact mem_map_of_mem member
  exact mem_map.mp there

theorem step_gone (intact : Intact config session)
    (kept : ∀ subscriptionIds memory, step ≠ .request (.deleteSubscriptions subscriptionIds memory))
    (steps : session.step config step = some after) (member : sub ∈ session.serverSubscriptions)
    (gone : ∀ other ∈ after.serverSubscriptions, other.address ≠ sub.address) :
    ∃ attempt ∈ session.stepAttempts config step,
      ∃ last, attempt.Deletes last ∧ last.address = sub.address := by
  cases step_does intact steps with
  | keeps _ keeps =>
    obtain ⟨other, present, same⟩ := keeps.stays member
    exact absurd same (gone other present)
  | creates => exact absurd rfl (gone sub (mem_cons_of_mem _ member))
  | deletes => exact absurd rfl (kept _ _)
  | publishes attached accepts keeps _ serves =>
    obtain ⟨other, present, same⟩ := keeps.stays member
    obtain ⟨attempt, made, last, deletes, address⟩ := serveLate_gone serves present (same ▸ gone)
    rw [stepAttempts, if_neg attached, accepts]
    exact ⟨attempt, made, last, deletes, address.trans same⟩
  | calls found ready keeps _ publishes =>
    subst ready
    obtain ⟨other, present, same⟩ := keeps.stays member
    obtain ⟨attempt, made, last, deletes, address⟩ :=
      publishRounds_gone publishes present (same ▸ gone)
    rw [stepAttempts, found]
    exact ⟨attempt, made, last, deletes, address.trans same⟩

end Session

def observe (config : SubscriptionConfig) (observed : Session Content × List (Attempt Content))
    (step : SessionStep Content) : Option (Session Content × List (Attempt Content)) :=
  (observed.1.step config step).map fun after =>
    (after, observed.2 ++ observed.1.stepAttempts config step)

abbrev ObservedRun (config : SubscriptionConfig) :
    Session Content × List (Attempt Content) → Prop :=
  GuardedRuns.Reached (observe config) (fun observed step => observed.1.Fresh step)
    (Session.new, [])

theorem new_counted : Counted (Session.new : Session Content) [] where
  distinct := nodup_nil
  waited := fun _ member => nomatch member
  expired := by
    intro earlier attempt later none
    simp at none

theorem ObservedRun.counted {config : SubscriptionConfig}
    {observed : Session Content × List (Attempt Content)} (run : ObservedRun config observed) :
    Intact config observed.1 ∧ Counted observed.1 observed.2 := by
  induction run with
  | start => exact ⟨SessionRun.new_intact, new_counted⟩
  | @step observed after step _ fresh steps ih =>
    obtain ⟨intact, counted⟩ := ih
    obtain ⟨next, ran, rfl⟩ := Option.map_eq_some_iff.mp steps
    have advances := step_advances intact step
    rw [ran] at advances
    exact ⟨advances.of_some.intact intact, step_counted intact counted fresh ran⟩

/-- What an attempt deletes had no request in more attempts than its lifetime. Only attempts and
requests to delete subscriptions delete one. -/
theorem subscription_lasts {config : SubscriptionConfig} {session : Session Content}
    {attempts : List (Attempt Content)} (run : ObservedRun config (session, attempts)) :
    (∀ (sub : Subscription Content) settings, (sub.setSettings config settings).Proportioned ↔
      KeepAliveFits config.keepAliveCountLimits settings.requestedMaxKeepAliveCount) ∧
    (∀ earlier attempt later, attempts = earlier ++ attempt :: later → ∀ sub, attempt.Deletes sub →
        sub.lifeTimeCount.toNat < misses sub.address (earlier ++ [attempt])) ∧
    (∀ step after sub, (∀ subscriptionIds memory,
        step ≠ .request (.deleteSubscriptions subscriptionIds memory)) →
      session.step config step = some after → sub ∈ session.serverSubscriptions →
      (∀ other ∈ after.serverSubscriptions, other.address ≠ sub.address) →
      ∃ attempt ∈ session.stepAttempts config step,
        ∃ last, attempt.Deletes last ∧ last.address = sub.address) := by
  obtain ⟨intact, counted⟩ := run.counted
  refine ⟨setSettings_proportioned config, counted.expired, ?_⟩
  intro step after sub kept steps member gone
  exact step_gone intact kept steps member gone

def expirySteps : List (SessionStep Nat) :=
  [.attachToSecureChannel 1, .request (.createSubscription true ⟨3, 1, 0⟩ true),
    .publishCallback 0 [], .publishCallback 0 [], .publishCallback 0 [], .publishCallback 0 []]

theorem created_lasts : ∃ (session : Session Nat) (attempts : List (Attempt Nat)),
    ObservedRun defaultConfig (session, attempts) ∧
      (session.serverSubscriptions.length, attempts.length) = (0, 4) ∧
      ∀ earlier attempt later, attempts = earlier ++ attempt :: later → ∀ sub, attempt.Deletes sub →
          sub.lifeTimeCount.toNat < misses sub.address (earlier ++ [attempt]) := by
  have runs : (GuardedRuns.run (observe defaultConfig) (fun observed step => observed.1.Fresh step)
      (Session.new, []) expirySteps).map (fun observed =>
        (observed.1.serverSubscriptions.length, observed.2.length)) = some (0, 4) := by
    decide +kernel
  obtain ⟨⟨session, attempts⟩, ran, lengths⟩ := Option.map_eq_some_iff.mp runs
  have new : ObservedRun defaultConfig ((Session.new : Session Nat), []) := .start
  have run := new.run ran
  exact ⟨session, attempts, run, lengths, (subscription_lasts run).2.1⟩

end OpcUa
