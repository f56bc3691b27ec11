import Mathlib.Data.List.Find
import OpcUa.Library.GuardedRuns
import OpcUa.Library.RoundRobin
import OpcUa.PublishAttempts

/-!
Late subscriptions. A publish request is used at once for the first of them behind the one that was
served so before. As long as subscriptions are not deleted, one is not served a second time before
another one that is late all the time.
-/

namespace OpcUa

open Subscription Session List

variable {Content : Type}

namespace Session

variable {config : SubscriptionConfig} {session middle after : Session Content}
  {sub changed : Subscription Content} {last : Option Nat}
variable {address : Nat} {step : SessionStep Content}

def addresses (session : Session Content) : List Nat :=
  session.serverSubscriptions.map Subscription.address

def late (session : Session Content) (address : Nat) : Bool :=
  session.serverSubscriptions.any fun sub => sub.address = address ∧ sub.state = .late

section

variable (config : SubscriptionConfig) (session : Session Content)

def waiting : SessionStep Content → Option (Session Content)
  | .request (.publish request) =>
    if session.channel.isNone then none else session.accepted config request
  | _ => none

def served (step : SessionStep Content) : Option Nat :=
  (session.waiting config step).bind fun waiting =>
    waiting.lateSubscription.map Subscription.address

def remembered (last : Option Nat) (step : SessionStep Content) : Option Nat :=
  match session.waiting config step with
  | none => last
  | some waiting => waiting.lateSubscription.map Subscription.address

end

structure Marked (session : Session Content) (last : Option Nat) : Prop where
  distinct : session.ids.Nodup
  positive : ∀ id ∈ session.ids, id ≠ 0
  nobody : last = none → session.lastSeenSubscriptionId = 0
  somebody : ∀ address, last = some address → session.lastSeenSubscriptionId ≠ 0 ∧
    address < session.unusedSubscription ∧
      ∀ tag ∈ session.tags, tag.2 = session.lastSeenSubscriptionId ↔ tag.1 = address

theorem tags_addresses (session : Session Content) :
    session.tags.map Prod.fst = session.addresses := by
  rw [tags, map_map]
  rfl

theorem Thins.addresses (thins : Thins session after) :
    after.addresses.Sublist session.addresses := by
  rw [← tags_addresses, ← tags_addresses]
  exact thins.tags.map Prod.fst

theorem Thins.marked (thins : Thins session after) (marked : Marked session last) :
    Marked after last where
  distinct := by
    have distinct := marked.distinct
    rw [← tags_ids] at distinct ⊢
    exact (thins.tags.map Prod.snd).nodup distinct
  positive := by
    intro id member
    rw [← tags_ids] at member
    have there := (thins.tags.map Prod.snd).subset member
    rw [tags_ids] at there
    exact marked.positive id there
  nobody none := thins.lastSeen.trans (marked.nobody none)
  somebody address some := by
    obtain ⟨nonzero, old, same⟩ := marked.somebody address some
    rw [thins.lastSeen, thins.unused]
    exact ⟨nonzero, old, fun tag member => same tag (thins.tags.subset member)⟩

theorem late_iff : session.late address = true ↔
    ∃ sub ∈ session.serverSubscriptions, sub.address = address ∧ sub.state = .late := by
  simp [late]

theorem Keeps.late (keeps : Keeps session after) : after.late = session.late := by
  obtain ⟨change, list, renews⟩ := keeps.changes
  funext address
  rw [Bool.eq_iff_iff, late_iff, late_iff, list]
  constructor
  · rintro ⟨changed, member, same, state⟩
    obtain ⟨sub, present, rfl⟩ := mem_map.mp member
    have renewed := renews sub present
    exact ⟨sub, present, renewed.address ▸ same, renewed.state ▸ state⟩
  · rintro ⟨sub, present, same, state⟩
    have renewed := renews sub present
    exact ⟨change sub, mem_map_of_mem present, renewed.address.trans same,
      renewed.state.trans state⟩

theorem Listed.late_eq (listed : Listed session) (member : sub ∈ session.serverSubscriptions) :
    session.late sub.address = decide (sub.state = .late) := by
  rw [Bool.eq_iff_iff, late_iff, decide_eq_true_iff]
  constructor
  · rintro ⟨other, present, same, state⟩
    have equal := listed.address_unique (mem_append_left _ present) (mem_append_left _ member) same
    exact equal ▸ state
  · intro state
    exact ⟨sub, member, rfl, state⟩

theorem find_late (listed : Listed session) {line : List (Subscription Content)}
    (part : line.Sublist session.serverSubscriptions) :
    (line.map Subscription.address).find? session.late =
      (line.find? (·.state = .late)).map Subscription.address := by
  rw [find?_map]
  congr 1
  apply find?_congr
  intro sub member
  exact Listed.late_eq listed (part.subset member)

theorem dropWhile_address {line : List (Subscription Content)} {id : BitVec 32}
    (same : ∀ sub ∈ line, sub.subscriptionId = id ↔ sub.address = address) :
    (line.map Subscription.address).dropWhile (· ≠ address) =
      (line.dropWhile (·.subscriptionId ≠ id)).map Subscription.address := by
  rw [dropWhile_map]
  congr 1
  induction line with
  | nil => rfl
  | cons sub line ih =>
    have rest := ih fun other member => same other (mem_cons_of_mem sub member)
    have first := same sub (mem_cons_self ..)
    rw [dropWhile_cons, dropWhile_cons, rest]
    simp only [Function.comp_apply, ne_eq, first]

theorem lateSubscription_next (listed : Listed session) (marked : Marked session last) :
    session.lateSubscription.map Subscription.address =
      RoundRobin.next session.late last session.addresses := by
  have whole := find_late listed (.refl session.serverSubscriptions)
  cases last with
  | none =>
    rw [lateSubscription, marked.nobody rfl, RoundRobin.next, RoundRobin.order]
    exact whole.symm
  | some address =>
    obtain ⟨nonzero, -, same⟩ := marked.somebody address rfl
    have positive : session.lastSeenSubscriptionId > 0 :=
      (BitVec.pos_iff_ne_zero _).mpr nonzero
    have line : ∀ sub ∈ session.serverSubscriptions,
        sub.subscriptionId = session.lastSeenSubscriptionId ↔ sub.address = address := by
      intro sub member
      exact same (sub.address, sub.subscriptionId) (mem_map_of_mem member)
    have behind : (session.serverSubscriptions.dropWhile
        (·.subscriptionId ≠ session.lastSeenSubscriptionId)).tail.Sublist
          session.serverSubscriptions :=
      (tail_sublist _).trans (dropWhile_sublist _)
    rw [lateSubscription, RoundRobin.next_some, addresses, dropWhile_address line, ← map_tail,
      find_late listed behind, whole, if_pos positive]
    split
    · rename_i sub found
      rw [found]
      rfl
    · rename_i none
      rw [none]
      rfl

/-! What a step leaves -/

theorem served_marked (listed : Listed session) (marked : Marked session last)
    (member : sub ∈ session.serverSubscriptions) :
    Marked { session with lastSeenSubscriptionId := sub.subscriptionId } (some sub.address) where
  distinct := marked.distinct
  positive := marked.positive
  nobody := nofun
  somebody := by
    rintro _ ⟨⟩
    refine ⟨marked.positive _ (mem_map_of_mem member),
      listed.old sub (mem_append_left _ member), ?_⟩
    intro tag present
    obtain ⟨other, there, rfl⟩ := mem_map.mp present
    constructor
    · intro same
      exact congrArg Subscription.address (inj_on_of_nodup_map marked.distinct there member same)
    · intro same
      exact congrArg Subscription.subscriptionId
        (listed.address_unique (mem_append_left _ there) (mem_append_left _ member) same)

theorem serveLate_marked (intact : Intact config session) (marked : Marked session last)
    {memory : List Bool} (serves : session.serveLate config memory = some after) :
    Marked after (session.lateSubscription.map Subscription.address) ∧
      after.addresses.Sublist session.addresses := by
  rw [serveLate] at serves
  cases late : session.lateSubscription with
  | none =>
    rw [late] at serves
    injection serves with same
    subst same
    refine ⟨⟨marked.distinct, marked.positive, fun _ => rfl, ?_⟩, .refl _⟩
    intro tag same
    cases same
  | some sub =>
    rw [late] at serves
    have same : SameSubscriptions session
        { session with lastSeenSubscriptionId := sub.subscriptionId } := ⟨rfl, rfl, rfl, rfl⟩
    have advances : Advances config session _ := same.advances intact.toListed
    have thins := publishRounds_thins (advances.intact intact) serves
    exact ⟨thins.marked (served_marked intact.toListed marked (lateSubscription_mem late)),
      thins.addresses⟩

def NewId (session : Session Content) (step : SessionStep Content) : Prop :=
  step.creates = true →
    session.lastSubscriptionId + 1 ∉ 0 :: session.lastSeenSubscriptionId :: session.ids

instance (session : Session Content) (step : SessionStep Content) :
    Decidable (session.NewId step) := inferInstanceAs (Decidable (_ → _))

def Regroups (session after : Session Content) : Prop :=
  after.addresses.Sublist session.addresses ∨
    after.addresses = session.unusedSubscription :: session.addresses

theorem waiting_quiet (quiet : session.Quiet config step) : session.waiting config step = none := by
  cases step with
  | request request =>
    cases request with
    | publish request =>
      rw [waiting]
      split
      · rfl
      · rename_i attached
        exact quiet.resolve_left attached
    | _ => rfl
  | _ => rfl

theorem addSubscription_marked (marked : Marked session last)
    (address : sub.address = session.unusedSubscription)
    (id : sub.subscriptionId = session.lastSubscriptionId + 1)
    (new : session.lastSubscriptionId + 1 ∉ 0 :: session.lastSeenSubscriptionId :: session.ids) :
    Marked { session with
      lastSubscriptionId := session.lastSubscriptionId + 1
      unusedSubscription := session.unusedSubscription + 1
      serverSubscriptions := sub :: session.serverSubscriptions
      numSubscriptions := session.numSubscriptions + 1 } last := by
  simp only [mem_cons, not_or] at new
  obtain ⟨nonzero, unseen, fresh⟩ := new
  refine ⟨?_, ?_, marked.nobody, ?_⟩
  · rw [ids, map_cons, id]
    exact nodup_cons.mpr ⟨fresh, marked.distinct⟩
  · intro other member
    rcases mem_cons.mp member with rfl | present
    · rw [id]
      exact nonzero
    · exact marked.positive other present
  · intro key some
    obtain ⟨seen, old, pairs⟩ := marked.somebody key some
    refine ⟨seen, Nat.lt_succ_of_lt old, ?_⟩
    intro tag member
    rcases mem_cons.mp member with rfl | present
    · dsimp only
      rw [address, id]
      exact ⟨fun equal => absurd equal unseen, fun equal => absurd old (by omega)⟩
    · exact pairs tag present

section

variable (intact : Intact config session) (marked : Marked session last)
include intact marked

theorem step_marked (new : session.NewId step) (steps : session.step config step = some after) :
    Marked after (session.remembered config last step) ∧ Regroups session after := by
  cases step_does intact steps with
  | keeps quiet keeps =>
    have thins := keeps.stems.thins
    rw [remembered, waiting_quiet quiet]
    exact ⟨thins.marked marked, .inl thins.addresses⟩
  | creates address id _ =>
    refine ⟨addSubscription_marked marked address id (new rfl), .inr ?_⟩
    rw [addresses, map_cons, address]
    rfl
  | deletes stems => exact ⟨stems.thins.marked marked, .inl stems.thins.addresses⟩
  | publishes attached accepts keeps intact serves =>
    have thins := keeps.stems.thins
    rw [remembered, waiting, if_neg attached, accepts]
    obtain ⟨markedAfter, sublist⟩ := serveLate_marked intact (thins.marked marked) serves
    exact ⟨markedAfter, .inl (sublist.trans thins.addresses)⟩
  | calls _ _ keeps intact publishes =>
    have thins := keeps.stems.thins.trans (publishRounds_thins intact publishes)
    exact ⟨thins.marked marked, .inl thins.addresses⟩

theorem waiting_next {waits : Session Content} (accepts : session.waiting config step = some waits)
    :
    waits.lateSubscription.map Subscription.address =
      RoundRobin.next session.late last session.addresses := by
  cases step with
  | request request =>
    cases request with
    | publish request =>
      rw [waiting] at accepts
      split at accepts
      · cases accepts
      · have continues := accepted_continues intact.toListed accepts
        have keeps := continues.toKeeps
        rw [lateSubscription_next continues.listed (keeps.stems.thins.marked marked), keeps.late]
        exact congrArg _ keeps.addresses
    | _ => cases accepts
  | _ => cases accepts

theorem served_next (accepts : (session.waiting config step).isSome) :
    session.served config step = RoundRobin.next session.late last session.addresses ∧
      session.remembered config last step = session.served config step := by
  obtain ⟨waits, accepts⟩ := Option.isSome_iff_exists.mp accepts
  rw [remembered, served, accepts]
  exact ⟨waiting_next intact marked accepts, rfl⟩

end

theorem served_accepts (serves : session.served config step = some address) :
    (session.waiting config step).isSome := by
  obtain ⟨waits, accepts, -⟩ := Option.bind_eq_some_iff.mp serves
  rw [accepts]
  rfl

theorem unserved (refuses : session.waiting config step = none) :
    session.served config step = none ∧ session.remembered config last step = last := by
  rw [remembered, served, refuses]
  exact ⟨rfl, rfl⟩

end Session

def serving (config : SubscriptionConfig) (observed : Session Content × Option Nat)
    (step : SessionStep Content) : Option (Session Content × Option Nat) :=
  (observed.1.step config step).map fun after =>
    (after, observed.1.remembered config observed.2 step)

abbrev ServingRun (config : SubscriptionConfig) : Session Content × Option Nat → Prop :=
  GuardedRuns.Reached (serving config) (fun observed step => observed.1.NewId step)
    (Session.new, none)

inductive LateRun (config : SubscriptionConfig) (address : Nat)
    (start : Session Content × Option Nat) :
    List (SessionStep Content) → Session Content × Option Nat → Prop
  | stays (late : start.1.late address) : LateRun config address start [] start
  | step {steps observed after step} (run : LateRun config address start steps observed)
      (new : observed.1.NewId step) (serves : serving config observed step = some after)
      (kept : observed.1.addresses ⊆ after.1.addresses) (late : after.1.late address) :
      LateRun config address start (steps ++ [step]) after

section Runs

variable {config : SubscriptionConfig} {start observed after : Session Content × Option Nat}
variable {step : SessionStep Content} {address other : Nat} {steps : List (SessionStep Content)}
  {session : Session Content}

theorem new_marked : Marked (Session.new : Session Content) none where
  distinct := nodup_nil
  positive := fun _ member => nomatch member
  nobody _ := rfl
  somebody := nofun

theorem serving_marked (intact : Intact config observed.1) (marked : Marked observed.1 observed.2)
    (new : observed.1.NewId step) (serves : serving config observed step = some after) :
    Intact config after.1 ∧ Marked after.1 after.2 ∧ Regroups observed.1 after.1 := by
  obtain ⟨next, ran, rfl⟩ := Option.map_eq_some_iff.mp serves
  have advances := step_advances intact step
  rw [ran] at advances
  exact ⟨advances.of_some.intact intact, step_marked intact marked new ran⟩

theorem ServingRun.marked (run : ServingRun config observed) :
    Intact config observed.1 ∧ Marked observed.1 observed.2 := by
  induction run with
  | start => exact ⟨SessionRun.new_intact, new_marked⟩
  | step _ new serves ih =>
    obtain ⟨intact, marked, -⟩ := serving_marked ih.1 ih.2 new serves
    exact ⟨intact, marked⟩

theorem LateRun.late (run : LateRun config address start steps observed) :
    observed.1.late address := by
  cases run with
  | stays late => exact late
  | step _ _ _ _ late => exact late

theorem LateRun.start_late (run : LateRun config address start steps observed) :
    start.1.late address := by
  induction run with
  | stays late => exact late
  | step _ _ _ _ _ ih => exact ih

theorem late_listed (late : session.late address) : address ∈ session.addresses := by
  obtain ⟨sub, member, rfl, -⟩ := late_iff.mp late
  exact mem_map_of_mem member

theorem addresses_nodup (listed : Listed session) : session.addresses.Nodup := by
  have distinct := listed.nodup
  rw [subscriptions, map_append] at distinct
  exact (nodup_append.mp distinct).1

theorem addresses_old (listed : Listed session) (member : address ∈ session.addresses) :
    address < session.unusedSubscription := by
  obtain ⟨sub, present, rfl⟩ := mem_map.mp member
  exact listed.old sub (mem_append_left _ present)

theorem Regroups.ahead {next : Session Content} {first second : Nat} {last : Option Nat}
    (regroups : Regroups session next) (listed : Listed session)
    (kept : session.addresses ⊆ next.addresses)
    (old : ∀ address, last = some address → address < session.unusedSubscription)
    (ahead : RoundRobin.Ahead first second last session.addresses) :
    RoundRobin.Ahead first second last next.addresses := by
  rcases regroups with sublist | same
  · have longer := ((addresses_nodup listed).subperm kept).length_le
    rw [sublist.eq_of_length_le longer]
    exact ahead
  · rw [same]
    refine ahead.joins ?_
    intro unused
    exact Nat.lt_irrefl _ (old _ unused)

theorem serving_ahead (intact : Intact config observed.1) (marked : Marked observed.1 observed.2)
    (new : observed.1.NewId step) (serves : serving config observed step = some after)
    (kept : observed.1.addresses ⊆ after.1.addresses) (late : observed.1.late address)
    (ahead : RoundRobin.Ahead address other observed.2 observed.1.addresses) :
    observed.1.served config step = some address ∨
      RoundRobin.Ahead address other after.2 after.1.addresses := by
  obtain ⟨-, -, regroups⟩ := serving_marked intact marked new serves
  have distinct := addresses_nodup intact.toListed
  have stays : ∀ {last : Option Nat},
      (∀ key, last = some key → key < observed.1.unusedSubscription) →
      RoundRobin.Ahead address other last observed.1.addresses →
      RoundRobin.Ahead address other last after.1.addresses :=
    fun old ahead => Regroups.ahead regroups intact.toListed kept old ahead
  obtain ⟨next, ran, rfl⟩ := Option.map_eq_some_iff.mp serves
  by_cases accepts : (observed.1.waiting config step).isSome
  · obtain ⟨chosen, same⟩ := served_next intact marked accepts
    obtain ⟨key, found⟩ := RoundRobin.exists_next (late_listed late) late
    rw [chosen, found]
    rcases ahead.turn distinct late found with rfl | behind
    · exact .inl rfl
    · right
      rw [same, chosen, found]
      refine stays ?_ behind
      rintro _ ⟨⟩
      exact addresses_old intact.toListed (RoundRobin.next_mem found)
  · have refuses : observed.1.waiting config step = none := by simpa using accepts
    right
    rw [(unserved refuses).2]
    exact stays (fun key some => (marked.somebody key some).2.1) ahead

theorem LateRun.ahead (run : LateRun config address start steps observed)
    (intact : Intact config start.1) (marked : Marked start.1 start.2)
    (ahead : RoundRobin.Ahead address other start.2 start.1.addresses) :
    Intact config observed.1 ∧ Marked observed.1 observed.2 ∧
      ((∃ earlier step later middle, steps = earlier ++ step :: later ∧
          LateRun config address start earlier middle ∧
            middle.1.served config step = some address) ∨
        RoundRobin.Ahead address other observed.2 observed.1.addresses) := by
  induction run with
  | stays late => exact ⟨intact, marked, .inr ahead⟩
  | @step steps observed after step run new serves kept late ih =>
    obtain ⟨intact, marked, before⟩ := ih
    obtain ⟨intactAfter, markedAfter, -⟩ := serving_marked intact marked new serves
    refine ⟨intactAfter, markedAfter, ?_⟩
    rcases before with ⟨earlier, served, later, middle, rfl, part, serves⟩ | ahead
    · exact .inl ⟨earlier, served, later ++ [step], middle, by simp, part, serves⟩
    · rcases serving_ahead intact marked new serves kept run.late ahead with served | ahead
      · exact .inl ⟨steps, step, [], observed, rfl, run, served⟩
      · exact .inr ahead

theorem serving_last (intact : Intact config observed.1) (marked : Marked observed.1 observed.2)
    (serves : serving config observed step = some after)
    (first : observed.1.served config step = some other)
    (kept : observed.1.addresses ⊆ after.1.addresses) (late : after.1.late address)
    (distinct : address ≠ other) : RoundRobin.Ahead address other after.2 after.1.addresses := by
  obtain ⟨next, ran, rfl⟩ := Option.map_eq_some_iff.mp serves
  have accepts := served_accepts first
  obtain ⟨chosen, same⟩ := served_next intact marked accepts
  have listed : other ∈ observed.1.addresses := by
    rw [chosen] at first
    exact RoundRobin.next_mem first
  rw [same, first]
  exact RoundRobin.ahead_last (late_listed late) (kept listed) distinct

/-- A request is used for the first late subscription behind the one served last. Between two
services of one subscription, another one that is late all the time is served. -/
theorem late_served (run : ServingRun config observed) :
    (∀ step, (observed.1.waiting config step).isSome → observed.1.served config step =
        RoundRobin.next observed.1.late observed.2 observed.1.addresses) ∧
    (∀ address other, address ≠ other → ∀ first next steps last final,
      observed.1.NewId first → serving config observed first = some next →
      observed.1.addresses ⊆ next.1.addresses → observed.1.served config first = some other →
      LateRun config address next steps last → last.1.served config final = some other →
      ∃ earlier step later middle, steps = earlier ++ step :: later ∧
        LateRun config address next earlier middle ∧
          middle.1.served config step = some address) := by
  obtain ⟨intact, marked⟩ := run.marked
  refine ⟨fun step accepts => (served_next intact marked accepts).1, ?_⟩
  intro address other distinct first next steps last final new serves kept served late again
  obtain ⟨intactNext, markedNext, -⟩ := serving_marked intact marked new serves
  have behind := serving_last intact marked serves served kept late.start_late distinct
  obtain ⟨intactLast, markedLast, found | ahead⟩ := late.ahead intactNext markedNext behind
  · exact found
  · exfalso
    rw [(served_next intactLast markedLast (served_accepts again)).1] at again
    exact ahead.ne_next (addresses_nodup intactLast.toListed) late.late again rfl

/-! Two subscriptions with more notifications than one message takes -/

def busySteps : List (SessionStep Nat) :=
  [.attachToSecureChannel 1, .request (.createSubscription true ⟨100, 10, 1⟩ true),
    .request (.createSubscription true ⟨100, 10, 1⟩ true),
    .request (.createMonitoredItems 1 true [valueItem 1, valueItem 2] true),
    .request (.createMonitoredItems 2 true [valueItem 1, valueItem 2] true),
    .publishCallback 0 [], .publishCallback 1 []]

def publishStep (requestId : BitVec 32) : SessionStep Nat :=
  .request (.publish (publishRequest requestId))

/-- The subscription 1 is served twice, and the subscription 0 in between. -/
theorem late_served_turn : ∃ observed next last : Session Nat × Option Nat,
    ServingRun defaultConfig observed ∧
    serving defaultConfig observed (publishStep 1) = some next ∧
    observed.1.served defaultConfig (publishStep 1) =
      RoundRobin.next observed.1.late observed.2 observed.1.addresses ∧
    LateRun defaultConfig 0 next [publishStep 2] last ∧
    observed.1.served defaultConfig (publishStep 1) = some 1 ∧
    last.1.served defaultConfig (publishStep 3) = some 1 ∧
    ∃ earlier step later middle, [publishStep 2] = earlier ++ step :: later ∧
      LateRun defaultConfig 0 next earlier middle ∧ middle.1.served defaultConfig step = some 0 := by
  have runs : (do
      let observed ← GuardedRuns.run (serving defaultConfig)
        (fun observed step => observed.1.NewId step) (Session.new, none) busySteps
      let next ← serving defaultConfig observed (publishStep 1)
      let last ← serving defaultConfig next (publishStep 2)
      return ([observed.1.served defaultConfig (publishStep 1),
          last.1.served defaultConfig (publishStep 3)], [next.1.late 0, last.1.late 0],
        [observed.1.addresses, next.1.addresses, last.1.addresses])) =
          some ([some 1, some 1], [true, true], [[1, 0], [1, 0], [1, 0]]) := by
    decide +kernel
  simp only [Option.bind_eq_bind, Option.bind_eq_some_iff, Option.pure_def, Option.some.injEq,
    Prod.mk.injEq, cons.injEq, and_true] at runs
  obtain ⟨observed, ran, next, first, last, second, ⟨serves, again⟩, ⟨late, still⟩, before, between,
    after⟩ := runs
  have run : ServingRun defaultConfig observed := GuardedRuns.Reached.start.run ran
  have new {session : Session Nat} (requestId : BitVec 32) :
      session.NewId (publishStep requestId) := fun creates => absurd creates Bool.false_ne_true
  have lates : LateRun defaultConfig 0 next ([] ++ [publishStep 2]) last :=
    (LateRun.stays late).step (new 2) second (by rw [between, after]; exact Subset.refl _) still
  have fair := late_served run
  have served := fair.2 0 1 (by decide) (publishStep 1) next [publishStep 2] last (publishStep 3)
    (new 1) first (by rw [before, between]; exact Subset.refl _) serves lates again
  exact ⟨observed, next, last, run, first, fair.1 _ (served_accepts serves), lates, serves, again,
    served⟩

def servings (config : SubscriptionConfig) : Session Content → List (SessionStep Content) → List Nat
  | _, [] => []
  | session, step :: steps =>
    (session.served config step).toList ++
      match session.step config step with
      | none => []
      | some after => servings config after steps

def forgettingSteps : List (SessionStep Nat) :=
  [.attachToSecureChannel 1, .request (.createSubscription true ⟨100, 1, 0⟩ true),
    .request (.createSubscription true ⟨100, 1, 0⟩ true),
    .request (.createSubscription true ⟨100, 1, 0⟩ true), .publishCallback 1 [],
    .request (.publish (publishRequest 1)), .request (.publish (publishRequest 2)),
    .publishCallback 2 [], .publishCallback 0 [], .publishCallback 2 []]

/-- The subscription 1 was served, and then none was late for a request. The next request is used
for the subscription 2 at the head, and not for the subscription 0 behind the one served. -/
theorem servedLast_forgotten : ∃ session : Session Nat,
    Session.new.run defaultConfig forgettingSteps = some session ∧
      servings defaultConfig Session.new forgettingSteps = [1] ∧
      session.served defaultConfig (.request (.publish (publishRequest 3))) = some 2 ∧
      RoundRobin.next session.late (some 1) session.addresses = some 0 := by
  have runs : (Session.new.run defaultConfig forgettingSteps).map (fun session : Session Nat =>
      (session.served defaultConfig (.request (.publish (publishRequest 3))),
        RoundRobin.next session.late (some 1) session.addresses)) = some (some 2, some 0) := by
    decide +kernel
  obtain ⟨session, ran, both⟩ := Option.map_eq_some_iff.mp runs
  obtain ⟨serves, next⟩ := Prod.mk.inj both
  exact ⟨session, ran, by decide +kernel, serves, next⟩

end Runs

end OpcUa
