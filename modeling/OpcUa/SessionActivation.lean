import OpcUa.AccessControl

/-!
What ActivateSession leaves of a session: its flag and the channel that it is bound to, whether it
was bound to the calling channel, to another one or to none before.
-/

namespace OpcUa

open StatusCode CrossLinks

namespace Managers

variable {config : ManagersConfig} {limit : Nat} {managers : Managers} {session channel : Nat}

def activation (managers : Managers) (session : Nat) : Option (Bool × Option Nat) :=
  (managers.sessionAt session).map fun entry => (entry.activated, entry.channel)

/-- The session has this channel, and is in the list of it and in no other. Without a channel it is
in none. -/
structure BoundTo (managers : Managers) (session : Nat) (channel : Option Nat) : Prop where
  bound : (managers.sessionAt session).bind ManagedSession.channel = channel
  listed : ∀ other place, managers.channelAt other = some place →
    (session ∈ place.sessions ↔ channel = some other)

def activationStatus (surroundings : RequestSurroundings) (managers : Managers) (session : Nat) :
    StatusCode :=
  if managers.expired surroundings.now session then badSessionIdInvalid
  else if surroundings.signatureStatus ≠ good then surroundings.signatureStatus
  else surroundings.accessControlStatus

/-- A request that is refused by a check changes nothing. After a good answer the session is
activated and bound to the calling channel only. If the nonce for the next request cannot be made
or sent, a session that was bound ends without a channel and not activated. -/
structure ActivationOutcome (surroundings : RequestSurroundings) (managers : Managers)
    (channel session : Nat) : Prop where
  refused : activationStatus surroundings managers session ≠ good →
    managers.serviceActivateSession surroundings channel session =
      (activationStatus surroundings managers session, managers)
  activated : (managers.serviceActivateSession surroundings channel session).1 = good →
    let after := (managers.serviceActivateSession surroundings channel session).2
    after.activation session = some (true, some channel) ∧ after.BoundTo session (some channel)
  undone : activationStatus surroundings managers session = good →
    (managers.sessionAt session).bind ManagedSession.channel ≠ none →
    surroundings.nonceStatus ||| surroundings.responseStatus ≠ good →
    let result := managers.serviceActivateSession surroundings channel session
    result.1 = surroundings.nonceStatus ||| surroundings.responseStatus ∧
      result.2.activation session = some (false, none) ∧ result.2.BoundTo session none

theorem Bookkept.boundTo (known : Bookkept config limit managers) {entry : ManagedSession}
    (stored : managers.sessionAt session = some entry) :
    managers.BoundTo session entry.channel := by
  refine ⟨by rw [stored]; rfl, fun other place placed => ?_⟩
  rw [known.bound stored other]
  constructor
  · intro member
    exact ⟨place, placed, member⟩
  · rintro ⟨found, placedToo, member⟩
    rw [placed, Option.some.injEq] at placedToo
    rwa [placedToo]

theorem boundTo_of_activation {active : Bool} {bound : Option Nat}
    (known : Bookkept config limit managers)
    (outcome : managers.activation session = some (active, bound)) :
    managers.BoundTo session bound := by
  obtain ⟨entry, stored, same⟩ := Option.map_eq_some_iff.mp outcome
  have bounds := known.boundTo stored
  rw [Prod.mk.injEq] at same
  rwa [same.2] at bounds

theorem transferSession_activation (stored : managers.sessionAt session ≠ none)
    (bound : (managers.sessionAt session).bind ManagedSession.channel ≠ none) :
    ((managers.transferSession session channel).sessionAt session).map ManagedSession.channel =
      some (some channel) := by
  obtain ⟨entry, found⟩ := Option.ne_none_iff_exists'.mp stored
  rw [transferSession]
  split
  · obtain ⟨middle, kept⟩ := Option.ne_none_iff_exists'.mp
      (show (managers.detachFromSecureChannel session).sessionAt session ≠ none by
        rwa [Ne, (detachFromSecureChannel_rearranges managers session).sessionAt])
    simp [attachToSecureChannel, modifyChannel, modifySession, kept]
  · rename_i here
    rw [not_and_or, not_not, not_not] at here
    have same := here.resolve_left bound
    rw [found, Option.bind_some] at same
    rw [found, Option.map_some, same]

section

variable (surroundings : RequestSurroundings)

theorem serviceActivateSession_refused
    (refused : activationStatus surroundings managers session ≠ good) :
    managers.serviceActivateSession surroundings channel session =
      (activationStatus surroundings managers session, managers) := by
  rw [activationStatus] at refused ⊢
  rw [serviceActivateSession]
  by_cases lapsed : managers.expired surroundings.now session = true
  · rw [if_pos lapsed, if_pos lapsed]
  rw [if_neg lapsed] at refused ⊢
  rw [if_neg lapsed]
  by_cases signed : surroundings.signatureStatus ≠ good
  · rw [if_pos signed, if_pos signed]
  rw [if_neg signed] at refused ⊢
  rw [if_neg signed, if_pos refused]

theorem serviceActivateSession_checked
    (checked : activationStatus surroundings managers session = good) :
    managers.serviceActivateSession surroundings channel session =
      let activated := (managers.transferSession session channel).modifySession session fun entry =>
        updateLifetime surroundings.now { entry with activated := true }
      let status := activated.generateNonce surroundings.nonceStatus session |||
        surroundings.responseStatus
      if status ≠ good then
        (status, (activated.detachFromSecureChannel session).modifySession session fun entry =>
          { entry with activated := false })
      else (good, activated) := by
  rw [activationStatus] at checked
  rw [serviceActivateSession]
  split at checked
  · exact absurd checked (by decide)
  rename_i alive
  split at checked
  · rename_i signed
    exact absurd checked signed
  rename_i signed
  rw [if_neg alive, if_neg signed, if_neg (not_not.mpr checked)]

theorem serviceActivateSession_bound
    (checked : activationStatus surroundings managers session = good)
    (stored : managers.sessionAt session ≠ none)
    (bound : (managers.sessionAt session).bind ManagedSession.channel ≠ none) :
    let status := surroundings.nonceStatus ||| surroundings.responseStatus
    let result := managers.serviceActivateSession surroundings channel session
    result.1 = status ∧ result.2.activation session =
      if status ≠ good then some (false, none) else some (true, some channel) := by
  obtain ⟨middle, found, same⟩ :=
    Option.map_eq_some_iff.mp (@transferSession_activation managers session channel stored bound)
  rw [serviceActivateSession_checked surroundings checked]
  generalize managers.transferSession session channel = transferred at found ⊢
  have activated : (transferred.modifySession session fun entry =>
      updateLifetime surroundings.now { entry with activated := true }).sessionAt session =
        some (updateLifetime surroundings.now { middle with activated := true }) := by
    simp [modifySession, found]
  generalize transferred.modifySession session _ = active at activated ⊢
  have nonce : active.generateNonce surroundings.nonceStatus session =
      surroundings.nonceStatus := by
    rw [generateNonce, activated, Option.bind_some]
    simp [updateLifetime, same]
  simp only [nonce]
  by_cases fails : surroundings.nonceStatus ||| surroundings.responseStatus ≠ good
  · simp only [if_pos fails]
    refine ⟨trivial, ?_⟩
    have free := detachFromSecureChannel_free active session
    have kept : (active.detachFromSecureChannel session).sessionAt session ≠ none := by
      rw [Ne, (detachFromSecureChannel_rearranges active session).sessionAt, activated]
      simp
    obtain ⟨entry, detached⟩ := Option.ne_none_iff_exists'.mp kept
    rw [detached, Option.bind_some] at free
    simp [activation, modifySession, detached, free]
  · simp only [if_neg fails]
    refine ⟨(not_not.mp fails).symm, ?_⟩
    rw [activation, activated, Option.map_some]
    simp [updateLifetime, same]

theorem serviceActivateSession_unbound
    (checked : activationStatus surroundings managers session = good)
    (bound : (managers.sessionAt session).bind ManagedSession.channel = none) :
    (managers.serviceActivateSession surroundings channel session).1 ≠ good := by
  have stays : managers.transferSession session channel = managers := by
    rw [transferSession, bound]
    simp
  have free : ((managers.modifySession session fun entry =>
      updateLifetime surroundings.now { entry with activated := true }).sessionAt session).bind
        ManagedSession.channel = none := by
    cases found : managers.sessionAt session with
    | none => simp [modifySession, found]
    | some entry =>
      rw [found, Option.bind_some] at bound
      simp [modifySession, found, updateLifetime, bound]
  have fails : (managers.modifySession session fun entry =>
      updateLifetime surroundings.now { entry with activated := true }).generateNonce
        surroundings.nonceStatus session ||| surroundings.responseStatus ≠ good := by
    rw [generateNonce, free, Ne, or_eq_good_iff]
    rintro ⟨none, -⟩
    exact absurd none (show ¬badInternalError = good by decide)
  rw [serviceActivateSession_checked surroundings checked, stays]
  rw [if_pos fails]
  exact fails

end

/-- A request in a reachable state, for any session. -/
theorem activateSession_outcome {allowed : Managers → Event → Prop}
    (run : Run config allowed managers) (surroundings : RequestSurroundings)
    (stored : managers.sessionAt session ≠ none) (opened : managers.channelAt channel ≠ none) :
    ActivationOutcome surroundings managers channel session := by
  obtain ⟨limit, known⟩ := run.bookkept_some
  have after := serviceActivateSession_bookkept known surroundings stored opened
  refine ⟨serviceActivateSession_refused surroundings, fun success => ?_,
    fun checked bound fails => ?_⟩
  · have checked : activationStatus surroundings managers session = good := by
      by_contra refused
      rw [serviceActivateSession_refused surroundings refused] at success
      exact refused success
    have bound : (managers.sessionAt session).bind ManagedSession.channel ≠ none := fun free =>
      serviceActivateSession_unbound surroundings checked free success
    obtain ⟨status, outcome⟩ :=
      @serviceActivateSession_bound _ _ channel surroundings checked stored bound
    rw [← status, if_neg (not_not.mpr success)] at outcome
    exact ⟨outcome, boundTo_of_activation after outcome⟩
  · obtain ⟨status, outcome⟩ :=
      @serviceActivateSession_bound _ _ channel surroundings checked stored bound
    rw [if_pos fails] at outcome
    exact ⟨status, outcome, boundTo_of_activation after outcome⟩

/-- The session of a run is activated and bound to its channel. If the nonce of the next activation
cannot be made, it is neither. -/
theorem activateSession_undone : Run generousConfig (fun _ _ => True) activatedManagers ∧
      ¬((activatedManagers.serviceActivateSession
          { calmSurroundings 20 with nonceStatus := badInternalError } 0 1).1 ≠ good →
        (activatedManagers.serviceActivateSession
          { calmSurroundings 20 with nonceStatus := badInternalError } 0 1).2.activation 1 =
            activatedManagers.activation 1) := by
  have before : activatedManagers.activation 1 = some (true, some 0) := by decide +kernel
  have after : (activatedManagers.serviceActivateSession
      { calmSurroundings 20 with nonceStatus := badInternalError } 0 1).2.activation 1 =
        some (false, none) := by decide +kernel
  have fails : (activatedManagers.serviceActivateSession
      { calmSurroundings 20 with nonceStatus := badInternalError } 0 1).1 ≠ good := by
    decide +kernel
  refine ⟨activatedManagers_run, fun atomic => ?_⟩
  have same := atomic fails
  rw [before, after] at same
  exact absurd same (by decide)

theorem activateSession_repeated : ActivationOutcome (calmSurroundings 20) activatedManagers 0 1 :=
  activateSession_outcome activatedManagers_run (calmSurroundings 20) (by decide +kernel)
    (by decide +kernel)

end Managers

end OpcUa
