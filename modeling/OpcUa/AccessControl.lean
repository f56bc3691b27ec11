import OpcUa.SessionManager

/-!
Which requests reach a service. A session is looked up in the list of the channel and then in the
list of the session manager, and only the second look-up asks for the lifetime. A service that
requires a session gets one that is activated, bound to the channel and alive, unless the list of
the channel still holds an expired one.
-/

namespace OpcUa

open StatusCode

namespace Managers

variable {config : ManagersConfig} {limit : Nat} {managers : Managers}
  {surroundings : RequestSurroundings} {channel : Nat} {request : ServiceRequest}

def Authorised (managers : Managers) (now : Int) (channel : Nat) (token : NodeId)
    (session : Nat) : Prop :=
  ∃ entry, managers.sessionAt session = some entry ∧
    nodeIdEqual entry.authenticationToken token = true ∧ entry.activated = true ∧
    entry.channel = some channel ∧ now ≤ entry.validTill

def Protected (config : ManagersConfig) (managers : Managers) (surroundings : RequestSurroundings)
    (channel : Nat) (request : ServiceRequest) : Prop :=
  ∀ service session, service.sessionRequired = true →
    (managers.processMSG config surroundings channel request).1 = .executed service session →
      ∃ address, session = some address ∧
        Authorised managers surroundings.now channel request.authenticationToken address

def Servable (surroundings : RequestSurroundings) (request : ServiceRequest) (service : Service) :
    Prop :=
  request.service = some service ∧ service.sessionRequired = true ∧ service ≠ .activateSession ∧
    surroundings.decodeStatus = good ∧ (service = .publish ∨ surroundings.beginStatus = good)

def HoldsExpired (managers : Managers) (now : Int) (channel : Nat) (token : NodeId) : Prop :=
  ∃ session entry, managers.getSession channel token = some session ∧
    managers.sessionAt session = some entry ∧ entry.activated = true ∧ entry.validTill < now

theorem executeService_executed (managers : Managers) (service served : Service)
    (session address : Option Nat) :
    (managers.executeService surroundings service session).1 = .executed served address ↔
      service = served ∧ address = session ∧
        (service = .publish ∨ surroundings.beginStatus = good) := by
  rw [executeService]
  by_cases published : service = .publish
  · simp [published, eq_comm]
  by_cases begun : surroundings.beginStatus = good
  · by_cases closes : service = .closeSession
    · subst closes
      cases session.bind managers.sessionAt with
      | none => simp [begun, eq_comm]
      | some entry => simp [begun, eq_comm]
    · simp [published, begun, closes, eq_comm]
  · simp [published, begun]

theorem processMSG_service {service : Service} {session : Option Nat}
    (executes : (managers.processMSG config surroundings channel request).1 =
      .executed service session) : request.service = some service := by
  rw [processMSG] at executes
  split at executes
  · cases executes
  rename_i named asked
  rw [asked]
  iterate 2
    split at executes
    · cases executes
  split at executes
  · iterate 2
      split at executes
      · cases executes
    exact congrArg some ((executeService_executed _ _ _ _ _).mp executes).1
  · split at executes
    · cases executes
    split at executes
    · cases executes
    iterate 2
      split at executes
      · cases executes
    exact congrArg some ((executeService_executed _ _ _ _ _).mp executes).1

theorem processMSG_executed {service : Service} {session : Option Nat}
    (required : service.sessionRequired = true) :
    (managers.processMSG config surroundings channel request).1 = .executed service session ↔
      Servable surroundings request service ∧ ∃ address entry, session = some address ∧
        managers.findSession surroundings.now channel request.authenticationToken = some address ∧
        managers.sessionAt address = some entry ∧ entry.activated = true ∧
        entry.channel = some channel := by
  by_cases asked : request.service = some service
  · have creates : service ≠ .createSession := by
      rintro rfl
      cases required
    rw [processMSG, Servable]
    by_cases decoded : surroundings.decodeStatus = good
    · by_cases activates : service = .activateSession
      · cases found : managers.findSession surroundings.now channel request.authenticationToken with
        | none => simp [asked, decoded, activates]
        | some address => simp [asked, decoded, activates]
      · cases found : managers.findSession surroundings.now channel request.authenticationToken with
        | none => simp [asked, decoded, creates, activates, required]
        | some address =>
          cases stored : managers.sessionAt address with
          | none => simp [asked, decoded, creates, activates, stored]
          | some entry =>
            by_cases active : entry.activated = true
            · by_cases bound : entry.channel = some channel
              · simp [asked, decoded, creates, activates, stored, required, active, bound,
                  executeService_executed, and_comm]
              · simp [asked, decoded, creates, activates, stored, required, active, bound]
            · simp [asked, decoded, creates, activates, stored, required, active]
    · simp [asked, decoded]
  · constructor
    · intro executes
      exact absurd (processMSG_service executes) asked
    · rintro ⟨servable, -⟩
      exact absurd servable.1 asked

theorem findSession_cases {now : Int} {token : NodeId} {session : Nat}
    (found : managers.findSession now channel token = some session) :
    managers.getSession channel token = some session ∨ managers.expired now session = false := by
  rw [findSession] at found
  split at found
  · rename_i held
    injection found with same
    exact .inl (same ▸ held)
  · split at found
    · cases found
    · rw [getSessionByToken] at found
      split at found
      · cases found
      · split at found
        · cases found
        · rename_i alive
          injection found with same
          exact .inr (same ▸ Bool.eq_false_iff.mpr alive)

theorem getSession_bound (known : Bookkept config limit managers) {token : NodeId}
    {session : Nat} (found : managers.getSession channel token = some session) :
    ∃ entry, managers.sessionAt session = some entry ∧ entry.channel = some channel := by
  rw [getSession] at found
  split at found
  · cases found
  · rename_i place placed
    exact known.listed placed (List.mem_of_find?_eq_some found)

/-- In every state that is reached, a request is served under protection exactly if it is not one
that could be served and whose session in the list of the channel has expired. -/
theorem service_protected {allowed : Managers → Event → Prop} (run : Run config allowed managers)
    (surroundings : RequestSurroundings) (channel : Nat) (request : ServiceRequest) :
    Protected config managers surroundings channel request ↔
      ¬((∃ service, Servable surroundings request service) ∧
        HoldsExpired managers surroundings.now channel request.authenticationToken) := by
  obtain ⟨limit, known⟩ := run.bookkept_some
  constructor
  · rintro holds ⟨⟨service, servable⟩, session, entry, found, stored, active, lapsed⟩
    obtain ⟨same, held, bound⟩ := getSession_bound known found
    rw [stored] at held
    injection held with held
    subst held
    have reached : managers.findSession surroundings.now channel request.authenticationToken =
        some session := by
      rw [findSession, found]
    have executes : (managers.processMSG config surroundings channel request).1 =
        .executed service (some session) := (processMSG_executed servable.2.1).mpr
      ⟨servable, session, entry, rfl, reached, stored, active, bound⟩
    obtain ⟨address, names, entry', stored', -, -, -, alive⟩ :=
      holds service (some session) servable.2.1 executes
    injection names with names
    subst names
    rw [stored] at stored'
    injection stored' with same
    subst same
    omega
  · intro spared service session required executes
    obtain ⟨servable, address, entry, names, found, stored, active, bound⟩ :=
      (processMSG_executed required).mp executes
    refine ⟨address, names, entry, stored, ?_, active, bound, ?_⟩
    · have named := findSession_named found
      simpa [hasToken, stored] using named
    · by_contra lapsed
      rcases findSession_cases found with held | alive
      · exact spared ⟨⟨service, servable⟩, address, entry, held, stored, active,
          Int.lt_of_not_ge lapsed⟩
      · simp [expired, stored] at alive
        omega

def generousConfig : ManagersConfig := ⟨8, 8, 1000⟩

def calmSurroundings (now : Int) : RequestSurroundings where
  now := now
  memory _ := true
  entryMemory := true
  newToken := ⟨1, .numeric 7⟩
  decodeStatus := good
  certificateStatus := good
  endpointsStatus := good
  signatureStatus := good
  accessControlStatus := good
  nonceStatus := good
  responseStatus := good
  beginStatus := good

def serviceRequest (requestTypeId : BitVec 32) : ServiceRequest :=
  ⟨⟨0, .numeric requestTypeId⟩, ⟨1, .numeric 7⟩, 1000⟩

def requestEvent (now : Int) (requestTypeId : BitVec 32) : Event :=
  .request 0 (calmSurroundings now) (serviceRequest requestTypeId)

def activatedManagers : Managers :=
  (((initial.step generousConfig (.createChannel 0 (fun _ => true) true good)).step
    generousConfig (.openChannel 0 (fun _ => true) good good good)).step
    generousConfig (requestEvent 0 461)).step generousConfig (requestEvent 10 467)

theorem activatedManagers_run : Run generousConfig (fun _ _ => True) activatedManagers :=
  (((Run.initial.step _ trivial).step _ trivial).step _ trivial).step _ trivial

theorem readRequest_protected :
    Protected generousConfig activatedManagers (calmSurroundings 1010) 0 (serviceRequest 631) :=
  (service_protected activatedManagers_run (calmSurroundings 1010) 0 (serviceRequest 631)).mpr (by
    rintro ⟨-, session, entry, found, stored, -, lapsed⟩
    have first : activatedManagers.getSession 0 ⟨1, .numeric 7⟩ = some 1 := by decide +kernel
    rw [show (serviceRequest 631).authenticationToken = ⟨1, .numeric 7⟩ from rfl, first] at found
    injection found with same
    subst same
    have second : activatedManagers.sessionAt 1 =
        some ⟨⟨1, .numeric 7⟩, some 0, true, 1000, 1010⟩ := by decide +kernel
    rw [second] at stored
    injection stored with same
    subst same
    exact absurd lapsed (by decide))

/-- The session has expired at the time 1010. At the time 2000 nobody has cleaned up yet, and the
request is served. -/
theorem readRequest_expired : Run generousConfig (fun _ _ => True) activatedManagers ∧
      (activatedManagers.processMSG generousConfig (calmSurroundings 2000) 0
        (serviceRequest 631)).1 = .executed .read (some 1) ∧
      (activatedManagers.sessionAt 1).map ManagedSession.validTill = some 1010 ∧
      ¬Protected generousConfig activatedManagers (calmSurroundings 2000) 0
        (serviceRequest 631) := by
  have executes : (activatedManagers.processMSG generousConfig (calmSurroundings 2000) 0
      (serviceRequest 631)).1 = .executed .read (some 1) := by decide +kernel
  have ends : (activatedManagers.sessionAt 1).map ManagedSession.validTill = some 1010 := by
    decide +kernel
  refine ⟨activatedManagers_run, executes, ends, ?_⟩
  intro holds
  obtain ⟨address, names, entry, stored, -, -, -, alive⟩ :=
    holds .read (some 1) rfl executes
  injection names with names
  subst names
  rw [stored] at ends
  injection ends with ends
  rw [ends] at alive
  exact absurd alive (by decide)

end Managers

end OpcUa
