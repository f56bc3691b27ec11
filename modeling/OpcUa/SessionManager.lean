import OpcUa.Library.Register
import OpcUa.SessionManagerCore

/-!
The bookkeeping of sessions and SecureChannels over whole runs: the counts, the limits, and the
links between the sessions and their channels.
-/

namespace OpcUa

open StatusCode CrossLinks Registers List

namespace Managers

variable {change : ManagedChannel → ManagedChannel} {managers : Managers} {channel : Nat}

def links (managers : Managers) : Links Nat Nat where
  ownerOf session := (managers.sessionAt session).bind ManagedSession.channel
  members channel := ((managers.channelAt channel).map ManagedChannel.sessions).getD []

/-- What holds between two steps. The limit of the channels is a parameter, as only the creation
of a channel depends on it. -/
structure Bookkept (config : ManagersConfig) (limit : Nat) (managers : Managers) : Prop where
  consistent : Consistent managers.links
  sessions_nodup : managers.sessions.Nodup
  sessions_stored : ∀ session ∈ managers.sessions, managers.sessionAt session ≠ none
  sessionCount : managers.currentSessionCount = managers.sessions.length
  sessionLimit : managers.currentSessionCount ≤ config.maxSessions
  channels_nodup : managers.channels.Nodup
  channels_stored : ∀ channel ∈ managers.channels, managers.channelAt channel ≠ none
  channelCount : managers.currentChannelCount = managers.channels.length
  channelLimit : managers.currentChannelCount ≤ limit
  fresh : ∀ address, managers.nextAddress ≤ address →
    managers.sessionAt address = none ∧ managers.channelAt address = none
  pendingSessions : ∀ session, .removeSession session ∈ managers.delayedCallbacks →
    session ∉ managers.sessions ∧ session < managers.nextAddress
  pendingChannels : ∀ channel, .removeSecureChannel channel ∈ managers.delayedCallbacks →
    channel ∉ managers.channels ∧ channel < managers.nextAddress

theorem initial_bookkept (config : ManagersConfig) (limit : Nat) :
    Bookkept config limit initial where
  consistent := Links.empty_consistent
  sessions_nodup := nodup_nil
  sessions_stored _ listed := absurd listed not_mem_nil
  sessionCount := rfl
  sessionLimit := Nat.zero_le _
  channels_nodup := nodup_nil
  channels_stored _ listed := absurd listed not_mem_nil
  channelCount := rfl
  channelLimit := Nat.zero_le _
  fresh _ _ := ⟨rfl, rfl⟩
  pendingSessions _ listed := absurd listed not_mem_nil
  pendingChannels _ listed := absurd listed not_mem_nil

section

variable {config : ManagersConfig} {limit : Nat}

theorem Bookkept.register (known : Bookkept config limit managers) :
    Register managers.sessionAt managers.sessions managers.currentSessionCount config.maxSessions
      managers.nextAddress fun session => .removeSession session ∈ managers.delayedCallbacks where
  nodup := known.sessions_nodup
  stored := known.sessions_stored
  counted := known.sessionCount
  limited := known.sessionLimit
  fresh address new := (known.fresh address new).1
  unlisted := known.pendingSessions

theorem Bookkept.channelRegister (known : Bookkept config limit managers) :
    Register managers.channelAt managers.channels managers.currentChannelCount limit
      managers.nextAddress
      fun channel => .removeSecureChannel channel ∈ managers.delayedCallbacks where
  nodup := known.channels_nodup
  stored := known.channels_stored
  counted := known.channelCount
  limited := known.channelLimit
  fresh address new := (known.fresh address new).2
  unlisted := known.pendingChannels

theorem Bookkept.of_registers (consistent : Consistent managers.links)
    (sessions : Register managers.sessionAt managers.sessions managers.currentSessionCount
      config.maxSessions managers.nextAddress
      fun session => .removeSession session ∈ managers.delayedCallbacks)
    (channels : Register managers.channelAt managers.channels managers.currentChannelCount limit
      managers.nextAddress
      fun channel => .removeSecureChannel channel ∈ managers.delayedCallbacks) :
    Bookkept config limit managers :=
  ⟨consistent, sessions.nodup, sessions.stored, sessions.counted, sessions.limited,
    channels.nodup, channels.stored, channels.counted, channels.limited,
    fun address new => ⟨sessions.fresh address new, channels.fresh address new⟩,
    sessions.unlisted, channels.unlisted⟩

end

/-! Changes that neither make nor free an object -/

/-- The lists of the managers stay, and so does the set of the objects. The links agree as they
did before. -/
structure Rearranges (managers after : Managers) : Prop where
  sessions : after.sessions = managers.sessions
  currentSessionCount : after.currentSessionCount = managers.currentSessionCount
  channels : after.channels = managers.channels
  currentChannelCount : after.currentChannelCount = managers.currentChannelCount
  delayedCallbacks : after.delayedCallbacks = managers.delayedCallbacks
  nextAddress : after.nextAddress = managers.nextAddress
  sessionAt : ∀ address, after.sessionAt address = none ↔ managers.sessionAt address = none
  channelAt : ∀ address, after.channelAt address = none ↔ managers.channelAt address = none
  consistent : Consistent managers.links → Consistent after.links

section Rearranging

variable {managers middle after : Managers} {config : ManagersConfig} {limit : Nat}

theorem Rearranges.refl (managers : Managers) : Rearranges managers managers :=
  ⟨rfl, rfl, rfl, rfl, rfl, rfl, fun _ => Iff.rfl, fun _ => Iff.rfl, id⟩

theorem Rearranges.trans (first : Rearranges managers middle) (second : Rearranges middle after) :
    Rearranges managers after where
  sessions := second.sessions.trans first.sessions
  currentSessionCount := second.currentSessionCount.trans first.currentSessionCount
  channels := second.channels.trans first.channels
  currentChannelCount := second.currentChannelCount.trans first.currentChannelCount
  delayedCallbacks := second.delayedCallbacks.trans first.delayedCallbacks
  nextAddress := second.nextAddress.trans first.nextAddress
  sessionAt address := (second.sessionAt address).trans (first.sessionAt address)
  channelAt address := (second.channelAt address).trans (first.channelAt address)
  consistent known := second.consistent (first.consistent known)

theorem Rearranges.bookkept (rearranges : Rearranges managers after)
    (known : Bookkept config limit managers) : Bookkept config limit after where
  consistent := rearranges.consistent known.consistent
  sessions_nodup := rearranges.sessions ▸ known.sessions_nodup
  sessions_stored session listed := by
    rw [Ne, rearranges.sessionAt]
    exact known.sessions_stored session (rearranges.sessions ▸ listed)
  sessionCount := by
    rw [rearranges.currentSessionCount, rearranges.sessions]
    exact known.sessionCount
  sessionLimit := rearranges.currentSessionCount ▸ known.sessionLimit
  channels_nodup := rearranges.channels ▸ known.channels_nodup
  channels_stored channel listed := by
    rw [Ne, rearranges.channelAt]
    exact known.channels_stored channel (rearranges.channels ▸ listed)
  channelCount := by
    rw [rearranges.currentChannelCount, rearranges.channels]
    exact known.channelCount
  channelLimit := rearranges.currentChannelCount ▸ known.channelLimit
  fresh address new := by
    rw [rearranges.sessionAt, rearranges.channelAt]
    exact known.fresh address (rearranges.nextAddress ▸ new)
  pendingSessions session := by
    rw [rearranges.delayedCallbacks, rearranges.sessions, rearranges.nextAddress]
    exact known.pendingSessions session
  pendingChannels channel := by
    rw [rearranges.delayedCallbacks, rearranges.channels, rearranges.nextAddress]
    exact known.pendingChannels channel

end Rearranging

theorem update_map_eq_none {Entry : Type} (objects : Nat → Option Entry) (address : Nat)
    (change : Entry → Entry) (other : Nat) :
    Function.update objects address ((objects address).map change) other = none ↔
      objects other = none := by
  by_cases same : other = address
  · subst same
    simp
  · rw [Function.update_of_ne same]

theorem modifySession_rearranges (managers : Managers) (address : Nat)
    {change : ManagedSession → ManagedSession}
    (keeps : ∀ entry, (change entry).channel = entry.channel) :
    Rearranges managers (managers.modifySession address change) := by
  refine ⟨rfl, rfl, rfl, rfl, rfl, rfl, update_map_eq_none managers.sessionAt address change,
    fun _ => Iff.rfl, ?_⟩
  intro consistent
  have same : (managers.modifySession address change).links = managers.links := by
    refine Links.ext (view_update (·.bind ManagedSession.channel) ?_) rfl
    cases managers.sessionAt address <;> simp [keeps]
  rw [same]
  exact consistent

theorem modifyChannel_links (managers : Managers) (address : Nat)
    (keeps : ∀ entry, (change entry).sessions = entry.sessions) :
    (managers.modifyChannel address change).links = managers.links := by
  refine Links.ext rfl (view_update (fun stored => (stored.map ManagedChannel.sessions).getD []) ?_)
  cases managers.channelAt address <;> simp [keeps]

theorem modifyChannel_rearranges (managers : Managers) (address : Nat)
    (keeps : ∀ entry, (change entry).sessions = entry.sessions) :
    Rearranges managers (managers.modifyChannel address change) := by
  refine ⟨rfl, rfl, rfl, rfl, rfl, rfl, fun _ => Iff.rfl,
    update_map_eq_none managers.channelAt address change, ?_⟩
  rw [modifyChannel_links managers address keeps]
  exact id

theorem detachFromSecureChannel_rearranges (managers : Managers) (session : Nat) :
    Rearranges managers (managers.detachFromSecureChannel session) := by
  rw [detachFromSecureChannel]
  split
  · exact Rearranges.refl managers
  · refine ⟨rfl, rfl, rfl, rfl, rfl, rfl, update_map_eq_none managers.sessionAt session _,
      fun address => by simp [modifySession], ?_⟩
    intro consistent
    have detached := Links.detach_consistent consistent session
    convert detached using 1
    apply Links.ext
    · funext other
      by_cases here : other = session
      · subst here
        cases stored : managers.sessionAt other with
        | none => simp [links, modifySession, Links.detach, stored]
        | some entry => simp [links, modifySession, Links.detach, stored]
      · simp [links, modifySession, Links.detach, here]
    · funext channel
      cases stored : managers.channelAt channel with
      | none => simp [links, modifySession, Links.detach, stored]
      | some entry => simp [links, modifySession, Links.detach, stored]

theorem attachToSecureChannel_rearranges {session : Nat}
    (free : (managers.sessionAt session).bind ManagedSession.channel = none)
    (storedSession : managers.sessionAt session ≠ none)
    (storedChannel : managers.channelAt channel ≠ none) :
    Rearranges managers (managers.attachToSecureChannel session channel) := by
  refine ⟨rfl, rfl, rfl, rfl, rfl, rfl, update_map_eq_none managers.sessionAt session _,
    update_map_eq_none managers.channelAt channel _, ?_⟩
  intro consistent
  have attached := Links.attach_consistent consistent free channel
  convert attached using 1
  obtain ⟨entry, stored⟩ := Option.ne_none_iff_exists'.mp storedSession
  obtain ⟨place, placed⟩ := Option.ne_none_iff_exists'.mp storedChannel
  apply Links.ext
  · funext other
    by_cases here : other = session
    · subst here
      simp [links, attachToSecureChannel, modifyChannel, modifySession, Links.attach, stored]
    · simp [links, attachToSecureChannel, modifyChannel, modifySession, Links.attach, here]
  · funext other
    by_cases here : other = channel
    · subst here
      simp [links, attachToSecureChannel, modifyChannel, modifySession, Links.attach, placed]
    · simp [links, attachToSecureChannel, modifyChannel, modifySession, Links.attach, here]

theorem setConnections_rearranges (managers : Managers) (connections : Nat → Option Nat) :
    Rearranges managers { managers with connections } :=
  ⟨rfl, rfl, rfl, rfl, rfl, rfl, fun _ => Iff.rfl, fun _ => Iff.rfl, id⟩

theorem detachSecureChannel_rearranges (managers : Managers) (connection : Nat) :
    Rearranges managers (managers.detachSecureChannel connection) := by
  refine Rearranges.trans ?_ (setConnections_rearranges _ _)
  split
  · exact Rearranges.refl managers
  · rename_i channel attached
    exact modifyChannel_rearranges managers channel fun _ => rfl

theorem detachSecureChannel_links (managers : Managers) (connection : Nat) :
    (managers.detachSecureChannel connection).links = managers.links := by
  rw [detachSecureChannel]
  split
  · rfl
  · rename_i channel attached
    exact modifyChannel_links managers channel fun _ => rfl

theorem dissolve_rearranges {sessions : List Nat}
    (listed : managers.links.members channel = sessions) :
    Rearranges managers (({ managers with
      sessionAt := fun session =>
        if session ∈ sessions then
          (managers.sessionAt session).map fun other => { other with channel := none }
        else managers.sessionAt session } : Managers).modifyChannel channel fun entry =>
          { entry with sessions := [] }) := by
  subst listed
  refine ⟨rfl, rfl, rfl, rfl, rfl, rfl, ?_, update_map_eq_none managers.channelAt channel _, ?_⟩
  · intro session
    by_cases member : session ∈ managers.links.members channel
    · simp [modifyChannel, member]
    · simp [modifyChannel, member]
  · intro consistent
    have dissolved := Links.dissolve_consistent consistent channel
    convert dissolved using 1
    apply Links.ext
    · funext session
      by_cases member : session ∈ managers.links.members channel
      · simp only [links, modifyChannel, Links.dissolve] at member ⊢
        cases stored : managers.sessionAt session with
        | none => simp [member]
        | some entry => simp [member]
      · simp only [links, modifyChannel, Links.dissolve] at member ⊢
        simp [member]
    · funext other
      by_cases here : other = channel
      · subst here
        cases stored : managers.channelAt other with
        | none => simp [links, modifyChannel, Links.dissolve, stored]
        | some entry => simp [links, modifyChannel, Links.dissolve, stored]
      · simp [links, modifyChannel, Links.dissolve, here]

theorem deleteMembersCleanup_rearranges (managers : Managers) (channel : Nat) :
    Rearranges managers (managers.deleteMembersCleanup channel) := by
  rw [deleteMembersCleanup]
  split
  · exact Rearranges.refl managers
  · rename_i entry stored
    have listed : managers.links.members channel = entry.sessions := by simp [links, stored]
    split
    · exact dissolve_rearranges listed
    · rename_i connection attached
      rw [← detachSecureChannel_links managers connection] at listed
      exact (detachSecureChannel_rearranges managers connection).trans (dissolve_rearranges listed)

section Removal

variable {config : ManagersConfig} {limit : Nat} {managers : Managers}
variable {session : Nat}

section

variable (known : Bookkept config limit managers)
include known

theorem removeSession_bookkept (memory : Bool) (listed : session ∈ managers.sessions) :
    Bookkept config limit (removeSession memory managers session).2 := by
  have rearranges := (detachFromSecureChannel_rearranges managers session).trans
    (modifySession_rearranges (managers.detachFromSecureChannel session) session
      fun entry => (rfl : ({ entry with activated := false } : ManagedSession).channel = _))
  have detached := rearranges.bookkept known
  rw [← rearranges.sessions] at listed
  rw [removeSession]
  generalize (managers.detachFromSecureChannel session).modifySession session _ = after
    at detached listed
  split
  · exact detached
  · refine .of_registers detached.consistent ((detached.register.remove listed).weaken ?_)
      (detached.channelRegister.weaken ?_)
    · simp
    · simp

theorem removeSecureChannel_bookkept (memory : Bool) {channel : Nat}
    (listed : channel ∈ managers.channels) :
    Bookkept config limit (removeSecureChannel memory managers channel).2 := by
  rw [removeSecureChannel]
  split
  · exact known
  · refine .of_registers known.consistent (known.register.weaken ?_)
      ((known.channelRegister.remove listed).weaken ?_)
    · simp
    · simp

theorem removeSessionByToken_bookkept (memory : Nat → Bool) (token : NodeId) :
    Bookkept config limit (removeSessionByToken memory managers token).2 := by
  rw [removeSessionByToken]
  split
  · exact known
  · rename_i session found
    exact removeSession_bookkept known (memory session) (mem_of_find?_eq_some found)

theorem closeChannel_bookkept (memory : Nat → Bool) (channelId : BitVec 32) :
    Bookkept config limit (managers.closeChannel memory channelId).2 := by
  rw [closeChannel]
  split
  · exact known
  · rename_i channel found
    exact removeSecureChannel_bookkept known (memory channel) (mem_of_find?_eq_some found)

end

theorem foldl_bookkept {listed : Managers → List Nat} {visit : Managers → Nat → Managers}
    (keeps : ∀ managers entry, Bookkept config limit managers → entry ∈ listed managers →
      Bookkept config limit (visit managers entry))
    (leaves : ∀ managers entry other, other ≠ entry → other ∈ listed managers →
      other ∈ listed (visit managers entry)) :
    ∀ (entries : List Nat) (managers : Managers), entries.Nodup →
      (∀ entry ∈ entries, entry ∈ listed managers) → Bookkept config limit managers →
      Bookkept config limit (entries.foldl visit managers) := by
  intro entries
  induction entries with
  | nil =>
    intro managers _ _ known
    exact known
  | cons entry entries ih =>
    intro managers nodup present known
    obtain ⟨absent, nodup⟩ := nodup_cons.mp nodup
    apply ih (visit managers entry) nodup
    · intro other later
      have different : other ≠ entry := fun same => absent (same ▸ later)
      exact leaves managers entry other different (present other (mem_cons_of_mem _ later))
    · exact keeps managers entry known (present entry mem_cons_self)

theorem removeSession_leaves (memory : Bool) (managers : Managers) {other : Nat}
    (different : other ≠ session) (listed : other ∈ managers.sessions) :
    other ∈ (removeSession memory managers session).2.sessions := by
  have same := (detachFromSecureChannel_rearranges managers session).sessions
  rw [← same] at listed
  rw [removeSession]
  split
  · exact listed
  · exact (mem_erase_of_ne different).mpr listed

theorem cleanupSessions_bookkept (known : Bookkept config limit managers) (memory : Nat → Bool)
    (now : Int) : Bookkept config limit (managers.cleanupSessions memory now) := by
  refine foldl_bookkept ?_ ?_ managers.sessions managers known.sessions_nodup (fun _ => id) known
  · intro managers session known listed
    split
    · exact removeSession_bookkept known (memory session) listed
    · exact known
  · intro managers session other different listed
    split
    · exact removeSession_leaves (memory session) managers different listed
    · exact listed

theorem cleanupChannels_bookkept (known : Bookkept config limit managers)
    (memory timedOut : Nat → Bool) :
    Bookkept config limit (managers.cleanupChannels memory timedOut) := by
  refine foldl_bookkept ?_ ?_ managers.channels managers known.channels_nodup (fun _ => id) known
  · intro managers channel known listed
    split
    · exact removeSecureChannel_bookkept known (memory channel) listed
    · exact known
  · intro managers channel other different listed
    split
    · rw [removeSecureChannel]
      split
      · exact listed
      · exact (mem_erase_of_ne different).mpr listed
    · exact listed

end Removal

section Callbacks

variable {config : ManagersConfig} {limit : Nat} {managers : Managers}

theorem freeSession_bookkept (known : Bookkept config limit managers) {session : Nat}
    (unlisted : session ∉ managers.sessions)
    (free : (managers.sessionAt session).bind ManagedSession.channel = none) :
    Bookkept config limit
      { managers with sessionAt := Function.update managers.sessionAt session none } := by
  have same : ({ managers with
      sessionAt := Function.update managers.sessionAt session none } : Managers).links =
      managers.links :=
    Links.ext (view_update (·.bind ManagedSession.channel) free.symm) rfl
  exact .of_registers (same ▸ known.consistent) (known.register.free unlisted) known.channelRegister

theorem freeChannel_bookkept (known : Bookkept config limit managers) {channel : Nat}
    (unlisted : channel ∉ managers.channels) (vacant : managers.links.members channel = []) :
    Bookkept config limit
      { managers with channelAt := Function.update managers.channelAt channel none } := by
  have same : ({ managers with
      channelAt := Function.update managers.channelAt channel none } : Managers).links =
      managers.links :=
    Links.ext rfl (view_update (fun stored => (stored.map ManagedChannel.sessions).getD [])
      vacant.symm)
  exact .of_registers (same ▸ known.consistent) known.register (known.channelRegister.free unlisted)

theorem detachFromSecureChannel_free (managers : Managers) (session : Nat) :
    ((managers.detachFromSecureChannel session).sessionAt session).bind ManagedSession.channel =
      none := by
  rw [detachFromSecureChannel]
  split
  · assumption
  · cases stored : managers.sessionAt session with
    | none => simp [modifySession, stored]
    | some entry => simp [modifySession, stored]

theorem deleteMembersCleanup_vacant (managers : Managers) (channel : Nat) :
    (managers.deleteMembersCleanup channel).links.members channel = [] := by
  rw [deleteMembersCleanup]
  split
  · rename_i stored
    simp [links, stored]
  · simp only [links, modifyChannel, Function.update_self]
    generalize Managers.channelAt _ channel = stored
    cases stored with
    | none => rfl
    | some entry => rfl

theorem executeCallback_bookkept (known : Bookkept config limit managers)
    {callback : DelayedCallback}
    (unlisted : ∀ address, (callback = .removeSession address → address ∉ managers.sessions) ∧
      (callback = .removeSecureChannel address → address ∉ managers.channels)) :
    Bookkept config limit (managers.executeCallback callback) ∧
      (managers.executeCallback callback).sessions = managers.sessions ∧
      (managers.executeCallback callback).channels = managers.channels := by
  cases callback with
  | removeSession session =>
    have rearranges := detachFromSecureChannel_rearranges managers session
    refine ⟨?_, rearranges.sessions, rearranges.channels⟩
    apply freeSession_bookkept (rearranges.bookkept known)
    · rw [rearranges.sessions]
      exact (unlisted session).1 rfl
    · exact detachFromSecureChannel_free managers session
  | removeSecureChannel channel =>
    have rearranges := deleteMembersCleanup_rearranges managers channel
    refine ⟨?_, rearranges.sessions, rearranges.channels⟩
    apply freeChannel_bookkept (rearranges.bookkept known)
    · rw [rearranges.channels]
      exact (unlisted channel).2 rfl
    · exact deleteMembersCleanup_vacant managers channel

theorem executeCallbacks_bookkept : ∀ (callbacks : List DelayedCallback) (managers : Managers),
    Bookkept config limit managers →
    (∀ session, .removeSession session ∈ callbacks → session ∉ managers.sessions) →
    (∀ channel, .removeSecureChannel channel ∈ callbacks → channel ∉ managers.channels) →
    Bookkept config limit (callbacks.foldl executeCallback managers) := by
  intro callbacks
  induction callbacks with
  | nil =>
    intro managers known _ _
    exact known
  | cons callback callbacks ih =>
    intro managers known sessions channels
    obtain ⟨executed, sameSessions, sameChannels⟩ := executeCallback_bookkept known
      (fun address => ⟨fun same => sessions address (same ▸ mem_cons_self),
        fun same => channels address (same ▸ mem_cons_self)⟩ :
        ∀ address, (callback = .removeSession address → address ∉ managers.sessions) ∧
          (callback = .removeSecureChannel address → address ∉ managers.channels))
    apply ih (managers.executeCallback callback) executed
    · intro session later
      rw [sameSessions]
      exact sessions session (mem_cons_of_mem _ later)
    · intro channel later
      rw [sameChannels]
      exact channels channel (mem_cons_of_mem _ later)

theorem cleanupDelayedCallbacks_bookkept (known : Bookkept config limit managers) :
    Bookkept config limit managers.cleanupDelayedCallbacks := by
  have emptied : Bookkept config limit { managers with delayedCallbacks := [] } :=
    { known with
      pendingSessions := fun _ pending => absurd pending not_mem_nil
      pendingChannels := fun _ pending => absurd pending not_mem_nil }
  exact executeCallbacks_bookkept managers.delayedCallbacks _ emptied
    (fun session pending => (known.pendingSessions session pending).1)
    (fun channel pending => (known.pendingChannels channel pending).1)

end Callbacks

section Creation

variable {config : ManagersConfig} {limit : Nat} {managers : Managers}
variable {memory : Nat → Bool}
variable {after : Managers}

theorem insertSession_bookkept (known : Bookkept config limit managers)
    (room : managers.currentSessionCount < config.maxSessions) {session : ManagedSession}
    (free : session.channel = none) :
    Bookkept config limit (managers.insertSession session) := by
  have new := (known.fresh managers.nextAddress (Nat.le_refl _)).1
  have same : (managers.insertSession session).links = managers.links :=
    Links.ext (view_update (·.bind ManagedSession.channel) (by simp [new, free])) rfl
  exact .of_registers (same ▸ known.consistent) (known.register.insert room session)
    known.channelRegister.advance

theorem insertChannel_bookkept {former : Nat} (known : Bookkept config former managers)
    (room : managers.currentChannelCount < limit) {channel : ManagedChannel}
    (vacant : channel.sessions = []) : Bookkept config limit (managers.insertChannel channel) := by
  have new := (known.fresh managers.nextAddress (Nat.le_refl _)).2
  have same : (managers.insertChannel channel).links = managers.links :=
    Links.ext rfl (view_update (fun stored => (stored.map ManagedChannel.sessions).getD [])
      (by simp [new, vacant]))
  exact .of_registers (same ▸ known.consistent) known.register.advance
    (known.channelRegister.insert room channel)

theorem Bookkept.raise (known : Bookkept config limit managers) :
    Bookkept config (limit + 1) managers :=
  { known with channelLimit := Nat.le_succ_of_le known.channelLimit }

def PurgeRegisters (config : ManagersConfig) (managers : Managers) (memory : Nat → Bool) : Prop :=
  managers.currentChannelCount ≥ config.maxSecureChannels →
    ∀ channel, managers.channels.find? managers.withoutSession = some channel →
      memory channel = true

theorem purge_bookkept (known : Bookkept config limit managers)
    (purges : (if managers.currentChannelCount ≥ config.maxSecureChannels then
      managers.purgeFirstChannelWithoutSession memory else some managers) = some after) :
    Bookkept config limit after := by
  split at purges
  · rw [purgeFirstChannelWithoutSession] at purges
    split at purges
    · cases purges
    · rename_i channel found
      injection purges with same
      exact same ▸ removeSecureChannel_bookkept known (memory channel) (mem_of_find?_eq_some found)
  · injection purges with same
    exact same ▸ known

section

variable (known : Bookkept config config.maxSecureChannels managers)
  (registers : PurgeRegisters config managers memory)
include known registers

theorem purge_room (purges : (if managers.currentChannelCount ≥ config.maxSecureChannels then
      managers.purgeFirstChannelWithoutSession memory else some managers) = some after) :
    after.currentChannelCount < config.maxSecureChannels := by
  split at purges
  · rename_i full
    rw [purgeFirstChannelWithoutSession] at purges
    split at purges
    · cases purges
    · rename_i channel found
      injection purges with same
      have listed := length_pos_of_mem (mem_of_find?_eq_some found)
      have count := known.channelCount
      have limit := known.channelLimit
      subst same
      simp only [removeSecureChannel, registers full channel found, Bool.not_true,
        Bool.false_eq_true, if_false]
      omega
  · rename_i room
    injection purges with same
    exact same ▸ Nat.lt_of_not_ge room

theorem createChannel_bookkept (entryMemory : Bool) (initStatus : StatusCode) (connection : Nat) :
    Bookkept config config.maxSecureChannels
      (managers.createChannel config memory entryMemory initStatus connection).2 := by
  rw [createChannel]
  split
  · exact known
  split
  · exact known
  · rename_i after purges
    have purged := purge_bookkept known purges
    split
    · exact purged
    split
    · exact purged
    · exact (setConnections_rearranges _ _).bookkept
        (insertChannel_bookkept purged (purge_room known registers purges) rfl)

end

theorem createChannel_raises (known : Bookkept config limit managers) (memory : Nat → Bool)
    (entryMemory : Bool) (initStatus : StatusCode) (connection : Nat) :
    Bookkept config (limit + 1)
      (managers.createChannel config memory entryMemory initStatus connection).2 := by
  rw [createChannel]
  split
  · exact known.raise
  split
  · exact known.raise
  · rename_i after purges
    have purged := purge_bookkept known purges
    split
    · exact purged.raise
    split
    · exact purged.raise
    · exact (setConnections_rearranges _ _).bookkept
        (insertChannel_bookkept purged (Nat.lt_succ_of_le purged.channelLimit) rfl)

theorem openChannel_bookkept (known : Bookkept config limit managers) (memory : Nat → Bool)
    (policyStatus keyStatus sendStatus : StatusCode) (channel : Nat) :
    Bookkept config limit
      (managers.openChannel memory policyStatus keyStatus sendStatus channel).2 := by
  rw [openChannel]
  split
  · exact known
  split
  · exact closeChannel_bookkept known memory _
  split
  · exact closeChannel_bookkept known memory _
  · have named : Bookkept config limit { managers.modifyChannel channel fun entry =>
        { entry with channelId := managers.lastChannelId } with
        lastChannelId := managers.lastChannelId + 1 } := by
      have changed := (modifyChannel_rearranges managers channel fun entry =>
        (rfl : ({ entry with channelId := managers.lastChannelId } : ManagedChannel).sessions =
          _)).bookkept known
      exact { changed with }
    split
    · exact closeChannel_bookkept named memory _
    · have opened := (modifyChannel_rearranges _ channel fun entry =>
        (rfl : ({ entry with opened := true } : ManagedChannel).sessions = _)).bookkept named
      split
      · exact closeChannel_bookkept opened memory _
      · exact opened

end Creation

section Services

variable {config : ManagersConfig} {limit : Nat} {managers : Managers}
variable {session channel : Nat}
variable {now : Int} {token : NodeId}

theorem createSession_cases (config : ManagersConfig) (surroundings : RequestSurroundings)
    (managers : Managers) (requestedSessionTimeout : Int) :
    (∃ status, status ≠ good ∧
      createSession config surroundings managers requestedSessionTimeout = (status, managers, 0)) ∨
    (managers.currentSessionCount < config.maxSessions ∧ ∃ session, session.channel = none ∧
      createSession config surroundings managers requestedSessionTimeout =
        (good, managers.insertSession session, managers.nextAddress)) := by
  rw [createSession]
  split
  · exact .inl ⟨badTooManySessions, by decide, rfl⟩
  · rename_i room
    split
    · exact .inl ⟨badOutOfMemory, by decide, rfl⟩
    · exact .inr ⟨Nat.lt_of_not_ge room, _, rfl, rfl⟩

theorem serviceCreateSession_bookkept (known : Bookkept config limit managers)
    (surroundings : RequestSurroundings) (channel : Nat) (requestedSessionTimeout : Int) :
    Bookkept config limit (managers.serviceCreateSession config surroundings channel
      requestedSessionTimeout).2 := by
  rw [serviceCreateSession]
  split
  · exact known
  rename_i entry stored
  iterate 4
    split
    · exact known
  rcases createSession_cases config surroundings managers requestedSessionTimeout with
    ⟨status, fails, outcome⟩ | ⟨room, session, free, outcome⟩
  · simp only [outcome, if_pos fails]
    exact known
  · have made := insertSession_bookkept known room free
    have attaches : Rearranges (managers.insertSession session)
        ((managers.insertSession session).attachToSecureChannel managers.nextAddress channel) := by
      apply attachToSecureChannel_rearranges
      · simp [insertSession, free]
      · simp [insertSession]
      · simp [insertSession, stored]
    have attached := attaches.bookkept made
    simp only [outcome, ne_eq, not_true_eq_false, if_false]
    split
    · exact removeSessionByToken_bookkept attached _ _
    · exact attached

theorem transferSession_rearranges (storedSession : managers.sessionAt session ≠ none)
    (storedChannel : managers.channelAt channel ≠ none) :
    Rearranges managers (managers.transferSession session channel) := by
  rw [transferSession]
  split
  · have detaches := detachFromSecureChannel_rearranges managers session
    refine detaches.trans (attachToSecureChannel_rearranges
      (detachFromSecureChannel_free managers session) ?_ ?_)
    · rwa [Ne, detaches.sessionAt]
    · rwa [Ne, detaches.channelAt]
  · exact Rearranges.refl managers

section

variable (known : Bookkept config limit managers) (surroundings : RequestSurroundings)
include known

theorem serviceActivateSession_bookkept (storedSession : managers.sessionAt session ≠ none)
    (storedChannel : managers.channelAt channel ≠ none) :
    Bookkept config limit (managers.serviceActivateSession surroundings channel session).2 := by
  rw [serviceActivateSession]
  iterate 3
    split
    · exact known
  have transferred := transferSession_rearranges storedSession storedChannel
  dsimp only
  generalize managers.transferSession session channel = middle at transferred ⊢
  have activates : Rearranges middle (middle.modifySession session fun entry =>
      updateLifetime surroundings.now { entry with activated := true }) :=
    modifySession_rearranges middle session fun _ => rfl
  have activated := (transferred.trans activates).bookkept known
  split
  · have detached := (detachFromSecureChannel_rearranges _ session).bookkept activated
    have deactivates (managers : Managers) : Rearranges managers
        (managers.modifySession session fun entry => { entry with activated := false }) :=
      modifySession_rearranges managers session fun _ => rfl
    exact (deactivates _).bookkept detached
  · exact activated

theorem executeService_bookkept (service : Service) (session : Option Nat) :
    Bookkept config limit (managers.executeService surroundings service session).2 := by
  rw [executeService]
  iterate 2
    split
    · exact known
  split
  · split
    · exact known
    · exact removeSessionByToken_bookkept known _ _
  · exact known

end

section

variable (found : managers.findSession now channel token = some session)
include found

theorem findSession_named : managers.hasToken token session = true := by
  rw [findSession] at found
  split at found
  · rename_i held
    injection found with same
    subst same
    rw [getSession] at held
    split at held
    · cases held
    · exact find?_some held
  · split at found
    · cases found
    · rw [getSessionByToken] at found
      split at found
      · cases found
      · rename_i held
        split at found
        · cases found
        · injection found with same
          subst same
          exact find?_some held

theorem findSession_stored : managers.sessionAt session ≠ none := by
  have named := findSession_named found
  intro gone
  simp [hasToken, gone] at named

end

theorem processMSG_bookkept (known : Bookkept config limit managers)
    (surroundings : RequestSurroundings) (storedChannel : managers.channelAt channel ≠ none)
    (request : ServiceRequest) :
    Bookkept config limit (managers.processMSG config surroundings channel request).2 := by
  rw [processMSG]
  split
  · exact known
  split
  · exact known
  split
  · exact serviceCreateSession_bookkept known surroundings channel _
  split
  · iterate 2
      split
      · exact known
    exact executeService_bookkept known surroundings _ none
  · rename_i session found
    split
    · exact serviceActivateSession_bookkept known surroundings (findSession_stored found)
        storedChannel
    split
    · exact known
    split
    · exact removeSessionByToken_bookkept known _ _
    split
    · exact known
    · have renews : Rearranges managers
          (managers.modifySession session (updateLifetime surroundings.now)) :=
        modifySession_rearranges managers session fun _ => rfl
      exact executeService_bookkept (renews.bookkept known) surroundings _ _

end Services

section Runs

variable {config : ManagersConfig} {limit : Nat} {managers : Managers}
variable {session : Nat}

def KeepsLimit (config : ManagersConfig) (managers : Managers) : Event → Prop
  | .createChannel _ memory _ _ => PurgeRegisters config managers memory
  | _ => True

theorem step_bookkept (known : Bookkept config limit managers) (event : Event)
    (other : ∀ connection memory entryMemory initStatus,
      event ≠ .createChannel connection memory entryMemory initStatus) :
    Bookkept config limit (managers.step config event) := by
  cases event with
  | createChannel connection memory entryMemory initStatus => exact absurd rfl (other _ _ _ _)
  | openChannel channel memory policyStatus keyStatus sendStatus =>
    exact openChannel_bookkept known memory policyStatus keyStatus sendStatus channel
  | closeChannel channel memory =>
    rw [step]
    split
    · exact known
    · exact closeChannel_bookkept known memory _
  | request channel surroundings request =>
    rw [step]
    split
    · exact known
    · rename_i stored
      have present : managers.channelAt channel ≠ none := by simp [stored]
      exact processMSG_bookkept known surroundings present request
  | cleanup now memory timedOut =>
    exact cleanupChannels_bookkept (cleanupSessions_bookkept known memory now) memory timedOut
  | cleanupDelayedCallbacks => exact cleanupDelayedCallbacks_bookkept known
  | removeConnection connection =>
    exact (detachSecureChannel_rearranges managers connection).bookkept known

theorem Run.bookkept (run : Run config (KeepsLimit config) managers) :
    Bookkept config config.maxSecureChannels managers := by
  induction run with
  | initial => exact initial_bookkept config _
  | step run event allows ih =>
    cases event with
    | createChannel connection memory entryMemory initStatus =>
      exact createChannel_bookkept ih allows entryMemory initStatus connection
    | _ => exact step_bookkept ih _ (fun _ _ _ _ same => Event.noConfusion same)

theorem Run.bookkept_some {allowed : Managers → Event → Prop} (run : Run config allowed managers) :
    ∃ limit, Bookkept config limit managers := by
  induction run with
  | initial => exact ⟨0, initial_bookkept config 0⟩
  | step run event allows ih =>
    obtain ⟨limit, known⟩ := ih
    cases event with
    | createChannel connection memory entryMemory initStatus =>
      exact ⟨limit + 1, createChannel_raises known memory entryMemory initStatus connection⟩
    | _ => exact ⟨limit, step_bookkept known _ (fun _ _ _ _ same => Event.noConfusion same)⟩

structure Accounted (config : ManagersConfig) (managers : Managers) : Prop where
  channelCount : managers.currentChannelCount = managers.channels.length
  channelLimit : managers.currentChannelCount ≤ config.maxSecureChannels
  channels_nodup : managers.channels.Nodup
  sessionCount : managers.currentSessionCount = managers.sessions.length
  sessionLimit : managers.currentSessionCount ≤ config.maxSessions
  sessions_nodup : managers.sessions.Nodup
  bound : ∀ session entry, managers.sessionAt session = some entry → ∀ channel,
    entry.channel = some channel ↔
      ∃ place, managers.channelAt channel = some place ∧ session ∈ place.sessions
  once : ∀ channel place, managers.channelAt channel = some place → place.sessions.Nodup ∧
    ∀ session ∈ place.sessions, managers.sessionAt session ≠ none ∧
      ∀ other second, managers.channelAt other = some second → session ∈ second.sessions →
        other = channel

theorem Bookkept.bound (known : Bookkept config limit managers) {entry : ManagedSession}
    (stored : managers.sessionAt session = some entry) (channel : Nat) :
    entry.channel = some channel ↔
      ∃ place, managers.channelAt channel = some place ∧ session ∈ place.sessions := by
  have agrees := known.consistent.agrees session channel
  simp only [links, stored, Option.bind_some] at agrees
  rw [agrees]
  cases placed : managers.channelAt channel with
  | none => simp
  | some place => simp

theorem Bookkept.listed (known : Bookkept config limit managers) {channel : Nat}
    {place : ManagedChannel} (placed : managers.channelAt channel = some place)
    (member : session ∈ place.sessions) :
    ∃ entry, managers.sessionAt session = some entry ∧ entry.channel = some channel := by
  have agrees := known.consistent.agrees session channel
  have points := agrees.mpr (by simpa [links, placed] using member)
  exact Option.bind_eq_some_iff.mp points

theorem managers_accounted (run : Run config (KeepsLimit config) managers) :
    Accounted config managers := by
  have known := run.bookkept
  refine ⟨known.channelCount, known.channelLimit, known.channels_nodup, known.sessionCount,
    known.sessionLimit, known.sessions_nodup, fun session entry stored => known.bound stored, ?_⟩
  intro channel place placed
  constructor
  · have nodup := known.consistent.nodup channel
    simpa [links, placed] using nodup
  · intro session member
    obtain ⟨entry, stored, points⟩ := known.listed placed member
    constructor
    · simp [stored]
    · intro other second stands listed
      have also := (known.bound stored other).mpr ⟨second, stands, listed⟩
      rw [points] at also
      exact (Option.some.inj also).symm

end Runs

def narrowConfig : ManagersConfig := ⟨1, 1, 1000⟩

def createEvent (connection : Nat) (memory : Bool) : Event :=
  .createChannel connection (fun _ => memory) true good

theorem purgedManagers_accounted : Accounted narrowConfig
    ((initial.step narrowConfig (createEvent 0 true)).step narrowConfig (createEvent 1 true)) :=
  managers_accounted ((Run.initial.step _ fun _ _ _ => rfl).step _ fun _ _ _ => rfl)

/-- There is no memory for the callback that removes the first channel, and the second one is
created all the same. -/
theorem channelLimit_passed : ∃ managers, Run narrowConfig (fun _ _ => True) managers ∧
    managers.currentChannelCount = 2 ∧ narrowConfig.maxSecureChannels = 1 :=
  ⟨_, (Run.initial.step (createEvent 0 true) trivial).step (createEvent 1 false) trivial, rfl, rfl⟩

end Managers

end OpcUa
