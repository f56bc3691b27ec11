import OpcUa.TokenRenewal

/-!
The end of a channel by its lifetime. The housekeeping compares with the monotonic clock. The time
of a token is taken from that clock when a renewal is answered, and from the wall clock when a
channel is created or opened.
-/

namespace OpcUa

open LittleEndian StatusCode

variable {Context : Type}

/-- The times on the monotonic clock at which the current and the next token of a channel were
issued. There is none for a token with a time from the wall clock that the monotonic clock did not
show. -/
structure TokenDates where
  current : Option (BitVec 64)
  next : Option (BitVec 64)
deriving DecidableEq, Repr

def commonTime (surroundings : Surroundings Context) : Option (BitVec 64) :=
  if surroundings.now = surroundings.nowMonotonic then some surroundings.nowMonotonic else none

open Classical in
noncomputable def chunkDates (config : ServerConfig Context) (surroundings : Surroundings Context)
    (server : Server Context) (entry : ChannelEntry Context) (bytes : List Byte)
    (dates : TokenDates) : TokenDates :=
  let after := (entry.process config surroundings server bytes).channel
  if SelectsNextToken entry.channel bytes then ⟨dates.next, none⟩
  else
    ⟨if after.securityToken = entry.channel.securityToken then dates.current
      else commonTime surroundings,
      if AnswersRenewal config surroundings server entry bytes then some surroundings.nowMonotonic
      else if after.nextSecurityToken = entry.channel.nextSecurityToken then dates.next
      else commonTime surroundings⟩

open Classical in
noncomputable def stampDates (config : ServerConfig Context) (server : Server Context)
    (dates : Nat → TokenDates) : ServerEvent Context → Nat → TokenDates
  | .chunk surroundings index bytes =>
    if (server.connections index).state = .closed then dates
    else
      match (server.connections index).channel with
      | none => Function.update dates server.nextAddress ⟨commonTime surroundings, none⟩
      | some address =>
        match server.find address with
        | none => dates
        | some entry => Function.update dates address
            (chunkDates config surroundings server entry bytes (dates address))
  | .cleanup nowMonotonic memory connected => fun address =>
    if Switches server address (.cleanup nowMonotonic memory connected) then
      ⟨(dates address).next, none⟩
    else dates address
  | _ => dates

inductive DatedRun (config : ServerConfig Context) : (Nat → TokenDates) → Server Context → Prop
  | start : DatedRun config (fun _ => ⟨none, none⟩) (initialServer Context)
  | step {dates : Nat → TokenDates} {server : Server Context} (run : DatedRun config dates server)
      (event : ServerEvent Context) :
      DatedRun config (stampDates config server dates event) (server.step config event)

structure DatesHold (dates : TokenDates) (channel : SecureChannel Context) : Prop where
  current : ∀ time, dates.current = some time → channel.securityToken.createdAt = time
  next : ∀ time, dates.next = some time → channel.nextSecurityToken.createdAt = time

theorem commonTime_eq {surroundings : Surroundings Context} {time : BitVec 64}
    (agrees : commonTime surroundings = some time) :
    surroundings.now = time ∧ surroundings.nowMonotonic = time := by
  rw [commonTime] at agrees
  split at agrees
  · rename_i same
    injection agrees with shown
    exact ⟨same.trans shown, shown⟩
  · cases agrees

section Dates

variable {config : ServerConfig Context} {dates : TokenDates} {channel result : SecureChannel Context}
variable {surroundings : Surroundings Context} {lastTokenId counter : BitVec 32} {bytes : List Byte}

theorem DatesHold.of_eq (hold : DatesHold dates channel)
    (current : result.securityToken = channel.securityToken)
    (next : result.nextSecurityToken = channel.nextSecurityToken) : DatesHold dates result := by
  constructor
  · rw [current]
    exact hold.current
  · rw [next]
    exact hold.next

theorem DatesHold.revolved (hold : DatesHold dates channel)
    (current : result.securityToken = channel.nextSecurityToken) :
    DatesHold ⟨dates.next, none⟩ result := by
  constructor
  · rw [current]
    exact hold.next
  · intro time issued
    cases issued

section

variable (move : TokenMove surroundings lastTokenId bytes channel counter result)
  (unselected : ¬SelectsNextToken channel bytes)
include move unselected

theorem TokenMove.current (changed : result.securityToken ≠ channel.securityToken) :
    result.securityToken.createdAt = surroundings.now := by
  cases move with
  | kept keeps _ => exact absurd keeps.securityToken changed
  | opened _ _ _ createdAt => exact createdAt
  | renewed _ keeps _ _ => exact absurd keeps.securityToken changed
  | unanswered _ keeps _ _ => exact absurd keeps.securityToken changed
  | revolved selects _ _ _ => exact absurd selects unselected

theorem TokenMove.next (changed : result.nextSecurityToken ≠ channel.nextSecurityToken) :
    result.nextSecurityToken.createdAt = surroundings.now ∨
      result.nextSecurityToken.createdAt = surroundings.nowMonotonic := by
  cases move with
  | kept _ next => exact absurd next changed
  | opened _ next _ _ => exact absurd next changed
  | renewed _ _ _ createdAt => exact .inr createdAt
  | unanswered _ _ _ createdAt => exact .inl (createdAt.resolve_right changed)
  | revolved selects _ _ _ => exact absurd selects unselected

end

theorem chunkDates_hold {server after : Server Context} {entry : ChannelEntry Context}
    (hold : DatesHold dates entry.channel)
    (move : TokenMove surroundings server.lastTokenId bytes entry.channel after.lastTokenId
      (entry.process config surroundings server bytes).channel)
    (selected : SelectsNextToken entry.channel bytes →
      (entry.process config surroundings server bytes).channel.securityToken =
        entry.channel.nextSecurityToken) :
    DatesHold (chunkDates config surroundings server entry bytes dates)
      (entry.process config surroundings server bytes).channel := by
  rw [chunkDates]
  split
  · rename_i selects
    exact hold.revolved (selected selects)
  rename_i unselected
  constructor
  · intro time issued
    split at issued
    · rename_i same
      rw [same]
      exact hold.current time issued
    · rename_i changed
      rw [move.current unselected changed]
      exact (commonTime_eq issued).1
  · intro time issued
    dsimp only at issued
    split at issued
    · rename_i answers
      rw [answers.opened.2.2]
      exact Option.some.inj issued
    split at issued
    · rename_i same
      rw [same]
      exact hold.next time issued
    · rename_i changed
      obtain ⟨wall, monotonic⟩ := commonTime_eq issued
      rcases move.next unselected changed with createdAt | createdAt
      · exact createdAt.trans wall
      · exact createdAt.trans monotonic

theorem createdDates_hold (move : TokenMove surroundings lastTokenId bytes channel counter result)
    (unopened : Unopened channel) (createdAt : channel.securityToken.createdAt = surroundings.now) :
    DatesHold ⟨commonTime surroundings, none⟩ result := by
  have unselected : ¬SelectsNextToken channel bytes := fun selects => selects.2.2 unopened.next
  constructor
  · intro time issued
    rw [← (commonTime_eq issued).1]
    by_cases same : result.securityToken = channel.securityToken
    · rw [same]
      exact createdAt
    · exact move.current unselected same
  · intro time issued
    cases issued

end Dates

section Runs

variable {config : ServerConfig Context} {dates : Nat → TokenDates} {server : Server Context}
variable {former : ChannelEntry Context} {surroundings : Surroundings Context} {index : Nat}
  {bytes : List Byte}

def AllDated (dates : Nat → TokenDates) (server : Server Context) : Prop :=
  ∀ entry ∈ server.entries, DatesHold (dates entry.address) entry.channel

theorem stampDates_kept {event : ServerEvent Context} (stored : Stored server)
    (member : former ∈ server.entries) (apart : ¬AddressedTo server former.address event)
    (remains : ¬Switches server former.address event) :
    stampDates config server dates event former.address = dates former.address := by
  cases event with
  | chunk surroundings index bytes =>
    rw [stampDates]
    by_cases closed : (server.connections index).state = .closed
    · rw [if_pos closed]
    rw [if_neg closed]
    cases attached : (server.connections index).channel with
    | none =>
      have known := stored.bounded former member
      exact Function.update_of_ne (Nat.ne_of_lt known) _ _
    | some address =>
      have other : former.address ≠ address := by
        rintro rfl
        exact apart ⟨closed, attached⟩
      cases found : server.find address with
      | none => simp only [found]
      | some entry =>
        simp only [found]
        exact Function.update_of_ne other _ _
  | cleanup nowMonotonic memory connected => exact if_neg remains
  | delayed => rfl
  | connect index connection => rfl
  | sessions hasSession sendSequenceNumber => rfl

theorem stampDates_processed (stored : Stored server) (member : former ∈ server.entries)
    (running : (server.connections index).state ≠ .closed)
    (attached : (server.connections index).channel = some former.address) :
    stampDates config server dates (.chunk surroundings index bytes) former.address =
      chunkDates config surroundings server former bytes (dates former.address) := by
  simp only [stampDates, if_neg running, attached, stored.find member, Function.update_self]

theorem stampDates_created (running : (server.connections index).state ≠ .closed)
    (none : (server.connections index).channel = none) :
    stampDates config server dates (.chunk surroundings index bytes) server.nextAddress =
      ⟨commonTime surroundings, .none⟩ := by
  simp only [stampDates, if_neg running, none, Function.update_self]

theorem AllDated.step (stored : Stored server) (dated : AllDated dates server)
    (event : ServerEvent Context) :
    AllDated (stampDates config server dates event) (server.step config event) := by
  have step : TokenStep config server event (server.step config event) := step_tokenStep stored event
  intro entry member
  rcases step.entries entry member with
    ⟨former, inside, address, -, move⟩ |
      ⟨address, surroundings, index, bytes, first, chunk, running, none, unopened, token, move⟩
  · have hold := dated former inside
    rw [← address]
    cases move with
    | kept keeps next apart remains =>
      rw [stampDates_kept stored inside apart remains]
      exact hold.of_eq keeps.securityToken next
    | processed running attached move selected written =>
      rw [stampDates_processed stored inside running attached]
      rw [written] at move selected ⊢
      exact chunkDates_hold hold move selected
    | @revolved nowMonotonic memory connected _ _ managed alive waits current _ _ =>
      have switches : Switches server former.address (.cleanup nowMonotonic memory connected) :=
        ⟨former, managed, rfl, alive, waits⟩
      rw [show stampDates config server dates (.cleanup nowMonotonic memory connected)
        former.address = ⟨(dates former.address).next, none⟩ from if_pos switches]
      exact hold.revolved current
  · rw [chunk, address, stampDates_created running none]
    exact createdDates_hold move unopened (congrArg ChannelSecurityToken.createdAt token)

theorem DatedRun.stored (run : DatedRun config dates server) : Stored server := by
  induction run with
  | start => exact initialServer_invariant.stored
  | @step dates server run event ih =>
    have step : TokenStep config server event (server.step config event) :=
      step_tokenStep ih event
    exact step.stored

theorem DatedRun.allDated (run : DatedRun config dates server) : AllDated dates server := by
  induction run with
  | start =>
    intro entry member
    cases member
  | step run event ih => exact ih.step run.stored event

theorem listed_iff (stored : Stored server) {entry : ChannelEntry Context}
    (member : entry ∈ server.channels) (nowMonotonic : BitVec 64) (memory connected : Nat → Bool) :
    entry.address ∉ (server.step config (.cleanup nowMonotonic memory connected)).channels.map
        ChannelEntry.address ↔
      entry.timedOut nowMonotonic connected = true ∧ memory entry.address = true := by
  let leaves (former : ChannelEntry Context) : Bool :=
    former.timedOut nowMonotonic connected && memory former.address
  have addresses : (server.step config (.cleanup nowMonotonic memory connected)).channels.map
      ChannelEntry.address =
        (server.channels.filter fun former => !leaves former).map ChannelEntry.address := by
    simp only [Server.step, cleanupTimedOut, List.map_map]
    refine List.map_congr_left fun former _ => ?_
    simp only [Function.comp_apply]
    split
    · rfl
    split
    · rfl
    · rfl
  rw [addresses, ← Bool.and_eq_true]
  constructor
  · intro gone
    by_contra stays
    refine gone (List.mem_map_of_mem (List.mem_filter.mpr ⟨member, ?_⟩))
    rw [Bool.not_eq_true', Bool.eq_false_iff]
    exact stays
  · intro leaving listed
    obtain ⟨former, inside, address⟩ := List.mem_map.mp listed
    obtain ⟨before, stays⟩ := List.mem_filter.mp inside
    rw [stored.same (List.mem_append_left _ before) (List.mem_append_left _ member) address]
      at stays
    simp only [leaves, leaving] at stays
    cases stays

end Runs

/-- The housekeeping removes the channels without a connection and those with a lifetime that is
over. A removal that finds no memory is left to the next time. -/
theorem cleanupTimedOut_removes (config : ServerConfig Context) {dates : Nat → TokenDates}
    {server : Server Context} (run : DatedRun config dates server) {entry : ChannelEntry Context}
    (member : entry ∈ server.channels) {issued : BitVec 64}
    (date : (dates entry.address).current = some issued)
    (nowMonotonic : BitVec 64) (memory connected : Nat → Bool) :
    entry.address ∉ (server.step config (.cleanup nowMonotonic memory connected)).channels.map
        ChannelEntry.address ↔
      memory entry.address = true ∧ (connected entry.address = false ∨
        issued.toInt + entry.channel.securityToken.revisedLifetime.toNat * 10000 <
          nowMonotonic.toInt) := by
  have createdAt := (run.allDated entry (List.mem_append_left _ member)).current issued date
  rw [listed_iff run.stored member, ChannelEntry.timedOut, ChannelSecurityToken.timeout, createdAt,
    Bool.or_eq_true, decide_eq_true_eq, Bool.not_eq_true', or_comm, and_comm]

/-! A channel that is opened and never renewed -/

def openingChunk : List Byte := opnChunk securityPolicyNoneUri 0 1 (openRequestWire 446 0 1)

theorem joinedServer_dated : ∃ dates, DatedRun plainConfig dates joinedServer ∧
    (dates openedEntry.address).current = some 0 := by
  refine ⟨_, ((DatedRun.start.step _).step _).step (.chunk quietSurroundings 0 openingChunk), ?_⟩
  have address : openedEntry.address = greetedServer.nextAddress := by decide +kernel
  rw [address]
  have running : (greetedServer.connections 0).state ≠ .closed := by decide +kernel
  have none : (greetedServer.connections 0).channel = none := by decide +kernel
  exact congrArg TokenDates.current (stampDates_created running none)

theorem joinedServer_expires :
    openedEntry.address ∉ (joinedServer.step plainConfig (.cleanup 600000001 (fun _ => true)
        fun _ => true)).channels.map ChannelEntry.address ∧
      openedEntry.address ∈ (joinedServer.step plainConfig (.cleanup 600000000 (fun _ => true)
        fun _ => true)).channels.map ChannelEntry.address := by
  obtain ⟨dates, run, date⟩ := joinedServer_dated
  have removes := cleanupTimedOut_removes plainConfig run openedEntry_managed date
  constructor
  · exact (removes 600000001 (fun _ => true) fun _ => true).mpr (by decide +kernel)
  · by_contra gone
    exact absurd ((removes 600000000 (fun _ => true) fun _ => true).mp gone) (by decide +kernel)

def wallSurroundings : Surroundings Unit := { quietSurroundings with now := 131000000000000000 }

def wallServer : Server Unit :=
  greetedServer.step plainConfig (.chunk wallSurroundings 0 openingChunk)

/-- A valid channel goes with its connection. A channel that is opened for a minute at the time
zero of the monotonic clock is there behind that minute. -/
theorem wallServer_stays : openedEntry.channel.securityToken.timeout = 600000000 ∧
      (joinedServer.step plainConfig (.cleanup 0 (fun _ => true) fun _ => false)).channels.map
        ChannelEntry.address = [] ∧
      wallSurroundings.nowMonotonic = 0 ∧
      wallServer.channels.map (fun entry => entry.channel.securityToken.revisedLifetime) = [60000] ∧
      (wallServer.step plainConfig (.cleanup 600000001 (fun _ => true) fun _ => true)).channels.map
        ChannelEntry.address = [0] := by
  refine ⟨?_, ?_, ?_, ?_, ?_⟩ <;> decide +kernel

end OpcUa
