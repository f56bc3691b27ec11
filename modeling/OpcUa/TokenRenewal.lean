import OpcUa.ServerSecurity

/-!
The tokens of a channel over the runs of the server. A renewal leaves the current token and its
keys alone. The next token takes over with the first chunk that carries it, and with a run of the
housekeeping that leaves the channel in the manager.
-/

namespace OpcUa

open LittleEndian StatusCode List

variable {Context : Type}
variable {channel result : SecureChannel Context} {surroundings : Surroundings Context}
  {bytes : List Byte} {config : ServerConfig Context} {server : Server Context}

/-! What a chunk does to the tokens -/

/-- The members that decide which chunks are accepted, but for the next token and the sequence
number. -/
structure KeepsToken (channel result : SecureChannel Context) : Prop where
  state : result.state = channel.state
  securityMode : result.securityMode = channel.securityMode
  securityToken : result.securityToken = channel.securityToken
  context : result.context = channel.context

theorem KeepsToken.refl (channel : SecureChannel Context) : KeepsToken channel channel :=
  ⟨rfl, rfl, rfl, rfl⟩

theorem KeepsToken.trans {middle : SecureChannel Context} (first : KeepsToken channel middle)
    (second : KeepsToken middle result) : KeepsToken channel result :=
  ⟨second.state.trans first.state, second.securityMode.trans first.securityMode,
    second.securityToken.trans first.securityToken, second.context.trans first.context⟩

def IssuesToken (lastTokenId counter : BitVec 32) (next token : ChannelSecurityToken) : Prop :=
  next.tokenId ≠ 0 ∧ token.tokenId = next.tokenId ∧ counter = lastTokenId ∨
    next.tokenId = 0 ∧ token.tokenId = lastTokenId ∧ counter = lastTokenId + 1

/-- The counter of the token ids and the channel behind a chunk. An opening that fails in the end
has written its token all the same, and so has a renewal. -/
inductive TokenMove (surroundings : Surroundings Context) (lastTokenId : BitVec 32)
    (bytes : List Byte) (channel : SecureChannel Context) :
    BitVec 32 → SecureChannel Context → Prop
  | kept {result : SecureChannel Context} (keeps : KeepsToken channel result)
      (next : result.nextSecurityToken = channel.nextSecurityToken) :
      TokenMove surroundings lastTokenId bytes channel lastTokenId result
  | opened {result : SecureChannel Context} (fresh : channel.state = .fresh)
      (next : result.nextSecurityToken = channel.nextSecurityToken)
      (tokenId : result.securityToken.tokenId = channel.securityToken.tokenId)
      (createdAt : result.securityToken.createdAt = surroundings.now) :
      TokenMove surroundings lastTokenId bytes channel lastTokenId result
  | renewed {result : SecureChannel Context} {counter : BitVec 32}
      (opened : channel.state = .opened) (keeps : KeepsToken channel result)
      (issues : IssuesToken lastTokenId counter channel.nextSecurityToken result.nextSecurityToken)
      (createdAt : result.nextSecurityToken.createdAt = surroundings.nowMonotonic) :
      TokenMove surroundings lastTokenId bytes channel counter result
  | unanswered {result : SecureChannel Context} {counter : BitVec 32}
      (opened : channel.state = .opened) (keeps : KeepsToken channel result)
      (issues : IssuesToken lastTokenId counter channel.nextSecurityToken result.nextSecurityToken)
      (createdAt : result.nextSecurityToken.createdAt = surroundings.now ∨
        result.nextSecurityToken = channel.nextSecurityToken) :
      TokenMove surroundings lastTokenId bytes channel counter result
  | revolved {result : SecureChannel Context} (selects : SelectsNextToken channel bytes)
      (current : result.securityToken = channel.nextSecurityToken)
      (next : result.nextSecurityToken = .init) (state : result.state = channel.state) :
      TokenMove surroundings lastTokenId bytes channel lastTokenId result

section Moves

variable (config : ServerConfig Context) (surroundings : Surroundings Context)
  (policy : SecurityPolicy Context) (address : Nat) (server : Server Context)
  (channel : SecureChannel Context) (bytes : List Byte)

theorem TokenMove.between {surroundings : Surroundings Context} {bytes : List Byte}
    {channel former final : SecureChannel Context} {lastTokenId counter : BitVec 32}
    (move : TokenMove surroundings lastTokenId bytes channel counter result)
    (before : KeepsToken channel former)
    (nextBefore : former.nextSecurityToken = channel.nextSecurityToken)
    (after : KeepsToken result final)
    (nextAfter : final.nextSecurityToken = result.nextSecurityToken) :
    TokenMove surroundings lastTokenId bytes former counter final := by
  have symm : KeepsToken former channel :=
    ⟨before.state.symm, before.securityMode.symm, before.securityToken.symm, before.context.symm⟩
  cases move with
  | kept keeps next =>
    exact .kept (symm.trans (keeps.trans after)) (by rw [nextAfter, next, nextBefore])
  | opened fresh next tokenId createdAt =>
    exact .opened (before.state.trans fresh) (by rw [nextAfter, next, nextBefore])
      (by rw [after.securityToken, tokenId, before.securityToken])
      (by rw [after.securityToken, createdAt])
  | renewed opened keeps issues createdAt =>
    exact .renewed (before.state.trans opened) (symm.trans (keeps.trans after))
      (by rw [nextAfter, nextBefore]; exact issues) (by rw [nextAfter, createdAt])
  | unanswered opened keeps issues createdAt =>
    exact .unanswered (before.state.trans opened) (symm.trans (keeps.trans after))
      (by rw [nextAfter, nextBefore]; exact issues)
      (by rw [nextAfter, nextBefore]; exact createdAt)
  | revolved selects current next state =>
    refine .revolved ?_ (by rw [after.securityToken, current, nextBefore])
      (by rw [nextAfter, next]) (by rw [after.state, state, before.state])
    rw [SelectsNextToken, CarriesToken, before.securityToken, before.state, nextBefore]
    exact selects

section

variable (request : OpenSecureChannelRequest)

theorem openSecureChannel_tokens : TokenMove surroundings server.lastTokenId bytes channel
      (openSecureChannel config surroundings policy server channel request).2.1.lastTokenId
      (openSecureChannel config surroundings policy server channel request).2.2 := by
  rw [openSecureChannel]
  split
  · exact .kept (.refl channel) rfl
  rename_i fresh
  rw [not_not] at fresh
  split
  · exact .kept (.refl channel) rfl
  · dsimp only
    obtain ⟨context, keys⟩ := generateNewKeys_channel policy { channel with
        securityMode := request.securityMode
        securityToken := { channel.securityToken with
          channelId := server.lastChannelId, createdAt := surroundings.now,
          revisedLifetime := revisedLifetime config request.requestedLifetime }
        remoteNonce := request.clientNonce
        localNonce := surroundings.nonce.2 }
    split
    · simp only [keys]
      exact .opened fresh rfl rfl rfl
    · simp only [keys]
      exact .opened fresh rfl rfl rfl

theorem renewSecureChannel_tokens : TokenMove surroundings server.lastTokenId bytes channel
      (renewSecureChannel config surroundings server channel request).2.1.lastTokenId
      (renewSecureChannel config surroundings server channel request).2.2 := by
  rw [renewSecureChannel]
  split
  · exact .kept (.refl channel) rfl
  · rename_i opened
    rw [not_not] at opened
    by_cases first : channel.nextSecurityToken.tokenId = 0
    · simp only [if_pos first]
      split
      · exact .unanswered opened ⟨rfl, rfl, rfl, rfl⟩ (.inr ⟨first, rfl, rfl⟩) (.inl rfl)
      · exact .renewed opened ⟨rfl, rfl, rfl, rfl⟩ (.inr ⟨first, rfl, rfl⟩) rfl
    · simp only [if_neg first]
      split
      · exact .unanswered opened ⟨rfl, rfl, rfl, rfl⟩ (.inl ⟨first, rfl, rfl⟩) (.inr rfl)
      · exact .renewed opened ⟨rfl, rfl, rfl, rfl⟩ (.inl ⟨first, rfl, rfl⟩) rfl

theorem serviceOpenSecureChannel_tokens : TokenMove surroundings server.lastTokenId bytes channel
      (serviceOpenSecureChannel config surroundings policy server channel request).2.1.lastTokenId
      (serviceOpenSecureChannel config surroundings policy server channel request).2.2 := by
  rw [serviceOpenSecureChannel]
  split
  · exact renewSecureChannel_tokens config surroundings server channel bytes request
  split
  · exact .kept (.refl channel) rfl
  · exact openSecureChannel_tokens config surroundings policy server channel bytes request

end

@[simp] theorem closeSecureChannel_lastTokenId (server : Server Context) (channelId : BitVec 32) :
    (closeSecureChannel server channelId).lastTokenId = server.lastTokenId := by
  rw [closeSecureChannel]
  split
  · rfl
  · rfl

theorem processOPN_tokens (message : List Byte) :
    TokenMove surroundings server.lastTokenId bytes channel
      (processOPN config surroundings policy address server channel message).2.1.lastTokenId
      (processOPN config surroundings policy address server channel message).2.2 := by
  rw [processOPN]
  split
  · rw [closeSecureChannel_lastTokenId]
    exact .kept (.refl channel) rfl
  · rename_i typeId request decoded
    split
    · rw [closeSecureChannel_lastTokenId]
      exact .kept (.refl channel) rfl
    · have served :=
        serviceOpenSecureChannel_tokens config surroundings policy server channel bytes request
      generalize serviceOpenSecureChannel config surroundings policy server channel request =
        outcome at served ⊢
      obtain ⟨status, after, result⟩ := outcome
      have answered : TokenMove surroundings server.lastTokenId bytes channel after.lastTokenId
          { result with sendSequenceNumber := result.sendSequenceNumber + 1 } :=
        served.between (.refl channel) rfl ⟨rfl, rfl, rfl, rfl⟩ rfl
      dsimp only
      split
      · rw [closeSecureChannel_lastTokenId]
        exact served
      split
      · rw [closeSecureChannel_lastTokenId]
        exact answered
      · exact answered

theorem dispatchMessage_tokens (delivery : Delivery) :
    TokenMove surroundings server.lastTokenId bytes channel
      (dispatchMessage config surroundings policy address server channel delivery).2.1.lastTokenId
      (dispatchMessage config surroundings policy address server channel delivery).2.2 := by
  obtain ⟨messageType, requestId, message⟩ := delivery
  cases messageType with
  | opn =>
    exact processOPN_tokens config surroundings policy address (server.store address channel)
      channel bytes message
  | msg => exact .kept ⟨rfl, rfl, rfl, rfl⟩ rfl
  | clo =>
    rw [dispatchMessage, processCLO, closeSecureChannel_lastTokenId]
    exact .kept (.refl channel) rfl
  | err => exact .kept (.refl channel) rfl

theorem processPayload_tokens (accepted : AcceptedChunk) :
    TokenMove surroundings server.lastTokenId bytes channel
      (processPayload (processSecureChannelMessage config surroundings policy address) server
        channel accepted).application.lastTokenId
      (processPayload (processSecureChannelMessage config surroundings policy address) server
        channel accepted).channel := by
  rw [processPayload]
  split
  · exact dispatchMessage_tokens config surroundings policy address server channel bytes _
  split
  · have delivered := dispatchMessage_tokens config surroundings policy address server
      { channel with chunks := removeChunks channel.chunks accepted.requestId } bytes
    exact (delivered _).between ⟨rfl, rfl, rfl, rfl⟩ rfl (.refl _) rfl
  · exact .kept ⟨rfl, rfl, rfl, rfl⟩ rfl
  · exact .kept ⟨rfl, rfl, rfl, rfl⟩ rfl
  · exact .kept (.refl channel) rfl

theorem processPayload_keepsToken {accepted : AcceptedChunk}
    (symmetric : accepted.messageType ≠ .opn) :
    (processPayload (processSecureChannelMessage config surroundings policy address) server
        channel accepted).application.lastTokenId = server.lastTokenId ∧
      KeepsToken channel (processPayload (processSecureChannelMessage config surroundings policy
        address) server channel accepted).channel ∧
      (processPayload (processSecureChannelMessage config surroundings policy address) server
        channel accepted).channel.nextSecurityToken = channel.nextSecurityToken := by
  have served (delivery : Delivery) (other : delivery.messageType ≠ .opn)
      (channel : SecureChannel Context) :
      (dispatchMessage config surroundings policy address server channel delivery).2.1.lastTokenId =
          server.lastTokenId ∧
        KeepsToken channel
          (dispatchMessage config surroundings policy address server channel delivery).2.2 ∧
        (dispatchMessage config surroundings policy address server channel
          delivery).2.2.nextSecurityToken = channel.nextSecurityToken := by
    obtain ⟨messageType, requestId, message⟩ := delivery
    cases messageType with
    | opn => exact absurd rfl other
    | msg => exact ⟨rfl, ⟨rfl, rfl, rfl, rfl⟩, rfl⟩
    | clo => exact ⟨closeSecureChannel_lastTokenId _ _, .refl channel, rfl⟩
    | err => exact ⟨rfl, .refl channel, rfl⟩
  rw [processPayload]
  split
  · exact served _ symmetric channel
  split
  · have delivered := served ⟨accepted.messageType, accepted.requestId,
      collectedBytes channel.chunks accepted.requestId ++ accepted.payload⟩ symmetric
      { channel with chunks := removeChunks channel.chunks accepted.requestId }
    have removed : KeepsToken channel
        { channel with chunks := removeChunks channel.chunks accepted.requestId } :=
      ⟨rfl, rfl, rfl, rfl⟩
    exact ⟨delivered.1, removed.trans delivered.2.1, delivered.2.2⟩
  · exact ⟨rfl, ⟨rfl, rfl, rfl, rfl⟩, rfl⟩
  · exact ⟨rfl, ⟨rfl, rfl, rfl, rfl⟩, rfl⟩
  · exact ⟨rfl, .refl channel, rfl⟩

theorem checkSymHeader_cases {policy : SecurityPolicy Context}
    {channel after : SecureChannel Context} {tokenId : BitVec 32}
    (passes : checkSymHeader policy channel tokenId = (good, after)) :
    tokenId = channel.securityToken.tokenId ∧ after = channel ∨
      tokenId ≠ channel.securityToken.tokenId ∧ tokenId = channel.nextSecurityToken.tokenId ∧
        channel.nextSecurityToken.tokenId ≠ 0 ∧ ∃ context, after = { channel with
          securityToken := channel.nextSecurityToken, nextSecurityToken := .init, context } := by
  by_cases current : tokenId = channel.securityToken.tokenId
  · rw [current, checkSymHeader_inUse] at passes
    exact .inl ⟨current, (Prod.mk.inj passes).2.symm⟩
  · by_cases issued : tokenId = channel.nextSecurityToken.tokenId ∧ tokenId ≠ 0
    · obtain ⟨following, nonzero⟩ := issued
      rw [following] at passes current nonzero
      rw [checkSymHeader_next policy current] at passes
      obtain ⟨context, revolved⟩ := revolveTokens_channel policy channel nonzero
      rw [passes] at revolved
      exact .inr ⟨following ▸ current, following, nonzero, context, revolved⟩
    · rw [checkSymHeader_unknown policy current issued] at passes
      exact absurd (Prod.mk.inj passes).1 (by decide)

theorem processChunk_tokens : TokenMove surroundings server.lastTokenId bytes channel
      (processChunk policy (processSecureChannelMessage config surroundings policy address) server
        channel bytes).application.lastTokenId
      (processChunk policy (processSecureChannelMessage config surroundings policy address) server
        channel bytes).channel := by
  rcases processChunk_cases policy (processSecureChannelMessage config surroundings policy address)
      server channel bytes with
    ⟨status, after, checks, outcome⟩ | ⟨accepted, after, checks, outcome⟩
  · rw [outcome]
    cases checks with
    | refused _ _ other => exact .kept (.refl channel) rfl
    | revolved _ _ selects =>
      obtain ⟨context, revolved⟩ := revolveTokens_channel policy channel selects.2.2
      rw [revolved]
      exact .revolved selects rfl rfl rfl
  · rw [outcome]
    cases checks with
    | error sort final =>
      exact processPayload_tokens config surroundings policy address server channel bytes _
    | opened offset plain sort final decrypted =>
      have processed := processPayload_tokens config surroundings policy address server
        { channel with receiveSequenceNumber := plain.sequenceNumber } bytes
      exact (processed _).between ⟨rfl, rfl, rfl, rfl⟩ rfl (.refl _) rfl
    | symmetric messageType plain middle sort carries passes decrypted follows =>
      have other : messageType ≠ .opn := by
        rintro rfl
        simpa [sort] using carries.2.2.1
      obtain ⟨counter, keeps, next⟩ := processPayload_keepsToken config surroundings policy
        address server { middle with receiveSequenceNumber := plain.sequenceNumber }
        (show (acceptedChunk messageType (headerChunkType bytes) middle plain).messageType ≠ .opn
          from other)
      rw [counter]
      rcases checkSymHeader_cases passes with
        ⟨current, same⟩ | ⟨current, following, issued, context, revolved⟩
      · subst same
        have kept : TokenMove surroundings server.lastTokenId bytes
            { middle with receiveSequenceNumber := plain.sequenceNumber } server.lastTokenId _ :=
          .kept keeps next
        exact kept.between ⟨rfl, rfl, rfl, rfl⟩ rfl (.refl _) rfl
      · subst revolved
        exact .revolved ⟨carries, current, issued⟩ keeps.securityToken next keeps.state

theorem processChunk_selected (selects : SelectsNextToken channel bytes) :
    (processChunk policy (processSecureChannelMessage config surroundings policy address) server
      channel bytes).channel.securityToken = channel.nextSecurityToken := by
  have sort {messageType : MessageType} (header : headerMessageType bytes = some messageType) :
      messageType = .msg ∨ messageType = .clo := by
    have symmetric := selects.1.2.2.1
    rw [header] at symmetric
    exact symmetric.imp Option.some.inj Option.some.inj
  rcases processChunk_cases policy (processSecureChannelMessage config surroundings policy address)
      server channel bytes with
    ⟨status, after, checks, outcome⟩ | ⟨accepted, after, checks, outcome⟩
  · rw [outcome]
    cases checks with
    | refused _ _ other => exact absurd selects other
    | revolved _ _ _ =>
      obtain ⟨context, revolved⟩ := revolveTokens_channel policy channel selects.2.2
      rw [revolved]
  · rw [outcome]
    cases checks with
    | error header _ => rcases sort header with wrong | wrong <;> cases wrong
    | opened _ _ header _ _ => rcases sort header with wrong | wrong <;> cases wrong
    | symmetric messageType plain middle header carries passes _ _ =>
      have other : messageType ≠ .opn := by
        rintro rfl
        rcases sort header with wrong | wrong <;> cases wrong
      have kept := processPayload_keepsToken config surroundings policy address server
        { middle with receiveSequenceNumber := plain.sequenceNumber }
        (show (acceptedChunk messageType (headerChunkType bytes) middle plain).messageType ≠ .opn
          from other)
      rw [kept.2.1.securityToken]
      have named := carries.2.2.2.2.symm.trans selects.1.2.2.2.2
      rcases checkSymHeader_cases passes with ⟨current, -⟩ | ⟨-, -, -, context, revolved⟩
      · exact absurd (named.symm.trans current) selects.2.1
      · rw [revolved]

end Moves

theorem TokenMove.counter {lastTokenId counter : BitVec 32}
    (move : TokenMove surroundings lastTokenId bytes channel counter result) :
    counter = lastTokenId ∨ counter = lastTokenId + 1 := by
  cases move with
  | kept _ _ => exact .inl rfl
  | opened _ _ _ _ => exact .inl rfl
  | renewed _ _ issues _ =>
    rcases issues with ⟨-, -, same⟩ | ⟨-, -, more⟩
    · exact .inl same
    · exact .inr more
  | unanswered _ _ issues _ =>
    rcases issues with ⟨-, -, same⟩ | ⟨-, -, more⟩
    · exact .inl same
    · exact .inr more
  | revolved _ _ _ _ => exact .inl rfl

theorem TokenMove.counter_of_fresh {lastTokenId counter : BitVec 32}
    (move : TokenMove surroundings lastTokenId bytes channel counter result)
    (fresh : channel.state = .fresh) : counter = lastTokenId := by
  cases move with
  | kept _ _ => rfl
  | opened _ _ _ _ => rfl
  | renewed opened _ _ _ => exact absurd (fresh.symm.trans opened) (by decide)
  | unanswered opened _ _ _ => exact absurd (fresh.symm.trans opened) (by decide)
  | revolved _ _ _ _ => rfl

/-! Steps of the server -/

inductive ServerEvent (Context : Type) where
  | chunk (surroundings : Surroundings Context) (index : Nat) (bytes : List Byte)
  | delayed
  | cleanup (nowMonotonic : BitVec 64) (memory connected : Nat → Bool)
  | connect (index : Nat) (connection : ServerConnection)
  | sessions (hasSession : Nat → Bool) (sendSequenceNumber : Nat → BitVec 32)

def ChannelSecurityToken.timeout (token : ChannelSecurityToken) : Int :=
  token.createdAt.toInt + token.revisedLifetime.toNat * 10000

def ChannelEntry.timedOut (nowMonotonic : BitVec 64) (connected : Nat → Bool)
    (entry : ChannelEntry Context) : Bool :=
  decide (entry.channel.securityToken.timeout < nowMonotonic.toInt) || !connected entry.address

def Server.step (config : ServerConfig Context) (server : Server Context) :
    ServerEvent Context → Server Context
  | .chunk surroundings index bytes =>
    if (server.connections index).state = .closed then server
    else (receiveChunk config surroundings server index bytes).server
  | .delayed => cleanupDelayedCallbacks server
  | .cleanup nowMonotonic memory connected =>
    cleanupTimedOut (fun entry => memory entry.address)
      (ChannelEntry.timedOut nowMonotonic connected) server
  | .connect index connection =>
    if (server.connections index).state = .closed then openConnectionAt server index connection
    else server
  | .sessions hasSession sendSequenceNumber =>
    server.serveSessions hasSession sendSequenceNumber

/-- The events with which the next token of the channel takes over: the first chunk that carries
it, and a clean-up in which the channel has not timed out. -/
def Switches (server : Server Context) (address : Nat) : ServerEvent Context → Prop
  | .chunk _ index bytes => (server.connections index).state ≠ .closed ∧
      (server.connections index).channel = some address ∧
      ∃ entry ∈ server.entries, entry.address = address ∧ SelectsNextToken entry.channel bytes
  | .cleanup nowMonotonic _ connected => ∃ entry ∈ server.channels, entry.address = address ∧
      entry.timedOut nowMonotonic connected = false ∧ entry.channel.nextSecurityToken.tokenId ≠ 0
  | _ => False

def AddressedTo (server : Server Context) (address : Nat) : ServerEvent Context → Prop
  | .chunk _ index _ => (server.connections index).state ≠ .closed ∧
      (server.connections index).channel = some address
  | _ => False

inductive EntryMove (config : ServerConfig Context) (server after : Server Context) :
    ServerEvent Context → ChannelEntry Context → ChannelEntry Context → Prop
  | kept {event : ServerEvent Context} {former entry : ChannelEntry Context}
      (keeps : KeepsToken former.channel entry.channel)
      (next : entry.channel.nextSecurityToken = former.channel.nextSecurityToken)
      (apart : ¬AddressedTo server former.address event)
      (remains : ¬Switches server former.address event) :
      EntryMove config server after event former entry
  | processed {surroundings : Surroundings Context} {index : Nat} {bytes : List Byte}
      {former entry : ChannelEntry Context}
      (running : (server.connections index).state ≠ .closed)
      (attached : (server.connections index).channel = some former.address)
      (move : TokenMove surroundings server.lastTokenId bytes former.channel after.lastTokenId
        entry.channel)
      (selected : SelectsNextToken former.channel bytes →
        entry.channel.securityToken = former.channel.nextSecurityToken)
      (written : entry.channel = (former.process config surroundings server bytes).channel) :
      EntryMove config server after (.chunk surroundings index bytes) former entry
  | revolved {nowMonotonic : BitVec 64} {memory connected : Nat → Bool}
      {former entry : ChannelEntry Context} (managed : former ∈ server.channels)
      (alive : former.timedOut nowMonotonic connected = false)
      (waits : former.channel.nextSecurityToken.tokenId ≠ 0)
      (current : entry.channel.securityToken = former.channel.nextSecurityToken)
      (next : entry.channel.nextSecurityToken = .init)
      (state : entry.channel.state = former.channel.state) :
      EntryMove config server after (.cleanup nowMonotonic memory connected) former entry

def Appears (config : ServerConfig Context) (server after : Server Context)
    (event : ServerEvent Context) (entry : ChannelEntry Context) : Prop :=
  entry.address = server.nextAddress ∧ ∃ surroundings index bytes first,
    event = .chunk surroundings index bytes ∧ (server.connections index).state ≠ .closed ∧
    (server.connections index).channel = none ∧ Unopened first ∧
    first.securityToken = ⟨0, server.lastTokenId, surroundings.now,
      config.maxSecurityTokenLifetime⟩ ∧
    TokenMove surroundings (server.lastTokenId + 1) bytes first after.lastTokenId entry.channel

structure TokenStep (config : ServerConfig Context) (server : Server Context)
    (event : ServerEvent Context) (after : Server Context) : Prop where
  stored : Stored after
  nextAddress : server.nextAddress ≤ after.nextAddress
  counter : after.lastTokenId = server.lastTokenId ∨ after.lastTokenId = server.lastTokenId + 1
  entries : ∀ entry ∈ after.entries, (∃ former ∈ server.entries, former.address = entry.address ∧
      former.securityPolicy = entry.securityPolicy ∧
      EntryMove config server after event former entry) ∨
    Appears config server after event entry

section Steps

variable {after : Server Context}

theorem TokenStep.of_subset {event : ServerEvent Context} (stored : Stored after)
    (nextAddress : after.nextAddress = server.nextAddress)
    (counter : after.lastTokenId = server.lastTokenId)
    (apart : ∀ address, ¬AddressedTo server address event)
    (remains : ∀ address, ¬Switches server address event)
    (entries : ∀ entry ∈ after.entries, entry ∈ server.entries) :
    TokenStep config server event after := by
  refine ⟨stored, nextAddress.ge, .inl counter, ?_⟩
  intro entry member
  exact .inl ⟨entry, entries entry member, rfl, rfl,
    .kept (.refl _) rfl (apart entry.address) (remains entry.address)⟩

theorem Purged.lastTokenId (purged : Purged server after) :
    after.lastTokenId = server.lastTokenId := by
  rcases purged with same | ⟨entry, managed, removed⟩
  · rw [same]
  · rw [removed]
    rfl

theorem Purged.subset (purged : Purged server after) :
    ∀ entry ∈ after.entries, entry ∈ server.entries := by
  rcases purged with same | ⟨entry, managed, removed⟩
  · intro other member
    exact same ▸ member
  · subst removed
    exact fun other => removeSecureChannel_mem managed

theorem settled_lastTokenId (index address : Nat)
    (outcome : ProcessResult Context (Server Context)) :
    (settled index address outcome).lastTokenId = outcome.application.lastTokenId := by
  rw [settled]
  split
  · rfl
  · rfl

section

variable (stored : Stored server)
include stored

theorem receiveChunk_tokenStep (surroundings : Surroundings Context) {index : Nat}
    (running : (server.connections index).state ≠ .closed) (bytes : List Byte) :
    TokenStep config server (.chunk surroundings index bytes)
      (receiveChunk config surroundings server index bytes).server := by
  have received : Received config surroundings server index bytes _ _ :=
    receiveChunk_received stored
  generalize (receiveChunk config surroundings server index bytes).server = after at received
  generalize (receiveChunk config surroundings server index bytes).step = step at received
  cases received with
  | without middle connection purged none channel ended =>
    have stored' := stored.purged purged
    have connections := (purged.touches 0).connections
    refine .of_subset (stored'.setConnection index (.inr (by rw [connections, channel])))
      (purged.touches 0).nextAddress purged.lastTokenId ?_ ?_ purged.subset
    · rintro address ⟨-, attached⟩
      rw [none] at attached
      cases attached
    · rintro address ⟨-, attached, -⟩
      rw [none] at attached
      cases attached
  | existing entry attached member found =>
    have processes := settled_processes config surroundings stored member index bytes
    have move := processChunk_tokens config surroundings entry.securityPolicy entry.address
      server entry.channel bytes
    rw [← settled_lastTokenId index entry.address] at move
    refine ⟨processes.stored stored, processes.nextAddress.ge, move.counter, ?_⟩
    intro other inside
    rcases processes.cases stored inside with ⟨here, policy, written⟩ | ⟨elsewhere, before⟩
    · refine .inl ⟨entry, member, here.symm, policy.symm, .processed running attached ?_ ?_ written⟩
      · rw [written]
        exact move
      · rw [written]
        exact processChunk_selected config surroundings entry.securityPolicy entry.address server
          entry.channel bytes
    · refine .inl ⟨other, before, rfl, rfl, .kept (.refl _) rfl ?_ ?_⟩
      · rintro ⟨-, there⟩
        rw [attached] at there
        exact elsewhere (Option.some.inj there).symm
      · rintro ⟨-, there, -⟩
        rw [attached] at there
        exact elsewhere (Option.some.inj there).symm
  | created middle entry endpoint purged none new unopened _ _ opn token =>
    have attached := attachChannel_stored (stored.purged purged) index new unopened
    have processes := settled_processes config surroundings attached
      (show entry ∈ (attachChannel middle index entry).entries from mem_cons_self) index bytes
    have move := processChunk_tokens config surroundings entry.securityPolicy entry.address
      (attachChannel middle index entry) entry.channel bytes
    rw [← settled_lastTokenId index entry.address] at move
    have counted : (attachChannel middle index entry).lastTokenId = server.lastTokenId + 1 :=
      congrArg (· + 1) purged.lastTokenId
    have address : entry.address = server.nextAddress := new.trans (purged.touches 0).nextAddress
    rw [counted] at move
    refine ⟨processes.stored attached, ?_, .inr (move.counter_of_fresh unopened.state), ?_⟩
    · rw [processes.nextAddress]
      exact Nat.le_trans (purged.touches 0).nextAddress.ge (Nat.le_succ _)
    · intro other inside
      rcases processes.cases attached inside with ⟨here, policy, written⟩ | ⟨elsewhere, before⟩
      · refine .inr ⟨here.trans address, surroundings, index, bytes, entry.channel, rfl, running,
          none, unopened, ?_, ?_⟩
        · rw [token, purged.lastTokenId]
        · rw [written]
          exact move
      · rcases mem_cons.mp before with same | before
        · exact absurd (congrArg ChannelEntry.address same) elsewhere
        · refine .inl ⟨other, purged.subset other before, rfl, rfl, .kept (.refl _) rfl ?_ ?_⟩
          · rintro ⟨-, attached⟩
            rw [none] at attached
            cases attached
          · rintro ⟨-, attached, -⟩
            rw [none] at attached
            cases attached

theorem cleanupTimedOut_tokenStep (nowMonotonic : BitVec 64) (memory connected : Nat → Bool) :
    TokenStep config server (.cleanup nowMonotonic memory connected)
      (cleanupTimedOut (fun entry => memory entry.address)
        (ChannelEntry.timedOut nowMonotonic connected) server) := by
  refine ⟨stored.timeout _ _, Nat.le_refl _, .inl rfl, ?_⟩
  -- the object that the clean-up switches is the one in the manager
  have remains {former : ChannelEntry Context} (member : former ∈ server.entries)
      (stays : former ∈ server.channels → former.timedOut nowMonotonic connected = false →
        former.channel.nextSecurityToken.tokenId = 0) :
      ¬Switches server former.address (.cleanup nowMonotonic memory connected) := by
    rintro ⟨other, managed, here, alive, waits⟩
    have same := stored.same (mem_append_left _ managed) member here
    subst same
    exact waits (stays managed alive)
  intro entry member
  left
  rcases mem_append.mp member with managed | removed
  · obtain ⟨former, inside, result⟩ := mem_map.mp managed
    have before := mem_of_mem_filter inside
    have listed : former ∈ server.entries := mem_append_left _ before
    refine ⟨former, listed, ?_⟩
    split at result
    · rename_i late
      subst result
      refine ⟨rfl, rfl, .kept (.refl _) rfl id (remains listed fun _ alive => ?_)⟩
      rw [late] at alive
      cases alive
    rename_i alive
    split at result
    · rename_i waits
      have issued : former.channel.nextSecurityToken.tokenId ≠ 0 := by
        intro zero
        rw [zero] at waits
        exact absurd waits (by decide)
      obtain ⟨context, revolved⟩ := revolveTokens_channel former.securityPolicy former.channel issued
      subst result
      refine ⟨rfl, rfl, .revolved before (Bool.eq_false_iff.mpr alive) issued ?_ ?_ ?_⟩
      · rw [revolved]
      · rw [revolved]
      · rw [revolved]
    · rename_i waits
      subst result
      refine ⟨rfl, rfl, .kept (.refl _) rfl id (remains listed fun _ _ => ?_)⟩
      exact BitVec.eq_of_toNat_eq (Nat.eq_zero_of_not_pos waits)
  · rcases mem_append.mp removed with now | earlier
    · have inside := mem_filter.mp (mem_reverse.mp now)
      have listed : entry ∈ server.entries := mem_append_left _ inside.1
      refine ⟨entry, listed, rfl, rfl, .kept (.refl _) rfl id (remains listed fun _ alive => ?_)⟩
      rw [alive] at inside
      cases inside.2
    · have listed : entry ∈ server.entries := mem_append_right _ earlier
      refine ⟨entry, listed, rfl, rfl, .kept (.refl _) rfl id (remains listed fun managed _ => ?_)⟩
      have distinct := stored.distinct
      rw [Server.addresses, Server.entries, map_append] at distinct
      exact absurd (mem_map_of_mem earlier) ((disjoint_of_nodup_append distinct)
        (mem_map_of_mem managed))

theorem serveSessions_tokenStep (hasSession : Nat → Bool) (sendSequenceNumber : Nat → BitVec 32) :
    TokenStep config server (.sessions hasSession sendSequenceNumber)
      (server.serveSessions hasSession sendSequenceNumber) := by
  refine ⟨stored.sessions hasSession sendSequenceNumber, Nat.le_refl _, .inl rfl, ?_⟩
  intro entry member
  rw [Server.entries, Server.serveSessions, ← map_append] at member
  obtain ⟨former, inside, result⟩ := mem_map.mp member
  subst result
  exact .inl ⟨former, inside, rfl, rfl, .kept ⟨rfl, rfl, rfl, rfl⟩ rfl id id⟩

theorem step_tokenStep (event : ServerEvent Context) :
    TokenStep config server event (server.step config event) := by
  cases event with
  | chunk surroundings index bytes =>
    rw [Server.step]
    split
    · rename_i closed
      exact .of_subset stored rfl rfl (fun _ receives => receives.1 closed)
        (fun _ switches => switches.1 closed) fun _ => id
    · rename_i running
      exact receiveChunk_tokenStep stored surroundings running bytes
  | delayed =>
    exact .of_subset stored.delayed rfl rfl (fun _ => id) (fun _ => id) fun entry member =>
      mem_append_left _ ((mem_append.mp member).resolve_right not_mem_nil)
  | cleanup nowMonotonic memory connected =>
    exact cleanupTimedOut_tokenStep stored nowMonotonic memory connected
  | connect index connection =>
    rw [Server.step]
    split
    · exact .of_subset (stored.setConnection index (.inl rfl)) rfl rfl (fun _ => id) (fun _ => id)
        fun _ => id
    · exact .of_subset stored rfl rfl (fun _ => id) (fun _ => id) fun _ => id
  | sessions hasSession sendSequenceNumber =>
    exact serveSessions_tokenStep stored hasSession sendSequenceNumber

end

inductive Reached (config : ServerConfig Context)
    (allowed : Server Context → ServerEvent Context → Prop) : Server Context → Prop
  | start : Reached config allowed (initialServer Context)
  | step {server : Server Context} (reached : Reached config allowed server)
      (event : ServerEvent Context) (allows : allowed server event) :
      Reached config allowed (server.step config event)

theorem Reached.stored {allowed : Server Context → ServerEvent Context → Prop}
    (reached : Reached config allowed server) : Stored server := by
  induction reached with
  | start => exact initialServer_invariant.stored
  | @step server reached event allows ih =>
    have step : TokenStep config server event (server.step config event) :=
      step_tokenStep ih event
    exact step.stored

end Steps

/-! The ids of the tokens -/

def FreshTokens (config : ServerConfig Context) (server : Server Context)
    (event : ServerEvent Context) : Prop := (server.step config event).lastTokenId ≠ 0

instance (config : ServerConfig Context) (server : Server Context) (event : ServerEvent Context) :
    Decidable (FreshTokens config server event) :=
  inferInstanceAs (Decidable ((server.step config event).lastTokenId ≠ 0))

section Ids

variable {after : Server Context} {event : ServerEvent Context}

theorem TokenStep.counted (step : TokenStep config server event after)
    (running : after.lastTokenId ≠ 0) :
    server.lastTokenId.toNat ≤ after.lastTokenId.toNat ∧
      (after.lastTokenId = server.lastTokenId + 1 →
        after.lastTokenId.toNat = server.lastTokenId.toNat + 1) := by
  have more (same : after.lastTokenId = server.lastTokenId + 1) :
      after.lastTokenId.toNat = server.lastTokenId.toNat + 1 := by
    have counted : (server.lastTokenId + 1).toNat = (server.lastTokenId.toNat + 1) % 2 ^ 32 :=
      BitVec.toNat_add _ _
    have small := server.lastTokenId.isLt
    have nonzero : after.lastTokenId.toNat ≠ 0 := fun zero =>
      running (BitVec.eq_of_toNat_eq zero)
    rw [same] at nonzero ⊢
    omega
  refine ⟨?_, more⟩
  rcases step.counter with same | same
  · rw [same]
  · have exact := more same
    omega

def IdsBelow (counter : BitVec 32) (channel : SecureChannel Context) : Prop :=
  channel.securityToken.tokenId.toNat < counter.toNat ∧ (channel.nextSecurityToken.tokenId ≠ 0 →
      channel.securityToken.tokenId.toNat < channel.nextSecurityToken.tokenId.toNat ∧
        channel.nextSecurityToken.tokenId.toNat < counter.toNat)

theorem TokenMove.idsBelow {lastTokenId counter : BitVec 32}
    (move : TokenMove surroundings lastTokenId bytes channel counter result)
    (below : IdsBelow lastTokenId channel)
    (counts : counter = lastTokenId + 1 → counter.toNat = lastTokenId.toNat + 1) :
    IdsBelow counter result := by
  have renews (keeps : KeepsToken channel result)
      (issues : IssuesToken lastTokenId counter channel.nextSecurityToken
        result.nextSecurityToken) : IdsBelow counter result := by
    rw [IdsBelow, keeps.securityToken]
    rcases issues with ⟨waits, same, counter⟩ | ⟨-, same, counter⟩
    · rw [same, counter]
      exact below
    · have exact := counts counter
      have first := below.1
      rw [same]
      exact ⟨by omega, fun _ => ⟨first, by omega⟩⟩
  cases move with
  | kept keeps next =>
    rw [IdsBelow, keeps.securityToken, next]
    exact below
  | opened fresh next tokenId createdAt =>
    rw [IdsBelow, tokenId, next]
    exact below
  | renewed opened keeps issues createdAt => exact renews keeps issues
  | unanswered opened keeps issues createdAt => exact renews keeps issues
  | revolved selects current next state =>
    rw [IdsBelow, current, next]
    exact ⟨(below.2 selects.2.2).2, fun waits => absurd rfl waits⟩

def TokensBelow (server : Server Context) : Prop :=
  ∀ entry ∈ server.entries, IdsBelow server.lastTokenId entry.channel

theorem TokenStep.tokensBelow (step : TokenStep config server event after) (below : TokensBelow server)
    (running : after.lastTokenId ≠ 0) : TokensBelow after := by
  obtain ⟨grows, counts⟩ := step.counted running
  have wider {channel : SecureChannel Context} (known : IdsBelow server.lastTokenId channel) :
      IdsBelow after.lastTokenId channel :=
    ⟨Nat.lt_of_lt_of_le known.1 grows, fun waits =>
      ⟨(known.2 waits).1, Nat.lt_of_lt_of_le (known.2 waits).2 grows⟩⟩
  intro entry member
  rcases step.entries entry member with
    ⟨former, inside, -, -, move⟩ | ⟨-, surroundings, index, bytes, first, -, -, -, unopened, token, move⟩
  · cases move with
    | kept keeps next _ _ =>
      have known := wider (below former inside)
      rw [IdsBelow, keeps.securityToken, next]
      exact known
    | processed running attached move _ _ => exact move.idsBelow (below former inside) counts
    | revolved managed alive waits current next state =>
      have known := wider (below former inside)
      rw [IdsBelow, current, next]
      exact ⟨(known.2 waits).2, fun waits => absurd rfl waits⟩
  · have fixed := move.counter_of_fresh unopened.state
    have counted := counts fixed
    rw [fixed] at move counted ⊢
    refine move.idsBelow ⟨?_, fun waits => absurd unopened.next waits⟩ fun wraps => ?_
    · rw [token]
      change server.lastTokenId.toNat < (server.lastTokenId + 1).toNat
      omega
    · have different : (server.lastTokenId + 1).toNat ≠ (server.lastTokenId + 1 + 1).toNat := by
        have one : (server.lastTokenId + 1 + 1).toNat =
            ((server.lastTokenId + 1).toNat + 1) % 2 ^ 32 := BitVec.toNat_add _ _
        have small := (server.lastTokenId + 1).isLt
        omega
      exact absurd (congrArg BitVec.toNat wraps) different

theorem Reached.tokensBelow (reached : Reached config (FreshTokens config) server) :
    TokensBelow server := by
  induction reached with
  | start =>
    intro entry member
    cases member
  | @step server reached event allows ih =>
    have step : TokenStep config server event (server.step config event) :=
      step_tokenStep reached.stored event
    exact step.tokensBelow ih allows

end Ids

def AnswersRenewal (config : ServerConfig Context) (surroundings : Surroundings Context)
    (server : Server Context) (entry : ChannelEntry Context) (bytes : List Byte) : Prop :=
  (entry.process config surroundings server bytes).status = good ∧
    ∃ delivery ∈ (entry.process config surroundings server bytes).deliveries,
      delivery.messageType = .opn ∧ ∃ request,
        decodeOpenRequest config delivery.message = .ok (446, request) ∧ request.requestType = 1

theorem renewSecureChannel_good {request : OpenSecureChannelRequest}
    (served : (renewSecureChannel config surroundings server channel request).1 = good) :
    channel.state = .opened ∧ (renewSecureChannel config surroundings server channel
        request).2.2.nextSecurityToken.createdAt = surroundings.nowMonotonic := by
  rw [renewSecureChannel] at served ⊢
  split at served
  · have bad : badInternalError ≠ good := by decide
    exact absurd served bad
  rename_i opened
  rw [if_neg opened]
  rw [not_not] at opened
  dsimp only at served ⊢
  split at served
  · rename_i failed
    exact absurd served failed
  · rename_i fine
    rw [if_neg fine]
    exact ⟨opened, rfl⟩

theorem processOPN_renews {policy : SecurityPolicy Context} {address : Nat} {message : List Byte}
    {request : OpenSecureChannelRequest}
    (decoded : decodeOpenRequest config message = .ok (446, request))
    (renew : request.requestType = 1)
    (served : (processOPN config surroundings policy address server channel message).1 = good) :
    channel.state = .opened ∧ (processOPN config surroundings policy address server channel
        message).2.2.nextSecurityToken.createdAt = surroundings.nowMonotonic := by
  simp only [processOPN, decoded, ne_eq, not_true_eq_false, if_false, serviceOpenSecureChannel,
    if_pos renew] at served ⊢
  have answered (renewed : (renewSecureChannel config surroundings server channel request).1 =
      good) := renewSecureChannel_good renewed
  generalize renewSecureChannel config surroundings server channel request = outcome at *
  obtain ⟨status, after, result⟩ := outcome
  split at served
  · rename_i failed
    exact absurd served failed
  rename_i fine
  rw [if_neg fine]
  obtain ⟨opened, createdAt⟩ := answered (not_not.mp fine)
  split at served
  · rename_i failed
    exact absurd served failed
  · rename_i sent
    rw [if_neg sent]
    exact ⟨opened, createdAt⟩

theorem AnswersRenewal.opened {entry : ChannelEntry Context}
    (answers : AnswersRenewal config surroundings server entry bytes) :
    headerMessageType bytes = some .opn ∧ entry.channel.state = .opened ∧
      (entry.process config surroundings server bytes).channel.nextSecurityToken.createdAt =
        surroundings.nowMonotonic := by
  obtain ⟨served, delivery, delivered, sort, request, decoded, renew⟩ := answers
  rw [ChannelEntry.process] at served delivered
  rcases processChunk_cases entry.securityPolicy (processSecureChannelMessage config surroundings
      entry.securityPolicy entry.address) server entry.channel bytes with
    ⟨status, after, checks, outcome⟩ | ⟨accepted, after, checks, outcome⟩
  · rw [outcome] at delivered
    cases delivered
  · rw [outcome] at served delivered
    have same := (processPayload_delivers delivered).1
    rw [sort] at same
    cases checks with
    | error _ _ => cases same
    | symmetric messageType plain middle header carries _ _ _ =>
      have symmetric := carries.2.2.1
      rw [header, show messageType = .opn from same.symm] at symmetric
      simp at symmetric
    | opened offset plain header final decrypted =>
      obtain rfl := mem_singleton.mp delivered
      have renewed := processOPN_renews decoded renew served
      rw [ChannelEntry.process, outcome]
      exact ⟨header, renewed.1, renewed.2⟩

/-- The states from the answer to a renewal on, until the next token takes over. The object is
the one from before the renewal. -/
inductive Overlaps (config : ServerConfig Context)
    (allowed : Server Context → ServerEvent Context → Prop) (former : ChannelEntry Context) :
    Server Context → Prop
  | answered {server : Server Context} (reached : Reached config allowed server)
      (surroundings : Surroundings Context) (index : Nat) (bytes : List Byte)
      (running : (server.connections index).state ≠ .closed)
      (attached : (server.connections index).channel = some former.address)
      (member : former ∈ server.entries)
      (answers : AnswersRenewal config surroundings server former bytes)
      (allows : allowed server (.chunk surroundings index bytes)) :
      Overlaps config allowed former (server.step config (.chunk surroundings index bytes))
  | step {server : Server Context} (overlaps : Overlaps config allowed former server)
      (event : ServerEvent Context) (allows : allowed server event)
      (remains : ¬Switches server former.address event) :
      Overlaps config allowed former (server.step config event)

inductive Switched (config : ServerConfig Context)
    (allowed : Server Context → ServerEvent Context → Prop) (former : ChannelEntry Context) :
    Server Context → Prop
  | first {server : Server Context} (overlaps : Overlaps config allowed former server)
      (event : ServerEvent Context) (allows : allowed server event)
      (switches : Switches server former.address event) :
      Switched config allowed former (server.step config event)
  | step {server : Server Context} (switched : Switched config allowed former server)
      (event : ServerEvent Context) (allows : allowed server event) :
      Switched config allowed former (server.step config event)

section Overlap

variable {former : ChannelEntry Context}
variable {allowed : Server Context → ServerEvent Context → Prop}

structure Overlapping (former : ChannelEntry Context) (server : Server Context) : Prop where
  stored : Stored server
  known : former.address < server.nextAddress
  opened : former.channel.state = .opened
  keeps : ∀ entry ∈ server.entries, entry.address = former.address →
    entry.securityPolicy = former.securityPolicy ∧ KeepsToken former.channel entry.channel

theorem TokenMove.keepsToken {lastTokenId counter : BitVec 32}
    (move : TokenMove surroundings lastTokenId bytes channel counter result)
    (opened : channel.state = .opened) (unselected : ¬SelectsNextToken channel bytes) :
    KeepsToken channel result := by
  cases move with
  | kept keeps _ => exact keeps
  | opened fresh _ _ _ => exact absurd (fresh.symm.trans opened) (by decide)
  | renewed _ keeps _ _ => exact keeps
  | unanswered _ keeps _ _ => exact keeps
  | revolved selects _ _ _ => exact absurd selects unselected

theorem Overlapping.step (overlapping : Overlapping former server) (event : ServerEvent Context)
    (remains : ¬Switches server former.address event) :
    Overlapping former (server.step config event) := by
  have step : TokenStep config server event (server.step config event) :=
    step_tokenStep overlapping.stored event
  refine ⟨step.stored, Nat.lt_of_lt_of_le overlapping.known step.nextAddress, overlapping.opened,
    ?_⟩
  intro entry member here
  rcases step.entries entry member with ⟨before, inside, address, policy, move⟩ | ⟨new, -⟩
  · obtain ⟨same, keeps⟩ := overlapping.keeps before inside (address.trans here)
    refine ⟨policy.symm.trans same, keeps.trans ?_⟩
    cases move with
    | kept keeps _ _ _ => exact keeps
    | processed running attached move _ _ =>
      refine move.keepsToken (keeps.state.trans overlapping.opened) fun selects => ?_
      exact remains ⟨running, by rw [attached, address, here], before, inside,
        address.trans here, selects⟩
    | revolved managed alive waits _ _ _ =>
      exact absurd ⟨before, managed, address.trans here, alive, waits⟩ remains
  · have known := overlapping.known
    omega

theorem Overlaps.overlapping (overlaps : Overlaps config allowed former server) :
    Overlapping former server := by
  induction overlaps with
  | @answered server reached surroundings index bytes running attached member answers allows =>
    have stored := reached.stored
    obtain ⟨header, opened, -⟩ := answers.opened
    have start : Overlapping former server := by
      refine ⟨stored, stored.bounded former member, opened, ?_⟩
      intro entry inside here
      rw [stored.same inside member here]
      exact ⟨rfl, .refl _⟩
    refine start.step _ ?_
    rintro ⟨-, -, entry, inside, here, selects⟩
    have symmetric := selects.1.2.2.1
    rw [header] at symmetric
    simp at symmetric
  | step overlaps event allows remains ih => exact ih.step event remains

theorem Overlaps.reached (overlaps : Overlaps config allowed former server) :
    Reached config allowed server := by
  induction overlaps with
  | answered reached surroundings index bytes _ _ _ _ allows => exact reached.step _ allows
  | step overlaps event allows remains ih => exact ih.step event allows

theorem Switched.reached (switched : Switched config allowed former server) :
    Reached config allowed server := by
  induction switched with
  | first overlaps event allows switches => exact overlaps.reached.step event allows
  | step switched event allows ih => exact ih.step event allows

structure Overtaken (former : ChannelEntry Context) (server : Server Context) : Prop where
  known : former.address < server.nextAddress
  later : ∀ entry ∈ server.entries, entry.address = former.address →
    former.channel.securityToken.tokenId.toNat < entry.channel.securityToken.tokenId.toNat

theorem TokenMove.later {lastTokenId counter : BitVec 32}
    (move : TokenMove surroundings lastTokenId bytes channel counter result)
    (below : IdsBelow lastTokenId channel) :
    channel.securityToken.tokenId.toNat ≤ result.securityToken.tokenId.toNat := by
  cases move with
  | kept keeps _ => rw [keeps.securityToken]
  | opened _ _ tokenId _ => rw [tokenId]
  | renewed _ keeps _ _ => rw [keeps.securityToken]
  | unanswered _ keeps _ _ => rw [keeps.securityToken]
  | revolved selects current _ _ =>
    rw [current]
    exact Nat.le_of_lt (below.2 selects.2.2).1

theorem EntryMove.later {after : Server Context} {event : ServerEvent Context}
    {before entry : ChannelEntry Context} (stored : Stored server) (below : TokensBelow server)
    (member : before ∈ server.entries) (move : EntryMove config server after event before entry) :
    before.channel.securityToken.tokenId.toNat ≤ entry.channel.securityToken.tokenId.toNat ∧
      (Switches server before.address event → before.channel.securityToken.tokenId.toNat <
          entry.channel.securityToken.tokenId.toNat) := by
  have ids := below before member
  cases move with
  | kept keeps _ _ remains =>
    rw [keeps.securityToken]
    exact ⟨Nat.le_refl _, fun switches => absurd switches remains⟩
  | processed running attached move selected _ =>
    refine ⟨move.later ids, ?_⟩
    rintro ⟨-, -, other, inside, here, selects⟩
    rw [stored.same inside member here] at selects
    rw [selected selects]
    exact (ids.2 selects.2.2).1
  | revolved managed alive waits current _ _ =>
    rw [current]
    exact ⟨Nat.le_of_lt (ids.2 waits).1, fun _ => (ids.2 waits).1⟩

theorem Switched.overtaken (switched : Switched config (FreshTokens config) former server) :
    Overtaken former server := by
  induction switched with
  | @first server overlaps event allows switches =>
    have overlapping := overlaps.overlapping
    have below := overlaps.reached.tokensBelow
    have step : TokenStep config server event (server.step config event) :=
      step_tokenStep overlapping.stored event
    refine ⟨Nat.lt_of_lt_of_le overlapping.known step.nextAddress, ?_⟩
    intro entry member here
    rcases step.entries entry member with ⟨before, inside, address, -, move⟩ | ⟨new, -⟩
    · have keeps := (overlapping.keeps before inside (address.trans here)).2
      have later := (move.later overlapping.stored below inside).2
      rw [address.trans here, keeps.securityToken] at later
      exact later switches
    · have known := overlapping.known
      omega
  | @step server switched event allows ih =>
    have stored := switched.reached.stored
    have below := switched.reached.tokensBelow
    have step : TokenStep config server event (server.step config event) :=
      step_tokenStep stored event
    refine ⟨Nat.lt_of_lt_of_le ih.known step.nextAddress, ?_⟩
    intro entry member here
    rcases step.entries entry member with ⟨before, inside, address, -, move⟩ | ⟨new, -⟩
    · exact Nat.lt_of_lt_of_le (ih.later before inside (address.trans here))
        (move.later stored below inside).1
    · have known := ih.known
      omega

end Overlap

section

variable (config : ServerConfig Context) (server : Server Context)
  (former entry : ChannelEntry Context)

def AcceptsFormer : Prop :=
  ∀ surroundings bytes messageType plain,
    CarriesToken entry.channel bytes former.channel.securityToken.tokenId →
    headerMessageType bytes = some messageType →
    decryptChunk former.securityPolicy.symmetric former.channel messageType bytes 16 = .ok plain →
    SequenceFollows entry.channel.receiveSequenceNumber plain.sequenceNumber →
    (entry.process config surroundings server bytes).accepted =
      some (acceptedChunk messageType (headerChunkType bytes) former.channel plain)

def RejectsFormer : Prop :=
  ∀ surroundings bytes, CarriesToken entry.channel bytes former.channel.securityToken.tokenId →
    (entry.process config surroundings server bytes).accepted = none ∧
      (entry.process config surroundings server bytes).status = badSecureChannelTokenUnknown

end

section Acceptance

variable {former entry : ChannelEntry Context}

theorem KeepsToken.accepts (policy : entry.securityPolicy = former.securityPolicy)
    (keeps : KeepsToken former.channel entry.channel) :
    AcceptsFormer config server former entry := by
  intro surroundings bytes messageType plain carries sort decrypted follows
  have current : checkSymHeader entry.securityPolicy entry.channel
      former.channel.securityToken.tokenId = (good, entry.channel) := by
    rw [← keeps.securityToken, checkSymHeader_inUse]
  have passes : checkChunk entry.securityPolicy entry.channel bytes =
      (.ok (acceptedChunk messageType (headerChunkType bytes) former.channel plain),
        { entry.channel with receiveSequenceNumber := plain.sequenceNumber }) := by
    have opens : decryptChunk entry.securityPolicy.symmetric entry.channel messageType bytes 16 =
        .ok plain := by
      rw [policy, ← decrypted]
      exact decryptChunk_congr _ keeps.context keeps.securityMode _ _ _
    rw [checkChunk_carries entry.securityPolicy carries sort, current]
    simp only [authenticateChunk, opens, processSequenceNumberSym_eq, if_pos follows, ne_eq,
      not_true_eq_false, if_false, keeps.securityToken, acceptedChunk]
  rw [ChannelEntry.process, processChunk, passes]
  exact processPayload_accepted _ _ _ _

theorem rejects_of_later (later : former.channel.securityToken.tokenId.toNat <
      entry.channel.securityToken.tokenId.toNat)
    (below : IdsBelow server.lastTokenId entry.channel) :
    RejectsFormer config server former entry := by
  intro surroundings bytes carries
  have current : former.channel.securityToken.tokenId ≠ entry.channel.securityToken.tokenId :=
    fun same => absurd (congrArg BitVec.toNat same) (Nat.ne_of_lt later)
  have unknown : checkSymHeader entry.securityPolicy entry.channel
      former.channel.securityToken.tokenId = (badSecureChannelTokenUnknown, entry.channel) := by
    refine checkSymHeader_unknown entry.securityPolicy current fun issued => ?_
    have waits := issued.1 ▸ issued.2
    have order := (below.2 waits).1
    rw [← issued.1] at order
    omega
  obtain ⟨messageType, sort⟩ : ∃ messageType, headerMessageType bytes = some messageType :=
    carries.2.2.1.elim (fun sort => ⟨_, sort⟩) fun sort => ⟨_, sort⟩
  have fails : checkChunk entry.securityPolicy entry.channel bytes =
      (.error badSecureChannelTokenUnknown, entry.channel) := by
    have bad : badSecureChannelTokenUnknown ≠ good := by decide
    rw [checkChunk_carries entry.securityPolicy carries sort, unknown]
    exact if_pos bad
  rw [ChannelEntry.process, processChunk, fails]
  exact ⟨rfl, rfl⟩

end Acceptance

/-- From the answer to a renewal until the next token takes over, the former token is accepted.
From then on it is rejected, as long as the token ids have not come round. -/
theorem renewal_overlaps (config : ServerConfig Context) (former : ChannelEntry Context) :
    (∀ server, Overlaps config (fun _ _ => True) former server →
      ∀ entry ∈ server.entries, entry.address = former.address →
        AcceptsFormer config server former entry) ∧
    ∀ server, Switched config (FreshTokens config) former server →
      ∀ entry ∈ server.entries, entry.address = former.address →
        RejectsFormer config server former entry := by
  constructor
  · intro server overlaps entry member here
    obtain ⟨policy, keeps⟩ := overlaps.overlapping.keeps entry member here
    exact keeps.accepts policy
  · intro server switched entry member here
    exact rejects_of_later (switched.overtaken.later entry member here)
      (switched.reached.tokensBelow entry member)

/-! A client that renews its channel -/

def greetedServer : Server Unit :=
  ((initialServer Unit).step plainConfig (.connect 0 ⟨.opening, 65535, 65535, none⟩)).step
    plainConfig (.chunk quietSurroundings 0 helloChunk)

def joinedServer : Server Unit :=
  greetedServer.step plainConfig
    (.chunk quietSurroundings 0 (opnChunk securityPolicyNoneUri 0 1 (openRequestWire 446 0 1)))

def renewalChunk : List Byte := opnChunk securityPolicyNoneUri 1 2 (openRequestWire 446 1 1)

def renewedServer : Server Unit :=
  joinedServer.step plainConfig (.chunk quietSurroundings 0 renewalChunk)

def housekeeping : ServerEvent Unit := .cleanup 0 (fun _ => true) fun _ => true

def openedEntry : ChannelEntry Unit :=
  joinedServer.channels.headD ⟨0, securityPolicyNone, false, renewedChannel⟩

theorem renewalRun_fresh :
    FreshTokens plainConfig (initialServer Unit) (.connect 0 ⟨.opening, 65535, 65535, none⟩) ∧
      FreshTokens plainConfig
        ((initialServer Unit).step plainConfig (.connect 0 ⟨.opening, 65535, 65535, none⟩))
        (.chunk quietSurroundings 0 helloChunk) ∧
      FreshTokens plainConfig greetedServer (.chunk quietSurroundings 0
        (opnChunk securityPolicyNoneUri 0 1 (openRequestWire 446 0 1))) ∧
      FreshTokens plainConfig joinedServer (.chunk quietSurroundings 0 renewalChunk) ∧
      FreshTokens plainConfig renewedServer housekeeping := by
  decide +kernel

def Delivery.renews (delivery : Delivery) : Bool :=
  delivery.messageType == .opn &&
    match decodeOpenRequest plainConfig delivery.message with
    | .ok (typeId, request) => typeId == 446 && request.requestType == 1
    | .error _ => false

theorem joinedServer_renews :
    joinedServer.channels.isEmpty = false ∧ (joinedServer.connections 0).state ≠ .closed ∧
      (joinedServer.connections 0).channel = some openedEntry.address ∧
      (openedEntry.process plainConfig quietSurroundings joinedServer renewalChunk).status = good ∧
      (openedEntry.process plainConfig quietSurroundings joinedServer
        renewalChunk).deliveries.any Delivery.renews = true := by
  decide +kernel

theorem renewedServer_ends :
    (renewedServer.channels.any fun entry => entry.address == openedEntry.address &&
        !entry.timedOut 0 (fun _ => true) && entry.channel.nextSecurityToken.tokenId != 0) = true ∧
      openedEntry.timedOut 0 (fun _ => true) = false ∧
      ((receiveChunk plainConfig quietSurroundings renewedServer 0
        (symmetricChunk .msg 1 1 3)).step.bind ChannelStep.accepted).map AcceptedChunk.tokenId =
          some 1 ∧
      (receiveChunk plainConfig quietSurroundings (renewedServer.step plainConfig housekeeping) 0
        (symmetricChunk .msg 1 1 3)).status = badSecureChannelTokenUnknown := by
  decide +kernel

theorem openedEntry_managed : openedEntry ∈ joinedServer.channels := by
  have filled := joinedServer_renews.1
  cases channels : joinedServer.channels with
  | nil =>
    rw [channels] at filled
    cases filled
  | cons entry rest =>
    rw [openedEntry, channels]
    exact mem_cons_self

theorem openedEntry_mem : openedEntry ∈ joinedServer.entries :=
  mem_append_left _ openedEntry_managed

theorem renewalChunk_answered :
    AnswersRenewal plainConfig quietSurroundings joinedServer openedEntry renewalChunk := by
  obtain ⟨-, -, -, served, delivered⟩ := joinedServer_renews
  obtain ⟨delivery, member, holds⟩ := any_eq_true.mp delivered
  refine ⟨served, delivery, member, ?_⟩
  simp only [Delivery.renews, Bool.and_eq_true, beq_iff_eq] at holds
  refine ⟨holds.1, ?_⟩
  cases decoded : decodeOpenRequest plainConfig delivery.message with
  | error status =>
    rw [decoded] at holds
    cases holds.2
  | ok pair =>
    obtain ⟨typeId, request⟩ := pair
    rw [decoded] at holds
    simp only [Bool.and_eq_true, beq_iff_eq] at holds
    exact ⟨request, by rw [holds.2.1], holds.2.2⟩

theorem renewedServer_overlaps {allowed : Server Unit → ServerEvent Unit → Prop}
    (permits : ∀ server event, FreshTokens plainConfig server event → allowed server event) :
    Overlaps plainConfig allowed openedEntry renewedServer := by
  obtain ⟨connected, greeted, joined, renewed, -⟩ := renewalRun_fresh
  obtain ⟨-, running, attached, -, -⟩ := joinedServer_renews
  have reached : Reached plainConfig allowed joinedServer :=
    ((Reached.start.step _ (permits _ _ connected)).step _ (permits _ _ greeted)).step _
      (permits _ _ joined)
  exact .answered reached quietSurroundings 0 renewalChunk running attached openedEntry_mem
    renewalChunk_answered (permits _ _ renewed)

theorem housekeeping_switches : Switches renewedServer openedEntry.address housekeeping := by
  obtain ⟨entry, member, holds⟩ := any_eq_true.mp renewedServer_ends.1
  simp only [Bool.and_eq_true, beq_iff_eq, Bool.not_eq_true', bne_iff_ne] at holds
  exact ⟨entry, member, holds.1.1, holds.1.2, holds.2⟩

theorem renewedServer_accepts :
    (∀ entry ∈ renewedServer.entries, entry.address = openedEntry.address →
      AcceptsFormer plainConfig renewedServer openedEntry entry) ∧
    ∀ entry ∈ (renewedServer.step plainConfig housekeeping).entries,
      entry.address = openedEntry.address →
        RejectsFormer plainConfig (renewedServer.step plainConfig housekeeping) openedEntry entry :=
  ⟨(renewal_overlaps plainConfig openedEntry).1 renewedServer
      (renewedServer_overlaps fun _ _ _ => trivial),
    (renewal_overlaps plainConfig openedEntry).2 _
      (.first (renewedServer_overlaps fun _ _ => id) housekeeping renewalRun_fresh.2.2.2.2
        housekeeping_switches)⟩

/-- Nobody has used the next token, and the former one is still valid. Behind the housekeeping a
chunk with the former token is rejected. -/
theorem housekeeping_endsOverlap :
    AnswersRenewal plainConfig quietSurroundings joinedServer openedEntry renewalChunk ∧
      openedEntry.timedOut 0 (fun _ => true) = false ∧
      ((receiveChunk plainConfig quietSurroundings renewedServer 0
        (symmetricChunk .msg 1 1 3)).step.bind ChannelStep.accepted).map AcceptedChunk.tokenId =
          some 1 ∧
      (receiveChunk plainConfig quietSurroundings (renewedServer.step plainConfig housekeeping) 0
        (symmetricChunk .msg 1 1 3)).status = badSecureChannelTokenUnknown :=
  ⟨renewalChunk_answered, renewedServer_ends.2⟩

end OpcUa
