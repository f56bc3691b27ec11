import Mathlib.Data.List.Nodup
import OpcUa.ServerSteps

/-!
Whole runs of the server: on which channels a message is delivered.
-/

namespace OpcUa

open LittleEndian StatusCode List

variable {Context : Type}
variable {before after server : Server Context} {entry : ChannelEntry Context}
  {connection : ServerConnection} {bytes : List Byte} {index : Nat}
  {trace : List (ChannelStep Context)}

def Server.serveSessions (server : Server Context) (hasSession : Nat → Bool)
    (sendSequenceNumber : Nat → BitVec 32) : Server Context :=
  let serve (entry : ChannelEntry Context) := { entry with
    hasSession := hasSession entry.address
    channel := { entry.channel with sendSequenceNumber := sendSequenceNumber entry.address } }
  { server with channels := server.channels.map serve, removed := server.removed.map serve }

inductive ServerRun (config : ServerConfig Context)
    (allowed : Surroundings Context → Server Context → Nat → List Byte → Prop) :
    List (ChannelStep Context) → Server Context → Prop
  | start : ServerRun config allowed [] (initialServer Context)
  | chunk {trace : List (ChannelStep Context)} {server : Server Context}
      (surroundings : Surroundings Context) (index : Nat) (bytes : List Byte) :
      ServerRun config allowed trace server → (server.connections index).state ≠ .closed →
      allowed surroundings server index bytes →
      ServerRun config allowed
        (trace ++ (receiveChunk config surroundings server index bytes).step.toList)
        (receiveChunk config surroundings server index bytes).server
  | delayed {trace : List (ChannelStep Context)} {server : Server Context} :
      ServerRun config allowed trace server →
      ServerRun config allowed trace (cleanupDelayedCallbacks server)
  | timeout {trace : List (ChannelStep Context)} {server : Server Context}
      (memory timedOut : ChannelEntry Context → Bool) : ServerRun config allowed trace server →
      ServerRun config allowed trace (cleanupTimedOut memory timedOut server)
  | connect {trace : List (ChannelStep Context)} {server : Server Context} (index : Nat)
      (connection : ServerConnection) : ServerRun config allowed trace server →
      (server.connections index).state = .closed →
      ServerRun config allowed trace (openConnectionAt server index connection)
  | sessions {trace : List (ChannelStep Context)} {server : Server Context}
      (hasSession : Nat → Bool) (sendSequenceNumber : Nat → BitVec 32) :
      ServerRun config allowed trace server →
      ServerRun config allowed trace (server.serveSessions hasSession sendSequenceNumber)

/-! Steps that neither open nor create a channel -/

structure Calm (before after : Server Context) : Prop where
  lastChannelId : after.lastChannelId = before.lastChannelId
  nextAddress : after.nextAddress = before.nextAddress
  channels : ∀ entry ∈ after.channels, ∃ former ∈ before.channels, former.address = entry.address
  entries : ∀ entry ∈ after.entries, ∃ former ∈ before.entries,
    former.address = entry.address ∧ former.securityPolicy = entry.securityPolicy ∧
      Steady former.channel entry.channel

def AllNamed (server : Server Context) : Prop :=
  ∀ entry ∈ server.entries, WellNamed entry.channel

theorem Calm.of_subset (named : AllNamed before)
    (lastChannelId : after.lastChannelId = before.lastChannelId)
    (nextAddress : after.nextAddress = before.nextAddress)
    (channels : ∀ entry ∈ after.channels, entry ∈ before.channels)
    (entries : ∀ entry ∈ after.entries, entry ∈ before.entries) : Calm before after :=
  ⟨lastChannelId, nextAddress, fun entry member => ⟨entry, channels entry member, rfl⟩,
    fun entry member => ⟨entry, entries entry member, rfl, rfl,
      .refl (named entry (entries entry member))⟩⟩

theorem setConnection_calm (named : AllNamed server) (index : Nat) (connection : ServerConnection) :
    Calm server (server.setConnection index connection) :=
  .of_subset named rfl rfl (fun _ => id) fun _ => id

theorem removeSecureChannel_calm (named : AllNamed server) (managed : entry ∈ server.channels) :
    Calm server (removeSecureChannel server entry) :=
  .of_subset named rfl rfl (fun _ member => mem_of_mem_filter member)
    fun _ member => removeSecureChannel_mem managed member

theorem cleanupDelayedCallbacks_calm (named : AllNamed server) :
    Calm server (cleanupDelayedCallbacks server) := by
  refine .of_subset named rfl rfl (fun _ => id) ?_
  intro entry member
  rw [Server.entries, cleanupDelayedCallbacks, append_nil] at member
  exact mem_append_left _ member

theorem cleanupTimedOut_calm (memory timedOut : ChannelEntry Context → Bool)
    (named : AllNamed server) : Calm server (cleanupTimedOut memory timedOut server) := by
  have kept (entry : ChannelEntry Context) (member : entry ∈ (cleanupTimedOut memory timedOut
      server).channels) : ∃ former ∈ server.channels, former.address = entry.address ∧
        former.securityPolicy = entry.securityPolicy ∧ Steady former.channel entry.channel := by
    obtain ⟨former, inside, result⟩ := mem_map.mp member
    have managed := mem_of_mem_filter inside
    have wellNamed := named former (mem_append_left _ managed)
    refine ⟨former, managed, ?_⟩
    split at result
    · subst result
      exact ⟨rfl, rfl, .refl wellNamed⟩
    split at result
    · subst result
      exact ⟨rfl, rfl, revolveTokens_steady former.securityPolicy wellNamed⟩
    · subst result
      exact ⟨rfl, rfl, .refl wellNamed⟩
  refine ⟨rfl, rfl, ?_, ?_⟩
  · intro entry member
    obtain ⟨former, managed, same, -⟩ := kept entry member
    exact ⟨former, managed, same⟩
  · intro entry member
    rcases mem_append.mp member with managed | removed
    · obtain ⟨former, inside, same⟩ := kept entry managed
      exact ⟨former, mem_append_left _ inside, same⟩
    · have before : entry ∈ server.entries := by
        rcases mem_append.mp removed with now | earlier
        · exact mem_append_left _ (mem_of_mem_filter (mem_reverse.mp now))
        · exact mem_append_right _ earlier
      exact ⟨entry, before, rfl, rfl, .refl (named entry before)⟩

theorem serveSessions_calm (hasSession : Nat → Bool) (sendSequenceNumber : Nat → BitVec 32)
    (named : AllNamed server) :
    Calm server (server.serveSessions hasSession sendSequenceNumber) := by
  refine ⟨rfl, rfl, ?_, ?_⟩
  · intro entry member
    obtain ⟨former, inside, result⟩ := mem_map.mp member
    subst result
    exact ⟨former, inside, rfl⟩
  · intro entry member
    rw [Server.entries, Server.serveSessions, ← map_append] at member
    obtain ⟨former, inside, result⟩ := mem_map.mp member
    subst result
    exact ⟨former, inside, rfl, rfl, rfl, rfl, rfl, named former inside⟩

/-! The objects of the server -/

structure Stored (server : Server Context) : Prop where
  distinct : server.addresses.Nodup
  bounded : ∀ entry ∈ server.entries, entry.address < server.nextAddress
  attached : ∀ index address, (server.connections index).channel = some address →
    address ∈ server.addresses
  named : AllNamed server

structure Numbered (server : Server Context) : Prop where
  below : ∀ entry ∈ server.entries, server.lastChannelId ≠ 0 →
    entry.channel.securityToken.channelId.toNat < server.lastChannelId.toNat
  unique : ∀ entry ∈ server.entries, ∀ other ∈ server.entries,
    entry.channel.securityToken.channelId ≠ 0 →
    entry.channel.securityToken.channelId = other.channel.securityToken.channelId →
    entry.address = other.address
  opened : ∀ entry ∈ server.entries, entry.channel.state = .opened →
    entry.channel.securityToken.channelId ≠ 0

theorem Stored.same (stored : Stored server) {other : ChannelEntry Context}
    (member : entry ∈ server.entries) (too : other ∈ server.entries)
    (address : entry.address = other.address) : entry = other :=
  inj_on_of_nodup_map stored.distinct member too address

theorem Stored.calm (stored : Stored before) (calm : Calm before after)
    (distinct : after.addresses.Nodup)
    (attached : ∀ index address, (after.connections index).channel = some address →
      address ∈ after.addresses) : Stored after := by
  refine ⟨distinct, ?_, attached, ?_⟩
  · intro entry member
    obtain ⟨former, inside, same, -⟩ := calm.entries entry member
    rw [← same, calm.nextAddress]
    exact stored.bounded former inside
  · intro entry member
    obtain ⟨former, inside, -, -, steady⟩ := calm.entries entry member
    exact steady.named

theorem Stored.unattached (stored : Stored before) (calm : Calm before after)
    (addresses : after.addresses.Perm before.addresses)
    (connections : after.connections = before.connections) : Stored after := by
  refine stored.calm calm (addresses.nodup_iff.mpr stored.distinct) ?_
  intro index address attached
  rw [connections] at attached
  exact addresses.mem_iff.mpr (stored.attached index address attached)

theorem Numbered.calm (numbered : Numbered before) (calm : Calm before after) : Numbered after := by
  refine ⟨?_, ?_, ?_⟩
  · intro entry member
    obtain ⟨former, inside, -, -, steady⟩ := calm.entries entry member
    rw [steady.channelId, calm.lastChannelId]
    exact numbered.below former inside
  · intro entry member other too
    obtain ⟨former, inside, address, -, steady⟩ := calm.entries entry member
    obtain ⟨formerToo, insideToo, addressToo, -, steadyToo⟩ := calm.entries other too
    rw [steady.channelId, steadyToo.channelId, ← address, ← addressToo]
    exact numbered.unique former inside formerToo insideToo
  · intro entry member opened
    obtain ⟨former, inside, -, -, steady⟩ := calm.entries entry member
    rw [steady.channelId]
    exact numbered.opened former inside (steady.state.symm.trans opened)

structure Unopened (channel : SecureChannel Context) : Prop where
  state : channel.state = .fresh
  channelId : channel.securityToken.channelId = 0
  next : channel.nextSecurityToken.tokenId = 0

theorem Unopened.wellNamed {channel : SecureChannel Context} (unopened : Unopened channel) :
    WellNamed channel := fun issued => absurd unopened.next issued

section

variable (server : Server Context) (index : Nat) (entry : ChannelEntry Context)

def attachChannel : Server Context :=
  Server.setConnection { server with
    lastTokenId := server.lastTokenId + 1
    nextAddress := server.nextAddress + 1
    channels := entry :: server.channels } index
    { server.connections index with channel := some entry.address }

theorem attachChannel_addresses :
    (attachChannel server index entry).addresses = entry.address :: server.addresses := rfl

end

theorem attachChannel_stored (stored : Stored server) (index : Nat)
    (new : entry.address = server.nextAddress) (unopened : Unopened entry.channel) :
    Stored (attachChannel server index entry) := by
  refine ⟨?_, ?_, ?_, ?_⟩
  · rw [attachChannel_addresses, nodup_cons]
    refine ⟨fun known => ?_, stored.distinct⟩
    obtain ⟨other, member, same⟩ := mem_map.mp known
    have bound := stored.bounded other member
    omega
  · intro other member
    change other.address < server.nextAddress + 1
    rcases mem_cons.mp member with same | before
    · rw [same, new]
      omega
    · have bound := stored.bounded other before
      omega
  · intro other address attached
    by_cases here : other = index
    · subst here
      rw [attachChannel, Server.setConnection] at attached
      simp only [Function.update_self, Option.some.injEq] at attached
      exact attached ▸ mem_cons_self
    · rw [attachChannel, Server.setConnection] at attached
      simp only [Function.update_of_ne here] at attached
      exact mem_cons_of_mem _ (stored.attached other address attached)
  · intro other member
    rcases mem_cons.mp member with same | before
    · rw [same]
      exact unopened.wellNamed
    · exact stored.named other before

theorem attachChannel_numbered (numbered : Numbered server) (index : Nat)
    (unopened : Unopened entry.channel) : Numbered (attachChannel server index entry) := by
  refine ⟨?_, ?_, ?_⟩
  · intro other member wrapped
    rcases mem_cons.mp member with same | before
    · rw [same, unopened.channelId]
      exact Nat.pos_of_ne_zero fun zero => wrapped (BitVec.eq_of_toNat_eq zero)
    · exact numbered.below other before wrapped
  · intro first member second too nonzero same
    rcases mem_cons.mp member with new | before
    · rw [new] at nonzero
      exact absurd unopened.channelId nonzero
    · rcases mem_cons.mp too with new | beforeToo
      · rw [same, new] at nonzero
        exact absurd unopened.channelId nonzero
      · exact numbered.unique first before second beforeToo nonzero same
  · intro other member opened
    rcases mem_cons.mp member with new | before
    · rw [new, unopened.state] at opened
      exact absurd opened (by decide)
    · exact numbered.opened other before opened

def Purged (server after : Server Context) : Prop :=
  after = server ∨ ∃ entry ∈ server.channels, after = removeSecureChannel server entry

theorem Purged.calm (purged : Purged server after) (named : AllNamed server) :
    Calm server after := by
  rcases purged with same | ⟨entry, managed, removed⟩
  · subst same
    exact .of_subset named rfl rfl (fun _ => id) fun _ => id
  · subst removed
    exact removeSecureChannel_calm named managed

theorem Purged.touches (purged : Purged server after) (address : Nat) :
    Touches address server after := by
  rcases purged with same | ⟨entry, managed, removed⟩
  · subst same
    exact .refl address after
  · subst removed
    exact removeSecureChannel_touches address server managed

theorem Stored.purged (stored : Stored server) (purged : Purged server after) : Stored after := by
  have touches := purged.touches 0
  exact stored.unattached (purged.calm stored.named) (touches.addresses stored.distinct)
    touches.connections

theorem initSecureChannel_unopened (policy : SecurityPolicy Context) (certificate : UaString) :
    (initSecureChannel policy certificate).2.state = .fresh ∧
      (initSecureChannel policy certificate).2.nextSecurityToken = .init := by
  simp only [initSecureChannel]
  split
  · exact ⟨rfl, rfl⟩
  · split
    · exact ⟨rfl, rfl⟩
    · exact ⟨rfl, rfl⟩

theorem createManaged_cases (config : ServerConfig Context) (surroundings : Surroundings Context)
    (server : Server Context) (index : Nat) (policy : SecurityPolicy Context)
    (certificate : UaString) :
    ∃ middle, Purged server middle ∧
      ((createManaged config surroundings server index policy certificate).1 ≠ good ∧
        (createManaged config surroundings server index policy certificate).2 = middle ∨
      (createManaged config surroundings server index policy certificate).1 = good ∧
        ∃ entry : ChannelEntry Context, entry.address = middle.nextAddress ∧
          entry.securityPolicy = policy ∧ Unopened entry.channel ∧
          entry.channel.securityToken = ⟨0, middle.lastTokenId, surroundings.now,
            config.maxSecurityTokenLifetime⟩ ∧
          (createManaged config surroundings server index policy certificate).2 =
            attachChannel middle index entry) := by
  have purged : ∀ room, (if server.channels.length ≥ config.maxSecureChannels then
      purgeFirstChannelWithoutSession server else some server) = some room →
        Purged server room := by
    intro room result
    split at result
    · rw [purgeFirstChannelWithoutSession, Option.map_eq_some_iff] at result
      obtain ⟨entry, found, removed⟩ := result
      exact .inr ⟨entry, mem_of_find?_eq_some found, removed.symm⟩
    · exact .inl (Option.some.inj result).symm
  rw [createManaged]
  split
  · exact ⟨server, .inl rfl, .inl ⟨by show badInternalError ≠ good; decide, rfl⟩⟩
  · generalize (if server.channels.length ≥ config.maxSecureChannels then
      purgeFirstChannelWithoutSession server else some server) = room at purged
    cases room with
    | none => exact ⟨server, .inl rfl, .inl ⟨by show badOutOfMemory ≠ good; decide, rfl⟩⟩
    | some middle =>
      refine ⟨middle, purged middle rfl, ?_⟩
      dsimp only
      by_cases fails : (initSecureChannel policy certificate).1 ≠ good
      · rw [if_pos fails]
        exact .inl ⟨fails, rfl⟩
      · rw [if_neg fails]
        obtain ⟨state, next⟩ := initSecureChannel_unopened policy certificate
        refine .inr ⟨rfl, ⟨middle.nextAddress, policy, false,
          { (initSecureChannel policy certificate).2 with
            securityToken := ⟨0, middle.lastTokenId, surroundings.now,
              config.maxSecurityTokenLifetime⟩ }⟩, rfl, rfl, ⟨state, rfl, ?_⟩, rfl, rfl⟩
        rw [next]
        rfl

theorem cleanupDelayedCallbacks_connection (server : Server Context) (index : Nat) :
    ((cleanupDelayedCallbacks server).connections index).channel = none ∨
      (cleanupDelayedCallbacks server).connections index = server.connections index ∧
        ∀ address, (server.connections index).channel = some address →
          address ∉ server.removed.map ChannelEntry.address := by
  cases attached : (server.connections index).channel with
  | none =>
    left
    simp [cleanupDelayedCallbacks, attached]
  | some address =>
    by_cases gone : (server.removed.any fun entry => entry.address == address) = true
    · left
      simp [cleanupDelayedCallbacks, attached, gone]
    · right
      refine ⟨by simp [cleanupDelayedCallbacks, attached, gone], ?_⟩
      rintro _ ⟨⟩ removed
      obtain ⟨entry, member, same⟩ := mem_map.mp removed
      exact gone (any_eq_true.mpr ⟨entry, member, by rw [same, beq_self_eq_true]⟩)

section

variable (stored : Stored server)
include stored

theorem Stored.delayed : Stored (cleanupDelayedCallbacks server) := by
  have addresses : server.addresses = (cleanupDelayedCallbacks server).addresses ++
      server.removed.map ChannelEntry.address := by
    simp [Server.addresses, Server.entries, cleanupDelayedCallbacks]
  have distinct := stored.distinct
  rw [addresses, nodup_append] at distinct
  refine stored.calm (cleanupDelayedCallbacks_calm stored.named) distinct.1 ?_
  intro index address attached
  rcases cleanupDelayedCallbacks_connection server index with none | ⟨same, kept⟩
  · rw [none] at attached
    cases attached
  · rw [same] at attached
    have known := stored.attached index address attached
    rw [addresses, mem_append] at known
    exact known.resolve_right (kept address attached)

theorem Stored.timeout (memory timedOut : ChannelEntry Context → Bool) :
    Stored (cleanupTimedOut memory timedOut server) := by
  refine stored.unattached (cleanupTimedOut_calm memory timedOut stored.named) ?_ rfl
  have revolved : ((server.channels.filter fun entry => !(timedOut entry && memory entry)).map
      fun entry =>
        if timedOut entry then entry
        else if entry.channel.nextSecurityToken.tokenId.toNat > 0 then
          { entry with channel := (revolveTokens entry.securityPolicy entry.channel).2 }
        else entry).map ChannelEntry.address =
        (server.channels.filter fun entry => !(timedOut entry && memory entry)).map
          ChannelEntry.address := by
    rw [map_map]
    refine map_congr_left fun entry _ => ?_
    simp only [Function.comp_apply]
    split
    · rfl
    split
    · rfl
    · rfl
  simp only [Server.addresses, Server.entries, cleanupTimedOut, map_append, revolved, map_reverse]
  rw [← append_assoc]
  refine List.Perm.append_right _ ?_
  refine ((reverse_perm _).append_left _).trans ?_
  rw [← map_append]
  exact (perm_append_comm.trans (filter_append_perm _ server.channels)).map _

theorem Stored.sessions (hasSession : Nat → Bool) (sendSequenceNumber : Nat → BitVec 32) :
    Stored (server.serveSessions hasSession sendSequenceNumber) := by
  refine stored.unattached (serveSessions_calm hasSession sendSequenceNumber stored.named) ?_ rfl
  have same : (server.serveSessions hasSession sendSequenceNumber).addresses = server.addresses := by
    simp only [Server.addresses, Server.entries, Server.serveSessions, ← map_append, map_map]
    rfl
  rw [same]

theorem Stored.setConnection (index : Nat)
    (channel : connection.channel = none ∨ connection.channel = (server.connections index).channel)
    :
    Stored (server.setConnection index connection) := by
  refine stored.calm (setConnection_calm stored.named index connection) stored.distinct ?_
  intro other address attached
  by_cases here : other = index
  · subst here
    simp only [Server.setConnection, Function.update_self] at attached
    rcases channel with none | same
    · rw [none] at attached
      cases attached
    · exact stored.attached other address (same ▸ attached)
  · simp only [Server.setConnection, Function.update_of_ne here] at attached
    exact stored.attached other address attached

end

def settled (index address : Nat) (outcome : ProcessResult Context (Server Context)) :
    Server Context :=
  let after := outcome.application.store address outcome.channel
  if outcome.status ≠ good then
    after.setConnection index { after.connections index with state := .closed }
  else after

section

variable (config : ServerConfig Context) (surroundings : Surroundings Context)
  (server : Server Context) (entry : ChannelEntry Context) (bytes : List Byte)

def ChannelEntry.process : ProcessResult Context (Server Context) :=
  processChunk entry.securityPolicy
    (processSecureChannelMessage config surroundings entry.securityPolicy entry.address) server
    entry.channel bytes

def channelStep : ChannelStep Context :=
  ⟨entry.address, entry.securityPolicy, server.isManaged entry.address, entry.channel, bytes,
    (entry.process config surroundings server bytes).accepted,
    (entry.process config surroundings server bytes).deliveries⟩

end

def StartsWithOpn (bytes : List Byte) : Prop :=
  ∀ messageType, headerMessageType bytes = some messageType → messageType = .opn

/-- What comes of a chunk: there is no channel for it, it goes to the channel of the
connection, or it goes to one that was made for it. -/
inductive Received (config : ServerConfig Context) (surroundings : Surroundings Context)
    (server : Server Context) (index : Nat) (bytes : List Byte) :
    Server Context → Option (ChannelStep Context) → Prop
  | without (middle : Server Context) (connection : ServerConnection) : Purged server middle →
      (server.connections index).channel = none →
      connection.channel = (server.connections index).channel →
      connection.state = .closed ∨ connection.channel = none →
      Received config surroundings server index bytes (middle.setConnection index connection) none
  | existing (entry : ChannelEntry Context) :
      (server.connections index).channel = some entry.address → entry ∈ server.entries →
      server.find entry.address = some entry →
      Received config surroundings server index bytes
        (settled index entry.address (entry.process config surroundings server bytes))
        (some (channelStep config surroundings server entry bytes))
  | created (middle : Server Context) (entry : ChannelEntry Context) (endpoint : Endpoint Context) :
      Purged server middle → (server.connections index).channel = none →
      entry.address = middle.nextAddress → Unopened entry.channel → endpoint ∈ config.endpoints →
      entry.securityPolicy = endpoint.securityPolicy → StartsWithOpn bytes →
      entry.channel.securityToken = ⟨0, middle.lastTokenId, surroundings.now,
        config.maxSecurityTokenLifetime⟩ →
      Received config surroundings server index bytes (settled index entry.address
          (entry.process config surroundings (attachChannel middle index entry) bytes))
        (some (channelStep config surroundings (attachChannel middle index entry) entry bytes))

theorem startsWithOpn_of_word
    (word : (uint32DecodeBinary (chunkInput bytes) 0).value &&& 0x00ffffff =
      MessageType.opn.code) : StartsWithOpn bytes := by
  intro messageType sort
  rw [headerMessageType, messageHeaderDecodeBinary] at sort
  have opn : MessageType.ofCode MessageType.opn.code = some .opn := by decide
  have nothing : MessageType.ofCode ((default : SecureConversationMessageHeader).messageTypeAndChunkType
      &&& 0x00ffffff) = none := by decide
  by_cases first : (uint32DecodeBinary (chunkInput bytes) 0).status = good
  · simp only [Res.thenCheck, first, if_true] at sort
    split at sort
    · simp only [Res.map, word, opn, Option.some.injEq] at sort
      exact sort.symm
    · rw [nothing] at sort
      cases sort
  · simp only [Res.thenCheck, first, if_false] at sort
    cases sort

theorem Stored.find (stored : Stored server) (member : entry ∈ server.entries) :
    server.find entry.address = some entry := by
  have some : (server.find entry.address).isSome = true := by
    rw [Server.find, find?_isSome]
    exact ⟨entry, member, beq_self_eq_true _⟩
  obtain ⟨other, found⟩ := Option.isSome_iff_exists.mp some
  have address : other.address = entry.address := by
    simpa using find?_some found
  rw [found, stored.same (mem_of_find?_eq_some found) member address]

def closeOnError (index : Nat) (result : StepResult Context) : StepResult Context :=
  if result.status ≠ good then
    ⟨result.status, result.server.setConnection index
      { result.server.connections index with state := .closed }, result.step⟩
  else result

theorem processChannelChunk_found (config : ServerConfig Context)
    (surroundings : Surroundings Context) (index : Nat)
    (found : server.find entry.address = some entry) (bytes : List Byte) :
    (closeOnError index (processChannelChunk config surroundings server entry.address bytes)).server =
        settled index entry.address (entry.process config surroundings server bytes) ∧
      (closeOnError index (processChannelChunk config surroundings server entry.address bytes)).step =
        some (channelStep config surroundings server entry bytes) := by
  have result : processChannelChunk config surroundings server entry.address bytes =
      ⟨(entry.process config surroundings server bytes).status,
        (entry.process config surroundings server bytes).application.store entry.address
          (entry.process config surroundings server bytes).channel,
        some (channelStep config surroundings server entry bytes)⟩ := by
    rw [processChannelChunk, found]
    rfl
  rw [result]
  by_cases bad : (entry.process config surroundings server bytes).status ≠ good
  · simp only [closeOnError, settled, if_pos bad, and_self]
  · simp only [closeOnError, settled, if_neg bad, and_self]

section Receive

variable {config : ServerConfig Context} {surroundings : Surroundings Context}

theorem Received.refused {middle : Server Context} (purged : Purged server middle)
    (none : (server.connections index).channel = none) {status : StatusCode}
    (bad : status ≠ good) :
    Received config surroundings server index bytes
      (closeOnError index ⟨status, middle, .none⟩).server
      (closeOnError index ⟨status, middle, .none⟩).step := by
  rw [closeOnError, if_pos bad]
  refine .without middle _ purged none ?_ (.inl rfl)
  exact congrArg (fun connections => (connections index).channel) (purged.touches 0).connections

theorem processHEL_received (none : (server.connections index).channel = none) :
    Received config surroundings server index bytes
      (closeOnError index ⟨(processHEL surroundings server index bytes).1,
        (processHEL surroundings server index bytes).2, .none⟩).server
      (closeOnError index ⟨(processHEL surroundings server index bytes).1,
        (processHEL surroundings server index bytes).2, .none⟩).step := by
  have same : (server.setConnection index (server.connections index)) = server := by
    rw [Server.setConnection, Function.update_eq_self]
  have changed (connection : ServerConnection) (status : StatusCode)
      (channel : connection.channel = .none) :
      Received config surroundings server index bytes
        (closeOnError index ⟨status, server.setConnection index connection, .none⟩).server
        (closeOnError index ⟨status, server.setConnection index connection, .none⟩).step := by
    rw [closeOnError]
    split
    · have twice : (server.setConnection index connection).setConnection index
          { (server.setConnection index connection).connections index with state := .closed } =
            server.setConnection index { connection with state := .closed } := by
        simp only [Server.setConnection, Function.update_idem, Function.update_self]
      simp only [twice]
      exact .without server _ (.inl rfl) none (channel.trans none.symm) (.inl rfl)
    · exact .without server connection (.inl rfl) none (channel.trans none.symm) (.inr channel)
  simp only [processHEL]
  split
  · have unchanged := changed (server.connections index) (helloDecodeBinary bytes 8).status none
    rwa [same] at unchanged
  · split
    · exact changed _ _ none
    · split
      · exact changed _ _ none
      · exact changed _ _ none

theorem createSecureChannel_received {header : AsymmetricAlgorithmSecurityHeader}
    (stored : Stored server) (none : (server.connections index).channel = none)
    (opn : StartsWithOpn bytes) :
    let result : StepResult Context :=
      match createSecureChannel config surroundings server index header with
      | (status, server) =>
        if status ≠ good then ⟨status, server, .none⟩
        else
          match (server.connections index).channel with
          | .none => ⟨badInternalError, server, .none⟩
          | some address => processChannelChunk config surroundings server address bytes
    Received config surroundings server index bytes (closeOnError index result).server
      (closeOnError index result).step := by
  rw [createSecureChannel]
  cases selected : selectEndpoint config header with
  | none => exact .refused (.inl rfl) none (by decide)
  | some endpoint =>
    obtain ⟨middle, purged, ⟨bad, after⟩ | ⟨created, entry, new, policy, unopened, token, after⟩⟩ :=
      createManaged_cases config surroundings server index endpoint.securityPolicy
        header.senderCertificate
    · simp only [if_pos bad, after]
      exact .refused purged none bad
    · have attached : ((attachChannel middle index entry).connections index).channel =
          some entry.address := by
        rw [attachChannel, Server.setConnection]
        simp only [Function.update_self]
      have found : (attachChannel middle index entry).find entry.address = some entry :=
        (attachChannel_stored (stored.purged purged) index new unopened).find mem_cons_self
      simp only [created, ne_eq, not_true_eq_false, if_false, after, attached]
      obtain ⟨final, step⟩ := processChannelChunk_found config surroundings index found bytes
      rw [final, step]
      exact .created middle entry endpoint purged none new unopened
        (mem_of_find?_eq_some selected) policy opn token

theorem receiveChunk_received (stored : Stored server) :
    Received config surroundings server index bytes
      (receiveChunk config surroundings server index bytes).server
      (receiveChunk config surroundings server index bytes).step := by
  change Received config surroundings server index bytes
    (closeOnError index (processCompleteChunk config surroundings server index bytes)).server
    (closeOnError index (processCompleteChunk config surroundings server index bytes)).step
  rw [processCompleteChunk]
  cases attached : (server.connections index).channel with
  | some address =>
    obtain ⟨entry, member, rfl⟩ := mem_map.mp (stored.attached index address attached)
    obtain ⟨final, step⟩ := processChannelChunk_found config surroundings index
      (stored.find member) bytes
    simp only [final, step]
    exact .existing entry attached member (stored.find member)
  | none =>
    simp only [processCompleteChunkWithoutChannel]
    split
    · rename_i bad
      exact .refused (.inl rfl) attached bad
    · rename_i decodes
      split
      · exact processHEL_received attached
      · split
        · rename_i opn
          have word := (Res.thenCheck_good (not_not.mp decodes)).2.2.2
          split
          · exact .refused (.inl rfl) attached (by decide)
          · split
            · rename_i bad
              exact .refused (.inl rfl) attached bad
            · refine createSecureChannel_received stored attached (startsWithOpn_of_word ?_)
              rw [word] at opn
              exact opn
        · exact .refused (.inl rfl) attached (by decide)

end Receive

/-! What a chunk does to the channels -/

structure Processes (config : ServerConfig Context) (entry : ChannelEntry Context)
    (bytes : List Byte) (server after : Server Context) (result : SecureChannel Context) :
    Prop where
  member : entry ∈ server.entries
  channels : ∀ other ∈ after.channels, ∃ former ∈ server.channels, Alters entry.address former other
  entries : ∀ other ∈ after.entries, ∃ former ∈ server.entries, Alters entry.address former other
  nextAddress : after.nextAddress = server.nextAddress
  addresses : after.addresses.Perm server.addresses
  written : ∀ other ∈ after.entries, other.address = entry.address → other.channel = result
  continues : Continues (ChunkIssues config entry.securityPolicy entry.channel bytes) server after
    entry.channel result
  connections : ∀ index, (after.connections index).channel = (server.connections index).channel

theorem Processes.setConnection {config : ServerConfig Context} {result : SecureChannel Context}
    (processes : Processes config entry bytes server after result)
    (same : connection.channel = (after.connections index).channel) :
    Processes config entry bytes server (after.setConnection index connection) result where
  member := processes.member
  channels := processes.channels
  entries := processes.entries
  nextAddress := processes.nextAddress
  addresses := processes.addresses
  written := processes.written
  continues := processes.continues.of_eq rfl rfl Steady.refl
  connections other := by
    rw [← processes.connections other, Server.setConnection]
    by_cases here : other = index
    · subst here
      simp only [Function.update_self, same]
    · simp only [Function.update_of_ne here]

theorem settled_processes (config : ServerConfig Context) (surroundings : Surroundings Context)
    (stored : Stored server) (member : entry ∈ server.entries) (index : Nat) (bytes : List Byte) :
    Processes config entry bytes server
      (settled index entry.address (entry.process config surroundings server bytes))
      (entry.process config surroundings server bytes).channel := by
  have touches := (processChunk_touches config surroundings entry.securityPolicy entry.address server
    entry.channel bytes).trans (store_touches _ entry.address
      (entry.process config surroundings server bytes).channel)
  have continues := (processChunk_continues config surroundings entry.securityPolicy entry.address
    server bytes (stored.named entry member)).of_eq rfl
      (store_lastChannelId _ entry.address (entry.process config surroundings server bytes).channel)
      Steady.refl
  have whole : Processes config entry bytes server
      ((entry.process config surroundings server bytes).application.store entry.address
        (entry.process config surroundings server bytes).channel)
      (entry.process config surroundings server bytes).channel :=
    ⟨member, touches.channels, touches.entries, touches.nextAddress,
      touches.addresses stored.distinct, fun other inside here => store_channel inside here,
      continues, fun other => congrArg (fun connections => (connections other).channel)
        touches.connections⟩
  rw [settled]
  split
  · exact whole.setConnection rfl
  · exact whole

section Processes

variable {config : ServerConfig Context} {result : SecureChannel Context}

theorem Processes.cases (processes : Processes config entry bytes server after result)
    (stored : Stored server) {other : ChannelEntry Context} (member : other ∈ after.entries) :
    (other.address = entry.address ∧ other.securityPolicy = entry.securityPolicy ∧
        other.channel = result) ∨
      (other.address ≠ entry.address ∧ other ∈ server.entries) := by
  obtain ⟨former, inside, address, policy, elsewhere⟩ := processes.entries other member
  by_cases here : former.address = entry.address
  · have same := stored.same inside processes.member here
    subst same
    exact .inl ⟨address, policy, processes.written other member address⟩
  · rw [elsewhere here]
    exact .inr ⟨here, inside⟩

theorem Processes.stored (processes : Processes config entry bytes server after result)
    (stored : Stored server) : Stored after := by
  refine ⟨processes.addresses.nodup_iff.mpr stored.distinct, ?_, ?_, ?_⟩
  · intro other member
    obtain ⟨former, inside, address, -⟩ := processes.entries other member
    rw [address, processes.nextAddress]
    exact stored.bounded former inside
  · intro index address attached
    rw [processes.connections] at attached
    exact processes.addresses.mem_iff.mpr (stored.attached index address attached)
  · intro other member
    rcases processes.cases stored member with ⟨-, -, written⟩ | ⟨-, before⟩
    · rw [written]
      exact processes.continues.named
    · exact stored.named other before

theorem Processes.numbered (processes : Processes config entry bytes server after result)
    (stored : Stored server) (numbered : Numbered server) (running : server.lastChannelId ≠ 0) :
    Numbered after := by
  have limit := numbered.below entry processes.member running
  have counted : (server.lastChannelId + 1).toNat =
      (server.lastChannelId.toNat + 1) % 2 ^ 32 := BitVec.toNat_add _ _
  have small := server.lastChannelId.isLt
  -- the id of the channel is still its own or the one of the counter
  have fits (other : ChannelEntry Context) (before : other ∈ server.entries)
      (elsewhere : other.address ≠ entry.address)
      (nonzero : result.securityToken.channelId ≠ 0) :
      result.securityToken.channelId ≠ other.channel.securityToken.channelId := by
    intro same
    rcases processes.continues.ids with ⟨kept, -⟩ | ⟨-, given, -⟩
    · rw [kept] at same nonzero
      exact elsewhere (numbered.unique entry processes.member other before nonzero same).symm
    · have bound := numbered.below other before running
      rw [← same, given] at bound
      omega
  refine ⟨?_, ?_, ?_⟩
  · intro other member wrapped
    rcases processes.continues.ids with ⟨kept, counter⟩ | ⟨-, given, counter⟩
    · rw [counter]
      rcases processes.cases stored member with ⟨-, -, written⟩ | ⟨-, before⟩
      · rw [written, kept]
        exact limit
      · exact numbered.below other before running
    · have more : server.lastChannelId.toNat + 1 ≠ 2 ^ 32 := by
        intro full
        rw [full] at counted
        exact wrapped (BitVec.eq_of_toNat_eq (by rw [counter, counted]; rfl))
      rw [counter, counted, Nat.mod_eq_of_lt (by omega)]
      rcases processes.cases stored member with ⟨-, -, written⟩ | ⟨-, before⟩
      · rw [written, given]
        omega
      · have bound := numbered.below other before running
        omega
  · intro first member second too nonzero same
    rcases processes.cases stored member with ⟨here, -, written⟩ | ⟨elsewhere, before⟩
    · rcases processes.cases stored too with ⟨hereToo, -, -⟩ | ⟨elsewhere, before⟩
      · rw [here, hereToo]
      · rw [written] at nonzero same
        exact absurd same (fits second before elsewhere nonzero)
    · rcases processes.cases stored too with ⟨here, -, written⟩ | ⟨-, beforeToo⟩
      · rw [same] at nonzero
        rw [written] at nonzero same
        exact absurd same.symm (fits first before elsewhere nonzero)
      · exact numbered.unique first before second beforeToo nonzero same
  · intro other member opened
    rcases processes.cases stored member with ⟨-, -, written⟩ | ⟨-, before⟩
    · rw [written] at opened ⊢
      by_cases already : entry.channel.state = .opened
      · rcases processes.continues.ids with ⟨kept, -⟩ | ⟨fresh, -, -⟩
        · rw [kept]
          exact numbered.opened entry processes.member already
        · rw [already] at fresh
          exact absurd fresh (by decide)
      · rw [(processes.continues.opening opened already).2]
        exact running
    · exact numbered.opened other before opened

end Processes

/-! What has happened so far -/

/-- Managed channels come from managed ones, open ones stay as they are, and a new one has a
new address. -/
structure Evolves (before after : Server Context) : Prop where
  nextAddress : before.nextAddress ≤ after.nextAddress
  channels : ∀ entry ∈ after.channels,
    (∃ former ∈ before.channels, former.address = entry.address) ∨
      before.nextAddress ≤ entry.address
  entries : ∀ entry ∈ after.entries, (∃ former ∈ before.entries, former.address = entry.address ∧
      (former.channel.state = .opened → entry.channel.state = .opened ∧
        entry.channel.securityMode = former.channel.securityMode)) ∨
      before.nextAddress ≤ entry.address

theorem Evolves.trans {first second third : Server Context} (here : Evolves first second)
    (there : Evolves second third) : Evolves first third := by
  have later {address : Nat} (new : second.nextAddress ≤ address) : first.nextAddress ≤ address :=
    here.nextAddress.trans new
  refine ⟨here.nextAddress.trans there.nextAddress, ?_, ?_⟩
  · intro entry member
    rcases there.channels entry member with ⟨middle, inside, same⟩ | new
    · rcases here.channels middle inside with ⟨former, start, again⟩ | new
      · exact .inl ⟨former, start, again.trans same⟩
      · exact .inr (same ▸ new)
    · exact .inr (later new)
  · intro entry member
    rcases there.entries entry member with ⟨middle, inside, same, kept⟩ | new
    · rcases here.entries middle inside with ⟨former, start, again, keptToo⟩ | new
      · refine .inl ⟨former, start, again.trans same, fun opened => ?_⟩
        obtain ⟨middleOpened, mode⟩ := keptToo opened
        obtain ⟨finalOpened, finalMode⟩ := kept middleOpened
        exact ⟨finalOpened, finalMode.trans mode⟩
      · exact .inr (same ▸ new)
    · exact .inr (later new)

theorem Calm.evolves (calm : Calm before after) : Evolves before after := by
  refine ⟨calm.nextAddress.ge, fun entry member => .inl (calm.channels entry member), ?_⟩
  intro entry member
  obtain ⟨former, inside, same, -, steady⟩ := calm.entries entry member
  exact .inl ⟨former, inside, same, fun opened =>
    ⟨steady.state.trans opened, steady.securityMode⟩⟩

theorem attachChannel_evolves (server : Server Context) (index : Nat)
    (new : entry.address = server.nextAddress) :
    Evolves server (attachChannel server index entry) := by
  refine ⟨Nat.le_succ _, ?_, ?_⟩
  · intro other member
    rcases mem_cons.mp member with same | before
    · exact .inr (by rw [same, new])
    · exact .inl ⟨other, before, rfl⟩
  · intro other member
    rcases mem_cons.mp member with same | before
    · exact .inr (by rw [same, new])
    · exact .inl ⟨other, before, rfl, fun opened => ⟨opened, rfl⟩⟩

theorem Processes.evolves {config : ServerConfig Context} {result : SecureChannel Context}
    (processes : Processes config entry bytes server after result) (stored : Stored server) :
    Evolves server after := by
  refine ⟨processes.nextAddress.ge, ?_, ?_⟩
  · intro other member
    obtain ⟨former, inside, address, -⟩ := processes.channels other member
    exact .inl ⟨former, inside, address.symm⟩
  · intro other member
    rcases processes.cases stored member with ⟨here, -, written⟩ | ⟨-, before⟩
    · refine .inl ⟨entry, processes.member, here.symm, fun opened => ?_⟩
      rw [written]
      exact processes.continues.opened opened
    · exact .inl ⟨other, before, rfl, fun opened => ⟨opened, rfl⟩⟩

def Closes (step : ChannelStep Context) : Prop :=
  ∃ delivery ∈ step.deliveries, delivery.messageType = .clo

structure Consistent (trace : List (ChannelStep Context)) (server : Server Context) : Prop where
  known : ∀ step ∈ trace, step.address < server.nextAddress
  closed : ∀ step ∈ trace, Closes step → ∀ entry ∈ server.channels, entry.address ≠ step.address
  opened : ∀ step ∈ trace, step.channel.state = .opened → ∀ entry ∈ server.entries,
    entry.address = step.address → entry.channel.state = .opened ∧
      entry.channel.securityMode = step.channel.securityMode

theorem Consistent.evolves (consistent : Consistent trace before) (evolves : Evolves before after) :
    Consistent trace after := by
  refine ⟨?_, ?_, ?_⟩
  · intro step member
    exact (consistent.known step member).trans_le evolves.nextAddress
  · intro step member closes entry managed same
    have known := consistent.known step member
    rcases evolves.channels entry managed with ⟨former, inside, again⟩ | new
    · exact consistent.closed step member closes former inside (again.trans same)
    · omega
  · intro step member opened entry inside same
    have known := consistent.known step member
    rcases evolves.entries entry inside with ⟨former, start, again, kept⟩ | new
    · obtain ⟨formerOpened, mode⟩ := consistent.opened step member opened former start
        (again.trans same)
      obtain ⟨entryOpened, entryMode⟩ := kept formerOpened
      exact ⟨entryOpened, entryMode.trans mode⟩
    · omega

def ReadyAt (server : Server Context) (index : Nat) : Prop :=
  (server.connections index).state ≠ .closed → ∀ address,
    (server.connections index).channel = some address →
    ∀ entry ∈ server.channels, entry.address = address → entry.channel.state = .opened

theorem ReadyAt.of_closed (closed : (server.connections index).state = .closed) :
    ReadyAt server index :=
  fun running => absurd closed running

theorem ReadyAt.of_none (none : (server.connections index).channel = none) :
    ReadyAt server index := by
  intro _ address attached
  rw [none] at attached
  cases attached

theorem ReadyAt.evolves (ready : ReadyAt before index) (stored : Stored before)
    (evolves : Evolves before after) (running : (before.connections index).state ≠ .closed)
    (same : (after.connections index).channel = (before.connections index).channel) :
    ReadyAt after index := by
  intro _ address attached entry managed here
  rw [same] at attached
  obtain ⟨known, inside, place⟩ := mem_map.mp (stored.attached index address attached)
  have bound := stored.bounded known inside
  rcases evolves.channels entry managed with ⟨former, earlier, again⟩ | new
  · have opened := ready running address attached former earlier (again.trans here)
    rcases evolves.entries entry (mem_append_left _ managed) with
      ⟨other, start, too, kept⟩ | new
    · have unique := stored.same start (mem_append_left _ earlier) (too.trans again.symm)
      rw [unique] at kept
      exact (kept opened).1
    · omega
  · omega

structure Invariant (trace : List (ChannelStep Context)) (server : Server Context) : Prop where
  stored : Stored server
  numbered : Numbered server
  consistent : Consistent trace server
  ready : ∀ index, ReadyAt server index

theorem initialServer_invariant : Invariant [] (initialServer Context) := by
  refine ⟨⟨nodup_nil, ?_, ?_, ?_⟩, ⟨?_, ?_, ?_⟩, ⟨?_, ?_, ?_⟩, fun index => .of_closed rfl⟩
  · intro entry member
    cases member
  · intro index address attached
    cases attached
  · intro entry member
    cases member
  · intro entry member
    cases member
  · intro entry member
    cases member
  · intro entry member
    cases member
  · intro step member
    cases member
  · intro step member
    cases member
  · intro step member
    cases member

theorem Invariant.calm (invariant : Invariant trace before) (calm : Calm before after)
    (stored : Stored after) (ready : ∀ index, ReadyAt after index) : Invariant trace after :=
  ⟨stored, invariant.numbered.calm calm, invariant.consistent.evolves calm.evolves, ready⟩

theorem Invariant.delayed (invariant : Invariant trace server) :
    Invariant trace (cleanupDelayedCallbacks server) := by
  have calm := cleanupDelayedCallbacks_calm invariant.stored.named
  refine invariant.calm calm invariant.stored.delayed ?_
  intro index
  rcases cleanupDelayedCallbacks_connection server index with none | ⟨same, kept⟩
  · exact .of_none none
  · by_cases closed : (server.connections index).state = .closed
    · exact .of_closed (by rw [same, closed])
    · exact (invariant.ready index).evolves invariant.stored calm.evolves closed (by rw [same])

theorem Invariant.unattached (invariant : Invariant trace before) (calm : Calm before after)
    (stored : Stored after) (connections : after.connections = before.connections) :
    Invariant trace after := by
  refine invariant.calm calm stored ?_
  intro index
  by_cases closed : (before.connections index).state = .closed
  · exact .of_closed (by rw [connections, closed])
  · exact (invariant.ready index).evolves invariant.stored calm.evolves closed (by rw [connections])

theorem Invariant.setConnection (invariant : Invariant trace server) (index : Nat)
    (channel : connection.channel = none ∨ connection.channel = (server.connections index).channel)
    (ended : connection.state = .closed ∨ connection.channel = none) :
    Invariant trace (server.setConnection index connection) := by
  have calm := setConnection_calm invariant.stored.named index connection
  refine invariant.calm calm (invariant.stored.setConnection index channel) ?_
  intro other
  by_cases here : other = index
  · subst here
    rcases ended with closed | none
    · exact .of_closed (by simp only [Server.setConnection, Function.update_self, closed])
    · exact .of_none (by simp only [Server.setConnection, Function.update_self, none])
  · have same : (server.setConnection index connection).connections other =
        server.connections other := by
      simp only [Server.setConnection, Function.update_of_ne here]
    by_cases closed : (server.connections other).state = .closed
    · exact .of_closed (by rw [same, closed])
    · exact (invariant.ready other).evolves invariant.stored calm.evolves closed (by rw [same])

end OpcUa
