import OpcUa.Reassembly
import OpcUa.SequenceNumbers
import OpcUa.ServerCore

/-!
What the steps of the server can do to its channels and connections.
-/

namespace OpcUa

open LittleEndian StatusCode List

variable {Context : Type}
variable {address : Nat} {server : Server Context} {channel : SecureChannel Context}
  {entry : ChannelEntry Context}

def Server.entries (server : Server Context) : List (ChannelEntry Context) :=
  server.channels ++ server.removed

def Server.addresses (server : Server Context) : List Nat :=
  server.entries.map ChannelEntry.address

def Alters (address : Nat) (former entry : ChannelEntry Context) : Prop :=
  entry.address = former.address ∧ entry.securityPolicy = former.securityPolicy ∧
    (former.address ≠ address → entry = former)

theorem Alters.refl (address : Nat) (entry : ChannelEntry Context) :
    Alters address entry entry := ⟨rfl, rfl, fun _ => rfl⟩

theorem Alters.trans {first second third : ChannelEntry Context}
    (here : Alters address first second) (there : Alters address second third) :
    Alters address first third := by
  refine ⟨there.1.trans here.1, there.2.1.trans here.2.1, fun other => ?_⟩
  have same := here.2.2 other
  rw [there.2.2 (by rw [same]; exact other), same]

/-- The server after something has been done to the channel at the address. Channels are only
moved out of the manager. -/
structure Touches (address : Nat) (before after : Server Context) : Prop where
  connections : after.connections = before.connections
  nextAddress : after.nextAddress = before.nextAddress
  channels : ∀ entry ∈ after.channels, ∃ former ∈ before.channels, Alters address former entry
  entries : ∀ entry ∈ after.entries, ∃ former ∈ before.entries, Alters address former entry
  addresses : before.addresses.Nodup → after.addresses.Perm before.addresses

theorem Touches.refl (address : Nat) (server : Server Context) : Touches address server server :=
  ⟨rfl, rfl, fun entry member => ⟨entry, member, .refl address entry⟩,
    fun entry member => ⟨entry, member, .refl address entry⟩,
    fun _ => .rfl⟩

theorem Touches.trans {first second third : Server Context} (here : Touches address first second)
    (there : Touches address second third) : Touches address first third := by
  refine ⟨there.connections.trans here.connections, there.nextAddress.trans here.nextAddress,
    ?_, ?_, ?_⟩
  · intro entry member
    obtain ⟨middle, inside, later⟩ := there.channels entry member
    obtain ⟨former, start, earlier⟩ := here.channels middle inside
    exact ⟨former, start, earlier.trans later⟩
  · intro entry member
    obtain ⟨middle, inside, later⟩ := there.entries entry member
    obtain ⟨former, start, earlier⟩ := here.entries middle inside
    exact ⟨former, start, earlier.trans later⟩
  · intro distinct
    have first := here.addresses distinct
    exact (there.addresses (first.nodup_iff.mpr distinct)).trans first

theorem Touches.counters (address : Nat) (server : Server Context)
    (lastChannelId lastTokenId : BitVec 32) :
    Touches address server { server with lastChannelId, lastTokenId } :=
  ⟨rfl, rfl, (Touches.refl address server).channels, (Touches.refl address server).entries,
    (Touches.refl address server).addresses⟩

theorem store_touches (server : Server Context) (address : Nat) (channel : SecureChannel Context) :
    Touches address server (server.store address channel) := by
  have writes (list : List (ChannelEntry Context)) (entry : ChannelEntry Context)
      (member : entry ∈ list.map fun entry =>
        if entry.address = address then { entry with channel } else entry) :
      ∃ former ∈ list, Alters address former entry := by
    obtain ⟨former, inside, result⟩ := mem_map.mp member
    refine ⟨former, inside, ?_⟩
    by_cases here : former.address = address
    · rw [if_pos here] at result
      subst result
      exact ⟨rfl, rfl, fun other => absurd here other⟩
    · rw [if_neg here] at result
      subst result
      exact .refl address former
  refine ⟨rfl, rfl, writes server.channels, ?_, ?_⟩
  · intro entry member
    rcases mem_append.mp member with managed | removed
    · obtain ⟨former, inside, alters⟩ := writes server.channels entry managed
      exact ⟨former, mem_append_left _ inside, alters⟩
    · obtain ⟨former, inside, alters⟩ := writes server.removed entry removed
      exact ⟨former, mem_append_right _ inside, alters⟩
  · intro _
    have same : ChannelEntry.address ∘ (fun entry =>
        if entry.address = address then { entry with channel } else entry) =
          (ChannelEntry.address : ChannelEntry Context → Nat) := by
      funext entry
      simp only [Function.comp_apply]
      split
      · rfl
      · rfl
    have names : (server.store address channel).addresses = server.addresses := by
      simp only [Server.addresses, Server.entries, Server.store, ← map_append, map_map, same]
    rw [names]

theorem store_channel (member : entry ∈ (server.store address channel).entries)
    (here : entry.address = address) : entry.channel = channel := by
  have written : ∃ former, (if former.address = address then { former with channel } else former) =
      entry := by
    rcases mem_append.mp member with managed | removed
    · obtain ⟨former, -, result⟩ := mem_map.mp managed
      exact ⟨former, result⟩
    · obtain ⟨former, -, result⟩ := mem_map.mp removed
      exact ⟨former, result⟩
  obtain ⟨former, result⟩ := written
  by_cases same : former.address = address
  · rw [if_pos same] at result
    rw [← result]
  · rw [if_neg same] at result
    subst result
    exact absurd here same

theorem removeSecureChannel_mem {other : ChannelEntry Context} (managed : entry ∈ server.channels)
    (member : other ∈ (removeSecureChannel server entry).entries) : other ∈ server.entries := by
  rcases mem_append.mp member with kept | removed
  · exact mem_append_left _ (mem_of_mem_filter kept)
  · rcases mem_cons.mp removed with same | before
    · subst same
      exact mem_append_left _ managed
    · exact mem_append_right _ before

theorem removeSecureChannel_touches (address : Nat) (server : Server Context)
    (managed : entry ∈ server.channels) :
    Touches address server (removeSecureChannel server entry) := by
  refine ⟨rfl, rfl, ?_, ?_, ?_⟩
  · intro other member
    exact ⟨other, mem_of_mem_filter member, .refl address other⟩
  · intro other member
    exact ⟨other, removeSecureChannel_mem managed member, .refl address other⟩
  · intro distinct
    rw [Server.addresses, Server.entries, map_append] at distinct
    have named : entry.address ∈ server.channels.map ChannelEntry.address :=
      mem_map_of_mem managed
    have rest : (server.channels.filter fun other => other.address != entry.address).map
        ChannelEntry.address = (server.channels.map ChannelEntry.address).erase entry.address := by
      rw [(nodup_append.mp distinct).1.erase_eq_filter, filter_map]
      rfl
    simp only [Server.addresses, Server.entries, removeSecureChannel, map_append, map_cons, rest]
    refine perm_middle.trans ?_
    exact (perm_cons_erase named).symm.append_right _

theorem closeSecureChannel_touches (address : Nat) (server : Server Context)
    (channelId : BitVec 32) : Touches address server (closeSecureChannel server channelId) := by
  rw [closeSecureChannel]
  split
  · exact .refl address server
  · rename_i entry found
    exact removeSecureChannel_touches address server (mem_of_find?_eq_some found)

section Messages

variable (config : ServerConfig Context) (surroundings : Surroundings Context)
  (policy : SecurityPolicy Context) (address : Nat) (server : Server Context)
  (channel : SecureChannel Context)

theorem serviceOpenSecureChannel_touches (request : OpenSecureChannelRequest) :
    Touches address server
      (serviceOpenSecureChannel config surroundings policy server channel request).2.1 := by
  rw [serviceOpenSecureChannel]
  split
  · simp only [renewSecureChannel]
    split
    · exact .refl address server
    · by_cases issues : channel.nextSecurityToken.tokenId = 0
      · split
        · exact .counters address server _ _
        · exact .counters address server _ _
      · split
        · exact .refl address server
        · exact .refl address server
  · split
    · exact .refl address server
    · simp only [openSecureChannel]
      split
      · exact .refl address server
      · split
        · exact .refl address server
        · split
          · exact .counters address server _ _
          · exact .counters address server _ _

theorem processOPN_touches (message : List Byte) : Touches address server
      (processOPN config surroundings policy address server channel message).2.1 := by
  rw [processOPN]
  split
  · exact closeSecureChannel_touches address server _
  · rename_i typeId request decoded
    split
    · exact closeSecureChannel_touches address server _
    · have served := serviceOpenSecureChannel_touches config surroundings policy address server
        channel request
      have closed := (served.trans (store_touches _ address
        (serviceOpenSecureChannel config surroundings policy server channel request).2.2)).trans
        (closeSecureChannel_touches address _ (serviceOpenSecureChannel config surroundings policy
          server channel request).2.2.securityToken.channelId)
      dsimp only
      split
      · exact closed
      · split
        · exact closed
        · exact served

theorem dispatchMessage_touches (delivery : Delivery) : Touches address server
      (dispatchMessage config surroundings policy address server channel delivery).2.1 := by
  have stored := store_touches server address channel
  simp only [dispatchMessage]
  split
  · exact stored.trans (processOPN_touches config surroundings policy address _ channel _)
  · exact stored
  · exact stored.trans (closeSecureChannel_touches address _ _)
  · exact stored

end Messages

def WellNamed (channel : SecureChannel Context) : Prop :=
  channel.nextSecurityToken.tokenId ≠ 0 → channel.state = .opened ∧
    channel.nextSecurityToken.channelId = channel.securityToken.channelId

structure Steady (channel after : SecureChannel Context) : Prop where
  state : after.state = channel.state
  securityMode : after.securityMode = channel.securityMode
  channelId : after.securityToken.channelId = channel.securityToken.channelId
  named : WellNamed after

theorem Steady.refl (named : WellNamed channel) :
    Steady channel channel := ⟨rfl, rfl, rfl, named⟩

theorem revolveTokens_steady (policy : SecurityPolicy Context) (named : WellNamed channel) :
    Steady channel (revolveTokens policy channel).2 := by
  by_cases none : channel.nextSecurityToken.tokenId = 0
  · rw [revolveTokens, if_pos none]
    exact .refl named
  · obtain ⟨context, revolved⟩ := revolveTokens_channel policy channel none
    rw [revolved]
    exact ⟨rfl, rfl, (named none).2, fun issued => absurd rfl issued⟩

theorem checkSymHeader_steady (policy : SecurityPolicy Context) (named : WellNamed channel)
    (tokenId : BitVec 32) : Steady channel (checkSymHeader policy channel tokenId).2 := by
  rw [checkSymHeader]
  split
  · split
    · exact .refl named
    · exact revolveTokens_steady policy named
  · exact .refl named

theorem Checks.steady {policy : SecurityPolicy Context} {after : SecureChannel Context}
    {chunk : List Byte} {outcome : Except StatusCode AcceptedChunk}
    (checks : Checks policy channel chunk outcome after) (named : WellNamed channel) :
    Steady channel after := by
  cases checks with
  | refused _ _ _ => exact .refl named
  | revolved _ _ _ => exact revolveTokens_steady policy named
  | error _ _ => exact .refl named
  | opened _ _ _ _ _ => exact ⟨rfl, rfl, rfl, named⟩
  | symmetric _ _ selected _ _ token _ _ =>
    have steady := checkSymHeader_steady policy named selected.securityToken.tokenId
    rw [token] at steady
    exact ⟨steady.state, steady.securityMode, steady.channelId, steady.named⟩

structure Continues (issues : MessageSecurityMode → Prop) (server after : Server Context)
    (channel result : SecureChannel Context) : Prop where
  opened : channel.state = .opened →
    result.state = .opened ∧ result.securityMode = channel.securityMode
  opening : result.state = .opened → channel.state ≠ .opened → issues result.securityMode ∧
    result.securityToken.channelId = server.lastChannelId
  ids : (result.securityToken.channelId = channel.securityToken.channelId ∧
      after.lastChannelId = server.lastChannelId) ∨
    (channel.state = .fresh ∧ result.securityToken.channelId = server.lastChannelId ∧
      after.lastChannelId = server.lastChannelId + 1)
  named : WellNamed result

variable {after : Server Context}

variable {result : SecureChannel Context}

theorem Steady.continues (steady : Steady channel result) (issues : MessageSecurityMode → Prop)
    (same : after.lastChannelId = server.lastChannelId) :
    Continues issues server after channel result := by
  refine ⟨fun opened => ⟨steady.state.trans opened, steady.securityMode⟩, ?_,
    .inl ⟨steady.channelId, same⟩, steady.named⟩
  intro opened closed
  exact absurd (steady.state.symm.trans opened) closed

theorem Continues.after_steady {issues : MessageSecurityMode → Prop}
    {middle : SecureChannel Context} (steady : Steady channel middle)
    (continues : Continues issues server after middle result) :
    Continues issues server after channel result := by
  refine ⟨?_, ?_, ?_, continues.named⟩
  · intro opened
    obtain ⟨state, mode⟩ := continues.opened (steady.state.trans opened)
    exact ⟨state, mode.trans steady.securityMode⟩
  · intro opened closed
    exact continues.opening opened (by rw [steady.state]; exact closed)
  · rcases continues.ids with ⟨same, counter⟩ | ⟨fresh, next, counter⟩
    · exact .inl ⟨same.trans steady.channelId, counter⟩
    · exact .inr ⟨steady.state.symm.trans fresh, next, counter⟩

@[simp] theorem closeSecureChannel_lastChannelId (server : Server Context) (channelId : BitVec 32) :
    (closeSecureChannel server channelId).lastChannelId = server.lastChannelId := by
  rw [closeSecureChannel]
  split
  · rfl
  · rfl

@[simp] theorem store_lastChannelId (server : Server Context) (address : Nat)
    (channel : SecureChannel Context) :
    (server.store address channel).lastChannelId = server.lastChannelId := rfl

section Messages

variable (config : ServerConfig Context) (surroundings : Surroundings Context)
  (policy : SecurityPolicy Context) (address : Nat) (server : Server Context)
variable {issues : MessageSecurityMode → Prop} {after : Server Context}
  {result : SecureChannel Context}

def ModePasses (mode : MessageSecurityMode) : Prop :=
  ¬(mode ≠ .none ∧ policy.policyUri.bytes = securityPolicyNoneUri.bytes)

theorem openSecureChannel_continues (request : OpenSecureChannelRequest)
    (named : WellNamed channel) :
    Continues (fun mode => request.securityMode = mode ∧ ModePasses policy mode) server
      (openSecureChannel config surroundings policy server channel request).2.1 channel
      (openSecureChannel config surroundings policy server channel request).2.2 := by
  have unchanged := (Steady.refl named).continues
    (fun mode => request.securityMode = mode ∧ ModePasses policy mode)
    (rfl : server.lastChannelId = server.lastChannelId)
  simp only [openSecureChannel]
  split
  · exact unchanged
  · rename_i fresh
    rw [not_not] at fresh
    have first : channel.nextSecurityToken.tokenId = 0 := by
      by_contra issued
      have opened := (named issued).1
      rw [fresh] at opened
      exact absurd opened (by decide)
    split
    · exact unchanged
    · rename_i passes
      obtain ⟨context, keys⟩ := generateNewKeys_channel policy { channel with
        securityMode := request.securityMode
        securityToken := { channel.securityToken with
          channelId := server.lastChannelId, createdAt := surroundings.now,
          revisedLifetime := revisedLifetime config request.requestedLifetime }
        remoteNonce := request.clientNonce
        localNonce := surroundings.nonce.2 }
      have notOpened (opened : channel.state = .opened) : False := by
        rw [fresh] at opened
        exact absurd opened (by decide)
      split
      · simp only [keys]
        exact ⟨fun opened => (notOpened opened).elim, fun opened => (notOpened opened).elim,
          .inr ⟨fresh, rfl, rfl⟩, fun issued => absurd first issued⟩
      · simp only [keys]
        exact ⟨fun opened => (notOpened opened).elim, fun _ _ => ⟨⟨rfl, passes⟩, rfl⟩,
          .inr ⟨fresh, rfl, rfl⟩, fun issued => absurd first issued⟩

theorem renewSecureChannel_continues (issues : MessageSecurityMode → Prop)
    (request : OpenSecureChannelRequest) (named : WellNamed channel) :
    Continues issues server (renewSecureChannel config surroundings server channel request).2.1
      channel (renewSecureChannel config surroundings server channel request).2.2 := by
  simp only [renewSecureChannel]
  split
  · exact (Steady.refl named).continues issues rfl
  · rename_i opened
    rw [not_not] at opened
    by_cases first : channel.nextSecurityToken.tokenId = 0
    · split
      · refine Steady.continues ?_ issues rfl
        exact ⟨rfl, rfl, rfl, fun _ => ⟨opened, rfl⟩⟩
      · refine Steady.continues ?_ issues rfl
        exact ⟨rfl, rfl, rfl, fun _ => ⟨opened, rfl⟩⟩
    · split
      · refine Steady.continues ?_ issues rfl
        exact ⟨rfl, rfl, rfl, fun _ => ⟨opened, (named first).2⟩⟩
      · refine Steady.continues ?_ issues rfl
        exact ⟨rfl, rfl, rfl, fun _ => ⟨opened, (named first).2⟩⟩

def IssueRequest (delivery : Delivery) (mode : MessageSecurityMode) : Prop :=
  delivery.messageType = .opn ∧ ∃ request, decodeOpenRequest config delivery.message =
    .ok (446, request) ∧ request.requestType = 0 ∧ request.securityMode = mode ∧
      ModePasses policy mode

theorem Continues.imp {more : MessageSecurityMode → Prop} {server : Server Context}
    (continues : Continues issues server after channel result)
    (weaker : ∀ mode, issues mode → more mode) : Continues more server after channel result :=
  ⟨continues.opened, fun opened closed => (continues.opening opened closed).imp_left (weaker _),
    continues.ids, continues.named⟩

theorem serviceOpenSecureChannel_continues (request : OpenSecureChannelRequest)
    (named : WellNamed channel) :
    Continues (fun mode => request.requestType = 0 ∧ request.securityMode = mode ∧
        ModePasses policy mode) server
      (serviceOpenSecureChannel config surroundings policy server channel request).2.1 channel
      (serviceOpenSecureChannel config surroundings policy server channel request).2.2 := by
  rw [serviceOpenSecureChannel]
  split
  · exact renewSecureChannel_continues config surroundings server _ request named
  · split
    · exact (Steady.refl named).continues _ rfl
    · rename_i issue
      rw [not_not] at issue
      exact (openSecureChannel_continues config surroundings policy server request named).imp
        fun mode asked => ⟨issue, asked⟩

theorem Continues.of_eq {server start final : Server Context} {last : SecureChannel Context}
    (continues : Continues issues server after channel result)
    (before : start.lastChannelId = server.lastChannelId)
    (later : final.lastChannelId = after.lastChannelId)
    (steady : WellNamed result → Steady result last)
    : Continues issues start final channel last := by
  have kept := steady continues.named
  refine ⟨?_, ?_, ?_, kept.named⟩
  · intro opened
    obtain ⟨state, mode⟩ := continues.opened opened
    exact ⟨kept.state.trans state, kept.securityMode.trans mode⟩
  · intro opened closed
    rw [kept.securityMode, kept.channelId, before]
    exact continues.opening (kept.state.symm.trans opened) closed
  · rw [kept.channelId, before, later]
    exact continues.ids

theorem processOPN_continues (requestId : BitVec 32) (message : List Byte)
    (named : WellNamed channel) :
    Continues (IssueRequest config policy ⟨.opn, requestId, message⟩) server
      (processOPN config surroundings policy address server channel message).2.1 channel
      (processOPN config surroundings policy address server channel message).2.2 := by
  rw [processOPN]
  split
  · exact (Steady.refl named).continues _ (closeSecureChannel_lastChannelId _ _)
  · rename_i typeId request decoded
    split
    · exact (Steady.refl named).continues _ (closeSecureChannel_lastChannelId _ _)
    · rename_i known
      rw [not_not] at known
      rw [known] at decoded
      have served := (serviceOpenSecureChannel_continues config surroundings policy server request
        named).imp fun mode asked =>
          show IssueRequest config policy ⟨.opn, requestId, message⟩ mode from ⟨rfl, request, decoded, asked⟩
      have answered {after : SecureChannel Context} (named : WellNamed after) :
          Steady after { after with sendSequenceNumber := after.sendSequenceNumber + 1 } :=
        ⟨rfl, rfl, rfl, named⟩
      dsimp only
      split
      · exact served.of_eq rfl (closeSecureChannel_lastChannelId _ _) Steady.refl
      · split
        · exact served.of_eq rfl (closeSecureChannel_lastChannelId _ _) answered
        · exact served.of_eq rfl rfl answered

theorem dispatchMessage_continues (delivery : Delivery) (named : WellNamed channel) :
    Continues (IssueRequest config policy delivery) server
      (dispatchMessage config surroundings policy address server channel delivery).2.1 channel
      (dispatchMessage config surroundings policy address server channel delivery).2.2 := by
  obtain ⟨messageType, requestId, message⟩ := delivery
  cases messageType with
  | opn =>
    exact (processOPN_continues config surroundings policy address
      (server.store address channel) requestId message named).of_eq rfl rfl Steady.refl
  | msg =>
    refine Steady.continues ?_ _ rfl
    exact ⟨rfl, rfl, rfl, named⟩
  | clo => exact (Steady.refl named).continues _ (closeSecureChannel_lastChannelId _ _)
  | err => exact (Steady.refl named).continues _ rfl

end Messages

section Chunks

variable (config : ServerConfig Context) (surroundings : Surroundings Context)
  (policy : SecurityPolicy Context) (address : Nat) (server : Server Context)
variable {delivery : Delivery} {chunk message : List Byte}

section

variable (channel : SecureChannel Context)

def ChunkIssues (chunk : List Byte) (mode : MessageSecurityMode) : Prop :=
  ∃ accepted, (checkChunk policy channel chunk).1 = .ok accepted ∧
    IssueRequest config policy ⟨accepted.messageType, accepted.requestId,
      collectedBytes channel.chunks accepted.requestId ++ accepted.payload⟩ mode

theorem processPayload_touches (accepted : AcceptedChunk) :
    Touches address server (processPayload (processSecureChannelMessage config surroundings policy
      address) server channel accepted).application := by
  rw [processPayload]
  split
  · exact dispatchMessage_touches config surroundings policy address server _ _
  · split
    · exact dispatchMessage_touches config surroundings policy address server _ _
    · exact .refl address server
    · exact .refl address server
    · exact .refl address server

theorem processChunk_touches (chunk : List Byte) :
    Touches address server (processChunk policy (processSecureChannelMessage config surroundings
      policy address) server channel chunk).application := by
  obtain ⟨status, after, checks, result⟩ | ⟨accepted, after, checks, result⟩ :=
    processChunk_cases policy (processSecureChannelMessage config surroundings policy address)
      server channel chunk
  · rw [result]
    exact .refl address server
  · rw [result]
    exact processPayload_touches config surroundings policy address server after accepted

end

theorem processPayload_continues (accepted : AcceptedChunk) (named : WellNamed channel) :
    Continues (IssueRequest config policy ⟨accepted.messageType, accepted.requestId,
        collectedBytes channel.chunks accepted.requestId ++ accepted.payload⟩) server
      (processPayload (processSecureChannelMessage config surroundings policy address) server
        channel accepted).application channel
      (processPayload (processSecureChannelMessage config surroundings policy address) server
        channel accepted).channel := by
  rw [processPayload]
  split
  · rename_i error
    refine (dispatchMessage_continues config surroundings policy address server
      ⟨accepted.messageType, accepted.requestId, accepted.payload⟩ named).imp ?_
    intro mode issued
    exact absurd (error.symm.trans issued.1) (by decide)
  · split
    · have removed : Steady channel
          { channel with chunks := removeChunks channel.chunks accepted.requestId } :=
        ⟨rfl, rfl, rfl, named⟩
      exact (dispatchMessage_continues config surroundings policy address server _
        removed.named).after_steady removed
    · refine Steady.continues ?_ _ rfl
      exact ⟨rfl, rfl, rfl, named⟩
    · refine Steady.continues ?_ _ rfl
      exact ⟨rfl, rfl, rfl, named⟩
    · exact (Steady.refl named).continues _ rfl

theorem processChunk_continues (chunk : List Byte) (named : WellNamed channel) :
    Continues (ChunkIssues config policy channel chunk) server
      (processChunk policy (processSecureChannelMessage config surroundings policy address) server
        channel chunk).application channel
      (processChunk policy (processSecureChannelMessage config surroundings policy address) server
        channel chunk).channel := by
  have checks := checkChunk_checks policy channel chunk
  have chunks := checks.chunks
  rw [processChunk]
  generalize outcome : checkChunk policy channel chunk = pair at checks chunks
  obtain ⟨result, after⟩ := pair
  have steady := checks.steady named
  cases result with
  | error status => exact steady.continues _ rfl
  | ok accepted =>
    refine Continues.after_steady steady ((processPayload_continues config surroundings policy
      address server accepted steady.named).imp ?_)
    intro mode issued
    refine ⟨accepted, by rw [outcome], ?_⟩
    rwa [← show after.chunks = channel.chunks from chunks]

theorem processPayload_delivers {Application : Type}
    {callback : ProcessMessageCallback Context Application} {application : Application}
    {accepted : AcceptedChunk}
    (delivered : delivery ∈ (processPayload callback application channel accepted).deliveries) :
    delivery.messageType = accepted.messageType ∧ ∃ chunks,
      (processPayload callback application channel accepted).application =
        (callback.run application { channel with chunks } delivery).2.1 := by
  rw [processPayload] at delivered ⊢
  split at delivered
  · rename_i error
    rw [if_pos error]
    obtain rfl := mem_singleton.mp delivered
    exact ⟨rfl, channel.chunks, rfl⟩
  · rename_i other
    rw [if_neg other]
    split at delivered
    · obtain rfl := mem_singleton.mp delivered
      exact ⟨rfl, _, rfl⟩
    · simp at delivered
    · simp at delivered
    · simp at delivered

def Foremost (server : Server Context) (address : Nat) (channelId : BitVec 32) : Prop :=
  ∃ entry, server.channels.find? (fun entry => entry.address == address ||
    entry.channel.securityToken.channelId == channelId) = some entry ∧ entry.address = address

variable {config surroundings policy address server}

theorem Foremost.closes {channelId : BitVec 32} (foremost : Foremost server address channelId)
    (channel : SecureChannel Context) (same : channel.securityToken.channelId = channelId) :
    ∀ entry ∈ (closeSecureChannel (server.store address channel)
      channel.securityToken.channelId).channels, entry.address ≠ address := by
  subst same
  obtain ⟨entry, found, here⟩ := foremost
  have stored : (server.store address channel).channels.find?
      (fun entry => entry.channel.securityToken.channelId == channel.securityToken.channelId) =
        some { entry with channel } := by
    rw [Server.store, find?_map]
    have same : ((fun entry : ChannelEntry Context => entry.channel.securityToken.channelId ==
        channel.securityToken.channelId) ∘ fun entry =>
          if entry.address = address then { entry with channel } else entry) =
            fun entry => entry.address == address ||
              entry.channel.securityToken.channelId == channel.securityToken.channelId := by
      funext other
      by_cases same : other.address = address
      · simp [same]
      · simp [same]
    rw [same, found, Option.map_some, if_pos here]
  rw [closeSecureChannel, stored]
  intro other member
  have different := (mem_filter.mp member).2
  simp only [bne_iff_ne, ne_eq] at different
  rwa [here] at different

theorem processChunk_closes (named : WellNamed channel)
    (foremost : Foremost server address channel.securityToken.channelId)
    (closing : delivery.messageType = .clo)
    (delivered : delivery ∈ (processChunk policy (processSecureChannelMessage config surroundings
      policy address) server channel chunk).deliveries) :
    ∀ entry ∈ (processChunk policy (processSecureChannelMessage config surroundings policy address)
      server channel chunk).application.channels, entry.address ≠ address := by
  obtain ⟨status, after, checks, result⟩ | ⟨accepted, after, checks, result⟩ :=
    processChunk_cases policy (processSecureChannelMessage config surroundings policy address)
      server channel chunk
  · rw [result] at delivered
    simp at delivered
  · rw [result] at delivered ⊢
    obtain ⟨-, chunks, application⟩ := processPayload_delivers delivered
    rw [application]
    obtain ⟨messageType, requestId, message⟩ := delivery
    obtain rfl : messageType = .clo := closing
    exact foremost.closes { after with chunks } (checks.steady named).channelId

theorem serviceOpenSecureChannel_good {request : OpenSecureChannelRequest}
    (served : (serviceOpenSecureChannel config surroundings policy server channel request).1 =
      good) :
    (serviceOpenSecureChannel config surroundings policy server channel request).2.2.state =
      .opened := by
  rw [serviceOpenSecureChannel] at served ⊢
  split at served
  · rename_i renew
    rw [if_pos renew]
    simp only [renewSecureChannel] at served ⊢
    split at served
    · exact absurd (show badInternalError = good from served) (by decide)
    · rename_i opened
      rw [not_not] at opened
      rw [if_neg (not_not.mpr opened)]
      split
      · exact opened
      · exact opened
  · rename_i renew
    rw [if_neg renew]
    split at served
    · exact absurd (show badInternalError = good from served) (by decide)
    · rename_i issue
      rw [if_neg issue]
      simp only [openSecureChannel] at served ⊢
      split at served
      · exact absurd (show badInternalError = good from served) (by decide)
      · rename_i fresh
        rw [if_neg fresh]
        split at served
        · exact absurd (show badSecurityModeRejected = good from served) (by decide)
        · rename_i allowed
          rw [if_neg allowed]
          split at served
          · rename_i fails
            exact absurd served fails
          · rename_i keys
            rw [if_neg keys]

theorem decodeOpenRequest_error {status : StatusCode}
    (fails : decodeOpenRequest config message = .error status) : status ≠ good := by
  simp only [decodeOpenRequest] at fails
  generalize (if (nodeIdDecodeBinary (chunkInput message) 0).status = good then
    (nodeIdDecodeBinary (chunkInput message) 0).pos else 0) = offset at fails
  split at fails
  · rename_i bad
    cases fails
    exact bad
  · split at fails
    · cases fails
    · cases fails
      decide

theorem processOPN_good
    (processed : (processOPN config surroundings policy address server channel message).1 = good) :
    (processOPN config surroundings policy address server channel message).2.2.state = .opened ∨
      (processOPN config surroundings policy address server channel message).2.1 =
        closeSecureChannel server channel.securityToken.channelId := by
  rw [processOPN] at processed ⊢
  cases decoded : decodeOpenRequest config message with
  | error status =>
    rw [decoded] at processed
    exact absurd processed (decodeOpenRequest_error decoded)
  | ok pair =>
    obtain ⟨typeId, request⟩ := pair
    simp only [decoded] at processed ⊢
    split at processed
    · rename_i unknown
      rw [if_pos unknown]
      exact .inr rfl
    · rename_i known
      rw [if_neg known]
      split at processed
      · rename_i fails
        exact absurd processed fails
      · rename_i served
        rw [if_neg served]
        rw [not_not] at served
        have opened := serviceOpenSecureChannel_good served
        split
        · exact .inl opened
        · exact .inl opened

theorem processChunk_opens (foremost : Foremost server address channel.securityToken.channelId)
    (sort : ∀ messageType, headerMessageType chunk = some messageType → messageType = .opn)
    (processed : (processChunk policy (processSecureChannelMessage config surroundings policy
      address) server channel chunk).status = good) :
    (processChunk policy (processSecureChannelMessage config surroundings policy address) server
        channel chunk).channel.state = .opened ∨
      ∀ entry ∈ (processChunk policy (processSecureChannelMessage config surroundings policy
        address) server channel chunk).application.channels, entry.address ≠ address := by
  obtain ⟨status, after, checks, result⟩ | ⟨accepted, after, checks, result⟩ :=
    processChunk_cases policy (processSecureChannelMessage config surroundings policy address)
      server channel chunk
  · rw [result] at processed
    cases checks with
    | refused _ bad _ => exact absurd processed bad
    | revolved _ bad _ => exact absurd processed bad
  · rw [result] at processed ⊢
    cases checks with
    | error wrong _ => exact absurd (sort _ wrong) (by decide)
    | symmetric _ _ _ _ carries _ _ _ =>
      rcases carries.2.2.1 with wrong | wrong
      · exact absurd (sort _ wrong) (by decide)
      · exact absurd (sort _ wrong) (by decide)
    | opened offset plain _ _ _ =>
      refine (processOPN_good processed).imp_right fun closed entry member => ?_
      change entry ∈ (processOPN _ _ _ _ _ _ _).2.1.channels at member
      rw [closed] at member
      exact foremost.closes { channel with
        receiveSequenceNumber := plain.sequenceNumber
        chunks := removeChunks channel.chunks plain.requestId } rfl entry member

end Chunks

end OpcUa
