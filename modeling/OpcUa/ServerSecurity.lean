import OpcUa.ServerRuns

/-!
No service without an open, secured channel, and only configured security.
-/

namespace OpcUa

open LittleEndian StatusCode List

variable {Context : Type}
variable {channel : SecureChannel Context} {server : Server Context} {bytes : List Byte}
variable {messageType : MessageType} {index : Nat} {Application : Type} {earlier : List (List Byte)}

def readableBody (module : CryptoModule Context) (channel : SecureChannel Context)
    (chunk : List Byte) : List Byte :=
  if channel.securityMode.encrypts then (module.decrypt channel.context (chunk.drop 16)).2
  else chunk.drop 16

/-- The chunk was decrypted and its signature was checked if the mode of the channel asks
for that. -/
structure Verified (module : CryptoModule Context) (channel : SecureChannel Context)
    (chunk : List Byte) : Prop where
  decrypted : channel.securityMode.encrypts = true →
    (module.decrypt channel.context (chunk.drop 16)).1 = good
  signed : channel.securityMode.signs = true → ∃ content signature,
    content ++ signature = chunk.take 16 ++ readableBody module channel chunk ∧
      signature.length = module.remoteSignatureSize channel.context ∧
      module.verify channel.context content signature = good

theorem decryptBody_symmetric (module : CryptoModule Context) (channel : SecureChannel Context)
    (symmetric : messageType ≠ .opn) (chunk : List Byte) :
    decryptBody module channel messageType (chunk.drop 16) =
      (if channel.securityMode.encrypts then (module.decrypt channel.context (chunk.drop 16)).1
        else good, readableBody module channel chunk) := by
  have other : (messageType == .opn) = false := beq_false_of_ne symmetric
  rw [decryptBody, readableBody, other, Bool.or_false]
  split
  · rfl
  · rfl

theorem take_drop_front (front rest : List Byte) {count : Nat} (inside : count ≤ front.length) :
    (front ++ rest).take (front.length - count) = front.take (front.length - count) ∧
      ((front ++ rest).drop (front.length - count)).take count =
        front.drop (front.length - count) := by
  constructor
  · exact take_append_of_le_length (Nat.sub_le _ _)
  · rw [drop_append_of_le_length (Nat.sub_le _ _)]
    exact take_left' (by rw [length_drop]; omega)

theorem decryptChunk_verified {module : CryptoModule Context} (symmetric : messageType ≠ .opn)
    {chunk : List Byte} {plain : DecryptedChunk}
    (decrypted : decryptChunk module channel messageType chunk 16 = .ok plain) :
    Verified module channel chunk := by
  have long : 16 < chunk.length := by
    by_contra short
    obtain ⟨status, fails⟩ := decryptChunk_empty module channel messageType (not_lt.mp short)
    rw [fails] at decrypted
    cases decrypted
  have header : (chunk.take 16).length = 16 := length_take_of_le long.le
  have signs : isSigned channel messageType = channel.securityMode.signs := by
    rw [isSigned, beq_false_of_ne symmetric, Bool.or_false]
  rw [decryptChunk, decryptBody_symmetric module channel symmetric] at decrypted
  generalize status : (if channel.securityMode.encrypts then
    (module.decrypt channel.context (chunk.drop 16)).1 else good) = opening at decrypted
  dsimp only at decrypted
  split at decrypted
  · cases decrypted
  · rename_i opened
    rw [not_not] at opened
    subst opened
    split at decrypted
    · cases decrypted
    · rename_i verified
      rw [not_not] at verified
      refine ⟨fun encrypts => by rwa [if_pos encrypts] at status, fun signed => ?_⟩
      simp only [verifyBody, signatureSize, signs, signed, Bool.not_true, Bool.false_eq_true,
        if_false, if_true] at verified
      split at verified
      · exact absurd verified (by decide)
      · rename_i room
        have size : 16 + (readableBody module channel chunk).length =
            (chunk.take 16 ++ readableBody module channel chunk).length := by
          rw [length_append, header]
        rw [size] at verified room
        have inside : module.remoteSignatureSize channel.context ≤
            (chunk.take 16 ++ readableBody module channel chunk).length := by omega
        obtain ⟨content, signature⟩ := take_drop_front _ (chunk.drop
          (chunk.take 16 ++ readableBody module channel chunk).length) inside
        rw [content, signature] at verified
        refine ⟨_, _, take_append_drop _ _, ?_, verified⟩
        rw [length_drop]
        omega

structure Secured (step : ChannelStep Context) : Prop where
  opened : step.channel.state = .opened
  managed : step.managed = true
  verified : ∃ current, current.securityMode = step.channel.securityMode ∧
    checkSymHeader step.securityPolicy step.channel current.securityToken.tokenId =
      (good, current) ∧
    Verified step.securityPolicy.symmetric current step.chunk

/-! A chunk in the run -/

variable {entry : ChannelEntry Context}

theorem Numbered.foremost (numbered : Numbered server) (managed : entry ∈ server.channels)
    (opened : entry.channel.state = .opened) :
    Foremost server entry.address entry.channel.securityToken.channelId := by
  have inside : entry ∈ server.entries := mem_append_left _ managed
  have some : (server.channels.find? fun other => other.address == entry.address ||
      other.channel.securityToken.channelId == entry.channel.securityToken.channelId).isSome =
        true := by
    rw [find?_isSome]
    exact ⟨entry, managed, by simp⟩
  obtain ⟨other, found⟩ := Option.isSome_iff_exists.mp some
  refine ⟨other, found, ?_⟩
  have either := find?_some found
  rw [Bool.or_eq_true, beq_iff_eq, beq_iff_eq] at either
  rcases either with address | channelId
  · exact address
  · exact (numbered.unique entry inside other (mem_append_left _ (mem_of_find?_eq_some found))
      (numbered.opened entry inside opened) channelId.symm).symm

theorem attachChannel_foremost (server : Server Context) (index : Nat)
    (entry : ChannelEntry Context) :
    Foremost (attachChannel server index entry) entry.address
      entry.channel.securityToken.channelId := by
  refine ⟨entry, ?_, rfl⟩
  change (entry :: server.channels).find? _ = some entry
  rw [find?_cons_of_pos (by simp)]

theorem settled_channels {address : Nat} {outcome : ProcessResult Context (Server Context)}
    (member : entry ∈ (settled index address outcome).channels) :
    ∃ former ∈ outcome.application.channels, former.address = entry.address := by
  have stored : entry ∈ (outcome.application.store address outcome.channel).channels := by
    rw [settled] at member
    split at member
    · exact member
    · exact member
  obtain ⟨former, inside, same, -⟩ := (store_touches outcome.application address
    outcome.channel).channels entry stored
  exact ⟨former, inside, same.symm⟩

theorem settled_connections (index address : Nat)
    (outcome : ProcessResult Context (Server Context)) (other : Nat) :
    (settled index address outcome).connections other = outcome.application.connections other ∨
      ((settled index address outcome).connections other).state = .closed ∧ other = index ∧
        outcome.status ≠ good := by
  rw [settled]
  split
  · rename_i bad
    by_cases here : other = index
    · subst here
      exact .inr ⟨by simp only [Server.setConnection, Function.update_self], rfl, bad⟩
    · exact .inl (by simp only [Server.setConnection, Function.update_of_ne here]; rfl)
  · exact .inl rfl

section Chunk

variable {config : ServerConfig Context} {surroundings : Surroundings Context}
  {entry : ChannelEntry Context} {trace : List (ChannelStep Context)}

theorem settled_consistent (stored : Stored server) (consistent : Consistent trace server)
    (member : entry ∈ server.entries)
    (foremost : Foremost server entry.address entry.channel.securityToken.channelId)
    (index : Nat) (bytes : List Byte) :
    Consistent (trace ++ [channelStep config surroundings server entry bytes])
      (settled index entry.address (entry.process config surroundings server bytes)) := by
  have processes := settled_processes config surroundings stored member index bytes
  have before := consistent.evolves (processes.evolves stored)
  refine ⟨?_, ?_, ?_⟩
  · intro step inside
    rcases mem_append.mp inside with old | new
    · exact before.known step old
    · obtain rfl := mem_singleton.mp new
      rw [processes.nextAddress]
      exact stored.bounded entry member
  · intro step inside closes
    rcases mem_append.mp inside with old | new
    · exact before.closed step old closes
    · obtain rfl := mem_singleton.mp new
      obtain ⟨delivery, delivered, closing⟩ := closes
      intro other managed here
      obtain ⟨former, earlier, same⟩ := settled_channels managed
      exact processChunk_closes (stored.named entry member) foremost closing delivered former
        earlier (same.trans here)
  · intro step inside opened
    rcases mem_append.mp inside with old | new
    · exact before.opened step old opened
    · obtain rfl := mem_singleton.mp new
      intro other earlier here
      rw [processes.written other earlier here]
      exact processes.continues.opened opened

theorem channelStep_secured (stored : Stored server) (managed : entry ∈ server.channels)
    (opened : entry.channel.state = .opened) {accepted : AcceptedChunk}
    (passed : (entry.process config surroundings server bytes).accepted = some accepted)
    (symmetric : isSymmetric accepted = true) :
    Secured (channelStep config surroundings server entry bytes) := by
  refine ⟨opened, ?_, ?_⟩
  · rw [channelStep, Server.isManaged, any_eq_true]
    exact ⟨entry, managed, beq_self_eq_true _⟩
  · have checks := processChunk_accepted passed
    generalize (checkChunk entry.securityPolicy entry.channel bytes).2 = after at checks
    cases checks with
    | error _ _ => exact absurd symmetric (by simp [isSymmetric])
    | opened _ _ _ _ _ => exact absurd symmetric (by simp [isSymmetric, acceptedChunk])
    | symmetric messageType plain current sort _ token decrypted _ =>
      have steady := checkSymHeader_steady entry.securityPolicy
        (stored.named entry (mem_append_left _ managed)) current.securityToken.tokenId
      rw [token] at steady
      refine ⟨current, steady.securityMode, token, decryptChunk_verified ?_ decrypted⟩
      intro opn
      rw [opn] at symmetric
      exact absurd symmetric (by simp [isSymmetric, acceptedChunk])

end Chunk

variable {policy : SecurityPolicy Context}

theorem startsWithOpn_notSymmetric {callback : ProcessMessageCallback Context Application}
    {application : Application} (opn : StartsWithOpn bytes) {accepted : AcceptedChunk}
    (passed : (processChunk policy callback application channel bytes).accepted = some accepted) :
    isSymmetric accepted = false := by
  have checks := processChunk_accepted passed
  generalize (checkChunk policy channel bytes).2 = after at checks
  cases checks with
  | error _ _ => rfl
  | opened _ _ _ _ _ => rfl
  | symmetric messageType _ _ sort _ _ _ _ =>
    rw [opn messageType sort]
    rfl

theorem processChunk_delivers {callback : ProcessMessageCallback Context Application}
    {application : Application} {delivery : Delivery}
    (delivered : delivery ∈ (processChunk policy callback application channel bytes).deliveries) :
    ∃ accepted, (processChunk policy callback application channel bytes).accepted = some accepted ∧
      accepted.messageType = delivery.messageType := by
  obtain ⟨status, after, checks, result⟩ | ⟨accepted, after, checks, result⟩ :=
    processChunk_cases policy callback application channel bytes
  · rw [result] at delivered
    cases delivered
  · rw [result] at delivered ⊢
    exact ⟨accepted, processPayload_accepted _ _ _ _, (processPayload_delivers delivered).1.symm⟩

/-- The channel of the connection is not waiting for the delayed callbacks, and the counter of
the channel ids has not come back to zero. -/
def Undisturbed (_ : Surroundings Context) (server : Server Context) (index : Nat)
    (_ : List Byte) : Prop :=
  server.lastChannelId ≠ 0 ∧ ∀ address, (server.connections index).channel = some address →
    ∀ entry ∈ server.removed, entry.address ≠ address

def AcceptsSymmetric (step : ChannelStep Context) : Prop :=
  ∃ accepted, step.accepted = some accepted ∧ isSymmetric accepted = true

/-- Every MSG and CLO chunk was accepted on an open, managed channel that no CLO message has
closed before, and was verified in a mode that stays the same. -/
structure ServesSecurely (trace : List (ChannelStep Context)) : Prop where
  secured : ∀ step ∈ trace, AcceptsSymmetric step → Secured step
  delivered : ∀ step ∈ trace, ∀ delivery ∈ step.deliveries, ∃ accepted,
    step.accepted = some accepted ∧ accepted.messageType = delivery.messageType
  ordered : trace.Pairwise fun earlier later => earlier.address = later.address →
    AcceptsSymmetric later → ¬Closes earlier ∧ (earlier.channel.state = .opened →
        later.channel.securityMode = earlier.channel.securityMode)

theorem ServesSecurely.nil : ServesSecurely ([] : List (ChannelStep Context)) := by
  refine ⟨?_, ?_, .nil⟩
  · intro step member
    cases member
  · intro step member
    cases member

theorem ServesSecurely.concat {trace : List (ChannelStep Context)} {step : ChannelStep Context}
    (secure : ServesSecurely trace) (secured : AcceptsSymmetric step → Secured step)
    (delivered : ∀ delivery ∈ step.deliveries, ∃ accepted,
      step.accepted = some accepted ∧ accepted.messageType = delivery.messageType)
    (ordered : AcceptsSymmetric step → ∀ earlier ∈ trace, earlier.address = step.address →
      ¬Closes earlier ∧ (earlier.channel.state = .opened →
        step.channel.securityMode = earlier.channel.securityMode)) :
    ServesSecurely (trace ++ [step]) := by
  refine ⟨?_, ?_, ?_⟩
  · intro other member
    rcases mem_append.mp member with old | new
    · exact secure.secured other old
    · obtain rfl := mem_singleton.mp new
      exact secured
  · intro other member
    rcases mem_append.mp member with old | new
    · exact secure.delivered other old
    · obtain rfl := mem_singleton.mp new
      exact delivered
  · rw [pairwise_append]
    refine ⟨secure.ordered, pairwise_singleton _ _, ?_⟩
    intro earlier member later new
    obtain rfl := mem_singleton.mp new
    exact fun same accepts => ordered accepts earlier member same

section Runs

variable {config : ServerConfig Context} {surroundings : Surroundings Context}
  {after : Server Context} {trace : List (ChannelStep Context)} {index : Nat}
  {entry : ChannelEntry Context}
variable {middle : Server Context}

theorem Invariant.existing (invariant : Invariant trace server)
    (running : (server.connections index).state ≠ .closed)
    (counted : server.lastChannelId ≠ 0)
    (attached : (server.connections index).channel = some entry.address)
    (managed : entry ∈ server.channels) :
    Invariant (trace ++ [channelStep config surroundings server entry bytes])
      (settled index entry.address (entry.process config surroundings server bytes)) := by
  have inside : entry ∈ server.entries := mem_append_left _ managed
  have opened := invariant.ready index running entry.address attached entry managed rfl
  have processes := settled_processes config surroundings invariant.stored inside index bytes
  refine ⟨processes.stored invariant.stored,
    processes.numbered invariant.stored invariant.numbered counted,
    settled_consistent invariant.stored invariant.consistent inside
      (invariant.numbered.foremost managed opened) index bytes, ?_⟩
  intro other
  have connections := (processChunk_touches config surroundings entry.securityPolicy entry.address
    server entry.channel bytes).connections
  rcases settled_connections index entry.address
    (entry.process config surroundings server bytes) other with same | ⟨closed, -, -⟩
  · rw [ChannelEntry.process, connections] at same
    by_cases closed : (server.connections other).state = .closed
    · exact .of_closed (by rw [ChannelEntry.process, same, closed])
    · exact (invariant.ready other).evolves invariant.stored (processes.evolves invariant.stored)
        closed (processes.connections other)
  · exact .of_closed closed

theorem Invariant.created (invariant : Invariant trace middle) (counted : middle.lastChannelId ≠ 0)
    (new : entry.address = middle.nextAddress) (unopened : Unopened entry.channel)
    (opn : StartsWithOpn bytes) :
    Invariant (trace ++ [channelStep config surroundings (attachChannel middle index entry) entry
        bytes])
      (settled index entry.address
        (entry.process config surroundings (attachChannel middle index entry) bytes)) := by
  have stored := attachChannel_stored invariant.stored index new unopened
  have numbered := attachChannel_numbered invariant.numbered index unopened
  have evolves := attachChannel_evolves middle index new
  have inside : entry ∈ (attachChannel middle index entry).entries := mem_cons_self
  have foremost := attachChannel_foremost middle index entry
  have processes := settled_processes config surroundings stored inside index bytes
  refine ⟨processes.stored stored, processes.numbered stored numbered counted,
    settled_consistent stored (invariant.consistent.evolves evolves) inside foremost index bytes,
    ?_⟩
  intro other
  have connections := (processChunk_touches config surroundings entry.securityPolicy entry.address
    (attachChannel middle index entry) entry.channel bytes).connections
  rcases settled_connections index entry.address
    (entry.process config surroundings (attachChannel middle index entry) bytes) other with
    same | ⟨closed, -, -⟩
  · rw [ChannelEntry.process, connections] at same
    by_cases here : other = index
    · subst here
      -- without an error the channel is open or not managed any longer
      intro running address attached found managed place
      by_cases processed : (entry.process config surroundings (attachChannel middle other entry)
          bytes).status = good
      · have attachedHere : ((attachChannel middle other entry).connections other).channel =
            some entry.address := by
          simp only [attachChannel, Server.setConnection, Function.update_self]
        rw [processes.connections, attachedHere, Option.some.injEq] at attached
        rw [← attached] at place
        rcases processChunk_opens foremost opn processed with opened | unmanaged
        · rw [processes.written found (mem_append_left _ managed) place]
          exact opened
        · obtain ⟨former, earlier, again⟩ := settled_channels managed
          exact absurd (again.trans place) (unmanaged former earlier)
      · rw [settled, if_pos processed] at running
        simp [Server.setConnection] at running
    · have kept : (attachChannel middle index entry).connections other =
          middle.connections other := by
        simp only [attachChannel, Server.setConnection, Function.update_of_ne here]
      rw [kept] at same
      by_cases closed : (middle.connections other).state = .closed
      · exact .of_closed (by rw [ChannelEntry.process, same, closed])
      · exact (invariant.ready other).evolves invariant.stored
          (evolves.trans (processes.evolves stored)) closed (by rw [ChannelEntry.process, same])
  · exact .of_closed closed

theorem Invariant.purged (invariant : Invariant trace server) (purged : Purged server middle)
    : Invariant trace middle := by
  exact invariant.unattached (purged.calm invariant.stored.named) (invariant.stored.purged purged)
    (purged.touches 0).connections

theorem Invariant.received (invariant : Invariant trace server) (secure : ServesSecurely trace)
    (running : (server.connections index).state ≠ .closed)
    (undisturbed : Undisturbed surroundings server index bytes)
    {step : Option (ChannelStep Context)}
    (received : Received config surroundings server index bytes after step) :
    Invariant (trace ++ step.toList) after ∧ ServesSecurely (trace ++ step.toList) := by
  cases received with
  | without middle connection purged _ channel ended =>
    rw [Option.toList_none, append_nil]
    have connections := (purged.touches 0).connections
    exact ⟨(invariant.purged purged).setConnection index
      (.inr (by rw [connections, channel])) ended, secure⟩
  | existing entry attached member found =>
    have managed : entry ∈ server.channels := by
      refine (mem_append.mp member).resolve_right fun removed => ?_
      exact undisturbed.2 entry.address attached entry removed rfl
    have opened := invariant.ready index running entry.address attached entry managed rfl
    refine ⟨invariant.existing running undisturbed.1 attached managed, secure.concat ?_ ?_ ?_⟩
    · rintro ⟨accepted, passed, symmetric⟩
      exact channelStep_secured invariant.stored managed opened passed symmetric
    · intro delivery delivered
      exact processChunk_delivers delivered
    · intro _ earlier before same
      refine ⟨fun closes => invariant.consistent.closed earlier before closes entry managed
        same.symm, fun formerlyOpened => ?_⟩
      exact (invariant.consistent.opened earlier before formerlyOpened entry member same.symm).2
  | created middle entry endpoint purged none new unopened _ _ opn _ =>
    have counted : middle.lastChannelId ≠ 0 := by
      rw [(purged.calm invariant.stored.named).lastChannelId]
      exact undisturbed.1
    have asymmetric : ¬AcceptsSymmetric
        (channelStep config surroundings (attachChannel middle index entry) entry bytes) := by
      rintro ⟨accepted, passed, symmetric⟩
      rw [startsWithOpn_notSymmetric opn passed] at symmetric
      cases symmetric
    refine ⟨(invariant.purged purged).created counted new unopened opn, secure.concat ?_ ?_ ?_⟩
    · exact fun accepts => absurd accepts asymmetric
    · intro delivery delivered
      exact processChunk_delivers delivered
    · exact fun accepts => absurd accepts asymmetric

theorem ServerRun.invariant (run : ServerRun config Undisturbed trace server) :
    Invariant trace server ∧ ServesSecurely trace := by
  induction run with
  | start => exact ⟨initialServer_invariant, .nil⟩
  | chunk surroundings index bytes _ running undisturbed ih =>
    exact ih.1.received ih.2 running undisturbed (receiveChunk_received ih.1.stored)
  | delayed _ ih => exact ⟨ih.1.delayed, ih.2⟩
  | timeout memory timedOut _ ih =>
    exact ⟨ih.1.unattached (cleanupTimedOut_calm memory timedOut ih.1.stored.named)
      (ih.1.stored.timeout memory timedOut) rfl, ih.2⟩
  | connect index connection _ closed ih =>
    exact ⟨ih.1.setConnection index (.inl rfl) (.inr rfl), ih.2⟩
  | sessions hasSession sendSequenceNumber _ ih =>
    exact ⟨ih.1.unattached (serveSessions_calm hasSession sendSequenceNumber ih.1.stored.named)
      (ih.1.stored.sessions hasSession sendSequenceNumber) rfl, ih.2⟩

end Runs

def plainConfig : ServerConfig Unit where
  endpoints := [⟨securityPolicyNone, .none⟩]
  maxSecureChannels := 100
  maxSecurityTokenLifetime := 600000
  types := ⟨[requestHeaderType 25, openSecureChannelRequestType 25], []⟩
  requestHeader := 25

def quietSurroundings : Surroundings Unit where
  now := 0
  nowMonotonic := 0
  nonce := (good, [])
  sendStatus := good
  serve channel _ := (good, channel.sendSequenceNumber + 1)

def helloChunk : List Byte :=
  leBytes 4 (helloCode + ChunkType.final.code).toNat ++ leBytes 4 32 ++ leBytes 4 0 ++
    leBytes 4 8192 ++ leBytes 4 8192 ++ leBytes 4 0 ++ leBytes 4 0 ++ stringWire .null

def openRequestWire (typeId : Nat) (requestType securityMode : BitVec 32) : List Byte :=
  [1, 0] ++ leBytes 2 typeId ++ [0, 0] ++ leBytes 8 0 ++ leBytes 4 0 ++ leBytes 4 0 ++
    stringWire .null ++ leBytes 4 0 ++ [0, 0, 0] ++ leBytes 4 0 ++ leBytes 4 requestType.toNat ++
    leBytes 4 securityMode.toNat ++ stringWire .null ++ leBytes 4 60000

def opnChunk (policyUri : UaString) (channelId number : BitVec 32) (body : List Byte) : List Byte :=
  let rest := leBytes 4 channelId.toNat ++ stringWire policyUri ++ stringWire .null ++
    stringWire .null ++ sequenceHeaderWire number 1 ++ body
  leBytes 4 (MessageType.opn.code + ChunkType.final.code).toNat ++ leBytes 4 (8 + rest.length) ++
    rest

def symmetricChunk (messageType : MessageType) (channelId tokenId number : BitVec 32) : List Byte :=
  symmetricHeaderWire (messageType.code + ChunkType.final.code) 25 channelId tokenId ++
    (sequenceHeaderWire number 2 ++ [0])

def connectedServer (Context : Type) : Server Context :=
  openConnectionAt (initialServer Context) 0 ⟨.opening, 65535, 65535, none⟩

def afterChunks (config : ServerConfig Unit) : List (List Byte) → Server Unit
  | [] => connectedServer Unit
  | bytes :: earlier =>
    (receiveChunk config quietSurroundings (afterChunks config earlier) 0 bytes).server

def lastStep (config : ServerConfig Unit) (bytes : List Byte) (earlier : List (List Byte)) :
    Option (ChannelStep Unit) :=
  (receiveChunk config quietSurroundings (afterChunks config earlier) 0 bytes).step

theorem ServerRun.next {config : ServerConfig Unit}
    {allowed : Surroundings Unit → Server Unit → Nat → List Byte → Prop}
    {trace : List (ChannelStep Unit)}
    (run : ServerRun config allowed trace (afterChunks config earlier)) (bytes : List Byte)
    (running : ((afterChunks config earlier).connections 0).state ≠ .closed)
    (permitted : allowed quietSurroundings (afterChunks config earlier) 0 bytes) :
    ServerRun config allowed (trace ++ (lastStep config bytes earlier).toList)
      (afterChunks config (bytes :: earlier)) :=
  run.chunk quietSurroundings 0 bytes running permitted

theorem ServerRun.connected (config : ServerConfig Unit)
    (allowed : Surroundings Unit → Server Unit → Nat → List Byte → Prop) :
    ServerRun config allowed [] (afterChunks config []) :=
  ServerRun.start.connect 0 _ rfl

theorem undisturbed_of_nothing_removed {surroundings : Surroundings Context}
    (calm : server.lastChannelId ≠ 0 ∧ server.removed.isEmpty = true) :
    Undisturbed surroundings server index bytes := by
  refine ⟨calm.1, fun address _ entry removed => ?_⟩
  rw [isEmpty_iff.mp calm.2] at removed
  cases removed

def Offered (config : ServerConfig Context) (policy : SecurityPolicy Context)
    (mode : MessageSecurityMode) : Prop :=
  ∃ endpoint ∈ config.endpoints,
    endpoint.securityPolicy.policyUri.bytes = policy.policyUri.bytes ∧ endpoint.securityMode = mode

def ModeFits (policy : SecurityPolicy Context) (mode : MessageSecurityMode) : Prop :=
  policy.policyUri.bytes ≠ securityPolicyNoneUri.bytes → mode ≠ .none ∧ mode ≠ .invalid

structure ConfiguredSecurity (config : ServerConfig Context) (server : Server Context) : Prop where
  offered : ∀ entry ∈ server.entries, entry.channel.state = .opened →
    Offered config entry.securityPolicy entry.channel.securityMode
  fits : (∀ endpoint ∈ config.endpoints, ModeFits endpoint.securityPolicy endpoint.securityMode) →
    ∀ entry ∈ server.entries, entry.channel.state = .opened →
      ModeFits entry.securityPolicy entry.channel.securityMode

def AsksForOffered (config : ServerConfig Context) (surroundings : Surroundings Context)
    (server : Server Context) (index : Nat) (bytes : List Byte) : Prop :=
  ∀ step, (receiveChunk config surroundings server index bytes).step = some step →
    step.channel.state ≠ .opened →
    ∀ mode, ChunkIssues config step.securityPolicy step.channel bytes mode →
      Offered config step.securityPolicy mode

theorem ConfiguredSecurity.of_offered {config : ServerConfig Context}
    (offered : ∀ entry ∈ server.entries, entry.channel.state = .opened →
      Offered config entry.securityPolicy entry.channel.securityMode) :
    ConfiguredSecurity config server := by
  refine ⟨offered, ?_⟩
  intro fitting entry member opened
  obtain ⟨endpoint, inside, uri, mode⟩ := offered entry member opened
  have fits := fitting endpoint inside
  rw [ModeFits, uri, mode] at fits
  exact fits

section Configured

variable {config : ServerConfig Context} {after : Server Context}
variable {entry : ChannelEntry Context}

theorem ConfiguredSecurity.calm (configured : ConfiguredSecurity config server)
    (calm : Calm server after) : ConfiguredSecurity config after := by
  refine .of_offered fun entry member opened => ?_
  obtain ⟨former, inside, -, policy, steady⟩ := calm.entries entry member
  rw [← policy, steady.securityMode]
  exact configured.offered former inside (steady.state.symm.trans opened)

theorem attachChannel_configured (configured : ConfiguredSecurity config server) (index : Nat)
    (unopened : Unopened entry.channel) :
    ConfiguredSecurity config (attachChannel server index entry) := by
  refine .of_offered fun other member opened => ?_
  rcases mem_cons.mp member with new | before
  · rw [new, unopened.state] at opened
    exact absurd opened (by decide)
  · exact configured.offered other before opened

theorem Processes.configured {result : SecureChannel Context}
    (processes : Processes config entry bytes server after result) (stored : Stored server)
    (configured : ConfiguredSecurity config server) (asks : entry.channel.state ≠ .opened → ∀ mode,
      ChunkIssues config entry.securityPolicy entry.channel bytes mode →
        Offered config entry.securityPolicy mode) : ConfiguredSecurity config after := by
  refine .of_offered fun other member opened => ?_
  rcases processes.cases stored member with ⟨-, policy, written⟩ | ⟨-, before⟩
  · rw [policy, written]
    rw [written] at opened
    by_cases already : entry.channel.state = .opened
    · rw [(processes.continues.opened already).2]
      exact configured.offered entry processes.member already
    · exact asks already _ (processes.continues.opening opened already).1
  · exact configured.offered other before opened

theorem ConfiguredSecurity.received {surroundings : Surroundings Context} {index : Nat}
    {step : Option (ChannelStep Context)}
    (configured : ConfiguredSecurity config server) (stored : Stored server)
    (received : Received config surroundings server index bytes after step)
    (asks : ∀ one, step = some one → one.channel.state ≠ .opened →
      ∀ mode, ChunkIssues config one.securityPolicy one.channel bytes mode →
        Offered config one.securityPolicy mode) :
    Stored after ∧ ConfiguredSecurity config after := by
  cases received with
  | without middle connection purged _ channel ended =>
    have stored' := stored.purged purged
    have connections := (purged.touches 0).connections
    exact ⟨stored'.setConnection index (.inr (by rw [connections, channel])),
      (configured.calm (purged.calm stored.named)).calm
        (setConnection_calm stored'.named index connection)⟩
  | existing entry attached member found =>
    have processes := settled_processes config surroundings stored member index bytes
    exact ⟨processes.stored stored, processes.configured stored configured (asks _ rfl)⟩
  | created middle entry endpoint purged none new unopened _ _ opn _ =>
    have attached := attachChannel_stored (stored.purged purged) index new unopened
    have processes := settled_processes config surroundings attached
      (show entry ∈ (attachChannel middle index entry).entries from mem_cons_self) index bytes
    have before := attachChannel_configured (configured.calm (purged.calm stored.named)) index
      unopened
    exact ⟨processes.stored attached, processes.configured attached before (asks _ rfl)⟩

theorem ServerRun.configured {trace : List (ChannelStep Context)}
    (run : ServerRun config (AsksForOffered config) trace server) :
    Stored server ∧ ConfiguredSecurity config server := by
  induction run with
  | start => exact ⟨initialServer_invariant.stored, .of_offered fun entry member => nomatch member⟩
  | chunk surroundings index bytes _ running asks ih =>
    exact ih.2.received ih.1 (receiveChunk_received ih.1) asks
  | delayed _ ih => exact ⟨ih.1.delayed, ih.2.calm (cleanupDelayedCallbacks_calm ih.1.named)⟩
  | timeout memory timedOut _ ih =>
    exact ⟨ih.1.timeout memory timedOut,
      ih.2.calm (cleanupTimedOut_calm memory timedOut ih.1.named)⟩
  | connect index connection _ closed ih =>
    exact ⟨ih.1.setConnection index (.inl rfl), ih.2.calm (setConnection_calm ih.1.named _ _)⟩
  | sessions hasSession sendSequenceNumber _ ih =>
    exact ⟨ih.1.sessions hasSession sendSequenceNumber,
      ih.2.calm (serveSessions_calm hasSession sendSequenceNumber ih.1.named)⟩

end Configured

/-- If clients only ask for modes that are offered with their policy, every open channel has the
security of an endpoint. -/
theorem open_channels_configured (config : ServerConfig Context)
    {trace : List (ChannelStep Context)} {server : Server Context}
    (run : ServerRun config (AsksForOffered config) trace server) :
    ConfiguredSecurity config server :=
  run.configured.2

theorem plainChunk_asksForOffered (policies : ((lastStep plainConfig bytes earlier).all fun step =>
      step.securityPolicy.policyUri.bytes == securityPolicyNoneUri.bytes) = true) :
    AsksForOffered plainConfig quietSurroundings (afterChunks plainConfig earlier) 0 bytes := by
  rintro step found _ mode ⟨accepted, -, -, request, -, -, -, passes⟩
  change lastStep plainConfig bytes earlier = some step at found
  rw [found, Option.all_some, beq_iff_eq] at policies
  have none : mode = .none := by
    by_contra other
    exact passes ⟨other, policies⟩
  exact ⟨⟨securityPolicyNone, .none⟩, mem_cons_self, policies.symm, none.symm⟩

theorem plainChannel_configured :
    ∃ trace server, ServerRun plainConfig (AsksForOffered plainConfig) trace server ∧
      ConfiguredSecurity plainConfig server ∧
      server.channels.map (fun entry => entry.channel.state) = [.opened] := by
  have hello := (ServerRun.connected plainConfig (AsksForOffered plainConfig)).next helloChunk
    (by decide) (plainChunk_asksForOffered (by decide +kernel))
  have opened := hello.next (opnChunk securityPolicyNoneUri 0 1 (openRequestWire 446 0 1))
    (by decide +kernel) (plainChunk_asksForOffered (by decide +kernel))
  exact ⟨_, _, opened, open_channels_configured plainConfig opened, by decide +kernel⟩

def basic128Rsa15Uri : UaString :=
  .alloc ("http://opcfoundation.org/UA/SecurityPolicy#Basic128Rsa15".toList.map fun char =>
    BitVec.ofNat 8 char.toNat)

def encryptingConfig : ServerConfig Unit :=
  { plainConfig with
    endpoints := [⟨{ securityPolicyNone with policyUri := basic128Rsa15Uri }, .signAndEncrypt⟩] }

theorem modeNone_negotiated :
    ∃ trace server, ServerRun encryptingConfig (fun _ _ _ _ => True) trace server ∧
      ¬ConfiguredSecurity encryptingConfig server ∧
      server.channels.map (fun entry => (entry.channel.state, entry.channel.securityMode,
        entry.securityPolicy.policyUri)) = [(.opened, .none, basic128Rsa15Uri)] := by
  have hello := (ServerRun.connected encryptingConfig fun _ _ _ _ => True).next helloChunk
    (by decide) trivial
  have opened := hello.next (opnChunk basic128Rsa15Uri 0 1 (openRequestWire 446 0 1))
    (by decide +kernel) trivial
  have outcome : (afterChunks encryptingConfig
      [opnChunk basic128Rsa15Uri 0 1 (openRequestWire 446 0 1), helloChunk]).channels.map
        (fun entry => (entry.channel.state, entry.channel.securityMode,
          entry.securityPolicy.policyUri)) = [(.opened, .none, basic128Rsa15Uri)] := by
    decide +kernel
  refine ⟨_, _, opened, fun configured => ?_, outcome⟩
  have member : ((.opened, .none, basic128Rsa15Uri) :
      SecureChannelState × MessageSecurityMode × UaString) ∈ (afterChunks encryptingConfig
        [opnChunk basic128Rsa15Uri 0 1 (openRequestWire 446 0 1), helloChunk]).channels.map
          (fun entry => (entry.channel.state, entry.channel.securityMode,
            entry.securityPolicy.policyUri)) := by
    rw [outcome]
    exact mem_cons_self
  obtain ⟨entry, managed, values⟩ := mem_map.mp member
  simp only [Prod.mk.injEq] at values
  obtain ⟨endpoint, inside, -, mode⟩ := configured.offered entry (mem_append_left _ managed)
    values.1
  obtain rfl := mem_singleton.mp inside
  rw [values.2.1] at mode
  exact absurd mode (by decide)

end OpcUa
