import OpcUa.LeafRoundTrip
import OpcUa.SecureChannelCore

/-!
What `UA_SecureChannel_processChunk` can do to a channel, said once for every chunk, and
what a chunk that is rejected leaves behind.
-/

namespace OpcUa

open LittleEndian StatusCode List

variable {Context Application : Type}
variable {policy : SecurityPolicy Context} {channel : SecureChannel Context} {tokenId : BitVec 32}
  {chunk : List Byte} {messageType : MessageType}

def SequenceFollows (stored sequenceNumber : BitVec 32) : Prop :=
  sequenceNumber = stored + 1 ∨ ((stored + 1).toNat > 4294966271 ∧ sequenceNumber.toNat < 1024)

instance (stored sequenceNumber : BitVec 32) : Decidable (SequenceFollows stored sequenceNumber) :=
  inferInstanceAs (Decidable (_ ∨ _))

theorem processSequenceNumberSym_eq (channel : SecureChannel Context) (sequenceNumber : BitVec 32) :
    processSequenceNumberSym channel sequenceNumber =
      if SequenceFollows channel.receiveSequenceNumber sequenceNumber then
        (good, { channel with receiveSequenceNumber := sequenceNumber })
      else (badSecurityChecksFailed, channel) := by
  rw [processSequenceNumberSym]
  by_cases successor : sequenceNumber = channel.receiveSequenceNumber + 1
  · have follows : SequenceFollows channel.receiveSequenceNumber sequenceNumber := .inl successor
    rw [if_neg (not_not.mpr successor), if_pos follows, successor]
  · rw [if_pos successor]
    by_cases rollover : (channel.receiveSequenceNumber + 1).toNat > 4294966271 ∧
        sequenceNumber.toNat < 1024
    · have follows : SequenceFollows channel.receiveSequenceNumber sequenceNumber := .inr rollover
      rw [if_pos rollover, if_pos follows, BitVec.sub_add_cancel]
    · rw [if_neg rollover, if_neg]
      rintro (same | later)
      · exact successor same
      · exact rollover later

theorem generateNewKeys_channel (policy : SecurityPolicy Context)
    (channel : SecureChannel Context) :
    ∃ context, (generateNewKeys policy channel).2 = { channel with context } := by
  simp only [generateNewKeys]
  split
  · exact ⟨_, rfl⟩
  · exact ⟨_, rfl⟩

theorem revolveTokens_channel (policy : SecurityPolicy Context) (channel : SecureChannel Context)
    (issued : channel.nextSecurityToken.tokenId ≠ 0) :
    ∃ context, (revolveTokens policy channel).2 = { channel with
        securityToken := channel.nextSecurityToken, nextSecurityToken := .init, context } := by
  rw [revolveTokens, if_neg issued]
  exact generateNewKeys_channel policy _

theorem checkSymHeader_channel (policy : SecurityPolicy Context) (channel : SecureChannel Context)
    (tokenId : BitVec 32) :
    ∃ securityToken nextSecurityToken context, (checkSymHeader policy channel tokenId).2 =
      { channel with securityToken, nextSecurityToken, context } := by
  rw [checkSymHeader]
  split
  · split
    · exact ⟨_, _, _, rfl⟩
    · by_cases issued : channel.nextSecurityToken.tokenId = 0
      · rw [revolveTokens, if_pos issued]
        exact ⟨_, _, _, rfl⟩
      · obtain ⟨context, revolved⟩ := revolveTokens_channel policy channel issued
        exact ⟨_, _, context, revolved⟩
  · exact ⟨_, _, _, rfl⟩

theorem checkSymHeader_receiveSequenceNumber (policy : SecurityPolicy Context)
    (channel : SecureChannel Context) (tokenId : BitVec 32) :
    (checkSymHeader policy channel tokenId).2.receiveSequenceNumber =
      channel.receiveSequenceNumber := by
  obtain ⟨_, _, _, after⟩ := checkSymHeader_channel policy channel tokenId
  rw [after]

theorem checkSymHeader_chunks (policy : SecurityPolicy Context) (channel : SecureChannel Context)
    (tokenId : BitVec 32) : (checkSymHeader policy channel tokenId).2.chunks = channel.chunks := by
  obtain ⟨_, _, _, after⟩ := checkSymHeader_channel policy channel tokenId
  rw [after]

theorem checkSymHeader_current {after : SecureChannel Context}
    (passed : checkSymHeader policy channel tokenId = (good, after))
    (other : channel.nextSecurityToken.tokenId ≠ tokenId) :
    tokenId = channel.securityToken.tokenId ∧ after = channel := by
  rw [checkSymHeader, if_pos other.symm] at passed
  by_cases current : tokenId = channel.securityToken.tokenId
  · rw [if_neg (not_not.mpr current), Prod.mk.injEq] at passed
    exact ⟨current, passed.2.symm⟩
  · rw [if_pos current, Prod.mk.injEq] at passed
    exact absurd passed.1 (by decide)

theorem checkSymHeader_inUse (policy : SecurityPolicy Context) (channel : SecureChannel Context) :
    checkSymHeader policy channel channel.securityToken.tokenId = (good, channel) := by
  rw [checkSymHeader, if_neg (not_not.mpr rfl)]

theorem checkSymHeader_next (policy : SecurityPolicy Context)
    (other : channel.nextSecurityToken.tokenId ≠ channel.securityToken.tokenId) :
    checkSymHeader policy channel channel.nextSecurityToken.tokenId =
      revolveTokens policy channel := by
  rw [checkSymHeader, if_pos other, if_neg (not_not.mpr rfl)]

theorem checkSymHeader_unknown (policy : SecurityPolicy Context)
    (other : tokenId ≠ channel.securityToken.tokenId)
    (unissued : ¬(tokenId = channel.nextSecurityToken.tokenId ∧ tokenId ≠ 0)) :
    checkSymHeader policy channel tokenId = (badSecureChannelTokenUnknown, channel) := by
  rw [checkSymHeader, if_pos other]
  split
  · rfl
  · rename_i next
    rw [not_not] at next
    rw [revolveTokens, if_pos]
    by_contra nonzero
    exact unissued ⟨next, next ▸ nonzero⟩

def headerMessageType (chunk : List Byte) : Option MessageType :=
  MessageType.ofCode
    ((messageHeaderDecodeBinary chunk 0).value.messageTypeAndChunkType &&& 0x00ffffff)

def headerChunkType (chunk : List Byte) : Option ChunkType :=
  ChunkType.ofCode
    ((messageHeaderDecodeBinary chunk 0).value.messageTypeAndChunkType &&& 0xff000000)

theorem uint32DecodeBinary_pos {input : Input} {pos : Nat}
    (decodes : (uint32DecodeBinary input pos).status = good) :
    (uint32DecodeBinary input pos).pos = pos + 4 := by
  simp only [uint32DecodeBinary, readWord, readBytes, Res.map] at decodes ⊢
  split at decodes
  · simp [good, badDecodingError] at decodes
  · rename_i inside
    rw [if_neg inside, Res.ok]

section

variable (decodes : (messageHeaderDecodeBinary chunk 0).status = good)
include decodes

theorem messageHeaderDecodeBinary_pos : (messageHeaderDecodeBinary chunk 0).pos = 12 := by
  obtain ⟨first, rest, pos, -⟩ := Res.thenCheck_good decodes
  obtain ⟨second, third, rest, -⟩ := Res.thenCheck_good rest
  rw [messageHeaderDecodeBinary, pos, rest]
  have last := third
  rw [uint32DecodeBinary_pos first] at second last ⊢
  rw [uint32DecodeBinary_pos second] at last ⊢
  exact uint32DecodeBinary_pos last

theorem symmetricHeaderDecodeBinary_pos
    (too : (symmetricHeaderDecodeBinary chunk (messageHeaderDecodeBinary chunk 0).pos).status =
      good) :
    (symmetricHeaderDecodeBinary chunk (messageHeaderDecodeBinary chunk 0).pos).pos = 16 := by
  rw [messageHeaderDecodeBinary_pos decodes] at too ⊢
  exact uint32DecodeBinary_pos too

end

/-! The headers as they are written -/

theorem typeCodes (messageType : MessageType) (chunkType : ChunkType) :
    MessageType.ofCode ((messageType.code + chunkType.code) &&& 0x00ffffff) = some messageType ∧
      ChunkType.ofCode ((messageType.code + chunkType.code) &&& 0xff000000) = some chunkType := by
  cases messageType <;> cases chunkType <;> decide

def symmetricHeaderWire (code size channelId tokenId : BitVec 32) : List Byte :=
  leBytes 4 code.toNat ++ (leBytes 4 size.toNat ++
    (leBytes 4 channelId.toNat ++ leBytes 4 tokenId.toNat))

def sequenceHeaderWire (number requestId : BitVec 32) : List Byte :=
  leBytes 4 number.toNat ++ leBytes 4 requestId.toNat

@[simp] theorem symmetricHeaderWire_length (code size channelId tokenId : BitVec 32) :
    (symmetricHeaderWire code size channelId tokenId).length = 16 := by
  simp [symmetricHeaderWire]

@[simp] theorem sequenceHeaderWire_length (number requestId : BitVec 32) :
    (sequenceHeaderWire number requestId).length = 8 := by
  simp [sequenceHeaderWire]

theorem symmetricHeaderWire_decodes (code size channelId tokenId : BitVec 32) (rest : List Byte) :
    let chunk := symmetricHeaderWire code size channelId tokenId ++ rest
    messageHeaderDecodeBinary chunk 0 = .ok ⟨code, size, channelId⟩ 12 ∧
      symmetricHeaderDecodeBinary chunk 12 = .ok tokenId 16 := by
  intro chunk
  have whole := Input.holds_self chunk ⟨[], []⟩ encodingMaxRecursion
  obtain ⟨first, rest⟩ := whole.append.1.append
  obtain ⟨second, rest⟩ := rest.append
  obtain ⟨third, fourth⟩ := rest.append
  have codeRead := uint32DecodeBinary_reads (chunkInput chunk) code _ first
  have sizeRead := uint32DecodeBinary_reads (chunkInput chunk) size _ second
  have channelRead := uint32DecodeBinary_reads (chunkInput chunk) channelId _ third
  have tokenRead := uint32DecodeBinary_reads (chunkInput chunk) tokenId _ fourth
  simp only [leBytes_length] at codeRead sizeRead channelRead tokenRead
  refine ⟨?_, tokenRead⟩
  rw [messageHeaderDecodeBinary, codeRead, Res.ok_thenCheck, sizeRead, Res.ok_thenCheck,
    channelRead, Res.ok_map]

theorem sequenceHeaderWire_decodes (front rest : List Byte) (number requestId : BitVec 32) :
    sequenceHeaderDecodeBinary (front ++ (sequenceHeaderWire number requestId ++ rest))
      front.length = .ok ⟨number, requestId⟩ (front.length + 8) := by
  have whole := Input.holds_self (front ++ (sequenceHeaderWire number requestId ++ rest)) ⟨[], []⟩
    encodingMaxRecursion
  obtain ⟨first, second⟩ := whole.append.2.append.1.append
  have numberRead := uint32DecodeBinary_reads (chunkInput _) number _ first
  have requestRead := uint32DecodeBinary_reads (chunkInput _) requestId _ second
  simp only [leBytes_length, Nat.zero_add] at numberRead requestRead
  rw [sequenceHeaderDecodeBinary, numberRead, Res.ok_thenCheck, requestRead, Res.ok_map]

theorem decryptChunk_wire (module : CryptoModule Context) (channel : SecureChannel Context)
    (messageType : MessageType) (front cipher payload padding signature : List Byte)
    (number requestId : BitVec 32)
    (decrypts : decryptBody module channel messageType cipher = (good,
      sequenceHeaderWire number requestId ++ (payload ++ (padding ++ signature))))
    (length : cipher.length = 8 + (payload.length + (padding.length + signature.length)))
    (signed : signature.length = signatureSize module channel messageType)
    (padded : paddingSize module channel messageType
      (front ++ (sequenceHeaderWire number requestId ++ (payload ++ (padding ++ signature))))
      (front.length + cipher.length) = (padding.length, false))
    (verified : isSigned channel messageType = true → module.verify channel.context
      (front ++ (sequenceHeaderWire number requestId ++ (payload ++ padding))) signature = good) :
    decryptChunk module channel messageType (front ++ cipher) front.length =
      if payload = [] then .error badSecurityChecksFailed
      else .ok ⟨number, requestId, payload, false⟩ := by
  have textLength : (sequenceHeaderWire number requestId ++
      (payload ++ (padding ++ signature))).length = cipher.length := by
    simp only [length_append, sequenceHeaderWire_length, length]
  have nothing : (front ++ cipher).drop (front.length + cipher.length) = [] :=
    drop_eq_nil_of_le (by rw [length_append])
  have verifies : verifyBody module channel messageType
      (front ++ (sequenceHeaderWire number requestId ++ (payload ++ (padding ++ signature))))
      (front.length + cipher.length) front.length = good := by
    simp only [verifyBody, padded, ← signed]
    by_cases plain : isSigned channel messageType = true
    · have cut : front ++ (sequenceHeaderWire number requestId ++ (payload ++ (padding ++ signature)))
          = front ++ (sequenceHeaderWire number requestId ++ (payload ++ padding)) ++ signature := by
        simp only [append_assoc]
      have before : front.length + cipher.length - signature.length =
          (front ++ (sequenceHeaderWire number requestId ++ (payload ++ padding))).length := by
        simp only [length_append, sequenceHeaderWire_length, length]
        omega
      rw [plain, if_neg (by decide), if_neg (by omega), cut, before, take_left, drop_left,
        take_length]
      exact verified plain
    · rw [Bool.not_eq_true] at plain
      rw [plain, if_pos (by decide)]
  rw [decryptChunk, drop_left, decrypts]
  simp only [textLength, take_left, nothing, append_nil, verifies, padded, ← signed]
  rw [sequenceHeaderWire_decodes, if_neg (not_not.mpr rfl), Res.ok]
  simp only [ne_eq, not_true_eq_false, if_false, length_append]
  by_cases empty : payload = []
  · rw [if_pos empty, if_pos]
    simp only [empty, length_nil] at length
    omega
  · have some := length_pos_iff.mpr empty
    rw [if_neg empty, if_neg (by omega)]
    have behind : (front ++ (sequenceHeaderWire number requestId ++
        (payload ++ (padding ++ signature)))).drop (front.length + 8) =
          payload ++ (padding ++ signature) := by
      rw [← append_assoc, drop_left' (by simp)]
    have count : front.length + cipher.length - (front.length + 8) -
        (signature.length + padding.length) = payload.length := by omega
    have inside : decide (front.length + cipher.length <
        front.length + 8 + (signature.length + padding.length)) = false := by
      rw [decide_eq_false_iff_not]
      omega
    rw [behind, count, take_left, inside]
    rfl

def CarriesToken (channel : SecureChannel Context) (chunk : List Byte) (tokenId : BitVec 32) :
    Prop :=
  let header := messageHeaderDecodeBinary chunk 0
  header.status = good ∧
    (header.value.secureChannelId = channel.securityToken.channelId ∨ channel.state = .fresh) ∧
    (headerMessageType chunk = some .msg ∨ headerMessageType chunk = some .clo) ∧
    (symmetricHeaderDecodeBinary chunk header.pos).status = good ∧
    (symmetricHeaderDecodeBinary chunk header.pos).value = tokenId

theorem CarriesToken.of_decodes {header : SecureConversationMessageHeader}
    (message : messageHeaderDecodeBinary chunk 0 = .ok header 12)
    (token : symmetricHeaderDecodeBinary chunk 12 = .ok tokenId 16)
    (addressed : header.secureChannelId = channel.securityToken.channelId ∨ channel.state = .fresh)
    (symmetric : MessageType.ofCode (header.messageTypeAndChunkType &&& 0x00ffffff) = some .msg ∨
      MessageType.ofCode (header.messageTypeAndChunkType &&& 0x00ffffff) = some .clo) :
    CarriesToken channel chunk tokenId := by
  rw [CarriesToken, headerMessageType, message]
  refine ⟨rfl, addressed, symmetric, ?_, ?_⟩
  · rw [Res.ok, token]
    rfl
  · rw [Res.ok, token]
    rfl

def SelectsNextToken (channel : SecureChannel Context) (chunk : List Byte) : Prop :=
  CarriesToken channel chunk channel.nextSecurityToken.tokenId ∧
    channel.nextSecurityToken.tokenId ≠ channel.securityToken.tokenId ∧
    channel.nextSecurityToken.tokenId ≠ 0

def acceptedChunk (messageType : MessageType) (chunkType : Option ChunkType)
    (channel : SecureChannel Context) (plain : DecryptedChunk) : AcceptedChunk :=
  ⟨messageType, chunkType, channel.securityToken.tokenId, plain.sequenceNumber, plain.requestId,
    plain.payload, plain.fault⟩

inductive Checks (policy : SecurityPolicy Context) (channel : SecureChannel Context)
    (chunk : List Byte) : Except StatusCode AcceptedChunk → SecureChannel Context → Prop
  | refused (status : StatusCode) : status ≠ good → ¬SelectsNextToken channel chunk →
      Checks policy channel chunk (.error status) channel
  | revolved (status : StatusCode) : status ≠ good → SelectsNextToken channel chunk →
      Checks policy channel chunk (.error status) (revolveTokens policy channel).2
  | error : headerMessageType chunk = some .err → headerChunkType chunk = some .final →
      Checks policy channel chunk (.ok ⟨.err, some .final, 0, 0, 0, chunk.drop 12, false⟩) channel
  | opened (offset : Nat) (plain : DecryptedChunk) :
      headerMessageType chunk = some .opn → headerChunkType chunk = some .final →
      decryptChunk policy.asymmetric channel .opn chunk offset = .ok plain →
      Checks policy channel chunk (.ok (acceptedChunk .opn (some .final) channel plain))
        { channel with receiveSequenceNumber := plain.sequenceNumber }
  | symmetric (messageType : MessageType) (plain : DecryptedChunk) (after : SecureChannel Context) :
      headerMessageType chunk = some messageType →
      CarriesToken channel chunk after.securityToken.tokenId →
      checkSymHeader policy channel after.securityToken.tokenId = (good, after) →
      decryptChunk policy.symmetric after messageType chunk 16 = .ok plain →
      SequenceFollows channel.receiveSequenceNumber plain.sequenceNumber →
      Checks policy channel chunk
        (.ok (acceptedChunk messageType (headerChunkType chunk) after plain))
        { after with receiveSequenceNumber := plain.sequenceNumber }

theorem decryptChunk_error {module : CryptoModule Context} {offset : Nat} {status : StatusCode}
    (fails : decryptChunk module channel messageType chunk offset = .error status) :
    status ≠ good := by
  simp only [decryptChunk] at fails
  split at fails
  · rename_i bad
    cases fails
    exact bad
  · split at fails
    · rename_i bad
      cases fails
      exact bad
    · split at fails
      · rename_i bad
        cases fails
        exact bad
      · split at fails
        · cases fails
          decide
        · cases fails

theorem authenticateChunk_sym {after : SecureChannel Context}
    (sort : headerMessageType chunk = some messageType)
    (carries : CarriesToken channel chunk after.securityToken.tokenId)
    (token : checkSymHeader policy channel after.securityToken.tokenId = (good, after)) :
    (∃ status, status ≠ good ∧ authenticateChunk policy.symmetric processSequenceNumberSym after
        chunk 16 messageType (headerChunkType chunk) = (.error status, after)) ∨
      ∃ accepted final, authenticateChunk policy.symmetric processSequenceNumberSym after chunk
          16 messageType (headerChunkType chunk) = (.ok accepted, final) ∧
        Checks policy channel chunk (.ok accepted) final := by
  rw [authenticateChunk]
  cases decrypted : decryptChunk policy.symmetric after messageType chunk 16 with
  | error status => exact .inl ⟨status, decryptChunk_error decrypted, rfl⟩
  | ok plain =>
    have stored := checkSymHeader_receiveSequenceNumber policy channel after.securityToken.tokenId
    rw [token] at stored
    simp only [processSequenceNumberSym_eq]
    by_cases follows : SequenceFollows after.receiveSequenceNumber plain.sequenceNumber
    · rw [if_pos follows]
      refine .inr ⟨_, _, rfl, .symmetric messageType plain after sort carries token decrypted ?_⟩
      rwa [← stored]
    · rw [if_neg follows]
      exact .inl ⟨_, show badSecurityChecksFailed ≠ good by decide, rfl⟩

theorem checkSymmetricChunk_checks (policy : SecurityPolicy Context)
    (channel : SecureChannel Context) (chunk : List Byte)
    (symmetric : messageType = .msg ∨ messageType = .clo)
    (sort : headerMessageType chunk = some messageType)
    (header : (messageHeaderDecodeBinary chunk 0).status = good)
    (addressed : (messageHeaderDecodeBinary chunk 0).value.secureChannelId =
      channel.securityToken.channelId ∨ channel.state = .fresh) :
    Checks policy channel chunk
      (checkSymmetricChunk policy channel chunk (messageHeaderDecodeBinary chunk 0).pos messageType
        (headerChunkType chunk)).1
      (checkSymmetricChunk policy channel chunk (messageHeaderDecodeBinary chunk 0).pos messageType
        (headerChunkType chunk)).2 := by
  simp only [checkSymmetricChunk]
  have behind := symmetricHeaderDecodeBinary_pos header
  generalize found : symmetricHeaderDecodeBinary chunk (messageHeaderDecodeBinary chunk 0).pos = res
    at behind
  obtain ⟨status, tokenId, next, exhausted⟩ := res
  by_cases decodes : status ≠ good
  · rw [if_pos decodes]
    refine .refused _ decodes fun selects => ?_
    have good := selects.1.2.2.2.1
    rw [found] at good
    exact decodes good
  · rw [if_neg decodes]
    have offset : next = 16 := behind (not_not.mp decodes)
    subst offset
    have carries : CarriesToken channel chunk tokenId := by
      refine ⟨header, addressed, ?_, ?_, ?_⟩
      · rw [sort]
        exact symmetric.imp (congrArg some) (congrArg some)
      · rw [found]
        exact not_not.mp decodes
      · rw [found]
    have unique (other : BitVec 32) (too : CarriesToken channel chunk other) : other = tokenId := by
      rw [← too.2.2.2.2, found]
    by_cases current : tokenId = channel.securityToken.tokenId
    · have token := current ▸ checkSymHeader_inUse policy channel
      have other : ¬SelectsNextToken channel chunk := fun selects =>
        selects.2.1 ((unique _ selects.1).trans current)
      simp only [token, ne_eq, not_true_eq_false, if_false]
      rw [current] at token carries
      obtain ⟨status, bad, rejected⟩ | ⟨accepted, final, result, checks⟩ :=
        authenticateChunk_sym sort carries token
      · rw [rejected]
        exact .refused status bad other
      · rw [result]
        exact checks
    · by_cases issued : tokenId = channel.nextSecurityToken.tokenId ∧ tokenId ≠ 0
      · obtain ⟨same, nonzero⟩ := issued
        rw [same] at current nonzero carries
        have selects : SelectsNextToken channel chunk := ⟨carries, current, nonzero⟩
        have token : checkSymHeader policy channel tokenId = revolveTokens policy channel := by
          rw [same, checkSymHeader_next policy current]
        rw [token]
        by_cases keys : (revolveTokens policy channel).1 ≠ good
        · rw [if_pos keys]
          exact .revolved _ keys selects
        · rw [if_neg keys]
          obtain ⟨context, revolved⟩ := revolveTokens_channel policy channel nonzero
          have now : (revolveTokens policy channel).2.securityToken = channel.nextSecurityToken := by
            rw [revolved]
          obtain ⟨status, bad, rejected⟩ | ⟨accepted, final, result, checks⟩ :=
            authenticateChunk_sym sort (show CarriesToken channel chunk
                (revolveTokens policy channel).2.securityToken.tokenId by rw [now]; exact carries)
              (by rw [now, ← same, token, ← not_not.mp keys])
          · rw [rejected]
            exact .revolved status bad selects
          · rw [result]
            exact checks
      · have token := checkSymHeader_unknown policy current issued
        simp only [token]
        rw [if_pos (by decide)]
        refine .refused _ (by decide) fun selects => ?_
        have same := unique _ selects.1
        exact issued ⟨same.symm, by rw [← same]; exact selects.2.2⟩

theorem checkAsymmetricChunk_checks (policy : SecurityPolicy Context)
    (channel : SecureChannel Context) (chunk : List Byte)
    (sort : headerMessageType chunk = some .opn) :
    Checks policy channel chunk
      (checkAsymmetricChunk policy channel chunk (headerChunkType chunk)).1
      (checkAsymmetricChunk policy channel chunk (headerChunkType chunk)).2 := by
  have other : ¬SelectsNextToken channel chunk := fun selects => by
    simpa [sort] using selects.1.2.2.1
  simp only [checkAsymmetricChunk]
  by_cases final : headerChunkType chunk ≠ some .final
  · rw [if_pos final]
    exact .refused _ (by decide) other
  · rw [if_neg final]
    split
    · rename_i bad
      exact .refused _ bad other
    · split
      · rename_i bad
        exact .refused _ bad other
      · rw [authenticateChunk, not_not.mp final]
        cases decrypted : decryptChunk policy.asymmetric channel .opn chunk
            (asymmetricHeaderDecodeBinary chunk 12).pos with
        | error status => exact .refused _ (decryptChunk_error decrypted) other
        | ok plain => exact .opened _ plain sort (not_not.mp final) decrypted

theorem checkChunk_checks (policy : SecurityPolicy Context) (channel : SecureChannel Context)
    (chunk : List Byte) :
    Checks policy channel chunk (checkChunk policy channel chunk).1
      (checkChunk policy channel chunk).2 := by
  simp only [checkChunk]
  by_cases header : (messageHeaderDecodeBinary chunk 0).status ≠ good
  · rw [if_pos header]
    exact .refused _ header fun selects => header selects.1.1
  rw [if_neg header]
  by_cases elsewhere : (messageHeaderDecodeBinary chunk 0).value.secureChannelId ≠
      channel.securityToken.channelId ∧ channel.state ≠ .fresh
  · rw [if_pos elsewhere]
    exact .refused _ (by decide) fun selects => selects.1.2.1.elim elsewhere.1 elsewhere.2
  rw [if_neg elsewhere]
  have addressed : (messageHeaderDecodeBinary chunk 0).value.secureChannelId =
      channel.securityToken.channelId ∨ channel.state = .fresh := by
    rwa [not_and_or, not_not, not_not] at elsewhere
  generalize sort : MessageType.ofCode
    ((messageHeaderDecodeBinary chunk 0).value.messageTypeAndChunkType &&& 0x00ffffff) = type
  change headerMessageType chunk = type at sort
  cases type with
  | none =>
    refine .refused _ (by decide) fun selects => ?_
    simpa [sort] using selects.1.2.2.1
  | some messageType =>
    cases messageType with
    | err =>
      have other : ¬SelectsNextToken channel chunk := fun selects => by
        simpa [sort] using selects.1.2.2.1
      dsimp only
      split
      · exact .refused _ (by decide) other
      · rename_i final
        rw [messageHeaderDecodeBinary_pos (not_not.mp header), not_not.mp final]
        exact .error sort (not_not.mp final)
    | opn => exact checkAsymmetricChunk_checks policy channel chunk sort
    | msg =>
      exact checkSymmetricChunk_checks policy channel chunk (.inl rfl) sort
        (not_not.mp header) addressed
    | clo =>
      exact checkSymmetricChunk_checks policy channel chunk (.inr rfl) sort
        (not_not.mp header) addressed

theorem checkChunk_carries (policy : SecurityPolicy Context)
    (carries : CarriesToken channel chunk tokenId)
    (sort : headerMessageType chunk = some messageType) :
    checkChunk policy channel chunk =
      match checkSymHeader policy channel tokenId with
      | (status, after) =>
        if status ≠ good then (.error status, after)
        else
          authenticateChunk policy.symmetric processSequenceNumberSym after chunk 16 messageType
            (headerChunkType chunk) := by
  obtain ⟨header, addressed, symmetric, decodes, value⟩ := carries
  have symmetricChunk : checkSymmetricChunk policy channel chunk
      (messageHeaderDecodeBinary chunk 0).pos messageType (headerChunkType chunk) =
        match checkSymHeader policy channel tokenId with
        | (status, after) =>
          if status ≠ good then (.error status, after)
          else
            authenticateChunk policy.symmetric processSequenceNumberSym after chunk 16
              messageType (headerChunkType chunk) := by
    simp only [checkSymmetricChunk]
    rw [if_neg (not_not.mpr decodes), symmetricHeaderDecodeBinary_pos header decodes, value]
  rw [← symmetricChunk]
  simp only [checkChunk]
  have here : ¬((messageHeaderDecodeBinary chunk 0).value.secureChannelId ≠
      channel.securityToken.channelId ∧ channel.state ≠ .fresh) := by
    rwa [not_and_or, not_not, not_not]
  rw [if_neg (not_not.mpr header), if_neg here]
  change MessageType.ofCode
    ((messageHeaderDecodeBinary chunk 0).value.messageTypeAndChunkType &&& 0x00ffffff) =
      some messageType at sort
  rw [headerMessageType, sort] at symmetric
  rw [sort]
  rcases symmetric with msg | clo
  · cases msg
    rfl
  · cases clo
    rfl

@[simp] theorem processPayload_accepted (callback : ProcessMessageCallback Context Application)
    (application : Application) (channel : SecureChannel Context) (chunk : AcceptedChunk) :
    (processPayload callback application channel chunk).accepted = some chunk := by
  rw [processPayload]
  split
  · rfl
  · split <;> rfl

theorem processChunk_cases (policy : SecurityPolicy Context)
    (callback : ProcessMessageCallback Context Application) (application : Application)
    (channel : SecureChannel Context) (chunk : List Byte) :
    (∃ status after, Checks policy channel chunk (.error status) after ∧
      processChunk policy callback application channel chunk =
        ⟨status, application, after, none, []⟩) ∨
    ∃ accepted after, Checks policy channel chunk (.ok accepted) after ∧
      processChunk policy callback application channel chunk =
        processPayload callback application after accepted := by
  have checks := checkChunk_checks policy channel chunk
  rw [processChunk]
  generalize checkChunk policy channel chunk = outcome at checks ⊢
  obtain ⟨result, after⟩ := outcome
  cases result with
  | error status => exact .inl ⟨status, after, checks, rfl⟩
  | ok accepted => exact .inr ⟨accepted, after, checks, rfl⟩

theorem processChunk_accepted {callback : ProcessMessageCallback Context Application}
    {application : Application} {accepted : AcceptedChunk}
    (passed : (processChunk policy callback application channel chunk).accepted = some accepted) :
    Checks policy channel chunk (.ok accepted) (checkChunk policy channel chunk).2 := by
  have checks := checkChunk_checks policy channel chunk
  rw [processChunk] at passed
  generalize checkChunk policy channel chunk = outcome at checks passed ⊢
  obtain ⟨result, after⟩ := outcome
  cases result with
  | error status => simp at passed
  | ok chunk =>
    rw [processPayload_accepted, Option.some.injEq] at passed
    subst passed
    exact checks

structure KeepsSecurityState (before after : SecureChannel Context) : Prop where
  securityToken : after.securityToken = before.securityToken
  nextSecurityToken : after.nextSecurityToken = before.nextSecurityToken
  keys : after.context = before.context
  receiveSequenceNumber : after.receiveSequenceNumber = before.receiveSequenceNumber
  chunks : after.chunks = before.chunks

theorem KeepsSecurityState.refl (channel : SecureChannel Context) :
    KeepsSecurityState channel channel := ⟨rfl, rfl, rfl, rfl, rfl⟩

section

variable (policy : SecurityPolicy Context) (callback : ProcessMessageCallback Context Application)
  (application : Application)

def LosesSecurityState (channel : SecureChannel Context) (chunk : List Byte) : Prop :=
  (processChunk policy callback application channel chunk).accepted = none ∧
    ¬KeepsSecurityState channel (processChunk policy callback application channel chunk).channel

theorem rejected_keepsSecurityState (other : ¬SelectsNextToken channel chunk)
    (rejected : (processChunk policy callback application channel chunk).accepted = none) :
    KeepsSecurityState channel (processChunk policy callback application channel chunk).channel := by
  obtain ⟨status, after, checks, result⟩ | ⟨accepted, after, checks, result⟩ :=
    processChunk_cases policy callback application channel chunk
  · rw [result]
    cases checks with
    | refused _ _ _ => exact .refl channel
    | revolved _ _ selects => exact absurd selects other
  · rw [result] at rejected
    simp at rejected

end

theorem sequenceHeaderDecodeBinary_tooShort {pos : Nat} (short : chunk.length < pos + 4) :
    (sequenceHeaderDecodeBinary chunk pos).status ≠ good := by
  have fails : (uint32DecodeBinary (chunkInput chunk) pos).status = badDecodingError := by
    rw [uint32DecodeBinary, readWord, readBytes, if_pos (by simpa [chunkInput] using short)]
    rfl
  intro decodes
  have first := (Res.thenCheck_good decodes).1
  rw [fails] at first
  exact absurd first (by decide)

theorem decryptChunk_empty (module : CryptoModule Context) (channel : SecureChannel Context)
    (messageType : MessageType) {offset : Nat} (short : chunk.length ≤ offset) :
    ∃ status, decryptChunk module channel messageType chunk offset = .error status := by
  have nothing : chunk.drop offset = [] := drop_eq_nil_of_le short
  have plain : (decryptBody module channel messageType []).2 = [] := by
    rw [decryptBody]
    split
    · have bound := module.decrypt_length channel.context []
      exact length_eq_zero_iff.mp (by simpa using bound)
    · rfl
  simp only [decryptChunk, nothing, plain, length_nil, Nat.add_zero, append_nil]
  split
  · exact ⟨_, rfl⟩
  · split
    · exact ⟨_, rfl⟩
    · rw [if_pos (sequenceHeaderDecodeBinary_tooShort (by simp only [length_take]; omega))]
      exact ⟨_, rfl⟩

def renewalProbe (channel : SecureChannel Context) : List Byte :=
  symmetricHeaderWire (MessageType.msg.code + ChunkType.final.code) 16
    channel.securityToken.channelId channel.nextSecurityToken.tokenId

theorem renewalProbe_selectsNextToken (issued : channel.nextSecurityToken.tokenId ≠ 0)
    (different : channel.nextSecurityToken.tokenId ≠ channel.securityToken.tokenId) :
    SelectsNextToken channel (renewalProbe channel) := by
  have decodes := symmetricHeaderWire_decodes (MessageType.msg.code + ChunkType.final.code) 16
    channel.securityToken.channelId channel.nextSecurityToken.tokenId []
  exact ⟨.of_decodes decodes.1 decodes.2 (.inl rfl)
    (.inl (typeCodes .msg .final).1), different, issued⟩

theorem renewalProbe_losesSecurityState (policy : SecurityPolicy Context)
    (callback : ProcessMessageCallback Context Application) (application : Application)
    (issued : channel.nextSecurityToken.tokenId ≠ 0)
    (different : channel.nextSecurityToken.tokenId ≠ channel.securityToken.tokenId) :
    LosesSecurityState policy callback application channel (renewalProbe channel) := by
  have selects := renewalProbe_selectsNextToken issued different
  obtain ⟨status, after, checks, result⟩ | ⟨accepted, after, checks, result⟩ :=
    processChunk_cases policy callback application channel (renewalProbe channel)
  · refine ⟨by rw [result], ?_⟩
    rw [result]
    cases checks with
    | refused _ _ other => exact absurd selects other
    | revolved _ _ _ =>
      obtain ⟨context, revolved⟩ := revolveTokens_channel policy channel issued
      intro kept
      have same := kept.securityToken
      rw [revolved] at same
      exact different (congrArg ChannelSecurityToken.tokenId same)
  · cases checks with
    | error sort _ => simpa [sort] using selects.1.2.2.1
    | opened offset plain sort _ _ => simpa [sort] using selects.1.2.2.1
    | symmetric messageType plain after _ _ _ decrypted _ =>
      obtain ⟨status, fails⟩ := decryptChunk_empty policy.symmetric after messageType
        (show (renewalProbe channel).length ≤ 16 by simp [renewalProbe])
      rw [fails] at decrypted
      exact absurd decrypted (by simp)

/-- A rejected chunk leaves the security state alone unless it makes the channel go over to
a new token, and all rejected chunks do so exactly when there is no new token to go to. -/
theorem rejected_keepsSecurityState_iff (policy : SecurityPolicy Context)
    (callback : ProcessMessageCallback Context Application) (application : Application)
    (channel : SecureChannel Context) :
    (∀ chunk, ¬SelectsNextToken channel chunk →
      ¬LosesSecurityState policy callback application channel chunk) ∧
    ((∀ chunk, ¬LosesSecurityState policy callback application channel chunk) ↔
      channel.nextSecurityToken.tokenId = 0 ∨
        channel.nextSecurityToken.tokenId = channel.securityToken.tokenId) := by
  have kept (chunk : List Byte) (other : ¬SelectsNextToken channel chunk) :
      ¬LosesSecurityState policy callback application channel chunk := fun lost =>
    lost.2 (rejected_keepsSecurityState policy callback application other lost.1)
  refine ⟨kept, ?_, ?_⟩
  · intro never
    by_contra pending
    rw [not_or] at pending
    exact never _ (renewalProbe_losesSecurityState policy callback application pending.1 pending.2)
  · rintro (none | same) chunk
    · exact kept chunk fun selects => selects.2.2 none
    · exact kept chunk fun selects => selects.2.1 same

def acceptMessages (Context : Type) : ProcessMessageCallback Context Unit where
  run application channel _ := (good, application, channel)
  receiveSequenceNumber_run _ _ _ := rfl
  chunks_run _ _ _ := rfl

def renewedChannel : SecureChannel Unit where
  state := .opened
  securityMode := .none
  securityToken := ⟨5, 7, 0, 600000⟩
  nextSecurityToken := ⟨5, 8, 0, 600000⟩
  context := ()
  remoteNonce := []
  localNonce := []
  receiveSequenceNumber := 51
  sendSequenceNumber := 51
  chunks := []

theorem renewedChannel_losesSecurityState :
    LosesSecurityState securityPolicyNone (acceptMessages Unit) () renewedChannel
      [0x4D, 0x53, 0x47, 0x46, 16, 0, 0, 0, 5, 0, 0, 0, 8, 0, 0, 0] := by
  refine ⟨by decide, fun kept => ?_⟩
  exact absurd kept.securityToken (by decide)

end OpcUa
