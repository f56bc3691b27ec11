import OpcUa.Reassembly
import OpcUa.SecureChannelSend
import OpcUa.SequenceNumbers

/-!
The receiving side undoes what the sending side does with a symmetric message, chunk by
chunk.
-/

namespace OpcUa

open LittleEndian StatusCode List

variable {Context Application : Type}
variable {padding : BitVec 16}

/-- What is assumed of the cryptographic module: the receiver verifies what the sender has
signed and decrypts what it has encrypted. -/
structure SharedKeys (policy : SecurityPolicy Context) (sender receiver : SecureChannel Context) :
    Prop where
  signatureSize : sender.securityMode.signs = true →
    policy.symmetric.remoteSignatureSize receiver.context =
      policy.symmetric.localSignatureSize sender.context
  sign_length : ∀ data, (policy.symmetric.sign sender.context data).1 = good →
    (policy.symmetric.sign sender.context data).2.length =
      policy.symmetric.localSignatureSize sender.context
  verify_sign : ∀ data, (policy.symmetric.sign sender.context data).1 = good →
    policy.symmetric.verify receiver.context data (policy.symmetric.sign sender.context data).2 =
      good
  blockSize : sender.securityMode.encrypts = true →
    0 < policy.symmetric.localBlockSize sender.context ∧
      policy.symmetric.localBlockSize sender.context < 256
  keyLength : sender.securityMode.encrypts = true →
    policy.symmetric.remoteEncryptionKeyLength receiver.context ≤ 2048
  encrypt_length : ∀ data, (policy.symmetric.encrypt sender.context data).1 = good →
    (policy.symmetric.encrypt sender.context data).2.length = data.length
  decrypt_encrypt : ∀ data, policy.symmetric.localBlockSize sender.context ∣ data.length →
    (policy.symmetric.encrypt sender.context data).1 = good →
    policy.symmetric.decrypt receiver.context (policy.symmetric.encrypt sender.context data).2 =
      (good, data)

structure Paired (sender receiver : SecureChannel Context) : Prop where
  channelId : receiver.securityToken.channelId = sender.securityToken.channelId
  tokenId : receiver.securityToken.tokenId = sender.securityToken.tokenId
  securityMode : receiver.securityMode = sender.securityMode
  sequenceNumber : receiver.receiveSequenceNumber = sender.sendSequenceNumber

theorem calculatePaddingSym_bounds (policy : SecurityPolicy Context)
    (channel : SecureChannel Context) (bytesToWrite : Nat)
    (block : 0 < policy.symmetric.localBlockSize channel.context ∧
      policy.symmetric.localBlockSize channel.context < 256) :
    (calculatePaddingSym policy channel bytesToWrite).toNat < 256 ∧
      policy.symmetric.localBlockSize channel.context ∣
        bytesToWrite + policy.symmetric.localSignatureSize channel.context + 1 +
          (calculatePaddingSym policy channel bytesToWrite).toNat := by
  obtain ⟨positive, small⟩ := block
  have rest := Nat.mod_lt
    (bytesToWrite + policy.symmetric.localSignatureSize channel.context + 1) positive
  have value : (calculatePaddingSym policy channel bytesToWrite).toNat =
      policy.symmetric.localBlockSize channel.context -
        (bytesToWrite + policy.symmetric.localSignatureSize channel.context + 1) %
          policy.symmetric.localBlockSize channel.context := by
    rw [calculatePaddingSym, BitVec.toNat_ofNat, Nat.mod_eq_of_lt (by omega)]
  refine ⟨by omega, ?_⟩
  have split := Nat.div_add_mod
    (bytesToWrite + policy.symmetric.localSignatureSize channel.context + 1)
    (policy.symmetric.localBlockSize channel.context)
  refine ⟨(bytesToWrite + policy.symmetric.localSignatureSize channel.context + 1) /
    policy.symmetric.localBlockSize channel.context + 1, ?_⟩
  rw [Nat.mul_add]
  omega

theorem paddingBytes_small (small : padding.toNat < 256) :
    paddingBytes padding = List.replicate (padding.toNat + 1) (padding.setWidth 8) := by
  have high : (padding >>> 8).setWidth 8 = (0 : Byte) := by
    apply BitVec.eq_of_toNat_eq
    simp only [BitVec.toNat_setWidth, BitVec.toNat_ushiftRight]
    rw [Nat.shiftRight_eq_div_pow, Nat.div_eq_of_lt small]
    rfl
  rw [paddingBytes, high, if_neg (by decide), append_nil]

theorem removedPadding_wire (module : CryptoModule Context) (channel : SecureChannel Context)
    (front signature : List Byte) (small : padding.toNat < 256)
    (keyLength : module.remoteEncryptionKeyLength channel.context ≤ 2048) :
    removedPadding module channel (front ++ (paddingBytes padding ++ signature))
      (front ++ (paddingBytes padding ++ signature)).length signature.length =
        ((paddingBytes padding).length, false) := by
  have last : (padding.setWidth 8).toNat = padding.toNat := by
    rw [BitVec.toNat_setWidth, Nat.mod_eq_of_lt (by omega)]
  rw [removedPadding, if_neg (by omega), paddingBytes_small small]
  have size : (front ++ (List.replicate (padding.toNat + 1) (padding.setWidth 8) ++
      signature)).length - signature.length - 1 =
        (front ++ List.replicate padding.toNat (padding.setWidth 8)).length := by
    simp only [length_append, length_replicate]
    omega
  have split : front ++ (List.replicate (padding.toNat + 1) (padding.setWidth 8) ++ signature) =
      (front ++ List.replicate padding.toNat (padding.setWidth 8)) ++
        (padding.setWidth 8 :: signature) := by
    rw [replicate_succ']
    simp only [append_assoc, cons_append, nil_append]
  have byte : (front ++ (List.replicate (padding.toNat + 1) (padding.setWidth 8) ++
      signature)).getD ((front ++ (List.replicate (padding.toNat + 1) (padding.setWidth 8) ++
        signature)).length - signature.length - 1) 0 = padding.setWidth 8 := by
    rw [size, split, getD_eq_getElem?_getD, getElem?_append_right (Nat.le_refl _), Nat.sub_self]
    rfl
  rw [byte, last, length_replicate]
  refine Prod.ext rfl ?_
  simp only [length_append, length_replicate, decide_eq_false_iff_not]
  omega

section Chunk

variable {policy : SecurityPolicy Context} {connection : SendConnection}
  {mc : MessageContext Context} {receiver : SecureChannel Context} {chunkType : ChunkType}
  {body : List Byte}
variable {signature : List Byte}

theorem sendSymmetricChunk_good
    (success : (sendSymmetricChunk policy connection mc chunkType body).status = good) :
    let result := sendSymmetricChunk policy connection mc chunkType body
    (buildChunk policy connection mc chunkType body).1 = good ∧
      result.chunks = [(buildChunk policy connection mc chunkType body).2] ∧
      result.context.channel =
        { mc.channel with sendSequenceNumber := mc.channel.sendSequenceNumber + 1 } ∧
      result.context.requestId = mc.requestId ∧ result.context.messageType = mc.messageType := by
  simp only [sendSymmetricChunk] at success ⊢
  split at success
  · exact absurd success (show ¬badResponseTooLarge = good by decide)
  · rename_i within
    rw [if_neg within]
    split at success
    · rename_i failed
      exact absurd success failed
    · rename_i built
      rw [if_neg built]
      exact ⟨not_not.mp built, rfl, rfl, rfl, rfl⟩

theorem buildChunk_good (success : (buildChunk policy connection mc chunkType body).1 = good) :
    ∃ signature cipher, (buildChunk policy connection mc chunkType body).2.bytes =
        chunkHeader policy mc chunkType body ++ cipher ∧
      signChunk policy mc.channel (chunkHeader policy mc chunkType body ++ chunkText policy mc body) =
        (good, signature) ∧
      encryptChunk policy mc.channel (chunkText policy mc body ++ signature) = (good, cipher) := by
  simp only [buildChunk, or_eq_good_iff] at success
  obtain ⟨⟨-, signed⟩, encrypted⟩ := success
  exact ⟨_, _, rfl, Prod.ext signed rfl, Prod.ext encrypted rfl⟩

variable (keys : SharedKeys policy mc.channel receiver) (paired : Paired mc.channel receiver)
  (symmetric : mc.messageType ≠ .opn)

include keys paired symmetric

omit paired symmetric in
theorem chunkText_blocks (encrypts : mc.channel.securityMode.encrypts = true)
    (size : signature.length = policy.symmetric.localSignatureSize mc.channel.context) :
    policy.symmetric.localBlockSize mc.channel.context ∣
      (chunkText policy mc body ++ signature).length := by
  obtain ⟨small, blocks⟩ := calculatePaddingSym_bounds policy mc.channel (body.length + 8)
    (keys.blockSize encrypts)
  have total : (chunkText policy mc body ++ signature).length =
      body.length + 8 + policy.symmetric.localSignatureSize mc.channel.context + 1 +
        (calculatePaddingSym policy mc.channel (body.length + 8)).toNat := by
    simp only [chunkText, chunkPadding, encrypts, if_true, length_append,
      sequenceHeaderWire_length, paddingBytes_small small, length_replicate, size]
    omega
  rwa [total]

omit keys in
theorem isSigned_receiver : isSigned receiver mc.messageType = mc.channel.securityMode.signs := by
  simp [isSigned, paired.securityMode, symmetric]

theorem signChunk_size {data : List Byte}
    (signed : signChunk policy mc.channel data = (good, signature)) :
    signature.length = signatureSize policy.symmetric receiver mc.messageType := by
  rw [signatureSize, isSigned_receiver paired symmetric]
  rw [signChunk] at signed
  by_cases signs : mc.channel.securityMode.signs = true
  · rw [if_pos signs] at signed
    have length := keys.sign_length data (by rw [signed])
    rw [signed] at length
    rw [if_pos signs, keys.signatureSize signs]
    exact length
  · rw [if_neg signs, Prod.mk.injEq] at signed
    rw [if_neg signs, ← signed.2]
    rfl

theorem encryptChunk_undone {cipher : List Byte}
    (size : signature.length = signatureSize policy.symmetric receiver mc.messageType)
    (encrypted : encryptChunk policy mc.channel (chunkText policy mc body ++ signature) =
      (good, cipher)) :
    cipher.length = (chunkText policy mc body ++ signature).length ∧
      decryptBody policy.symmetric receiver mc.messageType cipher =
        (good, chunkText policy mc body ++ signature) := by
  have opn : (mc.messageType == MessageType.opn) = false := by simpa using symmetric
  rw [decryptBody, paired.securityMode, opn, Bool.or_false]
  rw [encryptChunk] at encrypted
  by_cases encrypts : mc.channel.securityMode.encrypts = true
  · rw [if_pos encrypts] at encrypted ⊢
    have accepted : (policy.symmetric.encrypt mc.channel.context
        (chunkText policy mc body ++ signature)).1 = good := by rw [encrypted]
    have signs : mc.channel.securityMode.signs = true := by
      simp only [MessageSecurityMode.encrypts, beq_iff_eq] at encrypts
      simp [MessageSecurityMode.signs, encrypts]
    have localSize : signature.length = policy.symmetric.localSignatureSize mc.channel.context := by
      rw [size, signatureSize, isSigned_receiver paired symmetric, if_pos signs,
        keys.signatureSize signs]
    have length := keys.encrypt_length _ accepted
    have decrypted := keys.decrypt_encrypt _ (chunkText_blocks keys encrypts localSize) accepted
    rw [encrypted] at length decrypted
    exact ⟨length, decrypted⟩
  · rw [if_neg encrypts, Prod.mk.injEq] at encrypted
    rw [if_neg encrypts, ← encrypted.2]
    exact ⟨rfl, rfl⟩

theorem chunkPadding_removed (front content : List Byte)
    (size : signature.length = signatureSize policy.symmetric receiver mc.messageType) :
    paddingSize policy.symmetric receiver mc.messageType
      (front ++ (chunkPadding policy mc.channel content ++ signature))
      (front ++ (chunkPadding policy mc.channel content ++ signature)).length =
        ((chunkPadding policy mc.channel content).length, false) := by
  have opn : (mc.messageType == MessageType.opn) = false := by simpa using symmetric
  rw [paddingSize, paired.securityMode, opn, Bool.false_and, Bool.or_false, ← size, chunkPadding]
  by_cases encrypts : mc.channel.securityMode.encrypts = true
  · rw [if_pos encrypts, if_pos encrypts]
    exact removedPadding_wire policy.symmetric receiver front signature
      (calculatePaddingSym_bounds policy mc.channel _ (keys.blockSize encrypts)).1
      (keys.keyLength encrypts)
  · rw [if_neg encrypts, if_neg encrypts]
    rfl

theorem buildChunk_decrypts (success : (buildChunk policy connection mc chunkType body).1 = good) :
    decryptChunk policy.symmetric receiver mc.messageType
      (buildChunk policy connection mc chunkType body).2.bytes 16 =
        if body = [] then .error badSecurityChecksFailed
        else .ok ⟨mc.channel.sendSequenceNumber + 1, mc.requestId, body, false⟩ := by
  obtain ⟨signature, cipher, bytes, signed, encrypted⟩ := buildChunk_good success
  have size := signChunk_size keys paired symmetric signed
  have whole : chunkText policy mc body ++ signature =
      sequenceHeaderWire (mc.channel.sendSequenceNumber + 1) mc.requestId ++
        (body ++ (chunkPadding policy mc.channel body ++ signature)) := by
    simp only [chunkText, append_assoc]
  obtain ⟨cipherLength, decrypts⟩ := encryptChunk_undone keys paired symmetric size encrypted
  rw [whole] at decrypts cipherLength
  have padded := chunkPadding_removed keys paired symmetric (chunkHeader policy mc chunkType body ++
      (sequenceHeaderWire (mc.channel.sendSequenceNumber + 1) mc.requestId ++ body)) body size
  have text := decryptChunk_wire policy.symmetric receiver mc.messageType
    (chunkHeader policy mc chunkType body) cipher body (chunkPadding policy mc.channel body)
    signature (mc.channel.sendSequenceNumber + 1) mc.requestId decrypts
    (by rw [cipherLength]; simp only [length_append, sequenceHeaderWire_length]) size
    (by rw [cipherLength, ← length_append]; exact padded)
  rw [bytes]
  apply text
  intro signs
  rw [isSigned_receiver paired symmetric] at signs
  rw [signChunk, if_pos signs] at signed
  have verified := keys.verify_sign (chunkHeader policy mc chunkType body ++
    chunkText policy mc body) (by rw [signed])
  rwa [signed] at verified

omit symmetric in
theorem buildChunk_checked (sort : mc.messageType = .msg ∨ mc.messageType = .clo)
    (success : (buildChunk policy connection mc chunkType body).1 = good) :
    checkChunk policy receiver (buildChunk policy connection mc chunkType body).2.bytes =
      if body = [] then (.error badSecurityChecksFailed, receiver)
      else
        (.ok ⟨mc.messageType, some chunkType, receiver.securityToken.tokenId,
            mc.channel.sendSequenceNumber + 1, mc.requestId, body, false⟩,
          { receiver with receiveSequenceNumber := mc.channel.sendSequenceNumber + 1 }) := by
  have symmetric : mc.messageType ≠ .opn := by
    rcases sort with msg | clo
    · simp [msg]
    · simp [clo]
  have decrypted := buildChunk_decrypts keys paired symmetric success
  obtain ⟨signature, cipher, bytes, -, -⟩ := buildChunk_good success
  rw [bytes] at decrypted ⊢
  obtain ⟨message, token⟩ := symmetricHeaderWire_decodes (mc.messageType.code + chunkType.code)
    (BitVec.ofNat 32 (24 + body.length + (chunkPadding policy mc.channel body).length +
      localSignature policy mc.channel)) mc.channel.securityToken.channelId
    mc.channel.securityToken.tokenId cipher
  obtain ⟨messageCode, chunkCode⟩ := typeCodes mc.messageType chunkType
  have carries : CarriesToken receiver (chunkHeader policy mc chunkType body ++ cipher)
      receiver.securityToken.tokenId := by
    rw [paired.tokenId]
    refine .of_decodes message token (.inl paired.channelId.symm) ?_
    rw [messageCode, Option.some.injEq, Option.some.injEq]
    exact sort
  have type : headerMessageType (chunkHeader policy mc chunkType body ++ cipher) =
      some mc.messageType := by
    rw [headerMessageType, chunkHeader, message]
    exact messageCode
  have final : headerChunkType (chunkHeader policy mc chunkType body ++ cipher) =
      some chunkType := by
    rw [headerChunkType, chunkHeader, message]
    exact chunkCode
  have current := checkSymHeader_inUse policy receiver
  have follows : SequenceFollows receiver.receiveSequenceNumber
      (mc.channel.sendSequenceNumber + 1) := .inl (by rw [paired.sequenceNumber])
  rw [checkChunk_carries policy carries type, current, final]
  simp only [ne_eq, not_true_eq_false, if_false, authenticateChunk, decrypted]
  by_cases empty : body = []
  · simp only [if_pos empty]
  · simp only [if_neg empty, processSequenceNumberSym_eq, if_pos follows, not_true_eq_false,
      if_false]

end Chunk

def processAll (policy : SecurityPolicy Context)
    (callback : ProcessMessageCallback Context Application) (application : Application)
    (channel : SecureChannel Context) : List (List Byte) → List ProcessStep
  | [] => []
  | bytes :: rest =>
    let result := processChunk policy callback application channel bytes
    result.step :: processAll policy callback result.application result.channel rest

def DeliversOnce (steps : List ProcessStep) (delivery : Delivery) : Prop :=
  (∀ step ∈ steps, step.accepted.isSome = true) ∧ steps.flatMap ProcessStep.deliveries = [delivery]

theorem deliversOnce_cons_rejected (steps : List ProcessStep) (delivery : Delivery) :
    ¬DeliversOnce (⟨none, []⟩ :: steps) delivery := by
  intro delivers
  simpa using delivers.1 _ mem_cons_self

theorem deliversOnce_cons_silent (chunk : AcceptedChunk) (steps : List ProcessStep)
    (delivery : Delivery) :
    DeliversOnce (⟨some chunk, []⟩ :: steps) delivery ↔ DeliversOnce steps delivery := by
  simp [DeliversOnce]

theorem appendChunk_collectedBytes (chunks : List ChunkEntry) (requestId : BitVec 32)
    (body : List Byte) :
    collectedBytes (appendChunk chunks requestId body) requestId =
      collectedBytes chunks requestId ++ body := by
  rw [collectedBytes, appendChunk_find, if_pos rfl]
  rfl

variable {sender receiver : SecureChannel Context}

theorem SharedKeys.next {policy : SecurityPolicy Context} (keys : SharedKeys policy sender receiver)
    (sent received : BitVec 32) (chunks : List ChunkEntry) :
    SharedKeys policy { sender with sendSequenceNumber := sent }
      { receiver with receiveSequenceNumber := received, chunks } :=
  ⟨keys.signatureSize, keys.sign_length, keys.verify_sign, keys.blockSize, keys.keyLength,
    keys.encrypt_length, keys.decrypt_encrypt⟩

theorem Paired.next (paired : Paired sender receiver) (number : BitVec 32)
    (chunks : List ChunkEntry) :
    Paired { sender with sendSequenceNumber := number }
      { receiver with receiveSequenceNumber := number, chunks } :=
  ⟨paired.channelId, paired.tokenId, paired.securityMode, rfl⟩

section Message

variable (policy : SecurityPolicy Context) (connection : SendConnection)
  (callback : ProcessMessageCallback Context Application)

theorem finalChunk_delivered {mc : MessageContext Context} {receiver : SecureChannel Context}
    {body : List Byte} (application : Application) (keys : SharedKeys policy mc.channel receiver)
    (paired : Paired mc.channel receiver) (sort : mc.messageType = .msg ∨ mc.messageType = .clo)
    (success : (sendSymmetricChunk policy connection mc .final body).status = good) :
    DeliversOnce (processAll policy callback application receiver
      ((sendSymmetricChunk policy connection mc .final body).chunks.map SentChunk.bytes))
      ⟨mc.messageType, mc.requestId, collectedBytes receiver.chunks mc.requestId ++ body⟩ ↔
        body ≠ [] := by
  obtain ⟨built, chunks, -, -, -⟩ := sendSymmetricChunk_good success
  have checked := buildChunk_checked keys paired sort built
  rw [chunks, map_cons, map_nil]
  simp only [processAll]
  rw [processChunk, checked]
  by_cases empty : body = []
  · rw [if_pos empty]
    exact iff_of_false (deliversOnce_cons_rejected _ _) (not_not.mpr empty)
  · rw [if_neg empty]
    refine iff_of_true ?_ empty
    have message : ¬mc.messageType = .err := by
      rcases sort with msg | clo
      · simp [msg]
      · simp [clo]
    simp only [processPayload, if_neg message, finalizeChunk, deliver, ProcessResult.step]
    exact ⟨by simp, rfl⟩

theorem messageChunks_delivered (bodies : List (List Byte)) (last : List Byte) :
    ∀ (mc : MessageContext Context) (receiver : SecureChannel Context) (application : Application),
      SharedKeys policy mc.channel receiver → Paired mc.channel receiver →
      mc.messageType = .msg ∨ mc.messageType = .clo →
      (sendIntermediateChunks policy connection mc bodies).status = good →
      (sendSymmetricChunk policy connection
        (sendIntermediateChunks policy connection mc bodies).context .final last).status = good →
      (DeliversOnce (processAll policy callback application receiver
        (((sendIntermediateChunks policy connection mc bodies).chunks ++
          (sendSymmetricChunk policy connection
            (sendIntermediateChunks policy connection mc bodies).context .final last).chunks).map
              SentChunk.bytes))
        ⟨mc.messageType, mc.requestId,
          collectedBytes receiver.chunks mc.requestId ++ (bodies.flatten ++ last)⟩ ↔
        ∀ body ∈ bodies ++ [last], body ≠ []) := by
  induction bodies with
  | nil =>
    intro mc receiver application keys paired sort _ success
    have final := finalChunk_delivered policy connection callback application keys paired sort
      success
    simpa [sendIntermediateChunks] using final
  | cons body rest ih =>
    intro mc receiver application keys paired sort intermediate success
    simp only [sendIntermediateChunks] at intermediate success ⊢
    by_cases first : (sendSymmetricChunk policy connection mc .intermediate body).status ≠ good
    · rw [if_pos first] at intermediate
      exact absurd intermediate first
    · rw [if_neg first] at intermediate success ⊢
      obtain ⟨built, chunks, channel, requestId, messageType⟩ :=
        sendSymmetricChunk_good (not_not.mp first)
      have checked := buildChunk_checked keys paired sort built
      simp only [chunks, cons_append, nil_append, map_cons, processAll]
      rw [processChunk, checked]
      by_cases empty : body = []
      · rw [if_pos empty]
        refine iff_of_false (deliversOnce_cons_rejected _ _) fun all => ?_
        exact all body (by simp) empty
      · have message : ¬mc.messageType = .err := by
          rcases sort with msg | clo
          · simp [msg]
          · simp [clo]
        rw [if_neg empty]
        simp only [processPayload, if_neg message, ProcessResult.step]
        rw [deliversOnce_cons_silent]
        have others := ih (sendSymmetricChunk policy connection mc .intermediate body).context
          { receiver with
            receiveSequenceNumber := mc.channel.sendSequenceNumber + 1
            chunks := appendChunk receiver.chunks mc.requestId body } application
          (by rw [channel]; exact keys.next _ _ _) (by rw [channel]; exact paired.next _ _)
          (by rw [messageType]; exact sort) intermediate success
        rw [messageType, requestId, appendChunk_collectedBytes] at others
        simp only [flatten_cons, append_assoc] at others ⊢
        rw [others]
        simp [empty]

def chunkBodies (env : TypeEnv) (rounds : Nat) (sender : SecureChannel Context) (payload : Value)
    (payloadType : DataType) : List (List Byte) :=
  let ctx := (encodeMessage policy connection env rounds sender payload payloadType).2
  ctx.sent ++ [ctx.out]

end Message

def timestampWriteValue : Value :=
  .struct [.leaf (.nodeId .null), .leaf (.uint32 13), .leaf (.string .null),
    .dataValue ⟨none, some 0x1122334455667788, none, none, none⟩ false .variantEmpty]

def openConnection (sendBufferSize : BitVec 32) : SendConnection :=
  ⟨false, sendBufferSize, 0, 0, fun _ => good⟩

def sendingChannel : SecureChannel Unit := { idleChannel with sendSequenceNumber := 0 }

def arrayWriteValue : Value :=
  .struct [.leaf (.nodeId ⟨1, .numeric 100000⟩), .leaf (.uint32 13), .leaf (.string .null),
    .dataValue ⟨some good, none, none, none, none⟩ true
      (.variantArray doubleType false [.leaf (.uint64 1), .leaf (.uint64 2)] [])]

end OpcUa
