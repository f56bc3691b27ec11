import Mathlib.Data.List.GetD
import OpcUa.CalcSizeExact
import OpcUa.DecryptBounds
import OpcUa.SecureChannelSend

/-!
`UA_SecureChannel_sendAsymmetricOPNMessage`, and when the receiver of an OPN message removes the
padding that the sender has put behind it.
-/

namespace OpcUa

open LittleEndian StatusCode List

variable {Context : Type}

/-- What an OPN message takes from the asymmetric module and from the channel besides the members
of `CryptoModule`. -/
structure AsymmetricSettings (Context : Type) where
  remotePlainTextBlockSize : Context → Nat
  localCertificate : UaString
  remoteCertificateThumbprint : Fin 20 → Byte

structure OpnResult (Context : Type) where
  status : StatusCode
  channel : SecureChannel Context
  chunk : Option (List Byte)

section Sending

variable (policy : SecurityPolicy Context) (settings : AsymmetricSettings Context)
  (connection : SendConnection) (channel : SecureChannel Context)

def longRemoteKey : Bool :=
  decide (policy.asymmetric.remoteEncryptionKeyLength channel.context > 2048)

def calculatePaddingAsym (bytesToWrite : Nat) : BitVec 16 :=
  let plainTextBlockSize := settings.remotePlainTextBlockSize channel.context
  let signatureSize := policy.asymmetric.localSignatureSize channel.context
  let paddingBytes := if longRemoteKey policy channel then 2 else 1
  BitVec.ofNat 16
    (plainTextBlockSize - (bytesToWrite + signatureSize + paddingBytes) % plainTextBlockSize)

/-- The padding behind a body. There is none if `calculatePaddingAsym` divides by zero, or if the
loop that writes it does not end. -/
def opnPadding (bodyLength : Nat) : Option (List Byte) :=
  if channel.securityMode.signs then
    let padding := calculatePaddingAsym policy settings channel (bodyLength + 8)
    if settings.remotePlainTextBlockSize channel.context = 0 ∨ padding.toNat = 65535 then none
    else
      some (List.replicate (padding.toNat + 1) (padding.setWidth 8) ++
        if longRemoteKey policy channel then [(padding >>> 8).setWidth 8] else [])
  else some []

def asymmetricSecurityHeaderLength : Nat :=
  12 + policy.policyUri.bytes.length +
    if channel.securityMode.signs then 20 + settings.localCertificate.bytes.length else 0

def encryptionOverhead (maxEncryptionLength : Nat) : Nat :=
  let plainTextBlockSize := settings.remotePlainTextBlockSize channel.context
  if maxEncryptionLength = 0 ∨ plainTextBlockSize = 0 then 0
  else
    maxEncryptionLength / plainTextBlockSize *
      (policy.asymmetric.remoteBlockSize channel.context - plainTextBlockSize)

/-- The space for the body that `hideBytesAsym` leaves, in a buffer that holds the headers. -/
def opnCapacity : Nat :=
  let start := 20 + asymmetricSecurityHeaderLength policy settings channel
  let size := connection.sendBufferSize.toNat
  let hidden :=
    if channel.securityMode.signs then
      policy.asymmetric.localSignatureSize channel.context + 2 +
        encryptionOverhead policy settings channel (size - start + 8)
    else 0
  size - hidden - start

def encodeOpn (env : TypeEnv) (content : Value) (contentType : DataType) : StatusCode × Ctx :=
  let first := uaEncodeBinary env
    (.leaf (.nodeId ⟨0, .numeric (contentType.binaryEncodingId.setWidth 32)⟩)) nodeIdType
    ⟨[], [], opnCapacity policy settings connection channel, none, false⟩
  let second := uaEncodeBinary env content contentType first.2
  (first.1 ||| second.1, second.2)

def asymmetricHeaderWire : List Byte :=
  stringWire policy.policyUri ++
    if channel.securityMode.signs then
      stringWire settings.localCertificate ++
        stringWire (.alloc (List.ofFn settings.remoteCertificateThumbprint))
    else stringWire .null ++ stringWire .null

def opnFront (encryptedLength : Nat) : List Byte :=
  let unencrypted := 12 + asymmetricSecurityHeaderLength policy settings channel
  leBytes 4 (MessageType.opn.code + ChunkType.final.code).toNat ++
    leBytes 4 (BitVec.ofNat 32 (unencrypted + encryptedLength +
      encryptionOverhead policy settings channel encryptedLength)).toNat ++
    leBytes 4 channel.securityToken.channelId.toNat ++ asymmetricHeaderWire policy settings channel

/-- `UA_SecureChannel_sendAsymmetricOPNMessage`. The body was encoded behind the headers, so there is
space for these. -/
def sendAsymmetricOPNMessage (env : TypeEnv) (requestId : BitVec 32) (content : Value)
    (contentType : DataType) : Option (OpnResult Context) :=
  if channel.securityMode = .invalid then some ⟨badSecurityModeRejected, channel, none⟩
  else
    match encodeOpn policy settings connection channel env content contentType with
    | (status, ctx) =>
      if status ≠ good then some ⟨status, channel, none⟩
      else
        match opnPadding policy settings channel ctx.out.length with
        | none => none
        | some padding =>
          let signs := channel.securityMode.signs
          let text := sequenceHeaderWire (channel.sendSequenceNumber + 1) requestId ++
            (ctx.out ++ padding)
          let front := opnFront policy settings channel (text.length +
            if signs then policy.asymmetric.localSignatureSize channel.context else 0)
          let numbered := { channel with sendSequenceNumber := channel.sendSequenceNumber + 1 }
          match if signs then policy.asymmetric.sign channel.context (front ++ text)
            else (good, []) with
          | (status, signature) =>
            if status ≠ good then some ⟨status, numbered, none⟩
            else
              match if signs then
                  policy.asymmetric.encrypt channel.context (text ++ signature)
                else (good, text) with
              | (status, cipher) =>
                if status ≠ good then some ⟨status, numbered, none⟩
                else some ⟨connection.send (front ++ cipher), numbered, some (front ++ cipher)⟩

end Sending

/-- What is assumed of the asymmetric module: decryption undoes encryption, what was signed is
verified, and a block of plain text is shorter than the key. -/
structure SharedAsymmetricKeys (policy : SecurityPolicy Context)
    (settings : AsymmetricSettings Context) (sender receiver : SecureChannel Context) : Prop where
  signatureSize : policy.asymmetric.remoteSignatureSize receiver.context =
    policy.asymmetric.localSignatureSize sender.context
  sign_length : ∀ data, (policy.asymmetric.sign sender.context data).1 = good →
    (policy.asymmetric.sign sender.context data).2.length =
      policy.asymmetric.localSignatureSize sender.context
  verify_sign : ∀ data, (policy.asymmetric.sign sender.context data).1 = good →
    policy.asymmetric.verify receiver.context data (policy.asymmetric.sign sender.context data).2 =
      good
  decrypt_encrypt : ∀ data, (policy.asymmetric.encrypt sender.context data).1 = good →
    policy.asymmetric.decrypt receiver.context (policy.asymmetric.encrypt sender.context data).2 =
      (good, data)
  blockSize : 8 * settings.remotePlainTextBlockSize sender.context <
    policy.asymmetric.remoteEncryptionKeyLength sender.context

theorem getD_back (before padding after : List Byte) {back : Nat} (inside : back < padding.length) :
    (before ++ (padding ++ after)).getD (before.length + padding.length - 1 - back) 0 =
      padding.getD (padding.length - 1 - back) 0 := by
  rw [getD_append_right _ _ _ _ (by omega), getD_append _ _ _ _ (by omega)]
  congr 1
  omega

theorem removedPadding_back (module : CryptoModule Context) (receiver : SecureChannel Context)
    (before padding after : List Byte) {size sigsize : Nat}
    (ends : size = before.length + padding.length + sigsize) (two : 2 ≤ padding.length) :
    (removedPadding module receiver (before ++ (padding ++ after)) size sigsize).1 =
      if module.remoteEncryptionKeyLength receiver.context > 2048 then
        (padding.getD (padding.length - 1) 0).toNat * 256 +
          (padding.getD (padding.length - 2) 0).toNat + 2
      else (padding.getD (padding.length - 1) 0).toNat + 1 := by
  have last : size - sigsize - 1 = before.length + padding.length - 1 - 0 := by omega
  have second : size - sigsize - 2 = before.length + padding.length - 1 - 1 := by omega
  rw [removedPadding, last, second]
  rw [getD_back before padding after (by omega), getD_back before padding after (by omega)]
  split
  · rfl
  · rfl

section Padding

variable {policy : SecurityPolicy Context} {settings : AsymmetricSettings Context}
  {sender receiver : SecureChannel Context}

section

variable {bodyLength : Nat} {padding : List Byte} (signs : sender.securityMode.signs = true)
  (block : 8 * settings.remotePlainTextBlockSize sender.context <
    policy.asymmetric.remoteEncryptionKeyLength sender.context)
  (padded : opnPadding policy settings sender bodyLength = some padding)
include signs block padded

theorem opnPadding_some : ∃ amount : BitVec 16,
      padding = List.replicate (amount.toNat + 1) (amount.setWidth 8) ++
        (if longRemoteKey policy sender then [(amount >>> 8).setWidth 8] else []) ∧
      (longRemoteKey policy sender = false → 0 < amount.toNat ∧ amount.toNat < 256) := by
  rw [opnPadding, if_pos signs] at padded
  dsimp only at padded
  split at padded
  · cases padded
  · rename_i regular
    obtain ⟨positive, -⟩ := not_or.mp regular
    refine ⟨_, (Option.some.inj padded).symm, fun short => ?_⟩
    rw [longRemoteKey, decide_eq_false_iff_not] at short
    have rest := Nat.mod_lt (bodyLength + 8 + policy.asymmetric.localSignatureSize sender.context +
      if longRemoteKey policy sender then 2 else 1) (Nat.pos_of_ne_zero positive)
    rw [calculatePaddingAsym, BitVec.toNat_ofNat]
    omega

theorem removedPadding_opn (before after : List Byte) {size sigsize : Nat}
    (ends : size = before.length + padding.length + sigsize) :
    (removedPadding policy.asymmetric receiver (before ++ (padding ++ after)) size sigsize).1 =
      padding.length ↔ longRemoteKey policy sender = longRemoteKey policy receiver := by
  obtain ⟨amount, rfl, small⟩ := opnPadding_some signs block padded
  have bound := amount.isLt
  have low : (amount.setWidth 8).toNat = amount.toNat % 256 := BitVec.toNat_setWidth ..
  have high : ((amount >>> 8).setWidth 8).toNat = amount.toNat / 256 := by
    rw [BitVec.toNat_setWidth, BitVec.toNat_ushiftRight, Nat.shiftRight_eq_div_pow]
    omega
  have same (index : Nat) (inside : index < amount.toNat + 1) :
      (List.replicate (amount.toNat + 1) (amount.setWidth 8)).getD index 0 = amount.setWidth 8 :=
    getD_replicate _ inside
  cases long : longRemoteKey policy sender with
  | true =>
    rw [long] at ends
    rw [if_pos rfl] at ends ⊢
    have length : (List.replicate (amount.toNat + 1) (amount.setWidth 8) ++
        [(amount >>> 8).setWidth 8]).length = amount.toNat + 2 := by simp
    have last : (List.replicate (amount.toNat + 1) (amount.setWidth 8) ++
        [(amount >>> 8).setWidth 8]).getD (amount.toNat + 2 - 1) 0 = (amount >>> 8).setWidth 8 := by
      simp
    have second : (List.replicate (amount.toNat + 1) (amount.setWidth 8) ++
        [(amount >>> 8).setWidth 8]).getD (amount.toNat + 2 - 2) 0 = amount.setWidth 8 := by
      rw [getD_append _ _ _ _ (by simp)]
      exact same _ (by omega)
    rw [removedPadding_back policy.asymmetric receiver before _ after ends (by omega), length, last,
      second, low, high, longRemoteKey]
    by_cases wide : policy.asymmetric.remoteEncryptionKeyLength receiver.context > 2048
    · rw [if_pos wide, decide_eq_true wide]
      exact iff_of_true (by omega) rfl
    · rw [if_neg wide, decide_eq_false wide]
      exact iff_of_false (by omega) (by decide)
  | false =>
    obtain ⟨positive, little⟩ := small long
    rw [long] at ends
    rw [if_neg (by decide), append_nil] at ends ⊢
    have length : (List.replicate (amount.toNat + 1) (amount.setWidth 8)).length =
        amount.toNat + 1 := length_replicate
    rw [removedPadding_back policy.asymmetric receiver before _ after ends (by omega), length,
      same _ (by omega), same _ (by omega), low, longRemoteKey]
    by_cases wide : policy.asymmetric.remoteEncryptionKeyLength receiver.context > 2048
    · rw [if_pos wide, decide_eq_true wide]
      exact iff_of_false (by omega) (by decide)
    · rw [if_neg wide, decide_eq_false wide]
      exact iff_of_true (by omega) rfl

end

end Padding

section Message

variable {policy : SecurityPolicy Context} {settings : AsymmetricSettings Context}
  {connection : SendConnection} {sender receiver : SecureChannel Context} {env : TypeEnv}
  {requestId : BitVec 32} {content : Value} {contentType : DataType}

theorem encodeOpn_nonempty
    (encoded : (encodeOpn policy settings connection sender env content contentType).1 = good) :
    (encodeOpn policy settings connection sender env content contentType).2.out ≠ [] := by
  rw [encodeOpn, or_eq_good_iff] at encoded
  obtain ⟨first, second⟩ := encoded
  obtain ⟨-, typeId, room⟩ := (uaEncodeBinary_writes env _ nodeIdType).good_only _ rfl
    (Nat.zero_le _) first
  rw [encodeOpn]
  rw [typeId] at second ⊢
  obtain ⟨-, whole, -⟩ := (uaEncodeBinary_writes env content contentType).good_only _ rfl
    (by simpa using room) second
  rw [whole]
  simp only [Ctx.push_out, nil_append, ne_eq, append_eq_nil_iff, not_and]
  intro nothing
  have size := nodeIdWire_length 0 ⟨0, .numeric (contentType.binaryEncodingId.setWidth 32)⟩
  have none : nodeIdWire 0 ⟨0, .numeric (contentType.binaryEncodingId.setWidth 32)⟩ = [] := nothing
  rw [none, nodeIdCalcSizeBinary, length_nil] at size
  omega

theorem stringWire_bytes (text : UaString) : (stringWire text).length = 4 + text.bytes.length := by
  rw [stringWire_length, stringCalcSizeBinary, UaString.length]

theorem opnFront_length (encryptedLength : Nat) :
    (opnFront policy settings sender encryptedLength).length =
      12 + asymmetricSecurityHeaderLength policy settings sender := by
  have thumbprint : (UaString.alloc (List.ofFn settings.remoteCertificateThumbprint)).bytes.length =
      20 := length_ofFn
  rw [opnFront, asymmetricHeaderWire, asymmetricSecurityHeaderLength]
  simp only [length_append, leBytes_length, stringWire_bytes]
  split
  · rw [length_append, stringWire_bytes, stringWire_bytes, thumbprint]
    omega
  · rw [length_append, stringWire_bytes]
    simp only [UaString.bytes, length_nil]
    omega

theorem plainMemory_decrypts {module : CryptoModule Context} {messageType : MessageType}
    {cipher text : List Byte} (front : List Byte)
    (decrypts : decryptBody module receiver messageType cipher = (good, text)) :
    plainMemory module receiver messageType (front ++ cipher) front.length =
        front ++ (text ++ cipher.drop text.length) ∧
      plainSize module receiver messageType (front ++ cipher) front.length =
        front.length + text.length := by
  constructor
  · rw [plainMemory, drop_left, decrypts, take_left, drop_length_add_append, append_assoc]
  · rw [plainSize, drop_left, decrypts]

section Plain

variable {module : CryptoModule Context} {messageType : MessageType}
  {front cipher payload padding signature : List Byte} {number : BitVec 32}

theorem plainMemory_padded (front : List Byte)
    (decrypts : decryptBody module receiver messageType cipher = (good,
      sequenceHeaderWire number requestId ++ (payload ++ (padding ++ signature))))
    (signed : signature.length = signatureSize module receiver messageType) :
    (∃ rest, plainMemory module receiver messageType (front ++ cipher) front.length =
        (front ++ (sequenceHeaderWire number requestId ++ payload)) ++
          (padding ++ (signature ++ rest))) ∧
      plainSize module receiver messageType (front ++ cipher) front.length =
        (front ++ (sequenceHeaderWire number requestId ++ payload)).length + padding.length +
          signatureSize module receiver messageType := by
  obtain ⟨memory, size⟩ := plainMemory_decrypts front decrypts
  generalize cipher.drop _ = rest at memory
  constructor
  · refine ⟨rest, memory.trans ?_⟩
    simp only [append_assoc]
  · rw [size]
    simp only [length_append]
    omega

section

variable
  (decrypts : decryptBody module receiver messageType cipher =
    (good, sequenceHeaderWire number requestId ++ (payload ++ (padding ++ signature))))
include decrypts

theorem verifyBody_plain (signed : signature.length = signatureSize module receiver messageType)
    (padded : paddingSize module receiver messageType (plainMemory module receiver messageType
      (front ++ cipher) front.length) (plainSize module receiver messageType (front ++ cipher)
      front.length) = (padding.length, false))
    (verified : module.verify receiver.context
      (front ++ (sequenceHeaderWire number requestId ++ (payload ++ padding))) signature = good) :
    verifyBody module receiver messageType
      (plainMemory module receiver messageType (front ++ cipher) front.length)
      (plainSize module receiver messageType (front ++ cipher) front.length) front.length = good := by
  obtain ⟨⟨rest, memory⟩, size⟩ := plainMemory_padded front decrypts signed
  have cut : plainMemory module receiver messageType (front ++ cipher) front.length =
      (front ++ (sequenceHeaderWire number requestId ++ (payload ++ padding))) ++
        (signature ++ rest) := by
    rw [memory]
    simp only [append_assoc]
  have before : (front ++ (sequenceHeaderWire number requestId ++ payload)).length +
      padding.length + signature.length - signature.length =
        (front ++ (sequenceHeaderWire number requestId ++ (payload ++ padding))).length := by
    simp only [length_append]
    omega
  have inside : ¬front.length + padding.length + signature.length ≥
      (front ++ (sequenceHeaderWire number requestId ++ payload)).length + padding.length +
        signature.length := by
    simp only [length_append, sequenceHeaderWire_length]
    omega
  rw [verifyBody]
  split
  · rfl
  · rw [padded]
    rw [size, ← signed, if_neg inside, before, cut, take_left, drop_left, take_left]
    exact verified

theorem decryptChunk_plain
    (shrinks : 8 + (payload.length + (padding.length + signature.length)) ≤ cipher.length)
    (signed : signature.length = signatureSize module receiver messageType)
    (padded : paddingSize module receiver messageType (plainMemory module receiver messageType
      (front ++ cipher) front.length) (plainSize module receiver messageType (front ++ cipher)
      front.length) = (padding.length, false))
    (verified : module.verify receiver.context
      (front ++ (sequenceHeaderWire number requestId ++ (payload ++ padding))) signature = good)
    (nonempty : payload ≠ []) :
    decryptChunk module receiver messageType (front ++ cipher) front.length =
      .ok ⟨number, requestId, payload, false⟩ := by
  have positive := length_pos_iff.mpr nonempty
  have verifies := verifyBody_plain decrypts signed padded verified
  obtain ⟨memory, size⟩ := plainMemory_decrypts front decrypts
  simp only [append_assoc, length_append, sequenceHeaderWire_length] at memory size
  generalize cipher.drop (8 + (payload.length + (padding.length + signature.length))) = rest at memory
  have decodes := sequenceHeaderWire_decodes front
    (payload ++ (padding ++ (signature ++ rest))) number requestId
  rw [← memory] at decodes
  rw [decryptChunk_eq, drop_left, decrypts, if_neg (not_not.mpr rfl),
    if_neg (not_not.mpr verifies), decodes, Res.ok, if_neg (not_not.mpr rfl), removedBytes, padded,
    ← signed, size, if_neg (by simp only [length_append]; omega)]
  have count : front.length + (8 + (payload.length + (padding.length + signature.length))) -
      (front.length + 8) - (signature.length + padding.length) = payload.length := by omega
  have behind : (front ++ (sequenceHeaderWire number requestId ++ (payload ++ (padding ++
      (signature ++ rest))))).drop (front.length + 8) =
        payload ++ (padding ++ (signature ++ rest)) := by
    rw [← append_assoc, drop_left' (by simp)]
  have inside : decide (front.length + (8 + (payload.length +
      (padding.length + signature.length))) <
        front.length + 8 + (signature.length + padding.length)) = false := by
    rw [decide_eq_false_iff_not]
    omega
  rw [memory, behind, count, take_left, inside]
  rfl

end

end Plain

theorem sendAsymmetricOPNMessage_chunk {result : OpnResult Context} {chunk : List Byte}
    (signs : sender.securityMode.signs = true)
    (sent : sendAsymmetricOPNMessage policy settings connection sender env requestId content
      contentType = some result) (handed : result.chunk = some chunk) :
    let body := (encodeOpn policy settings connection sender env content contentType).2.out
    let number := sender.sendSequenceNumber + 1
    body ≠ [] ∧
      ∃ front padding, front.length = 12 + asymmetricSecurityHeaderLength policy settings sender ∧
        opnPadding policy settings sender body.length = some padding ∧
        let text := sequenceHeaderWire number requestId ++ (body ++ padding)
        let signature := policy.asymmetric.sign sender.context (front ++ text)
        let cipher := policy.asymmetric.encrypt sender.context (text ++ signature.2)
        signature.1 = good ∧ cipher.1 = good ∧ chunk = front ++ cipher.2 := by
  intro body number
  rw [sendAsymmetricOPNMessage] at sent
  split at sent
  · cases sent
    cases handed
  dsimp only at sent
  split at sent
  · cases sent
    cases handed
  rename_i encoded
  refine ⟨encodeOpn_nonempty (not_not.mp encoded), ?_⟩
  split at sent
  · cases sent
  rename_i padding padded
  split at sent
  · cases sent
    cases handed
  rename_i signed
  split at sent
  · cases sent
    cases handed
  rename_i encrypted
  cases sent
  exact ⟨_, padding, opnFront_length _, padded, not_not.mp signed, not_not.mp encrypted,
    (Option.some.inj handed).symm⟩

theorem paddingSize_opn (module : CryptoModule Context)
    (receiverMode : receiver.securityMode.signs = true) (memory : List Byte) (size : Nat) :
    paddingSize module receiver .opn memory size =
      removedPadding module receiver memory size (signatureSize module receiver .opn) := by
  have above : receiver.securityMode.aboveNone = true := by
    cases mode : receiver.securityMode with
    | sign => rfl
    | signAndEncrypt => rfl
    | invalid => simp [mode, MessageSecurityMode.signs] at receiverMode
    | none => simp [mode, MessageSecurityMode.signs] at receiverMode
    | other value => simp [mode, MessageSecurityMode.signs] at receiverMode
  rw [paddingSize, above, Bool.and_true, beq_self_eq_true, Bool.or_true, if_pos rfl]

theorem removedPadding_inside (module : CryptoModule Context) (receiver : SecureChannel Context)
    (memory : List Byte) {size sigsize : Nat} (room : sigsize + 2 ≤ size) :
    (removedPadding module receiver memory size sigsize).2 = false := by
  rw [removedPadding]
  split
  · rw [decide_eq_false_iff_not]
    omega
  · rw [decide_eq_false_iff_not]
    omega

/-- What the receiver removes from the chunk is the padding of the sender, and it obtains the body
of the sender. -/
structure PaddingUndone (policy : SecurityPolicy Context) (settings : AsymmetricSettings Context)
    (sender receiver : SecureChannel Context) (requestId : BitVec 32) (body chunk : List Byte) :
    Prop where
  padding :
    let offset := 12 + asymmetricSecurityHeaderLength policy settings sender
    (opnPadding policy settings sender body.length).map List.length =
      some (paddingSize policy.asymmetric receiver .opn
        (plainMemory policy.asymmetric receiver .opn chunk offset)
        (plainSize policy.asymmetric receiver .opn chunk offset)).1
  body : decryptChunk policy.asymmetric receiver .opn chunk
      (12 + asymmetricSecurityHeaderLength policy settings sender) =
    .ok ⟨sender.sendSequenceNumber + 1, requestId, body, false⟩

/-- The padding of an OPN message is undone exactly when the two sides agree on whether the key of
the respective other side is a long one. -/
theorem opnPadding_undone_iff (env : TypeEnv) (requestId : BitVec 32) (content : Value)
    (contentType : DataType) (keys : SharedAsymmetricKeys policy settings sender receiver)
    (senderMode : sender.securityMode.signs = true)
    (receiverMode : receiver.securityMode.signs = true) {result : OpnResult Context}
    {chunk : List Byte}
    (sent : sendAsymmetricOPNMessage policy settings connection sender env requestId content
      contentType = some result) (handed : result.chunk = some chunk) :
    PaddingUndone policy settings sender receiver requestId
        (encodeOpn policy settings connection sender env content contentType).2.out chunk ↔
      longRemoteKey policy sender = longRemoteKey policy receiver := by
  obtain ⟨nonempty, front, padding, offset, padded, signed, encrypted, rfl⟩ :=
    sendAsymmetricOPNMessage_chunk senderMode sent handed
  generalize (encodeOpn policy settings connection sender env content contentType).2.out = body at *
  set number := sender.sendSequenceNumber + 1
  set text := sequenceHeaderWire number requestId ++ (body ++ padding) with textBytes
  have signatureLength := keys.sign_length _ signed
  have verified := keys.verify_sign _ signed
  generalize (policy.asymmetric.sign sender.context (front ++ text)).2 = signature at *
  have decrypted := keys.decrypt_encrypt _ encrypted
  generalize (policy.asymmetric.encrypt sender.context (text ++ signature)).2 = cipher at *
  have size : signature.length = signatureSize policy.asymmetric receiver .opn := by
    rw [signatureSize, isSigned, Bool.or_comm, beq_self_eq_true, Bool.true_or, if_pos rfl,
      keys.signatureSize, signatureLength]
  have decrypts : decryptBody policy.asymmetric receiver .opn cipher = (good,
      sequenceHeaderWire number requestId ++ (body ++ (padding ++ signature))) := by
    rw [decryptBody, beq_self_eq_true, Bool.or_true, if_pos rfl, decrypted, textBytes]
    simp only [append_assoc]
  have shrinks : 8 + (body.length + (padding.length + signature.length)) ≤ cipher.length := by
    have bound := policy.asymmetric.decrypt_length receiver.context cipher
    rw [decrypted, textBytes] at bound
    simp only [length_append, sequenceHeaderWire_length] at bound
    omega
  obtain ⟨⟨rest, memory⟩, total⟩ := plainMemory_padded front decrypts size
  have counted : (paddingSize policy.asymmetric receiver .opn
      (plainMemory policy.asymmetric receiver .opn (front ++ cipher) front.length)
      (plainSize policy.asymmetric receiver .opn (front ++ cipher) front.length)).1 =
        padding.length ↔ longRemoteKey policy sender = longRemoteKey policy receiver := by
    rw [paddingSize_opn policy.asymmetric receiverMode, memory]
    exact removedPadding_opn senderMode keys.blockSize padded _ _ total
  have calm : (paddingSize policy.asymmetric receiver .opn
      (plainMemory policy.asymmetric receiver .opn (front ++ cipher) front.length)
      (plainSize policy.asymmetric receiver .opn (front ++ cipher) front.length)).2 = false := by
    rw [paddingSize_opn policy.asymmetric receiverMode]
    refine removedPadding_inside policy.asymmetric receiver _ ?_
    rw [total]
    simp only [length_append, sequenceHeaderWire_length]
    omega
  constructor
  · intro undone
    have same := undone.padding
    rw [padded, ← offset, Option.map_some, Option.some.injEq] at same
    exact counted.mp same.symm
  · intro agree
    have same := counted.mpr agree
    constructor
    · rw [padded, ← offset]
      exact congrArg some same.symm
    · rw [← offset]
      refine decryptChunk_plain decrypts shrinks size (Prod.ext same calm) ?_ nonempty
      exact verified

end Message

def cryptoModuleKeyed : CryptoModule Nat where
  encrypt _ data := (good, data)
  decrypt _ data := (good, data)
  decrypt_length _ data := Nat.le_refl data.length
  sign _ _ := (good, [1, 2, 3, 4])
  verify _ _ _ := good
  localSignatureSize _ := 4
  remoteSignatureSize _ := 4
  localSigningKeyLength _ := 0
  remoteSigningKeyLength _ := 0
  localEncryptionKeyLength _ := 0
  remoteEncryptionKeyLength key := key
  localBlockSize _ := 16
  remoteBlockSize _ := 16

def securityPolicyKeyed : SecurityPolicy Nat where
  policyUri := .alloc [0x42]
  symmetric := cryptoModuleKeyed
  asymmetric := cryptoModuleKeyed
  compareCertificateThumbprint _ := good
  verifyCertificate _ := good
  newContext _ := (good, 2048)
  makeCertificateThumbprint _ := good
  generateKey _ _ length := (good, List.replicate length 0)
  setLocalSymSigningKey context _ := (good, context)
  setLocalSymEncryptingKey context _ := (good, context)
  setLocalSymIv context _ := (good, context)
  setRemoteSymSigningKey context _ := (good, context)
  setRemoteSymEncryptingKey context _ := (good, context)
  setRemoteSymIv context _ := (good, context)

def keyedSettings : AsymmetricSettings Nat := ⟨fun _ => 16, .alloc [0x43], fun _ => 0⟩

def keyedChannel (remoteKeyLength : Nat) : SecureChannel Nat where
  state := .fresh
  securityMode := .sign
  securityToken := .init
  nextSecurityToken := .init
  context := remoteKeyLength
  remoteNonce := []
  localNonce := []
  receiveSequenceNumber := 0
  sendSequenceNumber := 0
  chunks := []

def wideConnection : SendConnection := ⟨false, 8192, 0, 0, fun _ => good⟩

def keyedResult (remoteKeyLength : Nat) : Option (OpnResult Nat) :=
  sendAsymmetricOPNMessage securityPolicyKeyed keyedSettings wideConnection
    (keyedChannel remoteKeyLength) sampleEnv 7 (.leaf (.nodeId .null)) nodeIdType

def keyedBody : List Byte :=
  (encodeOpn securityPolicyKeyed keyedSettings wideConnection (keyedChannel 2048) sampleEnv
    (.leaf (.nodeId .null)) nodeIdType).2.out

def keyedChunk (remoteKeyLength : Nat) : List Byte :=
  ((keyedResult remoteKeyLength).bind OpnResult.chunk).getD []

theorem keyedChannel_sharedKeys (sender receiver : Nat) (long : 128 < sender) :
    SharedAsymmetricKeys securityPolicyKeyed keyedSettings (keyedChannel sender)
      (keyedChannel receiver) where
  signatureSize := rfl
  sign_length _ _ := rfl
  verify_sign _ _ := rfl
  decrypt_encrypt _ _ := rfl
  blockSize := long

/-- The receiver has a long key and the sender has not: fifteen bytes of padding stay behind the
body. The other way around the chunk is refused. -/
theorem keyLengths_differ :
    SharedAsymmetricKeys securityPolicyKeyed keyedSettings (keyedChannel 4096) (keyedChannel 2048) ∧
    (keyedResult 4096).bind OpnResult.chunk = some (keyedChunk 4096) ∧
    (decryptChunk cryptoModuleKeyed (keyedChannel 2048) .opn (keyedChunk 4096) 46).toOption =
      some ⟨1, 7, keyedBody ++ List.replicate 15 14, false⟩ ∧
    ¬PaddingUndone securityPolicyKeyed keyedSettings (keyedChannel 4096) (keyedChannel 2048) 7
      keyedBody (keyedChunk 4096) ∧
    (keyedResult 2048).bind OpnResult.chunk = some (keyedChunk 2048) ∧
    (decryptChunk cryptoModuleKeyed (keyedChannel 4096) .opn (keyedChunk 2048) 46).toOption = none := by
  have extra : (decryptChunk cryptoModuleKeyed (keyedChannel 2048) .opn (keyedChunk 4096)
      46).toOption = some ⟨1, 7, keyedBody ++ List.replicate 15 14, false⟩ := by decide +kernel
  refine ⟨keyedChannel_sharedKeys 4096 2048 (by decide), by decide +kernel, extra, fun undone => ?_,
    by decide +kernel, by decide +kernel⟩
  have body : decryptChunk cryptoModuleKeyed (keyedChannel 2048) .opn (keyedChunk 4096) 46 =
      .ok ⟨1, 7, keyedBody, false⟩ := undone.body
  rw [body] at extra
  exact absurd extra (by decide +kernel)

theorem keyLengths_agree :
    PaddingUndone securityPolicyKeyed keyedSettings (keyedChannel 2048) (keyedChannel 1024) 7
      keyedBody (keyedChunk 2048) := by
  have both : (keyedResult 2048).bind OpnResult.chunk = some (keyedChunk 2048) := by decide +kernel
  obtain ⟨result, sent, handed⟩ := Option.bind_eq_some_iff.mp both
  exact (opnPadding_undone_iff sampleEnv 7 (.leaf (.nodeId .null)) nodeIdType
    (keyedChannel_sharedKeys 2048 1024 (by decide)) rfl rfl sent handed).mpr rfl

end OpcUa
