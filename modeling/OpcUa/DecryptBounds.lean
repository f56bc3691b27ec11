import OpcUa.SecureChannelChecks

/-!
Which bytes of a chunk `decryptChunk` looks at, on all its ways. The positions are integers, so that
one in front of the chunk can be told.
-/

namespace OpcUa

open LittleEndian StatusCode List

variable {Context : Type}

/-! The bytes that are read -/

structure Region where
  start : Int
  length : Int
deriving DecidableEq, Repr

structure Region.Within (region : Region) (size : Nat) : Prop where
  start : 0 ≤ region.start
  length : 0 ≤ region.length
  stop : region.start + region.length ≤ size

section Regions

variable (module : CryptoModule Context) (channel : SecureChannel Context)
  (messageType : MessageType)

def plainMemory (chunk : List Byte) (offset : Nat) : List Byte :=
  let text := (decryptBody module channel messageType (chunk.drop offset)).2
  chunk.take offset ++ text ++ chunk.drop (offset + text.length)

def plainSize (chunk : List Byte) (offset : Nat) : Nat :=
  offset + (decryptBody module channel messageType (chunk.drop offset)).2.length

def readsPadding : Bool :=
  channel.securityMode.encrypts || (messageType == .opn && channel.securityMode.aboveNone)

def paddingSizeBytes : Nat :=
  if module.remoteEncryptionKeyLength channel.context > 2048 then 2 else 1

def paddingRegions (size : Nat) : List Region :=
  let sigsize := signatureSize module channel messageType
  if readsPadding channel messageType then
    ⟨(size : Int) - sigsize - 1, 1⟩ ::
      if module.remoteEncryptionKeyLength channel.context > 2048 then
        [⟨(size : Int) - sigsize - 2, 1⟩]
      else []
  else []

def removedBytes (memory : List Byte) (size : Nat) : Nat :=
  signatureSize module channel messageType + (paddingSize module channel messageType memory size).1

def signatureRegions (memory : List Byte) (size offset : Nat) : List Region :=
  let sigsize := signatureSize module channel messageType
  if !isSigned channel messageType then []
  else if offset + removedBytes module channel messageType memory size ≥ size then []
  else [⟨0, (size : Int) - sigsize⟩, ⟨(size : Int) - sigsize, sigsize⟩]

/-- The payload as `decryptChunk` leaves it: the length is a difference. -/
def payloadRegion (memory : List Byte) (size offset : Nat) : Region :=
  ⟨offset + 8,
    (size : Int) - (offset + 8 : Nat) - removedBytes module channel messageType memory size⟩

def decryptRegions (chunk : List Byte) (offset : Nat) : List Region :=
  let memory := plainMemory module channel messageType chunk offset
  let size := plainSize module channel messageType chunk offset
  let first := paddingRegions module channel messageType size ++
    signatureRegions module channel messageType memory size offset
  if (decryptBody module channel messageType (chunk.drop offset)).1 ≠ good then []
  else if verifyBody module channel messageType memory size offset ≠ good then first
  else if (sequenceHeaderDecodeBinary memory offset).status ≠ good then first
  else if offset + 8 + removedBytes module channel messageType memory size ≥ chunk.length then
    first ++ [⟨offset, 8⟩]
  else first ++ [⟨offset, 8⟩, payloadRegion module channel messageType memory size offset]

/-- Nothing is read outside of the chunk, and the payload is a part of it behind the sequence
header. -/
structure StaysInChunk (chunk : List Byte) (offset : Nat) : Prop where
  regions : ∀ region ∈ decryptRegions module channel messageType chunk offset,
    region.Within chunk.length
  payload : ∀ plain, decryptChunk module channel messageType chunk offset = .ok plain →
    ⟨offset + 8, plain.payload.length⟩ ∈ decryptRegions module channel messageType chunk offset ∧
      plain.payload = ((plainMemory module channel messageType chunk offset).drop
        (offset + 8)).take plain.payload.length

def HoldsPaddingSize (size : Nat) : Prop :=
  readsPadding channel messageType = true →
    signatureSize module channel messageType + paddingSizeBytes module channel ≤ size

/-- Decryption has left less than a sequence header in front of padding and signature, the signature
is right, and the cipher text was longer. -/
def EndsInHeader (chunk : List Byte) (offset : Nat) : Prop :=
  let memory := plainMemory module channel messageType chunk offset
  let size := plainSize module channel messageType chunk offset
  let removed := removedBytes module channel messageType memory size
  verifyBody module channel messageType memory size offset = good ∧
    size < offset + 8 + removed ∧ offset + 8 + removed < chunk.length

end Regions

section Bounds

variable {module : CryptoModule Context} {channel : SecureChannel Context}
  {messageType : MessageType} {chunk memory : List Byte} {offset size : Nat}

theorem uint32DecodeBinary_inside {pos : Nat} (inside : pos + 4 ≤ memory.length) :
    ∃ value, uint32DecodeBinary (chunkInput memory) pos = .ok value (pos + 4) := by
  rw [uint32DecodeBinary, readWord, readBytes, if_neg (by simpa [chunkInput] using inside)]
  exact ⟨_, rfl⟩

theorem uint32DecodeBinary_good {pos : Nat}
    (decodes : (uint32DecodeBinary (chunkInput memory) pos).status = good) :
    pos + 4 ≤ memory.length := by
  by_contra short
  rw [uint32DecodeBinary, readWord, readBytes, if_pos (by simpa [chunkInput] using short)] at decodes
  exact absurd decodes (show ¬badDecodingError = good by decide)

theorem sequenceHeaderDecodeBinary_inside (inside : offset + 8 ≤ memory.length) :
    (sequenceHeaderDecodeBinary memory offset).status = good := by
  obtain ⟨number, first⟩ := uint32DecodeBinary_inside (show offset + 4 ≤ memory.length by omega)
  obtain ⟨requestId, second⟩ := uint32DecodeBinary_inside
    (show offset + 4 + 4 ≤ memory.length by omega)
  rw [sequenceHeaderDecodeBinary, first, Res.ok_thenCheck, second]
  rfl

theorem sequenceHeaderDecodeBinary_good
    (decodes : (sequenceHeaderDecodeBinary memory offset).status = good) :
    offset + 8 ≤ memory.length ∧ (sequenceHeaderDecodeBinary memory offset).pos = offset + 8 := by
  obtain ⟨first, rest, pos, -⟩ := Res.thenCheck_good decodes
  have second := rest
  rw [sequenceHeaderDecodeBinary, pos]
  rw [uint32DecodeBinary_pos first] at second ⊢
  exact ⟨uint32DecodeBinary_good second, uint32DecodeBinary_pos second⟩

theorem decryptChunk_eq (module : CryptoModule Context) (channel : SecureChannel Context)
    (messageType : MessageType) (chunk : List Byte) (offset : Nat) :
    let memory := plainMemory module channel messageType chunk offset
    let size := plainSize module channel messageType chunk offset
    let removed := removedBytes module channel messageType memory size
    let header := sequenceHeaderDecodeBinary memory offset
    decryptChunk module channel messageType chunk offset =
      if (decryptBody module channel messageType (chunk.drop offset)).1 ≠ good then
        .error (decryptBody module channel messageType (chunk.drop offset)).1
      else if verifyBody module channel messageType memory size offset ≠ good then
        .error (verifyBody module channel messageType memory size offset)
      else if header.status ≠ good then .error header.status
      else if offset + 8 + removed ≥ chunk.length then .error badSecurityChecksFailed
      else
        .ok ⟨header.value.sequenceNumber, header.value.requestId,
          (memory.drop (offset + 8)).take (size - (offset + 8) - removed),
          (paddingSize module channel messageType memory size).2 ||
            size < offset + 8 + removed⟩ := by
  intro memory size removed header
  have whole : decryptChunk module channel messageType chunk offset =
      if (decryptBody module channel messageType (chunk.drop offset)).1 ≠ good then
        .error (decryptBody module channel messageType (chunk.drop offset)).1
      else if verifyBody module channel messageType memory size offset ≠ good then
        .error (verifyBody module channel messageType memory size offset)
      else if header.status ≠ good then .error header.status
      else if header.pos + removed ≥ chunk.length then .error badSecurityChecksFailed
      else
        .ok ⟨header.value.sequenceNumber, header.value.requestId,
          (memory.drop header.pos).take (size - header.pos - removed),
          (paddingSize module channel messageType memory size).2 ||
            size < header.pos + removed⟩ := rfl
  rw [whole]
  by_cases decodes : header.status ≠ good
  · rw [if_pos decodes, if_pos decodes]
  · rw [(sequenceHeaderDecodeBinary_good (not_not.mp decodes)).2]

theorem plainSize_le (headers : offset ≤ chunk.length) :
    plainSize module channel messageType chunk offset ≤ chunk.length := by
  rw [plainSize, decryptBody]
  split
  · have bound := module.decrypt_length channel.context (chunk.drop offset)
    rw [length_drop] at bound
    omega
  · rw [length_drop]
    omega

theorem plainMemory_length (headers : offset ≤ chunk.length) :
    (plainMemory module channel messageType chunk offset).length = chunk.length := by
  have bound := @plainSize_le Context module channel messageType chunk offset headers
  rw [plainSize] at bound
  simp only [plainMemory, length_append, length_take, length_drop]
  omega

theorem readsPadding_signed (reads : readsPadding channel messageType = true) :
    isSigned channel messageType = true := by
  rw [readsPadding, Bool.or_eq_true, Bool.and_eq_true] at reads
  rw [isSigned, Bool.or_eq_true]
  rcases reads with encrypts | ⟨opn, -⟩
  · left
    simp only [MessageSecurityMode.encrypts, beq_iff_eq] at encrypts
    simp [MessageSecurityMode.signs, encrypts]
  · exact .inr opn

theorem plain_unsigned (unsigned : ¬isSigned channel messageType = true)
    (headers : offset ≤ chunk.length) :
    plainSize module channel messageType chunk offset = chunk.length ∧
      removedBytes module channel messageType memory size = 0 := by
  have silent : ¬readsPadding channel messageType = true := fun reads =>
    unsigned (readsPadding_signed reads)
  have untouched : ¬(channel.securityMode.encrypts || messageType == .opn) = true := by
    rw [Bool.or_eq_true]
    rintro (encrypts | opn)
    · exact silent (by rw [readsPadding, encrypts, Bool.true_or])
    · exact unsigned (by rw [isSigned, opn, Bool.or_true])
  constructor
  · rw [plainSize, decryptBody, if_neg untouched, length_drop]
    omega
  · rw [readsPadding] at silent
    rw [removedBytes, signatureSize, if_neg unsigned, paddingSize, if_neg silent, Nat.zero_add]

/-! Regions in the chunk -/

theorem paddingRegions_within {total : Nat} (inside : size ≤ total) :
    (∀ region ∈ paddingRegions module channel messageType size, region.Within total) ↔
      HoldsPaddingSize module channel messageType size := by
  rw [paddingRegions, HoldsPaddingSize, paddingSizeBytes]
  by_cases reads : readsPadding channel messageType = true
  · rw [if_pos reads]
    by_cases wide : module.remoteEncryptionKeyLength channel.context > 2048
    · rw [if_pos wide, if_pos wide]
      constructor
      · intro within _
        have second := (within _ (mem_cons_of_mem _ mem_cons_self)).start
        simp only at second
        omega
      · intro holds
        have room := holds reads
        simp only [mem_cons, not_mem_nil, or_false, forall_eq_or_imp, forall_eq]
        constructor
        · constructor <;> simp only <;> omega
        · constructor <;> simp only <;> omega
    · rw [if_neg wide, if_neg wide]
      constructor
      · intro within _
        have first := (within _ mem_cons_self).start
        simp only at first
        omega
      · intro holds
        have room := holds reads
        simp only [mem_cons, not_mem_nil, or_false, forall_eq]
        constructor <;> simp only <;> omega
  · rw [if_neg reads]
    exact iff_of_true (by simp) fun contrary => absurd contrary reads

theorem signatureRegions_within {total : Nat} (inside : size ≤ total) :
    ∀ region ∈ signatureRegions module channel messageType memory size offset,
      region.Within total := by
  rw [signatureRegions]
  split
  · simp
  · split
    · simp
    · rename_i compared
      rw [removedBytes] at compared
      simp only [mem_cons, not_mem_nil, or_false, forall_eq_or_imp, forall_eq]
      constructor
      · constructor <;> simp only <;> omega
      · constructor <;> simp only <;> omega

theorem payload_fits (headers : offset ≤ chunk.length)
    (regular : ¬EndsInHeader module channel messageType chunk offset) :
    let memory := plainMemory module channel messageType chunk offset
    let size := plainSize module channel messageType chunk offset
    let removed := removedBytes module channel messageType memory size
    verifyBody module channel messageType memory size offset = good →
      offset + 8 + removed < chunk.length → offset + 8 + removed ≤ size := by
  intro memory size removed verified long
  by_cases signed : isSigned channel messageType = true
  · by_contra short
    exact regular ⟨verified, Nat.lt_of_not_le short, long⟩
  · obtain ⟨everything, nothing⟩ := @plain_unsigned Context module channel messageType chunk memory
      offset size signed headers
    have kept : size = chunk.length := everything
    omega

theorem firstRegions_within {total : Nat} (inside : size ≤ total)
    (room : HoldsPaddingSize module channel messageType size) :
    ∀ region ∈ paddingRegions module channel messageType size ++
        signatureRegions module channel messageType memory size offset, region.Within total := by
  intro region member
  rcases mem_append.mp member with padding | signature
  · exact (paddingRegions_within inside).mpr room region padding
  · exact signatureRegions_within inside region signature

theorem decryptChunk_cases (headers : offset ≤ chunk.length)
    (decrypts : (decryptBody module channel messageType (chunk.drop offset)).1 = good) :
    let memory := plainMemory module channel messageType chunk offset
    let size := plainSize module channel messageType chunk offset
    let removed := removedBytes module channel messageType memory size
    let first := paddingRegions module channel messageType size ++
      signatureRegions module channel messageType memory size offset
    ((∃ status, decryptChunk module channel messageType chunk offset = .error status) ∧
        (decryptRegions module channel messageType chunk offset = first ∨
          decryptRegions module channel messageType chunk offset = first ++ [⟨offset, 8⟩] ∧
            offset + 8 ≤ chunk.length)) ∨
      verifyBody module channel messageType memory size offset = good ∧
        offset + 8 + removed < chunk.length ∧
        (∃ number requestId stray, decryptChunk module channel messageType chunk offset =
          .ok ⟨number, requestId,
            (memory.drop (offset + 8)).take (size - (offset + 8) - removed), stray⟩) ∧
        decryptRegions module channel messageType chunk offset =
          first ++ [⟨offset, 8⟩, payloadRegion module channel messageType memory size offset] := by
  intro memory size removed first
  have length : memory.length = chunk.length := plainMemory_length headers
  have whole := decryptChunk_eq module channel messageType chunk offset
  dsimp only at whole
  rw [decryptRegions, if_neg (not_not.mpr decrypts)]
  rw [if_neg (not_not.mpr decrypts)] at whole
  by_cases verified : verifyBody module channel messageType memory size offset ≠ good
  · rw [if_pos verified] at whole ⊢
    exact .inl ⟨⟨_, whole⟩, .inl rfl⟩
  rw [if_neg verified] at whole ⊢
  by_cases decodes : (sequenceHeaderDecodeBinary memory offset).status ≠ good
  · rw [if_pos decodes] at whole ⊢
    exact .inl ⟨⟨_, whole⟩, .inl rfl⟩
  rw [if_neg decodes] at whole ⊢
  have header := (sequenceHeaderDecodeBinary_good (not_not.mp decodes)).1
  rw [length] at header
  by_cases long : offset + 8 + removed ≥ chunk.length
  · rw [if_pos long] at whole ⊢
    exact .inl ⟨⟨_, whole⟩, .inr ⟨rfl, header⟩⟩
  · rw [if_neg long] at whole ⊢
    exact .inr ⟨not_not.mp verified, Nat.lt_of_not_le long, ⟨_, _, _, whole⟩, rfl⟩

section

variable (stays : StaysInChunk module channel messageType chunk offset)
  (headers : offset ≤ chunk.length)
  (decrypts : (decryptBody module channel messageType (chunk.drop offset)).1 = good)
include stays headers decrypts

theorem StaysInChunk.holdsPaddingSize : HoldsPaddingSize module channel messageType
      (plainSize module channel messageType chunk offset) := by
  rw [← paddingRegions_within (plainSize_le headers)]
  intro region member
  refine stays.regions region ?_
  have first := mem_append_left (signatureRegions module channel messageType
    (plainMemory module channel messageType chunk offset)
    (plainSize module channel messageType chunk offset) offset) member
  rcases decryptChunk_cases headers decrypts with
    ⟨-, early | ⟨header, -⟩⟩ | ⟨-, -, -, payload⟩
  · rwa [early]
  · rw [header]
    exact mem_append_left _ first
  · rw [payload]
    exact mem_append_left _ first

theorem StaysInChunk.regular : ¬EndsInHeader module channel messageType chunk offset := by
  rintro ⟨verified, short, long⟩
  have length := @plainMemory_length Context module channel messageType chunk offset headers
  have decodes := sequenceHeaderDecodeBinary_inside (show offset + 8 ≤
    (plainMemory module channel messageType chunk offset).length by rw [length]; omega)
  have regions := stays.regions
  rw [decryptRegions, if_neg (not_not.mpr decrypts), if_neg (not_not.mpr verified),
    if_neg (not_not.mpr decodes), if_neg (by omega)] at regions
  have payload := (regions _ (mem_append_right _ (mem_cons_of_mem _ mem_cons_self))).length
  simp only [payloadRegion] at payload
  omega

end

theorem staysInChunk_refused {status : StatusCode}
    (refused : decryptChunk module channel messageType chunk offset = .error status)
    (within : ∀ region ∈ decryptRegions module channel messageType chunk offset,
      region.Within chunk.length) :
    StaysInChunk module channel messageType chunk offset := by
  refine ⟨within, fun plain accepted => ?_⟩
  rw [refused] at accepted
  cases accepted

theorem staysInChunk_decrypted (headers : offset ≤ chunk.length)
    (decrypts : (decryptBody module channel messageType (chunk.drop offset)).1 = good)
    (room : HoldsPaddingSize module channel messageType
      (plainSize module channel messageType chunk offset))
    (regular : ¬EndsInHeader module channel messageType chunk offset) :
    StaysInChunk module channel messageType chunk offset := by
  have bound := @plainSize_le Context module channel messageType chunk offset headers
  have length := @plainMemory_length Context module channel messageType chunk offset headers
  have within := @firstRegions_within Context module channel messageType
    (plainMemory module channel messageType chunk offset) offset _ _ bound room
  rcases decryptChunk_cases headers decrypts with
    ⟨⟨status, refused⟩, early | ⟨early, header⟩⟩ | ⟨verified, long, ⟨_, _, _, whole⟩, regions⟩
  · exact staysInChunk_refused refused (by rw [early]; exact within)
  · refine staysInChunk_refused refused ?_
    rw [early]
    refine forall_mem_append.mpr ⟨within, forall_mem_singleton.mpr ?_⟩
    constructor <;> simp only <;> omega
  have fits := payload_fits headers regular verified long
  constructor
  · rw [regions]
    refine forall_mem_append.mpr ⟨within, forall_mem_cons.mpr ⟨?_, forall_mem_singleton.mpr ?_⟩⟩
    · constructor <;> simp only <;> omega
    · rw [payloadRegion]
      constructor <;> simp only <;> omega
  · intro plain accepted
    rw [whole, Except.ok.injEq] at accepted
    have count : plain.payload.length = plainSize module channel messageType chunk offset -
        (offset + 8) - removedBytes module channel messageType
          (plainMemory module channel messageType chunk offset)
          (plainSize module channel messageType chunk offset) := by
      rw [← accepted, length_take, length_drop, length]
      omega
    constructor
    · rw [regions]
      refine mem_append_right _ (mem_cons_of_mem _ (mem_singleton.mpr ?_))
      rw [payloadRegion, count]
      congr 1
      omega
    · rw [count, ← accepted]

/-- A chunk is dealt with inside of its bounds exactly when it cannot be decrypted, or the size of
the padding can be looked up and no part of the sequence header is cut off. -/
theorem staysInChunk_iff (module : CryptoModule Context) (channel : SecureChannel Context)
    (messageType : MessageType) {chunk : List Byte} {offset : Nat}
    (headers : offset ≤ chunk.length) :
    StaysInChunk module channel messageType chunk offset ↔
      ((decryptBody module channel messageType (chunk.drop offset)).1 = good →
        HoldsPaddingSize module channel messageType
            (plainSize module channel messageType chunk offset) ∧
          ¬EndsInHeader module channel messageType chunk offset) := by
  constructor
  · intro stays decrypts
    exact ⟨stays.holdsPaddingSize headers decrypts, stays.regular headers decrypts⟩
  · intro holds
    by_cases decrypts : (decryptBody module channel messageType (chunk.drop offset)).1 = good
    · exact staysInChunk_decrypted headers decrypts (holds decrypts).1 (holds decrypts).2
    · have whole := decryptChunk_eq module channel messageType chunk offset
      dsimp only at whole
      rw [if_pos decrypts] at whole
      refine staysInChunk_refused whole ?_
      rw [decryptRegions, if_pos decrypts]
      simp

end Bounds

def cryptoModuleBlocks : CryptoModule Unit :=
  { cryptoModuleNone with
    sign := fun _ _ => (good, List.replicate 32 0)
    localSignatureSize := fun _ => 32
    remoteSignatureSize := fun _ => 32
    localSigningKeyLength := fun _ => 32
    remoteSigningKeyLength := fun _ => 32
    localEncryptionKeyLength := fun _ => 32
    remoteEncryptionKeyLength := fun _ => 32
    localBlockSize := fun _ => 16
    remoteBlockSize := fun _ => 16 }

def cryptoModuleShrinking : CryptoModule Unit :=
  { cryptoModuleBlocks with
    decrypt := fun _ data => (good, data.take 10)
    decrypt_length := fun _ data => length_take_le' 10 data
    remoteSignatureSize := fun _ => 4 }

def securedChannel : SecureChannel Unit := { renewedChannel with securityMode := .signAndEncrypt }

def shortChunk : List Byte :=
  symmetricHeaderWire (MessageType.msg.code + ChunkType.final.code) 32 5 7 ++ List.replicate 16 0

def shortOpnChunk : List Byte :=
  leBytes 4 (MessageType.opn.code + ChunkType.final.code).toNat ++ leBytes 4 64 ++ leBytes 4 0 ++
    (stringWire .null ++ stringWire .null ++ stringWire .null) ++ List.replicate 40 0

/-- The byte in front of the chunk is read, and an OPN chunk is accepted whose payload has minus
three bytes. -/
theorem shortChunk_leavesChunk :
    (symmetricHeaderDecodeBinary shortChunk (messageHeaderDecodeBinary shortChunk 0).pos).pos = 16 ∧
      ⟨-1, 1⟩ ∈ decryptRegions cryptoModuleBlocks securedChannel .msg shortChunk 16 ∧
      ¬StaysInChunk cryptoModuleBlocks securedChannel .msg shortChunk 16 ∧
      (asymmetricHeaderDecodeBinary shortOpnChunk 12).pos = 24 ∧
      ⟨32, -3⟩ ∈ decryptRegions cryptoModuleShrinking securedChannel .opn shortOpnChunk 24 ∧
      ¬StaysInChunk cryptoModuleShrinking securedChannel .opn shortOpnChunk 24 := by
  have front : (⟨-1, 1⟩ : Region) ∈
      decryptRegions cryptoModuleBlocks securedChannel .msg shortChunk 16 := by decide
  have negative : (⟨32, -3⟩ : Region) ∈
      decryptRegions cryptoModuleShrinking securedChannel .opn shortOpnChunk 24 := by decide
  refine ⟨by decide, front, fun stays => ?_, by decide, negative, fun stays => ?_⟩
  · exact absurd (stays.regions _ front).start (by decide)
  · exact absurd (stays.regions _ negative).length (by decide)

theorem longChunk_staysInChunk :
    StaysInChunk cryptoModuleBlocks securedChannel .msg (shortChunk ++ List.replicate 48 0) 16 := by
  refine (staysInChunk_iff cryptoModuleBlocks securedChannel .msg (by decide)).mpr
    fun _ => ⟨fun _ => by decide, fun ends => ?_⟩
  exact absurd ends.2.1 (by decide)

end OpcUa
