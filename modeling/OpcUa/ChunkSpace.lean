import OpcUa.Library.BlockPadding
import OpcUa.DecryptBounds
import OpcUa.ServerSecurity
import OpcUa.SymmetricRoundTrip

/-!
Whether the chunks of symmetric messages stay in the send buffer whose size was negotiated. The
space for the signature and for two bytes of padding is set aside before the body is encoded, the
padding is computed afterwards.
-/

namespace OpcUa

open LittleEndian StatusCode BlockPadding

variable {Context : Type}

section Space

variable (policy : SecurityPolicy Context) (connection : SendConnection)
  (channel : SecureChannel Context)

def reservedBytes : Nat :=
  localSignature policy channel + if channel.securityMode.encrypts then 2 else 0

/-- The end of a chunk with padding and signature. There is none where `calculatePaddingSym` divides
by zero, and where the loop that writes the padding counts up to the largest number there is. -/
def chunkEnd (bodyLength : Nat) : Option Nat :=
  if channel.securityMode.encrypts then
    let padding := calculatePaddingSym policy channel (bodyLength + 8)
    if policy.symmetric.localBlockSize channel.context = 0 ∨ padding.toNat = 65535 then none
    else some (24 + bodyLength + (paddingBytes padding).length + localSignature policy channel)
  else some (24 + bodyLength + localSignature policy channel)

/-- The space for the body does not end in front of its start, and behind every body in it there
is room for padding and signature. -/
structure ChunksInBuffer : Prop where
  space : 24 + reservedBytes policy channel ≤ connection.sendBufferSize.toNat
  ends : ∀ body : List Byte, body.length ≤ bodyCapacity policy connection channel →
    ∃ position, chunkEnd policy channel body.length = some position ∧
      position ≤ connection.sendBufferSize.toNat

def EndlessPadding (block low limit : Nat) : Prop :=
  ∃ length, low ≤ length ∧ length < limit ∧ amount block 65536 length = 65535

/-- With encryption whole blocks have to fill what lies behind the first 16 bytes of the buffer. A
block of 256 bytes or more can ask for a second byte for its size as well. -/
def LeavesRoom : Prop :=
  24 + reservedBytes policy channel ≤ connection.sendBufferSize.toNat ∧
    (channel.securityMode.encrypts = true →
      let block := policy.symmetric.localBlockSize channel.context
      let low := 9 + localSignature policy channel
      let limit := connection.sendBufferSize.toNat - 16
      0 < block ∧ Tight block 65536 low limit ∧ ¬EndlessPadding block low limit)

end Space

def Negotiated (size : BitVec 32) : Prop :=
  ∃ (surroundings : Surroundings Unit) (server : Server Unit) (index : Nat) (chunk : List Byte),
    (processHEL surroundings server index chunk).1 = good ∧
      ((processHEL surroundings server index chunk).2.connections index).sendBufferSize = size

theorem Negotiated.ge {size : BitVec 32} (agreed : Negotiated size) : 28 ≤ size.toNat := by
  obtain ⟨surroundings, server, index, chunk, accepted, same⟩ := agreed
  simp only [processHEL] at accepted same
  split at accepted
  · rename_i bad
    exact absurd accepted bad
  rename_i decodes
  rw [if_neg decodes] at same
  split at accepted
  · exact absurd accepted (show ¬badInternalError = good by decide)
  rename_i nonzero
  rw [if_neg nonzero] at same
  split at accepted
  · exact absurd accepted (show ¬badResponseTooLarge = good by decide)
  rename_i large
  rw [if_neg large] at same
  rw [← same]
  simp only [Server.setConnection, Function.update_self]
  exact Nat.le_of_not_lt large

section Ends

variable {policy : SecurityPolicy Context} {connection : SendConnection}
  {channel : SecureChannel Context}

theorem localSignature_encrypts (encrypts : channel.securityMode.encrypts = true) :
    localSignature policy channel = policy.symmetric.localSignatureSize channel.context := by
  have signs : channel.securityMode.signs = true := by
    simp only [MessageSecurityMode.encrypts, beq_iff_eq] at encrypts
    simp [MessageSecurityMode.signs, encrypts]
  rw [localSignature, if_pos signs]

theorem paddingBytes_length (padding : BitVec 16) :
    (paddingBytes padding).length = padding.toNat + 1 + if 256 ≤ padding.toNat then 1 else 0 := by
  have bound := padding.isLt
  have high : (padding >>> 8).setWidth 8 > (0 : Byte) ↔ 256 ≤ padding.toNat := by
    rw [gt_iff_lt, BitVec.lt_def, BitVec.toNat_setWidth, BitVec.toNat_ushiftRight,
      Nat.shiftRight_eq_div_pow]
    simp only [BitVec.ofNat_eq_ofNat, BitVec.toNat_ofNat]
    omega
  rw [paddingBytes, List.length_append, List.length_replicate]
  by_cases wide : 256 ≤ padding.toNat
  · rw [if_pos (high.mpr wide), if_pos wide]
    rfl
  · rw [if_neg (high.not.mpr wide), if_neg wide]
    rfl

theorem calculatePaddingSym_toNat (bytesToWrite : Nat) :
    (calculatePaddingSym policy channel bytesToWrite).toNat =
      amount (policy.symmetric.localBlockSize channel.context) 65536
        (bytesToWrite + policy.symmetric.localSignatureSize channel.context + 1) := by
  rfl

theorem chunkEnd_encrypts (encrypts : channel.securityMode.encrypts = true) (bodyLength : Nat) :
    chunkEnd policy channel bodyLength =
      if policy.symmetric.localBlockSize channel.context = 0 ∨
          amount (policy.symmetric.localBlockSize channel.context) 65536
            (bodyLength + 9 + localSignature policy channel) = 65535 then none
      else
        some (16 + padded (policy.symmetric.localBlockSize channel.context) 65536
          (bodyLength + 9 + localSignature policy channel)) := by
  have before : bodyLength + 8 + localSignature policy channel + 1 =
      bodyLength + 9 + localSignature policy channel := by omega
  rw [chunkEnd, if_pos encrypts]
  dsimp only
  rw [paddingBytes_length, calculatePaddingSym_toNat, ← localSignature_encrypts encrypts, before]
  congr 2
  rw [padded]
  omega

theorem reservedBytes_encrypts (encrypts : channel.securityMode.encrypts = true) :
    reservedBytes policy channel = localSignature policy channel + 2 := by
  rw [reservedBytes, if_pos encrypts]

theorem reservedBytes_plain (plain : ¬channel.securityMode.encrypts = true) :
    reservedBytes policy channel = localSignature policy channel := by
  rw [reservedBytes, if_neg plain, Nat.add_zero]

theorem bodyCapacity_eq : bodyCapacity policy connection channel =
      connection.sendBufferSize.toNat - reservedBytes policy channel - 24 := by
  rw [bodyCapacity, bufEnd, reservedBytes]
  omega

theorem ChunksInBuffer.padded_inside (inside : ChunksInBuffer policy connection channel)
    (encrypts : channel.securityMode.encrypts = true) {length : Nat}
    (low : 9 + localSignature policy channel ≤ length)
    (high : length < connection.sendBufferSize.toNat - 16) :
    policy.symmetric.localBlockSize channel.context ≠ 0 ∧
      amount (policy.symmetric.localBlockSize channel.context) 65536 length ≠ 65535 ∧
      padded (policy.symmetric.localBlockSize channel.context) 65536 length ≤
        connection.sendBufferSize.toNat - 16 := by
  have fits : (List.replicate (length - 9 - localSignature policy channel) (0 : Byte)).length ≤
      bodyCapacity policy connection channel := by
    rw [List.length_replicate, bodyCapacity_eq, reservedBytes_encrypts encrypts]
    omega
  obtain ⟨position, found, within⟩ := inside.ends _ fits
  have same : length - 9 - localSignature policy channel + 9 + localSignature policy channel =
      length := by omega
  rw [List.length_replicate, chunkEnd_encrypts encrypts, same] at found
  split at found
  · simp at found
  · rename_i regular
    obtain ⟨positive, finite⟩ := not_or.mp regular
    rw [Option.some.injEq] at found
    exact ⟨positive, finite, by omega⟩

theorem ChunksInBuffer.leavesRoom (inside : ChunksInBuffer policy connection channel) :
    LeavesRoom policy connection channel := by
  have space := inside.space
  refine ⟨space, fun encrypts => ?_⟩
  rw [reservedBytes_encrypts encrypts] at space
  have first := inside.padded_inside encrypts (Nat.le_refl _) (by omega)
  have positive := Nat.pos_of_ne_zero first.1
  refine ⟨positive, ?_, ?_⟩
  · rw [← padded_le_iff positive (by decide) (by omega)]
    exact fun length low high => (inside.padded_inside encrypts low high).2.2
  · rintro ⟨length, low, high, endless⟩
    exact (inside.padded_inside encrypts low high).2.1 endless

theorem LeavesRoom.chunksInBuffer (leaves : LeavesRoom policy connection channel)
    (minimum : 28 ≤ connection.sendBufferSize.toNat) :
    ChunksInBuffer policy connection channel := by
  obtain ⟨space, room⟩ := leaves
  refine ⟨space, fun body fits => ?_⟩
  rw [bodyCapacity_eq] at fits
  by_cases encrypts : channel.securityMode.encrypts = true
  · obtain ⟨positive, tight, finite⟩ := room encrypts
    rw [reservedBytes_encrypts encrypts] at space fits
    rw [← padded_le_iff positive (by decide) (by omega)] at tight
    have low : 9 + localSignature policy channel ≤
        body.length + 9 + localSignature policy channel := by omega
    have high : body.length + 9 + localSignature policy channel <
        connection.sendBufferSize.toNat - 16 := by omega
    have within := tight _ low high
    rw [chunkEnd_encrypts encrypts, if_neg]
    · exact ⟨_, rfl, by omega⟩
    · rintro (zero | endless)
      · omega
      · exact finite ⟨_, low, high, endless⟩
  · rw [reservedBytes_plain encrypts] at space fits
    refine ⟨24 + body.length + localSignature policy channel, ?_, by omega⟩
    rw [chunkEnd, if_neg encrypts]

/-- The chunks stay in the buffer exactly when there is room behind every body. -/
theorem chunksInBuffer_iff (policy : SecurityPolicy Context) (connection : SendConnection)
    (channel : SecureChannel Context) (agreed : Negotiated connection.sendBufferSize) :
    ChunksInBuffer policy connection channel ↔ LeavesRoom policy connection channel := by
  constructor
  · exact ChunksInBuffer.leavesRoom
  · intro leaves
    exact leaves.chunksInBuffer agreed.ge

end Ends

def securityPolicyBlocks : SecurityPolicy Unit :=
  { securityPolicyNone with symmetric := cryptoModuleBlocks }

def encryptingChannel : SecureChannel Unit :=
  { idleChannel with securityMode := .signAndEncrypt, sendSequenceNumber := 0 }

def greetingChunk (bufferSize : Nat) : List Byte :=
  leBytes 4 (helloCode + ChunkType.final.code).toNat ++ leBytes 4 32 ++ leBytes 4 0 ++
    leBytes 4 bufferSize ++ leBytes 4 bufferSize ++ leBytes 4 0 ++ leBytes 4 0 ++ stringWire .null

theorem negotiated_fullSize : Negotiated 65535 :=
  ⟨quietSurroundings, initialServer Unit, 0, greetingChunk 65535, by decide, by decide⟩

theorem negotiated_small : Negotiated 100 :=
  ⟨quietSurroundings, initialServer Unit, 0, greetingChunk 100, by decide, by decide⟩

def rangeWriteValue : Value :=
  .struct [.leaf (.nodeId .null), .leaf (.uint32 13),
    .leaf (.string (.alloc (List.replicate 40 0x31))),
    .dataValue ⟨none, none, none, none, none⟩ false .variantEmpty]

/-- With the default size the longest body ends one byte behind the buffer. With a small buffer a
message is sent whose first chunk is twelve bytes too long. -/
theorem chunksInBuffer_overrun : (Negotiated (openConnection 65535).sendBufferSize ∧
      65477 ≤ bodyCapacity securityPolicyBlocks (openConnection 65535) encryptingChannel ∧
      chunkEnd securityPolicyBlocks encryptingChannel 65477 = some 65536 ∧
      ¬ChunksInBuffer securityPolicyBlocks (openConnection 65535) encryptingChannel) ∧
    Negotiated (openConnection 100).sendBufferSize ∧
    (sendSymmetricMessage securityPolicyBlocks (openConnection 100) sampleEnv 10 encryptingChannel 1
      .msg rangeWriteValue writeValueType).chunks.map (fun chunk => (chunk.bytes.length,
        chunk.fault)) = [(112, true), (80, false)] := by
  have capacity : 65477 ≤ bodyCapacity securityPolicyBlocks (openConnection 65535)
      encryptingChannel := by decide
  have behind : chunkEnd securityPolicyBlocks encryptingChannel 65477 = some 65536 := by decide
  refine ⟨⟨negotiated_fullSize, capacity, behind, fun inside => ?_⟩, negotiated_small, by decide⟩
  obtain ⟨position, found, within⟩ := inside.ends (List.replicate 65477 0)
    (by rw [List.length_replicate]; exact capacity)
  rw [List.length_replicate, behind, Option.some.injEq] at found
  have size : (openConnection 65535).sendBufferSize.toNat = 65535 := by decide
  omega

theorem negotiated_whole : Negotiated (openConnection 8192).sendBufferSize :=
  ⟨quietSurroundings, initialServer Unit, 0, greetingChunk 8192, by decide, by decide⟩

theorem chunksInBuffer_whole :
    ChunksInBuffer securityPolicyBlocks (openConnection 8192) encryptingChannel := by
  have size : (openConnection 8192).sendBufferSize.toNat = 8192 := by decide
  refine (chunksInBuffer_iff securityPolicyBlocks (openConnection 8192) encryptingChannel
    negotiated_whole).mpr ⟨by decide, fun _ => ⟨by decide, .inr ⟨?_, .inr ?_⟩, ?_⟩⟩
  · rw [size]
    decide
  · rw [size]
    decide
  · rintro ⟨length, -, -, endless⟩
    have less : amount 16 65536 length ≤ 16 := (Nat.mod_le _ _).trans (Nat.sub_le _ _)
    have same : amount 16 65536 length = 65535 := endless
    omega

end OpcUa
