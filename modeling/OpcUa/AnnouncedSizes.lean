import OpcUa.LeafRoundTrip
import OpcUa.NetworkMessageCore
import OpcUa.TypeTable

/-!
The counts and sizes in a NetworkMessage and what is decoded: the number of fields of a frame, the
size of the promoted fields and the sizes of the messages.
-/

namespace OpcUa

open StatusCode

section Consecutive

variable {α : Type}

inductive Consecutive (decode : Nat → Res α) : List α → Nat → Nat → Prop where
  | nil (pos : Nat) : Consecutive decode [] pos pos
  | cons {rest : List α} {start stop : Nat} (success : (decode start).status = good)
      (behind : Consecutive decode rest (decode start).pos stop) :
      Consecutive decode ((decode start).value :: rest) start stop

def wireStarts (decode : Nat → Res α) : Nat → Nat → List Nat
  | 0, _ => []
  | count + 1, start => start :: wireStarts decode count (decode start).pos

theorem Consecutive.mem {decode : Nat → Res α} {values : List α} {start stop : Nat} {value : α}
    (consecutive : Consecutive decode values start stop) (member : value ∈ values) :
    ∃ first ∈ wireStarts decode values.length start,
      (decode first).status = good ∧ (decode first).value = value := by
  induction consecutive with
  | nil => cases member
  | @cons rest start stop success behind ih =>
    rcases List.mem_cons.mp member with here | later
    · exact ⟨start, List.mem_cons_self, success, here.symm⟩
    · obtain ⟨first, inside, decoded⟩ := ih later
      exact ⟨first, List.mem_cons_of_mem _ inside, decoded⟩

theorem decodeEach_consecutive {decode : Nat → Res α} {count start : Nat}
    (success : (decodeEach decode count start).status = good) :
    (decodeEach decode count start).value.length = count ∧
      Consecutive decode (decodeEach decode count start).value start
        (decodeEach decode count start).pos := by
  induction count generalizing start with
  | zero => exact ⟨rfl, .nil start⟩
  | succ count ih =>
    obtain ⟨first, rest, final, values⟩ := Res.thenCheck_good success
    obtain ⟨length, behind⟩ := ih rest
    rw [decodeEach, final, values]
    exact ⟨congrArg (· + 1) length, .cons first behind⟩

end Consecutive

namespace Res

variable {α β γ : Type}

theorem thenCheck_assoc [Inhabited β] [Inhabited γ] (first : Res α) (next : α → Nat → Res β)
    (last : β → Nat → Res γ) :
    (first.thenCheck next).thenCheck last =
      first.thenCheck fun value pos => (next value pos).thenCheck last := by
  obtain ⟨status, value, pos, exhausted⟩ := first
  by_cases success : status = good
  · by_cases later : (next value pos).status = good
    · simp [thenCheck, success, later, Bool.or_assoc]
    · simp [thenCheck, success, later]
  · simp [thenCheck, success]

theorem thenCheck_eq [Inhabited β] {first : Res α} (success : first.status = good)
    (next : α → Nat → Res β) :
    let rest := next first.value first.pos
    first.thenCheck next =
      ⟨rest.status, rest.value, rest.pos, first.exhausted || rest.exhausted⟩ := by
  simp [thenCheck, success]

theorem map_eq (first : Res α) (convert : α → β) :
    first.map convert = ⟨first.status, convert first.value, first.pos, first.exhausted⟩ := rfl

theorem map_thenCheck [Inhabited γ] (first : Res α) (convert : α → β) (last : β → Nat → Res γ) :
    (first.map convert).thenCheck last = first.thenCheck fun value => last (convert value) := by
  obtain ⟨status, value, pos, exhausted⟩ := first
  rfl

end Res

section Positions

variable (input : Input)

structure MessageHead where
  read : MessageFlags
  publisherId : Option PublisherId
  dataSetClassId : Option Guid
  groupHeader : Option NetworkMessageGroupHeader
  payloadHeader : Option DataSetPayloadHeader
  timestamp : Option (BitVec 64)
  picoseconds : Option (BitVec 16)

instance : Inhabited MessageHead := ⟨⟨default, none, none, none, none, none, none⟩⟩

def headersDecodeBinary (read : MessageFlags) (pos : Nat) : Res MessageHead :=
  (decodeWhen read.publisherIdEnabled (publisherIdDecodeBinary input read.publisherIdCode)
    pos).thenCheck fun publisherId pos =>
  (decodeWhen read.dataSetClassIdEnabled (uaGuidDecodeBinary input) pos).thenCheck
    fun dataSetClassId pos =>
  (decodeWhen read.groupHeaderEnabled (groupHeaderDecodeBinary input) pos).thenCheck
    fun groupHeader pos =>
  (decodeWhen read.payloadHeaderEnabled (payloadHeaderDecodeBinary input read.networkMessageCode)
    pos).thenCheck fun payloadHeader pos =>
  (decodeWhen read.timestampEnabled (uaDateTimeDecodeBinary input) pos).thenCheck
    fun timestamp pos =>
  (decodeWhen read.picosecondsEnabled (uaUInt16DecodeBinary input) pos).map fun picoseconds =>
    ⟨read, publisherId, dataSetClassId, groupHeader, payloadHeader, timestamp, picoseconds⟩

def messageHeadDecodeBinary (pos : Nat) : Res MessageHead :=
  (flagsDecodeBinary input pos).thenCheck (headersDecodeBinary input)

def promotedPartDecodeBinary (pos : Nat) : Res (MessageHead × Option PromotedFields) :=
  (messageHeadDecodeBinary input pos).thenCheck fun head pos =>
    (decodeWhen head.read.promotedFieldsEnabled (promotedFieldsDecodeBinary input) pos).map
      fun promotedFields => (head, promotedFields)

def securityPartDecodeBinary (pos : Nat) : Res (Option NetworkMessageSecurityHeader) :=
  (promotedPartDecodeBinary input pos).thenCheck fun part pos =>
    decodeWhen part.1.read.securityEnabled (securityHeaderDecodeBinary input) pos

def messageRestDecodeBinary (head : MessageHead) : Option PromotedFields → Nat → Res NetworkMessage :=
  messageTailDecodeBinary input head.read
    (head.publisherId.getD (.cleared head.read.publisherIdCode)) head.dataSetClassId
    head.groupHeader head.payloadHeader head.timestamp head.picoseconds

theorem networkMessageDecodeBinaryInternal_parts (pos : Nat) :
    networkMessageDecodeBinaryInternal input pos =
      (promotedPartDecodeBinary input pos).thenCheck fun part pos =>
        messageRestDecodeBinary input part.1 part.2 pos := by
  simp only [networkMessageDecodeBinaryInternal, promotedPartDecodeBinary, messageHeadDecodeBinary,
    headersDecodeBinary, messageRestDecodeBinary, Res.thenCheck_assoc, Res.map_thenCheck]

/-- The count of a frame, which raw data does not have. The fields begin behind it. -/
def frameCountDecodeBinary (encoding : FieldEncoding) (start : Nat) : Res (BitVec 16) :=
  if encoding = .rawData then .ok 0 start else uaUInt16DecodeBinary input start

def frameFieldDecodeBinary : FieldEncoding → Nat → Res DataValue
  | .variant => variantFieldDecodeBinary input
  | _ => uaDataValueDecodeBinary input

/-- The fields of a frame with an encoding that is not reserved, as many as its count says. -/
def FieldsRead (start stop : Nat) (message : DataSetMessage) : Prop :=
  let count := frameCountDecodeBinary input message.header.fieldEncoding
    (dataSetMessageHeaderDecodeBinary input start).pos
  let decode := frameFieldDecodeBinary input message.header.fieldEncoding
  message.header.fieldEncoding ≠ .reserved →
    match message.data with
    | .dataKeyFrame fieldCount fields =>
      fieldCount = count.value ∧ fields.length = fieldCount.toNat ∧
        Consecutive decode fields count.pos stop
    | .dataDeltaFrame fieldCount fields =>
      fieldCount = count.value ∧ fields.length = fieldCount.toNat ∧
        Consecutive (deltaFrameFieldDecodeBinary input decode) fields count.pos stop
    | _ => True

variable (pos : Nat) (message : NetworkMessage)

def promotedSizeDecodeBinary : Res (BitVec 16) :=
  uaUInt16DecodeBinary input (messageHeadDecodeBinary input pos).pos

def messagesStart : Nat :=
  (decodeWhen message.payload.sizes.isSome
    (decodeEach (uaUInt16DecodeBinary input) message.messageCount)
    (securityPartDecodeBinary input pos).pos).pos

structure AnnouncedSizes : Prop where
  frames : ∀ entry ∈ message.payload.dataSetMessages, entry.consistent = true
  promoted : message.promotedFields.isSome → (promotedPartDecodeBinary input pos).pos =
      (promotedSizeDecodeBinary input pos).pos + (promotedSizeDecodeBinary input pos).value.toNat
  sizes : ∀ table, message.payload.sizes = some table →
    (wireStarts (dataSetMessageDecodeBinary input) table.length
      (messagesStart input pos message)).map
      (fun start => (dataSetMessageDecodeBinary input start).pos - start) =
        table.map fun size => size.toNat

/-- The promoted fields end with the one that reaches the announced end, and the messages follow
each other whatever the table says. -/
structure ReadInOrder : Prop where
  promoted : ∀ promoted, message.promotedFields = some promoted →
    let size := promotedSizeDecodeBinary input pos
    let stop := (promotedPartDecodeBinary input pos).pos
    Consecutive (uaVariantDecodeBinary input) promoted.promotedFields size.pos stop ∧
      size.pos + size.value.toNat ≤ stop ∧
      ∀ start ∈ wireStarts (uaVariantDecodeBinary input) promoted.promotedFields.length size.pos,
        start < size.pos + size.value.toNat
  sizes : message.payload.sizes.map List.length =
    if message.payloadHeader.isSome ∧ message.messageCount > 1 then some message.messageCount
    else none
  messages : message.payload.dataSetMessages.length = message.messageCount ∧
    ∃ stop, Consecutive (dataSetMessageDecodeBinary input) message.payload.dataSetMessages
      (messagesStart input pos message) stop
  frames : ∀ entry ∈ message.payload.dataSetMessages,
    ∃ start ∈ wireStarts (dataSetMessageDecodeBinary input) message.messageCount
      (messagesStart input pos message),
      (dataSetMessageDecodeBinary input start).value = entry ∧
        FieldsRead input start (dataSetMessageDecodeBinary input start).pos entry

end Positions

variable {input : Input}

theorem decodeWhen_good {α : Type} {present : Bool} {decode : Nat → Res α} {start : Nat}
    {value : α} (found : (decodeWhen present decode start).value = some value) :
    present = true ∧ (decode start).value = value ∧
      (decodeWhen present decode start).pos = (decode start).pos ∧
      (decodeWhen present decode start).status = (decode start).status := by
  cases present with
  | false => cases found
  | true => exact ⟨rfl, Option.some.inj found, rfl, rfl⟩

theorem promotedLoop_inOrder {offsetEnd round start : Nat} (before : start < offsetEnd)
    (success : (promotedLoop input offsetEnd round start).status = good) :
    let fields := (promotedLoop input offsetEnd round start).value
    let stop := (promotedLoop input offsetEnd round start).pos
    Consecutive (uaVariantDecodeBinary input) fields start stop ∧ offsetEnd ≤ stop ∧
      ∀ first ∈ wireStarts (uaVariantDecodeBinary input) fields.length start,
        first < offsetEnd := by
  induction round generalizing start with
  | zero =>
    exact absurd success (by decide : badInternalError ≠ good)
  | succ round ih =>
    obtain ⟨decoded, rest, final, values⟩ := Res.thenCheck_good success
    rw [promotedLoop]
    rw [final, values]
    split at rest
    · rename_i further
      obtain ⟨consecutive, reached, starts⟩ := ih further rest
      rw [if_pos further, Res.map_eq]
      refine ⟨.cons decoded consecutive, reached, fun first member => ?_⟩
      rcases List.mem_cons.mp member with here | later
      · exact here ▸ before
      · exact starts first later
    · rename_i done
      rw [if_neg done]
      dsimp only [Res.ok]
      refine ⟨.cons decoded (.nil _), Nat.le_of_not_lt done, fun first member => ?_⟩
      exact List.mem_singleton.mp member ▸ before

theorem promotedFieldsDecodeBinary_inOrder {start : Nat}
    (success : (promotedFieldsDecodeBinary input start).status = good) :
    let fields := (promotedFieldsDecodeBinary input start).value.promotedFields
    let size := uaUInt16DecodeBinary input start
    let stop := (promotedFieldsDecodeBinary input start).pos
    Consecutive (uaVariantDecodeBinary input) fields size.pos stop ∧
      size.pos + size.value.toNat ≤ stop ∧
      ∀ first ∈ wireStarts (uaVariantDecodeBinary input) fields.length size.pos,
        first < size.pos + size.value.toNat := by
  obtain ⟨-, rest, final, values⟩ := Res.thenCheck_good success
  rw [promotedFieldsDecodeBinary]
  rw [final, values]
  split at rest
  · rename_i announced
    rw [if_pos announced, Res.map_eq]
    rw [Res.map_eq] at rest
    have before := Nat.lt_add_of_pos_right (n := (uaUInt16DecodeBinary input start).pos) announced
    have looped := promotedLoop_inOrder before rest
    exact looped
  · rename_i nothing
    rw [if_neg nothing]
    dsimp only [Res.ok]
    refine ⟨.nil _, ?_, fun first member => by cases member⟩
    rw [Nat.eq_zero_of_not_pos nothing]
    exact Nat.le_refl _

theorem countedFields_reads {α : Type} {decode : Nat → Res α} {start : Nat}
    {build : BitVec 16 → List α → DataSetMessageData}
    (success : ((uaUInt16DecodeBinary input start).thenCheck fun count pos =>
      (decodeEach decode count.toNat pos).map (build count)).status = good) :
    let count := uaUInt16DecodeBinary input start
    let result := (uaUInt16DecodeBinary input start).thenCheck fun count pos =>
      (decodeEach decode count.toNat pos).map (build count)
    ∃ fields, result.value = build count.value fields ∧ fields.length = count.value.toNat ∧
      Consecutive decode fields count.pos result.pos := by
  obtain ⟨-, rest, final, values⟩ := Res.thenCheck_good success
  obtain ⟨length, consecutive⟩ := decodeEach_consecutive rest
  dsimp only
  rw [final, values, Res.map_eq]
  exact ⟨_, rfl, length, consecutive⟩

theorem dataKeyFrameDecodeBinary_inOrder {encoding : FieldEncoding} {start : Nat}
    (success : (dataKeyFrameDecodeBinary input encoding start).status = good)
    (known : encoding ≠ .reserved) :
    let count := frameCountDecodeBinary input encoding start
    let result := dataKeyFrameDecodeBinary input encoding start
    ∃ fields, result.value = .dataKeyFrame count.value fields ∧ fields.length = count.value.toNat ∧
      Consecutive (frameFieldDecodeBinary input encoding) fields count.pos result.pos := by
  cases encoding with
  | rawData => exact ⟨[], rfl, rfl, .nil start⟩
  | reserved => exact absurd rfl known
  | variant =>
    exact countedFields_reads success
  | dataValue =>
    rw [dataKeyFrameDecodeBinary, if_neg (by decide)] at *
    exact countedFields_reads success

theorem dataDeltaFrameDecodeBinary_inOrder {encoding : FieldEncoding} {start : Nat}
    (success : (dataDeltaFrameDecodeBinary input encoding start).status = good)
    (known : encoding ≠ .reserved) :
    let count := frameCountDecodeBinary input encoding start
    let result := dataDeltaFrameDecodeBinary input encoding start
    ∃ fields, result.value = .dataDeltaFrame count.value fields ∧
      fields.length = count.value.toNat ∧
      Consecutive (deltaFrameFieldDecodeBinary input (frameFieldDecodeBinary input encoding)) fields
        count.pos result.pos := by
  cases encoding with
  | rawData => exact ⟨[], rfl, rfl, .nil start⟩
  | reserved => exact absurd rfl known
  | variant =>
    exact countedFields_reads success
  | dataValue =>
    rw [dataDeltaFrameDecodeBinary, if_neg (by decide)] at *
    exact countedFields_reads success

theorem dataSetMessageDecodeBinary_inOrder {start : Nat}
    (success : (dataSetMessageDecodeBinary input start).status = good) :
    FieldsRead input start (dataSetMessageDecodeBinary input start).pos
      (dataSetMessageDecodeBinary input start).value := by
  obtain ⟨-, rest, final, values⟩ := Res.thenCheck_good success
  rw [FieldsRead, dataSetMessageDecodeBinary, final, values]
  generalize dataSetMessageHeaderDecodeBinary input start = read at rest ⊢
  obtain ⟨_, ⟨header, code⟩, pos, _⟩ := read
  dsimp only at rest ⊢
  split at rest
  · rw [Res.map_eq] at rest ⊢
    intro known
    obtain ⟨fields, same, length, consecutive⟩ := dataKeyFrameDecodeBinary_inOrder rest known
    rw [same]
    exact ⟨rfl, length, consecutive⟩
  · rw [Res.map_eq] at rest ⊢
    intro known
    obtain ⟨fields, same, length, consecutive⟩ := dataDeltaFrameDecodeBinary_inOrder rest known
    dsimp only
    rw [same]
    exact ⟨rfl, length, consecutive⟩
  · exact fun _ => trivial
  · exact absurd rest (by decide : badNotImplemented ≠ good)

theorem payloadDecodeBinary_inOrder {payloadHeader : Option DataSetPayloadHeader} {start : Nat}
    (success : (payloadDecodeBinary input payloadHeader start).status = good) :
    let payload := (payloadDecodeBinary input payloadHeader start).value
    let count := (payloadHeader.map fun header => header.count.toNat).getD 1
    payload.sizes.map List.length =
        (if payloadHeader.isSome ∧ count > 1 then some count else none) ∧
      payload.dataSetMessages.length = count ∧
      Consecutive (dataSetMessageDecodeBinary input) payload.dataSetMessages
        (decodeWhen payload.sizes.isSome (decodeEach (uaUInt16DecodeBinary input) count) start).pos
        (payloadDecodeBinary input payloadHeader start).pos := by
  obtain ⟨table, rest, final, values⟩ := Res.thenCheck_good success
  obtain ⟨length, consecutive⟩ := decodeEach_consecutive rest
  rw [payloadDecodeBinary]
  rw [final, values, Res.map_eq]
  dsimp only
  by_cases several : payloadHeader.isSome ∧
      (payloadHeader.map fun header => header.count.toNat).getD 1 > 1
  · have present : (payloadHeader.isSome &&
        decide ((payloadHeader.map fun header => header.count.toNat).getD 1 > 1)) = true := by
      simpa using several
    rw [present] at table length consecutive ⊢
    rw [if_pos several]
    exact ⟨congrArg some (decodeEach_consecutive table).1, length, consecutive⟩
  · have absent : (payloadHeader.isSome &&
        decide ((payloadHeader.map fun header => header.count.toNat).getD 1 > 1)) = false := by
      simpa using several
    rw [absent] at length consecutive ⊢
    rw [if_neg several]
    exact ⟨rfl, length, consecutive⟩

theorem messageRestDecodeBinary_good {head : MessageHead} {promotedFields : Option PromotedFields}
    {start : Nat} (success : (messageRestDecodeBinary input head promotedFields start).status = good) :
    let security := decodeWhen head.read.securityEnabled (securityHeaderDecodeBinary input) start
    let payload := payloadDecodeBinary input head.payloadHeader security.pos
    let message := (messageRestDecodeBinary input head promotedFields start).value
    payload.status = good ∧ message.payload = payload.value ∧
      message.payloadHeader = head.payloadHeader ∧ message.promotedFields = promotedFields := by
  obtain ⟨-, afterSecurity, -, values⟩ := Res.thenCheck_good success
  rw [messageRestDecodeBinary, messageTailDecodeBinary, values]
  split at afterSecurity
  · exact absurd afterSecurity (by decide : badNotImplemented ≠ good)
  · rename_i dataSet
    obtain ⟨payloadGood, afterPayload, -, values⟩ := Res.thenCheck_good afterSecurity
    rw [if_neg dataSet, values]
    obtain ⟨-, -, -, values⟩ := Res.thenCheck_good afterPayload
    rw [values, Res.map_eq]
    exact ⟨payloadGood, rfl, rfl, rfl⟩

theorem promotedPartDecodeBinary_inOrder {pos : Nat} {promoted : PromotedFields}
    (success : (promotedPartDecodeBinary input pos).status = good)
    (found : (promotedPartDecodeBinary input pos).value.2 = some promoted) :
    let size := promotedSizeDecodeBinary input pos
    let stop := (promotedPartDecodeBinary input pos).pos
    Consecutive (uaVariantDecodeBinary input) promoted.promotedFields size.pos stop ∧
      size.pos + size.value.toNat ≤ stop ∧
      ∀ start ∈ wireStarts (uaVariantDecodeBinary input) promoted.promotedFields.length size.pos,
        start < size.pos + size.value.toNat := by
  obtain ⟨-, rest, final, values⟩ := Res.thenCheck_good success
  rw [promotedPartDecodeBinary, values, Res.map_eq] at found
  obtain ⟨-, same, behind, status⟩ := decodeWhen_good found
  rw [promotedPartDecodeBinary, final, Res.map_eq]
  dsimp only
  rw [behind, ← same]
  exact promotedFieldsDecodeBinary_inOrder (status.symm.trans rest)

theorem networkMessageDecodeBinaryInternal_inOrder {pos : Nat}
    (success : (networkMessageDecodeBinaryInternal input pos).status = good) :
    ReadInOrder input pos (networkMessageDecodeBinaryInternal input pos).value := by
  have parts := networkMessageDecodeBinaryInternal_parts input pos
  generalize networkMessageDecodeBinaryInternal input pos = result at *
  rw [parts] at success
  obtain ⟨partGood, tailGood, -, values⟩ := Res.thenCheck_good success
  rw [← parts] at values
  obtain ⟨payloadGood, payload, header, promotedFields⟩ :=
    messageRestDecodeBinary_good tailGood
  rw [← values] at payload header promotedFields
  obtain ⟨sizes, length, consecutive⟩ := payloadDecodeBinary_inOrder payloadGood
  rw [← payload, ← header] at sizes length consecutive
  have count : (result.value.payloadHeader.map fun header => header.count.toNat).getD 1 =
      result.value.messageCount := by
    rw [NetworkMessage.messageCount]
    cases result.value.payloadHeader with
    | none => rfl
    | some header => rfl
  rw [count] at sizes length consecutive
  have start : (securityPartDecodeBinary input pos).pos = _ :=
    congrArg Res.pos (Res.thenCheck_eq partGood _)
  dsimp only at start
  rw [← start] at consecutive
  exact {
    promoted := fun promoted found =>
      promotedPartDecodeBinary_inOrder partGood (promotedFields.symm.trans found)
    sizes := sizes
    messages := ⟨length, _, consecutive⟩
    frames := fun entry member => by
      obtain ⟨first, inside, decoded, same⟩ := consecutive.mem member
      have reads := @dataSetMessageDecodeBinary_inOrder input first decoded
      rw [same] at reads
      rw [length] at inside
      exact ⟨first, inside, same, reads⟩ }

section Strings

variable {env : TypeEnv} {src : List LittleEndian.Byte} {offset : Nat} {message : NetworkMessage}

/-- The memory of a received string. No custom types are known. -/
def receivedInput (env : TypeEnv) (src : List LittleEndian.Byte) : Input :=
  ⟨src, src.length, { env with custom := [] }, encodingMaxRecursion⟩

/-- Every accepted message is read in order. -/
theorem networkMessageDecodeBinary_inOrder
    (accepted : (networkMessageDecodeBinary env src offset).dst = some message) :
    ReadInOrder (receivedInput env src) offset message := by
  rw [networkMessageDecodeBinary] at accepted
  dsimp only at accepted
  split at accepted
  · rename_i success
    obtain rfl := Option.some.inj accepted
    exact networkMessageDecodeBinaryInternal_inOrder success
  · cases accepted

end Strings

/-- One byte is announced for a promoted field of two, and nine bytes for each of two keep-alive
messages of two. -/
def unmatchedSizes : List LittleEndian.Byte :=
  [0xC1, 0x80, 2, 2, 1, 0, 2, 0, 1, 0, 3, 7, 9, 0, 9, 0, 0x81, 3, 0x81, 3]

theorem unmatchedSizes_readInOrder :
    ∃ message, (networkMessageDecodeBinary sampleEnv unmatchedSizes 0).dst = some message ∧
      ReadInOrder (receivedInput sampleEnv unmatchedSizes) 0 message := by
  have accepted : (networkMessageDecodeBinary sampleEnv unmatchedSizes 0).dst.isSome := by decide
  obtain ⟨message, same⟩ := Option.isSome_iff_exists.mp accepted
  exact ⟨message, same, networkMessageDecodeBinary_inOrder same⟩

/-- The sizes are read and compared with nothing, and the promoted fields run over their end. -/
theorem unmatchedSizes_accepted :
    (¬∀ env src offset message, (networkMessageDecodeBinary env src offset).dst = some message →
      AnnouncedSizes (receivedInput env src) offset message) ∧
      (promotedPartDecodeBinary (receivedInput sampleEnv unmatchedSizes) 0).pos = 12 ∧
      (promotedSizeDecodeBinary (receivedInput sampleEnv unmatchedSizes) 0).pos = 10 ∧
      (promotedSizeDecodeBinary (receivedInput sampleEnv unmatchedSizes) 0).value = 1 := by
  refine ⟨fun claim => ?_, by decide, by decide, by decide⟩
  have accepted : (networkMessageDecodeBinary sampleEnv unmatchedSizes 0).dst.isSome := by decide
  have announced : (networkMessageDecodeBinary sampleEnv unmatchedSizes 0).dst.any
      (fun message => message.payload.sizes == some [9, 9] && message.messageCount == 2) := by
    decide
  obtain ⟨message, same⟩ := Option.isSome_iff_exists.mp accepted
  rw [same] at announced
  have facts : message.payload.sizes = some [9, 9] ∧ message.messageCount = 2 := by
    simpa using announced
  have sizes := (claim _ _ _ _ same).sizes _ facts.1
  rw [messagesStart, facts.1, facts.2] at sizes
  exact absurd sizes (by decide)

end OpcUa
