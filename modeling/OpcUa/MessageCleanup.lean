import OpcUa.AnnouncedSizes

/-!
The clean-up after a NetworkMessage that is rejected. The destination is what the decoding leaves
behind, as far as the clean-up looks at it. An array is `none` for a null pointer, and each cell
tells whether it is set. Arrays without pointers in their elements are given back without a visit.
-/

namespace OpcUa

open StatusCode LittleEndian List

structure FrameDestination where
  dataSetMessageCode : Byte
  fieldEncoding : FieldEncoding
  fieldCount : BitVec 16
  fields : Option (List Bool)

structure Destination where
  promotedFieldsEnabled : Bool
  promotedFieldsSize : BitVec 16
  promotedFields : Option (List Bool)
  networkMessageCode : Byte
  payloadHeaderEnabled : Bool
  count : Byte
  dataSetMessages : Option (List FrameDestination)

def FrameDestination.zero : FrameDestination := ⟨0, .variant, 0, none⟩

def Destination.zero : Destination := ⟨false, 0, none, 0, false, 0, none⟩

/-! What the decoding leaves behind -/

/-- The cells of an array that is filled in order. What follows a failure stays as it was
allocated. -/
def fillEach {α δ : Type} (decode : Nat → Res α) (left : Nat → δ) (allocated : δ) :
    Nat → Nat → List δ
  | 0, _ => []
  | count + 1, pos =>
    left pos ::
      if (decode pos).status = good then fillEach decode left allocated count (decode pos).pos
      else List.replicate count allocated

section Left

variable (input : Input)

/-- The array of a key frame is zeroed, and the field of a delta frame is set once its index is
there. -/
def frameFieldsLeft (code : Byte) (encoding : FieldEncoding) (count pos : Nat) : List Bool :=
  if code.toNat = 0 then List.replicate count true
  else
    fillEach (deltaFrameFieldDecodeBinary input (frameFieldDecodeBinary input encoding))
      (fun pos => (uaUInt16DecodeBinary input pos).status == good) false count pos

def frameLeft (code : Byte) (encoding : FieldEncoding) (pos : Nat) : FrameDestination :=
  let count := uaUInt16DecodeBinary input pos
  if code.toNat > 1 ∨ encoding = .rawData ∨ count.status ≠ good then ⟨code, encoding, 0, none⟩
  else if encoding = .reserved then ⟨code, encoding, count.value, none⟩
  else
    ⟨code, encoding, count.value,
      some (frameFieldsLeft input code encoding count.value.toNat count.pos)⟩

def dataSetMessageLeft (pos : Nat) : FrameDestination :=
  let header := dataSetMessageHeaderDecodeBinary input pos
  -- no array is there before the header is complete
  if header.status ≠ good then .zero
  else frameLeft input header.value.2 header.value.1.fieldEncoding header.pos

/-- The number of promoted fields. Each round takes a cell more and initialises it. -/
def promotedLeft (offsetEnd : Nat) : Nat → Nat → Nat
  | 0, _ => 0
  | round + 1, pos =>
    let field := uaVariantDecodeBinary input pos
    if field.status = good ∧ field.pos < offsetEnd then promotedLeft offsetEnd round field.pos + 1
    else 1

def promotedFieldsLeft (head : MessageHead) (pos : Nat) : Nat :=
  let size := uaUInt16DecodeBinary input pos
  if head.read.promotedFieldsEnabled ∧ size.status = good ∧ size.value.toNat > 0 then
    promotedLeft input (size.pos + size.value.toNat) (input.length + 1) size.pos
  else 0

def headLeft (head : MessageHead) (pos : Nat) : Destination :=
  let promoted := promotedFieldsLeft input head pos
  { promotedFieldsEnabled := head.read.promotedFieldsEnabled
    promotedFieldsSize := BitVec.ofNat 16 promoted
    promotedFields := if promoted = 0 then none else some (List.replicate promoted true)
    networkMessageCode := head.read.networkMessageCode
    payloadHeaderEnabled := head.payloadHeader.isSome
    count := (head.payloadHeader.map fun header => header.count).getD 0
    dataSetMessages := none }

def payloadCount (payloadHeader : Option DataSetPayloadHeader) : Nat :=
  (payloadHeader.map fun header => header.count.toNat).getD 1

def sizesDecodeBinary (head : MessageHead) (pos : Nat) : Res (Option (List (BitVec 16))) :=
  (decodeWhen head.read.securityEnabled (securityHeaderDecodeBinary input) pos).thenCheck fun _ =>
    decodeWhen (head.payloadHeader.isSome && payloadCount head.payloadHeader > 1)
      (decodeEach (uaUInt16DecodeBinary input) (payloadCount head.payloadHeader))

def networkMessageLeft (pos : Nat) : Destination :=
  let head := messageHeadDecodeBinary input pos
  let promoted := promotedPartDecodeBinary input pos
  let sizes := sizesDecodeBinary input head.value promoted.pos
  -- no array that is walked is there before the head is complete
  if head.status ≠ good then .zero
  else if promoted.status = good ∧ head.value.read.networkMessageCode.toNat = 0 ∧
      sizes.status = good then
    { headLeft input head.value head.pos with
      dataSetMessages :=
        some (fillEach (dataSetMessageDecodeBinary input) (dataSetMessageLeft input) .zero
          (payloadCount head.value.payloadHeader) sizes.pos) }
  else headLeft input head.value head.pos

end Left

/-! What the clean-up visits -/

def visits (array : Option (List Bool)) (count : Nat) : List (Option Bool) :=
  (List.range count).map fun index => array.bind fun cells => cells[index]?

def dataSetMessageFree (frame : FrameDestination) : List (Option Bool) :=
  if frame.fields.isNone then []
  else
    match frame.dataSetMessageCode.toNat, frame.fieldEncoding with
    | 0, _ => visits frame.fields frame.fieldCount.toNat
    | 1, .dataValue => visits frame.fields frame.fieldCount.toNat
    | 1, .variant => visits frame.fields frame.fieldCount.toNat
    | _, _ => []

def networkMessageDeleteMembers (destination : Destination) : List (Option Bool) :=
  (if destination.promotedFieldsEnabled then
      visits destination.promotedFields destination.promotedFieldsSize.toNat
    else []) ++
    if destination.networkMessageCode.toNat = 0 then
      match destination.dataSetMessages with
      | none => []
      | some messages =>
        (List.range (if destination.payloadHeaderEnabled then destination.count.toNat
          else 1)).flatMap fun index =>
            ((messages[index]?).map dataSetMessageFree).getD [none]
    else []

def CleansSafely (destination : Destination) : Prop :=
  ∀ visit ∈ networkMessageDeleteMembers destination, visit = some true

section Stops

variable {α : Type}

/-- One of so many values, of which `left` follow, is reached and goes wrong. -/
def Reaches (decode : Nat → Res α) (wrong : Nat → Nat → Prop) : Nat → Nat → Prop
  | 0, _ => False
  | left + 1, pos =>
    wrong left pos ∨ (decode pos).status = good ∧ Reaches decode wrong left (decode pos).pos

variable (input : Input)

/-- A field of a delta frame without an index, or without a value though others follow. -/
def StopsBefore (decode : Nat → Res DataValue) (left pos : Nat) : Prop :=
  (uaUInt16DecodeBinary input pos).status ≠ good ∨
    left > 0 ∧ (deltaFrameFieldDecodeBinary input decode pos).status ≠ good

def StopsInDelta (pos : Nat) : Prop :=
  let header := dataSetMessageHeaderDecodeBinary input pos
  let count := uaUInt16DecodeBinary input header.pos
  let decode := frameFieldDecodeBinary input header.value.1.fieldEncoding
  header.status = good ∧ header.value.2.toNat = 1 ∧
    (header.value.1.fieldEncoding = .variant ∨ header.value.1.fieldEncoding = .dataValue) ∧
    count.status = good ∧
    Reaches (deltaFrameFieldDecodeBinary input decode) (StopsBefore input decode)
      count.value.toNat count.pos

def LeavesUnset (pos : Nat) : Prop :=
  let head := messageHeadDecodeBinary input pos
  let promoted := promotedPartDecodeBinary input pos
  let sizes := sizesDecodeBinary input head.value promoted.pos
  promoted.status = good ∧ head.value.read.networkMessageCode.toNat = 0 ∧ sizes.status = good ∧
    Reaches (dataSetMessageDecodeBinary input) (fun _ => StopsInDelta input)
      (payloadCount head.value.payloadHeader) sizes.pos

end Stops

section Filling

variable {α δ : Type} {decode : Nat → Res α} {left : Nat → δ} {allocated : δ} {holds : δ → Prop}

theorem fillEach_length (count pos : Nat) :
    (fillEach decode left allocated count pos).length = count := by
  induction count generalizing pos with
  | zero => rfl
  | succ count ih =>
    rw [fillEach]
    split
    · exact congrArg (· + 1) (ih _)
    · exact congrArg (· + 1) length_replicate

theorem fillEach_holds {wrong : Nat → Nat → Prop}
    (goes : ∀ after pos, wrong after pos ↔ ¬holds (left pos) ∨
      (decode pos).status ≠ good ∧ after > 0 ∧ ¬holds allocated) (count pos : Nat) :
    (∀ cell ∈ fillEach decode left allocated count pos, holds cell) ↔
      ¬Reaches decode wrong count pos := by
  induction count generalizing pos with
  | zero => simp [fillEach, Reaches]
  | succ count ih =>
    rw [Reaches, goes, fillEach, forall_mem_cons]
    by_cases success : (decode pos).status = good
    · rw [if_pos success, ih]
      simp [success]
    · cases count <;> simp [success]

end Filling

section Frames

variable {input : Input}

theorem visits_whole (cells : List Bool) : visits (some cells) cells.length = cells.map some := by
  apply ext_getElem
  · simp [visits]
  · intro index here there
    have inside : index < cells.length := by simpa using there
    simp [visits, inside]

def FreesSafely (frame : FrameDestination) : Prop :=
  ∀ visit ∈ dataSetMessageFree frame, visit = some true

theorem freesSafely_null {frame : FrameDestination} (null : frame.fields = none) :
    FreesSafely frame := by
  intro visit member
  simp [dataSetMessageFree, null] at member

theorem freesSafely_array {code : Byte} {encoding : FieldEncoding} {fieldCount : BitVec 16}
    {cells : List Bool} (length : cells.length = fieldCount.toNat) (kind : code.toNat ≤ 1)
    (known : encoding = .variant ∨ encoding = .dataValue) :
    FreesSafely ⟨code, encoding, fieldCount, some cells⟩ ↔ ∀ cell ∈ cells, cell = true := by
  have walked : dataSetMessageFree ⟨code, encoding, fieldCount, some cells⟩ = cells.map some := by
    dsimp only [dataSetMessageFree, Option.isNone_some]
    rw [if_neg Bool.false_ne_true, ← visits_whole, length]
    rcases Nat.le_one_iff_eq_zero_or_eq_one.mp kind with key | delta
    · rw [key]
      rcases known with rfl | rfl
      · rfl
      · rfl
    · rw [delta]
      rcases known with rfl | rfl
      · rfl
      · rfl
  rw [FreesSafely, walked, forall_mem_map]
  simp

theorem frameFieldsLeft_length (code : Byte) (encoding : FieldEncoding) (count pos : Nat) :
    (frameFieldsLeft input code encoding count pos).length = count := by
  rw [frameFieldsLeft]
  split
  · exact length_replicate
  · exact fillEach_length count pos

theorem frameFieldsLeft_set {code : Byte} (kind : code.toNat ≤ 1) (encoding : FieldEncoding)
    (count pos : Nat) :
    (∀ cell ∈ frameFieldsLeft input code encoding count pos, cell = true) ↔ ¬(code.toNat = 1 ∧
        Reaches (deltaFrameFieldDecodeBinary input (frameFieldDecodeBinary input encoding))
          (StopsBefore input (frameFieldDecodeBinary input encoding)) count pos) := by
  rw [frameFieldsLeft]
  split
  · rename_i key
    exact ⟨fun _ stops => by omega, fun _ cell member => eq_of_mem_replicate member⟩
  · rename_i other
    have delta : code.toNat = 1 := by omega
    rw [and_iff_right delta]
    refine fillEach_holds (fun after place => ?_) count pos
    rw [StopsBefore]
    by_cases indexed : (uaUInt16DecodeBinary input place).status = good
    · simp [indexed, and_comm]
    · simp [indexed]

theorem dataSetMessageLeft_safe (pos : Nat) :
    FreesSafely (dataSetMessageLeft input pos) ↔ ¬StopsInDelta input pos := by
  rw [dataSetMessageLeft, StopsInDelta]
  generalize dataSetMessageHeaderDecodeBinary input pos = header
  by_cases complete : header.status = good
  · rw [if_neg (not_not.mpr complete), frameLeft]
    generalize uaUInt16DecodeBinary input header.pos = count
    by_cases unread : header.value.2.toNat > 1 ∨ header.value.1.fieldEncoding = .rawData ∨
        count.status ≠ good
    · rw [if_pos unread]
      refine ⟨fun _ stops => ?_, fun _ => freesSafely_null rfl⟩
      obtain ⟨-, delta, known, counted, -⟩ := stops
      rcases unread with other | raw | failed
      · omega
      · rw [raw] at known
        exact known.elim FieldEncoding.noConfusion FieldEncoding.noConfusion
      · exact failed counted
    · rw [if_neg unread]
      obtain ⟨kind, read, counted⟩ := not_or.mp unread |>.imp id not_or.mp
      by_cases reserved : header.value.1.fieldEncoding = .reserved
      · rw [if_pos reserved]
        refine ⟨fun _ stops => ?_, fun _ => freesSafely_null rfl⟩
        obtain ⟨-, -, known, -⟩ := stops
        rw [reserved] at known
        exact known.elim FieldEncoding.noConfusion FieldEncoding.noConfusion
      · have known : header.value.1.fieldEncoding = .variant ∨
            header.value.1.fieldEncoding = .dataValue := by
          cases shape : header.value.1.fieldEncoding <;> simp [shape] at read reserved ⊢
        rw [if_neg reserved, freesSafely_array (frameFieldsLeft_length _ _ _ _)
          (Nat.le_of_not_lt kind) known, frameFieldsLeft_set (Nat.le_of_not_lt kind)]
        exact not_congr ⟨fun stops => ⟨complete, stops.1, known, not_not.mp counted, stops.2⟩,
          fun stops => ⟨stops.2.1, stops.2.2.2.2⟩⟩
  · rw [if_pos complete]
    exact ⟨fun _ stops => complete stops.1, fun _ => freesSafely_null rfl⟩

end Frames

section Message

variable {input : Input} {destination : Destination}

def PromotedSet (destination : Destination) : Prop :=
  ∀ visit ∈ visits destination.promotedFields destination.promotedFieldsSize.toNat,
    visit = some true

theorem cleansSafely_unfilled (promoted : PromotedSet destination)
    (null : destination.dataSetMessages = none) : CleansSafely destination := by
  intro visit member
  rw [networkMessageDeleteMembers, null] at member
  rcases mem_append.mp member with field | message
  · split at field
    · exact promoted visit field
    · cases field
  · split at message <;> cases message

theorem cleansSafely_messages {messages : List FrameDestination} (promoted : PromotedSet destination)
    (array : destination.dataSetMessages = some messages)
    (type : destination.networkMessageCode.toNat = 0)
    (length : messages.length =
      if destination.payloadHeaderEnabled then destination.count.toNat else 1) :
    CleansSafely destination ↔ ∀ frame ∈ messages, FreesSafely frame := by
  have walked : ((List.range messages.length).flatMap fun index =>
      ((messages[index]?).map dataSetMessageFree).getD [none]) =
        messages.flatMap dataSetMessageFree := by
    rw [flatMap_def, flatMap_def]
    congr 1
    apply ext_getElem
    · simp
    · intro index here there
      have inside : index < messages.length := by simpa using there
      simp [inside]
  rw [CleansSafely, networkMessageDeleteMembers, array, if_pos type, ← length]
  dsimp only
  rw [walked]
  constructor
  · intro safe frame member visit visited
    exact safe visit (mem_append_right _ (mem_flatMap.mpr ⟨frame, member, visited⟩))
  · intro safe visit member
    rcases mem_append.mp member with field | message
    · split at field
      · exact promoted visit field
      · cases field
    · obtain ⟨frame, inside, visited⟩ := mem_flatMap.mp message
      exact safe frame inside visit visited

theorem headLeft_promoted (head : MessageHead) (pos : Nat) :
    PromotedSet (headLeft input head pos) := by
  intro visit member
  obtain ⟨index, inside, rfl⟩ := mem_map.mp member
  have bound := mem_range.mp inside
  rw [headLeft] at bound ⊢
  generalize promotedFieldsLeft input head pos = promoted at bound ⊢
  have there : index < promoted := Nat.lt_of_lt_of_le bound (Nat.mod_le _ _)
  rw [if_neg (Nat.ne_of_gt (Nat.zero_lt_of_lt there)), Option.bind_some]
  simp [there]

/-- The clean-up visits only cells that are set, unless a message of the string is a delta frame
that stops before its last field has begun. -/
theorem networkMessage_cleansSafely_iff (env : TypeEnv) (src : List Byte) (pos : Nat) :
    CleansSafely (networkMessageLeft (receivedInput env src) pos) ↔
      ¬LeavesUnset (receivedInput env src) pos := by
  generalize receivedInput env src = input
  rw [networkMessageLeft, LeavesUnset]
  have kept := @headLeft_promoted input (messageHeadDecodeBinary input pos).value
    (messageHeadDecodeBinary input pos).pos
  split
  · rename_i stopped
    refine ⟨fun _ stops => ?_, fun _ => ?_⟩
    · exact stopped (Res.thenCheck_good stops.1).1
    · exact cleansSafely_unfilled (fun visit member => by cases member) rfl
  · split
    · rename_i gets
      obtain ⟨promoted, type, sizes⟩ := gets
      rw [and_iff_right promoted, and_iff_right type, and_iff_right sizes]
      rw [← @fillEach_holds _ _ _ (dataSetMessageLeft input) .zero FreesSafely]
      · refine cleansSafely_messages kept rfl type ?_
        rw [fillEach_length, payloadCount, headLeft]
        cases (messageHeadDecodeBinary input pos).value.payloadHeader with
        | none => rfl
        | some header => rfl
      · intro after place
        have zeroed : FreesSafely .zero := freesSafely_null rfl
        rw [dataSetMessageLeft_safe, not_not]
        exact ⟨Or.inl, fun stops => stops.elim id fun unset => absurd zeroed unset.2.2⟩
    · rename_i stopped
      exact ⟨fun _ stops => stopped ⟨stops.1, stops.2.1, stops.2.2.1⟩,
        fun _ => cleansSafely_unfilled kept rfl⟩

end Message

def stoppedDelta : List Byte := [0x01, 0x81, 0x01, 2, 0]

theorem stoppedDelta_visited :
    ¬∀ env src offset, (networkMessageDecodeBinary env src offset).status ≠ good →
      CleansSafely (networkMessageLeft (receivedInput env src) offset) := by
  intro claim
  have safe := claim sampleEnv stoppedDelta 0 (by decide)
  exact absurd (safe (some false) (by decide)) (by decide)

end OpcUa
