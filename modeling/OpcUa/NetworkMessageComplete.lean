import OpcUa.NetworkMessageSize

/-!
When a success of `UA_NetworkMessage_encodeBinary` means that the message is complete. The
statuses of the payload-header count, the timestamp, the picoseconds and the promoted fields
are lost, so a field of these that does not fit is left out. `Filling` keeps account of the
space in the buffer, of what has been left out and of whether a checked field has failed.
-/

namespace OpcUa

open LittleEndian StatusCode

/-- `ragged` is set when a promoted field does not fit, which has then been written in part. From
there on `space` is a bound on what is left. -/
structure Filling where
  space : Nat
  skipped : Bool
  ragged : Bool
  refused : Bool
deriving DecidableEq, Repr

namespace Filling

def start (size : Nat) : Filling := ⟨size, false, false, false⟩

def take (width : Nat) (filling : Filling) : Filling :=
  { filling with space := if filling.ragged then filling.space else filling.space - width }

def checked (accepted : Bool) (width : Nat) (filling : Filling) : Filling :=
  if accepted && width ≤ filling.space then filling.take width else { filling with refused := true }

def number (width : Nat) (filling : Filling) : Filling :=
  if width ≤ filling.space then filling.take width else { filling with skipped := true }

def variant (env : TypeEnv) (filling : Filling) (value : Value) : Filling :=
  if encodable env value variantType && (valueWire env value variantType).length ≤ filling.space
  then filling.take (valueWire env value variantType).length
  else { filling with ragged := true }

def optional {α : Type} (filling : Filling) (field : Option α) (account : α → Filling → Filling) :
    Filling :=
  match field with
  | some value => account value filling
  | none => filling

variable {filling : Filling}

theorem take_of_ragged (ragged : filling.ragged = true) (width : Nat) :
    filling.take width = filling := by
  rw [take, if_pos ragged]

theorem take_space (exact : filling.ragged = false) (width : Nat) :
    (filling.take width).space = filling.space - width := by
  simp [take, exact]

end Filling

structure Matches (ctx : Ctx) (filling : Filling) : Prop where
  alone : ctx.supply = none
  room : ctx.out.length ≤ ctx.cap
  bound : ctx.cap - ctx.out.length ≤ filling.space
  exact : filling.ragged = false → filling.space = ctx.cap - ctx.out.length
  open_ : filling.refused = false

/-- Either the account is exact, or the space is a bound only. -/
structure Follows (encode : Encoder) (account : Filling → Filling) (accepted : Prop)
    (bytes : List Byte) : Prop where
  stuck : ∀ filling, filling.refused = true → (account filling).refused = true
  lasting : ∀ filling, filling.ragged = true → (account filling).ragged = true
  bounded : ∀ ctx filling, Matches ctx filling → (account filling).ragged = true →
    (encode ctx).1 = good → Matches (encode ctx).2 (account filling)
  run : ∀ ctx filling, Matches ctx filling → (account filling).ragged = false →
    ((account filling).refused = true ∧ (encode ctx).1 ≠ good) ∨
      ((account filling).refused = false ∧ (encode ctx).1 = good ∧
        ∃ written, (encode ctx).2 = ctx.push written ∧ written.length ≤ filling.space ∧
          (account filling).space = filling.space - written.length ∧
          (accepted → written.length ≤ bytes.length) ∧
          ((account filling).skipped = false ↔
            filling.skipped = false ∧ accepted ∧ written = bytes))

namespace Matches

variable {ctx : Ctx} {filling after : Filling} {written : List Byte}

theorem start (size : Nat) : Matches (singleBuffer size) (Filling.start size) :=
  ⟨rfl, Nat.zero_le _, Nat.le_refl _, fun _ => rfl, rfl⟩

section

variable (holds : Matches ctx filling)
include holds

theorem shrink (room : ctx.out.length + written.length ≤ ctx.cap)
    (space : after.space = filling.space) (ragged : after.ragged = true)
    (stillOpen : after.refused = false) : Matches (ctx.push written) after := by
  have bound := holds.bound
  refine ⟨holds.alone, ?_, ?_, fun exact => ?_, stillOpen⟩
  · simpa only [Ctx.push_out, Ctx.push_cap, List.length_append] using room
  · simp only [Ctx.push_out, Ctx.push_cap, List.length_append]
    omega
  · rw [ragged] at exact
    cases exact

theorem push (exact : filling.ragged = false) (short : written.length ≤ filling.space)
    (space : after.space = filling.space - written.length) (stillOpen : after.refused = false) :
    Matches (ctx.push written) after := by
  have before := holds.exact exact
  have room := holds.room
  refine ⟨holds.alone, ?_, ?_, fun _ => ?_, stillOpen⟩
  all_goals
    simp only [Ctx.push_out, Ctx.push_cap, List.length_append]
    omega

end

end Matches

namespace Follows

variable {first second encode : Encoder} {account accountToo : Filling → Filling}
  {accepted acceptedToo : Prop} {bytes more : List Byte}

theorem of_eq (follows : Follows encode account accepted bytes) (same : accepted ↔ acceptedToo)
    (equal : bytes = more) : Follows encode account acceptedToo more := by
  subst equal
  rwa [← propext same]

theorem before (follows : Follows encode account accepted bytes) {filling : Filling}
    (exact : (account filling).ragged = false) : filling.ragged = false := by
  by_contra ragged
  rw [follows.lasting filling (by simpa using ragged)] at exact
  cases exact

theorem succeed : Follows succeed id True [] where
  stuck _ refused := refused
  lasting _ ragged := ragged
  bounded _ _ holds _ _ := holds
  run ctx filling holds _ := by
    refine Or.inr ⟨holds.open_, rfl, [], by simp [OpcUa.succeed], Nat.zero_le _, rfl, ?_, ?_⟩
    · intro _
      exact Nat.le_refl _
    · simp

theorem of_writes {condition : Bool} (writes : Writes encode (condition = true) bytes) :
    Follows encode (Filling.checked condition bytes.length) (condition = true) bytes where
  stuck filling refused := by
    unfold Filling.checked
    split <;> simp [Filling.take, refused]
  lasting filling ragged := by
    unfold Filling.checked
    split <;> simp [Filling.take, ragged]
  bounded ctx filling holds ragged success := by
    obtain ⟨accepted, result, room⟩ := writes.good_only ctx holds.alone holds.room success
    have bound := holds.bound
    have short : bytes.length ≤ filling.space := by omega
    have passes : Filling.checked condition bytes.length filling = filling.take bytes.length := by
      rw [Filling.checked, if_pos (by simp [accepted, short])]
    rw [passes] at ragged ⊢
    have before : filling.ragged = true := ragged
    rw [result, Filling.take_of_ragged before]
    exact holds.shrink room rfl before holds.open_
  run ctx filling holds exact := by
    have open_ : filling.ragged = false := by
      unfold Filling.checked at exact
      split at exact <;> exact exact
    have space := holds.exact open_
    by_cases fits : condition = true ∧ bytes.length ≤ filling.space
    · have room : ctx.out.length + bytes.length ≤ ctx.cap := by
        have bound := holds.room
        omega
      have result := writes.run ctx holds.alone fits.1 room
      rw [Filling.checked, if_pos (by simpa using fits), result]
      refine Or.inr ⟨holds.open_, rfl, bytes, rfl, fits.2, Filling.take_space open_ _,
        fun _ => Nat.le_refl _, ?_⟩
      simp [Filling.take, fits.1]
    · rw [Filling.checked, if_neg (by simpa using fits)]
      refine Or.inl ⟨rfl, fun success => fits ?_⟩
      obtain ⟨holdsToo, -, room⟩ := writes.good_only ctx holds.alone holds.room success
      exact ⟨holdsToo, by omega⟩

theorem andThen (follows : Follows first account accepted bytes)
    (continues : Follows second accountToo acceptedToo more) :
    Follows (andThen first second) (fun filling => accountToo (account filling))
      (accepted ∧ acceptedToo) (bytes ++ more) where
  stuck filling refused := continues.stuck _ (follows.stuck filling refused)
  lasting filling ragged := continues.lasting _ (follows.lasting filling ragged)
  bounded ctx filling holds ragged success := by
    have firstGood : (first ctx).1 = good := by
      by_contra bad
      simp only [OpcUa.andThen, bad, ↓reduceIte] at success
    simp only [OpcUa.andThen, firstGood, ↓reduceIte] at success ⊢
    refine continues.bounded _ _ ?_ ragged success
    cases between : (account filling).ragged with
    | true => exact follows.bounded ctx filling holds between firstGood
    | false =>
      rcases follows.run ctx filling holds between with
        ⟨-, bad⟩ | ⟨stillOpen, -, written, pushed, short, space, -⟩
      · exact absurd firstGood bad
      · rw [pushed]
        exact holds.push (follows.before between) short space stillOpen
  run ctx filling holds exact := by
    have between := continues.before exact
    rcases follows.run ctx filling holds between with
      ⟨refused, bad⟩ | ⟨stillOpen, success, written, pushed, short, space, bounded, whole⟩
    · refine Or.inl ⟨continues.stuck _ refused, ?_⟩
      simp only [OpcUa.andThen, bad, ↓reduceIte]
      exact bad
    · have next := holds.push (follows.before between) short space stillOpen
      simp only [OpcUa.andThen, success, ↓reduceIte, pushed]
      rcases continues.run (ctx.push written) (account filling) next exact with
        ⟨refused, bad⟩ | ⟨openToo, successToo, rest, pushedToo, shortToo, spaceToo, boundedToo,
          wholeToo⟩
      · exact Or.inl ⟨refused, bad⟩
      · refine Or.inr ⟨openToo, successToo, written ++ rest, by simp [pushedToo], ?_, ?_, ?_, ?_⟩
        · simp only [List.length_append]
          omega
        · simp only [List.length_append]
          omega
        · intro both
          have left := bounded both.1
          have right := boundedToo both.2
          simp only [List.length_append]
          omega
        · rw [wholeToo, whole]
          constructor
          · rintro ⟨⟨nothing, holds1, rfl⟩, holds2, rfl⟩
            exact ⟨nothing, ⟨holds1, holds2⟩, rfl⟩
          · rintro ⟨nothing, ⟨holds1, holds2⟩, equal⟩
            have left := bounded holds1
            have right := boundedToo holds2
            have total := congrArg List.length equal
            simp only [List.length_append] at total
            obtain ⟨same, sameToo⟩ := List.append_inj equal (by omega)
            exact ⟨⟨nothing, holds1, same⟩, holds2, sameToo⟩

theorem encodeOption {α : Type} (field : Option α) {encode : α → Encoder}
    {account : α → Filling → Filling} {accepted : α → Prop} {wire : α → List Byte}
    (follows : ∀ value, field = some value →
      Follows (encode value) (account value) (accepted value) (wire value)) :
    Follows (encodeOption field encode) (fun filling => filling.optional field account)
      (∀ value, field = some value → accepted value) (wireOption field wire) := by
  cases field with
  | none => exact Follows.succeed.of_eq (by simp) rfl
  | some value => exact (follows value rfl).of_eq (by simp) rfl

theorem refusing (bad : ∀ ctx, (encode ctx).1 ≠ good)
    (refuses : ∀ filling, (account filling).refused = true)
    (lasting : ∀ filling, filling.ragged = true → (account filling).ragged = true)
    (bytes : List Byte) : Follows encode account False bytes where
  stuck filling _ := refuses filling
  lasting := lasting
  bounded ctx _ _ _ success := absurd success (bad ctx)
  run ctx filling _ _ := Or.inl ⟨refuses filling, bad ctx⟩

theorem encodeEach {α : Type} (elements : List α) {encode : α → Encoder}
    {account : Filling → α → Filling} {accepted : α → Bool} {wire : α → List Byte}
    (follows : ∀ element, Follows (encode element) (fun filling => account filling element)
      (accepted element = true) (wire element)) :
    Follows (encodeEach encode elements) (fun filling => elements.foldl account filling)
      (elements.all accepted = true) (elements.flatMap wire) := by
  induction elements with
  | nil => exact Follows.succeed.of_eq (by simp) rfl
  | cons first rest ih => exact ((follows first).andThen ih).of_eq (by simp) (by simp)

end Follows

theorem encodeMember_number (memSize : Nat) (bytes : List Byte) (ctx : Ctx)
    (alone : ctx.supply = none) :
    (encodeMember memSize (writeBytes bytes) ctx).2 =
      ctx.push (if ctx.out.length + bytes.length ≤ ctx.cap then bytes else []) := by
  have rounds : ctx.rounds = 1 := by simp [Ctx.rounds, alone]
  by_cases fits : ctx.out.length + bytes.length ≤ ctx.cap
  · rw [if_pos fits]
    have written : writeBytes bytes ctx = (good, ctx.push bytes) := by
      rw [writeBytes, if_neg (by omega)]
    simp only [encodeMember, rounds, retryMember, written]
    rfl
  · rw [if_neg fits, Ctx.push_nil]
    have full : writeBytes bytes ctx = (badEncodingLimitsExceeded, ctx) := by
      rw [writeBytes, if_pos (by omega)]
    have same : ctx.restore ctx = ctx := by simpa using Ctx.restore_push ctx []
    simp only [encodeMember, rounds, retryMember, full, same, ↓reduceIte, exchangeBuffer_alone alone]
    split
    · rfl
    · split <;> rfl

theorem number_follows (memSize : Nat) {bytes : List Byte} {encode : Encoder}
    (equal : encode = encodeMember memSize (writeBytes bytes)) :
    Follows (unchecked encode) (Filling.number bytes.length) True bytes := by
  subst equal
  have result (ctx : Ctx) (alone : ctx.supply = none) := encodeMember_number memSize bytes ctx alone
  have same (filling : Filling) : (Filling.number bytes.length filling).ragged = filling.ragged ∧
      (Filling.number bytes.length filling).refused = filling.refused := by
    unfold Filling.number
    split <;> exact ⟨rfl, rfl⟩
  refine ⟨fun filling refused => (same filling).2.trans refused,
    fun filling ragged => (same filling).1.trans ragged, ?_, ?_⟩
  · intro ctx filling holds ragged success
    have before := (same filling).1.symm.trans ragged
    have space : (Filling.number bytes.length filling).space = filling.space := by
      unfold Filling.number
      split
      · rw [Filling.take_of_ragged before]
      · rfl
    rw [OpcUa.unchecked, result ctx holds.alone]
    refine holds.shrink ?_ space ragged ((same filling).2.trans holds.open_)
    have room := holds.room
    split
    · assumption
    · simpa using room
  · intro ctx filling holds exact
    have before := (same filling).1.symm.trans exact
    have space := holds.exact before
    have room := holds.room
    refine Or.inr ⟨(same filling).2.trans holds.open_, rfl, _, by
      rw [OpcUa.unchecked, result ctx holds.alone], ?_⟩
    by_cases fits : bytes.length ≤ filling.space
    · rw [if_pos (by omega), Filling.number, if_pos fits, Filling.take_space before]
      simp [Filling.take, fits]
    · rw [if_neg (by omega), Filling.number, if_neg fits]
      have other : bytes ≠ [] := by
        rintro rfl
        exact fits (Nat.zero_le _)
      simp [other.symm]

/-- A Variant that does not fit is written in part, and what it leaves is not in the account. -/
theorem variant_follows (env : TypeEnv) (value : Value) :
    Follows (unchecked (uaVariantEncodeBinary env value))
      (fun filling => filling.variant env value) (encodable env value variantType = true)
      (valueWire env value variantType) := by
  have writes := uaVariantEncodeBinary_writes env value
  have refused (filling : Filling) : (filling.variant env value).refused = filling.refused := by
    unfold Filling.variant
    split <;> rfl
  refine ⟨fun filling stuck => (refused filling).trans stuck, ?_, ?_, ?_⟩
  · intro filling ragged
    unfold Filling.variant
    split
    · exact ragged
    · rfl
  · intro ctx filling holds ragged _
    obtain ⟨written, result, fits, -⟩ := writes.pushes ctx holds.alone holds.room
    rw [OpcUa.unchecked, result]
    refine holds.shrink fits ?_ ragged ((refused filling).trans holds.open_)
    unfold Filling.variant at ragged ⊢
    split at ragged
    · rename_i passes
      have before : filling.ragged = true := ragged
      rw [if_pos passes, Filling.take_of_ragged before]
    · rename_i fails
      rw [if_neg fails]
  · intro ctx filling holds exact
    unfold Filling.variant at exact
    split at exact
    · rename_i passes
      have before : filling.ragged = false := exact
      have space := holds.exact before
      have room := holds.room
      simp only [Bool.and_eq_true, decide_eq_true_eq] at passes
      have result := writes.run ctx holds.alone passes.1 (by omega)
      refine Or.inr ⟨(refused filling).trans holds.open_, rfl, _, by rw [OpcUa.unchecked, result],
        passes.2, ?_⟩
      rw [Filling.variant, if_pos (by simpa using passes), Filling.take_space before]
      simp [Filling.take, passes.1]
    · cases exact

namespace Filling

def payloadHeader (type : NetworkMessageType) (header : DataSetPayloadHeader) (filling : Filling) :
    Filling :=
  (filling.number 1).checked (type == .dataSet && header.dataSetWriterIds.isSome)
    (2 * header.count.toNat)

def promotedFields (env : TypeEnv) (promoted : PromotedFields) (filling : Filling) : Filling :=
  promoted.fields.foldl (variant env) (filling.number 2)

def message (env : TypeEnv) (message : NetworkMessage) (filling : Filling) : Filling :=
  (((((filling.checked (headEncodable message) (headWire message).length).optional
    message.payloadHeader (payloadHeader message.networkMessageType)).optional
    message.timestamp fun _ => number 8).optional
    message.picoseconds fun _ => number 2).optional
    message.promotedFields (promotedFields env)).checked (tailEncodable env message)
      (tailWire env message).length

end Filling

theorem andThen_assoc (first second third : Encoder) :
    andThen (andThen first second) third = andThen first (andThen second third) := by
  funext ctx
  simp only [andThen]
  by_cases success : (first ctx).1 = good
  · simp only [success, ↓reduceIte]
  · simp only [success, ↓reduceIte]

section Messages

variable (env : TypeEnv)

theorem payloadHeader_follows (type : NetworkMessageType) {header : DataSetPayloadHeader}
    (whole : header.dataSetWriterIds.all (fun ids => ids.length == header.count.toNat) = true) :
    Follows (payloadHeaderEncodeBinary env type header) (Filling.payloadHeader type header)
      ((type == .dataSet && header.dataSetWriterIds.isSome) = true) (payloadHeaderWire header) := by
  have count : Follows (unchecked (uaByteEncodeBinary env header.count)) (Filling.number 1) True
      [header.count] := number_follows 1 rfl
  by_cases dataSet : type = .dataSet
  · subst dataSet
    cases given : header.dataSetWriterIds with
    | none =>
      refine (Follows.refusing ?_ ?_ ?_ _).of_eq (by simp) rfl
      · intro ctx
        simp [payloadHeaderEncodeBinary, given, andThen, unchecked, failWith, badEncodingError, good]
      · intro filling
        simp [Filling.payloadHeader, Filling.checked, given]
      · intro filling ragged
        simp [Filling.payloadHeader, Filling.checked, given, count.lasting filling ragged]
    | some ids =>
      simp only [given, Option.all_some, beq_iff_eq] at whole
      have numbers : Writes (encodeEach (uaUInt16EncodeBinary env) (ids.take header.count.toNat))
          (true = true) ((ids.take header.count.toNat).flatMap word16Wire) :=
        (Writes.encodeNumbers _ (uaUInt16EncodeBinary_writes env)).of_eq (by simp) rfl
      have width : ((ids.take header.count.toNat).flatMap word16Wire).length =
          2 * header.count.toNat := by
        rw [numbers_length _ word16Wire_length, List.length_take, whole, Nat.min_self]
      have follows := count.andThen (Follows.of_writes numbers)
      rw [width] at follows
      simp only [payloadHeaderEncodeBinary, given, payloadHeaderWire]
      unfold Filling.payloadHeader
      rw [given]
      exact follows.of_eq (by simp) rfl
  · refine (Follows.refusing ?_ ?_ ?_ _).of_eq (by simp [dataSet]) rfl
    · intro ctx
      simp [payloadHeaderEncodeBinary, dataSet, failWith, badNotImplemented, good]
    · intro filling
      simp [Filling.payloadHeader, Filling.checked, dataSet]
    · intro filling ragged
      simp [Filling.payloadHeader, Filling.checked, dataSet, count.lasting filling ragged]

theorem promotedFields_follows (promoted : PromotedFields) :
    Follows (promotedFieldsEncodeBinary env promoted) (Filling.promotedFields env promoted)
      (promotedEncodable env promoted = true) (promotedFieldsWire env promoted) := by
  have size : Follows (unchecked (uaUInt16EncodeBinary env (promotedSize env promoted.fields)))
      (Filling.number 2) True (word16Wire (promotedSize env promoted.fields)) :=
    number_follows 2 rfl
  exact (size.andThen (Follows.encodeEach promoted.fields (variant_follows env))).of_eq
    (iff_of_eq (true_and _)) rfl

theorem timestamp_follows (time : BitVec 64) :
    Follows (unchecked (uaDateTimeEncodeBinary env time)) (Filling.number 8) True (word64Wire time) :=
  number_follows 8 rfl

theorem picoseconds_follows (part : BitVec 16) :
    Follows (unchecked (uaUInt16EncodeBinary env part)) (Filling.number 2) True (word16Wire part) :=
  number_follows 2 rfl

section

variable {message : NetworkMessage} (consistent : message.consistent = true)
include consistent

theorem networkMessage_follows :
    Follows (networkMessageEncodeBinary env message) (Filling.message env message)
      (networkMessageEncodable env message = true) (networkMessageWire env message) := by
  simp only [NetworkMessage.consistent, Bool.and_eq_true, decide_eq_true_eq, Option.all_eq_true]
    at consistent
  have head := Follows.of_writes (head_writes env message)
  have header := Follows.encodeOption message.payloadHeader fun header present =>
    payloadHeader_follows env message.networkMessageType
      (by simpa [Option.all_eq_true] using consistent.1.1.1.1.1.1 header present)
  have timestamp := Follows.encodeOption message.timestamp fun time _ => timestamp_follows env time
  have picoseconds :=
    Follows.encodeOption message.picoseconds fun part _ => picoseconds_follows env part
  have promoted := Follows.encodeOption message.promotedFields fun fields _ =>
    promotedFields_follows env fields
  have tail := Follows.of_writes (tail_writes env message consistent.1.1.1.2)
  have follows := head.andThen (header.andThen (timestamp.andThen (picoseconds.andThen
    (promoted.andThen tail))))
  rw [andThen_assoc, andThen_assoc, andThen_assoc] at follows
  refine follows.of_eq ?_ rfl
  simp only [networkMessageEncodable, tailEncodable, Bool.and_eq_true, Option.all_eq_true,
    beq_iff_eq, implies_true, true_and]
  constructor
  · rintro ⟨headHolds, ids, fields, tailHolds⟩
    exact ⟨⟨⟨headHolds, fun header present => (ids header present).2⟩, fields⟩, tailHolds⟩
  · rintro ⟨⟨⟨headHolds, ids⟩, fields⟩, tailHolds⟩
    exact ⟨headHolds, fun header present => ⟨tailHolds.1.1.1, ids header present⟩, fields, tailHolds⟩

theorem networkMessageEncodeBinary_refused {size : Nat}
    (refused : (Filling.message env message (Filling.start size)).refused = true) :
    (networkMessageEncodeBinary env message (singleBuffer size)).1 ≠ good := by
  have follows := networkMessage_follows env consistent
  cases ragged : (Filling.message env message (Filling.start size)).ragged with
  | true =>
    intro success
    have stillOpen := (follows.bounded _ _ (Matches.start size) ragged success).open_
    rw [refused] at stillOpen
    cases stillOpen
  | false =>
    rcases follows.run _ _ (Matches.start size) ragged with ⟨-, bad⟩ | ⟨stillOpen, -⟩
    · exact bad
    · rw [refused] at stillOpen
      cases stillOpen

end

/-- A success means that the whole message has been written, and a buffer that is shorter
than the computed size leads to an error. -/
def completeOnSuccess (message : NetworkMessage) (size : Nat) : Prop :=
  ((networkMessageEncodeBinary env message (singleBuffer size)).1 = good →
    networkMessageEncodable env message = true ∧
    (networkMessageEncodeBinary env message (singleBuffer size)).2.out =
      networkMessageWire env message ∧
    (networkMessageEncodeBinary env message (singleBuffer size)).2.out.length =
      networkMessageCalcSizeBinary env message) ∧
  (size < networkMessageCalcSizeBinary env message →
    (networkMessageEncodeBinary env message (singleBuffer size)).1 ≠ good)

/-- What is left out is noticed, if anything is: a checked field behind it does not fit. -/
def LeavesNothingOut (message : NetworkMessage) (size : Nat) : Prop :=
  (Filling.message env message (Filling.start size)).refused = false →
    (Filling.message env message (Filling.start size)).skipped = false ∧
      (Filling.message env message (Filling.start size)).ragged = false ∧
      messageDefect env message = 0

end Messages

def keepAliveMessage : NetworkMessage :=
  { version := 1
    publisherIdEnabled := false
    publisherId := .byte 0
    dataSetClassId := none
    groupHeader := none
    payloadHeader := none
    timestamp := some 0x1122334455667788
    picoseconds := none
    chunkMessage := false
    networkMessageType := .dataSet
    promotedFields := none
    securityHeader := none
    payload := ⟨none, [⟨⟨true, .variant, none, none, none, none, none, none⟩, .keepAlive⟩]⟩
    securityFooter := []
    signature := .null }

end OpcUa
