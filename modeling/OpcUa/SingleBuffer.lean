import OpcUa.Wire

/-!
With a single buffer and no callback the encoder writes the bytes of `valueWire` exactly
if the value is accepted and the bytes fit; otherwise it fails.
-/

namespace OpcUa

open LittleEndian StatusCode List

variable {accepted : Prop} {bytes : List Byte}

structure Ctx.Alike (ctx other : Ctx) : Prop where
  alone : ctx.supply = none
  aloneToo : other.supply = none
  room : ctx.out.length ≤ ctx.cap
  space : ctx.cap - ctx.out.length = other.cap - other.out.length
  roomToo : other.out.length ≤ other.cap

/-- The encoder appends to the buffer, also when it fails. It succeeds only with the
given bytes and only if the value is accepted, and it does succeed if they fit. What it
does depends on the space in the buffer only. -/
structure Writes (encode : Encoder) (accepted : Prop) (bytes : List Byte) : Prop where
  pushes : ∀ ctx, ctx.supply = none → ctx.out.length ≤ ctx.cap →
    ∃ written, (encode ctx).2 = ctx.push written ∧ ctx.out.length + written.length ≤ ctx.cap ∧
      ((encode ctx).1 = good → accepted ∧ written = bytes)
  succeeds : ∀ ctx, ctx.supply = none → accepted → ctx.out.length + bytes.length ≤ ctx.cap →
    (encode ctx).1 = good
  steady : ∀ ctx other, Ctx.Alike ctx other → ∃ status written,
    encode ctx = (status, ctx.push written) ∧ encode other = (status, other.push written)

namespace Ctx

section

variable (ctx : Ctx) (bytes : List Byte)

@[simp] theorem push_supply : (ctx.push bytes).supply = ctx.supply :=
  rfl

@[simp] theorem push_cap : (ctx.push bytes).cap = ctx.cap := rfl

@[simp] theorem push_out : (ctx.push bytes).out = ctx.out ++ bytes := rfl

@[simp] theorem push_sent : (ctx.push bytes).sent = ctx.sent := rfl

@[simp] theorem push_fault : (ctx.push bytes).fault = ctx.fault := rfl

end

@[simp] theorem push_nil (ctx : Ctx) : ctx.push [] = ctx := by simp [push]

@[simp] theorem push_push (ctx : Ctx) (first second : List Byte) :
    (ctx.push first).push second = ctx.push (first ++ second) := by simp [push]

@[simp] theorem restore_push (ctx : Ctx) (bytes : List Byte) : (ctx.push bytes).restore ctx = ctx := by
  simp [restore, push]

theorem Alike.push {ctx other : Ctx} (alike : Alike ctx other) {written : List Byte}
    (fits : ctx.out.length + written.length ≤ ctx.cap) :
    Alike (ctx.push written) (other.push written) := by
  have space := alike.space
  have room := alike.roomToo
  refine ⟨alike.alone, alike.aloneToo, ?_, ?_, ?_⟩
  all_goals
    simp only [push_out, push_cap, length_append]
    omega

end Ctx

namespace Writes

variable {first second encode : Encoder} {acceptedToo : Prop} {more : List Byte}

theorem of_eq (writes : Writes encode accepted bytes) (same : accepted ↔ acceptedToo)
    (equal : bytes = more) : Writes encode acceptedToo more := by
  subst equal
  rwa [← propext same]

theorem rejected (writes : Writes encode False bytes) (more : List Byte) :
    Writes encode False more where
  pushes ctx alone room := by
    obtain ⟨written, result, fits, only⟩ := writes.pushes ctx alone room
    exact ⟨written, result, fits, fun success => (only success).1.elim⟩
  succeeds _ _ never _ := never.elim
  steady := writes.steady

section

variable (writes : Writes encode accepted bytes) (ctx : Ctx) (alone : ctx.supply = none)
include writes alone

theorem run (holds : accepted) (fits : ctx.out.length + bytes.length ≤ ctx.cap) :
    encode ctx = (good, ctx.push bytes) := by
  have success := writes.succeeds ctx alone holds fits
  obtain ⟨written, result, _, only⟩ := writes.pushes ctx alone (by omega)
  rw [(only success).2] at result
  exact Prod.ext success result

theorem good_only (room : ctx.out.length ≤ ctx.cap) (success : (encode ctx).1 = good) :
    accepted ∧ (encode ctx).2 = ctx.push bytes ∧ ctx.out.length + bytes.length ≤ ctx.cap := by
  obtain ⟨written, result, fits, only⟩ := writes.pushes ctx alone room
  obtain ⟨holds, rfl⟩ := only success
  exact ⟨holds, result, fits⟩

end

theorem succeed : Writes succeed True [] where
  pushes ctx _ room := ⟨[], by simp [OpcUa.succeed], by simpa using room, fun _ => ⟨trivial, rfl⟩⟩
  succeeds _ _ _ _ := rfl
  steady ctx other _ := ⟨good, [], by simp [OpcUa.succeed], by simp [OpcUa.succeed]⟩

theorem failWith {status : StatusCode} (bad : status ≠ good) (bytes : List Byte) :
    Writes (failWith status) False bytes where
  pushes ctx _ room := ⟨[], by simp [OpcUa.failWith], by simpa using room, fun same => absurd same bad⟩
  succeeds _ _ never _ := never.elim
  steady ctx other _ := ⟨status, [], by simp [OpcUa.failWith], by simp [OpcUa.failWith]⟩

theorem pushed_fits (writes : Writes encode accepted bytes) {ctx : Ctx} {status : StatusCode}
    {written : List Byte} (alone : ctx.supply = none) (room : ctx.out.length ≤ ctx.cap)
    (result : encode ctx = (status, ctx.push written)) :
    ctx.out.length + written.length ≤ ctx.cap ∧ (status = good → accepted ∧ written = bytes) := by
  obtain ⟨same, pushed, fits, only⟩ := writes.pushes ctx alone room
  rw [result] at pushed only
  have equal : written = same := by
    have outs := congrArg Ctx.out pushed
    simpa using outs
  subst equal
  exact ⟨fits, only⟩

theorem andThen (writes : Writes first accepted bytes) (continues : Writes second acceptedToo more) :
    Writes (andThen first second) (accepted ∧ acceptedToo) (bytes ++ more) where
  pushes ctx alone room := by
    obtain ⟨written, result, fits, only⟩ := writes.pushes ctx alone room
    by_cases success : (first ctx).1 = good
    · obtain ⟨holds, rfl⟩ := only success
      obtain ⟨later, resultLater, fitsLater, onlyLater⟩ :=
        continues.pushes (ctx.push written) alone (by simpa using fits)
      refine ⟨written ++ later, ?_, ?_, ?_⟩
      · simp only [OpcUa.andThen, success, ↓reduceIte, result, resultLater, Ctx.push_push]
      · simpa [Nat.add_assoc] using fitsLater
      · simp only [OpcUa.andThen, success, ↓reduceIte, result]
        intro done
        obtain ⟨holdsToo, rfl⟩ := onlyLater done
        exact ⟨⟨holds, holdsToo⟩, rfl⟩
    · refine ⟨written, ?_, fits, ?_⟩
      · simp only [OpcUa.andThen, success, ↓reduceIte, result]
      · simp only [OpcUa.andThen, success, ↓reduceIte]
        exact False.elim
  succeeds ctx alone holds fits := by
    simp only [length_append] at fits
    rw [OpcUa.andThen, writes.run ctx alone holds.1 (by omega)]
    exact continues.succeeds _ alone holds.2 (by simp; omega)
  steady ctx other alike := by
    obtain ⟨status, written, result, resultToo⟩ := writes.steady ctx other alike
    have fits := (writes.pushed_fits alike.alone alike.room result).1
    by_cases success : status = good
    · obtain ⟨later, more, second, secondToo⟩ := continues.steady _ _ (alike.push fits)
      exact ⟨later, written ++ more, by simp [OpcUa.andThen, result, success, second],
        by simp [OpcUa.andThen, resultToo, success, secondToo]⟩
    · exact ⟨status, written, by simp [OpcUa.andThen, result, success],
        by simp [OpcUa.andThen, resultToo, success]⟩

theorem encodeAll_nil : Writes (encodeAll []) True [] := Writes.succeed

theorem encodeAll_cons {rest : List Encoder} (writes : Writes first accepted bytes)
    (continues : Writes (encodeAll rest) acceptedToo more) :
    Writes (encodeAll (first :: rest)) (accepted ∧ acceptedToo) (bytes ++ more) where
  pushes ctx alone room := by
    obtain ⟨written, result, fits, only⟩ := writes.pushes ctx alone room
    obtain ⟨later, resultLater, fitsLater, onlyLater⟩ :=
      continues.pushes (ctx.push written) alone (by simpa using fits)
    refine ⟨written ++ later, ?_, ?_, ?_⟩
    · simp only [encodeAll, result, resultLater, Ctx.push_push]
    · simpa [Nat.add_assoc] using fitsLater
    · simp only [encodeAll, result, or_eq_good_iff]
      rintro ⟨success, done⟩
      obtain ⟨holds, rfl⟩ := only success
      obtain ⟨holdsToo, rfl⟩ := onlyLater done
      exact ⟨⟨holds, holdsToo⟩, rfl⟩
  succeeds ctx alone holds fits := by
    simp only [length_append] at fits
    simp only [encodeAll, writes.run ctx alone holds.1 (by omega), or_eq_good_iff, true_and]
    exact continues.succeeds _ alone holds.2 (by simp; omega)
  steady ctx other alike := by
    obtain ⟨status, written, result, resultToo⟩ := writes.steady ctx other alike
    have fits := (writes.pushed_fits alike.alone alike.room result).1
    obtain ⟨later, more, second, secondToo⟩ := continues.steady _ _ (alike.push fits)
    exact ⟨status ||| later, written ++ more, by simp [encodeAll, result, second],
      by simp [encodeAll, resultToo, secondToo]⟩

theorem encodeWhen {present : Bool} (writes : present = true → Writes encode accepted bytes) :
    Writes (encodeWhen present encode) (present = true → accepted) (wireWhen present bytes) := by
  cases present with
  | false => exact Writes.succeed.of_eq (by simp) rfl
  | true => exact (writes rfl).of_eq (by simp) rfl

theorem encodeOption {α : Type} {field : Option α} {encode : α → Encoder} {wire : α → List Byte}
    {accepted : α → Bool} (writes : ∀ value, Writes (encode value) (accepted value) (wire value)) :
    Writes (encodeOption field encode) (field.all accepted = true) (wireOption field wire) := by
  cases field with
  | none => exact Writes.succeed.of_eq (by simp) rfl
  | some value => exact (writes value).of_eq (by simp) rfl

end Writes

theorem badEncodingLimitsExceeded_ne_good : badEncodingLimitsExceeded ≠ good := by decide

theorem badEncodingError_ne_good : badEncodingError ≠ good := by decide

theorem badResponseTooLarge_ne_good : badResponseTooLarge ≠ good := by decide

theorem writeBytes_writes (bytes : List Byte) : Writes (writeBytes bytes) True bytes where
  pushes ctx alone room := by
    unfold writeBytes
    split
    · exact ⟨[], by simp, by simpa using room,
        fun same => absurd same badEncodingLimitsExceeded_ne_good⟩
    · exact ⟨bytes, rfl, by omega, fun _ => ⟨trivial, rfl⟩⟩
  succeeds ctx _ _ fits := by
    unfold writeBytes
    rw [if_neg (by omega)]
  steady ctx other alike := by
    have space := alike.space
    have room := alike.room
    have roomToo := alike.roomToo
    by_cases full : ctx.out.length + bytes.length > ctx.cap
    · have fullToo : other.out.length + bytes.length > other.cap := by omega
      exact ⟨badEncodingLimitsExceeded, [], by simp [writeBytes, full], by simp [writeBytes, fullToo]⟩
    · have fitsToo : ¬other.out.length + bytes.length > other.cap := by omega
      exact ⟨good, bytes, by simp [writeBytes, full], by simp [writeBytes, fitsToo]⟩

theorem exchangeBuffer_alone {ctx : Ctx} (alone : ctx.supply = none) :
    exchangeBuffer ctx = (badEncodingError, ctx) := by
  simp [exchangeBuffer, alone]

theorem encodeWithExchangeBuffer_writes (bytes : List Byte) :
    Writes (encodeWithExchangeBuffer bytes) True bytes where
  pushes ctx alone room := by
    by_cases full : ctx.out.length + bytes.length > ctx.cap
    · refine ⟨[], ?_, by simpa using room, ?_⟩
      · simp [encodeWithExchangeBuffer, writeBytes, full, exchangeBuffer, alone,
          badEncodingError_ne_good]
      · simp only [encodeWithExchangeBuffer, writeBytes, full, ↓reduceIte, exchangeBuffer, alone,
          badEncodingError_ne_good]
        exact False.elim
    · refine ⟨bytes, ?_, by omega, fun _ => ⟨trivial, rfl⟩⟩
      simp only [encodeWithExchangeBuffer, writeBytes, full, ↓reduceIte,
        badEncodingLimitsExceeded_ne_good.symm]
  succeeds ctx _ _ fits := by
    have space : ¬ctx.out.length + bytes.length > ctx.cap := by omega
    simp only [encodeWithExchangeBuffer, writeBytes, space, ↓reduceIte,
      badEncodingLimitsExceeded_ne_good.symm]
  steady ctx other alike := by
    obtain ⟨status, written, result, resultToo⟩ := (writeBytes_writes bytes).steady ctx other alike
    by_cases full : status = badEncodingLimitsExceeded
    · refine ⟨badEncodingError, written, ?_, ?_⟩
      · rw [encodeWithExchangeBuffer, result]
        simp [full, exchangeBuffer_alone (show (ctx.push written).supply = none from alike.alone),
          badEncodingError_ne_good]
      · rw [encodeWithExchangeBuffer, resultToo]
        simp [full, exchangeBuffer_alone (show (other.push written).supply = none from
          alike.aloneToo), badEncodingError_ne_good]
    · exact ⟨good, written, by simp [encodeWithExchangeBuffer, result, full],
        by simp [encodeWithExchangeBuffer, resultToo, full]⟩

theorem arrayEncodeBinaryOverlayable_writes (elementMemSize : Nat) (memory : List Byte) :
    Writes (arrayEncodeBinaryOverlayable elementMemSize memory) True memory where
  pushes ctx alone room := by
    simp only [arrayEncodeBinaryOverlayable, Ctx.rounds, alone, Option.getD_none, length_nil,
      Nat.zero_add, overlayLoop]
    split
    · rw [exchangeBuffer_alone (by exact alone)]
      simp only [badEncodingError_ne_good, ↓reduceIte]
      refine ⟨_, rfl, ?_, False.elim⟩
      have whole := Nat.div_mul_le_self (ctx.cap - ctx.out.length) elementMemSize
      simp only [length_take]
      omega
    · exact ⟨memory, rfl, by omega, fun _ => ⟨trivial, rfl⟩⟩
  succeeds ctx alone _ fits := by
    have space : ¬ctx.cap < ctx.out.length + memory.length := by omega
    simp [arrayEncodeBinaryOverlayable, Ctx.rounds, alone, overlayLoop, space]
  steady ctx other alike := by
    have space := alike.space
    have room := alike.room
    have roomToo := alike.roomToo
    have rounds : ctx.rounds = 0 + 1 := by simp [Ctx.rounds, alike.alone]
    have roundsToo : other.rounds = 0 + 1 := by simp [Ctx.rounds, alike.aloneToo]
    simp only [arrayEncodeBinaryOverlayable, rounds, roundsToo, overlayLoop, ← space]
    by_cases full : ctx.cap < ctx.out.length + memory.length
    · have fullToo : other.cap < other.out.length + memory.length := by omega
      rw [if_pos full, if_pos fullToo, exchangeBuffer_alone (by exact alike.alone),
        exchangeBuffer_alone (by exact alike.aloneToo)]
      simp only [badEncodingError_ne_good, ↓reduceIte]
      exact ⟨badEncodingError, _, rfl, rfl⟩
    · have fitsToo : ¬other.cap < other.out.length + memory.length := by omega
      rw [if_neg full, if_neg fitsToo]
      exact ⟨good, memory, rfl, rfl⟩

theorem encodeElement_writes {encode : Encoder} (writes : Writes encode accepted bytes) :
    Writes (encodeElement encode) accepted bytes where
  pushes ctx alone room := by
    obtain ⟨written, result, fits, only⟩ := writes.pushes ctx alone room
    simp only [encodeElement, Ctx.rounds, alone, Option.getD_none, length_nil,
      Nat.zero_add, retryElement, result, Ctx.restore_push, exchangeBuffer_alone alone,
      badEncodingError_ne_good, ↓reduceIte]
    split
    · exact ⟨[], by simp, by simpa using room, fun same => absurd same badEncodingError_ne_good⟩
    · exact ⟨written, rfl, fits, only⟩
  succeeds ctx alone holds fits := by
    simp only [encodeElement, Ctx.rounds, alone, Option.getD_none, length_nil,
      Nat.zero_add, retryElement, writes.run ctx alone holds fits,
      badEncodingLimitsExceeded_ne_good.symm, ↓reduceIte]
  steady ctx other alike := by
    obtain ⟨status, written, result, resultToo⟩ := writes.steady ctx other alike
    have rounds : ctx.rounds = 0 + 1 := by simp [Ctx.rounds, alike.alone]
    have roundsToo : other.rounds = 0 + 1 := by simp [Ctx.rounds, alike.aloneToo]
    simp only [encodeElement, rounds, roundsToo, retryElement, result, resultToo, Ctx.restore_push,
      exchangeBuffer_alone alike.alone, exchangeBuffer_alone alike.aloneToo,
      badEncodingError_ne_good, ↓reduceIte]
    split
    · exact ⟨badEncodingError, [], by simp, by simp⟩
    · exact ⟨status, written, rfl, rfl⟩

theorem encodeMember_writes {encode : Encoder} (memSize : Nat)
    (writes : Writes encode accepted bytes) :
    Writes (encodeMember memSize encode) accepted bytes where
  pushes ctx alone room := by
    obtain ⟨written, result, fits, only⟩ := writes.pushes ctx alone room
    simp only [encodeMember, Ctx.rounds, alone, Option.getD_none, length_nil,
      Nat.zero_add, retryMember, result, Ctx.restore_push, exchangeBuffer_alone alone,
      badEncodingError_ne_good, ↓reduceIte]
    split
    · split
      · exact ⟨[], by simp, by simpa using room,
          fun same => absurd same badResponseTooLarge_ne_good⟩
      · exact ⟨[], by simp, by simpa using room, fun same => absurd same badEncodingError_ne_good⟩
    · exact ⟨written, rfl, fits, only⟩
  succeeds ctx alone holds fits := by
    simp only [encodeMember, Ctx.rounds, alone, Option.getD_none, length_nil,
      Nat.zero_add, retryMember, writes.run ctx alone holds fits,
      badEncodingLimitsExceeded_ne_good.symm, ↓reduceIte]
  steady ctx other alike := by
    obtain ⟨status, written, result, resultToo⟩ := writes.steady ctx other alike
    have space := alike.space
    have room := alike.room
    have roomToo := alike.roomToo
    have rounds : ctx.rounds = 0 + 1 := by simp [Ctx.rounds, alike.alone]
    have roundsToo : other.rounds = 0 + 1 := by simp [Ctx.rounds, alike.aloneToo]
    have guard : ctx.out.length + memSize > ctx.cap ↔ other.out.length + memSize > other.cap := by
      omega
    simp only [encodeMember, rounds, roundsToo, retryMember, result, resultToo, Ctx.restore_push,
      exchangeBuffer_alone alike.alone, exchangeBuffer_alone alike.aloneToo,
      badEncodingError_ne_good, ↓reduceIte, guard]
    split
    · split
      · exact ⟨badResponseTooLarge, [], by simp, by simp⟩
      · exact ⟨badEncodingError, [], by simp, by simp⟩
    · exact ⟨status, written, rfl, rfl⟩

theorem encodeBuiltinInternal_writes {encode : Nat → Encoder} (memSize depth : Nat)
    (writes : Writes (encode (depth + 1)) accepted bytes) :
    Writes (encodeBuiltinInternal memSize encode depth) (depth ≤ encodingMaxRecursion ∧ accepted)
      bytes := by
  unfold encodeBuiltinInternal
  split
  · exact (Writes.failWith badEncodingError_ne_good bytes).of_eq
      (iff_of_false id fun both => by omega) rfl
  · exact (encodeMember_writes memSize writes).of_eq (and_iff_right (by omega)).symm rfl

theorem arrayEncodeBinary_writes {content : Encoder} (length : Nat) (isSentinel : Bool)
    (writes : Writes content accepted bytes) (none : length = 0 → accepted ∧ bytes = []) :
    Writes (arrayEncodeBinary length isSentinel content) (length ≤ int32Max ∧ accepted)
      (leBytes 4 (arrayLengthField length isSentinel) ++ bytes) := by
  unfold arrayEncodeBinary
  by_cases long : length > int32Max
  · rw [if_pos long]
    exact (Writes.failWith (by decide) _).of_eq (iff_of_false id fun both => by omega) rfl
  · rw [if_neg long]
    by_cases zero : length = 0
    · rw [if_pos zero]
      exact ((encodeWithExchangeBuffer_writes _).andThen Writes.succeed).of_eq
        (by simp [none zero, zero]) (by rw [(none zero).2])
    · rw [if_neg zero]
      exact ((encodeWithExchangeBuffer_writes _).andThen writes).of_eq
        (by simp only [true_and]; exact (and_iff_right (by omega)).symm) rfl

theorem stringEncodeBinary_writes (text : UaString) :
    Writes (stringEncodeBinary text) (text.accepted = true) (stringWire text) :=
  (arrayEncodeBinary_writes text.length text.isSentinel
    (arrayEncodeBinaryOverlayable_writes 1 text.bytes)
    (fun zero => ⟨trivial, length_eq_zero_iff.mp zero⟩)).of_eq
    (by simp [UaString.accepted]) rfl

theorem guidEncodeBinary_writes (guid : Guid) :
    Writes (guidEncodeBinary guid) True (guidWire guid) := by
  have head : Writes (encodeAll [uint32EncodeBinary guid.data1, uint16EncodeBinary guid.data2,
      uint16EncodeBinary guid.data3]) True
      (leBytes 4 guid.data1.toNat ++ leBytes 2 guid.data2.toNat ++ leBytes 2 guid.data3.toNat) :=
    ((writeBytes_writes _).encodeAll_cons ((writeBytes_writes _).encodeAll_cons
      ((writeBytes_writes _).encodeAll_cons Writes.encodeAll_nil))).of_eq (by simp) (by simp)
  constructor
  · intro ctx alone room
    obtain ⟨written, result, fits, only⟩ := head.pushes ctx alone room
    simp only [guidEncodeBinary, result]
    split
    · exact ⟨written, rfl, fits, fun same => absurd same badEncodingLimitsExceeded_ne_good⟩
    next space =>
      refine ⟨written ++ leBytes 8 guid.data4.toNat, by simp, ?_, ?_⟩
      · simp only [Ctx.push_out, Ctx.push_cap, length_append] at space
        simp only [length_append, leBytes_length]
        omega
      · intro success
        rw [(only success).2]
        exact ⟨trivial, rfl⟩
  · intro ctx alone _ fits
    simp only [guidWire, length_append, leBytes_length] at fits
    have space : ¬ctx.out.length + (4 + 2 + 2) + 8 > ctx.cap := by omega
    simp [guidEncodeBinary, head.run ctx alone trivial (by simp; omega), space]
  · intro ctx other alike
    obtain ⟨status, written, result, resultToo⟩ := head.steady ctx other alike
    have fits := (head.pushed_fits alike.alone alike.room result).1
    have space := alike.space
    have room := alike.room
    have roomToo := alike.roomToo
    have tail : ctx.out.length + written.length + 8 > ctx.cap ↔
        other.out.length + written.length + 8 > other.cap := by omega
    simp only [guidEncodeBinary, result, resultToo, Ctx.push_out, Ctx.push_cap, length_append, tail]
    split
    · exact ⟨badEncodingLimitsExceeded, written, rfl, rfl⟩
    · exact ⟨status, written ++ leBytes 8 guid.data4.toNat, by simp, by simp⟩

theorem nodeIdEncodeBinaryWithEncodingMask_writes (id : NodeId) (mask : Byte) :
    Writes (nodeIdEncodeBinaryWithEncodingMask id mask) (id.accepted = true) (nodeIdWire mask id) := by
  have header (kind : Byte) : Writes
      (encodeAll [byteEncodeBinary (mask ||| kind), uint16EncodeBinary id.namespaceIndex]) True
      ((mask ||| kind) :: leBytes 2 id.namespaceIndex.toNat) :=
    ((writeBytes_writes _).encodeAll_cons ((writeBytes_writes _).encodeAll_cons
      Writes.encodeAll_nil)).of_eq (by simp) (by simp)
  unfold nodeIdEncodeBinaryWithEncodingMask nodeIdWire NodeId.accepted
  cases id.identifier with
  | numeric value =>
    simp only [NodeIdentifier.accepted]
    split
    · exact ((writeBytes_writes _).encodeAll_cons ((writeBytes_writes _).encodeAll_cons
        ((writeBytes_writes _).encodeAll_cons Writes.encodeAll_nil))).of_eq (by simp) (by simp)
    · split
      · exact ((writeBytes_writes _).encodeAll_cons ((writeBytes_writes _).encodeAll_cons
          ((writeBytes_writes _).encodeAll_cons Writes.encodeAll_nil))).of_eq (by simp) (by simp)
      · exact ((writeBytes_writes _).encodeAll_cons ((writeBytes_writes _).encodeAll_cons
          Writes.encodeAll_nil)).of_eq (by simp) (by simp)
  | string value =>
    exact ((header 3).andThen (stringEncodeBinary_writes value)).of_eq
      (by simp [NodeIdentifier.accepted]) (by simp)
  | guid value =>
    exact ((writeBytes_writes _).encodeAll_cons ((writeBytes_writes _).encodeAll_cons
      ((guidEncodeBinary_writes value).encodeAll_cons Writes.encodeAll_nil))).of_eq
      (by simp [NodeIdentifier.accepted]) (by simp)
  | byteString value =>
    exact ((header 5).andThen (stringEncodeBinary_writes value)).of_eq
      (by simp [NodeIdentifier.accepted]) (by simp)

theorem nodeIdEncodeBinary_writes (id : NodeId) :
    Writes (nodeIdEncodeBinary id) (id.accepted = true) (nodeIdWire 0 id) :=
  nodeIdEncodeBinaryWithEncodingMask_writes id 0

theorem expandedNodeIdEncodeBinary_writes (id : ExpandedNodeId) :
    Writes (expandedNodeIdEncodeBinary id)
      ((id.nodeId.accepted && id.namespaceUri.accepted) = true) (expandedNodeIdWire id) := by
  refine ((nodeIdEncodeBinaryWithEncodingMask_writes id.nodeId (expandedNodeIdMask id)).andThen
    ((Writes.encodeWhen fun _ => stringEncodeBinary_writes id.namespaceUri).andThen
      (Writes.encodeWhen fun _ => encodeWithExchangeBuffer_writes _))).of_eq ?_ rfl
  cases id.namespaceUri with
  | null => simp [UaString.beyondSentinel, UaString.accepted, UaString.length, UaString.bytes]
  | empty => simp [UaString.beyondSentinel, UaString.accepted, UaString.length, UaString.bytes]
  | alloc content => simp [UaString.beyondSentinel]

theorem qualifiedNameEncodeBinary_writes (name : QualifiedName) :
    Writes (qualifiedNameEncodeBinary name) (name.name.accepted = true) (qualifiedNameWire name) :=
  ((writeBytes_writes _).encodeAll_cons ((stringEncodeBinary_writes name.name).encodeAll_cons
    Writes.encodeAll_nil)).of_eq (by simp) (by simp [qualifiedNameWire])

theorem present_accepted (text : UaString) :
    (text.nonNull = true → text.accepted = true) ↔ text.accepted = true := by
  cases text with
  | null => simp [UaString.accepted, UaString.length, UaString.bytes]
  | empty => simp [UaString.nonNull]
  | alloc content => simp [UaString.nonNull]

theorem localizedTextEncodeBinary_writes (text : LocalizedText) :
    Writes (localizedTextEncodeBinary text)
      ((text.locale.accepted && text.text.accepted) = true) (localizedTextWire text) :=
  ((writeBytes_writes _).andThen
    ((Writes.encodeWhen fun _ => stringEncodeBinary_writes text.locale).encodeAll_cons
      ((Writes.encodeWhen fun _ => stringEncodeBinary_writes text.text).encodeAll_cons
        Writes.encodeAll_nil))).of_eq
    (by simp [present_accepted]) (by simp [localizedTextWire])

theorem encodedObjectEncodeBinary_writes (encoding : EncodedBody) (typeId : NodeId)
    (body : UaString) :
    Writes (encodedObjectEncodeBinary encoding typeId body)
      ((typeId.accepted && (encoding == .noBody || body.accepted)) = true)
      (encodedObjectWire encoding typeId body) := by
  have header := (nodeIdEncodeBinary_writes typeId)
  cases encoding with
  | noBody =>
    exact (header.andThen ((encodeWithExchangeBuffer_writes _).andThen Writes.succeed)).of_eq
      (by simp) (by simp [encodedObjectWire])
  | byteString =>
    exact (header.andThen ((encodeWithExchangeBuffer_writes _).andThen
      (stringEncodeBinary_writes body))).of_eq (by simp) (by simp [encodedObjectWire])
  | xml =>
    exact (header.andThen ((encodeWithExchangeBuffer_writes _).andThen
      (stringEncodeBinary_writes body))).of_eq (by simp) (by simp [encodedObjectWire])

theorem uint32Option_writes (field : Option (BitVec 32)) :
    Writes (encodeOption field uint32EncodeBinary) True (wireOption field wordWire) := by
  cases field with
  | none => exact Writes.succeed
  | some value => exact writeBytes_writes (wordWire value)

theorem exchangeOption_writes {bits : Nat} (field : Option (BitVec bits)) (width : Nat) :
    Writes (encodeOption field fun word => encodeWithExchangeBuffer (leBytes width word.toNat)) True
      (wireOption field fun word => leBytes width word.toNat) := by
  cases field with
  | none => exact Writes.succeed
  | some word => exact encodeWithExchangeBuffer_writes (leBytes width word.toNat)

theorem diagnosticFieldsEncodeBinary_writes (fields : DiagnosticFields) (hasInner : Bool) :
    Writes (diagnosticFieldsEncodeBinary fields hasInner) (fields.accepted = true)
      (diagnosticFieldsWire fields hasInner) :=
  (((writeBytes_writes _).encodeAll_cons ((uint32Option_writes _).encodeAll_cons
    ((uint32Option_writes _).encodeAll_cons ((uint32Option_writes _).encodeAll_cons
      ((uint32Option_writes _).encodeAll_cons Writes.encodeAll_nil))))).andThen
    ((Writes.encodeOption stringEncodeBinary_writes).andThen (exchangeOption_writes _ 4))).of_eq
    (by simp [DiagnosticFields.accepted]) (by simp [diagnosticFieldsWire]; rfl)

theorem diagnosticInfoEncodeBinary_writes (info : DiagnosticInfo) (depth : Nat) :
    Writes (diagnosticInfoEncodeBinary info depth) (info.accepted depth = true)
      (diagnosticInfoWire info) := by
  induction info generalizing depth with
  | plain fields => exact diagnosticFieldsEncodeBinary_writes fields false
  | nested fields inner ih =>
    exact ((diagnosticFieldsEncodeBinary_writes fields true).andThen
      (encodeBuiltinInternal_writes _ depth (ih (depth + 1)))).of_eq
      (by simp [DiagnosticInfo.accepted]) rfl

theorem leafEncodeBinary_writes (content : Leaf) (depth : Nat) :
    Writes (leafEncodeBinary content depth) (content.accepted depth = true) (leafWire content) := by
  cases content with
  | boolean raw => exact (writeBytes_writes _).of_eq (by simp [Leaf.accepted]) rfl
  | byte value => exact (writeBytes_writes _).of_eq (by simp [Leaf.accepted]) rfl
  | uint16 value => exact (writeBytes_writes _).of_eq (by simp [Leaf.accepted]) rfl
  | uint32 value => exact (writeBytes_writes _).of_eq (by simp [Leaf.accepted]) rfl
  | uint64 value => exact (writeBytes_writes _).of_eq (by simp [Leaf.accepted]) rfl
  | string value => exact stringEncodeBinary_writes value
  | guid value => exact (guidEncodeBinary_writes value).of_eq (by simp [Leaf.accepted]) rfl
  | nodeId value => exact nodeIdEncodeBinary_writes value
  | expandedNodeId value => exact expandedNodeIdEncodeBinary_writes value
  | qualifiedName value => exact qualifiedNameEncodeBinary_writes value
  | localizedText value => exact localizedTextEncodeBinary_writes value
  | extensionObject encoding typeId body => exact encodedObjectEncodeBinary_writes encoding typeId body
  | diagnosticInfo value => exact diagnosticInfoEncodeBinary_writes value depth

theorem binaryTypeId_accepted (type : DataType) : type.binaryTypeId.accepted = true := rfl

theorem decodedObjectEncodeBinary_writes {content : Encoder} (type : DataType) (size : Nat)
    (writes : Writes content accepted bytes) :
    Writes (decodedObjectEncodeBinary type size content)
      (objectAccepted type size = true ∧ accepted) (objectHeaderWire type size ++ bytes) := by
  have typeIdWrites := (nodeIdEncodeBinary_writes type.binaryTypeId).of_eq
    (iff_true_intro (binaryTypeId_accepted type)) rfl
  unfold decodedObjectEncodeBinary
  by_cases numeric : type.typeId.identifier.isNumeric = true
  · rw [if_pos numeric]
    by_cases long : size > int32Max
    · rw [if_pos long]
      have header : Writes (encodeAll [nodeIdEncodeBinary type.binaryTypeId, byteEncodeBinary 1])
          _ _ := typeIdWrites.encodeAll_cons ((writeBytes_writes [1]).encodeAll_cons
            Writes.encodeAll_nil)
      constructor
      · intro ctx alone room
        obtain ⟨written, result, fits, _⟩ := header.pushes ctx alone room
        exact ⟨written, result, fits, fun same => absurd same badEncodingError_ne_good⟩
      · intro ctx _ holds _
        have short : size ≤ int32Max := by simpa [objectAccepted, numeric] using holds.1
        omega
      · intro ctx other alike
        obtain ⟨status, written, result, resultToo⟩ := header.steady ctx other alike
        exact ⟨badEncodingError, written, by rw [result], by rw [resultToo]⟩
    · rw [if_neg long]
      exact ((typeIdWrites.encodeAll_cons ((writeBytes_writes [1]).encodeAll_cons
        ((writeBytes_writes _).encodeAll_cons Writes.encodeAll_nil))).andThen writes).of_eq
        (by simp [objectAccepted, numeric]; omega) (by simp [objectHeaderWire])
  · rw [if_neg numeric]
    exact (Writes.failWith badEncodingError_ne_good _).of_eq (by simp [objectAccepted, numeric]) rfl

theorem dimensionsEncodeBinary_writes (arrayDimensions : List (BitVec 32)) :
    Writes (encodeWhen (arrayDimensions.length > 0) (dimensionsEncodeBinary arrayDimensions))
      (arrayDimensions.length ≤ int32Max) (dimensionsWire arrayDimensions) := by
  have array := arrayEncodeBinary_writes arrayDimensions.length false
    (arrayEncodeBinaryOverlayable_writes 4
      (arrayDimensions.flatMap fun size => leBytes 4 size.toNat))
    (fun zero => by simp [length_eq_zero_iff.mp zero])
  refine (Writes.encodeWhen fun _ => array).of_eq ?_ ?_
  · simp only [decide_eq_true_eq, and_true]
    omega
  · by_cases some : arrayDimensions.length > 0
    · simp [dimensionsWire, wireWhen, some, arrayLengthField]
    · simp [dimensionsWire, wireWhen, some]

theorem dataValueInfoEncodeBinary_writes (info : DataValueInfo) :
    Writes (dataValueInfoEncodeBinary info) True (dataValueInfoWire info) :=
  ((exchangeOption_writes _ 4).encodeAll_cons ((exchangeOption_writes _ 8).encodeAll_cons
    ((exchangeOption_writes _ 2).encodeAll_cons ((exchangeOption_writes _ 8).encodeAll_cons
      ((exchangeOption_writes _ 2).encodeAll_cons Writes.encodeAll_nil))))).of_eq
    (by simp) (by simp [dataValueInfoWire]; rfl)

section Recursive

variable {env : TypeEnv}
variable {elements : List Value}

def ValueWrites (env : TypeEnv) (value : Value) : Prop :=
  ∀ type depth, Writes (encodeBinaryJump env value type depth) (accepts env value type depth = true)
    (valueWire env value type)

theorem encodeInternalWith_writes {value : Value} (writes : ValueWrites env value) (type : DataType)
    (depth : Nat) :
    Writes (encodeInternalWith value type (encodeBinaryJump env value type) depth)
      ((enters value depth && accepts env value type (entered value depth)) = true)
      (valueWire env value type) := by
  unfold encodeInternalWith enters entered
  cases value.isStruct with
  | true => exact (writes type depth).of_eq (by simp) rfl
  | false =>
    exact (encodeBuiltinInternal_writes type.memSize depth (writes type (depth + 1))).of_eq
      (by simp) rfl

theorem wrapped_writes {value : Value} (writes : ValueWrites env value) (type : DataType)
    (depth : Nat) :
    Writes (encodeBuiltinInternal extensionObjectType.memSize (fun inner =>
        decodedObjectEncodeBinary type (calcSizeBinary env value type)
          (encodeInternalWith value type (encodeBinaryJump env value type) inner)) depth)
      ((depth ≤ encodingMaxRecursion && (objectAccepted type (calcSizeBinary env value type) &&
          (enters value (depth + 1) && accepts env value type (entered value (depth + 1))))) = true)
      (objectHeaderWire type (calcSizeBinary env value type) ++ valueWire env value type) :=
  (encodeBuiltinInternal_writes _ depth (decodedObjectEncodeBinary_writes type _
    (encodeInternalWith_writes writes type (depth + 1)))).of_eq (by simp) rfl

section

variable (type : DataType) (depth : Nat) (writes : ∀ element ∈ elements, ValueWrites env element)
include writes

theorem encodeElements_writes : Writes (encodeElements env elements type depth)
      (acceptsElements env elements type depth = true) (elementsWire env elements type) := by
  induction elements with
  | nil => exact Writes.succeed.of_eq (by simp [acceptsElements]) (by simp [elementsWire])
  | cons element rest ih =>
    exact ((encodeElement_writes (writes element (by simp) type depth)).andThen
      (ih fun later member => writes later (by simp [member]))).of_eq
      (by simp [acceptsElements]) (by simp [elementsWire])

theorem encodeWrapped_writes : Writes (encodeWrapped env elements type depth)
      (acceptsWrapped env elements type depth = true) (wrappedWire env elements type) := by
  induction elements with
  | nil => exact Writes.succeed.of_eq (by simp [acceptsWrapped]) (by simp [wrappedWire])
  | cons element rest ih =>
    exact ((wrapped_writes (writes element (by simp)) type depth).andThen
      (ih fun later member => writes later (by simp [member]))).of_eq
      (by simp only [acceptsWrapped, Bool.and_eq_true]) (by simp only [wrappedWire])

end

theorem encodeMembers_writes {values : List Value} (type : DataType)
    (members : List DataTypeMember) (depth : Nat)
    (writes : ∀ value ∈ values, ValueWrites env value) :
    Writes (encodeMembers env values type members depth)
      (acceptsMembers env values type members depth = true)
      (membersWire env values type members) := by
  induction values generalizing members with
  | nil => exact Writes.succeed.of_eq (by simp [acceptsMembers]) (by simp [membersWire])
  | cons value rest ih =>
    cases members with
    | nil => exact Writes.succeed.of_eq (by simp [acceptsMembers]) (by simp [membersWire])
    | cons member members =>
      have head := writes value (by simp) (env.memberType type member) depth
      have tail := ih members fun later inside => writes later (by simp [inside])
      unfold encodeMembers
      split
      · exact (head.andThen tail).of_eq (by simp [acceptsMembers]) (by simp [membersWire])
      · exact ((encodeMember_writes _ head).andThen tail).of_eq
          (by simp [acceptsMembers]) (by simp [membersWire])

theorem arrayContent_writes (type : DataType) (undefined : Bool) (depth : Nat)
    (writes : ∀ element ∈ elements, ValueWrites env element) :
    Writes (arrayEncodeBinary elements.length (!undefined) (if type.overlayable then
          arrayEncodeBinaryOverlayable type.memSize
            (elements.flatMap fun element => valueMemory env element type)
        else encodeElements env elements type depth))
      ((elements.length ≤ int32Max &&
        (type.overlayable || acceptsElements env elements type depth)) = true)
      (leBytes 4 (arrayLengthField elements.length (!undefined)) ++
        if type.overlayable then elements.flatMap fun element => valueMemory env element type
        else elementsWire env elements type) := by
  cases overlay : type.overlayable with
  | true =>
    exact (arrayEncodeBinary_writes _ _ (arrayEncodeBinaryOverlayable_writes _ _)
      fun zero => by simp [length_eq_zero_iff.mp zero]).of_eq (by simp) rfl
  | false =>
    exact (arrayEncodeBinary_writes _ _ (encodeElements_writes type depth writes) fun zero => by
        simp [length_eq_zero_iff.mp zero, acceptsElements, elementsWire]).of_eq (by simp) rfl

end Recursive

theorem encodeBinaryJump_writes (env : TypeEnv) (value : Value) : ValueWrites env value := by
  induction value using Value.induct with
  | leaf content =>
    intro type depth
    exact (leafEncodeBinary_writes content depth).of_eq (by simp [accepts]) (by simp [valueWire])
  | extensionObject noDelete contentType data ih =>
    intro type depth
    exact (decodedObjectEncodeBinary_writes contentType _
      (encodeInternalWith_writes ih contentType depth)).of_eq
      (by simp [accepts]) (by simp [valueWire])
  | extensionObjectNull =>
    intro type depth
    exact (Writes.failWith badEncodingError_ne_good _).of_eq (by simp [accepts]) rfl
  | dataValue info hasValue value ih =>
    intro type depth
    exact ((writeBytes_writes _).andThen ((Writes.encodeWhen fun _ => ih variantType depth).andThen
        (dataValueInfoEncodeBinary_writes info))).of_eq
      (by cases hasValue <;> simp [accepts]) (by simp [valueWire])
  | variantEmpty =>
    intro type depth
    exact (writeBytes_writes _).of_eq (by simp [accepts]) (by simp [valueWire])
  | variantScalar contentType data arrayDimensions ih =>
    intro type depth
    unfold encodeBinaryJump
    cases wrapped : isWrapped env contentType with
    | true =>
      rw [if_pos (by simpa [isWrapped] using wrapped)]
      exact ((writeBytes_writes _).andThen (wrapped_writes ih contentType depth)).of_eq
        (by simp [accepts, wrapped]) (by simp [valueWire, wrapped])
    | false =>
      rw [if_neg (by simpa [isWrapped] using wrapped)]
      exact ((writeBytes_writes _).andThen (encodeInternalWith_writes ih contentType depth)).of_eq
        (by simp [accepts, wrapped]) (by simp [valueWire, wrapped])
  | variantArray contentType undefined elements arrayDimensions ih =>
    intro type depth
    unfold encodeBinaryJump
    cases wrapped : isWrapped env contentType with
    | true =>
      rw [if_pos (by simpa [isWrapped] using wrapped)]
      by_cases long : elements.length > int32Max
      · rw [if_pos long]
        exact ((writeBytes_writes _).andThen ((Writes.failWith badEncodingError_ne_good
          (leBytes 4 elements.length ++ wrappedWire env elements contentType)).andThen
          (dimensionsEncodeBinary_writes arrayDimensions))).of_eq
          (by simp [accepts]; omega) (by simp [valueWire, wrapped])
      · rw [if_neg long]
        exact ((writeBytes_writes _).andThen (((writeBytes_writes _).andThen
          (encodeWrapped_writes contentType depth ih)).andThen
          (dimensionsEncodeBinary_writes arrayDimensions))).of_eq
          (by
            have short : elements.length ≤ int32Max := by omega
            simp [accepts, wrapped, short, and_comm])
          (by simp [valueWire, wrapped])
    | false =>
      rw [if_neg (by simpa [isWrapped] using wrapped)]
      exact ((writeBytes_writes _).andThen
        ((arrayContent_writes contentType undefined depth ih).andThen
          (dimensionsEncodeBinary_writes arrayDimensions))).of_eq
        (by simp [accepts, wrapped, and_assoc, and_comm, and_left_comm])
        (by simp [valueWire, wrapped])
  | struct members ih =>
    intro type depth
    unfold encodeBinaryJump
    split
    · exact (Writes.failWith badEncodingError_ne_good _).of_eq (by simp [accepts]; omega) rfl
    · exact (encodeMembers_writes type type.members (depth + 1) ih).of_eq
        (by simp [accepts]; omega) (by simp [valueWire])
  | array undefined elements ih =>
    intro type depth
    exact (arrayContent_writes type undefined depth ih).of_eq
      (by simp [accepts]) (by simp [valueWire])

theorem uaEncodeBinary_writes (env : TypeEnv) (value : Value) (type : DataType) :
    Writes (uaEncodeBinary env value type)
      ((enters value 0 && accepts env value type (entered value 0)) = true)
      (valueWire env value type) :=
  encodeInternalWith_writes (encodeBinaryJump_writes env value) type 0

end OpcUa
