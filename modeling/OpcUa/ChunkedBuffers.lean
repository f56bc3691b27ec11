import OpcUa.CalcSizeExact

/-!
Encoding with the exchange callback. An encoder either extends the stream of all bytes
handed out so far, exchanging buffers on the way, or it reports that the buffer is full
without having exchanged it, so that the caller can try again in a fresh buffer.
-/

namespace OpcUa

open LittleEndian StatusCode List

variable {ctx : Ctx} {size limit least memSize : Nat} {rest : List Nat} {bytes : List Byte}

namespace Ctx

def stream (ctx : Ctx) : List Byte := ctx.sent.flatten ++ ctx.out

@[simp] theorem push_stream (ctx : Ctx) (bytes : List Byte) :
    (ctx.push bytes).stream = ctx.stream ++ bytes := by
  simp [stream]

def exchanged (ctx : Ctx) (size : Nat) (rest : List Nat) : Ctx :=
  { ctx with sent := ctx.sent ++ [ctx.out], out := [], cap := size, supply := some rest }

@[simp] theorem exchanged_stream (ctx : Ctx) (size : Nat) (rest : List Nat) :
    (ctx.exchanged size rest).stream = ctx.stream := by
  simp [stream, exchanged]

end Ctx

theorem exchangeBuffer_cons (supply : ctx.supply = some (size :: rest)) :
    exchangeBuffer ctx = (good, ctx.exchanged size rest) := by
  simp [exchangeBuffer, supply, Ctx.exchanged]

structure Progress (ctx after : Ctx) (sizes : List Nat) (bytes : List Byte) (spare limit : Nat) :
    Prop where
  stream : after.stream = ctx.stream ++ bytes
  fault : after.fault = ctx.fault
  room : after.out.length ≤ after.cap
  supply : ∃ used rest, sizes = used ++ rest ∧ after.supply = some rest ∧
    used.length + spare ≤ limit

theorem Progress.pushed {sizes : List Nat} {spare : Nat} (supply : ctx.supply = some sizes)
    (fits : ctx.out.length + bytes.length ≤ ctx.cap) (few : spare ≤ limit) :
    Progress ctx (ctx.push bytes) sizes bytes spare limit :=
  ⟨by simp, rfl, by simpa using fits, [], sizes, rfl, supply, by simpa using few⟩

theorem Progress.relaxed {after : Ctx} {sizes : List Nat} {spare less more : Nat}
    (progress : Progress ctx after sizes bytes spare limit) (fewer : less ≤ spare)
    (larger : limit ≤ more) : Progress ctx after sizes bytes less more := by
  obtain ⟨used, rest, split, left, count⟩ := progress.supply
  exact ⟨progress.stream, progress.fault, progress.room, used, rest, split, left, by omega⟩

theorem Progress.of_exchanged {after : Ctx}
    (progress : Progress (ctx.exchanged size rest) after rest bytes 1 limit) :
    Progress ctx after (size :: rest) bytes 0 limit := by
  obtain ⟨used, later, split, left, count⟩ := progress.supply
  refine ⟨by simpa using progress.stream, progress.fault, progress.room, size :: used, later,
    by simp [split], left, ?_⟩
  simpa using count

def spareBuffer (ctx : Ctx) (unit : Nat) : Nat :=
  if 0 < unit ∧ ctx.out.length + unit ≤ ctx.cap then 1 else 0

/-- The behaviour of an encoder whose first write needs `unit` bytes, given fresh buffers of
at least `least` bytes. At most one buffer for each byte is used. -/
structure Chunks (least unit : Nat) (encode : Encoder) (bytes : List Byte) : Prop where
  nonempty : 0 < unit → bytes ≠ []
  run : ∀ ctx sizes, ctx.supply = some sizes → (∀ size ∈ sizes, least ≤ size) →
    ctx.out.length ≤ ctx.cap → bytes.length ≤ sizes.length + spareBuffer ctx unit →
    ((encode ctx).1 = good ∧
        Progress ctx (encode ctx).2 sizes bytes (spareBuffer ctx unit) bytes.length) ∨
      ((encode ctx).1 = badEncodingLimitsExceeded ∧ ctx.out.length + unit > ctx.cap ∧
        ∃ junk, (encode ctx).2 = ctx.push junk)

abbrev Flows (least : Nat) (encode : Encoder) (bytes : List Byte) : Prop := Chunks least 0 encode bytes

def Atomic (encode : Encoder) (bytes : List Byte) : Prop :=
  ∀ ctx, ctx.out.length ≤ ctx.cap →
    (ctx.out.length + bytes.length ≤ ctx.cap ∧ encode ctx = (good, ctx.push bytes)) ∨
      (ctx.cap < ctx.out.length + bytes.length ∧ (encode ctx).1 = badEncodingLimitsExceeded ∧
        ∃ junk, (encode ctx).2 = ctx.push junk ∧ ctx.out.length + junk.length ≤ ctx.cap)

theorem spareBuffer_zero (ctx : Ctx) : spareBuffer ctx 0 = 0 := by
  simp [spareBuffer]

theorem spareBuffer_le (ctx : Ctx) (unit : Nat) : spareBuffer ctx unit ≤ 1 := by
  unfold spareBuffer
  split <;> omega

namespace Atomic

variable {first second encode : Encoder} {more : List Byte}

theorem of_eq (atomic : Atomic encode bytes) (equal : bytes = more) : Atomic encode more :=
  equal ▸ atomic

theorem succeed : Atomic OpcUa.succeed [] := by
  intro ctx room
  exact Or.inl ⟨by simpa using room, by simp [OpcUa.succeed]⟩

theorem writeBytes (bytes : List Byte) : Atomic (writeBytes bytes) bytes := by
  intro ctx room
  by_cases fits : ctx.out.length + bytes.length ≤ ctx.cap
  · refine Or.inl ⟨fits, ?_⟩
    rw [OpcUa.writeBytes, if_neg (by omega)]
  · refine Or.inr ⟨by omega, ?_⟩
    rw [OpcUa.writeBytes, if_pos (by omega)]
    exact ⟨rfl, [], by simp, by simpa using room⟩

theorem encodeAll_cons {rest : List Encoder} (atomic : Atomic first bytes)
    (continues : Atomic (encodeAll rest) more) :
    Atomic (encodeAll (first :: rest)) (bytes ++ more) := by
  intro ctx room
  rcases atomic ctx room with ⟨fits, result⟩ | ⟨full, status, junk, after, junkFits⟩
  · rcases continues (ctx.push bytes) (by simpa using fits) with
      ⟨fitsToo, resultToo⟩ | ⟨fullToo, statusToo, junk, after, junkFits⟩
    · refine Or.inl ⟨by simpa [Nat.add_assoc] using fitsToo, ?_⟩
      simp [encodeAll, result, resultToo, good]
    · refine Or.inr ⟨by simpa [Nat.add_assoc] using fullToo, ?_, bytes ++ junk, ?_,
        by simpa [Nat.add_assoc] using junkFits⟩
      · simp [encodeAll, result, statusToo, good]
      · simp [encodeAll, result, after]
  · refine Or.inr ⟨by simp only [length_append]; omega, ?_⟩
    rcases continues (ctx.push junk) (by simpa using junkFits) with
      ⟨fitsToo, resultToo⟩ | ⟨fullToo, statusToo, junkToo, afterToo, junkToFits⟩
    · refine ⟨?_, junk ++ more, ?_, by simpa [Nat.add_assoc] using fitsToo⟩
      · simp [encodeAll, status, after, resultToo, good]
      · simp [encodeAll, after, resultToo]
    · refine ⟨?_, junk ++ junkToo, ?_, by simpa [Nat.add_assoc] using junkToFits⟩
      · simp [encodeAll, status, after, statusToo]
      · simp [encodeAll, after, afterToo]

theorem encodeAll_nil : Atomic (encodeAll []) [] := Atomic.succeed

end Atomic

namespace Chunks

variable {unit : Nat} {first second encode : Encoder} {more : List Byte}

theorem of_eq (chunks : Chunks least unit encode bytes) (equal : bytes = more) :
    Chunks least unit encode more := equal ▸ chunks

theorem succeed : Flows least OpcUa.succeed [] where
  nonempty positive := absurd positive (Nat.lt_irrefl 0)
  run ctx sizes supply _ room _ := by
    have fits : ctx.out.length + ([] : List Byte).length ≤ ctx.cap := room
    have pushed := Progress.pushed supply fits (spareBuffer_zero ctx).le
    rw [Ctx.push_nil] at pushed
    exact Or.inl ⟨rfl, pushed⟩

theorem after_atomic (atomic : Atomic first bytes) (continues : Chunks least unit second more) :
    Chunks least (bytes.length + unit) (andThen first second) (bytes ++ more) where
  nonempty positive := by
    intro empty
    obtain ⟨rfl, rfl⟩ := append_eq_nil_iff.mp empty
    exact continues.nonempty (by simpa using positive) rfl
  run ctx sizes supply large room enough := by
    simp only [length_append] at enough
    rcases atomic ctx room with ⟨fits, result⟩ | ⟨full, status, junk, after, -⟩
    · have spares : spareBuffer ctx (bytes.length + unit) ≤
          bytes.length + spareBuffer (ctx.push bytes) unit := by
        unfold spareBuffer
        simp only [Ctx.push_out, Ctx.push_cap, length_append]
        split <;> split <;> omega
      simp only [andThen, result, ↓reduceIte]
      rcases continues.run (ctx.push bytes) sizes supply large (by simpa using fits)
        (by omega) with ⟨success, progress⟩ | ⟨full, needs, junk, after⟩
      · obtain ⟨used, rest, split, left, count⟩ := progress.supply
        refine Or.inl ⟨success, ⟨by simp [progress.stream], progress.fault, progress.room, used, rest,
          split, left, ?_⟩⟩
        simp only [length_append]
        omega
      · refine Or.inr ⟨full, ?_, bytes ++ junk, by simp [after]⟩
        simp only [Ctx.push_out, Ctx.push_cap, length_append] at needs
        omega
    · simp only [andThen, status, badEncodingLimitsExceeded_ne_good, ↓reduceIte]
      exact Or.inr ⟨trivial, by omega, junk, after⟩

theorem after_byte (byte : Byte) (continues : Chunks least unit second more) :
    Chunks least (1 + unit) (OpcUa.andThen (byteEncodeBinary byte) second) (byte :: more) :=
  Chunks.after_atomic (Atomic.writeBytes [byte]) continues

theorem andThen (chunks : Chunks least unit first bytes) (continues : Flows least second more) :
    Chunks least unit (andThen first second) (bytes ++ more) where
  nonempty positive := by
    intro empty
    exact chunks.nonempty positive (append_eq_nil_iff.mp empty).1
  run ctx sizes supply large room enough := by
    simp only [length_append] at enough
    rcases chunks.run ctx sizes supply large room (by omega) with
      ⟨success, progress⟩ | ⟨full, needs, after⟩
    · obtain ⟨used, rest, split, left, count⟩ := progress.supply
      have remaining : sizes.length = used.length + rest.length := by simp [split]
      simp only [OpcUa.andThen, success, ↓reduceIte]
      rcases continues.run (first ctx).2 rest left (fun size inside => large size (by simp [split, inside]))
        progress.room (by rw [spareBuffer_zero]; omega) with ⟨successToo, progressToo⟩ | ⟨_, needs, _⟩
      · obtain ⟨usedToo, restToo, splitToo, leftToo, countToo⟩ := progressToo.supply
        refine Or.inl ⟨successToo, ⟨by simp [progressToo.stream, progress.stream],
          progressToo.fault.trans progress.fault, progressToo.room, used ++ usedToo, restToo,
          by simp [split, splitToo], leftToo, ?_⟩⟩
        simp only [length_append]
        omega
      · have space := progress.room
        omega
    · simp only [OpcUa.andThen, full, badEncodingLimitsExceeded_ne_good, ↓reduceIte]
      exact Or.inr ⟨trivial, needs, after⟩

theorem of_atomic (atomic : Atomic encode bytes) : Chunks least bytes.length encode bytes where
  nonempty positive := ne_nil_of_length_pos positive
  run ctx sizes supply _ room enough := by
    rcases atomic ctx room with ⟨fits, result⟩ | ⟨full, status, junk, after, -⟩
    · refine Or.inl ⟨by rw [result], ?_⟩
      rw [result]
      refine Progress.pushed supply fits ?_
      unfold spareBuffer
      split <;> omega
    · exact Or.inr ⟨status, by omega, junk, after⟩

theorem encodeAll_nil : Flows least (encodeAll []) [] := Chunks.succeed

theorem encodeAll_cons {rest : List Encoder} (flows : Flows least first bytes)
    (continues : Flows least (encodeAll rest) more) :
    Flows least (encodeAll (first :: rest)) (bytes ++ more) where
  nonempty positive := absurd positive (Nat.lt_irrefl 0)
  run ctx sizes supply large room enough := by
    have both := (flows.andThen continues).run ctx sizes supply large room enough
    rcases flows.run ctx sizes supply large room (by
      simp only [length_append, spareBuffer_zero] at enough ⊢; omega) with
      ⟨success, _⟩ | ⟨_, needs, _⟩
    · simp only [OpcUa.andThen, success, ↓reduceIte] at both
      simp only [encodeAll, success]
      have zero (status : StatusCode) : good ||| status = status := BitVec.zero_or
      rw [zero]
      exact both
    · omega

theorem encodeWhen {present : Bool} (flows : present = true → Flows least encode bytes) :
    Flows least (encodeWhen present encode) (wireWhen present bytes) := by
  cases present with
  | false => exact Chunks.succeed
  | true => exact flows rfl

theorem encodeOption {α : Type} {field : Option α} {encode : α → Encoder} {wire : α → List Byte}
    (flows : ∀ value, field = some value → Flows least (encode value) (wire value)) :
    Flows least (encodeOption field encode) (wireOption field wire) := by
  cases field with
  | none => exact Chunks.succeed
  | some value => exact flows value rfl

section

variable (chunks : Chunks least unit encode bytes) (small : unit ≤ least)
include chunks small

theorem retried (ctx : Ctx) (sizes : List Nat) (supply : ctx.supply = some sizes)
    (large : ∀ size ∈ sizes, least ≤ size) (room : ctx.out.length ≤ ctx.cap)
    (enough : bytes.length ≤ sizes.length) :
    ((encode ctx).1 = good ∧ Progress ctx (encode ctx).2 sizes bytes 0 bytes.length) ∨
      ∃ junk size rest, encode ctx = (badEncodingLimitsExceeded, ctx.push junk) ∧
        sizes = size :: rest ∧ 0 < unit ∧ (encode (ctx.exchanged size rest)).1 = good ∧
        Progress ctx (encode (ctx.exchanged size rest)).2 sizes bytes 0 bytes.length := by
  rcases chunks.run ctx sizes supply large room (by omega) with
    ⟨success, progress⟩ | ⟨full, needs, junk, after⟩
  · exact Or.inl ⟨success, progress.relaxed (Nat.zero_le _) le_rfl⟩
  · have positive : 0 < unit := by omega
    have some : 0 < bytes.length := length_pos_iff.mpr (chunks.nonempty positive)
    cases sizes with
    | nil => simp only [length_nil] at enough; omega
    | cons size rest =>
      have fits : unit ≤ size := Nat.le_trans small (large size (by simp))
      have spare : spareBuffer (ctx.exchanged size rest) unit = 1 := by
        simp [spareBuffer, Ctx.exchanged, positive, fits]
      refine Or.inr ⟨junk, size, rest, Prod.ext full after, rfl, positive, ?_⟩
      rcases chunks.run (ctx.exchanged size rest) rest rfl
        (fun size inside => large size (by simp [inside])) (by simp [Ctx.exchanged])
        (by simp only [length_cons] at enough; omega) with
        ⟨success, progress⟩ | ⟨_, needsMore, _⟩
      · rw [spare] at progress
        exact ⟨success, progress.of_exchanged⟩
      · simp only [Ctx.exchanged, length_nil] at needsMore
        omega

theorem encodeElement : Flows least (encodeElement encode) bytes where
  nonempty positive := absurd positive (Nat.lt_irrefl 0)
  run ctx sizes supply large room enough := by
    refine Or.inl ?_
    rcases chunks.retried small ctx sizes supply large room enough with
      ⟨success, progress⟩ | ⟨junk, size, rest, full, rfl, -, success, progress⟩
    · simp only [OpcUa.encodeElement, Ctx.rounds, retryElement, success,
        badEncodingLimitsExceeded_ne_good.symm, ↓reduceIte]
      exact ⟨trivial, progress⟩
    · simp only [OpcUa.encodeElement, Ctx.rounds, supply, Option.getD_some, length_cons,
        retryElement, full, ↓reduceIte, Ctx.restore_push, exchangeBuffer_cons supply, success,
        badEncodingLimitsExceeded_ne_good.symm]
      exact ⟨trivial, progress⟩

theorem encodeMember (smallToo : 0 < unit → memSize ≤ least) :
    Flows least (encodeMember memSize encode) bytes where
  nonempty positive := absurd positive (Nat.lt_irrefl 0)
  run ctx sizes supply large room enough := by
    refine Or.inl ?_
    rcases chunks.retried small ctx sizes supply large room enough with
      ⟨success, progress⟩ | ⟨junk, size, rest, full, rfl, positive, success, progress⟩
    · simp only [OpcUa.encodeMember, Ctx.rounds, retryMember, success,
        badEncodingLimitsExceeded_ne_good.symm, ↓reduceIte]
      exact ⟨trivial, progress⟩
    · have fits : ¬((ctx.exchanged size rest).out.length + memSize >
          (ctx.exchanged size rest).cap) := by
        have memory := Nat.le_trans (smallToo positive) (large size (by simp))
        simp [Ctx.exchanged, memory]
      simp only [OpcUa.encodeMember, Ctx.rounds, supply, Option.getD_some, length_cons,
        retryMember, full, ↓reduceIte, Ctx.restore_push, exchangeBuffer_cons supply, success,
        badEncodingLimitsExceeded_ne_good.symm, fits, or_self]
      exact ⟨trivial, progress⟩

end

end Chunks

theorem encodeWithExchangeBuffer_flows (small : bytes.length ≤ least) :
    Flows least (encodeWithExchangeBuffer bytes) bytes where
  nonempty positive := absurd positive (Nat.lt_irrefl 0)
  run ctx sizes supply large room enough := by
    refine Or.inl ?_
    have chunks : Chunks least bytes.length (writeBytes bytes) bytes :=
      Chunks.of_atomic (Atomic.writeBytes bytes)
    rcases chunks.retried small ctx sizes supply large room enough with
      ⟨success, progress⟩ | ⟨junk, size, rest, full, rfl, -, success, progress⟩
    · simp only [encodeWithExchangeBuffer, success, badEncodingLimitsExceeded_ne_good.symm,
        ↓reduceIte]
      exact ⟨trivial, progress⟩
    · have nothing : junk = [] := by
        unfold writeBytes at full
        split at full
        · simpa using congrArg (fun result => result.2.out) full
        · exact absurd (congrArg Prod.fst full) badEncodingLimitsExceeded_ne_good.symm
      subst nothing
      simp only [encodeWithExchangeBuffer, full, ↓reduceIte, Ctx.push_nil,
        exchangeBuffer_cons supply]
      exact ⟨trivial, progress⟩

theorem overlayLoop_full {round : Nat} {memory : List Byte}
    (supply : ctx.supply = some (size :: rest)) (full : ctx.cap < ctx.out.length + memory.length)
    {part : Nat} (possible : part = (ctx.cap - ctx.out.length) / memSize * memSize) :
    overlayLoop memSize (round + 1) memory ctx = overlayLoop memSize round (memory.drop part)
        ((ctx.push (memory.take part)).exchanged size rest) := by
  have exchange : exchangeBuffer (ctx.push (memory.take part)) =
      (good, (ctx.push (memory.take part)).exchanged size rest) := exchangeBuffer_cons supply
  simp only [overlayLoop, full, ↓reduceIte, ← possible, exchange]

theorem overlayLoop_progress (positive : 0 < memSize) (sizes : List Nat) :
    ∀ (round count : Nat) (memory : List Byte) (ctx : Ctx), memory.length = memSize * count →
      0 < count → ctx.supply = some sizes → (∀ size ∈ sizes, memSize ≤ size) →
      count ≤ sizes.length + spareBuffer ctx memSize → sizes.length < round →
      (overlayLoop memSize round memory ctx).1 = good ∧
        Progress ctx (overlayLoop memSize round memory ctx).2 sizes memory
          (spareBuffer ctx memSize) count := by
  have fitting (round count : Nat) (memory : List Byte) (ctx : Ctx) (sizes : List Nat)
      (many : 0 < count) (supply : ctx.supply = some sizes)
      (fits : ctx.out.length + memory.length ≤ ctx.cap) :
      (overlayLoop memSize (round + 1) memory ctx).1 = good ∧
        Progress ctx (overlayLoop memSize (round + 1) memory ctx).2 sizes memory
          (spareBuffer ctx memSize) count := by
    have bound := spareBuffer_le ctx memSize
    rw [overlayLoop, if_neg (by omega)]
    exact ⟨rfl, Progress.pushed supply fits (by omega)⟩
  induction sizes with
  | nil =>
    intro round count memory ctx length many supply large enough rounds
    obtain ⟨round, rfl⟩ := Nat.exists_eq_succ_of_ne_zero (Nat.ne_zero_of_lt rounds)
    have fits : count = 1 ∧ ctx.out.length + memSize ≤ ctx.cap := by
      unfold spareBuffer at enough
      simp only [length_nil] at enough
      split at enough <;> omega
    rw [fits.1, Nat.mul_one] at length
    exact fitting round count memory ctx [] many supply (by omega)
  | cons size rest ih =>
    intro round count memory ctx length many supply large enough rounds
    obtain ⟨round, rfl⟩ := Nat.exists_eq_succ_of_ne_zero (Nat.ne_zero_of_lt rounds)
    by_cases fits : ctx.out.length + memory.length ≤ ctx.cap
    · exact fitting round count memory ctx (size :: rest) many supply fits
    rw [overlayLoop_full supply (by omega) rfl]
    have some : 0 < memSize * count := Nat.mul_pos positive many
    have space : ctx.cap - ctx.out.length < memSize * count := by omega
    have possible := Nat.div_lt_of_lt_mul space
    have written : spareBuffer ctx memSize ≤ (ctx.cap - ctx.out.length) / memSize := by
      unfold spareBuffer
      split
      · exact (Nat.le_div_iff_mul_le positive).mpr (by omega)
      · exact Nat.zero_le _
    generalize (ctx.cap - ctx.out.length) / memSize = whole at possible written
    have spare : spareBuffer ((ctx.push (memory.take (whole * memSize))).exchanged size rest)
        memSize = 1 := by
      simp [spareBuffer, Ctx.exchanged, positive, large size (by simp)]
    simp only [length_cons] at enough rounds
    obtain ⟨success, progress⟩ := ih round (count - whole) (memory.drop (whole * memSize))
      ((ctx.push (memory.take (whole * memSize))).exchanged size rest)
      (by rw [length_drop, length, Nat.mul_sub, Nat.mul_comm whole]) (by omega) rfl
      (fun later inside => large later (by simp [inside])) (by omega) (by omega)
    rw [spare] at progress
    obtain ⟨used, left, split, supplied, uses⟩ := progress.of_exchanged.supply
    refine ⟨success, by simp [progress.stream], progress.fault, progress.room, used, left, split,
      supplied, by omega⟩

theorem arrayEncodeBinaryOverlayable_flows {count : Nat} {memory : List Byte}
    (length : memory.length = memSize * count) (small : memSize ≤ least) :
    Flows least (arrayEncodeBinaryOverlayable memSize memory) memory where
  nonempty positive := absurd positive (Nat.lt_irrefl 0)
  run ctx sizes supply large room enough := by
    rw [spareBuffer_zero] at enough ⊢
    refine Or.inl ?_
    rcases Nat.eq_zero_or_pos memory.length with zero | some
    · have nothing := length_eq_zero_iff.mp zero
      subst nothing
      rw [arrayEncodeBinaryOverlayable, Ctx.rounds, overlayLoop,
        if_neg (by simpa using room)]
      exact ⟨rfl, Progress.pushed supply (by simpa using room) le_rfl⟩
    · rw [length] at some
      have positive : 0 < memSize := Nat.pos_of_mul_pos_right some
      have many : 0 < count := Nat.pos_of_mul_pos_left some
      have fewer : count ≤ memory.length := by
        rw [length]
        exact Nat.le_mul_of_pos_left count positive
      obtain ⟨success, progress⟩ := overlayLoop_progress positive sizes ctx.rounds count memory ctx
        length many supply (fun size inside => Nat.le_trans small (large size inside)) (by omega)
        (by simp [Ctx.rounds, supply])
      exact ⟨success, progress.relaxed (Nat.zero_le _) fewer⟩

theorem arrayEncodeBinary_flows {content : Encoder} (length : Nat) (isSentinel : Bool)
    (short : length ≤ int32Max) (small : 4 ≤ least) (flows : Flows least content bytes)
    (none : length = 0 → bytes = []) :
    Flows least (arrayEncodeBinary length isSentinel content)
      (leBytes 4 (arrayLengthField length isSentinel) ++ bytes) := by
  unfold arrayEncodeBinary
  rw [if_neg (by omega)]
  have header : Flows least
      (encodeWithExchangeBuffer (leBytes 4 (arrayLengthField length isSentinel))) _ :=
    encodeWithExchangeBuffer_flows (by simpa using small)
  by_cases zero : length = 0
  · rw [if_pos zero, none zero]
    exact header.andThen Chunks.succeed
  · rw [if_neg zero]
    exact header.andThen flows

end OpcUa
