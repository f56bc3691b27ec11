import Mathlib.Data.List.DropRight
import OpcUa.SecureChannelChecks

/-!
How the chunks of messages are put together: the list of partial messages of a channel is a
finite map from request ids to what has come in since the last complete message.
-/

namespace OpcUa

open LittleEndian StatusCode List

variable {Context Application : Type}
variable {history : List AcceptedChunk} {chunk : AcceptedChunk}

/-! What the messages should be, from the accepted chunks in the order of their arrival -/

def belongsTo (requestId : BitVec 32) (chunk : AcceptedChunk) : Bool :=
  chunk.requestId == requestId && chunk.messageType != .err && chunk.chunkType.isSome

def isIntermediate (chunk : AcceptedChunk) : Bool := chunk.chunkType == some .intermediate

def openChunks (requestId : BitVec 32) (history : List AcceptedChunk) : List AcceptedChunk :=
  (history.filter (belongsTo requestId)).rtakeWhile isIntermediate

def openBytes (requestId : BitVec 32) (history : List AcceptedChunk) : List Byte :=
  (openChunks requestId history).flatMap AcceptedChunk.payload

def expectedDeliveries (history : List AcceptedChunk) : Option AcceptedChunk → List Delivery
  | none => []
  | some chunk =>
    if chunk.messageType = .err then [⟨.err, chunk.requestId, chunk.payload⟩]
    else if chunk.chunkType = some .final then
      [⟨chunk.messageType, chunk.requestId, openBytes chunk.requestId history ++ chunk.payload⟩]
    else []

theorem openChunks_append (requestId : BitVec 32) (history : List AcceptedChunk)
    (chunk : AcceptedChunk) :
    openChunks requestId (history ++ [chunk]) =
      if belongsTo requestId chunk then
        if isIntermediate chunk then openChunks requestId history ++ [chunk] else []
      else openChunks requestId history := by
  simp only [openChunks, filter_append, filter_cons, filter_nil]
  by_cases belongs : belongsTo requestId chunk = true
  · rw [if_pos belongs, if_pos belongs]
    by_cases intermediate : isIntermediate chunk = true
    · rw [if_pos intermediate, rtakeWhile_concat_pos _ _ _ intermediate]
    · rw [if_neg intermediate, rtakeWhile_concat_neg _ _ _ intermediate]
  · rw [if_neg belongs, if_neg belongs, append_nil]

/-! The list of partial messages as a map -/

theorem appendToEntry_find (requestId other : BitVec 32) (body : List Byte)
    (chunks : List ChunkEntry) :
    match appendToEntry requestId body chunks with
    | none => chunks.find? (hasRequestId requestId) = none
    | some longer =>
      longer.map ChunkEntry.requestId = chunks.map ChunkEntry.requestId ∧
      longer.find? (hasRequestId other) =
        if other = requestId then some ⟨requestId, collectedBytes chunks requestId ++ body⟩
        else chunks.find? (hasRequestId other) := by
  induction chunks with
  | nil => rfl
  | cons entry rest ih =>
    rw [appendToEntry]
    by_cases here : hasRequestId requestId entry = true
    · have same : entry.requestId = requestId := by simpa [hasRequestId] using here
      rw [if_pos here]
      refine ⟨rfl, ?_⟩
      by_cases wanted : other = requestId
      · simp [wanted, collectedBytes, hasRequestId, same]
      · have differs : ¬requestId = other := fun equal => wanted equal.symm
        simp [wanted, hasRequestId, same, differs]
    · rw [if_neg here]
      have differs : ¬entry.requestId = requestId := by simpa [hasRequestId] using here
      cases found : appendToEntry requestId body rest with
      | none =>
        rw [found] at ih
        simpa [hasRequestId, differs] using ih
      | some longer =>
        rw [found] at ih
        refine ⟨by simp [ih.1], ?_⟩
        rw [find?_cons, find?_cons, ih.2]
        by_cases wanted : other = requestId
        · have passed : (entry.requestId == requestId) = false := by simpa using differs
          simp [wanted, hasRequestId, passed, collectedBytes]
        · simp [wanted]

def Distinct (chunks : List ChunkEntry) : Prop := (chunks.map ChunkEntry.requestId).Nodup

theorem find_none_iff (requestId : BitVec 32) (chunks : List ChunkEntry) :
    chunks.find? (hasRequestId requestId) = none ↔ requestId ∉ chunks.map ChunkEntry.requestId := by
  rw [find?_eq_none]
  constructor
  · intro absent present
    obtain ⟨entry, member, same⟩ := mem_map.mp present
    exact absent entry member (by simp [hasRequestId, same])
  · intro absent entry member same
    exact absent (mem_map.mpr ⟨entry, member, by simpa [hasRequestId] using same⟩)

theorem appendChunk_find (chunks : List ChunkEntry) (requestId other : BitVec 32)
    (body : List Byte) :
    (appendChunk chunks requestId body).find? (hasRequestId other) =
      if other = requestId then some ⟨requestId, collectedBytes chunks requestId ++ body⟩
      else chunks.find? (hasRequestId other) := by
  have entry := appendToEntry_find requestId other body chunks
  rw [appendChunk]
  cases found : appendToEntry requestId body chunks with
  | some longer =>
    rw [found] at entry
    exact entry.2
  | none =>
    rw [found] at entry
    have missing := entry
    by_cases wanted : other = requestId
    · simp [wanted, hasRequestId, collectedBytes, missing]
    · have differs : ¬requestId = other := fun equal => wanted equal.symm
      simp [wanted, hasRequestId, differs]

theorem appendChunk_distinct {chunks : List ChunkEntry} (distinct : Distinct chunks)
    (requestId : BitVec 32) (body : List Byte) : Distinct (appendChunk chunks requestId body) := by
  have entry := appendToEntry_find requestId requestId body chunks
  rw [appendChunk]
  cases found : appendToEntry requestId body chunks with
  | some longer =>
    rw [found] at entry
    rw [Distinct, entry.1]
    exact distinct
  | none =>
    rw [found] at entry
    rw [Distinct, map_cons, nodup_cons]
    exact ⟨(find_none_iff requestId chunks).mp entry, distinct⟩

theorem removeChunks_find {chunks : List ChunkEntry} (distinct : Distinct chunks)
    (requestId other : BitVec 32) :
    (removeChunks chunks requestId).find? (hasRequestId other) =
      if other = requestId then none else chunks.find? (hasRequestId other) := by
  induction chunks with
  | nil => simp [removeChunks]
  | cons entry rest ih =>
    rw [Distinct, map_cons, nodup_cons] at distinct
    rw [removeChunks, eraseP_cons]
    by_cases here : hasRequestId requestId entry = true
    · have same : entry.requestId = requestId := by simpa [hasRequestId] using here
      rw [here]
      by_cases wanted : other = requestId
      · rw [if_pos wanted, wanted, cond_true, find_none_iff, ← same]
        exact distinct.1
      · have differs : ¬requestId = other := fun equal => wanted equal.symm
        simp [wanted, hasRequestId, same, differs]
    · have differs : ¬entry.requestId = requestId := by simpa [hasRequestId] using here
      rw [Bool.not_eq_true] at here
      rw [here, cond_false, find?_cons, find?_cons]
      have tail := ih distinct.2
      rw [removeChunks] at tail
      rw [tail]
      by_cases wanted : other = requestId
      · have passed : (entry.requestId == requestId) = false := by simpa using differs
        simp [wanted, hasRequestId, passed]
      · simp [wanted]

theorem removeChunks_distinct {chunks : List ChunkEntry} (distinct : Distinct chunks)
    (requestId : BitVec 32) : Distinct (removeChunks chunks requestId) :=
  List.Nodup.sublist (List.Sublist.map _ eraseP_sublist) distinct

structure Assembled (history : List AcceptedChunk) (chunks : List ChunkEntry) : Prop where
  distinct : Distinct chunks
  find : ∀ requestId, chunks.find? (hasRequestId requestId) =
    if openChunks requestId history = [] then none
    else some ⟨requestId, openBytes requestId history⟩

section

variable {chunks : List ChunkEntry} (assembled : Assembled history chunks)
include assembled

theorem Assembled.collectedBytes (requestId : BitVec 32) :
    collectedBytes chunks requestId = openBytes requestId history := by
  rw [OpcUa.collectedBytes, assembled.find requestId]
  by_cases none : openChunks requestId history = []
  · rw [openBytes, none]
    rfl
  · rw [if_neg none]
    rfl

theorem Assembled.skip (outside : chunk.messageType = .err ∨ chunk.chunkType = none) :
    Assembled (history ++ [chunk]) chunks := by
  have nobody (requestId : BitVec 32) : belongsTo requestId chunk = false := by
    rcases outside with error | unknown
    · simp [belongsTo, error]
    · simp [belongsTo, unknown]
  refine ⟨assembled.distinct, fun requestId => ?_⟩
  rw [assembled.find requestId, openBytes, openBytes, openChunks_append, nobody]
  rfl

theorem Assembled.append (message : chunk.messageType ≠ .err)
    (intermediate : chunk.chunkType = some .intermediate) :
    Assembled (history ++ [chunk]) (appendChunk chunks chunk.requestId chunk.payload) := by
  refine ⟨appendChunk_distinct assembled.distinct _ _, fun requestId => ?_⟩
  rw [appendChunk_find, assembled.collectedBytes, assembled.find requestId, openBytes, openBytes,
    openBytes, openChunks_append]
  by_cases own : requestId = chunk.requestId
  · have belongs : belongsTo requestId chunk = true := by
      simp [belongsTo, own, message, intermediate]
    have more : isIntermediate chunk = true := by simp [isIntermediate, intermediate]
    rw [if_pos own, if_pos belongs, if_pos more, flatMap_append, own]
    simp
  · have foreign : belongsTo requestId chunk = false := by
      simp [belongsTo, show ¬chunk.requestId = requestId from fun same => own same.symm]
    rw [if_neg own, foreign]
    rfl

theorem Assembled.remove (message : chunk.messageType ≠ .err)
    (ends : chunk.chunkType = some .final ∨ chunk.chunkType = some .abort) :
    Assembled (history ++ [chunk]) (removeChunks chunks chunk.requestId) := by
  refine ⟨removeChunks_distinct assembled.distinct _, fun requestId => ?_⟩
  rw [removeChunks_find assembled.distinct, assembled.find requestId, openBytes, openBytes,
    openChunks_append]
  by_cases own : requestId = chunk.requestId
  · have belongs : belongsTo requestId chunk = true := by
      rcases ends with final | abort
      · simp [belongsTo, own, message, final]
      · simp [belongsTo, own, message, abort]
    have last : ¬isIntermediate chunk = true := by
      rcases ends with final | abort
      · simp [isIntermediate, final]
      · simp [isIntermediate, abort]
    rw [if_pos own, if_pos belongs, if_neg last, if_pos rfl]
  · have foreign : belongsTo requestId chunk = false := by
      simp [belongsTo, show ¬chunk.requestId = requestId from fun same => own same.symm]
    rw [if_neg own, foreign]
    rfl

end

variable {channel : SecureChannel Context}

theorem processPayload_assembles (callback : ProcessMessageCallback Context Application)
    (application : Application) (assembled : Assembled history channel.chunks)
    (chunk : AcceptedChunk) :
    (processPayload callback application channel chunk).deliveries =
        expectedDeliveries history (some chunk) ∧
      Assembled (history ++ [chunk])
        (processPayload callback application channel chunk).channel.chunks := by
  rw [processPayload, expectedDeliveries]
  by_cases error : chunk.messageType = .err
  · rw [if_pos error, deliver, error]
    refine ⟨rfl, ?_⟩
    simp only [callback.chunks_run]
    exact assembled.skip (.inl error)
  · rw [if_neg error, if_neg error]
    cases type : chunk.chunkType with
    | none => exact ⟨rfl, assembled.skip (.inr type)⟩
    | some chunkType =>
      cases chunkType with
      | final =>
        rw [finalizeChunk, deliver, assembled.collectedBytes]
        refine ⟨rfl, ?_⟩
        simp only [callback.chunks_run]
        exact assembled.remove error (.inl type)
      | intermediate => exact ⟨rfl, assembled.append error type⟩
      | abort => exact ⟨rfl, assembled.remove error (.inr type)⟩

variable {policy : SecurityPolicy Context}

theorem Checks.chunks {after : SecureChannel Context} {bytes : List Byte}
    {result : Except StatusCode AcceptedChunk} (checks : Checks policy channel bytes result after) :
    after.chunks = channel.chunks := by
  cases checks with
  | refused _ _ _ => rfl
  | revolved _ _ selects =>
    obtain ⟨context, revolved⟩ := revolveTokens_channel policy channel selects.2.2
    rw [revolved]
  | error _ _ => rfl
  | opened _ _ _ _ _ => rfl
  | symmetric _ _ middle _ _ token _ _ =>
    have kept := checkSymHeader_chunks policy channel middle.securityToken.tokenId
    rwa [token] at kept

structure ProcessStep where
  accepted : Option AcceptedChunk
  deliveries : List Delivery
deriving DecidableEq, Repr

def ProcessResult.step (result : ProcessResult Context Application) : ProcessStep :=
  ⟨result.accepted, result.deliveries⟩

/-- A run of a channel, with what came of every chunk. Next to the chunks that come in,
anything may happen that does not touch the partial messages. -/
inductive Assembles (policy : SecurityPolicy Context)
    (callback : ProcessMessageCallback Context Application) (first : SecureChannel Context) :
    List ProcessStep → SecureChannel Context → Prop
  | start : Assembles policy callback first [] first
  | chunk {steps : List ProcessStep} {channel : SecureChannel Context}
      (application : Application) (bytes : List Byte) :
      Assembles policy callback first steps channel →
      Assembles policy callback first
        (steps ++ [(processChunk policy callback application channel bytes).step])
        (processChunk policy callback application channel bytes).channel
  | other {steps : List ProcessStep} {channel : SecureChannel Context}
      (after : SecureChannel Context) :
      Assembles policy callback first steps channel → after.chunks = channel.chunks →
      Assembles policy callback first steps after

def acceptedChunks (steps : List ProcessStep) : List AcceptedChunk :=
  steps.filterMap ProcessStep.accepted

theorem processChunk_assembles (policy : SecurityPolicy Context)
    (callback : ProcessMessageCallback Context Application) (application : Application)
    (assembled : Assembled history channel.chunks) (bytes : List Byte) :
    let result := processChunk policy callback application channel bytes
    result.deliveries = expectedDeliveries history result.accepted ∧
      Assembled (history ++ result.accepted.toList) result.channel.chunks := by
  obtain ⟨status, after, checks, result⟩ | ⟨accepted, after, checks, result⟩ :=
    processChunk_cases policy callback application channel bytes
  · rw [result]
    refine ⟨rfl, ?_⟩
    simp only [Option.toList_none, append_nil, checks.chunks]
    exact assembled
  · rw [← checks.chunks] at assembled
    simp only [result, processPayload_accepted]
    exact processPayload_assembles callback application assembled accepted

variable {steps : List ProcessStep}

variable {first last : SecureChannel Context}

variable {callback : ProcessMessageCallback Context Application}

section

variable (fresh : first.chunks = []) (run : Assembles policy callback first steps last)
include fresh run

theorem Assembles.assembled : Assembled (acceptedChunks steps) last.chunks := by
  induction run with
  | start =>
    rw [fresh]
    exact ⟨nodup_nil, fun requestId => rfl⟩
  | other after run same ih => rwa [same]
  | @chunk steps channel application bytes run ih =>
    have step := (processChunk_assembles policy callback application ih bytes).2
    cases accepted : (processChunk policy callback application channel bytes).accepted with
    | none => simpa [ProcessResult.step, accepted, acceptedChunks] using step
    | some chunk => simpa [ProcessResult.step, accepted, acceptedChunks] using step

theorem Assembles.deliveries (index : Nat) {step : ProcessStep} (found : steps[index]? = some step)
    :
    step.deliveries = expectedDeliveries (acceptedChunks (steps.take index)) step.accepted := by
  induction run with
  | start => simp at found
  | other after run same ih => exact ih found
  | @chunk steps channel application bytes run ih =>
    by_cases earlier : index < steps.length
    · rw [getElem?_append_left earlier] at found
      rw [take_append_of_le_length (by omega)]
      exact ih found
    · rw [getElem?_append_right (by omega)] at found
      have last : index = steps.length := by
        have inside := (List.getElem?_eq_some_iff.mp found).1
        rw [List.length_singleton] at inside
        omega
      subst last
      rw [Nat.sub_self, getElem?_cons_zero, Option.some.injEq] at found
      subst found
      rw [take_left]
      exact (processChunk_assembles policy callback application (run.assembled fresh) bytes).1

end

/-- Every step of a run delivers what the chunks since the last FINAL or ABORT of its request
add up to, and the channel keeps exactly what is open, one entry for each request id. -/
theorem reassembly (policy : SecurityPolicy Context)
    (callback : ProcessMessageCallback Context Application) {first last : SecureChannel Context}
    {steps : List ProcessStep} (fresh : first.chunks = [])
    (run : Assembles policy callback first steps last) :
    (∀ index step, steps[index]? = some step →
      step.deliveries = expectedDeliveries (acceptedChunks (steps.take index)) step.accepted) ∧
    (last.chunks.map ChunkEntry.requestId).Nodup ∧
    ∀ requestId, last.chunks.find? (hasRequestId requestId) =
      if openChunks requestId (acceptedChunks steps) = [] then none
      else some ⟨requestId, openBytes requestId (acceptedChunks steps)⟩ := by
  have assembled := run.assembled fresh
  exact ⟨fun index step found => run.deliveries fresh index found, assembled.distinct,
    assembled.find⟩

def idleChannel : SecureChannel Unit :=
  { renewedChannel with nextSecurityToken := .init, receiveSequenceNumber := 0 }

def messageChunk (chunkType : ChunkType) (number requestId : BitVec 32) (body : Byte) : List Byte :=
  symmetricHeaderWire (MessageType.msg.code + chunkType.code) 25 5 7 ++
    (sequenceHeaderWire number requestId ++ [body])

def interleavedRun (chunks : List (List Byte)) : List ProcessStep × SecureChannel Unit :=
  chunks.foldl (fun state bytes =>
    let result := processChunk securityPolicyNone (acceptMessages Unit) () state.2 bytes
    (state.1 ++ [result.step], result.channel)) ([], idleChannel)

theorem interleavedRun_assembles (chunks : List (List Byte)) :
    Assembles securityPolicyNone (acceptMessages Unit) idleChannel (interleavedRun chunks).1
      (interleavedRun chunks).2 := by
  induction chunks using List.reverseRecOn with
  | nil => exact .start
  | append_singleton chunks bytes ih =>
    rw [interleavedRun, foldl_append]
    exact ih.chunk () bytes

def interleavedChunks : List (List Byte) :=
  [messageChunk .intermediate 1 10 0xA1, messageChunk .intermediate 2 11 0xB1,
    messageChunk .intermediate 3 10 0xA2, messageChunk .abort 4 11 0xB2,
    messageChunk .final 5 10 0xA3, messageChunk .final 6 11 0xB3]

theorem interleavedChunks_reassembly :
    ((interleavedRun interleavedChunks).1.map ProcessStep.deliveries =
      [[], [], [], [], [⟨.msg, 10, [0xA1, 0xA2, 0xA3]⟩], [⟨.msg, 11, [0xB3]⟩]]) ∧
    (∀ index step, (interleavedRun interleavedChunks).1[index]? = some step →
      step.deliveries = expectedDeliveries
        (acceptedChunks ((interleavedRun interleavedChunks).1.take index)) step.accepted) ∧
    ((interleavedRun interleavedChunks).2.chunks.map ChunkEntry.requestId).Nodup :=
  ⟨by decide, (reassembly securityPolicyNone (acceptMessages Unit) rfl
      (interleavedRun_assembles interleavedChunks)).1,
    (reassembly securityPolicyNone (acceptMessages Unit) rfl
      (interleavedRun_assembles interleavedChunks)).2.1⟩

end OpcUa
