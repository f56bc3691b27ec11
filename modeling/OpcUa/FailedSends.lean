import OpcUa.Library.GuardedRuns
import OpcUa.SymmetricRoundTrip

/-!
Messages that fail after some of their chunks have been sent, and the messages that are sent after
them on the same channel.
-/

namespace OpcUa

open LittleEndian StatusCode GuardedRuns List

variable {Context Application : Type}

section Attempts

variable (policy : SecurityPolicy Context) (connection : SendConnection)

def sendAttempts (mc : MessageContext Context) : List (ChunkType × List Byte) → SendResult Context
  | [] => ⟨good, mc, []⟩
  | (chunkType, body) :: rest =>
    let first := sendSymmetricChunk policy connection mc chunkType body
    if first.status ≠ good then first
    else
      let others := sendAttempts first.context rest
      { others with chunks := first.chunks ++ others.chunks }

def sentNumbers (mc : MessageContext Context) : List (ChunkType × List Byte) → List (BitVec 32)
  | [] => []
  | (chunkType, body) :: rest =>
    let first := sendSymmetricChunk policy connection mc chunkType body
    if first.status ≠ good then []
    else (mc.channel.sendSequenceNumber + 1) :: sentNumbers first.context rest

def stopsAtLimit (mc : MessageContext Context) (body : List Byte) : Bool :=
  surpassesLimits connection { mc with
      messageSizeSoFar := mc.messageSizeSoFar + body.length
      chunksSoFar := mc.chunksSoFar + 1 }

def GoesOut (mc : MessageContext Context) (chunkType : ChunkType) (body : List Byte) : Prop :=
  (buildChunk policy connection mc chunkType body).1 = good ∧
    connection.send (buildChunk policy connection mc chunkType body).2.bytes = good

instance (mc : MessageContext Context) (chunkType : ChunkType) (body : List Byte) :
    Decidable (GoesOut policy connection mc chunkType body) :=
  inferInstanceAs (Decidable (_ ∧ _))

def FailsEarly : MessageContext Context → List (ChunkType × List Byte) → Prop
  | _, [] => True
  | mc, (chunkType, body) :: rest =>
    stopsAtLimit connection mc body = true ∨
      (body ≠ [] ∧ GoesOut policy connection mc chunkType body ∧
        FailsEarly (sendSymmetricChunk policy connection mc chunkType body).context rest)

instance decidableFailsEarly : ∀ (mc : MessageContext Context)
    (attempts : List (ChunkType × List Byte)), Decidable (FailsEarly policy connection mc attempts)
  | _, [] => isTrue trivial
  | mc, (chunkType, body) :: rest =>
    have := decidableFailsEarly
      (sendSymmetricChunk policy connection mc chunkType body).context rest
    inferInstanceAs (Decidable (_ ∨ _ ∧ _ ∧ _))

theorem sendAttempts_append (mc : MessageContext Context)
    (first second : List (ChunkType × List Byte)) :
    sendAttempts policy connection mc (first ++ second) =
      let before := sendAttempts policy connection mc first
      if before.status ≠ good then before
      else
        let after := sendAttempts policy connection before.context second
        { after with chunks := before.chunks ++ after.chunks } := by
  induction first generalizing mc with
  | nil => simp [sendAttempts]
  | cons attempt rest ih =>
    obtain ⟨chunkType, body⟩ := attempt
    simp only [cons_append, sendAttempts]
    by_cases failed : (sendSymmetricChunk policy connection mc chunkType body).status ≠ good
    · rw [if_pos failed, if_pos failed, if_pos failed]
    · rw [if_neg failed, ih]
      dsimp only
      split
      · rfl
      · simp only [append_assoc]

theorem sendIntermediateChunks_attempts (mc : MessageContext Context) (bodies : List (List Byte)) :
    sendIntermediateChunks policy connection mc bodies =
      sendAttempts policy connection mc (bodies.map fun body => (.intermediate, body)) := by
  induction bodies generalizing mc with
  | nil => rfl
  | cons body rest ih =>
    simp only [sendIntermediateChunks, map_cons, sendAttempts, ih]

end Attempts

def following (number : BitVec 32) : Nat → List (BitVec 32)
  | 0 => []
  | count + 1 => (number + 1) :: following (number + 1) count

theorem add_ofNat_succ (number : BitVec 32) (count : Nat) :
    number + BitVec.ofNat 32 (count + 1) = number + 1 + BitVec.ofNat 32 count := by
  have one : (1 : BitVec 32).toNat = 1 := rfl
  apply BitVec.eq_of_toNat_eq
  simp only [BitVec.toNat_add, BitVec.toNat_ofNat, one]
  omega

theorem following_append (number : BitVec 32) (first second : Nat) :
    following number first ++ following (number + BitVec.ofNat 32 first) second =
      following number (first + second) := by
  induction first generalizing number with
  | zero => simp [following]
  | succ first ih =>
    have count : first + 1 + second = first + second + 1 := by omega
    rw [add_ofNat_succ, following, cons_append, ih, count, following]

def KeepsSecurity (callback : ProcessMessageCallback Context Application) : Prop :=
  ∀ application channel delivery,
    (callback.run application channel delivery).2.2.securityToken = channel.securityToken ∧
      (callback.run application channel delivery).2.2.securityMode = channel.securityMode ∧
      (callback.run application channel delivery).2.2.context = channel.context

def receiveAll (policy : SecurityPolicy Context)
    (callback : ProcessMessageCallback Context Application) (application : Application)
    (channel : SecureChannel Context) : List (List Byte) → Application × SecureChannel Context
  | [] => (application, channel)
  | bytes :: rest =>
    let result := processChunk policy callback application channel bytes
    receiveAll policy callback result.application result.channel rest

section Receiving

variable {policy : SecurityPolicy Context} {connection : SendConnection}
  {callback : ProcessMessageCallback Context Application}

theorem processPayload_security (keeps : KeepsSecurity callback) (application : Application)
    (channel : SecureChannel Context) (chunk : AcceptedChunk) :
    let after := (processPayload callback application channel chunk).channel
    after.securityToken = channel.securityToken ∧ after.securityMode = channel.securityMode ∧
      after.context = channel.context ∧
      after.receiveSequenceNumber = channel.receiveSequenceNumber := by
  have delivered (channel : SecureChannel Context) (message : List Byte) :
      let after := (deliver callback application channel chunk message).channel
      after.securityToken = channel.securityToken ∧ after.securityMode = channel.securityMode ∧
        after.context = channel.context ∧
        after.receiveSequenceNumber = channel.receiveSequenceNumber := by
    obtain ⟨token, mode, context⟩ := keeps application channel
      ⟨chunk.messageType, chunk.requestId, message⟩
    exact ⟨token, mode, context, callback.receiveSequenceNumber_run _ _ _⟩
  intro after
  simp only [after, processPayload]
  split
  · exact delivered channel chunk.payload
  · split
    · exact delivered { channel with chunks := removeChunks channel.chunks chunk.requestId } _
    · exact ⟨rfl, rfl, rfl, rfl⟩
    · exact ⟨rfl, rfl, rfl, rfl⟩
    · exact ⟨rfl, rfl, rfl, rfl⟩

theorem SharedKeys.same {sender receiver sendsNext receivesNext : SecureChannel Context}
    (keys : SharedKeys policy sender receiver) (sends : sendsNext.context = sender.context)
    (mode : sendsNext.securityMode = sender.securityMode)
    (receives : receivesNext.context = receiver.context) :
    SharedKeys policy sendsNext receivesNext := by
  obtain ⟨size, length, verify, block, key, same, undone⟩ := keys
  constructor
  · rwa [sends, mode, receives]
  · rwa [sends]
  · rwa [sends, receives]
  · rwa [sends, mode]
  · rwa [mode, receives]
  · rwa [sends]
  · rwa [sends, receives]

theorem sendSymmetricChunk_stopped (policy : SecurityPolicy Context) {mc : MessageContext Context}
    (chunkType : ChunkType) {body : List Byte} (stops : stopsAtLimit connection mc body = true) :
    let result := sendSymmetricChunk policy connection mc chunkType body
    result.status ≠ good ∧ result.chunks = [] ∧ result.context.channel = mc.channel := by
  simp only [stopsAtLimit] at stops
  simp only [sendSymmetricChunk]
  rw [if_pos stops]
  exact ⟨show ¬badResponseTooLarge = good by decide, rfl, rfl⟩

theorem goesOut_received (keeps : KeepsSecurity callback) {mc : MessageContext Context}
    {receiver : SecureChannel Context} {chunkType : ChunkType} {body : List Byte}
    (application : Application) (keys : SharedKeys policy mc.channel receiver)
    (paired : Paired mc.channel receiver) (sort : mc.messageType = .msg ∨ mc.messageType = .clo)
    (within : ¬stopsAtLimit connection mc body = true) (some : body ≠ [])
    (out : GoesOut policy connection mc chunkType body) :
    let result := sendSymmetricChunk policy connection mc chunkType body
    let bytes := (buildChunk policy connection mc chunkType body).2.bytes
    let after := (processChunk policy callback application receiver bytes).channel
    result.status = good ∧ result.chunks = [(buildChunk policy connection mc chunkType body).2] ∧
      result.context.messageType = mc.messageType ∧
      result.context.channel.sendSequenceNumber = mc.channel.sendSequenceNumber + 1 ∧
      SharedKeys policy result.context.channel after ∧ Paired result.context.channel after := by
  have status : (sendSymmetricChunk policy connection mc chunkType body).status = good := by
    simp only [stopsAtLimit] at within
    simp only [sendSymmetricChunk]
    rw [if_neg within, if_neg (not_not.mpr out.1)]
    exact out.2
  obtain ⟨built, chunks, channel, -, messageType⟩ := sendSymmetricChunk_good status
  intro result bytes after
  have checked := buildChunk_checked keys paired sort built
  rw [if_neg some] at checked
  have processed : processChunk policy callback application receiver bytes =
      processPayload callback application
        { receiver with receiveSequenceNumber := mc.channel.sendSequenceNumber + 1 }
        ⟨mc.messageType, Option.some chunkType, receiver.securityToken.tokenId,
          mc.channel.sendSequenceNumber + 1, mc.requestId, body, false⟩ := by
    simp only [bytes, processChunk, checked]
  obtain ⟨token, mode, context, number⟩ := processPayload_security keeps application
    { receiver with receiveSequenceNumber := mc.channel.sendSequenceNumber + 1 }
    ⟨mc.messageType, Option.some chunkType, receiver.securityToken.tokenId,
      mc.channel.sendSequenceNumber + 1, mc.requestId, body, false⟩
  rw [← processed] at token mode context number
  refine ⟨status, chunks, messageType, by rw [channel], ?_, ?_⟩
  · exact keys.same (by rw [channel]) (by rw [channel]) context
  · rw [channel]
    exact ⟨by rw [token]; exact paired.channelId, by rw [token]; exact paired.tokenId,
      by rw [mode]; exact paired.securityMode, number⟩

theorem sendAttempts_received (keeps : KeepsSecurity callback)
    (attempts : List (ChunkType × List Byte)) :
    ∀ (mc : MessageContext Context) (receiver : SecureChannel Context) (application : Application),
      SharedKeys policy mc.channel receiver → Paired mc.channel receiver →
      mc.messageType = .msg ∨ mc.messageType = .clo →
      FailsEarly policy connection mc attempts →
      let result := sendAttempts policy connection mc attempts
      let after := receiveAll policy callback application receiver
        (result.chunks.map SentChunk.bytes)
      (∀ chunk ∈ result.chunks, connection.send chunk.bytes = good) ∧
        SharedKeys policy result.context.channel after.2 ∧
        Paired result.context.channel after.2 ∧
        ∃ count, sentNumbers policy connection mc attempts =
            following mc.channel.sendSequenceNumber count ∧
          result.context.channel.sendSequenceNumber =
            mc.channel.sendSequenceNumber + BitVec.ofNat 32 count := by
  induction attempts with
  | nil =>
    intro mc receiver application keys paired _ _
    exact ⟨by simp [sendAttempts], keys, paired, 0, rfl, (BitVec.add_zero _).symm⟩
  | cons attempt rest ih =>
    obtain ⟨chunkType, body⟩ := attempt
    intro mc receiver application keys paired sort early
    by_cases within : stopsAtLimit connection mc body = true
    · obtain ⟨failed, chunks, channel⟩ := 
        sendSymmetricChunk_stopped policy chunkType within
      simp only [sendAttempts, sentNumbers]
      rw [if_pos failed, if_pos failed, chunks, channel]
      exact ⟨by simp, keys, paired, 0, rfl, (BitVec.add_zero _).symm⟩
    · obtain ⟨some, out, later⟩ := early.resolve_left within
      obtain ⟨status, chunks, messageType, number, keysToo, pairedToo⟩ :=
        goesOut_received keeps application keys paired sort within some out
      have others := ih _ _ (processChunk policy callback application receiver
        (buildChunk policy connection mc chunkType body).2.bytes).application keysToo pairedToo
        (by rw [messageType]; exact sort) later
      obtain ⟨taken, keysLast, pairedLast, count, numbers, last⟩ := others
      simp only [sendAttempts, sentNumbers]
      rw [if_neg (not_not.mpr status), if_neg (not_not.mpr status), chunks]
      refine ⟨?_, keysLast, pairedLast, count + 1, ?_, ?_⟩
      · intro chunk member
        rcases mem_append.mp member with first | after
        · rw [mem_singleton.mp first]
          exact out.2
        · exact taken chunk after
      · rw [numbers, number, following]
      · rw [last, number, add_ofNat_succ]

end Receiving

/-! Messages on a channel -/

structure Sending where
  connection : SendConnection
  env : TypeEnv
  rounds : Nat
  requestId : BitVec 32
  messageType : MessageType
  payload : Value
  payloadType : DataType

namespace Sending

variable (policy : SecurityPolicy Context) (sending : Sending) (channel : SecureChannel Context)

def result : SendResult Context :=
  sendSymmetricMessage policy sending.connection sending.env sending.rounds channel
    sending.requestId sending.messageType sending.payload sending.payloadType

def encoded : StatusCode × Ctx :=
  encodeMessage policy sending.connection sending.env sending.rounds channel sending.payload
    sending.payloadType

def Refused : Prop :=
  sending.connection.closed = true ∨ (sending.messageType ≠ .msg ∧ sending.messageType ≠ .clo) ∨
    sending.connection.sendBufferSize.toNat ≤ 24

instance : Decidable sending.Refused := inferInstanceAs (Decidable (_ ∨ _ ∨ _))

def attempts : List (ChunkType × List Byte) :=
  if sending.Refused then []
  else
    (sending.encoded policy channel).2.sent.map (fun body => (.intermediate, body)) ++
      if (sending.encoded policy channel).1 = good then
        [(.final, (sending.encoded policy channel).2.out)]
      else []

def context : MessageContext Context := ⟨channel, sending.requestId, sending.messageType, 0, 0⟩

def arrived : List (List Byte) :=
  ((sending.result policy channel).chunks.filter fun chunk =>
    sending.connection.send chunk.bytes == good).map SentChunk.bytes

def message : List Byte :=
  (chunkBodies policy sending.connection sending.env sending.rounds channel sending.payload
    sending.payloadType).flatten

variable {policy sending channel}

theorem sort_of_accepted (accepted : ¬sending.Refused) :
    sending.messageType = .msg ∨ sending.messageType = .clo := by
  have known := (not_or.mp (not_or.mp accepted).2).1
  rwa [not_and_or, not_not, not_not] at known

theorem result_refused (refused : sending.Refused) : (sending.result policy channel).chunks = [] ∧
      (sending.result policy channel).context = sending.context channel ∧
      (sending.result policy channel).status ≠ good := by
  rw [result, sendSymmetricMessage]
  by_cases closed : sending.connection.closed = true
  · rw [if_pos closed]
    exact ⟨rfl, rfl, show ¬badConnectionClosed = good by decide⟩
  by_cases sort : sending.messageType ≠ .msg ∧ sending.messageType ≠ .clo
  · rw [if_neg closed, if_pos sort]
    exact ⟨rfl, rfl, show ¬badInternalError = good by decide⟩
  rw [if_neg closed, if_neg sort, if_pos ((refused.resolve_left closed).resolve_left sort)]
  exact ⟨rfl, rfl, show ¬badResponseTooLarge = good by decide⟩

theorem result_accepted (accepted : ¬sending.Refused) : sending.result policy channel =
      let intermediate := sendIntermediateChunks policy sending.connection (sending.context channel)
        (sending.encoded policy channel).2.sent
      if intermediate.status ≠ good then intermediate
      else if (sending.encoded policy channel).1 ≠ good then
        { intermediate with status := (sending.encoded policy channel).1 }
      else
        let final := sendSymmetricChunk policy sending.connection intermediate.context .final
          (sending.encoded policy channel).2.out
        { final with chunks := intermediate.chunks ++ final.chunks } := by
  obtain ⟨established, rest⟩ := not_or.mp accepted
  obtain ⟨sort, large⟩ := not_or.mp rest
  rw [result, sendSymmetricMessage, if_neg established, if_neg sort, if_neg large]
  rfl

theorem result_attempts : (sending.result policy channel).chunks =
        (sendAttempts policy sending.connection (sending.context channel)
          (sending.attempts policy channel)).chunks ∧
      (sending.result policy channel).context =
        (sendAttempts policy sending.connection (sending.context channel)
          (sending.attempts policy channel)).context := by
  by_cases refused : sending.Refused
  · rw [attempts, if_pos refused]
    obtain ⟨chunks, context, -⟩ := @result_refused Context policy sending channel refused
    exact ⟨chunks, context⟩
  rw [result_accepted refused, attempts, if_neg refused, sendAttempts_append,
    ← sendIntermediateChunks_attempts]
  by_cases intermediate : (sendIntermediateChunks policy sending.connection
      (sending.context channel) (sending.encoded policy channel).2.sent).status ≠ good
  · rw [if_pos intermediate, if_pos intermediate]
    exact ⟨rfl, rfl⟩
  rw [if_neg intermediate, if_neg intermediate]
  by_cases encoded : (sending.encoded policy channel).1 = good
  · rw [if_neg (not_not.mpr encoded), if_pos encoded]
    simp only [sendAttempts]
    split
    · exact ⟨rfl, rfl⟩
    · rw [append_nil]
      exact ⟨rfl, rfl⟩
  · rw [if_pos encoded, if_neg encoded]
    simp [sendAttempts]

theorem result_good (success : (sending.result policy channel).status = good) : ¬sending.Refused ∧
      (sendIntermediateChunks policy sending.connection (sending.context channel)
        (sending.encoded policy channel).2.sent).status = good ∧
      (sending.encoded policy channel).1 = good ∧
      (sendSymmetricChunk policy sending.connection
        (sendIntermediateChunks policy sending.connection (sending.context channel)
          (sending.encoded policy channel).2.sent).context .final
        (sending.encoded policy channel).2.out).status = good := by
  have accepted : ¬sending.Refused := fun refused => (result_refused refused).2.2 success
  rw [result_accepted accepted] at success
  dsimp only at success
  split at success
  · rename_i failed
    exact absurd success failed
  rename_i intermediate
  split at success
  · rename_i failed
    exact absurd success failed
  rename_i encoded
  exact ⟨accepted, not_not.mp intermediate, not_not.mp encoded, success⟩

end Sending

structure Link (Context Application : Type) where
  sender : SecureChannel Context
  receiver : SecureChannel Context
  application : Application
  numbers : List (BitVec 32)

namespace Link

variable (policy : SecurityPolicy Context) (callback : ProcessMessageCallback Context Application)
  (link : Link Context Application) (sending : Sending)

def send : Link Context Application :=
  let received := receiveAll policy callback link.application link.receiver
    (sending.arrived policy link.sender)
  ⟨(sending.result policy link.sender).context.channel, received.2, received.1,
    link.numbers ++ sentNumbers policy sending.connection (sending.context link.sender)
      (sending.attempts policy link.sender)⟩

def steps : List ProcessStep :=
  processAll policy callback link.application link.receiver (sending.arrived policy link.sender)

def SendsEarly : Prop :=
  FailsEarly policy sending.connection (sending.context link.sender)
    (sending.attempts policy link.sender)

instance : Decidable (link.SendsEarly policy sending) :=
  inferInstanceAs (Decidable (FailsEarly _ _ _ _))

/-- The messages that have been sent so far do no harm: the numbers are consecutive, and a message
that is sent now is delivered, exactly as it is if no part of an earlier message with the same
request id is left. -/
structure Unharmed (start : SecureChannel Context) : Prop where
  numbers : ∃ count, link.numbers = following start.sendSequenceNumber count
  later : ∀ sending : Sending, link.SendsEarly policy sending →
    (sending.result policy link.sender).status = good →
    (DeliversOnce (link.steps policy callback sending)
        ⟨sending.messageType, sending.requestId, sending.message policy link.sender⟩ ↔
      collectedBytes link.receiver.chunks sending.requestId = [])

variable {policy callback link sending}

section

variable (keeps : KeepsSecurity callback) (keys : SharedKeys policy link.sender link.receiver)
  (paired : Paired link.sender link.receiver) (early : link.SendsEarly policy sending)
include keeps keys paired early

theorem arrived_early (accepted : ¬sending.Refused) : sending.arrived policy link.sender =
      (sending.result policy link.sender).chunks.map SentChunk.bytes := by
  obtain ⟨taken, -⟩ := sendAttempts_received keeps (sending.attempts policy link.sender)
    (sending.context link.sender) link.receiver link.application keys paired
    (Sending.sort_of_accepted accepted) early
  rw [Sending.arrived, filter_eq_self.mpr]
  intro chunk member
  rw [Sending.result_attempts.1] at member
  exact beq_iff_eq.mpr (taken chunk member)

theorem send_paired : SharedKeys policy (link.send policy callback sending).sender
        (link.send policy callback sending).receiver ∧
      Paired (link.send policy callback sending).sender
        (link.send policy callback sending).receiver ∧
      ∃ count, (link.send policy callback sending).numbers =
          link.numbers ++ following link.sender.sendSequenceNumber count ∧
        (link.send policy callback sending).sender.sendSequenceNumber =
          link.sender.sendSequenceNumber + BitVec.ofNat 32 count := by
  by_cases refused : sending.Refused
  · obtain ⟨chunks, context, -⟩ : (sending.result policy link.sender).chunks = [] ∧
        (sending.result policy link.sender).context = sending.context link.sender ∧
        (sending.result policy link.sender).status ≠ good := Sending.result_refused refused
    have nothing : sending.arrived policy link.sender = [] := by
      rw [Sending.arrived, chunks]
      rfl
    have untouched : (link.send policy callback sending).receiver = link.receiver := by
      rw [send, nothing]
      rfl
    have same : (link.send policy callback sending).sender = link.sender := by
      rw [send, context]
      rfl
    have numbers : (link.send policy callback sending).numbers = link.numbers := by
      rw [send, Sending.attempts, if_pos refused]
      exact append_nil _
    rw [untouched, same, numbers]
    exact ⟨keys, paired, 0, (append_nil _).symm, (BitVec.add_zero _).symm⟩
  · obtain ⟨-, keysToo, pairedToo, count, numbers, last⟩ := sendAttempts_received keeps
      (sending.attempts policy link.sender) (sending.context link.sender) link.receiver
      link.application keys paired (Sending.sort_of_accepted refused) early
    rw [← Sending.result_attempts.1, ← arrived_early keeps keys paired early refused] at keysToo pairedToo
    rw [← Sending.result_attempts.2] at keysToo pairedToo last
    refine ⟨keysToo, pairedToo, count, ?_, last⟩
    rw [send, numbers]
    rfl

end

theorem bodies_nonempty (connection : SendConnection) (attempts : List (ChunkType × List Byte)) :
    ∀ mc : MessageContext Context, FailsEarly policy connection mc attempts →
      (sendAttempts policy connection mc attempts).status = good →
      ∀ attempt ∈ attempts, attempt.2 ≠ [] := by
  induction attempts with
  | nil => simp
  | cons first rest ih =>
    obtain ⟨chunkType, body⟩ := first
    intro mc early success attempt member
    simp only [sendAttempts] at success
    by_cases failed : (sendSymmetricChunk policy connection mc chunkType body).status ≠ good
    · rw [if_pos failed] at success
      exact absurd success failed
    rw [if_neg failed] at success
    obtain stopped | ⟨some, -, later⟩ := early
    · exact absurd (sendSymmetricChunk_stopped policy chunkType stopped).1 (not_not.mpr
        (not_not.mp failed))
    · rcases mem_cons.mp member with here | after
      · rw [here]
        exact some
      · exact ih _ later success attempt after

theorem message_delivered (keeps : KeepsSecurity callback)
    (keys : SharedKeys policy link.sender link.receiver) (paired : Paired link.sender link.receiver)
    (early : link.SendsEarly policy sending)
    (success : (sending.result policy link.sender).status = good) :
    DeliversOnce (link.steps policy callback sending) ⟨sending.messageType, sending.requestId,
        collectedBytes link.receiver.chunks sending.requestId ++
          sending.message policy link.sender⟩ := by
  obtain ⟨accepted, intermediate, encoded, final⟩ := Sending.result_good success
  have delivered := messageChunks_delivered policy sending.connection callback
    (sending.encoded policy link.sender).2.sent (sending.encoded policy link.sender).2.out
    (sending.context link.sender) link.receiver link.application keys paired
    (Sending.sort_of_accepted accepted) intermediate final
  have chunks : (sending.result policy link.sender).chunks = _ :=
    congrArg SendResult.chunks (Sending.result_accepted accepted)
  have attempted : (sendAttempts policy sending.connection (sending.context link.sender)
      (sending.attempts policy link.sender)).status = good := by
    rw [Sending.attempts, if_neg accepted, if_pos encoded, sendAttempts_append,
      ← sendIntermediateChunks_attempts]
    rw [if_neg (not_not.mpr intermediate)]
    simp only [sendAttempts]
    rw [if_neg (not_not.mpr final)]
  have bodies := bodies_nonempty sending.connection _ _ early attempted
  rw [if_neg (not_not.mpr intermediate), if_neg (not_not.mpr encoded)] at chunks
  rw [steps, arrived_early keeps keys paired early accepted, chunks]
  have whole : sending.message policy link.sender =
      (sending.encoded policy link.sender).2.sent.flatten ++
        (sending.encoded policy link.sender).2.out := by
    rw [Sending.message, chunkBodies]
    simp [Sending.encoded]
  rw [whole]
  refine delivered.mpr fun body member => ?_
  rw [Sending.attempts, if_neg accepted, if_pos encoded] at bodies
  rcases mem_append.mp member with earlier | last
  · exact bodies (.intermediate, body) (mem_append_left _ (mem_map_of_mem earlier))
  · rw [mem_singleton.mp last]
    exact bodies _ (mem_append_right _ mem_cons_self)

structure InStep (policy : SecurityPolicy Context) (start : SecureChannel Context)
    (link : Link Context Application) : Prop where
  keys : SharedKeys policy link.sender link.receiver
  paired : Paired link.sender link.receiver
  numbers : ∃ count, link.numbers = following start.sendSequenceNumber count ∧
    link.sender.sendSequenceNumber = start.sendSequenceNumber + BitVec.ofNat 32 count

theorem InStep.send {start : SecureChannel Context} (keeps : KeepsSecurity callback)
    (together : InStep policy start link) (early : link.SendsEarly policy sending) :
    InStep policy start (link.send policy callback sending) := by
  obtain ⟨keys, paired, count, numbers, last⟩ := together
  obtain ⟨keysAfter, pairedAfter, more, longer, next⟩ := send_paired keeps keys paired early
  refine ⟨keysAfter, pairedAfter, count + more, ?_, ?_⟩
  · rw [longer, numbers, last, following_append]
  · rw [next, last, BitVec.add_assoc, ← BitVec.ofNat_add]

end Link

def securityPolicyFailing : SecurityPolicy Unit :=
  { securityPolicyNone with
    symmetric := { cryptoModuleNone with
      sign := fun _ data => if data.length = 47 then (badInternalError, []) else (good, []) } }

def startLink : Link Unit Unit :=
  ⟨{ sendingChannel with securityMode := .sign }, { idleChannel with securityMode := .sign }, (), []⟩

def limitedConnection : SendConnection := { openConnection 60 with maxChunkCount := 1 }

def longSending (requestId : BitVec 32) : Sending :=
  ⟨limitedConnection, sampleEnv, 10, requestId, .msg, arrayWriteValue, writeValueType⟩

def timestampSending (requestId : BitVec 32) : Sending :=
  ⟨openConnection 8192, sampleEnv, 10, requestId, .msg, timestampWriteValue, writeValueType⟩

def shortSending (requestId : BitVec 32) : Sending :=
  ⟨limitedConnection, sampleEnv, 10, requestId, .msg, .leaf (.nodeId .null), nodeIdType⟩

theorem startLink_sharedKeys :
    SharedKeys securityPolicyFailing startLink.sender startLink.receiver where
  signatureSize _ := rfl
  sign_length data signed := by
    by_cases fails : data.length = 47
    · exact absurd signed (by simp [securityPolicyFailing, fails, badInternalError, good])
    · simp [securityPolicyFailing, securityPolicyNone, cryptoModuleNone, fails]
  verify_sign _ _ := rfl
  blockSize encrypts := absurd encrypts (by decide)
  keyLength _ := by decide
  encrypt_length _ _ := rfl
  decrypt_encrypt _ _ _ := rfl

def sendAll (link : Link Unit Unit) (messages : List Sending) : Link Unit Unit :=
  messages.foldl (Link.send securityPolicyFailing (acceptMessages Unit)) link

end OpcUa
