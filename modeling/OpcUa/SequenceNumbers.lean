import Mathlib.Data.List.Chain
import OpcUa.Library.RolloverCounter
import OpcUa.SecureChannelChecks

/-!
The sequence numbers of the chunks that a channel accepts, over whole runs.
-/

namespace OpcUa

open LittleEndian StatusCode RolloverCounter List

variable {Context Application : Type}
variable {bytes : List Byte} {trace : List AcceptedChunk} {number : BitVec 32}

/-- A run of a channel and the chunks that were accepted in it. Next to the chunks that
come in, anything may happen to the channel that leaves the receive sequence number alone:
messages are sent, tokens are issued or time out. -/
inductive Receives (policy : SecurityPolicy Context)
    (callback : ProcessMessageCallback Context Application)
    (allowed : SecureChannel Context → List Byte → Prop) (first : SecureChannel Context) :
    List AcceptedChunk → SecureChannel Context → Prop
  | start : Receives policy callback allowed first [] first
  | chunk {trace : List AcceptedChunk} {channel : SecureChannel Context}
      (application : Application) (bytes : List Byte) :
      Receives policy callback allowed first trace channel → allowed channel bytes →
      Receives policy callback allowed first
        (trace ++ (processChunk policy callback application channel bytes).accepted.toList)
        (processChunk policy callback application channel bytes).channel
  | other {trace : List AcceptedChunk} {channel : SecureChannel Context}
      (after : SecureChannel Context) :
      Receives policy callback allowed first trace channel →
      after.receiveSequenceNumber = channel.receiveSequenceNumber →
      Receives policy callback allowed first trace after

def isSymmetric (chunk : AcceptedChunk) : Bool :=
  chunk.messageType == .msg || chunk.messageType == .clo

def symmetricNumbers (trace : List AcceptedChunk) : List (BitVec 32) :=
  (trace.filter isSymmetric).map AcceptedChunk.sequenceNumber

def withoutOpn (_ : SecureChannel Context) (bytes : List Byte) : Prop :=
  headerMessageType bytes ≠ some .opn

def NextNumber (previous next : BitVec 32) : Prop :=
  next = previous + 1 ∨ (4294966271 ≤ previous.toNat ∧ next.toNat < 1024)

theorem SequenceFollows.nextNumber {stored sequenceNumber : BitVec 32}
    (follows : SequenceFollows stored sequenceNumber) : NextNumber stored sequenceNumber := by
  refine follows.imp_right fun rollover => ⟨?_, rollover.2⟩
  have value : (stored + 1).toNat = (stored.toNat + 1) % 2 ^ 32 := BitVec.toNat_add stored 1
  have above := rollover.1
  have bound := stored.isLt
  omega

theorem NextNumber.advances {previous next : BitVec 32} (after : NextNumber previous next) :
    Advances 1024 4294966271 previous.toNat next.toNat := by
  rcases after with successor | rollover
  · have value : next.toNat = (previous.toNat + 1) % 2 ^ 32 := by
      rw [successor]
      exact BitVec.toNat_add previous 1
    have bound := previous.isLt
    by_cases last : previous.toNat = 4294967295
    · right
      omega
    · left
      omega
  · exact .inr rollover

theorem processPayload_receiveSequenceNumber (callback : ProcessMessageCallback Context Application)
    (application : Application) (channel : SecureChannel Context) (chunk : AcceptedChunk) :
    (processPayload callback application channel chunk).channel.receiveSequenceNumber =
      channel.receiveSequenceNumber := by
  rw [processPayload]
  split
  · exact callback.receiveSequenceNumber_run _ _ _
  · split
    · exact callback.receiveSequenceNumber_run _ _ _
    · rfl
    · rfl
    · rfl

theorem processChunk_number (policy : SecurityPolicy Context)
    (callback : ProcessMessageCallback Context Application) (application : Application)
    (channel : SecureChannel Context) (other : headerMessageType bytes ≠ some .opn) :
    let result := processChunk policy callback application channel bytes
    (symmetricNumbers result.accepted.toList = [] ∧
      result.channel.receiveSequenceNumber = channel.receiveSequenceNumber) ∨
    ∃ number, symmetricNumbers result.accepted.toList = [number] ∧
      result.channel.receiveSequenceNumber = number ∧
      SequenceFollows channel.receiveSequenceNumber number := by
  obtain ⟨status, after, checks, result⟩ | ⟨accepted, after, checks, result⟩ :=
    processChunk_cases policy callback application channel bytes
  · rw [result]
    refine .inl ⟨rfl, ?_⟩
    cases checks with
    | refused _ _ _ => rfl
    | revolved _ _ selects =>
      obtain ⟨context, revolved⟩ := revolveTokens_channel policy channel selects.2.2
      rw [revolved]
  · rw [result]
    simp only [processPayload_accepted, processPayload_receiveSequenceNumber]
    cases checks with
    | error _ _ => exact .inl ⟨rfl, rfl⟩
    | opened _ _ sort _ _ => exact absurd sort other
    | symmetric messageType plain after sort carries _ _ follows =>
      refine .inr ⟨plain.sequenceNumber, ?_, rfl, follows⟩
      have symmetric := carries.2.2.1
      rw [sort, Option.some.injEq, Option.some.injEq] at symmetric
      rcases symmetric with msg | clo
      · subst msg
        rfl
      · subst clo
        rfl

theorem symmetricNumbers_append (first second : List AcceptedChunk) :
    symmetricNumbers (first ++ second) = symmetricNumbers first ++ symmetricNumbers second := by
  simp [symmetricNumbers]

variable {last channel : SecureChannel Context}

variable {callback : ProcessMessageCallback Context Application}

variable {policy : SecurityPolicy Context}

theorem Receives.numbers {first : SecureChannel Context}
    (run : Receives policy callback withoutOpn first trace last) :
    (first.receiveSequenceNumber :: symmetricNumbers trace).IsChain NextNumber ∧
      (first.receiveSequenceNumber :: symmetricNumbers trace).getLast? =
        some last.receiveSequenceNumber := by
  induction run with
  | start => exact ⟨.singleton _, rfl⟩
  | other after run same ih => rwa [same]
  | @chunk trace channel application bytes run allowed ih =>
    rw [symmetricNumbers_append, ← cons_append]
    obtain ⟨none, same⟩ | ⟨number, one, stored, follows⟩ :=
      processChunk_number policy callback application channel allowed
    · rw [none, same, append_nil]
      exact ih
    · rw [one, stored]
      refine ⟨?_, getLast?_concat⟩
      rw [isChain_append]
      refine ⟨ih.1, .singleton _, ?_⟩
      intro previous isLast next isHead
      rw [ih.2] at isLast
      simp only [Option.mem_def, Option.some.injEq, head?_cons] at isLast isHead
      subst isLast isHead
      exact follows.nextNumber

theorem isChain_repeat_distance {numbers : List (BitVec 32)} (chain : numbers.IsChain NextNumber)
    {earlier later : Nat} (order : earlier < later) (first : numbers[earlier]? = some number)
    (second : numbers[later]? = some number) : 2 ^ 32 - 2048 ≤ later - earlier - 1 := by
  have inside : later < numbers.length := List.getElem?_eq_some_iff.mp second |>.1
  have steps : ∀ index < numbers.length - 1, Advances 1024 4294966271
      (numbers.getD index 0).toNat (numbers.getD (index + 1) 0).toNat := by
    intro index bound
    have step := isChain_iff_getElem.mp chain index (by omega)
    have current : numbers[index]? = some numbers[index] := getElem?_eq_getElem (by omega)
    have next : numbers[index + 1]? = some numbers[index + 1] := getElem?_eq_getElem (by omega)
    rw [getD_eq_getElem?_getD, getD_eq_getElem?_getD, current, next]
    exact step.advances
  have same : (numbers.getD (earlier + (later - earlier)) 0).toNat =
      (numbers.getD earlier 0).toNat := by
    rw [Nat.add_sub_cancel' order.le, getD_eq_getElem?_getD, getD_eq_getElem?_getD, first, second]
  have distance := repeat_distance steps (by omega) (by omega) same
  omega

def Authentic (policy : SecurityPolicy Context) (channel : SecureChannel Context)
    (bytes : List Byte) (number : BitVec 32) : Prop :=
  ∃ messageType plain after, headerMessageType bytes = some messageType ∧
    CarriesToken channel bytes after.securityToken.tokenId ∧
    checkSymHeader policy channel after.securityToken.tokenId = (good, after) ∧
    decryptChunk policy.symmetric after messageType bytes 16 = .ok plain ∧
    plain.sequenceNumber = number

theorem Authentic.accepted (authentic : Authentic policy channel bytes number)
    (callback : ProcessMessageCallback Context Application) (application : Application)
    (follows : SequenceFollows channel.receiveSequenceNumber number) :
    (processChunk policy callback application channel bytes).accepted.isSome = true ∧
      (processChunk policy callback application channel bytes).channel.receiveSequenceNumber =
        number := by
  obtain ⟨messageType, plain, after, sort, carries, token, decrypted, numbered⟩ := authentic
  have stored := checkSymHeader_receiveSequenceNumber policy channel after.securityToken.tokenId
  rw [token] at stored
  have fits : SequenceFollows after.receiveSequenceNumber plain.sequenceNumber := by
    rwa [stored, numbered]
  have checked := checkChunk_carries policy carries sort
  simp only [token, authenticateChunk, decrypted, processSequenceNumberSym_eq, if_pos fits, ne_eq,
    not_true_eq_false, if_false] at checked
  rw [processChunk, checked]
  exact ⟨by simp only [processPayload_accepted, Option.isSome_some],
    (processPayload_receiveSequenceNumber _ _ _ _).trans numbered⟩

/-- Authentic chunks that are numbered as the sender numbers them: every one has the number
behind the previous one, and after `2 ^ 32 - 1` comes zero. -/
def AllAuthentic (policy : SecurityPolicy Context)
    (callback : ProcessMessageCallback Context Application) (application : Application)
    (channel : SecureChannel Context) (sent : BitVec 32) : List (List Byte) → Prop
  | [] => True
  | bytes :: rest =>
    Authentic policy channel bytes (sent + 1) ∧ AllAuthentic policy callback
        (processChunk policy callback application channel bytes).application
        (processChunk policy callback application channel bytes).channel (sent + 1) rest

def AllAccepted (policy : SecurityPolicy Context)
    (callback : ProcessMessageCallback Context Application) (application : Application)
    (channel : SecureChannel Context) : List (List Byte) → Prop
  | [] => True
  | bytes :: rest =>
    (processChunk policy callback application channel bytes).accepted.isSome = true ∧
      AllAccepted policy callback
        (processChunk policy callback application channel bytes).application
        (processChunk policy callback application channel bytes).channel rest

theorem allAuthentic_allAccepted (policy : SecurityPolicy Context)
    (callback : ProcessMessageCallback Context Application) (chunks : List (List Byte)) :
    ∀ (application : Application) (channel : SecureChannel Context),
      AllAuthentic policy callback application channel channel.receiveSequenceNumber chunks →
      AllAccepted policy callback application channel chunks := by
  induction chunks with
  | nil => intro application channel _; trivial
  | cons bytes rest ih =>
    rintro application channel ⟨authentic, others⟩
    obtain ⟨accepted, stored⟩ := authentic.accepted callback application (.inl rfl)
    refine ⟨accepted, ih _ _ ?_⟩
    rwa [stored]

def TokenKept (before after : SecureChannel Context) : Prop :=
  after.nextSecurityToken.tokenId ≠ before.securityToken.tokenId ∧
    (after.securityToken.tokenId = before.securityToken.tokenId →
      after.context = before.context ∧ after.securityMode = before.securityMode)

theorem decryptChunk_congr (module : CryptoModule Context) {other : SecureChannel Context}
    (keys : other.context = channel.context) (mode : other.securityMode = channel.securityMode)
    (messageType : MessageType) (chunk : List Byte) (offset : Nat) :
    decryptChunk module other messageType chunk offset =
      decryptChunk module channel messageType chunk offset := by
  have signed : isSigned other messageType = isSigned channel messageType := by
    rw [isSigned, isSigned, mode]
  have signature : signatureSize module other messageType =
      signatureSize module channel messageType := by
    rw [signatureSize, signatureSize, signed, keys]
  have padding : paddingSize module other messageType = paddingSize module channel messageType := by
    funext memory size
    rw [paddingSize, paddingSize, signature, removedPadding, removedPadding, keys, mode]
  have verified : verifyBody module other messageType = verifyBody module channel messageType := by
    funext memory size offset
    rw [verifyBody, verifyBody, signed, signature, padding, keys]
  have body : decryptBody module other messageType = decryptBody module channel messageType := by
    funext body
    rw [decryptBody, decryptBody, keys, mode]
  rw [decryptChunk, decryptChunk, body, verified, padding, signature]

variable {application : Application}

theorem accepted_twice {later : Application} {accepted again : AcceptedChunk}
    (passed : (processChunk policy callback application channel bytes).accepted = some accepted)
    (symmetric : isSymmetric accepted = true)
    (kept : TokenKept (checkChunk policy channel bytes).2 last)
    (repeated : (processChunk policy callback later last bytes).accepted = some again) :
    again.sequenceNumber = accepted.sequenceNumber ∧ isSymmetric again = true ∧
      SequenceFollows last.receiveSequenceNumber accepted.sequenceNumber := by
  have before := processChunk_accepted passed
  have now := processChunk_accepted repeated
  generalize (checkChunk policy channel bytes).2 = former at before kept
  generalize (checkChunk policy last bytes).2 = current at now
  cases before with
  | error _ _ => exact absurd symmetric (by simp [isSymmetric])
  | opened _ _ _ _ _ => exact absurd symmetric (by simp [isSymmetric, acceptedChunk])
  | symmetric messageType plain former sort carries token decrypted _ =>
    cases now with
    | error wrong _ => simpa [wrong] using carries.2.2.1
    | opened _ _ wrong _ _ => simpa [wrong] using carries.2.2.1
    | symmetric messageTypeToo plainToo current sortToo carriesToo tokenToo decryptedToo follows =>
      obtain rfl : messageType = messageTypeToo := by
        rw [sort] at sortToo
        exact Option.some.inj sortToo
      have same := carriesToo.2.2.2.2.symm.trans carries.2.2.2.2
      rw [same] at tokenToo
      obtain ⟨inUse, unchanged⟩ := checkSymHeader_current tokenToo kept.1
      obtain ⟨keys, mode⟩ := kept.2 inUse.symm
      have text := decryptChunk_congr policy.symmetric
        (show last.context = former.context from keys)
        (show last.securityMode = former.securityMode from mode) messageType bytes 16
      rw [unchanged, text, decrypted] at decryptedToo
      obtain rfl : plain = plainToo := Except.ok.inj decryptedToo
      exact ⟨rfl, symmetric, follows⟩

theorem Receives.numbers_from {accepted : AcceptedChunk}
    (passed : (processChunk policy callback application channel bytes).accepted = some accepted)
    (symmetric : isSymmetric accepted = true) (run : Receives policy callback withoutOpn
      (processChunk policy callback application channel bytes).channel trace last) :
    (accepted.sequenceNumber :: symmetricNumbers trace).IsChain NextNumber ∧
      (accepted.sequenceNumber :: symmetricNumbers trace).getLast? =
        some last.receiveSequenceNumber := by
  have stored : (processChunk policy callback application channel bytes).channel.receiveSequenceNumber
      = accepted.sequenceNumber := by
    obtain ⟨status, after, checks, result⟩ | ⟨chunk, after, checks, result⟩ :=
      processChunk_cases policy callback application channel bytes
    · rw [result] at passed
      simp at passed
    · rw [result, processPayload_accepted, Option.some.injEq] at passed
      subst passed
      rw [result, processPayload_receiveSequenceNumber]
      cases checks with
      | error _ _ => exact absurd symmetric (by simp [isSymmetric])
      | opened _ _ _ _ _ => rfl
      | symmetric _ _ _ _ _ _ _ _ => rfl
  have numbers := run.numbers
  rwa [stored] at numbers

theorem replayed_rejected {accepted : AcceptedChunk}
    (passed : (processChunk policy callback application channel bytes).accepted = some accepted)
    (symmetric : isSymmetric accepted = true) (run : Receives policy callback withoutOpn
      (processChunk policy callback application channel bytes).channel trace last)
    (shorter : (symmetricNumbers trace).length < 2 ^ 32 - 2048)
    (kept : TokenKept (checkChunk policy channel bytes).2 last) (later : Application) :
    (processChunk policy callback later last bytes).accepted = none := by
  by_contra accepts
  obtain ⟨again, repeated⟩ := Option.ne_none_iff_exists'.mp accepts
  obtain ⟨_, _, follows⟩ := accepted_twice passed symmetric kept repeated
  obtain ⟨chain, ends⟩ := Receives.numbers_from passed symmetric run
  have longer : (accepted.sequenceNumber :: symmetricNumbers trace ++
      [accepted.sequenceNumber]).IsChain NextNumber := by
    rw [isChain_append]
    refine ⟨chain, .singleton _, ?_⟩
    intro previous isLast next isHead
    rw [ends] at isLast
    simp only [Option.mem_def, Option.some.injEq, head?_cons] at isLast isHead
    subst isLast isHead
    exact follows.nextNumber
  have here : (accepted.sequenceNumber :: symmetricNumbers trace ++
      [accepted.sequenceNumber])[0]? = some accepted.sequenceNumber := rfl
  have there : (accepted.sequenceNumber :: symmetricNumbers trace ++
      [accepted.sequenceNumber])[(symmetricNumbers trace).length + 1]? =
        some accepted.sequenceNumber := by simp
  have distance := isChain_repeat_distance longer (by omega) here there
  omega

/-- Without an OPN chunk in between, the accepted numbers go up one by one or roll over, what
the sender numbers is accepted, and no number comes back within `2 ^ 32 - 2048` chunks. -/
theorem symmetricNumbers_law (policy : SecurityPolicy Context)
    (callback : ProcessMessageCallback Context Application) :
    (∀ first trace last, Receives policy callback withoutOpn first trace last →
      (symmetricNumbers trace).IsChain NextNumber ∧
      ∀ earlier later number, earlier < later → (symmetricNumbers trace)[earlier]? = some number →
        (symmetricNumbers trace)[later]? = some number → 2 ^ 32 - 2048 ≤ later - earlier - 1) ∧
    (∀ chunks application channel,
      AllAuthentic policy callback application channel channel.receiveSequenceNumber chunks →
      AllAccepted policy callback application channel chunks) ∧
    ∀ application channel bytes accepted,
      (processChunk policy callback application channel bytes).accepted = some accepted →
      isSymmetric accepted = true → ∀ trace last,
      Receives policy callback withoutOpn
        (processChunk policy callback application channel bytes).channel trace last →
      (symmetricNumbers trace).length < 2 ^ 32 - 2048 →
      TokenKept (checkChunk policy channel bytes).2 last → ∀ later,
      (processChunk policy callback later last bytes).accepted = none := by
  refine ⟨?_, ?_, ?_⟩
  · intro first trace last run
    have chain := run.numbers.1.of_cons
    exact ⟨chain, fun earlier later number order here there =>
      isChain_repeat_distance chain order here there⟩
  · intro chunks application channel authentic
    exact allAuthentic_allAccepted policy callback chunks application channel authentic
  · intro application channel bytes accepted passed symmetric trace last run shorter kept later
    exact replayed_rejected passed symmetric run shorter kept later

/-! A run through the numbers from 1023 to 4294966271 and back to 1023. -/

def plainChannel (stored : BitVec 32) : SecureChannel Unit :=
  { renewedChannel with nextSecurityToken := .init, receiveSequenceNumber := stored }

def plainMessage (number : BitVec 32) : List Byte :=
  symmetricHeaderWire (MessageType.msg.code + ChunkType.final.code) 25 5 7 ++
    (sequenceHeaderWire number 1 ++ [0])

theorem plainMessage_header (number : BitVec 32) :
    messageHeaderDecodeBinary (plainMessage number) 0 =
        .ok ⟨MessageType.msg.code + ChunkType.final.code, 25, 5⟩ 12 ∧
      symmetricHeaderDecodeBinary (plainMessage number) 12 = .ok 7 16 :=
  symmetricHeaderWire_decodes _ _ _ _ _

theorem plainMessage_types (number : BitVec 32) :
    headerMessageType (plainMessage number) = some .msg ∧
      headerChunkType (plainMessage number) = some .final := by
  rw [headerMessageType, headerChunkType, (plainMessage_header number).1]
  exact typeCodes .msg .final

theorem plainMessage_processed (stored number : BitVec 32)
    (follows : SequenceFollows stored number) :
    processChunk securityPolicyNone (acceptMessages Unit) () (plainChannel stored)
      (plainMessage number) =
        ⟨good, (), plainChannel number, some ⟨.msg, some .final, 7, number, 1, [0], false⟩,
          [⟨.msg, 1, [0]⟩]⟩ := by
  obtain ⟨message, token⟩ := plainMessage_header number
  obtain ⟨sort, final⟩ := plainMessage_types number
  have carries : CarriesToken (plainChannel stored) (plainMessage number) 7 :=
    .of_decodes message token (.inl rfl) (.inl (typeCodes .msg .final).1)
  have decrypted : decryptChunk securityPolicyNone.symmetric (plainChannel stored) .msg
      (plainMessage number) 16 = .ok ⟨number, 1, [0], false⟩ :=
    decryptChunk_wire cryptoModuleNone (plainChannel stored) .msg
      (symmetricHeaderWire (MessageType.msg.code + ChunkType.final.code) 25 5 7) _ [0] [] []
      number 1 rfl rfl rfl rfl fun _ => rfl
  have current : checkSymHeader securityPolicyNone (plainChannel stored) 7 =
      (good, plainChannel stored) := rfl
  have fits : SequenceFollows (plainChannel stored).receiveSequenceNumber number := follows
  have checked := checkChunk_carries securityPolicyNone carries sort
  simp only [current, authenticateChunk, decrypted, processSequenceNumberSym_eq, if_pos fits, ne_eq,
    not_true_eq_false, if_false, final] at checked
  rw [processChunk, checked]
  rfl

theorem Receives.plainMessage {first : SecureChannel Unit} {stored : BitVec 32}
    (run : Receives securityPolicyNone (acceptMessages Unit) withoutOpn first trace
      (plainChannel stored)) (follows : SequenceFollows stored number) :
    ∃ trace', Receives securityPolicyNone (acceptMessages Unit) withoutOpn first trace'
        (plainChannel number) ∧
      symmetricNumbers trace' = symmetricNumbers trace ++ [number] := by
  have allowed : withoutOpn (plainChannel stored) (OpcUa.plainMessage number) := by
    rw [withoutOpn, (plainMessage_types number).1]
    decide
  have step := run.chunk () (OpcUa.plainMessage number) allowed
  rw [plainMessage_processed stored number follows] at step
  exact ⟨_, step, symmetricNumbers_append _ _⟩

theorem climbing_run (count : Nat) :
    ∃ trace, Receives securityPolicyNone (acceptMessages Unit) withoutOpn (plainChannel 1022) trace
        (plainChannel (BitVec.ofNat 32 (1022 + count))) ∧
      symmetricNumbers trace =
        (List.range count).map fun index => BitVec.ofNat 32 (1023 + index) := by
  induction count with
  | zero => exact ⟨[], .start, rfl⟩
  | succ count ih =>
    obtain ⟨trace, run, numbers⟩ := ih
    have successor : BitVec.ofNat 32 (1022 + (count + 1)) = BitVec.ofNat 32 (1022 + count) + 1 := by
      rw [← Nat.add_assoc, BitVec.ofNat_add]
      rfl
    obtain ⟨longer, run, added⟩ := run.plainMessage (.inl successor)
    refine ⟨longer, run, ?_⟩
    rw [added, numbers, range_succ, map_append]
    simp only [map_cons, map_nil]
    rw [show 1022 + (count + 1) = 1023 + count by omega]

/-- Exactly `2 ^ 32 - 2048` chunks are accepted between the two chunks with the number 1023. -/
theorem rollover_repeats_early :
    ∃ trace last, Receives securityPolicyNone (acceptMessages Unit) withoutOpn (plainChannel 1022)
        trace last ∧
      ∃ earlier later number, earlier < later ∧ (symmetricNumbers trace)[earlier]? = some number ∧
        (symmetricNumbers trace)[later]? = some number ∧
        ¬2 ^ 32 - 2048 < later - earlier - 1 := by
  obtain ⟨count, value⟩ : ∃ count, count = 4294965249 := ⟨_, rfl⟩
  obtain ⟨trace, run, numbers⟩ := climbing_run count
  have rollover : SequenceFollows (BitVec.ofNat 32 (1022 + count)) 1023 := by
    rw [value]
    decide
  obtain ⟨longer, run, added⟩ := run.plainMessage rollover
  refine ⟨longer, _, run, 0, count, 1023, by omega, ?_, ?_, by omega⟩
  · rw [added, numbers, getElem?_append_left (by simp; omega), getElem?_map,
      getElem?_range (by omega)]
    rfl
  · rw [added, numbers, getElem?_append_right (by simp)]
    simp

end OpcUa
