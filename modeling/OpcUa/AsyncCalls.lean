import Mathlib.Data.List.Nodup
import OpcUa.AsyncCallsCore

/-!
How often the callback of an asynchronous call is called. An entry whose callback runs for a
response is still in the list, and a loop keeps the entry it goes on with. As long as nothing
completes an entry that is held in this way, each call is completed once, and no entry is used
after it was freed.
-/

namespace OpcUa

open StatusCode GuardedRuns List

def CallFrame.held? : CallFrame → Option AsyncServiceCall
  | .answering ac => some ac
  | .cancelling _ ac_tmp => ac_tmp

structure Invocation.Fits (invocation : Invocation) (ac : AsyncServiceCall) : Prop where
  address : invocation.address = ac.address
  requestId : invocation.requestId = ac.requestId
  statusCode : ∀ statusCode, invocation.outcome = .cancelled statusCode →
    statusCode = badShutdown ∨ statusCode = badTimeout

theorem CancelLoop.statusCode_cancels (loop : CancelLoop) :
    loop.statusCode = badShutdown ∨ loop.statusCode = badTimeout := by
  cases loop with
  | removeAll => exact .inl rfl
  | asyncServiceTimeoutCheck now => exact .inr rfl

namespace AsyncClient

variable {ac : AsyncServiceCall}
variable {frame : CallFrame} {calls : List AsyncServiceCall} {requestId : BitVec 32}
  {frames : List CallFrame}

def held (client : AsyncClient) : List AsyncServiceCall :=
  client.frames.filterMap CallFrame.held?

def invoked (client : AsyncClient) : List Nat := client.invocations.map Invocation.address

/-- The calls that were issued are each completed once: with what is theirs, and out of the list
when the callback has returned. -/
structure CompletesOnce (client : AsyncClient) : Prop where
  once : client.invoked.Nodup
  fits : ∀ invocation ∈ client.invocations, ∃ ac ∈ client.issued, invocation.Fits ac
  gone : ∀ ac ∈ client.issued, ac.address ∈ client.invoked →
    .answering ac ∉ client.frames → ac ∉ client.asyncServiceCalls
  kept : ∀ ac ∈ client.issued, ac ∈ client.asyncServiceCalls ∨ ac.address ∈ client.invoked

/-- The invariant. An entry that is held is in the list, and an entry that is in the list was not
called, unless its callback is running. -/
structure Ordered (client : AsyncClient) : Prop where
  distinct : (client.issued.map AsyncServiceCall.address).Nodup
  known : ∀ ac ∈ client.issued, ac.address < client.unused
  listed : client.asyncServiceCalls.Sublist client.issued
  held : ∀ ac ∈ client.held, ac ∈ client.asyncServiceCalls
  apart : client.frames.Pairwise fun above below =>
    ∀ ac, above = .answering ac → below.held? ≠ some ac
  once : client.invoked.Nodup
  fits : ∀ invocation ∈ client.invocations, ∃ ac ∈ client.issued, invocation.Fits ac
  running : ∀ ac ∈ client.asyncServiceCalls, ac.address ∈ client.invoked →
    .answering ac ∈ client.frames
  began : ∀ ac, .answering ac ∈ client.frames → ac.address ∈ client.invoked
  kept : ∀ ac ∈ client.issued, ac ∈ client.asyncServiceCalls ∨ ac.address ∈ client.invoked

variable {client : AsyncClient}

theorem Ordered.init : AsyncClient.init.Ordered where
  distinct := nodup_nil
  known := forall_mem_nil _
  listed := .slnil
  held := forall_mem_nil _
  apart := .nil
  once := nodup_nil
  fits := forall_mem_nil _
  running := forall_mem_nil _
  began := fun _ inside => absurd inside not_mem_nil
  kept := forall_mem_nil _

theorem Ordered.completesOnce (ordered : client.Ordered) : client.CompletesOnce where
  once := ordered.once
  fits := ordered.fits
  gone := fun ac _ called ended inside => ended (ordered.running ac inside called)
  kept := ordered.kept

theorem Ordered.nodup (ordered : client.Ordered) : client.asyncServiceCalls.Nodup :=
  ordered.distinct.of_map.sublist ordered.listed

theorem Ordered.same (ordered : client.Ordered) {other : AsyncServiceCall}
    (inside : ac ∈ client.asyncServiceCalls) (member : other ∈ client.asyncServiceCalls)
    (address : ac.address = other.address) : ac = other :=
  inj_on_of_nodup_map ordered.distinct (ordered.listed.subset inside)
    (ordered.listed.subset member) address

theorem mem_held (inside : frame ∈ client.frames) (holds : frame.held? = some ac)
    : ac ∈ client.held :=
  mem_filterMap.mpr ⟨frame, inside, holds⟩

section

variable (ordered : client.Ordered)
include ordered

theorem Ordered.count (requestId : BitVec 32) : { client with requestId }.Ordered :=
  ⟨ordered.distinct, ordered.known, ordered.listed, ordered.held, ordered.apart, ordered.once,
    ordered.fits, ordered.running, ordered.began, ordered.kept⟩

theorem Ordered.sendSymmetricServiceRequest (renewed sent : Bool) :
    (client.sendSymmetricServiceRequest renewed sent).1.Ordered := by
  cases renewed with
  | false => exact ordered
  | true => exact ordered.count _

theorem Ordered.insert (fresh : ac.address = client.unused) : { client with
      asyncServiceCalls := ac :: client.asyncServiceCalls
      unused := client.unused + 1
      issued := ac :: client.issued }.Ordered := by
  have new : ac.address ∉ client.issued.map AsyncServiceCall.address := by
    intro inside
    obtain ⟨other, issued, address⟩ := mem_map.mp inside
    have below := ordered.known other issued
    omega
  -- What was called was issued before.
  have uncalled : ac.address ∉ client.invoked := by
    intro inside
    obtain ⟨invocation, called, address⟩ := mem_map.mp inside
    obtain ⟨other, issued, fits⟩ := ordered.fits invocation called
    have below := ordered.known other issued
    rw [← fits.address, address] at below
    omega
  constructor
  · exact nodup_cons.mpr ⟨new, ordered.distinct⟩
  · rw [forall_mem_cons]
    refine ⟨?_, fun other issued => Nat.lt_succ_of_lt (ordered.known other issued)⟩
    rw [fresh]
    exact Nat.lt_succ_self _
  · exact ordered.listed.cons_cons ac
  · exact fun other inside => mem_cons_of_mem _ (ordered.held other inside)
  · exact ordered.apart
  · exact ordered.once
  · intro invocation called
    obtain ⟨other, issued, fits⟩ := ordered.fits invocation called
    exact ⟨other, mem_cons_of_mem _ issued, fits⟩
  · rw [forall_mem_cons]
    exact ⟨fun called => absurd called uncalled, ordered.running⟩
  · exact ordered.began
  · change ∀ other ∈ ac :: client.issued,
      other ∈ ac :: client.asyncServiceCalls ∨ other.address ∈ client.invoked
    rw [forall_mem_cons]
    refine ⟨.inl mem_cons_self, fun other issued => ?_⟩
    exact (ordered.kept other issued).imp_left (mem_cons_of_mem _)

theorem Ordered.asyncServiceEx (memory renewed sent : Bool) (binaryEncodingId : Nat)
    (timeout : BitVec 32) (start : Int) :
    (client.asyncServiceEx memory renewed sent binaryEncodingId timeout start).Ordered := by
  rw [AsyncClient.asyncServiceEx]
  cases memory with
  | false => exact ordered
  | true =>
    have counted := ordered.sendSymmetricServiceRequest renewed sent
    simp only [Bool.not_true, Bool.false_eq_true, if_false]
    cases (client.sendSymmetricServiceRequest renewed sent).2 with
    | none => exact counted
    | some requestId => exact counted.insert rfl

theorem Ordered.callback {outcome : CallOutcome} (member : ac ∈ client.asyncServiceCalls)
    (free : ac ∉ client.held) (fits : Invocation.Fits ⟨ac.address, requestId, outcome⟩ ac)
    (remain : calls.Sublist client.asyncServiceCalls)
    (others : ∀ other ∈ client.asyncServiceCalls, other ≠ ac → other ∈ calls)
    (holds : ∀ other, frame.held? = some other → other ∈ calls)
    (answers : ∀ other, frame = .answering other → other = ac)
    (stays : ac ∈ calls → frame = .answering ac) :
    ({ client with asyncServiceCalls := calls }.callback ac requestId outcome frame).Ordered := by
  have uncalled : ac.address ∉ client.invoked := by
    intro called
    exact free (mem_held (ordered.running ac member called) rfl)
  constructor
  · exact ordered.distinct
  · exact ordered.known
  · exact remain.trans ordered.listed
  · intro other inside
    obtain ⟨below, stacked, kept⟩ := mem_filterMap.mp inside
    rcases mem_cons.mp stacked with rfl | stacked
    · exact holds other kept
    · have among := mem_held stacked kept
      apply others other (ordered.held other among)
      rintro rfl
      exact free among
  · refine pairwise_cons.mpr ⟨?_, ordered.apart⟩
    intro below stacked other answering kept
    rw [answers other answering] at kept
    exact free (mem_held stacked kept)
  · exact nodup_cons.mpr ⟨uncalled, ordered.once⟩
  · intro invocation called
    rcases mem_cons.mp called with rfl | called
    · exact ⟨ac, ordered.listed.subset member, fits⟩
    · exact ordered.fits invocation called
  · intro other inside called
    rcases mem_cons.mp called with address | called
    · have same := ordered.same (remain.subset inside) member address
      subst same
      rw [stays inside]
      exact mem_cons_self
    · exact mem_cons_of_mem _ (ordered.running other (remain.subset inside) called)
  · intro other stacked
    rcases mem_cons.mp stacked with answering | stacked
    · rw [answers other answering.symm]
      exact mem_cons_self
    · exact mem_cons_of_mem _ (ordered.began other stacked)
  · intro other issued
    rcases ordered.kept other issued with inside | called
    · by_cases same : other = ac
      · rw [same]
        exact .inr mem_cons_self
      · exact .inl (others other inside same)
    · exact .inr (mem_cons_of_mem _ called)

end

theorem cancelFrom_spec (client : AsyncClient) (loop : CancelLoop) (calls : List AsyncServiceCall) :
    (calls.find? loop.cancels = none ∧ client.cancelFrom loop calls = client)
      ∨ ∃ before ac rest, calls = before ++ ac :: rest ∧ calls.find? loop.cancels = some ac
        ∧ client.cancelFrom loop calls
          = { client with asyncServiceCalls := client.asyncServiceCalls.erase ac }.callback ac
            ac.requestId (.cancelled loop.statusCode) (.cancelling loop rest.head?) := by
  induction calls with
  | nil => exact .inl ⟨rfl, rfl⟩
  | cons ac rest ih =>
    rw [AsyncClient.cancelFrom]
    by_cases cancels : loop.cancels ac = true
    · rw [if_pos cancels]
      exact .inr ⟨[], ac, rest, rfl, find?_cons_of_pos cancels, rfl⟩
    · rw [if_neg cancels, find?_cons_of_neg cancels]
      rcases ih with stays | ⟨before, other, after, split, found, same⟩
      · exact .inl stays
      · refine .inr ⟨ac :: before, other, after, ?_, found, same⟩
        rw [split]
        rfl

section

variable (ordered : client.Ordered)
include ordered

theorem Ordered.cancelFrom (loop : CancelLoop) (part : calls.Sublist client.asyncServiceCalls)
    (free : ∀ ac, calls.find? loop.cancels = some ac → ac ∉ client.held) :
    (client.cancelFrom loop calls).Ordered := by
  rcases cancelFrom_spec client loop calls with ⟨_, same⟩ | ⟨before, ac, rest, split, found, same⟩
  · rw [same]
    exact ordered
  rw [same]
  have nodup := ordered.nodup
  rw [split] at part
  have tail : (ac :: rest).Sublist client.asyncServiceCalls :=
    (sublist_append_right before (ac :: rest)).trans part
  have alone : ac ∉ rest := (nodup_cons.mp (nodup.sublist tail)).1
  apply ordered.callback (tail.subset mem_cons_self) (free ac found)
  · refine ⟨rfl, rfl, fun statusCode cancelled => ?_⟩
    rw [← CallOutcome.cancelled.inj cancelled]
    exact loop.statusCode_cancels
  · exact erase_sublist
  · exact fun other inside apart => (mem_erase_of_ne apart).mpr inside
  · intro other next
    have inside : other ∈ rest := mem_of_mem_head? next
    have apart : other ≠ ac := by
      rintro rfl
      exact alone inside
    exact (mem_erase_of_ne apart).mpr (tail.subset (mem_cons_of_mem _ inside))
  · intro other answering
    cases answering
  · exact fun inside => absurd inside nodup.not_mem_erase

theorem Ordered.processAsyncResponse {responseTypeId : Nat} {decoded : StatusCode}
    (free : ∀ ac, client.asyncServiceCalls.find? (fun ac => ac.requestId = requestId) = some ac →
      ac ∉ client.held) :
    (client.processAsyncResponse requestId responseTypeId decoded).Ordered := by
  rw [AsyncClient.processAsyncResponse]
  cases found : client.asyncServiceCalls.find? (fun ac => ac.requestId = requestId) with
  | none => exact ordered
  | some ac =>
    have member := mem_of_find?_eq_some found
    have own : ac.requestId = requestId := by
      have matched := find?_some found
      exact of_decide_eq_true matched
    apply ordered.callback member (free ac found)
    · refine ⟨rfl, own.symm, fun statusCode cancelled => ?_⟩
      cases cancelled
    · exact List.Sublist.refl _
    · exact fun other inside _ => inside
    · intro other kept
      rw [← Option.some.inj kept]
      exact member
    · exact fun other answering => (CallFrame.answering.inj answering).symm
    · exact fun _ => rfl

theorem Ordered.leave {loop : CancelLoop} {ac_tmp : Option AsyncServiceCall}
    (top : client.frames = .cancelling loop ac_tmp :: frames) :
    { client with frames := frames }.Ordered := by
  have apart := ordered.apart
  have running := ordered.running
  have began := ordered.began
  rw [top] at apart running began
  refine ⟨ordered.distinct, ordered.known, ordered.listed, ?_, (pairwise_cons.mp apart).2,
    ordered.once, ordered.fits, ?_, ?_, ordered.kept⟩
  · intro ac inside
    obtain ⟨frame, stacked, kept⟩ := mem_filterMap.mp inside
    apply ordered.held ac
    apply mem_held _ kept
    rw [top]
    exact mem_cons_of_mem _ stacked
  · intro ac inside called
    exact mem_of_ne_of_mem (fun same => by cases same) (running ac inside called)
  · exact fun ac stacked => began ac (mem_cons_of_mem _ stacked)

theorem Ordered.remove (top : client.frames = .answering ac :: frames) : { client with
      asyncServiceCalls := client.asyncServiceCalls.erase ac, frames := frames }.Ordered := by
  have apart := ordered.apart
  have running := ordered.running
  have began := ordered.began
  rw [top] at apart running began
  obtain ⟨alone, others⟩ := pairwise_cons.mp apart
  refine ⟨ordered.distinct, ordered.known, erase_sublist.trans ordered.listed, ?_, others,
    ordered.once, ordered.fits, ?_, ?_, ?_⟩
  · intro other inside
    obtain ⟨frame, stacked, kept⟩ := mem_filterMap.mp inside
    have member : other ∈ client.asyncServiceCalls := by
      apply ordered.held other
      apply mem_held _ kept
      rw [top]
      exact mem_cons_of_mem _ stacked
    have different : other ≠ ac := by
      rintro rfl
      exact alone frame stacked other rfl kept
    exact (mem_erase_of_ne different).mpr member
  · intro other inside called
    have different : other ≠ ac := by
      rintro rfl
      exact ordered.nodup.not_mem_erase inside
    have stacked := running other (mem_of_mem_erase inside) called
    exact mem_of_ne_of_mem (fun same => different (CallFrame.answering.inj same)) stacked
  · exact fun other stacked => began other (mem_cons_of_mem _ stacked)
  · intro other issued
    rcases ordered.kept other issued with inside | called
    · by_cases same : other = ac
      · rw [same]
        exact .inr (began ac mem_cons_self)
      · exact .inl ((mem_erase_of_ne same).mpr inside)
    · exact .inr called

end

def completes? (client : AsyncClient) : AsyncEvent → Option AsyncServiceCall
  | .send .. | .service .. => none
  | .receive expected message =>
    if message.responseTypeId = none ∨ expected = some message.requestId then none
    else client.asyncServiceCalls.find? fun ac => ac.requestId = message.requestId
  | .removeAll => client.asyncServiceCalls.find? CancelLoop.removeAll.cancels
  | .asyncServiceTimeoutCheck now =>
    client.asyncServiceCalls.find? (CancelLoop.asyncServiceTimeoutCheck now).cancels
  | .returned =>
    match client.frames with
    | .cancelling loop (some ac) :: _ =>
      (client.asyncServiceCalls.drop (client.asyncServiceCalls.idxOf ac)).find? loop.cancels
    | _ => none

def below (client : AsyncClient) : AsyncEvent → List CallFrame
  | .returned => client.frames.tail
  | _ => client.frames

def Regular (client : AsyncClient) (event : AsyncEvent) : Prop :=
  ∀ ac ∈ client.completes? event, ac ∉ (client.below event).filterMap CallFrame.held?

instance (client : AsyncClient) : DecidablePred client.Regular := fun event =>
  inferInstanceAs (Decidable
    (∀ ac ∈ client.completes? event, ac ∉ (client.below event).filterMap CallFrame.held?))

theorem Ordered.returned (ordered : client.Ordered) (regular : client.Regular .returned) :
    ∃ after, client.returned = some after ∧ after.Ordered := by
  rw [AsyncClient.returned]
  cases top : client.frames with
  | nil => exact ⟨client, rfl, ordered⟩
  | cons frame frames =>
    cases frame with
    | answering ac =>
      have member : ac ∈ client.asyncServiceCalls := by
        apply ordered.held ac
        apply mem_held _ (rfl : (CallFrame.answering ac).held? = some ac)
        rw [top]
        exact mem_cons_self
      exact ⟨_, if_neg (not_not_intro member), ordered.remove top⟩
    | cancelling loop ac_tmp =>
      cases ac_tmp with
      | none => exact ⟨_, rfl, ordered.leave top⟩
      | some ac =>
        have member : ac ∈ client.asyncServiceCalls := by
          apply ordered.held ac
          apply mem_held _ (rfl : (CallFrame.cancelling loop (some ac)).held? = some ac)
          rw [top]
          exact mem_cons_self
        refine ⟨_, if_neg (not_not_intro member), ?_⟩
        apply (ordered.leave top).cancelFrom loop (drop_sublist _ _)
        intro other found
        have free := regular other
        rw [completes?, below, top] at free
        exact free found

theorem Ordered.step (ordered : client.Ordered) {event : AsyncEvent}
    (regular : client.Regular event) :
    ∃ after, client.step event = some after ∧ after.Ordered := by
  cases event with
  | send memory renewed sent binaryEncodingId timeout start =>
    exact ⟨_, rfl, ordered.asyncServiceEx memory renewed sent binaryEncodingId timeout start⟩
  | service renewed sent => exact ⟨_, rfl, ordered.sendSymmetricServiceRequest renewed sent⟩
  | removeAll => exact ⟨_, rfl, ordered.cancelFrom .removeAll (List.Sublist.refl _) regular⟩
  | asyncServiceTimeoutCheck now =>
    exact ⟨_, rfl, ordered.cancelFrom _ (List.Sublist.refl _) regular⟩
  | returned => exact ordered.returned regular
  | receive expected message =>
    refine ⟨_, rfl, ?_⟩
    rw [AsyncClient.processServiceResponse]
    cases type : message.responseTypeId with
    | none => exact ordered
    | some responseTypeId =>
      by_cases own : expected = some message.requestId
      · simp only [own, ne_eq, not_true_eq_false, if_false]
        exact ordered
      · simp only [ne_eq, own, not_false_eq_true, if_true]
        apply ordered.processAsyncResponse
        intro ac found
        apply regular ac
        rw [completes?, type, if_neg]
        · exact found
        · rintro (missing | sync)
          · cases missing
          · exact own sync

theorem ordered_of_reached (reached : Reached AsyncClient.step Regular .init client) :
    client.Ordered := by
  apply reached.invariant .init
  intro _ _ _ ordered regular steps
  obtain ⟨next, defined, holds⟩ := ordered.step regular
  rw [steps] at defined
  exact Option.some.inj defined ▸ holds

/-- Over every run in which no step completes an entry that is held, each call is completed at most
once, with the response to its request or a cancellation, and is out of the list then. No step uses
an entry that was freed. -/
theorem asyncCalls_completeOnce (reached : Reached AsyncClient.step Regular .init client) :
    client.CompletesOnce ∧ ∀ event, client.Regular event → (client.step event).isSome := by
  have ordered := ordered_of_reached reached
  refine ⟨ordered.completesOnce, fun event regular => ?_⟩
  obtain ⟨after, defined, _⟩ := ordered.step regular
  rw [defined]
  rfl

theorem nestedCalls_completeOnce : ∃ client, Reached AsyncClient.step Regular .init client
    ∧ client.CompletesOnce ∧ client.invoked = [2, 0, 1] ∧ client.asyncServiceCalls = []
    ∧ (client.step .returned).isSome := by
  let events : List AsyncEvent := [.send true true true 600 5000 0, .send true true true 600 5000 0,
    .receive none ⟨2, some 600, good⟩, .send true true true 600 5000 0, .service true true,
    .receive (some 4) ⟨1, some serviceFaultId, good⟩, .returned,
    .receive (some 4) ⟨4, some 600, good⟩, .returned, .receive none ⟨2, some 600, good⟩, .removeAll]
  have runs : (run AsyncClient.step Regular .init events).isSome := by decide
  have reached := (Reached.start : Reached AsyncClient.step Regular .init .init).run
    (Option.some_get runs).symm
  have result := asyncCalls_completeOnce reached
  refine ⟨_, reached, result.1, rfl, rfl, result.2 .returned fun ac found => ?_⟩
  exact absurd (found : none = some ac).symm (Option.some_ne_none ac)

/-- The callback of a response disconnects the client and connects it again, which cancels the call
whose callback is running. When the callbacks have returned, the entry would be removed once more. -/
theorem reconnectInCallback_completesTwice :
    (∃ client, Reached AsyncClient.step (fun _ _ => True) .init client ∧ client.invoked = [0, 0]
      ∧ ¬ client.CompletesOnce)
      ∧ ∃ client, Reached AsyncClient.step (fun _ _ => True) .init client
        ∧ client.step .returned = none := by
  let events : List AsyncEvent :=
    [.send true true true 600 5000 0, .receive none ⟨1, some 600, good⟩, .removeAll]
  constructor
  · have runs : (run AsyncClient.step (fun _ _ => True) .init events).isSome := by decide
    have reached := (Reached.start : Reached AsyncClient.step (fun _ _ => True) .init .init).run
      (Option.some_get runs).symm
    refine ⟨_, reached, rfl, fun completes => ?_⟩
    have once : ([0, 0] : List Nat).Nodup := completes.once
    exact absurd once (by decide)
  · have runs : (run AsyncClient.step (fun _ _ => True) .init
        (events ++ [.returned])).isSome := by decide
    have reached := (Reached.start : Reached AsyncClient.step (fun _ _ => True) .init .init).run
      (Option.some_get runs).symm
    exact ⟨_, reached, rfl⟩

end AsyncClient

end OpcUa
