import OpcUa.Browse
import OpcUa.NodeManagementCore

/-!
The continuation points of one session. Each point has a number, that of the call which drew its
identifier, and the numbers of a session are different. A point that is gone leaves its number
behind.
-/

namespace OpcUa

open StatusCode List

variable {cp : ContinuationPoint} {points : List ContinuationPoint}

def maxContinuationPoints : Nat := 5

def BrowseSession.init : BrowseSession := ⟨.ofNat 16 maxContinuationPoints, []⟩

def drawnIdentifier (world : Nat → NodeOutcome) (call : Nat) : UaString :=
  .alloc (world call).random.memory

structure BrowseSession.Accounted (world : Nat → NodeOutcome) (gone : Set Nat) (calls : Nat)
    (session : BrowseSession) : Prop where
  balance : session.availableContinuationPoints.toNat + session.continuationPoints.length =
    maxContinuationPoints
  past : ∀ number ∈ gone, number < calls
  numbers : ∃ numbers : List Nat, numbers.Nodup ∧
    (∀ number ∈ numbers, number < calls ∧ number ∉ gone) ∧
    session.continuationPoints.map (·.identifier) = numbers.map (drawnIdentifier world)

theorem browseWithContinuation_identifier (server : BrowseServer) (memory : BrowseMemory)
    (cp : ContinuationPoint) :
    (browseWithContinuation server memory cp).2.1.identifier = cp.identifier := by
  have references (node : Node) :
      (browseReferences server memory node cp).2.1.identifier = cp.identifier := by
    rw [browseReferences]
    split
    · rfl
    split
    · rfl
    split <;> rfl
  rw [browseWithContinuation]
  split
  · rfl
  split
  · rfl
  split
  · rfl
  · exact references _

theorem replaceCp_identifiers {changed : ContinuationPoint} {identifier : UaString}
    (same : changed.identifier = cp.identifier)
    (found : points.find? (fun cp => stringEqual cp.identifier identifier) = some cp) :
    (replaceCp changed identifier points).map (·.identifier) = points.map (·.identifier) := by
  induction points with
  | nil => rfl
  | cons first rest ih =>
    rw [find?_cons] at found
    rw [replaceCp]
    cases matched : stringEqual first.identifier identifier with
    | true =>
      rw [matched] at found
      obtain rfl := Option.some.inj found
      rw [if_pos rfl, map_cons, map_cons, same]
    | false =>
      rw [matched] at found
      rw [if_neg Bool.false_ne_true, map_cons, map_cons, ih found]

theorem eraseP_numbers {world : Nat → NodeOutcome} {matching : ContinuationPoint → Bool}
    {numbers : List Nat} (drawn : points.map (·.identifier) = numbers.map (drawnIdentifier world))
    (found : points.find? matching = some cp) :
    ∃ number rest, numbers.Perm (number :: rest) ∧ drawnIdentifier world number = cp.identifier ∧
      (points.eraseP matching).map (·.identifier) = rest.map (drawnIdentifier world) := by
  induction points generalizing numbers with
  | nil => cases found
  | cons first points ih =>
    cases numbers with
    | nil => cases drawn
    | cons number numbers =>
      obtain ⟨head, tail⟩ := List.cons.inj drawn
      rw [find?_cons] at found
      cases matched : matching first with
      | true =>
        rw [matched] at found
        obtain rfl := Option.some.inj found
        refine ⟨number, numbers, .refl _, head.symm, ?_⟩
        rw [eraseP_cons_of_pos matched]
        exact tail
      | false =>
        rw [matched] at found
        obtain ⟨erased, rest, permuted, named, left⟩ := ih tail found
        refine ⟨erased, number :: rest, ?_, named, ?_⟩
        · exact (permuted.cons number).trans (.swap erased number rest)
        · rw [eraseP_cons_of_neg (ne_true_of_eq_false matched), map_cons, map_cons, left]
          exact congrArg (· :: _) head

section Steps

variable {world : Nat → NodeOutcome} {gone : Set Nat} {calls : Nat} {session : BrowseSession}
variable {identifier : UaString}

theorem BrowseSession.init_accounted (world : Nat → NodeOutcome) (gone : Set Nat) (calls : Nat)
    (past : ∀ number ∈ gone, number < calls) :
    BrowseSession.init.Accounted world gone calls :=
  ⟨rfl, past, [], .nil, nofun, rfl⟩

theorem BrowseSession.Accounted.later (accounted : session.Accounted world gone calls) {more : Nat}
    (later : calls ≤ more) : session.Accounted world gone more := by
  obtain ⟨numbers, different, bounded, drawn⟩ := accounted.numbers
  refine ⟨accounted.balance, ?_, numbers, different, ?_, drawn⟩
  · intro number member
    exact Nat.lt_of_lt_of_le (accounted.past number member) later
  · intro number member
    obtain ⟨earlier, stays⟩ := bounded number member
    exact ⟨Nat.lt_of_lt_of_le earlier later, stays⟩

theorem BrowseSession.Accounted.browse (accounted : session.Accounted world gone calls)
    (server : BrowseServer) (memory : BrowseMemory) (maxrefs : BitVec 32)
    (descr : BrowseDescription) :
    (operationBrowse server memory (world calls).random session maxrefs descr).2.Accounted world
      gone (calls + 1) := by
  have unchanged := accounted.later (Nat.le_succ calls)
  rw [operationBrowse]
  generalize browseWithContinuation server memory (firstPoint maxrefs descr) = outcome
  obtain ⟨done, cp, result⟩ := outcome
  dsimp only
  split
  · exact unchanged
  split
  · exact unchanged
  rename_i available
  split
  · exact unchanged
  split
  · exact unchanged
  split
  · exact unchanged
  obtain ⟨numbers, different, bounded, drawn⟩ := accounted.numbers
  refine ⟨?_, unchanged.past, calls :: numbers, ?_, ?_, ?_⟩
  · have balance := accounted.balance
    have positive : session.availableContinuationPoints ≠ 0 := fun none => available (.inl none)
    rw [length_cons]
    bv_omega
  · rw [nodup_cons]
    exact ⟨fun member => Nat.lt_irrefl calls (bounded calls member).1, different⟩
  · intro number member
    rcases mem_cons.mp member with rfl | earlier
    · exact ⟨Nat.lt_succ_self _, fun left => Nat.lt_irrefl _ (accounted.past _ left)⟩
    · obtain ⟨before, stays⟩ := bounded number earlier
      exact ⟨Nat.lt_succ_of_lt before, stays⟩
  · rw [map_cons, map_cons, drawn]
    rfl

theorem operationBrowseNext_cases (server : BrowseServer) (memory : BrowseMemory)
    (session : BrowseSession) (releases : Bool) (identifier : UaString) :
    pointAt identifier session = none ∧
        operationBrowseNext server memory session releases identifier =
          ({ BrowseResult.init with statusCode := badContinuationPointInvalid }, session) ∨
      ∃ cp, pointAt identifier session = some cp ∧
        ((operationBrowseNext server memory session releases identifier).2 =
            removeCp identifier session ∨
          ∃ changed, changed.identifier = cp.identifier ∧
            (operationBrowseNext server memory session releases identifier).2 =
              ⟨session.availableContinuationPoints,
                replaceCp changed identifier session.continuationPoints⟩) := by
  rw [operationBrowseNext, ← pointAt]
  cases found : pointAt identifier session with
  | none => exact .inl ⟨rfl, rfl⟩
  | some cp =>
    refine .inr ⟨cp, rfl, ?_⟩
    dsimp only
    split
    · exact .inl rfl
    split
    · exact .inl rfl
    · right
      refine ⟨_, browseWithContinuation_identifier server memory cp, ?_⟩
      split <;> rfl

theorem BrowseSession.Accounted.removeCp (accounted : session.Accounted world gone calls)
    {cp : ContinuationPoint} (found : pointAt identifier session = some cp) :
    ∃ number, stringEqual (drawnIdentifier world number) identifier = true ∧
      (OpcUa.removeCp identifier session).Accounted world (insert number gone) calls := by
  obtain ⟨numbers, different, bounded, drawn⟩ := accounted.numbers
  obtain ⟨number, rest, permuted, named, left⟩ := eraseP_numbers drawn found
  have within (other : Nat) (member : other ∈ number :: rest) : other < calls ∧ other ∉ gone :=
    bounded other (permuted.mem_iff.mpr member)
  obtain ⟨removed, kept⟩ := nodup_cons.mp (permuted.nodup different)
  refine ⟨number, ?_, ?_, ?_, rest, kept, ?_, left⟩
  · rw [named]
    exact pointAt_named found
  · have balance := accounted.balance
    have shorter : (session.continuationPoints.eraseP fun cp =>
        stringEqual cp.identifier identifier).length = session.continuationPoints.length - 1 :=
      length_eraseP_of_mem (mem_of_find?_eq_some found) (pointAt_named found)
    have some := length_pos_of_mem (mem_of_find?_eq_some found)
    rw [OpcUa.removeCp, shorter]
    rw [maxContinuationPoints] at balance ⊢
    bv_omega
  · rintro other (rfl | earlier)
    · exact (within other mem_cons_self).1
    · exact accounted.past other earlier
  · intro other member
    obtain ⟨before, stays⟩ := within other (mem_cons_of_mem number member)
    refine ⟨before, ?_⟩
    rintro (rfl | left)
    · exact removed member
    · exact stays left

theorem BrowseSession.Accounted.mono {more : Set Nat}
    (accounted : session.Accounted world more calls) (covers : gone ⊆ more) :
    session.Accounted world gone calls := by
  obtain ⟨numbers, different, bounded, drawn⟩ := accounted.numbers
  refine ⟨accounted.balance, fun number member => accounted.past number (covers member), numbers,
    different, ?_, drawn⟩
  intro number member
  obtain ⟨before, stays⟩ := bounded number member
  exact ⟨before, fun left => stays (covers left)⟩

section

variable (accounted : session.Accounted world gone calls)
include accounted

theorem BrowseSession.Accounted.browseNext (server : BrowseServer) (memory : BrowseMemory)
    (releases : Bool) (identifier : UaString) :
    (operationBrowseNext server memory session releases identifier).2.Accounted world gone
      calls := by
  rcases operationBrowseNext_cases server memory session releases identifier with
    ⟨-, refused⟩ | ⟨cp, found, removed | ⟨changed, same, replaced⟩⟩
  · rw [refused]
    exact accounted
  · rw [removed]
    obtain ⟨number, -, left⟩ := accounted.removeCp found
    exact left.mono (Set.subset_insert number gone)
  · rw [replaced]
    have identifiers := replaceCp_identifiers same found
    obtain ⟨numbers, different, bounded, drawn⟩ := accounted.numbers
    refine ⟨?_, accounted.past, numbers, different, bounded, identifiers.trans drawn⟩
    have length := congrArg List.length identifiers
    rw [length_map, length_map] at length
    rw [length]
    exact accounted.balance

theorem BrowseSession.Accounted.finishes {server : BrowseServer} {memory : BrowseMemory}
    {releases : Bool}
    (fewer : (operationBrowseNext server memory session releases
      identifier).2.continuationPoints.length < session.continuationPoints.length) :
    ∃ number, stringEqual (drawnIdentifier world number) identifier = true ∧
      (operationBrowseNext server memory session releases identifier).2.Accounted world
        (insert number gone) calls := by
  rcases operationBrowseNext_cases server memory session releases identifier with
    ⟨-, refused⟩ | ⟨cp, found, removed | ⟨changed, same, replaced⟩⟩
  · rw [refused] at fewer
    exact absurd fewer (Nat.lt_irrefl _)
  · rw [removed]
    exact accounted.removeCp found
  · rw [replaced] at fewer
    have length := congrArg List.length (replaceCp_identifiers same found)
    rw [length_map, length_map] at length
    exact absurd fewer (by simp [length])

theorem BrowseSession.Accounted.refuses {number : Nat} (left : number ∈ gone)
    (named : stringEqual (drawnIdentifier world number) identifier = true)
    (different : ∀ first second, first < second → second < calls →
      stringEqual (drawnIdentifier world first) identifier = true →
      stringEqual (drawnIdentifier world second) identifier = false)
    (server : BrowseServer) (memory : BrowseMemory) (releases : Bool) :
    operationBrowseNext server memory session releases identifier =
      ({ BrowseResult.init with statusCode := badContinuationPointInvalid }, session) := by
  rcases operationBrowseNext_cases server memory session releases identifier with
    ⟨-, refused⟩ | ⟨cp, found, -⟩
  · exact refused
  obtain ⟨numbers, -, bounded, drawn⟩ := accounted.numbers
  obtain ⟨other, rest, permuted, same, -⟩ := eraseP_numbers drawn found
  obtain ⟨before, stays⟩ := bounded other (permuted.mem_iff.mpr mem_cons_self)
  have accepted : stringEqual (drawnIdentifier world other) identifier = true := by
    rw [same]
    exact pointAt_named found
  rcases Nat.lt_trichotomy number other with earlier | rfl | later
  · rw [different number other earlier before named] at accepted
    cases accepted
  · exact absurd left stays
  · rw [different other number later (accounted.past number left) accepted] at named
    cases named

end

end Steps

end OpcUa
