import OpcUa.NodeMapCore
import OpcUa.Library.LucasCertificates
import Mathlib.Tactic.NormNum.Prime

/-!
The nodestore as a map from node ids to nodes. In every run a lookup finds what was last stored
under the node id and not removed since. Below 2^28 nodes every operation returns, and a node
with a new id is always inserted if there is memory.
-/

namespace OpcUa

open DoubleHashing LucasCertificates List

variable {size : Nat}
variable {number : Nat}

/-! Sizes of the table -/

def smallPrimes : List Nat :=
  [2, 3, 5, 7, 11, 13, 17, 19, 23, 29, 31, 41, 47, 53, 61, 73, 79, 89, 97, 101, 103, 127,
    151, 181, 233, 239, 251]

def primeEntries : List Entry :=
  [⟨4294967291, 2, [2, 5, 19, 22605091]⟩, ⟨2147483647, 7, [2, 3, 3, 7, 11, 31, 151, 331]⟩,
    ⟨1073741789, 2, [2, 2, 7, 2341, 16381]⟩,
    ⟨536870909, 2, [2, 2, 7, 73, 262657]⟩,
    ⟨268435399, 3, [2, 3, 7, 11, 581029]⟩,
    ⟨134217689, 3, [2, 2, 2, 11, 101, 15101]⟩,
    ⟨67108859, 2, [2, 479, 70051]⟩,
    ⟨33554393, 3, [2, 2, 2, 29, 61, 2371]⟩,
    ⟨22605091, 11, [2, 3, 5, 23, 181, 181]⟩,
    ⟨16777213, 5, [2, 2, 3, 23, 89, 683]⟩,
    ⟨8388593, 3, [2, 2, 2, 2, 524287]⟩,
    ⟨4194301, 7, [2, 2, 3, 5, 5, 11, 31, 41]⟩,
    ⟨2097143, 5, [2, 1048571]⟩,
    ⟨1048573, 2, [2, 2, 3, 3, 3, 7, 19, 73]⟩,
    ⟨1048571, 2, [2, 5, 23, 47, 97]⟩,
    ⟨581029, 6, [2, 2, 3, 7, 6917]⟩,
    ⟨524287, 3, [2, 3, 3, 3, 7, 19, 73]⟩,
    ⟨262657, 5, [2, 2, 2, 2, 2, 2, 2, 2, 2, 3, 3, 3, 19]⟩,
    ⟨262139, 2, [2, 53, 2473]⟩,
    ⟨131071, 3, [2, 3, 5, 17, 257]⟩,
    ⟨70051, 7, [2, 3, 5, 5, 467]⟩,
    ⟨65521, 17, [2, 2, 2, 2, 3, 3, 5, 7, 13]⟩,
    ⟨32749, 2, [2, 2, 3, 2729]⟩,
    ⟨16381, 2, [2, 2, 3, 3, 5, 7, 13]⟩,
    ⟨15101, 2, [2, 2, 5, 5, 151]⟩,
    ⟨8191, 17, [2, 3, 3, 5, 7, 13]⟩,
    ⟨6917, 2, [2, 2, 7, 13, 19]⟩,
    ⟨4093, 2, [2, 2, 3, 11, 31]⟩,
    ⟨2729, 3, [2, 2, 2, 11, 31]⟩,
    ⟨2473, 5, [2, 2, 2, 3, 103]⟩,
    ⟨2371, 2, [2, 3, 5, 79]⟩,
    ⟨2341, 7, [2, 2, 3, 3, 5, 13]⟩,
    ⟨2039, 7, [2, 1019]⟩,
    ⟨1021, 10, [2, 2, 3, 5, 17]⟩,
    ⟨1019, 2, [2, 509]⟩,
    ⟨683, 5, [2, 11, 31]⟩,
    ⟨509, 2, [2, 2, 127]⟩,
    ⟨479, 13, [2, 239]⟩,
    ⟨467, 2, [2, 233]⟩,
    ⟨331, 3, [2, 3, 5, 11]⟩,
    ⟨257, 3, [2, 2, 2, 2, 2, 2, 2, 2]⟩]

theorem smallPrimes_prime : ∀ number ∈ smallPrimes, number.Prime := by
  simp only [smallPrimes, forall_mem_cons]
  norm_num

theorem primeEntries_certified : certified 32 smallPrimes primeEntries = true := by
  decide +kernel

theorem primes_certified :
    primes.all (fun size => size ∈ smallPrimes ++ primeEntries.map Entry.number) = true := by
  decide +kernel

theorem primes_prime (member : size ∈ primes) : size.Prime := by
  have known := of_decide_eq_true (all_eq_true.mp primes_certified size member)
  rcases mem_append.mp known with small | large
  · exact smallPrimes_prime size small
  · exact certified_prime smallPrimes_prime primeEntries_certified size large

theorem primes_bounds (member : size ∈ primes) : 7 ≤ size ∧ size < 2 ^ 32 := by
  have bounds : primes.all (fun size => 7 ≤ size && size < 2 ^ 32) = true := by decide
  simpa using all_eq_true.mp bounds size member

theorem primes_mono {first second : Nat} (order : first ≤ second) (inside : second < 30) :
    primes.getD first 0 ≤ primes.getD second 0 := by
  have sorted : ∀ second < 30, ∀ first ≤ second, primes.getD first 0 ≤ primes.getD second 0 := by
    decide
  exact sorted second inside first order

structure Separates (number index : Nat) : Prop where
  inside : index ≤ 30
  below : ∀ earlier < index, primes.getD earlier 0 < number
  above : ∀ later, index ≤ later → later < 30 → number ≤ primes.getD later 0

theorem higherPrimeIndexFrom_spec (number fuel low high : Nat) (enough : high - low ≤ fuel)
    (order : low ≤ high) (inside : high ≤ 30)
    (below : ∀ earlier < low, primes.getD earlier 0 < number)
    (above : ∀ later, high ≤ later → later < 30 → number ≤ primes.getD later 0) :
    Separates number (higherPrimeIndexFrom number fuel low high) := by
  induction fuel generalizing low high with
  | zero =>
    have same : low = high := by omega
    subst same
    exact ⟨inside, below, above⟩
  | succ fuel ih =>
    rw [higherPrimeIndexFrom]
    by_cases same : low = high
    · rw [if_pos same]
      subst same
      exact ⟨inside, below, above⟩
    · rw [if_neg same]
      dsimp only
      split
      · rename_i greater
        apply ih (low + (high - low) / 2 + 1) high (by omega) (by omega) inside _ above
        intro earlier before
        have order := primes_mono (show earlier ≤ low + (high - low) / 2 by omega) (by omega)
        omega
      · rename_i notGreater
        apply ih low (low + (high - low) / 2) (by omega) (by omega) (by omega) below
        intro later after last
        have order := primes_mono after last
        omega

theorem higherPrimeIndex_spec (number : Nat) : Separates number (higherPrimeIndex number) := by
  apply higherPrimeIndexFrom_spec number _ _ _ le_rfl (Nat.zero_le _) le_rfl
  · intro earlier before
    omega
  · intro later after last
    have size : primes.length = 30 := rfl
    omega

theorem higherPrime_some (found : primes[higherPrimeIndex number]? = some size) :
    size ∈ primes ∧ number ≤ size := by
  obtain ⟨inside, same⟩ := List.getElem?_eq_some_iff.mp found
  have above := (higherPrimeIndex_spec number).above _ le_rfl inside
  rw [List.getD_eq_getElem?_getD, found] at above
  exact ⟨mem_of_getElem? found, above⟩

theorem higherPrime_none (missing : primes[higherPrimeIndex number]? = none) :
    4294967291 < number := by
  have outside : 30 ≤ higherPrimeIndex number := getElem?_eq_none_iff.mp missing
  exact (higherPrimeIndex_spec number).below 29 (by omega)

inductive NodeMapEvent (Node : Type) where
  | stored (node : NodeMapEntry Node)
  | removed (nodeId : NodeId)
deriving DecidableEq

def lookup {Node : Type} : List (NodeMapEvent Node) → NodeId → Option (NodeMapEntry Node)
  | [], _ => none
  | .stored node :: history, nodeId =>
    if nodeIdEqual node.nodeId nodeId then some node else lookup history nodeId
  | .removed other :: history, nodeId =>
    if nodeIdEqual other nodeId then none else lookup history nodeId

inductive NodeMapOperation (Node : Type) where
  | insertNode (node : NodeMapEntry Node) (wantsId : Bool)
  | replaceNode (node : NodeMapEntry Node)
  | removeNode (nodeId : NodeId)

namespace NodeMap

variable {Node : Type}

def perform (memory : NodeMapMemory) (ns : NodeMap Node) :
    NodeMapOperation Node → Except NodeMapFault (NodeMap Node × List (NodeMapEvent Node))
  | .insertNode node wantsId =>
    match ns.insertNode memory node wantsId with
    | .error fault => .error fault
    | .ok (status, node, ns) => .ok (ns, if status = .good then [.stored node] else [])
  | .replaceNode node =>
    match ns.replaceNode node with
    | .error fault => .error fault
    | .ok (status, ns) => .ok (ns, if status = .good then [.stored node] else [])
  | .removeNode nodeId =>
    match ns.removeNode memory nodeId with
    | .error fault => .error fault
    | .ok (status, ns) => .ok (ns, if status = .good then [.removed nodeId] else [])

inductive Run : NodeMap Node → List (NodeMapEvent Node) → Prop
  | new : Run .new []
  | step {ns next : NodeMap Node} {history events : List (NodeMapEvent Node)}
      {memory : NodeMapMemory} {operation : NodeMapOperation Node} : Run ns history →
      ns.perform memory operation = .ok (next, events) → Run next (events ++ history)

structure Represents (ns : NodeMap Node) (history : List (NodeMapEvent Node)) : Prop where
  valid : Valid nodeIdHashing NodeMapEntry.nodeId ns.entries
  size : ns.size ∈ primes
  count : ns.count = occupied ns.entries
  agrees : ∀ nodeId node, Holds nodeIdHashing NodeMapEntry.nodeId ns.entries nodeId node ↔
    lookup history nodeId = some node

theorem Represents.new : Represents (NodeMap.new : NodeMap Node) [] := by
  have size : (NodeMap.new : NodeMap Node).size = 127 := length_replicate
  have member : 127 ∈ primes := by decide
  refine ⟨valid_replicate (primes_prime member) (by decide), size ▸ member,
    (occupied_replicate _).symm, ?_⟩
  intro nodeId node
  constructor
  · rintro ⟨index, here, -⟩
    rw [NodeMap.new, slotAt_replicate] at here
    cases here
  · intro found
    cases found

def Outcome {Result : Type} (count : Nat) (result : Result → Prop) :
    Except NodeMapFault Result → Prop
  | .ok value => result value
  | .error fault => fault ≠ .diverges ∧ 2 ^ 28 ≤ count

section Represents

variable {ns : NodeMap Node} {history : List (NodeMapEvent Node)}
variable {node : NodeMapEntry Node} {slot increase : Nat}
variable {nodeId : NodeId} {renamed : NodeMapEntry Node} {identifier startId : Nat}
  {memory : NodeMapMemory}

section

variable (represents : Represents ns history)
include represents

theorem Represents.lookup_none (nodeId : NodeId) : lookup history nodeId = none ↔
      ∀ node, ¬Holds nodeIdHashing NodeMapEntry.nodeId ns.entries nodeId node := by
  rw [Option.eq_none_iff_forall_ne_some]
  exact forall_congr' fun node => not_congr (represents.agrees nodeId node).symm

theorem Represents.bounds : 7 ≤ ns.size ∧ ns.size < 2 ^ 32 :=
  primes_bounds represents.size

theorem Represents.prime : ns.size.Prime :=
  represents.valid.prime

theorem Represents.count_le : ns.count ≤ ns.size := by
  rw [represents.count]
  exact countP_le_length

theorem findOccupiedSlot_spec (nodeId : NodeId) :
    (ns.findOccupiedSlot nodeId = .ok none ∧ lookup history nodeId = none) ∨
      ∃ slot node, ns.findOccupiedSlot nodeId = .ok (some slot) ∧
        slotAt ns.entries slot = .entry node ∧ nodeIdEqual node.nodeId nodeId = true ∧
        lookup history nodeId = some node := by
  obtain ⟨result, search, outcome⟩ := findOccupied_spec represents.valid nodeId
  have returned : ns.findOccupiedSlot nodeId = .ok result := by rw [findOccupiedSlot, search]
  cases result with
  | none => exact .inl ⟨returned, (represents.lookup_none nodeId).mpr outcome⟩
  | some slot =>
    obtain ⟨node, here, same⟩ := outcome
    exact .inr ⟨slot, node, returned, here, same,
      (represents.agrees nodeId node).mp ⟨slot, here, same⟩⟩

theorem getNode_spec (nodeId : NodeId) : ns.getNode nodeId = .ok (lookup history nodeId) := by
  rcases findOccupiedSlot_spec represents nodeId with
    ⟨search, missing⟩ | ⟨slot, node, search, here, -, found⟩
  · rw [getNode, search, missing]
  · rw [getNode, search, found]
    dsimp only
    rw [here]

theorem findFreeSlot_spec (nodeId : NodeId) : ∃ result, ns.findFreeSlot nodeId = .ok result ∧
      match result with
      | some slot => Place nodeIdHashing ns.entries nodeId slot ∧ lookup history nodeId = none
      | none => lookup history nodeId ≠ none ∨ ns.count = ns.size := by
  obtain ⟨result, search, outcome⟩ := findFree_spec represents.valid nodeId
  refine ⟨result, by rw [findFreeSlot, search], ?_⟩
  cases result with
  | some slot => exact ⟨outcome.1, (represents.lookup_none nodeId).mpr outcome.2⟩
  | none =>
    rcases outcome with ⟨node, holds⟩ | full
    · left
      rw [(represents.agrees nodeId node).mp holds]
      exact Option.some_ne_none node
    · exact .inr (represents.count.trans full)

end

structure Resized (memory : NodeMapMemory) (ns : NodeMap Node)
    (history : List (NodeMapEvent Node)) (status : StatusCode) (next : NodeMap Node) : Prop where
  represents : Represents next history
  count : next.count = ns.count
  room : status = .good → ns.count < 2 ^ 28 → next.count < next.size
  failed : status ≠ .good → memory.entries = false

section

variable (represents : Represents ns history)
include represents

theorem Represents.moved (member : size ∈ primes) {entries : List (Slot (NodeMapEntry Node))}
    (moved : Moved nodeIdHashing NodeMapEntry.nodeId ns.entries (List.replicate size .null) entries)
      :
    Represents ⟨entries, ns.count⟩ history := by
  refine ⟨moved.valid, ?_, ?_, ?_⟩
  · rw [NodeMap.size, moved.length, length_replicate]
    exact member
  · rw [moved.count, occupied_replicate, Nat.zero_add]
    exact represents.count
  · intro nodeId node
    rw [moved.holds, ← represents.agrees, lists_iff_holds]
    constructor
    · rintro (held | ⟨index, here, -⟩)
      · exact held
      · rw [slotAt_replicate] at here
        cases here
    · exact .inl

theorem move_outcome (member : size ∈ primes) :
    (moveEntries nodeIdHashing NodeMapEntry.nodeId ns.entries ns.count
        (List.replicate size .null) = some none ∧ size ≤ ns.count) ∨
      ∃ entries, moveEntries nodeIdHashing NodeMapEntry.nodeId ns.entries ns.count
          (List.replicate size .null) = some (some entries) ∧
        Represents ⟨entries, ns.count⟩ history ∧ entries.length = size := by
  have bounds := primes_bounds member
  obtain ⟨outcome, moves, result⟩ := moveEntries_spec ns.entries (List.replicate size .null)
    (valid_replicate (primes_prime member) (by omega)) represents.valid.distinct
    (by
      rintro value other - ⟨index, here, -⟩
      rw [slotAt_replicate] at here
      cases here)
  rw [← represents.count] at moves
  cases outcome with
  | none =>
    rw [length_replicate, occupied_replicate, Nat.zero_add, ← represents.count] at result
    exact .inl ⟨moves, result⟩
  | some entries =>
    exact .inr ⟨entries, moves, represents.moved member result,
      result.length.trans length_replicate⟩

theorem expand_outcome (memory : NodeMapMemory) :
    Outcome ns.count (fun result => Resized memory ns history result.1 result.2)
      (ns.expand memory) := by
  rw [expand]
  have whole := represents.count_le
  split
  · rename_i enough
    refine ⟨represents, rfl, fun _ small => ?_, fun bad => absurd rfl bad⟩
    dsimp only
    omega
  · split
    · rename_i missing
      have large := higherPrime_none missing
      exact ⟨by decide, by omega⟩
    · rename_i size found
      obtain ⟨member, fits⟩ := higherPrime_some found
      have bounds := primes_bounds member
      by_cases fails : (!memory.entries) = true
      · rw [if_pos fails]
        refine ⟨represents, rfl, fun good => ?_, fun _ => by simpa using fails⟩
        cases good
      · rw [if_neg fails]
        rcases move_outcome represents member with ⟨moves, full⟩ | ⟨entries, moves, kept, length⟩
        · rw [moves]
          exact ⟨by decide, by omega⟩
        · rw [moves]
          refine ⟨kept, rfl, fun _ small => ?_, fun bad => absurd rfl bad⟩
          have size : NodeMap.size ⟨entries, ns.count⟩ = size := length
          dsimp only
          omega

theorem Represents.stored (place : Place nodeIdHashing ns.entries node.nodeId slot)
    (absent : lookup history node.nodeId = none) :
    Represents ⟨ns.entries.set slot (.entry node), (ns.count + 1) % 2 ^ 32⟩
      (.stored node :: history) := by
  have missing := (represents.lookup_none node.nodeId).mp absent
  have room : ns.count + 1 < 2 ^ 32 := by
    have counted := place.occupied node
    have bound : occupied (ns.entries.set slot (.entry node)) ≤
        (ns.entries.set slot (.entry node)).length := countP_le_length
    have bounds := represents.bounds
    rw [length_set, counted, ← represents.count] at bound
    exact lt_of_le_of_lt bound bounds.2
  refine ⟨represents.valid.insert place missing, ?_, ?_, ?_⟩
  · rw [NodeMap.size, length_set]
    exact represents.size
  · rw [place.occupied, ← represents.count]
    exact Nat.mod_eq_of_lt room
  · intro nodeId found
    rw [holds_insert place.inside place.free, represents.agrees, lookup]
    by_cases same : nodeIdEqual node.nodeId nodeId = true
    · rw [if_pos same]
      have none : lookup history nodeId = none := by
        rw [represents.lookup_none]
        rintro other ⟨index, here, equal⟩
        exact missing other ⟨index, here, nodeIdHashing.trans equal (nodeIdHashing.symm same)⟩
      rw [none, Option.some.injEq]
      constructor
      · rintro (⟨equal, -⟩ | impossible)
        · exact equal.symm
        · cases impossible
      · intro equal
        exact .inl ⟨equal.symm, same⟩
    · rw [if_neg same]
      constructor
      · rintro (⟨-, equal⟩ | before)
        · exact absurd equal same
        · exact before
      · exact .inr

theorem Represents.replaced {former : NodeMapEntry Node}
    (here : slotAt ns.entries slot = .entry former)
    (same : nodeIdEqual former.nodeId node.nodeId = true) :
    Represents ⟨ns.entries.set slot (.entry node), ns.count⟩ (.stored node :: history) := by
  have inside := slotAt_inside here
  have valid := represents.valid.replace here (nodeIdHashing.symm same)
  refine ⟨valid, ?_, ?_, ?_⟩
  · rw [NodeMap.size, length_set]
    exact represents.size
  · have counted := occupied_set inside (.entry node)
    rw [here] at counted
    simp only [Slot.isEntry, if_true, Nat.add_right_cancel_iff] at counted
    rw [counted]
    exact represents.count
  · intro nodeId found
    rw [lookup]
    by_cases equal : nodeIdEqual node.nodeId nodeId = true
    · rw [if_pos equal, Option.some.injEq]
      have holds : Holds nodeIdHashing NodeMapEntry.nodeId (ns.entries.set slot (.entry node))
          nodeId node := ⟨slot, by rw [slotAt_set _ inside, if_pos rfl], equal⟩
      constructor
      · intro other
        exact holds.unique valid other
      · intro is
        exact is ▸ holds
    · rw [if_neg equal, ← represents.agrees]
      apply holds_set here
      · rw [← Bool.not_eq_true]
        intro former
        exact equal (nodeIdHashing.trans (nodeIdHashing.symm same) former)
      · rw [← Bool.not_eq_true]
        exact equal

theorem Represents.removed (here : slotAt ns.entries slot = .entry node)
    (same : nodeIdEqual node.nodeId nodeId = true) :
    Represents ⟨ns.entries.set slot .tombstone, (ns.count + 2 ^ 32 - 1) % 2 ^ 32⟩
      (.removed nodeId :: history) := by
  have inside := slotAt_inside here
  have counted := occupied_set inside .tombstone
  rw [here] at counted
  simp only [Slot.isEntry, if_true, Bool.false_eq_true, if_false, Nat.add_zero] at counted
  have bounds := represents.bounds
  have whole := represents.count_le
  refine ⟨represents.valid.remove inside, ?_, ?_, ?_⟩
  · rw [NodeMap.size, length_set]
    exact represents.size
  · have count := represents.count
    dsimp only
    omega
  · intro other found
    rw [lookup]
    by_cases equal : nodeIdEqual nodeId other = true
    · rw [if_pos equal]
      constructor
      · intro held
        exact absurd held
          (not_holds_set represents.valid here (nodeIdHashing.trans same equal) found)
      · intro impossible
        cases impossible
    · rw [if_neg equal, ← represents.agrees]
      apply holds_set here _ _ rfl
      rw [← Bool.not_eq_true]
      intro former
      exact equal (nodeIdHashing.trans (nodeIdHashing.symm same) former)

theorem Represents.fewer (here : slotAt ns.entries slot = .entry node) :
    (ns.count + 2 ^ 32 - 1) % 2 ^ 32 ≤ ns.count := by
  have some : 0 < occupied ns.entries := by
    apply countP_pos_iff.mpr
    have inside := slotAt_inside here
    rw [slotAt_of_lt inside] at here
    exact ⟨_, getElem_mem inside, by rw [here]; rfl⟩
  have count := represents.count
  have whole := represents.count_le
  have bounds := represents.bounds
  omega

theorem clearSlot_outcome (memory : NodeMapMemory) (here : slotAt ns.entries slot = .entry node)
    (same : nodeIdEqual node.nodeId nodeId = true) :
    Outcome ns.count
      (fun result => result.1 = .good ∧ Represents result.2 (.removed nodeId :: history))
      (ns.clearSlot memory slot) := by
  have cleared := represents.removed here same
  have fewer := represents.fewer here
  rw [clearSlot]
  split
  · have resized := expand_outcome cleared memory
    cases expanded : expand memory
        ⟨ns.entries.set slot .tombstone, (ns.count + 2 ^ 32 - 1) % 2 ^ 32⟩ with
    | error fault =>
      rw [expanded] at resized
      exact ⟨resized.1, le_trans resized.2 fewer⟩
    | ok result =>
      rw [expanded] at resized
      exact ⟨rfl, resized.represents⟩
  · exact ⟨rfl, cleared⟩

end

def withNumeric (node : NodeMapEntry Node) (identifier : Nat) : NodeMapEntry Node :=
  { node with nodeId := ⟨node.nodeId.namespaceIndex, .numeric (BitVec.ofNat 32 identifier)⟩ }

def Renamed (node renamed : NodeMapEntry Node) : Prop :=
  ∃ identifier, renamed = withNumeric node identifier

theorem Renamed.again (again : Renamed (withNumeric node identifier) renamed)
    : Renamed node renamed := by
  obtain ⟨other, rfl⟩ := again
  exact ⟨other, rfl⟩

theorem tryIdentifiers_succ (ns : NodeMap Node) (node : NodeMapEntry Node)
    (increase startId fuel identifier : Nat) :
    ns.tryIdentifiers node increase startId (fuel + 1) identifier =
      match ns.findFreeSlot (withNumeric node identifier).nodeId with
      | .error fault => .error fault
      | .ok (some slot) => .ok (withNumeric node identifier, some slot)
      | .ok none =>
        if advance ns.size increase identifier % 2 ^ 32 ≠ startId then
          ns.tryIdentifiers (withNumeric node identifier) increase startId fuel
            (advance ns.size increase identifier)
        else .ok (withNumeric node identifier, none) := rfl

def Chosen (ns : NodeMap Node) (history : List (NodeMapEvent Node)) (node : NodeMapEntry Node) :
    Except NodeMapFault (NodeMapEntry Node × Option Nat) → Prop
  | .ok (renamed, some slot) => Renamed node renamed ∧
      Place nodeIdHashing ns.entries renamed.nodeId slot ∧ lookup history renamed.nodeId = none
  | .ok (_, none) => True
  | .error fault => fault ≠ .diverges

theorem Chosen.again {result : Except NodeMapFault (NodeMapEntry Node × Option Nat)}
    (chosen : Chosen ns history (withNumeric node identifier) result) :
    Chosen ns history node result := by
  match result with
  | .ok (renamed, some slot) => exact ⟨chosen.1.again, chosen.2⟩
  | .ok (_, none) => trivial
  | .error fault => exact chosen

section

variable (represents : Represents ns history)
include represents

theorem tryIdentifiers_chosen (node : NodeMapEntry Node) (increase startId fuel identifier : Nat) :
    Chosen ns history node (ns.tryIdentifiers node increase startId fuel identifier) := by
  induction fuel generalizing node identifier with
  | zero => exact fun same => by cases same
  | succ fuel ih =>
    rw [tryIdentifiers_succ]
    obtain ⟨result, search, outcome⟩ :=
      findFreeSlot_spec represents (withNumeric node identifier).nodeId
    rw [search]
    cases result with
    | some slot => exact ⟨⟨identifier, rfl⟩, outcome⟩
    | none =>
      dsimp only
      split
      · exact (ih (withNumeric node identifier) _).again
      · trivial

theorem tryIdentifiers_reaches (room : ns.count < ns.size) {free : Nat} (small : increase < ns.size)
    (steps : Nat) (node : NodeMapEntry Node) (fuel identifier : Nat) (inside : identifier < ns.size)
    (absent : lookup history (withNumeric node free).nodeId = none)
    (reaches : (identifier + steps * increase) % ns.size = free) (enough : steps < fuel)
    (before : ∀ step, 0 < step → step ≤ steps → (identifier + step * increase) % ns.size ≠ startId)
    :
    ∃ renamed slot,
      ns.tryIdentifiers node increase startId fuel identifier = .ok (renamed, some slot) := by
  induction steps generalizing node fuel identifier with
  | zero =>
    obtain ⟨fuel, rfl⟩ := Nat.exists_eq_succ_of_ne_zero (show fuel ≠ 0 by omega)
    rw [Nat.zero_mul, Nat.add_zero, Nat.mod_eq_of_lt inside] at reaches
    rw [tryIdentifiers_succ, reaches]
    obtain ⟨result, search, outcome⟩ :=
      findFreeSlot_spec represents (withNumeric node free).nodeId
    rw [search]
    cases result with
    | some slot => exact ⟨_, slot, rfl⟩
    | none =>
      rcases outcome with taken | full
      · exact absurd absent taken
      · omega
  | succ steps ih =>
    obtain ⟨fuel, rfl⟩ := Nat.exists_eq_succ_of_ne_zero (show fuel ≠ 0 by omega)
    rw [tryIdentifiers_succ]
    obtain ⟨result, search, -⟩ :=
      findFreeSlot_spec represents (withNumeric node identifier).nodeId
    rw [search]
    cases result with
    | some slot => exact ⟨_, slot, rfl⟩
    | none =>
      have bounds := represents.bounds
      have next := advance_eq inside small
      have bound : advance ns.size increase identifier < ns.size := by
        rw [next]
        exact Nat.mod_lt _ (by omega)
      have shift : ∀ step, (advance ns.size increase identifier + step * increase) % ns.size =
          (identifier + (step + 1) * increase) % ns.size := by
        intro step
        rw [next, Nat.mod_add_mod, Nat.succ_mul, Nat.add_assoc, Nat.add_comm increase]
      have other := before 1 (by omega) (by omega)
      dsimp only
      rw [if_pos]
      · apply ih (withNumeric node identifier) fuel _ bound absent _ (by omega)
        · intro step positive last
          rw [shift]
          exact before (step + 1) (by omega) (by omega)
        · rw [shift]
          exact reaches
      · rw [Nat.mod_eq_of_lt (lt_trans bound bounds.2), next]
        rwa [Nat.one_mul] at other

theorem exists_free_identifier (room : ns.count < ns.size) (node : NodeMapEntry Node) :
    ∃ free < ns.size, lookup history (withNumeric node free).nodeId = none := by
  have bounds := represents.bounds
  have different : ∀ first second : Fin ns.entries.length,
      nodeIdHashing.equal (withNumeric node first).nodeId (withNumeric node second).nodeId =
        true → first = second := by
    intro first second same
    have values : BitVec.ofNat 32 first.val = BitVec.ofNat 32 second.val := by
      simpa [nodeIdHashing, nodeIdEqual, withNumeric] using same
    have numbers := congrArg BitVec.toNat values
    have one : first.val < 2 ^ 32 := lt_trans first.isLt bounds.2
    have two : second.val < 2 ^ 32 := lt_trans second.isLt bounds.2
    rw [BitVec.toNat_ofNat, BitVec.toNat_ofNat, Nat.mod_eq_of_lt one, Nat.mod_eq_of_lt two]
      at numbers
    exact Fin.ext numbers
  obtain ⟨free, absent⟩ := exists_absent
    (fun number : Fin ns.entries.length => (withNumeric node number).nodeId) different
    (represents.count ▸ room)
  exact ⟨free, free.isLt, (represents.lookup_none _).mpr absent⟩

theorem tryIdentifiers_descends (room : ns.count < ns.size) (positive : 0 < increase)
    (small : increase < ns.size) (large : ns.size ≤ startId) (word : startId < 2 ^ 32)
    (node : NodeMapEntry Node) (fuel identifier : Nat) (below : identifier ≤ startId)
    (enough : identifier + ns.size < fuel) :
    ∃ renamed slot,
      ns.tryIdentifiers node increase startId fuel identifier = .ok (renamed, some slot) := by
  induction fuel generalizing node identifier with
  | zero => omega
  | succ fuel ih =>
    by_cases inside : identifier < ns.size
    · obtain ⟨free, bound, absent⟩ := exists_free_identifier represents room node
      obtain ⟨steps, less, reaches⟩ :=
        stride_surj represents.prime positive small identifier bound
      apply tryIdentifiers_reaches represents room small steps node (fuel + 1) identifier inside
        absent reaches (by omega)
      intro step _ _ same
      have bound := Nat.mod_lt (identifier + step * increase) (show 0 < ns.size by omega)
      omega
    · rw [tryIdentifiers_succ]
      obtain ⟨result, search, -⟩ :=
        findFreeSlot_spec represents (withNumeric node identifier).nodeId
      rw [search]
      cases result with
      | some slot => exact ⟨_, slot, rfl⟩
      | none =>
        have next : advance ns.size increase identifier = identifier + increase - ns.size := by
          rw [advance, if_pos (by omega)]
        rw [if_pos]
        · exact ih _ _ (by omega) (by omega)
        · omega

theorem tryIdentifiers_finds (room : ns.count < ns.size) (positive : 0 < increase)
    (small : increase < ns.size) (node : NodeMapEntry Node) :
    ∃ renamed slot, ns.tryIdentifiers node increase ns.startIdentifier
      (ns.startIdentifier + ns.size + 1) ns.startIdentifier = .ok (renamed, some slot) := by
  have bounds := represents.bounds
  have word : ns.startIdentifier < 2 ^ 32 := by
    have bound := Nat.mod_lt ((50000 + ns.size + 1) % 2 ^ 32) (show 2 ^ 32 - 1 > 0 by decide)
    rw [startIdentifier]
    omega
  by_cases inside : ns.startIdentifier < ns.size
  · obtain ⟨free, bound, absent⟩ := exists_free_identifier represents room node
    obtain ⟨steps, less, reaches⟩ :=
      stride_surj represents.prime positive small ns.startIdentifier bound
    apply tryIdentifiers_reaches represents room small steps node _ _ inside absent reaches
      (by omega)
    intro step some last same
    -- the identifiers come back to the start only when all were tried
    have again := stride_inj represents.prime positive small ns.startIdentifier
      (show step < ns.size by omega) (show 0 < ns.size by omega)
      (by rw [same, Nat.zero_mul, Nat.add_zero, Nat.mod_eq_of_lt inside])
    omega
  · exact tryIdentifiers_descends represents room positive small (not_lt.mp inside) word node _ _
      le_rfl (by omega)

end

structure Accepted (ns : NodeMap Node) (history : List (NodeMapEvent Node))
    (node renamed : NodeMapEntry Node) (slot : Nat) : Prop where
  place : Place nodeIdHashing ns.entries renamed.nodeId slot
  absent : lookup history renamed.nodeId = none
  same : node.nodeId.identifier ≠ .numeric 0 → renamed = node
  renames : node.nodeId.identifier = .numeric 0 → Renamed node renamed

def Insertable (history : List (NodeMapEvent Node)) (node : NodeMapEntry Node) : Prop :=
  node.nodeId.identifier = .numeric 0 ∨ lookup history node.nodeId = none

theorem chooseSlot_outcome (represents : Represents ns history) (node : NodeMapEntry Node)
    (room : ns.count < 2 ^ 28 → ns.count < ns.size) :
    Outcome ns.count (fun result =>
        match result with
        | (renamed, some slot) => Accepted ns history node renamed slot
        | (_, none) => ns.count < 2 ^ 28 → ¬Insertable history node)
      (ns.chooseSlot node) := by
  rw [chooseSlot]
  split
  · rename_i zero
    have bounds := represents.bounds
    have stride := strideOf_bounds ((ns.count + 1) % 2 ^ 32) (show 3 ≤ ns.size by omega)
    have finds := fun small =>
      tryIdentifiers_finds represents (room small) stride.1 stride.2 node
    have chosen := tryIdentifiers_chosen represents node
      (strideOf ns.size ((ns.count + 1) % 2 ^ 32)) ns.startIdentifier
      (ns.startIdentifier + ns.size + 1) ns.startIdentifier
    generalize ns.tryIdentifiers node (strideOf ns.size ((ns.count + 1) % 2 ^ 32))
      ns.startIdentifier (ns.startIdentifier + ns.size + 1) ns.startIdentifier = result
      at finds chosen ⊢
    match result with
    | .ok (renamed, some slot) =>
      exact ⟨chosen.2.1, chosen.2.2, fun other => absurd zero other, fun _ => chosen.1⟩
    | .ok (renamed, none) =>
      intro small
      obtain ⟨other, slot, impossible⟩ := finds small
      cases impossible
    | .error fault =>
      refine ⟨chosen, ?_⟩
      by_contra small
      obtain ⟨other, slot, impossible⟩ := finds (not_le.mp small)
      cases impossible
  · rename_i given
    obtain ⟨result, search, outcome⟩ := findFreeSlot_spec represents node.nodeId
    rw [search]
    cases result with
    | some slot => exact ⟨outcome.1, outcome.2, fun _ => rfl, fun zero => absurd zero given⟩
    | none =>
      rintro small (zero | absent)
      · exact given zero
      · rcases outcome with taken | full
        · exact taken absent
        · exact absurd full (room small).ne

structure Inserted (memory : NodeMapMemory) (ns : NodeMap Node)
    (history : List (NodeMapEvent Node)) (node : NodeMapEntry Node) (status : StatusCode)
    (renamed : NodeMapEntry Node) (next : NodeMap Node) : Prop where
  stored : status = .good → Represents next (.stored renamed :: history)
  unstored : status ≠ .good → Represents next history
  absent : status = .good → lookup history renamed.nodeId = none
  same : status = .good → node.nodeId.identifier ≠ .numeric 0 → renamed = node
  renames : status = .good → node.nodeId.identifier = .numeric 0 → Renamed node renamed
  succeeds : ns.count < 2 ^ 28 → memory.entries = true → memory.nodeId = true →
    Insertable history node → status = .good

theorem Inserted.failed {status : StatusCode} {next : NodeMap Node} (bad : status ≠ .good)
    (represents : Represents next history)
    (cause : ns.count < 2 ^ 28 → memory.entries = true → memory.nodeId = true →
      ¬Insertable history node) : Inserted memory ns history node status renamed next :=
  ⟨fun good => absurd good bad, fun _ => represents, fun good => absurd good bad,
    fun good => absurd good bad, fun good => absurd good bad,
    fun small entries nodeId insertable => absurd insertable (cause small entries nodeId)⟩

theorem copiesNodeId_of_memory (available : memory.nodeId = true) (nodeId : NodeId)
    : copiesNodeId memory nodeId = true := by
  rw [copiesNodeId]
  split
  · rw [available, Bool.true_or]
  · rw [available, Bool.true_or]
  · rfl

section

variable (represents : Represents ns history)
include represents

theorem enlarged_outcome (memory : NodeMapMemory) :
    Outcome ns.count (fun result => Resized memory ns history result.1 result.2)
      (if ns.size * 3 % 2 ^ 32 ≤ ns.count * 4 % 2 ^ 32 then ns.expand memory
        else .ok (.good, ns)) := by
  split
  · exact expand_outcome represents memory
  · rename_i enough
    have bounds := represents.bounds
    refine ⟨represents, rfl, fun _ small => ?_, fun bad => absurd rfl bad⟩
    dsimp only
    by_contra full
    have size : ns.size * 3 % 2 ^ 32 = ns.size * 3 := Nat.mod_eq_of_lt (by omega)
    have count := Nat.mod_eq_of_lt (by omega)
    omega

theorem insertNode_outcome (memory : NodeMapMemory) (node : NodeMapEntry Node) (wantsId : Bool) :
    Outcome ns.count (fun result => Inserted memory ns history node result.1 result.2.1 result.2.2)
      (ns.insertNode memory node wantsId) := by
  rw [insertNode]
  have enlarged := enlarged_outcome represents memory
  generalize (if ns.size * 3 % 2 ^ 32 ≤ ns.count * 4 % 2 ^ 32 then ns.expand memory
    else .ok (.good, ns)) = result at enlarged ⊢
  match result with
  | .error fault => exact enlarged
  | .ok (status, larger) =>
    dsimp only
    by_cases bad : status ≠ .good
    · rw [if_pos bad]
      apply Inserted.failed (by dsimp only; decide) enlarged.represents
      intro _ available
      rw [enlarged.failed bad] at available
      cases available
    · rw [if_neg bad]
      rw [not_not] at bad
      have room : larger.count < 2 ^ 28 → larger.count < larger.size := fun small =>
        enlarged.room bad (enlarged.count ▸ small)
      have chosen := chooseSlot_outcome enlarged.represents node room
      generalize larger.chooseSlot node = choice at chosen ⊢
      match choice with
      | .error fault => exact ⟨chosen.1, le_trans chosen.2 (le_of_eq enlarged.count)⟩
      | .ok (renamed, none) =>
        apply Inserted.failed (by dsimp only; decide) enlarged.represents
        intro small _ _
        apply chosen
        rw [enlarged.count]
        exact small
      | .ok (renamed, some slot) =>
        dsimp only
        split
        · rename_i copy
          apply Inserted.failed (by dsimp only; decide) enlarged.represents
          intro _ _ available
          rw [copiesNodeId_of_memory available] at copy
          simp at copy
        · rw [if_neg (by rw [chosen.place.free]; decide)]
          exact ⟨fun _ => enlarged.represents.stored chosen.place chosen.absent,
            fun bad => absurd rfl bad, fun _ => chosen.absent, fun _ => chosen.same,
            fun _ => chosen.renames, fun _ _ _ _ => rfl⟩

theorem replaceNode_outcome (node : NodeMapEntry Node) :
    ∃ status next, ns.replaceNode node = .ok (status, next) ∧
      Represents next (if status = .good then .stored node :: history else history) := by
  rw [replaceNode]
  rcases findOccupiedSlot_spec represents node.nodeId with
    ⟨search, -⟩ | ⟨slot, former, search, here, same, -⟩
  · rw [search]
    exact ⟨_, _, rfl, represents⟩
  · rw [search]
    dsimp only
    rw [here]
    dsimp only
    split
    · exact ⟨_, _, rfl, represents⟩
    · exact ⟨_, _, rfl, represents.replaced here same⟩

theorem removeNode_outcome (memory : NodeMapMemory) (nodeId : NodeId) : Outcome ns.count
      (fun result => Represents result.2
        (if result.1 = .good then .removed nodeId :: history else history))
      (ns.removeNode memory nodeId) := by
  rw [removeNode]
  rcases findOccupiedSlot_spec represents nodeId with
    ⟨search, -⟩ | ⟨slot, former, search, here, same, -⟩
  · rw [search]
    exact represents
  · rw [search]
    dsimp only
    have cleared := clearSlot_outcome represents memory here same
    match ns.clearSlot memory slot, cleared with
    | .error fault, cleared => exact cleared
    | .ok (status, next), cleared =>
      rw [Outcome, if_pos cleared.1]
      exact cleared.2

theorem perform_outcome (memory : NodeMapMemory) (operation : NodeMapOperation Node) :
    Outcome ns.count (fun result => Represents result.1 (result.2 ++ history))
      (ns.perform memory operation) := by
  cases operation with
  | insertNode node wantsId =>
    rw [perform]
    have inserted := insertNode_outcome represents memory node wantsId
    match ns.insertNode memory node wantsId, inserted with
    | .error fault, inserted => exact inserted
    | .ok (status, renamed, next), inserted =>
      by_cases good : status = .good
      · rw [Outcome, if_pos good]
        exact inserted.stored good
      · rw [Outcome, if_neg good]
        exact inserted.unstored good
  | replaceNode node =>
    obtain ⟨status, next, replaced, kept⟩ := replaceNode_outcome represents node
    rw [perform, replaced]
    split at kept
    · rename_i good
      rw [Outcome, if_pos good]
      exact kept
    · rename_i bad
      rw [Outcome, if_neg bad]
      exact kept
  | removeNode nodeId =>
    rw [perform]
    have removed := removeNode_outcome represents memory nodeId
    match ns.removeNode memory nodeId, removed with
    | .error fault, removed => exact removed
    | .ok (status, next), removed =>
      rw [Outcome] at removed
      split at removed
      · rename_i good
        rw [Outcome, if_pos good]
        exact removed
      · rename_i bad
        rw [Outcome, if_neg bad]
        exact removed

end

theorem Run.represents (run : Run ns history) : Represents ns history := by
  induction run with
  | new => exact .new
  | @step _ _ _ _ memory operation _ performed ih =>
    have outcome := perform_outcome ih memory operation
    rwa [performed] at outcome

end Represents

theorem insertNode_succeeds (represents : Represents ns history) (small : ns.count < 2 ^ 28)
    (node : NodeMapEntry Node) (wantsId : Bool) (insertable : Insertable history node) :
    ∃ renamed next, ns.insertNode ⟨true, true⟩ node wantsId = .ok (.good, renamed, next) ∧
      Represents next (.stored renamed :: history) ∧
      (node.nodeId.identifier ≠ .numeric 0 → renamed = node) := by
  have outcome := insertNode_outcome represents ⟨true, true⟩ node wantsId
  generalize ns.insertNode ⟨true, true⟩ node wantsId = result at outcome
  cases result with
  | error fault => exact absurd outcome.2 (not_le.mpr small)
  | ok result =>
    have succeeds := outcome.succeeds small rfl rfl insertable
    obtain ⟨status, renamed, next⟩ := result
    cases succeeds
    exact ⟨renamed, next, rfl, outcome.stored rfl, outcome.same rfl⟩

/-- In every state a lookup finds the node that was last stored and not removed, the count is
the number of entries, no id is in two slots and the searches end. Below 2^28 nodes all the
operations return, and with memory a node with a new id is inserted. -/
theorem nodeMap_refines {ns : NodeMap Node} {history : List (NodeMapEvent Node)}
    (run : Run ns history) :
    (∀ nodeId, ns.getNode nodeId = .ok (lookup history nodeId)) ∧
    ns.count = occupied ns.entries ∧
    (∀ first second node other, slotAt ns.entries first = .entry node →
      slotAt ns.entries second = .entry other →
      nodeIdEqual node.nodeId other.nodeId = true → first = second) ∧
    (∀ memory operation, ns.perform memory operation ≠ .error .diverges) ∧
    (ns.count < 2 ^ 28 → ∀ memory operation,
      ∃ next events, ns.perform memory operation = .ok (next, events)) ∧
    (ns.count < 2 ^ 28 → ∀ memory : NodeMapMemory, memory.entries = true → memory.nodeId = true →
      ∀ node wantsId, Insertable history node →
        ∃ renamed next, ns.insertNode memory node wantsId = .ok (.good, renamed, next) ∧
          lookup history renamed.nodeId = none ∧
          (node.nodeId.identifier ≠ .numeric 0 → renamed = node) ∧
          (node.nodeId.identifier = .numeric 0 → Renamed node renamed)) := by
  have represents := run.represents
  refine ⟨getNode_spec represents, represents.count, represents.valid.unique, ?_, ?_, ?_⟩
  · intro memory operation diverges
    have outcome := perform_outcome represents memory operation
    rw [diverges] at outcome
    exact outcome.1 rfl
  · intro small memory operation
    have outcome := perform_outcome represents memory operation
    match ns.perform memory operation, outcome with
    | .ok (next, events), _ => exact ⟨next, events, rfl⟩
    | .error fault, outcome => exact absurd outcome.2 (not_le.mpr small)
  · intro small memory entries nodeId node wantsId insertable
    have outcome := insertNode_outcome represents memory node wantsId
    match ns.insertNode memory node wantsId, outcome with
    | .error fault, outcome => exact absurd outcome.2 (not_le.mpr small)
    | .ok (status, renamed, next), outcome =>
      have good := outcome.succeeds small entries nodeId insertable
      dsimp only at good
      subst good
      exact ⟨renamed, next, rfl, outcome.absent rfl, outcome.same rfl, outcome.renames rfl⟩

def storedNode (identifier : BitVec 32) : NodeMapEntry Nat := ⟨0, none, ⟨0, .numeric identifier⟩, 0⟩

theorem shrunk_refines : ∃ ns : NodeMap Nat,
    Run ns [.removed ⟨0, .numeric 1⟩, .stored (storedNode 2), .stored (storedNode 1)] ∧
      ns.size = 7 ∧ ns.getNode ⟨0, .numeric 2⟩ = .ok (some (storedNode 2)) ∧
      ns.getNode ⟨0, .numeric 1⟩ = .ok none := by
  let one : List (Slot (NodeMapEntry Nat)) := NodeMap.new.entries.set 0 (.entry (storedNode 1))
  let two : List (Slot (NodeMapEntry Nat)) := one.set 1 (.entry (storedNode 2))
  have first : perform ⟨true, true⟩ .new (.insertNode (storedNode 1) true) =
      .ok (⟨one, 1⟩, [.stored (storedNode 1)]) := by decide +kernel
  have second : perform ⟨true, true⟩ ⟨one, 1⟩ (.insertNode (storedNode 2) true) =
      .ok (⟨two, 2⟩, [.stored (storedNode 2)]) := by decide +kernel
  have third : perform ⟨true, true⟩ ⟨two, 2⟩ (.removeNode ⟨0, .numeric 1⟩) =
      .ok (⟨[.null, .entry (storedNode 2), .null, .null, .null, .null, .null], 1⟩,
        [.removed ⟨0, .numeric 1⟩]) := by decide +kernel
  have run : Run _ [.removed ⟨0, .numeric 1⟩, .stored (storedNode 2), .stored (storedNode 1)] :=
    .step (.step (.step .new first) second) third
  exact ⟨_, run, rfl, (nodeMap_refines run).1 _, (nodeMap_refines run).1 _⟩

end NodeMap

end OpcUa
