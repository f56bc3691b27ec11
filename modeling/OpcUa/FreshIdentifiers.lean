import OpcUa.NodeMap

/-!
The identifiers of nodes that are inserted without one. The search starts above 50000, and when the
first identifiers are taken it goes down by less than the size of the table at a time.
-/

namespace OpcUa

open DoubleHashing

namespace NodeMap

variable {Node : Type} {ns : NodeMap Node} {history : List (NodeMapEvent Node)}
variable {memory : NodeMapMemory} {status : StatusCode} {next : NodeMap Node}
  {node renamed : NodeMapEntry Node}

/-! The table that is searched -/

def enlarge (memory : NodeMapMemory) (ns : NodeMap Node) :
    Except NodeMapFault (StatusCode × NodeMap Node) :=
  if ns.size * 3 % 2 ^ 32 ≤ ns.count * 4 % 2 ^ 32 then ns.expand memory else .ok (.good, ns)

def Resizes (ns : NodeMap Node) : Prop :=
  ns.size * 3 % 2 ^ 32 ≤ ns.count * 4 % 2 ^ 32 ∧ ¬(ns.count * 2 % 2 ^ 32 < ns.size ∧
      (ns.count * 8 % 2 ^ 32 > ns.size ∨ ns.size ≤ nodeMapMinSize))

instance (ns : NodeMap Node) : Decidable ns.Resizes := inferInstanceAs (Decidable (_ ∧ _))

def searchedSize (ns : NodeMap Node) : Nat :=
  if ns.Resizes then primes.getD (higherPrimeIndex (ns.count * 2 % 2 ^ 32)) 0 else ns.size

def nodeLimit : Nat := 2 ^ 31 - 2

theorem primes_gap {size : Nat} (member : size ∈ primes) :
    size < 2 ^ 30 ∨ 2 ^ 31 - 1 = size ∨ size = 4294967291 := by
  have gaps : ∀ size ∈ primes, size < 2 ^ 30 ∨ 2 ^ 31 - 1 = size ∨ size = 4294967291 := by decide
  exact gaps size member

section

variable (represents : Represents ns history) (few : ns.count < nodeLimit)
include represents few

theorem room_of_large (large : ¬ns.size * 3 % 2 ^ 32 ≤ ns.count * 4 % 2 ^ 32) :
    ns.count < ns.size := by
  have whole := represents.count_le
  rw [nodeLimit] at few
  rcases primes_gap represents.size with small | middle | last
  · have size : ns.size * 3 % 2 ^ 32 = ns.size * 3 := Nat.mod_eq_of_lt (by omega)
    have count := Nat.mod_eq_of_lt (by omega)
    have positive := represents.bounds
    omega
  · omega
  · omega

theorem expand_good (grows : ns.Resizes) (available : memory.entries = true) :
    ∃ larger, ns.expand memory = .ok (.good, larger) ∧ Represents larger history ∧
      larger.count = ns.count ∧ larger.size = ns.searchedSize ∧ larger.count < larger.size := by
  rw [expand, if_neg grows.2]
  rw [nodeLimit] at few
  cases found : primes[higherPrimeIndex (ns.count * 2 % 2 ^ 32)]? with
  | none =>
    have large := higherPrime_none found
    omega
  | some size =>
    obtain ⟨member, fits⟩ := higherPrime_some found
    have bounds := primes_bounds member
    have some : ¬(!memory.entries) = true := by rw [available]; decide
    dsimp only
    rw [if_neg some]
    rcases move_outcome represents member with ⟨-, full⟩ | ⟨entries, moves, kept, length⟩
    · omega
    · rw [moves]
      have width : NodeMap.size ⟨entries, ns.count⟩ = size := length
      refine ⟨_, rfl, kept, rfl, ?_, ?_⟩
      · rw [width, searchedSize, if_pos grows, List.getD_eq_getElem?_getD, found]
        rfl
      · dsimp only
        omega

theorem enlarge_good (available : ns.Resizes → memory.entries = true) :
    ∃ larger, enlarge memory ns = .ok (.good, larger) ∧ Represents larger history ∧
      larger.count = ns.count ∧ larger.size = ns.searchedSize ∧ larger.count < larger.size := by
  rw [enlarge]
  by_cases crowded : ns.size * 3 % 2 ^ 32 ≤ ns.count * 4 % 2 ^ 32
  · rw [if_pos crowded]
    by_cases enough : ns.count * 2 % 2 ^ 32 < ns.size ∧
        (ns.count * 8 % 2 ^ 32 > ns.size ∨ ns.size ≤ nodeMapMinSize)
    · rw [expand, if_pos enough]
      refine ⟨ns, rfl, represents, rfl, ?_, ?_⟩
      · rw [searchedSize, if_neg fun resizes => resizes.2 enough]
      · rw [nodeLimit] at few
        omega
    · have grows : ns.Resizes := ⟨crowded, enough⟩
      exact expand_good represents few grows (available grows)
  · rw [if_neg crowded]
    refine ⟨ns, rfl, represents, rfl, ?_, room_of_large represents few crowded⟩
    rw [searchedSize, if_neg fun resizes => crowded resizes.1]

end

theorem enlarge_failed (few : ns.count < nodeLimit) (grows : ns.Resizes)
    (missing : memory.entries = false) : enlarge memory ns = .ok (.badOutOfMemory, ns) := by
  rw [enlarge, if_pos grows.1, expand, if_neg grows.2]
  cases found : primes[higherPrimeIndex (ns.count * 2 % 2 ^ 32)]? with
  | none =>
    have large := higherPrime_none found
    rw [nodeLimit] at few
    omega
  | some size =>
    rw [missing]
    rfl

theorem enlarge_limit (represents : Represents ns history) (full : ns.count = nodeLimit)
    (memory : NodeMapMemory) : enlarge memory ns = .error .outOfBounds := by
  have whole := represents.count_le
  have last : primes[higherPrimeIndex (ns.count * 2 % 2 ^ 32)]? = none := by
    rw [full]
    decide +kernel
  rw [nodeLimit] at full
  have crowded : ns.size * 3 % 2 ^ 32 ≤ ns.count * 4 % 2 ^ 32 := by
    rcases primes_gap represents.size with small | middle | last
    · omega
    · omega
    · omega
  have needed : ¬(ns.count * 2 % 2 ^ 32 < ns.size ∧
      (ns.count * 8 % 2 ^ 32 > ns.size ∨ ns.size ≤ nodeMapMinSize)) := by
    have bounds := represents.bounds
    rcases primes_gap represents.size with small | middle | last
    · omega
    · omega
    · omega
  rw [enlarge, if_pos crowded, expand, if_neg needed, last]

/-! The number of nodes -/

theorem expand_count (expanded : ns.expand memory = .ok (status, next)) :
    next.count = ns.count := by
  rw [expand] at expanded
  split at expanded
  · cases expanded
    rfl
  · split at expanded
    · cases expanded
    · split at expanded
      · cases expanded
        rfl
      · split at expanded
        · cases expanded
          rfl
        · cases expanded
        · cases expanded

theorem enlarge_count (enlarged : enlarge memory ns = .ok (status, next)) :
    next.count = ns.count := by
  rw [enlarge] at enlarged
  split at enlarged
  · exact expand_count enlarged
  · cases enlarged
    rfl

section

variable (memory : NodeMapMemory) (node : NodeMapEntry Node) (wantsId : Bool)

def insertInto (enlarged : StatusCode × NodeMap Node) :
    Except NodeMapFault (StatusCode × NodeMapEntry Node × NodeMap Node) :=
  if enlarged.1 ≠ .good then .ok (.badInternalError, node, enlarged.2)
  else
    match enlarged.2.chooseSlot node with
    | .error fault => .error fault
    | .ok (node, none) => .ok (.badNodeIdExists, node, enlarged.2)
    | .ok (node, some slot) =>
      if wantsId && !copiesNodeId memory node.nodeId then .ok (.badOutOfMemory, node, enlarged.2)
      else if (slotAt enlarged.2.entries slot).isEntry then
        .ok (.badNodeIdExists, node, enlarged.2)
      else
        .ok (.good, node,
          ⟨enlarged.2.entries.set slot (.entry node), (enlarged.2.count + 1) % 2 ^ 32⟩)

theorem insertNode_eq : ns.insertNode memory node wantsId =
      (enlarge memory ns).bind (insertInto memory node wantsId) := by
  rw [insertNode, enlarge]
  generalize (if ns.size * 3 % 2 ^ 32 ≤ ns.count * 4 % 2 ^ 32 then ns.expand memory
    else .ok (.good, ns)) = enlarged
  cases enlarged <;> rfl

end

theorem insertInto_count {wantsId : Bool} {enlarged : StatusCode × NodeMap Node}
    (inserted : insertInto memory node wantsId enlarged = .ok (status, renamed, next)) :
    next.count ≤ enlarged.2.count + 1 := by
  rw [insertInto] at inserted
  split at inserted
  · cases inserted
    exact Nat.le_succ _
  · split at inserted
    · cases inserted
    · cases inserted
      exact Nat.le_succ _
    · split at inserted
      · cases inserted
        exact Nat.le_succ _
      · split at inserted
        · cases inserted
          exact Nat.le_succ _
        · cases inserted
          exact Nat.mod_le _ _

theorem insertNode_limit (represents : Represents ns history) (limited : ns.count ≤ nodeLimit)
    {wantsId : Bool} (inserted : ns.insertNode memory node wantsId = .ok (status, renamed, next)) :
    next.count ≤ nodeLimit := by
  rw [insertNode_eq] at inserted
  cases enlarged : enlarge memory ns with
  | error fault =>
    rw [enlarged] at inserted
    cases inserted
  | ok result =>
    have few : ns.count ≠ nodeLimit := by
      intro full
      rw [enlarge_limit represents full memory] at enlarged
      cases enlarged
    have count := enlarge_count enlarged
    rw [enlarged] at inserted
    have more := insertInto_count inserted
    omega

theorem replaceNode_count (replaced : ns.replaceNode node = .ok (status, next)) :
    next.count = ns.count := by
  rw [replaceNode] at replaced
  split at replaced
  · cases replaced
  · cases replaced
    rfl
  · split at replaced
    · split at replaced
      · cases replaced
        rfl
      · cases replaced
        rfl
    · cases replaced
      rfl

theorem removeNode_count (represents : Represents ns history) {nodeId : NodeId}
    (removed : ns.removeNode memory nodeId = .ok (status, next)) : next.count ≤ ns.count := by
  rw [removeNode] at removed
  rcases findOccupiedSlot_spec represents nodeId with
    ⟨search, -⟩ | ⟨slot, former, search, here, -, -⟩
  · rw [search] at removed
    cases removed
    exact le_rfl
  · have fewer := represents.fewer here
    rw [search] at removed
    dsimp only at removed
    rw [clearSlot] at removed
    split at removed
    · split at removed
      · rename_i expanded
        cases removed
        exact (expand_count expanded).le.trans fewer
      · cases removed
    · cases removed
      exact fewer

theorem Run.limited (run : Run ns history) : ns.count ≤ nodeLimit := by
  induction run with
  | new => exact Nat.zero_le _
  | @step ns next history events memory operation run performed ih =>
    cases operation with
    | insertNode node wantsId =>
      rw [perform] at performed
      split at performed
      · cases performed
      · rename_i inserted
        cases performed
        exact insertNode_limit run.represents ih inserted
    | replaceNode node =>
      rw [perform] at performed
      split at performed
      · cases performed
      · rename_i replaced
        cases performed
        exact (replaceNode_count replaced).le.trans ih
    | removeNode nodeId =>
      rw [perform] at performed
      split at performed
      · cases performed
      · rename_i removed
        cases performed
        exact (removeNode_count run.represents removed).trans ih

def candidate (size count step : Nat) : Nat :=
  (advance size (strideOf size ((count + 1) % 2 ^ 32)))^[step]
    ((50000 + size + 1) % 2 ^ 32 % (2 ^ 32 - 1))

def Taken (ns : NodeMap Node) (namespaceIndex : BitVec 16) (identifier : Nat) : Prop :=
  ns.getNode ⟨namespaceIndex, .numeric (BitVec.ofNat 32 identifier)⟩ ≠ .ok none

theorem taken_iff (represents : Represents ns history) (node : NodeMapEntry Node)
    (identifier : Nat) : ns.Taken node.nodeId.namespaceIndex identifier ↔
      lookup history (withNumeric node identifier).nodeId ≠ none := by
  rw [Taken, getNode_spec represents, ne_eq, Except.ok.injEq]
  rfl

theorem candidate_lt {size count : Nat} (large : 3 ≤ size) (word : size < 2 ^ 32) (step : Nat) :
    candidate size count step < 2 ^ 32 := by
  obtain ⟨-, small⟩ := strideOf_bounds ((count + 1) % 2 ^ 32) large
  induction step with
  | zero =>
    have bound := Nat.mod_lt ((50000 + size + 1) % 2 ^ 32) (show 2 ^ 32 - 1 > 0 by decide)
    rw [candidate, Function.iterate_zero_apply]
    omega
  | succ step ih =>
    rw [candidate] at ih ⊢
    rw [Function.iterate_succ_apply', advance]
    split
    · omega
    · omega

theorem tryIdentifiers_first (represents : Represents ns history) (room : ns.count < ns.size)
    {increase startId fuel : Nat} {identifier slot : Nat}
    (found : ns.tryIdentifiers node increase startId fuel identifier = .ok (renamed, some slot)) :
    ∃ step, renamed = withNumeric node ((advance ns.size increase)^[step] identifier) ∧
      Place nodeIdHashing ns.entries renamed.nodeId slot ∧ lookup history renamed.nodeId = none ∧
      ∀ earlier < step, lookup history
        (withNumeric node ((advance ns.size increase)^[earlier] identifier)).nodeId ≠ none := by
  induction fuel generalizing node identifier with
  | zero => cases found
  | succ fuel ih =>
    rw [tryIdentifiers_succ] at found
    obtain ⟨result, search, outcome⟩ :=
      findFreeSlot_spec represents (withNumeric node identifier).nodeId
    rw [search] at found
    cases result with
    | some place =>
      cases found
      refine ⟨0, rfl, outcome.1, outcome.2, ?_⟩
      intro earlier before
      omega
    | none =>
      have taken := outcome.resolve_right room.ne
      dsimp only at found
      split at found
      · obtain ⟨step, same, place, absent, others⟩ := ih found
        refine ⟨step + 1, same, place, absent, ?_⟩
        intro earlier before
        cases earlier with
        | zero => exact taken
        | succ earlier => exact others earlier (by omega)
      · cases found

theorem chooseSlot_first (represents : Represents ns history) (room : ns.count < ns.size)
    (zero : node.nodeId.identifier = .numeric 0) :
    ∃ step slot, ns.chooseSlot node =
        .ok (withNumeric node (candidate ns.size ns.count step), some slot) ∧
      Place nodeIdHashing ns.entries
        (withNumeric node (candidate ns.size ns.count step)).nodeId slot ∧
      ¬ns.Taken node.nodeId.namespaceIndex (candidate ns.size ns.count step) ∧
      ∀ earlier < step,
        ns.Taken node.nodeId.namespaceIndex (candidate ns.size ns.count earlier) := by
  have bounds := represents.bounds
  obtain ⟨positive, small⟩ :=
    strideOf_bounds ((ns.count + 1) % 2 ^ 32) (show 3 ≤ ns.size by omega)
  obtain ⟨renamed, slot, found⟩ := tryIdentifiers_finds represents room positive small node
  obtain ⟨step, rfl, place, absent, others⟩ := tryIdentifiers_first represents room found
  refine ⟨step, slot, ?_, place, ?_, ?_⟩
  · rw [chooseSlot, if_pos zero]
    exact found
  · rw [taken_iff represents]
    exact not_not.mpr absent
  · intro earlier before
    rw [taken_iff represents]
    exact others earlier before

/-- The insertion returns. If it succeeds the node has got a numeric identifier of at least 50000
that was not in the store, and it is found under that. If it fails the store has the same nodes. -/
def AssignsFresh (memory : NodeMapMemory) (ns : NodeMap Node) (node : NodeMapEntry Node)
    (wantsId : Bool) : Prop :=
  ∃ status renamed next, ns.insertNode memory node wantsId = .ok (status, renamed, next) ∧
    (status = .good → (∃ identifier : BitVec 32, 50000 ≤ identifier.toNat ∧
        renamed.nodeId = ⟨node.nodeId.namespaceIndex, .numeric identifier⟩) ∧
      ns.getNode renamed.nodeId = .ok none ∧ next.getNode renamed.nodeId = .ok (some renamed)) ∧
    (status ≠ .good → ∀ nodeId, next.getNode nodeId = ns.getNode nodeId)

def StaysAbove (ns : NodeMap Node) (namespaceIndex : BitVec 16) : Prop :=
  ∀ step, candidate ns.searchedSize ns.count step < 50000 →
    (∀ earlier < step, ns.Taken namespaceIndex (candidate ns.searchedSize ns.count earlier)) →
    ns.Taken namespaceIndex (candidate ns.searchedSize ns.count step)

section

variable (represents : Represents ns history) (few : ns.count < nodeLimit)
  (available : ns.Resizes → memory.entries = true) (zero : node.nodeId.identifier = .numeric 0)
  (wantsId : Bool)
include represents few available zero

theorem insertNode_assigned : ∃ step next, ns.insertNode memory node wantsId =
        .ok (.good, withNumeric node (candidate ns.searchedSize ns.count step), next) ∧
      next.getNode (withNumeric node (candidate ns.searchedSize ns.count step)).nodeId =
        .ok (some (withNumeric node (candidate ns.searchedSize ns.count step))) ∧
      ¬ns.Taken node.nodeId.namespaceIndex (candidate ns.searchedSize ns.count step) ∧
      ∀ earlier < step,
        ns.Taken node.nodeId.namespaceIndex (candidate ns.searchedSize ns.count earlier) := by
  obtain ⟨larger, enlarged, kept, count, size, room⟩ := enlarge_good represents few available
  obtain ⟨step, slot, chosen, place, absent, others⟩ := chooseSlot_first kept room zero
  have same : ∀ identifier, larger.Taken node.nodeId.namespaceIndex identifier ↔
      ns.Taken node.nodeId.namespaceIndex identifier := by
    intro identifier
    rw [taken_iff kept, taken_iff represents]
  rw [size, count] at chosen place absent others
  rw [same] at absent
  have free : lookup history
      (withNumeric node (candidate ns.searchedSize ns.count step)).nodeId = none := by
    rw [taken_iff represents, not_not] at absent
    exact absent
  have stored := kept.stored place free
  refine ⟨step, ⟨larger.entries.set slot (.entry (withNumeric node
    (candidate ns.searchedSize ns.count step))), (larger.count + 1) % 2 ^ 32⟩, ?_, ?_, absent,
    fun earlier before => (same _).mp (others earlier before)⟩
  · rw [insertNode_eq, enlarged]
    change insertInto memory node wantsId (.good, larger) = _
    have copied : copiesNodeId memory
        (withNumeric node (candidate ns.searchedSize ns.count step)).nodeId = true := rfl
    rw [insertInto, if_neg (not_not.mpr rfl), chosen]
    dsimp only
    rw [copied, place.free, Bool.not_true, Bool.and_false, if_neg Bool.false_ne_true,
      if_neg Bool.false_ne_true]
  · rw [getNode_spec stored, lookup, if_pos (nodeIdEqual_refl _)]

theorem assignsFresh_available :
    AssignsFresh memory ns node wantsId ↔ ns.StaysAbove node.nodeId.namespaceIndex := by
  obtain ⟨first, next, inserted, stored, absent, others⟩ :=
    insertNode_assigned represents few available zero wantsId
  have bounds : candidate ns.searchedSize ns.count first < 2 ^ 32 := by
    obtain ⟨larger, -, kept, -, size, -⟩ := enlarge_good represents few available
    have large := kept.bounds
    rw [size] at large
    exact candidate_lt (by omega) large.2 first
  have value : (BitVec.ofNat 32 (candidate ns.searchedSize ns.count first)).toNat =
      candidate ns.searchedSize ns.count first := by
    rw [BitVec.toNat_ofNat, Nat.mod_eq_of_lt bounds]
  constructor
  · rintro ⟨status, renamed, after, result, assigned, -⟩ step below taken
    rw [inserted] at result
    cases result
    obtain ⟨⟨identifier, above, same⟩, -, -⟩ := assigned rfl
    have names : BitVec.ofNat 32 (candidate ns.searchedSize ns.count first) = identifier := by
      have identifiers := congrArg NodeId.identifier same
      injection identifiers
    rw [← names] at above
    -- the search does not stop behind the first free identifier
    rcases Nat.lt_trichotomy step first with before | rfl | after
    · exact others step before
    · omega
    · exact absurd (taken first after) absent
  · intro stays
    refine ⟨_, _, next, inserted, fun _ => ⟨⟨_, ?_, rfl⟩, ?_, stored⟩, fun bad => absurd rfl bad⟩
    · rw [value]
      by_contra below
      exact absent (stays first (not_le.mp below) others)
    · exact not_not.mp absent

end

theorem assignsFresh_failed (few : ns.count < nodeLimit) (grows : ns.Resizes)
    (missing : memory.entries = false) (node : NodeMapEntry Node) (wantsId : Bool) :
    AssignsFresh memory ns node wantsId := by
  refine ⟨.badInternalError, node, ns, ?_, fun good => ?_, fun _ nodeId => rfl⟩
  · rw [insertNode_eq, enlarge_failed few grows missing]
    rfl
  · cases good

/-- In every state that is reached, a node without an identifier gets a new one as it should
exactly if the table of primes is not exhausted and, where a table can be had, no identifier below
50000 is free that is tried before the other free ones. -/
theorem assignsFresh_iff (run : Run ns history) (memory : NodeMapMemory)
    {node : NodeMapEntry Node} (zero : node.nodeId.identifier = .numeric 0) (wantsId : Bool) :
    AssignsFresh memory ns node wantsId ↔ ns.count ≠ nodeLimit ∧
        ((ns.Resizes → memory.entries = true) → ns.StaysAbove node.nodeId.namespaceIndex) := by
  have represents := run.represents
  by_cases full : ns.count = nodeLimit
  · constructor
    · rintro ⟨status, renamed, next, inserted, -⟩
      rw [insertNode_eq, enlarge_limit represents full memory] at inserted
      cases inserted
    · rintro ⟨few, -⟩
      exact absurd full few
  have few : ns.count < nodeLimit := lt_of_le_of_ne run.limited full
  by_cases available : ns.Resizes → memory.entries = true
  · rw [assignsFresh_available represents few available zero wantsId]
    exact ⟨fun stays => ⟨full, fun _ => stays⟩, fun stays => stays.2 available⟩
  · obtain ⟨grows, missing⟩ := Classical.not_imp.mp available
    exact iff_of_true (assignsFresh_failed few grows (by simpa using missing) node wantsId)
      ⟨full, fun enough => absurd enough available⟩

theorem firstNode_assignsFresh :
    AssignsFresh ⟨true, true⟩ (NodeMap.new : NodeMap Nat) (storedNode 0) true := by
  have start : candidate (NodeMap.new : NodeMap Nat).searchedSize
      (NodeMap.new : NodeMap Nat).count 0 = 50128 := by decide +kernel
  have free : (NodeMap.new : NodeMap Nat).getNode ⟨0, .numeric (BitVec.ofNat 32 50128)⟩ =
      .ok none := by decide +kernel
  refine (assignsFresh_iff (Run.new : Run (NodeMap.new : NodeMap Nat) []) ⟨true, true⟩ rfl
    true).mpr ⟨by decide, fun _ step below taken => ?_⟩
  cases step with
  | zero =>
    rw [start] at below
    omega
  | succ step =>
    refine absurd free ?_
    have first := taken 0 (Nat.succ_pos step)
    rw [start] at first
    exact first

def crowdedMap : NodeMap Nat :=
  ⟨((NodeMap.new : NodeMap Nat).entries.set 119 (.entry (storedNode 50128))).set 43
    (.entry (storedNode 50005)), 2⟩

theorem crowdedMap_run :
    Run crowdedMap [.stored (storedNode 50005), .stored (storedNode 50128)] := by
  have first : perform ⟨true, true⟩ .new (.insertNode (storedNode 50128) true) =
      .ok (⟨(NodeMap.new : NodeMap Nat).entries.set 119 (.entry (storedNode 50128)), 1⟩,
        [.stored (storedNode 50128)]) := by decide +kernel
  have second : perform ⟨true, true⟩
      ⟨(NodeMap.new : NodeMap Nat).entries.set 119 (.entry (storedNode 50128)), 1⟩
      (.insertNode (storedNode 50005) true) =
        .ok (crowdedMap, [.stored (storedNode 50005)]) := by decide +kernel
  exact .step (.step .new first) second

/-- The new node gets the identifier 49882. -/
theorem crowdedMap_assignsBelow :
    Run crowdedMap [.stored (storedNode 50005), .stored (storedNode 50128)] ∧
      (∃ next, crowdedMap.insertNode ⟨true, true⟩ (storedNode 0) true =
        .ok (.good, storedNode 49882, next)) ∧
      ¬AssignsFresh ⟨true, true⟩ crowdedMap (storedNode 0) true := by
  have names : (crowdedMap.insertNode ⟨true, true⟩ (storedNode 0) true).map
      (fun result => (result.1, result.2.1)) = .ok (.good, storedNode 49882) := by
    decide +kernel
  have inserts : ∃ next, crowdedMap.insertNode ⟨true, true⟩ (storedNode 0) true =
      .ok (.good, storedNode 49882, next) := by
    cases result : crowdedMap.insertNode ⟨true, true⟩ (storedNode 0) true with
    | error fault =>
      rw [result] at names
      cases names
    | ok value =>
      obtain ⟨status, renamed, next⟩ := value
      rw [result] at names
      injection names with names
      injection names with good same
      exact ⟨next, by rw [← good, ← same]⟩
  refine ⟨crowdedMap_run, inserts, ?_⟩
  rintro ⟨status, renamed, next, result, assigned, -⟩
  obtain ⟨after, inserted⟩ := inserts
  rw [inserted] at result
  cases result
  obtain ⟨⟨identifier, above, same⟩, -, -⟩ := assigned rfl
  have value : (49882 : BitVec 32) = identifier := by
    have identifiers := congrArg NodeId.identifier same
    injection identifiers
  rw [← value] at above
  revert above
  decide

end NodeMap

end OpcUa
