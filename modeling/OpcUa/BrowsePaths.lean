import OpcUa.BrowsePathCore

/-!
What a relative path leads to, and what the walk along it returns. The walk returns every target on
this server, and none on another one.
-/

namespace OpcUa

open StatusCode List

variable {store : Nodestore} {memory : Nat → Bool}
variable {walk : PathWalk} {nodeId : NodeId} {elem : RelativePathElement}
  {targetName : Option QualifiedName}

structure RelativePathElement.Takes (store : Nodestore) (elem : RelativePathElement)
    (source : NodeId) (targetId : ExpandedNodeId) : Prop where
  typed : elem.isTyped store = true
  reference : ∃ node rk, store.getNode source = some node ∧ rk ∈ node.references ∧
    elem.follows store rk = true ∧ targetId ∈ rk.targetIds

def Nodestore.Named (store : Nodestore) (name : QualifiedName) (nodeId : NodeId) : Prop :=
  ∃ node, store.getNode nodeId = some node ∧ namesEqual name node.browseName = true

inductive PathReaches (store : Nodestore) :
    List RelativePathElement → Nat → NodeId → BrowsePathTarget → Prop
  | here {index : Nat} {nodeId : NodeId} :
      PathReaches store [] index nodeId ⟨.ofNodeId nodeId, uint32Max⟩
  | step {elem : RelativePathElement} {elements : List RelativePathElement} {index : Nat}
      {source : NodeId} {targetId : ExpandedNodeId} {target : BrowsePathTarget}
      (takes : elem.Takes store source targetId) (near : targetId.serverIndex = 0)
      (named : store.Named elem.targetName targetId.nodeId)
      (rest : PathReaches store elements (index + 1) targetId.nodeId target) :
      PathReaches store (elem :: elements) index source target
  | leave {elem : RelativePathElement} {elements : List RelativePathElement} {index : Nat}
      {source : NodeId} {targetId : ExpandedNodeId}
      (takes : elem.Takes store source targetId) (away : targetId.serverIndex ≠ 0) :
      PathReaches store (elem :: elements) index source ⟨targetId, BitVec.ofNat 32 index⟩

/-! The walk at one depth -/

def nearTargets (targetIds : List ExpandedNodeId) : List NodeId :=
  (targetIds.filter (·.serverIndex = 0)).map ExpandedNodeId.nodeId

structure PathWalk.Roomy (walk : PathWalk) : Prop where
  targets : walk.targets = []
  targetsSize : 0 < walk.targetsSize
  nextSize : 0 < walk.nextSize
  fits : walk.next.length ≤ walk.nextSize

def WalkStatus (status : StatusCode) : Prop := status = good ∨ status = badOutOfMemory

structure PathWalk.Finds (memory : Nat → Bool) (found : List NodeId) (walk after : PathWalk) :
    Prop where
  roomy : after.Roomy
  next : after.statusCode = good → after.next = walk.next ++ found
  status : WalkStatus walk.statusCode → WalkStatus after.statusCode
  ample : (∀ n, memory n = true) → walk.statusCode = good → after.statusCode = good

namespace PathWalk.Finds

variable {middle after : PathWalk} {found more : List NodeId}

theorem none (roomy : walk.Roomy) : PathWalk.Finds memory [] walk walk :=
  ⟨roomy, fun _ => (append_nil _).symm, id, fun _ fine => fine⟩

theorem failed (roomy : after.Roomy) (status : after.statusCode = badOutOfMemory)
    (missing : ∃ n, memory n = false) : PathWalk.Finds memory found walk after where
  roomy := roomy
  next := by
    rw [status]
    exact fun fine => absurd fine (by decide)
  status := fun _ => .inr status
  ample := by
    intro ample
    obtain ⟨n, missing⟩ := missing
    rw [ample n] at missing
    cases missing

end PathWalk.Finds

theorem walkBrowsePathElementReferenceTargets_finds : ∀ {targetIds : List ExpandedNodeId}
    {walk : PathWalk}, walk.Roomy → ∃ after,
      walkBrowsePathElementReferenceTargets memory targetIds walk = some after ∧
        PathWalk.Finds memory (nearTargets targetIds) walk after := by
  intro targetIds
  induction targetIds with
  | nil => exact fun roomy => ⟨_, rfl, .none roomy⟩
  | cons targetId targetIds ih =>
    intro walk roomy
    by_cases near : targetId.serverIndex = 0
    · have found : nearTargets (targetId :: targetIds) =
          targetId.nodeId :: nearTargets targetIds := by
        rw [nearTargets, filter_cons_of_pos (by simpa using near), map_cons]
        rfl
      rw [found, walkBrowsePathElementReferenceTargets, if_neg (not_not.mpr near)]
      dsimp only
      generalize sized : (if walk.nextSize ≤ walk.next.length then walk.nextSize * 2
        else walk.nextSize) = nextSize
      generalize (if walk.nextSize ≤ walk.next.length then walk.allocations + 1
        else walk.allocations) = allocations
      have size := roomy.nextSize
      have fits := roomy.fits
      have room : walk.next.length < nextSize := by
        rw [← sized]
        split <;> omega
      by_cases grows : walk.nextSize ≤ walk.next.length ∧ memory walk.allocations = false
      · rw [if_pos grows]
        exact ⟨_, rfl, .failed ⟨roomy.targets, roomy.targetsSize, roomy.nextSize, roomy.fits⟩ rfl
          ⟨_, grows.2⟩⟩
      rw [if_neg grows, if_neg (Nat.not_le_of_lt room)]
      by_cases enough : memory allocations = true
      · obtain ⟨after, walks, finds⟩ := @ih { walk with
          statusCode := good
          next := walk.next ++ [targetId.nodeId]
          nextSize
          allocations := allocations + 1 }
          ⟨roomy.targets, roomy.targetsSize, by dsimp only; omega,
            by rw [length_append]; exact room⟩
        refine ⟨after, by simp [enough, walks], finds.roomy, ?_,
          fun _ => finds.status (.inl rfl), fun ample _ => finds.ample ample rfl⟩
        intro fine
        rw [finds.next fine, append_assoc]
        rfl
      · rw [if_pos (by simp [enough])]
        exact ⟨_, rfl, .failed ⟨roomy.targets, roomy.targetsSize, by dsimp only; omega,
          by dsimp only; omega⟩ rfl ⟨_, Bool.eq_false_iff.mpr enough⟩⟩
    · have found : nearTargets (targetId :: targetIds) = nearTargets targetIds := by
        rw [nearTargets, filter_cons_of_neg (by simpa using near)]
        rfl
      rw [found, walkBrowsePathElementReferenceTargets, if_pos near]
      by_cases enough : memory walk.allocations = true
      · have room : ¬ walk.targets.length ≥ walk.targetsSize * 2 := by
          have size := roomy.targetsSize
          rw [roomy.targets, length_nil]
          omega
        have positive : 0 < walk.targetsSize * 2 := by
          have size := roomy.targetsSize
          omega
        rw [if_neg (by simp [enough]), if_neg room]
        obtain ⟨after, walks, finds⟩ := @ih { walk with
          targetsSize := walk.targetsSize * 2
          statusCode := if memory (walk.allocations + 1) then good else badOutOfMemory
          allocations := walk.allocations + 2 }
          ⟨roomy.targets, positive, roomy.nextSize, roomy.fits⟩
        refine ⟨after, walks, finds.roomy, finds.next, ?_, ?_⟩
        · intro _
          apply finds.status
          dsimp only
          split
          · exact .inl rfl
          · exact .inr rfl
        · intro ample _
          exact finds.ample ample (if_pos (ample _))
      · rw [if_pos (by simp [enough])]
        exact ⟨_, rfl, .failed ⟨roomy.targets, roomy.targetsSize, roomy.nextSize, roomy.fits⟩ rfl
          ⟨_, Bool.eq_false_iff.mpr enough⟩⟩

def nearReferences (store : Nodestore) (elem : RelativePathElement)
    (references : List NodeReferenceKind) : List NodeId :=
  (references.filter (elem.follows store ·)).flatMap fun rk => nearTargets rk.targetIds

theorem PathWalk.Finds.trans {middle after : PathWalk} {found more : List NodeId}
    (first : PathWalk.Finds memory found walk middle)
    (second : PathWalk.Finds memory more middle after)
    (kept : after.statusCode = good → middle.statusCode = good) :
    PathWalk.Finds memory (found ++ more) walk after where
  roomy := second.roomy
  next := by
    intro fine
    rw [second.next fine, first.next (kept fine), append_assoc]
  status := fun known => second.status (first.status known)
  ample := fun ample fine => second.ample ample (first.ample ample fine)

theorem walkReferences_finds (elem : RelativePathElement) : ∀ {references : List NodeReferenceKind}
    {walk : PathWalk}, walk.Roomy → ∃ after,
      walkReferences store memory elem references walk = some after ∧
        PathWalk.Finds memory (nearReferences store elem references) walk after ∧
        (after.statusCode = good → walk.statusCode = good) := by
  intro references
  induction references with
  | nil => exact fun roomy => ⟨_, rfl, .none roomy, id⟩
  | cons rk kinds ih =>
    intro walk roomy
    rw [walkReferences]
    by_cases bad : walk.statusCode ≠ good
    · rw [if_pos bad]
      exact ⟨walk, rfl, ⟨roomy, fun fine => absurd fine bad, id, fun _ fine => fine⟩, id⟩
    rw [if_neg bad]
    by_cases follows : elem.follows store rk = true
    · have found : nearReferences store elem (rk :: kinds) =
          nearTargets rk.targetIds ++ nearReferences store elem kinds := by
        rw [nearReferences, filter_cons_of_pos follows]
        rfl
      rw [found, if_neg (by simp [follows])]
      obtain ⟨middle, targets, first⟩ :=
        @walkBrowsePathElementReferenceTargets_finds memory rk.targetIds _ roomy
      obtain ⟨after, walks, second, kept⟩ := ih first.roomy
      exact ⟨after, by simp [targets, walks], first.trans second kept, fun _ => not_not.mp bad⟩
    · have found : nearReferences store elem (rk :: kinds) = nearReferences store elem kinds := by
        rw [nearReferences, filter_cons_of_neg follows]
        rfl
      rw [found, if_pos (by simp [follows])]
      exact ih roomy

def nearNodes (store : Nodestore) (elem : RelativePathElement) (targetName : Option QualifiedName)
    (nodeId : NodeId) : List NodeId :=
  match store.getNode nodeId with
  | none => []
  | some node =>
    if targetName.any fun name => !namesEqual name node.browseName then []
    else nearReferences store elem node.references

theorem matchClassMask_all (node : Node) : matchClassMask node 0 = true := rfl

theorem walkNodes_finds (elem : RelativePathElement) {elemDepth : Nat}
    (targetName : Option QualifiedName) : ∀ {current : List NodeId} {walk : PathWalk},
      walk.Roomy → (elemDepth = 0 → ∀ nodeId ∈ current, (store.getNode nodeId).isSome) →
      ∃ after, walkNodes store memory 0 elem elemDepth targetName current walk = some after ∧
        PathWalk.Finds memory (current.flatMap (nearNodes store elem targetName)) walk after ∧
        (after.statusCode = good → walk.statusCode = good) := by
  intro current
  induction current with
  | nil => exact fun roomy _ => ⟨_, rfl, .none roomy, id⟩
  | cons nodeId current ih =>
    intro walk roomy known
    have others : elemDepth = 0 → ∀ other ∈ current, (store.getNode other).isSome :=
      fun start other member => known start other (mem_cons_of_mem _ member)
    rw [walkNodes, flatMap_cons, nearNodes]
    cases here : store.getNode nodeId with
    | none =>
      have deeper : elemDepth ≠ 0 := by
        intro start
        have there := known start nodeId mem_cons_self
        rw [here] at there
        cases there
      rw [if_neg deeper]
      exact ih roomy others
    | some node =>
      dsimp only
      rw [matchClassMask_all, if_neg (by simp)]
      split
      · exact ih roomy others
      · obtain ⟨middle, references, first, same⟩ :=
          @walkReferences_finds store memory elem node.references _ roomy
        obtain ⟨after, walks, second, kept⟩ := ih first.roomy others
        exact ⟨after, by rw [references]; exact walks, first.trans second kept,
          fun fine => same (kept fine)⟩

def nextNodes (store : Nodestore) (elem : RelativePathElement) (targetName : Option QualifiedName)
    (current : List NodeId) : List NodeId :=
  if elem.isTyped store then current.flatMap (nearNodes store elem targetName) else []

theorem walkBrowsePathElement_finds (elem : RelativePathElement) {elemDepth : Nat}
    (targetName : Option QualifiedName) {current : List NodeId}
    (roomy : walk.Roomy)
    (known : elemDepth = 0 → ∀ nodeId ∈ current, (store.getNode nodeId).isSome) :
    ∃ after, walkBrowsePathElement store memory 0 elem elemDepth targetName current walk =
        some after ∧
      PathWalk.Finds memory (nextNodes store elem targetName current) walk after := by
  rw [walkBrowsePathElement, nextNodes]
  by_cases typed : elem.isTyped store = true
  · rw [if_neg (by simp [typed]), if_pos typed]
    obtain ⟨after, walks, finds, -⟩ := @walkNodes_finds store memory elem _ targetName _ _ roomy known
    exact ⟨after, walks, finds⟩
  · rw [if_pos (by simp [typed]), if_neg typed]
    exact ⟨walk, rfl, .none roomy⟩

/-! The end of the walk -/

def isNamed (store : Nodestore) (name : QualifiedName) (nodeId : NodeId) : Bool :=
  (store.getNode nodeId).any fun node => namesEqual name node.browseName

theorem isNamed_iff {name : QualifiedName} :
    isNamed store name nodeId = true ↔ store.Named name nodeId := by
  simp [isNamed, Nodestore.Named, Option.any_eq_true]

theorem addBrowsePathTargets_eq (targetName : QualifiedName) {size : Nat} :
    ∀ {current : List NodeId} {targets : List BrowsePathTarget},
      targets.length + current.length ≤ size →
      addBrowsePathTargets store 0 targetName size current targets =
        some (targets ++ (current.filter (isNamed store targetName)).map fun nodeId =>
          ⟨.ofNodeId nodeId, uint32Max⟩) := by
  intro current
  induction current with
  | nil => simp [addBrowsePathTargets]
  | cons nodeId current ih =>
    intro targets room
    rw [length_cons] at room
    rw [addBrowsePathTargets]
    cases here : store.getNode nodeId with
    | none =>
      have unnamed : isNamed store targetName nodeId = false := by simp [isNamed, here]
      rw [ih (by omega), filter_cons_of_neg (by simp [unnamed])]
    | some node =>
      dsimp only
      rw [matchClassMask_all]
      by_cases named : namesEqual targetName node.browseName = true
      · have fits : isNamed store targetName nodeId = true := by simp [isNamed, here, named]
        rw [if_neg (by simp [named]), if_neg (by omega), ih (by simp; omega),
          filter_cons_of_pos fits]
        simp
      · have unnamed : isNamed store targetName nodeId = false := by
          simp [isNamed, here, named]
        rw [if_pos (by simp [named]), ih (by omega), filter_cons_of_neg (by simp [unnamed])]

structure PathWalk.Returns (store : Nodestore) (elements : List RelativePathElement) (index : Nat)
    (targetName : Option QualifiedName) (current : List NodeId) (after : PathWalk) : Prop where
  status : WalkStatus after.statusCode
  targets : after.statusCode = good → ∀ target, target ∈ after.targets ↔
    target.targetId.serverIndex = 0 ∧ ∃ source ∈ current,
      (∀ name ∈ targetName, store.Named name source) ∧ PathReaches store elements index source target

theorem mem_nearReferences {references : List NodeReferenceKind} :
    nodeId ∈ nearReferences store elem references ↔
      ∃ targetId, (∃ rk ∈ references, elem.follows store rk = true ∧ targetId ∈ rk.targetIds) ∧
        targetId.serverIndex = 0 ∧ targetId.nodeId = nodeId := by
  simp only [nearReferences, nearTargets, mem_flatMap, mem_filter, mem_map, decide_eq_true_eq]
  constructor
  · rintro ⟨rk, ⟨kind, follows⟩, targetId, ⟨member, near⟩, same⟩
    exact ⟨targetId, ⟨rk, kind, follows, member⟩, near, same⟩
  · rintro ⟨targetId, ⟨rk, kind, follows, member⟩, near, same⟩
    exact ⟨rk, ⟨kind, follows⟩, targetId, ⟨member, near⟩, same⟩

theorem mem_nearNodes {source : NodeId} (typed : elem.isTyped store = true) :
    nodeId ∈ nearNodes store elem targetName source ↔
      (∀ name ∈ targetName, store.Named name source) ∧ ∃ targetId,
        elem.Takes store source targetId ∧ targetId.serverIndex = 0 ∧ targetId.nodeId = nodeId := by
  rw [nearNodes]
  cases here : store.getNode source with
  | none =>
    refine iff_of_false not_mem_nil ?_
    rintro ⟨-, targetId, ⟨-, node, rk, found, -⟩, -⟩
    rw [here] at found
    cases found
  | some node =>
    dsimp only
    have names : (targetName.any fun name => !namesEqual name node.browseName) = true ↔
        ¬∀ name ∈ targetName, store.Named name source := by
      cases targetName with
      | none => simp
      | some name => simp [Nodestore.Named, here]
    split
    · rename_i other
      exact iff_of_false not_mem_nil fun both => names.mp other both.1
    · rename_i same
      have named := not_not.mp (mt names.mpr same)
      rw [mem_nearReferences]
      constructor
      · rintro ⟨targetId, ⟨rk, kind, follows, member⟩, near, equal⟩
        exact ⟨named, targetId, ⟨typed, node, rk, here, kind, follows, member⟩, near, equal⟩
      · rintro ⟨-, targetId, ⟨-, other, rk, found, kind, follows, member⟩, near, equal⟩
        rw [here] at found
        cases found
        exact ⟨targetId, ⟨rk, kind, follows, member⟩, near, equal⟩

theorem mem_nextNodes {current : List NodeId} :
    nodeId ∈ nextNodes store elem targetName current ↔ ∃ source ∈ current,
      (∀ name ∈ targetName, store.Named name source) ∧ ∃ targetId,
        elem.Takes store source targetId ∧ targetId.serverIndex = 0 ∧ targetId.nodeId = nodeId := by
  rw [nextNodes]
  by_cases typed : elem.isTyped store = true
  · simp only [if_pos typed, mem_flatMap, mem_nearNodes typed]
  · rw [if_neg typed]
    refine iff_of_false not_mem_nil ?_
    rintro ⟨source, -, -, targetId, takes, -⟩
    exact typed takes.typed

theorem near_cons_iff {elements : List RelativePathElement} {index : Nat} {current : List NodeId}
    {target : BrowsePathTarget} :
    (target.targetId.serverIndex = 0 ∧ ∃ source ∈ current,
        (∀ name ∈ targetName, store.Named name source) ∧
        PathReaches store (elem :: elements) index source target) ↔
      target.targetId.serverIndex = 0 ∧ ∃ nodeId ∈ nextNodes store elem targetName current,
        (∀ name ∈ some elem.targetName, store.Named name nodeId) ∧
        PathReaches store elements (index + 1) nodeId target := by
  constructor
  · rintro ⟨nearby, source, member, named, reaches⟩
    cases reaches with
    | @step _ _ _ _ targetId _ takes near nextNamed rest =>
      refine ⟨nearby, targetId.nodeId,
        mem_nextNodes.mpr ⟨source, member, named, targetId, takes, near, rfl⟩, ?_, rest⟩
      intro name same
      cases same
      exact nextNamed
    | leave takes away => exact absurd nearby away
  · rintro ⟨nearby, nodeId, member, named, rest⟩
    obtain ⟨source, listed, sourceNamed, targetId, takes, near, rfl⟩ := mem_nextNodes.mp member
    exact ⟨nearby, source, listed, sourceNamed, .step takes near (named _ rfl) rest⟩

theorem finishBrowsePath_returns (targetName : QualifiedName) (index : Nat)
    {current : List NodeId} (roomy : walk.Roomy) (fine : walk.statusCode = good) :
    ∃ after, finishBrowsePath store memory 0 (some targetName) current walk = some after ∧
      PathWalk.Returns store [] index (some targetName) current after ∧
      ((∀ n, memory n = true) → after.statusCode = good) := by
  rw [finishBrowsePath]
  dsimp only [Option.bind_eq_bind, Option.bind_some]
  split
  · rename_i missing
    refine ⟨_, rfl, ⟨.inr rfl, fun (same : badOutOfMemory = good) => absurd same (by decide)⟩, ?_⟩
    intro ample
    rw [ample] at missing
    cases missing.2
  · rw [addBrowsePathTargets_eq]
    · refine ⟨_, rfl, ⟨.inl fine, ?_⟩, fun _ => fine⟩
      intro _ target
      rw [roomy.targets, nil_append]
      simp only [mem_map, mem_filter, isNamed_iff]
      constructor
      · rintro ⟨source, ⟨member, named⟩, rfl⟩
        refine ⟨rfl, source, member, ?_, .here⟩
        intro name same
        cases same
        exact named
      · rintro ⟨-, source, member, named, reaches⟩
        cases reaches with
        | here => exact ⟨source, ⟨member, named _ rfl⟩, rfl⟩
    · split <;> omega

theorem walkBrowsePath_returns : ∀ {elements : List RelativePathElement} {elemDepth : Nat}
    {targetName : Option QualifiedName} {current : List NodeId} {currentSize : Nat}
    {walk : PathWalk}, walk.Roomy → walk.next = [] → walk.statusCode = good → 0 < currentSize →
      (elemDepth = 0 → ∀ nodeId ∈ current, (store.getNode nodeId).isSome) →
      (elements = [] → targetName.isSome) →
      (∀ after, walkBrowsePath store memory 0 elements elemDepth targetName current currentSize
        walk = some after → PathWalk.Returns store elements elemDepth targetName current after) ∧
      ((∀ n, memory n = true) → ∃ after, walkBrowsePath store memory 0 elements elemDepth
        targetName current currentSize walk = some after ∧ after.statusCode = good) := by
  intro elements
  induction elements with
  | nil =>
    intro elemDepth targetName current currentSize walk roomy _ fine _ _ names
    obtain ⟨name, rfl⟩ := Option.isSome_iff_exists.mp (names rfl)
    obtain ⟨final, finishes, returns, ample⟩ :=
      @finishBrowsePath_returns store memory _ name elemDepth current roomy fine
    rw [walkBrowsePath, finishes]
    refine ⟨?_, fun always => ⟨final, rfl, ample always⟩⟩
    intro after same
    cases same
    exact returns
  | cons elem elements ih =>
    intro elemDepth targetName current currentSize walk roomy empty fine size known _
    obtain ⟨middle, walks, finds⟩ :=
      @walkBrowsePathElement_finds store memory _ elem _ targetName _ roomy known
    have walked : walkBrowsePath store memory 0 (elem :: elements) elemDepth targetName current
        currentSize walk =
        if middle.next = [] then some middle
        else if middle.statusCode ≠ good then none
        else walkBrowsePath store memory 0 elements (elemDepth + 1) (some elem.targetName)
          middle.next middle.nextSize { middle with next := [], nextSize := currentSize } := by
      rw [walkBrowsePath, walks]
      rfl
    rw [walked]
    have next : middle.statusCode = good →
        middle.next = nextNodes store elem targetName current := by
      intro fine
      rw [finds.next fine, empty, nil_append]
    by_cases none : middle.next = []
    · rw [if_pos none]
      refine ⟨?_, fun ample => ⟨middle, rfl, finds.ample ample fine⟩⟩
      intro after same
      cases same
      refine ⟨finds.status (.inl fine), ?_⟩
      intro good target
      rw [near_cons_iff, ← next good, none, finds.roomy.targets]
      simp
    rw [if_neg none]
    by_cases bad : middle.statusCode = good
    · rw [if_neg (not_not.mpr bad)]
      have rest := @ih (elemDepth + 1) (some elem.targetName) middle.next middle.nextSize
        { middle with next := [], nextSize := currentSize }
        ⟨finds.roomy.targets, finds.roomy.targetsSize, size, Nat.zero_le _⟩ rfl bad
        finds.roomy.nextSize (fun start => absurd start (Nat.succ_ne_zero _)) (fun _ => rfl)
      refine ⟨?_, rest.2⟩
      intro after same
      have returns := rest.1 after same
      refine ⟨returns.status, ?_⟩
      intro good target
      rw [returns.targets good, near_cons_iff, ← next bad]
    · rw [if_pos bad]
      refine ⟨fun after impossible => ?_, fun ample => absurd (finds.ample ample fine) bad⟩
      cases impossible

structure BrowsePathResult.Translates (store : Nodestore) (path : BrowsePath)
    (result : BrowsePathResult) : Prop where
  targets : ∀ target, target ∈ result.targets ↔
    PathReaches store path.relativePath.elements 0 path.startingNode target
  status : result.statusCode = badNoMatch ↔
    ∀ target, ¬PathReaches store path.relativePath.elements 0 path.startingNode target

def BrowsePath.StaysHere (store : Nodestore) (path : BrowsePath) : Prop :=
  ∀ target, PathReaches store path.relativePath.elements 0 path.startingNode target →
    target.targetId.serverIndex = 0

theorem PathWalk.result_good (fine : walk.statusCode = good) :
    walk.result.targets = walk.targets ∧ walk.result.statusCode ≠ badOutOfMemory ∧
      (walk.result.statusCode = badNoMatch ↔ walk.targets = []) := by
  have noMatch : badNoMatch ≠ good := by decide
  by_cases none : walk.targets = []
  · have same : walk.result = ⟨badNoMatch, []⟩ := by simp [PathWalk.result, none, fine, noMatch]
    rw [same]
    exact ⟨none.symm, by decide, iff_of_true rfl none⟩
  · have same : walk.result = ⟨good, walk.targets⟩ := by simp [PathWalk.result, none, fine]
    have fine : good ≠ badOutOfMemory := by decide
    rw [same]
    exact ⟨rfl, fine, iff_of_false noMatch.symm none⟩

theorem PathWalk.result_outOfMemory (missing : walk.statusCode = badOutOfMemory) :
    walk.result.statusCode = badOutOfMemory := by
  have bad : badOutOfMemory ≠ good := by decide
  simp [PathWalk.result, missing, bad]

section Operation

variable {path : BrowsePath}

section

variable (start : (store.getNode path.startingNode).isSome)
  (nonempty : path.relativePath.elements ≠ [])
  (named : ∀ elem ∈ path.relativePath.elements, qualifiedNameIsNull elem.targetName = false)
include start nonempty named

theorem translateBrowsePathToNodeIds_walks (memory : Nat → Bool) :
    (∀ result, translateBrowsePathToNodeIds store memory path = some result →
      result.statusCode ≠ badOutOfMemory → ∃ walk, result = walk.result ∧
        PathWalk.Returns store path.relativePath.elements 0 none [path.startingNode] walk) ∧
    ((∀ n, memory n = true) → ∃ walk : PathWalk, walk.statusCode = good ∧
      translateBrowsePathToNodeIds store memory path = some walk.result) := by
  have several : ¬ path.relativePath.elements.length ≤ 0 := by
    simpa using nonempty
  have names : ¬ path.relativePath.elements.any (qualifiedNameIsNull ·.targetName) = true := by
    rw [any_eq_true]
    rintro ⟨elem, member, null⟩
    rw [named elem member] at null
    cases null
  have returns := @walkBrowsePath_returns store memory path.relativePath.elements 0 none
    [path.startingNode] 10 ⟨good, [], 10, [], 10, 4⟩
    ⟨rfl, by decide, by decide, by decide⟩ rfl rfl (by decide) (by simpa using start)
    (fun empty => absurd empty nonempty)
  rw [translateBrowsePathToNodeIds, operationTranslateBrowsePathToNodeIds]
  rw [if_neg several, if_neg names]
  constructor
  · intro result translates enough
    split at translates
    · cases translates
      exact absurd rfl enough
    · obtain ⟨walk, walks, same⟩ := Option.bind_eq_some_iff.mp translates
      cases same
      exact ⟨walk, rfl, returns.1 walk walks⟩
  · intro ample
    obtain ⟨walk, walks, fine⟩ := returns.2 ample
    refine ⟨walk, fine, ?_⟩
    rw [if_neg (by simp [ample]), walks]
    rfl

theorem translateBrowsePathToNodeIds_near {result : BrowsePathResult}
    (translates : translateBrowsePathToNodeIds store memory path = some result)
    (enough : result.statusCode ≠ badOutOfMemory) :
    (∀ target, target ∈ result.targets ↔ target.targetId.serverIndex = 0 ∧
      PathReaches store path.relativePath.elements 0 path.startingNode target) ∧
    (result.statusCode = badNoMatch ↔ result.targets = []) := by
  obtain ⟨walk, rfl, returns⟩ :=
    (translateBrowsePathToNodeIds_walks start nonempty named memory).1 result translates enough
  rcases returns.status with fine | missing
  · obtain ⟨same, -, status⟩ := PathWalk.result_good fine
    have targets := returns.targets fine
    simp only [mem_singleton, exists_eq_left, Option.mem_def, reduceCtorEq, false_imp_iff,
      implies_true, true_and] at targets
    rw [same]
    exact ⟨targets, status⟩
  · exact absurd (PathWalk.result_outOfMemory missing) enough

end

end Operation

/-- A path is translated as it should be if and only if no reference that it takes leads to another
server. A result that is not for want of memory is there whenever there is enough of it. -/
theorem translateBrowsePath_iff (store : Nodestore) (path : BrowsePath)
    (start : (store.getNode path.startingNode).isSome)
    (nonempty : path.relativePath.elements ≠ [])
    (named : ∀ elem ∈ path.relativePath.elements, qualifiedNameIsNull elem.targetName = false) :
    (∀ memory result, translateBrowsePathToNodeIds store memory path = some result →
      result.statusCode ≠ badOutOfMemory →
      (result.Translates store path ↔ path.StaysHere store)) ∧
    ∃ result, translateBrowsePathToNodeIds store (fun _ => true) path = some result ∧
      result.statusCode ≠ badOutOfMemory := by
  constructor
  · intro memory result translates enough
    obtain ⟨targets, status⟩ :=
      translateBrowsePathToNodeIds_near start nonempty named translates enough
    constructor
    · intro right target reaches
      exact ((targets target).mp ((right.targets target).mpr reaches)).1
    · intro stays
      have all : ∀ target, target ∈ result.targets ↔
          PathReaches store path.relativePath.elements 0 path.startingNode target := by
        intro target
        rw [targets]
        exact ⟨And.right, fun reaches => ⟨stays target reaches, reaches⟩⟩
      refine ⟨all, ?_⟩
      rw [status, eq_nil_iff_forall_not_mem]
      exact forall_congr' fun target => not_congr (all target)
  · obtain ⟨walk, fine, translates⟩ := (translateBrowsePathToNodeIds_walks start nonempty named
      fun _ => true).2 fun _ => rfl
    exact ⟨walk.result, translates, (PathWalk.result_good fine).2.1⟩

/-! A folder whose node is here or on another server, and two nodes below it -/

def pathNodeId (identifier : BitVec 32) : NodeId := ⟨1, .numeric identifier⟩

def pathName (name : UaString) : QualifiedName := ⟨1, name⟩

def distantNodes (serverIndex : BitVec 32) : Nodestore where
  nodes :=
    [ ⟨pathNodeId 1, .object, pathName (.alloc [1]), ⟨.null, .null⟩, false,
        [⟨hasComponentId, false, [⟨pathNodeId 2, .null, serverIndex⟩]⟩]⟩,
      ⟨pathNodeId 2, .object, pathName (.alloc [2]), ⟨.null, .null⟩, false,
        [⟨hasComponentId, false, [.ofNodeId (pathNodeId 3), .ofNodeId (pathNodeId 4)]⟩]⟩,
      ⟨pathNodeId 3, .variable, pathName (.alloc [3]), ⟨.null, .null⟩, false, []⟩,
      ⟨pathNodeId 4, .variable, pathName (.alloc [3]), ⟨.null, .null⟩, false, []⟩ ]

def secondPath : BrowsePath :=
  ⟨pathNodeId 1, [⟨.null, false, true, pathName (.alloc [2])⟩], by decide⟩

/-- The path leaves the server, and the result has no target. -/
theorem otherServer_missing : ¬∀ (store : Nodestore) (path : BrowsePath),
    (store.getNode path.startingNode).isSome → path.relativePath.elements ≠ [] →
    (∀ elem ∈ path.relativePath.elements, qualifiedNameIsNull elem.targetName = false) →
    ∀ memory result, translateBrowsePathToNodeIds store memory path = some result →
      result.statusCode ≠ badOutOfMemory → result.Translates store path := by
  intro always
  have result : translateBrowsePathToNodeIds (distantNodes 1) (fun _ => true) secondPath =
      some ⟨badNoMatch, []⟩ := by decide
  have right := always (distantNodes 1) secondPath (by decide) (by decide) (by decide) _ _ result
    (by decide)
  have reached : PathReaches (distantNodes 1) secondPath.relativePath.elements 0
      secondPath.startingNode ⟨⟨pathNodeId 2, .null, 1⟩, 0⟩ :=
    .leave ⟨rfl, _, _, rfl, mem_cons_self, rfl, mem_cons_self⟩ (by decide)
  exact right.status.mp rfl _ reached

def lowestPath : BrowsePath :=
  ⟨pathNodeId 1, [⟨.null, false, true, pathName (.alloc [2])⟩,
    ⟨.null, false, true, pathName (.alloc [3])⟩], by decide⟩

theorem distantNodes_near {elements : List RelativePathElement} {index : Nat} {source : NodeId}
    {target : BrowsePathTarget} (reaches : PathReaches (distantNodes 0) elements index source target) :
    target.targetId.serverIndex = 0 := by
  have listed : ∀ node ∈ (distantNodes 0).nodes, ∀ refs ∈ node.references,
      ∀ targetId ∈ refs.targetIds, targetId.serverIndex = 0 := by
    decide
  induction reaches with
  | here => rfl
  | step _ _ _ _ ih => exact ih
  | leave takes away =>
    obtain ⟨node, refs, found, member, -, inside⟩ := takes.reference
    exact absurd (listed node (mem_of_find?_eq_some found) refs member _ inside) away

/-- A path of two elements ends at the two nodes with its last name. -/
theorem lowestNodes_translate : BrowsePathResult.Translates (distantNodes 0) lowestPath
    ⟨good, [⟨.ofNodeId (pathNodeId 3), uint32Max⟩, ⟨.ofNodeId (pathNodeId 4), uint32Max⟩]⟩ := by
  have result : translateBrowsePathToNodeIds (distantNodes 0) (fun _ => true) lowestPath =
      some ⟨good, [⟨.ofNodeId (pathNodeId 3), uint32Max⟩,
        ⟨.ofNodeId (pathNodeId 4), uint32Max⟩]⟩ := by
    decide +kernel
  exact ((translateBrowsePath_iff (distantNodes 0) lowestPath (by decide) (by decide)
    (by decide)).1 _ _ result (by decide)).mpr fun _ reaches => distantNodes_near reaches

end OpcUa
