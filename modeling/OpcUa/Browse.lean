import OpcUa.BrowseCore
import OpcUa.Library.Paging

/-!
The pages of Browse and BrowseNext. Behind each page the place in the continuation point leads to
a reference that was not returned, and what follows from there is what is left.
-/

namespace OpcUa

open LittleEndian StatusCode Paging List

variable {cp : ContinuationPoint}

/-! The references that a description asks for -/

def describeTarget (store : Nodestore) (descr : BrowseDescription) (rk : NodeReferenceKind)
    (targetId : ExpandedNodeId) : Option ReferenceDescription :=
  (store.getNode targetId.nodeId).bind fun target =>
    if matchClassMask target descr.nodeClassMask then
      some (describeReference store target rk descr.resultMask)
    else none

def allReferences (server : BrowseServer) (descr : BrowseDescription) :
    List ReferenceDescription :=
  ((server.store.getNode descr.nodeId).elim [] Node.references).flatMap fun rk =>
    if followsKind server.store descr rk then
      rk.targetIds.filterMap (describeTarget server.store descr rk)
    else []

def referencesFrom (store : Nodestore) (descr : BrowseDescription) :
    List NodeReferenceKind → Nat → List ReferenceDescription
  | [], _ => []
  | rk :: kinds, targetIndex =>
    if !followsKind store descr rk then referencesFrom store descr kinds targetIndex
    else
      (rk.targetIds.drop targetIndex).filterMap (describeTarget store descr rk) ++
        referencesFrom store descr kinds 0

section Loops

variable {store : Nodestore} {memory : BrowseMemory} {descr : BrowseDescription} {maxrefs : Nat}
variable {rk : NodeReferenceKind} {before middle : List ReferenceDescription}

structure StopsAt (store : Nodestore) (descr : BrowseDescription) (rk : NodeReferenceKind)
    (targetIds : List ExpandedNodeId) (first : Nat) (before after : List ReferenceDescription)
    (maxrefs targetIndex : Nat) : Prop where
  passes : first ≤ targetIndex
  splits : before ++ targetIds.filterMap (describeTarget store descr rk) =
    after ++ (targetIds.drop (targetIndex - first)).filterMap (describeTarget store descr rk)
  fills : maxrefs ≤ after.length
  remains : (targetIds.drop (targetIndex - first)).filterMap (describeTarget store descr rk) ≠ []

def TargetsEnd.Holds (store : Nodestore) (descr : BrowseDescription) (rk : NodeReferenceKind)
    (targetIds : List ExpandedNodeId) (first : Nat) (before : List ReferenceDescription)
    (maxrefs : Nat) : TargetsEnd → Prop
  | .seen after _ => after = before ++ targetIds.filterMap (describeTarget store descr rk)
  | .full after targetIndex =>
    StopsAt store descr rk targetIds first before after maxrefs targetIndex
  | .failed status => status ≠ good

theorem TargetsEnd.Holds.cons {targetId : ExpandedNodeId} {targetIds : List ExpandedNodeId}
    {first : Nat} {outcome : TargetsEnd}
    (rest : outcome.Holds store descr rk targetIds (first + 1) middle maxrefs)
    (takes : before ++ (targetId :: targetIds).filterMap (describeTarget store descr rk) =
      middle ++ targetIds.filterMap (describeTarget store descr rk)) :
    outcome.Holds store descr rk (targetId :: targetIds) first before maxrefs := by
  cases outcome with
  | seen after refsSize => exact Eq.trans rest takes.symm
  | full after targetIndex =>
    have stops := rest
    obtain ⟨passes, splits, fills, remains⟩ := stops
    have distance : targetIndex - first = targetIndex - (first + 1) + 1 := by omega
    refine ⟨Nat.le_of_succ_le passes, ?_, fills, ?_⟩
    · rw [takes, splits, distance, drop_succ_cons]
    · rw [distance]
      exact remains
  | failed status => exact rest

theorem browseTargets_holds (rk : NodeReferenceKind) (targetIds : List ExpandedNodeId)
    (first : Nat) (before : List ReferenceDescription) (refsSize : Nat) :
    (browseTargets store memory descr maxrefs rk targetIds first before refsSize).Holds store descr
      rk targetIds first before maxrefs := by
  induction targetIds generalizing first before refsSize with
  | nil => exact (append_nil before).symm
  | cons targetId targetIds ih =>
    rw [browseTargets]
    cases found : store.getNode targetId.nodeId with
    | none =>
      refine (ih (first + 1) before refsSize).cons ?_
      rw [filterMap_cons_none (by rw [describeTarget, found]; rfl)]
    | some target =>
      dsimp only
      by_cases fits : matchClassMask target descr.nodeClassMask = true
      · have described : describeTarget store descr rk targetId =
            some (describeReference store target rk descr.resultMask) := by
          rw [describeTarget, found, Option.bind_some, if_pos fits]
        rw [fits, Bool.not_true, if_neg Bool.false_ne_true]
        split
        · rename_i full
          refine ⟨Nat.le_refl _, ?_, full, ?_⟩
          · rw [Nat.sub_self, drop_zero]
          · rw [Nat.sub_self, drop_zero, filterMap_cons_some described]
            exact cons_ne_nil _ _
        generalize (if before.length ≥ refsSize then min (refsSize * 2) maxrefs
          else refsSize) = grown
        split
        · have bad : badOutOfMemory ≠ good := by decide
          exact bad
        split
        · rename_i failed
          exact failed
        · refine (ih (first + 1) _ _).cons ?_
          rw [filterMap_cons_some described, append_assoc, singleton_append]
      · rw [Bool.not_eq_true] at fits
        rw [fits, Bool.not_false]
        refine (ih (first + 1) before refsSize).cons ?_
        rw [filterMap_cons_none]
        rw [describeTarget, found, Option.bind_some, fits, if_neg Bool.false_ne_true]

def KindsEnd.Holds (store : Nodestore) (descr : BrowseDescription) (kinds : List NodeReferenceKind)
    (firstKind firstTarget : Nat) (before : List ReferenceDescription) (maxrefs : Nat) :
    KindsEnd → Prop
  | .done after => after = before ++ referencesFrom store descr kinds firstTarget
  | .full after referenceKindIndex targetIndex => firstKind ≤ referenceKindIndex ∧
      before ++ referencesFrom store descr kinds firstTarget =
        after ++ referencesFrom store descr (kinds.drop (referenceKindIndex - firstKind))
          targetIndex ∧
      maxrefs ≤ after.length ∧
      referencesFrom store descr (kinds.drop (referenceKindIndex - firstKind)) targetIndex ≠ []
  | .failed status => status ≠ good

theorem KindsEnd.Holds.cons {kinds : List NodeReferenceKind} {firstKind firstTarget target : Nat}
    {outcome : KindsEnd}
    (rest : outcome.Holds store descr kinds (firstKind + 1) target middle maxrefs)
    (takes : before ++ referencesFrom store descr (rk :: kinds) firstTarget =
      middle ++ referencesFrom store descr kinds target) :
    outcome.Holds store descr (rk :: kinds) firstKind firstTarget before maxrefs := by
  cases outcome with
  | done after => exact Eq.trans rest takes.symm
  | full after referenceKindIndex targetIndex =>
    obtain ⟨passes, splits, fills, remains⟩ := rest
    have distance : referenceKindIndex - firstKind = referenceKindIndex - (firstKind + 1) + 1 := by
      omega
    refine ⟨Nat.le_of_succ_le passes, ?_, fills, ?_⟩
    · rw [takes, splits, distance, drop_succ_cons]
    · rw [distance]
      exact remains
  | failed status => exact rest

theorem browseKinds_holds (kinds : List NodeReferenceKind) (firstKind firstTarget : Nat)
    (before : List ReferenceDescription) (refsSize : Nat) :
    (browseKinds store memory descr maxrefs kinds firstKind firstTarget before refsSize).Holds store
      descr kinds firstKind firstTarget before maxrefs := by
  induction kinds generalizing firstKind firstTarget before refsSize with
  | nil => exact (append_nil before).symm
  | cons rk kinds ih =>
    rw [browseKinds]
    by_cases follows : followsKind store descr rk = true
    · have taken (targetIndex : Nat) : referencesFrom store descr (rk :: kinds) targetIndex =
          (rk.targetIds.drop targetIndex).filterMap (describeTarget store descr rk) ++
            referencesFrom store descr kinds 0 := by
        rw [referencesFrom, follows, Bool.not_true, if_neg Bool.false_ne_true]
      rw [follows, Bool.not_true, if_neg Bool.false_ne_true]
      have ends : (browseTargets store memory descr maxrefs rk (rk.targetIds.drop firstTarget)
          firstTarget before refsSize).Holds store descr rk (rk.targetIds.drop firstTarget)
            firstTarget before maxrefs := browseTargets_holds _ _ _ _ _
      generalize browseTargets store memory descr maxrefs rk (rk.targetIds.drop firstTarget)
        firstTarget before refsSize = outcome at ends
      cases outcome with
      | seen after refsSize =>
        refine (ih (firstKind + 1) 0 after refsSize).cons ?_
        rw [taken, ← append_assoc, ← show after = _ from ends]
      | full after targetIndex =>
        obtain ⟨passes, splits, fills, remains⟩ :=
          show StopsAt store descr rk _ _ _ _ _ _ from ends
        rw [drop_drop, Nat.add_sub_cancel' passes] at splits remains
        refine ⟨Nat.le_refl _, ?_, fills, ?_⟩
        · rw [Nat.sub_self, drop_zero, taken, taken, ← append_assoc, splits, append_assoc]
        · rw [Nat.sub_self, drop_zero, taken]
          exact append_ne_nil_of_left_ne_nil remains _
      | failed status => exact ends
    · rw [Bool.not_eq_true] at follows
      rw [follows, Bool.not_false, if_pos rfl]
      refine (ih (firstKind + 1) firstTarget before refsSize).cons ?_
      rw [referencesFrom, follows, Bool.not_false, if_pos rfl]

theorem browseTargets_ample (rk : NodeReferenceKind) (targetIds : List ExpandedNodeId)
    (first : Nat) (before : List ReferenceDescription) (refsSize : Nat) (status : StatusCode) :
    browseTargets store .ample descr maxrefs rk targetIds first before refsSize ≠
      .failed status := by
  induction targetIds generalizing first before refsSize with
  | nil => exact nofun
  | cons targetId targetIds ih =>
    rw [browseTargets]
    cases store.getNode targetId.nodeId with
    | none => exact ih _ _ _
    | some target =>
      dsimp only [BrowseMemory.ample]
      split
      · exact ih _ _ _
      split
      · exact nofun
      simp only [Bool.true_eq_false, and_false, if_false, ne_eq, not_true_eq_false]
      exact ih _ _ _

theorem browseKinds_ample (kinds : List NodeReferenceKind) (firstKind firstTarget : Nat)
    (before : List ReferenceDescription) (refsSize : Nat) (status : StatusCode) :
    browseKinds store .ample descr maxrefs kinds firstKind firstTarget before refsSize ≠
      .failed status := by
  induction kinds generalizing firstKind firstTarget before refsSize with
  | nil => exact nofun
  | cons rk kinds ih =>
    rw [browseKinds]
    split
    · exact ih _ _ _ _
    split
    · exact ih _ _ _ _
    · exact nofun
    · rename_i failed same
      exact absurd same (browseTargets_ample _ _ _ _ _ failed)

end Loops

def remaining (server : BrowseServer) (cp : ContinuationPoint) : List ReferenceDescription :=
  match server.store.getNode cp.browseDescription.nodeId with
  | none => []
  | some node =>
    referencesFrom server.store cp.browseDescription
      (node.references.drop cp.referenceKindIndex) cp.targetIndex

theorem referencesFrom_zero (store : Nodestore) (descr : BrowseDescription)
    (kinds : List NodeReferenceKind) :
    referencesFrom store descr kinds 0 = kinds.flatMap fun rk =>
      if followsKind store descr rk then rk.targetIds.filterMap (describeTarget store descr rk)
      else [] := by
  induction kinds with
  | nil => rfl
  | cons rk kinds ih =>
    rw [referencesFrom, flatMap_cons, ← ih]
    by_cases follows : followsKind store descr rk = true
    · simp only [follows, Bool.not_true, Bool.false_eq_true, if_false, if_true, drop_zero]
    · simp only [follows, Bool.not_false, if_true, Bool.false_eq_true, if_false, nil_append]

theorem remaining_firstPoint (server : BrowseServer) (maxrefs : BitVec 32)
    (descr : BrowseDescription) :
    remaining server (firstPoint maxrefs descr) = allReferences server descr := by
  simp only [remaining, allReferences, firstPoint]
  cases server.store.getNode descr.nodeId with
  | none => rfl
  | some node => exact referencesFrom_zero server.store descr node.references

theorem maxRefs_pos (server : BrowseServer) (maxReferences : BitVec 32) :
    0 < maxRefs server maxReferences := by
  have positive {number : BitVec 32} (nonzero : number ≠ 0) : 0 < number.toNat := by
    apply Nat.pos_of_ne_zero
    intro zero
    exact nonzero (BitVec.eq_of_toNat_eq zero)
  rw [maxRefs]
  split
  · split
    · rename_i limited
      exact positive limited
    · decide
  · rename_i asked
    split
    · rename_i limited
      exact positive limited.1
    · exact positive asked

inductive ContinuesBrowse (server : BrowseServer) (cp : ContinuationPoint) :
    Bool × ContinuationPoint × BrowseResult → Prop
  | done {references : List ReferenceDescription} (all : references = remaining server cp) :
      ContinuesBrowse server cp (true, cp, ⟨good, .null, references⟩)
  | full {references : List ReferenceDescription} {referenceKindIndex targetIndex : Nat}
      (splits : remaining server cp =
        references ++ remaining server { cp with referenceKindIndex, targetIndex })
      (fills : maxRefs server cp.maxReferences ≤ references.length)
      (remains : remaining server { cp with referenceKindIndex, targetIndex } ≠ []) :
      ContinuesBrowse server cp
        (false, { cp with referenceKindIndex, targetIndex }, ⟨good, .null, references⟩)
  | failed {done : Bool} {status : StatusCode} (bad : status ≠ good) :
      ContinuesBrowse server cp (done, cp, ⟨status, .null, []⟩)

theorem browseWithContinuation_continues (server : BrowseServer) (memory : BrowseMemory)
    (cp : ContinuationPoint) : ContinuesBrowse server cp (browseWithContinuation server memory cp) := by
  rw [browseWithContinuation]
  split
  · exact .failed (by decide)
  split
  · exact .failed (by decide)
  cases found : server.store.getNode cp.browseDescription.nodeId with
  | none => exact .failed (by decide)
  | some node =>
    have left (referenceKindIndex targetIndex : Nat) :
        remaining server { cp with referenceKindIndex, targetIndex } =
          referencesFrom server.store cp.browseDescription
            (node.references.drop referenceKindIndex) targetIndex := by
      simp only [remaining, found]
    have start := left cp.referenceKindIndex cp.targetIndex
    dsimp only
    rw [browseReferences]
    split
    · rename_i empty
      refine .done ?_
      rw [start, length_eq_zero_iff.mp empty, drop_nil, referencesFrom]
    split
    · exact .failed (by decide)
    have ends : (browseKinds server.store memory cp.browseDescription
        (maxRefs server cp.maxReferences) (node.references.drop cp.referenceKindIndex)
        cp.referenceKindIndex cp.targetIndex [] 2).Holds server.store cp.browseDescription
          (node.references.drop cp.referenceKindIndex) cp.referenceKindIndex cp.targetIndex []
          (maxRefs server cp.maxReferences) := browseKinds_holds _ _ _ _ _
    generalize browseKinds server.store memory cp.browseDescription
      (maxRefs server cp.maxReferences) (node.references.drop cp.referenceKindIndex)
      cp.referenceKindIndex cp.targetIndex [] 2 = outcome at ends
    cases outcome with
    | done references =>
      refine .done ?_
      rw [start]
      exact ends
    | full references referenceKindIndex targetIndex =>
      obtain ⟨passes, splits, fills, remains⟩ := ends
      rw [drop_drop, Nat.add_sub_cancel' passes] at splits remains
      refine .full ?_ fills ?_
      · rw [start, left]
        exact splits
      · rw [left]
        exact remains
    | failed status => exact .failed ends

structure Browsable (server : BrowseServer) (descr : BrowseDescription) : Prop where
  direction : descr.browseDirection = 2 ∨ descr.browseDirection = 0 ∨ descr.browseDirection = 1
  referenceType : nodeIdIsNull descr.referenceTypeId = true ∨
    ∃ type, server.store.getNode descr.referenceTypeId = some type ∧ type.nodeClass = .referenceType
  node : ∃ node, server.store.getNode descr.nodeId = some node

theorem Browsable.continues {server : BrowseServer}
    (browsable : Browsable server cp.browseDescription) :
    (browseWithContinuation server .ample cp).2.2.statusCode = good := by
  obtain ⟨direction, referenceType, node, found⟩ := browsable
  rw [browseWithContinuation]
  split
  · rename_i invalid
    rcases direction with both | forward | inverse
    · exact absurd both invalid.1
    · exact absurd forward invalid.2.1
    · exact absurd inverse invalid.2.2
  split
  · rename_i invalid
    rw [Bool.and_eq_true] at invalid
    rcases referenceType with null | ⟨type, stored, right⟩
    · rw [null] at invalid
      cases invalid.1
    · rw [stored, Option.all_some, right] at invalid
      exact absurd invalid.2 (by decide)
  rw [found]
  dsimp only
  rw [browseReferences]
  split
  · rfl
  split
  · rename_i short
    cases short
  split
  · rfl
  · rfl
  · rename_i failed same
    exact absurd same (browseKinds_ample _ _ _ _ _ failed)

/-! Continuation points of a session -/

def pointAt (identifier : UaString) (session : BrowseSession) : Option ContinuationPoint :=
  session.continuationPoints.find? fun cp => stringEqual cp.identifier identifier

theorem find_replaceCp {changed : ContinuationPoint} {identifier : UaString}
    {points : List ContinuationPoint} (named : stringEqual changed.identifier identifier = true)
    (found : points.find? (fun cp => stringEqual cp.identifier identifier) = some cp) :
    (replaceCp changed identifier points).find? (fun cp => stringEqual cp.identifier identifier) =
      some changed := by
  induction points with
  | nil => cases found
  | cons first rest ih =>
    rw [replaceCp]
    split
    · simp only [find?_cons, named]
    · rename_i other
      simp only [find?_cons, other] at found ⊢
      exact ih found

theorem memory_length (guid : Guid) : guid.memory.length = 16 := by
  simp [Guid.memory]

def NextPage (server : BrowseServer) (identifier : UaString) (session : BrowseSession)
    (references : List ReferenceDescription) (next : Option BrowseSession) : Prop :=
  ∃ memory result after,
    operationBrowseNext server memory session false identifier = (result, after) ∧
      result.statusCode = good ∧ result.references = references ∧
      next = if result.continuationPoint.length = 0 then none else some after

def Waits (server : BrowseServer) (descr : BrowseDescription) (identifier : UaString)
    (session : BrowseSession) : Prop :=
  ∃ cp, pointAt identifier session = some cp ∧ cp.browseDescription = descr ∧
    remaining server cp ≠ []

def leftAt (server : BrowseServer) (identifier : UaString) (session : BrowseSession) :
    List ReferenceDescription :=
  (pointAt identifier session).elim [] (remaining server)

section Sessions

variable {server : BrowseServer} {descr : BrowseDescription} {identifier : UaString}
variable {session : BrowseSession} {cp : ContinuationPoint}

section

variable (found : pointAt identifier session = some cp)
include found

theorem leftAt_of_pointAt : leftAt server identifier session = remaining server cp := by
  rw [leftAt, found, Option.elim_some]

theorem pointAt_named : stringEqual cp.identifier identifier = true := by
  simpa using find?_some found

theorem pointAt_length : cp.identifier.length = identifier.length := by
  have equal := pointAt_named found
  rw [stringEqual, beq_iff_eq] at equal
  rw [UaString.length, UaString.length, equal]

end

theorem nextPage_cases {references : List ReferenceDescription} {next : Option BrowseSession}
    (named : identifier.length ≠ 0) (found : pointAt identifier session = some cp)
    (answered : NextPage server identifier session references next) :
    next = none ∧ references = remaining server cp ∨
      ∃ after changed, next = some after ∧ pointAt identifier after = some changed ∧
        changed.browseDescription = cp.browseDescription ∧
        remaining server cp = references ++ remaining server changed ∧
        maxRefs server cp.maxReferences ≤ references.length ∧ remaining server changed ≠ [] := by
  obtain ⟨memory, result, after, called, served, returned, follows⟩ := answered
  have continues := browseWithContinuation_continues server memory cp
  simp only [operationBrowseNext, show session.continuationPoints.find? _ = some cp from found,
    Bool.false_eq_true, if_false] at called
  generalize browseWithContinuation server memory cp = outcome at called continues
  cases continues with
  | done all =>
    obtain ⟨rfl, -⟩ := called
    left
    exact ⟨follows, returned.symm.trans all⟩
  | full splits fills remains =>
    simp only [Bool.false_eq_true, if_false] at called
    split at called
    · obtain ⟨rfl, rfl⟩ := called
      have equal := pointAt_named found
      have present : cp.identifier.length ≠ 0 := by
        rw [pointAt_length found]
        exact named
      right
      rw [if_neg present] at follows
      subst returned
      refine ⟨_, _, follows, find_replaceCp ?_ found, rfl, splits, fills, remains⟩
      exact equal
    · rename_i failed
      obtain ⟨rfl, -⟩ := called
      exact absurd served failed
  | @failed done status bad =>
    exfalso
    cases done with
    | true =>
      obtain ⟨rfl, -⟩ := called
      exact bad served
    | false =>
      simp only [Bool.false_eq_true, if_false] at called
      split at called
      · obtain ⟨rfl, -⟩ := called
        exact bad served
      · rename_i failed
        obtain ⟨rfl, -⟩ := called
        exact failed served

theorem nextPage_splits (named : identifier.length ≠ 0) :
    Splits (NextPage server identifier) (Waits server descr identifier)
      (leftAt server identifier) where
  ends := by
    rintro session references ⟨cp, found, -, -⟩ answered
    rw [leftAt_of_pointAt found]
    rcases nextPage_cases named found answered with ⟨-, all⟩ | ⟨after, changed, wrong, -⟩
    · exact all.symm
    · cases wrong
  goes := by
    rintro session references next ⟨cp, found, description, -⟩ answered
    rcases nextPage_cases named found answered with
      ⟨wrong, -⟩ | ⟨after, changed, same, stored, copied, splits, fills, remains⟩
    · cases wrong
    · obtain rfl := Option.some.inj same
      rw [leftAt_of_pointAt found, leftAt_of_pointAt stored]
      refine ⟨splits, ⟨changed, stored, copied.trans description, remains⟩, ?_⟩
      have positive := maxRefs_pos server cp.maxReferences
      exact ne_nil_of_length_pos (Nat.lt_of_lt_of_le positive fills)

theorem nextPage_answers (browsable : Browsable server descr)
    (waits : Waits server descr identifier session) :
    ∃ references next, NextPage server identifier session references next := by
  obtain ⟨cp, found, description, -⟩ := waits
  rw [← description] at browsable
  have served := browsable.continues
  refine ⟨_, _, .ample, _, _, rfl, ?_, rfl, rfl⟩
  simp only [show session.continuationPoints.find? _ = some cp from found, Bool.false_eq_true,
    if_false]
  generalize browseWithContinuation server .ample cp = outcome at served
  obtain ⟨done, changed, result⟩ := outcome
  split
  · exact served
  · exact served

end Sessions

/-! Browse with its pages -/

def BrowsePages (server : BrowseServer) (session : BrowseSession) (maxrefs : BitVec 32)
    (descr : BrowseDescription) (pages : List (List ReferenceDescription)) : Prop :=
  ∃ memory random result after,
    operationBrowse server memory random session maxrefs descr = (result, after) ∧
      result.statusCode = good ∧
      if result.continuationPoint.length = 0 then pages = [result.references]
      else ∃ rest, Pages (NextPage server result.continuationPoint) after rest ∧
        pages = result.references :: rest

/-- The references of a Browse that nothing limits: neither the client nor the server gives a
limit, and no continuation point is returned. -/
def UnlimitedBrowse (server : BrowseServer) (descr : BrowseDescription)
    (references : List ReferenceDescription) : Prop :=
  ∃ memory random session result after,
    operationBrowse { server with maxReferencesPerNode := 0 } memory random session 0 descr =
        (result, after) ∧
      result.statusCode = good ∧ result.continuationPoint.length = 0 ∧
      result.references = references

section Pages

variable {server : BrowseServer} {descr : BrowseDescription}
variable {session : BrowseSession}
variable {maxrefs : BitVec 32}

theorem operationBrowse_cases {memory : BrowseMemory} {random : Guid} {after : BrowseSession}
    {result : BrowseResult}
    (called : operationBrowse server memory random session maxrefs descr = (result, after))
    (served : result.statusCode = good) :
    result.continuationPoint.length = 0 ∧ result.references = allReferences server descr ∨
      result.continuationPoint.length ≠ 0 ∧ Waits server descr result.continuationPoint after ∧
        allReferences server descr =
          result.references ++ leftAt server result.continuationPoint after ∧
        maxRefs server maxrefs ≤ result.references.length := by
  have continues := browseWithContinuation_continues server memory (firstPoint maxrefs descr)
  rw [operationBrowse] at called
  generalize browseWithContinuation server memory (firstPoint maxrefs descr) = outcome at *
  cases continues with
  | done all =>
    obtain ⟨rfl, -⟩ := called
    left
    rw [remaining_firstPoint] at all
    exact ⟨rfl, all⟩
  | full splits fills remains =>
    rw [remaining_firstPoint] at splits
    simp only [Bool.false_eq_true, ne_eq, not_true_eq_false, or_self, if_false] at called
    have wrong {status : StatusCode} (bad : status ≠ good)
        (failed : ({ BrowseResult.init with statusCode := status }, session) =
          (result, after)) : False := by
      obtain ⟨rfl, -⟩ := Prod.mk.inj failed
      exact bad served
    split at called
    · exact (wrong (by decide) called).elim
    split at called
    · rename_i bad
      exact (wrong bad called).elim
    split at called
    · exact (wrong (by decide) called).elim
    split at called
    · rename_i bad
      exact (wrong bad called).elim
    · obtain ⟨rfl, rfl⟩ := Prod.mk.inj called
      have named : stringEqual (.alloc random.memory) (.alloc random.memory) = true :=
        beq_self_eq_true _
      right
      refine ⟨?_, ⟨_, find?_cons_of_pos named, rfl, remains⟩, ?_, fills⟩
      · change random.memory.length ≠ 0
        rw [memory_length]
        decide
      · refine splits.trans ?_
        simp only [leftAt, pointAt, find?_cons, named, Option.elim_some]
        rfl
  | @failed done status bad =>
    simp only [ne_eq, bad, not_false_eq_true, or_true, if_true, Prod.mk.injEq] at called
    obtain ⟨rfl, -⟩ := called
    exact absurd served bad

theorem Browsable.browse (browsable : Browsable server descr) (random : Guid)
    (available : session.availableContinuationPoints ≠ 0) (maxrefs : BitVec 32) :
    (operationBrowse server .ample random session maxrefs descr).1.statusCode = good := by
  have served : (browseWithContinuation server .ample (firstPoint maxrefs descr)).2.2.statusCode =
      good := Browsable.continues browsable
  rw [operationBrowse]
  generalize browseWithContinuation server .ample (firstPoint maxrefs descr) = outcome at *
  obtain ⟨done, cp, result⟩ := outcome
  dsimp only at served ⊢
  split
  · exact served
  · simp only [available, BrowseMemory.ample, Bool.true_eq_false, or_self, ne_eq, not_true_eq_false,
      Bool.not_true, Bool.false_eq_true, if_false]
    exact served

theorem unlimited_eq {references : List ReferenceDescription}
    (unlimited : UnlimitedBrowse server descr references) :
    references = allReferences server descr := by
  obtain ⟨memory, random, session, result, after, called, served, complete, rfl⟩ := unlimited
  rcases operationBrowse_cases called served with ⟨-, all⟩ | ⟨incomplete, -⟩
  · exact all
  · exact absurd complete incomplete

theorem unlimited_all (browsable : Browsable server descr)
    (small : (allReferences server descr).length ≤ int32Max) :
    UnlimitedBrowse server descr (allReferences server descr) := by
  let unbounded : BrowseServer := { server with maxReferencesPerNode := 0 }
  let session : BrowseSession := ⟨1, []⟩
  have admitted : Browsable unbounded descr :=
    ⟨browsable.direction, browsable.referenceType, browsable.node⟩
  have available : session.availableContinuationPoints ≠ 0 := by decide
  have served := admitted.browse ⟨0, 0, 0, 0⟩ available 0
  cases called : operationBrowse unbounded .ample ⟨0, 0, 0, 0⟩ session 0 descr with
  | mk result after =>
    rw [called] at served
    rcases operationBrowse_cases called served with
      ⟨complete, all⟩ | ⟨incomplete, waits, splits, fills⟩
    · exact ⟨_, _, _, _, _, called, served, complete, all⟩
    · exfalso
      have limit : maxRefs unbounded 0 = int32Max := rfl
      obtain ⟨cp, found, -, remains⟩ := waits
      rw [leftAt_of_pointAt found] at splits
      have more := length_pos_iff.mpr remains
      have length := congrArg List.length splits
      rw [length_append] at length
      change (allReferences server descr).length = _ at length
      omega

theorem BrowsePages.flatten {pages : List (List ReferenceDescription)}
    (run : BrowsePages server session maxrefs descr pages) :
    pages.flatten = allReferences server descr ∧ ∀ page ∈ pages.tail, page ≠ [] := by
  obtain ⟨memory, random, result, after, called, served, follows⟩ := run
  rcases operationBrowse_cases called served with ⟨complete, all⟩ | ⟨incomplete, waits, splits, -⟩
  · rw [if_pos complete] at follows
    rw [follows, flatten_singleton, tail_cons]
    exact ⟨all, nofun⟩
  · rw [if_neg incomplete] at follows
    obtain ⟨rest, next, rfl⟩ := follows
    have pager : Splits (NextPage server result.continuationPoint)
        (Waits server descr result.continuationPoint) _ := nextPage_splits incomplete
    rw [flatten_cons, pager.flatten waits next, splits]
    refine ⟨rfl, pager.pages_ne_nil ?_ waits next⟩
    rintro session ⟨cp, found, -, remains⟩
    rw [leftAt_of_pointAt found]
    exact remains

theorem exists_browsePages (browsable : Browsable server descr)
    (available : session.availableContinuationPoints ≠ 0) (maxrefs : BitVec 32) :
    ∃ pages, BrowsePages server session maxrefs descr pages := by
  have served := browsable.browse ⟨0, 0, 0, 0⟩ available maxrefs
  cases called : operationBrowse server .ample ⟨0, 0, 0, 0⟩ session maxrefs descr with
  | mk result after =>
    rw [called] at served
    rcases operationBrowse_cases called served with ⟨complete, -⟩ | ⟨incomplete, waits, -⟩
    · refine ⟨[result.references], _, _, _, _, called, served, ?_⟩
      rw [if_pos complete]
    · obtain ⟨rest, run⟩ := (nextPage_splits incomplete).exists_pages
        (fun session => nextPage_answers browsable) waits
      refine ⟨result.references :: rest, _, _, _, _, called, served, ?_⟩
      rw [if_neg incomplete]
      exact ⟨rest, run, rfl⟩

end Pages

/-- The pages of Browse put together are the references that the description asks for, and so are
those of a Browse that nothing limits. No page but the first is empty, and the pages come to an
end. -/
theorem browse_pages (server : BrowseServer) (session : BrowseSession) (maxrefs : BitVec 32)
    (descr : BrowseDescription) :
    (∀ pages, BrowsePages server session maxrefs descr pages →
      pages.flatten = allReferences server descr ∧ (∀ page ∈ pages.tail, page ≠ []) ∧
        ∀ references, UnlimitedBrowse server descr references → pages.flatten = references) ∧
    (Browsable server descr → session.availableContinuationPoints ≠ 0 →
      ∃ pages, BrowsePages server session maxrefs descr pages) ∧
    (Browsable server descr → (allReferences server descr).length ≤ int32Max →
      UnlimitedBrowse server descr (allReferences server descr)) := by
  refine ⟨?_, ?_, unlimited_all⟩
  · intro pages run
    obtain ⟨whole, filled⟩ := run.flatten
    refine ⟨whole, filled, ?_⟩
    intro references unlimited
    rw [unlimited_eq unlimited]
    exact whole
  · intro browsable available
    exact exists_browsePages browsable available maxrefs

def folderNode (identifier : BitVec 32) (references : List NodeReferenceKind) : Node :=
  ⟨⟨1, .numeric identifier⟩, .object, ⟨1, .null⟩, ⟨.null, .null⟩, false, references⟩

def folderServer : BrowseServer where
  store := ⟨[folderNode 1 [⟨hasComponentId, false, [.ofNodeId ⟨1, .numeric 2⟩,
      .ofNodeId ⟨1, .numeric 3⟩]⟩, ⟨hasSubtypeId, true, [.ofNodeId ⟨1, .numeric 2⟩]⟩,
      ⟨hasSubtypeId, false, [.ofNodeId ⟨1, .numeric 3⟩]⟩], folderNode 2 [], folderNode 3 []]⟩
  maxReferencesPerNode := 0

def folderDescription : BrowseDescription := ⟨⟨1, .numeric 1⟩, 0, .null, false, 0, 63⟩

theorem folderServer_browsable : Browsable folderServer folderDescription :=
  ⟨.inr (.inl rfl), .inl rfl, _, rfl⟩

theorem folderServer_pages : ∃ pages, BrowsePages folderServer ⟨1, []⟩ 2 folderDescription pages ∧
    pages.flatten = allReferences folderServer folderDescription ∧
    (allReferences folderServer folderDescription).length = 3 := by
  obtain ⟨whole, exists_pages, -⟩ := browse_pages folderServer ⟨1, []⟩ 2 folderDescription
  obtain ⟨pages, run⟩ := exists_pages folderServer_browsable (by decide)
  exact ⟨pages, run, (whole pages run).1, by decide⟩

end OpcUa
