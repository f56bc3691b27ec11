import OpcUa.NodeMap

/-!
Editors of nodes in the default nodestore. An editor takes a copy of a node, changes it and puts it
in the place of the original. The nodestore compares the address of the node that it has with the
one the copy was made from. The memory of a node that was removed can have a new node in it.
-/

namespace OpcUa

open NodeMap StatusCode List

/-- A node that is not in the map: a new one or a copy. The events of the map are counted when it is
made. -/
structure EditorCopy (Node : Type) where
  entry : NodeMapEntry Node
  taken : Nat
deriving DecidableEq

/-- The nodestore with the nodes outside of the map: those of editors, and those that were removed
while someone had a reference to them. -/
structure NodeEditing (Node : Type) where
  ns : NodeMap Node
  history : List (NodeMapEvent Node)
  copies : List (EditorCopy Node)
  references : List Nat
  deleted : List Nat
deriving DecidableEq

inductive EditAction (Node : Type) where
  | newNode (address : Nat) (nodeId : NodeId) (node : Node)
  | getNodeCopy (nodeId : NodeId) (address : Nat)
  | edit (address : Nat) (change : Node → Node)
  | deleteNode (address : Nat)
  | insertNode (address : Nat) (wantsId : Bool) (memory : NodeMapMemory)
  | replaceNode (address : Nat)
  | removeNode (nodeId : NodeId) (memory : NodeMapMemory)
  | getNode (nodeId : NodeId)
  | releaseNode (address : Nat)

def EditAction.allocated {Node : Type} : EditAction Node → Option Nat
  | .newNode address _ _ => some address
  | .getNodeCopy _ address => some address
  | _ => none

namespace NodeEditing

variable {Node : Type}

def new : NodeEditing Node := ⟨.new, [], [], [], []⟩

section

variable (state : NodeEditing Node) (address : Nat)

def copyAt : Option (EditorCopy Node) :=
  state.copies.find? fun copy => copy.entry.address = address

def without : List (EditorCopy Node) :=
  state.copies.filter fun copy => copy.entry.address ≠ address

def detach : NodeEditing Node :=
  if address ∈ state.references then { state with deleted := address :: state.deleted } else state

end

/-- `UA_NodeMap_getNodeCopy`, where `copyNode` stands for `UA_Node_copy`. -/
def getNodeCopy (copyNode : Node → Except StatusCode Node) (nodeId : NodeId) (address : Nat)
    (state : NodeEditing Node) : Except NodeMapFault (StatusCode × NodeEditing Node) :=
  match state.ns.getNode nodeId with
  | .error fault => .error fault
  | .ok none => .ok (badNodeIdUnknown, state)
  | .ok (some entry) =>
    match copyNode entry.node with
    | .error status => .ok (status, state)
    | .ok node =>
      let copy := ⟨⟨address, some entry.address, entry.nodeId, node⟩, state.history.length⟩
      .ok (good, { state with copies := copy :: state.copies })

/-- `UA_NodeMap_insertNode`. Only a node for which the map could not be made larger is not
released. -/
def insertNode (copy : EditorCopy Node) (wantsId : Bool) (memory : NodeMapMemory)
    (state : NodeEditing Node) : Except NodeMapFault (StatusCode × NodeEditing Node) :=
  match state.ns.insertNode memory copy.entry wantsId with
  | .error fault => .error fault
  | .ok (status, node, ns) =>
    if status = good then
      .ok (status, { state with
        ns, history := .stored node :: state.history
        copies := state.without copy.entry.address })
    else if status = badInternalError then .ok (status, { state with ns })
    else .ok (status, { state with ns, copies := state.without copy.entry.address })

def replaceNode (copy : EditorCopy Node) (state : NodeEditing Node) :
    Except NodeMapFault (StatusCode × NodeEditing Node) :=
  match state.ns.replaceNode copy.entry with
  | .error fault => .error fault
  | .ok (status, ns) =>
    if status = good then
      let state := { state with
        ns, history := .stored copy.entry :: state.history
        copies := state.without copy.entry.address }
      .ok (status, copy.entry.orig.elim state state.detach)
    -- a copy of a node that is not there any more is not released
    else if status = badNodeIdUnknown then .ok (status, { state with ns })
    else .ok (status, { state with ns, copies := state.without copy.entry.address })

def removeNode (nodeId : NodeId) (memory : NodeMapMemory) (state : NodeEditing Node) :
    Except NodeMapFault (StatusCode × NodeEditing Node) :=
  match state.ns.getNode nodeId, state.ns.removeNode memory nodeId with
  | .error fault, _ => .error fault
  | _, .error fault => .error fault
  | .ok entry, .ok (status, ns) =>
    if status = good then
      let state := { state with ns, history := .removed nodeId :: state.history }
      .ok (status, (entry.map NodeMapEntry.address).elim state state.detach)
    else .ok (status, { state with ns })

def getNode (nodeId : NodeId) (state : NodeEditing Node) :
    Except NodeMapFault (StatusCode × NodeEditing Node) :=
  match state.ns.getNode nodeId with
  | .error fault => .error fault
  | .ok none => .ok (badNodeIdUnknown, state)
  | .ok (some entry) => .ok (good, { state with references := entry.address :: state.references })

def releaseNode (address : Nat) (state : NodeEditing Node) : NodeEditing Node :=
  let references := state.references.erase address
  { state with
    references
    deleted := if address ∈ references then state.deleted else state.deleted.erase address }

def perform (copyNode : Node → Except StatusCode Node) (state : NodeEditing Node) :
    EditAction Node → Except NodeMapFault (StatusCode × NodeEditing Node)
  | .newNode address nodeId node =>
    let copy := ⟨⟨address, none, nodeId, node⟩, state.history.length⟩
    .ok (good, { state with copies := copy :: state.copies })
  | .getNodeCopy nodeId address => state.getNodeCopy copyNode nodeId address
  | .edit address change => .ok (good, { state with copies := state.copies.map fun copy =>
    if copy.entry.address = address then
      { copy with entry := { copy.entry with node := change copy.entry.node } } else copy })
  | .deleteNode address => .ok (good, { state with copies := state.without address })
  | .insertNode address wantsId memory =>
    match state.copyAt address with
    | none => .ok (badInternalError, state)
    | some copy => state.insertNode copy wantsId memory
  | .replaceNode address =>
    match state.copyAt address with
    | none => .ok (badInternalError, state)
    | some copy => state.replaceNode copy
  | .removeNode nodeId memory => state.removeNode nodeId memory
  | .getNode nodeId => state.getNode nodeId
  | .releaseNode address => .ok (good, state.releaseNode address)

def Live (state : NodeEditing Node) (address : Nat) : Prop :=
  (∃ nodeId entry, state.ns.getNode nodeId = .ok (some entry) ∧ entry.address = address) ∨
    (∃ copy ∈ state.copies, copy.entry.address = address) ∨ address ∈ state.deleted

def Allocates (state : NodeEditing Node) (action : EditAction Node) : Prop :=
  ∀ address, action.allocated = some address → ¬state.Live address

inductive Reached (copyNode : Node → Except StatusCode Node)
    (Allowed : NodeEditing Node → EditAction Node → NodeEditing Node → Prop) :
    NodeEditing Node → Prop
  | new : Reached copyNode Allowed .new
  | step {state after : NodeEditing Node} {status : StatusCode} {action : EditAction Node}
      (reached : Reached copyNode Allowed state) (allocates : state.Allocates action)
      (performs : state.perform copyNode action = .ok (status, after))
      (allowed : Allowed state action after) : Reached copyNode Allowed after

end NodeEditing

def NodeMapEvent.nodeId {Node : Type} : NodeMapEvent Node → NodeId
  | .stored node => node.nodeId
  | .removed nodeId => nodeId

def Touched {Node : Type} (history : List (NodeMapEvent Node)) (taken : Nat) (nodeId : NodeId) :
    Prop :=
  ∃ event ∈ history.take (history.length - taken), nodeIdEqual event.nodeId nodeId = true

section Touched

variable {Node : Type} {history : List (NodeMapEvent Node)} {event : NodeMapEvent Node}
  {nodeId : NodeId} {taken : Nat}

theorem not_touched_now : ¬Touched history history.length nodeId := by
  rintro ⟨event, member, -⟩
  rw [Nat.sub_self] at member
  cases member

theorem touched_cons (known : taken ≤ history.length) : Touched (event :: history) taken nodeId ↔
    nodeIdEqual event.nodeId nodeId = true ∨ Touched history taken nodeId := by
  have longer : (event :: history).length - taken = history.length - taken + 1 := by
    rw [length_cons]
    omega
  simp only [Touched, longer, take_succ_cons, mem_cons, exists_eq_or_imp]

theorem lookup_cons_other (other : nodeIdEqual event.nodeId nodeId = false) :
    lookup (event :: history) nodeId = lookup history nodeId := by
  cases event with
  | stored node =>
    rw [lookup, if_neg]
    rw [Bool.not_eq_true]
    exact other
  | removed removed =>
    rw [lookup, if_neg]
    rw [Bool.not_eq_true]
    exact other

end Touched

/-! What a step changes -/

structure EditorCopy.Like {Node : Type} (copy other : EditorCopy Node) : Prop where
  address : copy.entry.address = other.entry.address
  orig : copy.entry.orig = other.entry.orig
  nodeId : copy.entry.nodeId = other.entry.nodeId
  taken : copy.taken = other.taken

theorem EditorCopy.like_refl {Node : Type} (copy : EditorCopy Node) : copy.Like copy :=
  ⟨rfl, rfl, rfl, rfl⟩

namespace NodeEditing

variable {Node : Type} {state after : NodeEditing Node} {copyNode : Node → Except StatusCode Node}
  {action : EditAction Node} {status : StatusCode}
variable {history : List (NodeMapEvent Node)} {nodeId : NodeId} {address : Nat}
  {copy : EditorCopy Node}

inductive Changes (state : NodeEditing Node) (action : EditAction Node) (after : NodeEditing Node) :
    Prop
  | kept (represents : Represents after.ns state.history) (history : after.history = state.history)
      (copies : ∀ copy ∈ after.copies, ∃ former ∈ state.copies, copy.Like former)
  | made {copy : EditorCopy Node} (allocated : action.allocated = some copy.entry.address)
      (ns : after.ns = state.ns) (history : after.history = state.history)
      (copies : after.copies = copy :: state.copies) (taken : copy.taken = state.history.length)
      (source : ∀ orig, copy.entry.orig = some orig → ∃ entry,
        lookup state.history copy.entry.nodeId = some entry ∧ entry.address = orig)
  | stored {copy : EditorCopy Node} {entry : NodeMapEntry Node} (member : copy ∈ state.copies)
      (address : entry.address = copy.entry.address)
      (represents : Represents after.ns (.stored entry :: state.history))
      (history : after.history = .stored entry :: state.history)
      (copies : after.copies = state.without copy.entry.address)
  | removed {nodeId : NodeId} (represents : Represents after.ns (.removed nodeId :: state.history))
      (history : after.history = .removed nodeId :: state.history)
      (copies : after.copies = state.copies)

theorem detach_same (state : NodeEditing Node) (address : Nat) :
    (state.detach address).ns = state.ns ∧ (state.detach address).history = state.history ∧
      (state.detach address).copies = state.copies := by
  rw [detach]
  split
  · exact ⟨rfl, rfl, rfl⟩
  · exact ⟨rfl, rfl, rfl⟩

theorem detached_same (state : NodeEditing Node) (address : Option Nat) :
    (address.elim state state.detach).ns = state.ns ∧
      (address.elim state state.detach).history = state.history ∧
      (address.elim state state.detach).copies = state.copies := by
  cases address with
  | none => exact ⟨rfl, rfl, rfl⟩
  | some address => exact detach_same state address

theorem lookup_self {ns : NodeMap Node} (represents : Represents ns history)
    {entry : NodeMapEntry Node} (found : lookup history nodeId = some entry) :
    nodeIdEqual entry.nodeId nodeId = true ∧ lookup history entry.nodeId = some entry := by
  obtain ⟨slot, here, same⟩ := (represents.agrees nodeId entry).mpr found
  exact ⟨same, (represents.agrees entry.nodeId entry).mp ⟨slot, here, nodeIdEqual_refl _⟩⟩

theorem Changes.unchanged (represents : Represents state.ns state.history) :
    state.Changes action state :=
  .kept represents rfl fun copy member => ⟨copy, member, copy.like_refl⟩

theorem without_subset (state : NodeEditing Node) (address : Nat) :
    ∀ copy ∈ state.without address, ∃ former ∈ state.copies, copy.Like former :=
  fun copy member => ⟨copy, mem_of_mem_filter member, copy.like_refl⟩

section

variable (represents : Represents state.ns state.history)
include represents

theorem getNodeCopy_changes
    (performs : state.getNodeCopy copyNode nodeId address = .ok (status, after)) :
    state.Changes (.getNodeCopy nodeId address) after := by
  rw [getNodeCopy, getNode_spec represents] at performs
  cases found : lookup state.history nodeId with
  | none =>
    rw [found] at performs
    cases performs
    exact .unchanged represents
  | some entry =>
    rw [found] at performs
    dsimp only at performs
    split at performs
    · cases performs
      exact .unchanged represents
    · cases performs
      refine .made rfl rfl rfl rfl rfl ?_
      intro orig same
      exact ⟨entry, (lookup_self represents found).2, Option.some.inj same⟩

theorem insertNode_changes (member : copy ∈ state.copies) {wantsId : Bool} {memory : NodeMapMemory}
    (performs : state.insertNode copy wantsId memory = .ok (status, after)) :
    state.Changes action after := by
  have outcome := insertNode_outcome represents memory copy.entry wantsId
  rw [insertNode] at performs
  generalize state.ns.insertNode memory copy.entry wantsId = result at performs outcome
  cases result with
  | error fault => cases performs
  | ok result =>
    obtain ⟨inserted, node, ns⟩ := result
    dsimp only at performs
    split at performs
    · rename_i succeeded
      cases performs
      refine .stored member ?_ (outcome.stored succeeded) rfl rfl
      by_cases zero : copy.entry.nodeId.identifier = .numeric 0
      · obtain ⟨identifier, rfl⟩ := outcome.renames succeeded zero
        rfl
      · exact congrArg NodeMapEntry.address (outcome.same succeeded zero)
    · rename_i failed
      split at performs
      · cases performs
        exact .kept (outcome.unstored failed) rfl fun copy member =>
          ⟨copy, member, copy.like_refl⟩
      · cases performs
        exact .kept (outcome.unstored failed) rfl (without_subset state _)

theorem replaceNode_changes (member : copy ∈ state.copies)
    (performs : state.replaceNode copy = .ok (status, after)) : state.Changes action after := by
  obtain ⟨replaced, ns, runs, kept⟩ := replaceNode_outcome represents copy.entry
  rw [replaceNode, runs] at performs
  dsimp only at performs
  split at performs
  · rename_i succeeded
    rw [if_pos succeeded] at kept
    cases performs
    obtain ⟨ns, history, copies⟩ := detached_same { state with
      ns, history := .stored copy.entry :: state.history
      copies := state.without copy.entry.address } copy.entry.orig
    exact .stored member rfl (ns ▸ kept) history copies
  · rename_i failed
    rw [if_neg failed] at kept
    split at performs
    · cases performs
      exact .kept kept rfl fun copy member => ⟨copy, member, copy.like_refl⟩
    · cases performs
      exact .kept kept rfl (without_subset state _)

theorem removeNode_changes {memory : NodeMapMemory}
    (performs : state.removeNode nodeId memory = .ok (status, after)) :
    state.Changes action after := by
  have outcome := removeNode_outcome represents memory nodeId
  rw [removeNode, getNode_spec represents] at performs
  generalize state.ns.removeNode memory nodeId = result at performs outcome
  cases result with
  | error fault => cases performs
  | ok result =>
    obtain ⟨removed, ns⟩ := result
    rw [Outcome] at outcome
    dsimp only at performs outcome
    split at performs
    · rename_i succeeded
      rw [if_pos succeeded] at outcome
      cases performs
      obtain ⟨ns, history, copies⟩ := detached_same { state with
        ns, history := .removed nodeId :: state.history }
        ((lookup state.history nodeId).map NodeMapEntry.address)
      exact .removed (ns ▸ outcome) history copies
    · rename_i failed
      rw [if_neg failed] at outcome
      cases performs
      exact .kept outcome rfl fun copy member => ⟨copy, member, copy.like_refl⟩

end

theorem copyAt_mem (found : state.copyAt address = some copy) : copy ∈ state.copies :=
  mem_of_find?_eq_some found

theorem perform_changes (represents : Represents state.ns state.history)
    (performs : state.perform copyNode action = .ok (status, after)) :
    state.Changes action after := by
  cases action with
  | newNode address nodeId node =>
    cases performs
    refine .made rfl rfl rfl rfl rfl ?_
    intro orig impossible
    cases impossible
  | getNodeCopy nodeId address => exact getNodeCopy_changes represents performs
  | edit address change =>
    cases performs
    refine .kept represents rfl ?_
    intro copy member
    obtain ⟨former, present, rfl⟩ := mem_map.mp member
    refine ⟨former, present, ?_⟩
    split
    · exact ⟨rfl, rfl, rfl, rfl⟩
    · exact former.like_refl
  | deleteNode address =>
    cases performs
    exact .kept represents rfl (without_subset state address)
  | insertNode address wantsId memory =>
    rw [perform] at performs
    split at performs
    · cases performs
      exact .unchanged represents
    · rename_i found
      exact insertNode_changes represents (copyAt_mem found) performs
  | replaceNode address =>
    rw [perform] at performs
    split at performs
    · cases performs
      exact .unchanged represents
    · rename_i found
      exact replaceNode_changes represents (copyAt_mem found) performs
  | removeNode nodeId memory => exact removeNode_changes represents performs
  | getNode nodeId =>
    rw [perform, getNode, getNode_spec represents] at performs
    cases found : lookup state.history nodeId with
    | none =>
      rw [found] at performs
      cases performs
      exact .unchanged represents
    | some entry =>
      rw [found] at performs
      cases performs
      exact .kept represents rfl fun copy member => ⟨copy, member, copy.like_refl⟩
  | releaseNode address =>
    cases performs
    exact .kept represents rfl fun copy member => ⟨copy, member, copy.like_refl⟩

theorem Changes.represents (changes : state.Changes action after)
    (represents : Represents state.ns state.history) : Represents after.ns after.history := by
  cases changes with
  | kept kept history => exact history ▸ kept
  | made _ ns history => exact ns ▸ history ▸ represents
  | stored _ _ kept history => exact history ▸ kept
  | removed kept history => exact history ▸ kept

theorem Reached.represents {Allowed : NodeEditing Node → EditAction Node → NodeEditing Node → Prop}
    (reached : Reached copyNode Allowed state) : Represents state.ns state.history := by
  induction reached with
  | new => exact .new
  | step _ _ performs _ ih => exact (perform_changes ih performs).represents ih

/-- A replacement with the copy succeeds if and only if the node was not stored or removed since the
copy was made, and a replacement that fails leaves the map as it is. -/
def Detects (state : NodeEditing Node) : Prop :=
  ∀ copy ∈ state.copies, copy.entry.orig ≠ none → ∃ status ns,
    state.ns.replaceNode copy.entry = .ok (status, ns) ∧
      (status = good ↔ ¬Touched state.history copy.taken copy.entry.nodeId) ∧
      (status ≠ good → ns = state.ns)

def HasOriginal (history : List (NodeMapEvent Node)) (copy : EditorCopy Node) : Prop :=
  ∃ entry, lookup history copy.entry.nodeId = some entry ∧ some entry.address = copy.entry.orig

theorem replaceNode_status (represents : Represents state.ns state.history)
    (copy : EditorCopy Node) : ∃ status ns, state.ns.replaceNode copy.entry = .ok (status, ns) ∧
      (status = good ↔ HasOriginal state.history copy) ∧ (status ≠ good → ns = state.ns) := by
  rw [NodeMap.replaceNode]
  rcases findOccupiedSlot_spec represents copy.entry.nodeId with
    ⟨search, missing⟩ | ⟨slot, former, search, here, -, found⟩
  · rw [search]
    refine ⟨badNodeIdUnknown, state.ns, rfl, ⟨?_, ?_⟩, fun _ => rfl⟩
    · intro impossible
      cases impossible
    · rintro ⟨entry, present, -⟩
      rw [missing] at present
      cases present
  · rw [search]
    dsimp only
    rw [here]
    dsimp only
    split
    · rename_i other
      refine ⟨badInternalError, state.ns, rfl, ⟨?_, ?_⟩, fun _ => rfl⟩
      · intro impossible
        cases impossible
      · rintro ⟨entry, present, same⟩
        rw [found] at present
        cases present
        exact absurd same other
    · rename_i same
      refine ⟨good, _, rfl, ⟨fun _ => ⟨former, found, not_not.mp same⟩, fun _ => rfl⟩, ?_⟩
      intro failed
      exact absurd rfl failed

structure Tracks (history : List (NodeMapEvent Node)) (copy : EditorCopy Node) : Prop where
  known : copy.taken ≤ history.length
  agrees : copy.entry.orig ≠ none →
    (HasOriginal history copy ↔ ¬Touched history copy.taken copy.entry.nodeId)

theorem detects_iff (represents : Represents state.ns state.history) : state.Detects ↔
    ∀ copy ∈ state.copies, copy.entry.orig ≠ none → (HasOriginal state.history copy ↔
        ¬Touched state.history copy.taken copy.entry.nodeId) := by
  constructor
  · intro detects copy member isCopy
    obtain ⟨status, ns, runs, succeeds, -⟩ := detects copy member isCopy
    obtain ⟨other, next, also, original, -⟩ := replaceNode_status represents copy
    rw [runs] at also
    cases also
    exact original.symm.trans succeeds
  · intro tracks copy member isCopy
    obtain ⟨status, ns, runs, original, fails⟩ := replaceNode_status represents copy
    exact ⟨status, ns, runs, original.trans (tracks copy member isCopy), fails⟩

theorem Tracks.like {former : EditorCopy Node} (tracks : Tracks history former)
    (like : copy.Like former) : Tracks history copy := by
  obtain ⟨known, agrees⟩ := tracks
  rw [HasOriginal, ← like.orig, ← like.nodeId, ← like.taken] at agrees
  exact ⟨like.taken ▸ known, agrees⟩

theorem Tracks.event (tracks : Tracks history copy) (event : NodeMapEvent Node)
    (elsewhere : ∀ entry, event = .stored entry →
      nodeIdEqual entry.nodeId copy.entry.nodeId = true → copy.entry.orig ≠ some entry.address) :
    Tracks (event :: history) copy := by
  refine ⟨Nat.le_succ_of_le tracks.known, ?_⟩
  intro isCopy
  rw [touched_cons tracks.known]
  cases about : nodeIdEqual event.nodeId copy.entry.nodeId with
  | false =>
    rw [HasOriginal, lookup_cons_other about]
    rw [or_iff_right Bool.false_ne_true]
    exact tracks.agrees isCopy
  | true =>
    rw [iff_comm]
    constructor
    · intro untouched
      exact absurd (.inl rfl) untouched
    · rintro ⟨entry, found, same⟩
      cases event with
      | stored stored =>
        rw [lookup, if_pos (by exact about)] at found
        cases found
        exact absurd same.symm (elsewhere _ rfl about)
      | removed nodeId =>
        rw [lookup, if_pos (by exact about)] at found
        cases found

/-- An entry is stored under the id of a node of which someone has a copy, at the address of the
entry that the copy was made from. -/
def Reuses (state after : NodeEditing Node) : Prop :=
  ∃ entry, after.history = .stored entry :: state.history ∧ ∃ copy ∈ after.copies,
    copy.entry.orig = some entry.address ∧ nodeIdEqual entry.nodeId copy.entry.nodeId = true

def Tracked (state : NodeEditing Node) : Prop := ∀ copy ∈ state.copies, Tracks state.history copy

theorem Tracked.changes (tracked : state.Tracked) (changes : state.Changes action after)
    (apart : ¬state.Reuses after) : after.Tracked := by
  cases changes with
  | kept _ history copies =>
    intro copy member
    obtain ⟨former, present, like⟩ := copies copy member
    rw [history]
    exact (tracked former present).like like
  | made allocated ns history copies taken source =>
    intro copy member
    rw [history]
    rw [copies] at member
    rcases mem_cons.mp member with rfl | earlier
    · refine ⟨taken.le, ?_⟩
      intro isCopy
      rw [taken]
      obtain ⟨orig, made⟩ := Option.ne_none_iff_exists'.mp isCopy
      obtain ⟨entry, found, same⟩ := source orig made
      refine iff_of_true ⟨entry, found, ?_⟩ not_touched_now
      rw [made, same]
    · exact tracked copy earlier
  | stored _ _ _ history copies =>
    intro copy member
    rw [history]
    have before : copy ∈ state.copies := by
      rw [copies] at member
      exact mem_of_mem_filter member
    apply (tracked copy before).event
    intro entry same about orig
    cases same
    exact apart ⟨_, history, copy, member, orig, about⟩
  | removed _ history copies =>
    intro copy member
    rw [history]
    rw [copies] at member
    apply (tracked copy member).event
    intro entry impossible
    cases impossible

theorem Changes.known (changes : state.Changes action after)
    (known : ∀ copy ∈ state.copies, copy.taken ≤ state.history.length) :
    ∀ copy ∈ after.copies, copy.taken ≤ after.history.length := by
  intro copy member
  cases changes with
  | kept _ history copies =>
    obtain ⟨former, present, like⟩ := copies copy member
    rw [history, like.taken]
    exact known former present
  | made _ _ history copies taken =>
    rw [history]
    rw [copies] at member
    rcases mem_cons.mp member with rfl | earlier
    · exact taken.le
    · exact known copy earlier
  | stored _ _ _ history copies =>
    rw [history]
    rw [copies] at member
    exact Nat.le_succ_of_le (known copy (mem_of_mem_filter member))
  | removed _ history copies =>
    rw [history]
    rw [copies] at member
    exact Nat.le_succ_of_le (known copy member)

section Reached

variable {Allowed : NodeEditing Node → EditAction Node → NodeEditing Node → Prop}

section

variable (reached : Reached copyNode Allowed state)
include reached

theorem Reached.weaken {Weaker : NodeEditing Node → EditAction Node → NodeEditing Node → Prop}
    (weaker : ∀ before action after, Allowed before action after → Weaker before action after) :
    Reached copyNode Weaker state := by
  induction reached with
  | new => exact .new
  | step _ allocates performs allowed ih =>
    exact .step ih allocates performs (weaker _ _ _ allowed)

theorem Reached.known : ∀ copy ∈ state.copies, copy.taken ≤ state.history.length := by
  induction reached with
  | new =>
    intro copy member
    cases member
  | step reached _ performs _ ih => exact (perform_changes reached.represents performs).known ih

theorem Reached.tracked
    (apart : ∀ before action after, Allowed before action after → ¬before.Reuses after) :
    state.Tracked := by
  induction reached with
  | new =>
    intro copy member
    cases member
  | step reached _ performs allowed ih =>
    exact ih.changes (perform_changes reached.represents performs) (apart _ _ _ allowed)

end

theorem Tracked.detects (tracked : state.Tracked)
    (represents : Represents state.ns state.history) : state.Detects := by
  rw [detects_iff represents]
  intro copy member isCopy
  exact (tracked copy member).agrees isCopy

theorem Reuses.not_detects (reuses : state.Reuses after)
    (represents : Represents after.ns after.history)
    (known : ∀ copy ∈ state.copies, copy.taken ≤ state.history.length)
    (changes : state.Changes action after) : ¬after.Detects := by
  obtain ⟨entry, history, copy, member, orig, same⟩ := reuses
  have present : copy ∈ state.copies := by
    cases changes with
    | kept _ unchanged => exact absurd (unchanged.symm.trans history) (cons_ne_self _ _).symm
    | made _ _ unchanged =>
      exact absurd (unchanged.symm.trans history) (cons_ne_self _ _).symm
    | stored _ _ _ _ copies =>
      rw [copies] at member
      exact mem_of_mem_filter member
    | removed _ _ copies => exact copies ▸ member
  have isCopy : copy.entry.orig ≠ none := by
    rw [orig]
    exact Option.some_ne_none _
  have original : HasOriginal after.history copy := by
    refine ⟨entry, ?_, orig.symm⟩
    rw [history, lookup, if_pos same]
  have touched : Touched after.history copy.taken copy.entry.nodeId := by
    rw [history]
    exact (touched_cons (known copy present)).mpr (.inl same)
  rw [detects_iff represents]
  intro tracks
  exact (tracks copy member isCopy).mp original touched

end Reached

/-! Memory that is not used again too early -/

def Avoids (state : NodeEditing Node) (action : EditAction Node) : Prop :=
  ∀ address, action.allocated = some address → ∀ copy ∈ state.copies, copy.entry.orig ≠ some address

structure Separate (state : NodeEditing Node) : Prop where
  stored : ∀ nodeId entry, lookup state.history nodeId = some entry →
    ∀ copy ∈ state.copies, copy.entry.address ≠ entry.address
  original : ∀ copy ∈ state.copies, ∀ other ∈ state.copies,
    copy.entry.orig ≠ some other.entry.address

theorem lookup_cons_cases {event : NodeMapEvent Node} {entry : NodeMapEntry Node}
    (found : lookup (event :: history) nodeId = some entry) :
    event = .stored entry ∨ lookup history nodeId = some entry := by
  cases event with
  | stored stored =>
    rw [lookup] at found
    split at found
    · exact .inl (congrArg NodeMapEvent.stored (Option.some.inj found))
    · exact .inr found
  | removed removed =>
    rw [lookup] at found
    split at found
    · cases found
    · exact .inr found

theorem not_live (represents : Represents state.ns state.history) : ¬state.Live address ↔
      (∀ nodeId entry, lookup state.history nodeId = some entry → entry.address ≠ address) ∧
        (∀ copy ∈ state.copies, copy.entry.address ≠ address) ∧ address ∉ state.deleted := by
  have stored : (∃ nodeId entry, state.ns.getNode nodeId = .ok (some entry) ∧
      entry.address = address) ↔
      ∃ nodeId entry, lookup state.history nodeId = some entry ∧ entry.address = address := by
    simp only [getNode_spec represents, Except.ok.injEq]
  rw [Live, stored]
  push Not
  rfl

theorem allocates_nothing (nothing : action.allocated = none) : state.Allocates action := by
  intro address allocated
  rw [nothing] at allocated
  cases allocated

theorem allocates_unused (represents : Represents state.ns state.history)
    (allocated : action.allocated = some address)
    (stored : ∀ nodeId entry, lookup state.history nodeId = some entry → entry.address ≠ address)
    (copies : ∀ copy ∈ state.copies, copy.entry.address ≠ address)
    (deleted : address ∉ state.deleted) : state.Allocates action := by
  intro other same
  rw [allocated] at same
  cases same
  exact (not_live represents).mpr ⟨stored, copies, deleted⟩

theorem Separate.changes (separate : state.Separate) (changes : state.Changes action after)
    (represents : Represents state.ns state.history) (allocates : state.Allocates action)
    (avoids : state.Avoids action) : after.Separate := by
  cases changes with
  | kept _ history copies =>
    refine ⟨?_, ?_⟩
    · intro nodeId entry found copy member
      obtain ⟨former, present, like⟩ := copies copy member
      rw [history] at found
      rw [like.address]
      exact separate.stored nodeId entry found former present
    · intro copy member other others
      obtain ⟨former, present, like⟩ := copies copy member
      obtain ⟨before, known, alike⟩ := copies other others
      rw [like.orig, alike.address]
      exact separate.original former present before known
  | made allocated _ history copies _ source =>
    obtain ⟨unstored, uncopied, -⟩ := (not_live represents).mp (allocates _ allocated)
    refine ⟨?_, ?_⟩
    · intro nodeId entry found copy member
      rw [history] at found
      rw [copies] at member
      rcases mem_cons.mp member with rfl | earlier
      · exact (unstored nodeId entry found).symm
      · exact separate.stored nodeId entry found copy earlier
    · intro copy member other others
      rw [copies] at member others
      rcases mem_cons.mp member with rfl | earlier
      · intro same
        obtain ⟨entry, found, address⟩ := source _ same
        rcases mem_cons.mp others with rfl | present
        · exact unstored _ entry found address
        · exact separate.stored _ entry found other present address.symm
      · rcases mem_cons.mp others with rfl | present
        · exact avoids _ allocated copy earlier
        · exact separate.original copy earlier other present
  | stored member address _ history copies =>
    refine ⟨?_, ?_⟩
    · intro nodeId entry found copy present
      rw [copies, without, mem_filter] at present
      obtain ⟨present, other⟩ := present
      rw [history] at found
      rcases lookup_cons_cases found with same | earlier
      · cases same
        rw [address]
        exact of_decide_eq_true other
      · exact separate.stored nodeId entry earlier copy present
    · intro copy present other others
      rw [copies] at present others
      exact separate.original copy (mem_of_mem_filter present) other (mem_of_mem_filter others)
  | removed _ history copies =>
    refine ⟨?_, ?_⟩
    · intro nodeId entry found copy member
      rw [history] at found
      rw [copies] at member
      rcases lookup_cons_cases found with impossible | earlier
      · cases impossible
      · exact separate.stored nodeId entry earlier copy member
    · intro copy member other others
      rw [copies] at member others
      exact separate.original copy member other others

theorem Separate.not_reuses (separate : state.Separate) (changes : state.Changes action after) :
    ¬state.Reuses after := by
  rintro ⟨entry, stores, copy, member, orig, -⟩
  cases changes with
  | kept _ history => exact absurd (history.symm.trans stores) (cons_ne_self _ _).symm
  | made _ _ history => exact absurd (history.symm.trans stores) (cons_ne_self _ _).symm
  | stored present address _ history copies =>
    cases history.symm.trans stores
    rw [copies] at member
    rw [address] at orig
    exact separate.original copy (mem_of_mem_filter member) _ present orig
  | removed _ history => cases history.symm.trans stores

theorem Reached.avoiding (reached : Reached copyNode (fun state action _ => state.Avoids action)
    state) : Reached copyNode (fun state _ after => ¬state.Reuses after) state ∧
      state.Separate := by
  induction reached with
  | new =>
    refine ⟨.new, ?_, ?_⟩
    · intro nodeId entry found
      cases found
    · intro copy member
      cases member
  | step reached allocates performs avoids ih =>
    obtain ⟨earlier, separate⟩ := ih
    have changes := perform_changes reached.represents performs
    exact ⟨.step earlier allocates performs (separate.not_reuses changes),
      separate.changes changes reached.represents allocates avoids⟩

/-- Conflicts are detected as long as no entry is stored at the address of the entry that a copy of
the same node was made from. Memory that is not used again before its copies are gone is enough. -/
theorem replaceNode_detects (copyNode : Node → Except StatusCode Node) :
    (∀ state, Reached copyNode (fun before _ after => ¬before.Reuses after) state → state.Detects) ∧
      (∀ state action status after, Reached copyNode (fun _ _ _ => True) state →
        state.Allocates action → state.perform copyNode action = .ok (status, after) →
        state.Reuses after → ¬after.Detects) ∧
      ∀ state, Reached copyNode (fun before action _ => before.Avoids action) state →
        state.Detects := by
  have apart : ∀ state, Reached copyNode (fun before _ after => ¬before.Reuses after) state →
      state.Detects := by
    intro state reached
    exact (reached.tracked fun _ _ _ allowed => allowed).detects reached.represents
  refine ⟨apart, ?_, ?_⟩
  · intro state action status after reached allocates performs reuses
    have changes := perform_changes reached.represents performs
    exact reuses.not_detects (changes.represents reached.represents) reached.known changes
  · intro state avoiding
    exact apart state avoiding.avoiding.1

/-! Two editors have a copy of a node. One of them replaces the node, and the memory of the original
becomes that of a third copy, which replaces the node again. -/

def editedNode : NodeId := ⟨0, .numeric 1⟩

def originalEntry : NodeMapEntry Nat := ⟨0, none, editedNode, 5⟩

def staleCopy : EditorCopy Nat := ⟨⟨1, some 0, editedNode, 5⟩, 1⟩

def otherEntry : NodeMapEntry Nat := ⟨2, some 0, editedNode, 6⟩

def thirdEntry : NodeMapEntry Nat := ⟨0, some 2, editedNode, 7⟩

def editing (entry : NodeMapEntry Nat) (former : List (NodeMapEntry Nat))
    (copies : List (EditorCopy Nat)) : NodeEditing Nat :=
  ⟨⟨NodeMap.new.entries.set 0 (.entry entry), 1⟩, (entry :: former).map .stored, copies, [], []⟩

theorem lookup_only {entry : NodeMapEntry Nat}
    (found : lookup [.stored originalEntry] nodeId = some entry) : entry = originalEntry := by
  rcases lookup_cons_cases found with same | impossible
  · cases same
    rfl
  · cases impossible

theorem lookup_replaced {entry : NodeMapEntry Nat}
    (found : lookup [.stored otherEntry, .stored originalEntry] nodeId = some entry) :
    entry = otherEntry := by
  change (if nodeIdEqual editedNode nodeId then some otherEntry
    else if nodeIdEqual editedNode nodeId then some originalEntry else none) = some entry at found
  split at found
  · exact (Option.some.inj found).symm
  · cases found

theorem avoids_none (fresh : ∀ copy ∈ state.copies,
    copy.entry.orig = none) : state.Avoids action := by
  intro address _ copy member orig
  rw [fresh copy member] at orig
  cases orig

theorem staleCopy_taken : Reached Except.ok (fun before action _ => before.Avoids action)
    (editing originalEntry [] [staleCopy]) := by
  have made : perform Except.ok .new (.newNode 0 editedNode 5) =
      .ok (good, ⟨.new, [], [⟨originalEntry, 0⟩], [], []⟩) := rfl
  have inserted : perform Except.ok ⟨.new, [], [⟨originalEntry, 0⟩], [], []⟩
      (.insertNode 0 false ⟨true, true⟩) = .ok (good, editing originalEntry [] []) := by
    decide +kernel
  have copied : perform Except.ok (editing originalEntry [] []) (.getNodeCopy editedNode 1) =
      .ok (good, editing originalEntry [] [staleCopy]) := by decide +kernel
  have making : Reached Except.ok (fun before action _ => before.Avoids action) _ :=
    Reached.new.step (allocates_unused .new rfl (by
      intro nodeId entry found
      cases found) (by
      intro copy member
      cases member) not_mem_nil) made (avoids_none (by
      intro copy member
      cases member))
  have inserting := making.step (allocates_nothing rfl) inserted (by
    intro address allocated
    cases allocated)
  exact inserting.step (allocates_unused inserting.represents rfl (by
    intro nodeId entry found
    rw [lookup_only found]
    decide) (by
    intro copy member
    cases member) not_mem_nil) copied (avoids_none (by
    intro copy member
    cases member))

theorem staleCopy_detects : (editing originalEntry [] [staleCopy]).Detects :=
  (replaceNode_detects Except.ok).2.2 _ staleCopy_taken

theorem staleCopy_reached : Reached Except.ok (fun _ _ _ => True)
    (editing thirdEntry [otherEntry, originalEntry] [staleCopy]) := by
  have copied : perform Except.ok (editing originalEntry [] [staleCopy])
      (.getNodeCopy editedNode 2) =
      .ok (good, editing originalEntry [] [⟨{ otherEntry with node := 5 }, 1⟩, staleCopy]) := by
    decide +kernel
  have edited : perform Except.ok
      (editing originalEntry [] [⟨{ otherEntry with node := 5 }, 1⟩, staleCopy]) (.edit 2 (· + 1)) =
      .ok (good, editing originalEntry [] [⟨otherEntry, 1⟩, staleCopy]) := by decide +kernel
  have replaced : perform Except.ok (editing originalEntry [] [⟨otherEntry, 1⟩, staleCopy])
      (.replaceNode 2) = .ok (good, editing otherEntry [originalEntry] [staleCopy]) := by
    decide +kernel
  have reused : perform Except.ok (editing otherEntry [originalEntry] [staleCopy])
      (.getNodeCopy editedNode 0) = .ok (good, editing otherEntry [originalEntry]
        [⟨{ thirdEntry with node := 6 }, 2⟩, staleCopy]) := by decide +kernel
  have editedAgain : perform Except.ok (editing otherEntry [originalEntry]
      [⟨{ thirdEntry with node := 6 }, 2⟩, staleCopy]) (.edit 0 (· + 1)) =
      .ok (good, editing otherEntry [originalEntry] [⟨thirdEntry, 2⟩, staleCopy]) := by
    decide +kernel
  have replacedAgain : perform Except.ok
      (editing otherEntry [originalEntry] [⟨thirdEntry, 2⟩, staleCopy]) (.replaceNode 0) =
      .ok (good, editing thirdEntry [otherEntry, originalEntry] [staleCopy]) := by decide +kernel
  have copying : Reached Except.ok (fun _ _ _ => True) _ :=
    (staleCopy_taken.weaken fun _ _ _ _ => trivial).step
      (allocates_unused staleCopy_taken.represents rfl (by
        intro nodeId entry found
        rw [lookup_only found]
        decide) (by
        intro copy member
        rw [mem_singleton.mp member]
        decide) not_mem_nil) copied trivial
  have replacing := (copying.step (allocates_nothing rfl) edited trivial).step
    (allocates_nothing rfl) replaced trivial
  -- the entry of the original was released with the replacement
  have reusing := replacing.step (allocates_unused replacing.represents rfl (by
    intro nodeId entry found
    rw [lookup_replaced found]
    decide) (by
    intro copy member
    rw [mem_singleton.mp member]
    decide) not_mem_nil) reused trivial
  exact (reusing.step (allocates_nothing rfl) editedAgain trivial).step (allocates_nothing rfl)
    replacedAgain trivial

theorem reusedMemory_undetected : ¬∀ state : NodeEditing Nat,
    Reached Except.ok (fun _ _ _ => True) state → state.Detects := by
  intro detects
  obtain ⟨status, ns, runs, succeeds, -⟩ := detects _ staleCopy_reached staleCopy
    (mem_singleton_self _) (Option.some_ne_none 0)
  have overwrites : (editing thirdEntry [otherEntry, originalEntry] [staleCopy]).ns.replaceNode
      staleCopy.entry = .ok (good, (editing staleCopy.entry [] []).ns) := by decide +kernel
  cases runs.symm.trans overwrites
  exact succeeds.mp rfl ⟨.stored thirdEntry, mem_cons_self, by decide +kernel⟩

end NodeEditing

end OpcUa
