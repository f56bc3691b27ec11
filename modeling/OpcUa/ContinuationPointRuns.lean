import OpcUa.ContinuationPoints
import OpcUa.InstanceIsolation
import OpcUa.NodeAddition

/-!
The continuation points of all sessions and of the server itself, over runs of Browse, BrowseNext
and of what else is done to the address space. The node management browses with the session of its
caller, and with that of the server where it cleans up.
-/

namespace OpcUa

open StatusCode

/-! What browses on its way -/

structure NodeSpace.SameSessions (before after : NodeSpace) : Prop where
  session : after.session = before.session
  adminSession : after.adminSession = before.adminSession
  calls : before.calls ≤ after.calls

/-- A property that only depends on the sessions and the number of calls, and that Browse keeps. -/
structure FollowsSessions (server : NodeServer) (world : Nat → NodeOutcome)
    (Holds : NodeSpace → Prop) : Prop where
  browse : ∀ caller space nodeId resultMask, Holds space →
    Holds (browseChildren server world caller nodeId resultMask space).2
  same : ∀ before after : NodeSpace, before.SameSessions after → Holds before → Holds after

section Same

variable {server : NodeServer} {world : Nat → NodeOutcome} {caller : Caller}
  {before middle after space : NodeSpace}
variable {node : Node} {status : StatusCode} {type : Option Node} {parentNodeId : NodeId}
variable {nodeId referenceTypeId : NodeId}

theorem NodeSpace.SameSessions.trans (first : before.SameSessions middle)
    (second : middle.SameSessions after) : before.SameSessions after :=
  ⟨second.session.trans first.session, second.adminSession.trans first.adminSession,
    first.calls.trans second.calls⟩

theorem deconstructNode_sessions (server : NodeServer) (node : Node) (space : NodeSpace) :
    space.SameSessions (deconstructNode server node space) := by
  rw [deconstructNode]
  generalize (if node.nodeClass = .object ∨ node.nodeClass = .variable then
    getNodeType space.store node else none) = type
  cases type with
  | none =>
    split <;> exact ⟨rfl, rfl, Nat.le_refl _⟩
  | some type =>
    dsimp only
    split <;> split <;> exact ⟨rfl, rfl, Nat.le_refl _⟩

theorem insertNode_sessions {outcome : NodeOutcome} {attributes : Option VariableAttributes}
    (ran : space.insertNode outcome node attributes = (status, nodeId, after)) :
    space.SameSessions after := by
  obtain ⟨-, ⟨-, rfl⟩ | ⟨-, -, -, same⟩⟩ := insertNode_cases ran
  · exact ⟨rfl, rfl, Nat.le_succ _⟩
  · rw [same]
    exact ⟨rfl, rfl, Nat.le_succ _⟩

theorem callConstructors_sessions
    (ran : callConstructors server world node type space = (status, after)) :
    space.SameSessions after := by
  have runs (type : Option Node) (space : NodeSpace) (outcome : NodeOutcome) :
      space.SameSessions (runConstructors server outcome node type space).2 := by
    unfold runConstructors
    generalize (if server.nodeLifecycle.constructor = true then outcome.constructor else good) =
      first
    dsimp only
    split
    · exact ⟨rfl, rfl, Nat.le_refl _⟩
    · cases type <;> exact ⟨rfl, rfl, Nat.le_refl _⟩
  rw [callConstructors] at ran
  have built := runs (if node.nodeClass.isInstance then type else none)
    { space with calls := space.calls + 1 } (world space.calls)
  generalize runConstructors server (world space.calls) node
    (if node.nodeClass.isInstance then type else none) { space with calls := space.calls + 1 } =
      outcome at ran built
  have start : space.SameSessions { space with calls := space.calls + 1 } :=
    ⟨rfl, rfl, Nat.le_succ _⟩
  have counted := start.trans built
  dsimp only at ran
  generalize (if outcome.1 ≠ good then outcome.1
    else if (outcome.2.store.getNode node.nodeId).isSome = true then good
    else badNodeIdUnknown) = last at ran
  split at ran <;> obtain ⟨-, rfl⟩ := Prod.mk.inj ran
  · exact counted.trans ⟨rfl, rfl, Nat.le_refl _⟩
  · exact counted

theorem typeCheckVariableNode_sessions (server : NodeServer) (outcome : ValueOutcome) (node : Node)
    (attributes vt : VariableAttributes) (parentNodeId : NodeId) (space : NodeSpace) :
    space.SameSessions
      (typeCheckVariableNode server outcome node attributes vt parentNodeId space).2 := by
  rcases typeCheckVariableNode_cases (Prod.mk.eta).symm with ⟨-, same⟩ | ⟨value, -, checked⟩
  · rw [same]
    exact ⟨rfl, rfl, Nat.le_refl _⟩
  · rw [← congrArg Prod.snd checked, typeCheckValue]
    split <;> exact ⟨rfl, rfl, Nat.le_refl _⟩

theorem typeCheckNode_sessions {outcome : ValueOutcome}
    (ran : typeCheckNode server outcome node type parentNodeId space = (status, after)) :
    space.SameSessions after := by
  obtain rfl := congrArg Prod.snd ran
  have unchanged : space.SameSessions space := ⟨rfl, rfl, Nat.le_refl _⟩
  cases type with
  | none => exact unchanged
  | some type =>
    rw [typeCheckNode]
    split
    · split
      · exact typeCheckVariableNode_sessions server outcome node _ _ parentNodeId space
      · exact unchanged
    · exact unchanged

theorem addRef_sessions (world : Nat → NodeOutcome) (caller : Caller)
    (nodeId referenceTypeId parentNodeId : NodeId) (forward : Bool) (space : NodeSpace) :
    space.SameSessions (addRef world caller nodeId referenceTypeId parentNodeId forward space).2 :=
  ⟨rfl, rfl, Nat.le_succ _⟩

theorem addParentAndType_sessions
    (ran : addParentAndType world caller node type parentNodeId referenceTypeId space =
      (status, after)) : space.SameSessions after := by
  obtain rfl := congrArg Prod.snd ran
  have unchanged (space : NodeSpace) : space.SameSessions space := ⟨rfl, rfl, Nat.le_refl _⟩
  have typed (type : Node) (space : NodeSpace) : space.SameSessions
      (if node.nodeClass.isInstance then
        addRef world caller node.nodeId hasTypeDefinitionId type.nodeId true space
      else (good, space)).2 := by
    split
    · exact addRef_sessions world caller _ _ _ _ space
    · exact unchanged space
  rw [addParentAndType]
  dsimp only
  split
  · cases type with
    | none => exact unchanged space
    | some type => exact typed type space
  split
  · exact unchanged space
  have linked := addRef_sessions world caller node.nodeId referenceTypeId parentNodeId false space
  split
  · exact linked
  · cases type with
    | none => exact linked
    | some type => exact linked.trans (typed type _)

theorem typeCheckAddRefs_sessions {typeDefinitionId : NodeId}
    (ran : typeCheckAddRefs server world caller nodeId parentNodeId referenceTypeId typeDefinitionId
      space = (status, after)) : space.SameSessions after := by
  rcases typeCheckAddRefs_cases ran with
    ⟨-, rfl⟩ | ⟨node, type, checkStatus, checked, reference, -, -, -, checking, ends⟩
  · exact ⟨rfl, rfl, Nat.le_refl _⟩
  have first := typeCheckNode_sessions checking
  rcases ends with ⟨-, -, rfl⟩ | ⟨-, linked⟩
  · exact first
  · exact first.trans (addParentAndType_sessions linked)

end Same

section Follows

variable {server : NodeServer} {world : Nat → NodeOutcome} {caller : Caller}
  {Holds : NodeSpace → Prop} {space after : NodeSpace}
variable {depth : Nat} {status : StatusCode}
variable {item : AddNodesItem}

section

variable (follows : FollowsSessions server world Holds)
include follows

theorem FollowsSessions.removeDeconstructedNode
    {deleteChild : NodeId → NodeSpace → Option NodeSpace} {node : Node} {removeTargetRefs : Bool}
    (each : ∀ nodeId space after, Holds space → deleteChild nodeId space = some after → Holds after)
    (holds : Holds space)
    (ran : removeDeconstructedNode server world caller deleteChild node removeTargetRefs space =
      some after) :
    Holds after := by
  rw [OpcUa.removeDeconstructedNode, Option.bind_eq_bind, Option.bind_eq_some_iff] at ran
  obtain ⟨middle, removed, rest⟩ := ran
  obtain rfl := Option.some.inj rest
  suffices Holds middle from follows.same middle _ ⟨rfl, rfl, Nat.le_refl _⟩ this
  have browsed := follows.browse caller space node.nodeId 0 holds
  rw [removeChildren] at removed
  generalize browseChildren server world caller node.nodeId 0 space = answer at removed browsed
  dsimp only at removed
  split at removed
  · obtain rfl := Option.some.inj removed
    exact browsed
  · refine OptionFold.foldlM_keeps Holds browsed ?_ removed
    intro rd member state next holds stepped
    split at stepped
    · obtain rfl := Option.some.inj stepped
      exact holds
    · exact each _ _ _ holds stepped

theorem FollowsSessions.deleteNodeOperation {item : DeleteNodesItem} (holds : Holds space)
    (ran : deleteNodeOperation server world caller depth item space = some (status, after)) :
    Holds after := by
  induction depth generalizing item space status after with
  | zero => cases ran
  | succ depth ih =>
    rw [OpcUa.deleteNodeOperation] at ran
    split at ran
    · obtain rfl := (Prod.mk.inj (Option.some.inj ran)).2
      exact holds
    split at ran
    · obtain rfl := (Prod.mk.inj (Option.some.inj ran)).2
      exact holds
    rename_i node found
    split at ran
    · obtain rfl := (Prod.mk.inj (Option.some.inj ran)).2
      exact holds
    obtain ⟨last, removed, rest⟩ := Option.bind_eq_some_iff.mp ran
    obtain rfl := (Prod.mk.inj (Option.some.inj rest)).2
    refine follows.removeDeconstructedNode ?_
      (follows.same _ _ (deconstructNode_sessions server node space) holds) removed
    intro nodeId between next holds deleted
    obtain ⟨⟨code, _⟩, ran, rfl⟩ := Option.map_eq_some_iff.mp deleted
    exact ih holds ran

theorem FollowsSessions.upholds (caller : Caller) :
    Upholds server world caller (fun _ => Holds) (fun _ => True) (fun _ => True) where
  browse _ space nodeId resultMask holds := follows.browse caller space nodeId resultMask holds
  offered _ _ _ _ _ _ _ := trivial
  existing _ _ _ _ _ _ _ _ _ _ := trivial
  link _ space _ _ holds _ _ _ := follows.same space _ ⟨rfl, rfl, Nat.le_succ _⟩ holds
  insert _ space _ _ _ _ _ after holds _ _ _ inserted := by
    have entered := follows.same space after (insertNode_sessions inserted) holds
    exact ⟨fun _ => entered, fun _ => ⟨entered, trivial⟩⟩
  check _ space _ _ _ _ _ after holds _ checked := by
    have passed := follows.same space after (typeCheckAddRefs_sessions checked) holds
    exact ⟨fun _ => follows.same after _ ⟨rfl, rfl, Nat.le_refl _⟩ passed, fun _ => passed⟩
  missing _ _ _ holds _ := holds
  construct _ space _ _ _ after holds _ constructed := by
    have built := follows.same space after (callConstructors_sessions constructed) holds
    exact ⟨fun _ => built, fun _ => built⟩
  cleanUp _ space _ _ depth after holds cleaned := by
    refine follows.removeDeconstructedNode ?_ holds cleaned
    intro nodeId between next holds deleted
    obtain ⟨⟨code, _⟩, ran, rfl⟩ := Option.map_eq_some_iff.mp deleted
    exact follows.deleteNodeOperation holds ran

theorem FollowsSessions.addNodeFinish {nodeId : NodeId} (holds : Holds space)
    (ran : addNodeFinish server world caller (copyChildNode server world caller depth) depth nodeId
      space = some (status, after)) :
    Holds after := by
  have upholds := follows.upholds caller
  exact @Upholds.addNodeFinish server world caller _ _ _ _ [] space after status depth nodeId upholds
    (upholds.copyChildNode depth) holds trivial ran

theorem FollowsSessions.addNodeBegin {nodeId : NodeId} (holds : Holds space)
    (ran : addNodeBegin server world caller depth item space = some (status, nodeId, after)) :
    Holds after := by
  rw [OpcUa.addNodeBegin] at ran
  cases raw : addNodeRaw server world caller item space with
  | mk rawStatus rest =>
  obtain ⟨newNodeId, added⟩ := rest
  have entered : Holds added := by
    rcases addNodeRaw_cases raw with ⟨-, rfl⟩ | ⟨attributes, inserted, -⟩
    · exact follows.same space _ ⟨rfl, rfl, Nat.le_succ _⟩ holds
    · exact follows.same space _ (insertNode_sessions inserted) holds
  rw [raw] at ran
  dsimp only at ran
  split at ran
  · obtain ⟨-, rest⟩ := Prod.mk.inj (Option.some.inj ran)
    obtain rfl := (Prod.mk.inj rest).2
    exact entered
  cases checked : typeCheckAddRefs server world caller newNodeId item.parentNodeId
    item.referenceTypeId item.typeDefinition added with
  | mk checkStatus middle =>
  have passed := follows.same added middle (typeCheckAddRefs_sessions checked) entered
  rw [checked] at ran
  split at ran
  · obtain ⟨⟨code, last⟩, deleted, rest⟩ := Option.bind_eq_some_iff.mp ran
    obtain ⟨-, rest⟩ := Prod.mk.inj (Option.some.inj rest)
    obtain rfl := (Prod.mk.inj rest).2
    exact follows.deleteNodeOperation passed deleted
  · obtain ⟨-, rest⟩ := Prod.mk.inj (Option.some.inj ran)
    obtain rfl := (Prod.mk.inj rest).2
    exact passed

theorem FollowsSessions.operationAddNode (holds : Holds space)
    (ran : operationAddNode server world caller depth item space = some (status, after)) :
    Holds after := by
  obtain ⟨⟨beginStatus, nodeId, middle⟩, began, ran⟩ := Option.bind_eq_some_iff.mp ran
  have begun := follows.addNodeBegin holds began
  dsimp only at ran
  split at ran
  · obtain rfl := (Prod.mk.inj (Option.some.inj ran)).2
    exact begun
  · exact follows.addNodeFinish begun ran

end

end Follows

structure SharedSpace where
  space : NodeSpace
  sessions : Nat → BrowseSession

namespace SharedSpace

section

variable (shared : SharedSpace) (number : Nat)

def turn : NodeSpace :=
  { shared.space with session := shared.sessions number }

def served (after : NodeSpace) : SharedSpace :=
  ⟨after, Function.update shared.sessions number after.session⟩

def session (caller : Caller) : BrowseSession :=
  (shared.turn number).browseSession caller

end

def browse (server : NodeServer) (world : Nat → NodeOutcome) (number : Nat) (caller : Caller)
    (maxrefs : BitVec 32) (descr : BrowseDescription) (shared : SharedSpace) :
    BrowseResult × SharedSpace :=
  match operationBrowse ⟨shared.space.store, server.maxReferencesPerNode⟩
    (world shared.space.calls).browse (world shared.space.calls).random
    (shared.session number caller) maxrefs descr with
  | (result, browsed) =>
    (result, shared.served number ((shared.turn number).withBrowse caller browsed))

def browseNext (server : NodeServer) (world : Nat → NodeOutcome) (number : Nat) (caller : Caller)
    (releases : Bool) (identifier : UaString) (shared : SharedSpace) :
    BrowseResult × SharedSpace :=
  match operationBrowseNext ⟨shared.space.store, server.maxReferencesPerNode⟩
    (world shared.space.calls).browse (shared.session number caller) releases identifier with
  | (result, browsed) =>
    (result, shared.served number ((shared.turn number).withBrowse caller browsed))

end SharedSpace

inductive ManagementCall (server : NodeServer) (world : Nat → NodeOutcome) (caller : Caller) :
    NodeSpace → NodeSpace → Prop
  | addNode {space after : NodeSpace} {depth : Nat} {item : AddNodesItem} {status : StatusCode}
      (ran : operationAddNode server world caller depth item space = some (status, after)) :
      ManagementCall server world caller space after
  | addNodeBegin {space after : NodeSpace} {depth : Nat} {item : AddNodesItem} {status : StatusCode}
      {nodeId : NodeId}
      (ran : addNodeBegin server world caller depth item space = some (status, nodeId, after)) :
      ManagementCall server world caller space after
  | addNodeFinish {space after : NodeSpace} {depth : Nat} {nodeId : NodeId} {status : StatusCode}
      (ran : addNodeFinish server world caller (copyChildNode server world caller depth) depth
        nodeId space = some (status, after)) : ManagementCall server world caller space after
  | deleteNode {space after : NodeSpace} {depth : Nat} {item : DeleteNodesItem}
      {status : StatusCode}
      (ran : deleteNodeOperation server world caller depth item space = some (status, after)) :
      ManagementCall server world caller space after
  | other {space after : NodeSpace} (same : space.SameSessions after) :
      ManagementCall server world caller space after

inductive SharedStep (server : NodeServer) (world : Nat → NodeOutcome) :
    SharedSpace → SharedSpace → Prop
  | createSession (shared : SharedSpace) (number : Nat) : SharedStep server world shared
      { shared with sessions := Function.update shared.sessions number .init }
  | browse (shared : SharedSpace) (number : Nat) (caller : Caller) (maxrefs : BitVec 32)
      (descr : BrowseDescription) : SharedStep server world shared
      (shared.browse server world number caller maxrefs descr).2
  | browseNext (shared : SharedSpace) (number : Nat) (caller : Caller) (releases : Bool)
      (identifier : UaString) : SharedStep server world shared
      (shared.browseNext server world number caller releases identifier).2
  | manage (shared : SharedSpace) (number : Nat) (caller : Caller) {after : NodeSpace}
      (ran : ManagementCall server world caller (shared.turn number) after) :
      SharedStep server world shared (shared.served number after)

structure SharedSpace.Accounted (world : Nat → NodeOutcome) (gone : Nat → Set Nat)
    (goneAdmin : Set Nat) (shared : SharedSpace) : Prop where
  sessions : ∀ number, (shared.sessions number).Accounted world (gone number) shared.space.calls
  admin : shared.space.adminSession.Accounted world goneAdmin shared.space.calls

section Runs

variable {server : NodeServer} {world : Nat → NodeOutcome} {gone : Nat → Set Nat}
  {goneAdmin : Set Nat} {shared after : SharedSpace}
variable {more : Set Nat} {number : Nat} {caller : Caller}

def goneFor (gone : Nat → Set Nat) (goneAdmin : Set Nat) (number : Nat) (caller : Caller) :
    Set Nat :=
  if caller.isAdmin then goneAdmin else gone number

section

variable (accounted : shared.Accounted world gone goneAdmin)
include accounted

theorem SharedSpace.Accounted.session (number : Nat) (caller : Caller) :
    (shared.session number caller).Accounted world (goneFor gone goneAdmin number caller)
      shared.space.calls := by
  rw [SharedSpace.session, NodeSpace.browseSession, goneFor]
  split
  · exact accounted.admin
  · exact accounted.sessions number

theorem SharedSpace.Accounted.served (number : Nat) (space : NodeSpace) {moreAdmin : Set Nat}
    (later : shared.space.calls ≤ space.calls)
    (session : space.session.Accounted world more space.calls)
    (admin : space.adminSession.Accounted world moreAdmin space.calls) :
    (shared.served number space).Accounted world (Function.update gone number more)
      moreAdmin := by
  refine ⟨?_, admin⟩
  intro other
  rw [SharedSpace.served]
  dsimp only
  by_cases same : other = number
  · rw [same, Function.update_self, Function.update_self]
    exact session
  · rw [Function.update_of_ne same, Function.update_of_ne same]
    exact (accounted.sessions other).later later

theorem SharedSpace.Accounted.withBrowse (number : Nat) (caller : Caller) {browsed : BrowseSession}
    (changed : browsed.Accounted world more (shared.space.calls + 1)) :
    (shared.served number ((shared.turn number).withBrowse caller browsed)).Accounted world
      (if caller.isAdmin then gone else Function.update gone number more)
      (if caller.isAdmin then more else goneAdmin) := by
  have later := Nat.le_succ shared.space.calls
  rw [NodeSpace.withBrowse]
  split
  · have kept := accounted.served number
      { shared.turn number with adminSession := browsed, calls := shared.space.calls + 1 } later
      ((accounted.sessions number).later later) changed
    rw [Function.update_eq_self] at kept
    exact kept
  · exact accounted.served number
      { shared.turn number with session := browsed, calls := shared.space.calls + 1 } later changed
      (accounted.admin.later later)

theorem SharedSpace.Accounted.browsed {browsed : BrowseSession}
    (changed : browsed.Accounted world (goneFor gone goneAdmin number caller) (shared.space.calls +
      1)) :
    (shared.served number ((shared.turn number).withBrowse caller browsed)).Accounted world gone
      goneAdmin := by
  have both := accounted.withBrowse number caller changed
  rw [goneFor] at both
  by_cases admin : caller.isAdmin = true
  · rw [if_pos admin, if_pos admin, if_pos admin] at both
    exact both
  · rw [if_neg admin, if_neg admin, if_neg admin, Function.update_eq_self] at both
    exact both

end

theorem session_served (shared : SharedSpace) (number : Nat) (caller : Caller)
    (browsed : BrowseSession) :
    (shared.served number ((shared.turn number).withBrowse caller browsed)).session number caller =
      browsed := by
  rw [SharedSpace.session, NodeSpace.browseSession, NodeSpace.withBrowse]
  split
  · rfl
  · exact Function.update_self number browsed shared.sessions

theorem accounted_followsSessions (server : NodeServer) (world : Nat → NodeOutcome)
    (goneSession goneAdmin : Set Nat) (start : Nat) :
    FollowsSessions server world fun space => start ≤ space.calls ∧
      space.session.Accounted world goneSession space.calls ∧
      space.adminSession.Accounted world goneAdmin space.calls where
  browse caller space nodeId resultMask := by
    rintro ⟨later, session, admin⟩
    have more := Nat.le_succ space.calls
    rw [browseChildren]
    dsimp only
    rw [NodeSpace.withBrowse, NodeSpace.browseSession]
    split
    · exact ⟨later.trans more, session.later more, admin.browse _ _ _ _⟩
    · exact ⟨later.trans more, session.browse _ _ _ _, admin.later more⟩
  same before after same := by
    rintro ⟨later, session, admin⟩
    rw [same.session, same.adminSession]
    exact ⟨later.trans same.calls, session.later same.calls, admin.later same.calls⟩

section

variable (accounted : shared.Accounted world gone goneAdmin)
include accounted

theorem SharedSpace.Accounted.step (step : SharedStep server world shared after) :
    after.Accounted world gone goneAdmin := by
  cases step with
  | createSession number =>
    refine ⟨?_, accounted.admin⟩
    intro other
    dsimp only
    by_cases same : other = number
    · rw [same, Function.update_self]
      exact BrowseSession.init_accounted world _ _ (accounted.sessions number).past
    · rw [Function.update_of_ne same]
      exact accounted.sessions other
  | browse number caller maxrefs descr =>
    exact accounted.browsed ((accounted.session number caller).browse _ _ _ _)
  | browseNext number caller releases identifier =>
    have next := (accounted.session number caller).browseNext
      ⟨shared.space.store, server.maxReferencesPerNode⟩ (world shared.space.calls).browse releases
      identifier
    exact accounted.browsed (next.later (Nat.le_succ _))
  | @manage number caller space ran =>
    have follows := accounted_followsSessions server world (gone number) goneAdmin
      shared.space.calls
    have start : shared.space.calls ≤ (shared.turn number).calls ∧
        (shared.turn number).session.Accounted world (gone number) (shared.turn number).calls ∧
        (shared.turn number).adminSession.Accounted world goneAdmin (shared.turn number).calls :=
      ⟨Nat.le_refl _, accounted.sessions number, accounted.admin⟩
    obtain ⟨later, session, admin⟩ : shared.space.calls ≤ space.calls ∧
        space.session.Accounted world (gone number) space.calls ∧
        space.adminSession.Accounted world goneAdmin space.calls := by
      cases ran with
      | addNode ran => exact follows.operationAddNode start ran
      | addNodeBegin ran => exact follows.addNodeBegin start ran
      | addNodeFinish ran => exact follows.addNodeFinish start ran
      | deleteNode ran => exact follows.deleteNodeOperation start ran
      | other same => exact follows.same _ _ same start
    have kept := accounted.served number space later session admin
    rw [Function.update_eq_self] at kept
    exact kept

theorem SharedSpace.Accounted.run
    (run : Relation.ReflTransGen (SharedStep server world) shared after) :
    after.Accounted world gone goneAdmin := by
  induction run with
  | refl => exact accounted
  | tail _ last ih => exact ih.step last

theorem SharedSpace.Accounted.finishes {releases : Bool} {identifier : UaString}
    (fewer : ((shared.browseNext server world number caller releases identifier).2.session number
      caller).continuationPoints.length < (shared.session number caller).continuationPoints.length)
    :
    ∃ call moreGone moreAdmin, stringEqual (drawnIdentifier world call) identifier = true ∧
      call ∈ goneFor moreGone moreAdmin number caller ∧
      (shared.browseNext server world number caller releases identifier).2.Accounted world moreGone
        moreAdmin := by
  rw [SharedSpace.browseNext] at fewer ⊢
  rw [session_served] at fewer
  obtain ⟨call, named, left⟩ := (accounted.session number caller).finishes fewer
  refine ⟨call, _, _, named, ?_, accounted.withBrowse number caller (left.later (Nat.le_succ _))⟩
  rw [goneFor]
  split
  · exact Set.mem_insert call _
  · rw [Function.update_self]
    exact Set.mem_insert call _

end

end Runs

def SharedSpace.Fresh (shared : SharedSpace) : Prop :=
  shared.space.adminSession = .init ∧ ∀ number, shared.sessions number = .init

def DrawnTwice (world : Nat → NodeOutcome) (identifier : UaString) (calls : Nat) : Prop :=
  ∃ first second, first < second ∧ second < calls ∧
    stringEqual (drawnIdentifier world first) identifier = true ∧
    stringEqual (drawnIdentifier world second) identifier = true

/-- The points in use and the available ones are as many as there were at the start, for every
session. What BrowseNext has finished or released is refused from then on. -/
theorem continuationPoints_accounted {server : NodeServer} {world : Nat → NodeOutcome}
    {start shared : SharedSpace} (fresh : start.Fresh)
    (run : Relation.ReflTransGen (SharedStep server world) start shared) :
    (∀ number caller, (shared.session number caller).availableContinuationPoints.toNat +
      (shared.session number caller).continuationPoints.length = maxContinuationPoints) ∧
    ∀ number caller releases identifier,
      let next := (shared.browseNext server world number caller releases identifier).2
      (next.session number caller).continuationPoints.length <
        (shared.session number caller).continuationPoints.length →
      ∀ later, Relation.ReflTransGen (SharedStep server world) next later →
        DrawnTwice world identifier later.space.calls ∨
          ∀ again, (later.browseNext server world number caller again identifier).1.statusCode =
              badContinuationPointInvalid ∧
            (later.browseNext server world number caller again identifier).2.session number caller =
              later.session number caller := by
  have start : start.Accounted world (fun _ => ∅) ∅ := by
    refine ⟨?_, ?_⟩
    · intro number
      rw [fresh.2 number]
      exact BrowseSession.init_accounted world ∅ _ nofun
    · rw [fresh.1]
      exact BrowseSession.init_accounted world ∅ _ nofun
  have accounted := start.run run
  refine ⟨fun number caller => (accounted.session number caller).balance, ?_⟩
  intro number caller releases identifier next fewer later continues
  obtain ⟨call, gone, goneAdmin, named, left, following⟩ := accounted.finishes fewer
  by_cases twice : DrawnTwice world identifier later.space.calls
  · exact .inl twice
  right
  intro again
  have refused := ((following.run continues).session number caller).refuses left named (by
    intro first second earlier before firstNamed
    by_contra secondNamed
    rw [Bool.not_eq_false] at secondNamed
    exact twice ⟨first, second, earlier, before, firstNamed, secondNamed⟩)
    ⟨later.space.store, server.maxReferencesPerNode⟩ (world later.space.calls).browse again
  rw [SharedSpace.browseNext]
  dsimp only
  rw [session_served, refused]
  exact ⟨rfl, rfl⟩

/-! A type is browsed page by page -/

def plainUser : Caller :=
  ⟨false, fun _ => true, fun _ => true, fun _ => true, fun _ => true⟩

def numberedWorld (call : Nat) : NodeOutcome :=
  { plainOutcome with random := ⟨.ofNat 32 call, 0, 0, 0⟩ }

def freshMachines : SharedSpace where
  space := ⟨machineTypes, fun _ => none, .init, .init, 0, []⟩
  sessions := fun _ => .init

def firstPage : SharedSpace :=
  (freshMachines.browse plainServer numberedWorld 0 plainUser 1
    ⟨machineId 1, 2, .null, true, 0, 0⟩).2

def releasedPage : SharedSpace :=
  (firstPage.browseNext plainServer numberedWorld 0 plainUser true
    (drawnIdentifier numberedWorld 0)).2

theorem releasedPage_refused : (firstPage.session 0 plainUser).continuationPoints.length = 1 ∧
      (firstPage.session 0 plainUser).availableContinuationPoints.toNat + 1 =
        maxContinuationPoints ∧
      (releasedPage.browseNext plainServer numberedWorld 0 plainUser false
        (drawnIdentifier numberedWorld 0)).1.statusCode = badContinuationPointInvalid := by
  have stored : (firstPage.session 0 plainUser).continuationPoints.length = 1 := by decide +kernel
  obtain ⟨balance, refuses⟩ := @continuationPoints_accounted plainServer numberedWorld freshMachines
    firstPage ⟨rfl, fun _ => rfl⟩ (.single (.browse freshMachines 0 plainUser 1 _))
  refine ⟨stored, stored ▸ balance 0 plainUser, ?_⟩
  have fewer : (releasedPage.session 0 plainUser).continuationPoints.length <
      (firstPage.session 0 plainUser).continuationPoints.length := by decide +kernel
  have calls : releasedPage.space.calls = 2 := by decide +kernel
  rcases refuses 0 plainUser true _ fewer releasedPage .refl with
    ⟨first, second, earlier, before, firstNamed, secondNamed⟩ | refused
  · rw [calls] at before
    obtain ⟨rfl, rfl⟩ : first = 0 ∧ second = 1 := by omega
    have different : stringEqual (drawnIdentifier numberedWorld 1)
        (drawnIdentifier numberedWorld 0) = false := by decide +kernel
    rw [different] at secondNamed
    cases secondNamed
  · exact (refused false).1

end OpcUa
