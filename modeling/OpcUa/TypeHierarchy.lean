import OpcUa.TreeSearch

/-!
The supertypes of a type. An id without a node goes out of the array, and the loop of
`getTypeHierarchy` goes on behind the id that takes its place. What stands there is passed over.
-/

namespace OpcUa

open BoundedReach Relation StatusCode List

structure Nodestore.ListsHierarchy (store : Nodestore) (leafType : NodeId) (results : List NodeId) :
    Prop where
  once : (results.map NodeId.content).Nodup
  complete : ∀ id, id ∈ results.map NodeId.content ↔
    id ∈ store.stored ∧ ReflTransGen (store.Inverse [hasSubtypeId]) leafType.content id
  first : leafType.content ∈ store.stored → results.head? = some leafType

/-! The supertypes of one node -/

structure Appends (results after : List NodeId) (new : NodeIdContent → Prop) : Prop where
  behind : ∃ added, after = results ++ added
  once : (results.map NodeId.content).Nodup → (after.map NodeId.content).Nodup
  listed : ∀ id, id ∈ after.map NodeId.content ↔ id ∈ results.map NodeId.content ∨ new id

theorem Appends.refl (results : List NodeId) : Appends results results fun _ => False :=
  ⟨⟨[], (append_nil results).symm⟩, id, by simp⟩

theorem Appends.trans {results middle after : List NodeId} {first second new : NodeIdContent → Prop}
    (one : Appends results middle first) (two : Appends middle after second)
    (both : ∀ id, new id ↔ first id ∨ second id) : Appends results after new where
  behind := by
    obtain ⟨added, rfl⟩ := one.behind
    obtain ⟨more, rfl⟩ := two.behind
    exact ⟨added ++ more, append_assoc results added more⟩
  once known := two.once (one.once known)
  listed id := by
    rw [two.listed, one.listed, both, or_assoc]

theorem anyEqual_iff (results : List NodeId) (nodeId : NodeId) :
    results.any (nodeIdEqual nodeId) = true ↔ nodeId.content ∈ results.map NodeId.content := by
  rw [any_eq_true, List.mem_map]
  simp only [nodeIdEqual_iff]
  exact exists_congr fun _ => and_congr_right fun _ => eq_comm

theorem supertypeKind_iff (refs : NodeReferenceKind) :
    (!refs.isInverse || !nodeIdEqual hasSubtypeId refs.referenceTypeId) = false ↔
      refs.isInverse = true ∧ refs.referenceTypeId.content = hasSubtypeId.content := by
  rw [Bool.or_eq_false_iff, Bool.not_eq_false', Bool.not_eq_false', nodeIdEqual_iff]
  exact and_congr_right fun _ => eq_comm

theorem appendTargets_appends (targetIds : List ExpandedNodeId) (results : List NodeId) :
    Appends results (targetIds.foldl (fun results target =>
      if results.any (nodeIdEqual target.nodeId) then results
      else results ++ [target.nodeId]) results)
      fun id => ∃ target ∈ targetIds, target.nodeId.content = id := by
  induction targetIds generalizing results with
  | nil => simpa using Appends.refl results
  | cons target targetIds ih =>
    have here : Appends results (if results.any (nodeIdEqual target.nodeId) then results
        else results ++ [target.nodeId]) fun id => target.nodeId.content = id := by
      by_cases duplicate : results.any (nodeIdEqual target.nodeId) = true
      · rw [if_pos duplicate]
        refine ⟨⟨[], (append_nil results).symm⟩, id, ?_⟩
        rintro id
        refine ⟨.inl, ?_⟩
        rintro (listed | rfl)
        · exact listed
        · exact (anyEqual_iff results target.nodeId).mp duplicate
      · rw [if_neg duplicate]
        refine ⟨⟨_, rfl⟩, ?_, ?_⟩
        · intro known
          rw [map_append, map_singleton, ← concat_eq_append]
          exact known.concat fun listed => duplicate ((anyEqual_iff _ _).mpr listed)
        · intro id
          simp [eq_comm]
    exact here.trans (ih _) fun id => by simp

theorem appendSupertypes_appends (store : Nodestore) (results : List NodeId) {node : Node}
    (found : store.nodeAt node.nodeId.content = some node) :
    Appends results (appendSupertypes results node)
      (store.Inverse [hasSubtypeId] node.nodeId.content) := by
  have spelled (id : NodeIdContent) : store.Inverse [hasSubtypeId] node.nodeId.content id ↔
      ∃ refs ∈ node.references, (refs.isInverse = true ∧
        refs.referenceTypeId.content = hasSubtypeId.content) ∧
        ∃ target ∈ refs.targetIds, target.nodeId.content = id := by
    rw [inverse_iff, found]
    simp only [Option.some.injEq, exists_eq_left', mem_singleton, exists_eq_left, and_assoc]
  suffices general : ∀ kinds : List NodeReferenceKind, Appends results
      (kinds.foldl (fun results refs =>
        if !refs.isInverse || !nodeIdEqual hasSubtypeId refs.referenceTypeId then results
        else refs.targetIds.foldl (fun results target =>
          if results.any (nodeIdEqual target.nodeId) then results
          else results ++ [target.nodeId]) results) results)
      fun id => ∃ refs ∈ kinds, (refs.isInverse = true ∧
        refs.referenceTypeId.content = hasSubtypeId.content) ∧
        ∃ target ∈ refs.targetIds, target.nodeId.content = id by
    have all := general node.references
    refine ⟨all.behind, all.once, ?_⟩
    intro id
    rw [spelled]
    exact all.listed id
  intro kinds
  induction kinds generalizing results with
  | nil => simpa using Appends.refl results
  | cons refs kinds ih =>
    rw [foldl_cons]
    by_cases relevant : refs.isInverse = true ∧ refs.referenceTypeId.content = hasSubtypeId.content
    · rw [(supertypeKind_iff refs).mpr relevant, if_neg Bool.false_ne_true]
      exact (appendTargets_appends refs.targetIds results).trans (ih _) fun id => by simp [relevant]
    · have skips := Bool.eq_true_of_not_eq_false (mt (supertypeKind_iff refs).mp relevant)
      rw [skips, if_pos rfl]
      exact (Appends.refl results).trans (ih results) fun id => by simp [relevant]

inductive HierarchyPass (store : Nodestore) (leafType : NodeId) : Nat → List NodeId → Prop where
  | start : HierarchyPass store leafType 0 [leafType]
  | looked {index : Nat} {results : List NodeId} {nodeId : NodeId} {node : Node}
      (pass : HierarchyPass store leafType index results) (here : results[index]? = some nodeId)
      (found : store.getNode nodeId = some node) :
      HierarchyPass store leafType (index + 1) (appendSupertypes results node)
  | removed {index : Nat} {results : List NodeId} {nodeId : NodeId}
      (pass : HierarchyPass store leafType index results) (here : results[index]? = some nodeId)
      (missing : store.getNode nodeId = none) :
      HierarchyPass store leafType (index + 1) (results.eraseIdx index)

section

variable (store : Nodestore) (leafType : NodeId)

def Nodestore.LooksAt (id : NodeIdContent) : Prop :=
  ∃ index results nodeId, HierarchyPass store leafType index results ∧
    results[index]? = some nodeId ∧ nodeId.content = id ∧ id ∈ store.stored

def Nodestore.PassesOver (id : NodeIdContent) : Prop :=
  ∃ index results nodeId next, HierarchyPass store leafType index results ∧
    results[index]? = some nodeId ∧ nodeId.content ∉ store.stored ∧
    results[index + 1]? = some next ∧ next.content = id

def Nodestore.LosesNothing : Prop :=
  ∀ id, store.PassesOver leafType id → id ∈ store.stored ∧
    ∀ super ∈ store.stored, store.Inverse [hasSubtypeId] id super → super = leafType.content ∨
        ∃ source, store.LooksAt leafType source ∧ store.Inverse [hasSubtypeId] source super

end

section Passes

variable {store : Nodestore} {leafType nodeId : NodeId} {index : Nat} {results : List NodeId}
variable {passes : Nat} {after : List NodeId} {id : NodeIdContent}

theorem getNode_eq_none : store.getNode nodeId = none ↔ nodeId.content ∉ store.stored := by
  rw [getNode_eq, Nodestore.stored, Set.mem_ofPred_eq, not_exists, Option.eq_none_iff_forall_ne_some]

structure HierarchyPass.Holds (store : Nodestore) (leafType : NodeId) (index : Nat)
    (results : List NodeId) : Prop where
  once : (results.map NodeId.content).Nodup
  reached : ∀ id ∈ results.map NodeId.content,
    ReflTransGen (store.Inverse [hasSubtypeId]) leafType.content id
  behind : ∀ nodeId ∈ results.take index,
    store.LooksAt leafType nodeId.content ∨ store.PassesOver leafType nodeId.content
  first : leafType.content ∈ store.stored → results.head? = some leafType
  near : index ≤ results.length + 1

theorem HierarchyPass.holds (pass : HierarchyPass store leafType index results) :
    HierarchyPass.Holds store leafType index results := by
  induction pass with
  | start =>
    refine ⟨nodup_singleton _, ?_, nofun, fun _ => rfl, Nat.zero_le _⟩
    intro id member
    rw [mem_singleton.mp member]
  | @looked index results nodeId node pass here found ih =>
    rw [getNode_eq] at found
    have content := nodeAt_content found
    have looks : store.LooksAt leafType nodeId.content :=
      ⟨index, results, nodeId, pass, here, rfl, node, found⟩
    rw [← content] at found
    have appends := appendSupertypes_appends store results found
    rw [content] at appends
    obtain ⟨inside, at_⟩ := List.getElem?_eq_some_iff.mp here
    have member : nodeId ∈ results := at_ ▸ List.getElem_mem inside
    refine ⟨appends.once ih.once, ?_, ?_, ?_, ?_⟩
    · intro id listed
      rcases (appends.listed id).mp listed with before | inverse
      · exact ih.reached id before
      · exact (ih.reached _ (List.mem_map_of_mem member)).tail inverse
    · intro other taken
      obtain ⟨added, same⟩ := appends.behind
      rw [same, take_append_of_le_length inside, take_add_one, here] at taken
      rcases mem_append.mp taken with before | last
      · exact ih.behind other before
      · rw [mem_singleton.mp last]
        exact .inl looks
    · intro stored
      obtain ⟨added, same⟩ := appends.behind
      rw [same, head?_append, ih.first stored]
      rfl
    · obtain ⟨added, same⟩ := appends.behind
      rw [same, length_append]
      omega
  | @removed index results nodeId pass here missing ih =>
    obtain ⟨inside, at_⟩ := List.getElem?_eq_some_iff.mp here
    have kept : ((results.eraseIdx index).map NodeId.content).Sublist
        (results.map NodeId.content) := (List.eraseIdx_sublist results index).map _
    rw [getNode_eq_none] at missing
    refine ⟨ih.once.sublist kept, fun id listed => ih.reached id (kept.subset listed), ?_, ?_, ?_⟩
    · intro other taken
      rw [List.eraseIdx_eq_take_drop_succ, List.take_append, List.take_take,
        length_take_of_le inside.le, Nat.min_eq_right (Nat.le_succ index),
        Nat.add_sub_cancel_left, take_one, head?_drop] at taken
      rcases mem_append.mp taken with before | next
      · exact ih.behind other before
      · exact .inr ⟨index, results, nodeId, other, pass, here, missing, Option.mem_toList.mp next,
          rfl⟩
    · intro stored
      cases index with
      | zero =>
        rw [← head?_eq_getElem?, ih.first stored] at here
        rw [Option.some.inj here] at stored
        exact absurd stored missing
      | succ index =>
        rw [head?_eq_getElem?, getElem?_eraseIdx_of_lt (Nat.succ_pos index), ← head?_eq_getElem?]
        exact ih.first stored
    · rw [length_eraseIdx_of_lt inside]
      omega

theorem typeHierarchyFrom_succ (store : Nodestore) (passes index : Nat) (results : List NodeId) :
    (results[index]? = none ∧ typeHierarchyFrom store (passes + 1) index results = some results) ∨
      (∃ nodeId, results[index]? = some nodeId ∧ store.getNode nodeId = none ∧
        typeHierarchyFrom store (passes + 1) index results =
          typeHierarchyFrom store passes (index + 1) (results.eraseIdx index)) ∨
      ∃ nodeId node, results[index]? = some nodeId ∧ store.getNode nodeId = some node ∧
        typeHierarchyFrom store (passes + 1) index results =
          typeHierarchyFrom store passes (index + 1) (appendSupertypes results node) := by
  rw [typeHierarchyFrom]
  cases here : results[index]? with
  | none => exact .inl ⟨rfl, rfl⟩
  | some nodeId =>
    dsimp only
    cases found : store.getNode nodeId with
    | none => exact .inr (.inl ⟨nodeId, rfl, found, rfl⟩)
    | some node => exact .inr (.inr ⟨nodeId, node, rfl, found, rfl⟩)

theorem typeHierarchyFrom_more {more : Nat} (enough : passes ≤ more)
    (ran : typeHierarchyFrom store passes index results = some after) :
    typeHierarchyFrom store more index results = some after := by
  induction passes generalizing more index results with
  | zero => cases ran
  | succ passes ih =>
    obtain ⟨more, rfl⟩ : ∃ fewer, more = fewer + 1 := ⟨more - 1, by omega⟩
    rw [typeHierarchyFrom] at ran ⊢
    cases here : results[index]? with
    | none =>
      rw [here] at ran
      exact ran
    | some nodeId =>
      rw [here] at ran
      dsimp only at ran ⊢
      cases found : store.getNode nodeId with
      | none =>
        rw [found] at ran
        exact ih (by omega) ran
      | some node =>
        rw [found] at ran
        exact ih (by omega) ran

theorem HierarchyPass.last (pass : HierarchyPass store leafType index results)
    (ran : typeHierarchyFrom store passes index results = some after) :
    ∃ last, HierarchyPass store leafType last after ∧ after.length ≤ last := by
  induction passes generalizing index results with
  | zero => cases ran
  | succ passes ih =>
    rcases typeHierarchyFrom_succ store passes index results with
      ⟨here, ends⟩ | ⟨nodeId, here, missing, next⟩ | ⟨nodeId, node, here, found, next⟩
    · obtain rfl := Option.some.inj (ends.symm.trans ran)
      exact ⟨index, pass, getElem?_eq_none_iff.mp here⟩
    · exact ih (pass.removed here missing) (next.symm.trans ran)
    · exact ih (pass.looked here found) (next.symm.trans ran)

theorem typeHierarchyFrom_keeps (stored : id ∈ store.stored)
    (ran : typeHierarchyFrom store passes index results = some after)
    (listed : id ∈ results.map NodeId.content) : id ∈ after.map NodeId.content := by
  induction passes generalizing index results with
  | zero => cases ran
  | succ passes ih =>
    rcases typeHierarchyFrom_succ store passes index results with
      ⟨here, ends⟩ | ⟨nodeId, here, missing, next⟩ | ⟨nodeId, node, here, found, next⟩
    · obtain rfl := Option.some.inj (ends.symm.trans ran)
      exact listed
    · refine ih (next.symm.trans ran) ?_
      obtain ⟨inside, at_⟩ := List.getElem?_eq_some_iff.mp here
      obtain ⟨other, member, rfl⟩ := List.mem_map.mp listed
      refine List.mem_map_of_mem ?_
      rw [List.eraseIdx_eq_take_drop_succ, mem_append]
      rw [← take_append_drop index results, drop_eq_getElem_cons inside, at_] at member
      rcases mem_append.mp member with before | behind
      · exact .inl before
      · rcases mem_cons.mp behind with rfl | behind
        · exact absurd stored (getNode_eq_none.mp missing)
        · exact .inr behind
    · refine ih (next.symm.trans ran) ?_
      rw [getNode_eq] at found
      have content := nodeAt_content found
      rw [← content] at found
      exact ((appendSupertypes_appends store _ found).listed id).mpr (.inl listed)

theorem HierarchyPass.ends (ran : typeHierarchyFrom store passes 0 [leafType] = some after)
    (pass : HierarchyPass store leafType index results) :
    ∃ left, typeHierarchyFrom store left index results = some after := by
  induction pass with
  | start => exact ⟨passes, ran⟩
  | @looked index results nodeId node pass here found ih =>
    obtain ⟨left, goes⟩ := ih
    cases left with
    | zero => cases goes
    | succ left =>
      rw [typeHierarchyFrom, here] at goes
      dsimp only at goes
      rw [found] at goes
      exact ⟨left, goes⟩
  | @removed index results nodeId pass here missing ih =>
    obtain ⟨left, goes⟩ := ih
    cases left with
    | zero => cases goes
    | succ left =>
      rw [typeHierarchyFrom, here] at goes
      dsimp only at goes
      rw [missing] at goes
      exact ⟨left, goes⟩

theorem Nodestore.LooksAt.listed {source super : NodeIdContent}
    (looks : store.LooksAt leafType source)
    (ran : typeHierarchyFrom store passes 0 [leafType] = some after)
    (inverse : store.Inverse [hasSubtypeId] source super) (stored : super ∈ store.stored) :
    super ∈ after.map NodeId.content := by
  obtain ⟨index, results, nodeId, pass, here, rfl, node, found⟩ := looks
  have next := pass.looked here ((getNode_eq store nodeId).trans found)
  obtain ⟨left, goes⟩ := next.ends ran
  refine typeHierarchyFrom_keeps stored goes ?_
  have content := nodeAt_content found
  rw [← content] at found inverse
  exact ((appendSupertypes_appends store _ found).listed super).mpr (.inr inverse)

/-! The end of the loop -/

def Nodestore.mentioned (store : Nodestore) (leafType : NodeId) : List NodeIdContent :=
  leafType.content :: store.nodes.flatMap fun node => node.references.flatMap fun refs =>
    refs.targetIds.map fun target => target.nodeId.content

theorem mem_mentioned (reached : ReflTransGen (store.Inverse [hasSubtypeId]) leafType.content id) :
    id ∈ store.mentioned leafType := by
  rcases ReflTransGen.cases_tail reached with rfl | ⟨source, -, inverse⟩
  · exact mem_cons_self
  · obtain ⟨node, found, refs, member, -, -, target, inside, rfl⟩ := inverse_iff.mp inverse
    refine mem_cons_of_mem _ (mem_flatMap.mpr ⟨node, mem_of_find?_eq_some found, ?_⟩)
    exact mem_flatMap.mpr ⟨refs, member, List.mem_map_of_mem inside⟩

theorem HierarchyPass.length_le (pass : HierarchyPass store leafType index results) :
    results.length ≤ (store.mentioned leafType).length := by
  have holds := pass.holds
  have inside := (holds.once.subperm fun id listed => mem_mentioned (holds.reached id listed)).length_le
  rwa [length_map] at inside

theorem HierarchyPass.exists_end (pass : HierarchyPass store leafType index results)
    (enough : (store.mentioned leafType).length + 1 < passes + index) :
    ∃ after, typeHierarchyFrom store passes index results = some after := by
  induction passes generalizing index results with
  | zero =>
    have near := pass.holds.near
    have short := pass.length_le
    omega
  | succ passes ih =>
    rcases typeHierarchyFrom_succ store passes index results with
      ⟨-, ends⟩ | ⟨nodeId, here, missing, next⟩ | ⟨nodeId, node, here, found, next⟩
    · exact ⟨results, ends⟩
    · rw [next]
      exact ih (pass.removed here missing) (by omega)
    · rw [next]
      exact ih (pass.looked here found) (by omega)

theorem typeHierarchyFrom_ends (store : Nodestore) (leafType : NodeId) : ∃ results passes,
    ∀ more ≥ passes, typeHierarchyFrom store more 0 [leafType] = some results := by
  have begins : HierarchyPass store leafType 0 [leafType] := .start
  have enough : (store.mentioned leafType).length + 1 < (store.mentioned leafType).length + 2 + 0 := by
    omega
  obtain ⟨results, ran⟩ := begins.exists_end enough
  exact ⟨results, _, fun _ enough => typeHierarchyFrom_more enough ran⟩

/-! What is looked at before an id without a node -/

structure Layered (store : Nodestore) (leafType : NodeId) (index : Nat) (results : List NodeId) :
    Prop where
  looked : ∀ nodeId ∈ results.take index, store.LooksAt leafType nodeId.content
  expanded : ∀ nodeId ∈ results.take index, ∀ super,
    store.Inverse [hasSubtypeId] nodeId.content super → super ∈ results.map NodeId.content
  layered : ∀ place nodeId, results[place]? = some nodeId → ∀ distance,
    ¬Within (store.Inverse [hasSubtypeId]) distance leafType.content nodeId.content → ∀ id,
      Within (store.Inverse [hasSubtypeId]) distance leafType.content id →
        id ∈ (results.take place).map NodeId.content

theorem Layered.next (layers : Layered store leafType index results)
    (leaf : leafType ∈ results) (here : results[index]? = some nodeId)
    (looks : store.LooksAt leafType nodeId.content)
    (appends : Appends results after (store.Inverse [hasSubtypeId] nodeId.content)) :
    Layered store leafType (index + 1) after := by
  obtain ⟨inside, at_⟩ := List.getElem?_eq_some_iff.mp here
  obtain ⟨added, rfl⟩ := appends.behind
  have taken : (results ++ added).take (index + 1) = results.take index ++ [nodeId] := by
    rw [take_append_of_le_length inside, take_add_one, here]
    rfl
  refine ⟨?_, ?_, ?_⟩
  · rw [taken]
    intro other member
    rcases mem_append.mp member with before | last
    · exact layers.looked other before
    · exact mem_singleton.mp last ▸ looks
  · rw [taken]
    intro other member super inverse
    refine (appends.listed super).mpr ?_
    rcases mem_append.mp member with before | last
    · exact .inl (layers.expanded other before super inverse)
    · exact .inr (mem_singleton.mp last ▸ inverse)
  · intro place other there distance far id near
    by_cases old : place < results.length
    · rw [getElem?_append_left old] at there
      rw [take_append_of_le_length old.le]
      exact layers.layered place other there distance far id near
    · have whole : ∀ listed ∈ results.map NodeId.content,
          listed ∈ ((results ++ added).take place).map NodeId.content := by
        rw [take_append, take_of_length_le (Nat.le_of_not_lt old), map_append]
        exact fun _ => mem_append_left _
      have listed : other.content ∈ (results ++ added).map NodeId.content :=
        List.mem_map_of_mem (mem_of_getElem? there)
      rcases (appends.listed other.content).mp listed with before | new
      · obtain ⟨twin, member, same⟩ := List.mem_map.mp before
        obtain ⟨position, at_⟩ := List.mem_iff_getElem?.mp member
        exact whole id (((take_sublist position results).map _).subset
          (layers.layered position twin at_ distance (same ▸ far) id near))
      · refine whole id ?_
        cases distance with
        | zero =>
          have same : leafType.content = id := near
          exact same ▸ mem_map_of_mem leaf
        | succ distance =>
          rcases near.last with rfl | ⟨source, nearer, inverse⟩
          · exact mem_map_of_mem leaf
          · obtain ⟨known, member, rfl⟩ := List.mem_map.mp (layers.layered index nodeId here distance
              (fun within => far (within.snoc new)) source nearer)
            exact layers.expanded known member id inverse

theorem Layered.covers (layers : Layered store leafType index results)
    (here : results[index]? = some nodeId) {distance : Nat}
    (far : ¬Within (store.Inverse [hasSubtypeId]) distance leafType.content nodeId.content)
    (near : Within (store.Inverse [hasSubtypeId]) distance leafType.content id) :
    store.LooksAt leafType id := by
  obtain ⟨other, member, rfl⟩ := List.mem_map.mp
    (layers.layered index nodeId here distance far id near)
  exact layers.looked other member

/-- The array is in the order of the distances, up to the first id that has no node. -/
theorem HierarchyPass.layered (pass : HierarchyPass store leafType index results) :
    (leafType ∈ results ∧ Layered store leafType index results) ∨
      ∃ index results dangling, HierarchyPass store leafType index results ∧
        results[index]? = some dangling ∧ dangling.content ∉ store.stored ∧
          Layered store leafType index results := by
  induction pass with
  | start =>
    refine .inl ⟨mem_cons_self, nofun, nofun, ?_⟩
    intro place nodeId there distance far
    have same : leafType = nodeId := by
      cases place with
      | zero => exact Option.some.inj there
      | succ place => cases there
    exact absurd (same ▸ Within.refl _ distance _) far
  | @looked index results nodeId node pass here found ih =>
    rcases ih with ⟨leaf, layers⟩ | dangles
    · rw [getNode_eq] at found
      have content := nodeAt_content found
      have looks : store.LooksAt leafType nodeId.content :=
        ⟨index, results, nodeId, pass, here, rfl, node, found⟩
      rw [← content] at found
      have appends := appendSupertypes_appends store results found
      rw [content] at appends
      obtain ⟨added, same⟩ := appends.behind
      exact .inl ⟨same ▸ mem_append_left added leaf, layers.next leaf here looks appends⟩
    · exact .inr dangles
  | @removed index results nodeId pass here missing ih =>
    rcases ih with ⟨-, layers⟩ | dangles
    · exact .inr ⟨index, results, nodeId, pass, here, getNode_eq_none.mp missing, layers⟩
    · exact .inr dangles

theorem HierarchyPass.next_other {next : NodeId} (pass : HierarchyPass store leafType index results)
    (here : results[index]? = some nodeId) (behind : results[index + 1]? = some next) :
    next.content ≠ nodeId.content := by
  intro same
  have inside : index < (results.map NodeId.content).length := by
    rw [length_map]
    exact (List.getElem?_eq_some_iff.mp here).1
  have twice : (results.map NodeId.content)[index]? =
      (results.map NodeId.content)[index + 1]? := by
    rw [getElem?_map, getElem?_map, here, behind, Option.map_some, Option.map_some, same]
  exact absurd ((List.getElem?_inj inside pass.holds.once).mp twice) (Nat.ne_of_lt (Nat.lt_succ_self _))

/-- At most one id without a node can be reached, and nothing is farther away than this id. -/
def Nodestore.DanglesLast (store : Nodestore) (leafType : NodeId) : Prop :=
  ∀ dangling id, ReflTransGen (store.Inverse [hasSubtypeId]) leafType.content dangling →
    dangling ∉ store.stored → ReflTransGen (store.Inverse [hasSubtypeId]) leafType.content id →
      (id ∉ store.stored → id = dangling) ∧ ∀ distance,
        Within (store.Inverse [hasSubtypeId]) distance leafType.content dangling →
          Within (store.Inverse [hasSubtypeId]) distance leafType.content id

theorem Nodestore.DanglesLast.losesNothing (last : store.DanglesLast leafType) :
    store.LosesNothing leafType := by
  rintro _ ⟨index, results, nodeId, next, pass, here, missing, behind, rfl⟩
  have holds := pass.holds
  have reached := holds.reached _ (List.mem_map_of_mem (mem_of_getElem? here))
  have reachedNext := holds.reached _ (List.mem_map_of_mem (mem_of_getElem? behind))
  have stored : next.content ∈ store.stored := by
    by_contra absent
    exact pass.next_other here behind ((last _ _ reached missing reachedNext).1 absent)
  refine ⟨stored, fun super there inverse => ?_⟩
  obtain ⟨_, results, dangling, first, place, absent, layers⟩ :
      ∃ index results dangling, HierarchyPass store leafType index results ∧
        results[index]? = some dangling ∧ dangling.content ∉ store.stored ∧
          Layered store leafType index results := by
    rcases pass.layered with ⟨-, layers⟩ | dangles
    · exact ⟨index, results, nodeId, pass, here, missing, layers⟩
    · exact dangles
  have way := first.holds.reached _ (List.mem_map_of_mem (mem_of_getElem? place))
  have near := (last dangling.content super way absent (reachedNext.tail inverse)).2
  obtain ⟨bound, within⟩ := exists_within way
  obtain ⟨least, -, nearest, fewer⟩ := within.exists_least
  cases least with
  | zero => exact .inl (near 0 nearest).symm
  | succ distance =>
    rcases (near _ nearest).last with same | ⟨source, nearer, final⟩
    · exact .inl same.symm
    · exact .inr ⟨source, layers.covers place (fewer distance (Nat.lt_succ_self _)) nearer, final⟩

theorem typeHierarchyFrom_lists {passes : Nat}
    (ran : typeHierarchyFrom store passes 0 [leafType] = some results)
    (harmless : store.LosesNothing leafType) : store.ListsHierarchy leafType results := by
  have begins : HierarchyPass store leafType 0 [leafType] := .start
  obtain ⟨last, pass, ends⟩ := begins.last ran
  have holds := pass.holds
  have settled : ∀ id ∈ results.map NodeId.content,
      store.LooksAt leafType id ∨ store.PassesOver leafType id := by
    intro id listed
    obtain ⟨nodeId, member, rfl⟩ := List.mem_map.mp listed
    exact holds.behind nodeId (by rwa [take_of_length_le ends])
  have stored : ∀ id ∈ results.map NodeId.content, id ∈ store.stored := by
    intro id listed
    rcases settled id listed with ⟨_, _, _, _, _, _, there⟩ | passed
    · exact there
    · exact (harmless id passed).1
  refine ⟨holds.once, ?_, holds.first⟩
  intro id
  refine ⟨fun listed => ⟨stored id listed, holds.reached id listed⟩, ?_⟩
  rintro ⟨there, reached⟩
  induction reached with
  | refl => exact typeHierarchyFrom_keeps there ran mem_cons_self
  | @tail source super before inverse ih =>
    rcases settled source (ih inverse.stored) with looked | passed
    · exact looked.listed ran inverse there
    · rcases (harmless source passed).2 super there inverse with rfl | ⟨other, looked, also⟩
      · exact typeHierarchyFrom_keeps there ran mem_cons_self
      · exact looked.listed ran also there

end Passes

/-- The loop ends for every address space. Its result is the hierarchy of the leaf if no id without
a node stands in front of others. -/
theorem getTypeHierarchy_lists (store : Nodestore) (leafType : NodeId) : ∃ results,
    (∃ passes, ∀ more ≥ passes, typeHierarchyFrom store more 0 [leafType] = some results) ∧
      (store.DanglesLast leafType → store.ListsHierarchy leafType results) := by
  obtain ⟨results, passes, ends⟩ := typeHierarchyFrom_ends store leafType
  exact ⟨results, ⟨passes, ends⟩, fun last =>
    typeHierarchyFrom_lists (ends passes (Nat.le_refl passes)) last.losesNothing⟩

def orphanTypeId (identifier : BitVec 32) : NodeId := ⟨1, .numeric identifier⟩

def orphanType (identifier : BitVec 32) (supertypes : List (BitVec 32)) : Node :=
  ⟨orphanTypeId identifier, .objectType, ⟨1, .null⟩, ⟨.null, .null⟩, false,
    [⟨hasSubtypeId, true, supertypes.map fun supertype => .ofNodeId (orphanTypeId supertype)⟩]⟩

def lastOrphan : Nodestore where
  nodes := [orphanType 1 [2], orphanType 2 [3, 9], orphanType 3 []]

theorem orphanType_inverse {nodes : List Node} {source : BitVec 32} {supertypes : List (BitVec 32)}
    (found : (Nodestore.mk nodes).nodeAt (orphanTypeId source).content =
      some (orphanType source supertypes)) {id : NodeIdContent} :
    (Nodestore.mk nodes).Inverse [hasSubtypeId] (orphanTypeId source).content id ↔
      ∃ supertype ∈ supertypes, (orphanTypeId supertype).content = id := by
  rw [inverse_iff, found]
  simp [orphanType, ExpandedNodeId.ofNodeId]

theorem lastOrphan_danglesLast : lastOrphan.DanglesLast (orphanTypeId 1) := by
  intro dangling id reached absent reachedToo
  have one (id : NodeIdContent) : lastOrphan.Inverse [hasSubtypeId] (orphanTypeId 1).content id ↔
      ∃ supertype ∈ [2], (orphanTypeId supertype).content = id := orphanType_inverse rfl
  have two (id : NodeIdContent) : lastOrphan.Inverse [hasSubtypeId] (orphanTypeId 2).content id ↔
      ∃ supertype ∈ [3, 9], (orphanTypeId supertype).content = id := orphanType_inverse rfl
  have listed {id : NodeIdContent} (reached : ReflTransGen (lastOrphan.Inverse [hasSubtypeId])
      (orphanTypeId 1).content id) : id = (orphanTypeId 1).content ∨ id = (orphanTypeId 2).content ∨
        id = (orphanTypeId 3).content ∨ id = (orphanTypeId 9).content := by
    simpa [Nodestore.mentioned, lastOrphan, orphanType, ExpandedNodeId.ofNodeId] using
      mem_mentioned reached
  have last {id : NodeIdContent} (reached : ReflTransGen (lastOrphan.Inverse [hasSubtypeId])
      (orphanTypeId 1).content id) (absent : id ∉ lastOrphan.stored) :
      id = (orphanTypeId 9).content := by
    rcases listed reached with rfl | rfl | rfl | rfl
    · exact absurd ⟨_, rfl⟩ absent
    · exact absurd ⟨_, rfl⟩ absent
    · exact absurd ⟨_, rfl⟩ absent
    · rfl
  obtain rfl := last reached absent
  refine ⟨last reachedToo, ?_⟩
  intro distance near
  match distance, near with
  | 0, near => cases near
  | 1, near =>
    obtain ⟨source, rfl, taken⟩ := near.last.resolve_left nofun
    obtain ⟨supertype, only, same⟩ := (one _).mp taken
    rw [mem_singleton.mp only] at same
    cases same
  | distance + 2, _ =>
    have middle := (Within.refl (lastOrphan.Inverse [hasSubtypeId]) distance _).snoc
      ((one (orphanTypeId 2).content).mpr ⟨2, by simp, rfl⟩)
    rcases listed reachedToo with rfl | rfl | rfl | rfl
    · exact .refl _ _ _
    · exact .inr ⟨_, (one _).mpr ⟨2, by simp, rfl⟩, .refl _ _ _⟩
    · exact middle.snoc ((two _).mpr ⟨3, by simp, rfl⟩)
    · exact middle.snoc ((two _).mpr ⟨9, by simp, rfl⟩)

theorem lastOrphan_lists : ∃ results, (∃ passes, ∀ more ≥ passes,
      typeHierarchyFrom lastOrphan more 0 [orphanTypeId 1] = some results) ∧
      lastOrphan.ListsHierarchy (orphanTypeId 1) results := by
  obtain ⟨results, ends, lists⟩ := getTypeHierarchy_lists lastOrphan (orphanTypeId 1)
  exact ⟨results, ends, lists lastOrphan_danglesLast⟩

def orphanedTypes : Nodestore where
  nodes := [orphanType 1 [9, 2], orphanType 2 [3], orphanType 3 []]

/-- The supertype of the second supertype is missing. -/
theorem orphanedTypes_incomplete : ¬∃ results, (∃ passes, ∀ more ≥ passes,
      typeHierarchyFrom orphanedTypes more 0 [orphanTypeId 1] = some results) ∧
      orphanedTypes.ListsHierarchy (orphanTypeId 1) results := by
  rintro ⟨results, ⟨passes, ends⟩, lists⟩
  have short : typeHierarchyFrom orphanedTypes 3 0 [orphanTypeId 1] =
      some [orphanTypeId 1, orphanTypeId 2] := by decide
  have result := typeHierarchyFrom_more (Nat.le_max_right passes 3) short
  obtain rfl := Option.some.inj (result.symm.trans (ends _ (Nat.le_max_left passes 3)))
  have missing : (orphanTypeId 3).content ∉
      [orphanTypeId 1, orphanTypeId 2].map NodeId.content := by
    rw [← anyEqual_iff]
    decide
  apply missing
  rw [lists.complete]
  refine ⟨⟨_, rfl⟩, .tail (.single ((orphanType_inverse rfl).mpr ⟨2, by simp, rfl⟩)) ?_⟩
  exact (orphanType_inverse rfl).mpr ⟨3, by simp, rfl⟩

end OpcUa
