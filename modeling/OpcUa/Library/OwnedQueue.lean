import Mathlib

/-!
A queue whose entries belong to owners, and the account of what became of every entry. The part of
an owner is the subsequence of its entries. An entry can be moved behind another one of its owner
so that the order in every part stays the same.
-/

namespace OwnedQueue

open List

variable {Entry Owner : Type}

section Moving

variable [DecidableEq Entry]
variable {target entry : Entry} {queue : List Entry} {holds : Entry → Bool}

def insertAfter (target entry : Entry) : List Entry → List Entry
  | [] => []
  | first :: rest =>
    if first = target then first :: entry :: rest
    else first :: insertAfter target entry rest

def moveBehind (target entry : Entry) (queue : List Entry) : List Entry :=
  insertAfter target entry (queue.erase entry)

theorem insertAfter_split (entry : Entry) {front : List Entry} (back : List Entry)
    (absent : target ∉ front) :
    insertAfter target entry (front ++ target :: back) = front ++ target :: entry :: back := by
  induction front with
  | nil => simp [insertAfter]
  | cons first front ih =>
    obtain ⟨different, absent⟩ := not_or.mp (mt mem_cons.mpr absent)
    rw [cons_append, insertAfter, if_neg (Ne.symm different), ih absent]
    rfl

theorem insertAfter_perm (entry : Entry) (present : target ∈ queue) :
    (insertAfter target entry queue).Perm (entry :: queue) := by
  induction queue with
  | nil => cases present
  | cons first queue ih =>
    rw [insertAfter]
    by_cases same : first = target
    · rw [if_pos same]
      exact List.Perm.swap entry first queue
    · rw [if_neg same]
      have later := (mem_cons.mp present).resolve_left (Ne.symm same)
      exact ((ih later).cons first).trans (List.Perm.swap entry first queue)

theorem insertAfter_filter_of_not (target : Entry) (other : holds entry = false)
    (queue : List Entry) : (insertAfter target entry queue).filter holds = queue.filter holds := by
  induction queue with
  | nil => rfl
  | cons first queue ih =>
    rw [insertAfter]
    by_cases same : first = target
    · rw [if_pos same, filter_cons, filter_cons_of_neg (by simp [other]), filter_cons]
    · rw [if_neg same, filter_cons, ih, filter_cons]

theorem moveBehind_perm (different : target ≠ entry) (target_mem : target ∈ queue)
    (entry_mem : entry ∈ queue) : (moveBehind target entry queue).Perm queue := by
  have present : target ∈ queue.erase entry := (mem_erase_of_ne different).mpr target_mem
  exact (insertAfter_perm entry present).trans (perm_cons_erase entry_mem).symm

theorem moveBehind_filter_of_not (target : Entry) (other : holds entry = false)
    (queue : List Entry) : (moveBehind target entry queue).filter holds = queue.filter holds := by
  rw [moveBehind, insertAfter_filter_of_not target other, ← erase_filter]
  apply erase_of_not_mem
  intro member
  rw [mem_filter, other] at member
  exact absurd member.2 Bool.false_ne_true

theorem moveBehind_filter_adjacent {before after : List Entry} (nodup : queue.Nodup)
    (adjacent : queue.filter holds = before ++ target :: entry :: after) :
    (moveBehind target entry queue).filter holds = queue.filter holds := by
  obtain ⟨front, rest, rfl, front_part, rest_part⟩ := filter_eq_append_iff.mp adjacent
  obtain ⟨between, rest, rfl, between_none, target_holds, rest_part⟩ :=
    filter_eq_cons_iff.mp rest_part
  obtain ⟨gap, back, rfl, gap_none, entry_holds, back_part⟩ :=
    filter_eq_cons_iff.mp rest_part
  have queue_eq : front ++ (between ++ target :: (gap ++ entry :: back)) =
      (front ++ between ++ target :: gap) ++ entry :: back := by simp
  rw [queue_eq] at nodup ⊢
  have entry_absent : entry ∉ front ++ between ++ target :: gap := by
    intro member
    exact (nodup_append.mp nodup).2.2 entry member entry (mem_cons_self ..) rfl
  have target_absent : target ∉ front ++ between := by
    intro member
    have inner := (nodup_append.mp nodup).1
    exact (nodup_append.mp inner).2.2 target member target (mem_cons_self ..) rfl
  have erased : ((front ++ between ++ target :: gap) ++ entry :: back).erase entry =
      (front ++ between) ++ target :: (gap ++ back) := by
    rw [erase_append_right _ entry_absent, erase_cons_head]
    simp
  have gap_part : gap.filter holds = [] := filter_eq_nil_iff.mpr gap_none
  rw [moveBehind, erased, insertAfter_split entry _ target_absent]
  simp only [filter_append, filter_cons, target_holds, entry_holds, if_true, gap_part]
  simp

end Moving

section Parts

variable [DecidableEq Owner]

theorem sum_indicator {owners : List Owner} (nodup : owners.Nodup) {owner : Owner}
    (member : owner ∈ owners) :
    (owners.map fun other => if owner = other then 1 else 0).sum = 1 := by
  induction owners with
  | nil => cases member
  | cons first owners ih =>
    obtain ⟨absent, nodup⟩ := nodup_cons.mp nodup
    rw [map_cons, sum_cons]
    by_cases same : owner = first
    · have others : (owners.map fun other => if owner = other then 1 else 0) =
          owners.map fun _ => 0 := by
        apply map_congr_left
        intro other present
        rw [if_neg]
        rintro rfl
        exact absent (same ▸ present)
      rw [others, if_pos same]
      simp
    · have later := (mem_cons.mp member).resolve_left same
      rw [if_neg same, ih nodup later]

theorem sum_parts {owners : List Owner} (nodup : owners.Nodup) (owner : Entry → Option Owner)
    {queue : List Entry} (covered : ∀ entry ∈ queue, ∃ key ∈ owners, owner entry = some key) :
    (owners.map fun key => (queue.filter fun entry => owner entry = some key).length).sum =
      queue.length := by
  induction queue with
  | nil => simp
  | cons entry queue ih =>
    obtain ⟨key, member, belongs⟩ := covered entry (mem_cons_self ..)
    have step : ∀ other : Owner,
        ((entry :: queue).filter fun entry => owner entry = some other).length =
          (queue.filter fun entry => owner entry = some other).length +
            if key = other then 1 else 0 := by
      intro other
      rw [filter_cons, belongs]
      by_cases same : key = other <;> simp [same]
    simp only [step, sum_map_add, sum_indicator nodup member, length_cons]
    rw [ih fun entry present => covered entry (mem_cons_of_mem _ present)]

end Parts

/-- What became of the entries. The created ones stand in the order of their creation. -/
structure Ledger (Owner Entry : Type) where
  created : List (Owner × Entry)
  dropped : List Entry
  sent : Owner → List Entry
  queued : Owner → List Entry

namespace Ledger

variable [DecidableEq Owner]

def createdBy (ledger : Ledger Owner Entry) (owner : Owner) : List Entry :=
  (ledger.created.filter (·.1 = owner)).map Prod.snd

theorem mem_createdBy {ledger : Ledger Owner Entry} {owner : Owner} {entry : Entry} :
    entry ∈ ledger.createdBy owner ↔ (owner, entry) ∈ ledger.created := by
  simp [createdBy]

section Account

variable [DecidableEq Entry]

/-- Per owner, what was sent and what is queued is what was created and not dropped, in the order
of creation. -/
structure Balanced (ledger : Ledger Owner Entry) : Prop where
  distinct : (ledger.created.map Prod.snd).Nodup
  known : ∀ entry ∈ ledger.dropped, entry ∈ ledger.created.map Prod.snd
  account : ∀ owner, ledger.sent owner ++ ledger.queued owner =
    (ledger.createdBy owner).filter (· ∉ ledger.dropped)

variable {ledger after : Ledger Owner Entry}

namespace Balanced

variable {owner : Owner} {entry : Entry}

section

variable (balanced : Balanced ledger)
include balanced

theorem createdBy_nodup (owner : Owner) : (ledger.createdBy owner).Nodup :=
  balanced.distinct.sublist (filter_sublist.map _)

theorem nodup (owner : Owner) : (ledger.sent owner ++ ledger.queued owner).Nodup := by
  rw [balanced.account owner]
  exact (balanced.createdBy_nodup owner).filter _

theorem created_of_mem (member : entry ∈ ledger.sent owner ++ ledger.queued owner) :
    (owner, entry) ∈ ledger.created := by
  rw [balanced.account owner, mem_filter] at member
  exact mem_createdBy.mp member.1

theorem owner_unique {first second : Owner} (one : (first, entry) ∈ ledger.created)
    (other : (second, entry) ∈ ledger.created) : first = second :=
  congrArg Prod.fst (inj_on_of_nodup_map balanced.distinct one other rfl)

theorem unsent (queued : entry ∈ ledger.queued owner) (other : Owner) :
    entry ∉ ledger.sent other := by
  intro sent
  have same := balanced.owner_unique (balanced.created_of_mem (mem_append_right _ queued))
    (balanced.created_of_mem (mem_append_left _ sent))
  subst same
  exact (nodup_append.mp (balanced.nodup owner)).2.2 entry sent entry queued rfl

theorem create (fresh : entry ∉ ledger.created.map Prod.snd)
    (created : after.created = ledger.created ++ [(owner, entry)])
    (dropped : after.dropped = ledger.dropped) (sent : after.sent = ledger.sent)
    (queued : ∀ other, after.queued other = ledger.queued other ++ if owner =
      other then [entry] else []) :
    Balanced after where
  distinct := by
    rw [created, map_append, nodup_append]
    refine ⟨balanced.distinct, by simp, ?_⟩
    rintro other present same member rfl
    rw [map_singleton, mem_singleton] at member
    subst member
    exact fresh present
  known := by
    intro entry member
    rw [created, map_append]
    exact mem_append_left _ (balanced.known entry (dropped ▸ member))
  account := by
    intro other
    have undropped : entry ∉ ledger.dropped := fun member => fresh (balanced.known entry member)
    have part : after.createdBy other =
        ledger.createdBy other ++ if owner = other then [entry] else [] := by
      rw [createdBy, created, filter_append, map_append]
      by_cases same : owner = other <;> simp [createdBy, same]
    rw [part, filter_append, dropped, ← balanced.account other, sent, queued other, append_assoc]
    by_cases same : owner = other <;> simp [same, undropped]

theorem drop (member : entry ∈ ledger.queued owner) (created : after.created = ledger.created)
    (dropped : after.dropped = ledger.dropped ++ [entry]) (sent : after.sent = ledger.sent)
    (queued : ∀ other, after.queued other = (ledger.queued other).erase entry) :
    Balanced after where
  distinct := created ▸ balanced.distinct
  known := by
    intro other present
    rw [dropped, mem_append, mem_singleton] at present
    rw [created]
    rcases present with present | rfl
    · exact balanced.known other present
    · have pair := balanced.created_of_mem (mem_append_right _ member)
      exact mem_map_of_mem pair
  account := by
    intro other
    have part : after.createdBy other = ledger.createdBy other := by
      rw [createdBy, created, createdBy]
    have split : (ledger.createdBy other).filter (· ∉ after.dropped) =
        ((ledger.createdBy other).filter (· ∉ ledger.dropped)).filter (· != entry) := by
      rw [filter_filter, dropped]
      apply filter_congr
      intro candidate _
      by_cases same : candidate = entry <;> simp [same]
    have nodup := (nodup_append.mp (balanced.nodup other)).2.1
    rw [part, split, ← balanced.account other, filter_append, sent, queued other,
      nodup.erase_eq_filter]
    congr 1
    symm
    rw [filter_eq_self]
    intro candidate present
    rw [bne_iff_ne]
    rintro rfl
    exact balanced.unsent member other present

theorem move (created : after.created = ledger.created) (dropped : after.dropped = ledger.dropped)
    (moved : ∀ owner, after.sent owner ++ after.queued owner =
      ledger.sent owner ++ ledger.queued owner) :
    Balanced after where
  distinct := created ▸ balanced.distinct
  known := by
    intro entry member
    rw [created]
    exact balanced.known entry (dropped ▸ member)
  account := by
    intro owner
    rw [moved owner, balanced.account owner, createdBy, createdBy, created, dropped]

end

end Balanced

end Account

end Ledger

end OwnedQueue
