import OpcUa.MulticastTable

/-!
The runs in which the table of servers is right. The number of entries is never counted up, so it
is right only in runs without a server. What else can go wrong are names that are mixed up and paths
that are released twice.
-/

namespace OpcUa

open LittleEndian ServerTable List

/-- The list and the hash map have one entry for each server that was announced and not withdrawn
since, they are counted, and no path was released twice. -/
structure ServerTable.Correct (table : ServerTable) (arrivals : List ResourceArrival) : Prop where
  linked : ∃ bucket, table.Linked bucket
  represents : table.Represents (announcedBy arrivals)
  counted : table.serverOnNetworkSize.toNat = table.serverOnNetwork.length
  released : table.released.Nodup

def OwnEntryOnly (table after : ServerTable) (r : Resource) : Prop :=
  ∀ entry : ServerEntry, r.serverName ≠ some entry.name →
    (entry ∈ table.serverOnNetwork ↔ entry ∈ after.serverOnNetwork)

structure CorrectThroughout (start : BitVec 64) (arrivals : List ResourceArrival) : Prop where
  states : ∀ before, before <+: arrivals → (serversAfter start before).Correct before
  steps : ∀ before arrival, before ++ [arrival] <+: arrivals →
    OwnEntryOnly (serversAfter start before) (serversAfter start (before ++ [arrival]))
      arrival.resource

def Resource.Announces (r : Resource) : Prop := r.serverName ≠ none ∧ r.ttl ≠ 0

def recordOf (name : List Byte) (ttl : Nat) (data : ResourceData) : ResourceArrival where
  resource := ⟨name ++ [46] ++ opcuaTcpText ++ [108, 111, 99, 97, 108, 46], true, ttl, data⟩
  clock := ⟨1, 1⟩

def announcedServer : ResourceArrival := recordOf [97] 120 (.srv [104, 46] 4840)

section Runs

variable {start : BitVec 64} {arrivals : List ResourceArrival} {arrival : ResourceArrival}

section

variable (silent : ∀ arrival ∈ arrivals, ¬arrival.resource.Announces)
include silent

theorem serversAfter_silent : serversAfter start arrivals = .new start := by
  induction arrivals using List.reverseRecOn with
  | nil => rfl
  | append_singleton arrivals arrival ih =>
    rw [serversAfter_snoc, ih fun earlier member => silent earlier (mem_append_left _ member)]
    have quiet := silent arrival (mem_append_right _ (mem_singleton_self _))
    have receives := mdnsRecordReceived_receives (.new start) arrival.clock arrival.resource
    generalize ServerTable.mdnsRecordReceived _ _ _ = after at receives ⊢
    cases receives with
    | ignored => rfl
    | unknown => rfl
    | created about missing announcement =>
      have named : arrival.resource.serverName ≠ none := by
        rw [about]
        exact Option.some_ne_none _
      exact absurd ⟨named, announcement⟩ quiet
    | withdrawn about found =>
      cases found
    | refreshed about found =>
      cases found

theorem announcedBy_silent : announcedBy arrivals = fun _ => none := by
  induction arrivals using List.reverseRecOn with
  | nil => rfl
  | append_singleton arrivals arrival ih =>
    rw [announcedBy_snoc, ih fun earlier member => silent earlier (mem_append_left _ member),
      Announcements.hear]
    have quiet := silent arrival (mem_append_right _ (mem_singleton_self _))
    cases about : arrival.resource.serverName with
    | none => rfl
    | some name =>
      have withdrawal : arrival.resource.ttl = 0 := by
        by_contra announcement
        refine quiet ⟨?_, announcement⟩
        rw [about]
        exact Option.some_ne_none _
      dsimp only
      rw [if_pos withdrawal]
      exact Function.update_eq_self name _

end

theorem new_correct (start : BitVec 64) (nothing : announcedBy arrivals = fun _ => none) :
    (ServerTable.new start).Correct arrivals := by
  refine ⟨⟨fun _ => 0, nodup_nil, ?_, fun _ => rfl⟩, ⟨nodup_nil, ?_, ?_⟩, rfl, nodup_nil⟩
  · intro address member
    cases member
  · intro entry listed
    cases listed
  · intro name heard known
    rw [nothing] at known
    cases known

theorem CorrectThroughout.of_silent (silent : ∀ arrival ∈ arrivals, ¬arrival.resource.Announces) :
    CorrectThroughout start arrivals where
  states := by
    intro before begins
    have quiet : ∀ arrival ∈ before, ¬arrival.resource.Announces := fun arrival member =>
      silent arrival (begins.subset member)
    rw [serversAfter_silent quiet]
    exact new_correct start (announcedBy_silent quiet)
  steps := by
    intro before arrival begins entry _
    have quiet : ∀ other ∈ before ++ [arrival], ¬other.resource.Announces := fun other member =>
      silent other (begins.subset member)
    rw [serversAfter_silent quiet,
      serversAfter_silent fun other member => quiet other (mem_append_left _ member)]

theorem CorrectThroughout.of_prefix (correct : CorrectThroughout start arrivals)
    {before : List ResourceArrival} (begins : before <+: arrivals) :
    CorrectThroughout start before where
  states earlier starts := correct.states earlier (starts.trans begins)
  steps earlier arrival starts := correct.steps earlier arrival (starts.trans begins)

theorem CorrectThroughout.silent (correct : CorrectThroughout start arrivals) :
    ∀ arrival ∈ arrivals, ¬arrival.resource.Announces := by
  induction arrivals using List.reverseRecOn with
  | nil =>
    intro arrival member
    cases member
  | append_singleton arrivals arrival ih =>
    have earlier := ih (correct.of_prefix (prefix_append _ _))
    intro other member
    rcases mem_append.mp member with before | last
    · exact earlier other before
    rw [mem_singleton.mp last]
    rintro ⟨named, announcement⟩
    have counted := (correct.states _ prefix_rfl).counted
    rw [serversAfter_snoc, serversAfter_silent earlier] at counted
    have receives := mdnsRecordReceived_receives (.new start) arrival.clock arrival.resource
    generalize ServerTable.mdnsRecordReceived _ _ _ = after at receives counted
    cases receives with
    | ignored skipped => exact named skipped
    | unknown _ _ withdrawal => exact announcement withdrawal
    | created about missing _ refreshes =>
      rw [refreshes.size, refreshes.list, ← length_map ServerEntry.address,
        KeyedList.map_replace] at counted
      cases counted
    | withdrawn about found =>
      cases found
    | refreshed about found =>
      cases found

theorem serversAfter_sound (unambiguous : Unambiguous (arrivals.map ResourceArrival.resource)) :
    (∀ before, before <+: arrivals → (∃ bucket, (serversAfter start before).Linked bucket) ∧
      (serversAfter start before).Represents (announcedBy before)) ∧
    ∀ before arrival, before ++ [arrival] <+: arrivals →
      OwnEntryOnly (serversAfter start before) (serversAfter start (before ++ [arrival]))
        arrival.resource := by
  have known {before : List ResourceArrival} (begins : before <+: arrivals) :
      ∀ arrival ∈ before, arrival.resource ∈ arrivals.map ResourceArrival.resource :=
    fun arrival member => mem_map_of_mem (begins.subset member)
  constructor
  · intro before begins
    obtain ⟨bucket, linked, -, represents⟩ :=
      serversAfter_represents start unambiguous before (known begins)
    exact ⟨⟨bucket, linked⟩, represents⟩
  · intro before arrival begins entry unrelated
    obtain ⟨bucket, linked, keyed, -⟩ := serversAfter_represents start unambiguous before
      (known ((prefix_append _ _).trans begins))
    have member := known begins arrival (mem_append_right _ (mem_singleton_self _))
    rw [serversAfter_snoc]
    exact receives_others linked keyed unambiguous member (mdnsRecordReceived_receives _ _ _) entry
      unrelated

/-- The server `aagm` is in the chain of the server `a`, and its record finds the entry of this one. -/
example : (serversAfter 0 [announcedServer, recordOf [97, 97, 103, 109] 120 (.srv [105] 4840)]).find
    (recordOf [97, 97, 103, 109] 0 .other).resource.name [97, 97, 103, 109] =
      (serversAfter 0 [announcedServer]).serverOnNetwork.head? := by decide +kernel

theorem serversAfter_pathsOwned (single : ∀ before arrival, before ++ [arrival] <+: arrivals →
      ¬(serversAfter start before).ReleasesAgain arrival.resource) :
    (serversAfter start arrivals).PathsOwned ∧ (serversAfter start arrivals).released.Nodup := by
  induction arrivals using List.reverseRecOn with
  | nil =>
    refine ⟨⟨?_, ?_, ?_, ?_⟩, nodup_nil⟩
    · intro first listed
      cases listed
    · intro entry listed
      cases listed
    · intro address member
      cases member
    · intro entry listed
      cases listed
  | append_singleton arrivals arrival ih =>
    obtain ⟨owned, distinct⟩ := ih fun before other begins =>
      single before other (begins.trans (prefix_append _ _))
    obtain ⟨bucket, linked⟩ := serversAfter_linked start arrivals
    rw [serversAfter_snoc]
    obtain ⟨owned, keeps⟩ := owned.receives linked
      (mdnsRecordReceived_receives _ arrival.clock arrival.resource)
      (single arrivals arrival prefix_rfl)
    exact ⟨owned, keeps distinct⟩

theorem releasedOnce_iff : (serversAfter start arrivals).released.Nodup ↔
    ∀ before arrival, before ++ [arrival] <+: arrivals →
      ¬(serversAfter start before).ReleasesAgain arrival.resource := by
  constructor
  · induction arrivals using List.reverseRecOn with
    | nil =>
      intro _ before arrival begins
      cases append_ne_nil_of_right_ne_nil before (cons_ne_nil arrival []) (prefix_nil.mp begins)
    | append_singleton arrivals arrival ih =>
      intro distinct before other begins
      have receives := mdnsRecordReceived_receives (serversAfter start arrivals) arrival.clock
        arrival.resource
      rw [serversAfter_snoc] at distinct
      have single := ih (distinct.sublist (receives_released receives).sublist)
      rcases prefix_concat_iff.mp begins with whole | part
      · obtain ⟨rfl, same⟩ := append_inj' whole rfl
        obtain rfl := (List.cons.inj same).1
        obtain ⟨bucket, linked⟩ := serversAfter_linked start before
        intro again
        exact (serversAfter_pathsOwned single).1.twice linked receives again distinct
      · exact single before other part
  · intro single
    exact (serversAfter_pathsOwned single).2

example : (serversAfter 0 [recordOf [97] 120 (.txt (some [47, 112]) none), announcedServer,
    recordOf [97] 0 (.srv [104, 46] 4840)]).released = [1, 1] := by decide +kernel

end Runs

/-- The table is right throughout a run if and only if no server is announced in it, as the entries
are not counted. With names that are not mixed up the list, the hash map and every single step are
right in every run, and the paths are released once if and only if no entry is withdrawn after its
path was used. -/
theorem serverTable_correctThroughout (start : BitVec 64) (arrivals : List ResourceArrival) :
    (CorrectThroughout start arrivals ↔ ∀ arrival ∈ arrivals, ¬arrival.resource.Announces) ∧
    (Unambiguous (arrivals.map ResourceArrival.resource) →
      (∀ before, before <+: arrivals → (∃ bucket, (serversAfter start before).Linked bucket) ∧
        (serversAfter start before).Represents (announcedBy before)) ∧
      ∀ before arrival, before ++ [arrival] <+: arrivals →
        OwnEntryOnly (serversAfter start before) (serversAfter start (before ++ [arrival]))
          arrival.resource) ∧
    ((serversAfter start arrivals).released.Nodup ↔
      ∀ before arrival, before ++ [arrival] <+: arrivals →
        ¬(serversAfter start before).ReleasesAgain arrival.resource) :=
  ⟨⟨CorrectThroughout.silent, CorrectThroughout.of_silent⟩, serversAfter_sound, releasedOnce_iff⟩

/-- A server is announced and withdrawn, and the path of another one is heard before its port. -/
def withdrawnServer : List ResourceArrival :=
  [announcedServer, recordOf [98] 120 (.txt (some [47, 112]) none),
    recordOf [97] 0 (.srv [104, 46] 4840), recordOf [98] 120 (.srv [105] 4840)]

theorem withdrawnServer_represents : (∀ before, before <+: withdrawnServer →
      (∃ bucket, (serversAfter 0 before).Linked bucket) ∧
        (serversAfter 0 before).Represents (announcedBy before)) ∧
    ∀ before arrival, before ++ [arrival] <+: withdrawnServer →
      ¬(serversAfter 0 before).ReleasesAgain arrival.resource := by
  have unambiguous : Unambiguous (withdrawnServer.map ResourceArrival.resource) := by
    have names : ∀ first ∈ withdrawnServer.map ResourceArrival.resource,
        ∀ second ∈ withdrawnServer.map ResourceArrival.resource,
        ∀ name ∈ first.serverName, ∀ other ∈ second.serverName,
          (name = other → hashIdx first.name = hashIdx second.name) ∧
            (hashIdx first.name = hashIdx second.name → name <+: other → name = other) := by
      decide +kernel
    exact fun first member second also name other about named =>
      names first member second also name about other named
  obtain ⟨-, represents, released⟩ := serverTable_correctThroughout 0 withdrawnServer
  exact ⟨(represents unambiguous).1, released.mp (by decide +kernel)⟩

/-- The table has an entry, and its number is zero. -/
theorem announcedServer_uncounted : ¬∀ start arrivals, CorrectThroughout start arrivals := by
  intro correct
  have counted := ((correct 0 [announcedServer]).states _ prefix_rfl).counted
  revert counted
  decide +kernel

end OpcUa
