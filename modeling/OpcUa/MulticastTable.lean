import Mathlib.Data.List.Induction
import OpcUa.MulticastCore

/-!
The table of servers over whole runs of records. The list and the hash map always have the same
entries. With names that are not mixed up an entry shows what was heard of its server, and a path
is released twice exactly when an entry is withdrawn whose path was used already.
-/

namespace OpcUa

open LittleEndian KeyedList

namespace ServerTable

variable {table : ServerTable} {bucket : Nat → Nat} {entry : ServerEntry}
  {record serverName : List Byte} {clock : ClockReading}

/-! The list and the hash map -/

/-- The chains have the addresses of the entries, each in the one that `bucket` names. -/
structure Linked (table : ServerTable) (bucket : Nat → Nat) : Prop where
  distinct : (table.serverOnNetwork.map ServerEntry.address).Nodup
  fresh : ∀ address ∈ table.serverOnNetwork.map ServerEntry.address, address < table.allocated
  chained : ∀ idx, table.serverOnNetworkHash idx =
    (table.serverOnNetwork.map ServerEntry.address).filter fun address => bucket address = idx

def Hits (bucket : Nat → Nat) (record serverName : List Byte) (entry : ServerEntry) : Bool :=
  bucket entry.address = hashIdx record && sameStart serverName entry.name

section

variable (linked : table.Linked bucket)
include linked

theorem find_eq (record serverName : List Byte) :
    table.find record serverName = table.serverOnNetwork.find? (Hits bucket record serverName) := by
  have chain : (table.serverOnNetwork.map ServerEntry.address).filter
      (fun address => bucket address = hashIdx record) =
      (table.serverOnNetwork.filter fun entry => bucket entry.address = hashIdx record).map
        ServerEntry.address := by
    rw [List.filter_map]
    rfl
  have entries := filterMap_find linked.distinct fun entry : ServerEntry =>
    bucket entry.address = hashIdx record
  rw [find, linked.chained, chain]
  change (List.filterMap (fun wanted => table.serverOnNetwork.find? fun other =>
    other.address = wanted) _).find? _ = _
  rw [entries, List.find?_filter]
  congr 1
  funext entry
  rw [Hits, Bool.eq_iff_iff, decide_eq_true_eq, Bool.and_eq_true]

theorem find_hits (found : table.find record serverName = some entry) :
    entry ∈ table.serverOnNetwork ∧ bucket entry.address = hashIdx record ∧
      sameStart serverName entry.name = true := by
  rw [find_eq linked] at found
  have hit := List.find?_some found
  rw [Hits, Bool.and_eq_true, decide_eq_true_eq] at hit
  exact ⟨List.mem_of_find?_eq_some found, hit⟩

theorem Linked.of_same {after : ServerTable}
    (addresses : after.serverOnNetwork.map ServerEntry.address =
      table.serverOnNetwork.map ServerEntry.address)
    (hash : after.serverOnNetworkHash = table.serverOnNetworkHash)
    (allocated : table.allocated ≤ after.allocated) : after.Linked bucket where
  distinct := by
    rw [addresses]
    exact linked.distinct
  fresh := by
    rw [addresses]
    intro address member
    have earlier := linked.fresh address member
    omega
  chained := by
    rw [addresses, hash]
    exact linked.chained

theorem Linked.create (clock : ClockReading) (record serverName : List Byte) :
    (table.create clock record serverName).2.Linked
      (Function.update bucket table.allocated (hashIdx record)) := by
  have absent : table.allocated ∉ table.serverOnNetwork.map ServerEntry.address := by
    intro member
    have earlier := linked.fresh _ member
    omega
  have unchanged (idx : Nat) : (table.serverOnNetwork.map ServerEntry.address).filter
      (fun address => Function.update bucket table.allocated (hashIdx record) address = idx) =
      (table.serverOnNetwork.map ServerEntry.address).filter fun address => bucket address = idx := by
    apply List.filter_congr
    intro address member
    rw [Function.update_of_ne fun same : address = table.allocated => absent (same ▸ member)]
  constructor
  · exact List.nodup_cons.mpr ⟨absent, linked.distinct⟩
  · intro address member
    rcases List.mem_cons.mp member with rfl | earlier
    · exact Nat.lt_succ_self _
    · exact Nat.lt_succ_of_lt (linked.fresh address earlier)
  · intro idx
    change Function.update table.serverOnNetworkHash (hashIdx record) _ idx =
      (table.allocated :: table.serverOnNetwork.map ServerEntry.address).filter _
    rw [List.filter_cons, unchanged, Function.update_self]
    by_cases chosen : idx = hashIdx record
    · subst chosen
      rw [Function.update_self, linked.chained, if_pos (decide_eq_true rfl)]
    · rw [Function.update_of_ne chosen, linked.chained,
        if_neg (by rw [decide_eq_true_eq]; exact fun same => chosen same.symm)]

theorem Linked.mdnsRecordRemove (chosen : bucket entry.address = hashIdx record) :
    (table.mdnsRecordRemove record entry).Linked bucket := by
  have kept : (table.mdnsRecordRemove record entry).serverOnNetwork.map ServerEntry.address =
      (table.serverOnNetwork.map ServerEntry.address).filter fun other => other ≠ entry.address :=
    map_remove
  constructor
  · rw [kept]
    exact linked.distinct.filter _
  · rw [kept]
    intro address member
    exact linked.fresh address (List.mem_of_mem_filter member)
  · intro idx
    rw [kept, List.filter_filter]
    change Function.update table.serverOnNetworkHash (hashIdx record) _ idx = _
    by_cases same : idx = hashIdx record
    · subst same
      rw [Function.update_self, linked.chained, (linked.distinct.filter _).erase_eq_filter,
        List.filter_filter]
      apply List.filter_congr
      intro address _
      rw [Bool.eq_iff_iff]
      simp [and_comm]
    · rw [Function.update_of_ne same, linked.chained]
      apply List.filter_congr
      intro address _
      by_cases removed : address = entry.address
      · subst removed
        simp [chosen, Ne.symm same]
      · simp [removed]

end

end ServerTable

/-! What one record does -/

section

variable (entry : ServerEntry)

def ServerEntry.add (address : Nat) : ResourceData → ServerEntry
  | .txt path caps => if entry.txtSet then entry else setTxt entry address path caps
  | .srv name port => if entry.srvSet then entry else setSrv entry name port
  | .other => entry

def ServerEntry.used : ResourceData → Option PathBuffer
  | .srv _ _ => if entry.srvSet then none else entry.pathTmp
  | _ => none

theorem setTxt_eq (address : Nat) (path caps : Option (List Byte)) :
    setTxt entry address path caps = { entry with
      txtSet := true
      pathTmp := if entry.srvSet then entry.pathTmp
        else ((longPath path).map (PathBuffer.mk address)).or entry.pathTmp
      serverOnNetwork := { entry.serverOnNetwork with
        discoveryUrl := if entry.srvSet then
          entry.serverOnNetwork.discoveryUrl ++ (longPath path).getD [] else
          entry.serverOnNetwork.discoveryUrl
        serverCapabilities := (splitCaps caps).getD entry.serverOnNetwork.serverCapabilities } } := by
  rw [setTxt]
  cases longPath path <;> cases splitCaps caps <;> cases entry.srvSet <;>
    simp [ServerEntry.setPath, mdnsAppendPathToUrl]

theorem setSrv_eq (name : List Byte) (port : BitVec 16) : setSrv entry name port = { entry with
      srvSet := true
      serverOnNetwork := { entry.serverOnNetwork with
        discoveryUrl := srvUrl name port ++ (entry.pathTmp.map PathBuffer.text).getD [] } } := by
  rw [setSrv]
  cases entry.pathTmp <;> simp [mdnsAppendPathToUrl]

end

namespace ServerEntry

variable (entry : ServerEntry) (address : Nat) (data : ResourceData)

@[simp] theorem add_address : (entry.add address data).address = entry.address := by
  cases data with
  | srv name port =>
    rw [add, setSrv_eq]
    split <;> rfl
  | txt path caps =>
    rw [add, setTxt_eq]
    split <;> rfl
  | other => rfl

@[simp] theorem add_name : (entry.add address data).name = entry.name := by
  cases data with
  | srv name port =>
    rw [add, setSrv_eq]
    split <;> rfl
  | txt path caps =>
    rw [add, setTxt_eq]
    split <;> rfl
  | other => rfl

theorem add_path {entry : ServerEntry} {address : Nat} {data : ResourceData} {kept : PathBuffer}
    (keeps : (entry.add address data).pathTmp = some kept) :
    entry.pathTmp = some kept ∨
      kept.address = address ∧ entry.srvSet = false ∧ ∃ path caps, data = .txt path caps := by
  cases data with
  | srv name port =>
    rw [add, setSrv_eq] at keeps
    split at keeps <;> exact .inl keeps
  | txt path caps =>
    rw [add, setTxt_eq] at keeps
    split at keeps
    · exact .inl keeps
    split at keeps
    · exact .inl keeps
    rename_i unset
    cases cached : longPath path with
    | none =>
      rw [cached] at keeps
      exact .inl keeps
    | some text =>
      rw [cached] at keeps
      rw [← Option.some.inj keeps]
      exact .inr ⟨rfl, eq_false_of_ne_true unset, path, caps, rfl⟩
  | other => exact .inl keeps

theorem add_used (entry : ServerEntry) (address : Nat) (data : ResourceData) :
    entry.used data = entry.pathTmp ∧ entry.srvSet = false ∧
        (entry.add address data).srvSet = true ∧
        (entry.add address data).pathTmp = entry.pathTmp ∨
      entry.used data = none ∧ (entry.add address data).srvSet = entry.srvSet := by
  cases data with
  | srv name port =>
    cases known : entry.srvSet with
    | true =>
      rw [used, add, if_pos known, if_pos known]
      exact .inr ⟨rfl, known⟩
    | false =>
      rw [used, add, if_neg (by rw [known]; exact Bool.false_ne_true),
        if_neg (by rw [known]; exact Bool.false_ne_true), setSrv_eq]
      exact .inl ⟨rfl, rfl, rfl, rfl⟩
  | txt path caps =>
    right
    rw [add, setTxt_eq]
    split
    · exact ⟨rfl, rfl⟩
    · exact ⟨rfl, rfl⟩
  | other => exact .inr ⟨rfl, rfl⟩

end ServerEntry

namespace ServerTable

variable {table after : ServerTable} {bucket : Nat → Nat} {entry : ServerEntry}
  {record serverName : List Byte} {clock : ClockReading} {r : Resource}
variable {data : ResourceData}

structure Refreshes (table : ServerTable) (entry : ServerEntry) (data : ResourceData)
    (after : ServerTable) : Prop where
  list : after.serverOnNetwork =
    replace ServerEntry.address (entry.add table.allocated data) table.serverOnNetwork
  hash : after.serverOnNetworkHash = table.serverOnNetworkHash
  size : after.serverOnNetworkSize = table.serverOnNetworkSize
  counter : after.serverOnNetworkRecordIdCounter = table.serverOnNetworkRecordIdCounter
  released : after.released = ((entry.used data).map PathBuffer.address).toList ++ table.released
  allocated : table.allocated ≤ after.allocated
  caches : ∀ path, (entry.add table.allocated data).pathTmp = some path →
    entry.pathTmp = some path ∨
      path.address = table.allocated ∧ table.allocated < after.allocated ∧ entry.srvSet = false

theorem Refreshes.called (refreshes : table.Refreshes entry data after) (announced : Bool)
    (call : ServerOnNetworkCall) :
    table.Refreshes entry data
      (if announced then { after with calls := call :: after.calls } else after) := by
  split
  · exact { refreshes with }
  · exact refreshes

theorem Refreshes.stored (same : entry.add table.allocated data = entry)
    (unused : entry.used data = none) : table.Refreshes entry data (table.store entry) where
  list := by
    rw [same]
    rfl
  hash := rfl
  size := rfl
  counter := rfl
  released := by
    rw [unused]
    rfl
  allocated := Nat.le_refl _
  caches := by
    intro path keeps
    rw [same] at keeps
    exact .inl keeps

theorem Refreshes.addResource (table : ServerTable) (entry : ServerEntry) (data : ResourceData) :
    table.Refreshes entry data ((table.store entry).addResource entry data) := by
  unfold ServerTable.addResource
  split
  · rename_i both
    obtain ⟨txt, srv⟩ := (Bool.and_eq_true _ _).mp both
    cases data with
    | srv name port => exact .stored (if_pos srv) (if_pos srv)
    | txt path caps => exact .stored (if_pos txt) rfl
    | other => exact .stored rfl rfl
  cases data with
  | other => exact (Refreshes.stored rfl rfl).called _ _
  | srv name port =>
    dsimp only
    by_cases known : entry.srvSet = true
    · rw [if_pos known]
      have same : table.Refreshes entry (.srv name port) (table.store entry) :=
        .stored (if_pos known) (if_pos known)
      exact same.called _ _
    · rw [if_neg known]
      refine Refreshes.called ?_ _ _
      have added : entry.add table.allocated (.srv name port) = setSrv entry name port := if_neg known
      have used : entry.used (.srv name port) = entry.pathTmp := if_neg known
      refine ⟨?_, rfl, rfl, rfl, ?_, Nat.le_refl _, ?_⟩
      · rw [added]
        apply replace_replace
        rw [← added, ServerEntry.add_address]
      · rw [used]
        rfl
      · intro path keeps
        rw [added, setSrv_eq] at keeps
        exact .inl keeps
  | txt path caps =>
    dsimp only
    by_cases known : entry.txtSet = true
    · rw [if_pos known]
      have same : table.Refreshes entry (.txt path caps) (table.store entry) :=
        .stored (if_pos known) rfl
      exact same.called _ _
    · rw [if_neg known]
      refine Refreshes.called ?_ _ _
      have added : entry.add table.allocated (.txt path caps) =
          setTxt entry table.allocated path caps := if_neg known
      refine ⟨?_, rfl, rfl, rfl, rfl, Nat.le_succ _, ?_⟩
      · rw [added]
        apply replace_replace
        rw [← ServerEntry.add_address entry table.allocated (.txt path caps), added]
        rfl
      · intro kept keeps
        rcases ServerEntry.add_path keeps with before | ⟨address, unset, -⟩
        · exact .inl before
        · exact .inr ⟨address, Nat.lt_succ_self _, unset⟩

def firstEntry (table : ServerTable) (clock : ClockReading) (name : List Byte) : ServerEntry :=
  ⟨table.allocated, ⟨table.serverOnNetworkRecordIdCounter, name, [], []⟩, clock.now,
    clock.nowMonotonic, false, false, none⟩

inductive Receives (table : ServerTable) (clock : ClockReading) (r : Resource) :
    ServerTable → Prop
  | ignored (skipped : r.serverName = none) : Receives table clock r table
  | unknown {name : List Byte} (about : r.serverName = some name)
      (missing : table.find r.name name = none) (withdrawal : r.ttl = 0) :
      Receives table clock r table
  | created {name : List Byte} {after : ServerTable} (about : r.serverName = some name)
      (missing : table.find r.name name = none) (announcement : r.ttl ≠ 0)
      (refreshes : (table.create clock r.name name).2.Refreshes (table.firstEntry clock name) r.data
        after) : Receives table clock r after
  | withdrawn {name : List Byte} {entry : ServerEntry} (about : r.serverName = some name)
      (found : table.find r.name name = some entry) (withdrawal : r.ttl = 0) :
      Receives table clock r (table.mdnsRecordRemove r.name entry)
  | refreshed {name : List Byte} {entry : ServerEntry} {after : ServerTable}
      (about : r.serverName = some name) (found : table.find r.name name = some entry)
      (announcement : r.ttl ≠ 0)
      (refreshes : table.Refreshes { entry with lastSeen := clock.nowMonotonic } r.data after) :
      Receives table clock r after

theorem mdnsRecordReceived_receives (table : ServerTable) (clock : ClockReading) (r : Resource) :
    table.Receives clock r (table.mdnsRecordReceived clock r) := by
  rw [mdnsRecordReceived]
  cases about : r.serverName with
  | none => exact .ignored about
  | some name =>
    dsimp only
    rw [mdnsRecordAddOrGet]
    cases found : table.find r.name name with
    | some entry =>
      dsimp only
      split
      · rename_i withdrawal
        exact .withdrawn about found withdrawal
      · rename_i announcement
        exact .refreshed about found announcement (.addResource _ _ _)
    | none =>
      by_cases withdrawal : r.ttl = 0
      · rw [withdrawal]
        exact .unknown about found withdrawal
      · have positive : (!decide (r.ttl > 0)) = false := by
          rw [Bool.not_eq_false', decide_eq_true_eq]
          omega
        rw [positive, if_neg Bool.false_ne_true]
        dsimp only
        rw [if_neg withdrawal]
        exact .created about found withdrawal (.addResource _ _ _)

theorem Linked.refreshes (linked : table.Linked bucket)
    (refreshes : table.Refreshes entry data after) : after.Linked bucket := by
  refine linked.of_same ?_ refreshes.hash refreshes.allocated
  rw [refreshes.list, map_replace]

theorem Linked.receives (linked : table.Linked bucket) (receives : table.Receives clock r after) :
    ∃ chosen : Nat → Nat, after.Linked chosen ∧
      ∀ address < table.allocated, chosen address = bucket address := by
  cases receives with
  | ignored => exact ⟨bucket, linked, fun _ _ => rfl⟩
  | unknown => exact ⟨bucket, linked, fun _ _ => rfl⟩
  | created about missing announcement refreshes =>
    refine ⟨_, (linked.create clock r.name _).refreshes refreshes, ?_⟩
    intro address earlier
    exact Function.update_of_ne (Nat.ne_of_lt earlier) _ _
  | withdrawn about found withdrawal =>
    exact ⟨bucket, linked.mdnsRecordRemove (find_hits linked found).2.1, fun _ _ => rfl⟩
  | refreshed about found announcement refreshes =>
    exact ⟨bucket, linked.refreshes refreshes, fun _ _ => rfl⟩

end ServerTable

structure ResourceArrival where
  resource : Resource
  clock : ClockReading

section

variable (start : BitVec 64) (arrivals : List ResourceArrival)

def serversAfter : ServerTable :=
  arrivals.foldl (fun table arrival => table.mdnsRecordReceived arrival.clock arrival.resource)
    (.new start)

theorem serversAfter_snoc (arrival : ResourceArrival) : serversAfter start (arrivals ++ [arrival]) =
      (serversAfter start arrivals).mdnsRecordReceived arrival.clock arrival.resource := by
  rw [serversAfter, List.foldl_append]
  rfl

theorem serversAfter_linked : ∃ bucket, (serversAfter start arrivals).Linked bucket := by
  induction arrivals using List.reverseRecOn with
  | nil => exact ⟨fun _ => 0, List.nodup_nil, fun _ member => (List.not_mem_nil member).elim,
      fun _ => rfl⟩
  | append_singleton arrivals arrival ih =>
    obtain ⟨bucket, linked⟩ := ih
    rw [serversAfter_snoc]
    obtain ⟨chosen, linked, -⟩ := linked.receives (ServerTable.mdnsRecordReceived_receives _ _ _)
    exact ⟨chosen, linked⟩

end

/-! What was heard of a server -/

structure Heard where
  txt : Option (Option (List Byte) × Option (List Byte))
  srv : Option (List Byte × BitVec 16)
deriving DecidableEq, Repr

namespace Heard

def nothing : Heard := ⟨none, none⟩

def add (heard : Heard) : ResourceData → Heard
  | .srv name port => { heard with srv := heard.srv.or (some (name, port)) }
  | .txt path caps => { heard with txt := heard.txt.or (some (path, caps)) }
  | .other => heard

def path (heard : Heard) : Option (List Byte) := heard.txt.bind fun txt => longPath txt.1

def discoveryUrl (heard : Heard) : List Byte :=
  match heard.srv with
  | some (name, port) => srvUrl name port ++ heard.path.getD []
  | none => []

def serverCapabilities (heard : Heard) : List (List Byte) :=
  (heard.txt.bind fun txt => splitCaps txt.2).getD []

end Heard

abbrev Announcements := List Byte → Option Heard

def Announcements.hear (announcements : Announcements) (r : Resource) : Announcements :=
  match r.serverName with
  | none => announcements
  | some name =>
    if r.ttl = 0 then Function.update announcements name none
    else Function.update announcements name (some (((announcements name).getD .nothing).add r.data))

def announcedBy (arrivals : List ResourceArrival) : Announcements :=
  arrivals.foldl (fun announcements arrival => announcements.hear arrival.resource) fun _ => none

theorem announcedBy_snoc (arrivals : List ResourceArrival) (arrival : ResourceArrival) :
    announcedBy (arrivals ++ [arrival]) = (announcedBy arrivals).hear arrival.resource := by
  rw [announcedBy, List.foldl_append]
  rfl

structure ServerEntry.Shows (entry : ServerEntry) (heard : Heard) : Prop where
  txtSet : entry.txtSet = heard.txt.isSome
  srvSet : entry.srvSet = heard.srv.isSome
  discoveryUrl : entry.serverOnNetwork.discoveryUrl = heard.discoveryUrl
  serverCapabilities : entry.serverOnNetwork.serverCapabilities = heard.serverCapabilities
  waits : entry.srvSet = false → entry.pathTmp.map PathBuffer.text = heard.path

theorem ServerEntry.Shows.add {entry : ServerEntry} {heard : Heard} (shows : entry.Shows heard)
    (address : Nat) (data : ResourceData) : (entry.add address data).Shows (heard.add data) := by
  obtain ⟨txt, srv⟩ := heard
  obtain ⟨txtSet, srvSet, url, capabilities, waits⟩ := shows
  cases data with
  | other => exact ⟨txtSet, srvSet, url, capabilities, waits⟩
  | srv name port =>
    cases srv with
    | some known =>
      rw [ServerEntry.add, if_pos (by exact srvSet)]
      exact ⟨txtSet, srvSet, url, capabilities, waits⟩
    | none =>
      have unset : ¬entry.srvSet = true := by
        rw [srvSet]
        exact Bool.false_ne_true
      rw [ServerEntry.add, if_neg unset, setSrv_eq]
      refine ⟨txtSet, rfl, ?_, capabilities, fun set => absurd set.symm Bool.false_ne_true⟩
      rw [waits srvSet]
      rfl
  | txt path caps =>
    cases txt with
    | some known =>
      rw [ServerEntry.add, if_pos (by exact txtSet)]
      exact ⟨txtSet, srvSet, url, capabilities, waits⟩
    | none =>
      have unset : ¬entry.txtSet = true := by
        rw [txtSet]
        exact Bool.false_ne_true
      rw [ServerEntry.add, if_neg unset, setTxt_eq]
      refine ⟨rfl, srvSet, ?_, ?_, ?_⟩
      · cases srv with
        | none =>
          dsimp only
          rw [srvSet]
          exact url
        | some known =>
          rw [srvSet, url]
          exact congrArg (· ++ (longPath path).getD []) (List.append_nil _)
      · dsimp only
        rw [capabilities]
        rfl
      · intro unknown
        dsimp only at unknown ⊢
        rw [unknown]
        have before := waits unknown
        change _ = longPath path
        cases longPath path with
        | none => exact before
        | some text => rfl

/-! Names that are not mixed up -/

theorem sameStart_iff (first second : List Byte) :
    sameStart first second = true ↔ first <+: second ∨ second <+: first := by
  rw [sameStart, decide_eq_true_eq]
  split
  · rename_i longer
    rw [List.take_length]
    constructor
    · intro same
      exact .inr (same ▸ List.take_prefix _ _)
    · rintro (start | start)
      · have shorter := start.length_le
        omega
      · exact (List.prefix_iff_eq_take.mp start).symm
  · rename_i shorter
    rw [List.take_length]
    constructor
    · intro same
      exact .inl (same ▸ List.take_prefix _ _)
    · rintro (start | start)
      · exact List.prefix_iff_eq_take.mp start
      · have same : second = first := start.eq_of_length (by
          have longer := start.length_le
          omega)
        rw [same, List.take_length]

def Unambiguous (resources : List Resource) : Prop :=
  ∀ first ∈ resources, ∀ second ∈ resources, ∀ name other,
    first.serverName = some name → second.serverName = some other →
      (name = other → hashIdx first.name = hashIdx second.name) ∧
        (hashIdx first.name = hashIdx second.name → name <+: other → name = other)

namespace ServerTable

variable {table after : ServerTable} {bucket : Nat → Nat} {entry : ServerEntry}
  {clock : ClockReading} {r : Resource} {resources : List Resource} {name : List Byte}
  {announcements : Announcements}
variable {data : ResourceData} {other : ServerEntry}

def Keyed (table : ServerTable) (bucket : Nat → Nat) (resources : List Resource) : Prop :=
  ∀ entry ∈ table.serverOnNetwork, ∃ r ∈ resources,
    r.serverName = some entry.name ∧ bucket entry.address = hashIdx r.name

theorem hits_iff (keyed : table.Keyed bucket resources) (unambiguous : Unambiguous resources)
    (member : r ∈ resources) (about : r.serverName = some name)
    (listed : entry ∈ table.serverOnNetwork) :
    Hits bucket r.name name entry = true ↔ entry.name = name := by
  obtain ⟨source, present, named, chain⟩ := keyed entry listed
  obtain ⟨together, apart⟩ := unambiguous r member source present name entry.name about named
  have apartBack := (unambiguous source present r member entry.name name named about).2
  rw [Hits, Bool.and_eq_true, decide_eq_true_eq, sameStart_iff, chain]
  constructor
  · rintro ⟨same, start | start⟩
    · exact (apart same.symm start).symm
    · exact apartBack same start
  · intro same
    exact ⟨(together same.symm).symm, .inl (same ▸ List.prefix_rfl)⟩

section

variable (linked : table.Linked bucket) (keyed : table.Keyed bucket resources)
  (unambiguous : Unambiguous resources) (member : r ∈ resources) (about : r.serverName = some name)
include linked keyed unambiguous member about

theorem find_named (found : table.find r.name name = some entry) :
    entry ∈ table.serverOnNetwork ∧ entry.name = name := by
  rw [find_eq linked] at found
  have listed := List.mem_of_find?_eq_some found
  exact ⟨listed, (hits_iff keyed unambiguous member about listed).mp (List.find?_some found)⟩

theorem find_unnamed (missing : table.find r.name name = none) :
    ∀ entry ∈ table.serverOnNetwork, entry.name ≠ name := by
  rw [find_eq linked] at missing
  intro entry listed same
  exact List.find?_eq_none.mp missing entry listed
    ((hits_iff keyed unambiguous member about listed).mpr same)

end

theorem created_list (linked : table.Linked bucket)
    (refreshes : (table.create clock r.name name).2.Refreshes (table.firstEntry clock name) data
      after) :
    after.serverOnNetwork =
      (table.firstEntry clock name).add (table.allocated + 1) data :: table.serverOnNetwork := by
  rw [refreshes.list]
  apply replace_cons
  · rw [ServerEntry.add_address]
    rfl
  · rw [ServerEntry.add_address]
    intro present
    exact Nat.lt_irrefl _ (linked.fresh _ present)

theorem mem_refreshes {seen : ServerEntry} (refreshes : table.Refreshes seen data after)
    (listed : entry ∈ table.serverOnNetwork) (same : seen.address = entry.address) :
    other ∈ after.serverOnNetwork ↔ other = seen.add table.allocated data ∨
      other ∈ table.serverOnNetwork ∧ other.address ≠ entry.address := by
  rw [refreshes.list, mem_replace, ServerEntry.add_address, same]
  rw [ServerEntry.add_address, same]
  exact List.mem_map_of_mem listed

theorem mem_withdrawn : other ∈ (table.mdnsRecordRemove r.name entry).serverOnNetwork ↔
      other ∈ table.serverOnNetwork ∧ other.address ≠ entry.address :=
  mem_remove

theorem receives_others (linked : table.Linked bucket) (keyed : table.Keyed bucket resources)
    (unambiguous : Unambiguous resources) (member : r ∈ resources)
    (receives : table.Receives clock r after) (other : ServerEntry)
    (unrelated : r.serverName ≠ some other.name) :
    other ∈ table.serverOnNetwork ↔ other ∈ after.serverOnNetwork := by
  cases receives with
  | ignored => exact Iff.rfl
  | unknown => exact Iff.rfl
  | created about missing announcement refreshes =>
    rw [created_list linked refreshes, List.mem_cons]
    constructor
    · exact .inr
    · rintro (rfl | present)
      · rw [ServerEntry.add_name] at unrelated
        exact absurd about unrelated
      · exact present
  | withdrawn about found withdrawal =>
    obtain ⟨listed, named⟩ := find_named linked keyed unambiguous member about found
    rw [mem_withdrawn]
    constructor
    · intro present
      refine ⟨present, ?_⟩
      intro same
      rw [eq_of_key linked.distinct present listed same, named] at unrelated
      exact unrelated about
    · exact And.left
  | refreshed about found announcement refreshes =>
    obtain ⟨listed, named⟩ := find_named linked keyed unambiguous member about found
    rw [mem_refreshes refreshes listed rfl]
    constructor
    · intro present
      refine .inr ⟨present, ?_⟩
      intro same
      rw [eq_of_key linked.distinct present listed same, named] at unrelated
      exact unrelated about
    · rintro (rfl | ⟨present, -⟩)
      · rw [ServerEntry.add_name] at unrelated
        exact absurd (about.trans (congrArg some named.symm)) unrelated
      · exact present

structure Represents (table : ServerTable) (announcements : Announcements) : Prop where
  once : (table.serverOnNetwork.map ServerEntry.name).Nodup
  shows : ∀ entry ∈ table.serverOnNetwork, ∃ heard, announcements entry.name = some heard ∧
    entry.Shows heard
  listed : ∀ name heard, announcements name = some heard →
    ∃ entry ∈ table.serverOnNetwork, entry.name = name

theorem firstEntry_shows (table : ServerTable) (clock : ClockReading) (name : List Byte) :
    (table.firstEntry clock name).Shows .nothing :=
  ⟨rfl, rfl, rfl, rfl, fun _ => rfl⟩

section

variable (represents : table.Represents announcements)
include represents

theorem Represents.unheard (absent : ∀ entry ∈ table.serverOnNetwork, entry.name ≠ name) :
    announcements name = none := by
  cases heard : announcements name with
  | none => rfl
  | some known =>
    obtain ⟨entry, present, same⟩ := represents.listed name known heard
    exact absurd same (absent entry present)

theorem Represents.update {heard : Option Heard}
    (once : (after.serverOnNetwork.map ServerEntry.name).Nodup)
    (others : ∀ other : ServerEntry, other.name ≠ name →
      (other ∈ table.serverOnNetwork ↔ other ∈ after.serverOnNetwork))
    (own : ∀ entry ∈ after.serverOnNetwork, entry.name = name → ∃ known, heard = some known ∧
      entry.Shows known)
    (present : ∀ known, heard = some known → ∃ entry ∈ after.serverOnNetwork, entry.name = name) :
    after.Represents (Function.update announcements name heard) := by
  constructor
  · exact once
  · intro entry listed
    by_cases same : entry.name = name
    · rw [same, Function.update_self]
      exact own entry listed same
    · rw [Function.update_of_ne same]
      exact represents.shows entry ((others entry same).mpr listed)
  · intro other known heard
    by_cases same : other = name
    · subst same
      rw [Function.update_self] at heard
      exact present known heard
    · rw [Function.update_of_ne same] at heard
      obtain ⟨entry, listed, named⟩ := represents.listed other known heard
      exact ⟨entry, (others entry (named.symm ▸ same)).mp listed, named⟩

theorem Represents.receives (linked : table.Linked bucket) (keyed : table.Keyed bucket resources)
    (unambiguous : Unambiguous resources) (member : r ∈ resources)
    (receives : table.Receives clock r after) : after.Represents (announcements.hear r) := by
  have others := receives_others linked keyed unambiguous member receives
  have apart {name : List Byte} (about : r.serverName = some name) (other : ServerEntry)
      (unrelated : other.name ≠ name) : r.serverName ≠ some other.name := by
    rw [about]
    exact fun same => unrelated (Option.some.inj same).symm
  rw [Announcements.hear]
  cases receives with
  | ignored skipped =>
    rw [skipped]
    exact represents
  | @unknown name about missing withdrawal =>
    have absent := find_unnamed linked keyed unambiguous member about missing
    rw [about]
    dsimp only
    rw [if_pos withdrawal]
    refine represents.update represents.once (fun _ _ => Iff.rfl) ?_ ?_
    · intro entry listed same
      exact absurd same (absent entry listed)
    · intro known impossible
      cases impossible
  | @created name after about missing announcement refreshes =>
    have absent := find_unnamed linked keyed unambiguous member about missing
    have list := created_list linked refreshes
    have named : ((table.firstEntry clock name).add (table.allocated + 1) r.data).name = name :=
      ServerEntry.add_name _ _ _
    rw [about]
    dsimp only
    rw [if_neg announcement, represents.unheard absent]
    refine represents.update ?_ (fun other unrelated => others other (apart about other unrelated))
      ?_ ?_
    · rw [list, List.map_cons, List.nodup_cons, named]
      refine ⟨?_, represents.once⟩
      intro present
      obtain ⟨entry, listed, same⟩ := List.mem_map.mp present
      exact absent entry listed same
    · intro entry listed same
      rw [list] at listed
      rcases List.mem_cons.mp listed with rfl | earlier
      · exact ⟨_, rfl, (firstEntry_shows table clock name).add _ _⟩
      · exact absurd same (absent entry earlier)
    · intro known heard
      exact ⟨_, list ▸ List.mem_cons_self .., named⟩
  | @withdrawn name entry about found withdrawal =>
    obtain ⟨listed, named⟩ := find_named linked keyed unambiguous member about found
    rw [about]
    dsimp only
    rw [if_pos withdrawal]
    refine represents.update ?_ (fun other unrelated => others other (apart about other unrelated))
      ?_ ?_
    · exact represents.once.sublist (List.filter_sublist.map _)
    · intro other present same
      obtain ⟨present, elsewhere⟩ := mem_withdrawn.mp present
      have twice := eq_of_key represents.once present listed (same.trans named.symm)
      exact absurd (congrArg ServerEntry.address twice) elsewhere
    · intro known impossible
      cases impossible
  | @refreshed name entry after about found announcement refreshes =>
    obtain ⟨listed, named⟩ := find_named linked keyed unambiguous member about found
    obtain ⟨heard, known, shows⟩ := represents.shows entry listed
    have kept : (({ entry with lastSeen := clock.nowMonotonic } : ServerEntry).add
        table.allocated r.data).name = entry.name := ServerEntry.add_name _ _ _
    have place : (({ entry with lastSeen := clock.nowMonotonic } : ServerEntry).add
        table.allocated r.data).address = entry.address := ServerEntry.add_address _ _ _
    rw [about]
    dsimp only
    rw [named] at known
    rw [if_neg announcement, known]
    refine represents.update ?_ (fun other unrelated => others other (apart about other unrelated))
      ?_ ?_
    · rw [refreshes.list, map_replace_of_eq linked.distinct listed place kept]
      exact represents.once
    · intro other present same
      rcases (mem_refreshes refreshes listed rfl).mp present with rfl | ⟨present, elsewhere⟩
      · refine ⟨_, rfl, ServerEntry.Shows.add ?_ _ _⟩
        exact { shows with }
      · have twice := eq_of_key represents.once present listed (same.trans named.symm)
        exact absurd (congrArg ServerEntry.address twice) elsewhere
    · intro known heard
      exact ⟨_, (mem_refreshes refreshes listed rfl).mpr (.inl rfl), kept.trans named⟩

end

theorem Keyed.receives (linked : table.Linked bucket) (keyed : table.Keyed bucket resources)
    (member : r ∈ resources) (receives : table.Receives clock r after) :
    ∃ chosen, after.Linked chosen ∧ after.Keyed chosen resources := by
  cases receives with
  | ignored => exact ⟨bucket, linked, keyed⟩
  | unknown => exact ⟨bucket, linked, keyed⟩
  | @created name after about missing announcement refreshes =>
    refine ⟨_, (linked.create clock r.name name).refreshes refreshes, ?_⟩
    intro entry listed
    rw [created_list linked refreshes] at listed
    rcases List.mem_cons.mp listed with rfl | earlier
    · rw [ServerEntry.add_name, ServerEntry.add_address]
      exact ⟨r, member, about, Function.update_self ..⟩
    · obtain ⟨source, present, named, chain⟩ := keyed entry earlier
      have older := linked.fresh _ (List.mem_map_of_mem earlier)
      rw [Function.update_of_ne (Nat.ne_of_lt older)]
      exact ⟨source, present, named, chain⟩
  | withdrawn about found withdrawal =>
    refine ⟨bucket, linked.mdnsRecordRemove (find_hits linked found).2.1, ?_⟩
    intro entry listed
    exact keyed entry (mem_withdrawn.mp listed).1
  | @refreshed name entry after about found announcement refreshes =>
    refine ⟨bucket, linked.refreshes refreshes, ?_⟩
    have known := (find_hits linked found).1
    intro other listed
    rcases (mem_refreshes refreshes known rfl).mp listed with rfl | ⟨present, -⟩
    · rw [ServerEntry.add_name, ServerEntry.add_address]
      exact keyed entry known
    · exact keyed other present

end ServerTable

open ServerTable in
theorem serversAfter_represents (start : BitVec 64) {resources : List Resource}
    (unambiguous : Unambiguous resources) (arrivals : List ResourceArrival)
    (known : ∀ arrival ∈ arrivals, arrival.resource ∈ resources) :
    ∃ bucket, (serversAfter start arrivals).Linked bucket ∧
      (serversAfter start arrivals).Keyed bucket resources ∧
      (serversAfter start arrivals).Represents (announcedBy arrivals) := by
  induction arrivals using List.reverseRecOn with
  | nil =>
    refine ⟨fun _ => 0, ⟨List.nodup_nil, ?_, fun _ => rfl⟩, ?_, List.nodup_nil, ?_, ?_⟩
    · intro address member
      cases member
    · intro entry listed
      cases listed
    · intro entry listed
      cases listed
    · intro name heard impossible
      cases impossible
  | append_singleton arrivals arrival ih =>
    obtain ⟨bucket, linked, keyed, represents⟩ :=
      ih fun earlier member => known earlier (List.mem_append_left _ member)
    have member := known arrival (List.mem_append_right _ (List.mem_singleton_self _))
    have receives := mdnsRecordReceived_receives (serversAfter start arrivals) arrival.clock
      arrival.resource
    rw [serversAfter_snoc, announcedBy_snoc]
    obtain ⟨chosen, chained, chosenFor⟩ := Keyed.receives linked keyed member receives
    exact ⟨chosen, chained, chosenFor, represents.receives linked keyed unambiguous member receives⟩

namespace ServerTable

variable {table after : ServerTable} {bucket : Nat → Nat} {entry : ServerEntry}
  {clock : ClockReading} {r : Resource}

def ReleasesAgain (table : ServerTable) (r : Resource) : Prop :=
  r.ttl = 0 ∧ ∃ name entry, r.serverName = some name ∧ table.find r.name name = some entry ∧
    entry.srvSet = true ∧ entry.pathTmp ≠ none

structure PathsOwned (table : ServerTable) : Prop where
  owned : ∀ first ∈ table.serverOnNetwork, ∀ second ∈ table.serverOnNetwork, ∀ one two,
    first.pathTmp = some one → second.pathTmp = some two → one.address = two.address →
      first.address = second.address
  fresh : ∀ entry ∈ table.serverOnNetwork, ∀ path, entry.pathTmp = some path →
    path.address < table.allocated
  releasedFresh : ∀ address ∈ table.released, address < table.allocated
  released : ∀ entry ∈ table.serverOnNetwork, ∀ path, entry.pathTmp = some path →
    (path.address ∈ table.released ↔ entry.srvSet = true)

theorem PathsOwned.create (owned : table.PathsOwned) (clock : ClockReading)
    (record name : List Byte) : (table.create clock record name).2.PathsOwned := by
  have older {entry : ServerEntry} (listed : entry ∈ (table.create clock record name).2.serverOnNetwork)
      {path : PathBuffer} (has : entry.pathTmp = some path) : entry ∈ table.serverOnNetwork := by
    rcases List.mem_cons.mp listed with rfl | earlier
    · cases has
    · exact earlier
  constructor
  · intro first one second two path other has also
    exact owned.owned first (older one has) second (older two also) path other has also
  · intro entry listed path has
    exact Nat.lt_succ_of_lt (owned.fresh entry (older listed has) path has)
  · intro address member
    exact Nat.lt_succ_of_lt (owned.releasedFresh address member)
  · intro entry listed path has
    exact owned.released entry (older listed has) path has

structure Renews (table : ServerTable) (entry seen : ServerEntry) (data : ResourceData)
    (after : ServerTable) : Prop where
  refreshes : table.Refreshes seen data after
  listed : entry ∈ table.serverOnNetwork
  address : seen.address = entry.address
  path : seen.pathTmp = entry.pathTmp
  set : seen.srvSet = entry.srvSet

section Renewed

variable {seen : ServerEntry} {data : ResourceData}
variable {other : ServerEntry}

section

variable (renews : table.Renews entry seen data after)
include renews

theorem Renews.mem_iff : other ∈ after.serverOnNetwork ↔ other = seen.add table.allocated data ∨
      other ∈ table.serverOnNetwork ∧ other.address ≠ entry.address :=
  mem_refreshes renews.refreshes renews.listed renews.address

theorem Renews.path_source {kept : PathBuffer}
    (has : (seen.add table.allocated data).pathTmp = some kept) :
    entry.pathTmp = some kept ∨
      kept.address = table.allocated ∧ table.allocated < after.allocated ∧ entry.srvSet = false := by
  rw [← renews.path, ← renews.set]
  exact renews.refreshes.caches kept has

theorem Renews.paths_apart (owned : table.PathsOwned) (present : other ∈ table.serverOnNetwork)
    (elsewhere : other.address ≠ entry.address) {one two : PathBuffer}
    (has : (seen.add table.allocated data).pathTmp = some one) (also : other.pathTmp = some two) :
    one.address ≠ two.address := by
  intro same
  rcases renews.path_source has with before | ⟨new, -, -⟩
  · exact elsewhere (owned.owned entry renews.listed other present one two before also same).symm
  · have older := owned.fresh other present two also
    omega

theorem Renews.owned (owned : table.PathsOwned) :
    ∀ first ∈ after.serverOnNetwork, ∀ second ∈ after.serverOnNetwork, ∀ one two,
      first.pathTmp = some one → second.pathTmp = some two → one.address = two.address →
        first.address = second.address := by
  intro first there second here one two has also same
  rcases renews.mem_iff.mp there with rfl | ⟨there, elsewhere⟩ <;>
    rcases renews.mem_iff.mp here with rfl | ⟨here, beyond⟩
  · rfl
  · exact absurd same (renews.paths_apart owned here beyond has also)
  · exact absurd same.symm (renews.paths_apart owned there elsewhere also has)
  · exact owned.owned first there second here one two has also same

theorem Renews.fresh (owned : table.PathsOwned) :
    ∀ one ∈ after.serverOnNetwork, ∀ path, one.pathTmp = some path →
      path.address < after.allocated := by
  intro one there path has
  have grows := renews.refreshes.allocated
  rcases renews.mem_iff.mp there with rfl | ⟨there, -⟩
  · rcases renews.path_source has with before | ⟨new, larger, -⟩
    · have older := owned.fresh entry renews.listed path before
      omega
    · omega
  · have older := owned.fresh one there path has
    omega

theorem Renews.unreleased (owned : table.PathsOwned) (log : after.released = table.released)
    (own : ∀ path, (seen.add table.allocated data).pathTmp = some path →
      (path.address ∈ table.released ↔ (seen.add table.allocated data).srvSet = true)) :
    after.PathsOwned := by
  refine ⟨renews.owned owned, renews.fresh owned, ?_, ?_⟩
  · intro address member
    rw [log] at member
    exact Nat.lt_of_lt_of_le (owned.releasedFresh address member) renews.refreshes.allocated
  · intro one there path has
    rw [log]
    rcases renews.mem_iff.mp there with rfl | ⟨there, -⟩
    · exact own path has
    · exact owned.released one there path has

theorem Renews.releases (owned : table.PathsOwned) {buffer : PathBuffer}
    (waiting : entry.pathTmp = some buffer)
    (log : after.released = buffer.address :: table.released)
    (kept : (seen.add table.allocated data).pathTmp = some buffer)
    (nowSet : (seen.add table.allocated data).srvSet = true) : after.PathsOwned := by
  have grows := renews.refreshes.allocated
  refine ⟨renews.owned owned, renews.fresh owned, ?_, ?_⟩
  · intro address member
    rw [log] at member
    rcases List.mem_cons.mp member with rfl | earlier
    · have older := owned.fresh entry renews.listed buffer waiting
      omega
    · have older := owned.releasedFresh address earlier
      omega
  · intro one there path has
    rw [log, List.mem_cons]
    rcases renews.mem_iff.mp there with rfl | ⟨there, elsewhere⟩
    · rw [kept] at has
      rw [nowSet, ← Option.some.inj has]
      exact ⟨fun _ => rfl, fun _ => .inl rfl⟩
    · have other : path.address ≠ buffer.address := by
        intro same
        exact elsewhere (owned.owned one there entry renews.listed path buffer has waiting same)
      rw [← owned.released one there path has]
      exact or_iff_right other

end

theorem PathsOwned.renewed (owned : table.PathsOwned)
    (renews : table.Renews entry seen data after) :
    after.PathsOwned ∧ (table.released.Nodup → after.released.Nodup) := by
  rcases ServerEntry.add_used seen table.allocated data with
    ⟨uses, unset, nowSet, kept⟩ | ⟨unused, sameSet⟩
  · rw [renews.path] at uses kept
    rw [renews.set] at unset
    cases waiting : entry.pathTmp with
    | none =>
      have log : after.released = table.released := by
        rw [renews.refreshes.released, uses, waiting]
        rfl
      refine ⟨renews.unreleased owned log fun path has => ?_, fun distinct => log ▸ distinct⟩
      rw [kept, waiting] at has
      cases has
    | some buffer =>
      have unreleased : buffer.address ∉ table.released := by
        intro member
        have released := (owned.released entry renews.listed buffer waiting).mp member
        rw [unset] at released
        exact Bool.false_ne_true released
      have log : after.released = buffer.address :: table.released := by
        rw [renews.refreshes.released, uses, waiting]
        rfl
      refine ⟨renews.releases owned waiting log (kept.trans waiting) nowSet, fun distinct => ?_⟩
      rw [log]
      exact List.nodup_cons.mpr ⟨unreleased, distinct⟩
  · have log : after.released = table.released := by
      rw [renews.refreshes.released, unused]
      rfl
    refine ⟨renews.unreleased owned log fun path has => ?_, fun distinct => log ▸ distinct⟩
    rw [sameSet, renews.set]
    rcases renews.path_source has with before | ⟨new, -, unset⟩
    · exact owned.released entry renews.listed path before
    · rw [unset, new]
      constructor
      · intro member
        exact absurd (owned.releasedFresh _ member) (Nat.lt_irrefl _)
      · intro impossible
        exact absurd impossible Bool.false_ne_true

end Renewed

theorem PathsOwned.receives (linked : table.Linked bucket) (owned : table.PathsOwned)
    (receives : table.Receives clock r after) (single : ¬table.ReleasesAgain r) :
    after.PathsOwned ∧ (table.released.Nodup → after.released.Nodup) := by
  cases receives with
  | ignored => exact ⟨owned, id⟩
  | unknown => exact ⟨owned, id⟩
  | @created name after about missing announcement refreshes =>
    have listed : (table.create clock r.name name).1 ∈
        (table.create clock r.name name).2.serverOnNetwork := List.mem_cons_self ..
    have renewed :=
      (owned.create clock r.name name).renewed ⟨refreshes, listed, rfl, rfl, rfl⟩
    exact renewed
  | @withdrawn name entry about found withdrawal =>
    have listed := (find_hits linked found).1
    have remains {other : ServerEntry}
        (present : other ∈ (table.mdnsRecordRemove r.name entry).serverOnNetwork) :=
      mem_withdrawn.mp present
    have log : (table.mdnsRecordRemove r.name entry).released =
        (entry.pathTmp.map PathBuffer.address).toList ++ table.released := rfl
    have unset {buffer : PathBuffer} (waiting : entry.pathTmp = some buffer) :
        buffer.address ∉ table.released := by
      intro member
      apply single
      refine ⟨withdrawal, name, entry, about, found, ?_, ?_⟩
      · exact (owned.released entry listed buffer waiting).mp member
      · rw [waiting]
        exact Option.some_ne_none _
    refine ⟨⟨?_, ?_, ?_, ?_⟩, ?_⟩
    · intro one there two here
      exact owned.owned one (remains there).1 two (remains here).1
    · intro one there
      exact owned.fresh one (remains there).1
    · intro address member
      rw [log, List.mem_append, Option.mem_toList, Option.map_eq_some_iff] at member
      rcases member with ⟨buffer, waiting, rfl⟩ | earlier
      · exact owned.fresh entry listed buffer waiting
      · exact owned.releasedFresh address earlier
    · intro one there path has
      obtain ⟨there, elsewhere⟩ := remains there
      rw [log, List.mem_append, Option.mem_toList, Option.map_eq_some_iff,
        owned.released one there path has]
      apply or_iff_right
      rintro ⟨buffer, waiting, same⟩
      exact elsewhere (owned.owned one there entry listed path buffer has waiting same.symm)
    · intro distinct
      rw [log]
      cases waiting : entry.pathTmp with
      | none => exact distinct
      | some buffer => exact List.nodup_cons.mpr ⟨unset waiting, distinct⟩
  | refreshed about found announcement refreshes =>
    exact owned.renewed ⟨refreshes, (find_hits linked found).1, rfl, rfl, rfl⟩

theorem receives_released (receives : table.Receives clock r after) :
    table.released <:+ after.released := by
  cases receives with
  | ignored => exact List.suffix_rfl
  | unknown => exact List.suffix_rfl
  | created about missing announcement refreshes =>
    rw [refreshes.released]
    exact List.suffix_append _ _
  | withdrawn => exact List.suffix_append _ _
  | refreshed about found announcement refreshes =>
    rw [refreshes.released]
    exact List.suffix_append _ _

theorem PathsOwned.twice (linked : table.Linked bucket) (owned : table.PathsOwned)
    (receives : table.Receives clock r after) (again : table.ReleasesAgain r) :
    ¬after.released.Nodup := by
  obtain ⟨withdrawal, name, entry, about, found, set, has⟩ := again
  cases receives with
  | ignored skipped =>
    rw [about] at skipped
    cases skipped
  | @unknown other also missing =>
    obtain rfl := Option.some.inj (about.symm.trans also)
    rw [found] at missing
    cases missing
  | created _ _ announcement => exact absurd withdrawal announcement
  | refreshed _ _ announcement => exact absurd withdrawal announcement
  | @withdrawn other second also here =>
    obtain rfl := Option.some.inj (about.symm.trans also)
    obtain rfl := Option.some.inj (found.symm.trans here)
    obtain ⟨buffer, waiting⟩ := Option.ne_none_iff_exists'.mp has
    have released := (owned.released entry (find_hits linked found).1 buffer waiting).mpr set
    have log : (table.mdnsRecordRemove r.name entry).released =
        (entry.pathTmp.map PathBuffer.address).toList ++ table.released := rfl
    rw [log, waiting]
    intro distinct
    exact (List.nodup_cons.mp distinct).1 released

end ServerTable

end OpcUa
