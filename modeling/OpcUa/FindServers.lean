import OpcUa.Library.NewestFirst
import OpcUa.Library.Paging
import OpcUa.MulticastRuns

/-!
The FindServersOnNetwork service over a table of servers. Its search goes from the newest record to
the oldest one and stops when it has enough, so a page has the newest records and not the oldest.
-/

namespace OpcUa

open LittleEndian NewestFirst Paging ServerTable List

def ServerTable.records (table : ServerTable) : List ServerOnNetwork :=
  table.serverOnNetwork.map ServerEntry.serverOnNetwork

def ServerTable.recordIds (table : ServerTable) : List Nat :=
  table.serverOnNetwork.map fun entry => entry.serverOnNetwork.recordId.toNat

structure ServerTable.Numbered (table : ServerTable) : Prop where
  descending : table.recordIds.Pairwise (· > ·)
  below : ∀ recordId ∈ table.recordIds, recordId < table.serverOnNetworkRecordIdCounter.toNat

def hasCapabilities (serverCapabilityFilter : List (List Byte)) (record : ServerOnNetwork) : Bool :=
  serverCapabilityFilter.all fun wanted => record.serverCapabilities.contains wanted

def ServerTable.matching (table : ServerTable) (serverCapabilityFilter : List (List Byte))
    (startingRecordId : BitVec 32) : List ServerOnNetwork :=
  table.records.reverse.filter fun record =>
    decide (startingRecordId ≤ record.recordId) && hasCapabilities serverCapabilityFilter record

def limitRecords (maxRecordsToReturn : BitVec 32) (records : List ServerOnNetwork) :
    List ServerOnNetwork :=
  if maxRecordsToReturn = 0 then records else records.take maxRecordsToReturn.toNat

section Numbers

variable {table after : ServerTable} {bucket : Nat → Nat} {clock : ClockReading} {r : Resource}

theorem add_recordId (entry : ServerEntry) (address : Nat) (data : ResourceData) :
    (entry.add address data).serverOnNetwork.recordId = entry.serverOnNetwork.recordId := by
  cases data with
  | srv name port =>
    rw [ServerEntry.add, setSrv_eq]
    split <;> rfl
  | txt path caps =>
    rw [ServerEntry.add, setTxt_eq]
    split <;> rfl
  | other => rfl

theorem ServerTable.Refreshes.recordIds {entry seen : ServerEntry} {data : ResourceData}
    (refreshes : table.Refreshes seen data after)
    (distinct : (table.serverOnNetwork.map ServerEntry.address).Nodup)
    (listed : entry ∈ table.serverOnNetwork) (address : seen.address = entry.address)
    (same : seen.serverOnNetwork = entry.serverOnNetwork) : after.recordIds = table.recordIds := by
  rw [ServerTable.recordIds, refreshes.list]
  apply KeyedList.map_replace_of_eq distinct listed
  · rw [ServerEntry.add_address, address]
  · rw [add_recordId, same]

theorem ServerTable.Numbered.receives (numbered : table.Numbered) (linked : table.Linked bucket)
    (receives : table.Receives clock r after)
    (room : table.serverOnNetworkRecordIdCounter.toNat + 1 < 2 ^ 32) :
    after.Numbered ∧ after.serverOnNetworkRecordIdCounter.toNat ≤
      table.serverOnNetworkRecordIdCounter.toNat + 1 := by
  cases receives with
  | ignored => exact ⟨numbered, Nat.le_succ _⟩
  | unknown => exact ⟨numbered, Nat.le_succ _⟩
  | @created name after about missing announcement refreshes =>
    have counter : after.serverOnNetworkRecordIdCounter.toNat =
        table.serverOnNetworkRecordIdCounter.toNat + 1 := by
      rw [refreshes.counter]
      exact Nat.mod_eq_of_lt room
    have ids : after.recordIds = table.serverOnNetworkRecordIdCounter.toNat :: table.recordIds := by
      rw [ServerTable.recordIds, created_list linked refreshes, map_cons, add_recordId]
      rfl
    refine ⟨⟨?_, ?_⟩, counter.le⟩
    · rw [ids]
      exact pairwise_cons.mpr ⟨numbered.below, numbered.descending⟩
    · rw [ids, counter]
      intro recordId member
      rcases mem_cons.mp member with rfl | earlier
      · exact Nat.lt_succ_self _
      · exact Nat.lt_succ_of_lt (numbered.below recordId earlier)
  | @withdrawn name entry about found withdrawal =>
    have part : (table.mdnsRecordRemove r.name entry).recordIds.Sublist table.recordIds :=
      filter_sublist.map _
    refine ⟨⟨numbered.descending.sublist part, ?_⟩, Nat.le_succ _⟩
    intro recordId member
    exact numbered.below recordId (part.subset member)
  | refreshed about found announcement refreshes =>
    have ids := refreshes.recordIds linked.distinct (find_hits linked found).1 rfl rfl
    refine ⟨⟨?_, ?_⟩, ?_⟩
    · rw [ids]
      exact numbered.descending
    · rw [ids, refreshes.counter]
      exact numbered.below
    · rw [refreshes.counter]
      exact Nat.le_succ _

theorem serversAfter_numbered (start : BitVec 64) {arrivals : List ResourceArrival}
    (few : arrivals.length < 2 ^ 32) :
    (serversAfter start arrivals).Numbered ∧
      (serversAfter start arrivals).serverOnNetworkRecordIdCounter.toNat ≤ arrivals.length := by
  induction arrivals using List.reverseRecOn with
  | nil =>
    refine ⟨⟨List.Pairwise.nil, ?_⟩, Nat.le_refl _⟩
    intro recordId member
    cases member
  | append_singleton arrivals arrival ih =>
    rw [length_append, length_singleton] at few ⊢
    obtain ⟨numbered, count⟩ := ih (by omega)
    obtain ⟨bucket, linked⟩ := serversAfter_linked start arrivals
    rw [serversAfter_snoc]
    obtain ⟨after, counter⟩ := numbered.receives linked
      (mdnsRecordReceived_receives _ arrival.clock arrival.resource) (by omega)
    exact ⟨after, by omega⟩

end Numbers

section Service

variable {table : ServerTable} {serverCapabilityFilter : List (List Byte)}
  {maxRecordsToReturn : BitVec 32}

def FindServersOnNetworkRequest.selects (request : FindServersOnNetworkRequest)
    (record : ServerOnNetwork) : Bool :=
  decide (request.startingRecordId ≤ record.recordId) &&
    filterServerRecord request.serverCapabilityFilter record

theorem filterRecords_eq (request : FindServersOnNetworkRequest) (recordCount : Nat)
    (entries : List ServerEntry) (filtered : List ServerOnNetwork)
    (room : filtered.length ≤ recordCount) :
    filterRecords request recordCount entries filtered = filtered ++
      ((entries.map ServerEntry.serverOnNetwork).filter request.selects).take
        (recordCount - filtered.length) := by
  induction entries generalizing filtered with
  | nil => simp [filterRecords]
  | cons current rest ih =>
    rw [filterRecords, map_cons]
    by_cases full : filtered.length ≥ recordCount
    · rw [if_pos full, Nat.sub_eq_zero_of_le full, take_zero, append_nil]
    rw [if_neg full]
    by_cases early : current.serverOnNetwork.recordId < request.startingRecordId
    · have dropped : ¬request.selects current.serverOnNetwork = true := by
        rw [FindServersOnNetworkRequest.selects, decide_eq_false (BitVec.not_le.mpr early)]
        exact Bool.false_ne_true
      rw [if_pos early, filter_cons_of_neg dropped, ih filtered room]
    rw [if_neg early]
    have late := BitVec.not_lt.mp early
    cases passes : filterServerRecord request.serverCapabilityFilter current.serverOnNetwork with
    | false =>
      have dropped : ¬request.selects current.serverOnNetwork = true := by
        rw [FindServersOnNetworkRequest.selects, passes, Bool.and_false]
        exact Bool.false_ne_true
      rw [Bool.not_false, if_pos rfl, filter_cons_of_neg dropped, ih filtered room]
    | true =>
      have kept : request.selects current.serverOnNetwork = true := by
        rw [FindServersOnNetworkRequest.selects, passes, decide_eq_true late, Bool.and_true]
      have left : recordCount - filtered.length = recordCount - (filtered.length + 1) + 1 := by
        omega
      rw [Bool.not_true, if_neg Bool.false_ne_true, filter_cons_of_pos kept, left,
        take_succ_cons, ih _ (by rw [length_append, length_singleton]; omega),
        length_append, length_singleton, append_assoc]
      rfl

theorem findServersOnNetwork_servers (table : ServerTable) (request : FindServersOnNetworkRequest) :
    (findServersOnNetwork table request true).servers = ((table.records.filter request.selects).take
        (request.recordCount table.serverOnNetworkRecordIdCounter)).reverse := by
  have found := filterRecords_eq request
    (request.recordCount table.serverOnNetworkRecordIdCounter) table.serverOnNetwork [] (Nat.zero_le _)
  rw [nil_append, length_nil, Nat.sub_zero] at found
  rw [findServersOnNetwork]
  dsimp only
  split
  · rename_i nothing
    rw [nothing]
    rfl
  rw [found]
  split
  · rename_i nothing
    rw [← ServerTable.records, length_eq_zero_iff] at nothing
    rw [nothing]
    rfl
  · rfl

theorem length_le_of_descending {numbers : List Nat} {low high : Nat}
    (descending : numbers.Pairwise (· > ·)) (bounds : ∀ number ∈ numbers, low ≤ number ∧ number < high) :
    numbers.length ≤ high - low := by
  induction numbers generalizing high with
  | nil => exact Nat.zero_le _
  | cons first numbers ih =>
    obtain ⟨larger, descending⟩ := pairwise_cons.mp descending
    obtain ⟨above, under⟩ := bounds first (mem_cons_self ..)
    have rest := ih descending fun number member =>
      ⟨(bounds number (mem_cons_of_mem _ member)).1, larger number member⟩
    rw [length_cons]
    omega

theorem ServerTable.Numbered.selected_length (numbered : table.Numbered)
    (request : FindServersOnNetworkRequest) :
    (table.records.filter request.selects).length ≤
      table.serverOnNetworkRecordIdCounter.toNat - request.startingRecordId.toNat := by
  have ids : table.recordIds = table.records.map fun record => record.recordId.toNat := by
    rw [records, map_map]
    rfl
  rw [← length_map fun record : ServerOnNetwork => record.recordId.toNat]
  have part : ((table.records.filter request.selects).map fun record =>
      record.recordId.toNat).Sublist table.recordIds := by
    rw [ids]
    exact filter_sublist.map _
  apply length_le_of_descending (numbered.descending.sublist part)
  intro recordId member
  refine ⟨?_, numbered.below recordId (part.subset member)⟩
  obtain ⟨record, selected, rfl⟩ := mem_map.mp member
  have passes := (mem_filter.mp selected).2
  rw [FindServersOnNetworkRequest.selects, Bool.and_eq_true, decide_eq_true_eq] at passes
  exact passes.1

theorem take_recordCount (request : FindServersOnNetworkRequest) (counter : BitVec 32)
    {records : List ServerOnNetwork}
    (few : records.length ≤ counter.toNat - request.startingRecordId.toNat) :
    records.take (request.recordCount counter) =
      limitRecords request.maxRecordsToReturn records := by
  have range : (if request.startingRecordId < counter then
      (counter - request.startingRecordId).toNat else 0) =
      counter.toNat - request.startingRecordId.toNat := by
    split
    · rename_i before
      exact BitVec.toNat_sub_of_le (BitVec.le_of_lt before)
    · rename_i behind
      exact (Nat.sub_eq_zero_of_le (BitVec.not_lt.mp behind)).symm
  rw [FindServersOnNetworkRequest.recordCount, limitRecords, range]
  by_cases unlimited : request.maxRecordsToReturn = 0
  · rw [if_neg fun limited => limited.1 unlimited, if_pos unlimited, take_of_length_le few]
  split
  · rename_i limited
    rw [Nat.min_eq_right (Nat.le_of_lt limited.2)]
  · rename_i enough
    have bound : counter.toNat - request.startingRecordId.toNat ≤
        request.maxRecordsToReturn.toNat := by
      by_contra larger
      exact enough ⟨unlimited, by omega⟩
    rw [take_of_length_le few, take_of_length_le (Nat.le_trans few bound)]

theorem ServerTable.Numbered.servers (numbered : table.Numbered)
    (request : FindServersOnNetworkRequest) :
    (findServersOnNetwork table request true).servers =
      (limitRecords request.maxRecordsToReturn (table.records.filter request.selects)).reverse := by
  rw [findServersOnNetwork_servers, take_recordCount request _ (numbered.selected_length request)]

/-- Every capability of the filter is compared with all capabilities of the server. This is right
without a filter, and for a server that has capabilities: if it misses one of the filter, or if no
two of them all differ. -/
def DecidesRight (serverCapabilityFilter : List (List Byte)) (record : ServerOnNetwork) : Prop :=
  serverCapabilityFilter = [] ∨ record.serverCapabilities ≠ [] ∧
    ((∃ wanted ∈ serverCapabilityFilter, wanted ∉ record.serverCapabilities) ∨
      ∀ wanted ∈ serverCapabilityFilter, ∀ capability ∈ record.serverCapabilities,
        wanted = capability)

theorem filterServerRecord_iff (record : ServerOnNetwork) :
    filterServerRecord serverCapabilityFilter record = true ↔
      ∀ wanted ∈ serverCapabilityFilter, ∀ capability ∈ record.serverCapabilities,
        wanted = capability := by
  simp [filterServerRecord]

theorem hasCapabilities_iff (record : ServerOnNetwork) :
    hasCapabilities serverCapabilityFilter record = true ↔
      ∀ wanted ∈ serverCapabilityFilter, wanted ∈ record.serverCapabilities := by
  simp [hasCapabilities]

theorem decidesRight_iff (record : ServerOnNetwork) :
    filterServerRecord serverCapabilityFilter record =
        hasCapabilities serverCapabilityFilter record ↔
      DecidesRight serverCapabilityFilter record := by
  rw [Bool.eq_iff_iff, filterServerRecord_iff, hasCapabilities_iff]
  constructor
  · intro same
    by_cases unfiltered : serverCapabilityFilter = []
    · exact .inl unfiltered
    obtain ⟨wanted, member⟩ := exists_mem_of_ne_nil _ unfiltered
    right
    constructor
    · intro nothing
      have has := same.mp (by
        intro wanted _ capability member
        rw [nothing] at member
        cases member) wanted member
      rw [nothing] at has
      cases has
    · by_cases misses : ∃ wanted ∈ serverCapabilityFilter, wanted ∉ record.serverCapabilities
      · exact .inl misses
      · push Not at misses
        exact .inr (same.mpr misses)
  · rintro (rfl | ⟨some, misses | equal⟩)
    · simp
    · obtain ⟨wanted, member, absent⟩ := misses
      constructor
      · intro all
        obtain ⟨capability, present⟩ := exists_mem_of_ne_nil _ some
        exact absurd (all wanted member capability present ▸ present) absent
      · intro all
        exact absurd (all wanted member) absent
    · constructor
      · intro _ wanted member
        obtain ⟨capability, present⟩ := exists_mem_of_ne_nil _ some
        exact equal wanted member capability present ▸ present
      · exact fun _ => equal

def pageFrom (table : ServerTable) (serverCapabilityFilter : List (List Byte))
    (maxRecordsToReturn startingRecordId : BitVec 32) (servers : List ServerOnNetwork)
    (next : Option (BitVec 32)) : Prop :=
  servers = (findServersOnNetwork table
      ⟨startingRecordId, maxRecordsToReturn, serverCapabilityFilter⟩ true).servers ∧
    next = servers.getLast?.map fun record => record.recordId + 1

/-- A request gives the first of the records that match, in the order of their numbers, and the
requests that follow give the others. -/
structure AnswersInPages (table : ServerTable) (serverCapabilityFilter : List (List Byte))
    (maxRecordsToReturn : BitVec 32) : Prop where
  page : ∀ startingRecordId, (findServersOnNetwork table
      ⟨startingRecordId, maxRecordsToReturn, serverCapabilityFilter⟩ true).servers =
    limitRecords maxRecordsToReturn (table.matching serverCapabilityFilter startingRecordId)
  ascending : (table.matching serverCapabilityFilter 0).Pairwise fun older newer =>
    older.recordId < newer.recordId
  ends : ∃ pages, Pages (pageFrom table serverCapabilityFilter maxRecordsToReturn) 0 pages
  complete : ∀ pages, Pages (pageFrom table serverCapabilityFilter maxRecordsToReturn) 0 pages →
    pages.flatten = table.matching serverCapabilityFilter 0

/-- Nothing has to be cut off, and the filter decides right about every record that the search gets
to. -/
structure FindsAll (table : ServerTable) (serverCapabilityFilter : List (List Byte))
    (maxRecordsToReturn : BitVec 32) : Prop where
  few : maxRecordsToReturn = 0 ∨
    (table.matching serverCapabilityFilter 0).length ≤ maxRecordsToReturn.toNat
  decides : ∀ record ∈ table.records, maxRecordsToReturn = 0 ∨
        ((table.matching serverCapabilityFilter 0).filter fun newer =>
          record.recordId < newer.recordId).length < maxRecordsToReturn.toNat →
      DecidesRight serverCapabilityFilter record

def recordNumber (record : ServerOnNetwork) : Nat := record.recordId.toNat

theorem matching_eq (table : ServerTable) (serverCapabilityFilter : List (List Byte))
    (startingRecordId : BitVec 32) : table.matching serverCapabilityFilter startingRecordId =
      (since recordNumber startingRecordId.toNat table.records).reverse.filter
        (hasCapabilities serverCapabilityFilter) := by
  rw [since, ← filter_reverse, filter_filter]
  apply filter_congr
  intro record _
  rw [Bool.and_comm]
  rfl

theorem selected_eq (table : ServerTable) (request : FindServersOnNetworkRequest) :
    table.records.filter request.selects =
      (since recordNumber request.startingRecordId.toNat table.records).filter
        (filterServerRecord request.serverCapabilityFilter) := by
  rw [since, filter_filter]
  apply filter_congr
  intro record _
  rw [Bool.and_comm]
  rfl

theorem matching_zero (table : ServerTable) (serverCapabilityFilter : List (List Byte)) :
    table.matching serverCapabilityFilter 0 =
      (table.records.filter (hasCapabilities serverCapabilityFilter)).reverse := by
  rw [matching, filter_reverse]
  rfl

theorem ServerTable.Numbered.newestFirst (numbered : table.Numbered) :
    Descending recordNumber table.records := by
  have descending := numbered.descending
  rw [recordIds, pairwise_map] at descending
  rw [Descending, records, pairwise_map]
  exact descending

def limitOf (maxRecordsToReturn : BitVec 32) (records : List ServerOnNetwork) : Nat :=
  if maxRecordsToReturn = 0 then records.length else maxRecordsToReturn.toNat

theorem limitRecords_eq {some records : List ServerOnNetwork} (part : some.length ≤ records.length) :
    limitRecords maxRecordsToReturn some = some.take (limitOf maxRecordsToReturn records) := by
  rw [limitRecords, limitOf]
  split
  · rw [take_of_length_le part]
  · rfl

theorem ServerTable.Numbered.page_iff (numbered : table.Numbered) :
    (∀ startingRecordId, (findServersOnNetwork table
        ⟨startingRecordId, maxRecordsToReturn, serverCapabilityFilter⟩ true).servers =
      limitRecords maxRecordsToReturn (table.matching serverCapabilityFilter startingRecordId)) ↔
    ∀ start, (((since recordNumber start table.records).filter
        (filterServerRecord serverCapabilityFilter)).take
          (limitOf maxRecordsToReturn table.records)).reverse =
      ((since recordNumber start table.records).reverse.filter
        (hasCapabilities serverCapabilityFilter)).take
          (limitOf maxRecordsToReturn table.records) := by
  have answer (startingRecordId : BitVec 32) : (findServersOnNetwork table
      ⟨startingRecordId, maxRecordsToReturn, serverCapabilityFilter⟩ true).servers =
      (((since recordNumber startingRecordId.toNat table.records).filter
        (filterServerRecord serverCapabilityFilter)).take
          (limitOf maxRecordsToReturn table.records)).reverse := by
    rw [numbered.servers, selected_eq, limitRecords_eq]
    exact Nat.le_trans (length_filter_le _ _) (length_filter_le _ _)
  have page (startingRecordId : BitVec 32) :
      limitRecords maxRecordsToReturn (table.matching serverCapabilityFilter startingRecordId) =
        ((since recordNumber startingRecordId.toNat table.records).reverse.filter
          (hasCapabilities serverCapabilityFilter)).take
            (limitOf maxRecordsToReturn table.records) := by
    rw [matching_eq, limitRecords_eq]
    rw [filter_reverse, length_reverse]
    exact Nat.le_trans (length_filter_le _ _) (length_filter_le _ _)
  constructor
  · intro answers start
    by_cases small : start < 2 ^ 32
    · have same := answers (BitVec.ofNat 32 start)
      rw [answer, page, BitVec.toNat_ofNat, Nat.mod_eq_of_lt small] at same
      exact same
    · have nothing : since recordNumber start table.records = [] := by
        rw [since, filter_eq_nil_iff]
        intro record _ later
        rw [decide_eq_true_eq, recordNumber] at later
        have bound := record.recordId.isLt
        omega
      rw [nothing]
      simp
  · intro pages startingRecordId
    rw [answer, page, pages]

theorem newer_length (table : ServerTable) (record : ServerOnNetwork) :
    ((table.matching serverCapabilityFilter 0).filter fun newer =>
        record.recordId < newer.recordId).length =
      ahead recordNumber (hasCapabilities serverCapabilityFilter) table.records record := by
  rw [matching_zero, filter_reverse, length_reverse, filter_filter]
  congr 1
  apply filter_congr
  intro other _
  rw [Bool.and_comm]
  rfl

theorem ahead_lt_length {records : List ServerOnNetwork} {record : ServerOnNetwork}
    (member : record ∈ records) (wanted : ServerOnNetwork → Bool) :
    ahead recordNumber wanted records record < records.length := by
  rw [ahead, length_filter_lt_length_iff_exists]
  refine ⟨record, member, ?_⟩
  rw [Bool.and_eq_true, decide_eq_true_eq]
  exact fun counts => Nat.lt_irrefl _ counts.2

theorem findsAll_iff (table : ServerTable) :
    FindsAll table serverCapabilityFilter maxRecordsToReturn ↔
      (table.records.filter (hasCapabilities serverCapabilityFilter)).length ≤
          limitOf maxRecordsToReturn table.records ∧
        ∀ record ∈ table.records,
          ahead recordNumber (hasCapabilities serverCapabilityFilter) table.records record <
              limitOf maxRecordsToReturn table.records →
            filterServerRecord serverCapabilityFilter record =
              hasCapabilities serverCapabilityFilter record := by
  have count : (table.matching serverCapabilityFilter 0).length =
      (table.records.filter (hasCapabilities serverCapabilityFilter)).length := by
    rw [matching_zero, length_reverse]
  rw [limitOf]
  by_cases unlimited : maxRecordsToReturn = 0
  · rw [if_pos unlimited]
    constructor
    · rintro ⟨-, decides⟩
      refine ⟨length_filter_le _ _, ?_⟩
      intro record member _
      exact (decidesRight_iff record).mpr (decides record member (.inl unlimited))
    · rintro ⟨-, decides⟩
      refine ⟨.inl unlimited, ?_⟩
      intro record member _
      exact (decidesRight_iff record).mp (decides record member (ahead_lt_length member _))
  · rw [if_neg unlimited]
    constructor
    · rintro ⟨few, decides⟩
      refine ⟨count ▸ few.resolve_left unlimited, ?_⟩
      intro record member fewer
      refine (decidesRight_iff record).mpr (decides record member (.inr ?_))
      rw [newer_length]
      exact fewer
    · rintro ⟨few, decides⟩
      refine ⟨.inr (count.symm ▸ few), ?_⟩
      intro record member fewer
      refine (decidesRight_iff record).mp (decides record member ?_)
      rw [← newer_length]
      exact fewer.resolve_left unlimited

theorem ServerTable.Numbered.matching_ascending (numbered : table.Numbered)
    (startingRecordId : BitVec 32) :
    (table.matching serverCapabilityFilter startingRecordId).Pairwise fun older newer =>
      older.recordId < newer.recordId := by
  have ascending := pairwise_reverse.mpr numbered.newestFirst
  exact ascending.sublist filter_sublist

theorem matching_later {start later : BitVec 32} (order : start ≤ later) :
    table.matching serverCapabilityFilter later =
      (table.matching serverCapabilityFilter start).filter fun record =>
        decide (later ≤ record.recordId) := by
  rw [ServerTable.matching, ServerTable.matching, filter_filter]
  apply filter_congr
  intro record _
  by_cases behind : later ≤ record.recordId
  · rw [decide_eq_true (BitVec.le_trans order behind)]
    simp
  · rw [decide_eq_false behind, Bool.false_and, Bool.false_and]

theorem limitRecords_append (maxRecordsToReturn : BitVec 32) (records : List ServerOnNetwork) :
    ∃ rest, records = limitRecords maxRecordsToReturn records ++ rest := by
  rw [limitRecords]
  split
  · exact ⟨[], (append_nil _).symm⟩
  · exact ⟨records.drop maxRecordsToReturn.toNat, (take_append_drop _ _).symm⟩

theorem limitRecords_eq_nil {records : List ServerOnNetwork}
    (nothing : limitRecords maxRecordsToReturn records = []) : records = [] := by
  rw [limitRecords] at nothing
  split at nothing
  · exact nothing
  · rename_i limited
    rcases take_eq_nil_iff.mp nothing with zero | empty
    · exact absurd (BitVec.eq_of_toNat_eq zero) limited
    · exact empty

theorem ServerTable.Numbered.recordId_succ (numbered : table.Numbered) {start : BitVec 32}
    {record : ServerOnNetwork} (member : record ∈ table.matching serverCapabilityFilter start) :
    (record.recordId + 1).toNat = record.recordId.toNat + 1 := by
  have known : record.recordId.toNat ∈ table.recordIds := by
    obtain ⟨entry, listed, same⟩ :=
      mem_map.mp (mem_reverse.mp (mem_filter.mp member).1)
    exact mem_map.mpr ⟨entry, listed, congrArg (fun record => record.recordId.toNat) same⟩
  have below := numbered.below _ known
  have bound := table.serverOnNetworkRecordIdCounter.isLt
  have small : record.recordId.toNat + 1 < 2 ^ 32 := by omega
  exact Nat.mod_eq_of_lt small

theorem filter_behind {servers rest : List ServerOnNetwork} {last : ServerOnNetwork}
    (ends : servers.getLast? = some last)
    (ascending : (servers ++ rest).Pairwise fun older newer => older.recordId < newer.recordId)
    (number : (last.recordId + 1).toNat = last.recordId.toNat + 1) :
    (servers ++ rest).filter (fun record => decide (last.recordId + 1 ≤ record.recordId)) =
      rest := by
  have behind (record : ServerOnNetwork) :
      last.recordId + 1 ≤ record.recordId ↔ last.recordId < record.recordId := by
    rw [BitVec.le_def, BitVec.lt_def, number]
    exact Nat.succ_le_iff
  obtain ⟨others, split⟩ := getLast?_eq_some_iff.mp ends
  obtain ⟨first, -, apart⟩ := pairwise_append.mp ascending
  rw [split] at first
  have before := (pairwise_append.mp first).2.2
  have gone : servers.filter (fun record => decide (last.recordId + 1 ≤ record.recordId)) = [] := by
    rw [filter_eq_nil_iff, split]
    intro record among after
    rw [decide_eq_true_eq, behind] at after
    rcases mem_append.mp among with other | same
    · exact BitVec.lt_irrefl _ (BitVec.lt_trans after
        (before record other last (mem_singleton_self _)))
    · rw [mem_singleton.mp same] at after
      exact BitVec.lt_irrefl _ after
  have stays : rest.filter (fun record => decide (last.recordId + 1 ≤ record.recordId)) =
      rest := by
    rw [filter_eq_self]
    intro record among
    rw [decide_eq_true_eq, behind]
    apply apart last _ record among
    rw [split]
    exact mem_append_right _ (mem_singleton_self _)
  rw [filter_append, gone, stays, nil_append]

theorem ServerTable.Numbered.splits (numbered : table.Numbered)
    (page : ∀ startingRecordId, (findServersOnNetwork table
        ⟨startingRecordId, maxRecordsToReturn, serverCapabilityFilter⟩ true).servers =
      limitRecords maxRecordsToReturn (table.matching serverCapabilityFilter startingRecordId)) :
    Splits (pageFrom table serverCapabilityFilter maxRecordsToReturn) (fun _ => True)
      (table.matching serverCapabilityFilter) where
  ends := by
    rintro start servers - ⟨answer, last⟩
    have nothing : servers = [] :=
      getLast?_eq_none_iff.mp (Option.map_eq_none_iff.mp last.symm)
    rw [page] at answer
    rw [nothing]
    exact limitRecords_eq_nil (answer.symm.trans nothing)
  goes := by
    rintro start servers next - ⟨answer, goes⟩
    obtain ⟨last, ends, rfl⟩ := Option.map_eq_some_iff.mp goes.symm
    obtain ⟨rest, whole⟩ :=
      limitRecords_append maxRecordsToReturn (table.matching serverCapabilityFilter start)
    rw [← page, ← answer] at whole
    obtain ⟨others, split⟩ := getLast?_eq_some_iff.mp ends
    have member : last ∈ table.matching serverCapabilityFilter start := by
      rw [whole, split]
      exact mem_append_left _ (mem_append_right _ (mem_singleton_self _))
    have later : start ≤ last.recordId := by
      have passes := (mem_filter.mp member).2
      rw [Bool.and_eq_true, decide_eq_true_eq] at passes
      exact passes.1
    have number := numbered.recordId_succ member
    have ascending : (table.matching serverCapabilityFilter start).Pairwise fun older newer =>
        older.recordId < newer.recordId := numbered.matching_ascending start
    rw [whole] at ascending
    have order : start ≤ last.recordId + 1 := by
      rw [BitVec.le_def, number]
      exact Nat.le_succ_of_le later
    refine ⟨?_, trivial, ?_⟩
    · rw [matching_later order, whole, filter_behind ends ascending number]
    · rw [split]
      exact append_ne_nil_of_right_ne_nil _ (cons_ne_nil _ _)

theorem ServerTable.Numbered.page_findsAll (numbered : table.Numbered) :
    (∀ startingRecordId, (findServersOnNetwork table
        ⟨startingRecordId, maxRecordsToReturn, serverCapabilityFilter⟩ true).servers =
      limitRecords maxRecordsToReturn (table.matching serverCapabilityFilter startingRecordId)) ↔
    FindsAll table serverCapabilityFilter maxRecordsToReturn := by
  rw [numbered.page_iff, findsAll_iff]
  by_cases empty : table.records = []
  · rw [empty]
    constructor
    · intro _
      refine ⟨Nat.zero_le _, ?_⟩
      intro record member
      cases member
    · intro _ start
      simp [since]
  · apply pages_iff numbered.newestFirst
    rw [limitOf]
    split
    · exact length_pos_of_ne_nil empty
    · rename_i limited
      exact Nat.pos_of_ne_zero fun zero => limited (BitVec.eq_of_toNat_eq zero)

end Service

/-- Requests page through the records if and only if no page has to be cut off and the filter
decides right. -/
theorem findServersOnNetwork_pages {table : ServerTable} (numbered : table.Numbered)
    (serverCapabilityFilter : List (List Byte)) (maxRecordsToReturn : BitVec 32) :
    AnswersInPages table serverCapabilityFilter maxRecordsToReturn ↔
      FindsAll table serverCapabilityFilter maxRecordsToReturn := by
  constructor
  · intro answers
    exact numbered.page_findsAll.mp answers.page
  · intro finds
    have page := numbered.page_findsAll.mpr finds
    have splits := numbered.splits page
    refine ⟨page, numbered.matching_ascending 0, ?_, ?_⟩
    · exact splits.exists_pages (fun _ _ => ⟨_, _, rfl, rfl⟩) trivial
    · intro pages run
      exact splits.flatten trivial run

/-- Servers with the capabilities DA, HD and DA. -/
def capableServers : List ResourceArrival :=
  [announcedServer, recordOf [97] 120 (.txt none (some [68, 65])),
    recordOf [98] 120 (.srv [105] 4840), recordOf [98] 120 (.txt none (some [72, 68])),
    recordOf [99] 120 (.srv [106] 4840), recordOf [99] 120 (.txt none (some [68, 65]))]

theorem capableServers_pages : AnswersInPages (serversAfter 0 capableServers) [[68, 65]] 2 ∧
    ¬AnswersInPages (serversAfter 0 capableServers) [[68, 65]] 1 := by
  have numbered : (serversAfter 0 capableServers).Numbered :=
    (serversAfter_numbered 0 (by decide)).1
  have pages := findServersOnNetwork_pages numbered [[68, 65]]
  have two : ((serversAfter 0 capableServers).matching [[68, 65]] 0).length = 2 := by
    decide +kernel
  have right : ∀ record ∈ (serversAfter 0 capableServers).records,
      DecidesRight [[68, 65]] record := by
    simp only [DecidesRight]
    decide +kernel
  constructor
  · exact (pages 2).mpr ⟨.inr two.le, fun record member _ => right record member⟩
  · intro answers
    rcases ((pages 1).mp answers).few with unlimited | few
    · cases unlimited
    · rw [two] at few
      exact absurd few (by decide)

def twoServers : List ResourceArrival :=
  [announcedServer, recordOf [98] 120 (.srv [105] 4840)]

/-- Of two servers the newer one is the first page, and it has no capability that is asked for. -/
theorem twoServers_cutOff : ¬∀ arrivals serverCapabilityFilter maxRecordsToReturn,
    AnswersInPages (serversAfter 0 arrivals) serverCapabilityFilter maxRecordsToReturn := by
  intro answers
  have page := (answers twoServers [] 1).page 0
  revert page
  decide +kernel

end OpcUa
