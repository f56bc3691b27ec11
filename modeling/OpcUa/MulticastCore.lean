import OpcUa.Types
import OpcUa.Library.KeyedList

/-!
The servers that are found by multicast: the table of `ua_mdns.c` with its list and its hash map,
and the FindServersOnNetwork service of `ua_services_discovery_multicast.c`. A text is the list of
its bytes, without the NUL behind it.
-/

namespace OpcUa

open LittleEndian KeyedList

def opcuaTcpText : List Byte :=
  [95, 111, 112, 99, 117, 97, 45, 116, 99, 112, 46, 95, 116, 99, 112, 46]

def opcTcpScheme : List Byte := [111, 112, 99, 46, 116, 99, 112, 58, 47, 47]

def findText (text : List Byte) : List Byte → Option Nat
  | [] => if text = [] then some 0 else none
  | byte :: rest =>
    if text.isPrefixOf (byte :: rest) then some 0 else (findText text rest).map (· + 1)

def decimalText (number : Nat) : List Byte :=
  (Nat.toDigits 10 number).map fun digit => BitVec.ofNat 8 digit.toNat

/-- What a record says. Of a TXT record this is the path and the capabilities as `txt2sd` has them. -/
inductive ResourceData where
  | srv (name : List Byte) (port : BitVec 16)
  | txt (path caps : Option (List Byte))
  | other
deriving DecidableEq, Repr

structure Resource where
  name : List Byte
  internetClass : Bool
  ttl : Nat
  data : ResourceData
deriving DecidableEq, Repr

structure ClockReading where
  now : BitVec 64
  nowMonotonic : BitVec 64
deriving DecidableEq, Repr

structure ServerOnNetwork where
  recordId : BitVec 32
  serverName : List Byte
  discoveryUrl : List Byte
  serverCapabilities : List (List Byte)
deriving DecidableEq, Repr

structure PathBuffer where
  address : Nat
  text : List Byte
deriving DecidableEq, Repr

structure ServerEntry where
  address : Nat
  serverOnNetwork : ServerOnNetwork
  created : BitVec 64
  lastSeen : BitVec 64
  txtSet : Bool
  srvSet : Bool
  pathTmp : Option PathBuffer
deriving DecidableEq, Repr

def ServerEntry.name (entry : ServerEntry) : List Byte := entry.serverOnNetwork.serverName

structure ServerOnNetworkCall where
  serverOnNetwork : ServerOnNetwork
  isServerAnnounce : Bool
  isTxtReceived : Bool
deriving DecidableEq, Repr

/-- The part of the server that `ua_mdns.c` works on. The list begins with the newest entry, and a
chain of the hash map has the addresses of entries. Every allocation has an address of its own, and
the addresses of the paths that were released are kept. -/
structure ServerTable where
  serverOnNetwork : List ServerEntry
  serverOnNetworkSize : BitVec 64
  serverOnNetworkRecordIdCounter : BitVec 32
  serverOnNetworkRecordIdLastReset : BitVec 64
  serverOnNetworkHash : Nat → List Nat
  allocated : Nat
  released : List Nat
  calls : List ServerOnNetworkCall

namespace ServerTable

def new (start : BitVec 64) : ServerTable where
  serverOnNetwork := []
  serverOnNetworkSize := 0
  serverOnNetworkRecordIdCounter := 0
  serverOnNetworkRecordIdLastReset := start
  serverOnNetworkHash := fun _ => []
  allocated := 0
  released := []
  calls := []

def entryAt (table : ServerTable) (address : Nat) : Option ServerEntry :=
  table.serverOnNetwork.find? fun entry => entry.address = address

def store (table : ServerTable) (entry : ServerEntry) : ServerTable :=
  { table with serverOnNetwork := replace ServerEntry.address entry table.serverOnNetwork }

end ServerTable

def serverOnNetworkHashPrime : Nat := 1009

def mdnsHashRecord (name : List Byte) : BitVec 32 :=
  name.foldl (fun h byte =>
    let h := (h <<< 4) + byte.setWidth 32
    let g := h &&& 0xF0000000
    let h := if g ≠ 0 then h ^^^ (g >>> 24) else h
    h &&& ~~~g) 0

def hashIdx (record : List Byte) : Nat := (mdnsHashRecord record).toNat % serverOnNetworkHashPrime

/-- Only the first bytes of the two names are compared, as many as the shorter one has. -/
def sameStart (first second : List Byte) : Bool :=
  let maxLen := if first.length > second.length then second.length else first.length
  first.take maxLen = second.take maxLen

namespace ServerTable

variable (table : ServerTable)

def find (record serverName : List Byte) : Option ServerEntry :=
  ((table.serverOnNetworkHash (hashIdx record)).filterMap table.entryAt).find? fun entry =>
    sameStart serverName entry.name

/-- The part of `mdns_record_add_or_get` for a name that is not in the table yet. -/
def create (clock : ClockReading) (record serverName : List Byte) : ServerEntry × ServerTable :=
  let entry : ServerEntry := {
    address := table.allocated
    serverOnNetwork := ⟨table.serverOnNetworkRecordIdCounter, serverName, [], []⟩
    created := clock.now
    lastSeen := 0
    txtSet := false
    srvSet := false
    pathTmp := none }
  let counter := table.serverOnNetworkRecordIdCounter + 1
  (entry, { table with
    serverOnNetwork := entry :: table.serverOnNetwork
    serverOnNetworkRecordIdCounter := counter
    serverOnNetworkRecordIdLastReset :=
      if counter = 0 then clock.now else table.serverOnNetworkRecordIdLastReset
    serverOnNetworkHash := Function.update table.serverOnNetworkHash (hashIdx record)
      (table.allocated :: table.serverOnNetworkHash (hashIdx record))
    allocated := table.allocated + 1 })

def mdnsRecordAddOrGet (clock : ClockReading) (record serverName : List Byte) (createNew : Bool) :
    Option ServerEntry × ServerTable :=
  match table.find record serverName with
  | some entry => (some entry, table)
  | none =>
    if !createNew then (none, table)
    else
      let (entry, table) := table.create clock record serverName
      (some entry, table)

def release (path : Option PathBuffer) : ServerTable :=
  { table with released := (path.map PathBuffer.address).toList ++ table.released }

def mdnsRecordRemove (record : List Byte) (entry : ServerEntry) : ServerTable :=
  let table := { table with
    serverOnNetworkHash := Function.update table.serverOnNetworkHash (hashIdx record)
      ((table.serverOnNetworkHash (hashIdx record)).erase entry.address)
    serverOnNetwork := remove ServerEntry.address entry.address table.serverOnNetwork
    serverOnNetworkSize := table.serverOnNetworkSize - 1
    calls := ⟨entry.serverOnNetwork, false, entry.txtSet⟩ :: table.calls }
  table.release entry.pathTmp

end ServerTable

def mdnsAppendPathToUrl (server : ServerOnNetwork) (path : List Byte) : ServerOnNetwork :=
  { server with discoveryUrl := server.discoveryUrl ++ path }

/-- The path goes to the URL, or it is kept until the URL is known. -/
def ServerEntry.setPath (entry : ServerEntry) (address : Nat) (path : List Byte) : ServerEntry :=
  if !entry.srvSet then { entry with pathTmp := some ⟨address, path⟩ }
  else { entry with serverOnNetwork := mdnsAppendPathToUrl entry.serverOnNetwork path }

def longPath (path : Option (List Byte)) : Option (List Byte) := path.filter fun path => path.length > 1

def splitCaps (caps : Option (List Byte)) : Option (List (List Byte)) :=
  (caps.filter fun caps => caps.length > 0).map (List.splitOn 44)

def setTxt (entry : ServerEntry) (address : Nat) (path caps : Option (List Byte)) : ServerEntry :=
  let entry := { entry with txtSet := true }
  let entry := (longPath path).elim entry (entry.setPath address)
  (splitCaps caps).elim entry fun capabilities =>
    { entry with serverOnNetwork := { entry.serverOnNetwork with
        serverCapabilities := capabilities } }

/-- `opc.tcp://[servername]:[port]/`, where the name can end with a dot that is left out. -/
def srvUrl (name : List Byte) (port : BitVec 16) : List Byte :=
  let name := if name.getLast? = some 46 then name.dropLast else name
  opcTcpScheme ++ name ++ [58] ++ decimalText port.toNat ++ [47]

/-- The path that was kept is released, but the entry has it still. -/
def setSrv (entry : ServerEntry) (name : List Byte) (port : BitVec 16) : ServerEntry :=
  let entry := { entry with
    srvSet := true
    serverOnNetwork := { entry.serverOnNetwork with discoveryUrl := srvUrl name port } }
  entry.pathTmp.elim entry fun path =>
    { entry with serverOnNetwork := mdnsAppendPathToUrl entry.serverOnNetwork path.text }

/-- The name of the server that a record is about. Only SRV and TXT records of
`_opcua-tcp._tcp.` are handled. -/
def Resource.serverName (r : Resource) : Option (List Byte) :=
  if !r.internetClass || r.data == .other then none
  else
    match findText opcuaTcpText r.name with
    | none => none
    | some servernameLen =>
      if servernameLen = 0 then none else some (r.name.take (servernameLen - 1))

namespace ServerTable

variable (table : ServerTable)

def addResource (entry : ServerEntry) (data : ResourceData) : ServerTable :=
  if entry.txtSet && entry.srvSet then table
  else
    let (entry, table) :=
      match data with
      | .txt path caps =>
        if entry.txtSet then (entry, table)
        else
          let entry := setTxt entry table.allocated path caps
          (entry, { table with allocated := table.allocated + 1 }.store entry)
      | .srv name port =>
        if entry.srvSet then (entry, table)
        else
          let table := table.release entry.pathTmp
          let entry := setSrv entry name port
          (entry, table.store entry)
      | .other => (entry, table)
    if entry.srvSet then
      { table with calls := ⟨entry.serverOnNetwork, true, entry.txtSet⟩ :: table.calls }
    else table

def mdnsRecordReceived (clock : ClockReading) (r : Resource) : ServerTable :=
  match r.serverName with
  | none => table
  | some serverName =>
    match table.mdnsRecordAddOrGet clock r.name serverName (r.ttl > 0) with
    | (none, table) => table
    | (some entry, table) =>
      if r.ttl = 0 then table.mdnsRecordRemove r.name entry
      else
        let entry := { entry with lastSeen := clock.nowMonotonic }
        (table.store entry).addResource entry r.data

end ServerTable

structure FindServersOnNetworkRequest where
  startingRecordId : BitVec 32
  maxRecordsToReturn : BitVec 32
  serverCapabilityFilter : List (List Byte)

structure FindServersOnNetworkResponse where
  serviceResult : StatusCode
  lastCounterResetTime : BitVec 64
  servers : List ServerOnNetwork

def filterServerRecord (serverCapabilityFilter : List (List Byte)) (current : ServerOnNetwork) :
    Bool :=
  serverCapabilityFilter.all fun wanted =>
    current.serverCapabilities.all fun capability => wanted == capability

def FindServersOnNetworkRequest.recordCount (request : FindServersOnNetworkRequest)
    (counter : BitVec 32) : Nat :=
  let recordCount :=
    if request.startingRecordId < counter then (counter - request.startingRecordId).toNat else 0
  if request.maxRecordsToReturn ≠ 0 ∧ recordCount > request.maxRecordsToReturn.toNat then
    min recordCount request.maxRecordsToReturn.toNat
  else recordCount

def filterRecords (request : FindServersOnNetworkRequest) (recordCount : Nat) :
    List ServerEntry → List ServerOnNetwork → List ServerOnNetwork
  | [], filtered => filtered
  | current :: rest, filtered =>
    if filtered.length ≥ recordCount then filtered
    else if current.serverOnNetwork.recordId < request.startingRecordId then
      filterRecords request recordCount rest filtered
    else if !filterServerRecord request.serverCapabilityFilter current.serverOnNetwork then
      filterRecords request recordCount rest filtered
    else filterRecords request recordCount rest (filtered ++ [current.serverOnNetwork])

def findServersOnNetwork (table : ServerTable) (request : FindServersOnNetworkRequest)
    (memory : Bool) : FindServersOnNetworkResponse :=
  let reset := table.serverOnNetworkRecordIdLastReset
  let recordCount := request.recordCount table.serverOnNetworkRecordIdCounter
  if recordCount = 0 then ⟨.good, reset, []⟩
  else
    let filtered := filterRecords request recordCount table.serverOnNetwork []
    if filtered.length = 0 then ⟨.good, reset, []⟩
    else if !memory then ⟨.badOutOfMemory, reset, []⟩
    else ⟨.good, reset, filtered.reverse⟩

end OpcUa
