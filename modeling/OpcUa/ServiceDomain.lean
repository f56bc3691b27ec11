import OpcUa.MulticastCore

/-!
The service domain under which a server is published by multicast, as
`UA_Discovery_addRecord` and `UA_Discovery_removeRecord` build it. A string is the list of its
bytes, and what lies behind it in the memory is an argument.
-/

namespace OpcUa

open LittleEndian List

/-- `._opcua-tcp._tcp.local.` -/
def opcuaTcpLocal : List Byte := 46 :: (opcuaTcpText ++ [108, 111, 99, 97, 108, 46])

/-- The bytes that `memcpy` finds at the data pointer of a string. -/
def readString (text : List Byte) (behind : Nat → Byte) (count : Nat) : List Byte :=
  (List.range count).map fun index => text.getD index (behind index)

def domainLengths (maxLen servernameLen hostnameLen : Nat) : Nat × Nat :=
  if hostnameLen + servernameLen + 1 > maxLen then
    if servernameLen + 2 > maxLen then (maxLen, 0)
    else (servernameLen, maxLen - servernameLen - 1)
  else (servernameLen, hostnameLen)

/-- What lies behind the two strings. -/
structure BehindStrings where
  servername : Nat → Byte
  hostname : Nat → Byte

def serviceDomainSize : Nat := 63 + 24

def createFullServiceDomain (maxLen : Nat) (servername hostname : List Byte)
    (behind : BehindStrings) : List Byte :=
  let lengths := domainLengths (maxLen - 24) servername.length hostname.length
  readString servername behind.servername lengths.1 ++
    (if lengths.2 > 0 then 45 :: readString hostname behind.hostname lengths.2 else []) ++
    opcuaTcpLocal ++ [0]

/-- The start of `UA_Discovery_addRecord` and of `UA_Discovery_removeRecord`. -/
def fullServiceDomain (servername hostname : List Byte) (behind : BehindStrings) :
    Option (List Byte) :=
  if hostname.length = 0 ∨ servername.length = 0 then none
  else some (createFullServiceDomain serviceDomainSize servername hostname behind)

def ReadsInside (maxLen : Nat) (servername hostname : List Byte) : Prop :=
  let lengths := domainLengths (maxLen - 24) servername.length hostname.length
  lengths.1 ≤ servername.length ∧ lengths.2 ≤ hostname.length

/-- The domain fits the buffer and begins with a label made of the two names, and the function
that removes the records builds the same one. -/
def BuildsDomain (servername hostname : List Byte) : Prop :=
  ∀ adding removing domain, fullServiceDomain servername hostname adding = some domain →
    domain.length ≤ serviceDomainSize ∧ ReadsInside serviceDomainSize servername hostname ∧
    (∃ label, domain = label ++ opcuaTcpLocal ++ [0] ∧ label.length ≤ 63 ∧
      label <+: servername ++ 45 :: hostname) ∧
    fullServiceDomain servername hostname removing = some domain

theorem readString_take {text : List Byte} {count : Nat} (inside : count ≤ text.length)
    (behind : Nat → Byte) : readString text behind count = text.take count := by
  apply ext_getElem
  · rw [readString, length_map, length_range, length_take, Nat.min_eq_left inside]
  · intro index here there
    rw [readString, length_map, length_range] at here
    have bound : index < text.length := Nat.lt_of_lt_of_le here inside
    simp [readString, bound]

def domainLabel (servername hostname : List Byte) : List Byte :=
  (servername ++ 45 :: hostname).take 63

theorem createFullServiceDomain_eq {servername hostname : List Byte} (named : hostname ≠ [])
    (fits : servername.length ≠ 62) (behind : BehindStrings) :
    createFullServiceDomain serviceDomainSize servername hostname behind =
      domainLabel servername hostname ++ opcuaTcpLocal ++ [0] := by
  have positive : 0 < hostname.length := length_pos_iff.mpr named
  rw [createFullServiceDomain, domainLabel]
  congr 2
  dsimp only [serviceDomainSize, domainLengths]
  split
  · split
    · rename_i long
      have inside : 63 ≤ servername.length := by omega
      rw [readString_take inside, if_neg (Nat.lt_irrefl 0), append_nil,
        take_append_of_le_length inside]
    · rename_i cut short
      have rest : 63 - servername.length = (63 - servername.length - 1) + 1 := by omega
      have inside : 63 - servername.length - 1 ≤ hostname.length := by omega
      have room : 63 - servername.length - 1 > 0 := by omega
      have front : servername.take 63 = servername := take_of_length_le (by omega)
      rw [if_pos room, readString_take (Nat.le_refl _), readString_take inside, take_length,
        take_append, front, rest, take_succ_cons, Nat.add_sub_cancel]
  · rename_i whole
    have all : (servername ++ 45 :: hostname).take 63 = servername ++ 45 :: hostname := by
      apply take_of_length_le
      rw [length_append, length_cons]
      omega
    rw [all]
    rw [readString_take (Nat.le_refl _), readString_take (Nat.le_refl _), take_length, take_length]

theorem readsInside_iff {servername hostname : List Byte} (named : hostname ≠ []) :
    ReadsInside serviceDomainSize servername hostname ↔ servername.length ≠ 62 := by
  have positive : 0 < hostname.length := length_pos_iff.mpr named
  rw [ReadsInside]
  dsimp only [serviceDomainSize, domainLengths]
  split
  · split
    · omega
    · omega
  · omega

/-- A server name of 62 bytes is copied with one byte more than it has, and all others are cut
down as they should be. -/
theorem buildsDomain_iff (servername hostname : List Byte) :
    BuildsDomain servername hostname ↔ (servername.length = 62 → hostname = []) := by
  constructor
  · intro builds exact
    by_contra named
    have domain : fullServiceDomain servername hostname ⟨fun _ => 0, fun _ => 0⟩ = some _ :=
      if_neg (by rw [exact]; simpa using named)
    obtain ⟨-, inside, -⟩ := builds _ ⟨fun _ => 0, fun _ => 0⟩ _ domain
    exact (readsInside_iff named).mp inside exact
  · intro spares adding removing domain built
    rw [fullServiceDomain] at built
    split at built
    · cases built
    · rename_i nonempty
      have named : hostname ≠ [] := fun empty => nonempty (.inl (empty ▸ rfl))
      have fits : servername.length ≠ 62 := fun exact => named (spares exact)
      have label : (domainLabel servername hostname).length ≤ 63 := by
        rw [domainLabel, length_take]
        exact Nat.min_le_left _ _
      cases built
      rw [fullServiceDomain, if_neg nonempty, createFullServiceDomain_eq named fits,
        createFullServiceDomain_eq named fits]
      refine ⟨?_, (readsInside_iff named).mpr fits, ⟨_, rfl, label, take_prefix _ _⟩, rfl⟩
      have suffixLength : opcuaTcpLocal.length = 23 := rfl
      rw [length_append, length_append, suffixLength, length_singleton, serviceDomainSize]
      omega

/-- The label of a name of 62 bytes ends with the byte that lies behind the name. -/
theorem longName_overread : ¬BuildsDomain (List.replicate 62 97) [104] ∧
      fullServiceDomain (List.replicate 62 97) [104] ⟨fun _ => 7, fun _ => 0⟩ =
        some (List.replicate 62 97 ++ 7 :: opcuaTcpLocal ++ [0]) := by
  refine ⟨?_, by decide⟩
  intro builds
  obtain ⟨-, inside, -⟩ := builds ⟨fun _ => 0, fun _ => 0⟩ ⟨fun _ => 0, fun _ => 0⟩ _ rfl
  exact absurd inside.1 (by decide)

end OpcUa
