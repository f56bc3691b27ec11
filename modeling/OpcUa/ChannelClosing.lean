import Mathlib.Data.List.Find
import Mathlib.Data.List.TakeWhile
import OpcUa.AccessControl

/-!
Which channel is removed when a SecureChannel is closed. `UA_SecureChannelManager_close` looks for
the id of the channel in the list of all channels, and the channels that are not open yet all have
the id zero.
-/

namespace OpcUa

open StatusCode List

namespace Managers

variable {config : ManagersConfig} {managers : Managers}
variable {memory : Nat → Bool} {channelId : BitVec 32}

/-- The channel that a step closes, with the memory for the delayed callback and the id that the
channel has then: a CLO message, or an OPN message that fails before or after the channel was
given its id. -/
def closing (managers : Managers) : Event → Option (Nat × (Nat → Bool) × BitVec 32)
  | .closeChannel channel memory =>
    (managers.channelAt channel).map fun entry => (channel, memory, entry.channelId)
  | .openChannel channel memory policyStatus keyStatus sendStatus =>
    (managers.channelAt channel).bind fun entry =>
      if entry.opened = true ∨ policyStatus ≠ good then some (channel, memory, entry.channelId)
      else if keyStatus ≠ good ∨ sendStatus ≠ good then
        some (channel, memory, managers.lastChannelId)
      else none
  | _ => none

/-- The channel leaves the list, nothing else is going to be removed, and the other channels and
all sessions are as they were. -/
structure ClosesOnly (managers after : Managers) (channel : Nat) : Prop where
  channels : after.channels = managers.channels.erase channel
  pending : ∀ other, other ≠ channel → .removeSecureChannel other ∈ after.delayedCallbacks →
      .removeSecureChannel other ∈ managers.delayedCallbacks
  others : ∀ other, other ≠ channel → after.channelAt other = managers.channelAt other
  sessions : after.sessionAt = managers.sessionAt

def hasChannelId (managers : Managers) (channelId : BitVec 32) (channel : Nat) : Bool :=
  (managers.channelAt channel).any fun entry => entry.channelId == channelId

/-- No channel in front of it has the id, and its removal can be registered. If the channel is in
the list no more, no other channel must be removed in its place. -/
def ClosesRight (managers : Managers) (memory : Nat → Bool) (channel : Nat)
    (channelId : BitVec 32) : Prop :=
  if channel ∈ managers.channels then
    memory channel = true ∧ ∀ other ∈ managers.channels.takeWhile (· ≠ channel),
        managers.hasChannelId channelId other = false
  else
    ∀ other, managers.channels.find? (managers.hasChannelId channelId) = some other →
      memory other = false

structure Prepared (managers middle : Managers) (channel : Nat) (channelId : BitVec 32) : Prop where
  channels : middle.channels = managers.channels
  delayedCallbacks : middle.delayedCallbacks = managers.delayedCallbacks
  others : ∀ other, other ≠ channel → middle.channelAt other = managers.channelAt other
  sessions : middle.sessionAt = managers.sessionAt
  named : middle.hasChannelId channelId channel = true

theorem closing_step {event : Event} {channel : Nat}
    (closes : managers.closing event = some (channel, memory, channelId)) :
    ∃ middle, Prepared managers middle channel channelId ∧
      managers.step config event = (middle.closeChannel memory channelId).2 := by
  cases event with
  | closeChannel address memoryToo =>
    obtain ⟨entry, stored, same⟩ := Option.map_eq_some_iff.mp closes
    obtain ⟨rfl, rfl, rfl⟩ := same
    refine ⟨managers, ⟨rfl, rfl, fun _ _ => rfl, rfl, by simp [hasChannelId, stored]⟩, ?_⟩
    simp only [step, stored]
  | openChannel address memoryToo policyStatus keyStatus sendStatus =>
    obtain ⟨entry, stored, same⟩ := Option.bind_eq_some_iff.mp closes
    simp only [step, openChannel, stored]
    by_cases early : entry.opened = true ∨ policyStatus ≠ good
    · rw [if_pos early, Option.some.injEq, Prod.mk.injEq, Prod.mk.injEq] at same
      obtain ⟨rfl, rfl, rfl⟩ := same
      refine ⟨managers, ⟨rfl, rfl, fun _ _ => rfl, rfl, by simp [hasChannelId, stored]⟩, ?_⟩
      by_cases opened : entry.opened = true
      · rw [if_pos opened]
      · rw [if_neg opened, if_pos (early.resolve_left opened)]
    · rw [if_neg early] at same
      obtain ⟨fresh, accepted⟩ := not_or.mp early
      rw [if_neg fresh, if_neg accepted]
      by_cases keys : keyStatus ≠ good
      · rw [if_pos (.inl keys), Option.some.injEq, Prod.mk.injEq, Prod.mk.injEq] at same
        obtain ⟨rfl, rfl, rfl⟩ := same
        rw [if_pos keys]
        refine ⟨{ managers.modifyChannel address fun entry =>
            { entry with channelId := managers.lastChannelId } with
            lastChannelId := managers.lastChannelId + 1 },
          ⟨rfl, rfl, fun other different => ?_, rfl, ?_⟩, rfl⟩
        · simp [modifyChannel, different]
        · simp [hasChannelId, modifyChannel, stored]
      · by_cases sent : sendStatus ≠ good
        · rw [if_pos (.inr sent), Option.some.injEq, Prod.mk.injEq, Prod.mk.injEq] at same
          obtain ⟨rfl, rfl, rfl⟩ := same
          rw [if_neg keys, if_pos sent]
          refine ⟨({ managers.modifyChannel address fun entry =>
              { entry with channelId := managers.lastChannelId } with
              lastChannelId := managers.lastChannelId + 1 } : Managers).modifyChannel address
              fun entry => { entry with opened := true },
            ⟨rfl, rfl, fun other different => ?_, rfl, ?_⟩, rfl⟩
          · simp [modifyChannel, different]
          · simp [hasChannelId, modifyChannel, stored]
        · rw [if_neg (not_or.mpr ⟨keys, sent⟩)] at same
          cases same
  | createChannel connection memory entryMemory initStatus => cases closes
  | request channel surroundings request => cases closes
  | cleanup now memory timedOut => cases closes
  | cleanupDelayedCallbacks => cases closes
  | removeConnection connection => cases closes

theorem find_eq_some_iff_takeWhile {list : List Nat} {holds : Nat → Bool} {wanted : Nat}
    (listed : wanted ∈ list) (named : holds wanted = true) :
    list.find? holds = some wanted ↔
      ∀ other ∈ list.takeWhile (· ≠ wanted), holds other = false := by
  induction list with
  | nil => cases listed
  | cons first rest ih =>
    by_cases here : first = wanted
    · subst here
      rw [find?_cons_of_pos named, takeWhile_cons_of_neg (by simp)]
      simp
    · have later : wanted ∈ rest :=
        (mem_cons.mp listed).resolve_left (fun same => here same.symm)
      rw [takeWhile_cons_of_pos (by simpa using here)]
      by_cases found : holds first = true
      · simp [here, found]
      · rw [find?_cons_of_neg found, ih later]
        simp [found]

theorem closeChannel_none
    (search : managers.channels.find? (managers.hasChannelId channelId) = none) :
    managers.closeChannel memory channelId = (badInternalError, managers) := by
  change managers.channels.find? (fun channel => (managers.channelAt channel).any fun entry =>
    entry.channelId == channelId) = none at search
  rw [closeChannel, search]

theorem closeChannel_some {found : Nat}
    (search : managers.channels.find? (managers.hasChannelId channelId) = some found) :
    managers.closeChannel memory channelId = removeSecureChannel (memory found) managers found := by
  change managers.channels.find? (fun channel => (managers.channelAt channel).any fun entry =>
    entry.channelId == channelId) = some found at search
  rw [closeChannel, search]

variable {middle : Managers} {channel : Nat}

section

variable (prepared : Prepared managers middle channel channelId)
include prepared

theorem Prepared.hasChannelId_eq {other : Nat} (different : other ≠ channel) :
    middle.hasChannelId channelId other = managers.hasChannelId channelId other := by
  rw [hasChannelId, hasChannelId, prepared.others other different]

theorem Prepared.find_iff : (channel ∈ managers.channels →
      (middle.channels.find? (middle.hasChannelId channelId) = some channel ↔
        ∀ other ∈ managers.channels.takeWhile (· ≠ channel),
          managers.hasChannelId channelId other = false)) ∧
    (channel ∉ managers.channels → middle.channels.find? (middle.hasChannelId channelId) =
        managers.channels.find? (managers.hasChannelId channelId)) := by
  rw [prepared.channels]
  constructor
  · intro listed
    rw [find_eq_some_iff_takeWhile listed prepared.named]
    refine forall₂_congr fun other front => ?_
    rw [prepared.hasChannelId_eq (by simpa using mem_takeWhile_imp front)]
  · intro gone
    refine find?_congr fun other listed => prepared.hasChannelId_eq ?_
    rintro rfl
    exact gone listed

theorem Prepared.kept_iff : ClosesOnly managers middle channel ↔ channel ∉ managers.channels := by
  constructor
  · intro closed listed
    have shorter : (managers.channels.erase channel).length = managers.channels.length := by
      rw [← closed.channels, prepared.channels]
    have filled := length_pos_of_mem listed
    rw [length_erase_of_mem listed] at shorter
    omega
  · intro gone
    exact {
      channels := by rw [prepared.channels, erase_of_not_mem gone]
      pending := fun other _ waits => prepared.delayedCallbacks ▸ waits
      others := prepared.others
      sessions := prepared.sessions }

theorem Prepared.removed_iff {found : Nat} (unique : managers.channels.Nodup)
    (listed : found ∈ managers.channels) :
    ClosesOnly managers (removeSecureChannel true middle found).2 channel ↔ found = channel := by
  constructor
  · intro closed
    have same : managers.channels.erase found = managers.channels.erase channel := by
      rw [← closed.channels, ← prepared.channels]
      rfl
    by_contra different
    have kept : found ∈ managers.channels.erase channel :=
      (mem_erase_of_ne different).mpr listed
    rw [← same] at kept
    exact unique.not_mem_erase kept
  · rintro rfl
    refine ⟨congrArg (·.erase found) prepared.channels, fun other different waits => ?_,
      prepared.others, prepared.sessions⟩
    rcases mem_cons.mp waits with same | before
    · injection same with same
      exact absurd same different
    · exact prepared.delayedCallbacks ▸ before

end

/-- In every state that is reached, a CLO message or a failed OPN message closes its channel and
nothing else exactly when no other channel is found in its place. -/
theorem closing_hits_iff {allowed : Managers → Event → Prop} (run : Run config allowed managers)
    {event : Event} (closes : managers.closing event = some (channel, memory, channelId)) :
    ClosesOnly managers (managers.step config event) channel ↔
      ClosesRight managers memory channel channelId := by
  obtain ⟨limit, known⟩ := run.bookkept_some
  obtain ⟨middle, prepared, stepped⟩ : ∃ middle, Prepared managers middle channel channelId ∧
      managers.step config event = (middle.closeChannel memory channelId).2 := closing_step closes
  rw [stepped, ClosesRight]
  cases search : middle.channels.find? (middle.hasChannelId channelId) with
  | none =>
    have gone : channel ∉ managers.channels := fun listed =>
      absurd prepared.named (find?_eq_none.mp search channel (prepared.channels ▸ listed))
    have nothing := (prepared.find_iff.2 gone).symm.trans search
    rw [closeChannel_none search, prepared.kept_iff, if_neg gone]
    simp [gone, nothing]
  | some found =>
    have listed := prepared.channels ▸ mem_of_find?_eq_some search
    rw [closeChannel_some search]
    by_cases here : channel ∈ managers.channels
    · rw [if_pos here, ← prepared.find_iff.1 here, search, Option.some.injEq]
      cases stores : memory found with
      | true =>
        rw [prepared.removed_iff known.channels_nodup listed]
        refine ⟨fun same => ⟨same ▸ stores, same⟩, And.right⟩
      | false =>
        have failed : ¬(memory channel = true ∧ found = channel) := by
          rintro ⟨enough, rfl⟩
          rw [stores] at enough
          cases enough
        exact iff_of_false (fun closed => prepared.kept_iff.mp closed here) failed
    · have different : found ≠ channel := by
        rintro rfl
        exact here listed
      rw [if_neg here, ← prepared.find_iff.2 here, search]
      simp only [Option.some.injEq, forall_eq']
      cases stores : memory found with
      | true =>
        exact iff_of_false
          (fun closed => different ((prepared.removed_iff known.channels_nodup listed).mp closed))
          (by simp)
      | false => exact iff_of_true (prepared.kept_iff.mpr here) rfl

def openingManagers : Managers :=
  (initial.step generousConfig (.createChannel 0 (fun _ => true) true good)).step
    generousConfig (.createChannel 1 (fun _ => true) true good)

theorem openingManagers_run : Run generousConfig (fun _ _ => True) openingManagers :=
  (Run.initial.step _ trivial).step _ trivial

def failingOpen (channel : Nat) : Event :=
  .openChannel channel (fun _ => true) badInternalError good good

theorem newerChannel_closesOnly :
    ClosesOnly openingManagers (openingManagers.step generousConfig (failingOpen 1)) 1 := by
  have closes : openingManagers.closing (failingOpen 1) = some (1, fun _ => true, 0) := rfl
  refine (closing_hits_iff openingManagers_run closes).mpr ?_
  have listed : (1 : Nat) ∈ openingManagers.channels := by decide +kernel
  rw [ClosesRight, if_pos listed]
  exact ⟨rfl, by decide +kernel⟩

/-- The OPN message arrives on the older channel and fails, and the newer one is removed. -/
theorem olderChannel_stays : Run generousConfig (fun _ _ => True) openingManagers ∧
      openingManagers.channels = [1, 0] ∧
      openingManagers.closing (failingOpen 0) ≠ none ∧
      (openingManagers.step generousConfig (failingOpen 0)).channels = [0] ∧
      ¬ClosesOnly openingManagers (openingManagers.step generousConfig (failingOpen 0)) 0 := by
  have left : (openingManagers.step generousConfig (failingOpen 0)).channels = [0] := by
    decide +kernel
  refine ⟨openingManagers_run, by decide +kernel, ?_, left, fun closed => ?_⟩
  · exact Option.some_ne_none (0, (fun _ => true), (0 : BitVec 32))
  · have wrong := left.symm.trans closed.channels
    revert wrong
    decide +kernel

end Managers

end OpcUa
