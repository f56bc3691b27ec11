import Mathlib.Data.List.Nodup
import Mathlib.Logic.Function.Basic

/-!
Objects at addresses that are used once, with the list of those that are registered, their number
and its limit. An object that is taken out of the list waits until it is freed.
-/

namespace Registers

variable {Entry View : Type}

structure Register (objects : Nat → Option Entry) (listed : List Nat) (count limit next : Nat)
    (waiting : Nat → Prop) : Prop where
  nodup : listed.Nodup
  stored : ∀ address ∈ listed, objects address ≠ none
  counted : count = listed.length
  limited : count ≤ limit
  fresh : ∀ address, next ≤ address → objects address = none
  unlisted : ∀ address, waiting address → address ∉ listed ∧ address < next

variable {objects : Nat → Option Entry} {listed : List Nat} {count limit next : Nat}
  {waiting : Nat → Prop} {address : Nat}

namespace Register

variable (register : Register objects listed count limit next waiting)
include register

theorem weaken {fewer : Nat → Prop} (implies : ∀ other, fewer other → waiting other) :
    Register objects listed count limit next fewer :=
  { register with unlisted := fun other waits => register.unlisted other (implies other waits) }

theorem advance : Register objects listed count limit (next + 1) waiting :=
  { register with
    fresh := fun other beyond => register.fresh other (Nat.le_of_lt beyond)
    unlisted := fun other waits =>
      (register.unlisted other waits).imp_right fun known => Nat.lt_succ_of_lt known }

theorem remove (member : address ∈ listed) :
    Register objects (listed.erase address) (count - 1) limit next
      fun other => other = address ∨ waiting other where
  nodup := register.nodup.erase address
  stored other kept := register.stored other (List.mem_of_mem_erase kept)
  counted := by rw [List.length_erase_of_mem member, ← register.counted]
  limited := Nat.le_trans (Nat.sub_le _ 1) register.limited
  fresh := register.fresh
  unlisted := by
    rintro other (rfl | waits)
    · refine ⟨register.nodup.not_mem_erase, Nat.lt_of_not_le fun beyond => ?_⟩
      exact register.stored other member (register.fresh other beyond)
    · have former := register.unlisted other waits
      exact ⟨fun kept => former.1 (List.mem_of_mem_erase kept), former.2⟩

theorem insert {larger : Nat} (room : count < larger) (entry : Entry) :
    Register (Function.update objects next (some entry)) (next :: listed) (count + 1) larger
      (next + 1) waiting where
  nodup := by
    refine List.nodup_cons.mpr ⟨fun member => ?_, register.nodup⟩
    exact register.stored next member (register.fresh next (Nat.le_refl _))
  stored other member := by
    by_cases here : other = next
    · simp [here]
    · rw [Function.update_of_ne here]
      exact register.stored other ((List.mem_cons.mp member).resolve_left here)
  counted := congrArg (· + 1) register.counted
  limited := room
  fresh other beyond := by
    rw [Function.update_of_ne (Nat.ne_of_gt beyond)]
    exact register.fresh other (Nat.le_of_lt beyond)
  unlisted other waits := by
    have former := register.unlisted other waits
    refine ⟨?_, Nat.lt_succ_of_lt former.2⟩
    exact List.not_mem_cons_of_ne_of_not_mem (Nat.ne_of_lt former.2) former.1

theorem free (unlisted : address ∉ listed) :
    Register (Function.update objects address none) listed count limit next waiting :=
  { register with
    stored := fun other member => by
      have different : other ≠ address := fun same => unlisted (same ▸ member)
      rw [Function.update_of_ne different]
      exact register.stored other member
    fresh := fun other beyond => by
      by_cases here : other = address
      · simp [here]
      · rw [Function.update_of_ne here]
        exact register.fresh other beyond }

end Register

theorem view_update (view : Option Entry → View) {entry : Option Entry}
    (same : view entry = view (objects address)) :
    (fun other => view (Function.update objects address entry other)) =
      fun other => view (objects other) := by
  funext other
  by_cases here : other = address
  · rw [here, Function.update_self, same]
  · rw [Function.update_of_ne here]

end Registers
