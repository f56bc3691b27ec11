import Mathlib.Data.Nat.Basic

/-!
Counters that are incremented and may fall back to a small number once they have become
large: how long it takes until such a counter shows the same number again.
-/

namespace RolloverCounter

variable {low high count : Nat} {numbers : Nat → Nat}

def Advances (low high current next : Nat) : Prop :=
  next = current + 1 ∨ (high ≤ current ∧ next < low)

section

variable (steps : ∀ index < count, Advances low high (numbers index) (numbers (index + 1)))
include steps

/-- A counter has either been incremented all the time, or it has first come to `high`,
fallen back once and has come from below `low` to where it is now. -/
theorem distance_of_advances (start length : Nat) (inside : start + length ≤ count) :
    numbers (start + length) = numbers start + length ∨
      (high - numbers start) + 1 + (numbers (start + length) + 1 - low) ≤ length := by
  induction length with
  | zero => exact .inl rfl
  | succ length ih =>
    have step := steps (start + length) (by omega)
    rcases ih (by omega) with climbing | fallen
    · rcases step with more | back
      · left
        rw [← Nat.add_assoc, more, climbing, Nat.add_assoc]
      · right
        rw [← Nat.add_assoc]
        omega
    · rcases step with more | back
      · right
        rw [← Nat.add_assoc]
        omega
      · right
        rw [← Nat.add_assoc]
        omega

theorem repeat_distance {start length : Nat} (inside : start + length ≤ count) (moved : 0 < length)
    (same : numbers (start + length) = numbers start) : high + 2 ≤ length + low := by
  rcases distance_of_advances steps start length inside with climbing | fallen
  · omega
  · omega

end

end RolloverCounter
