import Mathlib.Data.Nat.Basic
import Mathlib.Tactic.Linarith

/-!
Padding to whole blocks when the amount of the padding is kept in a word. There is always some
padding, a full block if the blocks are whole already. An amount that does not fit a byte takes
another byte.
-/

namespace BlockPadding

def amount (block word length : Nat) : Nat := (block - length % block) % word

def padded (block word length : Nat) : Nat :=
  length + amount block word length + if 256 ≤ amount block word length then 1 else 0

variable {block word length limit : Nat}

theorem add_amount_le (count : Nat) (below : length < count * block) :
    length + amount block word length ≤ count * block := by
  have positive : 0 < block := by
    rw [Nat.pos_iff_ne_zero]
    rintro rfl
    omega
  have split := Nat.div_add_mod length block
  have rest := Nat.mod_lt length positive
  have less : length / block < count := (Nat.div_lt_iff_lt_mul positive).mpr below
  have next : block * (length / block) + block ≤ count * block := by
    rw [← Nat.mul_succ, Nat.mul_comm]
    exact Nat.mul_le_mul_right block less
  have reduced : amount block word length ≤ block - length % block := Nat.mod_le _ _
  omega

theorem amount_sub {back : Nat} (within : back ≤ length % block) (positive : 0 < block) :
    amount block word (length - back) = (amount block word length + back) % word := by
  have rest := Nat.mod_lt length positive
  have whole : length - back = length % block - back + block * (length / block) := by
    have split := Nat.div_add_mod length block
    omega
  have remainder : (length - back) % block = length % block - back := by
    rw [whole, Nat.add_mul_mod_self_left, Nat.mod_eq_of_lt (by omega)]
  rw [amount, amount, remainder, Nat.mod_add_mod]
  congr 1
  omega

/-- What is needed that the padding never leads over the limit: behind one byte less than the limit
there is no padding, or a single byte of it and no room for padding of more than a byte. -/
def Tight (block word low limit : Nat) : Prop :=
  amount block word (limit - 1) = 0 ∨
    amount block word (limit - 1) = 1 ∧ (limit < low + 256 ∨ (limit - 1) % block < 255)

theorem padded_le_iff {low : Nat} (positive : 0 < block) (large : 256 < word) (room : low < limit) :
    (∀ length, low ≤ length → length < limit → padded block word length ≤ limit) ↔
      Tight block word low limit := by
  constructor
  · intro within
    have last := within (limit - 1) (Nat.le_sub_one_of_lt room) (by omega)
    rw [padded] at last
    by_cases none : amount block word (limit - 1) = 0
    · exact .inl none
    · have single : amount block word (limit - 1) = 1 := by
        split at last
        all_goals omega
      refine .inr ⟨single, ?_⟩
      by_contra both
      obtain ⟨wide, late⟩ := not_or.mp both
      -- 255 bytes earlier the padding needs another byte
      have earlier := within (limit - 1 - 255) (by omega) (by omega)
      have grown : amount block word (limit - 1 - 255) = 256 := by
        rw [amount_sub (by omega) positive, single, Nat.mod_eq_of_lt (by omega)]
      rw [padded, grown, if_pos (Nat.le_refl _)] at earlier
      omega
  · intro tight length above below
    obtain ⟨back, inside, behind⟩ : ∃ back, back ≤ limit - 1 ∧ length = limit - 1 - back :=
      ⟨limit - 1 - length, by omega, by omega⟩
    rw [padded]
    by_cases same : back ≤ (limit - 1) % block
    · have reduced := Nat.mod_le (amount block word (limit - 1) + back) word
      rw [behind, amount_sub same positive]
      rcases tight with none | ⟨single, few⟩
      · split
        all_goals omega
      · split
        all_goals omega
    · -- an earlier block, with whole blocks in front of the limit
      have split := Nat.div_add_mod (limit - 1) block
      have ends := @add_amount_le block word length ((limit - 1) / block) (by
        rw [Nat.mul_comm]
        omega)
      rw [Nat.mul_comm] at ends
      split
      all_goals omega

end BlockPadding
