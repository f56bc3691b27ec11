import Mathlib

/-!
Rounding of natural numbers to a binary precision, to the nearest and to the even one of two nearest.
A number with this precision is a significand times a power of two, in units of some smallest power.
A rounded number stays on its side of such a number. The doubles are the numbers with 53 bits, in
units of `2 ^ (-1074)`.
-/

namespace FloatRounding

def surplusBits (precision number : Nat) : Nat := Nat.log2 number + 1 - precision

def nearest (quotient remainder half : Nat) : Nat :=
  if remainder > half ∨ remainder = half ∧ quotient % 2 = 1 then quotient + 1 else quotient

def round (precision number : Nat) : Nat :=
  let surplus := surplusBits precision number
  if surplus = 0 then number
  else nearest (number / 2 ^ surplus) (number % 2 ^ surplus) (2 ^ (surplus - 1)) * 2 ^ surplus

theorem nearest_ge (quotient remainder half : Nat) : quotient ≤ nearest quotient remainder half := by
  unfold nearest
  split <;> omega

theorem nearest_le {quotient remainder half : Nat} (positive : 0 < half) :
    nearest quotient remainder half ≤ quotient + if remainder = 0 then 0 else 1 := by
  unfold nearest
  split <;> split <;> omega

section Precision

variable {precision number : Nat}
variable {exponent : Nat}

section

variable (positive : 0 < precision)
include positive

theorem surplusBits_le (large : surplusBits precision number ≠ 0) :
    2 ^ (precision - 1 + surplusBits precision number) ≤ number := by
  unfold surplusBits at large ⊢
  have nonzero : number ≠ 0 := by
    rintro rfl
    have none : Nat.log2 0 = 0 := by decide
    omega
  calc 2 ^ (precision - 1 + (Nat.log2 number + 1 - precision)) ≤ 2 ^ Nat.log2 number :=
        Nat.pow_le_pow_right (by omega) (by omega)
    _ ≤ number := Nat.log2_self_le nonzero

theorem round_small (small : number < 2 ^ precision) : round precision number = number := by
  have none : surplusBits precision number = 0 := by
    by_contra large
    have bound := surplusBits_le positive large
    have more : 2 ^ precision ≤ 2 ^ (precision - 1 + surplusBits precision number) :=
      Nat.pow_le_pow_right (by omega) (by omega)
    omega
  exact if_pos none

theorem multiple_of_large {significand unit : Nat} (precise : significand < 2 ^ precision)
    (above : 2 ^ (precision - 1 + surplusBits precision number) * 2 ^ unit ≤
      significand * 2 ^ exponent) :
    surplusBits precision number + unit ≤ exponent := by
  by_contra small
  have below : significand * 2 ^ exponent < 2 ^ (precision + exponent) := by
    rw [Nat.pow_add]
    exact Nat.mul_lt_mul_of_pos_right precise (Nat.two_pow_pos exponent)
  have more : 2 ^ (precision + exponent) ≤
      2 ^ (precision - 1 + surplusBits precision number + unit) :=
    Nat.pow_le_pow_right (by omega) (by omega)
  rw [Nat.pow_add _ _ unit] at more
  omega

theorem round_le {significand unit : Nat} (precise : significand < 2 ^ precision)
    (below : number * 2 ^ unit ≤ significand * 2 ^ exponent) :
    round precision number * 2 ^ unit ≤ significand * 2 ^ exponent := by
  rw [round]
  by_cases exact : surplusBits precision number = 0
  · rw [if_pos exact]
    exact below
  rw [if_neg exact]
  have least := Nat.mul_le_mul_right (2 ^ unit) (surplusBits_le positive exact)
  have multiple := multiple_of_large positive precise (Nat.le_trans least below)
  obtain ⟨rest, rfl⟩ := Nat.exists_eq_add_of_le multiple
  generalize surplusBits precision number = surplus at exact below ⊢
  have scaled : significand * 2 ^ (surplus + unit + rest) =
      significand * 2 ^ rest * 2 ^ surplus * 2 ^ unit := by
    ring
  rw [scaled] at below ⊢
  have bound := Nat.le_of_mul_le_mul_right below (Nat.two_pow_pos unit)
  refine Nat.mul_le_mul_right _ (Nat.mul_le_mul_right _ ?_)
  refine Nat.le_trans (nearest_le (Nat.two_pow_pos (surplus - 1))) ?_
  have split := Nat.div_add_mod number (2 ^ surplus)
  generalize number / 2 ^ surplus = quotient at split ⊢
  generalize number % 2 ^ surplus = remainder at split ⊢
  rw [← split, Nat.mul_comm] at bound
  by_cases none : remainder = 0
  · rw [if_pos none]
    rw [none, Nat.add_zero] at bound
    exact Nat.le_of_mul_le_mul_right bound (Nat.two_pow_pos surplus)
  · rw [if_neg none]
    have strict : quotient * 2 ^ surplus < significand * 2 ^ rest * 2 ^ surplus := by omega
    exact Nat.lt_of_mul_lt_mul_right strict

theorem le_round {significand unit : Nat} (precise : significand < 2 ^ precision)
    (above : significand * 2 ^ exponent ≤ number * 2 ^ unit) :
    significand * 2 ^ exponent ≤ round precision number * 2 ^ unit := by
  rw [round]
  by_cases exact : surplusBits precision number = 0
  · rw [if_pos exact]
    exact above
  rw [if_neg exact]
  have large := surplusBits_le positive exact
  have floor : number / 2 ^ surplusBits precision number * 2 ^ surplusBits precision number ≤
      nearest (number / 2 ^ surplusBits precision number)
        (number % 2 ^ surplusBits precision number)
        (2 ^ (surplusBits precision number - 1)) * 2 ^ surplusBits precision number :=
    Nat.mul_le_mul_right _ (nearest_ge _ _ _)
  refine Nat.le_trans ?_ (Nat.mul_le_mul_right _ floor)
  by_cases multiple : surplusBits precision number + unit ≤ exponent
  · obtain ⟨rest, rfl⟩ := Nat.exists_eq_add_of_le multiple
    generalize surplusBits precision number = surplus at *
    have scaled : significand * 2 ^ (surplus + unit + rest) =
        significand * 2 ^ rest * 2 ^ surplus * 2 ^ unit := by
      ring
    rw [scaled] at above ⊢
    have bound := Nat.le_of_mul_le_mul_right above (Nat.two_pow_pos unit)
    refine Nat.mul_le_mul_right _ (Nat.mul_le_mul_right _ ?_)
    exact (Nat.le_div_iff_mul_le (Nat.two_pow_pos surplus)).mpr bound
  · have apart : ¬2 ^ (precision - 1 + surplusBits precision number) * 2 ^ unit ≤
        significand * 2 ^ exponent := fun less =>
      multiple (multiple_of_large positive precise less)
    generalize surplusBits precision number = surplus at *
    have kept : 2 ^ (precision - 1) ≤ number / 2 ^ surplus := by
      rw [Nat.le_div_iff_mul_le (Nat.two_pow_pos surplus), ← Nat.pow_add]
      exact large
    have scaled := Nat.mul_le_mul_right (2 ^ unit) (Nat.mul_le_mul_right (2 ^ surplus) kept)
    rw [← Nat.pow_add] at scaled
    omega

end

end Precision

namespace Double

variable {bits : BitVec 64} {number : Nat}

def precision : Nat := 53

def unit : Nat := 1074

section

variable (bits : BitVec 64)

def exponentBits : Nat := bits.toNat / 2 ^ 52 % 2 ^ 11
def fractionBits : Nat := bits.toNat % 2 ^ 52

def isNegative : Bool := bits.msb
def isInfinite : Bool := exponentBits bits = 2047 ∧ fractionBits bits = 0
def isNaN : Bool := exponentBits bits = 2047 ∧ fractionBits bits ≠ 0

def significand : Nat :=
  if exponentBits bits = 0 then fractionBits bits else 2 ^ 52 + fractionBits bits

def scaled : Nat := significand bits * 2 ^ (exponentBits bits - 1)

def magnitude : WithTop ℚ :=
  if isInfinite bits then ⊤ else (((scaled bits : ℚ) / 2 ^ unit : ℚ) : WithTop ℚ)

end

def atMost (number : Int) (bits : BitVec 64) : Bool :=
  if isNaN bits then false
  else if isInfinite bits then !isNegative bits
  else if isNegative bits then number * 2 ^ unit ≤ -(scaled bits : Int)
  else number * 2 ^ unit ≤ (scaled bits : Int)

def ofInt (number : Int) : Int := number.sign * round precision number.natAbs

def NonNegative (bits : BitVec 64) : Prop :=
  isNaN bits = false ∧ (isNegative bits = true → isInfinite bits = false ∧ scaled bits = 0)

theorem significand_lt (bits : BitVec 64) : significand bits < 2 ^ precision := by
  have fraction : fractionBits bits < 2 ^ 52 := Nat.mod_lt _ (by decide)
  unfold significand precision
  split <;> omega

theorem le_quotient_iff (number : Int) (numerator exponent : Nat) :
    (number : ℚ) ≤ (numerator : ℚ) / 2 ^ exponent ↔ number * 2 ^ exponent ≤ (numerator : Int) := by
  rw [le_div_iff₀ (by positivity)]
  exact_mod_cast Iff.rfl

theorem atMost_iff (nonNegative : NonNegative bits) (number : Int) :
    atMost number bits = true ↔ (((number : ℚ) : WithTop ℚ)) ≤ magnitude bits := by
  obtain ⟨isNumber, zero⟩ := nonNegative
  rw [atMost, magnitude, isNumber, if_neg Bool.false_ne_true]
  by_cases infinite : isInfinite bits = true
  · have positive : isNegative bits = false := by
      by_contra negative
      have finite := (zero (by simpa using negative)).1
      rw [infinite] at finite
      cases finite
    rw [if_pos infinite, if_pos infinite, positive]
    exact ⟨fun _ => le_top, fun _ => rfl⟩
  · rw [if_neg infinite, if_neg infinite, WithTop.coe_le_coe, le_quotient_iff]
    by_cases negative : isNegative bits = true
    · rw [if_pos negative, (zero negative).2, decide_eq_true_iff, Nat.cast_zero, neg_zero]
    · rw [if_neg negative, decide_eq_true_iff]

theorem round_le_magnitude (below : (((number : ℚ)) : WithTop ℚ) ≤ magnitude bits) :
    (((round precision number : ℚ)) : WithTop ℚ) ≤ magnitude bits := by
  rw [magnitude] at below ⊢
  by_cases infinite : isInfinite bits = true
  · rw [if_pos infinite]
    exact le_top
  · rw [if_neg infinite] at below ⊢
    have units := (le_quotient_iff (number : Int) _ _).mp (by exact_mod_cast below)
    have rounded := (le_quotient_iff (round precision number : Int) (scaled bits) unit).mpr (by
      exact_mod_cast round_le (by decide) (significand_lt bits) (by exact_mod_cast units))
    exact_mod_cast rounded

theorem magnitude_le_round (above : magnitude bits ≤ (((number : ℚ)) : WithTop ℚ)) :
    magnitude bits ≤ (((round precision number : ℚ)) : WithTop ℚ) := by
  rw [magnitude] at above ⊢
  by_cases infinite : isInfinite bits = true
  · rw [if_pos infinite, top_le_iff] at above
    exact absurd above WithTop.coe_ne_top
  · rw [if_neg infinite] at above ⊢
    rw [WithTop.coe_le_coe, div_le_iff₀ (by positivity)] at above ⊢
    have units : scaled bits ≤ number * 2 ^ unit := by exact_mod_cast above
    have rounded := le_round (by decide) (significand_lt bits) units
    exact_mod_cast rounded

end Double

end FloatRounding
