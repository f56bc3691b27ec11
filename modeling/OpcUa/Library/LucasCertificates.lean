import Mathlib.Data.List.Prime
import Mathlib.NumberTheory.LucasPrimality

/-!
Lists of numbers that are prime by Lucas's test. An entry has a root and the prime factors of its
predecessor, and the factors are certified further down in the list.
-/

namespace LucasCertificates

def powMod (modulus : Nat) : Nat → Nat → Nat → Nat → Nat
  | 0, _, _, product => product
  | bits + 1, base, exponent, product =>
    powMod modulus bits (base * base % modulus) (exponent / 2)
      (if exponent % 2 = 1 then product * base % modulus else product)

theorem powMod_cast (modulus bits base exponent product : Nat) (small : exponent < 2 ^ bits) :
    (powMod modulus bits base exponent product : ZMod modulus) =
      (product : ZMod modulus) * (base : ZMod modulus) ^ exponent := by
  induction bits generalizing base exponent product with
  | zero =>
    have none : exponent = 0 := by simpa using small
    rw [none, powMod, pow_zero, mul_one]
  | succ bits ih =>
    have half : exponent / 2 < 2 ^ bits := by
      omega
    rw [powMod, ih _ _ _ half, ZMod.natCast_mod, Nat.cast_mul, ← pow_two, ← pow_mul]
    have parts := Nat.div_add_mod exponent 2
    split
    · rename_i odd
      rw [ZMod.natCast_mod, Nat.cast_mul, mul_assoc, ← pow_succ', ← odd, parts]
    · rename_i even
      rw [show exponent % 2 = 0 by omega, Nat.add_zero] at parts
      rw [parts]

structure Entry where
  number : Nat
  root : Nat
  factors : List Nat

def Entry.passes (bits : Nat) (entry : Entry) : Bool :=
  2 ≤ entry.number && entry.number ≤ 2 ^ bits && entry.factors.prod == entry.number - 1 &&
    powMod entry.number bits entry.root (entry.number - 1) 1 == 1 &&
    entry.factors.all fun factor =>
      powMod entry.number bits entry.root ((entry.number - 1) / factor) 1 % entry.number != 1

theorem Entry.prime {bits : Nat} {entry : Entry} (passes : entry.passes bits = true)
    (factors : ∀ factor ∈ entry.factors, factor.Prime) : entry.number.Prime := by
  simp only [Entry.passes, Bool.and_eq_true, decide_eq_true_eq, List.all_eq_true, beq_iff_eq,
    bne_iff_ne, ne_eq] at passes
  obtain ⟨⟨⟨⟨large, small⟩, product⟩, whole⟩, parts⟩ := passes
  apply lucas_primality entry.number (entry.root : ZMod entry.number)
  · have power := powMod_cast entry.number bits entry.root (entry.number - 1) 1 (by omega)
    rw [whole, Nat.cast_one, one_mul] at power
    exact power.symm
  · intro factor prime divides one
    rw [← product] at divides
    obtain ⟨other, member, divided⟩ := (Prime.dvd_prod_iff prime.prime).mp divides
    have same := (Nat.prime_dvd_prime_iff_eq prime (factors other member)).mp divided
    subst same
    have bound := Nat.div_le_self (entry.number - 1) factor
    have power := powMod_cast entry.number bits entry.root ((entry.number - 1) / factor) 1
      (by omega)
    rw [one, Nat.cast_one, one_mul] at power
    have residue :=
      (ZMod.natCast_eq_natCast_iff' _ 1 entry.number).mp (power.trans Nat.cast_one.symm)
    rw [Nat.mod_eq_of_lt large] at residue
    exact parts factor member residue

def certified (bits : Nat) (given : List Nat) : List Entry → Bool
  | [] => true
  | entry :: rest =>
    entry.passes bits &&
      entry.factors.all (fun factor => factor ∈ given ++ rest.map Entry.number) &&
      certified bits given rest

theorem certified_prime {bits : Nat} {given : List Nat} (primes : ∀ number ∈ given, number.Prime)
    {entries : List Entry} (passes : certified bits given entries = true) :
    ∀ number ∈ entries.map Entry.number, number.Prime := by
  induction entries with
  | nil =>
    intro number member
    cases member
  | cons entry rest ih =>
    simp only [certified, Bool.and_eq_true, List.all_eq_true, decide_eq_true_eq] at passes
    obtain ⟨⟨lucas, factors⟩, others⟩ := passes
    have later := ih others
    intro number member
    rw [List.map_cons, List.mem_cons] at member
    rcases member with rfl | member
    · apply Entry.prime lucas
      intro factor used
      rcases List.mem_append.mp (factors factor used) with known | known
      · exact primes factor known
      · exact later factor known
    · exact later number member

end LucasCertificates
