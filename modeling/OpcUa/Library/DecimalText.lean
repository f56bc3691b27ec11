import Mathlib.Data.Nat.Digits.Defs
import Mathlib.Data.Nat.Digits.Lemmas

/-!
Numbers in decimal as texts of bytes, the most significant digit first. A number is read from the
digits at the start of a text, up to the first byte that is none.
-/

namespace DecimalText

open List

def IsDigit (byte : BitVec 8) : Prop := 48 ≤ byte ∧ byte ≤ 57
deriving Decidable

def digitValue (byte : BitVec 8) : Nat := byte.toNat - 48

def digitByte (digit : Nat) : BitVec 8 := BitVec.ofNat 8 (48 + digit)

def extend (number : Nat) (digits : List (BitVec 8)) : Nat :=
  digits.foldl (fun number digit => number * 10 + digitValue digit) number

def value (digits : List (BitVec 8)) : Nat := extend 0 digits

structure Numeral (text : List (BitVec 8)) : Prop where
  nonempty : text ≠ []
  digits : ∀ byte ∈ text, IsDigit byte

def Stops (text : List (BitVec 8)) : Prop := ∀ byte ∈ text.head?, ¬IsDigit byte

def print (number : Nat) : List (BitVec 8) :=
  if number = 0 then [digitByte 0] else (Nat.digits 10 number).reverse.map digitByte

theorem isDigit_digitByte {digit : Nat} (small : digit < 10) : IsDigit (digitByte digit) := by
  have number : (digitByte digit).toNat = 48 + digit := by
    rw [digitByte, BitVec.toNat_ofNat]
    omega
  constructor
  · rw [BitVec.le_def, number]
    simp
  · rw [BitVec.le_def, number]
    simp only [BitVec.ofNat_eq_ofNat, BitVec.toNat_ofNat]
    omega

theorem digitValue_digitByte {digit : Nat} (small : digit < 10) :
    digitValue (digitByte digit) = digit := by
  rw [digitValue, digitByte, BitVec.toNat_ofNat]
  omega

theorem numeral_print (number : Nat) : Numeral (print number) := by
  rw [print]
  split
  · exact ⟨by simp, by
      intro byte member
      rw [mem_singleton.mp member]
      exact isDigit_digitByte (by omega)⟩
  · rename_i positive
    constructor
    · simpa [Nat.digits_eq_nil_iff_eq_zero] using positive
    · intro byte member
      obtain ⟨digit, present, rfl⟩ := mem_map.mp member
      exact isDigit_digitByte (Nat.digits_lt_base (by omega) (mem_reverse.mp present))

theorem value_map_digitByte {digits : List Nat} (small : ∀ digit ∈ digits, digit < 10) :
    value (digits.reverse.map digitByte) = Nat.ofDigits 10 digits := by
  induction digits with
  | nil => rfl
  | cons digit digits ih =>
    have later := ih fun other member => small other (mem_cons_of_mem _ member)
    rw [value, extend] at later
    simp only [value, extend, reverse_cons, map_append, map_cons, map_nil,
      foldl_append, foldl_cons, foldl_nil, later,
      digitValue_digitByte (small digit (mem_cons_self ..)), Nat.ofDigits_cons]
    omega

theorem value_print (number : Nat) : value (print number) = number := by
  rw [print]
  split
  · rename_i zero
    rw [zero]
    rfl
  · rw [value_map_digitByte fun digit member => Nat.digits_lt_base (by omega) member,
      Nat.ofDigits_digits]

theorem exists_split (text : List (BitVec 8)) :
    ∃ digits rest, text = digits ++ rest ∧ (∀ byte ∈ digits, IsDigit byte) ∧ Stops rest := by
  induction text with
  | nil => exact ⟨[], [], rfl, by simp, by simp [Stops]⟩
  | cons byte text ih =>
    by_cases digit : IsDigit byte
    · obtain ⟨digits, rest, rfl, all, stops⟩ := ih
      refine ⟨byte :: digits, rest, rfl, ?_, stops⟩
      intro other member
      rcases mem_cons.mp member with first | later
      · rw [first]
        exact digit
      · exact all other later
    · exact ⟨[], byte :: text, rfl, by simp, by simpa [Stops] using digit⟩

theorem split_unique {digits others rest behind : List (BitVec 8)}
    (all : ∀ byte ∈ digits, IsDigit byte) (all2 : ∀ byte ∈ others, IsDigit byte)
    (stops : Stops rest) (stops2 : Stops behind) (same : digits ++ rest = others ++ behind) :
    digits = others ∧ rest = behind := by
  induction digits generalizing others with
  | nil =>
    cases others with
    | nil => exact ⟨rfl, same⟩
    | cons other others =>
      subst same
      exact absurd (all2 other (mem_cons_self ..)) (stops other (by simp))
  | cons digit digits ih =>
    cases others with
    | nil =>
      subst same
      exact absurd (all digit (mem_cons_self ..)) (stops2 digit (by simp))
    | cons other others =>
      obtain ⟨rfl, tails⟩ := List.cons.inj same
      obtain ⟨rfl, rests⟩ := ih (fun byte member => all byte (mem_cons_of_mem _ member))
        (fun byte member => all2 byte (mem_cons_of_mem _ member)) tails
      exact ⟨rfl, rests⟩

end DecimalText
