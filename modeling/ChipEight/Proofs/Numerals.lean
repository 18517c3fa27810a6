/-
# Numerals are read back

The digits of a number spell it: a decimal numeral is made of digits, starts
with a zero only if the number is zero, and is as long as the limit allows iff
the number is below the power of ten. Four hexadecimal digits spell any number
of sixteen bits.

Key definitions: `Numeral.leastLong`, `Json.hexDigit`, `Json.EndsNumber`.
Key theorems: `Numeral.short_iff`, `Numeral.ofDigits_decimalDigits`,
`Json.fourHex_eq`, `Json.fourHex?_fourHex`, `Json.readUnsigned_decimalDigits`.
-/
import ChipEight.Json.Reader
import ChipEight.Json.Writer
import Mathlib.Algebra.Ring.Nat
import Mathlib.Tactic.Common

namespace ChipEight

/-! ### Decimal digits -/

namespace Numeral

theorem isDigit_of_mem_decimalDigits {n c : Nat} (h : c ∈ decimalDigits n) : Json.isDigit c := by
  obtain ⟨d, hd, rfl⟩ := List.mem_map.1 h
  have range := Nat.isDigit_of_mem_toDigits (by decide) (by decide) hd
  rw [Char.isDigit, Bool.and_eq_true, decide_eq_true_eq, decide_eq_true_eq] at range
  rw [Json.isDigit, Bool.and_eq_true, decide_eq_true_eq, decide_eq_true_eq]
  exact range

theorem decimalDigits_ne_nil (n : Nat) : decimalDigits n ≠ [] := by
  simp [decimalDigits, Nat.toDigits_ne_nil]

theorem length_decimalDigits_le_iff {n k : Nat} (positive : 0 < k) :
    (decimalDigits n).length ≤ k ↔ n < 10 ^ k := by
  rw [decimalDigits, List.length_map, Nat.length_toDigits_le_iff (by decide) positive]

theorem short_iff {n : Int} : Short n ↔ n.natAbs < 10 ^ maxDigits :=
  length_decimalDigits_le_iff (by decide)

/-- The least number that has too many digits. -/
def leastLong : Int := (10 ^ maxDigits : Nat)

theorem not_short_leastLong : ¬Short leastLong := by
  rw [short_iff, leastLong, Int.natAbs_natCast]
  exact Nat.lt_irrefl _

/-- The digits spell the number. -/
theorem ofDigits_decimalDigits (n : Nat) : ofDigits 10 ((decimalDigits n).map (· - 0x30)) = n := by
  have spelled : Nat.ofDigitChars 10 (Nat.toDigits 10 n) 0 = n :=
    Nat.ofDigitChars_toDigits (by decide) (by decide)
  rw [ofDigits, decimalDigits, List.map_map, List.foldl_map]
  exact spelled

/-- No number above zero starts with a zero. -/
theorem head_decimalDigits (n : Nat) (positive : 0 < n) :
    ∃ c cs, decimalDigits n = c :: cs ∧ c ≠ 0x30 := by
  by_cases small : n < 10
  · refine ⟨(Nat.digitChar n).toNat, [], ?_, ?_⟩
    · rw [decimalDigits, Nat.toDigits_of_lt_base small]
      rfl
    · rw [Nat.toNat_digitChar_of_lt_ten small]
      omega
  · obtain ⟨c, cs, front, nonzero⟩ := head_decimalDigits (n / 10) (by omega)
    refine ⟨c, cs ++ [(Nat.digitChar (n % 10)).toNat], ?_, nonzero⟩
    have split : decimalDigits n = decimalDigits (n / 10) ++ [(Nat.digitChar (n % 10)).toNat] := by
      rw [decimalDigits, Nat.toDigits_of_base_le (by decide) (by omega), List.map_append]
      rfl
    rw [split, front]
    rfl

end Numeral

namespace Json

/-! ### Hexadecimal digits -/

/-- A hexadecimal digit in lower case. -/
def hexDigit (d : Nat) : Nat := (Nat.digitChar d).toNat

theorem hexValue?_hexDigit : ∀ d < 16, hexValue? (hexDigit d) = some d := by
  decide

theorem hexDigit_range : ∀ d < 16, 0x20 ≤ hexDigit d ∧ hexDigit d ≤ 0x7E := by
  decide

/-- One place more is one digit more, zeros in front or not. -/
theorem pad_hexDigits (k n : Nat) :
    Text.pad Numeral.zero (k + 2 - (Numeral.hexDigits n).length) ++ Numeral.hexDigits n =
      Text.pad Numeral.zero (k + 1 - (Numeral.hexDigits (n / 16)).length)
        ++ Numeral.hexDigits (n / 16) ++ [hexDigit (n % 16)] := by
  by_cases small : n < 16
  · have one : Numeral.hexDigits n = [hexDigit n] := by
      rw [Numeral.hexDigits, Nat.toDigits_of_lt_base small]
      rfl
    have none : Numeral.hexDigits (n / 16) = [Numeral.zero] := by
      rw [Nat.div_eq_of_lt small]
      rfl
    rw [one, none, Nat.mod_eq_of_lt small]
    show Text.pad Numeral.zero (k + 1) ++ _ = Text.pad Numeral.zero k ++ [Numeral.zero] ++ _
    rw [Text.pad, Text.pad, List.replicate_succ']
  · have more : Numeral.hexDigits n = Numeral.hexDigits (n / 16) ++ [hexDigit (n % 16)] := by
      rw [Numeral.hexDigits, Nat.toDigits_of_base_le (by decide) (by omega), List.map_append]
      rfl
    have length : k + 2 - (Numeral.hexDigits n).length =
        k + 1 - (Numeral.hexDigits (n / 16)).length := by
      rw [more, List.length_append, List.length_singleton]
      omega
    rw [length, more, List.append_assoc]

/-- Four digits, the first most significant. -/
theorem fourHex_eq {n : Nat} (word : n < 0x10000) : fourHex n =
    [hexDigit (n / 4096), hexDigit (n / 256 % 16), hexDigit (n / 16 % 16), hexDigit (n % 16)] := by
  have second : n / 16 / 16 = n / 256 := by omega
  have first : n / 256 / 16 = n / 4096 := by omega
  have top : Numeral.hexDigits (n / 4096) = [hexDigit (n / 4096)] := by
    rw [Numeral.hexDigits, Nat.toDigits_of_lt_base (by omega)]
    rfl
  rw [fourHex, pad_hexDigits 2, pad_hexDigits 1, pad_hexDigits 0, second, first, top]
  rfl

theorem fourHex?_fourHex {n : Nat} (word : n < 0x10000) (rest : Text) :
    fourHex? (fourHex n ++ rest) = some (n, rest) := by
  rw [fourHex_eq word]
  simp only [List.cons_append, List.nil_append, fourHex?, bind, Option.bind, pure,
    hexValue?_hexDigit (n / 4096) (by omega), hexValue?_hexDigit (n / 256 % 16) (by omega),
    hexValue?_hexDigit (n / 16 % 16) (by omega), hexValue?_hexDigit (n % 16) (by omega)]
  congr 2
  omega

/-! ### Whole numbers -/

/-- What comes after a numeral does not make it longer. -/
def EndsNumber (rest : Text) : Prop :=
  ∀ c ∈ rest.head?, isDigit c = false ∧ c ≠ 0x2E ∧ c ≠ 0x65 ∧ c ≠ 0x45

theorem endsNumber_nil : EndsNumber [] := by
  intro c h
  cases h

theorem endsNumber_cons {c : Nat} {rest : Text}
    (h : isDigit c = false ∧ c ≠ 0x2E ∧ c ≠ 0x65 ∧ c ≠ 0x45) : EndsNumber (c :: rest) := by
  intro d hd
  obtain rfl := Option.some.inj hd
  exact h

theorem takeWhile_digits {ds rest : Text} (digits : ∀ c ∈ ds, isDigit c) (ends : EndsNumber rest) :
    (ds ++ rest).takeWhile isDigit = ds := by
  rw [List.takeWhile_append_of_pos digits]
  cases rest with
  | nil => rw [List.takeWhile_nil, List.append_nil]
  | cons c rest =>
    have stop := (ends c rfl).1
    rw [List.takeWhile_cons_of_neg (by simp [stop]), List.append_nil]

theorem readFraction_of_ends {rest : Text} (ends : EndsNumber rest) :
    readFraction rest = ([], rest) := by
  unfold readFraction
  split
  · exact absurd rfl (ends _ rfl).2.1
  · rfl

theorem readExponent_of_ends {rest : Text} (ends : EndsNumber rest) :
    readExponent rest = (none, rest) := by
  unfold readExponent
  split
  · obtain ⟨-, -, small, large⟩ := ends _ rfl
    rw [if_neg (by simp [small, large])]
  · rfl

/-- **A numeral within the limit is read as its number**, with a minus sign in
front or none. -/
theorem readUnsigned_decimalDigits {n : Nat} (limit : n < 10 ^ Numeral.maxDigits) {rest : Text}
    (ends : EndsNumber rest) (negative : Bool) :
    readUnsigned negative (Numeral.decimalDigits n ++ rest) =
      .ok (.int (if negative then -n else n), rest) := by
  unfold readUnsigned
  extract_lets whole number
  have spelled : whole = (Numeral.decimalDigits n).map (· - 0x30) := by
    rcases Nat.eq_zero_or_pos n with rfl | positive
    · rfl
    · obtain ⟨c, cs, digits, nonzero⟩ := Numeral.head_decimalDigits n positive
      have all : ∀ d ∈ c :: cs, isDigit d := fun d hd =>
        Numeral.isDigit_of_mem_decimalDigits (n := n) (by rwa [digits])
      have taken : ((c :: cs) ++ rest).takeWhile isDigit = c :: cs := takeWhile_digits all ends
      simp only [whole, digits, digitsOf, List.cons_append]
      split
      · rename_i same
        exact absurd (List.cons.inj same).1 nonzero
      · rw [← List.cons_append, taken]
  have some : whole.isEmpty = false := by
    rw [spelled, List.isEmpty_map, List.isEmpty_eq_false_iff]
    exact Numeral.decimalDigits_ne_nil n
  have length : whole.length = (Numeral.decimalDigits n).length := by
    rw [spelled, List.length_map]
  have fits : ¬Numeral.maxDigits < whole.length := by
    rw [length, Nat.not_lt]
    exact (Numeral.length_decimalDigits_le_iff (by decide)).2 limit
  have value : number = n := by
    simp only [number, spelled, Numeral.ofDigits_decimalDigits]
  simp only [some, Bool.false_eq_true, if_false, length, List.drop_left, readFraction_of_ends ends,
    readExponent_of_ends ends, List.isEmpty_nil, Option.isNone_none, Bool.and_self, if_true, value]
  rw [← length, if_neg fits]

end Json

end ChipEight
