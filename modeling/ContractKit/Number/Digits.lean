import ContractKit.Text.CodePoint

/-!
# Digits of a number

The digits of a natural number in a base, the most significant first, and their characters.
-/

namespace ContractKit.Numeral

/-- The digits of `n` put in front of `rest`. -/
def digitsOnto (base n : Nat) (rest : List Nat) : List Nat :=
  if _h : n < base ∨ base < 2 then n :: rest
  else digitsOnto base (n / base) (n % base :: rest)
termination_by n
decreasing_by exact Nat.div_lt_self (by omega) (by omega)

/-- The digits of `n`, the most significant first; zero has one digit. -/
def digits (base n : Nat) : List Nat :=
  digitsOnto base n []

/-- The character of a digit; letters in lower case follow the nine. -/
def digitChar (d : Nat) : CodePoint :=
  .ofNat (if d < 10 then 48 + d else 87 + d)

/-- The lower-case hexadecimal numeral of `n`, filled with zeros up to `width` digits. -/
def hexadecimal (width n : Nat) : Text :=
  Text.padLeft '0' width ((digits 16 n).map digitChar)

end ContractKit.Numeral
