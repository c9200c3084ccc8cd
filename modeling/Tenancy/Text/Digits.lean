/-!
# Decimal digits

Numbers written in base ten. `padded` fills with leading zeros up to a width, `fraction` writes
the digits after a decimal point without trailing zeros, and `readNat?` reads a run of digits
back: `readNat?_decimal`.
-/

namespace Tenancy.Text

/-- The decimal digits of `n`, without leading zeros. -/
def decimal (n : Nat) : List Char := Nat.toDigits 10 n

/-- The decimal digits of `n`, filled with zeros on the left up to `width` characters. -/
def padded (width n : Nat) : List Char :=
  List.replicate (width - (decimal n).length) '0' ++ decimal n

/-- Drops the zeros at the end of a run of digits. -/
def dropTrailingZeros (cs : List Char) : List Char :=
  (cs.reverse.dropWhile (· == '0')).reverse

/-- The digits of `n / 10 ^ width` after the point, without trailing zeros. -/
def fraction (width n : Nat) : List Char := dropTrailingZeros (padded width n)

/-- An integer with its sign in front when negative. -/
def signed (n : Int) : List Char :=
  if n < 0 then '-' :: decimal n.natAbs else decimal n.natAbs

/-- The number that a nonempty run of ASCII digits writes; leading zeros are allowed. -/
def readNat? (cs : List Char) : Option Nat :=
  if cs ≠ [] ∧ cs.all Char.isDigit then some (Nat.ofDigitChars 10 cs 0) else none

theorem readNat?_decimal (n : Nat) : readNat? (decimal n) = some n := by
  have hall : (decimal n).all Char.isDigit = true := by
    rw [List.all_eq_true]
    exact fun c hc => Nat.isDigit_of_mem_toDigits (by decide) (by decide) hc
  rw [readNat?, if_pos ⟨Nat.toDigits_ne_nil, hall⟩, decimal, Nat.ofDigitChars_ten_toDigits]

/-- The value of a hexadecimal digit of either case. -/
def hexValue? (c : Char) : Option Nat :=
  if '0' ≤ c ∧ c ≤ '9' then some (c.toNat - 48)
  else if 'a' ≤ c ∧ c ≤ 'f' then some (c.toNat - 87)
  else if 'A' ≤ c ∧ c ≤ 'F' then some (c.toNat - 55)
  else none

/-- Lower-case hexadecimal digits of `n`, filled with zeros up to `width`. -/
def hexPadded (width n : Nat) : List Char :=
  let digits := Nat.toDigits 16 n
  List.replicate (width - digits.length) '0' ++ digits

end Tenancy.Text
