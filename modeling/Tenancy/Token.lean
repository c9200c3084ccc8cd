import Tenancy.Text.Digits

/-!
# Owner tokens

A token is the text of a version 4 UUID: 122 random bits in lower-case hexadecimal, in groups of
8, 4, 4, 4 and 12 digits.
-/

namespace Tenancy.Token

/-- The token with the given random bits; bits beyond the 122nd do not count. -/
def ofBits (bits : Nat) : String :=
  let high := Text.hexPadded 12 (bits >>> 74 % (1 <<< 48))
  let middle := Text.hexPadded 3 (bits >>> 62 % (1 <<< 12))
  let low := Text.hexPadded 16 ((1 <<< 63) + bits % (1 <<< 62))
  String.ofList (high.take 8 ++ '-' :: high.drop 8 ++ '-' :: '4' :: middle
    ++ '-' :: low.take 4 ++ '-' :: low.drop 4)

end Tenancy.Token
