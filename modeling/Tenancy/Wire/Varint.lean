import Tenancy.Text.Utf8

/-!
# Variable-length integers

A 64-bit word as at most ten bytes of seven bits each, the low bits first; all bytes but the last
have the top bit set. `read?` accepts every such form of a word, also one with bytes to spare:
`read?_encode`.
-/

namespace Tenancy.Wire

open Utf8 (Bytes)

namespace Varint

/-- The most bytes that a word takes. -/
def limit : Nat := 10

/-- The bytes of `n`, at most as many as given. -/
def encodeIn : Nat → Nat → Bytes
  | 0, _ => []
  | k + 1, n =>
    if n < 128 then [UInt8.ofNat n] else UInt8.ofNat (n % 128 + 128) :: encodeIn k (n / 128)

/-- The shortest form of a word. -/
def encode (n : Nat) : Bytes := encodeIn limit n

/-- Reads an integer of at most the given number of bytes. The last byte that is possible holds
one bit. -/
def readIn? : Nat → Bytes → Option (Nat × Bytes)
  | 0, _ => none
  | _ + 1, [] => none
  | k + 1, b :: rest =>
    if b.toNat < 128 then if k = 0 ∧ 1 < b.toNat then none else some (b.toNat, rest)
    else (readIn? k rest).map fun (n, rest) => (b.toNat - 128 + 128 * n, rest)

/-- Reads a word, and gives the bytes behind it. -/
def read? (bytes : Bytes) : Option (Nat × Bytes) := readIn? limit bytes

theorem readIn?_encodeIn {k n : Nat} (h : n < 1 <<< (7 * k + 1)) (rest : Bytes) :
    readIn? (k + 1) (encodeIn (k + 1) n ++ rest) = some (n, rest) := by
  induction k generalizing n with
  | zero =>
    have hn : n < 2 := by simpa using h
    have h1 : (UInt8.ofNat n).toNat = n := by simp; omega
    simp [encodeIn, readIn?, show n < 128 by omega]
    omega
  | succ k ih =>
    rw [encodeIn]
    split
    · next hlt =>
      have h1 : (UInt8.ofNat n).toNat = n := by simp; omega
      simp [readIn?, h1, hlt]
    · next hge =>
      have hdiv : n / 128 < 1 <<< (7 * k + 1) := by
        rw [Nat.shiftLeft_eq, show 7 * (k + 1) + 1 = (7 * k + 1) + 7 by omega, Nat.pow_add] at h
        rw [Nat.shiftLeft_eq]
        omega
      have h1 : (UInt8.ofNat (n % 128 + 128)).toNat = n % 128 + 128 := by simp; omega
      rw [List.cons_append, readIn?, h1, if_neg (by omega), ih hdiv]
      simp
      omega

theorem read?_encode {n : Nat} (h : n < UInt64.size) (rest : Bytes) :
    read? (encode n ++ rest) = some (n, rest) :=
  readIn?_encodeIn (k := 9) (by simpa using h) rest

end Varint

end Tenancy.Wire
