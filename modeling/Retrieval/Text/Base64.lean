/-!
# Base 64

Three bytes are written as four characters of six bits each; what is missing at the end is filled up
with equals signs. Reading takes the characters of the alphabet as they come and keeps whole bytes.
-/

namespace Retrieval.Base64

def alphabet : Array Char :=
  "ABCDEFGHIJKLMNOPQRSTUVWXYZabcdefghijklmnopqrstuvwxyz0123456789+/".toList.toArray

def digit (n : Nat) : Char := alphabet.getD (n % 64) 'A'

def value? (c : Char) : Option Nat := alphabet.findIdx? (· == c)

def encode : List UInt8 → List Char
  | [] => []
  | [a] => [digit (a.toNat / 4), digit (a.toNat * 16), '=', '=']
  | [a, b] =>
    [digit (a.toNat / 4), digit (a.toNat * 16 + b.toNat / 16 % 16), digit (b.toNat * 4), '=']
  | a :: b :: c :: rest =>
    digit (a.toNat / 4) :: digit (a.toNat * 16 + b.toNat / 16)
      :: digit (b.toNat * 4 + c.toNat / 64) :: digit c.toNat :: encode rest

/-- The bytes of some values of six bits; bits that do not fill a byte are left out. -/
def decode : List Nat → List UInt8
  | a :: b :: c :: d :: rest =>
    (a * 4 + b / 16).toUInt8 :: (b * 16 + c / 4).toUInt8 :: (c * 64 + d).toUInt8 :: decode rest
  | [a, b, c] => [(a * 4 + b / 16).toUInt8, (b * 16 + c / 4).toUInt8]
  | [a, b] => [(a * 4 + b / 16).toUInt8]
  | _ => []

end Retrieval.Base64
