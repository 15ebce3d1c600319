import Mathlib.Data.List.Basic
/-!
# Base64 — the standard alphabet with padding

Three bytes make four characters; a last group of one or two bytes is padded with `=`.
-/
namespace Base64

def alphabet : List Char := "ABCDEFGHIJKLMNOPQRSTUVWXYZabcdefghijklmnopqrstuvwxyz0123456789+/".toList

def digit (n : Nat) : Char := alphabet.getD n '='

def encodeChars : List UInt8 → List Char
  | []               => []
  | [a]              => [digit (a.toNat / 4), digit (a.toNat % 4 * 16), '=', '=']
  | [a, b]           => [digit (a.toNat / 4), digit (a.toNat % 4 * 16 + b.toNat / 16), digit (b.toNat % 16 * 4), '=']
  | a :: b :: c :: s =>
    digit (a.toNat / 4) :: digit (a.toNat % 4 * 16 + b.toNat / 16) :: digit (b.toNat % 16 * 4 + c.toNat / 64) ::
      digit (c.toNat % 64) :: encodeChars s

/-- `b64encode(data).decode("ascii")` -/
def encode (data : ByteArray) : String := String.ofList (encodeChars data.toList)

end Base64
