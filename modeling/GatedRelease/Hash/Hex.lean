import GatedRelease.Text.Utf8

/-! Bytes written in lower-case hexadecimal, two digits each, and read back. -/
namespace GatedRelease.Hex

/-- One hexadecimal digit, for a number below 16. -/
def digit (n : Nat) : Char :=
  if n < 10 then Char.ofNat (48 + n) else Char.ofNat (87 + n)

/-- The value of a hexadecimal digit of either case. -/
def value? (c : Char) : Option Nat :=
  if '0' ≤ c ∧ c ≤ '9' then some (c.toNat - 48)
  else if 'a' ≤ c ∧ c ≤ 'f' then some (c.toNat - 87)
  else if 'A' ≤ c ∧ c ≤ 'F' then some (c.toNat - 55)
  else none

/-- Two digits for each byte, the high one first. -/
def encodeChars (bytes : Bytes) : List Char :=
  bytes.flatMap fun b => [digit (b.toNat / 16), digit (b.toNat % 16)]

/-- The bytes in hexadecimal. -/
def encode (bytes : Bytes) : String := String.ofList (encodeChars bytes)

/-- The bytes that pairs of digits stand for. -/
def decodeChars : List Char → Option Bytes
  | [] => some []
  | [_] => none
  | high :: low :: rest => do
    let h ← value? high
    let l ← value? low
    return UInt8.ofNat (16 * h + l) :: (← decodeChars rest)

/-- The bytes written in a hexadecimal text. -/
def decode? (s : String) : Option Bytes := decodeChars s.toList

/-- The last `width` hexadecimal digits of a number. -/
def digits : Nat → Nat → List Char
  | 0, _ => []
  | width + 1, n => digits width (n / 16) ++ [digit (n % 16)]

end GatedRelease.Hex
