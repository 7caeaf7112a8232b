/-
This file writes numbers in hexadecimal: lower-case digits, with the mark `0x` in front for
addresses and offsets, and two digits a byte for memory contents.
-/

namespace BinaryFacts.Text

/-- A number in hexadecimal with its mark, such as `0x1f`. -/
def hex (number : Nat) : String :=
  "0x" ++ String.ofList (Nat.toDigits 16 number)

/-- A byte as two hexadecimal digits. -/
def hexByte (byte : UInt8) : String :=
  String.ofList [Nat.digitChar (byte.toNat / 16), Nat.digitChar (byte.toNat % 16)]

/-- Bytes as two hexadecimal digits each, without separators. -/
def hexBytes (bytes : List UInt8) : String :=
  String.join (bytes.map hexByte)

end BinaryFacts.Text
