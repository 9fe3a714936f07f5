/-!
# SceneDebugger.Text.Digits — numbers as text

Digits in base 8, 10 and 16, addresses as eight hexadecimal digits, and the reader for the integers
that script texts hold: ASCII digits after an optional sign, refused outside a range.  Bytes are read
from pairs of hexadecimal digits.
-/

namespace SceneDebugger.Text

/-! ### Writing -/

/-- The digits of a number in a base up to 16, in lower case. -/
def digits (base n : Nat) : List Char := Nat.toDigits base n

/-- A number in decimal. -/
def decimal (n : Nat) : String := String.ofList (digits 10 n)

/-- An integer in decimal, a minus sign in front of a negative one. -/
def signedDecimal : Int → String
  | .ofNat n => decimal n
  | .negSucc n => "-" ++ decimal (n + 1)

/-- A text filled up to a width with a character in front. -/
def padLeft (width : Nat) (fill : Char) (cs : List Char) : List Char :=
  List.replicate (width - cs.length) fill ++ cs

/-- An address: `0x` and eight hexadecimal digits. -/
def address (a : UInt32) : String := "0x" ++ String.ofList (padLeft 8 '0' (digits 16 a.toNat))

/-! ### Reading -/

/-- The number that ASCII digits stand for in base ten, if there is at least one and nothing else. -/
def natOfDigits? (cs : List Char) : Option Nat :=
  if cs ≠ [] ∧ cs.all Char.isDigit then
    some (cs.foldl (fun n d => 10 * n + (d.toNat - '0'.toNat)) 0)
  else none

/-- An integer with an optional sign, from `low` to `high`. -/
def intIn? (low high : Int) (cs : List Char) : Option Int :=
  let value? :=
    match cs with
    | '-' :: ds => (natOfDigits? ds).map fun n => -(n : Int)
    | '+' :: ds => (natOfDigits? ds).map Int.ofNat
    | ds => (natOfDigits? ds).map Int.ofNat
  value?.filter fun i => low ≤ i && i ≤ high

/-- A natural number with an optional plus sign, below `bound`. -/
def natBelow? (bound : Nat) (cs : List Char) : Option Nat :=
  let value? :=
    match cs with
    | '+' :: ds => natOfDigits? ds
    | ds => natOfDigits? ds
  value?.filter (· < bound)

/-- The value of a hexadecimal digit, 0 for any other character. -/
def hexValue (c : Char) : Nat :=
  if c.isDigit then c.toNat - '0'.toNat
  else if 'a' ≤ c ∧ c ≤ 'f' then c.toNat - 'a'.toNat + 10
  else if 'A' ≤ c ∧ c ≤ 'F' then c.toNat - 'A'.toNat + 10
  else 0

/-- The bytes that pairs of hexadecimal digits stand for. -/
def ofHex : List Char → List UInt8
  | high :: low :: rest => UInt8.ofNat (16 * hexValue high + hexValue low) :: ofHex rest
  | _ => []

end SceneDebugger.Text
