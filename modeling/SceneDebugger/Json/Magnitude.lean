import SceneDebugger.Json.Reader

/-!
# SceneDebugger.Json.Magnitude — how large a written number is

A number is kept as a significand of 64 bits and a power of ten (`Magnitude.ofText`).  Digits go
into the significand from the left while it can hold them.  Those of the whole part that come after
only count as powers of ten, those of the fraction are dropped.

Both factors are rounded to double precision before they are multiplied, so the number has a finite
value (`Magnitude.isFinite`) when the product of the two rounded factors is in range.  Near the
limit this differs from rounding the exact number once.
-/

namespace SceneDebugger

/-- A significand and the power of ten it is scaled by. -/
structure Magnitude where
  significand : Nat := 0
  exponent : Int := 0
  deriving DecidableEq, Repr

namespace Magnitude

/-! ### Reading -/

/-- The first number that a significand cannot hold. -/
def significandLimit : Nat := Nat.shiftLeft 1 64

/-- A significand with one more digit, if it can hold it. -/
def extended? (n : Nat) (digit : Char) : Option Nat :=
  let n := 10 * n + (digit.toNat - '0'.toNat)
  if n < significandLimit then some n else none

/-- The digits of a whole part behind a significand. -/
def ofWhole (n : Nat) : List Char → Magnitude
  | [] => { significand := n }
  | digit :: rest =>
    match extended? n digit with
    | some n => ofWhole n rest
    | none => { significand := n, exponent := rest.length + 1 }

/-- The digits of a fraction behind what was read before them. -/
def withFraction (m : Magnitude) : List Char → Magnitude
  | [] => m
  | digit :: rest =>
    match extended? m.significand digit with
    | some n => withFraction { significand := n, exponent := m.exponent - 1 } rest
    | none => m

/-- A number scaled by a further power of ten. -/
def scaled (m : Magnitude) (power : Int) : Magnitude := { m with exponent := m.exponent + power }

/-- The digits of the fraction in what follows the whole part. -/
def fractionDigits : List Char → List Char
  | '.' :: rest => rest.takeWhile Char.isDigit
  | _ => []

/-- The exponent in what follows the whole part, with its sign. -/
def writtenExponent (further : List Char) : List Char :=
  (further.dropWhile fun c => c ≠ 'e' ∧ c ≠ 'E').drop 1

/-- The written power of ten in what follows the whole part, 0 if there is none. -/
def writtenPower (further : List Char) : Int :=
  match writtenExponent further with
  | '-' :: digits => -Json.digitsValue digits
  | '+' :: digits => Json.digitsValue digits
  | digits => Json.digitsValue digits

/-- A written number without its sign. -/
def ofText (written : List Char) : Magnitude :=
  let unsigned := if written.head? = some '-' then written.drop 1 else written
  let further := unsigned.dropWhile Char.isDigit
  ((ofWhole 0 (unsigned.takeWhile Char.isDigit)).withFraction (fractionDigits further)).scaled
    (writtenPower further)

/-! ### Double precision -/

/-- The whole number nearest to a quotient; of two equally near ones the even one. -/
def nearestQuotient (n d : Nat) : Nat :=
  let units := n / d
  let rest := n % d
  if d < 2 * rest ∨ (d = 2 * rest ∧ units % 2 = 1) then units + 1 else units

/-- The nearest number whose binary form has at most so many significant bits; of two equally near
ones the even one. -/
def rounded (bits n : Nat) : Nat :=
  let unit := Nat.shiftLeft 1 (n.log2 + 1 - bits)
  unit * nearestQuotient n unit

/-- A whole number rounded to double precision, its range aside. -/
def toDouble (n : Nat) : Nat := rounded 53 n

/-- Halfway from the largest number of double precision to the next power of two. -/
def limit : Nat := Nat.shiftLeft 1 1024 - Nat.shiftLeft 1 970

/-- The largest power of ten of double precision. -/
def maxPower : Nat := 308

/-- The number has a finite value.  A negative power of ten only makes it smaller. -/
def isFinite (m : Magnitude) : Bool :=
  match m.exponent with
  | .ofNat power =>
    m.significand == 0
      || power ≤ maxPower && toDouble m.significand * toDouble (Nat.pow 10 power) < limit
  | .negSucc _ => true

end Magnitude

end SceneDebugger
