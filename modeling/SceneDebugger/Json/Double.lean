import SceneDebugger.Json.Magnitude
import SceneDebugger.Text.Digits

/-!
# SceneDebugger.Json.Double — numbers of double precision and their shortest texts

A `Double` is a number that is not negative, as a significand of at most 53 bits and a power of two.

* `Double.nearest` is the number nearest to a quotient, of two equally near ones the even one.
* `Double.ofMagnitude` is the value of a written number.  Both factors are rounded before they are
  combined, and a power of ten below the range is divided out in steps (`Double.divided`).
* `Double.text` is the shortest decimal text that reads back.  On the coarsest grid of powers of ten
  with a point that rounds to the number, it is the point nearest to the number.

All arithmetic is exact, on natural numbers.
-/

namespace SceneDebugger

/-- A number of double precision. -/
structure Double where
  significand : Nat
  /-- The power of two that the significand is scaled by. -/
  power : Int
  deriving DecidableEq, Repr

namespace Double

/-! ### Rounding -/

/-- The power of two of the last place of the smallest numbers. -/
def leastPower : Int := -1074

/-- The significands from here on have all 53 bits. -/
def fullSignificand : Nat := Nat.shiftLeft 1 52

/-- A number scaled by a power of two, as far as that is not negative. -/
def shifted (n : Nat) (power : Int) : Nat := Nat.shiftLeft n power.toNat

/-- The power of two of the last place of the numbers next to a quotient. -/
def lastPlace (n d : Nat) : Int :=
  let first : Int := n.log2 - d.log2
  let first := if shifted n (-first) < shifted d first then first - 1 else first
  max (first - 52) leastPower

/-- The number nearest to a quotient. -/
def nearest (n d : Nat) : Double :=
  let power := lastPlace n d
  let significand := Magnitude.nearestQuotient (shifted n (-power)) (shifted d power)
  if significand = 2 * fullSignificand then { significand := fullSignificand, power := power + 1 }
  else { significand, power }

/-- A number divided by a whole one. -/
def quotient (x : Double) (d : Nat) : Double :=
  nearest (shifted x.significand x.power) (shifted d (-x.power))

/-- A number divided by a power of ten, in steps that are in range themselves. -/
def divided (x : Double) (power : Nat) : Double :=
  if power ≤ Magnitude.maxPower then x.quotient (Magnitude.toDouble (Nat.pow 10 power))
  else if x.significand = 0 then x
  else
    divided (x.quotient (Magnitude.toDouble (Nat.pow 10 Magnitude.maxPower)))
      (power - Magnitude.maxPower)
termination_by power
decreasing_by simp only [Magnitude.maxPower] at *; omega

/-- The value of a written number that has a finite one. -/
def ofMagnitude (m : Magnitude) : Double :=
  if m.significand = 0 then { significand := 0, power := leastPower }
  else
    match m.exponent with
    | .ofNat power =>
      nearest (Magnitude.toDouble m.significand * Magnitude.toDouble (Nat.pow 10 power)) 1
    | .negSucc power => divided (nearest m.significand 1) (power + 1)

/-! ### The shortest decimal number -/

/-- A decimal number: digits and the power of ten that they are scaled by. -/
structure Decimal where
  digits : Nat
  power : Int
  deriving DecidableEq, Repr

/-- The numbers that round to a number of double precision.  All four are multiples of one unit,
which is a quarter of the last place. -/
structure Neighbourhood where
  low : Nat
  value : Nat
  high : Nat
  /-- The ends belong to it. -/
  closed : Bool
  unit : Int

/-- The neighbourhood of a number.  Below a power of two the numbers are twice as dense. -/
def neighbourhood (x : Double) : Neighbourhood :=
  { low := 4 * x.significand
      - (if x.significand = fullSignificand ∧ leastPower < x.power then 1 else 2)
    value := 4 * x.significand
    high := 4 * x.significand + 2
    closed := x.significand % 2 == 0
    unit := x.power - 2 }

/-- The point nearest to the number on the grid of a power of ten, if one rounds to the number; of
two equally near ones the even one. -/
def gridPoint? (s : Neighbourhood) (power : Int) : Option Decimal :=
  let scaled (n : Nat) : Nat := shifted n s.unit * Nat.pow 10 (-power).toNat
  let step := shifted 1 (-s.unit) * Nat.pow 10 power.toNat
  let below := scaled s.value / step
  let rounds (k : Nat) : Bool :=
    if s.closed then scaled s.low ≤ k * step && k * step ≤ scaled s.high
    else scaled s.low < k * step && k * step < scaled s.high
  let nearest := Magnitude.nearestQuotient (scaled s.value) step
  let other := if nearest = below then below + 1 else below
  if rounds nearest then some { digits := nearest, power }
  else if rounds other then some { digits := other, power }
  else none

/-- The power of ten of the finest grid that any number needs. -/
def finestGrid : Int := -324

/-- The point on the coarsest grid that has one, among so many grids above the finest. -/
def coarsest (s : Neighbourhood) : Nat → Decimal
  | 0 => (gridPoint? s finestGrid).getD { digits := 0, power := 0 }
  | grids + 1 =>
    match gridPoint? s (finestGrid + (grids + 1 : Nat)) with
    | some point => point
    | none => coarsest s grids

/-- How many grids there are above the finest. -/
def grids : Nat := 633

/-- The shortest decimal number that rounds to a number. -/
def shortest (x : Double) : Decimal :=
  if x.significand = 0 then { digits := 0, power := 0 } else coarsest x.neighbourhood grids

/-! ### Text -/

/-- A decimal number as text.  The first digit has a place from -5 up to 15 where no exponent is
written; then there is always a point with a digit after it. -/
def Decimal.text (x : Decimal) : String :=
  let ds := Text.digits 10 x.digits
  let zeros (n : Int) : List Char := List.replicate n.toNat '0'
  let whole : Int := ds.length + x.power
  let cs :=
    if 0 ≤ x.power ∧ whole ≤ 16 then ds ++ zeros x.power ++ ['.', '0']
    else if 0 < whole ∧ whole ≤ 16 then ds.take whole.toNat ++ '.' :: ds.drop whole.toNat
    else if -5 < whole ∧ whole ≤ 0 then '0' :: '.' :: zeros (-whole) ++ ds
    else
      let fraction := if ds.length ≤ 1 then [] else '.' :: ds.drop 1
      let sign := if whole ≤ 0 then '-' else '+'
      ds.take 1 ++ fraction ++ 'e' :: sign :: Text.digits 10 (whole - 1).natAbs
  String.ofList cs

/-- The shortest text of a number. -/
def text (x : Double) : String := x.shortest.text

end Double

end SceneDebugger
