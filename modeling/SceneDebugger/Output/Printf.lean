import SceneDebugger.Text.CharacterClass
import SceneDebugger.Text.Digits

/-!
# SceneDebugger.Output.Printf — the formats of the game's printing functions

A format is a text with directives: a percent sign, flags, a width, a precision behind a point, a
length, and a letter.  Lengths have no effect, and a precision counts only for strings.  `%%`, with
or without the parts in between, stands for a percent sign.  What is no directive stands for itself.

* `Printf.pieces`: a format taken apart.
* `Directive.render`: the text of one directive for an argument.
* `Printf.format`, `Printf.formatM`: the whole text, with arguments that are there or are asked for in
  order.  Directives behind the ninth are left as they are.
-/

namespace SceneDebugger.Printf

/-- The most arguments that a format takes. -/
def argumentLimit : Nat := 9

/-! ### Formats -/

/-- A directive of a format that takes an argument. -/
structure Directive where
  flags : List Char
  width : Nat
  precision : Option Nat
  letter : Char
  deriving DecidableEq, Repr

/-- A piece of a format. -/
inductive Piece where
  | char (c : Char)
  | percent
  /-- A directive, with the text that it is written as. -/
  | directive (d : Directive) (text : List Char)
  deriving DecidableEq, Repr

/-- A flag. -/
def isFlag (c : Char) : Bool := c == '-' || c == '+' || c == ' ' || c == '#' || c == '0'

/-- The letter of a directive, or the percent sign that ends one. -/
def isLetter (c : Char) : Bool := "diouxXcsp%".toList.contains c

/-- A width or precision; digits that are no number below 2^64 count as none. -/
def number? (digits : List Char) : Option Nat := Text.natBelow? UInt64.size digits

/-- The digits behind a point at the front of a text, if there are any. -/
def fraction (cs : List Char) : List Char :=
  match cs with
  | '.' :: rest => rest.takeWhile Text.isDecimalDigit
  | _ => []

/-- How many characters at the front of a text are a length. -/
def lengthSize : List Char → Nat
  | 'h' :: 'h' :: _ => 2
  | 'l' :: 'l' :: _ => 2
  | c :: _ => if c = 'h' ∨ c = 'l' ∨ c = 'z' ∨ c = 'j' ∨ c = 't' then 1 else 0
  | [] => 0

/-- The directive that stands behind a percent sign, and the number of its characters. -/
def directive? (cs : List Char) : Option (Piece × Nat) :=
  let flags := cs.takeWhile isFlag
  let width := (cs.drop flags.length).takeWhile Text.isDecimalDigit
  let beforePoint := flags.length + width.length
  let precision := fraction (cs.drop beforePoint)
  let beforeLength := if precision = [] then beforePoint else beforePoint + 1 + precision.length
  let size := beforeLength + lengthSize (cs.drop beforeLength)
  match cs.drop size with
  | [] => none
  | letter :: _ =>
    if letter = '%' then some (.percent, size + 1)
    else if isLetter letter then
      let d : Directive :=
        { flags, width := (number? width).getD 0, precision := number? precision, letter }
      some (.directive d ('%' :: cs.take (size + 1)), size + 1)
    else none

/-- The pieces of a format behind its first `skip` characters. -/
def piecesFrom : Nat → List Char → List Piece
  | _, [] => []
  | skip + 1, _ :: rest => piecesFrom skip rest
  | 0, c :: rest =>
    if c = '%' then
      match directive? rest with
      | some (piece, size) => piece :: piecesFrom size rest
      | none => .char c :: piecesFrom 0 rest
    else .char c :: piecesFrom 0 rest

/-- The pieces of a format. -/
def pieces (cs : List Char) : List Piece := piecesFrom 0 cs

/-! ### Filling in -/

/-- A text filled up to the width of a directive: with blanks behind it, with zeros after its sign,
or with blanks in front. -/
def pad (flags : List Char) (width : Nat) (body : List Char) : List Char :=
  let fill := width - body.length
  if '-' ∈ flags then body ++ List.replicate fill ' '
  else if '0' ∈ flags then
    match body with
    | '-' :: digits => '-' :: (List.replicate fill '0' ++ digits)
    | _ => List.replicate fill '0' ++ body
  else List.replicate fill ' ' ++ body

/-- The text of an argument before it is filled up.  `string` reads the text at an address. -/
def Directive.body (d : Directive) (string : UInt32 → String) (value : UInt32) : List Char :=
  match d.letter with
  | 'd' | 'i' => (Text.signedDecimal value.toInt32.toInt).toList
  | 'u' => Text.digits 10 value.toNat
  | 'x' | 'p' => Text.digits 16 value.toNat
  | 'X' => (Text.digits 16 value.toNat).map Char.toUpper
  | 'o' => Text.digits 8 value.toNat
  | 'c' => [Char.ofNat (value.toNat % 256)]
  | _ =>
    match d.precision with
    | some n => (string value).toList.take n
    | none => (string value).toList

/-- The text of a directive for an argument. -/
def Directive.render (d : Directive) (string : UInt32 → String) (value : UInt32) : List Char :=
  pad d.flags d.width (d.body string value)

/-- The text of pieces, the first directive of which takes the argument `next`.  An argument is asked
for when its directive is reached. -/
def renderM {m : Type → Type} [Monad m] (argument : Nat → m UInt32) (string : UInt32 → String) :
    Nat → List Piece → m (List Char)
  | _, [] => pure []
  | next, .char c :: rest => do return c :: (← renderM argument string next rest)
  | next, .percent :: rest => do return '%' :: (← renderM argument string next rest)
  | next, .directive d text :: rest =>
    if next < argumentLimit then do
      let value ← argument next
      return d.render string value ++ (← renderM argument string (next + 1) rest)
    else do return text ++ (← renderM argument string next rest)

/-- A format filled in with arguments that are asked for one after the other. -/
def formatM {m : Type → Type} [Monad m] (argument : Nat → m UInt32) (string : UInt32 → String)
    (text : String) : m String := do
  return String.ofList (← renderM argument string 0 (pieces text.toList))

/-- A format filled in. -/
def format (text : String) (argument : Nat → UInt32) (string : UInt32 → String) : String :=
  Id.run (formatM (fun i => pure (argument i)) string text)

/-- How many arguments a format takes. -/
def argumentCount (text : String) : Nat :=
  min argumentLimit ((pieces text.toList).countP fun
    | .directive _ _ => true
    | _ => false)

end SceneDebugger.Printf
