/-!
# SceneDebugger.Json.Value — JSON documents and their written forms

`Json` keeps what a reader can tell apart: integers of any size, numbers written with a fraction or
an exponent (`real`, kept as text), and what has an escape that leaves half of a surrogate pair
(`unpaired`, which denotes nothing).  An object keeps its fields in the order written, repetitions
included, and whether its numeric field names are written in plain digits.

* `Json.compact` writes without blanks.
* `Json.pretty` writes one item a line, two spaces a level, and empty containers as `[]` and `{}`.
-/

namespace SceneDebugger

/-- A JSON document. -/
inductive Json where
  | null
  | bool (value : Bool)
  | int (value : Int)
  /-- A number written with a fraction or an exponent, or as `-0`. -/
  | real (text : String)
  | str (text : String)
  /-- A string, or an object one of whose field names is a string, whose escapes leave half of a
  surrogate pair. -/
  | unpaired
  | arr (items : List Json)
  /-- An object; `plain` unless some field name is a number with a digit written as an escape. -/
  | obj (fields : List (String × Json)) (plain : Bool := true)
  deriving Inhabited

namespace Json

/-- A natural number as a document. -/
def nat (n : Nat) : Json := .int n

/-- `null` for an absent value. -/
def ofOption {α : Type} (write : α → Json) : Option α → Json
  | none => .null
  | some a => write a

/-- The item that a list of strings is written as. -/
def ofStrings (texts : List String) : Json := .arr (texts.map .str)

/-! ### Numbers and strings -/

/-- An integer in decimal, without a plus sign or leading zeros. -/
def intChars : Int → List Char
  | .ofNat n => Nat.toDigits 10 n
  | .negSucc n => '-' :: Nat.toDigits 10 (n + 1)

/-- The digit of a number below 16, in lower case. -/
def hexDigit (n : Nat) : Char := Nat.digitChar n

/-- A character inside a written string: the quotation mark, the backslash and the control
characters are escaped, everything else stands for itself. -/
def escape (c : Char) : List Char :=
  if c = '"' then ['\\', '"']
  else if c = '\\' then ['\\', '\\']
  else if c = '\x08' then ['\\', 'b']
  else if c = '\x0c' then ['\\', 'f']
  else if c = '\n' then ['\\', 'n']
  else if c = '\r' then ['\\', 'r']
  else if c = '\t' then ['\\', 't']
  else if c.toNat < 0x20 then
    ['\\', 'u', '0', '0', hexDigit (c.toNat / 16), hexDigit (c.toNat % 16)]
  else [c]

/-- The characters of a string after its opening quotation mark, the closing one included. -/
def quotedTail : List Char → List Char
  | [] => ['"']
  | c :: rest => escape c ++ quotedTail rest

/-- A written string. -/
def quoted (text : String) : List Char := '"' :: quotedTail text.toList

/-! ### Without blanks -/

mutual

/-- The characters of a document written without blanks. -/
def compactChars : Json → List Char
  | .null => ['n', 'u', 'l', 'l']
  | .bool true => ['t', 'r', 'u', 'e']
  | .bool false => ['f', 'a', 'l', 's', 'e']
  | .int i => intChars i
  | .real text => text.toList
  | .str text => quoted text
  | .unpaired => ['n', 'u', 'l', 'l']
  | .arr [] => ['[', ']']
  | .arr (item :: rest) => '[' :: (compactChars item ++ compactItems rest)
  | .obj [] _ => [Char.ofNat 0x7b, Char.ofNat 0x7d]
  | .obj ((name, item) :: rest) _ =>
    Char.ofNat 0x7b :: (quoted name ++ ':' :: (compactChars item ++ compactFields rest))

/-- The items after the first, with the closing bracket. -/
def compactItems : List Json → List Char
  | [] => [']']
  | item :: rest => ',' :: (compactChars item ++ compactItems rest)

/-- The fields after the first, with the closing brace. -/
def compactFields : List (String × Json) → List Char
  | [] => [Char.ofNat 0x7d]
  | (name, item) :: rest =>
    ',' :: (quoted name ++ ':' :: (compactChars item ++ compactFields rest))

end

/-- A document written without blanks. -/
def compact (j : Json) : String := String.ofList j.compactChars

/-! ### One item a line -/

/-- A line break followed by the indentation of a level. -/
def newline (level : Nat) : List Char := '\n' :: List.replicate (2 * level) ' '

mutual

/-- The characters of a document written one item a line, the first line already indented. -/
def prettyChars (level : Nat) : Json → List Char
  | .arr [] => ['[', ']']
  | .arr (item :: rest) =>
    '[' :: (newline (level + 1) ++ (prettyChars (level + 1) item ++ prettyItems level rest))
  | .obj [] _ => [Char.ofNat 0x7b, Char.ofNat 0x7d]
  | .obj ((name, item) :: rest) _ =>
    Char.ofNat 0x7b :: (newline (level + 1) ++ (quoted name ++ ':' :: ' ' ::
      (prettyChars (level + 1) item ++ prettyFields level rest)))
  | .null => ['n', 'u', 'l', 'l']
  | .bool true => ['t', 'r', 'u', 'e']
  | .bool false => ['f', 'a', 'l', 's', 'e']
  | .int i => intChars i
  | .real text => text.toList
  | .str text => quoted text
  | .unpaired => ['n', 'u', 'l', 'l']

/-- The items after the first, with the closing bracket. -/
def prettyItems (level : Nat) : List Json → List Char
  | [] => newline level ++ [']']
  | item :: rest =>
    ',' :: (newline (level + 1) ++ (prettyChars (level + 1) item ++ prettyItems level rest))

/-- The fields after the first, with the closing brace. -/
def prettyFields (level : Nat) : List (String × Json) → List Char
  | [] => newline level ++ [Char.ofNat 0x7d]
  | (name, item) :: rest =>
    ',' :: (newline (level + 1) ++ (quoted name ++ ':' :: ' ' ::
      (prettyChars (level + 1) item ++ prettyFields level rest)))

end

/-- A document written one item a line. -/
def pretty (j : Json) : String := String.ofList (j.prettyChars 0)

end Json

end SceneDebugger
