import SceneDebugger.Json.Value

/-!
# SceneDebugger.Json.Reader — reading JSON text

`Json.parse?` accepts one document with blanks around it and nothing else.  The grammar is strict:
no leading zeros or plus signs, no trailing commas, no control characters inside strings.  A string
with half of a surrogate pair is well formed, but it reads as `Json.unpaired`, and so does an object
with such a field name: a reader may skip it and nothing can be made of it.  `-0` is a `real`, since
no integer is written that way.

The readers take fuel that bounds nesting and length; `parse?` supplies more than the text can use.
-/

namespace SceneDebugger

namespace Json

/-! ### Blanks and numbers -/

/-- The four blanks of the format. -/
def isBlank (c : Char) : Bool := c == ' ' || c == '\n' || c == '\r' || c == '\t'

/-- The text after its leading blanks. -/
def skipBlanks (cs : List Char) : List Char := cs.dropWhile isBlank

/-- The number that ASCII digits stand for in base ten. -/
def digitsValue (ds : List Char) : Nat := ds.foldl (fun n d => 10 * n + (d.toNat - '0'.toNat)) 0

/-- The digits of a fraction or an exponent: at least one. -/
def readDigits? (cs : List Char) : Option (List Char × List Char) :=
  match cs.takeWhile Char.isDigit with
  | [] => none
  | ds => some (ds, cs.dropWhile Char.isDigit)

/-- The digits before the point: a single zero, or digits that do not start with one. -/
def readWhole? (cs : List Char) : Option (List Char × List Char) :=
  match readDigits? cs with
  | some ('0' :: _ :: _, _) => none
  | found => found

/-- A fraction, if the text goes on with a point. -/
def readFraction? : List Char → Option (List Char × List Char)
  | '.' :: rest => (readDigits? rest).map fun (ds, after) => ('.' :: ds, after)
  | cs => some ([], cs)

/-- An exponent, if the text goes on with one. -/
def readExponent? : List Char → Option (List Char × List Char)
  | e :: rest =>
    if e = 'e' ∨ e = 'E' then
      match rest with
      | sign :: digits =>
        if sign = '+' ∨ sign = '-' then
          (readDigits? digits).map fun (ds, after) => (e :: sign :: ds, after)
        else (readDigits? rest).map fun (ds, after) => (e :: ds, after)
      | [] => none
    else some ([], e :: rest)
  | [] => some ([], [])

/-- The number with the given sign, whole part and further parts. -/
def number (negative : Bool) (whole further : List Char) : Json :=
  match further, negative, digitsValue whole with
  | [], false, n => .int n
  | [], true, n + 1 => .int (.negSucc n)
  | _, _, _ => .real (String.ofList ((if negative then ['-'] else []) ++ whole ++ further))

/-- A number after its sign. -/
def readUnsigned? (negative : Bool) (cs : List Char) : Option (Json × List Char) := do
  let (whole, cs) ← readWhole? cs
  let (fraction, cs) ← readFraction? cs
  let (exponent, cs) ← readExponent? cs
  return (number negative whole (fraction ++ exponent), cs)

/-! ### Strings -/

/-- The value of a hexadecimal digit, in either case. -/
def hexValue? (c : Char) : Option Nat :=
  if '0' ≤ c ∧ c ≤ '9' then some (c.toNat - '0'.toNat)
  else if 'a' ≤ c ∧ c ≤ 'f' then some (c.toNat - 'a'.toNat + 10)
  else if 'A' ≤ c ∧ c ≤ 'F' then some (c.toNat - 'A'.toNat + 10)
  else none

/-- The number that four hexadecimal digits stand for. -/
def hexQuad? (a b c d : Char) : Option Nat := do
  return ((← hexValue? a) * 16 + (← hexValue? b)) * 256 + ((← hexValue? c) * 16 + (← hexValue? d))

/-- The character that a one-letter escape stands for. -/
def unescape? (c : Char) : Option Char :=
  if c = '"' then some '"'
  else if c = '\\' then some '\\'
  else if c = '/' then some '/'
  else if c = 'b' then some '\x08'
  else if c = 'f' then some '\x0c'
  else if c = 'n' then some '\n'
  else if c = 'r' then some '\r'
  else if c = 't' then some '\t'
  else none

/-- The code units of a string after its opening quotation mark: a code point for each character
that stands for itself, a number below `0x10000` for each escape. -/
def readUnits? : List Char → Option (List Nat × List Char)
  | [] => none
  | '"' :: rest => some ([], rest)
  | '\\' :: 'u' :: a :: b :: c :: d :: rest => do
    let unit ← hexQuad? a b c d
    let (units, after) ← readUnits? rest
    return (unit :: units, after)
  | '\\' :: e :: rest => do
    let c ← unescape? e
    let (units, after) ← readUnits? rest
    return (c.toNat :: units, after)
  | c :: rest =>
    if c.toNat < 0x20 ∨ c = '\\' then none
    else do
      let (units, after) ← readUnits? rest
      return (c.toNat :: units, after)

/-- The first half of a surrogate pair. -/
def isHighSurrogate (u : Nat) : Bool := 0xD800 ≤ u && u ≤ 0xDBFF

/-- The second half of a surrogate pair. -/
def isLowSurrogate (u : Nat) : Bool := 0xDC00 ≤ u && u ≤ 0xDFFF

/-- The characters that code units stand for, unless half of a surrogate pair stands alone. -/
def pairUnits? : List Nat → Option (List Char)
  | [] => some []
  | u :: rest =>
    if isLowSurrogate u then none
    else if isHighSurrogate u then
      match rest with
      | v :: rest =>
        if isLowSurrogate v then
          (pairUnits? rest).map (Char.ofNat (0x10000 + (u - 0xD800) * 0x400 + (v - 0xDC00)) :: ·)
        else none
      | [] => none
    else (pairUnits? rest).map (Char.ofNat u :: ·)

/-- A string after its opening quotation mark; no text where a surrogate stands alone. -/
def readText? (cs : List Char) : Option (Option String × List Char) :=
  (readUnits? cs).map fun (units, after) => ((pairUnits? units).map String.ofList, after)

/-! ### Field names -/

/-- A field name as it was written. -/
structure FieldName where
  /-- The name; none where a surrogate stands alone. -/
  text : Option String
  /-- A number with a digit written as an escape. -/
  masked : Bool

/-- The text is a number, but what was written for it is not its digits and a quotation mark. -/
def isMasked (text : String) (written : List Char) : Bool :=
  text.toList.all Char.isDigit && !(text.toList ++ ['"']).isPrefixOf written

/-- A field name after its opening quotation mark. -/
def readName? (cs : List Char) : Option (FieldName × List Char) :=
  (readText? cs).map fun (text, after) => (⟨text, text.any fun t => isMasked t cs⟩, after)

/-- The object with the given fields. -/
def ofFields (fields : List (FieldName × Json)) : Json :=
  match fields.mapM fun (name, item) => name.text.map fun text => (text, item) with
  | some named => .obj named (fields.all fun (name, _) => !name.masked)
  | none => .unpaired

/-! ### Documents -/

mutual

/-- A document, after leading blanks. -/
def readValue? : Nat → List Char → Option (Json × List Char)
  | 0, _ => none
  | fuel + 1, cs =>
    match skipBlanks cs with
    | 'n' :: 'u' :: 'l' :: 'l' :: rest => some (.null, rest)
    | 't' :: 'r' :: 'u' :: 'e' :: rest => some (.bool true, rest)
    | 'f' :: 'a' :: 'l' :: 's' :: 'e' :: rest => some (.bool false, rest)
    | '"' :: rest =>
      (readText? rest).map fun (text, after) => (text.elim .unpaired .str, after)
    | '[' :: rest =>
      match skipBlanks rest with
      | ']' :: after => some (.arr [], after)
      | items => (readItems? fuel items).map fun (items, after) => (.arr items, after)
    | '-' :: rest => readUnsigned? true rest
    | c :: rest =>
      if c = Char.ofNat 0x7b then
        match skipBlanks rest with
        | d :: after =>
          if d = Char.ofNat 0x7d then some (.obj [], after)
          else
            (readFields? fuel (d :: after)).map fun (fields, after) => (ofFields fields, after)
        | [] => none
      else readUnsigned? false (c :: rest)
    | [] => none

/-- The items of an array, at least one, up to the closing bracket. -/
def readItems? : Nat → List Char → Option (List Json × List Char)
  | 0, _ => none
  | fuel + 1, cs =>
    match readValue? fuel cs with
    | none => none
    | some (item, rest) =>
      match skipBlanks rest with
      | ',' :: rest => (readItems? fuel rest).map fun (items, after) => (item :: items, after)
      | ']' :: after => some ([item], after)
      | _ => none

/-- The fields of an object, at least one, up to the closing brace. -/
def readFields? : Nat → List Char → Option (List (FieldName × Json) × List Char)
  | 0, _ => none
  | fuel + 1, cs =>
    match skipBlanks cs with
    | '"' :: rest =>
      match readName? rest with
      | some (name, rest) =>
        match skipBlanks rest with
        | ':' :: rest =>
          match readValue? fuel rest with
          | none => none
          | some (item, rest) =>
            match skipBlanks rest with
            | ',' :: rest =>
              (readFields? fuel rest).map fun (fields, after) => ((name, item) :: fields, after)
            | d :: after => if d = Char.ofNat 0x7d then some ([(name, item)], after) else none
            | [] => none
        | _ => none
      | _ => none
    | _ => none

end

/-- The document that a text holds, if the text is one document and nothing else. -/
def parse? (text : String) : Option Json :=
  match readValue? (text.length + 1) text.toList with
  | some (j, rest) => if skipBlanks rest = [] then some j else none
  | none => none

end Json

end SceneDebugger
