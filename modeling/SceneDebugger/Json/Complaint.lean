import SceneDebugger.Json.Double
import SceneDebugger.Text.Quoted

/-!
# SceneDebugger.Json.Complaint — why a text is not the document that was asked for

A `Complaint` is a reason to refuse a text (`Objection`) and a place in it.  `Complaint.message` is
the reason in words, with the line of the place and the bytes before the place on that line.

A `Check` takes what it asks for off the front of a text, or complains about the first place where
it cannot: `checkWord` asks for a 32-bit word, `checkList` for an array, `checkMap` for an object.
What is there instead is read as far as its own form asks for it, so that a broken number is a
broken number also where no number was asked for.
-/

namespace SceneDebugger

namespace Json

/-! ### Reasons -/

/-- What is asked for. -/
inductive Wanted where
  | word
  | list
  | map
  deriving DecidableEq, Repr

/-- What is there. -/
inductive Found where
  | null
  | bool (b : Bool)
  | int (i : Int)
  /-- A number that is no integer of 64 bits, by its shortest text. -/
  | real (text : String)
  | str (text : String)
  | list
  | map
  deriving DecidableEq, Repr

/-- A reason to refuse a text. -/
inductive Objection where
  | endInList
  | endInObject
  | endInString
  | endInValue
  | expectedColon
  | expectedListEnd
  | expectedObjectEnd
  | expectedLetter
  | expectedValue
  | expectedKey
  | invalidEscape
  | invalidNumber
  | outOfRange
  | controlCharacter
  | loneSurrogate
  | endOfPair
  | trailingComma
  | trailingText
  | wrongType (found : Found) (wanted : Wanted)
  | wrongValue (found : Found) (wanted : Wanted)
  deriving DecidableEq, Repr

/-- What is asked for, in words. -/
def Wanted.describe : Wanted → String
  | .word => "u32"
  | .list => "a sequence"
  | .map => "a map"

/-- What is there, in words. -/
def Found.describe : Found → String
  | .null => "null"
  | .bool b => "boolean `" ++ (if b then "true" else "false") ++ "`"
  | .int i => "integer `" ++ Text.signedDecimal i ++ "`"
  | .real text => "floating point `" ++ text ++ "`"
  | .str text => "string " ++ Text.quote text
  | .list => "sequence"
  | .map => "map"

/-- A reason in words. -/
def Objection.describe : Objection → String
  | .endInList => "EOF while parsing a list"
  | .endInObject => "EOF while parsing an object"
  | .endInString => "EOF while parsing a string"
  | .endInValue => "EOF while parsing a value"
  | .expectedColon => "expected `:`"
  | .expectedListEnd => "expected `,` or `]`"
  | .expectedObjectEnd => "expected `,` or `\x7d`"
  | .expectedLetter => "expected ident"
  | .expectedValue => "expected value"
  | .expectedKey => "key must be a string"
  | .invalidEscape => "invalid escape"
  | .invalidNumber => "invalid number"
  | .outOfRange => "number out of range"
  | .controlCharacter => "control character (\\u0000-\\u001F) found while parsing a string"
  | .loneSurrogate => "lone leading surrogate in hex escape"
  | .endOfPair => "unexpected end of hex escape"
  | .trailingComma => "trailing comma"
  | .trailingText => "trailing characters"
  | .wrongType found wanted => "invalid type: " ++ found.describe ++ ", expected " ++ wanted.describe
  | .wrongValue found wanted =>
    "invalid value: " ++ found.describe ++ ", expected " ++ wanted.describe

/-! ### Places -/

/-- A reason to refuse a text, and a place in it. -/
structure Complaint where
  objection : Objection
  /-- What is left of the text near the place. -/
  rest : List Char
  /-- How many bytes the place is behind the start of the rest, as far as there are so many. -/
  ahead : Nat := 0
  deriving DecidableEq, Repr

namespace Complaint

/-- How many bytes characters take. -/
def byteCount (cs : List Char) : Nat := (String.ofList cs).utf8ByteSize

/-- The bytes of the text before the place. -/
def bytesBefore (c : Complaint) (text : String) : List UInt8 :=
  text.toUTF8.toList.take (text.utf8ByteSize - byteCount c.rest + c.ahead)

/-- The byte that ends a line. -/
def lineEnd : UInt8 := 10

/-- The complaint about a text in words. -/
def message (c : Complaint) (text : String) : String :=
  let before := c.bytesBefore text
  let line := before.count lineEnd + 1
  let column := (before.reverse.takeWhile fun b => b ≠ lineEnd).length
  c.objection.describe ++ " at line " ++ Text.decimal line ++ " column " ++ Text.decimal column

end Complaint

/-- A complaint about the character that comes next. -/
def complainNext (objection : Objection) (rest : List Char) : Complaint :=
  { objection, rest, ahead := 1 }

/-- A complaint that a text ends. -/
def complainEnd (objection : Objection) : Complaint := { objection, rest := [] }

/-! ### Strings -/

/-- Why a text is not a string after its opening quotation mark. -/
def stringComplaint : List Char → Complaint
  | [] => complainEnd .endInString
  | '\\' :: 'u' :: a :: b :: c :: d :: rest =>
    match hexQuad? a b c d with
    | none => { objection := .invalidEscape, rest := a :: b :: c :: d :: rest, ahead := 4 }
    | some u =>
      if isLowSurrogate u then { objection := .loneSurrogate, rest }
      else if isHighSurrogate u then
        match rest with
        | [] => complainEnd .endInString
        | ['\\'] => complainEnd .endInString
        | '\\' :: 'u' :: a :: b :: c :: d :: rest =>
          match hexQuad? a b c d with
          | none => { objection := .invalidEscape, rest := a :: b :: c :: d :: rest, ahead := 4 }
          | some v =>
            if isLowSurrogate v then stringComplaint rest
            else { objection := .loneSurrogate, rest }
        | '\\' :: 'u' :: rest => shortEscape rest
        | '\\' :: rest => complainNext .endOfPair rest
        | rest => complainNext .endOfPair rest
      else stringComplaint rest
  | '\\' :: 'u' :: rest => shortEscape rest
  | ['\\'] => complainEnd .endInString
  | '\\' :: e :: rest =>
    if (unescape? e).isSome then stringComplaint rest
    else complainNext .invalidEscape (e :: rest)
  | c :: rest =>
    if c.toNat < 0x20 then complainNext .controlCharacter (c :: rest) else stringComplaint rest
where
  /-- Fewer than four characters after the letter of an escape: they may still be four bytes. -/
  shortEscape (rest : List Char) : Complaint :=
    if Complaint.byteCount rest < 4 then complainEnd .endInString
    else { objection := .invalidEscape, rest, ahead := 4 }

/-- A string after its opening quotation mark. -/
def checkString (cs : List Char) : Except Complaint (String × List Char) :=
  match readText? cs with
  | some (some text, rest) => .ok (text, rest)
  | _ => .error (stringComplaint cs)

/-! ### Numbers -/

/-- What is left of a text where it stops to be a number after its sign. -/
def numberStop (cs : List Char) : List Char :=
  match readWhole? cs with
  | none => if cs.head? = some '0' then cs.drop 1 else cs
  | some (_, cs) =>
    match readFraction? cs with
    | none => cs.drop 1
    | some (_, cs) =>
      match cs.drop 1 with
      | sign :: rest => if sign = '+' ∨ sign = '-' then rest else sign :: rest
      | [] => []

/-- Why a text is not a number after its sign. -/
def numberComplaint (cs : List Char) : Complaint :=
  match numberStop cs with
  | [] => complainEnd .endInValue
  | rest => complainNext .invalidNumber rest

/-- The digits behind the one with which a number exceeds 32 bits with a sign, if one does. -/
def excess (n : Nat) : List Char → List Char
  | [] => []
  | d :: rest =>
    let n := 10 * n + (d.toNat - '0'.toNat)
    if Int32.maxValue.toInt < n then rest else excess n rest

/-- The end of a written number, or the place in its exponent where that is too large already. -/
def rangeStop (written rest : List Char) : List Char :=
  let exponent := Magnitude.writtenExponent written
  excess 0 (exponent.dropWhile fun c => c = '+' ∨ c = '-') ++ rest

/-- A written number: an integer of 64 bits, with a sign if it is negative, or else a `real`. -/
def Found.ofNumber (j : Json) (negative : Bool) (m : Magnitude) : Found :=
  let real (_ : Unit) : Found :=
    .real ((if negative then "-" else "") ++ (Double.ofMagnitude m).text)
  match j with
  | .int i => if Int64.minValue.toInt ≤ i ∧ i < UInt64.size then .int i else real ()
  | _ => real ()

/-- A number after its sign. -/
def checkUnsigned (negative : Bool) (cs : List Char) : Except Complaint (Found × List Char) :=
  match readUnsigned? negative cs with
  | none => .error (numberComplaint cs)
  | some (j, rest) =>
    let written := cs.take (cs.length - rest.length)
    let m := Magnitude.ofText written
    if m.isFinite then .ok (.ofNumber j negative m, rest)
    else .error { objection := .outOfRange, rest := rangeStop written rest }

/-- A value is a number if it begins with this character. -/
def beginsNumber (c : Char) : Bool := c == '-' || c.isDigit

/-- A number. -/
def checkNumber : List Char → Except Complaint (Found × List Char)
  | '-' :: rest => checkUnsigned true rest
  | cs => checkUnsigned false cs

/-! ### Other values -/

/-- The complaint about a word of letters that was begun. -/
def letterComplaint (found : Found) (wanted : Wanted) : List Char → List Char → Complaint
  | [], rest => { objection := .wrongType found wanted, rest }
  | _ :: _, [] => complainEnd .endInValue
  | letter :: letters, c :: rest =>
    if c = letter then letterComplaint found wanted letters rest
    else complainNext .expectedLetter (c :: rest)

/-- The complaint about a value of another type, or about its form if that is broken. -/
def typeComplaint (wanted : Wanted) (cs : List Char) : Complaint :=
  let complain (found : Except Complaint (Found × List Char)) : Complaint :=
    match found with
    | .ok (found, rest) => { objection := .wrongType found wanted, rest }
    | .error c => c
  match cs with
  | [] => complainEnd .endInValue
  | 'n' :: rest => letterComplaint .null wanted "ull".toList rest
  | 't' :: rest => letterComplaint (.bool true) wanted "rue".toList rest
  | 'f' :: rest => letterComplaint (.bool false) wanted "alse".toList rest
  | '"' :: rest => complain ((checkString rest).map fun (text, rest) => (.str text, rest))
  | '[' :: _ => complain (.ok (.list, cs))
  | c :: _ =>
    if beginsNumber c then complain (checkNumber cs)
    else if c = Char.ofNat 0x7b then complain (.ok (.map, cs))
    else complainNext .expectedValue cs

/-! ### Checks -/

/-- What is left of a text behind what was asked for, or a complaint. -/
abbrev Check := List Char → Except Complaint (List Char)

/-- A 32-bit word. -/
def checkWord : Check := fun cs =>
  let cs := skipBlanks cs
  if cs.head?.any beginsNumber then
    match checkNumber cs with
    | .ok (.int i, rest) =>
      if 0 ≤ i ∧ i < UInt32.size then .ok rest
      else .error { objection := .wrongValue (.int i) .word, rest }
    | .ok (found, rest) => .error { objection := .wrongType found .word, rest }
    | .error c => .error c
  else .error (typeComplaint .word cs)

/-- The items of an array after the first, each behind a comma, and the closing bracket. -/
def checkItems (item : Check) : Nat → Check
  | 0, _ => .error (complainEnd .endInList)
  | fuel + 1, cs =>
    match skipBlanks cs with
    | [] => .error (complainEnd .endInList)
    | ']' :: rest => .ok rest
    | ',' :: rest =>
      match skipBlanks rest with
      | [] => .error (complainEnd .endInValue)
      | ']' :: rest => .error (complainNext .trailingComma (']' :: rest))
      | rest => (item rest).bind (checkItems item fuel)
    | rest => .error (complainNext .expectedListEnd rest)

/-- An array of like items. -/
def checkList (item : Check) : Check := fun cs =>
  match skipBlanks cs with
  | '[' :: rest =>
    match skipBlanks rest with
    | [] => .error (complainEnd .endInList)
    | ']' :: rest => .ok rest
    | rest => (item rest).bind (checkItems item (rest.length + 1))
  | rest => .error (typeComplaint .list rest)

/-- A field of an object, from the opening quotation mark of its name. -/
def checkField (item : Check) : Check
  | '"' :: rest => do
    let (_, rest) ← checkString rest
    match skipBlanks rest with
    | [] => .error (complainEnd .endInObject)
    | ':' :: rest => item rest
    | rest => .error (complainNext .expectedColon rest)
  | rest => .error (complainNext .expectedKey rest)

/-- The fields of an object after the first, each behind a comma, and the closing brace. -/
def checkFields (item : Check) : Nat → Check
  | 0, _ => .error (complainEnd .endInObject)
  | fuel + 1, cs =>
    match skipBlanks cs with
    | [] => .error (complainEnd .endInObject)
    | c :: rest =>
      if c = Char.ofNat 0x7d then .ok rest
      else if c = ',' then
        match skipBlanks rest with
        | [] => .error (complainEnd .endInValue)
        | d :: rest =>
          if d = Char.ofNat 0x7d then .error (complainNext .trailingComma (d :: rest))
          else (checkField item (d :: rest)).bind (checkFields item fuel)
      else .error (complainNext .expectedObjectEnd (c :: rest))

/-- An object with like items, whatever the names of its fields. -/
def checkMap (item : Check) : Check := fun cs =>
  match skipBlanks cs with
  | [] => .error (complainEnd .endInValue)
  | c :: rest =>
    if c = Char.ofNat 0x7b then
      match skipBlanks rest with
      | [] => .error (complainEnd .endInObject)
      | d :: rest =>
        if d = Char.ofNat 0x7d then .ok rest
        else (checkField item (d :: rest)).bind (checkFields item (rest.length + 1))
    else .error (typeComplaint .map (c :: rest))

/-- Why a text is not one document that a check asks for: the complaint of the check, or that there
is more behind the document. -/
def Check.complaint (check : Check) (text : String) : Complaint :=
  match check text.toList with
  | .ok rest => complainNext .trailingText (skipBlanks rest)
  | .error c => c

end Json

end SceneDebugger
