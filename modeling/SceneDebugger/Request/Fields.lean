import SceneDebugger.Json.Decode
import SceneDebugger.Text.Digits

/-!
# SceneDebugger.Request.Fields — lenient access to the fields of a request

A request is an object whose fields may be left out.  A field that is missing, `null`, of another
type or out of range counts as not given and takes its default; of a repeated field the last one
counts.  Stored records are read strictly instead, by the decoders of `Json`.
-/

namespace SceneDebugger.Json

/-- A field of an object, `null` if there is none. -/
def field (j : Json) (name : String) : Json :=
  match j with
  | .obj fields _ => ((fields.reverse.find? fun f => f.1 == name).map Prod.snd).getD .null
  | _ => .null

/-- A field is given. -/
def given (j : Json) (name : String) : Bool :=
  match j.field name with
  | .null => false
  | _ => true

/-- A given field, read if there is one. -/
def given? {α : Type} (j : Json) (name : String) (read : Json → α) : Option α :=
  if j.given name then some (read (j.field name)) else none

/-! ### Values -/

/-- An integer, 0 for any other value. -/
def toInt : Json → Int
  | .int i => i
  | _ => 0

/-- A 32-bit word, 0 for any other value. -/
def toWord (j : Json) : UInt32 := j.asWord?.getD 0

/-- A text, empty for any other value. -/
def toText : Json → String
  | .str s => s
  | _ => ""

/-- A truth value, if it is one. -/
def truth? : Json → Option Bool
  | .bool b => some b
  | _ => none

/-! ### Fields -/

/-- An integer field with a default. -/
def intOr (j : Json) (name : String) (default : Int) : Int :=
  match j.field name with
  | .int i => i
  | _ => default

/-- A natural number field with a default. -/
def natOr (j : Json) (name : String) (default : Nat) : Nat :=
  match j.field name with
  | .int (.ofNat n) => n
  | _ => default

/-- A 32-bit field with a default. -/
def wordOr (j : Json) (name : String) (default : UInt32) : UInt32 :=
  (j.field name).asWord?.getD default

/-- A 32-bit field. -/
def wordAt (j : Json) (name : String) : UInt32 := j.wordOr name 0

/-- A text field with a default. -/
def textOr (j : Json) (name default : String) : String :=
  match j.field name with
  | .str s => s
  | _ => default

/-- A text field. -/
def textAt (j : Json) (name : String) : String := j.textOr name ""

/-- A truth field with a default. -/
def boolOr (j : Json) (name : String) (default : Bool) : Bool := ((j.field name).truth?).getD default

/-- The items of a list field. -/
def items (j : Json) (name : String) : List Json :=
  match j.field name with
  | .arr items => items
  | _ => []

/-- The names and values of an object field. -/
def pairs (j : Json) (name : String) : List (String × Json) :=
  match j.field name with
  | .obj fields _ => fields
  | _ => []

/-- The bytes of the field `hex`, repeated as often as the field `times` says. -/
def bytes (j : Json) : List UInt8 :=
  (List.replicate (j.natOr "times" 1) (Text.ofHex (j.textAt "hex").toList)).flatten

end SceneDebugger.Json
