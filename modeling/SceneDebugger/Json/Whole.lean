import SceneDebugger.Json.Magnitude
import SceneDebugger.Text.Digits

/-!
# SceneDebugger.Json.Whole — documents that can be kept whole

A reader that skips what it does not ask for takes every well-formed document.  One that keeps all
of a document (`Json.isWhole`) has limits:

* arrays and objects are nested at most `Json.maxLevels` deep;
* strings and field names denote texts;
* numbers have a finite value (`Magnitude.isFinite`).
-/

namespace SceneDebugger

namespace Json

/-- How deep arrays and objects may be nested. -/
def maxLevels : Nat := 127

/-- A document that is nested at most so deep, with texts and numbers that can be kept. -/
def fits : Nat → Json → Bool
  | _, .null => true
  | _, .bool _ => true
  | _, .int i => (Magnitude.ofText (Text.digits 10 i.natAbs)).isFinite
  | _, .real text => (Magnitude.ofText text.toList).isFinite
  | _, .str _ => true
  | _, .unpaired => false
  | 0, .arr _ => false
  | levels + 1, .arr items => items.all (fits levels)
  | 0, .obj _ _ => false
  | levels + 1, .obj fields _ => fields.all fun field => fits levels field.2

/-- A document that can be kept whole. -/
def isWhole (j : Json) : Bool := j.fits maxLevels

end Json

end SceneDebugger
