import SceneDebugger.Files.Fault
import SceneDebugger.Json.Value

/-!
# SceneDebugger.Report.Message — messages without the words of the host

A report is the same on every host, so its messages (`Json.message`) leave out what hosts word
differently:

* the host's own words for a fault (`Message.withoutHostWords`);
* the reason why a stored document was not read (`Message.withoutReasons`).
-/

namespace SceneDebugger

namespace Message

/-! ### Parts of a text -/

/-- The text before the first occurrence of a part, and the text behind it. -/
def splitAt? (part : List Char) : List Char → Option (List Char × List Char)
  | [] => if part = [] then some ([], []) else none
  | c :: rest =>
    if part.isPrefixOf (c :: rest) then some ([], (c :: rest).drop part.length)
    else (splitAt? part rest).map fun (before, behind) => (c :: before, behind)

/-- The text with every occurrence of a part replaced, from the left; the first `skip` characters
belong to an occurrence that was replaced already. -/
def replaced (part new : List Char) : Nat → List Char → List Char
  | _, [] => []
  | skip + 1, _ :: rest => replaced part new skip rest
  | 0, c :: rest =>
    if part.isPrefixOf (c :: rest) then new ++ replaced part new (part.length - 1) rest
    else c :: replaced part new 0 rest

/-! ### Words of the host -/

/-- The number in the first place where a text names a number of the host: all the digits there. -/
def hostCode? (s : List Char) : Option Int := do
  let (_, behind) ← splitAt? " (os error ".toList s
  Text.intIn? 0 Int32.maxValue.toInt (behind.takeWhile Char.isDigit)

/-- The text without the host's message for the number that it names first. -/
def withoutHostWords (s : List Char) : List Char :=
  match hostCode? s with
  | some code => replaced (hostMessage code).toList "<os error>".toList 0 s
  | none => s

/-! ### Reasons -/

/-- The text up to a mark, and that there is more behind it. -/
def hideBehind (mark : String) (s : List Char) : List Char :=
  match splitAt? mark.toList s with
  | some (before, _) => before ++ mark.toList ++ "<detail>".toList
  | none => s

/-- The text without the reason why a stored document was not read.  A document that is ignored is
named in quotation marks, with the reason behind them. -/
def withoutReasons (s : List Char) : List Char :=
  let s := hideBehind ".ge.json: " (hideBehind "Breakpoints could not be loaded: " s)
  if "Ignoring ".toList.isPrefixOf s then hideBehind "\": " s else s

/-- A message as reports show it. -/
def shown (s : String) : String := String.ofList (withoutReasons (withoutHostWords s.toList))

end Message

/-- A message in a report. -/
def Json.message (s : String) : Json := .str (Message.shown s)

end SceneDebugger
