import SceneDebugger.Text.CharacterClass
import SceneDebugger.Text.Digits

/-!
# SceneDebugger.Text.Quoted — texts quoted for a log

A quoted text stands between double quotation marks.  Backslashes, the mark itself and the usual
control characters get a one-letter escape, every other character that is not shown as it is becomes
`\u{…}` with its code point.  An apostrophe stands for itself.
-/

namespace SceneDebugger.Text

/-- A code point escape. -/
def codeEscape (c : Char) : List Char :=
  ['\\', 'u', Char.ofNat 0x7b] ++ digits 16 c.toNat ++ [Char.ofNat 0x7d]

/-- A character inside a quoted text. -/
def quoteChar (c : Char) : List Char :=
  if c = Char.ofNat 0 then ['\\', '0']
  else if c = '\t' then ['\\', 't']
  else if c = '\r' then ['\\', 'r']
  else if c = '\n' then ['\\', 'n']
  else if c = '\\' then ['\\', '\\']
  else if c = '"' then ['\\', '"']
  else if isShown c then [c]
  else codeEscape c

/-- A text between quotation marks. -/
def quote (text : String) : String :=
  String.ofList ('"' :: (text.toList.flatMap quoteChar ++ ['"']))

end SceneDebugger.Text
