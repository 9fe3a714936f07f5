import SceneDebugger.Halt.Record
import SceneDebugger.Switches
import SceneDebugger.Text.Quoted

/-!
# SceneDebugger.Event — what the user is told

The emulator's side and the file operations put events into a queue, from which the user's side takes
them.  A requested reload is not passed on: it is carried out and passed on as a file reloaded.
-/

namespace SceneDebugger

/-- Where printed text comes from. -/
inductive PrintKind where
  /-- The printing functions of the game. -/
  | functions
  /-- The printing opcodes of scripts. -/
  | opcodes
  deriving DecidableEq, Repr

/-- What the user is told. -/
inductive Event where
  | halted (halt : HaltRecord)
  | printed (kind : PrintKind) (text : String)
  | flagChanged (bank : FlagBank) (flag : UInt32) (value : Bool)
  | groundStarted
  | groundQuit
  | mapChanged
  | scriptLoaded (slot : Nat) (file : String)
  | sceneLoaded (hanger : Nat) (name : String)
  | talkLoaded (hanger : Nat)
  | reloadRequested (file : String)
  | fileReloaded (file : String)
  | breakpointsChanged (file : String)
  | warning (text : String)
  deriving DecidableEq

/-! ### As text -/

/-- The name of a kind of printed text. -/
def PrintKind.name : PrintKind → String
  | .functions => "Printfs"
  | .opcodes => "DebugPrint"

/-- The name of a bank of flags. -/
def FlagBank.name : FlagBank → String
  | .first => "Flag1"
  | .second => "Flag2"

/-- A name with arguments. -/
def Event.call (name : String) (arguments : List String) : String :=
  name ++ "(" ++ ", ".intercalate arguments ++ ")"

/-- A truth value in words. -/
def Event.truth (value : Bool) : String := if value then "true" else "false"

/-- An event as text. -/
def Event.describe : Event → String
  | .halted halt => call "Halted" [halt.describe]
  | .printed kind text => call "DebugPrint" [kind.name, Text.quote text]
  | .flagChanged bank flag value =>
    call "DebugFlagChanged" [bank.name, Text.decimal flag.toNat, truth value]
  | .groundStarted => "GroundStarted"
  | .groundQuit => "GroundQuit"
  | .mapChanged => "MapChanged"
  | .scriptLoaded slot file => call "SsbLoaded" [Text.decimal slot, file]
  | .sceneLoaded hanger name => call "SsxLoaded" [Text.decimal hanger, name]
  | .talkLoaded hanger => call "TalkLoaded" [Text.decimal hanger]
  | .reloadRequested file => call "ReloadRequested" [file]
  | .fileReloaded file => call "FileReloaded" [file]
  | .breakpointsChanged file => call "BreakpointsChanged" [file]
  | .warning text => call "Warning" [text]

end SceneDebugger
