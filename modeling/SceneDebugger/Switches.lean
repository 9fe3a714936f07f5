import Std.Data.ExtTreeSet.Lemmas

/-!
# SceneDebugger.Switches — the debug switches of the game

The game asks for debug flags in two banks and for a debug mode.  The debugger answers in its place
from `Switches`, which the user sets.  A flag is asked for in two steps: the question is noted when
the game calls, the answer given when the call returns.
-/

namespace SceneDebugger

/-- A bank of debug flags. -/
inductive FlagBank where
  | first
  | second
  deriving DecidableEq, Repr

/-- The debug switches. -/
structure Switches where
  /-- The flags of the first bank that are on. -/
  first : Std.ExtTreeSet UInt32 := ∅
  /-- The flags of the second bank that are on. -/
  second : Std.ExtTreeSet UInt32 := ∅
  debugMode : Bool := false
  /-- The flag of the first bank that the game asked for last. -/
  askedFirst : UInt32 := 0
  /-- The flag of the second bank that the game asked for last. -/
  askedSecond : UInt32 := 0

namespace Switches

/-- The flags of a bank that are on. -/
def bank (s : Switches) : FlagBank → Std.ExtTreeSet UInt32
  | .first => s.first
  | .second => s.second

/-- A flag is on. -/
def isOn (s : Switches) (bank : FlagBank) (flag : UInt32) : Bool := (s.bank bank).contains flag

/-- The flags with one of them turned on or off. -/
def turned (flags : Std.ExtTreeSet UInt32) (flag : UInt32) (value : Bool) : Std.ExtTreeSet UInt32 :=
  if value then flags.insert flag else flags.erase flag

/-- The switches with a flag turned on or off. -/
def turn (s : Switches) (bank : FlagBank) (flag : UInt32) (value : Bool) : Switches :=
  match bank with
  | .first => { s with first := turned s.first flag value }
  | .second => { s with second := turned s.second flag value }

/-- The switches with a question of the game noted. -/
def ask (s : Switches) (bank : FlagBank) (flag : UInt32) : Switches :=
  match bank with
  | .first => { s with askedFirst := flag }
  | .second => { s with askedSecond := flag }

/-- The flag that the game asked for last. -/
def asked (s : Switches) : FlagBank → UInt32
  | .first => s.askedFirst
  | .second => s.askedSecond

/-- The switches with no question noted. -/
def forgetQuestions (s : Switches) : Switches := { s with askedFirst := 0, askedSecond := 0 }

end Switches

end SceneDebugger
