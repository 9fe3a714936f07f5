import SceneDebugger.EngineLayout
import SceneDebugger.Machine.State
import SceneDebugger.Output.Printf
import SceneDebugger.Script.Context

/-!
# SceneDebugger.Output.ScriptPrint — what the game and its scripts print

The printing functions of the game take a format and its arguments in registers that follow each
other.  The printing opcodes of scripts take a text; two of them show a variable behind it.
-/

namespace SceneDebugger

/-- The text at the address in a register; there is none at address 0. -/
def Machine.textIn? (m : Machine) (r : UInt8) : Except String String :=
  if m.register r = 0 then .error ("null pointer in r" ++ Text.decimal r.toNat)
  else m.memory.string? (m.register r) .latin1

/-- The text at an address, or the address in angle brackets if it cannot be read. -/
def Machine.textAt (m : Machine) (address : UInt32) : String :=
  match m.memory.string? address .latin1 with
  | .ok text => text
  | .error _ => "<" ++ Text.address address ++ ">"

/-- What a printing function with the format in a register prints. -/
def Machine.printed? (m : Machine) (r : UInt8) : Except String String :=
  (m.textIn? r).map fun format =>
    Printf.format format (fun i => m.register (r + 1 + UInt8.ofNat i)) m.textAt

/-- A printing opcode of scripts. -/
inductive PrintOpcode where
  | text
  /-- A text and a variable behind it. -/
  | variableText
  deriving DecidableEq, Repr

/-- The printing opcode of a name. -/
def PrintOpcode.ofName? (name : String) : Option PrintOpcode :=
  if name = "debug_Print" then some .text
  else if name = "debug_PrintFlag" ∨ name = "PrintScenario" then some .variableText
  else none

/-- The name of a variable, made up from its id if the layout has none. -/
def EngineLayout.nameOfVariable (l : EngineLayout) (id : UInt16) : String :=
  (l.variableName? id).getD ("VAR_" ++ Text.decimal id.toNat)

/-- What a script that is about to run an opcode prints, if that is a printing opcode. -/
def ScriptContext.printed? (c : ScriptContext) (m : Machine) (l : EngineLayout)
    (text : UInt32) : Except String (Option String) := do
  let id ← m.memory.halfword? c.address
  match (l.opcodeName? id).bind PrintOpcode.ofName? with
  | none => return none
  | some .text => return some (← m.memory.string? text .latin1)
  | some .variableText =>
    let text ← m.memory.string? text .latin1
    let id ← m.memory.halfword? (c.address + 2)
    let value ← m.variableAt? id 0
    return some (text ++ " — " ++ l.nameOfVariable id ++ "=" ++ Text.signedDecimal value.toInt)

end SceneDebugger
