import SceneDebugger.Breakpoints.StepTarget
import SceneDebugger.Halt.Place
import SceneDebugger.Request.Fields
import SceneDebugger.Script.Record
import SceneDebugger.Switches

/-!
# SceneDebugger.Request.Values — the values that a request asks with

What a front end sends: texts to show, decisions, opcodes and step targets, and memory laid out for a
dry run.  Everything has a default, so a request that names only what matters is complete.
-/

namespace SceneDebugger

/-- The text of a script that the field `view` names; SSBS unless it says otherwise. -/
def View.ofRequest (j : Json) : View := if j.textAt "view" = "exps" then .exps else .ssbs

/-- The bank of flags that the field `var` names. -/
def FlagBank.ofRequest (j : Json) : FlagBank := if j.intOr "var" 1 = 2 then .second else .first

/-- The decision that the field `decision` names; any other name is to go on.  What is no name
stands for a step to the address in its field `step_manual`. -/
def Decision.ofRequest (j : Json) : Decision :=
  match j.field "decision" with
  | .str "fail_hard" => .failHard
  | .str "step_next" => .stepNext
  | .str "step_into" => .stepInto
  | .str "step_over" => .stepOver
  | .str "step_out" => .stepOut
  | .str _ => .resume
  | d => .stepManual (d.wordAt "step_manual")

/-- The kind of target that the field `type` has the number of; an actor unless it says otherwise. -/
def TargetKind.ofRequest (j : Json) : TargetKind :=
  (TargetKind.ofNumber? (j.wordOr "type" 3)).getD .actor

/-- The slot that the field `slot` names. -/
def slotOfRequest (j : Json) : UInt16 := UInt16.ofNat (j.natOr "slot" 0)

/-- The opcodes at which a step is to end. -/
def StepTarget.ofRequest (j : Json) : StepTarget :=
  { target := .ofRequest j
    slot := slotOfRequest j
    isShared := (j.field "unionall").truth?
    address := j.given? "addr" Json.toWord }

/-- An opcode that breakpoints are asked about. -/
def OpcodeHit.ofRequest (j : Json) : OpcodeHit :=
  { file := j.textAt "file"
    offset := j.wordAt "offset"
    address := j.wordAt "addr"
    isShared := j.boolOr "unionall" false
    target := .ofRequest j
    slot := slotOfRequest j }

/-- The line and the column in the field `position`, if it is exactly that. -/
def positionOfRequest? (j : Json) : Option (UInt32 × UInt32) :=
  (j.field "position").asPair? Json.asWord? Json.asWord?

/-! ### Memory -/

/-- The record of a running script. -/
def ScriptRecord.ofRequest (j : Json) : ScriptRecord :=
  { target := j.wordAt "target"
    kind := j.wordAt "type"
    hanger := Int16.ofInt (j.intOr "hanger" 0)
    routineTable := j.wordAt "routine_table"
    opcodeTable := j.wordAt "opcode_table"
    address := j.wordAt "opcode_addr"
    stringTable := j.wordAt "str_table"
    callerTable := j.wordAt "caller_table"
    callerAddress := j.wordAt "caller_addr" }

/-- A memory with the blocks of the field `memory`, without the ranges of the field `unmap`. -/
def Memory.ofRequest (j : Json) : Memory :=
  let m := (j.items "memory").foldl
    (fun m block => m.write (block.wordAt "addr") ⟨block.bytes.toArray⟩) ({} : Memory)
  (j.items "unmap").foldl (fun m range =>
    match range with
    | .arr [first, limit] => m.unmap first.toInt.toNat limit.toInt.toNat
    | _ => m) m

/-- The context of the record that the field `fields` describes at the address in the field
`pointer`, in the memory of the request. -/
def ScriptContext.ofRequest (j : Json) (pointer : UInt32) : Except Error ScriptContext :=
  let m := Memory.ofRequest j
  let m := if j.given "fields" then m.write pointer (ScriptRecord.ofRequest (j.field "fields")).bytes
    else m
  ScriptContext.probe m pointer (j.wordAt "unionall")

end SceneDebugger
