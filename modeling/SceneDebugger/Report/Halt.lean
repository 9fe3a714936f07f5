import SceneDebugger.Breakpoints.StepTarget
import SceneDebugger.Halt.Record
import SceneDebugger.Json.Decode
import SceneDebugger.Source.Storage

/-!
# SceneDebugger.Report.Halt — halts and steps as a front end sees them

Documents for display.  They name every part, `null` for an absent one, and are not read back; the
stored forms are the `toJson` functions.
-/

namespace SceneDebugger

/-- A text of a script, by name. -/
def View.report : View → Json
  | .ssbs => .str "ssbs"
  | .exps => .str "exps"

/-- A decision, by name; a step to an address has that address. -/
def Decision.report : Decision → Json
  | .failHard => .str "fail_hard"
  | .resume => .str "resume"
  | .stepNext => .str "step_next"
  | .stepInto => .str "step_into"
  | .stepOver => .str "step_over"
  | .stepOut => .str "step_out"
  | .stepManual address => .obj [("step_manual", .word address)]

/-- Where a step ends. -/
def StepTarget.report (t : StepTarget) : Json :=
  .obj [("type", .str t.target.name), ("slot", .nat t.slot.toNat),
    ("unionall", .ofOption Json.bool t.isShared), ("addr", .ofOption Json.word t.address)]

/-- Where a called routine returns to. -/
def CallFrame.report (f : CallFrame) : Json :=
  .arr [.word f.routineTable, .word f.address, .word f.offset]

/-- A running script. -/
def ScriptContext.report (c : ScriptContext) : Json :=
  .obj [("pointer", .word c.pointer), ("type", .str c.target.name),
    ("has_slot", .bool c.target.hasSlot), ("target_addr", .word c.targetAddress),
    ("slot", .nat c.slot.toNat), ("routine_table", .word c.routineTable),
    ("opcode_table", .word c.opcodeTable), ("str_table", .word c.stringTable),
    ("opcode_addr", .word c.address), ("offset", .word c.offset), ("unionall", .bool c.isShared),
    ("hanger", .nat c.hanger), ("has_call_stack", .bool c.caller.isSome),
    ("caller", .ofOption CallFrame.report c.caller), ("display", .str c.describe)]

/-- Where a halt is shown. -/
def HaltPlace.report (p : HaltPlace) : Json :=
  .obj [("ssb", .str p.file), ("handler", .str p.shown), ("view", .ofOption View.report p.view),
    ("offset", .word p.offset),
    ("position", .ofOption (fun (line, column) => .arr [.word line, .word column]) p.position),
    ("on_call", .bool p.onCall), ("entry", .ofOption Entry.toJson p.entry)]

/-- A halt. -/
def HaltRecord.report (h : HaltRecord) : Json :=
  .obj [("describe", .str h.describe), ("runtime", h.context.report),
    ("file_state", h.place.report), ("hanger", .nat h.context.hanger),
    ("offset", .word h.context.offset), ("on_call", .bool h.place.onCall),
    ("stack", .ofList (fun (offset, address) => .arr [.word offset, .word address]) h.stack),
    ("released", .bool h.isReleased)]

end SceneDebugger
