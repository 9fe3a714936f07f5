import SceneDebugger.Script.Context

/-!
# SceneDebugger.Breakpoints.StepTarget — where a step may end

A step ends at an opcode that is run for the script's target.  A `StepTarget` can ask further that
the opcode is in the shared script or not, and that it has a certain address.
-/

namespace SceneDebugger

/-- An opcode about to run, as breakpoints are asked about it. -/
structure OpcodeHit where
  file : String
  offset : UInt32
  address : UInt32
  isShared : Bool := false
  target : TargetKind
  slot : UInt16
  deriving DecidableEq, Repr

/-- The opcode that a script of a file is about to run. -/
def OpcodeHit.of (file : String) (c : ScriptContext) : OpcodeHit :=
  { file, offset := c.offset, address := c.address, isShared := c.isShared, target := c.target
    slot := c.slot }

/-- Opcodes at which a step ends. -/
structure StepTarget where
  target : TargetKind
  slot : UInt16
  /-- The opcode has to be in the shared script, or not in it. -/
  isShared : Option Bool := none
  /-- The address that the opcode has to have. -/
  address : Option UInt32 := none
  deriving DecidableEq, Repr

namespace StepTarget

/-- Every opcode that is run for the target of a script. -/
def of (c : ScriptContext) : StepTarget := { target := c.target, slot := c.slot }

/-- Only in the shared script, or only outside of it. -/
def inShared (t : StepTarget) (value : Bool) : StepTarget := { t with isShared := some value }

/-- Only at an address. -/
def atAddress (t : StepTarget) (address : UInt32) : StepTarget := { t with address := some address }

/-- The step ends at an opcode. -/
def accepts (t : StepTarget) (hit : OpcodeHit) : Bool :=
  t.target == hit.target && t.slot == hit.slot
    && t.isShared.all (· == hit.isShared) && t.address.all (· == hit.address)

end StepTarget

end SceneDebugger
