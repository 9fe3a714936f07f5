import SceneDebugger.Breakpoints.Store
import SceneDebugger.Halt.Record

/-!
# SceneDebugger.Controller — when a script halts, and how it goes on

The controller looks at every opcode that is about to run.  A decision of the user about a halt is
turned into step targets, which are all cleared at the next halt, or into a demand to halt at the very
next opcode (`Controller.forced`).
-/

namespace SceneDebugger

/-- What the controller keeps between opcodes. -/
structure Controller where
  /-- Scripts halt at all. -/
  enabled : Bool := true
  /-- Opcodes are not looked at. -/
  boost : Bool := false
  /-- The tick in which scripts do not halt; no machine reaches the last tick. -/
  ignoredTick : UInt64 := 18446744073709551615
  /-- The next opcode halts. -/
  forced : Bool := false
  /-- The halt that the emulator's side waits on. -/
  halt : Option HaltRecord := none
  deriving DecidableEq

namespace Controller

/-- A script is halted. -/
def isStopped (c : Controller) : Bool := c.halt.isSome

/-- Scripts can halt in a tick. -/
def mayHalt (c : Controller) (tick : UInt64) : Bool := c.enabled && c.ignoredTick != tick

/-- The controller after an opcode asked whether the next one is to halt. -/
def askedForce (c : Controller) : Controller := { c with forced := false }

end Controller

/-! ### Decisions -/

/-- The step targets of a decision about a halted script. -/
def Decision.stepTargets (d : Decision) (c : ScriptContext) : List StepTarget :=
  let any := StepTarget.of c
  let atCaller := (c.caller.map fun f => any.atAddress f.address).toList
  match d with
  | .failHard | .resume | .stepNext => []
  | .stepInto => [any]
  | .stepOver => any.inShared c.isShared :: atCaller
  | .stepOut => atCaller
  | .stepManual address => [(any.inShared c.isShared).atAddress address]

/-- The controller after a decision that was made in a tick. -/
def Controller.follow (c : Controller) (d : Decision) (tick : UInt64) : Controller :=
  match d with
  | .failHard => { c with ignoredTick := tick }
  | .stepNext => { c with forced := true }
  | _ => c

end SceneDebugger
