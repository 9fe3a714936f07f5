import SceneDebugger.Machine.Memory
import SceneDebugger.Switches
import Std.Data.ExtTreeMap.Lemmas

/-!
# SceneDebugger.Machine.State — the emulated machine and its hooks

A `Machine` has memory, sixteen registers, the variables of the script engine and a frame counter.
A hook runs a handler of the debugger when execution reaches an address or when bytes at an address
were written (`Trigger`).  Hooks run in the order of their registration.

* `Machine.hook` refuses the addresses that the machine cannot hook.
* `Machine.handlersAt`, `Machine.handlersOfWrite`: what an event of the machine runs.
* `Machine.perform`: a call that drives the frames of the machine, which is recorded.
-/

namespace SceneDebugger

/-! ### Hooks -/

/-- What a hook waits for. -/
inductive Trigger where
  /-- Execution reaches the address. -/
  | execution (address : UInt32)
  /-- Some of the `size` bytes at the address were written. -/
  | write (address : UInt32) (size : Nat)
  deriving DecidableEq, Repr

/-- The address that a hook is registered for. -/
def Trigger.address : Trigger → UInt32
  | .execution address => address
  | .write address _ => address

/-- One line that tells what a hook waits for. -/
def Trigger.describe : Trigger → String
  | .execution address => "exec " ++ Text.address address
  | .write address size => "write " ++ Text.address address ++ "+" ++ Text.decimal size

/-- What the debugger does when a hook runs. -/
inductive Handler where
  /-- The script engine is about to run an opcode. -/
  | opcode
  /-- The address of the script shared by all scenes was written. -/
  | sharedScript
  /-- A script file is loaded. -/
  | scriptLoad
  /-- A scene that announces the load of a script. -/
  | sceneLoad
  /-- A talk script that announces the load of a script. -/
  | talkLoad
  | groundStart
  | groundQuit
  | mapChange
  /-- The game prints; the register has the format. -/
  | print (register : UInt8)
  /-- A script prints. -/
  | scriptPrint
  /-- The game asks for a flag. -/
  | flagQuestion (bank : FlagBank)
  /-- The game gets the answer for the flag. -/
  | flagAnswer (bank : FlagBank)
  /-- The game sets a flag. -/
  | flagChange (bank : FlagBank)
  /-- The game asks whether the debug mode is on. -/
  | debugMode
  deriving DecidableEq, Repr

/-- A hook to be registered. -/
structure HookRequest where
  trigger : Trigger
  handler : Handler
  deriving DecidableEq, Repr

/-- A registered hook. -/
structure Hook extends HookRequest where
  id : Nat
  deriving DecidableEq, Repr

/-- The hook runs when execution reaches an address. -/
def Hook.runsAt (address : UInt32) (h : Hook) : Bool :=
  match h.trigger with
  | .execution a => a == address
  | .write _ _ => false

/-- The hook runs when the byte at an address was written. -/
def Hook.runsOnWrite (address : UInt32) (h : Hook) : Bool :=
  match h.trigger with
  | .execution _ => false
  | .write a size => a.toNat ≤ address.toNat && address.toNat < a.toNat + size

/-! ### The machine -/

/-- A call that drives the machine. -/
inductive FrameCall where
  | pause
  | resume
  | cycle
  deriving DecidableEq, Repr

/-- The emulated machine. -/
structure Machine where
  memory : Memory := {}
  registers : Vector UInt32 16 := Vector.replicate 16 0
  /-- The variables of the script engine. -/
  gameVariables : Std.ExtTreeMap UInt16 Int32 := ∅
  hooks : List Hook := []
  /-- The id of the next hook. -/
  nextHook : Nat := 0
  /-- The addresses that cannot be hooked. -/
  refused : Std.ExtTreeSet UInt32 := ∅
  /-- The frames since the machine was switched on. -/
  tick : UInt64 := 0
  running : Bool := false
  /-- The calls so far; frames that follow each other while the machine runs are one entry. -/
  calls : List FrameCall := []

namespace Machine

/-! ### Registers and variables -/

/-- The value of a register; there is nothing in registers that the machine does not have. -/
def register (m : Machine) (r : UInt8) : UInt32 := (m.registers[r.toNat]?).getD 0

/-- The machine with a register set. -/
def setRegister (m : Machine) (r : UInt8) (value : UInt32) : Machine :=
  { m with registers := m.registers.setIfInBounds r.toNat value }

/-- An element of a variable of the script engine; every element has the value of the variable. -/
def variableAt? (m : Machine) (id element : UInt16) : Except String Int32 :=
  match m.gameVariables[id]? with
  | some value => .ok value
  | none => .error ("unknown game variable " ++ Text.decimal id.toNat ++ "["
      ++ Text.decimal element.toNat ++ "]")

/-! ### Registering hooks -/

/-- The machine with a further hook, and the id of it. -/
def hook (m : Machine) (request : HookRequest) : Except String (Nat × Machine) :=
  if m.refused.contains request.trigger.address then
    .error ("address " ++ Text.address request.trigger.address ++ " is not mapped")
  else
    .ok (m.nextHook, { m with
      hooks := m.hooks ++ [{ request with id := m.nextHook }], nextHook := m.nextHook + 1 })

/-- The machine without some hooks. -/
def unhook (m : Machine) (ids : List Nat) : Machine :=
  { m with hooks := m.hooks.filter fun h => !ids.contains h.id }

/-! ### Running hooks -/

/-- The handlers to run when execution reaches an address. -/
def handlersAt (m : Machine) (address : UInt32) : List Handler :=
  (m.hooks.filter (Hook.runsAt address)).map fun h => h.handler

/-- The handlers to run when the byte at an address was written. -/
def handlersOfWrite (m : Machine) (address : UInt32) : List Handler :=
  (m.hooks.filter (Hook.runsOnWrite address)).map fun h => h.handler

/-! ### Frames -/

/-- The machine after a call that drives it. -/
def perform (m : Machine) : FrameCall → Machine
  | .pause => { m with running := false, calls := m.calls ++ [.pause] }
  | .resume => { m with running := true, calls := m.calls ++ [.resume] }
  | .cycle =>
    { m with
      tick := m.tick + 1
      calls := if m.running ∧ m.calls.getLast? = some .cycle then m.calls
        else m.calls ++ [.cycle] }

end Machine

end SceneDebugger
