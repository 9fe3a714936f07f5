import SceneDebugger.Session.State

/-!
# SceneDebugger.Session.Halting — opcodes, halts and decisions

The emulator's side of a halt goes in steps: an opcode is looked at (`Session.reachedOpcode?`), a halt
is raised (`Session.raise`), the emulator sleeps until the halt is released, wakes up
(`Session.wakeUp?`) and follows the decision.  The user's side has the current halt and releases it
(`Session.release`).
-/

namespace SceneDebugger.Session

/-! ### The emulator's side -/

/-- The script whose opcode can halt here, and the file that it belongs to. -/
def reachedOpcode? (s : Session) : Option (String × ScriptContext) :=
  if s.controller.boost then none
  else
    match ScriptContext.probe s.machine.memory (s.machine.register s.layout.registers.script)
        s.sharedTable with
    | .error _ => none
    | .ok c =>
      if s.controller.mayHalt s.machine.tick then
        (s.ground.scriptIn? c.hanger).map fun loaded => (loaded.file, c)
      else none

/-- A script of a file halts at its opcode without being forced to. -/
def hasBreakpoint (s : Session) (file : String) (c : ScriptContext) : Bool :=
  s.breakpoints.has (s.workspace.isBreakable file) (.of file c)

/-- The halt of a script of a file, shown with the map of the running bytes. -/
def haltOf (s : Session) (file : String) (c : ScriptContext) : HaltRecord :=
  .start c (.of file c.offset ((s.workspace.file? file).bind ScriptFile.ramMap))

/-- The session with a script halted: no step is on its way any more, and the user is told. -/
def raise (s : Session) (file : String) (c : ScriptContext) : Session :=
  let halt := s.haltOf file c
  { s with
    breakpoints := s.breakpoints.clearSteps
    controller := { s.controller with halt := some halt }
    workspace := s.workspace.send (.halted halt) }

/-- The session after an opcode was looked at, which may have halted the script. -/
def onOpcode (s : Session) : Session :=
  match s.reachedOpcode? with
  | none => s
  | some (file, c) =>
    let forced := s.controller.forced
    let s := { s with controller := s.controller.askedForce }
    if forced || s.hasBreakpoint file c then s.raise file c else s

/-- The session after a decision about a halted script. -/
def follow (s : Session) (d : Decision) (c : ScriptContext) : Session :=
  { s with
    controller := s.controller.follow d s.machine.tick
    breakpoints := (d.stepTargets c).foldl Breakpoints.addStepTarget s.breakpoints }

/-- The emulator's side wakes up from a released halt and follows the decision; with the decision,
and the watchers of the halt that learn it. -/
def wakeUp? (s : Session) : Option (Decision × List Nat × Session) := do
  let halt ← s.controller.halt
  let (d, watchers, halt) ← halt.wake?
  let awake := { s with controller := { s.controller with halt := none } }
  return (d, watchers, awake.follow d halt.context)

/-! ### The user's side -/

/-- An event that tells of a halt, which has changed. -/
def shownAs (before after : HaltRecord) (event : Event) : Event :=
  if event = .halted before then .halted after else event

/-- The session whose current halt has changed.  The events that tell of the halt show it as it is
now; an earlier halt at the same place differs from it by having been released. -/
def changeHalt (s : Session) (before after : HaltRecord) : Session :=
  let host := s.workspace.host
  { s with
    controller := { s.controller with halt := some after }
    workspace := { s.workspace with
      host := { host with events := host.events.map (shownAs before after) } } }

/-- The current halt released, and whether there was one to release. -/
def release (s : Session) (d : Decision) : Bool × Session :=
  match s.controller.halt with
  | none => (false, s)
  | some halt =>
    match halt.release d with
    | (true, next) => (true, s.changeHalt halt next)
    | (false, _) => (false, { s with workspace := s.workspace.warn halt.alreadyReleased })

/-- The current halt shown inside the file called at its opcode, and whether a call was shown; none
if no script is halted. -/
def descend (s : Session) : Option Bool × Session :=
  match s.controller.halt with
  | none => (none, s)
  | some halt =>
    let (moved, next) := halt.descend
    (some moved, s.changeHalt halt next)

/-- The current halt with a further watcher. -/
def watch (s : Session) (watcher : Nat) : Session :=
  match s.controller.halt with
  | none => s
  | some halt => s.changeHalt halt (halt.watch watcher)

end SceneDebugger.Session
