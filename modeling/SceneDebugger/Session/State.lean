import SceneDebugger.Controller
import SceneDebugger.EngineLayout
import SceneDebugger.Ground.Tracker
import SceneDebugger.Machine.State
import SceneDebugger.Reload
import SceneDebugger.Settings

/-!
# SceneDebugger.Session.State — a debugging session

A `Session` joins the parts of the debugger: the script files in use, the breakpoints, what the game
holds, the controller and the switches, over a machine whose hooks it owns.
-/

namespace SceneDebugger

/-- A debugging session. -/
structure Session where
  settings : Settings := {}
  layout : EngineLayout := {}
  workspace : Workspace
  breakpoints : Breakpoints
  ground : Ground := {}
  controller : Controller := {}
  switches : Switches := {}
  /-- The routine table of the shared script, 0 before the game loads it. -/
  sharedTable : UInt32 := 0
  machine : Machine := {}
  /-- The hooks of the session. -/
  hooks : List Nat := []
  /-- The handlers that are to run once the halted script goes on. -/
  waiting : List Handler := []

namespace Session

/-- A new session over a machine, a ROM and the project in a directory.  Nothing is hooked yet. -/
def start (settings : Settings) (layout : EngineLayout) (machine : Machine) (compiler : Compiler)
    (rom : Rom) (host : Host) (root : Path) (romName : String) : Session :=
  let (project, host) := Project.load host root romName
  let (breakpoints, host) := Breakpoints.load host project.breakpointsPath
  { settings, layout, machine, breakpoints
    workspace := { compiler, rom, project, host }
    controller := { enabled := settings.breakpointsEnabled, boost := settings.boost }
    switches := { debugMode := settings.debugMode } }

/-! ### Parts -/

/-- The session with an operation done on its workspace. -/
def onWorkspace {α : Type} (s : Session) (f : Workspace → α × Workspace) : α × Session :=
  let (a, workspace) := f s.workspace
  (a, { s with workspace })

/-- The session with an operation done on its breakpoints. -/
def onBreakpoints (s : Session) (f : Breakpoints → Host → Breakpoints × Host) : Session :=
  let (breakpoints, host) := f s.breakpoints s.workspace.host
  { s with breakpoints, workspace := { s.workspace with host } }

/-- The session with an operation done on what the game holds. -/
def onGround (s : Session) (f : Ground → Workspace → Ground × Workspace) : Session :=
  let (ground, workspace) := f s.ground s.workspace
  { s with ground, workspace }

/-- The session with a further event for the user. -/
def send (s : Session) (event : Event) : Session := { s with workspace := s.workspace.send event }

/-- The session with a register of the machine set. -/
def setRegister (s : Session) (r : UInt8) (value : UInt32) : Session :=
  { s with machine := s.machine.setRegister r value }

/-- The hooks are registered. -/
def isDebugging (s : Session) : Bool := !s.hooks.isEmpty

/-- The routine table of the shared script, looked up if it can be read. -/
def refreshSharedTable (s : Session) : Session :=
  match s.machine.memory.word? s.layout.addresses.sharedPointer with
  | .ok table => { s with sharedTable := table }
  | .error _ => s

end Session

end SceneDebugger
