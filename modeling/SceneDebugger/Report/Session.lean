import SceneDebugger.Json.Whole
import SceneDebugger.Report.Files
import SceneDebugger.Session.State

/-!
# SceneDebugger.Report.Session — a session as a front end sees it

The document names every script file that is in the ROM, in use by the game, or in the stored
breakpoints, each once and in the order of the names.
-/

namespace SceneDebugger

/-- A call that drives the machine. -/
def FrameCall.report : FrameCall → Json
  | .pause => .str "pause"
  | .resume => .str "resume"
  | .cycle => .str "cycle"

/-- The controller is halted or not. -/
def Controller.report (c : Controller) : Json := .str (if c.isStopped then "stopped" else "running")

namespace Session

/-- The stored text of the breakpoints, empty if it cannot be read. -/
def storedBreakpoints (s : Session) : String :=
  match s.workspace.host.disk.read s.breakpoints.path with
  | .ok text => text
  | .error _ => ""

/-- The files that the stored breakpoints name, if these are a document that can be kept whole. -/
def storedNames (s : Session) : List String :=
  match (Json.parse? s.storedBreakpoints).filter Json.isWhole with
  | some (.obj fields _) => fields.map Prod.fst
  | _ => []

/-- The script files that the session has to do with. -/
def fileNames (s : Session) : List String :=
  (Std.ExtTreeSet.ofList
    (s.workspace.rom.files.keys ++ s.ground.files ++ s.storedNames)).toList

/-- A script file: its breakpoints, the ones that wait for a reload, and what is known of it. -/
def reportFile (s : Session) (name : String) : Json :=
  .arr [.str name, reportOffsets (s.breakpoints.offsets name),
    .ofOption reportOffsets (s.breakpoints.pendingOffsets? name),
    .ofOption ScriptFile.report (s.workspace.file? name)]

/-- A session. -/
def report (s : Session) : Json :=
  .obj [("controller", s.controller.report), ("debugging", .bool s.isDebugging),
    ("enabled", .bool s.controller.enabled), ("boost", .bool s.controller.boost),
    ("ground", s.ground.snapshot.toJson), ("files", .ofList s.reportFile s.fileNames),
    ("transient", .ofList StepTarget.report s.breakpoints.stepTargets),
    ("unionall", .word s.sharedTable), ("breakpoint_file", .str s.storedBreakpoints),
    ("rom_saves", .nat s.workspace.rom.saves), ("tick", .nat s.machine.tick.toNat)]

end Session

end SceneDebugger
