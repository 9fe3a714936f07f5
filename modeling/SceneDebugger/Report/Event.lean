import SceneDebugger.Host
import SceneDebugger.Report.Halt
import SceneDebugger.Report.Message

/-!
# SceneDebugger.Report.Event — events, errors and the log as a front end sees them

An event is an array of its name and its arguments, an error an object with its cause and its words.
-/

namespace SceneDebugger

/-! ### Events -/

/-- The name of a kind of printed text in a report. -/
def PrintKind.tag : PrintKind → String
  | .functions => "printfs"
  | .opcodes => "debug_print"

/-- The number of a bank of flags. -/
def FlagBank.number : FlagBank → Nat
  | .first => 1
  | .second => 2

/-- An event. -/
def Event.report : Event → Json
  | .halted halt => .arr [.str "halted", .str halt.describe]
  | .printed kind text => .arr [.str "debug_print", .str kind.tag, .str text]
  | .flagChanged bank flag value =>
    .arr [.str "debug_flag", .nat bank.number, .word flag, .bool value]
  | .groundStarted => .arr [.str "ground_started"]
  | .groundQuit => .arr [.str "ground_quit"]
  | .mapChanged => .arr [.str "map_changed"]
  | .scriptLoaded slot file => .arr [.str "ssb_loaded", .nat slot, .str file]
  | .sceneLoaded hanger name => .arr [.str "ssx_loaded", .nat hanger, .str name]
  | .talkLoaded hanger => .arr [.str "talk_loaded", .nat hanger]
  | .reloadRequested file => .arr [.str "reload_requested", .str file]
  | .fileReloaded file => .arr [.str "file_reloaded", .str file]
  | .breakpointsChanged file => .arr [.str "breakpoints_changed", .str file]
  | .warning text => .arr [.str "warning", .message text]

/-! ### Errors and the log -/

/-- The name of a cause. -/
def Error.cause : Error → String
  | .notFound _ => "NotFound"
  | .compile _ => "Compile"
  | .staleMapping _ => "StaleMapping"
  | .probe _ => "Probe"
  | .hookRegistration _ _ => "HookRegistration"
  | .persistence _ => "Persistence"
  | .other _ => "Other"

/-- The name of a kind of compile errors. -/
def CompileErrorKind.name : CompileErrorKind → String
  | .parse => "Parse"
  | .semantic => "Semantic"

/-- An error, with its place in the text if it is in one. -/
def Error.report (e : Error) : Json :=
  let place :=
    match e with
    | .compile c =>
      [("kind", .str c.kind.name), ("line", .word c.line), ("column", .word c.column)]
    | _ => []
  .obj ([("error", .str e.cause), ("message", .message e.message)] ++ place)

/-- The name of how serious a record of the log is. -/
def Severity.name : Severity → String
  | .warning => "WARN"
  | .error => "ERROR"

/-- A record of the log, with how serious it is. -/
def LogRecord.report (r : LogRecord) : Json := .arr [.str r.severity.name, .message r.text]

end SceneDebugger
