import SceneDebugger.Host

/-!
# SceneDebugger.Settings — the user's settings

Settings are stored as pretty JSON.  A missing field has its default; a file that cannot be read or
understood counts as missing, the latter with a warning.
-/

namespace SceneDebugger

/-- Which records a log shows. -/
inductive LogThreshold where
  | off
  | error
  | warning
  | info
  | debug
  | trace
  deriving DecidableEq, Repr

namespace LogThreshold

/-- The name of a threshold. -/
def name : LogThreshold → String
  | .off => "OFF"
  | .error => "ERROR"
  | .warning => "WARN"
  | .info => "INFO"
  | .debug => "DEBUG"
  | .trace => "TRACE"

/-- Every threshold. -/
def all : List LogThreshold := [.off, .error, .warning, .info, .debug, .trace]

/-- The threshold of a name in upper or lower case. -/
def ofName? (text : String) : Option LogThreshold :=
  all.find? fun t => t.name == String.ofList (text.toList.map Char.toUpper)

end LogThreshold

/-- The user's settings. -/
structure Settings where
  breakpointsEnabled : Bool := true
  /-- Opcodes are not looked at. -/
  boost : Bool := false
  debugMode : Bool := false
  /-- The milliseconds after which the user's side looks for events. -/
  pollInterval : UInt64 := 33
  logLevel : String := "info"
  /-- Closing an editor over a stale script is confirmed first. -/
  confirmCloseStale : Bool := true
  deriving DecidableEq, Repr

namespace Settings

/-- The records that the log shows; a name that is not known stands for `info`. -/
def threshold (s : Settings) : LogThreshold := (LogThreshold.ofName? s.logLevel).getD .info

/-! ### In documents -/

/-- Settings in a document. -/
def toJson (s : Settings) : Json :=
  .obj [("breakpoints_enabled", .bool s.breakpointsEnabled), ("boost", .bool s.boost),
    ("debug_mode", .bool s.debugMode), ("poll_interval_ms", .nat s.pollInterval.toNat),
    ("log_level", .str s.logLevel), ("confirm_close_stale", .bool s.confirmCloseStale)]

/-- The settings that a document describes. -/
def ofJson? (j : Json) : Option Settings := do
  match ← j.parts? ["breakpoints_enabled", "boost", "debug_mode", "poll_interval_ms", "log_level",
      "confirm_close_stale"] with
  | [enabled, boost, debugMode, interval, level, confirm] =>
    return {
      breakpointsEnabled := ← Json.part? Json.asBool? true enabled
      boost := ← Json.part? Json.asBool? false boost
      debugMode := ← Json.part? Json.asBool? false debugMode
      pollInterval := ← Json.part? Json.asWord64? 33 interval
      logLevel := ← Json.part? Json.asString? "info" level
      confirmCloseStale := ← Json.part? Json.asBool? true confirm }
  | _ => none

/-! ### On disk -/

/-- Where the settings are, below the directory for the settings of programs. -/
def homePath : Path := ⟨"skytemple-ssb-debugger/config.json"⟩

/-- The settings in a file. -/
def load (h : Host) (p : Path) : Settings × Host :=
  match h.disk.read p with
  | .error _ => ({}, h)
  | .ok text =>
    match (Json.parse? text).bind ofJson? with
    | some s => (s, h)
    | none =>
      ({}, h.warn ("Ignoring invalid config " ++ Text.quote p.text ++ ": not the settings"))

/-- The settings written to a file, in a directory that is made if need be. -/
def save (s : Settings) (d : Disk) (p : Path) : Except Fault Unit × Disk :=
  d.put p s.toJson.pretty

end Settings

end SceneDebugger
