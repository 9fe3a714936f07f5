import SceneDebugger.Event
import SceneDebugger.Files.Disk

/-!
# SceneDebugger.Host — what surrounds the debugger

The disk, the queue of events for the user, and the log.
-/

namespace SceneDebugger

/-- How serious a record of the log is. -/
inductive Severity where
  | warning
  | error
  deriving DecidableEq, Repr

/-- A record of the log. -/
structure LogRecord where
  severity : Severity
  text : String
  deriving DecidableEq, Repr

/-- What surrounds the debugger. -/
structure Host where
  disk : Disk := {}
  /-- The events that the user did not take yet, the oldest first. -/
  events : List Event := []
  /-- The records of the log, the oldest first. -/
  log : List LogRecord := []

namespace Host

/-- The host with a further event. -/
def send (h : Host) (event : Event) : Host := { h with events := h.events ++ [event] }

/-- The host with a warning in the log. -/
def warn (h : Host) (text : String) : Host := { h with log := h.log ++ [⟨.warning, text⟩] }

/-- The host with an error in the log. -/
def complain (h : Host) (text : String) : Host := { h with log := h.log ++ [⟨.error, text⟩] }

/-- The host with another disk. -/
def withDisk (h : Host) (disk : Disk) : Host := { h with disk }

end Host

end SceneDebugger
