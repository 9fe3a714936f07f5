import SceneDebugger.Machine.State

/-!
# SceneDebugger.Machine.FrameLoop — the loop that drives the frames

The loop waits for commands.  While the machine runs it does not wait but looks for a command between
frames, so a frame more or less may pass before a command is seen: an `Arrival` says how often the
loop looks in vain before the command is there.  The loop ends with the command to shut down, or when
no command can come any more.

* `FrameLoop.calls`: the calls that the loop makes.
* `FrameLoop.run`: the machine after them.
-/

namespace SceneDebugger.FrameLoop

/-- A command to the loop. -/
inductive Command where
  | run
  | pause
  /-- One frame, then no more. -/
  | stepFrame
  | shutdown
  deriving DecidableEq, Repr

/-- A command, and how often the loop looks for it in vain while the machine runs. -/
structure Arrival where
  command : Command
  idle : Nat := 0
  deriving DecidableEq, Repr

/-- The calls that a command leads to at once, and whether the machine runs afterwards; none if it
ends the loop. -/
def Command.effect? : Command → Option (List FrameCall × Bool)
  | .run => some ([.resume, .cycle], true)
  | .pause => some ([.pause], false)
  | .stepFrame => some ([.pause, .cycle], false)
  | .shutdown => none

/-- The frames that pass while the loop looks for a command in vain. -/
def idleCalls (running : Bool) (idle : Nat) : List FrameCall :=
  if running then List.replicate idle .cycle else []

/-- The calls of a loop that is running or not, for the arrivals to come. -/
def calls : Bool → List Arrival → List FrameCall
  | _, [] => []
  | running, a :: rest =>
    idleCalls running a.idle ++
      match a.command.effect? with
      | none => []
      | some (now, running) => now ++ calls running rest

/-- The machine after a loop was started on it, got its commands and was shut down. -/
def run (m : Machine) (arrivals : List Arrival) : Machine :=
  (calls false arrivals).foldl Machine.perform m

end SceneDebugger.FrameLoop
