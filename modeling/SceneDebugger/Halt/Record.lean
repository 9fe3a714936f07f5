import SceneDebugger.Halt.Place

/-!
# SceneDebugger.Halt.Record — a script halted by the debugger

A `HaltRecord` is shared by the two sides of a halt: the emulator's side waits on it, the user's side
releases it with a decision.  The first release counts (`HaltRecord.release`), later ones change
nothing.  Watchers registered before the emulator's side wakes up learn the decision, in the order of
registration (`HaltRecord.wake?`).
-/

namespace SceneDebugger

/-- A halted script. -/
structure HaltRecord where
  context : ScriptContext
  place : HaltPlace
  /-- The decision of the release. -/
  decision : Option Decision := none
  /-- The watchers of the release, by number. -/
  watchers : List Nat := []
  deriving DecidableEq

namespace HaltRecord

/-- The halt of a script at a place. -/
def start (context : ScriptContext) (place : HaltPlace) : HaltRecord := { context, place }

/-- The halt was released. -/
def isReleased (h : HaltRecord) : Bool := h.decision.isSome

/-- One line that tells where the halt is. -/
def describe (h : HaltRecord) : String :=
  match h.place.position with
  | some (line, column) =>
    h.place.file ++ " (" ++ Text.decimal line.toNat ++ ":" ++ Text.decimal column.toNat ++ ") "
      ++ h.context.describe
  | none => h.place.file ++ " " ++ h.context.describe

/-- The offset and address of the halted opcode, then those at which its caller goes on. -/
def stack (h : HaltRecord) : List (UInt32 × UInt32) :=
  (h.context.offset, h.context.address)
    :: (h.context.caller.map fun f => (f.offset, f.address)).toList

/-- The halt shown inside the file called at its opcode, and whether a call was shown. -/
def descend (h : HaltRecord) : Bool × HaltRecord :=
  match h.place.descend? with
  | some place => (true, { h with place })
  | none => (false, h)

/-- The halt with a further watcher. -/
def watch (h : HaltRecord) (watcher : Nat) : HaltRecord :=
  { h with watchers := h.watchers ++ [watcher] }

/-- The halt released with a decision, and whether this release counted. -/
def release (h : HaltRecord) (d : Decision) : Bool × HaltRecord :=
  if h.isReleased then (false, h)
  else (true, { h with decision := some (h.place.resolve h.context d) })

/-- The emulator's side wakes up: the decision, the watchers that learn it, and the halt without
them.  It stays asleep before the release. -/
def wake? (h : HaltRecord) : Option (Decision × List Nat × HaltRecord) :=
  h.decision.map fun d => (d, h.watchers, { h with watchers := [] })

/-- What the log says about a release that does not count. -/
def alreadyReleased (h : HaltRecord) : String :=
  "Halt " ++ h.describe ++ " was already released"

end HaltRecord

end SceneDebugger
