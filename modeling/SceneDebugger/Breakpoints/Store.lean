import SceneDebugger.Breakpoints.StepTarget
import SceneDebugger.Failure
import SceneDebugger.Host
import SceneDebugger.Json.Complaint

/-!
# SceneDebugger.Breakpoints.Store — breakpoints by file and offset

`Breakpoints.primary` are the breakpoints of the bytes that the game runs.  Those of a later
compilation of a stale file wait in `Breakpoints.pending` until the file is reloaded.  The file of
the store holds both together (`Breakpoints.merged`), so that a crash loses none of them.

Whoever keeps a view of the primary breakpoints learns each change of them
(`Breakpoints.announced`): an offset added or removed, or a file to be looked at anew.  Step targets
live beside the breakpoints; they are not stored.
-/

namespace SceneDebugger

/-- Offsets by file. -/
abbrev OffsetMap := Std.ExtTreeMap String (Std.ExtTreeSet UInt32)

namespace OffsetMap

/-- The offsets of a file. -/
def offsets (m : OffsetMap) (file : String) : Std.ExtTreeSet UInt32 := (m[file]?).getD ∅

/-- The map with the offsets of a file replaced; a file without offsets is left out. -/
def replace (m : OffsetMap) (file : String) (offsets : Std.ExtTreeSet UInt32) : OffsetMap :=
  if offsets.isEmpty then m.erase file else m.insert file offsets

/-- The map with a further offset of a file. -/
def add (m : OffsetMap) (file : String) (offset : UInt32) : OffsetMap :=
  m.insert file ((m.offsets file).insert offset)

/-- The map without an offset of a file. -/
def remove (m : OffsetMap) (file : String) (offset : UInt32) : OffsetMap :=
  m.replace file ((m.offsets file).erase offset)

/-- The offsets of either map. -/
def union (m n : OffsetMap) : OffsetMap :=
  n.foldl (fun m file more => m.insert file ((m.offsets file).insertMany more.toList)) m

/-- Offsets by file in a document. -/
def toJson (m : OffsetMap) : Json :=
  Json.ofMap id (fun offsets => Json.ofList Json.word offsets.toList) m

/-- The set of offsets that a document lists. -/
def offsetsOfJson? (j : Json) : Option (Std.ExtTreeSet UInt32) :=
  (j.asList? Json.asWord?).map fun offsets => Std.ExtTreeSet.ofList offsets

/-- The offsets by file that a document describes. -/
def ofJson? (j : Json) : Option OffsetMap := j.asMap? some offsetsOfJson?

/-- The offsets by file that a text describes, or why it describes none. -/
def ofText (text : String) : Except String OffsetMap :=
  match (Json.parse? text).bind ofJson? with
  | some m => .ok m
  | none => .error (((Json.checkMap (Json.checkList Json.checkWord)).complaint text).message text)

end OffsetMap

/-- A change of the primary breakpoints of a file. -/
inductive BreakpointChange where
  | added (offset : UInt32)
  | removed (offset : UInt32)
  /-- The breakpoints have to be looked at anew. -/
  | replaced
  deriving DecidableEq, Repr

/-- The breakpoints of a session. -/
structure Breakpoints where
  path : Path
  primary : OffsetMap := ∅
  pending : OffsetMap := ∅
  stepTargets : List StepTarget := []
  /-- The changes that were announced, the oldest first. -/
  announced : List (String × BreakpointChange) := []

namespace Breakpoints

/-! ### Asking -/

/-- A breakpoint is in force for the bytes that the game runs. -/
def contains (b : Breakpoints) (file : String) (offset : UInt32) : Bool :=
  (b.primary.offsets file).contains offset

/-- The breakpoints in force for the bytes that the game runs. -/
def offsets (b : Breakpoints) (file : String) : Std.ExtTreeSet UInt32 := b.primary.offsets file

/-- The breakpoints of the last compilation. -/
def latestOffsets (b : Breakpoints) (file : String) : Std.ExtTreeSet UInt32 :=
  (b.pending[file]?).getD (b.primary.offsets file)

/-- The breakpoints that wait for a reload of the file. -/
def pendingOffsets? (b : Breakpoints) (file : String) : Option (Std.ExtTreeSet UInt32) :=
  b.pending[file]?

/-- The script halts at an opcode: there is a breakpoint, which counts only for files that are
breakable, or a step ends. -/
def has (b : Breakpoints) (isBreakable : Bool) (hit : OpcodeHit) : Bool :=
  (b.contains hit.file hit.offset && isBreakable) || b.stepTargets.any fun t => t.accepts hit

/-! ### Writing -/

/-- The breakpoints in force and the waiting ones together. -/
def merged (b : Breakpoints) : OffsetMap := b.primary.union b.pending

/-- The words for a file of breakpoints that could not be written. -/
def notStored (b : Breakpoints) (fault : Fault) : String :=
  (Error.persistence (b.path.text ++ ": " ++ fault.message)).message

/-- The file of the breakpoints written.  A failure is reported and otherwise has no effect. -/
def persist (b : Breakpoints) (h : Host) : Host :=
  match h.disk.replace b.path b.merged.toJson.pretty with
  | (.ok (), d) => h.withDisk d
  | (.error fault, d) =>
    ((h.withDisk d).warn (b.notStored fault)).send (.warning (b.notStored fault))

/-- A change of the primary breakpoints announced. -/
def announce (b : Breakpoints) (h : Host) (file : String) (change : BreakpointChange) :
    Breakpoints × Host :=
  ({ b with announced := b.announced ++ [(file, change)] }, h.send (.breakpointsChanged file))

/-- Breakpoints that were changed, written and announced. -/
def commit (b : Breakpoints) (h : Host) (file : String) (change : BreakpointChange) :
    Breakpoints × Host :=
  b.announce (b.persist h) file change

/-! ### Changing -/

/-- The store with a breakpoint. -/
def add (b : Breakpoints) (h : Host) (file : String) (offset : UInt32) : Breakpoints × Host :=
  if b.contains file offset then (b, h)
  else { b with primary := b.primary.add file offset }.commit h file (.added offset)

/-- The store without a breakpoint. -/
def remove (b : Breakpoints) (h : Host) (file : String) (offset : UInt32) : Breakpoints × Host :=
  if b.contains file offset then
    { b with primary := b.primary.remove file offset }.commit h file (.removed offset)
  else ({ b with primary := b.primary.replace file (b.offsets file) }, h)

/-- The store with a breakpoint set or cleared, whichever changes it; and whether it is set now. -/
def toggle (b : Breakpoints) (h : Host) (file : String) (offset : UInt32) :
    Bool × Breakpoints × Host :=
  if b.contains file offset then (false, b.remove h file offset)
  else (true, b.add h file offset)

/-- The store with the breakpoints of a new compilation of a file.  They are in force at once if the
game does not run older bytes, else they wait. -/
def resync (b : Breakpoints) (h : Host) (ramMatches : Bool) (file : String)
    (offsets : Std.ExtTreeSet UInt32) : Breakpoints × Host :=
  if ramMatches then
    { b with primary := b.primary.replace file offsets, pending := b.pending.erase file }.commit
      h file .replaced
  else
    let b := { b with pending := b.pending.insert file offsets }
    (b, b.persist h)

/-- The store after a file was reloaded: the waiting breakpoints are in force. -/
def onReload (b : Breakpoints) (h : Host) (file : String) : Breakpoints × Host :=
  match b.pending[file]? with
  | none => (b, h)
  | some offsets =>
    { b with primary := b.primary.replace file offsets, pending := b.pending.erase file }.commit
      h file .replaced

/-! ### Steps -/

/-- The store with a further step target. -/
def addStepTarget (b : Breakpoints) (t : StepTarget) : Breakpoints :=
  { b with stepTargets := b.stepTargets ++ [t] }

/-- The store with no step on its way. -/
def clearSteps (b : Breakpoints) : Breakpoints := { b with stepTargets := [] }

/-! ### Loading -/

/-- What a file of breakpoints holds, or why it cannot be used. -/
def read (d : Disk) (path : Path) : Except String OffsetMap :=
  match d.read path with
  | .error fault => .error fault.message
  | .ok text => OffsetMap.ofText text

/-- The store of a file.  A file that is missing or cannot be used counts as empty, the latter with
a warning. -/
def load (h : Host) (path : Path) : Breakpoints × Host :=
  match read h.disk path with
  | .ok primary => ({ path, primary }, h)
  | .error reason =>
    if h.disk.exists? path then
      ({ path },
        (h.warn ("Ignoring breakpoint file " ++ Text.quote path.text ++ ": " ++ reason)).send
          (.warning ("Breakpoints could not be loaded: " ++ reason)))
    else ({ path }, h)

end Breakpoints

end SceneDebugger
