import SceneDebugger.Digest.Sha256
import SceneDebugger.Workspace.Project
import SceneDebugger.Workspace.Rom
import SceneDebugger.Workspace.ScriptFile

/-!
# SceneDebugger.Workspace.Files — the script files in use

A `Workspace` holds the script files that the user or the game has touched, together with where they
come from: the ROM, the compiler, the project and the host around them.  A file is read from the ROM
when it is first asked for and stays in use from then on.

* `Workspace.fetch`, `Workspace.insertIfAbsent`, `Workspace.get`: the two halves of asking for a
  file, and both together.
* `Workspace.enterGround`, `Workspace.leaveGround`, `Workspace.markRestored`: the game takes a file,
  drops it, or runs older bytes of it after a save state.  A stale file that the game takes anew or
  drops is stale no more, and its reload is requested.
* `Workspace.asksToClose`, `Workspace.finishClose`: an editor is closed around a question to the user.
* `Workspace.applyReload`: the waiting maps of a file that is not stale are put in use.
-/

namespace SceneDebugger

/-- The script files in use, with what they come from. -/
structure Workspace where
  compiler : Compiler
  rom : Rom := {}
  project : Project
  host : Host := {}
  files : Std.ExtTreeMap String ScriptFile := ∅

namespace Workspace

/-! ### Asking for files -/

/-- The file, if it is in use. -/
def file? (w : Workspace) (name : String) : Option ScriptFile := w.files[name]?

/-- The workspace with a file as it is now. -/
def put (w : Workspace) (f : ScriptFile) : Workspace := { w with files := w.files.insert f.name f }

/-- The workspace with a further event for the user. -/
def send (w : Workspace) (event : Event) : Workspace := { w with host := w.host.send event }

/-- The workspace with a warning in the log. -/
def warn (w : Workspace) (text : String) : Workspace := { w with host := w.host.warn text }

/-- The workspace with another disk. -/
def withDisk (w : Workspace) (disk : Disk) : Workspace := { w with host := w.host.withDisk disk }

/-- A file as the ROM has it. -/
def fetch (w : Workspace) (name : String) : Except Error ScriptFile :=
  match w.rom.read name with
  | .error e => .error (.other e)
  | .ok none => .error (.notFound name)
  | .ok (some bytes) =>
    match w.compiler.decode bytes with
    | .error e => .error (.other e)
    | .ok program => .ok { name, program, hash := Sha256.hex bytes }

/-- The workspace with a file that was read, unless one of the name is in use meanwhile. -/
def insertIfAbsent (w : Workspace) (f : ScriptFile) : Workspace :=
  if w.files.contains f.name then w else w.put f

/-- The file, read from the ROM if it is not in use. -/
def get (w : Workspace) (name : String) : Except Error ScriptFile × Workspace :=
  match w.file? name with
  | some f => (.ok f, w)
  | none =>
    match w.fetch name with
    | .error e => (.error e, w)
    | .ok f => (.ok f, w.insertIfAbsent f)

/-- A value of the file. -/
def ask {α : Type} (w : Workspace) (name : String) (value : ScriptFile → α) :
    Except Error α × Workspace :=
  match w.get name with
  | (.error e, w) => (.error e, w)
  | (.ok f, w) => (.ok (value f), w)

/-- The hash of the file's bytes. -/
def hash (w : Workspace) (name : String) : Except Error String × Workspace :=
  w.ask name ScriptFile.hash

/-! ### What is known of files in use -/

/-- Breakpoints of the file are in force; they are for files not in use. -/
def isBreakable (w : Workspace) (name : String) : Bool :=
  (w.file? name).all ScriptFile.isBreakable

/-- The game does not run older bytes of the file. -/
def ramMatches (w : Workspace) (name : String) : Bool :=
  (w.file? name).all fun f => f.flags.ramMatches

/-- The map of the running bytes that belongs to a text. -/
def activeMap? (w : Workspace) (name : String) (view : View) : Option SourceMap :=
  (w.file? name).bind fun f => f.marks.permanent.get view

/-! ### Editors -/

/-- The file is opened in an editor. -/
def openEditor (w : Workspace) (name : String) : Except Error Unit × Workspace :=
  match w.get name with
  | (.error e, w) => (.error e, w)
  | (.ok f, w) => (.ok (), w.put (f.inEditor true))

/-- The user has to confirm before the editor of the file is closed. -/
def asksToClose (w : Workspace) (name : String) : Bool :=
  (w.file? name).any fun f => !f.flags.ramMatches

/-- The file whose editor is closed: if it is stale, its breakpoints are off. -/
def closed (f : ScriptFile) : ScriptFile :=
  { f with flags := { f.flags with
      inEditor := false, breakpointsOff := !f.flags.ramMatches || f.flags.breakpointsOff } }

/-- The editor of the file is closed, after the user was asked if that was needed. -/
def finishClose (w : Workspace) (name : String) : Workspace :=
  match w.file? name with
  | none => w
  | some f => w.put (closed f)

/-! ### The game -/

/-- A reload of the file is requested. -/
def requestReload (w : Workspace) (name : String) : Workspace := w.send (.reloadRequested name)

/-- A file that was held or dropped by the game is stale no more. -/
def refresh (w : Workspace) (f : ScriptFile) : Workspace :=
  if f.flags.ramMatches then w.put f.fresh else (w.put f.fresh).requestReload f.name

/-- The game holds the file. -/
def enterGround (w : Workspace) (name : String) : Except Error Unit × Workspace :=
  match w.get name with
  | (.error e, w) => (.error e, w)
  | (.ok f, w) =>
    if f.flags.inGround then (.ok (), w.put (f.inGround true))
    else (.ok (), w.refresh (f.inGround true))

/-- The game holds the file no more. -/
def leaveGround (w : Workspace) (name : String) : Workspace :=
  match w.file? name with
  | none => w
  | some f => w.refresh (f.inGround false)

/-- A save state made the game run older bytes of the file. -/
def markRestored (w : Workspace) (name : String) : Except Error Unit × Workspace :=
  match w.get name with
  | (.error e, w) => (.error e, w)
  | (.ok f, w) => (.ok (), w.put f.restored)

/-- The waiting maps of the file are put in use, unless it is stale; and whether they were. -/
def applyReload (w : Workspace) (name : String) : Bool × Workspace :=
  match w.file? name with
  | none => (false, w)
  | some f =>
    if f.flags.ramMatches then (true, w.put { f with marks := f.marks.promote }) else (false, w)

end Workspace

end SceneDebugger
