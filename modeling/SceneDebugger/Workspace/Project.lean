import SceneDebugger.Failure
import SceneDebugger.Host
import SceneDebugger.Source.Storage

/-!
# SceneDebugger.Workspace.Project — the directory of a project

A project keeps the EXPS texts of scripts with files beside them, shared text files and the state of
the debugger.  Beside the text `STEM.exps` of a script there are `STEM.hash` with the hash of the
bytes that the text was last compiled to, `STEM.inclusion.json` with the files that it calls, and
`STEM.sourcemap.json` with its source map.

The include index tells for a shared file which scripts call it (`Project.dependents`).  It is held
in memory and written whenever it changes.  Every file is written whole or not at all.
-/

namespace SceneDebugger

/-- A project. -/
structure Project where
  root : Path
  romName : String
  /-- The include index: for a shared file, the scripts that call it. -/
  usage : PathMap (Std.ExtTreeSet String) := ∅

namespace Project

/-! ### Paths -/

/-- Where shared text files are. -/
def macrosDirectory (p : Project) : Path := p.root.child "Macros"

/-- Where the state of the debugger is. -/
def debuggerDirectory (p : Project) : Path := p.root.child "debugger"

/-- The file with the breakpoints. -/
def breakpointsPath (p : Project) : Path :=
  p.debuggerDirectory.child (p.romName ++ ".breakpoints.json")

/-- The file with the ground state that belongs to a save state. -/
def saveStatePath (p : Project) (slot : UInt32) : Path :=
  p.debuggerDirectory.child (p.romName ++ ".save." ++ Text.decimal slot.toNat ++ ".ge.json")

/-- A file beside a script's text. -/
def sidecar (p : Project) (file extension : String) : Path :=
  (p.root.child file).withExtension extension

/-- The file with a script's EXPS text. -/
def expsPath (p : Project) (file : String) : Path := p.sidecar file "exps"

/-- The file with the source map of a script's EXPS text. -/
def mapPath (p : Project) (file : String) : Path := p.sidecar file "sourcemap.json"

/-- The file with the hash of the bytes that a script's EXPS text was compiled to. -/
def hashPath (p : Project) (file : String) : Path := p.sidecar file "hash"

/-- The file with the files that a script's EXPS text calls. -/
def inclusionPath (p : Project) (file : String) : Path := p.sidecar file "inclusion.json"

/-- The file with the include index. -/
def usagePath (p : Project) : Path := p.debuggerDirectory.child "include_usage.json"

/-- The directories that are searched for the files that a script's EXPS text calls. -/
def searchPath (p : Project) (file : String) : List Path :=
  (p.expsPath file).parent?.toList ++ [p.macrosDirectory]

/-! ### Writing -/

/-- A file written whole; `what` names it in the failure. -/
def store (d : Disk) (what : String) (path : Path) (text : String) : Except Failure Unit × Disk :=
  match d.replace path text with
  | (.ok (), d) => (.ok (), d)
  | (.error fault, d) => (.error ⟨"write " ++ what ++ " " ++ path.text, fault.message⟩, d)

/-- A step on the disk, and a further one if it succeeds. -/
def andThen (first : Except Failure Unit × Disk) (next : Disk → Except Failure Unit × Disk) :
    Except Failure Unit × Disk :=
  match first with
  | (.ok (), d) => next d
  | (.error e, d) => (.error e, d)

/-! ### EXPS texts -/

/-- The script has an EXPS text. -/
def hasExps (p : Project) (d : Disk) (file : String) : Bool := d.isFile (p.expsPath file)

/-- The source map of a script's EXPS text; empty if its file cannot be read. -/
def loadMap (p : Project) (d : Disk) (file : String) : Except Failure SourceMap :=
  match d.read (p.mapPath file) with
  | .error _ => .ok {}
  | .ok text =>
    match SourceMap.restore? text with
    | some m => .ok m
    | none => .error ⟨"parse source map " ++ (p.mapPath file).text, "not a source map"⟩

/-- A script's EXPS text and its source map. -/
def loadExps (p : Project) (d : Disk) (file : String) : Except Failure (String × SourceMap) :=
  match d.read (p.expsPath file) with
  | .error fault => .error ⟨"read EXPS source " ++ (p.expsPath file).text, fault.message⟩
  | .ok text => (p.loadMap d file).map fun m => (text, m)

/-- A script's EXPS text and its source map written. -/
def saveExps (p : Project) (d : Disk) (file text : String) (m : SourceMap) :
    Except Failure Unit × Disk :=
  andThen (store d "EXPS source" (p.expsPath file) text) fun d =>
    store d "source map" (p.mapPath file) m.store

/-- The hash that is recorded for a script's EXPS text, without blanks around it, is the given one. -/
def hashIs (p : Project) (d : Disk) (file hash : String) : Bool :=
  match d.read (p.hashPath file) with
  | .ok text => String.ofList (Text.trim text.toList) == hash
  | .error _ => false

/-- The hash recorded for a script's EXPS text. -/
def saveHash (p : Project) (d : Disk) (file hash : String) : Except Failure Unit × Disk :=
  store d "hash" (p.hashPath file) hash

/-! ### Called files -/

/-- The files that a script's EXPS text called when it was last saved. -/
def inclusions (p : Project) (d : Disk) (file : String) : PathSet :=
  match d.read (p.inclusionPath file) with
  | .ok text => ((Json.parse? text).bind PathSet.ofJson?).getD ∅
  | .error _ => ∅

/-- The files that a script's EXPS text calls, written. -/
def saveInclusions (p : Project) (d : Disk) (file : String) (included : PathSet) :
    Except Failure Unit × Disk :=
  store d "inclusion list" (p.inclusionPath file) included.toJson.pretty

/-- A shared text file written. -/
def saveMacro (d : Disk) (path : Path) (text : String) : Except Failure Unit × Disk :=
  store d "macro" path text

/-! ### The include index -/

/-- The scripts that call a shared file, in order. -/
def dependents (p : Project) (path : Path) : List String :=
  ((p.usage.at? path).map Std.ExtTreeSet.toList).getD []

/-- The include index in a document. -/
def usageJson (usage : PathMap (Std.ExtTreeSet String)) : Json :=
  .obj [("used_by", .obj (usage.pairs.map fun (path, users) =>
    (path.text, Json.ofStrings users.toList)))]

/-- The scripts that a document lists. -/
def usersOfJson? (j : Json) : Option (Std.ExtTreeSet String) :=
  (j.asList? Json.asString?).map fun users => Std.ExtTreeSet.ofList users

/-- The include index that a document describes. -/
def usageOfJson? (j : Json) : Option (PathMap (Std.ExtTreeSet String)) := do
  match ← j.parts? ["used_by"] with
  | [usedBy] => Json.part? (fun j =>
      (j.asFields? (some ∘ Path.mk) usersOfJson?).map PathMap.ofPairs) ∅ usedBy
  | _ => none

/-- The include index written. -/
def storeUsage (p : Project) (d : Disk) : Except Failure Unit × Disk :=
  store d "include index" p.usagePath (usageJson p.usage).pretty

/-- The include index with a script that calls a shared file. -/
def addUser (usage : PathMap (Std.ExtTreeSet String)) (path : Path) (file : String) :
    PathMap (Std.ExtTreeSet String) :=
  usage.put path (((usage.at? path).getD ∅).insert file)

/-- The include index without a script that called a shared file. -/
def removeUser (usage : PathMap (Std.ExtTreeSet String)) (path : Path) (file : String) :
    PathMap (Std.ExtTreeSet String) :=
  match usage.at? path with
  | none => usage
  | some users =>
    if (users.erase file).isEmpty then usage.without path else usage.put path (users.erase file)

/-- The project that notes that a script calls a shared file. -/
def addUsage (p : Project) (d : Disk) (path : Path) (file : String) :
    Except Failure Unit × Project × Disk :=
  let p := { p with usage := addUser p.usage path file }
  let (result, d) := p.storeUsage d
  (result, p, d)

/-- The project that notes that a script calls a shared file no more. -/
def removeUsage (p : Project) (d : Disk) (path : Path) (file : String) :
    Except Failure Unit × Project × Disk :=
  let p := { p with usage := removeUser p.usage path file }
  let (result, d) := p.storeUsage d
  (result, p, d)

/-- The project with several notes taken, up to the first that cannot be written. -/
def noteAll (note : Project → Disk → Path → String → Except Failure Unit × Project × Disk)
    (file : String) : List Path → Project → Disk → Except Failure Unit × Project × Disk
  | [], p, d => (.ok (), p, d)
  | path :: rest, p, d =>
    match note p d path file with
    | (.ok (), p, d) => noteAll note file rest p d
    | (.error e, p, d) => (.error e, p, d)

/-- The project after a script's EXPS text was compiled: the index follows what the text calls now,
and the called files are written last. -/
def updateUsage (p : Project) (d : Disk) (file : String) (included : PathSet) :
    Except Failure Unit × Project × Disk :=
  let before := p.inclusions d file
  match noteAll removeUsage file (before.minus included) p d with
  | (.error e, p, d) => (.error e, p, d)
  | (.ok (), p, d) =>
    match noteAll addUsage file (included.minus before) p d with
    | (.error e, p, d) => (.error e, p, d)
    | (.ok (), p, d) =>
      let (result, d) := p.saveInclusions d file included
      (result, p, d)

/-! ### Opening -/

/-- The project in a directory.  An include index that cannot be understood is dropped. -/
def load (h : Host) (root : Path) (romName : String) : Project × Host :=
  let empty : Project := { root, romName }
  match h.disk.read empty.usagePath with
  | .error _ => (empty, h)
  | .ok text =>
    match (Json.parse? text).bind usageOfJson? with
    | some usage => ({ empty with usage }, h)
    | none =>
      (empty, h.warn ("Ignoring corrupt include index " ++ Text.quote empty.usagePath.text
        ++ ": not an index"))

end Project

end SceneDebugger
