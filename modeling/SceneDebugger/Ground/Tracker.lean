import SceneDebugger.Ground.Snapshot
import SceneDebugger.Script.Context
import SceneDebugger.Workspace.Files

/-!
# SceneDebugger.Ground.Tracker — which scripts the game holds

The game holds scripts in `hangerCount` places.  A scene or a talk script announces the place that
the next script is loaded into; without an announcement that is place 0.  Every file that enters or
leaves the places is reported to the workspace, so that the files flagged as held by the game are the
ones in the places.

* `Ground.loadScript`, `Ground.loadScene`, `Ground.loadTalk`: the loads.
* `Ground.start`, `Ground.quit`, `Ground.changeMap`: the places are emptied; a change of the map
  leaves the shared script.
* `Ground.snapshot`, `Ground.restore`: what a save state keeps.  A restore finds the files whose
  bytes have changed since.
-/

namespace SceneDebugger

/-- What the game holds. -/
structure Ground where
  running : Bool := false
  slots : Vector (Option LoadedScript) hangerCount := Vector.replicate hangerCount none
  /-- The scenes, by place. -/
  scenes : Vector (Option String) (lastSceneHanger + 1) :=
    Vector.replicate (lastSceneHanger + 1) none
  /-- The place that was announced for the next script. -/
  pending : Option Nat := none
  deriving DecidableEq

namespace Ground

/-! ### Asking -/

/-- The script in a place. -/
def scriptIn? (g : Ground) (hanger : Nat) : Option LoadedScript := g.slots[hanger]?.join

/-- The scene in a place. -/
def sceneIn? (g : Ground) (hanger : Nat) : Option String := g.scenes[hanger]?.join

/-- The scripts in the places, in their order. -/
def loaded (g : Ground) : List LoadedScript := g.slots.toList.filterMap id

/-- The files in the places, in their order. -/
def files (g : Ground) : List String := g.loaded.map LoadedScript.file

/-- A file is in some place. -/
def holds (g : Ground) (file : String) : Bool := g.files.contains file

/-- The files in the places, each once, in the order of their names. -/
def loadedFiles (g : Ground) : List String := (Std.ExtTreeSet.ofList g.files).toList

/-! ### Leaving places -/

/-- A file that left a place is reported, unless another place still has it. -/
def release (g : Ground) (w : Workspace) (file : String) : Workspace :=
  if g.holds file then w else w.leaveGround file

/-- Files that left their places are reported. -/
def releaseAll (g : Ground) (w : Workspace) (files : List String) : Workspace :=
  files.foldl g.release w

/-- The tracker with empty places; the shared script can stay.  Announcements are forgotten. -/
def emptied (g : Ground) (keepShared running : Bool) : Ground :=
  let empty : Ground := { running }
  if keepShared then { empty with slots := empty.slots.set 0 g.slots[0] } else empty

/-- The files in the places that are emptied. -/
def dropped (g : Ground) (keepShared : Bool) : List String :=
  if keepShared then ((g.slots.toList.drop 1).filterMap id).map LoadedScript.file else g.files

/-- The places are emptied. -/
def reset (g : Ground) (w : Workspace) (keepShared running : Bool) : Ground × Workspace :=
  let next := g.emptied keepShared running
  (next, next.releaseAll w (g.dropped keepShared))

/-- The ground engine starts. -/
def start (g : Ground) (w : Workspace) : Ground × Workspace :=
  let (g, w) := g.reset w false true
  (g, w.send .groundStarted)

/-- The ground engine stops. -/
def quit (g : Ground) (w : Workspace) : Ground × Workspace :=
  let (g, w) := g.reset w false false
  (g, w.send .groundQuit)

/-- The map changes. -/
def changeMap (g : Ground) (w : Workspace) : Ground × Workspace :=
  let (g, w) := g.reset w true true
  (g, w.send .mapChanged)

/-! ### Announcements -/

/-- The place for the next script is announced. -/
def announce (g : Ground) (w : Workspace) (hanger : Nat) : Ground × Workspace :=
  let w :=
    match g.pending with
    | none => w
    | some before =>
      if before = hanger then w
      else w.warn ("SSB load target " ++ Text.decimal before ++ " overwritten by "
        ++ Text.decimal hanger ++ " before any SSB was loaded")
  ({ g with pending := some hanger }, w)

/-- A scene is loaded, which announces its place. -/
def loadScene (g : Ground) (w : Workspace) (hanger : Nat) (name : String) : Ground × Workspace :=
  if hanger ≤ lastSceneHanger then
    let (g, w) := { g with scenes := g.scenes.setIfInBounds hanger (some name) }.announce w hanger
    (g, w.send (.sceneLoaded hanger name))
  else
    (g, w.warn ("Ignoring load of " ++ name ++ " into invalid SSX hanger " ++ Text.decimal hanger))

/-- The place of the talk script for a hanger. -/
def talkPlace (hanger : Nat) : Nat :=
  if hanger ≤ lastSceneHanger then hanger + talkHangerShift else hanger

/-- A talk script announces its place. -/
def loadTalk (g : Ground) (w : Workspace) (hanger : Nat) : Ground × Workspace :=
  let (g, w) := g.announce w (talkPlace hanger)
  (g, w.send (.talkLoaded hanger))

/-! ### Loading scripts -/

/-- A file is reported as held by the game.  A file that cannot be read is held all the same. -/
def enter (w : Workspace) (file : String) : Workspace :=
  match w.enterGround file with
  | (.ok (), w) => w
  | (.error e, w) =>
    w.warn ("Loaded " ++ file ++ " is not known to the cache: " ++ e.message)

/-- The hash of a file, empty if it cannot be read. -/
def hashOf (w : Workspace) (file : String) : String × Workspace :=
  match w.hash file with
  | (.ok hash, w) => (hash, w)
  | (.error _, w) => ("", w)

/-- A script is put into a place. -/
def place (g : Ground) (w : Workspace) (slot : Nat) (file : String) : Ground × Workspace :=
  let (hash, w) := hashOf (enter w file) file
  let next := { g with slots := g.slots.setIfInBounds slot (some { file, hash }) }
  let w :=
    match g.scriptIn? slot with
    | none => w
    | some before => next.release w before.file
  (next, w.send (.scriptLoaded slot file))

/-- A script is loaded into the announced place. -/
def loadScript (g : Ground) (w : Workspace) (file : String) : Ground × Workspace :=
  let slot := g.pending.getD 0
  let g := { g with pending := none }
  if slot < hangerCount then g.place w slot file
  else
    (g, w.warn ("Discarding load of " ++ file ++ " into invalid hanger " ++ Text.decimal slot))

/-! ### Save states -/

/-- What a save state keeps. -/
def snapshot (g : Ground) : GroundSnapshot :=
  { running := g.running, scripts := g.slots.toList, scenes := g.scenes.toList
    pending := g.pending }

/-- The tracker that a snapshot describes; what is beyond the places is left out. -/
def ofSnapshot (s : GroundSnapshot) : Ground :=
  { running := s.running
    slots := Vector.ofFn fun i => s.scripts[i.val]?.join
    scenes := Vector.ofFn fun i => s.scenes[i.val]?.join
    pending := s.pending }

/-- A script that a save state put into a place is reported; if its bytes have changed since, it is
stale. -/
def restoreScript (stale : List String) (w : Workspace) (script : LoadedScript) :
    List String × Workspace :=
  match w.enterGround script.file with
  | (.error e, w) =>
    (stale, w.warn ("Restored " ++ script.file ++ " is not known to the cache: " ++ e.message))
  | (.ok (), w) =>
    let (hash, w) := hashOf w script.file
    if hash = script.hash ∨ script.file ∈ stale then (stale, w)
    else
      match w.markRestored script.file with
      | (.ok (), w) => (stale ++ [script.file], w)
      | (.error e, w) =>
        (stale ++ [script.file],
          w.warn ("Could not mark " ++ script.file ++ " as stale: " ++ e.message))

/-- Several scripts that a save state put into places. -/
def restoreScripts (w : Workspace) (scripts : List LoadedScript) : List String × Workspace :=
  scripts.foldl (fun (stale, w) script => restoreScript stale w script) ([], w)

/-- The user is told about stale files. -/
def reportStale (w : Workspace) (stale : List String) : Workspace :=
  if stale = [] then w
  else
    let names := ", ".intercalate stale
    (w.warn ("Save state runs outdated scripts: " ++ names)).send
      (.warning ("The save state was created with older versions of: " ++ names
        ++ ". Breakpoints in these files are disabled until they are reloaded."))

/-- A save state is loaded: the tracker that its snapshot describes, and the files that have changed
since. -/
def restore (g : Ground) (w : Workspace) (s : GroundSnapshot) : List String × Ground × Workspace :=
  let next := ofSnapshot s
  let w := (g.files.filter fun file => !next.holds file).foldl Workspace.leaveGround w
  let (stale, w) := restoreScripts w next.loaded
  (stale, next, reportStale w stale)

end Ground

end SceneDebugger
