import SceneDebugger.Workspace.Project

/-!
# SceneDebugger.Ground.Snapshot — ground states that belong to save states

A `GroundSnapshot` is written beside a save state of the game.  It tells which scripts the game held,
with the hashes of their bytes, so that a restore can find those that have changed since.
-/

namespace SceneDebugger

/-- A script that the game holds. -/
structure LoadedScript where
  file : String
  /-- The hash of the file when the game loaded it. -/
  hash : String
  deriving DecidableEq, Repr

/-- What the game held when it was saved. -/
structure GroundSnapshot where
  running : Bool := false
  scripts : List (Option LoadedScript) := []
  scenes : List (Option String) := []
  /-- The place that the next script is loaded into. -/
  pending : Option Nat := none
  deriving DecidableEq, Repr

/-- A held script in a document. -/
def LoadedScript.toJson (s : LoadedScript) : Json := .arr [.str s.file, .str s.hash]

/-- The held script that a document describes. -/
def LoadedScript.ofJson? (j : Json) : Option LoadedScript :=
  (j.asPair? Json.asString? Json.asString?).map fun (file, hash) => { file, hash }

namespace GroundSnapshot

/-- A snapshot in a document. -/
def toJson (s : GroundSnapshot) : Json :=
  .obj [("running", .bool s.running),
    ("ssbs", Json.ofList (Json.ofOption LoadedScript.toJson) s.scripts),
    ("ssxs", Json.ofList (Json.ofOption Json.str) s.scenes),
    ("load_ssb_for", Json.ofOption Json.nat s.pending)]

/-- The snapshot that a document describes. -/
def ofJson? (j : Json) : Option GroundSnapshot := do
  match ← j.parts? ["running", "ssbs", "ssxs", "load_ssb_for"] with
  | [running, scripts, scenes, pending] =>
    return {
      running := ← Json.needed? Json.asBool? running
      scripts := ← Json.needed? (Json.asList? (Json.asOption? LoadedScript.ofJson?)) scripts
      scenes := ← Json.needed? (Json.asList? (Json.asOption? Json.asString?)) scenes
      pending := ← Json.part? (Json.asOption? Json.asIndex?) none pending }
  | _ => none

/-- The snapshot in a file. -/
def load (d : Disk) (p : Path) : Except Failure GroundSnapshot :=
  match d.read p with
  | .error fault => .error ⟨"read ground state " ++ p.text, fault.message⟩
  | .ok text =>
    match (Json.parse? text).bind ofJson? with
    | some s => .ok s
    | none => .error ⟨"parse ground state " ++ p.text, "not a ground state"⟩

/-- The snapshot written to a file. -/
def save (s : GroundSnapshot) (d : Disk) (p : Path) : Except Failure Unit × Disk :=
  Project.store d "ground state" p s.toJson.pretty

end GroundSnapshot

end SceneDebugger
