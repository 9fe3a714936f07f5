import SceneDebugger.Script.Compiler

/-!
# SceneDebugger.Workspace.ScriptFile — what is known of a script file

A script file has a program, the texts of it that were loaded or saved last, and the source maps of
these texts.  The game may still run older bytes than the ROM holds: then the file is stale
(`FileFlags.ramMatches` is false), the source maps in `Marks.permanent` are those of the running
bytes, and the ones of the ROM's bytes wait in `Marks.temporary` for the next reload.

* `Marks.record`, `Marks.supersede`, `Marks.park`, `Marks.promote`: a map becomes known; the map of a
  new compilation replaces the waiting ones; the maps in use have to wait; the waiting maps become the
  ones in use.
* `ScriptFile.ramMap`: the map of the running bytes, of the EXPS text if there is one.
* `ScriptFile.outdated`, `ScriptFile.restored`, `ScriptFile.fresh`: a save while the game runs the
  script, a save state with older bytes, and the end of being stale.
-/

namespace SceneDebugger

/-! ### Marks -/

/-- The source maps of one compilation, by text. -/
structure MapPair (M : Type := SourceMap) where
  ssbs : Option M := none
  exps : Option M := none
  deriving DecidableEq

namespace MapPair

variable {M : Type}

/-- The map of a text. -/
def get (p : MapPair M) : View → Option M
  | .ssbs => p.ssbs
  | .exps => p.exps

/-- The pair with the map of a text. -/
def set (p : MapPair M) (view : View) (m : M) : MapPair M :=
  match view with
  | .ssbs => { p with ssbs := some m }
  | .exps => { p with exps := some m }

/-- The pair with one map. -/
def only (view : View) (m : M) : MapPair M := ({} : MapPair M).set view m

/-- The map that positions are looked up in: of the EXPS text if there is one. -/
def shown? (p : MapPair M) : Option (View × M) :=
  match p.exps with
  | some m => some (.exps, m)
  | none => p.ssbs.map fun m => (.ssbs, m)

end MapPair

/-- The source maps of a file. -/
structure Marks (M : Type := SourceMap) where
  /-- The maps of the bytes that the game runs. -/
  permanent : MapPair M := {}
  /-- The maps of later bytes, which the next reload puts in use. -/
  temporary : Option (MapPair M) := none
  deriving DecidableEq

namespace Marks

variable {M : Type}

/-- The maps of the last compilation. -/
def latest (m : Marks M) : MapPair M := m.temporary.getD m.permanent

/-- The marks with a map of the last compilation. -/
def record (m : Marks M) (view : View) (map : M) : Marks M :=
  match m.temporary with
  | some waiting => { m with temporary := some (waiting.set view map) }
  | none => { m with permanent := m.permanent.set view map }

/-- The marks with the map of a new compilation, the only one that waits. -/
def supersede (m : Marks M) (view : View) (map : M) : Marks M :=
  { m with temporary := some (MapPair.only view map) }

/-- The marks with the maps in use waiting, and none in use. -/
def park (m : Marks M) : Marks M := { permanent := {}, temporary := some m.permanent }

/-- The marks with the waiting maps in use. -/
def promote (m : Marks M) : Marks M :=
  match m.temporary with
  | some waiting => { permanent := waiting, temporary := none }
  | none => m

end Marks

/-! ### Files -/

/-- What goes on with a file. -/
structure FileFlags where
  inEditor : Bool := false
  /-- The game holds the file. -/
  inGround : Bool := false
  /-- The game does not run older bytes than the ROM holds. -/
  ramMatches : Bool := true
  /-- Breakpoints are off because the file is stale. -/
  breakpointsOff : Bool := false
  deriving DecidableEq, Repr

/-- An SSBS text. -/
structure SsbsText where
  text : String
  sourceMap : SourceMap
  deriving DecidableEq

/-- An EXPS text. -/
structure ExpsText where
  text : String
  sourceMap : SourceMap
  path : Path
  /-- The hash of the bytes that the text was compiled to. -/
  hash : String
  deriving DecidableEq

/-- A script file. -/
structure ScriptFile where
  name : String
  program : Program
  /-- The hash of the bytes in the ROM. -/
  hash : String
  ssbs : Option SsbsText := none
  exps : Option ExpsText := none
  flags : FileFlags := {}
  marks : Marks := {}
  deriving DecidableEq

namespace ScriptFile

/-- Breakpoints of the file are in force. -/
def isBreakable (f : ScriptFile) : Bool := !f.flags.breakpointsOff

/-- The map of the running bytes, with the text that it belongs to. -/
def ramMap (f : ScriptFile) : Option (View × SourceMap) := f.marks.permanent.shown?

/-- The file open in an editor, or not. -/
def inEditor (f : ScriptFile) (value : Bool) : ScriptFile :=
  { f with flags := { f.flags with inEditor := value } }

/-- The file held by the game, or not. -/
def inGround (f : ScriptFile) (value : Bool) : ScriptFile :=
  { f with flags := { f.flags with inGround := value } }

/-- The file whose running bytes are older than the ROM's. -/
def outdated (f : ScriptFile) : ScriptFile :=
  if f.flags.ramMatches then
    { f with
      flags := { f.flags with ramMatches := false }
      marks := { f.marks with temporary := some (f.marks.temporary.getD {}) } }
  else f

/-- The file that a save state replaced by older bytes: the maps in use are those of the ROM. -/
def restored (f : ScriptFile) : ScriptFile :=
  { f with
    flags := { f.flags with ramMatches := false, breakpointsOff := true }
    marks := if f.flags.ramMatches then f.marks.park else f.marks }

/-- The file that is stale no more. -/
def fresh (f : ScriptFile) : ScriptFile :=
  { f with flags := { f.flags with ramMatches := true, breakpointsOff := false } }

/-- The file after a compilation of a text was written to the ROM.  Its map waits for the next
reload. -/
def recompiled (f : ScriptFile) (view : View) (program : Program) (map : SourceMap)
    (hash : String) : ScriptFile :=
  let f := if f.flags.inGround then f.outdated else f
  { f with marks := f.marks.supersede view map, program, hash }

/-- The file with an SSBS text that was loaded. -/
def withSsbs (f : ScriptFile) (text : SsbsText) : ScriptFile :=
  { f with ssbs := some text, marks := f.marks.record .ssbs text.sourceMap }

/-- The file with an EXPS text that was loaded. -/
def withExps (f : ScriptFile) (text : ExpsText) : ScriptFile :=
  { f with exps := some text, marks := f.marks.record .exps text.sourceMap }

end ScriptFile

end SceneDebugger
