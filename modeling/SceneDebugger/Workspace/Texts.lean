import SceneDebugger.Workspace.Files

/-!
# SceneDebugger.Workspace.Texts — loading and saving the texts of scripts

A text is loaded from where it is held, else from the project, else by writing the program down.
Saving a text compiles it and writes the ROM first; if that fails nothing has changed.  After it the
script file follows the ROM, whatever becomes of the files of the project.

* `Workspace.loadSsbs`, `Workspace.loadExps`: the texts of a script.
* `Workspace.saveSsbs`, `Workspace.saveExps`: a script saved from one of its texts.  Its breakpoints
  have still to follow (`SaveOutcome`).
* `Workspace.saveMacro`: a shared file saved, and the scripts that call it compiled anew.
-/

namespace SceneDebugger

/-- What to do about an EXPS text in the project. -/
inductive ExpsLoadMode where
  /-- Load it only if it was compiled to the bytes in the ROM. -/
  | strict
  /-- Replace it by the program written down. -/
  | decompile
  /-- Load it, and record it as compiled to the bytes in the ROM. -/
  | trustText
  deriving DecidableEq, Repr

/-- What a save has changed. -/
structure SaveOutcome where
  file : String
  view : View
  /-- The game does not hold the file, so the new version can be used at once. -/
  ready : Bool
  /-- The map of the text before the save. -/
  previousMap : Option SourceMap
  newMap : SourceMap
  hash : String
  /-- The files that the text calls. -/
  included : PathSet := ∅

/-- What became of a script that calls a saved shared file. -/
inductive MacroOutcome where
  | recompiled (outcome : SaveOutcome)
  /-- Its EXPS text was not compiled to the bytes in the ROM. -/
  | skippedStale (file : String)
  | failed (file : String) (error : String)

namespace Workspace

/-! ### Loading -/

/-- The SSBS text of a script. -/
def loadSsbs (w : Workspace) (name : String) : Except Error SsbsText × Workspace :=
  match w.get name with
  | (.error e, w) => (.error e, w)
  | (.ok f, w) =>
    match f.ssbs with
    | some text => (.ok text, w)
    | none =>
      match w.compiler.decompileSsbs f.program with
      | .error e => (.error (.other e), w)
      | .ok (text, sourceMap) =>
        let text : SsbsText := { text, sourceMap }
        (.ok text, w.put (f.withSsbs text))

/-- The EXPS text in the project, which is made to count as compiled to the bytes in the ROM if it
does not yet and the mode asks for that. -/
def expsOnDisk (w : Workspace) (f : ScriptFile) (mode : ExpsLoadMode) :
    Except Error (String × SourceMap) × Workspace :=
  let load (w : Workspace) : Except Error (String × SourceMap) × Workspace :=
    ((w.project.loadExps w.host.disk f.name).mapError Error.ofFailure, w)
  if w.project.hashIs w.host.disk f.name f.hash then load w
  else if mode = .strict then (.error (.staleMapping f.name), w)
  else
    let w := w.warn ("Loading stale EXPS text of " ++ f.name ++ " on request")
    match w.project.saveHash w.host.disk f.name f.hash with
    | (.error e, d) => (.error (.ofFailure e), w.withDisk d)
    | (.ok (), d) => load (w.withDisk d)

/-- The program of a script written down as EXPS text and put into the project. -/
def expsFromProgram (w : Workspace) (f : ScriptFile) :
    Except Error (String × SourceMap) × Workspace :=
  match w.compiler.decompileExps f.program with
  | .error e => (.error (.other e), w)
  | .ok (text, sourceMap) =>
    match Project.andThen (w.project.saveExps w.host.disk f.name text sourceMap) fun d =>
        w.project.saveHash d f.name f.hash with
    | (.error e, d) => (.error (.ofFailure e), w.withDisk d)
    | (.ok (), d) => (.ok (text, sourceMap), w.withDisk d)

/-- The EXPS text of a script. -/
def loadExps (w : Workspace) (name : String) (mode : ExpsLoadMode) :
    Except Error ExpsText × Workspace :=
  match w.get name with
  | (.error e, w) => (.error e, w)
  | (.ok f, w) =>
    match if mode = .strict then f.exps else none with
    | some text => (.ok text, w)
    | none =>
      match if w.project.hasExps w.host.disk name ∧ mode ≠ .decompile then w.expsOnDisk f mode
          else w.expsFromProgram f with
      | (.error e, w) => (.error e, w)
      | (.ok (text, sourceMap), w) =>
        let text : ExpsText := { text, sourceMap, path := w.project.expsPath name, hash := f.hash }
        (.ok text, w.put (f.withExps text))

/-! ### Saving -/

/-- The program of a script written to the ROM, and the hash of its bytes. -/
def writeProgram (w : Workspace) (name : String) (p : Program) :
    Except Error String × Workspace :=
  match w.compiler.encode p with
  | .error e => (.error (.other e), w)
  | .ok bytes =>
    match w.rom.write name bytes with
    | .error e => (.error (.other e), w)
    | .ok rom =>
      match rom.save with
      | .error e => (.error (.other e), { w with rom })
      | .ok rom => (.ok (Sha256.hex bytes), { w with rom })

/-- What saving a script from a text has changed, given the file before. -/
def outcome (f : ScriptFile) (view : View) (c : Compilation) (hash : String) : SaveOutcome :=
  { file := f.name
    view
    ready := !f.flags.inGround
    previousMap := f.marks.latest.get view
    newMap := c.sourceMap
    hash
    included := match view with
      | .ssbs => ∅
      | .exps => c.included }

/-- A script saved from its SSBS text; there is no EXPS text of it then. -/
def saveSsbs (w : Workspace) (name text : String) : Except Error SaveOutcome × Workspace :=
  match w.get name with
  | (.error e, w) => (.error e, w)
  | (.ok f, w) =>
    match w.compiler.compileSsbs text with
    | .error e => (.error (.compile e), w)
    | .ok c =>
      match w.writeProgram name c.program with
      | (.error e, w) => (.error e, w)
      | (.ok hash, w) =>
        let held : SsbsText := { text, sourceMap := c.sourceMap }
        (.ok (outcome f .ssbs c hash), w.put { f.recompiled .ssbs c.program c.sourceMap hash with
          ssbs := some held, exps := none })

/-- The files of the project that belong to a script's EXPS text, written after it was compiled. -/
def writeSidecars (w : Workspace) (name text hash : String) (c : Compilation) :
    Except Failure Unit × Workspace :=
  match Project.andThen (w.project.saveExps w.host.disk name text c.sourceMap) fun d =>
      w.project.saveHash d name hash with
  | (.error e, d) => (.error e, w.withDisk d)
  | (.ok (), d) =>
    match w.project.updateUsage d name c.included with
    | (result, project, d) => (result, { w with project, host := w.host.withDisk d })

/-- The files of the project that belong to a script's EXPS text, written if that is possible. -/
def tryWriteSidecars (w : Workspace) (name text hash : String) (c : Compilation) : Workspace :=
  match w.writeSidecars name text hash c with
  | (.ok (), w) => w
  | (.error e, w) =>
    (w.warn ("Saved " ++ name ++ " but its EXPS sidecar files are out of date: " ++ e.context)).send
      (.warning (name ++ " was saved but its EXPS files could not be written: " ++ e.context))

/-- A script saved from its EXPS text; there is no SSBS text of it then. -/
def saveExps (w : Workspace) (name text : String) : Except Error SaveOutcome × Workspace :=
  match w.get name with
  | (.error e, w) => (.error e, w)
  | (.ok f, w) =>
    match w.compiler.compileExps w.host.disk (w.project.searchPath name) text with
    | .error e => (.error (.compile e), w)
    | .ok c =>
      match w.writeProgram name c.program with
      | (.error e, w) => (.error e, w)
      | (.ok hash, w) =>
        let held : ExpsText :=
          { text, sourceMap := c.sourceMap, path := w.project.expsPath name, hash }
        (.ok (outcome f .exps c hash),
          (w.tryWriteSidecars name text hash c).put
            { f.recompiled .exps c.program c.sourceMap hash with ssbs := none, exps := some held })

/-! ### Shared files -/

/-- A script that calls a saved shared file, compiled anew from its EXPS text in the project. -/
def recompile (w : Workspace) (path : Path) (name : String) :
    Except Error MacroOutcome × Workspace :=
  match w.hash name with
  | (.error e, w) => (.error e, w)
  | (.ok hash, w) =>
    if w.project.hashIs w.host.disk name hash then
      match w.project.loadExps w.host.disk name with
      | .error e => (.error (.ofFailure e), w)
      | .ok (text, _) =>
        match w.saveExps name text with
        | (.error e, w) => (.error e, w)
        | (.ok outcome, w) => (.ok (.recompiled outcome), w)
    else
      (.ok (.skippedStale name), w.warn ("Not recompiling " ++ name ++ " after editing "
        ++ Text.quote path.text ++ ": its EXPS text is out of date"))

/-- A script compiled anew, or why it was not. -/
def tryRecompile (w : Workspace) (path : Path) (name : String) : MacroOutcome × Workspace :=
  match w.recompile path name with
  | (.ok outcome, w) => (outcome, w)
  | (.error e, w) =>
    (.failed name e.message, { w with host := w.host.complain ("Recompiling " ++ name
      ++ " after editing " ++ Text.quote path.text ++ " failed: " ++ e.message) })

/-- Scripts compiled anew, one after the other. -/
def recompileAll (path : Path) : List String → Workspace → List MacroOutcome × Workspace
  | [], w => ([], w)
  | name :: rest, w =>
    let (outcome, w) := w.tryRecompile path name
    let (outcomes, w) := recompileAll path rest w
    (outcome :: outcomes, w)

/-- A shared file saved, and the given scripts that call it compiled anew. -/
def saveMacro (w : Workspace) (path : Path) (text : String) (dependents : List String) :
    Except Error (List MacroOutcome) × Workspace :=
  match Project.saveMacro w.host.disk path text with
  | (.error e, d) => (.error (.ofFailure e), w.withDisk d)
  | (.ok (), d) =>
    let (outcomes, w) := recompileAll path dependents (w.withDisk d)
    (.ok outcomes, w)

end Workspace

end SceneDebugger
