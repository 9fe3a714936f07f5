import Mathlib.Logic.Function.Basic
import SceneDebugger.Proofs.Workspace.Undone

/-!
# SceneDebugger.Proofs.Workspace.Threads — threads that share the script files

Several threads ask for script files, load texts of them and save them.  To ask for a file is three
steps: a look at the files in use, the file read from the ROM, and the file put in use unless another
thread was faster.  What concerns a file in use is done under its lock: a save writes the bytes, saves
the ROM, writes the files of the project and changes the file at last.

* `Workspace.Task`, `Workspace.Stage`: what a thread is to do, and how far it has come.
* `Threads.step`: the next step of a thread, which has to wait where another one holds the lock.
* `Threads.Move`, `Threads.run`: threads take steps in any order, and the surroundings change.
-/

namespace SceneDebugger

open Function

/-! ### Tasks -/

namespace Workspace

/-- What is done with a file under its lock. -/
inductive Work where
  | loadSsbs
  | loadExps (mode : ExpsLoadMode)
  | save (view : View) (text : String)

/-- What a thread wants a file for. -/
inductive Purpose where
  | ask
  | change (work : Work)
  /-- A shared file that the script calls was saved. -/
  | recompile (path : Path)

/-- Something to do with a file. -/
structure Task where
  name : String
  purpose : Purpose

/-- A compiled text, and the file that is saved from it. -/
structure Draft where
  file : ScriptFile
  view : View
  text : String
  compilation : Compilation

/-- How far a thread has come. -/
inductive Stage where
  | idle
  /-- The file was not in use. -/
  | absent (task : Task)
  /-- The file was read from the ROM. -/
  | fetched (f : ScriptFile) (task : Task)
  /-- The file is in use. -/
  | found (task : Task)
  /-- The hash of the file is known, which is to be compiled anew. -/
  | hashed (name digest : String) (path : Path)
  /-- The lock of the file is held, here and in the following stages. -/
  | holding (f : ScriptFile) (work : Work)
  | compiled (draft : Draft)
  /-- The bytes are in the ROM, which is not saved yet. -/
  | written (draft : Draft) (bytes : ByteArray)
  | flushed (draft : Draft) (digest : String)
  /-- The file is about to change. -/
  | changed (f : ScriptFile)

/-- The EXPS text of a script from the project or its program. -/
def expsText (w : Workspace) (f : ScriptFile) (mode : ExpsLoadMode) :
    Except Error (String × SourceMap) × Workspace :=
  if w.project.hasExps w.host.disk f.name ∧ mode ≠ .decompile then w.expsOnDisk f mode
  else w.expsFromProgram f

/-- The files of the project written for a saved draft, and the file as it is from then on. -/
def settle (w : Workspace) (d : Draft) (digest : String) : ScriptFile × Workspace :=
  let f := d.file.recompiled d.view d.compilation.program d.compilation.sourceMap digest
  match d.view with
  | .ssbs =>
    let held : SsbsText := { text := d.text, sourceMap := d.compilation.sourceMap }
    ({ f with ssbs := some held, exps := none }, w)
  | .exps =>
    let held : ExpsText :=
      { text := d.text, sourceMap := d.compilation.sourceMap
        path := w.project.expsPath d.file.name, hash := digest }
    ({ f with ssbs := none, exps := some held },
      w.tryWriteSidecars d.file.name d.text digest d.compilation)

theorem settle_name (w : Workspace) (d : Draft) (digest : String) :
    (w.settle d digest).1.name = d.file.name := by
  unfold settle
  split <;> simp

/-- What surrounds the files and the bytes in the ROM as in another workspace.  The project stays in its
directory, and whether the ROM can be saved stays. -/
def amid (w other : Workspace) : Workspace :=
  { other with
    files := w.files
    project := { other.project with root := w.project.root }
    rom := { other.rom with files := w.rom.files, saveFails := w.rom.saveFails } }

end Workspace

/-! ### Threads -/

open Workspace

/-- Threads that share the files of a workspace. -/
structure Threads (T : Type) where
  workspace : Workspace
  /-- Who holds the lock of a file. -/
  holder : String → Option T := fun _ => none
  stage : T → Stage := fun _ => .idle
  /-- What a thread has still to do. -/
  queue : T → List Task := fun _ => []

namespace Threads

variable {T : Type} [DecidableEq T]

/-- A thread goes on to another stage. -/
def become (s : Threads T) (t : T) (w : Workspace) (stage : Stage) : Threads T :=
  { s with workspace := w, stage := update s.stage t stage }

@[simp] theorem stage_become (s : Threads T) (t : T) (w : Workspace) (stage : Stage) :
    (s.become t w stage).stage t = stage := update_self ..

@[simp] theorem workspace_become (s : Threads T) (t : T) (w : Workspace) (stage : Stage) :
    (s.become t w stage).workspace = w := rfl

/-- A thread takes the lock of a file. -/
def take (s : Threads T) (t : T) (f : ScriptFile) (work : Work) : Threads T :=
  { s.become t s.workspace (.holding f work) with holder := update s.holder f.name (some t) }

/-- A thread gives the lock of a file back, and its task is over. -/
def release (s : Threads T) (t : T) (w : Workspace) (name : String) : Threads T :=
  { s.become t w .idle with holder := update s.holder name none }

@[simp] theorem stage_take (s : Threads T) (t : T) (f : ScriptFile) (work : Work) :
    (s.take t f work).stage t = .holding f work := update_self ..

@[simp] theorem stage_release (s : Threads T) (t : T) (w : Workspace) (name : String) :
    (s.release t w name).stage t = .idle := update_self ..

@[simp] theorem workspace_release (s : Threads T) (t : T) (w : Workspace) (name : String) :
    (s.release t w name).workspace = w := rfl

/-- The step of a thread that holds the lock of a file. -/
def work (s : Threads T) (t : T) (f : ScriptFile) : Work → Threads T
  | .loadSsbs =>
    match f.ssbs with
    | some _ => s.release t s.workspace f.name
    | none =>
      match s.workspace.compiler.decompileSsbs f.program with
      | .error _ => s.release t s.workspace f.name
      | .ok (text, sourceMap) =>
        s.become t s.workspace (.changed (f.withSsbs { text, sourceMap }))
  | .loadExps mode =>
    match if mode = .strict then f.exps else none with
    | some _ => s.release t s.workspace f.name
    | none =>
      match s.workspace.expsText f mode with
      | (.error _, w) => s.release t w f.name
      | (.ok (text, sourceMap), w) =>
        s.become t w (.changed (f.withExps
          { text, sourceMap, path := w.project.expsPath f.name, hash := f.hash }))
  | .save view text =>
    match s.workspace.compileText view f.name text with
    | .error _ => s.release t s.workspace f.name
    | .ok compilation => s.become t s.workspace (.compiled { file := f, view, text, compilation })

/-- The step of a thread for which the file is in use; it waits if the lock is not free. -/
def enter (s : Threads T) (t : T) (task : Task) : Threads T :=
  match task.purpose with
  | .ask => s.become t s.workspace .idle
  | purpose =>
    match s.holder task.name, s.workspace.file? task.name, purpose with
    | none, some f, .change work => s.take t f work
    | none, some f, .recompile path => s.become t s.workspace (.hashed task.name f.hash path)
    | _, _, _ => s

/-- The step of a thread that knows the hash of a script to be compiled anew. -/
def recompile (s : Threads T) (t : T) (name digest : String) (path : Path) : Threads T :=
  if s.workspace.project.hashIs s.workspace.host.disk name digest then
    match s.workspace.project.loadExps s.workspace.host.disk name with
    | .error _ => s.become t s.workspace .idle
    | .ok (text, _) =>
      { s.become t s.workspace .idle with
        queue := update s.queue t (⟨name, .change (.save .exps text)⟩ :: s.queue t) }
  else
    s.become t (s.workspace.warn ("Not recompiling " ++ name ++ " after editing "
      ++ Text.quote path.text ++ ": its EXPS text is out of date")) .idle

/-- The next step of a thread. -/
def step (s : Threads T) (t : T) : Threads T :=
  match s.stage t with
  | .idle =>
    match s.queue t with
    | [] => s
    | task :: rest =>
      let stage := if (s.workspace.file? task.name).isSome then .found task else .absent task
      { s.become t s.workspace stage with queue := update s.queue t rest }
  | .absent task =>
    match s.workspace.fetch task.name with
    | .error _ => s.become t s.workspace .idle
    | .ok f => s.become t s.workspace (.fetched f task)
  | .fetched f task => s.become t (s.workspace.insertIfAbsent f) (.found task)
  | .found task => s.enter t task
  | .hashed name digest path => s.recompile t name digest path
  | .holding f work => s.work t f work
  | .compiled d =>
    match s.workspace.compiler.encode d.compilation.program with
    | .error _ => s.release t s.workspace d.file.name
    | .ok bytes =>
      match s.workspace.rom.write d.file.name bytes with
      | .error _ => s.release t s.workspace d.file.name
      | .ok rom => s.become t { s.workspace with rom } (.written d bytes)
  | .written d bytes =>
    match s.workspace.rom.save with
    | .error _ => s.release t s.workspace d.file.name
    | .ok rom => s.become t { s.workspace with rom } (.flushed d (Sha256.hex bytes))
  | .flushed d digest =>
    s.become t (s.workspace.settle d digest).2 (.changed (s.workspace.settle d digest).1)
  | .changed f => s.release t (s.workspace.put f) f.name

/-! ### Runs -/

/-- What happens next. -/
inductive Move (T : Type) where
  /-- A thread gets something more to do. -/
  | order (t : T) (task : Task)
  /-- A shared file is saved, and a thread is to compile scripts that call it anew. -/
  | saveMacro (t : T) (path : Path) (text : String) (dependents : List String)
  | step (t : T)
  /-- Anything happens to what surrounds the files and the bytes in the ROM. -/
  | beside (other : Workspace)

/-- The threads after a move. -/
def perform (s : Threads T) : Move T → Threads T
  | .order t task => { s with queue := update s.queue t (s.queue t ++ [task]) }
  | .saveMacro t path text dependents =>
    match Project.saveMacro s.workspace.host.disk path text with
    | (.error _, d) => { s with workspace := s.workspace.withDisk d }
    | (.ok (), d) =>
      { s with
        workspace := s.workspace.withDisk d
        queue := update s.queue t
          (s.queue t ++ dependents.map fun name => ⟨name, .recompile path⟩) }
  | .step t => s.step t
  | .beside other => { s with workspace := s.workspace.amid other }

/-- The threads after moves, one after the other. -/
def run (s : Threads T) (moves : List (Move T)) : Threads T := moves.foldl perform s

/-- No file is in use and no thread has begun.  The ROM can be saved. -/
structure New (s : Threads T) : Prop where
  files : s.workspace.files = ∅
  saves : s.workspace.rom.saveFails = false
  free : ∀ name, s.holder name = none
  idle : ∀ t, s.stage t = .idle

/-- Some moves lead here from a new state. -/
def Reachable (s : Threads T) : Prop := ∃ first : Threads T, first.New ∧ ∃ moves, s = first.run moves

theorem Reachable.induction {P : Threads T → Prop} {s : Threads T} (hnew : ∀ s : Threads T, s.New → P s)
    (hstep : ∀ (s : Threads T) (m : Move T), P s → P (s.perform m)) (h : s.Reachable) : P s := by
  obtain ⟨first, hfirst, moves, rfl⟩ := h
  have hrun : ∀ s : Threads T, P s → P (s.run moves) := by
    induction moves with
    | nil => exact fun _ hs => hs
    | cons m moves ih => exact fun s hs => ih (s.perform m) (hstep s m hs)
  exact hrun first (hnew first hfirst)

end Threads

end SceneDebugger
