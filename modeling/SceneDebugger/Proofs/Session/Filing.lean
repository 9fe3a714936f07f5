import SceneDebugger.Proofs.Breakpoints.Stored
import SceneDebugger.Proofs.Session.Idle
import SceneDebugger.Proofs.Session.Joint
import SceneDebugger.Proofs.Workspace.History

/-!
# SceneDebugger.Proofs.Session.Filing — runs of a session, and what they put into the project

A run of a session is any sequence of its operations.  Each EXPS save, each load that writes a program
down and each script compiled anew after a shared file was saved puts an EXPS text into the project, as
far as the writes succeed; together these are the history of the run.

* `Session.Works`: runs with their histories.
* `Session.Works.kept`: the project after a run is that of its history.
* `Session.Blank`: sessions over an empty project.
-/

namespace SceneDebugger.Session

open Workspace

variable [Scripts] {s t u : Session} {history more : List Filing}

/-- The operations of a session, one after the other, with what they put into the project, the oldest
first.  The scripts are the ROM's, and no shared file is saved over a file of the EXPS texts. -/
inductive Works : Session → List Filing → Session → Prop where
  | refl (s : Session) : Works s [] s
  | trans {s t u : Session} {history more : List Filing} (h : Works s history t)
    (h' : Works t more u) : Works s (history ++ more) u
  | idle {s t : Session} (h : s.Idle t) : Works s [] t
  | loadExps (s : Session) (file : String) (mode : ExpsLoadMode) (hfile : IsScript file) :
    Works s (s.workspace.loading? file mode).toList (s.onWorkspace fun w => w.loadExps file mode).2
  | saveExps (s : Session) (file text : String) (hfile : IsScript file) :
    Works s ((s.workspace.saving? file text).map .put).toList (s.saveExps file text).2
  | saveMacro (s : Session) (path : Path) (text : String)
    (hpath : s.workspace.project.Foreign path) :
    Works s (s.workspace.savingMacro path text (s.workspace.project.dependents path))
      (s.saveMacro path text).2
  /-- While the user is asked, anything can happen. -/
  | closeEditor (s : Session) (file : String) (confirm : Session → Bool × Session)
    (histories : Session → List Filing) (h : ∀ t, Works t (histories t) (confirm t).2) :
    Works s (if s.settings.confirmCloseStale ∧ s.workspace.asksToClose file then histories s else [])
      (s.closeEditor file confirm).2

theorem Works.after (h : s.Idle t) (h' : t.Works history u) : s.Works history u := by
  have hboth := (Works.idle h).trans h'
  rwa [List.nil_append] at hboth

/-! ### What a run changes -/

/-- The project is changed by what is put into it, and the breakpoints stay in their file. -/
structure Files (s : Session) (history : List Filing) (t : Session) : Prop where
  filed : s.workspace.Filed history t.workspace
  housed : t.Housed

/-- What is known of a session whose project has a history. -/
structure Kept (s : Session) (history : List Filing) : Prop where
  workspace : s.workspace.Kept history
  housed : s.Housed

theorem Files.kept (h : s.Files more t) (hs : s.Kept history) : t.Kept (history ++ more) :=
  ⟨h.filed.kept hs.workspace, h.housed⟩

theorem Files.trans (h : s.Files history t) (h' : t.Files more u) : s.Files (history ++ more) u :=
  ⟨h.filed.trans h'.filed, h'.housed⟩

theorem Unfiled.files (h : s.Unfiled t) (hs : s.Housed) : s.Files [] t :=
  ⟨.step .refl (.nothing (h.workspace hs)), h.housed hs⟩

theorem Files.unfiled (h : s.Files history t) (h' : t.Unfiled u) : s.Files history u := by
  have hboth := h.trans (h'.files h.housed)
  rwa [List.append_nil] at hboth

/-- The workspace alone was changed. -/
theorem files_workspace {w : Workspace} (h : s.workspace.Filed history w) (hs : s.Housed) :
    s.Files history { s with workspace := w } := by
  obtain ⟨usage, husage⟩ := h.project
  refine ⟨h, ?_⟩
  unfold Housed at hs ⊢
  rw [husage]
  exact hs

/-- A script is saved, and its breakpoints follow. -/
theorem files_saveExps {file : String} (hs : s.Kept history) (hfile : IsScript file)
    (text : String) :
    s.Files ((s.workspace.saving? file text).map .put).toList (s.saveExps file text).2 := by
  have hsaved := files_workspace
    (does_saveExps hs.workspace.stores.names hfile text).filed hs.housed
  have hanswer : (s.onWorkspace fun w => w.saveExps file text) =
      ((s.workspace.saveExps file text).1,
        { s with workspace := (s.workspace.saveExps file text).2 }) := rfl
  rw [saveExps, hanswer]
  generalize s.workspace.saveExps file text = saved at hsaved
  obtain ⟨answer, w⟩ := saved
  cases answer with
  | error e => exact hsaved
  | ok o => exact hsaved.unfiled (unfiled_finishSave _ o)

/-- The scripts that the index has for a shared file have names of the ROM. -/
theorem Kept.dependents (hs : s.Kept history) (path : Path) :
    ∀ file ∈ s.workspace.project.dependents path, IsScript file :=
  fun file hfile => hs.workspace.follows.noted path file (Project.mem_dependents.mp hfile)

theorem unfiled_finishSaves (outcomes : List SaveOutcome) (s : Session) :
    s.Unfiled (outcomes.foldl finishSave s) :=
  List.foldlRecOn _ _ (.refl s) fun t ht o _ => ht.trans (unfiled_finishSave t o)

theorem unfiled_reports (path : Path) (outcomes : List MacroOutcome) (s : Session) :
    s.Unfiled (outcomes.foldl (reportFailed path) s) :=
  List.foldlRecOn _ _ (.refl s) fun t ht o _ => ht.trans (unfiled_reportFailed path t o)

/-- A shared file is saved, the scripts that call it are compiled anew, and their breakpoints
follow. -/
theorem files_saveMacro {path : Path} (hs : s.Kept history) (hpath : s.workspace.project.Foreign path)
    (text : String) :
    s.Files (s.workspace.savingMacro path text (s.workspace.project.dependents path))
      (s.saveMacro path text).2 := by
  have hsaved := files_workspace
    (filed_saveMacro hpath (hs.dependents path) hs.workspace.stores.names text) hs.housed
  have hanswer : (s.onWorkspace fun w => w.saveMacro path text (w.project.dependents path)) =
      ((s.workspace.saveMacro path text (s.workspace.project.dependents path)).1, { s with
        workspace := (s.workspace.saveMacro path text (s.workspace.project.dependents path)).2 }) := rfl
  rw [saveMacro, hanswer]
  generalize s.workspace.saveMacro path text (s.workspace.project.dependents path) = saved at hsaved
  obtain ⟨answer, w⟩ := saved
  cases answer with
  | error e => exact hsaved
  | ok outcomes =>
    refine (hsaved.unfiled (unfiled_finishSaves (recompiled outcomes) _)).unfiled ?_
    rw [← finishMacroSave_eq]
    exact unfiled_reports path outcomes _

/-- The editor of a script is closed, perhaps after the user was asked. -/
theorem files_closeEditor {file : String} {confirm : Session → Bool × Session}
    {histories : Session → List Filing} (hs : s.Housed) (h : s.Files (histories s) (confirm s).2) :
    s.Files (if s.settings.confirmCloseStale ∧ s.workspace.asksToClose file then histories s else [])
      (s.closeEditor file confirm).2 := by
  have hclosed : ∀ t : Session, t.Unfiled { t with workspace := t.workspace.finishClose file } :=
    fun t => unfiled_of_workspace rfl (unfiled_finishClose t.workspace file)
  unfold closeEditor
  dsimp only
  split
  next =>
    split <;>
    next heq =>
      rw [heq] at h
      first
      | exact h.unfiled (hclosed _)
      | exact h
  next => exact (hclosed s).files hs

theorem Works.files (h : s.Works more t) (hs : s.Kept history) : s.Files more t := by
  induction h generalizing history with
  | refl s => exact ⟨.refl, hs.housed⟩
  | trans _ _ ih ih' => exact (ih hs).trans (ih' ((ih hs).kept hs))
  | idle h => exact h.unfiled.files hs.housed
  | loadExps s file mode hfile =>
    exact files_workspace (does_loadExps hs.workspace.stores.names hfile mode).filed hs.housed
  | saveExps s file text hfile => exact files_saveExps hs hfile text
  | saveMacro s path text hpath => exact files_saveMacro hs hpath text
  | closeEditor s file confirm histories _ ih => exact files_closeEditor hs.housed (ih s hs)

/-! ### New sessions -/

/-- A session over a project without files. -/
structure Blank (s : Session) : Prop where
  workspace : s.workspace.Blank
  housed : s.Housed

/-- A session starts over a project without files. -/
theorem blank_start (settings : Settings) (layout : EngineLayout) (machine : Machine)
    (compiler : Compiler) (rom : Rom) {host : Host} {root : Path} {romName : String}
    (h : ∀ a : ProjectFile, a.IsRecord → host.disk.fileAt? (a.place { root, romName }) = none) :
    (start settings layout machine compiler rom host root romName).Blank := by
  have hlegible : Project.Legible { root, romName } host.disk := fun a ha text htext =>
    nomatch (h a ha).symm.trans htext
  have hproject : (Project.load host root romName).1 = { root, romName } := by
    rw [show Project.load host root romName = Project.load host
      ({ root, romName } : Project).root ({ root, romName } : Project).romName from rfl, Project.load_eq,
      usageOn_of_absent hlegible (h .usage trivial)]
  have hdisk : (Breakpoints.load (Project.load host root romName).2
      (Project.load host root romName).1.breakpointsPath).2.disk = host.disk :=
    (Breakpoints.disk_load _ _).trans (Project.disk_load host root romName)
  unfold start
  dsimp only
  generalize hload : Breakpoints.load _ _ = loaded at hdisk
  rw [hproject]
  refine ⟨⟨rfl, rfl, fun a ha => ?_⟩, ?_⟩
  · rw [hdisk]
    exact h a ha
  · unfold Housed
    rw [← hload, Breakpoints.load_fst, hproject]

/-- The project after a run is that of the history of the run. -/
theorem Works.kept (h : s.Works history t) (hs : s.Blank) : t.Kept history :=
  have hstart : s.Kept [] := ⟨hs.workspace.kept, hs.housed⟩
  (h.files hstart).kept hstart

end SceneDebugger.Session
