import SceneDebugger.Proofs.Workspace.Seen
import SceneDebugger.Script.LineLanguage
import SceneDebugger.Session.Operations

/-!
# SceneDebugger.Proofs.Session.Run — runs of a session

A run is a list of actions, in any order, each of which touches the script files in use or the places
of the game in one way (`Action`).  Two threads take turns between actions, so an operation of the
session that does several things is several actions.

* `Session.run`, `Session.Reachable`: the session after a run, and what runs lead to.
* `Session.Beside`, `Session.around`: what surrounds the files and the places may change at any time.
* `Session.sample`: a small session to try runs on.
-/

namespace SceneDebugger

/-! ### Actions -/

/-- What happens in a session.  Files of the ROM change only by being saved; whether the ROM can be
written or read is up to the surroundings. -/
inductive Action where
  | startGround
  | quitGround
  | changeMap
  /-- The game loads a script into the announced place. -/
  | loadScript (file : String)
  | loadScene (hanger : Nat) (name : String)
  | loadTalk (hanger : Nat)
  /-- A save state is loaded. -/
  | restore (snapshot : GroundSnapshot)
  /-- Someone asks for a file. -/
  | fetch (file : String)
  | openEditor (file : String)
  | closeEditor (file : String)
  | loadSsbs (file : String)
  | loadExps (file : String) (mode : ExpsLoadMode)
  | saveSsbs (file text : String)
  | saveExps (file text : String)
  /-- A requested reload is carried out. -/
  | reload (file : String)
  /-- Whatever is neither a file in use nor a place of the game becomes as in another session. -/
  | beside (other : Session)

namespace Session

variable {s t u : Session}

/-- The session with the files in use and the places as they are, in the surroundings of another. -/
def around (s other : Session) : Session :=
  { other with
    ground := s.ground
    workspace := { other.workspace with
      compiler := s.workspace.compiler
      files := s.workspace.files
      rom := { other.workspace.rom with files := s.workspace.rom.files } } }

/-- The session after an action. -/
def perform (s : Session) : Action → Session
  | .startGround => s.onGround Ground.start
  | .quitGround => s.onGround Ground.quit
  | .changeMap => s.onGround Ground.changeMap
  | .loadScript file => s.onGround fun g w => g.loadScript w file
  | .loadScene hanger name => s.onGround fun g w => g.loadScene w hanger name
  | .loadTalk hanger => s.onGround fun g w => g.loadTalk w hanger
  | .restore snapshot => s.onGround fun g w => (g.restore w snapshot).2
  | .fetch file => (s.onWorkspace fun w => w.get file).2
  | .openEditor file => (s.onWorkspace fun w => w.openEditor file).2
  | .closeEditor file => (s.onWorkspace fun w => ((), w.finishClose file)).2
  | .loadSsbs file => (s.onWorkspace fun w => w.loadSsbs file).2
  | .loadExps file mode => (s.onWorkspace fun w => w.loadExps file mode).2
  | .saveSsbs file text => (s.onWorkspace fun w => w.saveSsbs file text).2
  | .saveExps file text => (s.onWorkspace fun w => w.saveExps file text).2
  | .reload file => (s.onWorkspace fun w => w.applyReload file).2
  | .beside other => s.around other

/-! ### Runs -/

/-- The session after actions, one after the other. -/
def run (s : Session) (actions : List Action) : Session := actions.foldl perform s

@[simp] theorem run_nil (s : Session) : s.run [] = s := rfl

theorem run_append (s : Session) (first second : List Action) :
    s.run (first ++ second) = (s.run first).run second := List.foldl_append

theorem run_concat (s : Session) (actions : List Action) (a : Action) :
    s.run (actions ++ [a]) = (s.run actions).perform a := run_append s actions [a]

/-- No file is in use, and the game holds none. -/
structure Fresh (s : Session) : Prop where
  files : s.workspace.files = ∅
  ground : s.ground = {}

theorem fresh_start (settings : Settings) (layout : EngineLayout) (machine : Machine)
    (compiler : Compiler) (rom : Rom) (host : Host) (root : Path) (romName : String) :
    (start settings layout machine compiler rom host root romName).Fresh := by
  unfold start
  obtain ⟨project, host⟩ := Project.load host root romName
  dsimp only
  obtain ⟨breakpoints, host⟩ := Breakpoints.load host project.breakpointsPath
  exact ⟨rfl, rfl⟩

/-- Some actions lead from one session to the other. -/
def Reaches (s t : Session) : Prop := ∃ actions, t = s.run actions

/-- Some actions lead from a new session to this one. -/
def Reachable (s : Session) : Prop := ∃ first : Session, first.Fresh ∧ first.Reaches s

theorem Reaches.refl (s : Session) : s.Reaches s := ⟨[], rfl⟩

theorem Reaches.trans (h : s.Reaches t) (h' : t.Reaches u) : s.Reaches u := by
  obtain ⟨actions, rfl⟩ := h
  obtain ⟨more, rfl⟩ := h'
  exact ⟨actions ++ more, (run_append s actions more).symm⟩

theorem reaches_perform (s : Session) (a : Action) : s.Reaches (s.perform a) := ⟨[a], rfl⟩

theorem Reachable.reaches (h : s.Reachable) (h' : s.Reaches t) : t.Reachable := by
  obtain ⟨first, hfirst, hs⟩ := h
  exact ⟨first, hfirst, hs.trans h'⟩

/-- What every action keeps is kept by a run. -/
theorem run_induction {P : Session → Prop} (hstep : ∀ (s : Session) (a : Action), P s → P (s.perform a))
    (hs : P s) (actions : List Action) : P (s.run actions) := by
  induction actions generalizing s with
  | nil => exact hs
  | cons a actions ih => exact ih (hstep s a hs)

/-- What holds of new sessions and is kept by every action holds of whatever is reached. -/
theorem Reachable.induction {P : Session → Prop} (hfresh : ∀ s : Session, s.Fresh → P s)
    (hstep : ∀ (s : Session) (a : Action), P s → P (s.perform a)) (h : s.Reachable) : P s := by
  obtain ⟨first, hfirst, actions, rfl⟩ := h
  exact run_induction hstep (hfresh first hfirst) actions

/-! ### Surroundings -/

/-- Neither the files in use and the bytes in the ROM nor the places of the game have changed. -/
structure Beside (s t : Session) : Prop where
  ground : t.ground = s.ground
  workspace : s.workspace.Outside t.workspace

theorem Beside.refl (s : Session) : s.Beside s := ⟨rfl, .refl _⟩

theorem Beside.trans (h : s.Beside t) (h' : t.Beside u) : s.Beside u :=
  ⟨h'.ground.trans h.ground, h.workspace.trans h'.workspace⟩

theorem beside_around (s other : Session) : s.Beside (s.around other) := ⟨rfl, rfl, rfl, rfl⟩

theorem around_of_beside (h : s.Beside t) : s.around t = t := by
  unfold around
  rw [← h.ground, ← h.workspace.files, ← h.workspace.compiler, ← h.workspace.bytes]

theorem Beside.reaches (h : s.Beside t) : s.Reaches t :=
  ⟨[.beside t], (around_of_beside h).symm⟩

/-! ### A small session -/

/-- A script of the line language, which waits. -/
def waitText (frames : String) : String := "routine Actor\nWait " ++ frames

/-- A new session whose ROM has one script, `enter.ssb`. -/
def sample : Session where
  workspace :=
    { compiler := LineLanguage.compiler {}
      rom.files := (∅ : Std.ExtTreeMap String ByteArray).insert "enter.ssb"
        ((LineLanguage.assemble (waitText "5")).toOption.getD .empty)
      project := { root := ⟨"proj"⟩, romName := "eos_us" } }
  breakpoints.path := ⟨"proj/debugger/eos_us.breakpoints.json"⟩

theorem fresh_sample : sample.Fresh := ⟨rfl, rfl⟩

theorem reachable_sample (actions : List Action) : (sample.run actions).Reachable :=
  ⟨sample, fresh_sample, actions, rfl⟩

end Session

end SceneDebugger
