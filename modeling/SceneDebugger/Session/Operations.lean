import SceneDebugger.Session.Hooks

/-!
# SceneDebugger.Session.Operations — what the user does in a session

* `Session.poll`: the events so far, with requested reloads carried out.
* `Session.saveSsbs`, `Session.saveExps`, `Session.saveMacro`: saves, after which breakpoints follow.
* `Session.closeEditor`: asks the user before the editor of a stale script is closed.
* `Session.toggleAtLine`, `Session.toggleAtInlinedLine`: breakpoints by line.
* `Session.saveGround`, `Session.loadGround`: what belongs to a save state.
-/

namespace SceneDebugger.Session

/-! ### Events -/

/-- An event taken from the queue: a requested reload is carried out, another event passed on. -/
def takeEvent (s : Session) (event : Event) : List Event × Session :=
  match event with
  | .reloadRequested file =>
    let (done, breakpoints, workspace) := Reload.apply s.breakpoints s.workspace file
    (if done then [.fileReloaded file] else [], { s with breakpoints, workspace })
  | event => ([event], s)

/-- Events taken from the queue, one after the other. -/
def takeEvents : List Event → Session → List Event × Session
  | [], s => ([], s)
  | event :: rest, s =>
    let (now, s) := s.takeEvent event
    let (later, s) := takeEvents rest s
    (now ++ later, s)

/-- The session with an empty queue. -/
def withoutEvents (s : Session) : Session :=
  { s with workspace := { s.workspace with host := { s.workspace.host with events := [] } } }

/-- The events for the user.  What reloads send is passed on behind the events that were there. -/
def poll (s : Session) : List Event × Session :=
  let (taken, s) := takeEvents s.workspace.host.events s.withoutEvents
  (taken ++ s.workspace.host.events, s.withoutEvents)

/-! ### Saving -/

/-- A saved script with its breakpoints carried along. -/
def finishSave (s : Session) (o : SaveOutcome) : Session :=
  let (breakpoints, workspace) := Reload.finishSave s.breakpoints s.workspace o
  { s with breakpoints, workspace }

/-- A save of a script, finished if it succeeds. -/
def finishing (saved : Except Error SaveOutcome × Session) : Except Error SaveOutcome × Session :=
  match saved with
  | (.ok o, s) => (.ok o, s.finishSave o)
  | (.error e, s) => (.error e, s)

/-- A script saved from its SSBS text. -/
def saveSsbs (s : Session) (file text : String) : Except Error SaveOutcome × Session :=
  finishing (s.onWorkspace fun w => w.saveSsbs file text)

/-- A script saved from its EXPS text. -/
def saveExps (s : Session) (file text : String) : Except Error SaveOutcome × Session :=
  finishing (s.onWorkspace fun w => w.saveExps file text)

/-- The user is told about a script that was not compiled anew. -/
def reportFailed (path : Path) (s : Session) (outcome : MacroOutcome) : Session :=
  match outcome with
  | .failed file error =>
    s.send (.warning (file ++ " was not recompiled after editing " ++ path.text ++ ": " ++ error))
  | _ => s

/-- A shared file saved, and every script that calls it compiled anew. -/
def saveMacro (s : Session) (path : Path) (text : String) :
    Except Error (List MacroOutcome) × Session :=
  match s.onWorkspace fun w => w.saveMacro path text (w.project.dependents path) with
  | (.error e, s) => (.error e, s)
  | (.ok outcomes, s) =>
    let (breakpoints, workspace) := Reload.finishMacroSave s.breakpoints s.workspace outcomes
    (.ok outcomes, outcomes.foldl (reportFailed path) { s with breakpoints, workspace })

/-! ### Editors -/

/-- What became of a wish to close an editor. -/
structure CloseResult where
  closed : Bool
  /-- The user was asked. -/
  asked : Bool
  deriving DecidableEq, Repr

/-- The editor of a script closed.  If the script is stale the user is asked first, which may take
some time, and may keep the editor open. -/
def closeEditor (s : Session) (file : String) (confirm : Session → Bool × Session) :
    CloseResult × Session :=
  let finish (s : Session) : Session := { s with workspace := s.workspace.finishClose file }
  if s.settings.confirmCloseStale ∧ s.workspace.asksToClose file then
    match confirm s with
    | (true, s) => ({ closed := true, asked := true }, finish s)
    | (false, s) => ({ closed := false, asked := true }, s)
  else ({ closed := true, asked := false }, finish s)

/-! ### Breakpoints by line -/

/-- The breakpoint at the first of the opcodes that a text's map of the running bytes gives; whether
it is set now, or none if there is no such opcode or the script is stale. -/
def toggleFirst (s : Session) (file : String) (view : View) (opcodes : SourceMap → List UInt32) :
    Option Bool × Session :=
  if s.workspace.ramMatches file then
    match (s.workspace.activeMap? file view).bind fun m => (opcodes m).head? with
    | none => (none, s)
    | some offset =>
      let (isSet, breakpoints, host) := s.breakpoints.toggle s.workspace.host file offset
      (some isSet, { s with breakpoints, workspace := { s.workspace with host } })
  else (none, s)

/-- The breakpoint at a line of the script's own text. -/
def toggleAtLine (s : Session) (file : String) (view : View) (line : UInt32) :
    Option Bool × Session :=
  s.toggleFirst file view fun m => m.offsetsAtLine line

/-- The breakpoint at a line of a file that the script calls. -/
def toggleAtInlinedLine (s : Session) (file : String) (path : Path) (line : UInt32) :
    Option Bool × Session :=
  s.toggleFirst file .exps fun m => m.offsetsAtInlinedLine path line

/-! ### Switches -/

/-- The session in which scripts halt, or not. -/
def setEnabled (s : Session) (value : Bool) : Session :=
  { s with controller := { s.controller with enabled := value } }

/-- The session that looks at opcodes, or not. -/
def setBoost (s : Session) (value : Bool) : Session :=
  { s with controller := { s.controller with boost := value } }

/-- The session with the debug mode on or off. -/
def setDebugMode (s : Session) (value : Bool) : Session :=
  { s with switches := { s.switches with debugMode := value } }

/-- The session with a debug flag on or off. -/
def setFlag (s : Session) (bank : FlagBank) (flag : UInt32) (value : Bool) : Session :=
  { s with switches := s.switches.turn bank flag value }

/-! ### Save states -/

/-- What the game holds, written beside a save state. -/
def saveGround (s : Session) (slot : UInt32) : Except Error Unit × Session :=
  let path := s.workspace.project.saveStatePath slot
  match s.ground.snapshot.save s.workspace.host.disk path with
  | (.ok (), d) => (.ok (), { s with workspace := s.workspace.withDisk d })
  | (.error e, d) => (.error (.persistence e.full), { s with workspace := s.workspace.withDisk d })

/-- What the game holds after a save state was loaded; with the files that have changed since. -/
def loadGround (s : Session) (slot : UInt32) : Except Error (List String) × Session :=
  let path := s.workspace.project.saveStatePath slot
  match GroundSnapshot.load s.workspace.host.disk path with
  | .error e => (.error (.persistence e.full), s)
  | .ok snapshot =>
    let (stale, ground, workspace) := s.ground.restore s.workspace snapshot
    (.ok stale, { s with ground, workspace })

end SceneDebugger.Session
