import SceneDebugger.Proofs.Breakpoints.Changes
import SceneDebugger.Proofs.Ground.Notices
import SceneDebugger.Proofs.Session.Operated
import SceneDebugger.Proofs.Session.Tracking

/-!
# SceneDebugger.Proofs.Session.Turns — the user and the game take turns

A save is not done in one go: the file is compiled and written first, then its breakpoints follow, and
the game may do something in between, as it may between two events that the user takes from the queue.
A `JointSession` is a session with the saves that are under way and with what the user was told; a
`Turn` is what cannot be interrupted.

* `JointSession.run`, `JointSession.Reachable`: turns one after the other, and what they lead to.
* `JointSession.run_induction`, `JointSession.run_induction_along`: what every turn keeps.
* `JointSession.steps_perform`: what a turn does to every file.
-/

namespace SceneDebugger

/-! ### Turns -/

/-- What the game does, at any time.  Anyone may ask for a file. -/
def Action.byGame : Action → Bool
  | .startGround => true
  | .quitGround => true
  | .changeMap => true
  | .loadScript _ => true
  | .loadScene _ _ => true
  | .loadTalk _ => true
  | .fetch _ => true
  | _ => false

/-- What the user does in one go, when no save is under way. -/
def Action.byUser : Action → Bool
  | .restore _ => true
  | .openEditor _ => true
  | .closeEditor _ => true
  | .loadSsbs _ => true
  | .loadExps _ _ => true
  | _ => false

namespace Session

/-- A script saved from one of its texts. -/
def saveText (s : Session) (view : View) (file text : String) :
    Except Error SaveOutcome × Session :=
  match view with
  | .ssbs => s.onWorkspace fun w => w.saveSsbs file text
  | .exps => s.onWorkspace fun w => w.saveExps file text

/-- The session with another queue. -/
def withEvents (s : Session) (events : List Event) : Session :=
  { s with workspace := { s.workspace with host := { s.workspace.host with events } } }

/-- Whatever concerns neither script files nor breakpoints nor reloads becomes as in another session. -/
def aside (s other : Session) : Session :=
  let t := s.around other
  let events := if other.workspace.host.reloads = s.workspace.host.reloads
    then other.workspace.host.events else s.workspace.host.events
  { t.withEvents events with
    breakpoints := { other.breakpoints with
      primary := s.breakpoints.primary
      pending := s.breakpoints.pending } }

end Session

/-- A session that the user and the game share. -/
structure JointSession where
  session : Session
  /-- What saves have changed whose breakpoints have still to follow, the first save first. -/
  unfinished : List SaveOutcome := []
  /-- What the user was told, the oldest first. -/
  told : List Event := []

/-- What the user, the game or the surroundings do without being interrupted. -/
inductive Turn where
  | act (a : Action)
  /-- A script is saved from one of its texts; its breakpoints have still to follow. -/
  | save (view : View) (file text : String)
  /-- The breakpoints of the script that was saved first follow. -/
  | finish
  /-- The user takes an event from the queue. -/
  | take
  | add (file : String) (offset : UInt32)
  | remove (file : String) (offset : UInt32)
  | toggle (file : String) (view : View) (opcodes : SourceMap → List UInt32)
  /-- Anything happens to what surrounds script files, breakpoints and reloads. -/
  | aside (other : Session)

namespace JointSession

open Session Workspace

variable {j : JointSession}

/-- The action does not have to wait until the saves are finished, or they are. -/
def allows (j : JointSession) (a : Action) : Bool :=
  a.byGame || (a.byUser && j.unfinished.isEmpty)

/-- What the turn saves. -/
def saved? (j : JointSession) : Turn → Option SaveOutcome
  | .save view file text => (j.session.saveText view file text).1.toOption
  | _ => none

/-- An event taken from the queue, if there is one. -/
def take (j : JointSession) : JointSession :=
  match j.session.workspace.host.events with
  | [] => j
  | event :: rest =>
    let (told, session) := (j.session.withEvents rest).takeEvent event
    { j with session, told := j.told ++ told }

/-- The session after a turn; what has to wait is not done. -/
def perform (j : JointSession) (t : Turn) : JointSession :=
  match t with
  | .act a => if j.allows a then { j with session := j.session.perform a } else j
  | .save view file text =>
    { j with
      session := (j.session.saveText view file text).2
      unfinished := j.unfinished ++ (j.saved? t).toList }
  | .finish =>
    match j.unfinished with
    | [] => j
    | o :: rest => { j with session := j.session.finishSave o, unfinished := rest }
  | .take => if j.unfinished = [] then j.take else j
  | .add file offset => { j with session := j.session.onBreakpoints fun b h => b.add h file offset }
  | .remove file offset =>
    { j with session := j.session.onBreakpoints fun b h => b.remove h file offset }
  | .toggle file view opcodes => { j with session := (j.session.toggleFirst file view opcodes).2 }
  | .aside other => { j with session := j.session.aside other }

/-- The session after turns, one after the other. -/
def run (j : JointSession) (turns : List Turn) : JointSession := turns.foldl perform j

@[simp] theorem run_nil (j : JointSession) : j.run [] = j := rfl

@[simp] theorem run_cons (j : JointSession) (t : Turn) (turns : List Turn) :
    j.run (t :: turns) = (j.perform t).run turns := rfl

theorem run_append (j : JointSession) (first second : List Turn) :
    j.run (first ++ second) = (j.run first).run second := List.foldl_append

theorem run_concat (j : JointSession) (turns : List Turn) (t : Turn) :
    j.run (turns ++ [t]) = (j.run turns).perform t := run_append j turns [t]

/-- Nothing has happened yet. -/
structure New (j : JointSession) : Prop where
  fresh : j.session.Fresh
  pending : j.session.breakpoints.pending = ∅
  quiet : j.session.workspace.host.reloads = []
  unfinished : j.unfinished = []

theorem reloads_load (h : Host) (root : Path) (romName : String) :
    (Project.load h root romName).2.reloads = h.reloads := by
  unfold Project.load
  dsimp only
  split
  · rfl
  · split <;> rfl

theorem quiet_load (h : Host) (path : Path) : (Breakpoints.load h path).1.pending = ∅ ∧
    (Breakpoints.load h path).2.reloads = h.reloads := by
  unfold Breakpoints.load
  split
  · exact ⟨rfl, rfl⟩
  · split_ifs
    · exact ⟨rfl, Host.reloads_send _ rfl⟩
    · exact ⟨rfl, rfl⟩

theorem quiet_start (settings : Settings) (layout : EngineLayout) (machine : Machine)
    (compiler : Compiler) (rom : Rom) (host : Host) (root : Path) (romName : String) :
    (start settings layout machine compiler rom host root romName).breakpoints.pending = ∅ ∧
    (start settings layout machine compiler rom host root romName).workspace.host.reloads =
      host.reloads := by
  have hproject := reloads_load host root romName
  unfold start
  generalize Project.load host root romName = loaded at hproject
  obtain ⟨project, afterProject⟩ := loaded
  have hbreakpoints := quiet_load afterProject project.breakpointsPath
  dsimp only
  generalize Breakpoints.load afterProject project.breakpointsPath = stored at hbreakpoints
  obtain ⟨breakpoints, after⟩ := stored
  exact ⟨hbreakpoints.1, hbreakpoints.2.trans hproject⟩

theorem new_of_quiet {s : Session} (hfresh : s.Fresh) (hpending : s.breakpoints.pending = ∅)
    (hquiet : s.workspace.host.reloads = []) : ({ session := s } : JointSession).New :=
  ⟨hfresh, hpending, hquiet, rfl⟩

theorem new_start (settings : Settings) (layout : EngineLayout) (machine : Machine)
    (compiler : Compiler) (rom : Rom) (host : Host) (root : Path) (romName : String)
    (h : host.reloads = []) :
    ({ session := start settings layout machine compiler rom host root romName } :
      JointSession).New := by
  obtain ⟨hpending, hqueue⟩ := quiet_start settings layout machine compiler rom host root romName
  exact new_of_quiet (fresh_start settings layout machine compiler rom host root romName) hpending
    (hqueue.trans h)

/-- Some turns lead here from a new session. -/
def Reachable (j : JointSession) : Prop := ∃ first : JointSession, first.New ∧ ∃ turns, j = first.run turns

theorem Reachable.run (h : j.Reachable) (turns : List Turn) : (j.run turns).Reachable := by
  obtain ⟨first, hnew, before, rfl⟩ := h
  exact ⟨first, hnew, before ++ turns, (run_append first before turns).symm⟩

/-- What every turn keeps is kept by a run. -/
theorem run_induction {P : JointSession → Prop}
    (hstep : ∀ (j : JointSession) (t : Turn), P j → P (j.perform t)) (hj : P j) (turns : List Turn) :
    P (j.run turns) := by
  induction turns generalizing j with
  | nil => exact hj
  | cons t turns ih => exact ih (hstep j t hj)

/-- What each turn of a run keeps holds all along the run. -/
theorem run_induction_along {P : JointSession → Prop} {turns : List Turn} (hj : P j)
    (hstep : ∀ done t, done ++ [t] <+: turns → P (j.run done) → P ((j.run done).perform t))
    (done : List Turn) (hdone : done <+: turns) : P (j.run done) := by
  -- by induction on how far the run has come
  induction done using List.reverseRecOn with
  | nil => exact hj
  | append_singleton done t ih =>
    rw [run_concat]
    exact hstep done t hdone (ih ((List.prefix_append done [t]).trans hdone))

theorem Reachable.induction {P : JointSession → Prop} (hnew : ∀ j : JointSession, j.New → P j)
    (hstep : ∀ (j : JointSession) (t : Turn), P j → P (j.perform t)) (h : j.Reachable) : P j := by
  obtain ⟨first, hfirst, turns, rfl⟩ := h
  exact run_induction hstep (hnew first hfirst) turns

theorem new_sample : ({ session := sample } : JointSession).New := new_of_quiet fresh_sample rfl rfl

theorem reachable_sample (turns : List Turn) :
    (({ session := sample } : JointSession).run turns).Reachable :=
  ⟨_, new_sample, turns, rfl⟩

/-! ### Files -/

/-- The file whose reload a turn carries out. -/
def requested? (j : JointSession) : Option String :=
  if j.unfinished = [] then
    match j.session.workspace.host.events with
    | .reloadRequested file :: _ => some file
    | _ => none
  else none

/-- What a turn does to the files. -/
def action (j : JointSession) : Turn → Action
  | .act a => if j.allows a then a else .beside j.session
  | .save .ssbs file text => .saveSsbs file text
  | .save .exps file text => .saveExps file text
  | .take => (j.requested?.map Action.reload).getD (.beside j.session)
  | _ => .beside j.session

theorem beside_withEvents (s : Session) (events : List Event) : s.Beside (s.withEvents events) :=
  ⟨rfl, (beside_host s.workspace _).outside⟩

theorem beside_aside (s other : Session) : s.Beside (s.aside other) := by
  have hevents : (s.around other).Beside (s.aside other) := ⟨rfl, (beside_host _ _).outside⟩
  exact (beside_around s other).trans hevents

theorem beside_onBreakpoints (s : Session) (f : Breakpoints → Host → Breakpoints × Host) :
    s.Beside (s.onBreakpoints f) := ⟨rfl, (beside_host s.workspace _).outside⟩

theorem beside_finishSave (s : Session) (o : SaveOutcome) : s.Beside (s.finishSave o) :=
  ⟨rfl, (Reload.beside_finishSave _ _ _).outside⟩

theorem steps_of_beside {s t : Session} (hs : s.workspace.Named) (h : s.Beside t) (other : Session) :
    s.Steps t (.beside other) :=
  h.workspace.steps hs (congrArg Ground.slots h.ground)

/-- A request that is taken from the queue is a reload of the file. -/
theorem steps_takeEvent {s : Session} (hs : s.workspace.Named) (rest : List Event) (file : String) :
    s.Steps ((s.withEvents rest).takeEvent (.reloadRequested file)).2 (.reload file) := by
  have hreload : s.Steps (s.perform (.reload file)) (.reload file) := Session.steps_perform hs _
  have hrest : (s.perform (.reload file)).Beside ((s.withEvents rest).perform (.reload file)) := by
    refine ⟨rfl, ?_⟩
    show (s.workspace.applyReload file).2.Outside ((s.withEvents rest).workspace.applyReload file).2
    have hfile : (s.withEvents rest).workspace.file? file = s.workspace.file? file := rfl
    unfold applyReload
    rw [hfile]
    cases s.workspace.file? file with
    | none => exact (beside_host s.workspace _).outside
    | some f =>
      dsimp only
      split_ifs
      · exact (beside_host _ _).outside
      · exact (beside_host s.workspace _).outside
  refine (hreload.beside hrest).beside ⟨rfl, ?_⟩
  exact (Reload.beside_apply s.breakpoints (s.withEvents rest).workspace file).outside

/-- Every file makes a step. -/
theorem steps_perform (hj : j.session.workspace.Named) (t : Turn) :
    j.session.Steps (j.perform t).session (j.action t) := by
  cases t with
  | act a =>
    simp only [perform, action]
    split_ifs
    · exact Session.steps_perform hj a
    · exact steps_of_beside hj (.refl _) _
  | save view file text =>
    cases view with
    | ssbs => exact Session.steps_perform hj (.saveSsbs file text)
    | exps => exact Session.steps_perform hj (.saveExps file text)
  | finish =>
    simp only [perform, action]
    split
    · exact steps_of_beside hj (.refl _) _
    · exact steps_of_beside hj (beside_finishSave _ _) _
  | take =>
    simp only [perform, action, requested?]
    split_ifs
    · unfold take
      split
      · next hqueue =>
        rw [hqueue]
        exact steps_of_beside hj (.refl _) _
      · next event rest hqueue =>
        rw [hqueue]
        cases event with
        | reloadRequested file => exact steps_takeEvent hj rest file
        | _ => exact steps_of_beside hj (beside_withEvents _ rest) _
    · exact steps_of_beside hj (.refl _) _
  | add file offset => exact steps_of_beside hj (beside_onBreakpoints _ _) _
  | remove file offset => exact steps_of_beside hj (beside_onBreakpoints _ _) _
  | toggle file view opcodes => exact steps_of_beside hj (beside_toggleFirst _ file view opcodes) _
  | aside other => exact steps_of_beside hj (beside_aside _ other) _

theorem tracks_perform (h : j.session.Tracks) (t : Turn) : (j.perform t).session.Tracks :=
  (steps_perform h.named t).tracks h

theorem Reachable.tracks (h : j.Reachable) : j.session.Tracks :=
  h.induction (fun _ hnew => hnew.fresh.tracks) fun _ t hj => tracks_perform hj t

end JointSession

end SceneDebugger
