import SceneDebugger.Proofs.Session.Operated
import SceneDebugger.Proofs.Workspace.Idle

/-!
# SceneDebugger.Proofs.Session.Idle — operations that put nothing into the project

Most of what happens in a session leaves the EXPS texts in the project alone.  Breakpoints and save
states have files of their own.

* `Session.Idle`: the operations that put no EXPS text into the project.
* `Session.Idle.unfiled`: they leave the EXPS texts alone, and what belongs to them.
-/

namespace SceneDebugger

open Disk

/-! ### Breakpoints -/

namespace Breakpoints

theorem path_addStepTargets (targets : List StepTarget) (b : Breakpoints) :
    (targets.foldl addStepTarget b).path = b.path :=
  List.foldlRecOn targets _ (motive := fun c : Breakpoints => c.path = b.path) rfl fun _ h _ _ => h

variable [Scripts]

/-- The breakpoints stay in their file, and the files of the EXPS texts are left alone. -/
structure Spares (p : Project) (b : Breakpoints) (h : Host) (after : Breakpoints × Host) : Prop where
  path : after.1.path = b.path
  spares : b.path = p.breakpointsPath → ∀ a : ProjectFile, a.IsRecord →
    h.disk.Spares after.2.disk (a.place p)

variable {p : Project} {b b' : Breakpoints} {h h' : Host} {after : Breakpoints × Host}

theorem Spares.refl (p : Project) (b : Breakpoints) (h : Host) : Spares p b h (b, h) :=
  ⟨rfl, fun _ _ _ => .refl _ _⟩

/-- The breakpoints change in memory first. -/
theorem Spares.of_path (hs : Spares p b' h after) (hpath : b'.path = b.path) : Spares p b h after :=
  ⟨hs.path.trans hpath, fun hb => hs.spares (hpath.trans hb)⟩

theorem spares_persist (p : Project) (b : Breakpoints) (h : Host) : Spares p b h (b, b.persist h) := by
  refine ⟨rfl, fun hb a ha => ?_⟩
  have hwritten : ∀ text, h.disk.Spares (h.disk.replace b.path text).2 (a.place p) := fun text => by
    rw [hb]
    exact Project.spares_replace_own (b := .breakpoints) ha trivial (by rintro rfl; exact ha) p h.disk text
  have hstored := hwritten b.merged.toJson.pretty
  unfold persist
  split <;>
  next heq =>
    rw [heq] at hstored
    exact hstored

theorem spares_commit (p : Project) (b : Breakpoints) (h : Host) (file : String)
    (change : BreakpointChange) : Spares p b h (b.commit h file change) :=
  ⟨rfl, (spares_persist p b h).spares⟩

theorem spares_add (p : Project) (b : Breakpoints) (h : Host) (file : String) (offset : UInt32) :
    Spares p b h (b.add h file offset) := by
  unfold add
  split
  next => exact .refl p b h
  next => exact (spares_commit p _ h file _).of_path rfl

theorem spares_remove (p : Project) (b : Breakpoints) (h : Host) (file : String) (offset : UInt32) :
    Spares p b h (b.remove h file offset) := by
  unfold remove
  split
  next => exact (spares_commit p _ h file _).of_path rfl
  next => exact (Spares.refl p _ h).of_path rfl

theorem spares_toggle (p : Project) (b : Breakpoints) (h : Host) (file : String) (offset : UInt32) :
    Spares p b h (b.toggle h file offset).2 := by
  unfold toggle
  split
  next => exact spares_remove p b h file offset
  next => exact spares_add p b h file offset

theorem spares_resync (p : Project) (b : Breakpoints) (h : Host) (ramMatches : Bool) (file : String)
    (offsets : Std.ExtTreeSet UInt32) : Spares p b h (b.resync h ramMatches file offsets) := by
  unfold resync
  split
  next => exact (spares_commit p _ h file _).of_path rfl
  next => exact (spares_persist p _ h).of_path rfl

theorem spares_onReload (p : Project) (b : Breakpoints) (h : Host) (file : String) :
    Spares p b h (b.onReload h file) := by
  unfold onReload
  split
  next => exact .refl p b h
  next => exact (spares_commit p _ h file _).of_path rfl

end Breakpoints

namespace Session

open Workspace

variable [Scripts] {s t u : Session} {w : Workspace}

/-- The breakpoints are in the project's file for them. -/
def Housed (s : Session) : Prop := s.breakpoints.path = s.workspace.project.breakpointsPath

/-- The EXPS texts in the project were left alone, if the breakpoints have their own file. -/
structure Unfiled (s t : Session) : Prop where
  path : t.breakpoints.path = s.breakpoints.path
  workspace : s.Housed → s.workspace.Unfiled t.workspace

theorem Unfiled.refl (s : Session) : s.Unfiled s := ⟨rfl, fun _ => .refl _⟩

theorem Unfiled.housed (h : s.Unfiled t) (hs : s.Housed) : t.Housed := by
  unfold Housed
  rw [h.path, (h.workspace hs).project, hs]

theorem Unfiled.trans (h : s.Unfiled t) (h' : t.Unfiled u) : s.Unfiled u :=
  ⟨h'.path.trans h.path, fun hs => (h.workspace hs).trans (h'.workspace (h.housed hs))⟩

theorem unfiled_of_workspace (hpath : t.breakpoints.path = s.breakpoints.path)
    (h : s.workspace.Unfiled t.workspace) : s.Unfiled t := ⟨hpath, fun _ => h⟩

/-- Neither the workspace nor the file of the breakpoints has changed. -/
theorem unfiled_of_eq (hpath : t.breakpoints.path = s.breakpoints.path)
    (h : t.workspace = s.workspace) : s.Unfiled t :=
  unfiled_of_workspace hpath (h ▸ .refl _)

theorem unfiled_onWorkspace {α : Type} (s : Session) {f : Workspace → α × Workspace}
    (h : ∀ w : Workspace, w.Unfiled (f w).2) : s.Unfiled (s.onWorkspace f).2 :=
  unfiled_of_workspace rfl (h s.workspace)

theorem unfiled_onGround (s : Session) {f : Ground → Workspace → Ground × Workspace}
    (h : ∀ (g : Ground) (w : Workspace), w.Unfiled (f g w).2) : s.Unfiled (s.onGround f) :=
  unfiled_of_workspace rfl (h s.ground s.workspace)

/-- A change of the breakpoints, written to their file. -/
theorem unfiled_breakpoints {after : Breakpoints × Host}
    (h : Breakpoints.Spares s.workspace.project s.breakpoints s.workspace.host after) :
    s.Unfiled { s with breakpoints := after.1, workspace := { s.workspace with host := after.2 } } :=
  ⟨h.path, fun hs => unfiled_host s.workspace (h.spares hs)⟩

/-! ### Halts -/

theorem unfiled_send (s : Session) (event : Event) : s.Unfiled (s.send event) :=
  unfiled_of_workspace rfl (Workspace.unfiled_send s.workspace event)

theorem unfiled_changeHalt (s : Session) (before after : HaltRecord) :
    s.Unfiled (s.changeHalt before after) :=
  unfiled_of_workspace rfl (unfiled_host s.workspace fun _ _ => .refl _ _)

theorem unfiled_onOpcode (s : Session) : s.Unfiled s.onOpcode := by
  unfold onOpcode
  split
  next => exact .refl s
  next =>
    dsimp only
    split
    next => exact unfiled_of_workspace rfl (Workspace.unfiled_send s.workspace _)
    next => exact unfiled_of_eq rfl rfl

theorem unfiled_release (s : Session) (d : Decision) : s.Unfiled (s.release d).2 := by
  unfold release
  split
  next => exact .refl s
  next =>
    split
    next => exact unfiled_changeHalt s _ _
    next => exact unfiled_of_workspace rfl (unfiled_warn s.workspace _)

theorem unfiled_descend (s : Session) : s.Unfiled s.descend.2 := by
  unfold descend
  split
  next => exact .refl s
  next => exact unfiled_changeHalt s _ _

theorem unfiled_watch (s : Session) (watcher : Nat) : s.Unfiled (s.watch watcher) := by
  unfold watch
  split
  next => exact .refl s
  next => exact unfiled_changeHalt s _ _

theorem unfiled_wakeUp? {d : Decision} {watchers : List Nat}
    (h : s.wakeUp? = some (d, watchers, t)) : s.Unfiled t := by
  simp only [wakeUp?, Option.bind_eq_bind, Option.bind_eq_some_iff] at h
  obtain ⟨halt, -, ⟨d', watchers', halt'⟩, -, heq⟩ := h
  cases heq
  exact unfiled_of_eq (Breakpoints.path_addStepTargets _ _) rfl

theorem unfiled_failHalt (s : Session) : s.Unfiled s.failHalt := by
  unfold failHalt
  split
  next => exact .refl s
  next halt _ =>
    have hwarned : s.Unfiled { s with
        workspace := s.workspace.warn ("Failing outstanding halt at " ++ halt.describe) } :=
      unfiled_of_workspace rfl (unfiled_warn s.workspace _)
    exact hwarned.trans (unfiled_release _ _)

/-! ### Hooks -/

theorem unfiled_refreshSharedTable (s : Session) : s.Unfiled s.refreshSharedTable := by
  unfold refreshSharedTable
  split <;> exact unfiled_of_eq rfl rfl

theorem unfiled_addFeature (s : Session) (name : String) (requests : List HookRequest) :
    s.Unfiled (s.addFeature name requests) := by
  unfold addFeature
  split
  next => exact unfiled_of_eq rfl rfl
  next => exact unfiled_of_workspace rfl (unfiled_host s.workspace fun _ _ => .refl _ _)

theorem unfiled_enable (s : Session) : s.Unfiled s.enable.2 := by
  unfold enable
  split
  next => exact .refl s
  next =>
    dsimp only
    split
    next => exact unfiled_of_eq rfl rfl
    next ids machine _ =>
      have hforgot : s.Unfiled { s with
          machine, hooks := ids, switches := s.switches.forgetQuestions } := unfiled_of_eq rfl rfl
      refine List.foldlRecOn _ _ ?_ fun t ht feature _ =>
        ht.trans (unfiled_addFeature t feature.1 feature.2)
      split
      next => exact hforgot
      next => exact hforgot.trans (unfiled_refreshSharedTable _)

theorem unfiled_onScriptLoad (s : Session) : s.Unfiled s.onScriptLoad := by
  unfold onScriptLoad
  split
  next => exact .refl s
  next => exact unfiled_onGround s fun g w => g.unfiled_loadScript w _

theorem unfiled_onSceneLoad (s : Session) : s.Unfiled s.onSceneLoad := by
  unfold onSceneLoad
  split
  next => exact .refl s
  next => exact unfiled_onGround s fun g w => g.unfiled_loadScene w _ _

theorem unfiled_onPrint (s : Session) (r : UInt8) : s.Unfiled (s.onPrint r) := by
  unfold onPrint
  split
  next => exact .refl s
  next => exact unfiled_send s _

theorem unfiled_onScriptPrint (s : Session) : s.Unfiled s.onScriptPrint := by
  unfold onScriptPrint
  dsimp only
  split
  next => exact .refl s
  next =>
    split
    next => exact unfiled_send s _
    next => exact .refl s

theorem unfiled_onDebugMode (s : Session) : s.Unfiled s.onDebugMode := by
  unfold onDebugMode
  split
  next => exact unfiled_of_eq rfl rfl
  next => exact .refl s

theorem unfiled_handle (s : Session) (h : Handler) : s.Unfiled (s.handle h) := by
  cases h with
  | opcode => exact unfiled_onOpcode s
  | sharedScript => exact unfiled_refreshSharedTable s
  | scriptLoad => exact unfiled_onScriptLoad s
  | sceneLoad => exact unfiled_onSceneLoad s
  | talkLoad => exact unfiled_onGround s fun g w => g.unfiled_loadTalk w _
  | groundStart => exact unfiled_onGround s Ground.unfiled_start
  | groundQuit => exact unfiled_onGround s Ground.unfiled_quit
  | mapChange => exact unfiled_onGround s Ground.unfiled_changeMap
  | print r => exact unfiled_onPrint s r
  | scriptPrint => exact unfiled_onScriptPrint s
  | flagQuestion bank => exact unfiled_of_eq rfl rfl
  | flagAnswer bank => exact unfiled_of_eq rfl rfl
  | flagChange bank => exact unfiled_of_workspace rfl (Workspace.unfiled_send s.workspace _)
  | debugMode => exact unfiled_onDebugMode s

theorem unfiled_runHandlers (handlers : List Handler) (s : Session) :
    s.Unfiled (runHandlers handlers s) := by
  induction handlers generalizing s with
  | nil => exact unfiled_of_eq rfl rfl
  | cons h rest ih =>
    have hfirst : s.Unfiled (s.handle h) := unfiled_handle s h
    unfold runHandlers
    dsimp only
    split
    next => exact hfirst.trans (unfiled_of_eq rfl rfl)
    next => exact hfirst.trans (ih _)

theorem unfiled_written (s : Session) (address : UInt32) : s.Unfiled (s.written address).2 :=
  List.foldlRecOn _ _ (.refl s) fun t ht h _ => ht.trans (unfiled_handle t h)

theorem unfiled_goOn (s : Session) : s.Unfiled s.goOn.2 := by
  unfold goOn
  split
  next => exact .refl s
  next heq => exact (unfiled_wakeUp? heq).trans (unfiled_runHandlers _ _)

theorem unfiled_disable (s : Session) : s.Unfiled s.disable.2 := by
  have hdropped : s.Unfiled s.failHalt.dropHooks := (unfiled_failHalt s).trans (unfiled_of_eq rfl rfl)
  exact hdropped.trans (unfiled_goOn _)

/-! ### Events and saves -/

theorem unfiled_withoutEvents (s : Session) : s.Unfiled s.withoutEvents :=
  unfiled_of_workspace rfl (unfiled_host s.workspace fun _ _ => .refl _ _)

theorem unfiled_takeEvent (s : Session) (event : Event) : s.Unfiled (s.takeEvent event).2 := by
  unfold takeEvent
  split
  next file =>
    have hreloaded := unfiled_applyReload s.workspace file
    dsimp only
    unfold Reload.apply
    split
    next w heq =>
      rw [heq] at hreloaded
      exact unfiled_of_workspace rfl hreloaded
    next w heq =>
      rw [heq] at hreloaded
      have hfirst : s.Unfiled { s with workspace := w } := unfiled_of_workspace rfl hreloaded
      exact hfirst.trans (unfiled_breakpoints (s := { s with workspace := w })
        (Breakpoints.spares_onReload w.project s.breakpoints w.host file))
  next => exact .refl s

theorem unfiled_takeEvents (events : List Event) (s : Session) :
    s.Unfiled (takeEvents events s).2 := by
  induction events generalizing s with
  | nil => exact .refl s
  | cons event rest ih => exact (unfiled_takeEvent s event).trans (ih _)

theorem unfiled_poll (s : Session) : s.Unfiled s.poll.2 :=
  ((unfiled_withoutEvents s).trans (unfiled_takeEvents _ _)).trans (unfiled_withoutEvents _)

/-- The breakpoints of a saved script follow. -/
theorem unfiled_finishSave (s : Session) (o : SaveOutcome) : s.Unfiled (s.finishSave o) := by
  have hfollowed := unfiled_breakpoints (s := s)
    (Breakpoints.spares_resync s.workspace.project s.breakpoints s.workspace.host
      (s.workspace.ramMatches o.file) o.file
      (Reload.carried o (s.breakpoints.latestOffsets o.file)))
  unfold finishSave Reload.finishSave
  dsimp only [Reload.within]
  split
  next => exact hfollowed.trans (unfiled_of_workspace rfl (Workspace.unfiled_send _ _))
  next => exact hfollowed

theorem unfiled_finishing {saved : Except Error SaveOutcome × Session} (h : s.Unfiled saved.2) :
    s.Unfiled (finishing saved).2 := by
  unfold finishing
  split
  next => exact h.trans (unfiled_finishSave _ _)
  next => exact h

theorem unfiled_saveSsbs (s : Session) (file text : String) : s.Unfiled (s.saveSsbs file text).2 :=
  unfiled_finishing (unfiled_onWorkspace s fun w => w.unfiled_saveSsbs file text)

theorem unfiled_reportFailed (path : Path) (s : Session) (outcome : MacroOutcome) :
    s.Unfiled (reportFailed path s outcome) := by
  unfold reportFailed
  split
  next => exact unfiled_send s _
  next => exact .refl s

/-! ### Breakpoints and save states -/

theorem unfiled_toggleFirst (s : Session) (file : String) (view : View)
    (opcodes : SourceMap → List UInt32) : s.Unfiled (s.toggleFirst file view opcodes).2 := by
  unfold toggleFirst
  split
  next =>
    split
    next => exact .refl s
    next offset _ =>
      exact unfiled_breakpoints (Breakpoints.spares_toggle _ s.breakpoints s.workspace.host file offset)
  next => exact .refl s

theorem unfiled_saveGround (s : Session) (slot : UInt32) : s.Unfiled (s.saveGround slot).2 := by
  have hwritten : s.Unfiled { s with workspace := s.workspace.withDisk (s.ground.snapshot.save
      s.workspace.host.disk (s.workspace.project.saveStatePath slot)).2 } := by
    refine unfiled_of_workspace rfl (unfiled_host s.workspace fun a ha => ?_)
    exact Project.spares_store (b := .saveState slot) ha trivial (by rintro rfl; exact ha) _ _ _ _
  unfold saveGround
  dsimp only
  split <;>
  next heq =>
    rw [heq] at hwritten
    exact hwritten

theorem unfiled_loadGround (s : Session) (slot : UInt32) : s.Unfiled (s.loadGround slot).2 := by
  unfold loadGround
  dsimp only
  split
  next => exact .refl s
  next snapshot _ => exact unfiled_of_workspace rfl (s.ground.unfiled_restore s.workspace snapshot)

/-! ### All of them -/

/-- An operation that puts no EXPS text into the project, or a change of what surrounds the session. -/
inductive Idle : Session → Session → Prop where
  | enable (s : Session) : Idle s s.enable.2
  | reach (s : Session) (address : UInt32) : Idle s (s.reach address).2
  | written (s : Session) (address : UInt32) : Idle s (s.written address).2
  | resume (s : Session) (d : Decision) : Idle s (s.resume d).2.2
  | disable (s : Session) : Idle s s.disable.2
  | descend (s : Session) : Idle s s.descend.2
  | watch (s : Session) (watcher : Nat) : Idle s (s.watch watcher)
  | poll (s : Session) : Idle s s.poll.2
  | get (s : Session) (file : String) : Idle s (s.onWorkspace fun w => w.get file).2
  | openEditor (s : Session) (file : String) : Idle s (s.onWorkspace fun w => w.openEditor file).2
  | loadSsbs (s : Session) (file : String) : Idle s (s.onWorkspace fun w => w.loadSsbs file).2
  | saveSsbs (s : Session) (file text : String) : Idle s (s.saveSsbs file text).2
  | toggleAtLine (s : Session) (file : String) (view : View) (line : UInt32) :
    Idle s (s.toggleAtLine file view line).2
  | toggleAtInlinedLine (s : Session) (file : String) (path : Path) (line : UInt32) :
    Idle s (s.toggleAtInlinedLine file path line).2
  | add (s : Session) (file : String) (offset : UInt32) :
    Idle s (s.onBreakpoints fun b h => b.add h file offset)
  | remove (s : Session) (file : String) (offset : UInt32) :
    Idle s (s.onBreakpoints fun b h => b.remove h file offset)
  | saveGround (s : Session) (slot : UInt32) : Idle s (s.saveGround slot).2
  | loadGround (s : Session) (slot : UInt32) : Idle s (s.loadGround slot).2
  /-- Switches and settings, the memory of the machine, the ROM, writes that are refused, and files
  that are none of the project's. -/
  | around {s t : Session} (h : s.Unfiled t) : Idle s t

theorem Idle.unfiled (h : s.Idle t) : s.Unfiled t := by
  cases h with
  | enable => exact unfiled_enable s
  | reach address => exact unfiled_runHandlers _ s
  | written address => exact unfiled_written s address
  | resume d => exact (unfiled_release s d).trans (unfiled_goOn _)
  | disable => exact unfiled_disable s
  | descend => exact unfiled_descend s
  | watch watcher => exact unfiled_watch s watcher
  | poll => exact unfiled_poll s
  | get file => exact unfiled_onWorkspace s fun w => w.unfiled_get file
  | openEditor file => exact unfiled_onWorkspace s fun w => w.unfiled_openEditor file
  | loadSsbs file => exact unfiled_onWorkspace s fun w => w.unfiled_loadSsbs file
  | saveSsbs file text => exact unfiled_saveSsbs s file text
  | toggleAtLine file view line => exact unfiled_toggleFirst s file view _
  | toggleAtInlinedLine file path line => exact unfiled_toggleFirst s file .exps _
  | add file offset => exact unfiled_breakpoints (Breakpoints.spares_add _ _ _ file offset)
  | remove file offset => exact unfiled_breakpoints (Breakpoints.spares_remove _ _ _ file offset)
  | saveGround slot => exact unfiled_saveGround s slot
  | loadGround slot => exact unfiled_loadGround s slot
  | around h => exact h

end Session

end SceneDebugger
