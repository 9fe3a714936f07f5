import SceneDebugger.Proofs.Breakpoints.Stored
import SceneDebugger.Proofs.Ground.Documents
import SceneDebugger.Proofs.Session.Idle
import SceneDebugger.Proofs.Session.Joint
import SceneDebugger.Proofs.Workspace.Footprints

/-!
# SceneDebugger.Proofs.Session.Footprints — what the operations of a session write and hook

Whatever is done in a session, the project stays where it is and the breakpoints stay in their file;
files are written at paths that the operation names, and hooks are registered and dropped by switching
debugging on and off only.

* `Session.Rewrites`: a change within a footprint.
* `Session.Acts`: the same, with the hooks left alone.
* `Session.Operation`, `Session.Operates`: the operations of a session, and runs of them.
* `Session.Operates.rewrites`: where a run writes.
* `Session.ArisesOver`: the sessions that operations lead to.
-/

namespace SceneDebugger

open Disk

/-! ### Breakpoints -/

/-- A call of the store writes its file only. -/
theorem BreakpointCall.rewrites_run (c : BreakpointCall) (b : Breakpoints) (h : Host) :
    (c.run b h).1.path = b.path ∧ Disk.Rewrites (· = b.path) h.disk (c.run b h).2.disk := by
  cases hc : c.writes b with
  | true =>
    obtain ⟨hpath, hdisk, -⟩ := run_of_writes (h := h) c hc
    exact ⟨hpath, hdisk ▸ .step (.refl h.disk) (by rfl) _⟩
  | false =>
    obtain ⟨hpath, hhost, -⟩ := run_of_not_writes (h := h) c hc
    rw [hhost]
    exact ⟨hpath, .refl h.disk⟩

namespace Session

variable {s t u : Session} {paths : Path → Prop} {scripts : String → Prop} {slots : UInt32 → Prop}
  {macros : Path → Prop}

/-! ### Changes within a footprint -/

/-- The project was changed within a footprint, the breakpoints stay in their file, and the place that
the game announces stays a number of 64 bits. -/
structure Rewrites (paths : Path → Prop) (scripts : String → Prop) (s t : Session) : Prop where
  workspace : s.workspace.Rewrites paths scripts t.workspace
  path : t.breakpoints.path = s.breakpoints.path
  fits : s.ground.Fits → t.ground.Fits

/-- The hooks that the session has, those that the machine has, and the id of the next one. -/
def hooking (s : Session) : List Nat × List Hook × Nat := (s.hooks, s.machine.hooks, s.machine.nextHook)

/-- A change within a footprint that leaves the hooks alone. -/
structure Acts (paths : Path → Prop) (scripts : String → Prop) (s t : Session) : Prop
    extends Rewrites paths scripts s t where
  hooking : t.hooking = s.hooking

theorem Rewrites.refl (s : Session) : Rewrites paths scripts s s := ⟨.refl _, rfl, id⟩

theorem Rewrites.trans (h : Rewrites paths scripts s t) (h' : Rewrites paths scripts t u) :
    Rewrites paths scripts s u :=
  ⟨h.workspace.trans h'.workspace, h'.path.trans h.path, fun hs => h'.fits (h.fits hs)⟩

theorem Acts.refl (s : Session) : Acts paths scripts s s := ⟨.refl s, rfl⟩

theorem Acts.trans (h : Acts paths scripts s t) (h' : Acts paths scripts t u) :
    Acts paths scripts s u :=
  ⟨h.toRewrites.trans h'.toRewrites, h'.hooking.trans h.hooking⟩

theorem Rewrites.housed (h : Rewrites paths scripts s t) (hs : s.Housed) : t.Housed := by
  obtain ⟨usage, husage⟩ := h.workspace.usage
  unfold Housed
  rw [h.path, hs, husage]
  rfl

/-- Nothing was written. -/
theorem rewrites_of_storage (hstorage : t.workspace.storage = s.workspace.storage)
    (hpath : t.breakpoints.path = s.breakpoints.path) (hground : t.ground = s.ground) :
    Rewrites paths scripts s t :=
  ⟨Workspace.rewrites_of_storage hstorage, hpath, fun hs => hground ▸ hs⟩

/-- Nothing was written, and the hooks were left alone. -/
theorem acts_of_storage (hstorage : t.workspace.storage = s.workspace.storage)
    (hpath : t.breakpoints.path = s.breakpoints.path) (hground : t.ground = s.ground)
    (hhooking : t.hooking = s.hooking) : Acts paths scripts s t :=
  ⟨rewrites_of_storage hstorage hpath hground, hhooking⟩

/-- Something was done in the workspace. -/
theorem acts_workspace {w : Workspace} (h : s.workspace.Rewrites paths scripts w) :
    Acts paths scripts s { s with workspace := w } := ⟨⟨h, rfl, id⟩, rfl⟩

/-- Something happened in the game. -/
theorem acts_onGround (s : Session) {f : Ground → Workspace → Ground × Workspace}
    (hstorage : ∀ (g : Ground) (w : Workspace), (f g w).2.storage = w.storage)
    (hfits : ∀ (g : Ground) (w : Workspace), g.Fits → (f g w).1.Fits) :
    Acts paths scripts s (s.onGround f) :=
  ⟨⟨Workspace.rewrites_of_storage (hstorage s.ground s.workspace), rfl, hfits s.ground s.workspace⟩,
    rfl⟩

/-- The breakpoints changed, and their file was written. -/
theorem acts_breakpoints (c : BreakpointCall) (hpath : paths s.breakpoints.path) :
    Acts paths scripts s { s with
      breakpoints := (c.run s.breakpoints s.workspace.host).1
      workspace := { s.workspace with host := (c.run s.breakpoints s.workspace.host).2 } } := by
  obtain ⟨hstays, hdisk⟩ := c.rewrites_run s.breakpoints s.workspace.host
  refine ⟨⟨Project.rewrites_disk s.workspace.project (hdisk.mono ?_), hstays, id⟩, rfl⟩
  rintro q rfl
  exact hpath

/-! ### Halts -/

theorem acts_onOpcode (s : Session) : Acts paths scripts s s.onOpcode := by
  unfold onOpcode
  split
  · exact .refl s
  · dsimp only
    split
    · exact acts_of_storage rfl rfl rfl rfl
    · exact acts_of_storage rfl rfl rfl rfl

theorem acts_release (s : Session) (d : Decision) : Acts paths scripts s (s.release d).2 := by
  unfold release
  split
  · exact .refl s
  · split <;> exact acts_of_storage rfl rfl rfl rfl

theorem acts_descend (s : Session) : Acts paths scripts s s.descend.2 := by
  unfold descend
  split
  · exact .refl s
  · exact acts_of_storage rfl rfl rfl rfl

theorem acts_watch (s : Session) (watcher : Nat) : Acts paths scripts s (s.watch watcher) := by
  unfold watch
  split
  · exact .refl s
  · exact acts_of_storage rfl rfl rfl rfl

theorem acts_wakeUp? {d : Decision} {watchers : List Nat} (h : s.wakeUp? = some (d, watchers, t)) :
    Acts paths scripts s t := by
  simp only [wakeUp?, Option.bind_eq_bind, Option.bind_eq_some_iff] at h
  obtain ⟨halt, -, ⟨d', watchers', halt'⟩, -, heq⟩ := h
  cases heq
  exact acts_of_storage rfl (Breakpoints.path_addStepTargets _ _) rfl rfl

theorem acts_failHalt (s : Session) : Acts paths scripts s s.failHalt := by
  unfold failHalt
  split
  · exact .refl s
  · next halt _ =>
    have hwarned : Acts paths scripts s { s with
        workspace := s.workspace.warn ("Failing outstanding halt at " ++ halt.describe) } :=
      acts_of_storage rfl rfl rfl rfl
    exact hwarned.trans (acts_release _ _)

/-! ### Handlers -/

theorem acts_refreshSharedTable (s : Session) : Acts paths scripts s s.refreshSharedTable := by
  unfold refreshSharedTable
  split <;> exact acts_of_storage rfl rfl rfl rfl

theorem toNat_fits (value : UInt32) : value.toNat < UInt64.size :=
  Nat.lt_trans value.toNat_lt_size (by decide)

theorem acts_onScriptLoad (s : Session) : Acts paths scripts s s.onScriptLoad := by
  unfold onScriptLoad
  split
  · exact .refl s
  · next file _ =>
    exact acts_onGround s (fun g w => g.storage_loadScript w file)
      fun g w _ => g.fits_loadScript w file

theorem acts_onSceneLoad (s : Session) : Acts paths scripts s s.onSceneLoad := by
  unfold onSceneLoad
  split
  · exact .refl s
  · next name _ =>
    exact acts_onGround s (fun g w => g.storage_loadScene w _ name)
      fun g w hg => Ground.fits_loadScene hg w (toNat_fits _) name

theorem acts_onTalkLoad (s : Session) : Acts paths scripts s s.onTalkLoad :=
  acts_onGround s (fun g w => g.storage_loadTalk w _) fun g w _ => g.fits_loadTalk w (toNat_fits _)

theorem acts_onPrint (s : Session) (r : UInt8) : Acts paths scripts s (s.onPrint r) := by
  unfold onPrint
  split
  · exact .refl s
  · exact acts_of_storage rfl rfl rfl rfl

theorem acts_onScriptPrint (s : Session) : Acts paths scripts s s.onScriptPrint := by
  unfold onScriptPrint
  dsimp only
  split
  · exact .refl s
  · split
    · exact acts_of_storage rfl rfl rfl rfl
    · exact .refl s

theorem acts_onDebugMode (s : Session) : Acts paths scripts s s.onDebugMode := by
  unfold onDebugMode
  split
  · exact acts_of_storage rfl rfl rfl rfl
  · exact .refl s

theorem acts_handle (s : Session) (h : Handler) : Acts paths scripts s (s.handle h) := by
  cases h with
  | opcode => exact acts_onOpcode s
  | sharedScript => exact acts_refreshSharedTable s
  | scriptLoad => exact acts_onScriptLoad s
  | sceneLoad => exact acts_onSceneLoad s
  | talkLoad => exact acts_onTalkLoad s
  | groundStart => exact acts_onGround s Ground.storage_start fun g _ _ => g.fits_emptied false true
  | groundQuit => exact acts_onGround s Ground.storage_quit fun g _ _ => g.fits_emptied false false
  | mapChange => exact acts_onGround s Ground.storage_changeMap fun g _ _ => g.fits_emptied true true
  | print r => exact acts_onPrint s r
  | scriptPrint => exact acts_onScriptPrint s
  | flagQuestion bank => exact acts_of_storage rfl rfl rfl rfl
  | flagAnswer bank => exact acts_of_storage rfl rfl rfl rfl
  | flagChange bank => exact acts_of_storage rfl rfl rfl rfl
  | debugMode => exact acts_onDebugMode s

theorem acts_runHandlers (handlers : List Handler) (s : Session) :
    Acts paths scripts s (runHandlers handlers s) := by
  induction handlers generalizing s with
  | nil => exact acts_of_storage rfl rfl rfl rfl
  | cons h rest ih =>
    have hfirst : Acts paths scripts s (s.handle h) := acts_handle s h
    unfold runHandlers
    dsimp only
    split
    · exact hfirst.trans (acts_of_storage rfl rfl rfl rfl)
    · exact hfirst.trans (ih _)

theorem acts_written (s : Session) (address : UInt32) :
    Acts paths scripts s (s.written address).2 :=
  List.foldlRecOn (motive := Acts paths scripts s) _ _ (.refl s)
    fun t ht h _ => ht.trans (acts_handle t h)

theorem acts_goOn (s : Session) : Acts paths scripts s s.goOn.2 := by
  unfold goOn
  split
  · exact .refl s
  · next heq => exact (acts_wakeUp? heq).trans (acts_runHandlers _ _)

theorem acts_resume (s : Session) (d : Decision) : Acts paths scripts s (s.resume d).2.2 :=
  (acts_release s d).trans (acts_goOn _)

/-! ### Switching debugging on and off -/

theorem rewrites_addFeature (s : Session) (name : String) (requests : List HookRequest) :
    Rewrites paths scripts s (s.addFeature name requests) := by
  unfold addFeature
  split <;> exact rewrites_of_storage rfl rfl rfl

theorem rewrites_enable (s : Session) : Rewrites paths scripts s s.enable.2 := by
  unfold enable
  split
  · exact .refl s
  · dsimp only
    split
    · exact rewrites_of_storage rfl rfl rfl
    · next ids machine _ =>
      have hforgot : Rewrites paths scripts s { s with
          machine, hooks := ids, switches := s.switches.forgetQuestions } :=
        rewrites_of_storage rfl rfl rfl
      refine List.foldlRecOn (motive := Rewrites paths scripts s) _ _ ?_ fun t ht feature _ =>
        ht.trans (rewrites_addFeature t feature.1 feature.2)
      split
      · exact hforgot
      · exact hforgot.trans (acts_refreshSharedTable _).toRewrites

theorem rewrites_disable (s : Session) : Rewrites paths scripts s s.disable.2 := by
  have hdropped : Rewrites paths scripts s s.failHalt.dropHooks :=
    (acts_failHalt s).toRewrites.trans (rewrites_of_storage rfl rfl rfl)
  exact hdropped.trans (acts_goOn _).toRewrites

/-! ### Reloads and saves -/

theorem acts_withoutEvents (s : Session) : Acts paths scripts s s.withoutEvents :=
  acts_of_storage rfl rfl rfl rfl

theorem acts_applyReload (s : Session) (hpath : paths s.breakpoints.path) (file : String) :
    Acts paths scripts s { s with
      breakpoints := (Reload.apply s.breakpoints s.workspace file).2.1
      workspace := (Reload.apply s.breakpoints s.workspace file).2.2 } := by
  have hreloaded := s.workspace.storage_applyReload file
  unfold Reload.apply
  split
  · next w heq =>
    rw [heq] at hreloaded
    exact acts_workspace (Workspace.rewrites_of_storage hreloaded)
  · next w heq =>
    rw [heq] at hreloaded
    have hfirst : Acts paths scripts s { s with workspace := w } :=
      acts_workspace (Workspace.rewrites_of_storage hreloaded)
    exact hfirst.trans (acts_breakpoints (s := { s with workspace := w }) (.onReload file) hpath)

theorem acts_takeEvent (s : Session) (hpath : paths s.breakpoints.path) (event : Event) :
    Acts paths scripts s (s.takeEvent event).2 := by
  unfold takeEvent
  split
  · exact acts_applyReload s hpath _
  · exact .refl s

theorem acts_takeEvents (events : List Event) (s : Session) (hpath : paths s.breakpoints.path) :
    Acts paths scripts s (takeEvents events s).2 := by
  induction events generalizing s with
  | nil => exact .refl s
  | cons event rest ih =>
    have hfirst : Acts paths scripts s (s.takeEvent event).2 := acts_takeEvent s hpath event
    exact hfirst.trans (ih _ (hfirst.path ▸ hpath))

theorem acts_poll (s : Session) (hpath : paths s.breakpoints.path) :
    Acts paths scripts s s.poll.2 :=
  ((acts_withoutEvents s).trans (acts_takeEvents _ _ hpath)).trans (acts_withoutEvents _)

/-- The breakpoints of a saved script follow. -/
theorem acts_finishSave (s : Session) (hpath : paths s.breakpoints.path) (o : SaveOutcome) :
    Acts paths scripts s (s.finishSave o) := by
  have hfollowed : Acts paths scripts s _ := acts_breakpoints (.resync (s.workspace.ramMatches o.file)
    o.file (Reload.carried o (s.breakpoints.latestOffsets o.file))) hpath
  unfold finishSave Reload.finishSave
  dsimp only [Reload.within]
  split
  · exact hfollowed.trans (acts_of_storage rfl rfl rfl rfl)
  · exact hfollowed

theorem acts_finishing {saved : Except Error SaveOutcome × Session} (h : Acts paths scripts s saved.2)
    (hpath : paths s.breakpoints.path) : Acts paths scripts s (finishing saved).2 := by
  unfold finishing
  split
  · next o t => exact h.trans (acts_finishSave t (by rw [h.path]; exact hpath) o)
  · exact h

theorem acts_saveSsbs (s : Session) (file text : String) (hpath : paths s.breakpoints.path) :
    Acts paths scripts s (s.saveSsbs file text).2 :=
  acts_finishing
    (acts_workspace (Workspace.rewrites_of_storage (s.workspace.storage_saveSsbs file text))) hpath

theorem acts_saveExps (s : Session) (file text : String) (hpath : paths s.breakpoints.path)
    (hown : ∀ q, s.workspace.project.Own file q → paths q) (hfile : scripts file) :
    Acts paths scripts s (s.saveExps file text).2 :=
  acts_finishing (acts_workspace (s.workspace.rewrites_saveExps file text hown hfile)) hpath

theorem acts_finishSaves (outcomes : List SaveOutcome) (s : Session)
    (hpath : paths s.breakpoints.path) : Acts paths scripts s (outcomes.foldl finishSave s) := by
  induction outcomes generalizing s with
  | nil => exact .refl s
  | cons o rest ih =>
    have hfirst : Acts paths scripts s (s.finishSave o) := acts_finishSave s hpath o
    exact hfirst.trans (ih _ (hfirst.path ▸ hpath))

theorem acts_reports (path : Path) (outcomes : List MacroOutcome) (s : Session) :
    Acts paths scripts s (outcomes.foldl (reportFailed path) s) := by
  refine List.foldlRecOn (motive := Acts paths scripts s) _ _ (.refl s) fun t ht outcome _ =>
    ht.trans ?_
  unfold reportFailed
  split
  · exact acts_of_storage rfl rfl rfl rfl
  · exact .refl t

/-- A shared file is saved, the scripts that call it are compiled anew, and their breakpoints
follow. -/
theorem acts_saveMacro (s : Session) (path : Path) (text : String)
    (hbreakpoints : paths s.breakpoints.path) (hpath : paths path)
    (hown : ∀ file q, s.workspace.project.Own file q → paths q) (hscripts : ∀ file, scripts file) :
    Acts paths scripts s (s.saveMacro path text).2 := by
  have hsaved : Acts paths scripts s { s with workspace :=
      (s.workspace.saveMacro path text (s.workspace.project.dependents path)).2 } :=
    acts_workspace (s.workspace.rewrites_saveMacro path text _ hpath (fun file _ => hown file)
      fun file _ => hscripts file)
  have hanswer : (s.onWorkspace fun w => w.saveMacro path text (w.project.dependents path)) =
      ((s.workspace.saveMacro path text (s.workspace.project.dependents path)).1, { s with
        workspace := (s.workspace.saveMacro path text (s.workspace.project.dependents path)).2 }) := rfl
  rw [saveMacro, hanswer]
  generalize s.workspace.saveMacro path text (s.workspace.project.dependents path) = saved at hsaved
  obtain ⟨answer, w⟩ := saved
  cases answer with
  | error e => exact hsaved
  | ok outcomes =>
    have hfinished := hsaved.trans (acts_finishSaves (recompiled outcomes) _ hbreakpoints)
    refine hfinished.trans ?_
    rw [← finishMacroSave_eq]
    exact acts_reports path outcomes _

/-! ### Editors, breakpoints and save states -/

theorem acts_toggleFirst (s : Session) (file : String) (view : View)
    (opcodes : SourceMap → List UInt32) (hpath : paths s.breakpoints.path) :
    Acts paths scripts s (s.toggleFirst file view opcodes).2 := by
  unfold toggleFirst
  split
  · split
    · exact .refl s
    · next offset _ => exact acts_breakpoints (.toggle file offset) hpath
  · exact .refl s

theorem acts_saveGround (s : Session) (slot : UInt32)
    (hpath : paths (s.workspace.project.saveStatePath slot)) :
    Acts paths scripts s (s.saveGround slot).2 := by
  have hwritten : Acts paths scripts s { s with workspace := s.workspace.withDisk (s.ground.snapshot.save
      s.workspace.host.disk (s.workspace.project.saveStatePath slot)).2 } :=
    acts_workspace (Workspace.rewrites_withDisk (Project.rewrites_store hpath _ _ _))
  unfold saveGround
  dsimp only
  split <;>
  next heq =>
    rw [heq] at hwritten
    exact hwritten

theorem acts_loadGround (s : Session) (slot : UInt32) :
    Acts paths scripts s (s.loadGround slot).2 := by
  unfold loadGround
  dsimp only
  split
  · exact .refl s
  · next snapshot hload =>
    exact ⟨⟨Workspace.rewrites_of_storage (s.ground.storage_restore s.workspace snapshot), rfl,
      fun _ => Ground.fits_restore (GroundSnapshot.fits_of_load hload) s.ground s.workspace⟩, rfl⟩

/-! ### All operations -/

/-- What the game reports. -/
inductive GroundEvent where
  | start
  | quit
  | changeMap
  | loadScript (file : String)
  | loadScene (hanger : UInt64) (name : String)
  | loadTalk (hanger : UInt64)

/-- What a report changes. -/
def GroundEvent.run : GroundEvent → Ground → Workspace → Ground × Workspace
  | .start, g, w => g.start w
  | .quit, g, w => g.quit w
  | .changeMap, g, w => g.changeMap w
  | .loadScript file, g, w => g.loadScript w file
  | .loadScene hanger name, g, w => g.loadScene w hanger.toNat name
  | .loadTalk hanger, g, w => g.loadTalk w hanger.toNat

theorem acts_groundEvent (s : Session) (event : GroundEvent) :
    Acts paths scripts s (s.onGround event.run) := by
  cases event with
  | start => exact acts_onGround s Ground.storage_start fun g _ _ => g.fits_emptied false true
  | quit => exact acts_onGround s Ground.storage_quit fun g _ _ => g.fits_emptied false false
  | changeMap => exact acts_onGround s Ground.storage_changeMap fun g _ _ => g.fits_emptied true true
  | loadScript file =>
    exact acts_onGround s (fun g w => g.storage_loadScript w file) fun g w _ => g.fits_loadScript w file
  | loadScene hanger name =>
    exact acts_onGround s (fun g w => g.storage_loadScene w _ name)
      fun g w hg => Ground.fits_loadScene hg w hanger.toNat_lt_size name
  | loadTalk hanger =>
    exact acts_onGround s (fun g w => g.storage_loadTalk w _)
      fun g w _ => g.fits_loadTalk w hanger.toNat_lt_size

/-- Only what surrounds the session has changed, or what it keeps in memory of halts and switches: the files
in use, the places of the game, the project, the files on the disk and the hooks are as they were. -/
structure Around (s t : Session) : Prop extends Beside s t where
  project : t.workspace.project = s.workspace.project
  nodes : t.workspace.host.disk.nodes = s.workspace.host.disk.nodes
  path : t.breakpoints.path = s.breakpoints.path
  hooking : t.hooking = s.hooking

theorem Around.acts (h : s.Around t) : Acts paths scripts s t := by
  refine ⟨⟨?_, h.path, fun hs => h.ground ▸ hs⟩, h.hooking⟩
  unfold Workspace.Rewrites
  rw [h.project]
  exact Project.rewrites_disk _ (.refusals (.refl _) h.nodes)

/-- What can be done to a session with hooks or without, given the save states and the shared files
that may be saved.  What the user is asked before an editor is closed may take some time, in which
other operations are carried out. -/
inductive Operation (slots : UInt32 → Prop) (macros : Path → Prop) : Session → Session → Prop where
  | reach (s : Session) (address : UInt32) : Operation slots macros s (s.reach address).2
  | written (s : Session) (address : UInt32) : Operation slots macros s (s.written address).2
  | ground (s : Session) (event : GroundEvent) : Operation slots macros s (s.onGround event.run)
  | resume (s : Session) (d : Decision) : Operation slots macros s (s.resume d).2.2
  | descend (s : Session) : Operation slots macros s s.descend.2
  | watch (s : Session) (watcher : Nat) : Operation slots macros s (s.watch watcher)
  | poll (s : Session) : Operation slots macros s s.poll.2
  | get (s : Session) (file : String) :
    Operation slots macros s (s.onWorkspace fun w => w.get file).2
  | openEditor (s : Session) (file : String) :
    Operation slots macros s (s.onWorkspace fun w => w.openEditor file).2
  | finishClose (s : Session) (file : String) :
    Operation slots macros s { s with workspace := s.workspace.finishClose file }
  | loadSsbs (s : Session) (file : String) :
    Operation slots macros s (s.onWorkspace fun w => w.loadSsbs file).2
  | loadExps (s : Session) (file : String) (mode : ExpsLoadMode) :
    Operation slots macros s (s.onWorkspace fun w => w.loadExps file mode).2
  | saveSsbs (s : Session) (file text : String) : Operation slots macros s (s.saveSsbs file text).2
  | saveExps (s : Session) (file text : String) : Operation slots macros s (s.saveExps file text).2
  | saveMacro (s : Session) (path : Path) (text : String) (hpath : macros path) :
    Operation slots macros s (s.saveMacro path text).2
  | toggleAtLine (s : Session) (file : String) (view : View) (line : UInt32) :
    Operation slots macros s (s.toggleAtLine file view line).2
  | toggleAtInlinedLine (s : Session) (file : String) (path : Path) (line : UInt32) :
    Operation slots macros s (s.toggleAtInlinedLine file path line).2
  | add (s : Session) (file : String) (offset : UInt32) :
    Operation slots macros s (s.onBreakpoints fun b h => b.add h file offset)
  | remove (s : Session) (file : String) (offset : UInt32) :
    Operation slots macros s (s.onBreakpoints fun b h => b.remove h file offset)
  | saveGround (s : Session) (slot : UInt32) (hslot : slots slot) :
    Operation slots macros s (s.saveGround slot).2
  | loadGround (s : Session) (slot : UInt32) : Operation slots macros s (s.loadGround slot).2
  | around {s t : Session} (h : s.Around t) : Operation slots macros s t

/-- A run of operations, in any order. -/
inductive Operates (slots : UInt32 → Prop) (macros : Path → Prop) : Session → Session → Prop where
  | refl (s : Session) : Operates slots macros s s
  | trans {s t u : Session} (h : Operates slots macros s t) (h' : Operates slots macros t u) :
    Operates slots macros s u
  | operation {s t : Session} (h : Operation slots macros s t) : Operates slots macros s t
  | enable (s : Session) : Operates slots macros s s.enable.2
  | disable (s : Session) : Operates slots macros s s.disable.2
  | closeEditor (s : Session) (file : String) (confirm : Session → Bool × Session)
    (h : ∀ t, Operates slots macros t (confirm t).2) :
    Operates slots macros s (s.closeEditor file confirm).2

end Session

namespace Project

/-- Where operations write: beside the texts of scripts, the breakpoints, and what may be saved. -/
def Allowed (p : Project) (slots : UInt32 → Prop) (macros : Path → Prop) (q : Path) : Prop :=
  (∃ file, p.Own file q) ∨ q = p.breakpointsPath ∨ (∃ slot, slots slot ∧ q = p.saveStatePath slot) ∨
    macros q

end Project

namespace Session

variable {s t u : Session} {slots : UInt32 → Prop} {macros : Path → Prop}

/-- Within the paths at which operations of the session may write. -/
abbrev Allows (s : Session) (slots : UInt32 → Prop) (macros : Path → Prop) : Path → Prop :=
  s.workspace.project.Allowed slots macros

/-- An operation writes where operations may, and leaves the hooks alone. -/
theorem Operation.acts (h : Operation slots macros s t) (hs : s.Housed) :
    Acts (s.Allows slots macros) (fun _ => True) s t := by
  have hpath : s.Allows slots macros s.breakpoints.path := .inr (.inl hs)
  have hown : ∀ file q, s.workspace.project.Own file q → s.Allows slots macros q :=
    fun file q hq => .inl ⟨file, hq⟩
  cases h with
  | reach address => exact acts_runHandlers _ s
  | written address => exact acts_written s address
  | ground event => exact acts_groundEvent s event
  | resume d => exact acts_resume s d
  | descend => exact acts_descend s
  | watch watcher => exact acts_watch s watcher
  | poll => exact acts_poll s hpath
  | get file => exact acts_workspace (Workspace.rewrites_of_storage (s.workspace.storage_get file))
  | openEditor file =>
    exact acts_workspace (Workspace.rewrites_of_storage (s.workspace.storage_openEditor file))
  | finishClose file =>
    exact acts_workspace (Workspace.rewrites_of_storage (s.workspace.storage_finishClose file))
  | loadSsbs file =>
    exact acts_workspace (Workspace.rewrites_of_storage (s.workspace.storage_loadSsbs file))
  | loadExps file mode =>
    exact acts_workspace (s.workspace.rewrites_loadExps file mode fun f _ _ => hown f.name)
  | saveSsbs file text => exact acts_saveSsbs s file text hpath
  | saveExps file text => exact acts_saveExps s file text hpath (hown file) trivial
  | saveMacro path text hmacro =>
    exact acts_saveMacro s path text hpath (.inr (.inr (.inr hmacro))) hown fun _ => trivial
  | toggleAtLine file view line => exact acts_toggleFirst s file view _ hpath
  | toggleAtInlinedLine file path line => exact acts_toggleFirst s file .exps _ hpath
  | add file offset => exact acts_breakpoints (.add file offset) hpath
  | remove file offset => exact acts_breakpoints (.remove file offset) hpath
  | saveGround slot hslot => exact acts_saveGround s slot (.inr (.inr (.inl ⟨slot, hslot, rfl⟩)))
  | loadGround slot => exact acts_loadGround s slot
  | around h => exact h.acts

theorem rewrites_closeEditor {paths : Path → Prop} {scripts : String → Prop} (s : Session)
    (file : String) {confirm : Session → Bool × Session}
    (h : Rewrites paths scripts s (confirm s).2) :
    Rewrites paths scripts s (s.closeEditor file confirm).2 := by
  have hclosed : ∀ t : Session,
      Rewrites paths scripts t { t with workspace := t.workspace.finishClose file } :=
    fun t => rewrites_of_storage (t.workspace.storage_finishClose file) rfl rfl
  unfold closeEditor
  dsimp only
  split
  · split
    · next heq =>
      rw [heq] at h
      exact h.trans (hclosed _)
    · next heq =>
      rw [heq] at h
      exact h
  · exact hclosed s

/-- Where a run writes. -/
theorem Operates.rewrites (h : Operates slots macros s t) (hs : s.Housed) :
    Rewrites (s.Allows slots macros) (fun _ => True) s t := by
  induction h with
  | refl s => exact .refl s
  | @trans s t u _ _ ih ih' =>
    have hfirst := ih hs
    obtain ⟨usage, husage⟩ := hfirst.workspace.usage
    have hsame : t.Allows slots macros = s.Allows slots macros := by
      rw [Allows, husage]
      rfl
    exact hfirst.trans (hsame ▸ ih' (hfirst.housed hs))
  | operation h => exact (h.acts hs).toRewrites
  | enable s => exact rewrites_enable s
  | disable s => exact rewrites_disable s
  | closeEditor s file confirm _ ih => exact rewrites_closeEditor s file (ih s hs)

theorem Operates.housed (h : Operates slots macros s t) (hs : s.Housed) : t.Housed :=
  (h.rewrites hs).housed hs

/-- A new session has its breakpoints in the project's file. -/
theorem housed_start (settings : Settings) (layout : EngineLayout) (machine : Machine)
    (compiler : Compiler) (rom : Rom) (host : Host) (root : Path) (romName : String) :
    (start settings layout machine compiler rom host root romName).Housed := by
  unfold start Housed
  dsimp only
  rw [Breakpoints.load_fst]

/-! ### Sessions that arise -/

theorem GroundEvent.reaches (s : Session) (event : GroundEvent) : s.Reaches (s.onGround event.run) := by
  cases event with
  | start => exact s.reaches_perform .startGround
  | quit => exact s.reaches_perform .quitGround
  | changeMap => exact s.reaches_perform .changeMap
  | loadScript file => exact s.reaches_perform (.loadScript file)
  | loadScene hanger name => exact s.reaches_perform (.loadScene _ name)
  | loadTalk hanger => exact s.reaches_perform (.loadTalk _)

/-- Every operation is a run of actions. -/
theorem Operation.reaches (h : Operation slots macros s t) : s.Reaches t := by
  cases h with
  | reach address => exact reaches_runHandlers _ s
  | written address => exact reaches_written s address
  | ground event => exact event.reaches s
  | resume d => exact (beside_release s d).reaches.trans (reaches_goOn _)
  | descend => exact (beside_descend s).reaches
  | watch watcher => exact (beside_watch s watcher).reaches
  | poll => exact reaches_poll s
  | get file => exact s.reaches_perform (.fetch file)
  | openEditor file => exact s.reaches_perform (.openEditor file)
  | finishClose file => exact s.reaches_perform (.closeEditor file)
  | loadSsbs file => exact s.reaches_perform (.loadSsbs file)
  | loadExps file mode => exact s.reaches_perform (.loadExps file mode)
  | saveSsbs file text => exact reaches_finishing (s.reaches_perform (.saveSsbs file text))
  | saveExps file text => exact reaches_finishing (s.reaches_perform (.saveExps file text))
  | saveMacro path text => exact reaches_saveMacro s path text
  | toggleAtLine file view line => exact (beside_toggleFirst s file view _).reaches
  | toggleAtInlinedLine file path line => exact (beside_toggleFirst s file .exps _).reaches
  | add file offset => exact Beside.reaches ⟨rfl, (Workspace.beside_host _ _).outside⟩
  | remove file offset => exact Beside.reaches ⟨rfl, (Workspace.beside_host _ _).outside⟩
  | saveGround slot => exact (beside_saveGround s slot).reaches
  | loadGround slot => exact reaches_loadGround s slot
  | around h => exact h.toBeside.reaches

theorem Operates.reaches (h : Operates slots macros s t) : s.Reaches t := by
  induction h with
  | refl s => exact .refl s
  | trans _ _ ih ih' => exact ih.trans ih'
  | operation h => exact h.reaches
  | enable s => exact (beside_enable s).reaches
  | disable s =>
    have hdropped : s.Beside s.failHalt.dropHooks := (beside_failHalt s).trans ⟨rfl, .refl _⟩
    exact hdropped.reaches.trans (reaches_goOn _)
  | closeEditor s file confirm _ ih => exact reaches_closeEditor s file ih

/-- The session came out of a new one over the machine, by operations. -/
def ArisesOver (machine : Machine) (s : Session) : Prop :=
  ∃ settings layout compiler rom host root romName,
    Operates (fun _ => True) (fun _ => True)
      (start settings layout machine compiler rom host root romName) s

theorem ArisesOver.housed {machine : Machine} (h : s.ArisesOver machine) : s.Housed := by
  obtain ⟨settings, layout, compiler, rom, host, root, romName, hrun⟩ := h
  exact hrun.housed (housed_start settings layout machine compiler rom host root romName)

theorem ArisesOver.reachable {machine : Machine} (h : s.ArisesOver machine) : s.Reachable := by
  obtain ⟨settings, layout, compiler, rom, host, root, romName, hrun⟩ := h
  exact ⟨_, fresh_start settings layout machine compiler rom host root romName, hrun.reaches⟩

end Session

end SceneDebugger
