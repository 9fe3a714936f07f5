import SceneDebugger.Proofs.Session.Run
import SceneDebugger.Proofs.Workspace.Changes

/-!
# SceneDebugger.Proofs.Session.Operated — the operations of a session are runs

What the user asks a session for, and what the machine makes it do, is a run of actions each time.  So
whatever holds after every run holds of every session that anyone can get to.

* `Session.Operated`: the operations of a session, in any order.
* `Session.Operated.reaches`: they are runs.
-/

namespace SceneDebugger

/-! ### Breakpoints and reloads -/

namespace Reload

open Workspace

theorem beside_finishSave (b : Breakpoints) (w : Workspace) (o : SaveOutcome) :
    w.Beside (finishSave b w o).2 := by
  unfold finishSave
  dsimp only [within]
  split_ifs
  · exact (beside_host w _).trans (beside_send _ _)
  · exact beside_host w _

theorem beside_finishMacroSave (b : Breakpoints) (w : Workspace) (outcomes : List MacroOutcome) :
    w.Beside (finishMacroSave b w outcomes).2 := by
  unfold finishMacroSave
  induction outcomes generalizing b w with
  | nil => exact .refl w
  | cons outcome outcomes ih =>
    rw [List.foldl_cons]
    cases outcome with
    | recompiled o => exact (beside_finishSave b w o).trans (ih _ _)
    | skippedStale file => exact ih b w
    | failed file error => exact ih b w

/-- A reload concerns the files as the plain one does. -/
theorem beside_apply (b : Breakpoints) (w : Workspace) (file : String) :
    (w.applyReload file).2.Beside (apply b w file).2.2 := by
  unfold apply
  split
  · next v heq =>
    rw [heq]
    exact .refl v
  · next v heq =>
    rw [heq]
    exact beside_host v _

end Reload

namespace Session

open Workspace

variable {s t u : Session}

/-! ### Halts -/

theorem beside_withWorkspace {w : Workspace} (h : s.workspace.Beside w) :
    s.Beside { s with workspace := w } := ⟨rfl, h.outside⟩

theorem beside_send (s : Session) (event : Event) : s.Beside (s.send event) :=
  ⟨rfl, (Workspace.beside_send s.workspace event).outside⟩

theorem beside_changeHalt (s : Session) (before after : HaltRecord) :
    s.Beside (s.changeHalt before after) := ⟨rfl, (beside_host s.workspace _).outside⟩

theorem beside_onOpcode (s : Session) : s.Beside s.onOpcode := by
  unfold onOpcode
  split
  · exact .refl s
  · dsimp only
    split_ifs
    · exact ⟨rfl, (Workspace.beside_send s.workspace _).outside⟩
    · exact ⟨rfl, .refl _⟩

theorem beside_release (s : Session) (d : Decision) : s.Beside (s.release d).2 := by
  unfold release
  split
  · exact .refl s
  · split
    · exact beside_changeHalt s _ _
    · exact beside_withWorkspace (beside_warn s.workspace _)

theorem beside_descend (s : Session) : s.Beside s.descend.2 := by
  unfold descend
  split
  · exact .refl s
  · exact beside_changeHalt s _ _

theorem beside_watch (s : Session) (watcher : Nat) : s.Beside (s.watch watcher) := by
  unfold watch
  split
  · exact .refl s
  · exact beside_changeHalt s _ _

theorem beside_wakeUp? {d : Decision} {watchers : List Nat} (h : s.wakeUp? = some (d, watchers, t)) :
    s.Beside t := by
  simp only [wakeUp?, Option.bind_eq_bind, Option.bind_eq_some_iff] at h
  obtain ⟨halt, -, ⟨d', watchers', halt'⟩, -, heq⟩ := h
  cases heq
  exact ⟨rfl, .refl _⟩

theorem beside_failHalt (s : Session) : s.Beside s.failHalt := by
  unfold failHalt
  split
  · exact .refl s
  · exact (beside_withWorkspace (beside_warn s.workspace _)).trans (beside_release _ _)

/-! ### Hooks -/

theorem beside_refreshSharedTable (s : Session) : s.Beside s.refreshSharedTable := by
  unfold refreshSharedTable
  split <;> exact ⟨rfl, .refl _⟩

theorem beside_onPrint (s : Session) (r : UInt8) : s.Beside (s.onPrint r) := by
  unfold onPrint
  split
  · exact .refl s
  · exact beside_send s _

theorem beside_onScriptPrint (s : Session) : s.Beside s.onScriptPrint := by
  unfold onScriptPrint
  dsimp only
  split
  · exact .refl s
  · split
    · exact beside_send s _
    · exact .refl s

theorem beside_addFeature (s : Session) (name : String) (requests : List HookRequest) :
    s.Beside (s.addFeature name requests) := by
  unfold addFeature
  split
  · exact ⟨rfl, .refl _⟩
  · exact ⟨rfl, (beside_host s.workspace _).outside⟩

theorem beside_enable (s : Session) : s.Beside s.enable.2 := by
  unfold enable
  split_ifs
  · exact .refl s
  · dsimp only
    split
    · exact ⟨rfl, .refl _⟩
    · next ids machine _ =>
      have hforgot : s.Beside { s with
          machine, hooks := ids, switches := s.switches.forgetQuestions } := ⟨rfl, .refl _⟩
      refine List.foldlRecOn _ _ ?_ fun t ht feature _ => ht.trans (beside_addFeature t feature.1 feature.2)
      split_ifs
      · exact hforgot
      · exact hforgot.trans (beside_refreshSharedTable _)

theorem reaches_onScriptLoad (s : Session) : s.Reaches s.onScriptLoad := by
  unfold onScriptLoad
  split
  · exact .refl s
  · exact s.reaches_perform (.loadScript _)

theorem reaches_onSceneLoad (s : Session) : s.Reaches s.onSceneLoad := by
  unfold onSceneLoad
  split
  · exact .refl s
  · exact s.reaches_perform (.loadScene _ _)

theorem beside_onDebugMode (s : Session) : s.Beside s.onDebugMode := by
  unfold onDebugMode
  split_ifs
  · exact ⟨rfl, .refl _⟩
  · exact .refl s

/-- A handler is one action. -/
theorem reaches_handle (s : Session) (h : Handler) : s.Reaches (s.handle h) := by
  cases h with
  | opcode => exact (beside_onOpcode s).reaches
  | sharedScript => exact (beside_refreshSharedTable s).reaches
  | scriptLoad => exact reaches_onScriptLoad s
  | sceneLoad => exact reaches_onSceneLoad s
  | talkLoad => exact s.reaches_perform (.loadTalk _)
  | groundStart => exact s.reaches_perform .startGround
  | groundQuit => exact s.reaches_perform .quitGround
  | mapChange => exact s.reaches_perform .changeMap
  | print r => exact (beside_onPrint s r).reaches
  | scriptPrint => exact (beside_onScriptPrint s).reaches
  | flagQuestion bank => exact Beside.reaches ⟨rfl, .refl _⟩
  | flagAnswer bank => exact Beside.reaches ⟨rfl, .refl _⟩
  | flagChange bank => exact Beside.reaches ⟨rfl, (Workspace.beside_send s.workspace _).outside⟩
  | debugMode => exact (beside_onDebugMode s).reaches

theorem reaches_runHandlers (handlers : List Handler) (s : Session) :
    s.Reaches (runHandlers handlers s) := by
  induction handlers generalizing s with
  | nil => exact Beside.reaches ⟨rfl, .refl _⟩
  | cons h rest ih =>
    have hfirst : s.Reaches (s.handle h) := reaches_handle s h
    unfold runHandlers
    dsimp only
    split_ifs
    · exact hfirst.trans (Beside.reaches ⟨rfl, .refl _⟩)
    · exact hfirst.trans (ih (s.handle h))

theorem reaches_written (s : Session) (address : UInt32) : s.Reaches (s.written address).2 :=
  List.foldlRecOn _ _ (.refl s) fun t ht h _ => ht.trans (reaches_handle t h)

theorem reaches_goOn (s : Session) : s.Reaches s.goOn.2 := by
  unfold goOn
  split
  · exact .refl s
  · next heq => exact (beside_wakeUp? heq).reaches.trans (reaches_runHandlers _ _)

/-! ### Events -/

theorem beside_withoutEvents (s : Session) : s.Beside s.withoutEvents :=
  ⟨rfl, (beside_host s.workspace _).outside⟩

theorem reaches_takeEvent (s : Session) (event : Event) : s.Reaches (s.takeEvent event).2 := by
  unfold takeEvent
  split
  · next file =>
    refine (s.reaches_perform (.reload file)).trans (Beside.reaches ⟨rfl, ?_⟩)
    exact (Reload.beside_apply s.breakpoints s.workspace file).outside
  · exact .refl s

theorem reaches_takeEvents (events : List Event) (s : Session) :
    s.Reaches (takeEvents events s).2 := by
  induction events generalizing s with
  | nil => exact .refl s
  | cons event rest ih => exact (reaches_takeEvent s event).trans (ih _)

/-- A poll is one reload after the other. -/
theorem reaches_poll (s : Session) : s.Reaches s.poll.2 :=
  ((beside_withoutEvents s).reaches.trans (reaches_takeEvents _ _)).trans
    (beside_withoutEvents _).reaches

/-! ### Saves -/

theorem reaches_finishing {saved : Except Error SaveOutcome × Session} (h : s.Reaches saved.2) :
    s.Reaches (finishing saved).2 := by
  unfold finishing
  split
  · exact h.trans (Beside.reaches ⟨rfl, (Reload.beside_finishSave _ _ _).outside⟩)
  · exact h

/-- Actions lead from a session with one workspace to the same session with the other. -/
def Leads (w w' : Workspace) : Prop :=
  ∀ s : Session, s.workspace = w → s.Reaches { s with workspace := w' }

theorem Leads.trans {w w' w'' : Workspace} (h : Leads w w') (h' : Leads w' w'') : Leads w w'' :=
  fun s hs => (h s hs).trans (h' { s with workspace := w' } rfl)

theorem leads_of_beside {w w' : Workspace} (h : w.Beside w') : Leads w w' := by
  rintro s rfl
  exact (beside_withWorkspace h).reaches

theorem leads_hash (w : Workspace) (name : String) : Leads w (w.hash name).2 := by
  rintro s rfl
  rw [Workspace.hash, Workspace.ask_snd]
  exact s.reaches_perform (.fetch name)

theorem leads_saveExps (w : Workspace) (name text : String) : Leads w (w.saveExps name text).2 := by
  rintro s rfl
  exact s.reaches_perform (.saveExps name text)

theorem leads_recompile (w : Workspace) (path : Path) (name : String) :
    Leads w (w.recompile path name).2 := by
  have hhash := leads_hash w name
  unfold Workspace.recompile
  split
  · next heq =>
    rw [heq] at hhash
    exact hhash
  · next hash v heq =>
    rw [heq] at hhash
    split_ifs
    · split
      · exact hhash
      · next text _ _ =>
        have hsaved := hhash.trans (leads_saveExps v name text)
        split
        · next hsave =>
          rw [hsave] at hsaved
          exact hsaved
        · next hsave =>
          rw [hsave] at hsaved
          exact hsaved
    · exact hhash.trans (leads_of_beside (beside_warn _ _))

theorem leads_tryRecompile (w : Workspace) (path : Path) (name : String) :
    Leads w (w.tryRecompile path name).2 := by
  have hrecompiled := leads_recompile w path name
  unfold Workspace.tryRecompile
  split
  · next heq =>
    rw [heq] at hrecompiled
    exact hrecompiled
  · next heq =>
    rw [heq] at hrecompiled
    exact hrecompiled.trans (leads_of_beside (beside_host _ _))

theorem leads_recompileAll (path : Path) (names : List String) (w : Workspace) :
    Leads w (Workspace.recompileAll path names w).2 := by
  induction names generalizing w with
  | nil => exact leads_of_beside (.refl w)
  | cons name rest ih => exact (leads_tryRecompile w path name).trans (ih _)

theorem leads_saveMacro (w : Workspace) (path : Path) (text : String) (dependents : List String) :
    Leads w (w.saveMacro path text dependents).2 := by
  unfold Workspace.saveMacro
  split
  · exact leads_of_beside (beside_withDisk w _)
  · exact (leads_of_beside (beside_withDisk w _)).trans (leads_recompileAll path dependents _)

theorem beside_reportFailed (path : Path) (s : Session) (outcome : MacroOutcome) :
    s.Beside (reportFailed path s outcome) := by
  unfold reportFailed
  split
  · exact beside_send s _
  · exact .refl s

theorem reaches_saveMacro (s : Session) (path : Path) (text : String) :
    s.Reaches (s.saveMacro path text).2 := by
  have hsaved : s.Reaches (s.onWorkspace fun w =>
      w.saveMacro path text (w.project.dependents path)).2 :=
    leads_saveMacro s.workspace path text _ s rfl
  have hreports : ∀ (outcomes : List MacroOutcome) (s : Session),
      s.Beside (outcomes.foldl (reportFailed path) s) := fun _ s =>
    List.foldlRecOn _ _ (.refl s) fun t ht outcome _ => ht.trans (beside_reportFailed path t outcome)
  unfold saveMacro
  split
  · next heq =>
    rw [heq] at hsaved
    exact hsaved
  · next outcomes v heq =>
    rw [heq] at hsaved
    have hfinished : v.Beside { v with
        breakpoints := (Reload.finishMacroSave v.breakpoints v.workspace outcomes).1
        workspace := (Reload.finishMacroSave v.breakpoints v.workspace outcomes).2 } :=
      ⟨rfl, (Reload.beside_finishMacroSave _ _ _).outside⟩
    exact (hsaved.trans hfinished.reaches).trans (hreports outcomes _).reaches

/-! ### Editors, breakpoints and save states -/

theorem reaches_closeEditor (s : Session) (file : String) {confirm : Session → Bool × Session}
    (hconfirm : ∀ t : Session, t.Reaches (confirm t).2) : s.Reaches (s.closeEditor file confirm).2 := by
  have hask := hconfirm s
  unfold closeEditor
  dsimp only
  split_ifs
  · split
    · next heq =>
      rw [heq] at hask
      exact hask.trans (reaches_perform _ (.closeEditor file))
    · next heq =>
      rw [heq] at hask
      exact hask
  · exact s.reaches_perform (.closeEditor file)

theorem beside_toggleFirst (s : Session) (file : String) (view : View)
    (opcodes : SourceMap → List UInt32) : s.Beside (s.toggleFirst file view opcodes).2 := by
  unfold toggleFirst
  split_ifs
  · split
    · exact .refl s
    · exact ⟨rfl, (beside_host s.workspace _).outside⟩
  · exact .refl s

theorem beside_saveGround (s : Session) (slot : UInt32) : s.Beside (s.saveGround slot).2 := by
  unfold saveGround
  dsimp only
  split
  · exact beside_withWorkspace (beside_withDisk s.workspace _)
  · exact beside_withWorkspace (beside_withDisk s.workspace _)

theorem reaches_loadGround (s : Session) (slot : UInt32) : s.Reaches (s.loadGround slot).2 := by
  unfold loadGround
  dsimp only
  split
  · exact .refl s
  · exact s.reaches_perform (.restore _)

/-! ### All operations -/

/-- What anyone can do to a session: the user, the machine and the surroundings. -/
inductive Operated : Session → Session → Prop where
  | refl (s : Session) : Operated s s
  | trans {s t u : Session} (h : Operated s t) (h' : Operated t u) : Operated s u
  | enable (s : Session) : Operated s s.enable.2
  | reach (s : Session) (address : UInt32) : Operated s (s.reach address).2
  | written (s : Session) (address : UInt32) : Operated s (s.written address).2
  | resume (s : Session) (d : Decision) : Operated s (s.resume d).2.2
  | disable (s : Session) : Operated s s.disable.2
  | descend (s : Session) : Operated s s.descend.2
  | watch (s : Session) (watcher : Nat) : Operated s (s.watch watcher)
  | poll (s : Session) : Operated s s.poll.2
  | get (s : Session) (file : String) : Operated s (s.onWorkspace fun w => w.get file).2
  | openEditor (s : Session) (file : String) :
    Operated s (s.onWorkspace fun w => w.openEditor file).2
  | loadSsbs (s : Session) (file : String) : Operated s (s.onWorkspace fun w => w.loadSsbs file).2
  | loadExps (s : Session) (file : String) (mode : ExpsLoadMode) :
    Operated s (s.onWorkspace fun w => w.loadExps file mode).2
  | saveSsbs (s : Session) (file text : String) : Operated s (s.saveSsbs file text).2
  | saveExps (s : Session) (file text : String) : Operated s (s.saveExps file text).2
  | saveMacro (s : Session) (path : Path) (text : String) : Operated s (s.saveMacro path text).2
  /-- While the user is asked, anything can happen. -/
  | closeEditor (s : Session) (file : String) (confirm : Session → Bool × Session)
    (h : ∀ t, Operated t (confirm t).2) : Operated s (s.closeEditor file confirm).2
  | toggleAtLine (s : Session) (file : String) (view : View) (line : UInt32) :
    Operated s (s.toggleAtLine file view line).2
  | toggleAtInlinedLine (s : Session) (file : String) (path : Path) (line : UInt32) :
    Operated s (s.toggleAtInlinedLine file path line).2
  | saveGround (s : Session) (slot : UInt32) : Operated s (s.saveGround slot).2
  | loadGround (s : Session) (slot : UInt32) : Operated s (s.loadGround slot).2
  /-- Switches, settings and breakpoints, the memory of the machine, files on the disk. -/
  | beside {s t : Session} (h : s.Beside t) : Operated s t

/-- Every operation is a run of actions. -/
theorem Operated.reaches (h : s.Operated t) : s.Reaches t := by
  induction h with
  | refl s => exact .refl s
  | trans _ _ ih ih' => exact ih.trans ih'
  | enable s => exact (beside_enable s).reaches
  | reach s address => exact reaches_runHandlers _ s
  | written s address => exact reaches_written s address
  | resume s d => exact (beside_release s d).reaches.trans (reaches_goOn _)
  | disable s =>
    have hdropped : s.Beside s.failHalt.dropHooks := (beside_failHalt s).trans ⟨rfl, .refl _⟩
    exact hdropped.reaches.trans (reaches_goOn _)
  | descend s => exact (beside_descend s).reaches
  | watch s watcher => exact (beside_watch s watcher).reaches
  | poll s => exact reaches_poll s
  | get s file => exact s.reaches_perform (.fetch file)
  | openEditor s file => exact s.reaches_perform (.openEditor file)
  | loadSsbs s file => exact s.reaches_perform (.loadSsbs file)
  | loadExps s file mode => exact s.reaches_perform (.loadExps file mode)
  | saveSsbs s file text => exact reaches_finishing (s.reaches_perform (.saveSsbs file text))
  | saveExps s file text => exact reaches_finishing (s.reaches_perform (.saveExps file text))
  | saveMacro s path text => exact reaches_saveMacro s path text
  | closeEditor s file confirm _ ih => exact reaches_closeEditor s file ih
  | toggleAtLine s file view line => exact (beside_toggleFirst s file view _).reaches
  | toggleAtInlinedLine s file path line => exact (beside_toggleFirst s file .exps _).reaches
  | saveGround s slot => exact (beside_saveGround s slot).reaches
  | loadGround s slot => exact reaches_loadGround s slot
  | beside h => exact h.reaches

/-- What is reached from a new session by actions contains what operations lead to. -/
theorem Operated.reachable (hs : s.Fresh) (h : s.Operated t) : t.Reachable :=
  ⟨s, hs, h.reaches⟩

end Session

end SceneDebugger
