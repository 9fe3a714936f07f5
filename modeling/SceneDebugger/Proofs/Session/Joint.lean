import SceneDebugger.Proofs.Session.TurnEffects

/-!
# SceneDebugger.Proofs.Session.Joint — the operations of a session are turns

What the game does goes by turns at any time, also between the two halves of a save; what the user does
begins and ends with no save under way.  So whatever holds after every run of turns holds of a session
whose operations the user and the game call in any order.

* `Session.Aside`: operations that concern neither script files nor breakpoints nor reloads.
* `Session.Anytime`, `Session.Joins`: operations that are turns.
* `Session.Shared.joins`: all operations are.
-/

namespace SceneDebugger

open Workspace

namespace Session

variable {s t u : Session} {event : Event}

/-! ### What does not concern files, breakpoints and reloads -/

/-- Neither the files in use, the places of the game and the breakpoints have changed, nor what the
queue has about reloads. -/
structure Aside (s t : Session) : Prop where
  beside : s.Beside t
  primary : t.breakpoints.primary = s.breakpoints.primary
  pending : t.breakpoints.pending = s.breakpoints.pending
  reloads : t.workspace.host.reloads = s.workspace.host.reloads

theorem Aside.refl (s : Session) : s.Aside s := ⟨.refl s, rfl, rfl, rfl⟩

theorem Aside.trans (h : s.Aside t) (h' : t.Aside u) : s.Aside u :=
  ⟨h.beside.trans h'.beside, h'.primary.trans h.primary, h'.pending.trans h.pending,
    h'.reloads.trans h.reloads⟩

theorem aside_of_aside (h : s.Aside t) : s.aside t = t := by
  obtain ⟨hbeside, hprimary, hpending, hreloads⟩ := h
  unfold aside
  rw [around_of_beside hbeside, if_pos hreloads, ← hprimary, ← hpending]
  rfl

theorem aside_of_eq (hground : t.ground = s.ground) (hworkspace : t.workspace = s.workspace)
    (hbreakpoints : t.breakpoints = s.breakpoints) : s.Aside t :=
  ⟨⟨hground, hworkspace ▸ .refl _⟩, by rw [hbreakpoints], by rw [hbreakpoints], by rw [hworkspace]⟩

theorem aside_send (s : Session) (h : event.isReload = false) : s.Aside (s.send event) :=
  ⟨beside_send s event, rfl, rfl, s.workspace.host.reloads_send h⟩

theorem aside_warn (s : Session) (text : String) :
    s.Aside { s with workspace := s.workspace.warn text } :=
  ⟨beside_withWorkspace (beside_warn s.workspace text), rfl, rfl, rfl⟩

theorem aside_withDisk (s : Session) (disk : Disk) :
    s.Aside { s with workspace := s.workspace.withDisk disk } :=
  ⟨beside_withWorkspace (beside_withDisk s.workspace disk), rfl, rfl, rfl⟩

theorem isReload_shownAs (before after : HaltRecord) (event : Event) :
    (shownAs before after event).isReload = event.isReload := by
  unfold shownAs
  split_ifs with hshown
  · rw [hshown]
    rfl
  · rfl

theorem shownAs_of_isReload (before after : HaltRecord) (h : event.isReload = true) :
    shownAs before after event = event := by
  refine if_neg ?_
  rintro rfl
  cases h

theorem reloads_shownAs (before after : HaltRecord) (events : List Event) :
    (events.map (shownAs before after)).filter Event.isReload = events.filter Event.isReload := by
  induction events with
  | nil => rfl
  | cons event rest ih =>
    rw [List.map_cons, List.filter_cons, List.filter_cons, ih, isReload_shownAs]
    cases hreload : event.isReload with
    | true => rw [shownAs_of_isReload before after hreload]
    | false => rfl

theorem aside_changeHalt (s : Session) (before after : HaltRecord) :
    s.Aside (s.changeHalt before after) :=
  ⟨beside_changeHalt s before after, rfl, rfl, reloads_shownAs before after _⟩

theorem aside_onOpcode (s : Session) : s.Aside s.onOpcode := by
  refine ⟨beside_onOpcode s, ?_, ?_, ?_⟩
  all_goals
    unfold onOpcode
    split
    · rfl
    · dsimp only
      split_ifs
      · first
        | rfl
        | exact s.workspace.host.reloads_send rfl
      · rfl

theorem aside_release (s : Session) (d : Decision) : s.Aside (s.release d).2 := by
  unfold release
  split
  · exact .refl s
  · split
    · exact aside_changeHalt s _ _
    · exact aside_warn s _

theorem aside_descend (s : Session) : s.Aside s.descend.2 := by
  unfold descend
  split
  · exact .refl s
  · exact aside_changeHalt s _ _

theorem aside_watch (s : Session) (watcher : Nat) : s.Aside (s.watch watcher) := by
  unfold watch
  split
  · exact .refl s
  · exact aside_changeHalt s _ _

theorem follow_breakpoints (targets : List StepTarget) (b : Breakpoints) :
    (targets.foldl Breakpoints.addStepTarget b).primary = b.primary ∧
      (targets.foldl Breakpoints.addStepTarget b).pending = b.pending := by
  induction targets generalizing b with
  | nil => exact ⟨rfl, rfl⟩
  | cons target rest ih => exact ih (b.addStepTarget target)

theorem aside_wakeUp? {d : Decision} {watchers : List Nat} (h : s.wakeUp? = some (d, watchers, t)) :
    s.Aside t := by
  have hbeside := beside_wakeUp? h
  simp only [wakeUp?, Option.bind_eq_bind, Option.bind_eq_some_iff] at h
  obtain ⟨halt, -, ⟨d', watchers', halt'⟩, -, heq⟩ := h
  cases heq
  obtain ⟨hprimary, hpending⟩ := follow_breakpoints (d'.stepTargets halt'.context) s.breakpoints
  exact ⟨hbeside, hprimary, hpending, rfl⟩

theorem aside_failHalt (s : Session) : s.Aside s.failHalt := by
  unfold failHalt
  split
  · exact .refl s
  · exact (aside_warn s _).trans (aside_release _ _)

theorem aside_refreshSharedTable (s : Session) : s.Aside s.refreshSharedTable := by
  unfold refreshSharedTable
  split <;> exact aside_of_eq rfl rfl rfl

theorem aside_onPrint (s : Session) (r : UInt8) : s.Aside (s.onPrint r) := by
  unfold onPrint
  split
  · exact .refl s
  · exact aside_send s rfl

theorem aside_onScriptPrint (s : Session) : s.Aside s.onScriptPrint := by
  unfold onScriptPrint
  dsimp only
  split
  · exact .refl s
  · split
    · exact aside_send s rfl
    · exact .refl s

theorem aside_addFeature (s : Session) (name : String) (requests : List HookRequest) :
    s.Aside (s.addFeature name requests) := by
  refine ⟨beside_addFeature s name requests, ?_, ?_, ?_⟩
  all_goals
    unfold addFeature
    split
    · rfl
    · first
      | rfl
      | exact Host.reloads_send _ rfl

theorem aside_enable (s : Session) : s.Aside s.enable.2 := by
  unfold enable
  split_ifs
  · exact .refl s
  · dsimp only
    split
    · exact aside_of_eq rfl rfl rfl
    · next ids machine _ =>
      have hforgot : s.Aside { s with
          machine, hooks := ids, switches := s.switches.forgetQuestions } := aside_of_eq rfl rfl rfl
      refine List.foldlRecOn _ _ ?_ fun t ht feature _ => ht.trans (aside_addFeature t feature.1 feature.2)
      split_ifs
      · exact hforgot
      · exact hforgot.trans (aside_refreshSharedTable _)

theorem aside_onDebugMode (s : Session) : s.Aside s.onDebugMode := by
  unfold onDebugMode
  split_ifs
  · exact aside_of_eq rfl rfl rfl
  · exact .refl s

theorem aside_saveGround (s : Session) (slot : UInt32) : s.Aside (s.saveGround slot).2 := by
  unfold saveGround
  dsimp only
  split
  · exact aside_withDisk s _
  · exact aside_withDisk s _

/-! ### What the game does -/

/-- Turns lead from one session to the other, whatever saves are under way. -/
def Anytime (s t : Session) : Prop := ∀ unfinished told, ∃ turns,
  ({ session := s, unfinished, told } : JointSession).run turns = { session := t, unfinished, told }

theorem Anytime.refl (s : Session) : s.Anytime s := fun _ _ => ⟨[], rfl⟩

theorem Anytime.trans (h : s.Anytime t) (h' : t.Anytime u) : s.Anytime u := by
  intro unfinished told
  obtain ⟨turns, hturns⟩ := h unfinished told
  obtain ⟨more, hmore⟩ := h' unfinished told
  exact ⟨turns ++ more, by rw [JointSession.run_append, hturns, hmore]⟩

theorem Aside.anytime (h : s.Aside t) : s.Anytime t := by
  intro unfinished told
  refine ⟨[.aside t], ?_⟩
  rw [JointSession.run_cons, JointSession.run_nil, JointSession.perform, aside_of_aside h]

theorem anytime_perform (s : Session) {a : Action} (ha : a.byGame = true) :
    s.Anytime (s.perform a) := by
  intro unfinished told
  refine ⟨[.act a], ?_⟩
  rw [JointSession.run_cons, JointSession.run_nil, JointSession.perform, if_pos]
  rw [JointSession.allows, ha]
  rfl

/-- What a handler does is one turn. -/
theorem anytime_handle (s : Session) (h : Handler) : s.Anytime (s.handle h) := by
  cases h with
  | opcode => exact (aside_onOpcode s).anytime
  | sharedScript => exact (aside_refreshSharedTable s).anytime
  | scriptLoad =>
    simp only [handle, onScriptLoad]
    split
    · exact .refl s
    · exact s.anytime_perform (a := .loadScript _) rfl
  | sceneLoad =>
    simp only [handle, onSceneLoad]
    split
    · exact .refl s
    · exact s.anytime_perform (a := .loadScene _ _) rfl
  | talkLoad => exact s.anytime_perform (a := .loadTalk _) rfl
  | groundStart => exact s.anytime_perform (a := .startGround) rfl
  | groundQuit => exact s.anytime_perform (a := .quitGround) rfl
  | mapChange => exact s.anytime_perform (a := .changeMap) rfl
  | print r => exact (aside_onPrint s r).anytime
  | scriptPrint => exact (aside_onScriptPrint s).anytime
  | flagQuestion bank => exact Aside.anytime (aside_of_eq rfl rfl rfl)
  | flagAnswer bank => exact Aside.anytime (aside_of_eq rfl rfl rfl)
  | flagChange bank =>
    have hturned : ∀ switches, s.Aside { s with switches } := fun _ => aside_of_eq rfl rfl rfl
    exact ((hturned _).trans (aside_send _ rfl)).anytime
  | debugMode => exact (aside_onDebugMode s).anytime

theorem anytime_runHandlers (handlers : List Handler) (s : Session) :
    s.Anytime (runHandlers handlers s) := by
  induction handlers generalizing s with
  | nil => exact Aside.anytime (aside_of_eq rfl rfl rfl)
  | cons h rest ih =>
    have hfirst : s.Anytime (s.handle h) := anytime_handle s h
    unfold runHandlers
    dsimp only
    split_ifs
    · exact hfirst.trans (Aside.anytime (aside_of_eq rfl rfl rfl))
    · exact hfirst.trans (ih (s.handle h))

theorem anytime_written (s : Session) (address : UInt32) : s.Anytime (s.written address).2 :=
  List.foldlRecOn _ _ (.refl s) fun t ht h _ => ht.trans (anytime_handle t h)

theorem anytime_goOn (s : Session) : s.Anytime s.goOn.2 := by
  unfold goOn
  split
  · exact .refl s
  · next heq => exact (aside_wakeUp? heq).anytime.trans (anytime_runHandlers _ _)

/-! ### What the user does -/

/-- Turns lead from one session to the other, with no save under way before and after. -/
def Joins (s t : Session) : Prop := ∀ told, ∃ turns more,
  ({ session := s, told } : JointSession).run turns = { session := t, told := told ++ more }

theorem Anytime.joins (h : s.Anytime t) : s.Joins t := by
  intro told
  obtain ⟨turns, hturns⟩ := h [] told
  exact ⟨turns, [], hturns.trans (by rw [List.append_nil])⟩

theorem Joins.refl (s : Session) : s.Joins s := (Anytime.refl s).joins

theorem Joins.trans (h : s.Joins t) (h' : t.Joins u) : s.Joins u := by
  intro told
  obtain ⟨turns, more, hturns⟩ := h told
  obtain ⟨turns', more', hturns'⟩ := h' (told ++ more)
  refine ⟨turns ++ turns', more ++ more', ?_⟩
  rw [JointSession.run_append, hturns, hturns', List.append_assoc]

theorem joins_perform (s : Session) {a : Action} (ha : a.byUser = true) : s.Joins (s.perform a) := by
  intro told
  refine ⟨[.act a], [], ?_⟩
  rw [JointSession.run_cons, JointSession.run_nil, JointSession.perform, if_pos, List.append_nil]
  rw [JointSession.allows, ha, Bool.true_and]
  exact Bool.or_true _

theorem joins_poll (s : Session) : s.Joins s.poll.2 := by
  intro told
  obtain ⟨n, hn⟩ := JointSession.run_takes (j := { session := s, told }) rfl
  exact ⟨.replicate n .take, s.poll.1, hn⟩

theorem anytime_add (s : Session) (file : String) (offset : UInt32) :
    s.Anytime (s.onBreakpoints fun b h => b.add h file offset) :=
  fun _ _ => ⟨[.add file offset], rfl⟩

theorem anytime_remove (s : Session) (file : String) (offset : UInt32) :
    s.Anytime (s.onBreakpoints fun b h => b.remove h file offset) :=
  fun _ _ => ⟨[.remove file offset], rfl⟩

theorem anytime_toggleFirst (s : Session) (file : String) (view : View)
    (opcodes : SourceMap → List UInt32) : s.Anytime (s.toggleFirst file view opcodes).2 :=
  fun _ _ => ⟨[.toggle file view opcodes], rfl⟩

/-! ### Saves -/

/-- The breakpoints of saves follow one after the other. -/
theorem run_finish (outcomes : List SaveOutcome) (s : Session) (told : List Event) :
    ({ session := s, unfinished := outcomes, told } : JointSession).run
        (.replicate outcomes.length .finish) =
      { session := outcomes.foldl finishSave s, told } := by
  induction outcomes generalizing s with
  | nil => rfl
  | cons o rest ih => exact ih (s.finishSave o)

theorem perform_save {view : View} {file text : String} {answer : Except Error SaveOutcome}
    (h : s.saveText view file text = (answer, t)) (unfinished : List SaveOutcome) (told : List Event) :
    ({ session := s, unfinished, told } : JointSession).perform (.save view file text) =
      { session := t, unfinished := unfinished ++ answer.toOption.toList, told } := by
  simp only [JointSession.perform, JointSession.saved?, h]

/-- A save is its two halves. -/
theorem joins_finishing (s : Session) (view : View) (file text : String) :
    s.Joins (finishing (s.saveText view file text)).2 := by
  intro told
  cases hsaved : s.saveText view file text with
  | mk answer after =>
    have hhalf := perform_save hsaved [] told
    cases answer with
    | ok o =>
      refine ⟨[.save view file text, .finish], [], ?_⟩
      rw [JointSession.run_cons, hhalf, List.append_nil]
      rfl
    | error e =>
      refine ⟨[.save view file text], [], ?_⟩
      rw [JointSession.run_cons, hhalf, List.append_nil]
      rfl

theorem joins_saveSsbs (s : Session) (file text : String) : s.Joins (s.saveSsbs file text).2 :=
  s.joins_finishing .ssbs file text

theorem joins_saveExps (s : Session) (file text : String) : s.Joins (s.saveExps file text).2 :=
  s.joins_finishing .exps file text

/-- What the scripts compiled anew have changed. -/
def recompiled (outcomes : List MacroOutcome) : List SaveOutcome :=
  outcomes.filterMap fun
    | .recompiled o => some o
    | _ => none

/-- Turns lead from a session with one workspace to the same session with the other, and the
breakpoints of some saves have still to follow. -/
def Saving (w w' : Workspace) (outcomes : List SaveOutcome) : Prop :=
  ∀ (s : Session) (unfinished : List SaveOutcome) (told : List Event), s.workspace = w → ∃ turns,
    ({ session := s, unfinished, told } : JointSession).run turns =
      { session := { s with workspace := w' }, unfinished := unfinished ++ outcomes, told }

theorem Saving.trans {w w' w'' : Workspace} {outcomes more : List SaveOutcome}
    (h : Saving w w' outcomes) (h' : Saving w' w'' more) : Saving w w'' (outcomes ++ more) := by
  intro s unfinished told hs
  obtain ⟨turns, hturns⟩ := h s unfinished told hs
  obtain ⟨turns', hturns'⟩ := h' { s with workspace := w' } (unfinished ++ outcomes) told rfl
  refine ⟨turns ++ turns', ?_⟩
  rw [JointSession.run_append, hturns, hturns', List.append_assoc]

theorem saving_of_anytime {w w' : Workspace}
    (h : ∀ s : Session, s.workspace = w → s.Anytime { s with workspace := w' }) : Saving w w' [] := by
  intro s unfinished told hs
  obtain ⟨turns, hturns⟩ := h s hs unfinished told
  exact ⟨turns, by rw [hturns, List.append_nil]⟩

theorem saving_of_beside {w w' : Workspace} (h : w.Beside w')
    (hreloads : w'.host.reloads = w.host.reloads) : Saving w w' [] := by
  refine saving_of_anytime ?_
  rintro s rfl
  exact Aside.anytime ⟨beside_withWorkspace h, rfl, rfl, hreloads⟩

theorem saving_hash (w : Workspace) (name : String) : Saving w (w.hash name).2 [] := by
  refine saving_of_anytime ?_
  rintro s rfl
  rw [Workspace.hash, Workspace.ask_snd]
  exact s.anytime_perform (a := .fetch name) rfl

theorem saving_saveExps (w : Workspace) (name text : String) :
    Saving w (w.saveExps name text).2 (w.saveExps name text).1.toOption.toList := by
  rintro s unfinished told rfl
  have hsaved : s.saveText .exps name text = ((s.workspace.saveExps name text).1,
      { s with workspace := (s.workspace.saveExps name text).2 }) := rfl
  exact ⟨[.save .exps name text], perform_save hsaved unfinished told⟩

theorem saving_recompile (w : Workspace) (path : Path) (name : String) :
    Saving w (w.recompile path name).2 (recompiled (w.recompile path name).1.toOption.toList) := by
  have hhash := saving_hash w name
  unfold Workspace.recompile
  split
  · next heq =>
    rw [heq] at hhash
    exact hhash
  · next hash v heq =>
    rw [heq] at hhash
    split_ifs
    · split
      · exact hhash
      · next text _ _ =>
        have hsaved := hhash.trans (saving_saveExps v name text)
        split
        · next hsave =>
          rw [hsave] at hsaved
          exact hsaved
        · next hsave =>
          rw [hsave] at hsaved
          exact hsaved
    · exact hhash.trans (saving_of_beside (beside_warn _ _) rfl)

theorem saving_tryRecompile (w : Workspace) (path : Path) (name : String) :
    Saving w (w.tryRecompile path name).2 (recompiled [(w.tryRecompile path name).1]) := by
  have hrecompiled := saving_recompile w path name
  unfold Workspace.tryRecompile
  split
  · next heq =>
    rw [heq] at hrecompiled
    exact hrecompiled
  · next heq =>
    rw [heq] at hrecompiled
    exact hrecompiled.trans (saving_of_beside (beside_host _ _) rfl)

theorem saving_recompileAll (path : Path) (names : List String) (w : Workspace) :
    Saving w (Workspace.recompileAll path names w).2
      (recompiled (Workspace.recompileAll path names w).1) := by
  induction names generalizing w with
  | nil => exact saving_of_beside (.refl w) rfl
  | cons name rest ih =>
    have hall := (saving_tryRecompile w path name).trans (ih _)
    rw [recompiled, recompiled, ← List.filterMap_append] at hall
    exact hall

theorem saving_saveMacro (w : Workspace) (path : Path) (text : String) (dependents : List String) :
    Saving w (w.saveMacro path text dependents).2
      (recompiled ((w.saveMacro path text dependents).1.toOption.getD [])) := by
  unfold Workspace.saveMacro
  split
  · exact saving_of_beside (beside_withDisk w _) rfl
  · next d _ =>
    have hdisk : Saving w (w.withDisk d) [] := saving_of_beside (beside_withDisk w d) rfl
    have hall := hdisk.trans (saving_recompileAll path dependents (w.withDisk d))
    exact hall

/-- The breakpoints of the scripts that were compiled anew follow one after the other. -/
theorem finishMacroSave_eq (outcomes : List MacroOutcome) (s : Session) :
    { s with
      breakpoints := (Reload.finishMacroSave s.breakpoints s.workspace outcomes).1
      workspace := (Reload.finishMacroSave s.breakpoints s.workspace outcomes).2 } =
    (recompiled outcomes).foldl finishSave s := by
  induction outcomes generalizing s with
  | nil => rfl
  | cons outcome rest ih =>
    cases outcome with
    | recompiled o => exact ih (s.finishSave o)
    | skippedStale file => exact ih s
    | failed file error => exact ih s

theorem aside_reportFailed (path : Path) (s : Session) (outcome : MacroOutcome) :
    s.Aside (reportFailed path s outcome) := by
  unfold reportFailed
  split
  · exact aside_send s rfl
  · exact .refl s

/-- A shared file that is saved: every script that calls it is saved, and then all breakpoints follow. -/
theorem joins_saveMacro (s : Session) (path : Path) (text : String) :
    s.Joins (s.saveMacro path text).2 := by
  have hsaving := saving_saveMacro s.workspace path text (s.workspace.project.dependents path)
  have hreports : ∀ (outcomes : List MacroOutcome) (s : Session),
      s.Aside (outcomes.foldl (reportFailed path) s) := fun _ s =>
    List.foldlRecOn _ _ (.refl s) fun t ht outcome _ => ht.trans (aside_reportFailed path t outcome)
  have hanswer : (s.onWorkspace fun w => w.saveMacro path text (w.project.dependents path)) =
      ((s.workspace.saveMacro path text (s.workspace.project.dependents path)).1, { s with
        workspace := (s.workspace.saveMacro path text (s.workspace.project.dependents path)).2 }) := rfl
  rw [saveMacro, hanswer]
  generalize s.workspace.saveMacro path text (s.workspace.project.dependents path) = saved at hsaving
  obtain ⟨answer, w⟩ := saved
  cases answer with
  | error e =>
    intro told
    obtain ⟨turns, hturns⟩ := hsaving s [] told rfl
    exact ⟨turns, [], hturns.trans (by rw [List.append_nil]; rfl)⟩
  | ok outcomes =>
    refine Joins.trans (t := (recompiled outcomes).foldl finishSave { s with workspace := w }) ?_ ?_
    · intro told
      obtain ⟨turns, hturns⟩ := hsaving s [] told rfl
      refine ⟨turns ++ .replicate (recompiled outcomes).length .finish, [], ?_⟩
      rw [JointSession.run_append, hturns, List.append_nil]
      exact run_finish (recompiled outcomes) { s with workspace := w } told
    · rw [← finishMacroSave_eq]
      exact (hreports outcomes _).anytime.joins

/-! ### All operations -/

theorem joins_closeEditor (s : Session) (file : String) {confirm : Session → Bool × Session}
    (hconfirm : ∀ t : Session, t.Joins (confirm t).2) : s.Joins (s.closeEditor file confirm).2 := by
  have hask := hconfirm s
  unfold closeEditor
  dsimp only
  split_ifs
  · split
    · next heq =>
      rw [heq] at hask
      exact hask.trans (joins_perform _ (a := .closeEditor file) rfl)
    · next heq =>
      rw [heq] at hask
      exact hask
  · exact s.joins_perform (a := .closeEditor file) rfl

theorem joins_loadGround (s : Session) (slot : UInt32) : s.Joins (s.loadGround slot).2 := by
  unfold loadGround
  dsimp only
  split
  · exact .refl s
  · exact s.joins_perform (a := .restore _) rfl

/-- What the user, the machine and the surroundings do to a session, one operation after the other. -/
inductive Shared : Session → Session → Prop where
  | refl (s : Session) : Shared s s
  | trans {s t u : Session} (h : Shared s t) (h' : Shared t u) : Shared s u
  | enable (s : Session) : Shared s s.enable.2
  | reach (s : Session) (address : UInt32) : Shared s (s.reach address).2
  | written (s : Session) (address : UInt32) : Shared s (s.written address).2
  | resume (s : Session) (d : Decision) : Shared s (s.resume d).2.2
  | disable (s : Session) : Shared s s.disable.2
  | descend (s : Session) : Shared s s.descend.2
  | watch (s : Session) (watcher : Nat) : Shared s (s.watch watcher)
  | poll (s : Session) : Shared s s.poll.2
  | get (s : Session) (file : String) : Shared s (s.onWorkspace fun w => w.get file).2
  | openEditor (s : Session) (file : String) : Shared s (s.onWorkspace fun w => w.openEditor file).2
  | loadSsbs (s : Session) (file : String) : Shared s (s.onWorkspace fun w => w.loadSsbs file).2
  | loadExps (s : Session) (file : String) (mode : ExpsLoadMode) :
    Shared s (s.onWorkspace fun w => w.loadExps file mode).2
  | saveSsbs (s : Session) (file text : String) : Shared s (s.saveSsbs file text).2
  | saveExps (s : Session) (file text : String) : Shared s (s.saveExps file text).2
  | saveMacro (s : Session) (path : Path) (text : String) : Shared s (s.saveMacro path text).2
  /-- While the user is asked, anything can happen. -/
  | closeEditor (s : Session) (file : String) (confirm : Session → Bool × Session)
    (h : ∀ t, Shared t (confirm t).2) : Shared s (s.closeEditor file confirm).2
  | toggleAtLine (s : Session) (file : String) (view : View) (line : UInt32) :
    Shared s (s.toggleAtLine file view line).2
  | toggleAtInlinedLine (s : Session) (file : String) (path : Path) (line : UInt32) :
    Shared s (s.toggleAtInlinedLine file path line).2
  | add (s : Session) (file : String) (offset : UInt32) :
    Shared s (s.onBreakpoints fun b h => b.add h file offset)
  | remove (s : Session) (file : String) (offset : UInt32) :
    Shared s (s.onBreakpoints fun b h => b.remove h file offset)
  | saveGround (s : Session) (slot : UInt32) : Shared s (s.saveGround slot).2
  | loadGround (s : Session) (slot : UInt32) : Shared s (s.loadGround slot).2
  /-- Switches and settings, the memory of the machine, files on the disk. -/
  | aside {s t : Session} (h : s.Aside t) : Shared s t

/-- Every operation is a run of turns. -/
theorem Shared.joins (h : s.Shared t) : s.Joins t := by
  induction h with
  | refl s => exact .refl s
  | trans _ _ ih ih' => exact ih.trans ih'
  | enable s => exact (aside_enable s).anytime.joins
  | reach s address => exact (anytime_runHandlers _ s).joins
  | written s address => exact (anytime_written s address).joins
  | resume s d => exact ((aside_release s d).anytime.trans (anytime_goOn _)).joins
  | disable s =>
    have hdropped : s.Aside s.failHalt.dropHooks := (aside_failHalt s).trans (aside_of_eq rfl rfl rfl)
    exact (hdropped.anytime.trans (anytime_goOn _)).joins
  | descend s => exact (aside_descend s).anytime.joins
  | watch s watcher => exact (aside_watch s watcher).anytime.joins
  | poll s => exact joins_poll s
  | get s file => exact (s.anytime_perform (a := .fetch file) rfl).joins
  | openEditor s file => exact s.joins_perform (a := .openEditor file) rfl
  | loadSsbs s file => exact s.joins_perform (a := .loadSsbs file) rfl
  | loadExps s file mode => exact s.joins_perform (a := .loadExps file mode) rfl
  | saveSsbs s file text => exact s.joins_saveSsbs file text
  | saveExps s file text => exact s.joins_saveExps file text
  | saveMacro s path text => exact s.joins_saveMacro path text
  | closeEditor s file confirm _ ih => exact s.joins_closeEditor file ih
  | toggleAtLine s file view line => exact (s.anytime_toggleFirst file view _).joins
  | toggleAtInlinedLine s file path line => exact (s.anytime_toggleFirst file .exps _).joins
  | add s file offset => exact (s.anytime_add file offset).joins
  | remove s file offset => exact (s.anytime_remove file offset).joins
  | saveGround s slot => exact (aside_saveGround s slot).anytime.joins
  | loadGround s slot => exact s.joins_loadGround slot
  | aside h => exact h.anytime.joins

/-- What turns lead to from a new session contains what operations lead to. -/
theorem Shared.reachable (hs : ({ session := s } : JointSession).New) (h : s.Shared t) :
    ∃ told, ({ session := t, told } : JointSession).Reachable := by
  obtain ⟨turns, more, hturns⟩ := h.joins []
  exact ⟨more, _, hs, turns, hturns.symm⟩

end Session

end SceneDebugger
