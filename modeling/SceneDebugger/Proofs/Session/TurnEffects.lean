import SceneDebugger.Proofs.Session.Polling

/-!
# SceneDebugger.Proofs.Session.TurnEffects — what a turn can do to one file

The maps, the breakpoints and the requests of a file are changed in few ways, and each way by few turns.
What holds of a file during a run is derived from these, not from the turns.

* `JointSession.marked`: what a turn can do to the marks of a file (`JointSession.Marked`).
* `JointSession.adjusted`: what it can do to its breakpoints (`JointSession.Adjusted`).
* `JointSession.notifies_perform`: what it does to the queue, unless it takes an event from it.
-/

namespace SceneDebugger

open Workspace

/-! ### The queue -/

theorem Host.Informs.reloads {h h' : Host} (hh : h.Informs h') : h'.reloads = h.reloads := by
  obtain ⟨more, hmore, hnotice⟩ := hh
  have hquiet : more.filter Event.isReload = [] := List.filter_eq_nil_iff.mpr fun e he =>
    Bool.eq_false_iff.mp (Session.isReload_of_isNotice (hnotice e he))
  rw [Host.reloads, hmore, List.filter_append, hquiet, List.append_nil]
  rfl

namespace Session

variable {s : Session}

theorem notifies_perform (hs : s.workspace.Named) {a : Action}
    (ha : a.byGame = true ∨ a.byUser = true) : s.workspace.Notifies (s.perform a).workspace := by
  cases a with
  | startGround => exact s.ground.notifies_start hs
  | quitGround => exact s.ground.notifies_quit hs
  | changeMap => exact s.ground.notifies_changeMap hs
  | loadScript file => exact s.ground.notifies_loadScript hs file
  | loadScene hanger name => exact s.ground.notifies_loadScene s.workspace hanger name
  | loadTalk hanger => exact s.ground.notifies_loadTalk s.workspace hanger
  | restore snapshot => exact s.ground.notifies_restore hs snapshot
  | fetch file => exact notifies_get s.workspace file
  | openEditor file => exact notifies_openEditor hs file
  | closeEditor file => exact notifies_finishClose hs file
  | loadSsbs file => exact notifies_loadSsbs hs file
  | loadExps file mode => exact notifies_loadExps hs file mode
  | saveSsbs file text => cases ha <;> contradiction
  | saveExps file text => cases ha <;> contradiction
  | reload file => cases ha <;> contradiction
  | beside other => cases ha <;> contradiction

theorem notifies_saveText (hs : s.workspace.Named) (view : View) (file text : String) :
    s.workspace.Notifies (s.saveText view file text).2.workspace := by
  cases view with
  | ssbs => exact notifies_saveSsbs hs file text
  | exps => exact notifies_saveExps hs file text

theorem saves_saveText (hs : s.workspace.Named) (view : View) (file text : String) :
    s.workspace.Saves (s.saveText view file text).2.workspace file view
      (s.saveText view file text).1 := by
  cases view with
  | ssbs => exact saves_saveSsbs hs file text
  | exps => exact saves_saveExps hs file text

theorem saveText_breakpoints (s : Session) (view : View) (file text : String) :
    (s.saveText view file text).2.breakpoints = s.breakpoints := by
  cases view <;> rfl

theorem perform_breakpoints (s : Session) {a : Action} (ha : a.byGame = true ∨ a.byUser = true) :
    (s.perform a).breakpoints = s.breakpoints := by
  cases a with
  | beside other => cases ha <;> contradiction
  | _ => rfl

/-- A breakpoint change only sends notices. -/
theorem notifies_onBreakpoints {f : Breakpoints → Host → Breakpoints × Host}
    (h : ∀ b host, Host.Informs host (f b host).2) : s.workspace.Notifies (s.onBreakpoints f).workspace :=
  (beside_host s.workspace _).outside.notifies (h _ _).reloads

theorem notifies_toggleFirst (s : Session) (file : String) (view : View)
    (opcodes : SourceMap → List UInt32) :
    s.workspace.Notifies (s.toggleFirst file view opcodes).2.workspace := by
  refine (beside_toggleFirst s file view opcodes).workspace.notifies ?_
  unfold toggleFirst
  split_ifs
  · split
    · rfl
    · exact (Breakpoints.informs_toggle _ _ file _).reloads
  · rfl

theorem aside_reloads (s other : Session) :
    (s.aside other).workspace.host.reloads = s.workspace.host.reloads := by
  show List.filter Event.isReload (ite _ _ _) = _
  split_ifs with h
  · exact h
  · rfl

theorem notifies_finishSave {o : SaveOutcome} (hused : (s.workspace.file? o.file).isSome) :
    s.workspace.Notifies (s.finishSave o).workspace := by
  have hresync : s.workspace.Notifies { s.workspace with
      host := (s.breakpoints.resync s.workspace.host (s.workspace.ramMatches o.file) o.file
        (Reload.carried o (s.breakpoints.latestOffsets o.file))).2 } :=
    (beside_host s.workspace _).outside.notifies (Breakpoints.informs_resync _ _ _ _ _).reloads
  simp only [finishSave, Reload.finishSave, Reload.within]
  split_ifs
  · exact hresync.trans (notifies_requestReload hused)
  · exact hresync

/-- A save that is ready requests the reload. -/
theorem finishSave_requests {o : SaveOutcome} (h : o.ready = true) :
    .reloadRequested o.file ∈ (s.finishSave o).workspace.host.reloads := by
  simp only [finishSave, Reload.finishSave, Reload.within, h, if_true]
  exact Host.mem_reloads.mpr (List.mem_append_right _ (List.mem_singleton.mpr rfl))

theorem finishSave_breakpoints (s : Session) (o : SaveOutcome) :
    (s.finishSave o).breakpoints = (s.breakpoints.resync s.workspace.host
      (s.workspace.ramMatches o.file) o.file
      (Reload.carried o (s.breakpoints.latestOffsets o.file))).1 := rfl

end Session

namespace JointSession

open Session

variable {j : JointSession} {name : String} {f : ScriptFile} {o : SaveOutcome} {t : Turn}

theorem byGame_or_byUser {a : Action} (h : j.allows a = true) : a.byGame = true ∨ a.byUser = true := by
  simp only [allows, Bool.or_eq_true, Bool.and_eq_true] at h
  exact h.imp id And.left

/-- All turns but the one that takes an event from the queue only request reloads. -/
theorem notifies_perform (hj : j.session.workspace.Named)
    (hsaved : ∀ o ∈ j.unfinished, (j.session.workspace.file? o.file).isSome) (ht : t ≠ .take) :
    j.session.workspace.Notifies (j.perform t).session.workspace := by
  cases t with
  | act a =>
    simp only [perform]
    split_ifs with ha
    · exact Session.notifies_perform hj (byGame_or_byUser ha)
    · exact .refl _
  | save view file text => exact notifies_saveText hj view file text
  | finish =>
    simp only [perform]
    split
    · exact .refl _
    · next o rest hfirst => exact notifies_finishSave (hsaved o (hfirst ▸ List.mem_cons_self))
  | take => exact absurd rfl ht
  | add file offset => exact notifies_onBreakpoints fun b h => b.informs_add h file offset
  | remove file offset => exact notifies_onBreakpoints fun b h => b.informs_remove h file offset
  | toggle file view opcodes => exact notifies_toggleFirst _ file view opcodes
  | aside other => exact (beside_aside _ other).workspace.notifies (aside_reloads _ other)

/-! ### Saves -/

/-- What a turn that saves a file does to it. -/
theorem saved?_eq_some (hj : j.session.workspace.Named) (h : j.saved? t = some o) :
    ∃ view text f c program ssbs exps, t = .save view o.file text ∧
      j.session.workspace.seen? o.file = some f ∧ o = outcome f view c o.hash ∧
      (f.saved o program ssbs exps).heldMaps = .only view o.newMap ∧
      (j.perform t).session.workspace.file? o.file = some (f.saved o program ssbs exps) := by
  cases t with
  | save view file text =>
    have hsaves := saves_saveText hj view file text
    simp only [saved?] at h
    cases hanswer : (j.session.saveText view file text).1 with
    | error e => rw [hanswer] at h; cases h
    | ok o' =>
      rw [hanswer] at h hsaves
      cases h
      obtain ⟨f, c, program, ssbs, exps, hf, ho, rfl, hheld, hafter, -⟩ := hsaves
      exact ⟨view, text, f, c, program, ssbs, exps, rfl, hf, ho, hheld, hafter⟩
  | _ => cases h

theorem unfinished_perform_save (j : JointSession) (view : View) (file text : String) :
    (j.perform (.save view file text)).unfinished =
      j.unfinished ++ (j.saved? (.save view file text)).toList := rfl

/-- What a turn adds to the saves that are under way. -/
theorem mem_unfinished_perform (h : o ∈ (j.perform t).unfinished) :
    o ∈ j.unfinished ∨ j.saved? t = some o := by
  cases t with
  | save view file text =>
    rw [unfinished_perform_save, List.mem_append, Option.mem_toList] at h
    exact h
  | finish =>
    simp only [perform] at h
    split at h
    · exact .inl h
    · next hfirst => exact .inl (hfirst ▸ List.mem_cons_of_mem _ h)
  | act a =>
    simp only [perform] at h
    split_ifs at h <;> exact .inl h
  | take =>
    simp only [perform, take] at h
    split_ifs at h
    · split at h <;> exact .inl h
    · exact .inl h
  | _ => exact .inl h

/-- A save is under way until its breakpoints follow. -/
theorem mem_unfinished_of_ready (ho : o ∈ j.unfinished) (hready : o.ready = true) :
    o ∈ (j.perform t).unfinished ∨
      .reloadRequested o.file ∈ (j.perform t).session.workspace.host.reloads := by
  cases t with
  | save view file text =>
    rw [unfinished_perform_save]
    exact .inl (List.mem_append_left _ ho)
  | finish =>
    simp only [perform]
    split
    · exact .inl ho
    · next first rest hfirst =>
      rw [hfirst] at ho
      obtain rfl | hrest := List.mem_cons.mp ho
      · exact .inr (finishSave_requests hready)
      · exact .inl hrest
  | act a =>
    simp only [perform]
    split_ifs <;> exact .inl ho
  | take =>
    simp only [perform, take]
    split_ifs
    · split <;> exact .inl ho
    · exact .inl ho
  | _ => exact .inl ho

/-! ### Marks -/

/-- What a turn can do to the marks of a file. -/
inductive Marked (j : JointSession) (name : String) (f : ScriptFile) :
    Turn → Marking StampedMap → Prop where
  | keep (t : Turn) : Marked j name f t .keep
  | promoted (hram : f.flags.ramMatches = true) : Marked j name f .take .promote
  | parked (snapshot : GroundSnapshot) (hidle : j.unfinished = [])
    (hdiffers : f.differsIn name (Ground.ofSnapshot snapshot).loaded = true)
    (hram : f.entered.flags.ramMatches = true) : Marked j name f (.act (.restore snapshot)) .park
  | ssbs (text : SsbsText) (hnew : f.ssbs = none) :
    Marked j name f (.act (.loadSsbs name)) (.record .ssbs (text.sourceMap, f.hash))
  | exps (mode : ExpsLoadMode) (text : ExpsText) :
    Marked j name f (.act (.loadExps name mode)) (.record .exps (text.sourceMap, f.hash))
  | saved {t : Turn} {o : SaveOutcome} (h : j.saved? t = some o) (hfile : o.file = name) :
    Marked j name f t (.supersede o.view (o.newMap, o.hash))

theorem marked_act {a : Action} (ha : j.allows a = true) (name : String) (f : ScriptFile) :
    j.Marked name f (.act a) (j.session.marking a name f) := by
  cases a with
  | restore snapshot =>
    have hidle : j.unfinished = [] := by simpa [allows, Action.byGame, Action.byUser] using ha
    simp only [marking, ScriptFile.restoreMarking]
    split_ifs with hpark
    · exact .parked snapshot hidle hpark.1 hpark.2
    · exact .keep _
  | loadSsbs file =>
    simp only [marking]
    split_ifs with hname
    · subst hname
      unfold ScriptFile.ssbsMarking
      split
      · next text _ =>
        split_ifs with hheld
        · exact .keep _
        · exact .ssbs text (by simpa using hheld)
      · exact .keep _
    · exact .keep _
  | loadExps file mode =>
    simp only [marking]
    split_ifs with hname
    · subst hname
      unfold ScriptFile.expsMarking
      split
      · next text _ =>
        split_ifs
        · exact .keep _
        · exact .exps mode text
      · exact .keep _
    · exact .keep _
  | saveSsbs file text => cases byGame_or_byUser ha <;> contradiction
  | saveExps file text => cases byGame_or_byUser ha <;> contradiction
  | reload file => cases byGame_or_byUser ha <;> contradiction
  | _ => exact .keep _

theorem marked_save (hj : j.session.workspace.Named) (view : View) (file text : String)
    (name : String) (f : ScriptFile) : j.Marked name f (.save view file text)
      (if name = file then ScriptFile.saveMarking (j.session.saveText view file text).1 else .keep) := by
  split_ifs with hname
  · cases hanswer : (j.session.saveText view file text).1 with
    | error e => exact .keep _
    | ok o =>
      have hsaved : j.saved? (.save view file text) = some o := by
        rw [saved?, hanswer]
        rfl
      obtain ⟨_, _, _, _, _, _, _, ht, -⟩ := saved?_eq_some hj hsaved
      cases ht
      exact .saved hsaved hname.symm
  · exact .keep _

theorem marked (hj : j.session.workspace.Named) (t : Turn) (name : String) (f : ScriptFile) :
    j.Marked name f t (j.session.marking (j.action t) name f) := by
  cases t with
  | act a =>
    simp only [action]
    split_ifs with ha
    · exact marked_act ha name f
    · exact .keep _
  | save view file text =>
    cases view with
    | ssbs => exact marked_save hj .ssbs file text name f
    | exps => exact marked_save hj .exps file text name f
  | take =>
    simp only [action]
    cases j.requested? with
    | none => exact .keep _
    | some file =>
      simp only [Option.map_some, Option.getD_some, marking, ScriptFile.reloadMarking]
      split_ifs with hname hram
      · exact .promoted hram
      · exact .keep _
      · exact .keep _
  | _ => exact .keep _

/-! ### Events and breakpoints -/

/-- A turn takes the first event of the queue, if it takes one. -/
theorem take_cases (j : JointSession) :
    j.perform .take = j ∨ ∃ event rest, j.unfinished = [] ∧
      j.session.workspace.host.events = event :: rest ∧
      j.perform .take = { j with
        session := ((j.session.withEvents rest).takeEvent event).2
        told := j.told ++ j.session.answer event } := by
  simp only [perform]
  split_ifs with hidle
  · unfold take
    split
    · exact .inl rfl
    · next event rest hqueue =>
      refine .inr ⟨event, rest, hidle, hqueue, ?_⟩
      rw [show j.session.answer event = (j.session.withEvents rest).answer event by cases event <;> rfl,
        ← takeEvent_fst]
  · exact .inl rfl

theorem served_take (hj : j.session.workspace.Named) (event : Event) (rest : List Event) :
    j.session.Served [event] ((j.session.withEvents rest).takeEvent event).2 := by
  have hserved := served_takeEvent (s := j.session.withEvents rest) hj event
  exact ⟨hserved.named, hserved.file, hserved.pending, hserved.offsets⟩

/-- The save whose breakpoints a turn makes follow. -/
def finished? (j : JointSession) : Turn → Option SaveOutcome
  | .finish => j.unfinished.head?
  | _ => none

theorem finished?_eq_some {o : SaveOutcome} (h : j.finished? t = some o) :
    t = .finish ∧ ∃ rest, j.unfinished = o :: rest := by
  cases t with
  | finish => exact ⟨rfl, List.head?_eq_some_iff.mp h⟩
  | _ => cases h

theorem breakpoints_finish {o : SaveOutcome} {rest : List SaveOutcome} (h : j.unfinished = o :: rest) :
    (j.perform .finish).session.breakpoints = (j.session.breakpoints.resync j.session.workspace.host
      (j.session.workspace.ramMatches o.file) o.file
      (Reload.carried o (j.session.breakpoints.latestOffsets o.file))).1 := by
  simp only [perform, h]
  rfl

/-- What a turn can do to the breakpoints of a file. -/
inductive Adjusted (j : JointSession) (name : String) : Turn → Breakpoints → Prop where
  | same (t : Turn) {b : Breakpoints} (h : j.session.breakpoints.SameOf b name) : Adjusted j name t b
  /-- They follow a save. -/
  | followed {o : SaveOutcome} {rest : List SaveOutcome} (h : j.unfinished = o :: rest)
    (hfile : o.file = name) (host : Host) : Adjusted j name .finish (j.session.breakpoints.resync host
      (j.session.workspace.ramMatches name) name
      (Reload.carried o (j.session.breakpoints.latestOffsets name))).1
  /-- They are put in use by a reload. -/
  | reloaded {b : Breakpoints} (hready : j.session.workspace.canReload name = true)
    (hnone : b.pendingOffsets? name = none)
    (hoffsets : b.offsets name = j.session.breakpoints.latestOffsets name) : Adjusted j name .take b
  | added (offset : UInt32) (host : Host) :
    Adjusted j name (.add name offset) (j.session.breakpoints.add host name offset).1
  | removed (offset : UInt32) (host : Host) :
    Adjusted j name (.remove name offset) (j.session.breakpoints.remove host name offset).1
  | toggled (view : View) (opcodes : SourceMap → List UInt32) (offset : UInt32) (host : Host)
    (hram : j.session.workspace.ramMatches name = true) : Adjusted j name (.toggle name view opcodes)
      (j.session.breakpoints.toggle host name offset).2.1

theorem adjusted_take (hj : j.session.workspace.Named) (name : String) :
    j.Adjusted name .take (j.perform .take).session.breakpoints := by
  obtain hsame | ⟨event, rest, -, -, htaken⟩ := take_cases j
  · rw [hsame]
    exact .same _ ⟨rfl, rfl⟩
  · rw [htaken]
    have hserved : j.session.Served [event] _ := served_take hj event rest
    have hpending := hserved.pending name
    have hoffsets := hserved.offsets name
    by_cases hready : .reloadRequested name ∈ [event] ∧ j.session.workspace.canReload name = true
    · rw [if_pos hready] at hpending hoffsets
      exact .reloaded hready.2 hpending hoffsets
    · rw [if_neg hready] at hpending hoffsets
      exact .same _ ⟨hoffsets, hpending⟩

theorem adjusted_finish (j : JointSession) (name : String) :
    j.Adjusted name .finish (j.perform .finish).session.breakpoints := by
  simp only [perform]
  split
  · exact .same _ ⟨rfl, rfl⟩
  · next o rest hfirst =>
    rw [finishSave_breakpoints]
    by_cases hfile : name = o.file
    · subst hfile
      exact .followed hfirst rfl _
    · refine .same _ ⟨?_, ?_⟩
      · rw [Breakpoints.offsets_resync, if_neg fun hboth => hfile hboth.1]
      · rw [Breakpoints.pending_resync, if_neg hfile]

theorem adjusted_toggle (j : JointSession) (name file : String) (view : View)
    (opcodes : SourceMap → List UInt32) :
    j.Adjusted name (.toggle file view opcodes)
      (j.perform (.toggle file view opcodes)).session.breakpoints := by
  simp only [perform, toggleFirst]
  split_ifs with hram
  · split
    · exact .same _ ⟨rfl, rfl⟩
    · next offset _ =>
      by_cases hfile : name = file
      · subst hfile
        exact .toggled view opcodes offset _ hram
      · exact .same _ (Breakpoints.sameOf_toggle _ _ hfile offset)
  · exact .same _ ⟨rfl, rfl⟩

theorem adjusted (hj : j.session.workspace.Named) (t : Turn) (name : String) :
    j.Adjusted name t (j.perform t).session.breakpoints := by
  cases t with
  | act a =>
    simp only [perform]
    split_ifs with ha
    · rw [perform_breakpoints _ (byGame_or_byUser ha)]
      exact .same _ ⟨rfl, rfl⟩
    · exact .same _ ⟨rfl, rfl⟩
  | save view file text =>
    simp only [perform, saveText_breakpoints]
    exact .same _ ⟨rfl, rfl⟩
  | finish => exact adjusted_finish j name
  | take => exact adjusted_take hj name
  | add file offset =>
    by_cases hfile : name = file
    · subst hfile
      exact .added offset _
    · exact .same _ (Breakpoints.sameOf_add _ _ hfile offset)
  | remove file offset =>
    by_cases hfile : name = file
    · subst hfile
      exact .removed offset _
    · exact .same _ (Breakpoints.sameOf_remove _ _ hfile offset)
  | toggle file view opcodes => exact adjusted_toggle j name file view opcodes
  | aside other => exact .same _ ⟨rfl, rfl⟩

end JointSession

end SceneDebugger
