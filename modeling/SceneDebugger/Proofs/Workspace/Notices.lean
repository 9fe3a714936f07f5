import SceneDebugger.Proofs.Workspace.Changes

/-!
# SceneDebugger.Proofs.Workspace.Notices — the queue follows the files

Of the events in the queue, `Host.reloads` are those about reloads.  Operations on a workspace only put
further ones behind them, which ask for the reload of a file in use; and whenever a file stops being
stale its reload is asked for.

* `Workspace.Notifies`: all of this, which composes over operations.
* `Workspace.notifies_change`, `Workspace.notifies_refresh`: the two ways in which a file changes.
-/

namespace SceneDebugger

/-- The event is about the reload of a file. -/
def Event.isReload : Event → Bool
  | .reloadRequested _ => true
  | .fileReloaded _ => true
  | _ => false

/-- The events about reloads that the user did not take yet. -/
def Host.reloads (h : Host) : List Event := h.events.filter Event.isReload

theorem Host.mem_reloads {h : Host} {file : String} :
    .reloadRequested file ∈ h.reloads ↔ .reloadRequested file ∈ h.events := by
  simp [reloads, Event.isReload]

theorem Host.reloads_send (h : Host) {event : Event} (hquiet : event.isReload = false) :
    (h.send event).reloads = h.reloads := by
  simp [reloads, send, hquiet]

namespace Workspace

variable {w w' w'' : Workspace} {name : String} {f g : ScriptFile}

/-- The queue has grown by requests, and tells of every file that is stale no more. -/
structure Notifies (w w' : Workspace) : Prop where
  used : ∀ name, (w.file? name).isSome → (w'.file? name).isSome
  queued : ∃ more, w'.host.reloads = w.host.reloads ++ more ∧
    ∀ e ∈ more, ∃ file, e = .reloadRequested file ∧ (w'.file? file).isSome
  requested : ∀ name, w.ramMatches name = false →
    w'.ramMatches name = false ∨ .reloadRequested name ∈ w'.host.reloads

theorem Notifies.refl (w : Workspace) : w.Notifies w :=
  ⟨fun _ h => h, ⟨[], (List.append_nil _).symm, fun _ he => absurd he List.not_mem_nil⟩,
    fun _ h => .inl h⟩

theorem Notifies.trans (h : w.Notifies w') (h' : w'.Notifies w'') : w.Notifies w'' := by
  obtain ⟨more, hmore, hasks⟩ := h.queued
  obtain ⟨more', hmore', hasks'⟩ := h'.queued
  refine ⟨fun name hn => h'.used name (h.used name hn), ⟨more ++ more', ?_, ?_⟩, ?_⟩
  · rw [hmore', hmore, List.append_assoc]
  · intro e he
    obtain he | he := List.mem_append.mp he
    · obtain ⟨file, rfl, hused⟩ := hasks e he
      exact ⟨file, rfl, h'.used file hused⟩
    · exact hasks' e he
  · intro name hstale
    obtain hstale' | hmem := h.requested name hstale
    · exact h'.requested name hstale'
    · refine .inr ?_
      rw [hmore']
      exact List.mem_append_left _ hmem

/-! ### What surrounds the files -/

theorem ramMatches_of_file? (h : w.file? name = some f) : w.ramMatches name = f.flags.ramMatches := by
  rw [ramMatches, h, Option.all_some]

theorem ramMatches_eq_false : w.ramMatches name = false ↔
    ∃ f, w.file? name = some f ∧ f.flags.ramMatches = false := by
  cases h : w.file? name with
  | none => simp [ramMatches, h]
  | some f => simp [ramMatches, h]

theorem Outside.ramMatches (h : w.Outside w') (name : String) :
    w'.ramMatches name = w.ramMatches name := by
  simp [Workspace.ramMatches, h.file?]

theorem Outside.notifies (h : w.Outside w') (hqueue : w'.host.reloads = w.host.reloads) :
    w.Notifies w' := by
  refine ⟨fun name hn => by rw [h.file?]; exact hn,
    ⟨[], hqueue.trans (List.append_nil _).symm, fun _ he => absurd he List.not_mem_nil⟩, ?_⟩
  intro name hstale
  rw [h.ramMatches]
  exact .inl hstale

theorem notifies_send (w : Workspace) {event : Event} (h : event.isReload = false) :
    w.Notifies (w.send event) :=
  (beside_send w event).outside.notifies (w.host.reloads_send h)

theorem notifies_warn (w : Workspace) (text : String) : w.Notifies (w.warn text) :=
  (beside_warn w text).outside.notifies rfl

theorem notifies_withDisk (w : Workspace) (disk : Disk) : w.Notifies (w.withDisk disk) :=
  (beside_withDisk w disk).outside.notifies rfl

theorem notifies_requestReload (h : (w.file? name).isSome) : w.Notifies (w.requestReload name) := by
  have hbeside : w.Beside (w.requestReload name) := beside_send w _
  refine ⟨fun k hk => by rw [hbeside.file?]; exact hk,
    ⟨[.reloadRequested name], by simp [requestReload, send, Host.send, Host.reloads, Event.isReload],
      fun e he => ⟨name, List.mem_singleton.mp he, by rw [hbeside.file?]; exact h⟩⟩, ?_⟩
  intro k hstale
  rw [hbeside.outside.ramMatches]
  exact .inl hstale

/-! ### Files -/

theorem ramMatches_put (w : Workspace) (f : ScriptFile) (k : String) :
    (w.put f).ramMatches k = if k = f.name then f.flags.ramMatches else w.ramMatches k := by
  simp only [ramMatches, file?_put]
  split_ifs <;> rfl

/-- A file that is changed must not stop being stale by it. -/
theorem notifies_put (h : w.ramMatches f.name = false → f.flags.ramMatches = false) :
    w.Notifies (w.put f) := by
  refine ⟨fun name => used_put f, ⟨[], (List.append_nil _).symm, fun _ he => ?_⟩, fun name hn => ?_⟩
  · exact absurd he List.not_mem_nil
  · rw [ramMatches_put]
    split_ifs with hname
    · exact .inl (h (hname ▸ hn))
    · exact .inl hn

theorem notifies_change (hf : w.file? f.name = some f) (hname : g.name = f.name)
    (h : f.flags.ramMatches = false → g.flags.ramMatches = false) : w.Notifies (w.put g) := by
  refine notifies_put fun hstale => h ?_
  rw [hname, ramMatches_of_file? hf] at hstale
  exact hstale

/-- A file stops being stale, and its reload is requested. -/
theorem notifies_refresh (hf : w.file? f.name = some f) (hname : g.name = f.name)
    (hram : g.flags.ramMatches = f.flags.ramMatches) : w.Notifies (w.refresh g) := by
  unfold refresh
  split_ifs with hg
  · refine notifies_put fun hstale => ?_
    rw [show g.fresh.name = f.name from hname, ramMatches_of_file? hf, ← hram, hg] at hstale
    cases hstale
  · have hin : ((w.put g.fresh).file? g.name).isSome := by
      rw [file?_put, if_pos (show g.name = g.fresh.name from rfl)]
      rfl
    -- only the request makes up for the file that is stale no more
    obtain ⟨-, ⟨more, hmore, hasks⟩, -⟩ := notifies_requestReload hin
    refine ⟨fun name hn => used_put g.fresh hn, ⟨more, hmore, hasks⟩, fun name hn => ?_⟩
    by_cases hk : name = g.name
    · refine .inr (Host.mem_reloads.mpr (hk ▸ List.mem_append_right _ ?_))
      exact List.mem_singleton.mpr rfl
    · have hkeep : (w.put g.fresh).ramMatches name = w.ramMatches name := by
        rw [ramMatches_put, if_neg (show ¬ name = g.fresh.name from hk)]
      exact .inl (hkeep.trans hn)

theorem notifies_get (w : Workspace) (name : String) : w.Notifies (w.get name).2 := by
  unfold get
  split
  · exact .refl w
  · split
    · exact .refl w
    · next f _ =>
      simp only [insertIfAbsent]
      split_ifs with hin
      · exact .refl w
      · refine notifies_put fun hstale => ?_
        obtain ⟨g, hg, -⟩ := ramMatches_eq_false.mp hstale
        rw [file?] at hg
        rw [Std.ExtTreeMap.contains_eq_isSome_getElem?, hg] at hin
        exact absurd rfl hin

/-! ### Operations -/

theorem notifies_openEditor (hw : w.Named) (name : String) : w.Notifies (w.openEditor name).2 := by
  have hgot := notifies_get w name
  obtain ⟨e, hget, -⟩ | ⟨f, v, hget, -, hf, rfl, -⟩ := get_cases hw name
  · simp only [openEditor, hget]
    exact .refl w
  · simp only [openEditor, hget] at hgot ⊢
    exact hgot.trans (notifies_change hf rfl id)

theorem notifies_finishClose (hw : w.Named) (name : String) : w.Notifies (w.finishClose name) := by
  unfold finishClose
  split
  · exact .refl w
  · next f hf =>
    have hname := hw name f hf
    subst hname
    exact notifies_change hf rfl id

theorem notifies_enterGround (hw : w.Named) (name : String) : w.Notifies (w.enterGround name).2 := by
  have hgot := notifies_get w name
  obtain ⟨e, hget, -⟩ | ⟨f, v, hget, -, hf, rfl, -⟩ := get_cases hw name
  · simp only [enterGround, hget]
    exact .refl w
  · simp only [enterGround, hget] at hgot ⊢
    split_ifs
    · exact hgot.trans (notifies_change hf rfl id)
    · exact hgot.trans (notifies_refresh hf rfl rfl)

theorem notifies_leaveGround (hw : w.Named) (name : String) : w.Notifies (w.leaveGround name) := by
  unfold leaveGround
  split
  · exact .refl w
  · next f hf =>
    have hname := hw name f hf
    subst hname
    exact notifies_refresh hf rfl rfl

theorem notifies_markRestored (hw : w.Named) (name : String) :
    w.Notifies (w.markRestored name).2 := by
  have hgot := notifies_get w name
  obtain ⟨e, hget, -⟩ | ⟨f, v, hget, -, -, rfl, -⟩ := get_cases hw name
  · simp only [markRestored, hget]
    exact .refl w
  · simp only [markRestored, hget] at hgot ⊢
    exact hgot.trans (notifies_put fun _ => rfl)

/-! ### Texts -/

theorem notifies_loadSsbs (hw : w.Named) (name : String) : w.Notifies (w.loadSsbs name).2 := by
  have hgot := notifies_get w name
  obtain ⟨e, hget, -⟩ | ⟨f, v, hget, -, hf, rfl, -⟩ := get_cases hw name
  · simp only [loadSsbs, hget]
    exact .refl w
  · simp only [loadSsbs, hget] at hgot ⊢
    split
    · exact hgot
    · split
      · exact hgot
      · exact hgot.trans (notifies_change hf rfl id)

theorem notifies_expsOnDisk (w : Workspace) (f : ScriptFile) (mode : ExpsLoadMode) :
    w.Notifies (w.expsOnDisk f mode).2 := by
  simp only [expsOnDisk]
  split_ifs
  · exact .refl w
  · exact .refl w
  · split
    · exact (notifies_warn w _).trans (notifies_withDisk _ _)
    · exact (notifies_warn w _).trans (notifies_withDisk _ _)

theorem notifies_expsFromProgram (w : Workspace) (f : ScriptFile) :
    w.Notifies (w.expsFromProgram f).2 := by
  simp only [expsFromProgram]
  split
  · exact .refl w
  · split
    · exact notifies_withDisk w _
    · exact notifies_withDisk w _

theorem notifies_loadExps (hw : w.Named) (name : String) (mode : ExpsLoadMode) :
    w.Notifies (w.loadExps name mode).2 := by
  have hgot := notifies_get w name
  obtain ⟨e, hget, -⟩ | ⟨f, v, hget, -, hf, rfl, -⟩ := get_cases hw name
  · simp only [loadExps, hget]
    exact .refl w
  · simp only [loadExps, hget] at hgot ⊢
    split
    · exact hgot
    · set source := if v.project.hasExps v.host.disk f.name ∧ mode ≠ .decompile
        then v.expsOnDisk f mode else v.expsFromProgram f with hsource
      have hbeside : v.Beside source.2 := beside_expsText v f mode
      have hread : v.Notifies source.2 := by
        rw [hsource]
        split_ifs
        · exact notifies_expsOnDisk v f mode
        · exact notifies_expsFromProgram v f
      have hin : source.2.file? f.name = some f := (hbeside.file? f.name).trans hf
      cases hanswer : source with
      | mk answer u =>
        rw [hanswer] at hread hin
        cases answer with
        | error e => exact hgot.trans hread
        | ok text =>
          exact (hgot.trans hread).trans
            (notifies_change hin rfl id)

theorem writeProgram_files (w : Workspace) (name : String) (p : Program) :
    (w.writeProgram name p).2.files = w.files ∧ (w.writeProgram name p).2.host = w.host := by
  unfold writeProgram
  split
  · exact ⟨rfl, rfl⟩
  · split
    · exact ⟨rfl, rfl⟩
    · split <;> exact ⟨rfl, rfl⟩

theorem notifies_writeProgram (w : Workspace) (name : String) (p : Program) :
    w.Notifies (w.writeProgram name p).2 := by
  obtain ⟨hfiles, hhost⟩ := writeProgram_files w name p
  have hfile : ∀ k, (w.writeProgram name p).2.file? k = w.file? k := fun k => by
    rw [file?, file?, hfiles]
  refine ⟨fun k hk => (hfile k).symm ▸ hk, ⟨[], ?_, fun _ he => absurd he List.not_mem_nil⟩, ?_⟩
  · rw [hhost, List.append_nil]
  · intro k hk
    rw [ramMatches, hfile]
    exact .inl hk

theorem notifies_saveSsbs (hw : w.Named) (name text : String) :
    w.Notifies (w.saveSsbs name text).2 := by
  have hgot := notifies_get w name
  obtain ⟨e, hget, -⟩ | ⟨f, v, hget, -, hf, rfl, -⟩ := get_cases hw name
  · simp only [saveSsbs, hget]
    exact .refl w
  · simp only [saveSsbs, hget] at hgot ⊢
    split
    · exact hgot
    · next c _ =>
      have hwritten := hgot.trans (notifies_writeProgram v f.name c.program)
      have hfiles := (writeProgram_files v f.name c.program).1
      split
      · next heq =>
        rw [heq] at hwritten
        exact hwritten
      · next heq =>
        rw [heq] at hwritten hfiles
        refine hwritten.trans (notifies_change (f := f) ?_ (by simp) fun hstale => by simp [hstale])
        rw [file?, hfiles]
        exact hf

theorem notifies_writeSidecars (w : Workspace) (name text hash : String) (c : Compilation) :
    w.Notifies (w.writeSidecars name text hash c).2 := by
  unfold writeSidecars
  split
  · exact notifies_withDisk w _
  · next d _ =>
    obtain ⟨result, project, d'⟩ := w.project.updateUsage d name c.included
    have hbeside : w.Beside { w with project, host := w.host.withDisk d' } := ⟨rfl, rfl, rfl, rfl⟩
    exact hbeside.outside.notifies rfl

theorem notifies_tryWriteSidecars (w : Workspace) (name text hash : String) (c : Compilation) :
    w.Notifies (w.tryWriteSidecars name text hash c) := by
  have h := notifies_writeSidecars w name text hash c
  unfold tryWriteSidecars
  cases hs : w.writeSidecars name text hash c with
  | mk answer u =>
    rw [hs] at h
    cases answer with
    | ok _ => exact h
    | error e => exact h.trans ((notifies_warn u _).trans (notifies_send _ rfl))

theorem notifies_saveExps (hw : w.Named) (name text : String) :
    w.Notifies (w.saveExps name text).2 := by
  have hgot := notifies_get w name
  obtain ⟨e, hget, -⟩ | ⟨f, v, hget, -, hf, rfl, -⟩ := get_cases hw name
  · simp only [saveExps, hget]
    exact .refl w
  · simp only [saveExps, hget] at hgot ⊢
    split
    · exact hgot
    · next c _ =>
      have hwritten := hgot.trans (notifies_writeProgram v f.name c.program)
      have hfiles := (writeProgram_files v f.name c.program).1
      split
      · next heq =>
        rw [heq] at hwritten
        exact hwritten
      · next hash u heq =>
        rw [heq] at hwritten hfiles
        have hsidecars := hwritten.trans (notifies_tryWriteSidecars u f.name text hash c)
        refine hsidecars.trans (notifies_change (f := f) ?_ (by simp) fun hstale => by simp [hstale])
        rw [(beside_tryWriteSidecars u f.name text hash c).file?, file?, hfiles]
        exact hf

end Workspace

end SceneDebugger
