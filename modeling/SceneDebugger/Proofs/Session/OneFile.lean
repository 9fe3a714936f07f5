import SceneDebugger.Proofs.Session.SaveStates
import SceneDebugger.Proofs.Session.Tracking
import SceneDebugger.Proofs.Workspace.OneFile

/-!
# SceneDebugger.Proofs.Session.OneFile — operations on one script leave the others alone

An operation that names a script changes what is in use of it, its bytes, its breakpoints, the files
beside its text and what the include index says about it.  Of another script all this stays as it is;
the file of the breakpoints is written as a whole, with what is in memory about the other scripts.

* `Breakpoints.SameEntries`: both kinds of breakpoints of a file are kept as before.
* `Session.StaysClear`: a script is left alone.
* `Session.WorksOn`: the operations that name a script, and runs of them.
* `Session.WorksOn.staysClear`: they leave every other script alone.
-/

namespace SceneDebugger

open Disk

/-! ### Breakpoints -/

namespace Breakpoints

variable {b b' b'' : Breakpoints} {k : String}

/-- What is in force for a file and what waits for it is kept as before. -/
structure SameEntries (b b' : Breakpoints) (k : String) : Prop where
  primary : b'.primary[k]? = b.primary[k]?
  pending : b'.pending[k]? = b.pending[k]?

theorem SameEntries.refl (b : Breakpoints) (k : String) : b.SameEntries b k := ⟨rfl, rfl⟩

theorem SameEntries.trans (h : b.SameEntries b' k) (h' : b'.SameEntries b'' k) : b.SameEntries b'' k :=
  ⟨h'.primary.trans h.primary, h'.pending.trans h.pending⟩

/-- The same is written for the file. -/
theorem SameEntries.merged (h : b.SameEntries b' k) : b'.merged[k]? = b.merged[k]? := by
  unfold Breakpoints.merged
  rw [OffsetMap.lookup_union, OffsetMap.lookup_union, OffsetMap.offsets, OffsetMap.offsets, h.primary,
    h.pending]

end Breakpoints

namespace BreakpointCall

variable {b : Breakpoints} {h : Host} {k : String}

/-- The file that a call is about. -/
def file : BreakpointCall → String
  | .add file _ => file
  | .remove file _ => file
  | .toggle file _ => file
  | .resync _ file _ => file
  | .onReload file => file

theorem sameEntries_add {file : String} (hk : k ≠ file) (offset : UInt32) :
    b.SameEntries (b.add h file offset).1 k := by
  unfold Breakpoints.add
  split_ifs
  · exact .refl b k
  · exact ⟨(OffsetMap.lookup_insert b.primary file _ k).trans (if_neg hk), rfl⟩

theorem sameEntries_remove {file : String} (hk : k ≠ file) (offset : UInt32) :
    b.SameEntries (b.remove h file offset).1 k := by
  unfold Breakpoints.remove
  split_ifs
  · exact ⟨b.primary.lookup_replace_of_ne hk _, rfl⟩
  · exact ⟨b.primary.lookup_replace_of_ne hk _, rfl⟩

/-- A call keeps the breakpoints of all files but one. -/
theorem sameEntries_run (c : BreakpointCall) (hk : k ≠ c.file) : b.SameEntries (c.run b h).1 k := by
  cases c with
  | add file offset => exact sameEntries_add hk offset
  | remove file offset => exact sameEntries_remove hk offset
  | toggle file offset =>
    rw [run, Breakpoints.toggle]
    split_ifs
    · exact sameEntries_remove hk offset
    · exact sameEntries_add hk offset
  | resync ramMatches file offsets =>
    have herased := (OffsetMap.lookup_erase b.pending file k).trans (if_neg hk)
    have hinserted := (OffsetMap.lookup_insert b.pending file offsets k).trans (if_neg hk)
    rw [run, Breakpoints.resync]
    split_ifs
    · exact ⟨b.primary.lookup_replace_of_ne hk _, herased⟩
    · exact ⟨rfl, hinserted⟩
  | onReload file =>
    have herased := (OffsetMap.lookup_erase b.pending file k).trans (if_neg hk)
    rw [run, Breakpoints.onReload]
    split
    · exact .refl b k
    · exact ⟨b.primary.lookup_replace_of_ne hk _, herased⟩

end BreakpointCall

/-! ### A script that is left alone -/

namespace Session

variable {s t u : Session} {machine : Machine} {file other : String}

/-- The text of the file with the breakpoints. -/
def storedText? (s : Session) : Option String :=
  s.workspace.host.disk.fileAt? (lexical s.breakpoints.path)

/-- A script is left alone: what is in use of it, its bytes, its breakpoints, the files beside its text and
the shared files that it calls are as before.  The project stays where it is.  If the file of the
breakpoints was written, it has the breakpoints of the script that are in memory. -/
structure StaysClear (script : String) (s t : Session) : Prop where
  held : s.workspace.Spares t.workspace script
  breakpoints : s.breakpoints.SameEntries t.breakpoints script
  stored : t.storedText? = s.storedText? ∨ ∃ text m, t.storedText? = some text ∧
    OffsetMap.ofText text = .ok m ∧ m[script]? = t.breakpoints.merged[script]?
  beside : ∀ a : ProjectFile, a.IsBeside script →
    s.workspace.host.disk.Spares t.workspace.host.disk (a.place s.workspace.project)
  dependents : ∀ path, script ∈ t.workspace.project.dependents path ↔
    script ∈ s.workspace.project.dependents path
  project : ∃ usage, t.workspace.project = s.workspace.project.withUsage usage
  path : t.breakpoints.path = s.breakpoints.path

theorem StaysClear.refl (s : Session) (other : String) : s.StaysClear other s where
  held := .refl _ _
  breakpoints := .refl _ _
  stored := .inl rfl
  beside _ _ := .refl _ _
  dependents _ := .rfl
  project := ⟨s.workspace.project.usage, rfl⟩
  path := rfl

theorem StaysClear.trans (h : s.StaysClear other t) (h' : t.StaysClear other u) :
    s.StaysClear other u := by
  obtain ⟨usage, husage⟩ := h.project
  obtain ⟨later, hlater⟩ := h'.project
  have hplace : ∀ a : ProjectFile, a.place t.workspace.project = a.place s.workspace.project := fun a => by
    rw [husage]
    cases a <;> rfl
  refine ⟨h.held.trans h'.held, h.breakpoints.trans h'.breakpoints, ?_,
    fun a ha => (h.beside a ha).trans (hplace a ▸ h'.beside a ha),
    fun path => (h'.dependents path).trans (h.dependents path), ⟨later, ?_⟩, h'.path.trans h.path⟩
  · rcases h'.stored with hsame | hwritten
    · rw [hsame]
      refine h.stored.imp id fun ⟨text, m, htext, hm, hentry⟩ => ⟨text, m, htext, hm, ?_⟩
      rw [hentry, h'.breakpoints.merged]
    · exact .inr hwritten
  · rw [hlater, husage]
    rfl

theorem StaysClear.housed (h : s.StaysClear other t) (hs : s.Housed) : t.Housed := by
  obtain ⟨usage, husage⟩ := h.project
  unfold Housed
  rw [h.path, hs, husage]
  rfl

/-- Something was done in the workspace for one script. -/
theorem staysClear_workspace (hs : s.Housed) (hfile : IsScriptName file) (hother : IsScriptName other)
    (hne : other ≠ file) {w : Workspace} (hspares : s.workspace.Spares w other)
    (hrewrites : s.workspace.Rewrites (s.workspace.project.Own file) (· = file) w) :
    s.StaysClear other { s with workspace := w } where
  held := hspares
  breakpoints := .refl _ _
  stored := by
    refine .inl (Spares.same ?_)
    rw [hs]
    exact hrewrites.disk.spares
      (fun q hq => misses_of_ne (ProjectFile.breakpoints_place_ne_of_own hfile hq))
      fun q _ => ProjectFile.place_ne_temporary s.workspace.project (a := .breakpoints) trivial q
  beside a ha := hrewrites.disk.spares
    (fun q hq => misses_of_ne (ProjectFile.place_ne_of_own ha hother hfile hne hq))
    fun q _ => ProjectFile.place_ne_temporary s.workspace.project (ha.isNamed hother) q
  dependents path := by
    rw [Project.mem_dependents, Project.mem_dependents]
    exact hrewrites.notes path other hne
  project := hrewrites.usage
  path := rfl

/-- The file of the breakpoints holds what is in memory, if a call has written it. -/
theorem stored_call (b : Breakpoints) (h : Host) (c : BreakpointCall)
    (htemporary : lexical b.path ≠ lexical (temporary b.path)) :
    (c.run b h).2.disk.fileAt? (lexical b.path) = h.disk.fileAt? (lexical b.path) ∨
      (c.run b h).2.disk.fileAt? (lexical b.path) = some (c.run b h).1.merged.toJson.pretty := by
  cases hc : c.writes b with
  | false =>
    obtain ⟨-, hhost, -⟩ := c.run_of_not_writes (h := h) hc
    rw [hhost]
    exact .inl rfl
  | true =>
    obtain ⟨-, hdisk, -⟩ := c.run_of_writes (h := h) hc
    rw [hdisk]
    generalize hreplace : h.disk.replace b.path (c.run b h).1.merged.toJson.pretty = replaced
    obtain ⟨outcome, d⟩ := replaced
    cases outcome with
    | ok => exact .inr (fileAt?_of_replace hreplace)
    | error fault => exact .inl (spares_replace_of_error hreplace htemporary).same

/-- The breakpoints of one script changed. -/
theorem staysClear_call (hs : s.Housed) (hother : IsScriptName other) (c : BreakpointCall)
    (hne : other ≠ c.file) : s.StaysClear other { s with
      breakpoints := (c.run s.breakpoints s.workspace.host).1
      workspace := { s.workspace with host := (c.run s.breakpoints s.workspace.host).2 } } := by
  obtain ⟨hpath, hdisk⟩ := c.rewrites_run s.breakpoints s.workspace.host
  refine ⟨⟨rfl, rfl⟩, c.sameEntries_run hne, ?_, fun a ha => ?_, fun _ => .rfl,
    ⟨s.workspace.project.usage, rfl⟩, hpath⟩
  · have htemporary : lexical s.breakpoints.path ≠ lexical (temporary s.breakpoints.path) := by
      rw [hs]
      exact ProjectFile.place_ne_temporary s.workspace.project (a := .breakpoints) trivial _
    unfold storedText?
    dsimp only
    rw [hpath]
    exact (stored_call s.breakpoints s.workspace.host c htemporary).imp id fun htext =>
      ⟨_, _, htext, OffsetMap.ofText_pretty _, rfl⟩
  · refine hdisk.spares (fun q hq => misses_of_ne ?_) fun q _ =>
      ProjectFile.place_ne_temporary s.workspace.project (ha.isNamed hother) q
    rw [hq, hs]
    exact ProjectFile.place_ne_breakpointsPath ha hother

/-! ### Operations on one script -/

/-- A script is left alone, and the files in use are kept under their own names. -/
structure Tends (script : String) (s t : Session) : Prop extends StaysClear script s t where
  named : t.workspace.Named

theorem Tends.refl (hw : s.workspace.Named) (other : String) : s.Tends other s := ⟨.refl s other, hw⟩

theorem Tends.trans (h : s.Tends other t) (h' : t.Tends other u) : s.Tends other u :=
  ⟨h.toStaysClear.trans h'.toStaysClear, h'.named⟩

section

variable (hfile : IsScriptName file) (hother : IsScriptName other) (hne : other ≠ file)
include hfile hother hne

theorem tends_workspace (hs : s.Housed) {w : Workspace} (hlimited : s.workspace.Limited w file)
    (hrewrites : s.workspace.Rewrites (s.workspace.project.Own file) (· = file) w) :
    s.Tends other { s with workspace := w } :=
  ⟨staysClear_workspace hs hfile hother hne (hlimited.spares other hne) hrewrites, hlimited.named⟩

/-- Nothing was written. -/
theorem tends_still (hs : s.Housed) {w : Workspace} (hlimited : s.workspace.Limited w file)
    (hstorage : w.storage = s.workspace.storage) : s.Tends other { s with workspace := w } :=
  tends_workspace hfile hother hne hs hlimited (Workspace.rewrites_of_storage hstorage)

omit hfile in
theorem tends_call (hs : s.Housed) (hw : s.workspace.Named) (c : BreakpointCall) (hc : c.file = file) :
    s.Tends other { s with
      breakpoints := (c.run s.breakpoints s.workspace.host).1
      workspace := { s.workspace with host := (c.run s.breakpoints s.workspace.host).2 } } :=
  ⟨staysClear_call hs hother c (hc ▸ hne), hw⟩

theorem tends_applyReload (hs : s.Housed) (hw : s.workspace.Named) : s.Tends other { s with
    breakpoints := (Reload.apply s.breakpoints s.workspace file).2.1
    workspace := (Reload.apply s.breakpoints s.workspace file).2.2 } := by
  have hreloaded := tends_still hfile hother hne hs (Workspace.limited_applyReload hw file)
    (s.workspace.storage_applyReload file)
  unfold Reload.apply
  split
  · next w heq =>
    rw [heq] at hreloaded
    exact hreloaded
  · next w heq =>
    rw [heq] at hreloaded
    have hw' : Workspace.Named w := hreloaded.named
    exact hreloaded.trans (tends_call (s := { s with workspace := w }) hother hne
      (hreloaded.housed hs) hw' (.onReload file) rfl)

theorem tends_finishSave (hs : s.Housed) (hw : s.workspace.Named) {o : SaveOutcome}
    (ho : o.file = file) : s.Tends other (s.finishSave o) := by
  have hfollowed := tends_call hother hne hs hw (.resync (s.workspace.ramMatches o.file) o.file
    (Reload.carried o (s.breakpoints.latestOffsets o.file))) ho
  unfold finishSave Reload.finishSave
  dsimp only [Reload.within]
  split
  · refine hfollowed.trans (tends_still hfile hother hne (hfollowed.housed hs)
      ((Workspace.beside_send _ _).limited hfollowed.named) ?_)
    rfl
  · exact hfollowed

theorem tends_finishing {saved : Except Error SaveOutcome × Session} (h : s.Tends other saved.2)
    (ho : ∀ o, saved.1 = .ok o → o.file = file) (hs : s.Housed) : s.Tends other (finishing saved).2 := by
  unfold finishing
  split
  · next o t =>
    exact h.trans (tends_finishSave hfile hother hne (h.housed hs) h.named (ho o rfl))
  · exact h

omit hfile hother hne in
theorem file_of_saves {w v : Workspace} {view : View} {answer : Except Error SaveOutcome}
    (h : w.Saves v file view answer) {o : SaveOutcome} (ho : answer = .ok o) : o.file = file := by
  rw [ho] at h
  obtain ⟨f, c, program, ssbs, exps, -, -, hname, -⟩ := h
  exact hname

theorem tends_saveSsbs (hs : s.Housed) (hw : s.workspace.Named) (text : String) :
    s.Tends other (s.saveSsbs file text).2 := by
  have hsaved : s.Tends other (s.onWorkspace fun w => w.saveSsbs file text).2 :=
    tends_still hfile hother hne hs (Workspace.limited_saveSsbs hw file text)
      (s.workspace.storage_saveSsbs file text)
  exact tends_finishing hfile hother hne hsaved
    (fun _ => file_of_saves (Workspace.saves_saveSsbs hw file text)) hs

theorem tends_saveExps (hs : s.Housed) (hw : s.workspace.Named) (text : String) :
    s.Tends other (s.saveExps file text).2 := by
  have hsaved : s.Tends other (s.onWorkspace fun w => w.saveExps file text).2 :=
    tends_workspace hfile hother hne hs (Workspace.limited_saveExps hw file text)
      (s.workspace.rewrites_saveExps file text (fun _ => id) rfl)
  exact tends_finishing hfile hother hne hsaved
    (fun _ => file_of_saves (Workspace.saves_saveExps hw file text)) hs

theorem tends_loadExps (hs : s.Housed) (hw : s.workspace.Named) (mode : ExpsLoadMode) :
    s.Tends other (s.onWorkspace fun w => w.loadExps file mode).2 := by
  refine tends_workspace hfile hother hne hs (Workspace.limited_loadExps hw file mode)
    (s.workspace.rewrites_loadExps file mode fun f v hget q hq => ?_)
  rwa [Workspace.name_of_get hw hget] at hq

omit hfile in
theorem tends_toggleFirst (hs : s.Housed) (hw : s.workspace.Named) (view : View)
    (opcodes : SourceMap → List UInt32) : s.Tends other (s.toggleFirst file view opcodes).2 := by
  unfold toggleFirst
  split
  · split
    · exact .refl hw other
    · next offset _ => exact tends_call hother hne hs hw (.toggle file offset) rfl
  · exact .refl hw other

theorem tends_closeEditor {confirm : Session → Bool × Session} (hs : s.Housed)
    (hw : s.workspace.Named) (h : s.Tends other (confirm s).2) :
    s.Tends other (s.closeEditor file confirm).2 := by
  have hclosed : ∀ t : Session, t.Housed → t.workspace.Named →
      t.Tends other { t with workspace := t.workspace.finishClose file } := fun t ht hnamed =>
    tends_still hfile hother hne ht (Workspace.limited_finishClose hnamed file)
      (t.workspace.storage_finishClose file)
  unfold closeEditor
  dsimp only
  split
  · split
    · next heq =>
      rw [heq] at h
      exact h.trans (hclosed _ (h.housed hs) h.named)
    · next heq =>
      rw [heq] at h
      exact h
  · exact hclosed s hs hw

end

/-- What can be done about a script: asking for it, loading and saving its texts, its editor, its
breakpoints, and its reload.  What the user is asked before the editor is closed may take some time, in
which the script may be worked on. -/
inductive WorksOn (file : String) : Session → Session → Prop where
  | refl (s : Session) : WorksOn file s s
  | trans {s t u : Session} (h : WorksOn file s t) (h' : WorksOn file t u) : WorksOn file s u
  | get (s : Session) : WorksOn file s (s.onWorkspace fun w => w.get file).2
  | loadSsbs (s : Session) : WorksOn file s (s.onWorkspace fun w => w.loadSsbs file).2
  | loadExps (s : Session) (mode : ExpsLoadMode) :
    WorksOn file s (s.onWorkspace fun w => w.loadExps file mode).2
  | saveSsbs (s : Session) (text : String) : WorksOn file s (s.saveSsbs file text).2
  | saveExps (s : Session) (text : String) : WorksOn file s (s.saveExps file text).2
  | openEditor (s : Session) : WorksOn file s (s.onWorkspace fun w => w.openEditor file).2
  | closeEditor (s : Session) (confirm : Session → Bool × Session)
    (h : ∀ t, WorksOn file t (confirm t).2) : WorksOn file s (s.closeEditor file confirm).2
  | toggleAtLine (s : Session) (view : View) (line : UInt32) :
    WorksOn file s (s.toggleAtLine file view line).2
  | toggleAtInlinedLine (s : Session) (path : Path) (line : UInt32) :
    WorksOn file s (s.toggleAtInlinedLine file path line).2
  | call (s : Session) (c : BreakpointCall) (hc : c.file = file) :
    WorksOn file s (s.onBreakpoints fun b h => c.run b h)
  | applyReload (s : Session) : WorksOn file s { s with
      breakpoints := (Reload.apply s.breakpoints s.workspace file).2.1
      workspace := (Reload.apply s.breakpoints s.workspace file).2.2 }

theorem WorksOn.tends (h : WorksOn file s t) (hfile : IsScriptName file) (hother : IsScriptName other)
    (hne : other ≠ file) (hs : s.Housed) (hw : s.workspace.Named) : s.Tends other t := by
  induction h with
  | refl s => exact .refl hw other
  | trans _ _ ih ih' =>
    have hfirst := ih hs hw
    exact hfirst.trans (ih' (hfirst.housed hs) hfirst.named)
  | get s =>
    exact tends_still hfile hother hne hs (Workspace.limited_get hw file) (s.workspace.storage_get file)
  | loadSsbs s =>
    exact tends_still hfile hother hne hs (Workspace.limited_loadSsbs hw file)
      (s.workspace.storage_loadSsbs file)
  | loadExps s mode => exact tends_loadExps hfile hother hne hs hw mode
  | saveSsbs s text => exact tends_saveSsbs hfile hother hne hs hw text
  | saveExps s text => exact tends_saveExps hfile hother hne hs hw text
  | openEditor s =>
    exact tends_still hfile hother hne hs (Workspace.limited_openEditor hw file)
      (s.workspace.storage_openEditor file)
  | closeEditor s confirm _ ih => exact tends_closeEditor hfile hother hne hs hw (ih s hs hw)
  | toggleAtLine s view line => exact tends_toggleFirst hother hne hs hw view _
  | toggleAtInlinedLine s path line => exact tends_toggleFirst hother hne hs hw .exps _
  | call s c hc => exact tends_call hother hne hs hw c hc
  | applyReload s => exact tends_applyReload hfile hother hne hs hw

/-- What is done about one script leaves every other script alone. -/
theorem WorksOn.staysClear (hs : s.ArisesOver machine) (hfile : IsScriptName file)
    (hother : IsScriptName other) (hne : other ≠ file) (h : WorksOn file s t) :
    s.StaysClear other t :=
  (h.tends hfile hother hne hs.housed hs.reachable.tracks.named).toStaysClear

/-- A session whose ROM has two scripts, one of which has a breakpoint. -/
def paired : Session :=
  (start {} {} {} (LineLanguage.compiler {})
    { files := sample.workspace.rom.files.insert "D01P/b.ssb"
        ((LineLanguage.assemble (waitText "7")).toOption.getD .empty) } {} ⟨"proj"⟩ "eos_us").onBreakpoints
    fun b h => b.add h "D01P/b.ssb" 4

theorem arises_paired : paired.ArisesOver {} := ⟨_, _, _, _, _, _, _, .operation (.add _ _ 4)⟩

theorem WorksOn.staysClear_paired :
    paired.StaysClear "D01P/b.ssb" (paired.saveExps "enter.ssb" (waitText "6")).2 ∧
      (paired.saveExps "enter.ssb" (waitText "6")).2.breakpoints.primary["D01P/b.ssb"]? =
        some (Std.ExtTreeSet.ofList [(4 : UInt32)]) := by
  have halone : paired.StaysClear "D01P/b.ssb" (paired.saveExps "enter.ssb" (waitText "6")).2 :=
    (WorksOn.saveExps paired _).staysClear arises_paired
      ⟨[], "enter".toList, by decide, by simp, by decide, by decide⟩
      ⟨["D01P".toList], "b".toList, by decide, by simp [IsPlain], by decide, by decide⟩ (by decide)
  have hset : paired.breakpoints.primary["D01P/b.ssb"]? = some (Std.ExtTreeSet.ofList [(4 : UInt32)]) := by
    decide +kernel
  exact ⟨halone, halone.breakpoints.primary.trans hset⟩

end Session

end SceneDebugger
