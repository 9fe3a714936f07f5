import Mathlib.Tactic.Set
import SceneDebugger.Proofs.Workspace.Seen

/-!
# SceneDebugger.Proofs.Workspace.Changes — what each operation does to the files that are seen

Every operation on a workspace changes one file, by a function of the file: `updates_*` names the
function.  Saves and loads depend on more than the file; their functions are given by what they answer.

* `ScriptFile.entered`, `ScriptFile.left`: the game takes a file, and drops it.
* `ScriptFile.reloaded`: the waiting maps are put in use.
* `ScriptFile.loadedSsbs`, `ScriptFile.loadedExps`, `ScriptFile.saved`: texts loaded and saved.
-/

namespace SceneDebugger

/-! ### Changes of a file -/

namespace ScriptFile

/-- The file when the game takes it.  What the game held before may be older than the ROM still. -/
def entered (f : ScriptFile) : ScriptFile :=
  if f.flags.inGround then f.inGround true else (f.inGround true).fresh

/-- The file when the game drops it. -/
def left (f : ScriptFile) : ScriptFile := (f.inGround false).fresh

/-- The file after a reload, which does nothing to a stale file. -/
def reloaded (f : ScriptFile) : ScriptFile :=
  if f.flags.ramMatches then { f with marks := f.marks.promote } else f

/-- The file after its SSBS text was loaded; a text that it held stays. -/
def loadedSsbs (answer : Except Error SsbsText) (f : ScriptFile) : ScriptFile :=
  match answer with
  | .ok text => if f.ssbs.isSome then f else f.withSsbs text
  | .error _ => f

/-- The file after its EXPS text was loaded; only a strict load lets a text that it held stay. -/
def loadedExps (mode : ExpsLoadMode) (answer : Except Error ExpsText) (f : ScriptFile) :
    ScriptFile :=
  match answer with
  | .ok text => if mode = .strict ∧ f.exps.isSome then f else f.withExps text
  | .error _ => f

/-- The file after a save, with the texts that it holds from then on. -/
def saved (o : SaveOutcome) (program : Program) (ssbs : Option SsbsText) (exps : Option ExpsText)
    (f : ScriptFile) : ScriptFile :=
  { f.recompiled o.view program o.newMap o.hash with ssbs, exps }

/-- The maps of the texts that the file holds. -/
def heldMaps (f : ScriptFile) : MapPair :=
  { ssbs := f.ssbs.map SsbsText.sourceMap, exps := f.exps.map ExpsText.sourceMap }

@[simp] theorem entered_name (f : ScriptFile) : f.entered.name = f.name := by
  unfold entered
  split_ifs <;> rfl

section Recompiled

variable (f : ScriptFile) (view : View) (program : Program) (map : SourceMap) (hash : String)

@[simp] theorem recompiled_name : (f.recompiled view program map hash).name = f.name := by
  simp only [recompiled, outdated]
  split_ifs <;> rfl

@[simp] theorem recompiled_inGround :
    (f.recompiled view program map hash).flags.inGround = f.flags.inGround := by
  simp only [recompiled, outdated]
  split_ifs <;> rfl

@[simp] theorem recompiled_breakpointsOff :
    (f.recompiled view program map hash).flags.breakpointsOff = f.flags.breakpointsOff := by
  simp only [recompiled, outdated]
  split_ifs <;> rfl

/-- A compilation makes a held file stale. -/
@[simp] theorem recompiled_ramMatches :
    (f.recompiled view program map hash).flags.ramMatches =
      (!f.flags.inGround && f.flags.ramMatches) := by
  cases hin : f.flags.inGround <;> cases hram : f.flags.ramMatches <;>
    simp [recompiled, outdated, hin, hram]

@[simp] theorem recompiled_marks :
    (f.recompiled view program map hash).marks = f.marks.supersede view map := by
  simp only [recompiled, outdated]
  split_ifs <;> rfl

end Recompiled

end ScriptFile

/-! ### Operations -/

namespace Workspace

variable {w : Workspace} {name : String}

theorem updates_openEditor (hw : w.Named) (name : String) :
    w.Updates (w.openEditor name).2 name fun f => f.inEditor true := by
  obtain ⟨e, hget, hn⟩ | ⟨f, v, hget, hv, -, rfl, hs⟩ := get_cases hw name
  · simp only [openEditor, hget]
    exact (Alike.refl hw).updates_of_none hn _
  · simp only [openEditor, hget]
    exact hv.trans_updates
      (updates_put hv.named (fun f => f.inEditor true) ((hv.seen _).trans hs) rfl)

theorem updates_finishClose (hw : w.Named) (name : String) :
    w.Updates (w.finishClose name) name closed := by
  cases hn : w.file? name with
  | some f =>
    simp only [finishClose, hn]
    exact updates_put hw _ (seen?_of_file? hn) (hw name f hn)
  | none =>
    simp only [finishClose, hn]
    refine (Alike.refl hw).updates_of_eq fun f hf => ?_
    obtain ⟨program, hash, rfl⟩ := eq_of_seen?_of_absent hn hf
    rfl

theorem updates_applyReload (hw : w.Named) (name : String) :
    w.Updates (w.applyReload name).2 name ScriptFile.reloaded := by
  cases hn : w.file? name with
  | some f =>
    simp only [applyReload, hn]
    split_ifs with hram
    · have hf : f.reloaded = { f with marks := f.marks.promote } := by
        rw [ScriptFile.reloaded, if_pos hram]
      rw [← hf]
      exact updates_put hw _ (seen?_of_file? hn) (by rw [hf]; exact hw name f hn)
    · refine (Alike.refl hw).updates_of_eq fun g hg => ?_
      rw [seen?_of_file? hn] at hg
      cases hg
      rw [ScriptFile.reloaded, if_neg hram]
  | none =>
    simp only [applyReload, hn]
    refine (Alike.refl hw).updates_of_eq fun f hf => ?_
    obtain ⟨program, hash, rfl⟩ := eq_of_seen?_of_absent hn hf
    rfl

/-! ### The game -/

theorem updates_refresh {f : ScriptFile} {change : ScriptFile → ScriptFile} (hw : w.Named)
    (hf : w.seen? name = some f) (hname : f.name = name) {g : ScriptFile} (hg : g.fresh = change f)
    (hgn : g.name = f.name) : w.Updates (w.refresh g) name change := by
  have hput : w.Updates (w.put g.fresh) name change := by
    rw [hg]
    exact updates_put hw _ hf (by rw [← hg]; exact hgn.trans hname)
  unfold refresh
  split_ifs
  · exact hput
  · exact hput.trans_beside (beside_send _ _)

theorem updates_enterGround (hw : w.Named) (name : String) :
    w.Updates (w.enterGround name).2 name ScriptFile.entered := by
  obtain ⟨e, hget, hn⟩ | ⟨f, v, hget, hv, -, rfl, hs⟩ := get_cases hw name
  · simp only [enterGround, hget]
    exact (Alike.refl hw).updates_of_none hn _
  · have hvs : v.seen? f.name = some f := (hv.seen _).trans hs
    simp only [enterGround, hget]
    split_ifs with hin
    · have hf : f.entered = f.inGround true := by rw [ScriptFile.entered, if_pos hin]
      rw [← hf]
      exact hv.trans_updates (updates_put hv.named _ hvs (by simp))
    · have hf : (f.inGround true).fresh = f.entered := by rw [ScriptFile.entered, if_neg hin]
      exact hv.trans_updates (updates_refresh hv.named hvs rfl hf rfl)

/-- The game can take a file exactly if the file is seen. -/
theorem enterGround_ok (hw : w.Named) (name : String) :
    (∃ e v, w.enterGround name = (.error e, v) ∧ w.seen? name = none) ∨
      ∃ v, w.enterGround name = (.ok (), v) ∧ (w.seen? name).isSome := by
  obtain ⟨e, hget, hn⟩ | ⟨f, v, hget, -, -, -, hs⟩ := get_cases hw name
  · exact .inl ⟨e, w, by simp only [enterGround, hget], hn⟩
  · refine .inr ⟨(w.enterGround name).2, ?_, by rw [hs]; rfl⟩
    simp only [enterGround, hget]
    split_ifs <;> rfl

theorem updates_leaveGround (hw : w.Named) (name : String) :
    w.Updates (w.leaveGround name) name ScriptFile.left := by
  cases hn : w.file? name with
  | some f =>
    simp only [leaveGround, hn]
    exact updates_refresh hw (seen?_of_file? hn) (hw name f hn) rfl rfl
  | none =>
    simp only [leaveGround, hn]
    refine (Alike.refl hw).updates_of_eq fun f hf => ?_
    obtain ⟨program, hash, rfl⟩ := eq_of_seen?_of_absent hn hf
    rfl

theorem updates_markRestored (hw : w.Named) (name : String) :
    w.Updates (w.markRestored name).2 name ScriptFile.restored := by
  obtain ⟨e, hget, hn⟩ | ⟨f, v, hget, hv, -, rfl, hs⟩ := get_cases hw name
  · simp only [markRestored, hget]
    exact (Alike.refl hw).updates_of_none hn _
  · simp only [markRestored, hget]
    exact hv.trans_updates
      (updates_put hv.named ScriptFile.restored ((hv.seen _).trans hs) rfl)

/-! ### Loading texts -/

theorem updates_loadSsbs (hw : w.Named) (name : String) :
    w.Updates (w.loadSsbs name).2 name (ScriptFile.loadedSsbs (w.loadSsbs name).1) := by
  obtain ⟨e, hget, hn⟩ | ⟨f, v, hget, hv, -, rfl, hs⟩ := get_cases hw name
  · simp only [loadSsbs, hget]
    exact (Alike.refl hw).updates_of_none hn _
  · have hvs : v.seen? f.name = some f := (hv.seen _).trans hs
    have hsame : ∀ {change : ScriptFile → ScriptFile}, change f = f → w.Updates v f.name change :=
      fun hc => hv.updates_of_eq fun g hg => by rw [hs] at hg; cases hg; exact hc
    cases hheld : f.ssbs with
    | some text =>
      simp only [loadSsbs, hget, hheld]
      exact hsame (by simp [ScriptFile.loadedSsbs, hheld])
    | none =>
      cases hd : v.compiler.decompileSsbs f.program with
      | error e =>
        simp only [loadSsbs, hget, hheld, hd]
        exact hsame rfl
      | ok answer =>
        simp only [loadSsbs, hget, hheld, hd]
        have hf : ScriptFile.loadedSsbs (.ok ⟨answer.1, answer.2⟩) f =
            f.withSsbs ⟨answer.1, answer.2⟩ := by
          simp [ScriptFile.loadedSsbs, hheld]
        rw [← hf]
        exact hv.trans_updates (updates_put hv.named _ hvs (by rw [hf]; rfl))

theorem beside_expsOnDisk (w : Workspace) (f : ScriptFile) (mode : ExpsLoadMode) :
    w.Beside (w.expsOnDisk f mode).2 := by
  simp only [expsOnDisk]
  split_ifs
  · exact .refl w
  · exact .refl w
  · split
    · exact (beside_warn w _).trans (beside_withDisk _ _)
    · exact (beside_warn w _).trans (beside_withDisk _ _)

theorem beside_expsFromProgram (w : Workspace) (f : ScriptFile) :
    w.Beside (w.expsFromProgram f).2 := by
  simp only [expsFromProgram]
  split
  · exact .refl w
  · split
    · exact beside_withDisk w _
    · exact beside_withDisk w _

theorem beside_expsText (w : Workspace) (f : ScriptFile) (mode : ExpsLoadMode) :
    w.Beside (if w.project.hasExps w.host.disk f.name ∧ mode ≠ .decompile then w.expsOnDisk f mode
      else w.expsFromProgram f).2 := by
  split_ifs
  · exact beside_expsOnDisk w f mode
  · exact beside_expsFromProgram w f

theorem updates_loadExps (hw : w.Named) (name : String) (mode : ExpsLoadMode) :
    w.Updates (w.loadExps name mode).2 name
      (ScriptFile.loadedExps mode (w.loadExps name mode).1) := by
  obtain ⟨e, hget, hn⟩ | ⟨f, v, hget, hv, -, rfl, hs⟩ := get_cases hw name
  · simp only [loadExps, hget]
    exact (Alike.refl hw).updates_of_none hn _
  · cases hheld : (if mode = .strict then f.exps else none) with
    | some text =>
      simp only [loadExps, hget, hheld]
      refine hv.updates_of_eq fun g hg => ?_
      rw [hs] at hg
      cases hg
      split_ifs at hheld with hmode
      simp [ScriptFile.loadedExps, hmode, hheld]
    | none =>
      have hnew : ¬ (mode = .strict ∧ f.exps.isSome) := by
        rintro ⟨rfl, hsome⟩
        rw [if_pos rfl] at hheld
        rw [hheld] at hsome
        cases hsome
      set source := if v.project.hasExps v.host.disk f.name ∧ mode ≠ .decompile
        then v.expsOnDisk f mode else v.expsFromProgram f with hsource
      have hbeside : v.Beside source.2 := beside_expsText v f mode
      simp only [loadExps, hget, hheld, ← hsource]
      have hu : w.Alike source.2 := hv.trans (hbeside.alike hv.named)
      have hus : source.2.seen? f.name = some f := (hu.seen _).trans hs
      cases hanswer : source with
      | mk answer u =>
        rw [hanswer] at hu hus
        cases answer with
        | error e =>
          refine hu.updates_of_eq fun g hg => ?_
          rfl
        | ok answer =>
          have hf : ∀ text, ScriptFile.loadedExps mode (.ok text) f = f.withExps text := fun text => by
            simp only [ScriptFile.loadedExps, if_neg hnew]
          simp only [← hf]
          exact hu.trans_updates (updates_put hu.named _ hus (by rw [hf]; rfl))

/-! ### Saving texts -/

/-- A ROM file is written for a file in use, which shows in no file. -/
theorem alike_writeProgram {f : ScriptFile} (hw : w.Named) (hf : w.file? name = some f)
    (p : Program) : w.Alike (w.writeProgram name p).2 := by
  have hinsert : ∀ (bytes : ByteArray) (k : String), w.file? k = none →
      (w.rom.files.insert name bytes)[k]? = w.rom.files[k]? := by
    intro bytes k hk
    have hne : name ≠ k := by
      rintro rfl
      rw [hf] at hk
      cases hk
    simp [Std.ExtTreeMap.getElem?_insert, hne]
  unfold writeProgram Rom.write Rom.save
  cases w.compiler.encode p with
  | error e => exact .refl hw
  | ok bytes =>
    by_cases hwrite : w.rom.writeFails
    · simp only [hwrite, if_true]
      exact .refl hw
    · simp only [hwrite, if_false, Bool.false_eq_true]
      by_cases hsave : w.rom.saveFails
      · simp only [hsave, if_true]
        exact alike_rom hw rfl rfl rfl (hinsert bytes)
      · simp only [hsave, if_false, Bool.false_eq_true]
        exact alike_rom hw rfl rfl rfl (hinsert bytes)

/-- What a save does: nothing that is seen if it fails, else the file is in use and saved. -/
def Saves (w v : Workspace) (name : String) (view : View) (answer : Except Error SaveOutcome) :
    Prop :=
  match answer with
  | .error _ => w.Alike v
  | .ok o => ∃ f c program ssbs exps, w.seen? name = some f ∧ o = outcome f view c o.hash ∧
      o.file = name ∧ (f.saved o program ssbs exps).heldMaps = .only view o.newMap ∧
      v.file? name = some (f.saved o program ssbs exps) ∧
      w.Updates v name (ScriptFile.saved o program ssbs exps)

theorem saves_saveSsbs (hw : w.Named) (name text : String) :
    w.Saves (w.saveSsbs name text).2 name .ssbs (w.saveSsbs name text).1 := by
  obtain ⟨e, hget, hn⟩ | ⟨f, v, hget, hv, hf, rfl, hs⟩ := get_cases hw name
  · simp only [saveSsbs, hget]
    exact .refl hw
  · cases hc : v.compiler.compileSsbs text with
    | error e =>
      simp only [saveSsbs, hget, hc]
      exact hv
    | ok c =>
      have hu := hv.trans (alike_writeProgram hv.named hf c.program)
      cases hwrite : v.writeProgram f.name c.program with
      | mk answer u =>
        rw [hwrite] at hu
        cases answer with
        | error e =>
          simp only [saveSsbs, hget, hc, hwrite]
          exact hu
        | ok hash =>
          simp only [saveSsbs, hget, hc, hwrite]
          have hus : u.seen? f.name = some f := (hu.seen f.name).trans hs
          have hput := updates_put hu.named
            (ScriptFile.saved (outcome f .ssbs c hash) c.program (some ⟨text, c.sourceMap⟩) none) hus
            (by simp [ScriptFile.saved])
          refine ⟨f, c, c.program, some ⟨text, c.sourceMap⟩, none, hs, rfl, rfl, rfl, ?_,
            hu.trans_updates hput⟩
          exact (file?_put _ _ _).trans (if_pos (by simp))

theorem beside_writeSidecars (w : Workspace) (name text hash : String) (c : Compilation) :
    w.Beside (w.writeSidecars name text hash c).2 := by
  unfold writeSidecars
  split
  · exact beside_withDisk w _
  · next d _ =>
    obtain ⟨result, project, d'⟩ := w.project.updateUsage d name c.included
    exact ⟨rfl, rfl, rfl, rfl⟩

theorem beside_tryWriteSidecars (w : Workspace) (name text hash : String) (c : Compilation) :
    w.Beside (w.tryWriteSidecars name text hash c) := by
  have h := beside_writeSidecars w name text hash c
  unfold tryWriteSidecars
  cases hs : w.writeSidecars name text hash c with
  | mk answer u =>
    rw [hs] at h
    cases answer with
    | ok _ => exact h
    | error e => exact h.trans ((beside_warn u _).trans (beside_send _ _))

theorem saves_saveExps (hw : w.Named) (name text : String) :
    w.Saves (w.saveExps name text).2 name .exps (w.saveExps name text).1 := by
  obtain ⟨e, hget, hn⟩ | ⟨f, v, hget, hv, hf, rfl, hs⟩ := get_cases hw name
  · simp only [saveExps, hget]
    exact .refl hw
  · cases hc : v.compiler.compileExps v.host.disk (v.project.searchPath f.name) text with
    | error e =>
      simp only [saveExps, hget, hc]
      exact hv
    | ok c =>
      have hu := hv.trans (alike_writeProgram hv.named hf c.program)
      cases hwrite : v.writeProgram f.name c.program with
      | mk answer u =>
        rw [hwrite] at hu
        cases answer with
        | error e =>
          simp only [saveExps, hget, hc, hwrite]
          exact hu
        | ok hash =>
          simp only [saveExps, hget, hc, hwrite]
          have ht := hu.trans ((beside_tryWriteSidecars u f.name text hash c).alike hu.named)
          have hts : (u.tryWriteSidecars f.name text hash c).seen? f.name = some f :=
            (ht.seen f.name).trans hs
          have hput := updates_put ht.named
            (ScriptFile.saved (outcome f .exps c hash) c.program none
              (some ⟨text, c.sourceMap, u.project.expsPath f.name, hash⟩)) hts
            (by simp [ScriptFile.saved])
          refine ⟨f, c, c.program, none, _, hs, rfl, rfl, rfl, ?_, ht.trans_updates hput⟩
          exact (file?_put _ _ _).trans (if_pos (by simp))

end Workspace

end SceneDebugger
