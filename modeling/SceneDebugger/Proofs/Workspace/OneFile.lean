import SceneDebugger.Proofs.Workspace.Footprints
import SceneDebugger.Proofs.Workspace.Undone

/-!
# SceneDebugger.Proofs.Workspace.OneFile — work on one script leaves the others alone

Scripts share the ROM, the files in use and the project.  What is done to one of them changes neither
what is in use of another one, nor its bytes, nor the files beside its text.

* `Workspace.Limited`: all scripts but one are in use as before, with the same bytes.
* `ProjectFile.IsBeside`: the files beside the text of a script.
* `ProjectFile.place_ne_of_own`: the files that are written for one script are not those beside another.
-/

namespace SceneDebugger

open Disk

/-! ### Files in use -/

namespace Workspace

variable {w v u : Workspace} {f : ScriptFile} {name : String}

theorem Limited.refl (hw : w.Named) (name : String) : w.Limited w name := ⟨hw, fun k _ => .refl w k⟩

theorem Limited.beside (h : w.Limited v name) (h' : v.Beside u) : w.Limited u name :=
  h.trans (h'.limited h.named)

theorem Limited.put (h : w.Limited v name) (hname : f.name = name) : w.Limited (v.put f) name :=
  h.trans ⟨named_put h.named f, fun _ hk => spares_put v (hname ▸ hk)⟩

theorem limited_get (hw : w.Named) (name : String) : w.Limited (w.get name).2 name :=
  ⟨(alike_get hw name).named, fun _ hk => (undone_get w name).1.spares hk⟩

theorem limited_of_get (hw : w.Named) {answer : Except Error ScriptFile} (h : w.get name = (answer, v)) :
    w.Limited v name := by
  have hasked := limited_get hw name
  rwa [h] at hasked

theorem name_of_get (hw : w.Named) (h : w.get name = (.ok f, v)) : f.name = name :=
  name_of_seen? hw (by rw [seen?, h]; rfl)

theorem limited_openEditor (hw : w.Named) (name : String) :
    w.Limited (w.openEditor name).2 name := by
  unfold openEditor
  split
  · next hget => exact limited_of_get hw hget
  · next hget =>
    have hname := name_of_get hw hget
    exact (limited_of_get hw hget).put hname

theorem limited_finishClose (hw : w.Named) (name : String) : w.Limited (w.finishClose name) name := by
  unfold finishClose
  split
  · exact .refl hw name
  · next f hfile =>
    have hname := hw name f hfile
    exact (Limited.refl hw name).put hname

theorem limited_applyReload (hw : w.Named) (name : String) :
    w.Limited (w.applyReload name).2 name := by
  unfold applyReload
  split
  · exact .refl hw name
  · next f hfile =>
    have hname := hw name f hfile
    split_ifs
    · exact (Limited.refl hw name).put hname
    · exact .refl hw name

theorem limited_loadSsbs (hw : w.Named) (name : String) : w.Limited (w.loadSsbs name).2 name := by
  unfold loadSsbs
  split
  · next hget => exact limited_of_get hw hget
  · next hget =>
    have hasked := limited_of_get hw hget
    have hname := name_of_get hw hget
    split
    · exact hasked
    · split
      · exact hasked
      · exact hasked.put hname

theorem limited_loadExps (hw : w.Named) (name : String) (mode : ExpsLoadMode) :
    w.Limited (w.loadExps name mode).2 name := by
  unfold loadExps
  split
  · next hget => exact limited_of_get hw hget
  · next f v hget =>
    have hasked := limited_of_get hw hget
    have hname := name_of_get hw hget
    split
    · exact hasked
    · have hread := hasked.beside (beside_expsText v f mode)
      rw [hname] at hread
      split
      · next heq =>
        rw [heq] at hread
        exact hread
      · next heq =>
        rw [heq] at hread
        exact hread.put hname

theorem limited_writeProgram (hw : w.Named) (name : String) (p : Program) :
    w.Limited (w.writeProgram name p).2 name := by
  have hfiles : (w.writeProgram name p).2.files = w.files := by
    unfold writeProgram
    split
    · rfl
    · split
      · rfl
      · split <;> rfl
  refine ⟨fun k f hk => hw k f ?_, fun k hk => spares_writeProgram w p hk⟩
  rwa [file?, hfiles] at hk

theorem limited_saveSsbs (hw : w.Named) (name text : String) :
    w.Limited (w.saveSsbs name text).2 name := by
  unfold saveSsbs
  split
  · next hget => exact limited_of_get hw hget
  · next f v hget =>
    have hasked := limited_of_get hw hget
    split
    · exact hasked
    · next c _ =>
      have hwritten := hasked.trans (limited_writeProgram hasked.named name c.program)
      split
      · next heq =>
        rw [heq] at hwritten
        exact hwritten
      · next heq =>
        rw [heq] at hwritten
        exact hwritten.put (by simp [name_of_get hw hget])

end Workspace

/-! ### Files beside a text -/

namespace ProjectFile

variable {a : ProjectFile} {p : Project} {file other : String} {q : Path}

/-- The file is beside the text of the script. -/
def IsBeside (script : String) (a : ProjectFile) : Prop :=
  a = .exps script ∨ a = .map script ∨ a = .hash script ∨ a = .inclusions script

theorem IsBeside.isNamed (h : a.IsBeside file) (hfile : IsScriptName file) : a.IsNamed := by
  rcases h with rfl | rfl | rfl | rfl <;> exact hfile

/-- Every script that the ROM can name. -/
abbrev allScripts : Scripts where
  has := IsScriptName
  named _ := id

/-- The files that are written for a script are the include index and those beside its text. -/
theorem exists_of_own (h : p.Own file q) :
    ∃ b : ProjectFile, b.path p = q ∧ (b = .usage ∨ b.IsBeside file) := by
  rcases h with rfl | ⟨extension, hextension, rfl⟩
  · exact ⟨.usage, rfl, .inl rfl⟩
  · have hcases : extension = "exps" ∨ extension = "sourcemap.json" ∨ extension = "hash" ∨
        extension = "inclusion.json" := by simpa using hextension
    rcases hcases with rfl | rfl | rfl | rfl
    · exact ⟨.exps file, rfl, .inr (.inl rfl)⟩
    · exact ⟨.map file, rfl, .inr (.inr (.inl rfl))⟩
    · exact ⟨.hash file, rfl, .inr (.inr (.inr (.inl rfl)))⟩
    · exact ⟨.inclusions file, rfl, .inr (.inr (.inr (.inr rfl)))⟩

/-- The files that are written for one script are not those beside another. -/
theorem place_ne_of_own (ha : a.IsBeside other) (hother : IsScriptName other)
    (hfile : IsScriptName file) (hne : other ≠ file) (h : p.Own file q) : a.place p ≠ lexical q := by
  let _ := allScripts
  obtain ⟨b, rfl, hb⟩ := exists_of_own h
  intro heq
  have hrecord : a.IsRecord := by rcases ha with rfl | rfl | rfl | rfl <;> exact hother
  have hnamed : b.IsNamed := by
    rcases hb with rfl | hb
    · trivial
    · exact hb.isNamed hfile
  obtain rfl := place_injective hrecord hnamed heq
  rcases hb with rfl | hb
  · rcases ha with ha | ha | ha | ha <;> cases ha
  · rcases ha with rfl | rfl | rfl | rfl <;> rcases hb with hb | hb | hb | hb <;> cases hb <;>
      exact hne rfl

/-- The breakpoints are not among the files that are written for a script. -/
theorem breakpoints_place_ne_of_own (hfile : IsScriptName file) (h : p.Own file q) :
    lexical p.breakpointsPath ≠ lexical q := by
  obtain ⟨b, rfl, hb⟩ := exists_of_own h
  have hnamed : b.IsNamed := by
    rcases hb with rfl | hb
    · trivial
    · exact hb.isNamed hfile
  have hkind : b.kind ≠ .breakpoints := by
    rcases hb with rfl | rfl | rfl | rfl | rfl <;> exact FileKind.noConfusion
  exact (ends_place p (a := .breakpoints) trivial).ne (ends_place p hnamed)
    ⟨FileKind.endings_apart (Ne.symm hkind), FileKind.endings_apart hkind⟩

/-- The breakpoints are not beside a text. -/
theorem place_ne_breakpointsPath (ha : a.IsBeside other) (hother : IsScriptName other) :
    a.place p ≠ lexical p.breakpointsPath := by
  have hown : p.Own other (a.path p) := by
    rcases ha with rfl | rfl | rfl | rfl
    · exact p.own_exps other
    · exact p.own_map other
    · exact p.own_hash other
    · exact p.own_inclusions other
  exact (breakpoints_place_ne_of_own hother hown).symm

end ProjectFile

end SceneDebugger
