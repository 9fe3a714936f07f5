import SceneDebugger.Proofs.Source.Storage
import SceneDebugger.Proofs.Workspace.IncludeIndex

/-!
# SceneDebugger.Proofs.Workspace.SavedTexts — a saved EXPS text is loaded as it was

The text and the source map of a script are two files beside each other, each of which is written
through a temporary sibling.  The names of all these differ behind the stem of the script, so that the
map does not touch the text that was written before.

* `IsFileName`: names of scripts, with directories of any name.
* `Project.sidecar_suffixed`: the files of a script differ in their ends only.
* `Project.loadExps_of_saveExps`: a text and a map that were saved are loaded, by any project in the
  same directory.
-/

namespace SceneDebugger

open SceneDebugger.Path Disk

/-- The name is `DIR/…/STEM.ssb`, where the stem is not empty and no directory has an empty name. -/
def IsFileName (file : String) : Prop :=
  ∃ (directories : List (List Char)) (stem : List Char),
    file.toList = joined (directories ++ [stem ++ ['.', 's', 's', 'b']]) ∧
      (∀ directory ∈ directories, directory ≠ [] ∧ '/' ∉ directory) ∧ stem ≠ [] ∧ '/' ∉ stem

namespace Project

variable {p q : Project} {d d' : Disk} {file text : String} {m : SourceMap}

/-! ### Files that differ in their ends -/

/-- The files beside a text are spelled alike up to their extension. -/
theorem sidecar_suffixed (p : Project) (h : IsFileName file) :
    ∃ stem : Path, ∀ extension : String, '/' ∉ extension.toList →
      p.sidecar file extension = stem.suffixed ("." ++ extension) := by
  obtain ⟨directories, stem, hfile, hdirectories, hstem, hslash⟩ := h
  obtain ⟨before, -, hjoined⟩ := joined_directories directories
  refine ⟨p.root.child (String.ofList (before ++ stem)), fun extension hextension => ?_⟩
  have hname : String.ofList (joined (directories ++ [stem ++ '.' :: extension.toList])) =
      String.ofList (before ++ stem) ++ ("." ++ extension) := by
    rw [← String.toList_inj, hjoined]
    simp
  have hhead : ("." ++ extension).toList.head? ≠ some '/' := by simp
  rw [sidecar_eq p hfile hdirectories hstem hslash hextension, hname, child_append _ _ hhead]

/-- The place of a text is neither that of its map nor that of the map's temporary sibling. -/
theorem text_apart_from_map (p : Project) (h : IsFileName file) :
    lexical (p.expsPath file) ≠ lexical (p.mapPath file) ∧
      lexical (p.expsPath file) ≠ lexical (temporary (p.mapPath file)) := by
  obtain ⟨stem, hstem⟩ := p.sidecar_suffixed h
  have htext : p.expsPath file = stem.suffixed ".exps" := hstem "exps" (by decide)
  have hmap : p.mapPath file = stem.suffixed ".sourcemap.json" := hstem "sourcemap.json" (by decide)
  have htemporary : temporary (p.mapPath file) = stem.suffixed ".sourcemap.json.tmp" := by
    have hends : ".sourcemap.json" ++ ".tmp" = ".sourcemap.json.tmp" := by decide
    rw [hmap, temporary, suffixed, suffixed, suffixed, String.append_assoc, hends]
  rw [htemporary, htext, hmap]
  constructor
  · intro heq
    have hsame := lexical_suffixed_injective stem (by decide) (by decide) heq
    exact absurd hsame (by decide)
  · intro heq
    have hsame := lexical_suffixed_injective stem (by decide) (by decide) heq
    exact absurd hsame (by decide)

/-! ### Saving and loading -/

/-- A text that was saved is there to be read, and so is its map. -/
theorem read_of_saveExps (hfile : IsFileName file)
    (hsaved : p.saveExps d file text m = (.ok (), d')) :
    d'.read (p.expsPath file) = .ok text ∧ d'.read (p.mapPath file) = .ok m.store := by
  unfold saveExps andThen at hsaved
  split at hsaved
  next between hfirst =>
    have htext : between.read (p.expsPath file) = .ok text :=
      read_of_replace (replace_of_store hfirst)
    have hmap : between.replace (p.mapPath file) m.store = (.ok (), d') :=
      replace_of_store hsaved
    obtain ⟨hplace, htemporary⟩ := p.text_apart_from_map hfile
    have hspares : between.Spares d' (lexical (p.expsPath file)) := by
      have h := spares_replace between m.store hplace htemporary
      rwa [hmap] at h
    exact ⟨hspares.read htext, read_of_replace hmap⟩
  next => cases hsaved

theorem loadExps_eq_ok (htext : d.read (p.expsPath file) = .ok text)
    (hmap : d.read (p.mapPath file) = .ok m.store) : p.loadExps d file = .ok (text, m) := by
  have hloaded : p.loadMap d file = .ok m := by
    unfold loadMap
    rw [hmap]
    dsimp only
    rw [SourceMap.restore?_store]
  unfold loadExps
  rw [htext]
  dsimp only
  rw [hloaded]
  rfl

/-- Projects in the same directory load the same texts. -/
theorem loadExps_of_root (h : q.root = p.root) (d : Disk) (file : String) :
    q.loadExps d file = p.loadExps d file := by
  unfold loadExps loadMap expsPath mapPath sidecar
  rw [h]

theorem root_load (h : Host) (root : Path) (romName : String) : (load h root romName).1.root = root := by
  unfold load
  dsimp only
  split
  next => rfl
  next => split <;> rfl

/-- A text and a source map that were saved are loaded as they were, by the project itself and by every
one that is opened in its directory later. -/
theorem loadExps_of_saveExps (hfile : IsFileName file)
    (hsaved : p.saveExps d file text m = (.ok (), d')) :
    p.loadExps d' file = .ok (text, m) ∧
      ∀ (host : Host) (romName : String), host.disk = d' →
        (load host p.root romName).1.loadExps (load host p.root romName).2.disk file =
          .ok (text, m) := by
  obtain ⟨htext, hmap⟩ := read_of_saveExps hfile hsaved
  have hloaded : p.loadExps d' file = .ok (text, m) := loadExps_eq_ok htext hmap
  refine ⟨hloaded, fun host romName hdisk => ?_⟩
  rw [disk_load, hdisk, loadExps_of_root (root_load host p.root romName), hloaded]

/-- A source map with entries of every form: with and without an inlining, a called file, a place of the
call, an offset to go on at, and arguments. -/
def tangledMap : SourceMap :=
  let call : CallSite := { file := some ⟨"Macros/\"walk\".exps"⟩, line := 3, column := 0 }
  (((({} : SourceMap).insert 10 { line := 1, column := 4 }).insert 9
    { line := 2, column := 0
      inlining := some {
        path := some ⟨"Macros/turn\\left.exps"⟩, calledIn := some call, returnOffset := some 10
        parameters := (∅ : Std.ExtTreeMap String String).insert "actor\n" "\t1" } }).insert 100
    { line := 4294967295, column := 7, inlining := some {} }).insert 2
    { line := 0, column := 1, inlining := some { calledIn := some { line := 9, column := 9 } } }

/-- A text with characters that are escaped in documents, or take several bytes. -/
def spokenText : String := "routine \"Actor\"\n\tWait 5 — \\"

theorem loadExps_of_saveExps_tangled :
    ∃ d' : Disk, ({ root := ⟨"proj/../proj"⟩, romName := "eos_us" } : Project).saveExps {}
        "SCRIPT/D01.P11A/m01a.01.ssb" spokenText tangledMap = (.ok (), d') ∧
      ({ root := ⟨"proj/../proj"⟩, romName := "eos_us" } : Project).loadExps d'
        "SCRIPT/D01.P11A/m01a.01.ssb" = .ok (spokenText, tangledMap) := by
  have hfile : IsFileName "SCRIPT/D01.P11A/m01a.01.ssb" :=
    ⟨["SCRIPT".toList, "D01.P11A".toList], "m01a.01".toList, by decide, by decide, by decide, by decide⟩
  have hok : (({ root := ⟨"proj/../proj"⟩, romName := "eos_us" } : Project).saveExps {}
      "SCRIPT/D01.P11A/m01a.01.ssb" spokenText tangledMap).1.toOption = some () := by decide +kernel
  cases hsaved : ({ root := ⟨"proj/../proj"⟩, romName := "eos_us" } : Project).saveExps {}
      "SCRIPT/D01.P11A/m01a.01.ssb" spokenText tangledMap with
  | mk result d' =>
    rw [hsaved] at hok
    cases result with
    | error e => cases hok
    | ok _ => exact ⟨d', rfl, (loadExps_of_saveExps hfile hsaved).1⟩

end Project

end SceneDebugger
