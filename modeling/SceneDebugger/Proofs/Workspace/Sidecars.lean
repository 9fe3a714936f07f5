import SceneDebugger.Proofs.Files.Names
import SceneDebugger.Workspace.Project

/-!
# SceneDebugger.Proofs.Workspace.Sidecars — where a project keeps its files

The ROM names its scripts `DIR/…/STEM.ssb`.  For such names the files beside the text of one script
are at other places than those of another script, than the include index, and than temporary siblings.

* `IsScriptName`: the form of the ROM's names.
* `Scripts`, `IsScript`: the scripts of a ROM.
* `Project.lexical_sidecar`, `Project.sidecar_injective`: the place of a file beside a text.
* `ProjectFile`: the files of the project itself.
* `ProjectFile.place_injective`, `ProjectFile.place_ne_temporary`: they are at places of their own.
-/

namespace SceneDebugger

open SceneDebugger.Path Disk

/-! ### Names of scripts -/

/-- A directory in the name of a script. -/
def IsPlain (directory : List Char) : Prop :=
  directory ≠ [] ∧ '.' ∉ directory ∧ '/' ∉ directory

/-- The name is `DIR/…/STEM.ssb`, as the ROM gives it: the stem is not empty, and neither are the names
of the directories, which have no dots. -/
def IsScriptName (file : String) : Prop :=
  ∃ (directories : List (List Char)) (stem : List Char),
    file.toList = joined (directories ++ [stem ++ ['.', 's', 's', 'b']]) ∧
      (∀ directory ∈ directories, IsPlain directory) ∧ stem ≠ [] ∧ '/' ∉ stem

/-- The scripts of a ROM. -/
class Scripts where
  has : String → Prop
  named : ∀ file, has file → IsScriptName file

/-- The ROM has the script. -/
def IsScript [Scripts] (file : String) : Prop := Scripts.has file

theorem IsScript.named [Scripts] {file : String} (h : IsScript file) : IsScriptName file :=
  Scripts.named file h

theorem stemOf_ssb {stem : List Char} (h : stem ≠ []) :
    stemOf (stem ++ ['.', 's', 's', 'b']) = stem := by
  simp [stemOf, h]

theorem head?_joined {directories : List (List Char)} {name : List Char}
    (hdirectories : ∀ directory ∈ directories, directory ≠ [] ∧ '/' ∉ directory) (hname : '/' ∉ name) :
    (joined (directories ++ [name])).head? ≠ some '/' := by
  intro hhead
  cases directories with
  | nil => exact hname (List.mem_of_mem_head? hhead)
  | cons d rest =>
    obtain ⟨hne, hslash⟩ := hdirectories d (by simp)
    rw [List.cons_append, joined_cons (by simp)] at hhead
    cases d with
    | nil => exact hne rfl
    | cons c d => exact hslash (by simpa using .inl (Option.some_inj.mp hhead).symm)

theorem namesOf_plain {directories : List (List Char)}
    (h : ∀ directory ∈ directories, IsPlain directory) :
    namesOf directories = directories.map String.ofList := by
  unfold namesOf
  rw [List.filter_eq_self.mpr]
  intro d hd
  obtain ⟨hne, hdot, -⟩ := h d hd
  have hsilent : isSilent d = false := by
    unfold isSilent
    rw [Bool.or_eq_false_iff]
    refine ⟨beq_eq_false_iff_ne.mpr hne, beq_eq_false_iff_ne.mpr ?_⟩
    rintro rfl
    exact hdot (by simp)
  rw [hsilent]
  rfl

theorem foldl_step {names : List String} (h : ∀ name ∈ names, name ≠ "..") (place : Place) :
    names.foldl step place = place ++ names := by
  induction names generalizing place with
  | nil => simp
  | cons name rest ih =>
    rw [List.foldl_cons, step, if_neg (h name (by simp)),
      ih fun other hother => h other (List.mem_cons_of_mem name hother), List.append_assoc]
    rfl

/-! ### Files beside a text -/

namespace Project

variable {p : Project} {file other : String}

/-- A file beside a text is spelled like the script, with another extension. -/
theorem sidecar_eq (p : Project) {directories : List (List Char)} {stem : List Char}
    (hfile : file.toList = joined (directories ++ [stem ++ ['.', 's', 's', 'b']]))
    (hdirectories : ∀ directory ∈ directories, directory ≠ [] ∧ '/' ∉ directory) (hstem : stem ≠ [])
    (hslash : '/' ∉ stem) {extension : String} (hextension : '/' ∉ extension.toList) :
    p.sidecar file extension =
      p.root.child (String.ofList (joined (directories ++ [stem ++ '.' :: extension.toList]))) := by
  obtain ⟨before, hbefore, hjoined⟩ := joined_directories directories
  obtain ⟨root, hroot, hchild⟩ := child_eq p.root
  have hlong : 4 < (stem ++ ['.', 's', 's', 'b']).length := by
    have hpos := List.length_pos_iff.mpr hstem
    simp
    omega
  have hssb : '/' ∉ stem ++ ['.', 's', 's', 'b'] := by simp [hslash]
  have hext : '/' ∉ stem ++ '.' :: extension.toList := by simp [hslash, hextension]
  have hsilent : isSilent (stem ++ ['.', 's', 's', 'b']) = false := by
    unfold isSilent
    rw [Bool.or_eq_false_iff]
    constructor <;> rw [beq_eq_false_iff_ne] <;> intro heq <;> simp [heq] at hlong
  have hup : stem ++ ['.', 's', 's', 'b'] ≠ ['.', '.'] := by
    intro heq
    simp [heq] at hlong
  have hspelled : file = String.ofList (joined (directories ++ [stem ++ ['.', 's', 's', 'b']])) := by
    rw [← hfile, String.ofList_toList]
  rw [sidecar, hspelled, hchild _ (head?_joined hdirectories hssb),
    hchild _ (head?_joined hdirectories hext), hjoined, hjoined, ← List.append_assoc,
    withExtension_eq (hroot.append hbefore) hssb hsilent hup, stemOf_ssb hstem]
  congr 1
  rw [← String.toList_inj]
  simp

/-- The place of a file beside a text: the directories of the script below the root, and the stem with
the extension. -/
theorem lexical_sidecar (p : Project) (h : IsScriptName file) :
    ∃ (directories : List (List Char)) (stem : List Char),
      file.toList = joined (directories ++ [stem ++ ['.', 's', 's', 'b']]) ∧
      ∀ extension : String, '/' ∉ extension.toList → extension ≠ "" →
        lexical (p.sidecar file extension) = lexical p.root ++ directories.map String.ofList ++
          [String.ofList (stem ++ '.' :: extension.toList)] := by
  obtain ⟨directories, stem, hfile, hdirectories, hstem, hslash⟩ := h
  refine ⟨directories, stem, hfile, fun extension hextension hne => ?_⟩
  have hlong : 2 < (stem ++ '.' :: extension.toList).length := by
    have hpos := List.length_pos_iff.mpr hstem
    have hpos' : 0 < extension.toList.length := by
      rw [List.length_pos_iff]
      exact fun hnil => hne (String.toList_eq_nil_iff.mp hnil)
    simp
    omega
  have hext : '/' ∉ stem ++ '.' :: extension.toList := by simp [hslash, hextension]
  obtain ⟨hname, hup⟩ := namesOf_long hlong
  have hspelled : ∀ directory ∈ directories, directory ≠ [] ∧ '/' ∉ directory := fun d hd =>
    ⟨(hdirectories d hd).1, (hdirectories d hd).2.2⟩
  rw [sidecar_eq p hfile hspelled hstem hslash hextension, lexical_child, String.toList_ofList,
    pieces_joined (by simp), namesOf_append, namesOf_plain hdirectories, hname, foldl_step,
    List.append_assoc]
  · intro name hmem
    rcases List.mem_append.mp hmem with hmem | hmem
    · obtain ⟨d, hd, rfl⟩ := List.mem_map.mp hmem
      intro heq
      have hdots : d = ['.', '.'] := by rw [← String.toList_ofList (l := d), heq]; rfl
      exact (hdirectories d hd).2.1 (by simp [hdots])
    · rw [List.mem_singleton.mp hmem]
      exact hup
  · intro ps hps
    rcases List.mem_append.mp hps with hps | hps
    · exact (hdirectories ps hps).2.2
    · rw [List.mem_singleton.mp hps]
      exact hext
  · rw [String.toList_ofList]
    exact head?_joined hspelled hext

/-- Different scripts have their files at different places. -/
theorem sidecar_injective (h : IsScriptName file) (h' : IsScriptName other) {extension : String}
    (hextension : '/' ∉ extension.toList) (hne : extension ≠ "")
    (heq : lexical (p.sidecar file extension) = lexical (p.sidecar other extension)) :
    file = other := by
  obtain ⟨directories, stem, hfile, hplace⟩ := p.lexical_sidecar h
  obtain ⟨directories', stem', hother, hplace'⟩ := p.lexical_sidecar h'
  rw [hplace extension hextension hne, hplace' extension hextension hne, List.append_assoc,
    List.append_assoc, List.append_cancel_left_eq] at heq
  obtain ⟨hdirectories, hname⟩ := List.append_inj' heq rfl
  have hinjective : ∀ a b : List Char, String.ofList a = String.ofList b → a = b := fun a b hab => by
    simpa using congrArg String.toList hab
  have hsame : directories = directories' := (List.map_inj_right hinjective).mp hdirectories
  have hstem : stem = stem' := by
    have hlist := congrArg String.toList (List.cons.inj hname).1
    simpa using hlist
  rw [← String.toList_inj, hfile, hother, hsame, hstem]

theorem ends_sidecar (p : Project) (h : IsScriptName file) {extension : String}
    (hextension : '/' ∉ extension.toList) (hne : extension ≠ "") :
    Ends (lexical (p.sidecar file extension)) ("." ++ extension) := by
  obtain ⟨directories, stem, -, hplace⟩ := p.lexical_sidecar h
  exact ⟨_, _, hplace extension hextension hne, by simp⟩

/-! ### Other files of the project -/

theorem ends_usagePath (p : Project) : Ends (lexical p.usagePath) "include_usage.json" := by
  have hplace : lexical p.usagePath = lexical p.debuggerDirectory ++ ["include_usage.json"] := by
    rw [usagePath, lexical_child _ (by decide)]
    rfl
  exact ⟨_, _, hplace, List.suffix_rfl⟩

theorem ends_breakpointsPath (p : Project) :
    Ends (lexical p.breakpointsPath) ".breakpoints.json" := by
  rw [breakpointsPath, child_append _ _ (by decide)]
  exact ends_suffixed _ (by decide) (by decide)

theorem ends_saveStatePath (p : Project) (slot : UInt32) :
    Ends (lexical (p.saveStatePath slot)) ".ge.json" := by
  rw [saveStatePath, child_append _ _ (by decide)]
  exact ends_suffixed _ (by decide) (by decide)

end Project

/-- The kinds of files that a project keeps for itself. -/
inductive FileKind where
  | exps
  | map
  | hash
  | inclusions
  | usage
  | breakpoints
  | saveState
  deriving DecidableEq

namespace FileKind

/-- How the names of files of the kind end. -/
def ending : FileKind → String
  | exps => ".exps"
  | map => ".sourcemap.json"
  | hash => ".hash"
  | inclusions => ".inclusion.json"
  | usage => "include_usage.json"
  | breakpoints => ".breakpoints.json"
  | saveState => ".ge.json"

theorem endings_apart {k k' : FileKind} (h : k ≠ k') : ¬k.ending.toList <:+ k'.ending.toList := by
  revert h
  cases k <;> cases k' <;> decide

theorem endings_not_temporary (k : FileKind) :
    ¬k.ending.toList <:+ ".tmp".toList ∧ ¬".tmp".toList <:+ k.ending.toList := by
  cases k <;> decide

end FileKind

/-- A file of the project itself: beside the text of a script, or of the debugger. -/
inductive ProjectFile where
  | exps (script : String)
  | map (script : String)
  | hash (script : String)
  | inclusions (script : String)
  | usage
  | breakpoints
  | saveState (slot : UInt32)
  deriving DecidableEq

namespace ProjectFile

variable {a b : ProjectFile} {p : Project}

/-- The kind of the file. -/
def kind : ProjectFile → FileKind
  | exps _ => .exps
  | map _ => .map
  | hash _ => .hash
  | inclusions _ => .inclusions
  | usage => .usage
  | breakpoints => .breakpoints
  | saveState _ => .saveState

/-- The path of the file. -/
def path (p : Project) : ProjectFile → Path
  | exps script => p.expsPath script
  | map script => p.mapPath script
  | hash script => p.hashPath script
  | inclusions script => p.inclusionPath script
  | usage => p.usagePath
  | breakpoints => p.breakpointsPath
  | saveState slot => p.saveStatePath slot

/-- The place of the file. -/
def place (p : Project) (a : ProjectFile) : Place := lexical (a.path p)

/-- The script has a name of the ROM, if the file belongs to one. -/
def IsNamed : ProjectFile → Prop
  | exps script | map script | hash script | inclusions script => IsScriptName script
  | usage | breakpoints | saveState _ => True

/-- The file belongs to the EXPS texts: it is beside the text of a script, or the include index. -/
def IsRecord [Scripts] : ProjectFile → Prop
  | exps script | map script | hash script | inclusions script => IsScript script
  | usage => True
  | breakpoints | saveState _ => False

/-- The file is the EXPS text of a script, its map or its hash. -/
def IsText [Scripts] : ProjectFile → Prop
  | exps script | map script | hash script => IsScript script
  | _ => False

theorem IsText.isRecord [Scripts] (h : a.IsText) : a.IsRecord := by
  cases a <;> first | exact h | exact h.elim

theorem IsRecord.isNamed [Scripts] (h : a.IsRecord) : a.IsNamed := by
  cases a <;> first | exact IsScript.named h | trivial

theorem ends_place (p : Project) (h : a.IsNamed) : Ends (a.place p) a.kind.ending := by
  cases a with
  | exps script | map script | hash script | inclusions script =>
    exact p.ends_sidecar h (by decide) (by decide)
  | usage => exact p.ends_usagePath
  | breakpoints => exact p.ends_breakpointsPath
  | saveState slot => exact p.ends_saveStatePath slot

/-- A file of the project is no temporary sibling of anything. -/
theorem place_ne_temporary (p : Project) (h : a.IsNamed) (q : Path) :
    a.place p ≠ lexical (temporary q) :=
  (ends_place p h).ne (ends_temporary q) a.kind.endings_not_temporary

/-- Different files of the project are at different places. -/
theorem place_injective [Scripts] (ha : a.IsRecord) (hb : b.IsNamed) (h : a.place p = b.place p) : a = b := by
  have hsame : a.kind = b.kind := Decidable.byContradiction fun hne =>
    (ends_place p ha.isNamed).ne (ends_place p hb)
      ⟨FileKind.endings_apart hne, FileKind.endings_apart (Ne.symm hne)⟩ h
  have hscript : ∀ {script script' extension : String}, IsScriptName script → IsScriptName script' →
      '/' ∉ extension.toList ∧ extension ≠ "" →
      lexical (p.sidecar script extension) = lexical (p.sidecar script' extension) →
      script = script' := fun hs hs' hextension =>
    Project.sidecar_injective hs hs' hextension.1 hextension.2
  cases a <;> cases b <;> cases hsame
  case exps.exps => rw [hscript (IsScript.named ha) hb (by decide) h]
  case map.map => rw [hscript (IsScript.named ha) hb (by decide) h]
  case hash.hash => rw [hscript (IsScript.named ha) hb (by decide) h]
  case inclusions.inclusions => rw [hscript (IsScript.named ha) hb (by decide) h]
  case usage.usage => rfl
  case breakpoints.breakpoints => exact ha.elim
  case saveState.saveState => exact ha.elim

end ProjectFile

/-! ### Writing them -/

namespace Project

variable {p : Project} {d d' : Disk} {a b : ProjectFile} {what text : String} {path : Path}
  {e : Failure}

theorem replace_of_store (h : store d what path text = (.ok (), d')) :
    d.replace path text = (.ok (), d') := by
  unfold store at h
  split at h <;> cases h
  next heq => exact heq

theorem replace_of_store_error (h : store d what path text = (.error e, d')) :
    ∃ fault, d.replace path text = (.error fault, d') := by
  unfold store at h
  split at h <;> cases h
  next fault heq => exact ⟨fault, heq⟩

theorem store_snd (d : Disk) (what : String) (path : Path) (text : String) :
    (store d what path text).2 = (d.replace path text).2 := by
  unfold store
  split <;> next heq => rw [heq]

/-- A file of the project that could not be written is left alone, like every other one. -/
theorem spares_store_of_error (ha : a.IsNamed) (h : store d what path text = (.error e, d')) :
    d.Spares d' (a.place p) := by
  obtain ⟨fault, hreplace⟩ := replace_of_store_error h
  exact spares_replace_of_error hreplace (a.place_ne_temporary p ha path)

variable [Scripts]

/-- The path leads to no file that belongs to the EXPS texts. -/
def Foreign (p : Project) (path : Path) : Prop :=
  ∀ a : ProjectFile, a.IsRecord → a.place p ≠ lexical path

/-- The files that belong to the EXPS texts can be read by their paths. -/
def Legible (p : Project) (d : Disk) : Prop :=
  ∀ a : ProjectFile, a.IsRecord → d.Legible (a.path p)

/-- A file written elsewhere leaves the files of the EXPS texts alone. -/
theorem spares_replace_foreign (ha : a.IsRecord) (h : p.Foreign path) (d : Disk) (text : String) :
    d.Spares (d.replace path text).2 (a.place p) :=
  spares_replace d text (h a ha) (a.place_ne_temporary p ha.isNamed path)

/-- Another file of the project that is written leaves a file of the EXPS texts alone. -/
theorem spares_replace_own (ha : a.IsRecord) (hb : b.IsNamed) (hne : a ≠ b) (p : Project) (d : Disk)
    (text : String) : d.Spares (d.replace (b.path p) text).2 (a.place p) :=
  spares_replace d text (fun h => hne (a.place_injective ha hb h))
    (a.place_ne_temporary p ha.isNamed _)

theorem spares_store (ha : a.IsRecord) (hb : b.IsNamed) (hne : a ≠ b) (p : Project) (d : Disk)
    (what text : String) : d.Spares (store d what (b.path p) text).2 (a.place p) := by
  rw [store_snd]
  exact spares_replace_own ha hb hne p d text

theorem legible_of_spares (hd : p.Legible d)
    (h : ∀ a : ProjectFile, a.IsRecord → d.Spares d' (a.place p)) : p.Legible d' :=
  fun a ha => (h a ha).legible (hd a ha)

theorem legible_store (hd : p.Legible d) (hb : b.IsNamed) (what text : String) :
    p.Legible (store d what (b.path p) text).2 := by
  intro a ha
  rcases Decidable.em (a = b) with rfl | hne
  · cases hstored : store d what (a.path p) text with
    | mk result d' =>
      cases result with
      | ok => exact legible_of_replace (replace_of_store hstored)
      | error e => exact (spares_store_of_error ha.isNamed hstored).legible (hd a ha)
  · exact (spares_store ha hb hne p d what text).legible (hd a ha)

/-- What is read by the path of a file that is left alone stays. -/
theorem read_of_spares (hd : p.Legible d) (ha : a.IsRecord) (h : d.Spares d' (a.place p)) :
    (d'.read (a.path p)).toOption = (d.read (a.path p)).toOption := by
  rw [(hd a ha).read_toOption, (h.legible (hd a ha)).read_toOption]
  exact h.same

end Project

end SceneDebugger
