import SceneDebugger.Proofs.Workspace.Idle

/-!
# SceneDebugger.Proofs.Workspace.History — the files of a project after a run

What was put into a project since it was empty tells what its files hold: each file what was written to
it last.  The include index follows what the compiled texts call, as long as no write failed.

* `Workspace.Filed`: what was done to the EXPS texts of a project, the oldest first.
* `Workspace.Stores`: what the files hold, and where that came from.
* `Workspace.Follows`: the index and the lists.
* `Workspace.Kept`, `Filed.kept`: both, after a run.
-/

namespace SceneDebugger

open Disk

/-! ### What a history tells -/

namespace Filing

variable {history : List Filing} {x : Filing} {a : ProjectFile} {file : String}

/-- What was written last to a file beside the text of a script. -/
def content? (history : List Filing) (a : ProjectFile) : Option String :=
  history.foldl (fun held x => (x.written? a).or held) none

/-- The files that the last compiled text of a script calls. -/
def called (history : List Filing) (file : String) : PathSet :=
  history.foldl (fun set x => if x.file = file then x.included?.getD set else set) ∅

/-- No write has failed when compiled texts of the script were put into the project. -/
def Complete (history : List Filing) (file : String) : Prop :=
  ∀ x ∈ history, x.file = file → x.included?.isSome → x.isWhole

@[simp] theorem content?_nil (a : ProjectFile) : content? [] a = none := rfl

theorem content?_concat (history : List Filing) (x : Filing) (a : ProjectFile) :
    content? (history ++ [x]) a = (x.written? a).or (content? history a) := by
  unfold content?
  rw [List.foldl_append]
  rfl

@[simp] theorem called_nil (file : String) : called [] file = ∅ := rfl

theorem called_concat (history : List Filing) (x : Filing) (file : String) :
    called (history ++ [x]) file =
      if x.file = file then x.included?.getD (called history file) else called history file := by
  unfold called
  rw [List.foldl_append]
  rfl

theorem Complete.before (h : Complete (history ++ [x]) file) : Complete history file :=
  fun y hy => h y (List.mem_append_left _ hy)

theorem Complete.last (h : Complete (history ++ [x]) file) (hfile : x.file = file)
    (hincluded : x.included?.isSome) : x.isWhole :=
  h x (List.mem_append_right _ List.mem_cons_self) hfile hincluded

end Filing

theorem Project.notes_empty (path : Path) (file : String) : ¬Project.Notes ∅ path file := by
  simp [Project.Notes]

namespace Workspace

open Filing

variable [Scripts] {w w' w'' : Workspace} {history more : List Filing} {x : Filing} {x? : Option Filing}
  {name file : String}

/-- What was done to the EXPS texts of a project between two moments, the oldest first. -/
inductive Filed (w : Workspace) : List Filing → Workspace → Prop where
  | refl : Filed w [] w
  | step {history : List Filing} {x? : Option Filing} {w' w'' : Workspace} (h : Filed w history w')
    (h' : w'.Does x? w'') : Filed w (history ++ x?.toList) w''

theorem Does.filed (h : w.Does x? w') : w.Filed x?.toList w' := .step .refl h

theorem Filed.trans (h : w.Filed history w') (h' : w'.Filed more w'') :
    w.Filed (history ++ more) w'' := by
  induction h' with
  | refl => rwa [List.append_nil]
  | step h' hlast ih =>
    rw [← List.append_assoc]
    exact .step ih hlast

theorem Does.names (h : w.Does x? w') (hw : w.Named) : w'.Named := by
  cases h with
  | something h => exact h.names hw
  | nothing h => exact h.names hw

/-! ### Shared files -/

/-- What compiling a script anew puts into the project. -/
def recompiling? (w : Workspace) (name : String) : Option Deposit :=
  match w.hash name with
  | (.error _, _) => none
  | (.ok hash, w) =>
    if w.project.hashIs w.host.disk name hash then
      match w.project.loadExps w.host.disk name with
      | .error _ => none
      | .ok (text, _) => w.saving? name text
    else none

/-- What compiling scripts anew puts into the project. -/
def recompilings (path : Path) : List String → Workspace → List Filing
  | [], _ => []
  | name :: rest, w =>
    ((w.recompiling? name).map .put).toList ++ recompilings path rest (w.tryRecompile path name).2

/-- What saving a shared file puts into the project. -/
def savingMacro (w : Workspace) (path : Path) (text : String) (dependents : List String) :
    List Filing :=
  match Project.saveMacro w.host.disk path text with
  | (.error _, _) => []
  | (.ok (), d) => recompilings path dependents (w.withDisk d)

theorem does_recompile (hw : w.Named) (hname : IsScript name) (path : Path) :
    w.Does ((w.recompiling? name).map .put) (w.recompile path name).2 := by
  have hasked := unfiled_hash w name
  unfold recompiling? recompile
  cases hhash : w.hash name with
  | mk answer v =>
  rw [hhash] at hasked
  cases answer with
  | error e => exact .nothing hasked
  | ok hash =>
  dsimp only
  split
  next =>
    cases hload : v.project.loadExps v.host.disk name with
    | error e => exact .nothing hasked
    | ok loaded =>
      obtain ⟨text, map⟩ := loaded
      dsimp only
      have hsaved := hasked.does (does_saveExps (hasked.names hw) hname text)
      split <;>
      next heq =>
        rw [heq] at hsaved
        exact hsaved
  next => exact .nothing (hasked.trans (unfiled_warn v _))

theorem does_tryRecompile (hw : w.Named) (hname : IsScript name) (path : Path) :
    w.Does ((w.recompiling? name).map .put) (w.tryRecompile path name).2 := by
  have hdone := does_recompile hw hname path
  unfold tryRecompile
  split
  next heq =>
    rw [heq] at hdone
    exact hdone
  next heq =>
    rw [heq] at hdone
    exact hdone.unfiled (unfiled_host _ fun _ _ => .refl _ _)

theorem filed_recompileAll (path : Path) {names : List String} (hnames : ∀ name ∈ names, IsScript name)
    (hw : w.Named) : w.Filed (recompilings path names w) (recompileAll path names w).2 := by
  induction names generalizing w with
  | nil => exact .refl
  | cons name rest ih =>
    have hfirst := does_tryRecompile hw (hnames name List.mem_cons_self) path
    exact hfirst.filed.trans (ih (fun other hother => hnames other (List.mem_cons_of_mem _ hother))
      (hfirst.names hw))

/-- A shared file is saved somewhere else than the files of the project. -/
theorem unfiled_saveMacro {path : Path} (hpath : w.project.Foreign path) (text : String) :
    w.Unfiled (w.withDisk (Project.saveMacro w.host.disk path text).2) := by
  refine unfiled_host w fun a ha => ?_
  unfold Project.saveMacro
  rw [Project.store_snd]
  exact Project.spares_replace_foreign ha hpath _ text

theorem filed_saveMacro {path : Path} {dependents : List String} (hpath : w.project.Foreign path)
    (hnames : ∀ name ∈ dependents, IsScript name) (hw : w.Named) (text : String) :
    w.Filed (w.savingMacro path text dependents) (w.saveMacro path text dependents).2 := by
  have hwritten := unfiled_saveMacro hpath text
  unfold savingMacro saveMacro
  cases hsaved : Project.saveMacro w.host.disk path text with
  | mk result d =>
  rw [hsaved] at hwritten
  cases result with
  | error e => exact .step .refl (.nothing hwritten)
  | ok => exact (Does.nothing hwritten).filed.trans (filed_recompileAll path hnames (hwritten.names hw))

/-! ### What the files hold -/

/-- No file of the EXPS texts is there, and no file is in use. -/
structure Blank (w : Workspace) : Prop where
  files : w.files = ∅
  usage : w.project.usage = ∅
  absent : ∀ a : ProjectFile, a.IsRecord → w.host.disk.fileAt? (a.place w.project) = none

/-- The files of the texts hold what was written last, which was compiled or written down. -/
structure Stores (w : Workspace) (history : List Filing) : Prop where
  legible : w.project.Legible w.host.disk
  names : w.Named
  genuine : w.Genuine
  texts : ∀ a : ProjectFile, a.IsText →
    w.host.disk.fileAt? (a.place w.project) = content? history a
  held : ∀ x ∈ history, (w.file? x.file).isSome
  named : ∀ x ∈ history, IsScript x.file
  produced : ∀ y, .put y ∈ history → IsProduced w.compiler y

theorem Blank.stores (h : w.Blank) : w.Stores [] := by
  have hnone : ∀ name f, w.file? name ≠ some f := by simp [file?, h.files]
  refine ⟨fun a ha text htext => ?_, fun name f hf => absurd hf (hnone name f),
    fun name f hf => absurd hf (hnone name f), fun a ha => h.absent a ha.isRecord,
    fun x hx => absurd hx List.not_mem_nil, fun x hx => absurd hx List.not_mem_nil,
    fun y hy => absurd hy List.not_mem_nil⟩
  cases (h.absent a ha).symm.trans htext

theorem Stores.does (h : w.Stores history) (hd : w.Does x? w') : w'.Stores (history ++ x?.toList) := by
  cases hd with
  | nothing hd =>
    rw [Option.toList_none, List.append_nil]
    refine ⟨?_, hd.names h.names, hd.genuine h.genuine, fun a ha => ?_,
      fun x hx => hd.stays _ (h.held x hx), h.named, hd.compiler ▸ h.produced⟩
    · exact hd.project ▸ hd.touches.legible h.legible
    · rw [hd.project, (hd.spares a ha.isRecord).same, h.texts a ha]
  | @something x _ hd =>
    rw [Option.toList_some]
    obtain ⟨usage, hproject⟩ := hd.project
    refine ⟨hd.legible h.legible, hd.names h.names, hd.genuine h.genuine, fun a ha => ?_,
      fun y hy => ?_, fun y hy => ?_, fun y hy => ?_⟩
    · rw [hproject, Project.place_withUsage, hd.texts a ha, h.texts a ha, content?_concat]
    · obtain hy | hy := List.mem_append.mp hy
      · exact hd.stays _ (h.held y hy)
      · exact List.mem_singleton.mp hy ▸ hd.held
    · obtain hy | hy := List.mem_append.mp hy
      · exact h.named y hy
      · exact List.mem_singleton.mp hy ▸ hd.named
    · rw [hd.compiler]
      obtain hy | hy := List.mem_append.mp hy
      · exact h.produced y hy
      · exact hd.produced h.genuine y (List.mem_singleton.mp hy).symm

theorem Does.compiler (h : w.Does x? w') : w'.compiler = w.compiler := by
  cases h with
  | something h => exact h.compiler
  | nothing h => exact h.compiler

theorem Filed.project (h : w.Filed history w') :
    ∃ usage, w'.project = w.project.withUsage usage := by
  induction h with
  | refl => exact ⟨w.project.usage, rfl⟩
  | step _ hlast ih =>
    obtain ⟨usage, ih⟩ := ih
    cases hlast with
    | nothing hlast => exact ⟨usage, hlast.project.trans ih⟩
    | something hlast =>
      obtain ⟨later, hlater⟩ := hlast.project
      exact ⟨later, by rw [hlater, ih]; rfl⟩

/-! ### The index -/

/-- The index and the lists follow the compiled texts that were put into the project without any failed
write. -/
structure Follows (w : Workspace) (history : List Filing) : Prop where
  indexed : w.project.Indexed w.host.disk
  /-- Only scripts with names of the ROM are in the index. -/
  noted : ∀ path file, Project.Notes w.project.usage path file → IsScript file
  listed : ∀ file, IsScript file → Complete history file → ∀ path,
    (w.project.inclusions w.host.disk file).has path = (called history file).has path
  notes : ∀ file, Complete history file → ∀ path,
    Project.Notes w.project.usage path file ↔ (called history file).has path = true

theorem inclusions_of_absent {p : Project} {d : Disk} (hd : p.Legible d) (hfile : IsScript file)
    (h : d.fileAt? ((ProjectFile.inclusions file).place p) = none) : p.inclusions d file = ∅ := by
  have hread := (hd (.inclusions file) hfile).read_toOption.trans h
  rw [Project.inclusions_eq, show p.inclusionPath file = (ProjectFile.inclusions file).path p from rfl,
    hread]
  rfl

theorem usageOn_of_absent {p : Project} {d : Disk} (hd : p.Legible d)
    (h : d.fileAt? (ProjectFile.usage.place p) = none) : p.usageOn d = ∅ := by
  have hread := (hd .usage trivial).read_toOption.trans h
  rw [Project.usageOn_eq, show p.usagePath = ProjectFile.usage.path p from rfl, hread]
  rfl

theorem Blank.followsNothing (h : w.Blank) : w.Follows [] := by
  have hlegible := h.stores.legible
  have hlists : ∀ file, IsScript file → w.project.inclusions w.host.disk file = ∅ :=
    fun file hfile => inclusions_of_absent hlegible hfile (h.absent (.inclusions file) hfile)
  refine ⟨⟨hlegible, fun file hfile path _ => ?_⟩, fun path file hnoted => ?_,
    fun file hfile _ path => ?_, fun file _ path => ?_⟩
  · rw [usageOn_of_absent hlegible (h.absent .usage trivial), h.usage]
  · rw [h.usage] at hnoted
    exact absurd hnoted (Project.notes_empty path file)
  · rw [hlists file hfile, called_nil]
  · rw [h.usage, called_nil, PathSet.has_empty]
    exact iff_of_false (Project.notes_empty path file) Bool.false_ne_true

theorem Follows.does (h : w.Follows history) (hd : w.Does x? w') :
    w'.Follows (history ++ x?.toList) := by
  cases hd with
  | nothing hd =>
    have hdisk := hd.touches
    rw [Option.toList_none, List.append_nil]
    refine ⟨?_, ?_, fun file hfile hcomplete path => ?_, ?_⟩
    · exact hd.project ▸ h.indexed.frame hdisk id fun _ => id
    · exact hd.project ▸ h.noted
    · rw [hd.project, hdisk.inclusions h.indexed.legible hfile id, h.listed file hfile hcomplete]
    · exact hd.project ▸ h.notes
  | @something x _ hd =>
    rw [Option.toList_some]
    have hindexes := hd.indexes h.indexed
    refine ⟨hindexes.indexed, fun path file hnoted => ?_, fun file hfile hcomplete path => ?_,
      fun file hcomplete path => ?_⟩
    · by_cases hfile : file = x.file
      · exact hfile ▸ hd.named
      · exact h.noted path file ((hindexes.others path file hfile).mp hnoted)
    · rw [called_concat]
      split
      next hself =>
        subst hself
        cases hincluded : x.included? with
        | none =>
          rw [(hindexes.uncompiled hincluded).2, h.listed _ hfile hcomplete.before]
          rfl
        | some included =>
          exact (hindexes.compiled included hincluded (hcomplete.last rfl (by simp [hincluded]))).1 path
      next hother =>
        rw [hindexes.lists file hfile (Ne.symm hother), h.listed file hfile hcomplete.before]
    · rw [called_concat]
      split
      next hself =>
        subst hself
        have hbefore := h.notes _ hcomplete.before path
        cases hincluded : x.included? with
        | none => rwa [(hindexes.uncompiled hincluded).1]
        | some included =>
          have hlist := h.listed _ hd.named hcomplete.before path
          rw [(hindexes.compiled included hincluded
            (hcomplete.last rfl (by simp [hincluded]))).2 path, hlist, hbefore, Option.getD_some]
          cases included.has path <;> cases (called history x.file).has path <;> simp
      next hother => rw [hindexes.others path file (Ne.symm hother), h.notes file hcomplete.before]

/-- What is known of a project with a history. -/
structure Kept (w : Workspace) (history : List Filing) : Prop where
  stores : w.Stores history
  follows : w.Follows history

theorem Blank.kept (h : w.Blank) : w.Kept [] := ⟨h.stores, h.followsNothing⟩

theorem Filed.kept (h : w.Filed more w') (hw : w.Kept history) : w'.Kept (history ++ more) := by
  induction h with
  | refl => rwa [List.append_nil]
  | step _ hlast ih =>
    rw [← List.append_assoc]
    exact ⟨ih.stores.does hlast, ih.follows.does hlast⟩

end Workspace

end SceneDebugger
