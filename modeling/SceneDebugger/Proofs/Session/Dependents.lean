import SceneDebugger.Proofs.Session.FailedSaves
import SceneDebugger.Proofs.Session.Filing

/-!
# SceneDebugger.Proofs.Session.Dependents — the include index after complete saves

When a script was compiled, the index is changed where the list on the disk and the new text differ.  A
note that was taken before the list could not be written is therefore overlooked by every later save
whose text calls what the list says, even if nothing fails any more.

* `Workspace.SavesWhole`: a save all of whose files are written.
* `Workspace.IndexFits`: what the index has for a script is what its text calls.
* `Workspace.Overlooks`: the list is right, and the index is not.
* `Session.indexFits_saveExps_iff`: after a complete save the index is right exactly if nothing was
  overlooked, and nothing is if no write has failed before.
-/

namespace SceneDebugger

open Disk Workspace

namespace Project

variable [Scripts] {file : String}

/-- Everything was written. -/
theorem extent_recorded_iff (p : Project) (d : Disk) (hfile : IsScript file) (text hash : String)
    (c : Compilation) : (p.recorded d file text hash c).extent = .whole ↔
      (p.record d file text hash c).1 = .ok () := by
  obtain ⟨result, d₁, hdeposit, -, hextent⟩ := p.deposit_cases d hfile text c.sourceMap hash
    (fun d => (p.updateUsage d file c.included).1.isOk) (some c.included)
  change _ ∧ (p.recorded d file text hash c).extent.reaches .hash = false ∨
    _ ∧ (p.recorded d file text hash c).extent = _ at hextent
  unfold record
  rw [hdeposit]
  obtain ⟨⟨e, rfl⟩, hshort⟩ | ⟨rfl, hextent⟩ := hextent
  · refine ⟨fun hwhole => ?_, nofun⟩
    rw [hwhole] at hshort
    cases hshort
  · dsimp only
    rw [hextent]
    cases (p.updateUsage d₁ file c.included).1 with
    | ok => simp [Except.isOk, Except.toBool]
    | error e => simp [Except.isOk, Except.toBool]

end Project

namespace Workspace

variable {w v : Workspace} {file text : String} {o : SaveOutcome} {path : Path}

/-- A save of a script gets to the files beside its text, and all of them are written. -/
def SavesWhole (w : Workspace) (name text : String) : Prop :=
  ∃ f u c hash v, w.get name = (.ok f, u) ∧
    u.compiler.compileExps u.host.disk (u.project.searchPath name) text = .ok c ∧
    u.writeProgram name c.program = (.ok hash, v) ∧ (v.writeSidecars name text hash c).1 = .ok ()

/-- The project, and also the project opened afresh, have the script for a shared file exactly if it is
among the given ones. -/
def IndexFits (w : Workspace) (file : String) (included : PathSet) (path : Path) : Prop :=
  (file ∈ w.project.dependents path ↔ included.has path = true) ∧
    (file ∈ (Project.load w.host w.project.root w.project.romName).1.dependents path ↔
      included.has path = true)

/-- The list of the script is right about a shared file, and the index is not. -/
def Overlooks (w : Workspace) (file : String) (included : PathSet) (path : Path) : Prop :=
  (w.project.inclusions w.host.disk file).has path = included.has path ∧
    ¬(file ∈ w.project.dependents path ↔ included.has path = true)

/-- A complete save puts everything into the project. -/
theorem savesWhole_iff [Scripts] (w : Workspace) (hfile : IsScript file) (text : String) :
    w.SavesWhole file text ↔ (w.saving? file text).any fun x => x.extent = .whole := by
  obtain ⟨e, v, herror, hnone, -⟩ | ⟨f, u, c, bytes, rom, hget, hcompile, -, hwrite, hsaving, -⟩ :=
    saveExps_cases w file text
  · rw [hnone]
    refine ⟨?_, nofun⟩
    rintro ⟨f, u, c, hash, v, hget, hcompile, hwrite, -⟩
    unfold saveExps at herror
    simp only [hget, hcompile, hwrite] at herror
    cases herror
  · have hwhole := u.project.extent_recorded_iff u.host.disk hfile text (Sha256.hex bytes) c
    rw [hsaving, Option.any_some, decide_eq_true_iff, hwhole]
    constructor
    · rintro ⟨f', u', c', hash, v, hget', hcompile', hwrite', hdone⟩
      cases hget.symm.trans hget'
      cases hcompile.symm.trans hcompile'
      cases hwrite.symm.trans hwrite'
      rwa [writeSidecars_eq] at hdone
    · refine fun hdone => ⟨f, u, c, _, _, hget, hcompile, hwrite, ?_⟩
      rwa [writeSidecars_eq]

/-- What a save puts into the project. -/
theorem saving?_of_saveExps [Scripts] (hsave : w.saveExps file text = (.ok o, v)) :
    ∃ x, w.saving? file text = some x ∧ x.file = file ∧ x.included = some o.included := by
  obtain ⟨e, _, herror, -⟩ | ⟨f, u, c, bytes, rom, -, -, -, -, hsaving, hsaved⟩ :=
    saveExps_cases w file text
  · cases herror.symm.trans hsave
  · cases hsaved.symm.trans hsave
    exact ⟨_, hsaving, rfl, rfl⟩

end Workspace

namespace Session

section

variable [Scripts] {s₀ s t : Session} {history : List Filing} {file text : String} {o : SaveOutcome}

/-- What a complete save changes, with the breakpoints carried along. -/
theorem files_of_savesWhole (hs : s.Kept history) (hfile : IsScript file)
    (hsave : s.saveExps file text = (.ok o, t)) (hwhole : s.workspace.SavesWhole file text) :
    ∃ x, x.file = file ∧ x.extent = .whole ∧ x.included = some o.included ∧
      s.workspace.Files (.put x) t.workspace := by
  have hdoes := does_saveExps hs.workspace.stores.names hfile text
  have hanswer : (s.onWorkspace fun w => w.saveExps file text) =
      ((s.workspace.saveExps file text).1,
        { s with workspace := (s.workspace.saveExps file text).2 }) := rfl
  rw [saveExps, hanswer] at hsave
  cases hsaved : s.workspace.saveExps file text with
  | mk answer w =>
  rw [hsaved] at hsave hdoes
  cases answer with
  | error e => cases hsave
  | ok o' =>
  obtain ⟨rfl, rfl⟩ : o' = o ∧ finishSave { s with workspace := w } o' = t := by
    simpa [finishing] using hsave
  obtain ⟨x, hsaving, hx, hincluded⟩ := saving?_of_saveExps hsaved
  rw [savesWhole_iff _ hfile, hsaving] at hwhole
  rw [hsaving] at hdoes
  obtain ⟨usage, husage⟩ : ∃ usage, w.project = s.workspace.project.withUsage usage := by
    cases hdoes with
    | something h => exact h.project
  have hhoused : Housed { s with workspace := w } := by
    unfold Housed
    rw [show ({ s with workspace := w } : Session).workspace.project = w.project from rfl, husage]
    exact hs.housed
  have hfinished := (unfiled_finishSave { s with workspace := w } o').workspace hhoused
  refine ⟨x, hx, of_decide_eq_true hwhole, hincluded, ?_⟩
  cases hdoes with
  | something h => exact h.unfiled hfinished

/-- After a complete save the index is right about a shared file exactly if it was not wrong where the
list was right.  It is right if no write has failed when the script was saved before. -/
theorem indexFits_saveExps_iff (h₀ : s₀.Blank) (hrun : s₀.Works history s) (hfile : IsScript file)
    (hsave : s.saveExps file text = (.ok o, t)) (hwhole : s.workspace.SavesWhole file text)
    (path : Path) :
    (t.workspace.IndexFits file o.included path ↔ ¬s.workspace.Overlooks file o.included path) ∧
      (Filing.Complete history file → t.workspace.IndexFits file o.included path) := by
  have hs := hrun.kept h₀
  have hfollows := hs.workspace.follows
  obtain ⟨x, hx, hextent, hincluded, hfiles⟩ := files_of_savesWhole hs hfile hsave hwhole
  have hindexes := hfiles.indexes hfollows.indexed
  obtain ⟨hlist, hnotes⟩ := hindexes.compiled _ hincluded (decide_eq_true hextent)
  rw [show (Filing.put x).file = file from hx] at hlist hnotes
  -- in the project opened afresh the index is right wherever it is right in memory
  have hreopened := hindexes.indexed.follows file hfile path
  rw [hlist path] at hreopened
  have hright : t.workspace.IndexFits file o.included path ↔
      ¬s.workspace.Overlooks file o.included path := by
    unfold Workspace.IndexFits Overlooks
    rw [Project.load_eq, Project.mem_dependents, Project.mem_dependents, Project.mem_dependents]
    rw [hnotes path] at hreopened ⊢
    by_cases hsame : (s.workspace.project.inclusions s.workspace.host.disk file).has path =
      o.included.has path
    · simp only [hsame, ne_eq, not_true_eq_false, if_false, true_and, not_not] at hreopened ⊢
      exact ⟨And.left, fun h => ⟨h, (hreopened h.symm).trans h⟩⟩
    · simp only [hsame, ne_eq, not_false_eq_true, if_true, false_and, iff_true, true_and] at hreopened ⊢
      exact hreopened trivial
  refine ⟨hright, fun hcomplete => hright.mpr ?_⟩
  rintro ⟨hlisted, hwrong⟩
  rw [hfollows.listed file hfile hcomplete path] at hlisted
  rw [Project.mem_dependents, hfollows.notes file hcomplete path, hlisted] at hwrong
  exact hwrong .rfl

end

/-! ### A forgotten note -/

/-- The ROM has one script. -/
abbrev onlyEnter : Scripts where
  has file := file = "enter.ssb"
  named := by
    rintro file rfl
    exact ⟨[], "enter".toList, by decide, by simp, by decide, by decide⟩

theorem blank_sample : @Blank onlyEnter sample :=
  letI := onlyEnter
  ⟨⟨rfl, rfl, fun _ _ => rfl⟩, rfl⟩

theorem foreign_calledFile : @Project.Foreign onlyEnter sample.workspace.project calledFile := by
  intro a ha
  cases a with
  | exps script | map script | hash script | inclusions script =>
    cases (ha : script = "enter.ssb")
    decide +kernel
  | usage => decide +kernel
  | breakpoints | saveState => cases ha

/-- Some coming writes are refused. -/
def refusing (s : Session) (refusals : List (Option WriteStep)) : Session :=
  { s with workspace := s.workspace.withDisk { s.workspace.host.disk with refusals } }

theorem unfiled_refusing [Scripts] (s : Session) (refusals : List (Option WriteStep)) :
    s.Unfiled (s.refusing refusals) :=
  unfiled_of_workspace rfl (unfiled_host s.workspace fun _ _ => spares_of_nodes rfl)

/-- A shared file is saved, and then a script that calls it, while some writes are refused. -/
def callSaved (refusals : List (Option WriteStep)) : Session :=
  (((sample.saveMacro calledFile "Wait 5").2.refusing refusals).saveExps "enter.ssb"
    "routine Actor\ncall Camera").2

/-- What that puts into the project. -/
def callFilings (refusals : List (Option WriteStep)) : List Filing :=
  sample.workspace.savingMacro calledFile "Wait 5" (sample.workspace.project.dependents calledFile) ++
    ((((sample.saveMacro calledFile "Wait 5").2.refusing refusals).workspace.saving? "enter.ssb"
      "routine Actor\ncall Camera").map .put).toList

theorem works_callSaved (refusals : List (Option WriteStep)) :
    @Works onlyEnter sample (callFilings refusals) (callSaved refusals) :=
  letI := onlyEnter
  .trans (.saveMacro sample calledFile "Wait 5" foreign_calledFile)
    (.after (.around (unfiled_refusing _ refusals)) (.saveExps _ "enter.ssb" _ rfl))

theorem indexFits_saveExps_sample :
    ∃ o t, (callSaved []).saveExps "enter.ssb" (waitText "5") = (.ok o, t) ∧
      t.workspace.IndexFits "enter.ssb" o.included calledFile := by
  let _ := onlyEnter
  have hrun : ((callSaved []).saveExps "enter.ssb" (waitText "5")).1.toOption.isSome = true ∧
      ((callSaved []).workspace.saving? "enter.ssb" (waitText "5")).any
        (fun x => x.extent = .whole) = true ∧
      (callFilings []).all (fun x => x.isWhole) = true := by
    decide +kernel
  obtain ⟨hok, hwhole, hfilings⟩ := hrun
  generalize hsave : (callSaved []).saveExps "enter.ssb" (waitText "5") = saved at hok
  obtain ⟨answer, t⟩ := saved
  cases answer with
  | error e => cases hok
  | ok o =>
    refine ⟨o, t, rfl, (indexFits_saveExps_iff blank_sample (works_callSaved []) rfl hsave
      ((savesWhole_iff _ rfl _).mpr hwhole) calledFile).2 fun x hx _ _ => ?_⟩
    exact List.all_eq_true.mp hfilings x hx

/-- The list of the called files cannot be written. -/
def noList : List (Option WriteStep) := [none, none, none, none, some .temporary]

/-- The next save of the script is complete, its text calls nothing, and the script still counts as a
caller. -/
theorem callSaved_forgets : @Blank onlyEnter sample ∧
    @Works onlyEnter sample (callFilings noList) (callSaved noList) ∧
    (callSaved noList).workspace.SavesWhole "enter.ssb" (waitText "5") ∧
    ∃ o t, (callSaved noList).saveExps "enter.ssb" (waitText "5") = (.ok o, t) ∧
      o.included.has calledFile = false ∧ "enter.ssb" ∈ t.workspace.project.dependents calledFile := by
  let _ := onlyEnter
  refine ⟨blank_sample, works_callSaved noList, ?_⟩
  have hrun : ((callSaved noList).workspace.saving? "enter.ssb" (waitText "5")).any
        (fun x => x.extent = .whole) = true ∧
      ((callSaved noList).saveExps "enter.ssb" (waitText "5")).1.toOption.any
        (fun o => !o.included.has calledFile) = true ∧
      "enter.ssb" ∈ ((callSaved noList).saveExps "enter.ssb"
        (waitText "5")).2.workspace.project.dependents calledFile := by
    decide +kernel
  obtain ⟨hwhole, hok, hcaller⟩ := hrun
  refine ⟨(savesWhole_iff _ rfl _).mpr hwhole, ?_⟩
  generalize (callSaved noList).saveExps "enter.ssb" (waitText "5") = saved at hok hcaller
  obtain ⟨answer, t⟩ := saved
  cases answer with
  | error e => cases hok
  | ok o => exact ⟨o, t, rfl, (Bool.not_eq_true' _).mp hok, hcaller⟩

end Session

end SceneDebugger
