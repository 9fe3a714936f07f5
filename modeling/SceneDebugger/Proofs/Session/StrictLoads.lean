import SceneDebugger.Proofs.Session.Dependents
import SceneDebugger.Proofs.Workspace.Contents

/-!
# SceneDebugger.Proofs.Session.StrictLoads — what a strict load takes from the project

The text of a script, its source map and its hash are written one after the other.  A strict load
compares the hash with that of the ROM's bytes and takes the text and the map as they are, so it can
give a text with a map that was written before it, as long as both were compiled to the same bytes.

* `Session.reopened`: a new session over the same files and the same ROM.
* `Filing.Together`: a loaded text, its map and its hash come from one compilation, or from one
  program written down.
* `Session.strictLoad_iff`: they do exactly if the last written text, map and hash do, in particular if
  the last written text was written with its map and its hash.
-/

namespace SceneDebugger

open Disk Workspace

namespace Filing

variable {history more : List Filing} {x : Filing} {y : Deposit} {a : ProjectFile} {file text : String}
  {c : Compiler} {loaded : ExpsText}

/-! ### Where it comes from -/

/-- Only texts were put into the project; none that was there was recorded as compiled to other
bytes. -/
def Untrusting (history : List Filing) : Prop := ∀ x ∈ history, ∃ y, x = .put y

/-- A loaded text, its map and its hash come from one compilation, or from one program written down. -/
def Together (c : Compiler) (history : List Filing) (file : String) (loaded : ExpsText) : Prop :=
  ∃ y, .put y ∈ history ∧ y.file = file ∧ IsProduced c y ∧ y.text = loaded.text ∧
    y.map = loaded.sourceMap ∧ y.hash = loaded.hash

/-- The text and the map were put into the project together. -/
def made (loaded : ExpsText) : Filing → Bool
  | put y => y.text = loaded.text ∧ y.map = loaded.sourceMap
  | trust _ _ => false

/-- The text, the map and the hash that were written last belong to one deposit. -/
def LastTogether (history : List Filing) (file : String) : Prop :=
  ∃ y, .put y ∈ history ∧ y.file = file ∧ content? history (.exps file) = some y.text ∧
    content? history (.map file) = some y.map.store ∧ content? history (.hash file) = some y.hash

/-- The hash that is recorded is that of a deposit, and a map is there as well. -/
theorem Untrusting.recorded (h : Untrusting history) (hhash : content? history (.hash file) = some text) :
    ∃ y, .put y ∈ history ∧ text = y.hash ∧ (content? history (.map file)).isSome := by
  obtain ⟨x, hx, hwritten⟩ := exists_of_content? hhash
  obtain ⟨y, rfl⟩ := h x hx
  simp only [written?, Deposit.written?, Option.ite_none_right_eq_some, Option.some_inj] at hwritten
  refine ⟨y, hx, hwritten.2.symm, content?_isSome hx ?_⟩
  have hmap : y.extent.reaches .map = true := Extent.reaches_trans hwritten.1.2 rfl
  simp [written?, Deposit.written?, hwritten.1.1, hmap]

/-- The last text that was written was written with its map and its hash. -/
def LastWhole (history : List Filing) (file : String) : Prop :=
  ∃ before y after, history = before ++ .put y :: after ∧ y.file = file ∧
    y.extent.reaches .hash = true ∧ ∀ x ∈ after, x.written? (.exps file) = none

/-- The map and the hash are written after the text only. -/
theorem unwritten_of_text (hput : ∃ y, x = .put y) (h : x.written? (.exps file) = none) :
    x.written? (.map file) = none ∧ x.written? (.hash file) = none := by
  obtain ⟨y, rfl⟩ := hput
  simp only [written?, Deposit.written?, ite_eq_right_iff, reduceCtorEq, imp_false, not_and] at h ⊢
  exact ⟨fun hfile hmap => h hfile (Extent.reaches_trans hmap rfl),
    fun hfile hhash => h hfile (Extent.reaches_trans hhash rfl)⟩

theorem LastWhole.together (h : LastWhole history file) (hputs : Untrusting history) :
    LastTogether history file := by
  obtain ⟨before, y, after, rfl, rfl, hreaches, hafter⟩ := h
  have hputs' : ∀ x ∈ after, ∃ y, x = .put y := fun x hx => hputs x (by simp [hx])
  have hall : y.extent.reaches .text = true ∧ y.extent.reaches .map = true :=
    ⟨Extent.reaches_trans hreaches rfl, Extent.reaches_trans hreaches rfl⟩
  have hlater : ∀ a, (∀ x ∈ after, x.written? a = none) →
      content? (before ++ .put y :: after) a = (y.written? a).or (content? before a) := by
    intro a ha
    rw [content?_append, content?_cons, content?_of_unwritten ha, Option.none_or]
    rfl
  refine ⟨y, by simp, rfl, ?_, ?_, ?_⟩
  · rw [hlater _ hafter]
    simp [Deposit.written?, hall]
  · rw [hlater _ fun x hx => (unwritten_of_text (hputs' x hx) (hafter x hx)).1]
    simp [Deposit.written?, hall]
  · rw [hlater _ fun x hx => (unwritten_of_text (hputs' x hx) (hafter x hx)).2]
    simp [Deposit.written?, hreaches]

end Filing

/-! ### Loads in a new session -/

namespace Workspace

open Filing

variable {w w' : Workspace} {file : String} {loaded : ExpsText}

theorem file?_of_no_files (hw : w.files = ∅) (name : String) : w.file? name = none := by
  rw [file?, hw]
  exact Std.ExtTreeMap.getElem?_empty

/-- A strict load of a script that is not in use yet takes its text from the project, if there is one
there and it is recorded as compiled to the ROM's bytes. -/
theorem loadExps_strict (hw : w.file? file = none) (hexps : w.project.hasExps w.host.disk file = true)
    (hload : w.loadExps file .strict = (.ok loaded, w')) :
    (w.hash file).1 = .ok loaded.hash ∧ w.project.hashIs w.host.disk file loaded.hash = true ∧
      w.project.loadExps w.host.disk file = .ok (loaded.text, loaded.sourceMap) := by
  unfold loadExps at hload
  unfold hash ask
  have hnew : ∀ f, w.fetch file = .ok f → w.get file = (.ok f, w.insertIfAbsent f) ∧ f.name = file ∧
      f.exps = none := by
    intro f hfetch
    refine ⟨by rw [get, hw, hfetch], ?_⟩
    unfold fetch at hfetch
    split at hfetch
    · cases hfetch
    · cases hfetch
    · split at hfetch <;> cases hfetch
      exact ⟨rfl, rfl⟩
  cases hfetch : w.fetch file with
  | error e =>
    rw [get, hw, hfetch] at hload
    cases hload
  | ok f =>
    obtain ⟨hget, hname, hnone⟩ := hnew f hfetch
    have hbeside : (w.insertIfAbsent f).project = w.project ∧ (w.insertIfAbsent f).host = w.host := by
      unfold insertIfAbsent
      split <;> exact ⟨rfl, rfl⟩
    rw [hget] at hload ⊢
    dsimp only at hload ⊢
    rw [if_pos rfl, hnone] at hload
    dsimp only at hload
    rw [hbeside.1, hbeside.2, if_pos ⟨hexps, by decide⟩] at hload
    unfold expsOnDisk at hload
    dsimp only at hload
    rw [hbeside.1, hbeside.2, hname] at hload
    split at hload
    next e v heq => cases hload
    next text map v heq =>
      split at heq
      next hhash =>
        cases hread : w.project.loadExps w.host.disk file with
        | error e =>
          rw [hread] at heq
          cases heq
        | ok source =>
          rw [hread] at heq
          obtain ⟨heq, rfl⟩ := Prod.mk.inj heq
          cases heq
          cases hload
          exact ⟨rfl, hhash, rfl⟩
      next => cases heq

/-- A save puts a text into the project, or nothing. -/
theorem untrusting_saving (w : Workspace) (name text : String) :
    Untrusting ((w.saving? name text).map .put).toList := by
  intro x hx
  obtain ⟨y, -, rfl⟩ := Option.map_eq_some_iff.mp (Option.mem_toList.mp hx)
  exact ⟨y, rfl⟩

end Workspace

namespace Session

open Filing

variable {s₀ s : Session} {history : List Filing} {file : String} {loaded : ExpsText} {w : Workspace}

/-- A new session over the same files and the same ROM. -/
def reopened (s : Session) : Session :=
  start s.settings s.layout s.machine s.workspace.compiler s.workspace.rom s.workspace.host
    s.workspace.project.root s.workspace.project.romName

theorem workspace_reopened (s : Session) : ∃ usage host, host.disk = s.workspace.host.disk ∧
    s.reopened.workspace =
      { compiler := s.workspace.compiler
        rom := s.workspace.rom
        project := s.workspace.project.withUsage usage
        host } := by
  have hdisk := Breakpoints.disk_load (Project.load s.workspace.host s.workspace.project.root
    s.workspace.project.romName).2 (Project.load s.workspace.host s.workspace.project.root
    s.workspace.project.romName).1.breakpointsPath
  rw [Project.disk_load] at hdisk
  refine ⟨s.workspace.project.usageOn s.workspace.host.disk, _, hdisk, ?_⟩
  unfold reopened start
  dsimp only
  rw [Project.load_eq]
  rfl

/-- A text, its map and its hash that a strict load in a new session takes from the project come from
one compilation, or from one program written down, exactly if those written last do; and they do if the
last text that was written was written with its map and its hash.  The hash is that of the ROM's bytes. -/
theorem strictLoad_iff [Scripts] (h₀ : s₀.Blank) (hrun : s₀.Works history s)
    (hputs : Untrusting history) (hfile : IsScript file)
    (hexps : s.workspace.project.hasExps s.workspace.host.disk file = true)
    (hload : s.reopened.workspace.loadExps file .strict = (.ok loaded, w)) :
    (s.reopened.workspace.hash file).1 = .ok loaded.hash ∧
      (Together s.workspace.compiler history file loaded ↔ LastTogether history file) ∧
      (LastWhole history file → Together s.workspace.compiler history file loaded) := by
  have hs := (hrun.kept h₀).workspace.stores
  obtain ⟨usage, host, hdisk, hreopened⟩ := s.workspace_reopened
  rw [hreopened] at hload ⊢
  obtain ⟨hhash, hrecorded, hread⟩ := loadExps_strict (file?_of_no_files rfl file) (by
    dsimp only
    rw [Project.hasExps_withUsage, hdisk, hexps]) hload
  dsimp only at hrecorded hread
  rw [Project.hashIs_withUsage, hdisk] at hrecorded
  rw [Project.loadExps_withUsage, hdisk] at hread
  have htogether : Together s.workspace.compiler history file loaded ↔ LastTogether history file := by
    obtain ⟨htext, hmap⟩ := (loadExps_eq_ok_iff hs hfile).mp hread
    obtain ⟨recorded, hhash, htrim⟩ := (hashIs_iff hs hfile).mp hrecorded
    obtain ⟨z, hz, rfl, hsome⟩ := hputs.recorded hhash
    rw [(hs.produced z hz).trim_hash] at htrim
    obtain ⟨stored, hstored⟩ := Option.isSome_iff_exists.mp hsome
    obtain ⟨z', hz', -, rfl⟩ := exists_of_content?_map hstored
    rw [hstored] at hmap
    dsimp only at hmap
    rw [SourceMap.restore?_store, Option.some_inj] at hmap
    constructor
    · rintro ⟨y, hy, hyfile, -, hytext, hymap, hyhash⟩
      exact ⟨y, hy, hyfile, hytext ▸ htext, by rw [hstored, hmap, hymap], by rw [hhash, htrim, hyhash]⟩
    · rintro ⟨y, hy, hyfile, hytext, hymap, hyhash⟩
      refine ⟨y, hy, hyfile, hs.produced y hy, Option.some.inj (hytext.symm.trans htext), ?_, ?_⟩
      · rw [← hmap]
        exact (SourceMap.store_injective (Option.some.inj (hstored.symm.trans hymap))).symm
      · rw [← htrim]
        exact Option.some.inj (hyhash.symm.trans hhash)
  exact ⟨hhash, htogether, fun h => htogether.mpr (h.together hputs)⟩

/-! ### A new text with an old map -/

/-- A script is saved, and then saved with two blank lines in front, while some writes are refused. -/
def twice (refusals : List (Option WriteStep)) : Session :=
  (((sample.saveExps "enter.ssb" (waitText "5")).2.refusing refusals).saveExps "enter.ssb"
    ("\n\n" ++ waitText "5")).2

/-- What the first save puts into the project. -/
def firstFilings : List Filing :=
  ((sample.workspace.saving? "enter.ssb" (waitText "5")).map .put).toList

/-- What the second save puts into the project. -/
def secondFilings (refusals : List (Option WriteStep)) : List Filing :=
  ((((sample.saveExps "enter.ssb" (waitText "5")).2.refusing refusals).workspace.saving? "enter.ssb"
    ("\n\n" ++ waitText "5")).map .put).toList

theorem works_twice (refusals : List (Option WriteStep)) :
    @Works onlyEnter sample (firstFilings ++ secondFilings refusals) (twice refusals) :=
  let _ := onlyEnter
  .trans (.saveExps sample "enter.ssb" _ rfl)
    (.after (.around (unfiled_refusing _ refusals)) (.saveExps _ "enter.ssb" _ rfl))

theorem untrusting_twice (refusals : List (Option WriteStep)) :
    Untrusting (firstFilings ++ secondFilings refusals) := by
  intro x hx
  exact (List.mem_append.mp hx).elim (untrusting_saving _ _ _ x) (untrusting_saving _ _ _ x)

theorem strictLoad_sample :
    ∃ loaded w, (twice []).reopened.workspace.loadExps "enter.ssb" .strict = (.ok loaded, w) ∧
      Together (twice []).workspace.compiler (firstFilings ++ secondFilings []) "enter.ssb" loaded := by
  have hrun : (twice []).workspace.project.hasExps (twice []).workspace.host.disk "enter.ssb" = true ∧
      ((twice []).reopened.workspace.loadExps "enter.ssb" .strict).1.toOption.isSome = true ∧
      (secondFilings []).any (fun x => x.file = "enter.ssb" ∧ x.isWhole) = true := by
    decide +kernel
  obtain ⟨hexps, hok, hwhole⟩ := hrun
  generalize hload : (twice []).reopened.workspace.loadExps "enter.ssb" .strict = loading at hok
  obtain ⟨answer, w⟩ := loading
  cases answer with
  | error e => cases hok
  | ok loaded =>
    refine ⟨loaded, w, rfl, ((@strictLoad_iff _ _ _ _ _ _ onlyEnter blank_sample
      (works_twice []) (untrusting_twice []) rfl hexps hload).2.2 ?_)⟩
    cases hsaving : ((sample.saveExps "enter.ssb" (waitText "5")).2.refusing []).workspace.saving?
        "enter.ssb" ("\n\n" ++ waitText "5") with
    | none =>
      rw [secondFilings, hsaving] at hwhole
      cases hwhole
    | some y =>
      rw [secondFilings, hsaving] at hwhole ⊢
      simp only [Option.map_some, Option.toList_some, List.any_cons, List.any_nil, Bool.or_false,
        decide_eq_true_iff] at hwhole
      refine ⟨firstFilings, y, [], rfl, hwhole.1, ?_, nofun⟩
      rw [of_decide_eq_true hwhole.2]
      rfl

/-- The map of the second save cannot be written. -/
def noMap : List (Option WriteStep) := [none, some .temporary]

/-- The second save puts its text into the project and no map.  Its bytes are those of the first one, so
a strict load gives its text with the map of the first. -/
theorem twice_mixes : @Blank onlyEnter sample ∧
    @Works onlyEnter sample (firstFilings ++ secondFilings noMap) (twice noMap) ∧
    Untrusting (firstFilings ++ secondFilings noMap) ∧
    (twice noMap).workspace.project.hasExps (twice noMap).workspace.host.disk "enter.ssb" = true ∧
    ∃ loaded w, (twice noMap).reopened.workspace.loadExps "enter.ssb" .strict = (.ok loaded, w) ∧
      ¬Together (twice noMap).workspace.compiler (firstFilings ++ secondFilings noMap) "enter.ssb"
        loaded := by
  refine ⟨blank_sample, works_twice noMap, untrusting_twice noMap, ?_⟩
  have hrun : (twice noMap).workspace.project.hasExps (twice noMap).workspace.host.disk "enter.ssb" = true ∧
      ((twice noMap).reopened.workspace.loadExps "enter.ssb" .strict).1.toOption.any (fun loaded =>
        (firstFilings ++ secondFilings noMap).all fun x => !x.made loaded) = true := by
    decide +kernel
  obtain ⟨hexps, hloaded⟩ := hrun
  refine ⟨hexps, ?_⟩
  generalize (twice noMap).reopened.workspace.loadExps "enter.ssb" .strict = loading at hloaded
  obtain ⟨answer, w⟩ := loading
  cases answer with
  | error e => cases hloaded
  | ok loaded =>
    refine ⟨loaded, w, rfl, ?_⟩
    dsimp only [Except.toOption, Option.any_some] at hloaded
    rintro ⟨y, hy, -, -, htext, hmap, -⟩
    have hnot := List.all_eq_true.mp hloaded _ hy
    simp [made, htext, hmap] at hnot

end Session

end SceneDebugger
