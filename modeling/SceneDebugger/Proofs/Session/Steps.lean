import SceneDebugger.Proofs.Ground.Effects
import SceneDebugger.Proofs.Session.Run
import SceneDebugger.Proofs.Workspace.Marking

/-!
# SceneDebugger.Proofs.Session.Steps — what an action does to each file

An action does one of three things to a file: the user edits it, some places of the game that held it
are emptied, or places are filled with it.  `ScriptFile.Stepped` says which, together with the hashes
recorded for the file in the places, and with its stamped marks.  A file that an action puts in use has
made a step from what was in the ROM; the places may hold it already then, if the ROM could not be read
when the game took it.

* `Session.steps_perform`: every action is such a step of every file that is in use after it; what holds
  of the files in use after a run is derived from this alone.
* `Session.fills`, `Session.marking`: the files that an action puts into places, and what it does to
  stamped marks.
-/

namespace SceneDebugger

/-! ### One file -/

namespace ScriptFile

/-- A file that places of the game were filled with. -/
inductive Filled (f : ScriptFile) (hashes : Set String) :
    ScriptFile → Set String → Marking StampedMap → Prop where
  /-- With the bytes in the ROM. -/
  | entered {hashes' : Set String} (hnew : ∀ hash ∈ hashes', hash ∈ hashes ∨ hash = f.hash)
    (hmem : f.hash ∈ hashes') : Filled f hashes f.entered hashes' .keep
  /-- With other bytes, by a save state. -/
  | restored {hashes' : Set String} {hash : String} (hmem : hash ∈ hashes') (hne : hash ≠ f.hash) :
    Filled f hashes f.entered.restored hashes' (if f.entered.flags.ramMatches then .park else .keep)

/-- What an action does to a file, to the hashes recorded for it in the places, and to its stamped
marks, given whether the action fills a place with the file. -/
inductive Stepped (f : ScriptFile) (hashes : Set String) (fills : Prop) :
    ScriptFile → Set String → Marking StampedMap → Prop where
  | edited {f' : ScriptFile} {c : Marking StampedMap} (hno : ¬ fills) (h : f.Edited f' c) :
    Stepped f hashes fills f' hashes c
  | released {f' : ScriptFile} {hashes' : Set String} (hno : ¬ fills)
    (h : f.Released hashes f' hashes') : Stepped f hashes fills f' hashes' .keep
  | filled {f' : ScriptFile} {hashes' : Set String} {c : Marking StampedMap} (hfills : fills)
    (h : f.Filled hashes f' hashes' c) : Stepped f hashes fills f' hashes' c

variable {f f' : ScriptFile} {hashes hashes' : Set String} {fills : Prop} {c : Marking StampedMap}

theorem Released.marks (h : f.Released hashes f' hashes') : f'.marks = f.marks := by
  cases h <;> rfl

theorem Filled.marks (h : f.Filled hashes f' hashes' c) :
    f'.marks = (c.map Prod.fst).apply f.marks := by
  cases h with
  | entered _ _ => exact entered_marks f
  | restored _ _ =>
    simp only [ScriptFile.restored, entered_marks]
    split_ifs <;> rfl

/-- The marks of the file change as the stamped marks do. -/
theorem Stepped.marks (h : f.Stepped hashes fills f' hashes' c) :
    f'.marks = (c.map Prod.fst).apply f.marks := by
  cases h with
  | edited _ h => exact h.marks
  | released _ h => exact h.marks
  | filled _ h => exact h.marks

theorem Filled.inGround (h : f.Filled hashes f' hashes' c) : f'.flags.inGround = true := by
  cases h with
  | entered _ _ => exact entered_inGround f
  | restored _ _ => exact entered_inGround f

/-- A file that places were filled with is flagged as held. -/
theorem Stepped.inGround_of_fills (h : f.Stepped hashes fills f' hashes' c) (hfills : fills) :
    f'.flags.inGround = true := by
  cases h with
  | edited hno _ => exact absurd hfills hno
  | released hno _ => exact absurd hfills hno
  | filled _ hf => exact hf.inGround

/-- What a save state does to the stamped marks. -/
def restoreMarking (f : ScriptFile) (name : String) (scripts : List LoadedScript) :
    Marking StampedMap :=
  if f.differsIn name scripts ∧ f.entered.flags.ramMatches then .park else .keep

/-- A file that a save state has. -/
theorem filled_afterRestore {name : String} {scripts : List LoadedScript} (f : ScriptFile)
    (hashes : Set String) (hscripts : ∀ hash, hash ∈ hashes' ↔ ⟨name, hash⟩ ∈ scripts)
    (hsome : hashes'.Nonempty) :
    f.Filled hashes (f.afterRestore name scripts) hashes' (f.restoreMarking name scripts) := by
  have hany : scripts.any (fun s => s.file == name) = true := by
    obtain ⟨hash, hh⟩ := hsome
    exact List.any_eq_true.mpr ⟨_, (hscripts hash).mp hh, by simp⟩
  rw [afterRestore, if_pos hany, restoreMarking]
  by_cases hd : f.differsIn name scripts = true
  · obtain ⟨s, hs, rfl, hne⟩ := differsIn_iff.mp hd
    simp only [hd, if_true, true_and]
    exact .restored ((hscripts s.hash).mpr hs) hne
  · have hsame : ∀ hash ∈ hashes', hash = f.hash := by
      intro hash hh
      by_contra hne
      exact hd (differsIn_iff.mpr ⟨_, (hscripts hash).mp hh, rfl, hne⟩)
    obtain ⟨hash, hh⟩ := hsome
    rw [if_neg hd, if_neg fun hboth => hd hboth.1]
    exact .entered (fun hash hh => .inr (hsame hash hh)) (hsame hash hh ▸ hh)

/-- A file that a save state does not have. -/
theorem afterRestore_of_empty {name : String} {scripts : List LoadedScript} (f : ScriptFile)
    (hscripts : ∀ hash, hash ∈ hashes' ↔ ⟨name, hash⟩ ∈ scripts) (hempty : hashes' = ∅) :
    f.afterRestore name scripts = f ∧ f.restoreMarking name scripts = .keep := by
  have hnone : scripts.any (fun s => s.file == name) = false := by
    rw [List.any_eq_false]
    rintro s hs hname
    have hmem : s.hash ∈ hashes' := (hscripts s.hash).mpr (by rw [← eq_of_beq hname]; exact hs)
    rw [hempty] at hmem
    exact hmem
  have hdiffers : ¬ f.differsIn name scripts = true := by
    intro hd
    obtain ⟨s, hs, hname, -⟩ := differsIn_iff.mp hd
    exact List.any_eq_false.mp hnone s hs (by rw [hname]; exact beq_self_eq_true name)
  refine ⟨?_, if_neg fun hboth => hdiffers hboth.1⟩
  rw [afterRestore, hnone]
  rfl

end ScriptFile

/-! ### All files -/

namespace Workspace

variable {w w' : Workspace} {g g' : Ground} {fills : String → Prop}
  {marking : String → ScriptFile → Marking StampedMap} {name : String} {f : ScriptFile}

/-- What is in use stays in use, and every file in use has made a step from what anyone who asked for it
would have got. -/
structure Steps (w : Workspace) (g : Ground) (w' : Workspace) (g' : Ground) (fills : String → Prop)
    (marking : String → ScriptFile → Marking StampedMap) : Prop where
  named : w'.Named
  used : ∀ name, (w.file? name).isSome → (w'.file? name).isSome
  stepped : ∀ name f', w'.file? name = some f' → ∃ f, w.seen? name = some f ∧
    f.Stepped (g.hashes name) (fills name) f' (g'.hashes name) (marking name f)
  /-- A file that places are filled with is in use, if it could be read. -/
  filled : ∀ name, fills name → (w.seen? name).isSome → (w'.file? name).isSome
  /-- No map of a file becomes known as long as it is not in use. -/
  absent : ∀ name f, w'.file? name = none → w.seen? name = some f → (marking name f).apply {} = {}

theorem file?_eq_none_of_used (hused : (w.file? name).isSome → (w'.file? name).isSome)
    (h : w'.file? name = none) : w.file? name = none := by
  rw [← Option.not_isSome_iff_eq_none] at h ⊢
  exact fun hsome => h (hused hsome)

/-- A file in use stays in use, and has made a step. -/
theorem Steps.stepped_of_used (h : w.Steps g w' g' fills marking) (hf : w.file? name = some f) :
    ∃ f', w'.file? name = some f' ∧
      f.Stepped (g.hashes name) (fills name) f' (g'.hashes name) (marking name f) := by
  obtain ⟨f', hf'⟩ := Option.isSome_iff_exists.mp (h.used name (by rw [hf]; rfl))
  obtain ⟨before, hbefore, hstep⟩ := h.stepped name f' hf'
  rw [seen?_of_file? hf] at hbefore
  cases hbefore
  exact ⟨f', hf', hstep⟩

theorem used_of_inGround (hf : w.seen? name = some f) (h : f.flags.inGround = true) :
    (w.file? name).isSome := by
  by_contra hnone
  obtain ⟨program, hash, rfl⟩ := eq_of_seen?_of_absent (Option.not_isSome_iff_eq_none.mp hnone) hf
  cases h

theorem marks_of_absent (h : w.file? name = none) (hf : w.seen? name = some f) : f.marks = {} := by
  obtain ⟨program, hash, rfl⟩ := eq_of_seen?_of_absent h hf
  rfl

theorem Changes.steps {change : String → ScriptFile → ScriptFile} (h : w.Changes w' change)
    (hstep : ∀ name f, w.seen? name = some f →
      f.Stepped (g.hashes name) (fills name) (change name f) (g'.hashes name) (marking name f)) :
    w.Steps g w' g' fills marking := by
  refine ⟨h.named, h.used, fun name f' hf' => ?_, fun name hfills hsome => ?_, fun name f hn hf => ?_⟩
  · have hseen := h.seen name
    rw [seen?_of_file? hf'] at hseen
    obtain ⟨f, hf, rfl⟩ := Option.map_eq_some_iff.mp hseen.symm
    exact ⟨f, hf, hstep name f hf⟩
  · obtain ⟨f, hf⟩ := Option.isSome_iff_exists.mp hsome
    refine used_of_inGround (f := change name f) ?_ ((hstep name f hf).inGround_of_fills hfills)
    rw [h.seen, hf, Option.map_some]
  · -- the file is new before and after the step
    have hafter : w'.seen? name = some (change name f) := by rw [h.seen, hf, Option.map_some]
    have hmarks := (hstep name f hf).marks
    rw [marks_of_absent hn hafter,
      marks_of_absent (file?_eq_none_of_used (h.used name) hn) hf] at hmarks
    refine Marks.eq_empty_of_map (g := Prod.fst) ?_
    rw [← Marking.apply_map]
    exact hmarks.symm

/-- An action that leaves the places alone. -/
theorem Alike.steps (h : w.Alike w') (hslots : g'.slots = g.slots) :
    w.Steps g w' g' (fun _ => False) fun _ _ => .keep := by
  refine h.changes.steps fun name f _ => ?_
  rw [Ground.hashes_congr hslots]
  exact .edited not_false .same

/-- An action that leaves the places alone and the files in use. -/
theorem Outside.steps (h : w.Outside w') (hw : w.Named) (hslots : g'.slots = g.slots) :
    w.Steps g w' g' (fun _ => False) fun _ _ => .keep := by
  refine ⟨h.named hw, fun name hn => by rw [h.file?]; exact hn, fun name f hf => ⟨f, ?_, ?_⟩,
    fun _ hno => hno.elim, fun _ _ _ _ => rfl⟩
  · exact seen?_of_file? ((h.file? name).symm.trans hf)
  · rw [Ground.hashes_congr hslots]
    exact .edited not_false .same

/-- An edit of one file. -/
theorem Updates.steps {name : String} {change : ScriptFile → ScriptFile}
    (h : w.Updates w' name change)
    (hself : ∀ f, w.seen? name = some f → f.Edited (change f) (marking name f))
    (hother : ∀ k f, k ≠ name → marking k f = .keep) :
    w.Steps g w' g (fun _ => False) marking := by
  refine h.changes.steps fun k f hf => .edited not_false ?_
  by_cases hk : k = name
  · subst hk
    rw [if_pos rfl]
    exact hself f hf
  · rw [if_neg hk, hother k f hk]
    exact .same

theorem Saves.steps {name : String} {view : View} {answer : Except Error SaveOutcome}
    (h : w.Saves w' name view answer) :
    w.Steps g w' g (fun _ => False)
      fun k _ => if k = name then ScriptFile.saveMarking answer else .keep := by
  cases answer with
  | error e =>
    refine h.changes.steps fun k f _ => .edited not_false ?_
    simp only [ScriptFile.saveMarking, ite_self]
    exact .same
  | ok o =>
    obtain ⟨f, c, program, ssbs, exps, hf, ho, -, hheld, -, hw⟩ := h
    refine hw.steps (fun g hg => ?_) fun k f hk => if_neg hk
    rw [hf] at hg
    cases hg
    rw [if_pos rfl]
    refine .saved o program ssbs exps (hheld.trans ?_)
    rw [show o.view = view by rw [ho]; rfl]

end Workspace

namespace Ground

open Workspace

variable {w : Workspace}

theorem steps_reset (g : Ground) (hw : w.Named) (keepShared running : Bool) :
    w.Steps g (g.reset w keepShared running).2 (g.emptied keepShared running) (fun _ => False)
      fun _ _ => .keep :=
  (changes_reset g hw keepShared running).steps fun name f _ =>
    .released not_false (released_reset g keepShared running name f)

/-- A load fills the announced place, unless there is no such place. -/
theorem steps_loadScript (g : Ground) (hw : w.Named) (file : String) :
    w.Steps g (g.loadScript w file).2 (g.loadScript w file).1
      (fun name => name = file ∧ g.pending.getD 0 < hangerCount) fun _ _ => .keep := by
  by_cases hslot : g.pending.getD 0 < hangerCount
  · rw [loadScript_of_lt g w file hslot]
    refine (changes_place _ hw hslot file).steps fun name f hf => ?_
    by_cases hname : name = file
    · subst hname
      have hhash : recordedHash w name = f.hash := by rw [recordedHash, hf]; rfl
      rw [if_pos rfl]
      refine .filled ⟨rfl, hslot⟩ (.entered (fun hash hh => ?_) ?_)
      · obtain hrecorded | ⟨hanger, -, hs⟩ := (mem_hashes_place_self _ hw hslot).mp hh
        · exact .inr (hrecorded.symm.trans hhash)
        · exact .inl ⟨hanger, hs⟩
      · exact (mem_hashes_place_self _ hw hslot).mpr (.inl hhash)
    · rw [if_neg hname]
      exact .released (fun hboth => hname hboth.1) (released_place _ hw hslot hname f)
  · obtain ⟨hground, hbeside⟩ := loadScript_of_not_lt g w file hslot
    have hnone : (fun name => name = file ∧ g.pending.getD 0 < hangerCount) = fun _ => False := by
      funext name
      exact eq_false fun hboth => hslot hboth.2
    rw [hground, hnone]
    exact (hbeside.alike hw).steps rfl

/-- A save state fills the places with the files that it has. -/
theorem steps_restore (g : Ground) (hw : w.Named) (snapshot : GroundSnapshot) :
    w.Steps g (g.restore w snapshot).2.2 (ofSnapshot snapshot)
      (fun name => (ofSnapshot snapshot).holds name = true)
      fun name f => f.restoreMarking name (ofSnapshot snapshot).loaded := by
  refine (changes_restore g hw snapshot).steps fun name f _ => ?_
  have hscripts : ∀ hash, hash ∈ (ofSnapshot snapshot).hashes name ↔
      ⟨name, hash⟩ ∈ (ofSnapshot snapshot).loaded := fun _ => mem_hashes_iff_mem_loaded
  by_cases hheld : (ofSnapshot snapshot).holds name = true
  · rw [if_neg (fun hboth => Bool.false_ne_true (hboth.2.symm.trans hheld))]
    exact .filled hheld (f.filled_afterRestore _ hscripts (holds_iff.mp hheld))
  · have hfalse : (ofSnapshot snapshot).holds name = false := Bool.not_eq_true _ ▸ hheld
    have hempty : (ofSnapshot snapshot).hashes name = ∅ := holds_eq_false_iff.mp hfalse
    rw [(f.afterRestore_of_empty hscripts hempty).2]
    refine .released hheld ?_
    split_ifs with hleft
    · rw [(f.left.afterRestore_of_empty hscripts hempty).1, hempty]
      exact .left
    · rw [(f.afterRestore_of_empty hscripts hempty).1]
      have hnot : g.hashes name = ∅ := by
        rw [← Set.not_nonempty_iff_eq_empty]
        exact fun hsome => hleft ⟨mem_files.mpr hsome, hfalse⟩
      refine .held (by rw [hempty]; exact Set.empty_subset _) fun hsome => ?_
      rw [hnot] at hsome
      exact absurd rfl hsome.ne_empty

end Ground

/-! ### Actions -/

namespace Session

open Workspace

variable {s : Session}

/-- The action puts the file into a place of the game. -/
def fills (s : Session) (a : Action) (name : String) : Prop :=
  match a with
  | .loadScript file => name = file ∧ s.ground.pending.getD 0 < hangerCount
  | .restore snapshot => (Ground.ofSnapshot snapshot).holds name = true
  | _ => False

/-- What the action does to the stamped marks of a file. -/
def marking (s : Session) (a : Action) (name : String) (f : ScriptFile) : Marking StampedMap :=
  match a with
  | .loadSsbs file => if name = file then f.ssbsMarking (s.workspace.loadSsbs file).1 else .keep
  | .loadExps file mode =>
    if name = file then f.expsMarking mode (s.workspace.loadExps file mode).1 else .keep
  | .saveSsbs file text =>
    if name = file then ScriptFile.saveMarking (s.workspace.saveSsbs file text).1 else .keep
  | .saveExps file text =>
    if name = file then ScriptFile.saveMarking (s.workspace.saveExps file text).1 else .keep
  | .reload file => if name = file then f.reloadMarking else .keep
  | .restore snapshot => f.restoreMarking name (Ground.ofSnapshot snapshot).loaded
  | _ => .keep

/-- Every file that is in use in the other session has made a step. -/
def Steps (s t : Session) (a : Action) : Prop :=
  s.workspace.Steps s.ground t.workspace t.ground (s.fills a) (s.marking a)

theorem Steps.beside {t u : Session} {a : Action} (h : s.Steps t a) (hu : t.Beside u) :
    s.Steps u a := by
  have hfile := hu.workspace.file?
  refine ⟨hu.workspace.named h.named, fun name hn => ?_, fun name f' hf' => ?_,
    fun name hfills hsome => ?_, fun name f hn => h.absent name f ((hfile name).symm.trans hn)⟩
  · rw [hfile]
    exact h.used name hn
  · rw [hu.ground]
    exact h.stepped name f' ((hfile name).symm.trans hf')
  · rw [hfile]
    exact h.filled name hfills hsome

/-- What an action does to every file. -/
theorem steps_perform (hw : s.workspace.Named) (a : Action) : s.Steps (s.perform a) a := by
  cases a with
  | startGround =>
    have hreset := s.ground.steps_reset hw false true
    exact Steps.beside (t := { s with ground := _, workspace := _ }) hreset
      ⟨rfl, (Workspace.beside_send _ .groundStarted).outside⟩
  | quitGround =>
    have hreset := s.ground.steps_reset hw false false
    exact Steps.beside (t := { s with ground := _, workspace := _ }) hreset
      ⟨rfl, (Workspace.beside_send _ .groundQuit).outside⟩
  | changeMap =>
    have hreset := s.ground.steps_reset hw true true
    exact Steps.beside (t := { s with ground := _, workspace := _ }) hreset
      ⟨rfl, (Workspace.beside_send _ .mapChanged).outside⟩
  | loadScript file => exact s.ground.steps_loadScript hw file
  | loadScene hanger name =>
    obtain ⟨hbeside, hslots⟩ := s.ground.beside_loadScene s.workspace hanger name
    exact (hbeside.alike hw).steps hslots
  | loadTalk hanger =>
    obtain ⟨hbeside, hslots⟩ := s.ground.beside_loadTalk s.workspace hanger
    exact (hbeside.alike hw).steps hslots
  | restore snapshot => exact s.ground.steps_restore hw snapshot
  | fetch file => exact (alike_get hw file).steps rfl
  | openEditor file =>
    exact (updates_openEditor hw file).steps (fun _ _ => .opened) fun _ _ _ => rfl
  | closeEditor file =>
    exact (updates_finishClose hw file).steps (fun _ _ => .closed) fun _ _ _ => rfl
  | loadSsbs file =>
    refine (updates_loadSsbs hw file).steps (fun f _ => ?_) fun _ _ hk => if_neg hk
    rw [marking, if_pos rfl]
    exact f.edited_loadedSsbs _
  | loadExps file mode =>
    refine (updates_loadExps hw file mode).steps (fun f _ => ?_) fun _ _ hk => if_neg hk
    rw [marking, if_pos rfl]
    exact f.edited_loadedExps mode _
  | saveSsbs file text => exact (saves_saveSsbs hw file text).steps
  | saveExps file text => exact (saves_saveExps hw file text).steps
  | reload file =>
    refine (updates_applyReload hw file).steps (fun f _ => ?_) fun _ _ hk => if_neg hk
    rw [marking, if_pos rfl]
    exact f.edited_reloaded
  | beside other =>
    obtain ⟨hground, houtside⟩ := beside_around s other
    exact houtside.steps hw (congrArg Ground.slots hground)

end Session

end SceneDebugger
