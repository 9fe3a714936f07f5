import SceneDebugger.Proofs.Session.Requests

/-!
# SceneDebugger.Proofs.Session.Carrying — breakpoints follow a chain of saves

Every save of a script from the same text carries its breakpoints from the map before to the new one.
Between the two halves of a save the breakpoints are still those of the map before, so that a run is
judged by the breakpoints that are due once the saves under way are finished.

* `JointSession.dueOffsets`: these breakpoints.
* `JointSession.Carries.saved`, `JointSession.Carries.perform`: a save takes map and due breakpoints one
  further, every other turn leaves both.
* `JointSession.breakpoints_follow`: what the breakpoints are after a run.
-/

namespace SceneDebugger

open Workspace

/-- Offsets taken from map to map. -/
def SourceMap.carryAlong (m : SourceMap) :
    List SourceMap → Std.ExtTreeSet UInt32 → Std.ExtTreeSet UInt32
  | [], offsets => offsets
  | next :: rest, offsets => next.carryAlong rest (m.carry next offsets)

/-- A turn that changes maps and breakpoints of a file in no other way than by a save, and restores no
save state. -/
def Turn.Follows (file : String) : Turn → Prop
  | .act (.restore _) => False
  | .act (.loadSsbs name) => name ≠ file
  | .act (.loadExps name _) => name ≠ file
  | .add name _ => name ≠ file
  | .remove name _ => name ≠ file
  | .toggle name _ _ => name ≠ file
  | _ => True

namespace JointSession

open Session

variable {j : JointSession} {file : String} {view : View} {t : Turn} {o : SaveOutcome}
  {m : SourceMap} {offsets : Std.ExtTreeSet UInt32}

/-- What a turn saves of a file. -/
def savedOf? (j : JointSession) (file : String) (t : Turn) : Option SaveOutcome :=
  (j.saved? t).filter fun o => o.file == file

/-- The maps of a file that turns save, one after the other. -/
def mapsSaved (file : String) (j : JointSession) : List Turn → List SourceMap
  | [] => []
  | t :: turns => ((j.savedOf? file t).map SaveOutcome.newMap).toList ++
      mapsSaved file (j.perform t) turns

/-- The saves of a file that are under way. -/
def savesOf (j : JointSession) (file : String) : List SaveOutcome :=
  j.unfinished.filter fun o => o.file == file

/-- The breakpoints of the last compilation once the saves under way are finished. -/
def dueOffsets (j : JointSession) (file : String) : Std.ExtTreeSet UInt32 :=
  (j.savesOf file).foldl (fun offsets o => Reload.carried o offsets)
    (j.session.breakpoints.latestOffsets file)

/-- The map of the last compilation, and the breakpoints that are due for it. -/
structure Carries (j : JointSession) (file : String) (view : View) (m : SourceMap)
    (offsets : Std.ExtTreeSet UInt32) : Prop where
  map : ∃ f, j.session.workspace.file? file = some f ∧ f.marks.latest.get view = some m
  offsets : j.dueOffsets file = offsets

/-- All saves of a file are from one of its texts. -/
def SavesFrom (file : String) (view : View) (j : JointSession) : List Turn → Prop
  | [] => True
  | t :: turns => (∀ o, j.savedOf? file t = some o → o.view = view) ∧
      SavesFrom file view (j.perform t) turns

theorem savedOf?_eq_some : j.savedOf? file t = some o ↔ j.saved? t = some o ∧ o.file = file := by
  simp [savedOf?, Option.filter_eq_some_iff]

/-- In particular if none is so much as tried from the other text. -/
theorem savesFrom_of_turns (hj : j.session.Tracks) {turns : List Turn}
    (h : ∀ other text, .save other file text ∈ turns → other = view) :
    j.SavesFrom file view turns := by
  induction turns generalizing j with
  | nil => exact trivial
  | cons t turns ih =>
    refine ⟨fun o ho => ?_, ih (tracks_perform hj t) fun other text hmem =>
      h other text (List.mem_cons_of_mem t hmem)⟩
    obtain ⟨hsaved, rfl⟩ := savedOf?_eq_some.mp ho
    obtain ⟨other, text, f, c, program, ssbs, exps, rfl, -, hoeq, -, -⟩ := saved?_eq_some hj.named hsaved
    rw [← h other text List.mem_cons_self, hoeq]
    rfl

/-! ### Turns other than saves of the file -/

theorem Marked.latest {f : ScriptFile} {c : Marking StampedMap} (hc : j.Marked file f t c)
    (ht : t.Follows file) (hno : j.savedOf? file t = none) (marks : Marks) :
    ((c.map Prod.fst).apply marks).latest = marks.latest := by
  cases hc with
  | keep _ => rfl
  | promoted _ => exact marks.latest_promote
  | parked snapshot _ _ _ => exact absurd ht id
  | ssbs text _ => exact absurd rfl ht
  | exps mode text => exact absurd rfl ht
  | saved ho hfile =>
    rw [savedOf?_eq_some.mpr ⟨ho, hfile⟩] at hno
    cases hno

theorem Carries.map_perform (h : j.Carries file view m offsets) (hj : j.session.workspace.Named)
    (ht : t.Follows file) (hno : j.savedOf? file t = none) :
    ∃ f, (j.perform t).session.workspace.file? file = some f ∧
      f.marks.latest.get view = some m := by
  obtain ⟨f, hf, hmap⟩ := h.map
  obtain ⟨f', hf', hstep⟩ := (steps_perform hj t).stepped_of_used hf
  refine ⟨f', hf', ?_⟩
  rw [hstep.marks, (marked hj t file f).latest ht hno]
  exact hmap

theorem Adjusted.latestOffsets {b : Breakpoints} (hb : j.Adjusted file t b)
    (ht : t.Follows file) (hfinish : t ≠ .finish) :
    b.latestOffsets file = j.session.breakpoints.latestOffsets file := by
  cases hb with
  | same _ hs => exact hs.latest
  | followed _ _ _ => exact absurd rfl hfinish
  | reloaded _ hnone hoffsets => rw [Breakpoints.latestOffsets_eq, hnone, hoffsets]; rfl
  | added offset host => exact absurd rfl ht
  | removed offset host => exact absurd rfl ht
  | toggled view opcodes offset host _ => exact absurd rfl ht

theorem savesOf_perform (hfinish : t ≠ .finish) :
    (j.perform t).savesOf file = j.savesOf file ++ (j.savedOf? file t).toList := by
  have hkept : (j.perform t).unfinished = j.unfinished ++ (j.saved? t).toList := by
    cases t with
    | save view name text => rfl
    | finish => exact absurd rfl hfinish
    | act a =>
      simp only [perform]
      split_ifs <;> exact (List.append_nil _).symm
    | take =>
      simp only [perform, take]
      split_ifs
      · split <;> exact (List.append_nil _).symm
      · exact (List.append_nil _).symm
    | _ => exact (List.append_nil _).symm
  rw [savesOf, hkept, List.filter_append, savesOf, savedOf?]
  cases j.saved? t with
  | none => rfl
  | some o => cases hfile : o.file == file <;> simp [Option.filter, hfile]

/-- A save that is finished leaves the breakpoints that are due. -/
theorem dueOffsets_finish (j : JointSession) (file : String) :
    (j.perform .finish).dueOffsets file = j.dueOffsets file := by
  cases hfirst : j.unfinished with
  | nil => simp only [perform, hfirst]
  | cons o rest =>
    have hrest : (j.perform .finish).unfinished = rest := by simp only [perform, hfirst]
    rw [dueOffsets, dueOffsets, savesOf, savesOf, hrest, hfirst, breakpoints_finish hfirst,
      Breakpoints.latestOffsets_resync]
    by_cases hfile : o.file = file
    · subst hfile
      rw [if_pos rfl, List.filter_cons_of_pos (by simp), List.foldl_cons]
    · rw [if_neg (Ne.symm hfile), List.filter_cons_of_neg (by simpa using hfile)]

theorem dueOffsets_perform (hj : j.session.workspace.Named) (ht : t.Follows file) :
    (j.perform t).dueOffsets file = (j.savedOf? file t).toList.foldl
      (fun offsets o => Reload.carried o offsets) (j.dueOffsets file) := by
  by_cases hfinish : t = .finish
  · subst hfinish
    exact dueOffsets_finish j file
  · rw [dueOffsets, savesOf_perform hfinish, List.foldl_append, dueOffsets,
      (adjusted hj t file).latestOffsets ht hfinish]

/-! ### Chains of saves -/

/-- A save takes the map that was the last one to the new one. -/
theorem Carries.saved (h : j.Carries file view m offsets) (hj : j.session.workspace.Named)
    (ht : t.Follows file) (ho : j.savedOf? file t = some o) (hview : o.view = view) :
    (j.perform t).Carries file view o.newMap (m.carry o.newMap offsets) := by
  obtain ⟨hsaved, rfl⟩ := savedOf?_eq_some.mp ho
  obtain ⟨other, text, f, c, program, ssbs, exps, rfl, hf, hoeq, -, hafter⟩ := saved?_eq_some hj hsaved
  obtain rfl : other = view := by rw [← hview, hoeq]; rfl
  obtain ⟨before, hbefore, hmap⟩ := h.map
  rw [seen?_of_file? hbefore] at hf
  cases hf
  have hprevious : o.previousMap = some m := by
    rw [hoeq]
    exact hmap
  refine ⟨⟨_, hafter, ?_⟩, ?_⟩
  · rw [show (f.saved o program ssbs exps).marks = f.marks.supersede o.view o.newMap from
      f.recompiled_marks o.view program o.newMap o.hash, hview]
    cases other <;> rfl
  · rw [dueOffsets_perform hj ht, ho, h.offsets]
    show Reload.carried o offsets = _
    rw [Reload.carried, hprevious]

theorem Carries.perform (h : j.Carries file view m offsets) (hj : j.session.workspace.Named)
    (ht : t.Follows file) (hno : j.savedOf? file t = none) :
    (j.perform t).Carries file view m offsets := by
  refine ⟨h.map_perform hj ht hno, ?_⟩
  rw [dueOffsets_perform hj ht, hno]
  exact h.offsets

/-- By induction on the run: a save is the first link of the chain that the rest of the run continues. -/
theorem Carries.run (h : j.Carries file view m offsets) (hj : j.session.Tracks) {turns : List Turn}
    (hturns : ∀ t ∈ turns, t.Follows file) (hsaves : j.SavesFrom file view turns) :
    (j.run turns).dueOffsets file = m.carryAlong (j.mapsSaved file turns) offsets := by
  induction turns generalizing j m offsets with
  | nil => exact h.offsets
  | cons t turns ih =>
    have ht := hturns t List.mem_cons_self
    have hrest : ∀ t ∈ turns, t.Follows file := fun t hmem =>
      hturns t (List.mem_cons_of_mem _ hmem)
    have hnext := tracks_perform hj t
    rw [run_cons, mapsSaved]
    cases ho : j.savedOf? file t with
    | none => exact ih (h.perform hj.named ht ho) hnext hrest hsaves.2
    | some o => exact ih (h.saved hj.named ht ho (hsaves.1 o ho)) hnext hrest hsaves.2

theorem dueOffsets_of_idle (h : j.unfinished = []) (file : String) :
    j.dueOffsets file = j.session.breakpoints.latestOffsets file := by
  rw [dueOffsets, savesOf, h]
  rfl

/-- From a known map on, the breakpoints of the last compilation are taken along the maps of the saves,
and a poll puts them in use unless the file is stale. -/
theorem breakpoints_follow {f : ScriptFile} {turns : List Turn} (h : j.Reachable)
    (hidle : j.unfinished = []) (hf : j.session.workspace.file? file = some f)
    (hmap : f.marks.latest.get view = some m) (hturns : ∀ t ∈ turns, t.Follows file)
    (hsaves : j.SavesFrom file view turns) (hdone : (j.run turns).unfinished = []) :
    (j.run turns).session.breakpoints.latestOffsets file =
      m.carryAlong (j.mapsSaved file turns) (j.session.breakpoints.latestOffsets file) ∧
    ((j.run turns).session.poll.2.workspace.ramMatches file = true →
      (j.run turns).session.poll.2.breakpoints.offsets file =
        m.carryAlong (j.mapsSaved file turns) (j.session.breakpoints.latestOffsets file) ∧
      (j.run turns).session.poll.2.breakpoints.pendingOffsets? file = none) := by
  have hstart : j.Carries file view m (j.session.breakpoints.latestOffsets file) :=
    ⟨⟨f, hf, hmap⟩, dueOffsets_of_idle hidle file⟩
  have hlatest := hstart.run h.tracks hturns hsaves
  rw [dueOffsets_of_idle hdone] at hlatest
  have horderly := (h.run turns).orderly
  refine ⟨hlatest, fun hram => ?_⟩
  rw [(served_poll horderly.tracks.named).ramMatches] at hram
  refine ⟨?_, ?_⟩
  · rw [horderly.offsets_poll, if_pos hram, hlatest]
  · rw [horderly.pending_poll, if_pos hram]

/-- A script that waits twice, with a breakpoint on the second line. -/
def watchedScript : JointSession :=
  ({ session := sample } : JointSession).run [.save .ssbs "enter.ssb" "routine Actor\nWait 5\nWait 6",
    .finish, .add "enter.ssb" 2]

/-- The game loads the script, its first line is removed in a save, and the game drops it before its
breakpoints follow. -/
def firstLineRemoved : List Turn :=
  [.act (.loadScript "enter.ssb"), .save .ssbs "enter.ssb" "routine Actor\n\nWait 6",
    .act .quitGround, .finish]

theorem breakpoints_follow_sample :
    (watchedScript.session.breakpoints.offsets "enter.ssb").toList = [2] ∧
      ((watchedScript.run firstLineRemoved).session.poll.2.breakpoints.offsets
        "enter.ssb").toList = [0] := by
  have hrun : watchedScript.unfinished = [] ∧ (watchedScript.run firstLineRemoved).unfinished = [] ∧
      (watchedScript.session.breakpoints.offsets "enter.ssb").toList = [2] ∧
      (watchedScript.run firstLineRemoved).session.poll.2.workspace.ramMatches "enter.ssb" = true ∧
      ((watchedScript.session.workspace.file? "enter.ssb").bind fun f =>
        (f.marks.latest.get .ssbs).map fun m =>
          (m.carryAlong (watchedScript.mapsSaved "enter.ssb" firstLineRemoved)
            (watchedScript.session.breakpoints.latestOffsets "enter.ssb")).toList) = some [0] := by
    decide +kernel
  obtain ⟨hidle, hdone, hbefore, hram, hcarried⟩ := hrun
  obtain ⟨f, hf, hmaps⟩ := Option.bind_eq_some_iff.mp hcarried
  obtain ⟨m, hm, hoffsets⟩ := Option.map_eq_some_iff.mp hmaps
  have hturns : ∀ t ∈ firstLineRemoved, t.Follows "enter.ssb" := by
    simp [firstLineRemoved, Turn.Follows]
  have hreachable : watchedScript.Reachable := reachable_sample _
  have hsaves : watchedScript.SavesFrom "enter.ssb" .ssbs firstLineRemoved :=
    savesFrom_of_turns hreachable.tracks (by simp [firstLineRemoved])
  obtain ⟨-, hpolled⟩ := breakpoints_follow hreachable hidle hf hm hturns hsaves hdone
  refine ⟨hbefore, ?_⟩
  rw [(hpolled hram).1]
  exact hoffsets

end JointSession

end SceneDebugger
