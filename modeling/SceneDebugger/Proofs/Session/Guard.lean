import Mathlib.Data.List.Infix
import SceneDebugger.Proofs.Session.Requests

/-!
# SceneDebugger.Proofs.Session.Guard — the maps and breakpoints in use of a stale file are left alone

As long as a file is stale, what the game runs of it is older than what is saved and loaded.  All of the
new goes to where it waits: to the temporary marks of the file and to its pending breakpoints.

* `JointSession.Parks`: what one turn does to a stale file.
* `JointSession.parks_perform`: every turn does this, unless breakpoints of the file are set directly.
* `JointSession.guarded_of_stale`: what follows for a run during which the file stays stale.
-/

namespace SceneDebugger

open Workspace

/-- What becomes of the maps that wait. -/
def Marking.onWaiting {M : Type} (c : Marking M) (p : MapPair M) : MapPair M :=
  match c with
  | .record view map => p.set view map
  | .supersede view map => .only view map
  | _ => p

namespace JointSession

open Session

variable {j k : JointSession} {file : String} {t : Turn} {turns done : List Turn}

/-- A turn puts nothing of a file in use: its new maps and breakpoints wait. -/
structure Parks (j : JointSession) (file : String) (t : Turn) : Prop where
  maps : ∃ f f', j.session.workspace.file? file = some f ∧
    (j.perform t).session.workspace.file? file = some f' ∧
    f'.marks.permanent = f.marks.permanent ∧ f'.marks.temporary = f.marks.temporary.map
      ((j.session.marking (j.action t) file f).map Prod.fst).onWaiting
  saved : ∀ o, j.saved? t = some o → o.file = file →
    ∃ f', (j.perform t).session.workspace.file? file = some f' ∧
      f'.marks.temporary = some (.only o.view o.newMap)
  offsets : (j.perform t).session.breakpoints.offsets file = j.session.breakpoints.offsets file
  followed : ∀ o, j.finished? t = some o → o.file = file →
    (j.perform t).session.breakpoints.pendingOffsets? file =
      some (Reload.carried o (j.session.breakpoints.latestOffsets file))
  others : (∀ o, j.finished? t = some o → o.file ≠ file) →
    (j.perform t).session.breakpoints.pendingOffsets? file =
      j.session.breakpoints.pendingOffsets? file
  /-- The user is not told of a reload. -/
  told : ∃ more, (j.perform t).told = j.told ++ more ∧ .fileReloaded file ∉ more

/-! ### Maps -/

theorem Marked.apply_of_stale {name : String} {f : ScriptFile} {c : Marking StampedMap}
    (hc : j.Marked name f t c) (hstale : f.flags.ramMatches = false)
    (hin : f.flags.inGround = true) {m : Marks} (hwaits : m.temporary.isSome = true) :
    ((c.map Prod.fst).apply m).permanent = m.permanent ∧
      ((c.map Prod.fst).apply m).temporary = m.temporary.map (c.map Prod.fst).onWaiting := by
  obtain ⟨pair, hpair⟩ := Option.isSome_iff_exists.mp hwaits
  obtain ⟨permanent, temporary⟩ := m
  cases hpair
  cases hc with
  | promoted hram =>
    rw [hstale] at hram
    cases hram
  | parked snapshot _ _ hram =>
    rw [ScriptFile.entered_of_inGround hin, hstale] at hram
    cases hram
  | _ => exact ⟨rfl, rfl⟩

theorem parks_maps (h : j.Orderly) (hstale : j.session.workspace.ramMatches file = false) :
    ∃ f f', j.session.workspace.file? file = some f ∧
      (j.perform t).session.workspace.file? file = some f' ∧
      f'.marks.permanent = f.marks.permanent ∧ f'.marks.temporary = f.marks.temporary.map
        ((j.session.marking (j.action t) file f).map Prod.fst).onWaiting := by
  obtain ⟨f, hf, hold⟩ := ramMatches_eq_false.mp hstale
  obtain ⟨f', hf', hstep⟩ := (steps_perform h.tracks.named t).stepped_of_used hf
  obtain ⟨hin, hwaits⟩ := (h.tracks.tracked file f (seen?_of_file? hf)).parked hold
  have happly := (marked h.tracks.named t file f).apply_of_stale hold hin hwaits
  rw [← hstep.marks] at happly
  exact ⟨f, f', hf, hf', happly.1, happly.2⟩

theorem parks_saved (h : j.Orderly) {o : SaveOutcome} (ho : j.saved? t = some o)
    (hfile : o.file = file) : ∃ f', (j.perform t).session.workspace.file? file = some f' ∧
      f'.marks.temporary = some (.only o.view o.newMap) := by
  subst hfile
  obtain ⟨view, text, f, c, program, ssbs, exps, -, -, -, -, hafter⟩ := saved?_eq_some h.tracks.named ho
  refine ⟨_, hafter, ?_⟩
  rw [show (f.saved o program ssbs exps).marks = f.marks.supersede o.view o.newMap from
    f.recompiled_marks o.view program o.newMap o.hash]
  rfl

/-! ### Breakpoints -/

theorem parks_followed (hstale : j.session.workspace.ramMatches file = false) {o : SaveOutcome}
    (ho : j.finished? t = some o) (hfile : o.file = file) :
    (j.perform t).session.breakpoints.pendingOffsets? file =
      some (Reload.carried o (j.session.breakpoints.latestOffsets file)) := by
  subst hfile
  obtain ⟨rfl, rest, hfirst⟩ := finished?_eq_some ho
  rw [breakpoints_finish hfirst, Breakpoints.pending_resync, if_pos rfl, hstale,
    if_neg Bool.false_ne_true]

/-- A turn that does not set breakpoints of a stale file leaves those in use, and those that wait unless
they follow a save. -/
theorem parks_offsets (h : j.Orderly) (hstale : j.session.workspace.ramMatches file = false)
    (hdirect : ∀ offset, t ≠ .add file offset ∧ t ≠ .remove file offset) :
    (j.perform t).session.breakpoints.offsets file = j.session.breakpoints.offsets file ∧
      ((∀ o, j.finished? t = some o → o.file ≠ file) →
        (j.perform t).session.breakpoints.pendingOffsets? file =
          j.session.breakpoints.pendingOffsets? file) := by
  have hadjusted := adjusted h.tracks.named t file
  generalize (j.perform t).session.breakpoints = b at hadjusted
  cases hadjusted with
  | same _ hs => exact ⟨hs.offsets, fun _ => hs.pending⟩
  | followed hfirst hfile host =>
    refine ⟨?_, fun hother => absurd hfile (hother _ (by rw [finished?, hfirst]; rfl))⟩
    rw [Breakpoints.offsets_resync, hstale, if_neg (by simp)]
  | reloaded hready _ _ =>
    rw [canReload_of_stale hstale] at hready
    cases hready
  | added offset host => exact absurd rfl (hdirect offset).1
  | removed offset host => exact absurd rfl (hdirect offset).2
  | toggled view opcodes offset host hram =>
    rw [hstale] at hram
    cases hram

/-! ### Events -/

theorem Orderly.not_mem_answer (h : j.Orderly)
    (hstale : j.session.workspace.ramMatches file = false) {event : Event}
    (hevent : event ∈ j.session.workspace.host.events) :
    .fileReloaded file ∉ j.session.answer event := by
  intro hmem
  cases event with
  | reloadRequested name =>
    simp only [answer] at hmem
    split_ifs at hmem with hready
    · cases List.mem_singleton.mp hmem
      rw [canReload_of_stale hstale] at hready
      cases hready
    · cases hmem
  | fileReloaded name =>
    -- reports of reloads are made by polls only, and are never queued
    obtain ⟨_, heq, -⟩ := h.requests (.fileReloaded name) (List.mem_filter.mpr ⟨hevent, rfl⟩)
    cases heq
  | _ => cases List.mem_singleton.mp hmem

/-- A reload of a stale file is not carried out, so that the user is not told of one. -/
theorem parks_told (h : j.Orderly) (hstale : j.session.workspace.ramMatches file = false)
    (t : Turn) : ∃ more, (j.perform t).told = j.told ++ more ∧ .fileReloaded file ∉ more := by
  have hnothing : ∃ more, j.told = j.told ++ more ∧ .fileReloaded file ∉ more :=
    ⟨[], (List.append_nil _).symm, List.not_mem_nil⟩
  cases t with
  | take =>
    obtain hsame | ⟨event, rest, -, hqueue, htaken⟩ := take_cases j
    · rw [hsame]
      exact hnothing
    · rw [htaken]
      exact ⟨_, rfl, h.not_mem_answer hstale (by rw [hqueue]; exact List.mem_cons_self)⟩
  | act a =>
    simp only [perform]
    split_ifs <;> exact hnothing
  | finish =>
    simp only [perform]
    split <;> exact hnothing
  | _ => exact hnothing

/-! ### Runs -/

theorem parks_perform (h : j.Orderly) (hstale : j.session.workspace.ramMatches file = false)
    (hdirect : ∀ offset, t ≠ .add file offset ∧ t ≠ .remove file offset) : j.Parks file t := by
  obtain ⟨hoffsets, hothers⟩ := parks_offsets h hstale hdirect
  exact ⟨parks_maps h hstale, fun o => parks_saved h, hoffsets,
    fun o => parks_followed hstale, hothers, parks_told h hstale t⟩

/-- What is in use of a file is as it was, and toggling a line of it does nothing. -/
structure Guarded (j k : JointSession) (file : String) : Prop where
  maps : ∀ view, k.session.workspace.activeMap? file view = j.session.workspace.activeMap? file view
  offsets : k.session.breakpoints.offsets file = j.session.breakpoints.offsets file
  line : ∀ view line, k.session.toggleAtLine file view line = (none, k.session)
  inlinedLine : ∀ path line, k.session.toggleAtInlinedLine file path line = (none, k.session)
  told : ∃ more, k.told = j.told ++ more ∧ .fileReloaded file ∉ more

theorem toggleFirst_of_stale {s : Session} (h : s.workspace.ramMatches file = false) (view : View)
    (opcodes : SourceMap → List UInt32) : s.toggleFirst file view opcodes = (none, s) := by
  rw [toggleFirst, if_neg (Bool.eq_false_iff.mp h)]

theorem guarded_refl (h : j.session.workspace.ramMatches file = false) : j.Guarded j file :=
  ⟨fun _ => rfl, rfl, fun view _ => toggleFirst_of_stale h view _,
    fun _ _ => toggleFirst_of_stale h .exps _, [], (List.append_nil _).symm, List.not_mem_nil⟩

theorem Guarded.perform (h : j.Guarded k file) (ht : k.Parks file t)
    (hstale : (k.perform t).session.workspace.ramMatches file = false) :
    j.Guarded (k.perform t) file := by
  obtain ⟨f, f', hf, hf', hpermanent, -⟩ := ht.maps
  obtain ⟨before, hbefore, hno⟩ := h.told
  obtain ⟨more, hmore, hno'⟩ := ht.told
  refine ⟨fun view => ?_, ht.offsets.trans h.offsets, fun view _ => toggleFirst_of_stale hstale view _,
    fun _ _ => toggleFirst_of_stale hstale .exps _, before ++ more, ?_, ?_⟩
  · rw [← h.maps view, activeMap?, activeMap?, hf, hf', Option.bind_some, Option.bind_some, hpermanent]
  · rw [hmore, hbefore, List.append_assoc]
  · rw [List.mem_append, not_or]
    exact ⟨hno, hno'⟩

/-- As long as a file stays stale and none of its breakpoints is set directly, its maps and breakpoints
in use stay the same, its lines cannot be toggled, and it is not reloaded; every turn leaves the new
maps and breakpoints of the file waiting. -/
theorem guarded_of_stale (h : j.Reachable)
    (hstale : ∀ done, done <+: turns → (j.run done).session.workspace.ramMatches file = false)
    (hdirect : ∀ t ∈ turns, ∀ offset, t ≠ .add file offset ∧ t ≠ .remove file offset) :
    (∀ done, done <+: turns → j.Guarded (j.run done) file) ∧
      ∀ done t, done ++ [t] <+: turns → (j.run done).Parks file t := by
  have hnext : ∀ done t, done ++ [t] <+: turns → (j.run done).Parks file t := by
    intro done t hpre
    exact parks_perform (h.run done).orderly (hstale done ((List.prefix_append done [t]).trans hpre))
      (hdirect t (hpre.subset (List.mem_append_right _ (List.mem_singleton.mpr rfl))))
  refine ⟨fun done hdone => ?_, hnext⟩
  refine run_induction_along (P := fun k => j.Guarded k file)
    (guarded_refl (hstale [] List.nil_prefix)) ?_ done hdone
  intro done t hpre hbefore
  refine hbefore.perform (hnext done t hpre) ?_
  rw [← run_concat]
  exact hstale _ hpre

/-- A held script that was saved. -/
def staleScript : JointSession :=
  ({ session := sample } : JointSession).run [.act (.loadScript "enter.ssb"),
    .save .ssbs "enter.ssb" (waitText "6"), .finish]

/-- It is saved once more, its text is loaded, and the user takes an event. -/
def savedAgain : List Turn :=
  [.save .ssbs "enter.ssb" (waitText "7"), .finish, .act (.loadExps "enter.ssb" .decompile), .take]

theorem guarded_of_stale_sample :
    staleScript.Guarded (staleScript.run savedAgain) "enter.ssb" ∧
      staleScript.Parks "enter.ssb" (.save .ssbs "enter.ssb" (waitText "7")) := by
  have hstale : ∀ done ∈ savedAgain.inits,
      (staleScript.run done).session.workspace.ramMatches "enter.ssb" = false := by decide +kernel
  have hdirect : ∀ t ∈ savedAgain, ∀ offset,
      t ≠ .add "enter.ssb" offset ∧ t ≠ .remove "enter.ssb" offset := by
    simp [savedAgain]
  have hreachable : staleScript.Reachable := reachable_sample _
  obtain ⟨hguarded, hparks⟩ := guarded_of_stale hreachable
    (fun done hdone => hstale done ((List.mem_inits done savedAgain).mpr hdone)) hdirect
  have hfirst := hparks [] (.save .ssbs "enter.ssb" (waitText "7")) ⟨savedAgain.tail, rfl⟩
  rw [run_nil] at hfirst
  exact ⟨hguarded savedAgain (List.prefix_refl _), hfirst⟩

end JointSession

end SceneDebugger
