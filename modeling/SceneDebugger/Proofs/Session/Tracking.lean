import SceneDebugger.Proofs.Session.Steps

/-!
# SceneDebugger.Proofs.Session.Tracking — the flags of files against the places of the game

`ScriptFile.Tracked` ties the flags of a file to the hashes that the places of the game have recorded
for it.  Every step of a file keeps it, so that it holds of every file after every run.  It says what the
flags can be relied on for; what they miss is another matter (`SceneDebugger.Proofs.Session.Missing`).

* `ScriptFile.Tracked.stepped`, `Session.Reachable.tracks`: one step, and every run.
-/

namespace SceneDebugger

/-! ### A file and the places that hold it -/

/-- What the flags of a file say, given the hashes recorded for it in the places of the game. -/
structure ScriptFile.Tracked (f : ScriptFile) (hashes : Set String) : Prop where
  /-- A file that is flagged as held is in some place. -/
  held : f.flags.inGround = true → hashes.Nonempty
  /-- Breakpoints are off only while the file is stale. -/
  off : f.flags.breakpointsOff = true → f.flags.ramMatches = false
  /-- Only a held file is stale, and maps of it wait. -/
  parked : f.flags.ramMatches = false → f.flags.inGround = true ∧ f.marks.temporary.isSome = true

namespace ScriptFile

variable {f f' : ScriptFile} {hashes hashes' : Set String}

theorem tracked_new (name : String) (program : Program) (hash : String) (hashes : Set String) :
    ({ name, program, hash } : ScriptFile).Tracked hashes := by
  refine ⟨?_, ?_, ?_⟩ <;> simp

theorem tracked_left (f : ScriptFile) (hashes : Set String) : f.left.Tracked hashes := by
  refine ⟨?_, ?_, ?_⟩ <;> simp [left, inGround, fresh]

/-- A change that leaves alone what the flags of the game depend on. -/
theorem Tracked.of_eq (h : f.Tracked hashes) (hground : f'.flags.inGround = f.flags.inGround)
    (hram : f'.flags.ramMatches = f.flags.ramMatches)
    (hoff : f'.flags.breakpointsOff = true → f'.flags.ramMatches = false)
    (hwaits : f.flags.ramMatches = false → f.marks.temporary.isSome = true →
      f'.marks.temporary.isSome = true) : f'.Tracked hashes := by
  refine ⟨fun hin => h.held (hground.symm.trans hin), hoff, fun hstale => ?_⟩
  rw [hram] at hstale
  obtain ⟨hin, hsome⟩ := h.parked hstale
  exact ⟨hground.trans hin, hwaits hstale hsome⟩

/-! ### What the game does -/

theorem Tracked.released (h : f.Tracked hashes) (hr : f.Released hashes f' hashes') :
    f'.Tracked hashes' := by
  cases hr with
  | held _ hsome => exact ⟨fun hin => hsome (h.held hin), h.off, h.parked⟩
  | left => exact tracked_left f ∅

theorem Tracked.entered (h : f.Tracked hashes) (hsome : hashes'.Nonempty) :
    f.entered.Tracked hashes' := by
  cases hin : f.flags.inGround with
  | true =>
    rw [entered_of_inGround hin]
    exact ⟨fun _ => hsome, h.off, h.parked⟩
  | false =>
    have hram : f.entered.flags.ramMatches = true := by simp [entered_ramMatches, hin]
    have hoff : f.entered.flags.breakpointsOff = false := by simp [entered_breakpointsOff, hin]
    refine ⟨fun _ => hsome, ?_, ?_⟩
    · simp [hoff]
    · simp [hram]

/-- A file that a save state has other bytes of is stale, and the maps in use have to wait. -/
theorem Tracked.restored (h : f.Tracked hashes) (hsome : hashes'.Nonempty) :
    f.entered.restored.Tracked hashes' := by
  refine ⟨fun _ => hsome, fun _ => rfl, fun _ => ⟨entered_inGround f, ?_⟩⟩
  cases hram : f.entered.flags.ramMatches with
  | true => simp [ScriptFile.restored, hram, Marks.park]
  | false =>
    have hstale : f.flags.ramMatches = false := by
      rw [entered_ramMatches, Bool.or_eq_false_iff] at hram
      exact hram.2
    simpa [ScriptFile.restored, hram] using (h.parked hstale).2

theorem Tracked.filled {c : Marking StampedMap} (h : f.Tracked hashes)
    (hf : f.Filled hashes f' hashes' c) : f'.Tracked hashes' := by
  cases hf with
  | entered _ hmem => exact h.entered ⟨_, hmem⟩
  | restored hmem _ => exact h.restored ⟨_, hmem⟩

/-! ### What the user does -/

/-- A map that becomes known is not one more compilation. -/
theorem isSome_record {M : Type} (m : Marks M) (view : View) (map : M) :
    (m.record view map).temporary.isSome = m.temporary.isSome := by
  unfold Marks.record
  split
  · next h => rw [h]; rfl
  · next h => rw [h]

theorem Tracked.closed (h : f.Tracked hashes) : (Workspace.closed f).Tracked hashes := by
  refine h.of_eq rfl rfl (fun hoff => ?_) fun _ => id
  simp only [Workspace.closed, Bool.or_eq_true, Bool.not_eq_true'] at hoff
  obtain hstale | hoff := hoff
  · exact hstale
  · exact h.off hoff

/-- A save makes a file stale that is flagged as held. -/
theorem Tracked.saved (h : f.Tracked hashes) (o : SaveOutcome) (program : Program)
    (ssbs : Option SsbsText) (exps : Option ExpsText) :
    (f.saved o program ssbs exps).Tracked hashes := by
  have hin : (f.saved o program ssbs exps).flags.inGround = f.flags.inGround :=
    f.recompiled_inGround o.view program o.newMap o.hash
  have hram : (f.saved o program ssbs exps).flags.ramMatches =
      (!f.flags.inGround && f.flags.ramMatches) :=
    f.recompiled_ramMatches o.view program o.newMap o.hash
  refine ⟨fun hheld => h.held (hin.symm.trans hheld), fun hoff => ?_, fun hstale => ?_⟩
  · have hbefore : f.flags.breakpointsOff = true :=
      (f.recompiled_breakpointsOff o.view program o.newMap o.hash).symm.trans hoff
    rw [hram, h.off hbefore, Bool.and_false]
  · rw [hram, Bool.and_eq_false_iff, Bool.not_eq_false'] at hstale
    refine ⟨hin.trans (hstale.elim id fun hbefore => (h.parked hbefore).1), ?_⟩
    rw [show (f.saved o program ssbs exps).marks = f.marks.supersede o.view o.newMap from
      f.recompiled_marks o.view program o.newMap o.hash]
    rfl

theorem Tracked.edited {c : Marking StampedMap} (h : f.Tracked hashes) (he : f.Edited f' c) :
    f'.Tracked hashes := by
  cases he with
  | same => exact h
  | opened => exact h.of_eq rfl rfl h.off fun _ => id
  | closed => exact h.closed
  | loadedSsbs text => exact h.of_eq rfl rfl h.off fun _ => (isSome_record _ _ _).trans
  | loadedExps text => exact h.of_eq rfl rfl h.off fun _ => (isSome_record _ _ _).trans
  | saved o program ssbs exps _ => exact h.saved o program ssbs exps
  | reloaded hram =>
    exact h.of_eq rfl rfl h.off fun hstale => by rw [hram] at hstale; cases hstale

theorem Tracked.stepped {fills : Prop} {c : Marking StampedMap} (h : f.Tracked hashes)
    (hs : f.Stepped hashes fills f' hashes' c) : f'.Tracked hashes' := by
  cases hs with
  | edited _ he => exact h.edited he
  | released _ hr => exact h.released hr
  | filled _ hf => exact h.filled hf

end ScriptFile

/-! ### Runs -/

namespace Session

variable {s : Session} {name : String} {f : ScriptFile}

/-- Every file that anyone can get is tracked. -/
structure Tracks (s : Session) : Prop where
  named : s.workspace.Named
  tracked : ∀ name f, s.workspace.seen? name = some f → f.Tracked (s.ground.hashes name)

/-- A file that is not in use is new, and its flags say nothing. -/
theorem tracks_of_used (hnamed : s.workspace.Named) (h : ∀ name f,
    s.workspace.file? name = some f → f.Tracked (s.ground.hashes name)) : s.Tracks := by
  refine ⟨hnamed, fun name f hf => ?_⟩
  cases hused : s.workspace.file? name with
  | none =>
    obtain ⟨program, hash, rfl⟩ := Workspace.eq_of_seen?_of_absent hused hf
    exact ScriptFile.tracked_new name program hash _
  | some g =>
    rw [Workspace.seen?_of_file? hused] at hf
    cases hf
    exact h name f hused

theorem Fresh.absent (h : s.Fresh) (name : String) : s.workspace.file? name = none := by
  rw [Workspace.file?, h.files]
  simp

theorem Fresh.tracks (h : s.Fresh) : s.Tracks := by
  refine tracks_of_used (fun name f hf => ?_) fun name f hf => ?_ <;>
  · rw [h.absent name] at hf
    cases hf

theorem Steps.tracks {t : Session} {a : Action} (hsteps : s.Steps t a) (h : s.Tracks) :
    t.Tracks := by
  refine tracks_of_used hsteps.named fun name f' hf' => ?_
  obtain ⟨f, hf, hstep⟩ := hsteps.stepped name f' hf'
  exact (h.tracked name f hf).stepped hstep

theorem tracks_perform (s : Session) (a : Action) (h : s.Tracks) : (s.perform a).Tracks :=
  (steps_perform h.named a).tracks h

theorem Reachable.tracks (h : s.Reachable) : s.Tracks :=
  h.induction (fun _ hfresh => hfresh.tracks) tracks_perform

theorem Reachable.tracked (h : s.Reachable) (hf : s.workspace.file? name = some f) :
    f.Tracked (s.ground.hashes name) :=
  h.tracks.tracked name f (Workspace.seen?_of_file? hf)

end Session

end SceneDebugger
