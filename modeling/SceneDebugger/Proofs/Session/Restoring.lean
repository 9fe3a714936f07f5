import SceneDebugger.Proofs.Session.Tracking

/-!
# SceneDebugger.Proofs.Session.Restoring — what a save state does to the flags of files

Loading a save state reports the files of which it has other bytes than the ROM, and makes them stale.
It does not look at whether a file was stale before: a file that the game held all along stays stale,
also when the save state has the bytes of the ROM again.

* `ScriptFile.Tracked.afterRestore_stale`, `ScriptFile.Tracked.afterRestore_off`: the flags of one file.
* `Session.restoresExactly_iff`: the flags say what the save state has exactly if no held file stays
  stale in this way.
-/

namespace SceneDebugger

/-! ### One file -/

namespace ScriptFile

variable {f : ScriptFile} {hashes : Set String} {name : String} {scripts : List LoadedScript}

/-- A file that a save state has is stale if some of its scripts differ, or if it was stale before. -/
theorem Tracked.afterRestore_stale (h : f.Tracked hashes)
    (hheld : scripts.any (fun s => s.file == name) = true) :
    (f.afterRestore name scripts).flags.ramMatches = false ↔
      f.differsIn name scripts = true ∨ f.flags.ramMatches = false := by
  rw [ScriptFile.afterRestore, if_pos hheld]
  cases hd : f.differsIn name scripts with
  | true => simp [ScriptFile.restored]
  | false =>
    simp only [Bool.false_eq_true, if_false, false_or, entered_ramMatches, Bool.or_eq_false_iff,
      Bool.not_eq_false']
    exact ⟨fun hboth => hboth.2, fun hstale => ⟨(h.parked hstale).1, hstale⟩⟩

/-- Its breakpoints are off then, or if they were off before. -/
theorem Tracked.afterRestore_off (h : f.Tracked hashes)
    (hheld : scripts.any (fun s => s.file == name) = true) :
    (f.afterRestore name scripts).flags.breakpointsOff = true ↔
      f.differsIn name scripts = true ∨ f.flags.breakpointsOff = true := by
  rw [ScriptFile.afterRestore, if_pos hheld]
  cases hd : f.differsIn name scripts with
  | true => simp [ScriptFile.restored]
  | false =>
    simp only [Bool.false_eq_true, if_false, false_or, entered_breakpointsOff, Bool.and_eq_true]
    exact ⟨fun hboth => hboth.2, fun hoff => ⟨(h.parked (h.off hoff)).1, hoff⟩⟩

end ScriptFile

/-! ### All files -/

namespace Session

variable {s : Session} {name : String} {f : ScriptFile}

/-- The files that a save state is reported to have in an older version. -/
def reported (s : Session) (snapshot : GroundSnapshot) : List String :=
  (s.ground.restore s.workspace snapshot).1

/-- Some place has bytes of the file that are not the ROM's. -/
def Differs (s : Session) (f : ScriptFile) : Prop := ∃ hash ∈ s.ground.hashes f.name, hash ≠ f.hash

/-- Whoever loads a save state can rely on the report and on the flags alike: they tell of a held file
whether the save state has other bytes of it than the ROM. -/
structure RestoresExactly (s : Session) (snapshot : GroundSnapshot) : Prop where
  nodup : (s.reported snapshot).Nodup
  exact : ∀ name f, (s.perform (.restore snapshot)).workspace.file? name = some f →
    (s.perform (.restore snapshot)).ground.holds name = true →
    (name ∈ s.reported snapshot ↔ (s.perform (.restore snapshot)).Differs f) ∧
    ((s.perform (.restore snapshot)).Differs f ↔ f.flags.ramMatches = false) ∧
    (f.flags.ramMatches = false ↔ f.flags.breakpointsOff = true)

theorem differs_iff_differsIn (snapshot : GroundSnapshot) (hname : f.name = name) :
    (s.perform (.restore snapshot)).Differs f ↔
      f.differsIn name (Ground.ofSnapshot snapshot).loaded = true := by
  subst hname
  rw [ScriptFile.differsIn_iff]
  constructor
  · rintro ⟨hash, hh, hne⟩
    exact ⟨⟨f.name, hash⟩, Ground.mem_hashes_iff_mem_loaded.mp hh, rfl, hne⟩
  · rintro ⟨script, hs, hfile, hne⟩
    refine ⟨script.hash, Ground.mem_hashes_iff_mem_loaded.mpr ?_, hne⟩
    rw [← hfile]
    exact hs

/-- A save state changes no bytes in the ROM. -/
theorem restore_seen (h : s.Tracks) (snapshot : GroundSnapshot) (hf : s.workspace.seen? name = some f) :
    ∃ after, (s.perform (.restore snapshot)).workspace.seen? name = some after ∧
      after.hash = f.hash := by
  have hseen := (Ground.changes_restore s.ground h.named snapshot).seen name
  rw [hf, Option.map_some] at hseen
  refine ⟨_, hseen, ?_⟩
  rw [ScriptFile.afterRestore_hash]
  split_ifs <;> rfl

/-- What a save state leaves of a file that it has: the bytes in the ROM are the same, the report
names it if they differ, and the flags add this to what they said before. -/
theorem restore_held (h : s.Tracks) (snapshot : GroundSnapshot)
    (hf : (s.perform (.restore snapshot)).workspace.seen? name = some f)
    (hheld : (s.perform (.restore snapshot)).ground.holds name = true) :
    ∃ before, s.workspace.seen? name = some before ∧ before.hash = f.hash ∧
      (name ∈ s.reported snapshot ↔ (s.perform (.restore snapshot)).Differs f) ∧
      (f.flags.ramMatches = false ↔
        (s.perform (.restore snapshot)).Differs f ∨ before.flags.ramMatches = false) ∧
      (f.flags.breakpointsOff = true ↔
        (s.perform (.restore snapshot)).Differs f ∨ before.flags.breakpointsOff = true) := by
  have hafter := (tracks_perform s (.restore snapshot) h).named
  have hseen := (Ground.changes_restore s.ground h.named snapshot).seen name
  have hname : f.name = name := Workspace.name_of_seen? hafter hf
  have hkept : ¬ (name ∈ s.ground.files ∧ (Ground.ofSnapshot snapshot).holds name = false) := by
    rintro ⟨-, hfalse⟩
    rw [show (Ground.ofSnapshot snapshot).holds name = true from hheld] at hfalse
    cases hfalse
  rw [show (s.ground.restore s.workspace snapshot).2.2.seen? name = some f from hf] at hseen
  obtain ⟨before, hbefore, rfl⟩ := Option.map_eq_some_iff.mp hseen.symm
  rw [if_neg hkept] at hname ⊢
  have htracked : before.Tracked (s.ground.hashes name) := h.tracked name before hbefore
  have hhash := ScriptFile.afterRestore_hash before name (Ground.ofSnapshot snapshot).loaded
  have hany : (Ground.ofSnapshot snapshot).loaded.any (fun script => script.file == name) = true := by
    obtain ⟨hash, hh⟩ := Ground.holds_iff.mp hheld
    exact List.any_eq_true.mpr ⟨_, Ground.mem_hashes_iff_mem_loaded.mp hh, by simp⟩
  have hdiffers : (s.perform (.restore snapshot)).Differs
      (before.afterRestore name (Ground.ofSnapshot snapshot).loaded) ↔
        before.differsIn name (Ground.ofSnapshot snapshot).loaded = true := by
    rw [differs_iff_differsIn snapshot hname, ScriptFile.differsIn, ScriptFile.differsIn, hhash]
  refine ⟨before, hbefore, hhash.symm, ?_, ?_, ?_⟩
  · rw [hdiffers, reported, Ground.mem_restore s.ground h.named]
    simp [hbefore]
  · rw [hdiffers, htracked.afterRestore_stale hany]
  · rw [hdiffers, htracked.afterRestore_off hany]

/-- After every run, loading a save state is exact if and only if it has other bytes than the ROM of
every file in it that is stale already. -/
theorem restoresExactly_iff (h : s.Reachable) (snapshot : GroundSnapshot) :
    s.RestoresExactly snapshot ↔
      ∀ name f, s.workspace.file? name = some f → f.flags.ramMatches = false →
        (Ground.ofSnapshot snapshot).holds name = true →
        ∃ hash ∈ (Ground.ofSnapshot snapshot).hashes name, hash ≠ f.hash := by
  have htracks : s.Tracks := h.tracks
  have hafter : (s.perform (.restore snapshot)).Tracks := tracks_perform s _ htracks
  constructor
  · intro hexact name f hf hstale hheld
    obtain ⟨after, hseen, hhash⟩ := restore_seen htracks snapshot (Workspace.seen?_of_file? hf)
    obtain ⟨before, hbefore, -, -, hflag, -⟩ := restore_held htracks snapshot hseen hheld
    rw [Workspace.seen?_of_file? hf] at hbefore
    cases hbefore
    have hstale' : after.flags.ramMatches = false := hflag.mpr (.inr hstale)
    have hin := Workspace.file?_of_stale hseen hstale'
    obtain ⟨hash, hh, hne⟩ := (hexact.exact name after hin hheld).2.1.mpr hstale'
    rw [hafter.named name after hin] at hh
    rw [hhash] at hne
    exact ⟨hash, hh, hne⟩
  · intro hold
    refine ⟨Ground.nodup_restore s.ground s.workspace snapshot, fun name f hf hheld => ?_⟩
    obtain ⟨before, hbefore, hhash, hreport, hflag, hoff⟩ :=
      restore_held htracks snapshot (Workspace.seen?_of_file? hf) hheld
    -- what was stale before differs, so that the flags add nothing to the report
    have hdiffers : before.flags.ramMatches = false → (s.perform (.restore snapshot)).Differs f := by
      intro hstale
      obtain ⟨hash, hh, hne⟩ :=
        hold name before (Workspace.file?_of_stale hbefore hstale) hstale hheld
      refine ⟨hash, ?_, hhash ▸ hne⟩
      rw [hafter.named name f hf]
      exact hh
    have hstale : (s.perform (.restore snapshot)).Differs f ↔ f.flags.ramMatches = false := by
      rw [hflag]
      exact ⟨.inl, fun hor => hor.elim id hdiffers⟩
    refine ⟨hreport, hstale, ?_⟩
    rw [← hstale, hoff]
    refine ⟨.inl, fun hor => hor.elim id fun hbefore' => ?_⟩
    exact hdiffers ((htracks.tracked name before hbefore).off hbefore')

/-- A save state with older bytes of a stale script is restored exactly. -/
theorem restoresExactly_sample :
    (sample.run [.loadScript "enter.ssb", .saveSsbs "enter.ssb" (waitText "6")]).RestoresExactly
      { scripts := [some ⟨"enter.ssb", "older"⟩] } := by
  refine (restoresExactly_iff (reachable_sample _) _).mpr fun name f hf _ hheld => ?_
  have hname : name = "enter.ssb" := by
    obtain ⟨hash, hanger, hs⟩ := Ground.holds_iff.mp hheld
    rw [Ground.scriptIn?_ofSnapshot] at hs
    split_ifs at hs
    cases hanger with
    | zero => exact (congrArg LoadedScript.file (Option.some.inj hs)).symm
    | succ n => cases hs
  have hhash : ((sample.run [.loadScript "enter.ssb", .saveSsbs "enter.ssb" (waitText "6")]
      ).workspace.file? "enter.ssb").all (fun f => f.hash != "older") = true := by decide +kernel
  rw [hname] at hf ⊢
  rw [hf] at hhash
  refine ⟨"older", ⟨0, rfl⟩, fun heq => ?_⟩
  rw [Option.all_some, ← heq] at hhash
  cases hhash

/-- A script that is held, saved and saved back to what it was; and a save state from before. -/
def savedBack : Session :=
  sample.run [.loadScript "enter.ssb", .saveSsbs "enter.ssb" (waitText "6"),
    .saveSsbs "enter.ssb" (waitText "5")]

/-- The save state has the bytes of the ROM and the report is empty, but the script stays stale. -/
theorem savedBack_stale :
    savedBack.Reachable ∧
      ¬ savedBack.RestoresExactly (sample.run [.loadScript "enter.ssb"]).ground.snapshot := by
  refine ⟨reachable_sample _, fun hexact => ?_⟩
  set snapshot := (sample.run [.loadScript "enter.ssb"]).ground.snapshot with hsnapshot
  have hafter : ((savedBack.perform (.restore snapshot)).workspace.file? "enter.ssb").map
        (fun f => f.flags.ramMatches) = some false ∧
      (savedBack.perform (.restore snapshot)).ground.holds "enter.ssb" = true ∧
      savedBack.reported snapshot = [] := by
    rw [hsnapshot]
    decide +kernel
  obtain ⟨hflag, hheld, hreport⟩ := hafter
  obtain ⟨f, hf, hstale⟩ := Option.map_eq_some_iff.mp hflag
  obtain ⟨hlisted, hdiffers, -⟩ := hexact.exact "enter.ssb" f hf hheld
  have hmem := hlisted.mpr (hdiffers.mpr hstale)
  rw [hreport] at hmem
  cases hmem

end Session

end SceneDebugger
