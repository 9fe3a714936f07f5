import SceneDebugger.Proofs.Session.Joint
import SceneDebugger.Proofs.Workspace.Undone

/-!
# SceneDebugger.Proofs.Session.FailedSaves — failed saves are undone, but for the bytes in the ROM

A save that fails leaves the session as it was: files in use, breakpoints, the project, its include
index and the queue.  The same goes for a script that cannot be compiled anew when a shared file is
saved.  Only where the bytes of the script were written and the ROM could not be saved afterwards do
they stay in the ROM.

* `Session.Reverts`: a session is as before, but for what a failed save leaves behind.
* `Session.Recompiles`: one script of those that a saved shared file makes the session compile anew.
* `Session.failedSave_reverts_iff`: failed saves.
-/

namespace SceneDebugger

open Workspace

/-! ### Breakpoints of other scripts -/

namespace Breakpoints

variable {b b' b'' : Breakpoints} {k : String}

theorem SameOf.refl (b : Breakpoints) (k : String) : b.SameOf b k := ⟨rfl, rfl⟩

theorem SameOf.trans (h : b.SameOf b' k) (h' : b'.SameOf b'' k) : b.SameOf b'' k :=
  ⟨h'.offsets.trans h.offsets, h'.pending.trans h.pending⟩

end Breakpoints

namespace Session

variable {s t : Session} {k : String}

theorem sameOf_finishSave (s : Session) {o : SaveOutcome} (hk : k ≠ o.file) :
    s.breakpoints.SameOf (s.finishSave o).breakpoints k := by
  rw [finishSave_breakpoints]
  refine ⟨?_, ?_⟩
  · rw [Breakpoints.offsets_resync, if_neg fun h => hk h.1]
  · rw [Breakpoints.pending_resync, if_neg hk]

theorem sameOf_finishSaves (outcomes : List SaveOutcome) (s : Session)
    (hk : ∀ o ∈ outcomes, k ≠ o.file) :
    s.breakpoints.SameOf (outcomes.foldl finishSave s).breakpoints k := by
  induction outcomes generalizing s with
  | nil => exact .refl s.breakpoints k
  | cons o rest ih =>
    obtain ⟨ho, hrest⟩ := List.forall_mem_cons.mp hk
    exact (sameOf_finishSave s ho).trans (ih (s.finishSave o) hrest)

theorem Aside.sameOf (h : s.Aside t) (k : String) : s.breakpoints.SameOf t.breakpoints k := by
  refine ⟨?_, ?_⟩
  · rw [Breakpoints.offsets, h.primary, Breakpoints.offsets]
  · rw [Breakpoints.pendingOffsets?, h.pending, Breakpoints.pendingOffsets?]

theorem mem_recompiled {outcomes : List MacroOutcome} {o : SaveOutcome} :
    o ∈ recompiled outcomes ↔ .recompiled o ∈ outcomes := by
  rw [recompiled, List.mem_filterMap]
  constructor
  · rintro ⟨outcome, hmem, ho⟩
    cases outcome with
    | recompiled o' =>
      cases ho
      exact hmem
    | skippedStale file => cases ho
    | failed file error => cases ho
  · exact fun hmem => ⟨_, hmem, rfl⟩

/-! ### Failed saves -/

/-- The session is as before, but for what a failed save of the file leaves in the workspace. -/
structure Reverts (s t : Session) (file : String) (strands : Prop) : Prop where
  rest : { t with workspace := s.workspace } = s
  workspace : s.workspace.Fails t.workspace file strands

theorem reverts_onWorkspace {α : Type} {act : Workspace → Except Error α × Workspace} {file : String}
    {strands : Prop} {e : Error} (h : s.onWorkspace act = (.error e, t))
    (hfails : ∀ w, act s.workspace = (.error e, w) → s.workspace.Fails w file strands) :
    s.Reverts t file strands := by
  obtain ⟨hanswer, ht⟩ := Prod.mk.inj h
  subst ht
  exact ⟨rfl, hfails _ (Prod.ext hanswer rfl)⟩

theorem finishing_error {saved : Except Error SaveOutcome × Session} {e : Error}
    (h : finishing saved = (.error e, t)) : saved = (.error e, t) := by
  unfold finishing at h
  split at h
  · cases h
  · exact h

/-- The workspaces before and after a script is compiled anew in saving a shared file. -/
def Recompiles (s : Session) (path : Path) (text file : String) (v v' : Workspace) : Prop :=
  ∃ disk before after, Project.saveMacro s.workspace.host.disk path text = (.ok (), disk) ∧
    s.workspace.project.dependents path = before ++ file :: after ∧
    v = (recompileAll path before (s.workspace.withDisk disk)).2 ∧
    v' = (v.tryRecompile path file).2

theorem nodup_dependents (p : Project) (path : Path) : (p.dependents path).Nodup := by
  unfold Project.dependents
  cases p.usage.at? path with
  | none => exact List.nodup_nil
  | some users =>
    refine users.distinct_toList.imp fun hne heq => hne ?_
    exact Std.compare_eq_iff_eq.mpr heq

/-- A shared file that was saved: the scripts were compiled anew, and what follows concerns no script
that was not. -/
theorem saveMacro_ok {path : Path} {text : String} {outcomes : List MacroOutcome}
    (h : s.saveMacro path text = (.ok outcomes, t)) : ∃ disk w,
      Project.saveMacro s.workspace.host.disk path text = (.ok (), disk) ∧
      recompileAll path (s.workspace.project.dependents path) (s.workspace.withDisk disk) =
        (outcomes, w) ∧
      ((recompiled outcomes).foldl finishSave { s with workspace := w }).Aside t := by
  unfold saveMacro onWorkspace Workspace.saveMacro at h
  cases hwrite : Project.saveMacro s.workspace.host.disk path text with
  | mk answer disk =>
    simp only [hwrite] at h
    cases answer with
    | error e => cases h
    | ok _ =>
      cases hall : recompileAll path (s.workspace.project.dependents path)
          (s.workspace.withDisk disk) with
      | mk outcomes' w =>
        simp only [hall] at h
        cases h
        refine ⟨disk, w, rfl, hall, ?_⟩
        rw [← finishMacroSave_eq]
        exact List.foldlRecOn _ _ (.refl _) fun u hu outcome _ =>
          hu.trans (aside_reportFailed path u outcome)

/-- What is left of a script that could not be compiled anew in saving a shared file. -/
theorem fails_saveMacro {path : Path} {text file reason : String} {outcomes : List MacroOutcome}
    (hw : s.workspace.Named) (h : s.saveMacro path text = (.ok outcomes, t))
    (hfailed : .failed file reason ∈ outcomes) :
    ∃ v v', s.Recompiles path text file v v' ∧ v.Fails v' file (v.StrandsRecompilation file) ∧
      s.workspace.Spares v file ∧ v'.Spares t.workspace file ∧
      s.breakpoints.SameOf t.breakpoints file := by
  obtain ⟨disk, w, hwrite, hall, haside⟩ := saveMacro_ok h
  have hdisk := beside_withDisk s.workspace disk
  have hfailed' : .failed file reason ∈ (recompileAll path (s.workspace.project.dependents path)
      (s.workspace.withDisk disk)).1 := by
    rw [hall]
    exact hfailed
  obtain ⟨before, after, hnames, v, u, hv, hturn, hbefore, hafter, hnone⟩ :=
    failed_of_recompileAll (hdisk.alike hw).named (nodup_dependents _ path) hfailed'
  rw [hall] at hafter hnone
  have hu : u = (v.tryRecompile path file).2 := by rw [hturn]
  have hfollow : Beside { s with workspace := w }
      ((recompiled outcomes).foldl finishSave { s with workspace := w }) :=
    List.foldlRecOn _ _ (.refl _) fun t ht o _ => ht.trans (JointSession.beside_finishSave t o)
  refine ⟨v, u, ⟨disk, before, after, hwrite, hnames, hv, hu⟩, (fails_tryRecompile hturn).2,
    (hdisk.outside.spares file).trans hbefore,
    hafter.trans ((hfollow.trans haside.beside).workspace.spares file), ?_⟩
  -- only the breakpoints of scripts that were compiled anew follow
  refine (sameOf_finishSaves (recompiled outcomes) { s with workspace := w } fun o ho => ?_).trans
    (haside.sameOf file)
  exact (hnone o (mem_recompiled.mp ho)).symm

/-- Whatever a failed save reports, all is as before, save that the ROM keeps bytes that were written to
it and could not be saved. -/
theorem failedSave_reverts_iff (s : Session) :
    (∀ file text e t, s.saveSsbs file text = (.error e, t) →
      s.Reverts t file (s.workspace.StrandsSave .ssbs file text)) ∧
    (∀ file text e t, s.saveExps file text = (.error e, t) →
      s.Reverts t file (s.workspace.StrandsSave .exps file text)) ∧
    ∀ path text outcomes t, s.workspace.Named → s.saveMacro path text = (.ok outcomes, t) →
      ∀ file reason, .failed file reason ∈ outcomes →
        ∃ v v', s.Recompiles path text file v v' ∧ v.Fails v' file (v.StrandsRecompilation file) ∧
          s.workspace.Spares v file ∧ v'.Spares t.workspace file ∧
          s.breakpoints.SameOf t.breakpoints file := by
  refine ⟨fun file text e t h => ?_, fun file text e t h => ?_, ?_⟩
  · exact reverts_onWorkspace (finishing_error h) fun w => fails_saveSsbs
  · exact reverts_onWorkspace (finishing_error h) fun w => fails_saveExps
  · exact fun path text outcomes t hw h file reason => fails_saveMacro hw h

/-- A file that scripts can call. -/
def calledFile : Path := ⟨"proj/Macros/Camera.exps"⟩

/-- A shared file saved, and then a script that calls it. -/
def withCall (s : Session) : Session :=
  ((s.saveMacro calledFile "Wait 5").2.saveExps "enter.ssb" "routine Actor\ncall Camera").2

theorem operated_withCall (s : Session) : s.Operated s.withCall :=
  .trans (.saveMacro s calledFile "Wait 5") (.saveExps _ "enter.ssb" _)

/-- A session with a script that calls a shared file. -/
def sharing : Session := sample.withCall

theorem reachable_sharing : sharing.Reachable := (operated_withCall sample).reachable fresh_sample

/-- The script could not be compiled anew. -/
def lost (file : String) : MacroOutcome → Bool
  | .failed failed _ => failed == file
  | _ => false

theorem failedSave_reverts_sample :
    (∃ e t, sharing.saveSsbs "enter.ssb" "Wait x" = (.error e, t) ∧
      sharing.Reverts t "enter.ssb" (sharing.workspace.StrandsSave .ssbs "enter.ssb" "Wait x")) ∧
    (∃ e t, sharing.saveExps "enter.ssb" "call Nobody" = (.error e, t) ∧
      sharing.Reverts t "enter.ssb" (sharing.workspace.StrandsSave .exps "enter.ssb" "call Nobody")) ∧
    ∃ v v', sharing.Recompiles calledFile "call Camera" "enter.ssb" v v' ∧
      v.Fails v' "enter.ssb" (v.StrandsRecompilation "enter.ssb") := by
  have hrun : (sharing.saveSsbs "enter.ssb" "Wait x").1.toOption.isNone = true ∧
      (sharing.saveExps "enter.ssb" "call Nobody").1.toOption.isNone = true ∧
      (sharing.saveMacro calledFile "call Camera").1.toOption.any
        (fun outcomes => outcomes.any (lost "enter.ssb")) = true := by
    decide +kernel
  obtain ⟨hssbs, hexps, hmacro⟩ := hrun
  obtain ⟨ofSsbs, ofExps, ofMacro⟩ := failedSave_reverts_iff sharing
  refine ⟨?_, ?_, ?_⟩
  · generalize hsave : sharing.saveSsbs "enter.ssb" "Wait x" = saved at hssbs
    obtain ⟨answer, t⟩ := saved
    cases answer with
    | error e => exact ⟨e, t, rfl, ofSsbs _ _ _ _ hsave⟩
    | ok o => cases hssbs
  · generalize hsave : sharing.saveExps "enter.ssb" "call Nobody" = saved at hexps
    obtain ⟨answer, t⟩ := saved
    cases answer with
    | error e => exact ⟨e, t, rfl, ofExps _ _ _ _ hsave⟩
    | ok o => cases hexps
  · generalize hsave : sharing.saveMacro calledFile "call Camera" = saved at hmacro
    obtain ⟨answer, t⟩ := saved
    cases answer with
    | error e => cases hmacro
    | ok outcomes =>
      obtain ⟨outcome, hmem, hlost⟩ := List.any_eq_true.mp hmacro
      cases outcome with
      | failed file reason =>
        cases eq_of_beq hlost
        obtain ⟨v, v', hturn, hfails, -⟩ := ofMacro _ _ _ _ reachable_sharing.tracks.named hsave _ _ hmem
        exact ⟨v, v', hturn, hfails⟩
      | recompiled o => cases hlost
      | skippedStale file => cases hlost

/-- A session whose ROM can be written, but not saved. -/
def unsavable : Session :=
  { sample with workspace := { sample.workspace with
      rom := { sample.workspace.rom with saveFails := true } } }

/-- The save fails, and the ROM has other bytes. -/
theorem unsavable_keeps : (unsavable.saveSsbs "enter.ssb" (waitText "6")).1.toOption.isNone = true ∧
    (unsavable.saveSsbs "enter.ssb" (waitText "6")).2.workspace.rom.files["enter.ssb"]? ≠
      unsavable.workspace.rom.files["enter.ssb"]? := by
  decide +kernel

end Session

end SceneDebugger
