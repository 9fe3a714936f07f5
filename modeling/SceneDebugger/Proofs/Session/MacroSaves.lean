import Mathlib.Data.List.Nodup
import SceneDebugger.Proofs.Session.Dependents
import SceneDebugger.Proofs.Workspace.Recompiling

/-!
# SceneDebugger.Proofs.Session.MacroSaves — a saved shared file reaches every script that calls it

A shared file is written, and the scripts that the include index has for it get their turns.  The index
follows the texts that were compiled last, and a turn concerns one script only.  So what becomes of a
script is told by the project as it was before, whatever becomes of the others.

* `Session.Resynced`: the breakpoints of a saved script have followed.
* `Session.Reached`: what becomes of one script.
* `Session.saveMacro_reaches`: what becomes of all of them, and which they are.
-/

namespace SceneDebugger

open Disk Workspace

namespace Filing

variable {history : List Filing} {file : String} {path : Path}

/-- A script whose text calls something was put into the project. -/
theorem exists_of_called (h : (called history file).has path = true) : ∃ x ∈ history, x.file = file := by
  refine Classical.byContradiction fun hnone => ?_
  have hempty : called history file = ∅ := List.foldlRecOn (motive := (· = ∅)) history _ rfl
    fun set hset x hx => by rw [if_neg fun heq => hnone ⟨x, hx, heq⟩, hset]
  rw [hempty, PathSet.has_empty] at h
  cases h

end Filing

namespace Session

/-! ### Breakpoints and requests -/

section

variable {s t : Session} {o : SaveOutcome} {outcomes : List SaveOutcome} {k : String}

/-- The breakpoints of a saved script have followed: they are in force if the game does not run older
bytes, else they wait. -/
structure Resynced (b b' : Breakpoints) (o : SaveOutcome) (ramMatches : Bool) : Prop where
  offsets : b'.offsets o.file =
    if ramMatches then Reload.carried o (b.latestOffsets o.file) else b.offsets o.file
  pending : b'.pendingOffsets? o.file =
    if ramMatches then none else some (Reload.carried o (b.latestOffsets o.file))

theorem resynced_finishSave (s : Session) (o : SaveOutcome) :
    Resynced s.breakpoints (s.finishSave o).breakpoints o (s.workspace.ramMatches o.file) := by
  rw [finishSave_breakpoints]
  refine ⟨?_, ?_⟩
  · simp only [Breakpoints.offsets_resync, true_and]
  · rw [Breakpoints.pending_resync, if_pos rfl]

theorem latestOffsets_of_sameOf {b b' : Breakpoints} (h : b.SameOf b' k) :
    b'.latestOffsets k = b.latestOffsets k := by
  rw [Breakpoints.latestOffsets_eq, Breakpoints.latestOffsets_eq, h.offsets, h.pending]

/-- The breakpoints of the script changed at no other time. -/
theorem Resynced.within {b b' c c' : Breakpoints} {ramMatches : Bool}
    (h : Resynced b' c o ramMatches) (hbefore : b.SameOf b' o.file) (hafter : c.SameOf c' o.file) :
    Resynced b c' o ramMatches := by
  refine ⟨?_, ?_⟩
  · rw [hafter.offsets, h.offsets, latestOffsets_of_sameOf hbefore, hbefore.offsets]
  · rw [hafter.pending, h.pending, latestOffsets_of_sameOf hbefore]

theorem beside_finishSaves (outcomes : List SaveOutcome) (s : Session) :
    s.Beside (outcomes.foldl finishSave s) :=
  List.foldlRecOn _ _ (.refl s) fun t ht o _ => ht.trans (JointSession.beside_finishSave t o)

/-- The breakpoints of each of several scripts follow. -/
theorem resynced_finishSaves (hnodup : (outcomes.map SaveOutcome.file).Nodup) (ho : o ∈ outcomes)
    (s : Session) : Resynced s.breakpoints (outcomes.foldl finishSave s).breakpoints o
      (s.workspace.ramMatches o.file) := by
  obtain ⟨before, after, rfl⟩ := List.append_of_mem ho
  rw [List.map_append, List.map_cons, List.nodup_middle, List.nodup_cons, List.mem_append,
    not_or] at hnodup
  obtain ⟨⟨hbefore, hafter⟩, -⟩ := hnodup
  have hother : ∀ {others : List SaveOutcome}, o.file ∉ others.map SaveOutcome.file →
      ∀ o' ∈ others, o.file ≠ o'.file :=
    fun hnot o' ho' heq => hnot (List.mem_map.mpr ⟨o', ho', heq.symm⟩)
  rw [List.foldl_append, List.foldl_cons]
  have hturn := resynced_finishSave (before.foldl finishSave s) o
  rw [(beside_finishSaves before s).workspace.ramMatches] at hturn
  exact hturn.within (sameOf_finishSaves before s (hother hbefore))
    (sameOf_finishSaves after _ (hother hafter))

/-- The reloads that saves request. -/
def requestsOf (outcomes : List SaveOutcome) : List Event :=
  (outcomes.filter SaveOutcome.ready).map fun o => .reloadRequested o.file

theorem mem_requestsOf : .reloadRequested k ∈ requestsOf outcomes ↔
    ∃ o ∈ outcomes, o.ready = true ∧ o.file = k := by
  simp [requestsOf, and_assoc]

theorem reloads_finishSave (s : Session) (o : SaveOutcome) :
    (s.finishSave o).workspace.host.reloads = s.workspace.host.reloads ++ requestsOf [o] := by
  have hresync : (s.breakpoints.resync s.workspace.host (s.workspace.ramMatches o.file) o.file
      (Reload.carried o (s.breakpoints.latestOffsets o.file))).2.reloads = s.workspace.host.reloads :=
    (Breakpoints.informs_resync _ _ _ _ _).reloads
  unfold finishSave Reload.finishSave requestsOf
  dsimp only [Reload.within]
  cases hready : o.ready with
  | false =>
    rw [List.filter_singleton, hready]
    exact hresync.trans (List.append_nil _).symm
  | true =>
    rw [List.filter_singleton, hready, ← hresync]
    exact List.filter_append _ _

theorem reloads_finishSaves (outcomes : List SaveOutcome) (s : Session) :
    (outcomes.foldl finishSave s).workspace.host.reloads =
      s.workspace.host.reloads ++ requestsOf outcomes := by
  induction outcomes generalizing s with
  | nil => exact (List.append_nil _).symm
  | cons o rest ih =>
    have hall : requestsOf (o :: rest) = requestsOf [o] ++ requestsOf rest := by
      unfold requestsOf
      rw [← List.map_append, ← List.filter_append]
      rfl
    rw [List.foldl_cons, ih, reloads_finishSave, List.append_assoc, hall]

end

/-! ### The scripts that call a shared file -/

section

variable [Scripts] {s₀ s t : Session} {history : List Filing} {path : Path} {text : String}
  {outcome : MacroOutcome} {outcomes : List MacroOutcome} {disk : Disk}

omit [Scripts] in
theorem sorted_dependents (p : Project) (path : Path) : (p.dependents path).Pairwise (· < ·) := by
  unfold Project.dependents
  cases p.usage.at? path with
  | none => exact .nil
  | some users => exact users.ordered_toList.imp fun h => compareOfLessAndEq_eq_lt.mp h

/-- A script is in use as before, with the same bytes in the ROM, the same breakpoints and the same
recorded hash. -/
structure LeavesAlone (s t : Session) (file : String) : Prop where
  script : s.workspace.Spares t.workspace file
  breakpoints : s.breakpoints.SameOf t.breakpoints file
  recorded : ∀ hash, t.workspace.project.hashIs t.workspace.host.disk file hash =
    s.workspace.project.hashIs s.workspace.host.disk file hash

/-- What becomes of a script when a shared file is saved, given the script as it was, the disk in its
turn and the reloads that are requested. -/
structure Reached (s t : Session) (path : Path) (text : String) (f : ScriptFile) (d : Disk)
    (requests : List Event) (outcome : MacroOutcome) : Prop where
  held : s.workspace.file? outcome.file = some f
  turn : ∃ v v', s.Recompiles path text outcome.file v v' ∧ v.host.disk = d
  /-- The shared file has its new text then. -/
  saved : s.workspace.project.Around (lexical path) → d.read path = .ok text
  around : ∀ place, s.workspace.project.Around place → place ≠ lexical path →
    place ≠ lexical (temporary path) → s.workspace.host.disk.Spares d place
  skipped : outcome = .skippedStale outcome.file ↔
    s.workspace.project.hashIs s.workspace.host.disk outcome.file f.hash = false
  recompiled : (∃ o, outcome = .recompiled o) ↔
    s.workspace.project.hashIs s.workspace.host.disk outcome.file f.hash = true ∧
      ∃ source, s.workspace.host.disk.read (s.workspace.project.expsPath outcome.file) = .ok source ∧
        (s.workspace.withDisk d).Compiles outcome.file source
  failed : (∃ reason, outcome = .failed outcome.file reason) ↔
    s.workspace.project.hashIs s.workspace.host.disk outcome.file f.hash = true ∧
      ∀ source, s.workspace.host.disk.read (s.workspace.project.expsPath outcome.file) = .ok source →
        ¬(s.workspace.withDisk d).Compiles outcome.file source
  compiled : ∀ o, outcome = .recompiled o → ∃ source c bytes,
    s.workspace.host.disk.read (s.workspace.project.expsPath outcome.file) = .ok source ∧
      (s.workspace.withDisk d).compileText .exps outcome.file source = .ok c ∧
      s.workspace.compiler.encode c.program = .ok bytes ∧
      o = Workspace.outcome f .exps c (Sha256.hex bytes)
  followed : ∀ o, outcome = .recompiled o →
    Resynced s.breakpoints t.breakpoints o (t.workspace.ramMatches o.file)
  requested : .reloadRequested outcome.file ∈ requests ↔
    (∃ o, outcome = .recompiled o) ∧ f.flags.inGround = false
  kept : (∀ o, outcome ≠ .recompiled o) → s.LeavesAlone t outcome.file

omit [Scripts] in
/-- A shared file that can be written is saved. -/
theorem exists_saveMacro (hwrite : Project.saveMacro s.workspace.host.disk path text = (.ok (), disk)) :
    ∃ outcomes t, s.saveMacro path text = (.ok outcomes, t) := by
  unfold saveMacro onWorkspace Workspace.saveMacro
  simp only [hwrite]
  exact ⟨_, _, rfl⟩

omit [Scripts] in
/-- There is one outcome for each script. -/
theorem eq_recompiled {o : SaveOutcome} (hnodup : (outcomes.map MacroOutcome.file).Nodup)
    (h : outcome ∈ outcomes) (ho : .recompiled o ∈ outcomes) (hfile : o.file = outcome.file) :
    outcome = .recompiled o :=
  List.inj_on_of_nodup_map hnodup h ho hfile.symm

omit [Scripts] in
theorem nodup_recompiled (hnodup : (outcomes.map MacroOutcome.file).Nodup) :
    ((recompiled outcomes).map SaveOutcome.file).Nodup := by
  refine hnodup.sublist ?_
  induction outcomes with
  | nil => exact .slnil
  | cons outcome rest ih =>
    have hrest := ih (List.nodup_cons.mp hnodup).2
    cases outcome with
    | recompiled o => exact hrest.cons_cons _
    | skippedStale file => exact hrest.cons _
    | failed file error => exact hrest.cons _

theorem Kept.saveMacro (hs : s.Kept history) (hpath : s.workspace.project.Foreign path)
    (hwrite : Project.saveMacro s.workspace.host.disk path text = (.ok (), disk)) :
    (s.workspace.withDisk disk).Kept history := by
  have hwritten := unfiled_saveMacro hpath text
  rw [hwrite] at hwritten
  have hkept := (Filed.step .refl (.nothing hwritten)).kept hs.workspace
  rwa [Option.toList_none, List.append_nil, List.append_nil] at hkept

/-- What follows the turns concerns no script that was not compiled anew. -/
theorem leavesAlone_of_spares (hs : s.Kept history) (hpath : s.workspace.project.Foreign path)
    (hwrite : Project.saveMacro s.workspace.host.disk path text = (.ok (), disk)) {file : String}
    (hscript : IsScript file) (hsave : s.saveMacro path text = (.ok outcomes, t))
    (hnot : ∀ o, .recompiled o ∈ outcomes → file ≠ o.file)
    (hspares : (s.workspace.withDisk disk).Spares (recompileAll path
      (s.workspace.project.dependents path) (s.workspace.withDisk disk)).2 file) :
    s.LeavesAlone t file := by
  obtain ⟨disk', w, hwrite', hall, haside⟩ := saveMacro_ok hsave
  cases hwrite.symm.trans hwrite'
  rw [hall] at hspares
  have hfollow := (beside_finishSaves (Session.recompiled outcomes) { s with workspace := w }).trans
    haside.beside
  have hsame := sameOf_finishSaves (Session.recompiled outcomes) { s with workspace := w }
    fun o ho => hnot o (mem_recompiled.mp ho)
  have hdone := (files_saveMacro hs hpath text).kept hs
  rw [hsave] at hdone
  refine ⟨((beside_withDisk s.workspace disk).outside.spares file).trans
    (hspares.trans (hfollow.workspace.spares file)), hsame.trans (haside.sameOf file), ?_⟩
  refine hashIs_of_others hs.workspace.stores hdone.workspace.stores hscript fun x hx heq => ?_
  unfold savingMacro at hx
  rw [hwrite] at hx
  obtain ⟨o, ho, hfile⟩ := recompiled_of_recompilings (hs.saveMacro hpath hwrite).stores.names hx
  rw [hall] at ho
  exact hnot o ho (heq.symm.trans hfile.symm)

/-- A saved shared file reaches a script that calls it. -/
theorem reached_of_mem (hs : s.Kept history) (hrom : s.workspace.rom.Writable)
    (hpath : s.workspace.project.Foreign path)
    (hwrite : Project.saveMacro s.workspace.host.disk path text = (.ok (), disk))
    (hheld : ∀ file ∈ s.workspace.project.dependents path, (s.workspace.file? file).isSome)
    (hsave : s.saveMacro path text = (.ok outcomes, t)) (hmem : outcome ∈ outcomes) :
    ∃ f d, s.Reached t path text f d (requestsOf (Session.recompiled outcomes)) outcome := by
  obtain ⟨disk', w, hwrite', hall, haside⟩ := saveMacro_ok hsave
  cases hwrite.symm.trans hwrite'
  have hw₀ := hs.saveMacro hpath hwrite
  have hfiles : outcomes.map MacroOutcome.file = s.workspace.project.dependents path := by
    rw [← files_recompileAll hw₀.stores.names path (s.workspace.project.dependents path), hall]
  have hnodup : (outcomes.map MacroOutcome.file).Nodup := hfiles ▸ nodup_dependents _ path
  obtain ⟨before, after, f, v, hsplit, hv, hawaits, hf, hturn, hkept⟩ :=
    turn_of_recompileAll hw₀ hrom (hs.dependents path) (nodup_dependents _ path) hheld
      (show outcome ∈ _ by rw [hall]; exact hmem)
  have hscript : IsScript outcome.file := hs.dependents path _ (by rw [hsplit]; simp)
  -- others were put into the project before the turn
  obtain ⟨more, hstores, hothers⟩ := hawaits.kept
  have hhash := hashIs_of_others hs.workspace.stores hstores.stores hscript hothers f.hash
  have hload : ∀ source, (∃ m, v.project.loadExps v.host.disk outcome.file = .ok (source, m)) ↔
      s.workspace.host.disk.read (s.workspace.project.expsPath outcome.file) = .ok source := fun source =>
    (exists_loadExps_iff hstores.stores hscript).trans
      (read_exps_of_others hs.workspace.stores hstores.stores hscript hothers)
  have hcompiles : ∀ source, v.Compiles outcome.file source ↔
      (s.workspace.withDisk v.host.disk).Compiles outcome.file source := fun source =>
    Iff.trans (b := ((s.workspace.withDisk disk).withDisk v.host.disk).Compiles outcome.file source)
      (compiles_iff_of_steady hawaits.steady) .rfl
  have hfollow := beside_finishSaves (Session.recompiled outcomes) { s with workspace := w }
  refine ⟨f, v.host.disk, hf, ⟨v, _, ⟨disk, before, after, hwrite, hsplit, hv, rfl⟩, rfl⟩, ?_, ?_, ?_,
    ?_, ?_, ?_, ?_, ?_, ?_⟩
  · intro haround
    exact (hawaits.steady.around _ haround).read (read_of_replace (Project.replace_of_store hwrite))
  · intro place haround hne htemporary
    have hdisk := spares_replace s.workspace.host.disk text hne htemporary
    rw [Project.replace_of_store hwrite] at hdisk
    exact hdisk.trans (hawaits.steady.around place haround)
  · rw [hturn.skipped_iff, hhash]
  · rw [hturn.recompiled_iff, hhash]
    simp only [← hload, hcompiles, exists_and_right]
  · rw [hturn.failed_iff, hhash]
    simp only [← hload, hcompiles, forall_exists_index]
  · rintro o rfl
    obtain ⟨source, m, c, bytes, hloaded, hcompile, hencode, ho⟩ := hturn.compiled
    rw [compileText_of_steady hawaits.steady] at hcompile
    rw [hawaits.steady.compiler] at hencode
    exact ⟨source, c, bytes, (hload source).mp ⟨m, hloaded⟩, hcompile, hencode, ho⟩
  · rintro o rfl
    have hresynced := resynced_finishSaves (nodup_recompiled hnodup) (mem_recompiled.mpr hmem)
      { s with workspace := w }
    rw [← hfollow.workspace.ramMatches, ← haside.beside.workspace.ramMatches] at hresynced
    exact hresynced.within ⟨rfl, rfl⟩ (haside.sameOf o.file)
  · rw [mem_requestsOf]
    constructor
    · rintro ⟨o, ho, hready, hfile⟩
      have houtcome := eq_recompiled hnodup hmem (mem_recompiled.mp ho) hfile
      rw [houtcome] at hturn
      exact ⟨⟨o, houtcome⟩, by rw [hturn.ready] at hready; simpa using hready⟩
    · rintro ⟨⟨o, rfl⟩, hout⟩
      exact ⟨o, mem_recompiled.mpr hmem, by rw [hturn.ready, hout]; rfl, rfl⟩
  · exact fun hnot => leavesAlone_of_spares hs hpath hwrite hscript hsave
      (fun o ho heq => hnot o (eq_recompiled hnodup hmem ho heq.symm)) (hkept hnot)

/-- What becomes of all the scripts when a shared file is saved.  Those, and only those, have their turn,
in order, whose text called the file when it was compiled last, be it in a save of its own or in an
earlier turn; and each gets what its own text and hash tell, whatever becomes of the others. -/
theorem saveMacro_reaches (h₀ : s₀.Blank) (hrun : s₀.Works history s)
    (hcomplete : ∀ file, Filing.Complete history file)
    (hrom : s.workspace.rom.Writable) (hpath : s.workspace.project.Foreign path)
    (hwrite : Project.saveMacro s.workspace.host.disk path text = (.ok (), disk)) :
    ∃ outcomes t requests, s.saveMacro path text = (.ok outcomes, t) ∧
      (outcomes.map MacroOutcome.file).Pairwise (· < ·) ∧
      (∀ file, file ∈ outcomes.map MacroOutcome.file ↔
        (Filing.called history file).has path = true) ∧
      t.workspace.host.reloads = s.workspace.host.reloads ++ requests ∧
      ∀ outcome ∈ outcomes, ∃ f d, s.Reached t path text f d requests outcome := by
  have hs := hrun.kept h₀
  obtain ⟨outcomes, t, hsave⟩ := exists_saveMacro hwrite
  obtain ⟨disk', w, hwrite', hall, haside⟩ := saveMacro_ok hsave
  cases hwrite.symm.trans hwrite'
  have hfiles : outcomes.map MacroOutcome.file = s.workspace.project.dependents path := by
    rw [← files_recompileAll (hs.saveMacro hpath hwrite).stores.names path
      (s.workspace.project.dependents path), hall]
  have hcalls : ∀ file, file ∈ s.workspace.project.dependents path ↔
      (Filing.called history file).has path = true := fun file =>
    Project.mem_dependents.trans (hs.workspace.follows.notes file (hcomplete file) path)
  refine ⟨outcomes, t, requestsOf (Session.recompiled outcomes), hsave,
    hfiles ▸ sorted_dependents _ path, fun file => by rw [hfiles, hcalls], ?_, fun outcome hmem => ?_⟩
  · have hsteady := steady_recompileAll path (hs.dependents path) (s.workspace.withDisk disk)
    rw [hall] at hsteady
    rw [haside.reloads, reloads_finishSaves]
    exact congrArg (· ++ _) hsteady.reloads
  · refine reached_of_mem hs hrom hpath hwrite (fun file hfile => ?_) hsave hmem
    obtain ⟨x, hx, rfl⟩ := Filing.exists_of_called ((hcalls file).mp hfile)
    exact hs.workspace.stores.held x hx

end

/-! ### A shared file that is called -/

theorem foreign_callSaved : @Project.Foreign onlyEnter (callSaved []).workspace.project calledFile := by
  let _ := onlyEnter
  obtain ⟨usage, husage⟩ := ((works_callSaved []).files
    ⟨blank_sample.workspace.kept, blank_sample.housed⟩).filed.project
  rw [husage]
  intro a ha
  rw [Project.place_withUsage]
  exact foreign_calledFile a ha

theorem saveMacro_reaches_sample : ∃ outcomes t requests,
    (callSaved []).saveMacro calledFile "Wait 6" = (.ok outcomes, t) ∧
      "enter.ssb" ∈ outcomes.map MacroOutcome.file ∧
      ∀ outcome ∈ outcomes, ∃ f d,
        @Reached onlyEnter (callSaved []) t calledFile "Wait 6" f d requests outcome := by
  let _ := onlyEnter
  have hrun : (Project.saveMacro (callSaved []).workspace.host.disk calledFile "Wait 6").1.isOk = true ∧
      (callSaved []).workspace.rom.writeFails = false ∧ (callSaved []).workspace.rom.saveFails = false ∧
      (callFilings []).all (fun x => x.isWhole) = true ∧
      (Filing.called (callFilings []) "enter.ssb").has calledFile = true := by
    decide +kernel
  obtain ⟨hok, hwrites, hsaves, hwhole, hcalled⟩ := hrun
  cases hwrite : Project.saveMacro (callSaved []).workspace.host.disk calledFile "Wait 6" with
  | mk answer disk =>
  rw [hwrite] at hok
  cases answer with
  | error e => cases hok
  | ok =>
    obtain ⟨outcomes, t, requests, hsave, -, hfiles, -, hreached⟩ :=
      saveMacro_reaches blank_sample (works_callSaved [])
        (fun file x hx _ _ => List.all_eq_true.mp hwhole x hx) ⟨hwrites, hsaves⟩ foreign_callSaved hwrite
    exact ⟨outcomes, t, requests, hsave, (hfiles "enter.ssb").mpr hcalled, hreached⟩

end Session

end SceneDebugger
