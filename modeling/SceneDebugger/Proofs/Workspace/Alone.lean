import Mathlib.Logic.Function.Iterate
import SceneDebugger.Proofs.Workspace.Threads

/-!
# SceneDebugger.Proofs.Workspace.Alone — a thread that is not interrupted

The steps of a thread, one after the other, are what the operations of a workspace do in one go.

* `Workspace.after`: the operations of a workspace, by task.
* `Threads.Goes`: steps of one thread lead from one state to another.
* `Threads.goes_after`: a thread that is not interrupted does its next task.
-/

namespace SceneDebugger

open Function

namespace Workspace

/-- The workspace after a task that is done in one go. -/
def after (w : Workspace) (task : Task) : Workspace :=
  match task.purpose with
  | .ask => (w.get task.name).2
  | .change .loadSsbs => (w.loadSsbs task.name).2
  | .change (.loadExps mode) => (w.loadExps task.name mode).2
  | .change (.save .ssbs text) => (w.saveSsbs task.name text).2
  | .change (.save .exps text) => (w.saveExps task.name text).2
  | .recompile path => (w.recompile path task.name).2

/-- The workspace after what is done with a file once it is in use. -/
def worked (w : Workspace) (f : ScriptFile) : Work → Workspace
  | .loadSsbs =>
    match f.ssbs with
    | some _ => w
    | none =>
      match w.compiler.decompileSsbs f.program with
      | .error _ => w
      | .ok (text, sourceMap) => w.put (f.withSsbs { text, sourceMap })
  | .loadExps mode =>
    match if mode = .strict then f.exps else none with
    | some _ => w
    | none =>
      match w.expsText f mode with
      | (.error _, w) => w
      | (.ok (text, sourceMap), w) =>
        w.put (f.withExps { text, sourceMap, path := w.project.expsPath f.name, hash := f.hash })
  | .save view text =>
    match w.compileText view f.name text with
    | .error _ => w
    | .ok compilation =>
      match w.writeProgram f.name compilation.program with
      | (.error _, w) => w
      | (.ok digest, w) =>
        let settled := w.settle { file := f, view, text, compilation } digest
        settled.2.put settled.1

section AfterChange

variable {w v : Workspace} {f : ScriptFile}

theorem after_loadSsbs (h : w.get f.name = (.ok f, v)) :
    w.after ⟨f.name, .change .loadSsbs⟩ = v.worked f .loadSsbs := by
  simp only [after, loadSsbs, h, worked]
  cases f.ssbs with
  | some text => rfl
  | none => cases v.compiler.decompileSsbs f.program <;> rfl

theorem after_loadExps (h : w.get f.name = (.ok f, v)) (mode : ExpsLoadMode) :
    w.after ⟨f.name, .change (.loadExps mode)⟩ = v.worked f (.loadExps mode) := by
  simp only [after, loadExps, h, worked, expsText]
  cases (if mode = .strict then f.exps else none) with
  | some text => rfl
  | none =>
    generalize (if v.project.hasExps v.host.disk f.name ∧ mode ≠ .decompile then v.expsOnDisk f mode
      else v.expsFromProgram f) = loaded
    obtain ⟨answer, u⟩ := loaded
    cases answer <;> rfl

theorem after_saveSsbs (h : w.get f.name = (.ok f, v)) (text : String) :
    w.after ⟨f.name, .change (.save .ssbs text)⟩ = v.worked f (.save .ssbs text) := by
  simp only [after, saveSsbs, h, worked, compileText]
  cases v.compiler.compileSsbs text with
  | error e => rfl
  | ok c =>
    dsimp only
    generalize v.writeProgram f.name c.program = written
    obtain ⟨answer, u⟩ := written
    cases answer <;> rfl

theorem after_saveExps (h : w.get f.name = (.ok f, v)) (text : String) :
    w.after ⟨f.name, .change (.save .exps text)⟩ = v.worked f (.save .exps text) := by
  simp only [after, saveExps, h, worked, compileText]
  cases v.compiler.compileExps v.host.disk (v.project.searchPath f.name) text with
  | error e => rfl
  | ok c =>
    dsimp only
    generalize v.writeProgram f.name c.program = written
    obtain ⟨answer, u⟩ := written
    cases answer <;> rfl

/-- An operation asks for the file first. -/
theorem after_change (h : w.get f.name = (.ok f, v)) (work : Work) :
    w.after ⟨f.name, .change work⟩ = v.worked f work := by
  cases work with
  | loadSsbs => exact after_loadSsbs h
  | loadExps mode => exact after_loadExps h mode
  | save view text =>
    cases view with
    | ssbs => exact after_saveSsbs h text
    | exps => exact after_saveExps h text

theorem after_of_error {name : String} {e : Error} (h : w.get name = (.error e, w))
    (purpose : Purpose) : w.after ⟨name, purpose⟩ = w := by
  cases purpose with
  | ask => simp only [after, h]
  | recompile path => simp only [after, Workspace.recompile, hash, ask, h]
  | change work =>
    cases work with
    | loadSsbs => simp only [after, loadSsbs, h]
    | loadExps mode => simp only [after, loadExps, h]
    | save view text => cases view <;> simp only [after, saveSsbs, saveExps, h]

theorem after_recompile (h : w.get f.name = (.ok f, v)) (path : Path) :
    w.after ⟨f.name, .recompile path⟩ =
      if v.project.hashIs v.host.disk f.name f.hash then
        match v.project.loadExps v.host.disk f.name with
        | .error _ => v
        | .ok (text, _) => v.after ⟨f.name, .change (.save .exps text)⟩
      else v.warn ("Not recompiling " ++ f.name ++ " after editing " ++ Text.quote path.text
        ++ ": its EXPS text is out of date") := by
  simp only [after, Workspace.recompile, hash, ask, h]
  split_ifs with hcompiled
  · cases hload : v.project.loadExps v.host.disk f.name with
    | error e => rfl
    | ok loaded =>
      dsimp only
      generalize v.saveExps f.name loaded.1 = saved
      obtain ⟨answer, u⟩ := saved
      cases answer <;> rfl
  · rfl

end AfterChange

end Workspace

namespace Threads

open Workspace

variable {T : Type} [DecidableEq T] {s s' s'' : Threads T} {t : T} {w v : Workspace} {stage : Stage}
  {task : Task} {rest : List Task} {f : ScriptFile} {name : String}

/-! ### States -/

@[simp] theorem become_become (s : Threads T) (t : T) (w v : Workspace) (stage stage' : Stage) :
    (s.become t w stage).become t v stage' = s.become t v stage' := by
  simp only [become, update_idem]

/-- A thread is at a stage for which it holds the lock of a file. -/
def locked (s : Threads T) (t : T) (name : String) (w : Workspace) (stage : Stage) : Threads T :=
  { s.become t w stage with holder := update s.holder name (some t) }

@[simp] theorem stage_locked (s : Threads T) (t : T) (name : String) (w : Workspace) (stage : Stage) :
    (s.locked t name w stage).stage t = stage := update_self ..

@[simp] theorem workspace_locked (s : Threads T) (t : T) (name : String) (w : Workspace)
    (stage : Stage) : (s.locked t name w stage).workspace = w := rfl

@[simp] theorem become_locked (s : Threads T) (t : T) (name : String) (w v : Workspace)
    (stage stage' : Stage) : (s.locked t name w stage).become t v stage' = s.locked t name v stage' := by
  simp only [locked, become, update_idem]

/-- Steps of one thread lead from one state to the other. -/
def Goes (t : T) (s s' : Threads T) : Prop := ∃ n, (fun s : Threads T => s.step t)^[n] s = s'

theorem Goes.refl (t : T) (s : Threads T) : Goes t s s := ⟨0, rfl⟩

theorem goes_step (t : T) (s : Threads T) : Goes t s (s.step t) := ⟨1, rfl⟩

theorem Goes.trans (h : Goes t s s') (h' : Goes t s' s'') : Goes t s s'' := by
  obtain ⟨n, rfl⟩ := h
  obtain ⟨m, rfl⟩ := h'
  exact ⟨m + n, iterate_add_apply _ m n s⟩

theorem Goes.step (hs : s.step t = s') (h : Goes t s' s'') : Goes t s s'' :=
  (hs ▸ goes_step t s).trans h

/-- The same threads around another workspace. -/
def around (s : Threads T) (w : Workspace) : Threads T := { s with workspace := w }

/-- The thread is idle and nobody holds a lock. -/
structure Quiet (s : Threads T) (t : T) : Prop where
  idle : s.stage t = .idle
  free : ∀ name, s.holder name = none

theorem Quiet.become_idle (h : s.Quiet t) (w : Workspace) : s.become t w .idle = s.around w := by
  rw [become, ← h.idle, update_eq_self]
  rfl

theorem Quiet.locked_release (h : s.Quiet t) (name : String) (w v : Workspace) (stage : Stage) :
    (s.locked t name w stage).release t v name = s.around v := by
  have hholder : update (update s.holder name (some t)) name none = s.holder := by
    rw [update_idem, ← h.free name, update_eq_self]
  simp only [release, locked, become, update_idem, hholder]
  rw [← h.idle, update_eq_self]
  rfl

/-! ### Asking for a file -/

/-- The threads with less for one of them to do. -/
def next (s : Threads T) (t : T) (rest : List Task) : Threads T :=
  { s with queue := update s.queue t rest }

theorem Quiet.next (h : s.Quiet t) (rest : List Task) : (s.next t rest).Quiet t := ⟨h.idle, h.free⟩

omit [DecidableEq T] in
theorem Quiet.around (h : s.Quiet t) (w : Workspace) : (s.around w).Quiet t := ⟨h.idle, h.free⟩

theorem Quiet.step_idle (h : s.Quiet t) (hq : s.queue t = task :: rest) :
    s.step t = (s.next t rest).become t s.workspace
      (if (s.workspace.file? task.name).isSome then .found task else .absent task) := by
  rw [step, h.idle]
  simp only [hq]
  rfl

/-- A thread that looks for a file has asked for it a little later. -/
theorem goes_get (hw : s.workspace.Named) (h : s.Quiet t) (hq : s.queue t = task :: rest) :
    (∃ e, s.workspace.get task.name = (.error e, s.workspace) ∧ Goes t s (s.next t rest)) ∨
    ∃ f v, s.workspace.get task.name = (.ok f, v) ∧ v.file? task.name = some f ∧ f.name = task.name ∧
      Goes t s ((s.next t rest).become t v (.found task)) := by
  have hfirst := h.step_idle hq
  cases hf : s.workspace.file? task.name with
  | some f =>
    have hget : s.workspace.get task.name = (.ok f, s.workspace) := by rw [Workspace.get, hf]
    rw [hf, Option.isSome_some, if_pos rfl] at hfirst
    exact .inr ⟨f, s.workspace, hget, hf, hw _ f hf, .step hfirst (.refl t _)⟩
  | none =>
    rw [hf, Option.isSome_none, if_neg Bool.false_ne_true] at hfirst
    cases hfetch : s.workspace.fetch task.name with
    | error e =>
      have hget : s.workspace.get task.name = (.error e, s.workspace) := by
        simp only [Workspace.get, hf, hfetch]
      have hread : ((s.next t rest).become t s.workspace (.absent task)).step t = s.next t rest := by
        simp only [step, stage_become, workspace_become, become_become, hfetch]
        exact (h.next rest).become_idle s.workspace
      exact .inl ⟨e, hget, .step hfirst (.step hread (.refl t _))⟩
    | ok f =>
      have hget : s.workspace.get task.name = (.ok f, s.workspace.insertIfAbsent f) := by
        simp only [Workspace.get, hf, hfetch]
      obtain ⟨program, digest, rfl⟩ := eq_of_fetch hfetch
      have hread : ((s.next t rest).become t s.workspace (.absent task)).step t =
          (s.next t rest).become t s.workspace
            (.fetched { name := task.name, program, hash := digest } task) := by
        simp only [step, stage_become, workspace_become, become_become, hfetch]
      refine .inr ⟨_, _, hget, file?_of_get hget, rfl,
        .step hfirst (.step hread (.step ?_ (.refl t _)))⟩
      simp only [step, stage_become, workspace_become, become_become]

/-! ### Working on a file -/

/-- A step after which the lock is free again. -/
theorem Quiet.goes_released (h : s.Quiet t) (hs : (s.locked t name w stage).step t =
    (s.locked t name w stage).release t v name) : Goes t (s.locked t name w stage) (s.around v) :=
  .step (hs.trans (h.locked_release name w v stage)) (.refl t _)

theorem Quiet.goes_changed (h : s.Quiet t) (w : Workspace) (f : ScriptFile) :
    Goes t (s.locked t f.name w (.changed f)) (s.around (w.put f)) := by
  refine h.goes_released ?_
  simp only [step, stage_locked, workspace_locked]

theorem Quiet.goes_loadSsbs (h : s.Quiet t) (w : Workspace) (f : ScriptFile) :
    Goes t (s.locked t f.name w (.holding f .loadSsbs)) (s.around (w.worked f .loadSsbs)) := by
  cases hheld : f.ssbs with
  | some text =>
    simp only [worked, hheld]
    refine h.goes_released ?_
    simp only [step, stage_locked, workspace_locked, Threads.work, hheld]
  | none =>
    cases htext : w.compiler.decompileSsbs f.program with
    | error e =>
      simp only [worked, hheld, htext]
      refine h.goes_released ?_
      simp only [step, stage_locked, workspace_locked, Threads.work, hheld, htext]
    | ok loaded =>
      simp only [worked, hheld, htext]
      refine .step ?_ (h.goes_changed w (f.withSsbs ⟨loaded.1, loaded.2⟩))
      simp only [step, stage_locked, workspace_locked, Threads.work, hheld, htext, become_locked]
      rfl

theorem Quiet.goes_loadExps (h : s.Quiet t) (w : Workspace) (f : ScriptFile) (mode : ExpsLoadMode) :
    Goes t (s.locked t f.name w (.holding f (.loadExps mode)))
      (s.around (w.worked f (.loadExps mode))) := by
  cases hheld : (if mode = .strict then f.exps else none) with
  | some text =>
    simp only [worked, hheld]
    refine h.goes_released ?_
    simp only [step, stage_locked, workspace_locked, Threads.work, hheld]
  | none =>
    cases htext : w.expsText f mode with
    | mk answer v =>
      cases answer with
      | error e =>
        simp only [worked, hheld, htext]
        refine h.goes_released ?_
        simp only [step, stage_locked, workspace_locked, Threads.work, hheld, htext]
      | ok loaded =>
        simp only [worked, hheld, htext]
        refine .step ?_ (h.goes_changed v (f.withExps _))
        simp only [step, stage_locked, workspace_locked, Threads.work, hheld, htext, become_locked]
        rfl

/-- The file follows the ROM. -/
theorem Quiet.goes_flushed (h : s.Quiet t) (w : Workspace) (d : Draft) (digest : String) :
    Goes t (s.locked t d.file.name w (.flushed d digest))
      (s.around ((w.settle d digest).2.put (w.settle d digest).1)) := by
  have hchanged := h.goes_changed (w.settle d digest).2 (w.settle d digest).1
  rw [settle_name] at hchanged
  refine .step ?_ hchanged
  simp only [step, stage_locked, workspace_locked, become_locked]

/-- The bytes are written and the ROM saved, as when a program is written in one go. -/
theorem Quiet.goes_compiled (h : s.Quiet t) (w : Workspace) (d : Draft) :
    Goes t (s.locked t d.file.name w (.compiled d))
      (s.around (match w.writeProgram d.file.name d.compilation.program with
        | (.error _, w) => w
        | (.ok digest, w) => (w.settle d digest).2.put (w.settle d digest).1)) := by
  cases hencode : w.compiler.encode d.compilation.program with
  | error e =>
    simp only [writeProgram, hencode]
    refine h.goes_released ?_
    simp only [step, stage_locked, workspace_locked, hencode]
  | ok bytes =>
    cases hwrite : w.rom.write d.file.name bytes with
    | error e =>
      simp only [writeProgram, hencode, hwrite]
      refine h.goes_released ?_
      simp only [step, stage_locked, workspace_locked, hencode, hwrite]
    | ok rom =>
      have hwritten : (s.locked t d.file.name w (.compiled d)).step t =
          s.locked t d.file.name { w with rom } (.written d bytes) := by
        simp only [step, stage_locked, workspace_locked, hencode, hwrite, become_locked]
      refine .step hwritten ?_
      cases hsave : rom.save with
      | error e =>
        simp only [writeProgram, hencode, hwrite, hsave]
        refine h.goes_released ?_
        simp only [step, stage_locked, workspace_locked, hsave]
      | ok saved =>
        simp only [writeProgram, hencode, hwrite, hsave]
        refine .step ?_ (h.goes_flushed { w with rom := saved } d (Sha256.hex bytes))
        simp only [step, stage_locked, workspace_locked, hsave, become_locked]

/-- A thread that holds the lock of a file does its work. -/
theorem Quiet.goes_work (h : s.Quiet t) (w : Workspace) (f : ScriptFile) (work : Work) :
    Goes t (s.locked t f.name w (.holding f work)) (s.around (w.worked f work)) := by
  cases work with
  | loadSsbs => exact h.goes_loadSsbs w f
  | loadExps mode => exact h.goes_loadExps w f mode
  | save view text =>
    cases hcompile : w.compileText view f.name text with
    | error e =>
      simp only [worked, hcompile]
      refine h.goes_released ?_
      simp only [step, stage_locked, workspace_locked, Threads.work, hcompile]
    | ok c =>
      simp only [worked, hcompile]
      refine .step ?_ (h.goes_compiled w { file := f, view, text, compilation := c })
      simp only [step, stage_locked, workspace_locked, Threads.work, hcompile, become_locked]

/-! ### Tasks -/

/-- A thread for which a file is in use takes the lock and does its work. -/
theorem Quiet.goes_change (h : s.Quiet t) (hf : w.file? f.name = some f) (work : Work) :
    Goes t (s.become t w (.found ⟨f.name, .change work⟩)) (s.around (w.worked f work)) := by
  refine .step ?_ (h.goes_work w f work)
  have hfree : (s.become t w (.found ⟨f.name, .change work⟩)).holder f.name = none := h.free f.name
  simp only [step, stage_become, enter, workspace_become, hfree, hf, take, become_become]
  rfl

/-- A thread that gets something to do at once does it and goes on as before. -/
theorem Quiet.goes_next (h : s.Quiet t) (hf : s.workspace.file? f.name = some f) (work : Work) :
    Goes t (s.next t (⟨f.name, .change work⟩ :: s.queue t)) (s.around (s.workspace.worked f work)) := by
  have hrest : (s.next t (⟨f.name, .change work⟩ :: s.queue t)).next t (s.queue t) = s := by
    simp only [Threads.next, update_idem, update_eq_self]
  have hqueue : (s.next t (⟨f.name, .change work⟩ :: s.queue t)).queue t =
      ⟨f.name, .change work⟩ :: s.queue t := update_self ..
  have hfirst := (h.next _).step_idle hqueue
  have hfile : (s.next t (⟨f.name, .change work⟩ :: s.queue t)).workspace.file? f.name = some f := hf
  rw [hrest, hfile, Option.isSome_some, if_pos rfl] at hfirst
  exact .step hfirst (h.goes_change hf work)

/-- A thread that is to compile a script anew does so. -/
theorem Quiet.goes_recompile (h : s.Quiet t) (hf : w.file? f.name = some f) (path : Path) :
    Goes t (s.become t w (.found ⟨f.name, .recompile path⟩))
      (s.around (if w.project.hashIs w.host.disk f.name f.hash then
          match w.project.loadExps w.host.disk f.name with
          | .error _ => w
          | .ok (text, _) => w.after ⟨f.name, .change (.save .exps text)⟩
        else w.warn ("Not recompiling " ++ f.name ++ " after editing " ++ Text.quote path.text
          ++ ": its EXPS text is out of date"))) := by
  have hfree : (s.become t w (.found ⟨f.name, .recompile path⟩)).holder f.name = none := h.free f.name
  have hhashed : (s.become t w (.found ⟨f.name, .recompile path⟩)).step t =
      s.become t w (.hashed f.name f.hash path) := by
    simp only [step, stage_become, enter, workspace_become, hfree, hf, become_become]
  refine .step hhashed ?_
  split_ifs with hcompiled
  · cases hload : w.project.loadExps w.host.disk f.name with
    | error e =>
      refine .step ?_ (.refl t _)
      simp only [step, stage_become, Threads.recompile, workspace_become, hcompiled, if_true, hload,
        become_become]
      exact h.become_idle w
    | ok loaded =>
      have hget : w.get f.name = (.ok f, w) := by rw [Workspace.get, hf]
      dsimp only
      rw [after_change hget]
      refine .step ?_ ((h.around w).goes_next hf (.save .exps loaded.1))
      simp only [step, stage_become, Threads.recompile, workspace_become, hcompiled, if_true, hload,
        become_become, h.become_idle]
      rfl
  · refine .step ?_ (.refl t _)
    simp only [step, stage_become, Threads.recompile, workspace_become, hcompiled, become_become]
    exact h.become_idle _

/-- A thread that is not interrupted does its next task as the workspace does it in one go. -/
theorem Quiet.goes_after (hw : s.workspace.Named) (h : s.Quiet t) (hq : s.queue t = task :: rest) :
    Goes t s ((s.next t rest).around (s.workspace.after task)) := by
  obtain ⟨name, purpose⟩ := task
  obtain ⟨e, hget, hgoes⟩ | ⟨f, v, hget, hf, hname, hgoes⟩ := goes_get hw h hq
  · rw [after_of_error hget]
    exact hgoes
  · dsimp only at hname
    subst hname
    have hnext := h.next rest
    cases purpose with
    | ask =>
      refine hgoes.trans (.step ?_ (.refl t _))
      simp only [step, stage_become, enter, workspace_become, become_become, after, hget]
      exact hnext.become_idle v
    | change work =>
      rw [after_change hget]
      exact hgoes.trans (hnext.goes_change hf work)
    | recompile path =>
      rw [after_recompile hget]
      exact hgoes.trans (hnext.goes_recompile hf path)

end Threads

end SceneDebugger
