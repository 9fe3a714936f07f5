import SceneDebugger.Proofs.Session.Run
import SceneDebugger.Proofs.Workspace.Threads

/-!
# SceneDebugger.Proofs.Workspace.Coherence — the files in use follow the ROM

Whatever threads do at the same time, a file in use whose lock is free has the hash of its bytes in the
ROM, and an EXPS text that it holds was compiled to these bytes.  A file that was read for another
thread to put in use first is dropped; if none was faster, nobody could write its bytes meanwhile.

* `Workspace.Agrees`, `Workspace.Belongs`: the hash of a file is that of its bytes; its EXPS text is its own.
* `Threads.Owns`: what a thread knows at its stage.
* `Threads.Coherent`: the invariant; `Threads.Coherent.step` is its step lemma.
* `Threads.Reachable.follows`: a file in use follows the ROM.
-/

namespace SceneDebugger

open Function

namespace Workspace

/-- The hash of a file is that of its bytes in the ROM. -/
def Agrees (w : Workspace) (f : ScriptFile) : Prop :=
  ∃ bytes, w.rom.files[f.name]? = some bytes ∧ f.hash = Sha256.hex bytes

/-- An EXPS text of a file was compiled to its bytes and is where the project keeps it. -/
def Belongs (w : Workspace) (f : ScriptFile) : Prop :=
  ∀ text, f.exps = some text → text.hash = f.hash ∧ text.path = w.project.expsPath f.name

/-- Neither the files in use nor the bytes in the ROM have changed, and the project is where it was. -/
structure Calm (w w' : Workspace) : Prop where
  files : w'.files = w.files
  bytes : w'.rom.files = w.rom.files
  saves : w'.rom.saveFails = w.rom.saveFails
  root : w'.project.root = w.project.root

variable {w w' w'' : Workspace} {f : ScriptFile}

theorem agrees_of_bytes (h : w.Agrees f)
    (hbytes : w'.rom.files[f.name]? = w.rom.files[f.name]?) : w'.Agrees f := by
  obtain ⟨bytes, hfile, hhash⟩ := h
  exact ⟨bytes, hbytes.trans hfile, hhash⟩

theorem belongs_of_root (h : w.Belongs f)
    (hroot : w'.project.root = w.project.root) : w'.Belongs f := by
  intro text htext
  obtain ⟨hhash, hpath⟩ := h text htext
  refine ⟨hhash, hpath.trans ?_⟩
  simp only [Project.expsPath, Project.sidecar, hroot]

/-! ### What concerns neither files nor bytes -/

theorem Calm.refl (w : Workspace) : w.Calm w := ⟨rfl, rfl, rfl, rfl⟩

theorem Calm.trans (h : w.Calm w') (h' : w'.Calm w'') : w.Calm w'' :=
  ⟨h'.files.trans h.files, h'.bytes.trans h.bytes, h'.saves.trans h.saves, h'.root.trans h.root⟩

theorem Calm.file? (h : w.Calm w') (name : String) :
    w'.file? name = w.file? name := by
  simp only [Workspace.file?, h.files]

theorem Calm.spares (h : w.Calm w') (name : String) : w.Spares w' name :=
  ⟨h.file? name, by rw [h.bytes]⟩

theorem calm_host (w : Workspace) (host : Host) : w.Calm { w with host } := ⟨rfl, rfl, rfl, rfl⟩

theorem calm_amid (w other : Workspace) : w.Calm (w.amid other) := ⟨rfl, rfl, rfl, rfl⟩

theorem calm_expsText (w : Workspace) (f : ScriptFile) (mode : ExpsLoadMode) :
    w.Calm (w.expsText f mode).2 := by
  unfold expsText
  split_ifs
  · unfold expsOnDisk
    dsimp only
    split_ifs
    · exact .refl w
    · exact .refl w
    · split
      · exact calm_host w _
      · exact calm_host w _
  · unfold expsFromProgram
    split
    · exact .refl w
    · split
      · exact calm_host w _
      · exact calm_host w _

/-- The include index is noted where the project is. -/
theorem root_noteAll (note : Project → Disk → Path → String → Except Failure Unit × Project × Disk)
    (hnote : ∀ p d path file, (note p d path file).2.1.root = p.root) (file : String)
    (paths : List Path) (p : Project) (d : Disk) :
    (Project.noteAll note file paths p d).2.1.root = p.root := by
  induction paths generalizing p d with
  | nil => rfl
  | cons path rest ih =>
    have hfirst := hnote p d path file
    unfold Project.noteAll
    split
    · next p' d' hnoted =>
      rw [hnoted] at hfirst
      exact (ih p' d').trans hfirst
    · next hnoted =>
      rw [hnoted] at hfirst
      exact hfirst

theorem root_updateUsage (p : Project) (d : Disk) (file : String) (included : PathSet) :
    (p.updateUsage d file included).2.1.root = p.root := by
  have hremoved := root_noteAll Project.removeUsage (fun _ _ _ _ => rfl) file
    ((p.inclusions d file).minus included) p d
  unfold Project.updateUsage
  dsimp only
  split
  · next hnoted =>
    rw [hnoted] at hremoved
    exact hremoved
  · next p' d' hnoted =>
    rw [hnoted] at hremoved
    have hadded := root_noteAll Project.addUsage (fun _ _ _ _ => rfl) file
      (included.minus (p.inclusions d file)) p' d'
    split
    · next hnoted' =>
      rw [hnoted'] at hadded
      exact hadded.trans hremoved
    · next hnoted' =>
      rw [hnoted'] at hadded
      exact hadded.trans hremoved

theorem calm_writeSidecars (w : Workspace) (name text digest : String) (c : Compilation) :
    w.Calm (w.writeSidecars name text digest c).2 := by
  unfold writeSidecars
  split
  · exact calm_host w _
  · next d _ =>
    have hroot := root_updateUsage w.project d name c.included
    generalize w.project.updateUsage d name c.included = updated at hroot
    obtain ⟨result, project, d'⟩ := updated
    exact ⟨rfl, rfl, rfl, hroot⟩

theorem calm_settle (w : Workspace) (d : Draft) (digest : String) : w.Calm (w.settle d digest).2 := by
  unfold settle
  split
  · exact .refl w
  · have hwritten := calm_writeSidecars w d.file.name d.text digest d.compilation
    dsimp only [tryWriteSidecars]
    split
    · next hsidecars =>
      rw [hsidecars] at hwritten
      exact hwritten
    · next v hsidecars =>
      rw [hsidecars] at hwritten
      exact hwritten.trans (calm_host v _)

/-! ### What a file is after a save -/

theorem settle_hash (w : Workspace) (d : Draft) (digest : String) :
    (w.settle d digest).1.hash = digest := by
  unfold settle
  split <;> rfl

theorem belongs_settle (w : Workspace) (d : Draft) (digest : String) :
    w.Belongs (w.settle d digest).1 := by
  intro text htext
  refine ⟨?_, ?_⟩
  · rw [settle_hash]
    unfold settle at htext
    split at htext <;> cases htext
    rfl
  · rw [settle_name]
    unfold settle at htext
    split at htext <;> cases htext
    dsimp only

end Workspace

namespace Threads

open Workspace

variable {T : Type} {s s' : Threads T} {t u : T} {w : Workspace} {f g : ScriptFile}
  {stage : Stage} {name : String}

/-! ### What a thread knows -/

/-- A thread has the lock of a file that is in use. -/
structure Holds (s : Threads T) (t : T) (name : String) : Prop where
  lock : s.holder name = some t
  used : (s.workspace.file? name).isSome

/-- A thread has the lock of a file, which is in use as the thread knows it and follows the ROM. -/
structure Keeps (s : Threads T) (t : T) (f : ScriptFile) : Prop where
  lock : s.holder f.name = some t
  used : s.workspace.file? f.name = some f
  agrees : s.workspace.Agrees f

/-- What a thread knows at a stage. -/
def Owns (s : Threads T) (t : T) : Stage → Prop
  | .idle => True
  | .absent _ => True
  -- if nobody was faster, the bytes are those that were read
  | .fetched f _ => f.exps = none ∧ (s.workspace.file? f.name = none → s.workspace.Agrees f)
  | .found _ => True
  | .hashed _ _ _ => True
  | .holding f _ => s.Keeps t f
  | .compiled d => s.Keeps t d.file
  | .written d bytes => s.Holds t d.file.name ∧ s.workspace.rom.files[d.file.name]? = some bytes
  | .flushed d digest => s.Holds t d.file.name ∧
    ∃ bytes, s.workspace.rom.files[d.file.name]? = some bytes ∧ digest = Sha256.hex bytes
  | .changed f => s.Holds t f.name ∧ s.workspace.Agrees f ∧ s.workspace.Belongs f

/-- The files in use follow the ROM, but for those that someone is about to change. -/
structure Coherent (s : Threads T) : Prop where
  named : s.workspace.Named
  saves : s.workspace.rom.saveFails = false
  belongs : ∀ name f, s.workspace.file? name = some f → s.workspace.Belongs f
  agrees : ∀ name f, s.workspace.file? name = some f → s.holder name = none → s.workspace.Agrees f
  owns : ∀ t, s.Owns t (s.stage t)

/-! ### What other threads know -/

/-- Nothing that a thread may know has changed. -/
structure Leaves (s s' : Threads T) (u : T) : Prop where
  kept : ∀ name, s.Holds u name → s'.holder name = some u ∧ s.workspace.Spares s'.workspace name
  absent : ∀ name, s'.workspace.file? name = none → s.workspace.Spares s'.workspace name
  root : s'.workspace.project.root = s.workspace.project.root

theorem Leaves.holds (hs : s.Leaves s' u) (h : s.Holds u name) : s'.Holds u name := by
  obtain ⟨hlock, hspares⟩ := hs.kept name h
  exact ⟨hlock, hspares.file ▸ h.used⟩

theorem Keeps.holds (h : s.Keeps u f) : s.Holds u f.name := ⟨h.lock, by rw [h.used]; rfl⟩

theorem Leaves.keeps (hs : s.Leaves s' u) (h : s.Keeps u f) : s'.Keeps u f := by
  obtain ⟨hlock, hspares⟩ := hs.kept f.name h.holds
  exact ⟨hlock, hspares.file.trans h.used, agrees_of_bytes h.agrees hspares.bytes⟩

theorem Leaves.owns (hs : s.Leaves s' u) (h : s.Owns u stage) : s'.Owns u stage := by
  cases stage with
  | idle => trivial
  | absent task => trivial
  | fetched f task =>
    refine ⟨h.1, fun hnone => ?_⟩
    have hspares := hs.absent f.name hnone
    exact agrees_of_bytes (h.2 (hspares.file.symm.trans hnone)) hspares.bytes
  | found task => trivial
  | hashed name digest path => trivial
  | holding f work => exact hs.keeps h
  | compiled d => exact hs.keeps h
  | written d bytes =>
    obtain ⟨hholds, hbytes⟩ := h
    exact ⟨hs.holds hholds, (hs.kept _ hholds).2.bytes.trans hbytes⟩
  | flushed d digest =>
    obtain ⟨hholds, bytes, hbytes, hdigest⟩ := h
    exact ⟨hs.holds hholds, bytes, (hs.kept _ hholds).2.bytes.trans hbytes, hdigest⟩
  | changed f =>
    obtain ⟨hholds, hagrees, hbelongs⟩ := h
    exact ⟨hs.holds hholds, agrees_of_bytes hagrees (hs.kept _ hholds).2.bytes,
      belongs_of_root hbelongs hs.root⟩

/-- A thread has moved on, and what the others know has not changed. -/
theorem Coherent.move (h : s.Coherent) (hnamed : s'.workspace.Named)
    (hsaves : s'.workspace.rom.saveFails = s.workspace.rom.saveFails)
    (hstage : ∀ u, u ≠ t → s'.stage u = s.stage u) (hleaves : ∀ u, u ≠ t → s.Leaves s' u)
    (hown : s'.Owns t (s'.stage t))
    (hfiles : ∀ k f, s'.workspace.file? k = some f →
      s'.workspace.Belongs f ∧ (s'.holder k = none → s'.workspace.Agrees f)) : s'.Coherent := by
  refine ⟨hnamed, hsaves.trans h.saves, fun k f hf => (hfiles k f hf).1,
    fun k f hf => (hfiles k f hf).2, fun u => ?_⟩
  by_cases hu : u = t
  · rw [hu]
    exact hown
  · rw [hstage u hu]
    exact (hleaves u hu).owns (h.owns u)

/-- Nobody but the thread can have the lock of the file. -/
def Owned (s : Threads T) (t : T) (name : String) : Prop := ∀ u, u ≠ t → ¬ s.Holds u name

theorem Holds.owned (h : s.Holds t name) : s.Owned t name := by
  intro u hu hother
  have hlock := hother.lock
  rw [h.lock] at hlock
  exact hu (Option.some.inj hlock).symm

theorem owned_of_free (h : s.holder name = none) (t : T) : s.Owned t name := by
  intro u _ hother
  have hlock := hother.lock
  rw [h] at hlock
  cases hlock

theorem owned_of_absent (h : s.workspace.file? name = none) (t : T) : s.Owned t name := by
  intro u _ hother
  have hused := hother.used
  rw [h] at hused
  cases hused

/-- A step that concerns one file, which no other thread has. -/
theorem Coherent.touch (h : s.Coherent) (name : String) (hnamed : s'.workspace.Named)
    (hsaves : s'.workspace.rom.saveFails = s.workspace.rom.saveFails)
    (hroot : s'.workspace.project.root = s.workspace.project.root)
    (hstage : ∀ u, u ≠ t → s'.stage u = s.stage u)
    (howned : s.Owned t name)
    (hothers : ∀ k, k ≠ name → s'.holder k = s.holder k ∧ s.workspace.Spares s'.workspace k)
    (habsent : s'.workspace.file? name = none → s.workspace.Spares s'.workspace name)
    (hown : s'.Owns t (s'.stage t))
    (hfile : ∀ f, s'.workspace.file? name = some f →
      s'.workspace.Belongs f ∧ (s'.holder name = none → s'.workspace.Agrees f)) : s'.Coherent := by
  refine h.move hnamed hsaves hstage (fun u hu => ⟨fun k hk => ?_, fun k hk => ?_, hroot⟩) hown
    fun k f hf => ?_
  · have hne : k ≠ name := by
      rintro rfl
      exact howned u hu hk
    exact ⟨(hothers k hne).1.trans hk.lock, (hothers k hne).2⟩
  · by_cases hne : k = name
    · subst hne
      exact habsent hk
    · exact (hothers k hne).2
  · by_cases hne : k = name
    · subst hne
      exact hfile f hf
    · obtain ⟨hholder, hspares⟩ := hothers k hne
      have hold := hspares.file.symm.trans hf
      refine ⟨belongs_of_root (h.belongs k f hold) hroot, fun hfree => ?_⟩
      have hname := h.named k f hold
      exact agrees_of_bytes (h.agrees k f hold (hholder.symm.trans hfree))
        (by rw [hname]; exact hspares.bytes)

/-- No thread has moved on, and the surroundings have changed. -/
theorem Coherent.around (h : s.Coherent) (hcalm : s.workspace.Calm w) (queue : T → List Task) :
    ({ s with workspace := w, queue } : Threads T).Coherent := by
  have hleaves : ∀ u, s.Leaves { s with workspace := w, queue } u := fun u =>
    ⟨fun k hk => ⟨hk.lock, hcalm.spares k⟩, fun k _ => hcalm.spares k, hcalm.root⟩
  refine ⟨fun k f hf => h.named k f ((hcalm.file? k).symm.trans hf), hcalm.saves.trans h.saves,
    fun k f hf => belongs_of_root (h.belongs k f ((hcalm.file? k).symm.trans hf)) hcalm.root,
    fun k f hf hfree => ?_, fun u => (hleaves u).owns (h.owns u)⟩
  exact agrees_of_bytes (h.agrees k f ((hcalm.file? k).symm.trans hf) hfree) (hcalm.spares f.name).bytes

/-! ### Steps -/

variable [DecidableEq T]

theorem stage_become_of_ne (s : Threads T) (w : Workspace) (stage : Stage) (h : u ≠ t) :
    (s.become t w stage).stage u = s.stage u := update_of_ne h ..

/-- A step that concerns nothing that threads share. -/
theorem Coherent.become (h : s.Coherent) (hcalm : s.workspace.Calm w)
    (hown : (s.become t w stage).Owns t stage) : (s.become t w stage).Coherent := by
  refine h.move (fun k f hf => h.named k f ((hcalm.file? k).symm.trans hf)) hcalm.saves
    (fun u hu => stage_become_of_ne s w stage hu) (fun u _ => ?_) ?_ fun k f hf => ?_
  · exact ⟨fun k hk => ⟨hk.lock, hcalm.spares k⟩, fun k _ => hcalm.spares k, hcalm.root⟩
  · rw [stage_become]
    exact hown
  · have hold : s.workspace.file? k = some f := (hcalm.file? k).symm.trans hf
    refine ⟨belongs_of_root (h.belongs k f hold) hcalm.root, fun hfree => ?_⟩
    exact agrees_of_bytes (h.agrees k f hold hfree) (hcalm.spares f.name).bytes

/-- A file that was read is put in use, unless another thread was faster. -/
theorem Coherent.insert {task : Task} (h : s.Coherent) (hs : s.stage t = .fetched f task) :
    (s.become t (s.workspace.insertIfAbsent f) (.found task)).Coherent := by
  have hown := h.owns t
  rw [hs] at hown
  obtain ⟨hexps, hagrees⟩ := hown
  unfold insertIfAbsent
  split_ifs with hthere
  · exact h.become (.refl _) trivial
  · have habsent : s.workspace.file? f.name = none := by
      rw [Std.ExtTreeMap.contains_eq_isSome_getElem?, Bool.not_eq_true, Option.isSome_eq_false_iff,
        Option.isNone_iff_eq_none] at hthere
      exact hthere
    refine h.touch f.name (named_put h.named f) rfl rfl
      (fun u hu => stage_become_of_ne s _ _ hu) (owned_of_absent habsent t)
      (fun k hk => ⟨rfl, spares_put s.workspace hk⟩) (fun hnone => ?_) ?_ fun g hg => ?_
    · rw [workspace_become, file?_put, if_pos rfl] at hnone
      cases hnone
    · rw [stage_become]
      trivial
    · rw [workspace_become, file?_put, if_pos rfl] at hg
      cases hg
      refine ⟨fun text htext => ?_, fun _ => hagrees habsent⟩
      rw [hexps] at htext
      cases htext

/-- A thread takes a free lock. -/
theorem Coherent.take (h : s.Coherent) {work : Work} (hf : s.workspace.file? f.name = some f)
    (hfree : s.holder f.name = none) : (s.take t f work).Coherent := by
  have hlock : (s.take t f work).holder f.name = some t := update_self ..
  refine h.touch f.name h.named rfl rfl
    (fun u hu => stage_become_of_ne s s.workspace (.holding f work) hu) (owned_of_free hfree t)
    (fun k hk => ⟨update_of_ne hk .., .refl s.workspace k⟩) (fun _ => .refl s.workspace f.name) ?_
    fun g hg => ⟨h.belongs f.name g hg, fun hnone => ?_⟩
  · rw [stage_take]
    exact ⟨hlock, hf, h.agrees f.name f hf hfree⟩
  · rw [hlock] at hnone
    cases hnone

/-- A thread gives a lock back without having changed the file. -/
theorem Coherent.release (h : s.Coherent) (hk : s.Keeps t f) (hcalm : s.workspace.Calm w) :
    (s.release t w f.name).Coherent := by
  have hfile : ∀ k, w.file? k = s.workspace.file? k := hcalm.file?
  refine h.touch f.name (fun k g hg => h.named k g ((hfile k).symm.trans hg)) hcalm.saves hcalm.root
    (fun u hu => stage_become_of_ne s w .idle hu) hk.holds.owned
    (fun k hne => ⟨update_of_ne hne .., hcalm.spares k⟩) (fun _ => hcalm.spares f.name) ?_
    fun g hg => ?_
  · rw [stage_release]
    trivial
  · have hsame : some f = some g := hk.used.symm.trans ((hfile f.name).symm.trans hg)
    cases hsame
    exact ⟨belongs_of_root (h.belongs f.name f hk.used) hcalm.root,
      fun _ => agrees_of_bytes hk.agrees (hcalm.spares f.name).bytes⟩

/-- A thread writes the bytes of the file whose lock it has. -/
theorem Coherent.write (h : s.Coherent) {d : Draft} {bytes : ByteArray} {rom : Rom}
    (hk : s.Keeps t d.file) (hwrite : s.workspace.rom.write d.file.name bytes = .ok rom) :
    (s.become t { s.workspace with rom } (.written d bytes)).Coherent := by
  unfold Rom.write at hwrite
  split_ifs at hwrite
  cases hwrite
  refine h.touch d.file.name h.named rfl rfl (fun u hu => stage_become_of_ne s _ _ hu) hk.holds.owned
    (fun k hne => ⟨rfl, rfl, getElem?_insert_of_ne _ bytes hne⟩) (fun hnone => ?_) ?_
    fun g hg => ⟨h.belongs _ g hg, fun hfree => ?_⟩
  · have hused := hk.used
    rw [show s.workspace.file? d.file.name = none from hnone] at hused
    cases hused
  · rw [stage_become]
    exact ⟨⟨hk.lock, hk.holds.used⟩, Std.ExtTreeMap.getElem?_insert_self⟩
  · have hlock := hk.lock
    rw [show s.holder d.file.name = none from hfree] at hlock
    cases hlock

/-- A thread changes the file whose lock it has, and gives the lock back. -/
theorem Coherent.put (h : s.Coherent) (hs : s.stage t = .changed f) :
    (s.release t (s.workspace.put f) f.name).Coherent := by
  have hown := h.owns t
  rw [hs] at hown
  obtain ⟨hholds, hagrees, hbelongs⟩ := hown
  refine h.touch f.name (named_put h.named f) rfl rfl
    (fun u hu => stage_become_of_ne s (s.workspace.put f) .idle hu) hholds.owned
    (fun k hne => ⟨update_of_ne hne .., spares_put s.workspace hne⟩)
    (fun hnone => ?_) ?_ fun g hg => ?_
  · rw [workspace_release, file?_put, if_pos rfl] at hnone
    cases hnone
  · rw [stage_release]
    trivial
  · rw [workspace_release, file?_put, if_pos rfl] at hg
    cases hg
    exact ⟨hbelongs, fun _ => hagrees⟩

theorem agrees_of_fetch {w : Workspace} (h : w.fetch name = .ok f) : f.exps = none ∧ w.Agrees f := by
  unfold fetch Rom.read at h
  split at h
  · cases h
  · cases h
  · next bytes hread =>
    split_ifs at hread
    split at h
    · cases h
    · cases h
      exact ⟨rfl, bytes, Except.ok.inj hread, rfl⟩

/-- A text was loaded, which leaves the hash of the file as it is. -/
theorem Coherent.load (h : s.Coherent) (hk : s.Keeps t f) (hcalm : s.workspace.Calm w)
    (hname : g.name = f.name) (hhash : g.hash = f.hash) (hbelongs : w.Belongs g) :
    (s.become t w (.changed g)).Coherent := by
  refine h.become hcalm ⟨⟨?_, ?_⟩, ?_, hbelongs⟩
  · rw [hname]
    exact hk.lock
  · rw [workspace_become, hcalm.file?, hname]
    exact hk.holds.used
  · obtain ⟨bytes, hbytes, hdigest⟩ := agrees_of_bytes hk.agrees (hcalm.spares f.name).bytes
    exact ⟨bytes, by rw [hname]; exact hbytes, hhash.trans hdigest⟩

/-- A thread that has the lock of a file works on it. -/
theorem Coherent.work (h : s.Coherent) (hk : s.Keeps t f) (work : Work) :
    (s.work t f work).Coherent := by
  have hsame : s.workspace.Calm s.workspace := .refl _
  cases work with
  | loadSsbs =>
    simp only [Threads.work]
    cases f.ssbs with
    | some text => exact h.release hk hsame
    | none =>
      cases s.workspace.compiler.decompileSsbs f.program with
      | error e => exact h.release hk hsame
      | ok loaded => exact h.load hk hsame rfl rfl (h.belongs f.name f hk.used)
  | loadExps mode =>
    have hcalm := calm_expsText s.workspace f mode
    simp only [Threads.work]
    cases (if mode = .strict then f.exps else none) with
    | some text => exact h.release hk hsame
    | none =>
      generalize s.workspace.expsText f mode = loaded at hcalm
      obtain ⟨answer, v⟩ := loaded
      cases answer with
      | error e => exact h.release hk hcalm
      | ok loaded =>
        refine h.load hk hcalm rfl rfl fun held hheld => ?_
        cases hheld
        dsimp only
        exact ⟨rfl, rfl⟩
  | save view text =>
    simp only [Threads.work]
    cases s.workspace.compileText view f.name text with
    | error e => exact h.release hk hsame
    | ok c => exact h.become hsame ⟨hk.lock, hk.used, hk.agrees⟩

theorem Coherent.enter (h : s.Coherent) (task : Task) : (s.enter t task).Coherent := by
  unfold Threads.enter
  split
  · exact h.become (.refl _) trivial
  · split
    · next hfree hf _ =>
      have hname := h.named _ _ hf
      exact h.take (by rw [hname]; exact hf) (by rw [hname]; exact hfree)
    · exact h.become (.refl _) trivial
    · exact h

theorem Coherent.recompile (h : s.Coherent) (name digest : String) (path : Path) :
    (s.recompile t name digest path).Coherent := by
  have hidle : (s.become t s.workspace .idle).Coherent := h.become (.refl _) trivial
  unfold Threads.recompile
  split_ifs
  · split
    · exact hidle
    · exact hidle.around (.refl _) _
  · exact h.become (calm_host _ _) trivial

/-- Every step of every thread keeps the files in use coherent. -/
theorem Coherent.step (h : s.Coherent) (t : T) : (s.step t).Coherent := by
  have hown := h.owns t
  unfold Threads.step
  cases hs : s.stage t with
  | idle =>
    dsimp only
    split
    · exact h
    · exact (h.become (.refl _) (by split_ifs <;> trivial)).around (.refl _) _
  | absent task =>
    dsimp only
    split
    · exact h.become (.refl _) trivial
    · next hfetch =>
      obtain ⟨hexps, hagrees⟩ := agrees_of_fetch hfetch
      exact h.become (.refl _) ⟨hexps, fun _ => hagrees⟩
  | fetched f task => exact h.insert hs
  | found task => exact h.enter task
  | hashed name digest path => exact h.recompile name digest path
  | holding f work =>
    rw [hs] at hown
    exact h.work hown work
  | compiled d =>
    rw [hs] at hown
    dsimp only
    split
    · exact h.release hown (.refl _)
    · split
      · exact h.release hown (.refl _)
      · next hwrite => exact h.write hown hwrite
  | written d bytes =>
    rw [hs] at hown
    obtain ⟨hholds, hbytes⟩ := hown
    have hsave : s.workspace.rom.save = .ok { s.workspace.rom with saves := s.workspace.rom.saves + 1 } := by
      rw [Rom.save, if_neg (by simp [h.saves])]
    simp only [hsave]
    exact h.become ⟨rfl, rfl, rfl, rfl⟩ ⟨⟨hholds.lock, hholds.used⟩, bytes, hbytes, rfl⟩
  | flushed d digest =>
    rw [hs] at hown
    obtain ⟨hholds, bytes, hbytes, rfl⟩ := hown
    have hcalm := calm_settle s.workspace d (Sha256.hex bytes)
    have hname := settle_name s.workspace d (Sha256.hex bytes)
    refine h.become hcalm ⟨⟨?_, ?_⟩, ⟨bytes, ?_, settle_hash ..⟩, ?_⟩
    · rw [hname]
      exact hholds.lock
    · rw [workspace_become, hcalm.file?, hname]
      exact hholds.used
    · rw [workspace_become, hcalm.bytes, hname]
      exact hbytes
    · exact belongs_of_root (belongs_settle s.workspace d _) hcalm.root
  | changed f => exact h.put hs

/-! ### Runs -/

theorem Coherent.perform (h : s.Coherent) (m : Move T) : (s.perform m).Coherent := by
  cases m with
  | order t task => exact h.around (.refl _) _
  | saveMacro t path text dependents =>
    unfold Threads.perform
    dsimp only
    split
    · exact h.around (calm_host _ _) _
    · exact h.around (calm_host _ _) _
  | step t => exact h.step t
  | beside other => exact h.around (calm_amid _ other) _

omit [DecidableEq T] in
theorem New.coherent (h : s.New) : s.Coherent := by
  have habsent : ∀ name, s.workspace.file? name = none := by
    intro name
    rw [Workspace.file?, h.files]
    simp
  have hnothing : ∀ {name f}, s.workspace.file? name = some f → False := by
    intro name f hf
    rw [habsent] at hf
    cases hf
  exact ⟨fun _ _ hf => (hnothing hf).elim, h.saves, fun _ _ hf => (hnothing hf).elim,
    fun _ _ hf => (hnothing hf).elim, fun t => by rw [h.idle]; trivial⟩

theorem Reachable.coherent (h : s.Reachable) : s.Coherent :=
  h.induction (fun _ hnew => hnew.coherent) fun _ m hs => hs.perform m

/-- Whenever nobody holds the lock of a file in use, it has the hash of its bytes in the ROM, and an
EXPS text that it holds has this hash, too, and the path where the project keeps it. -/
theorem Reachable.follows (h : s.Reachable) (hf : s.workspace.file? name = some f)
    (hfree : s.holder name = none) :
    (∃ bytes, s.workspace.rom.files[name]? = some bytes ∧ f.hash = Sha256.hex bytes) ∧
      ∀ text, f.exps = some text →
        text.hash = f.hash ∧ text.path = s.workspace.project.expsPath name := by
  have hname := h.coherent.named name f hf
  subst hname
  exact ⟨h.coherent.agrees f.name f hf hfree, h.coherent.belongs f.name f hf⟩

/-- Two threads around the small workspace of a session. -/
def pair : Threads Bool := { workspace := Session.sample.workspace }

/-- A thread reads a script from the ROM, and before it puts it in use, the other one reads it, too, saves
it and loads its EXPS text. -/
def overtaken : Threads Bool :=
  pair.run ([.order true ⟨"enter.ssb", .ask⟩, .step true, .step true,
    .order false ⟨"enter.ssb", .change (.save .ssbs (Session.waitText "6"))⟩,
    .order false ⟨"enter.ssb", .change (.loadExps .strict)⟩] ++
    .replicate 13 (.step false) ++ [.step true, .step true])

theorem follows_overtaken : ∃ f text, overtaken.workspace.file? "enter.ssb" = some f ∧
    f.exps = some text ∧ text.hash = f.hash ∧
    ∃ bytes, overtaken.workspace.rom.files["enter.ssb"]? = some bytes ∧ f.hash = Sha256.hex bytes := by
  have hrun : ((overtaken.workspace.file? "enter.ssb").bind ScriptFile.exps).isSome = true ∧
      overtaken.holder "enter.ssb" = none := by
    decide +kernel
  obtain ⟨hloaded, hfree⟩ := hrun
  obtain ⟨text, htext⟩ := Option.isSome_iff_exists.mp hloaded
  obtain ⟨f, hf, hexps⟩ := Option.bind_eq_some_iff.mp htext
  have hreachable : overtaken.Reachable := ⟨pair, ⟨rfl, rfl, fun _ => rfl, fun _ => rfl⟩, _, rfl⟩
  obtain ⟨hbytes, hbelongs⟩ := hreachable.follows hf hfree
  exact ⟨f, text, hf, hexps, (hbelongs text hexps).1, hbytes⟩

end Threads

end SceneDebugger
