import Mathlib.Data.List.Nodup
import SceneDebugger.Proofs.Workspace.Contents
import SceneDebugger.Proofs.Workspace.Notices

/-!
# SceneDebugger.Proofs.Workspace.Recompiling — scripts compiled anew, turn by turn

When a shared file was saved, the scripts that call it are compiled anew one after the other, each from
its text in the project.  A turn concerns one script: it writes the files beside its text and the include
index, and leaves the texts, maps and hashes of the others, the ROM's bytes of them, and whatever else is
on the disk.

* `Workspace.Turn`: what becomes of a script in its turn.
* `Workspace.Steady`: what a turn leaves as it was, among it the shared file.
* `Workspace.exists_turn`, `Workspace.files_recompileAll`: each script has its turn.
-/

namespace SceneDebugger

open Disk

/-- The script that an outcome is about. -/
def MacroOutcome.file : MacroOutcome → String
  | recompiled o => o.file
  | skippedStale file => file
  | failed file _ => file

/-- The ROM can be written and saved. -/
structure Rom.Writable (r : Rom) : Prop where
  write : r.writeFails = false
  save : r.saveFails = false

namespace Project

variable [Scripts] {p p' : Project} {d d' : Disk} {a : ProjectFile} {place : Place} {file text hash : String}

/-! ### Around the files of the EXPS texts -/

/-- The place is neither that of a file of the EXPS texts nor of the temporary sibling of one. -/
def Around (p : Project) (place : Place) : Prop :=
  ∀ a : ProjectFile, a.IsRecord → place ≠ a.place p ∧ place ≠ lexical (temporary (a.path p))

theorem around_withUsage (usage : PathMap (Std.ExtTreeSet String)) :
    (p.withUsage usage).Around place ↔ p.Around place := by
  have hpath : ∀ a : ProjectFile, a.path (p.withUsage usage) = a.path p := fun a => by cases a <;> rfl
  simp only [Around, place_withUsage, hpath]

theorem Around.store (h : p.Around place) (ha : a.IsRecord) (d : Disk) (what text : String) :
    d.Spares (store d what (a.path p) text).2 place := by
  rw [store_snd]
  exact spares_replace d text (h a ha).1 (h a ha).2

omit [Scripts] in
theorem spares_andThen {first : Except Failure Unit × Disk}
    {next : Disk → Except Failure Unit × Disk} (hfirst : d.Spares first.2 place)
    (hnext : ∀ d' : Disk, d'.Spares (next d').2 place) : d.Spares (andThen first next).2 place := by
  unfold andThen
  split
  next => exact hfirst.trans (hnext _)
  next => exact hfirst

theorem Around.deposit (h : p.Around place) (hfile : IsScript file) (d : Disk) (text : String)
    (m : SourceMap) (hash : String) : d.Spares (p.deposit d file text m hash).2 place := by
  unfold Project.deposit saveExps saveHash
  refine spares_andThen (spares_andThen ?_ fun d => ?_) fun d => ?_
  · exact h.store (a := .exps file) hfile d _ text
  · exact h.store (a := .map file) hfile d _ m.store
  · exact h.store (a := .hash file) hfile d _ hash

theorem Around.storeUsage (h : p.Around place) (d : Disk) : d.Spares (p.storeUsage d).2 place :=
  h.store (a := .usage) trivial d _ _

theorem Around.noteAll {note : Project → Disk → Path → String → Except Failure Unit × Project × Disk}
    {change : Change} (h : p.Around place) (hnote : Takes note change) {paths : List Path}
    {result : Except Failure Unit} (hrun : Project.noteAll note file paths p d = (result, p', d')) :
    d.Spares d' place := by
  induction paths generalizing p d with
  | nil =>
    obtain ⟨-, -, rfl⟩ : .ok () = result ∧ p = p' ∧ d = d' := by simpa [Project.noteAll] using hrun
    exact .refl d place
  | cons q rest ih =>
    obtain ⟨usage, first, d₁, -, hstored, hrest⟩ := noteAll_cons hnote hrun
    have hfirst := ((around_withUsage usage).mpr h).storeUsage d
    rw [hstored] at hfirst
    obtain ⟨e, -, -, -, rfl⟩ | ⟨-, hrest⟩ := hrest
    · exact hfirst
    · exact hfirst.trans (ih ((around_withUsage usage).mpr h) hrest)

theorem Around.updateUsage (h : p.Around place) (hfile : IsScript file) {included : PathSet}
    {result : Except Failure Unit} (hrun : p.updateUsage d file included = (result, p', d')) :
    d.Spares d' place := by
  obtain ⟨first, p₁, d₁, hfirst, hrest⟩ := updateUsage_cases hrun
  have hremoved := h.noteAll takes_removeUsage hfirst
  obtain ⟨usage, rfl⟩ := (touches_noteAll takes_removeUsage hfirst).usage
  obtain ⟨e, -, -, -, rfl⟩ | ⟨-, second, p₂, d₂, hsecond, hrest⟩ := hrest
  · exact hremoved
  have hadded := hremoved.trans (((around_withUsage usage).mpr h).noteAll takes_addUsage hsecond)
  obtain ⟨later, rfl⟩ := (touches_noteAll takes_addUsage hsecond).usage
  obtain ⟨e, -, -, -, rfl⟩ | ⟨-, rfl, hlist⟩ := hrest
  · exact hadded
  · have hsaved : d₂.Spares (((p.withUsage usage).withUsage later).saveInclusions d₂ file included).2
        place := ((around_withUsage later).mpr ((around_withUsage usage).mpr h)).store
      (a := .inclusions file) hfile d₂ _ _
    rw [hlist] at hsaved
    exact hadded.trans hsaved

theorem Around.record (h : p.Around place) (hfile : IsScript file) (d : Disk) (text hash : String)
    (c : Compilation) : d.Spares (p.record d file text hash c).2.2 place := by
  have hdeposit := h.deposit hfile d text c.sourceMap hash
  unfold Project.record
  split
  next heq =>
    rw [heq] at hdeposit
    exact hdeposit
  next d' heq =>
    rw [heq] at hdeposit
    cases hrun : p.updateUsage d' file c.included with
    | mk result rest => exact hdeposit.trans (h.updateUsage hfile hrun)

end Project

namespace Workspace

open Filing

variable {w w' w'' v : Workspace} {f : ScriptFile} {name text : String} {path : Path}

/-! ### What a turn leaves alone -/

section

variable [Scripts]

/-- The ROM can be written as before, no reload was requested, and the files around those of the EXPS
texts were left alone. -/
structure Steady (w w' : Workspace) : Prop where
  compiler : w'.compiler = w.compiler
  writable : w.rom.Writable → w'.rom.Writable
  reloads : w'.host.reloads = w.host.reloads
  project : ∃ usage, w'.project = w.project.withUsage usage
  around : ∀ place, w.project.Around place → w.host.disk.Spares w'.host.disk place

theorem Steady.refl (w : Workspace) : w.Steady w :=
  ⟨rfl, id, rfl, ⟨w.project.usage, rfl⟩, fun _ _ => .refl _ _⟩

theorem Steady.trans (h : w.Steady w') (h' : w'.Steady w'') : w.Steady w'' := by
  obtain ⟨usage, husage⟩ := h.project
  obtain ⟨later, hlater⟩ := h'.project
  refine ⟨h'.compiler.trans h.compiler, fun hw => h'.writable (h.writable hw), h'.reloads.trans h.reloads,
    ⟨later, by rw [hlater, husage]; rfl⟩, fun place hplace => (h.around place hplace).trans ?_⟩
  refine h'.around place ?_
  rw [husage]
  exact (Project.around_withUsage usage).mpr hplace

theorem steady_put (w : Workspace) (f : ScriptFile) : w.Steady (w.put f) :=
  ⟨rfl, id, rfl, ⟨w.project.usage, rfl⟩, fun _ _ => .refl _ _⟩

theorem steady_log (w : Workspace) {host : Host} (hevents : host.reloads = w.host.reloads)
    (hdisk : host.disk = w.host.disk) : w.Steady { w with host } :=
  ⟨rfl, id, hevents, ⟨w.project.usage, rfl⟩, fun place _ => spares_of_nodes (by rw [hdisk])⟩

theorem steady_get (w : Workspace) (name : String) : w.Steady (w.get name).2 := by
  unfold get
  split
  next => exact .refl w
  next =>
    split
    next => exact .refl w
    next f _ =>
      unfold insertIfAbsent
      split
      next => exact .refl w
      next => exact steady_put w f

theorem steady_writeProgram (w : Workspace) (name : String) (p : Program) :
    w.Steady (w.writeProgram name p).2 := by
  have hrom : ∀ rom : Rom, (w.rom.Writable → rom.Writable) → w.Steady { w with rom } := fun rom h =>
    ⟨rfl, h, rfl, ⟨w.project.usage, rfl⟩, fun _ _ => .refl _ _⟩
  unfold writeProgram Rom.write Rom.save
  split
  next => exact .refl w
  next =>
    split
    next => exact .refl w
    next hwrite =>
      split_ifs at hwrite
      cases hwrite
      split
      next => exact hrom _ fun h => ⟨h.write, h.save⟩
      next hsave =>
        split_ifs at hsave
        cases hsave
        exact hrom _ fun h => ⟨h.write, h.save⟩

theorem steady_tryWriteSidecars (w : Workspace) (hname : IsScript name) (text hash : String)
    (c : Compilation) : w.Steady (w.tryWriteSidecars name text hash c) := by
  have haround := fun place (h : w.project.Around place) => h.record hname w.host.disk text hash c
  unfold tryWriteSidecars
  rw [writeSidecars_eq]
  cases hrun : w.project.record w.host.disk name text hash c with
  | mk result rest =>
  obtain ⟨p', d'⟩ := rest
  rw [hrun] at haround
  obtain ⟨husage, -⟩ := Project.record_spec hname hrun
  cases result with
  | ok => exact ⟨rfl, id, rfl, husage, haround⟩
  | error e => exact ⟨rfl, id, Host.reloads_send _ rfl, husage, haround⟩

theorem steady_saveExps (w : Workspace) (hname : IsScript name) (text : String) :
    w.Steady (w.saveExps name text).2 := by
  have hasked := steady_get w name
  unfold saveExps
  split
  next hget =>
    rw [hget] at hasked
    exact hasked
  next f v hget =>
    rw [hget] at hasked
    split
    next => exact hasked
    next c _ =>
      have hwritten := hasked.trans (steady_writeProgram v name c.program)
      split
      next hwrite =>
        rw [hwrite] at hwritten
        exact hwritten
      next hash u hwrite =>
        rw [hwrite] at hwritten
        exact hwritten.trans ((steady_tryWriteSidecars u hname text hash c).trans (steady_put _ _))

theorem steady_recompile (w : Workspace) (hname : IsScript name) (path : Path) :
    w.Steady (w.recompile path name).2 := by
  have hasked : w.Steady (w.hash name).2 := by
    rw [hash, ask_snd]
    exact steady_get w name
  unfold recompile
  split
  next heq =>
    rw [heq] at hasked
    exact hasked
  next v heq =>
    rw [heq] at hasked
    split
    next =>
      split
      next => exact hasked
      next text _ _ =>
        have hsaved := hasked.trans (steady_saveExps v hname text)
        split <;>
        next hsave =>
          rw [hsave] at hsaved
          exact hsaved
    next => exact hasked.trans (steady_log v rfl rfl)

theorem steady_tryRecompile (w : Workspace) (hname : IsScript name) (path : Path) :
    w.Steady (w.tryRecompile path name).2 := by
  have hdone := steady_recompile w hname path
  unfold tryRecompile
  split
  next heq =>
    rw [heq] at hdone
    exact hdone
  next v heq =>
    rw [heq] at hdone
    exact hdone.trans (steady_log v rfl rfl)

theorem steady_recompileAll (path : Path) {names : List String}
    (hnames : ∀ name ∈ names, IsScript name) (w : Workspace) :
    w.Steady (recompileAll path names w).2 := by
  induction names generalizing w with
  | nil => exact .refl w
  | cons name rest ih =>
    exact (steady_tryRecompile w (hnames name List.mem_cons_self) path).trans
      (ih (fun other hother => hnames other (List.mem_cons_of_mem _ hother)) _)

end

/-! ### One turn -/

/-- The text of a script compiles, to a program that has bytes. -/
def Compiles (w : Workspace) (name text : String) : Prop :=
  ∃ c bytes, w.compileText .exps name text = .ok c ∧ w.compiler.encode c.program = .ok bytes

/-- Of what changes meanwhile, only the disk matters to how a text compiles. -/
theorem compileText_of_steady [Scripts] (h : w.Steady v) (view : View) (name text : String) :
    v.compileText view name text = (w.withDisk v.host.disk).compileText view name text := by
  obtain ⟨usage, husage⟩ := h.project
  have hsearch : v.project.searchPath name = w.project.searchPath name := by
    rw [husage]
    rfl
  unfold compileText
  dsimp only [withDisk, Host.withDisk]
  rw [h.compiler, hsearch]

theorem compiles_iff_of_steady [Scripts] (h : w.Steady v) :
    v.Compiles name text ↔ (w.withDisk v.host.disk).Compiles name text := by
  unfold Compiles
  rw [compileText_of_steady h, h.compiler]
  rfl

/-- What becomes of a script in use in its turn. -/
inductive Turn (w : Workspace) (name : String) (f : ScriptFile) : MacroOutcome → Prop where
  /-- Its text is recorded as compiled to other bytes. -/
  | skipped (hother : w.project.hashIs w.host.disk name f.hash = false) :
    Turn w name f (.skippedStale name)
  /-- Its text in the project was compiled, and the ROM has the new bytes. -/
  | recompiled {text : String} {m : SourceMap} {c : Compilation} {bytes : ByteArray}
    (hsame : w.project.hashIs w.host.disk name f.hash = true)
    (hload : w.project.loadExps w.host.disk name = .ok (text, m))
    (hcompile : w.compileText .exps name text = .ok c)
    (hencode : w.compiler.encode c.program = .ok bytes) :
    Turn w name f (.recompiled (outcome f .exps c (Sha256.hex bytes)))
  /-- There is no text that compiles. -/
  | failed {reason : String} (hsame : w.project.hashIs w.host.disk name f.hash = true)
    (hnot : ∀ text m, w.project.loadExps w.host.disk name = .ok (text, m) → ¬w.Compiles name text) :
    Turn w name f (.failed name reason)

theorem get_of_file? (hf : w.file? name = some f) : w.get name = (.ok f, w) := by rw [get, hf]

theorem writeProgram_of_writable (name : String) (hrom : w.rom.Writable) {p : Program} {bytes : ByteArray}
    (hencode : w.compiler.encode p = .ok bytes) :
    ∃ rom, w.writeProgram name p = (.ok (Sha256.hex bytes), { w with rom }) := by
  unfold writeProgram Rom.write Rom.save
  simp only [hencode, hrom.write, hrom.save, Bool.false_eq_true, if_false]
  exact ⟨_, rfl⟩

/-- A text is saved exactly if it compiles to a program that has bytes. -/
theorem saveExps_of_writable (hf : w.file? name = some f) (hrom : w.rom.Writable) (text : String) :
    (∃ c bytes v, w.compileText .exps name text = .ok c ∧ w.compiler.encode c.program = .ok bytes ∧
      w.saveExps name text = (.ok (outcome f .exps c (Sha256.hex bytes)), v)) ∨
    ∃ e v, w.saveExps name text = (.error e, v) ∧ ¬w.Compiles name text := by
  rw [saveExps_eq, saveWith, get_of_file? hf]
  dsimp only
  cases hcompile : w.compileText .exps name text with
  | error e =>
    refine .inr ⟨_, _, rfl, ?_⟩
    rintro ⟨c, bytes, hc, -⟩
    cases hcompile.symm.trans hc
  | ok c =>
  dsimp only
  cases hencode : w.compiler.encode c.program with
  | error e =>
    have hwrite : w.writeProgram name c.program = (.error (.other e), w) := by
      unfold writeProgram
      rw [hencode]
    rw [hwrite]
    refine .inr ⟨_, _, rfl, ?_⟩
    rintro ⟨c', bytes, hc, hbytes⟩
    cases hcompile.symm.trans hc
    cases hencode.symm.trans hbytes
  | ok bytes =>
    obtain ⟨rom, hwrite⟩ := writeProgram_of_writable name hrom hencode
    rw [hwrite]
    exact .inl ⟨c, bytes, _, rfl, hencode, rfl⟩

/-- A script in use has its turn. -/
theorem turn_tryRecompile (hf : w.file? name = some f) (hrom : w.rom.Writable) (path : Path) :
    w.Turn name f (w.tryRecompile path name).1 := by
  have hasked : w.hash name = (.ok f.hash, w) := by rw [hash, ask, get_of_file? hf]
  unfold tryRecompile recompile
  rw [hasked]
  dsimp only
  cases hhash : w.project.hashIs w.host.disk name f.hash with
  | false => exact .skipped hhash
  | true =>
  rw [if_pos rfl]
  cases hload : w.project.loadExps w.host.disk name with
  | error e =>
    refine .failed hhash fun text m h => ?_
    cases hload.symm.trans h
  | ok loaded =>
  obtain ⟨text, m⟩ := loaded
  dsimp only
  obtain ⟨c, bytes, v, hcompile, hencode, hsave⟩ | ⟨e, v, hsave, hnot⟩ :=
    saveExps_of_writable hf hrom text
  · rw [hsave]
    exact .recompiled hhash hload hcompile hencode
  · rw [hsave]
    refine .failed hhash fun text' m' h => ?_
    cases hload.symm.trans h
    exact hnot

theorem Turn.skipped_iff {outcome : MacroOutcome} (h : w.Turn name f outcome) :
    outcome = .skippedStale name ↔ w.project.hashIs w.host.disk name f.hash = false := by
  cases h <;> simp [*]

theorem Turn.recompiled_iff {outcome : MacroOutcome} (h : w.Turn name f outcome) :
    (∃ o, outcome = .recompiled o) ↔ w.project.hashIs w.host.disk name f.hash = true ∧
      ∃ text m, w.project.loadExps w.host.disk name = .ok (text, m) ∧ w.Compiles name text := by
  cases h with
  | skipped hother => simp [hother]
  | recompiled hsame hload hcompile hencode =>
    exact iff_of_true ⟨_, rfl⟩ ⟨hsame, _, _, hload, _, _, hcompile, hencode⟩
  | failed hsame hnot =>
    refine iff_of_false nofun ?_
    rintro ⟨-, text, m, hload, hcompiles⟩
    exact hnot text m hload hcompiles

theorem Turn.failed_iff {outcome : MacroOutcome} (h : w.Turn name f outcome) :
    (∃ reason, outcome = .failed name reason) ↔ w.project.hashIs w.host.disk name f.hash = true ∧
      ∀ text m, w.project.loadExps w.host.disk name = .ok (text, m) → ¬w.Compiles name text := by
  cases h with
  | skipped hother => simp [hother]
  | recompiled hsame hload hcompile hencode =>
    refine iff_of_false nofun ?_
    rintro ⟨-, hnot⟩
    exact hnot _ _ hload ⟨_, _, hcompile, hencode⟩
  | failed hsame hnot => exact iff_of_true ⟨_, rfl⟩ ⟨hsame, hnot⟩

/-- A script compiled anew was saved from its text in the project. -/
theorem Turn.compiled {o : SaveOutcome} (h : w.Turn name f (.recompiled o)) :
    ∃ text m c bytes, w.project.loadExps w.host.disk name = .ok (text, m) ∧
      w.compileText .exps name text = .ok c ∧ w.compiler.encode c.program = .ok bytes ∧
      o = outcome f .exps c (Sha256.hex bytes) := by
  cases h with
  | recompiled hsame hload hcompile hencode => exact ⟨_, _, _, _, hload, hcompile, hencode, rfl⟩

theorem Turn.ready {o : SaveOutcome} (h : w.Turn name f (.recompiled o)) :
    o.ready = !f.flags.inGround := by
  obtain ⟨-, -, c, bytes, -, -, -, rfl⟩ := h.compiled
  rfl

/-- A script that was not compiled anew is as it was before its turn. -/
theorem spares_of_not_recompiled (hf : w.file? name = some f) (hrom : w.rom.Writable)
    (hnot : ∀ o, (w.tryRecompile path name).1 ≠ .recompiled o) :
    w.Spares (w.tryRecompile path name).2 name := by
  have hturn := turn_tryRecompile hf hrom path
  cases hall : w.tryRecompile path name with
  | mk outcome v =>
  rw [hall] at hturn hnot
  cases hturn with
  | skipped hother =>
    have hasked : w.hash name = (.ok f.hash, w) := by rw [hash, ask, get_of_file? hf]
    unfold tryRecompile recompile at hall
    rw [hasked] at hall
    dsimp only at hall
    rw [if_neg (by simp [hother])] at hall
    cases hall
    exact (beside_warn w _).outside.spares name
  | recompiled hsame hload hcompile hencode => exact absurd rfl (hnot _)
  | failed hsame hnot =>
    obtain ⟨-, hundone, hfiles⟩ := fails_tryRecompile hall
    refine ⟨?_, ?_⟩
    · obtain hsame | ⟨hnone, -⟩ := hundone.file
      · exact hsame
      · cases hnone.symm.trans hf
    · rw [hfiles.mpr]
      rintro ⟨text, m, -, -, c, -, bytes, -, -, hsaves, -⟩
      cases hrom.save.symm.trans hsaves

/-! ### All turns -/

theorem file_tryRecompile (hw : w.Named) (path : Path) (name : String) :
    (w.tryRecompile path name).1.file = name := by
  cases hall : w.tryRecompile path name with
  | mk outcome v =>
  cases outcome with
  | recompiled o =>
    have houtcome : (w.tryRecompile path name).1 = .recompiled o := by rw [hall]
    exact file_of_recompiled hw houtcome
  | failed file reason => exact (fails_tryRecompile hall).1
  | skippedStale file =>
    unfold tryRecompile recompile at hall
    split at hall
    next hrecompile =>
      split at hrecompile
      next => cases hrecompile
      next =>
        split at hrecompile
        next =>
          split at hrecompile
          next => cases hrecompile
          next =>
            split at hrecompile
            next => cases hrecompile
            next =>
              cases hrecompile
              cases hall
        next =>
          cases hrecompile
          cases hall
          rfl
    next => cases hall

theorem recompileAll_cons (path : Path) (name : String) (rest : List String) (w : Workspace) :
    recompileAll path (name :: rest) w = ((w.tryRecompile path name).1 ::
      (recompileAll path rest (w.tryRecompile path name).2).1,
      (recompileAll path rest (w.tryRecompile path name).2).2) := rfl

/-- There is one outcome for each script, in their order. -/
theorem files_recompileAll (hw : w.Named) (path : Path) (names : List String) :
    (recompileAll path names w).1.map MacroOutcome.file = names := by
  induction names generalizing w with
  | nil => rfl
  | cons name rest ih =>
    rw [recompileAll_cons, List.map_cons, file_tryRecompile hw,
      ih (limited_tryRecompile hw path name).named]

/-- Each outcome is that of the turn of its script, with other turns before and after it. -/
theorem exists_turn {names : List String} {outcome : MacroOutcome} (hw : w.Named)
    (h : outcome ∈ (recompileAll path names w).1) :
    ∃ before after v, names = before ++ outcome.file :: after ∧ v = (recompileAll path before w).2 ∧
      outcome = (v.tryRecompile path outcome.file).1 ∧
      (recompileAll path names w).2 =
        (recompileAll path after (v.tryRecompile path outcome.file).2).2 := by
  induction names generalizing w with
  | nil => cases h
  | cons name rest ih =>
    rw [recompileAll_cons] at h ⊢
    obtain hnow | hlater := List.mem_cons.mp h
    · have hname : outcome.file = name := by rw [hnow, file_tryRecompile hw]
      rw [hname]
      exact ⟨[], rest, w, rfl, rfl, hnow, rfl⟩
    · obtain ⟨before, after, v, hnames, hv, houtcome, hrest⟩ :=
        ih (limited_tryRecompile hw path name).named hlater
      exact ⟨name :: before, after, v, congrArg (name :: ·) hnames, hv, houtcome, hrest⟩

/-! ### What the turns put into the project -/

section

variable [Scripts]

theorem of_saving? {y : Deposit} (h : w.saving? name text = some y) :
    y.file = name ∧ ∃ o v, w.saveExps name text = (.ok o, v) := by
  obtain ⟨e, v, -, hnone, -⟩ | ⟨f, u, c, bytes, rom, -, -, -, -, hsaving, hsave⟩ :=
    saveExps_cases w name text
  · cases hnone.symm.trans h
  · cases hsaving.symm.trans h
    exact ⟨rfl, _, _, hsave⟩

/-- Only a script that was compiled anew is put into the project. -/
theorem recompiled_of_recompiling? {y : Deposit} (hw : w.Named) (path : Path)
    (h : w.recompiling? name = some y) :
    ∃ o, (w.tryRecompile path name).1 = .recompiled o ∧ o.file = y.file := by
  have hdone : y.file = name ∧ ∃ o, (w.tryRecompile path name).1 = .recompiled o := by
    unfold recompiling? at h
    unfold tryRecompile recompile
    rcases hhash : w.hash name with ⟨e | hash, v⟩
    · rw [hhash] at h
      cases h
    · rw [hhash] at h
      dsimp only at h ⊢
      split_ifs at h with hsame
      rw [if_pos hsame]
      rcases hload : v.project.loadExps v.host.disk name with e | ⟨text, m⟩
      · rw [hload] at h
        cases h
      · rw [hload] at h
        obtain ⟨hfile, o, v', hsave⟩ := of_saving? h
        dsimp only
        rw [hsave]
        exact ⟨hfile, o, rfl⟩
  obtain ⟨hfile, o, ho⟩ := hdone
  exact ⟨o, ho, (file_of_recompiled hw ho).trans hfile.symm⟩

theorem recompiled_of_recompilings {names : List String} {x : Filing} (hw : w.Named)
    (h : x ∈ recompilings path names w) :
    ∃ o, .recompiled o ∈ (recompileAll path names w).1 ∧ o.file = x.file := by
  induction names generalizing w with
  | nil => cases h
  | cons name rest ih =>
    rw [recompileAll_cons]
    obtain hnow | hlater := List.mem_append.mp h
    · obtain ⟨y, hy, rfl⟩ := Option.map_eq_some_iff.mp (Option.mem_toList.mp hnow)
      obtain ⟨o, ho, hfile⟩ := recompiled_of_recompiling? hw path hy
      exact ⟨o, ho ▸ List.mem_cons_self, hfile⟩
    · obtain ⟨o, ho, hfile⟩ := ih (limited_tryRecompile hw path name).named hlater
      exact ⟨o, List.mem_cons_of_mem _ ho, hfile⟩

/-- The turn of a script has come: only others were put into the project meanwhile. -/
structure Awaits (w v : Workspace) (history : List Filing) (file : String) : Prop where
  kept : ∃ more, v.Kept (history ++ more) ∧ ∀ x ∈ more, x.file ≠ file
  spares : w.Spares v file
  steady : w.Steady v

theorem awaits_recompileAll {history : List Filing} {names : List String} {file : String}
    (hw : w.Kept history) (path : Path) (hnames : ∀ name ∈ names, IsScript name) (hfile : file ∉ names) :
    w.Awaits (recompileAll path names w).2 history file := by
  have hnamed := hw.stores.names
  refine ⟨⟨recompilings path names w, (filed_recompileAll path hnames hnamed).kept hw, ?_⟩,
    (spares_recompileAll path hfile hnamed).2, steady_recompileAll path hnames w⟩
  rintro x hx rfl
  obtain ⟨o, ho, heq⟩ := recompiled_of_recompilings hnamed hx
  exact hfile (heq ▸ mem_of_recompiled hnamed ho)

/-- Each script has one turn, which tells its outcome.  If it was not compiled anew, it is as before. -/
theorem turn_of_recompileAll {history : List Filing} {names : List String} {outcome : MacroOutcome}
    (hw : w.Kept history) (hrom : w.rom.Writable) (hnames : ∀ name ∈ names, IsScript name)
    (hnodup : names.Nodup) (hheld : ∀ name ∈ names, (w.file? name).isSome)
    (hmem : outcome ∈ (recompileAll path names w).1) :
    ∃ before after f v, names = before ++ outcome.file :: after ∧ v = (recompileAll path before w).2 ∧
      w.Awaits v history outcome.file ∧ w.file? outcome.file = some f ∧ v.Turn outcome.file f outcome ∧
      ((∀ o, outcome ≠ .recompiled o) → w.Spares (recompileAll path names w).2 outcome.file) := by
  obtain ⟨before, after, v, hsplit, hv, houtcome, hrest⟩ := exists_turn hw.stores.names hmem
  generalize outcome.file = file at hsplit houtcome hrest
  subst hsplit
  rw [List.nodup_middle, List.nodup_cons, List.mem_append, not_or] at hnodup
  obtain ⟨⟨hbefore, hafter⟩, -⟩ := hnodup
  have hawaits : w.Awaits v history file := hv ▸ awaits_recompileAll hw path
    (fun name hname => hnames name (List.mem_append_left _ hname)) hbefore
  obtain ⟨f, hf⟩ := Option.isSome_iff_exists.mp (hheld file (by simp))
  have hf' : v.file? file = some f := hawaits.spares.file.trans hf
  have hrom' := hawaits.steady.writable hrom
  refine ⟨before, after, f, v, rfl, hv, hawaits, hf, ?_, fun hnot => ?_⟩
  · rw [houtcome]
    exact turn_tryRecompile hf' hrom' path
  · obtain ⟨more, hkept, -⟩ := hawaits.kept
    rw [houtcome] at hnot
    have hturn := limited_tryRecompile hkept.stores.names path file
    rw [hrest]
    exact (hawaits.spares.trans (spares_of_not_recompiled hf' hrom' hnot)).trans
      (spares_recompileAll path hafter hturn.named).2

end

end Workspace

end SceneDebugger
