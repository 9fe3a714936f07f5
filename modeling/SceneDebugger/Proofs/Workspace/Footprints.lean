import SceneDebugger.Ground.Tracker
import SceneDebugger.Proofs.Files.Footprints
import SceneDebugger.Proofs.Workspace.Filing

/-!
# SceneDebugger.Proofs.Workspace.Footprints — what an operation writes

An operation has a footprint: the paths at which files may be written, and the scripts about which the
include index may be changed.  Most operations have none; they leave the project and the disk as they
are (`Workspace.storage`).  The others name a script, and write files beside its text.

* `Project.Rewrites`, `Workspace.Rewrites`: a change within a footprint.
* `Project.Own`: the files that are written for a script.
* `Workspace.rewrites_loadExps`, `Workspace.rewrites_saveExps`, `Workspace.rewrites_saveMacro`: the
  operations that write.
-/

namespace SceneDebugger

open Disk

namespace Project

variable {p p' p'' : Project} {d d' d'' : Disk} {paths : Path → Prop} {scripts : String → Prop}
  {q : Path} {file : String}

/-! ### Changes within a footprint -/

/-- The include index in memory was changed in what it says about some scripts, and files at some paths
were written. -/
structure Rewrites (paths : Path → Prop) (scripts : String → Prop) (p : Project) (d : Disk)
    (p' : Project) (d' : Disk) : Prop where
  usage : ∃ usage, p' = p.withUsage usage
  notes : ∀ path other, ¬scripts other → (Notes p'.usage path other ↔ Notes p.usage path other)
  disk : Disk.Rewrites paths d d'

theorem rewrites_disk (p : Project) (h : Disk.Rewrites paths d d') : Rewrites paths scripts p d p d' :=
  ⟨⟨p.usage, rfl⟩, fun _ _ _ => .rfl, h⟩

theorem Rewrites.refl (p : Project) (d : Disk) : Rewrites paths scripts p d p d :=
  rewrites_disk p (.refl d)

theorem Rewrites.trans (h : Rewrites paths scripts p d p' d')
    (h' : Rewrites paths scripts p' d' p'' d'') : Rewrites paths scripts p d p'' d'' := by
  obtain ⟨usage, rfl⟩ := h.usage
  obtain ⟨later, rfl⟩ := h'.usage
  exact ⟨⟨later, rfl⟩, fun path other hother => (h'.notes path other hother).trans
    (h.notes path other hother), h.disk.trans h'.disk⟩

/-- The files that are written for a script: those beside its text, and the include index. -/
def Own (p : Project) (file : String) (q : Path) : Prop :=
  q = p.usagePath ∨ ∃ extension ∈ ["exps", "sourcemap.json", "hash", "inclusion.json"],
    q = p.sidecar file extension

theorem own_withUsage (p : Project) (usage : PathMap (Std.ExtTreeSet String)) (file : String) :
    (p.withUsage usage).Own file = p.Own file := rfl

theorem own_exps (p : Project) (file : String) : p.Own file (p.expsPath file) :=
  .inr ⟨_, by simp, rfl⟩

theorem own_map (p : Project) (file : String) : p.Own file (p.mapPath file) := .inr ⟨_, by simp, rfl⟩

theorem own_hash (p : Project) (file : String) : p.Own file (p.hashPath file) :=
  .inr ⟨_, by simp, rfl⟩

theorem own_inclusions (p : Project) (file : String) : p.Own file (p.inclusionPath file) :=
  .inr ⟨_, by simp, rfl⟩

theorem own_usage (p : Project) (file : String) : p.Own file p.usagePath := .inl rfl

/-! ### Files of a text -/

theorem rewrites_store (hq : paths q) (d : Disk) (what text : String) :
    Disk.Rewrites paths d (store d what q text).2 := by
  rw [store_snd]
  exact rewrites_replace hq d text

theorem rewrites_andThen {first : Except Failure Unit × Disk}
    {next : Disk → Except Failure Unit × Disk} (h : Disk.Rewrites paths d first.2)
    (hnext : ∀ d, Disk.Rewrites paths d (next d).2) : Disk.Rewrites paths d (andThen first next).2 := by
  unfold andThen
  split
  · next d' => exact h.trans (hnext d')
  · exact h

/-- A text is written with its map and hash. -/
theorem rewrites_deposit (hown : ∀ q, p.Own file q → paths q) (d : Disk) (text : String)
    (m : SourceMap) (hash : String) : Disk.Rewrites paths d (p.deposit d file text m hash).2 :=
  rewrites_andThen
    (rewrites_andThen (rewrites_store (hown _ (p.own_exps file)) d _ text)
      fun d => rewrites_store (hown _ (p.own_map file)) d _ m.store)
    fun d => rewrites_store (hown _ (p.own_hash file)) d _ hash

theorem rewrites_note {change : Change} {value : Bool} (hchange : Settles change value)
    (hown : ∀ q, p.Own file q → paths q) (hfile : scripts file) (d : Disk) :
    Rewrites paths scripts p d (p.withUsage (change p.usage q file))
      ((p.withUsage (change p.usage q file)).storeUsage d).2 := by
  refine ⟨⟨_, rfl⟩, fun path other hother => ?_, rewrites_store (hown _ (p.own_usage file)) d _ _⟩
  have hne : other ≠ file := by
    rintro rfl
    exact hother hfile
  rw [withUsage_usage, hchange p.usage q file, if_neg fun h => hne h.2]

theorem rewrites_noteAll
    {note : Project → Disk → Path → String → Except Failure Unit × Project × Disk}
    {change : Change} {value : Bool} (hnote : Takes note change) (hchange : Settles change value)
    (hown : ∀ q, p.Own file q → paths q) (hfile : scripts file) {called : List Path}
    {result : Except Failure Unit} (hrun : noteAll note file called p d = (result, p', d')) :
    Rewrites paths scripts p d p' d' := by
  induction called generalizing p d with
  | nil =>
    obtain ⟨-, rfl, rfl⟩ : .ok () = result ∧ p = p' ∧ d = d' := by simpa [noteAll] using hrun
    exact .refl p d
  | cons q rest ih =>
    obtain ⟨usage, first, d₁, husage, hstored, hrest⟩ := noteAll_cons hnote hrun
    have hfirst := rewrites_note (q := q) hchange hown hfile d
    rw [← husage, hstored] at hfirst
    obtain ⟨e, -, -, rfl, rfl⟩ | ⟨-, hrest⟩ := hrest
    · exact hfirst
    · exact hfirst.trans (ih hown hrest)

/-- The called files of a script are recorded. -/
theorem rewrites_updateUsage (hown : ∀ q, p.Own file q → paths q) (hfile : scripts file)
    {included : PathSet} {result : Except Failure Unit}
    (hrun : p.updateUsage d file included = (result, p', d')) : Rewrites paths scripts p d p' d' := by
  obtain ⟨first, p₁, d₁, hfirst, hrest⟩ := updateUsage_cases hrun
  have hremoved := rewrites_noteAll takes_removeUsage settles_removeUser hown hfile hfirst
  obtain ⟨e, -, -, rfl, rfl⟩ | ⟨-, second, p₂, d₂, hsecond, hrest⟩ := hrest
  · exact hremoved
  obtain ⟨usage, rfl⟩ := hremoved.usage
  have hadded := hremoved.trans (rewrites_noteAll takes_addUsage settles_addUser
    (own_withUsage p usage file ▸ hown) hfile hsecond)
  obtain ⟨e, -, -, rfl, rfl⟩ | ⟨-, rfl, hlist⟩ := hrest
  · exact hadded
  · obtain ⟨later, rfl⟩ := hadded.usage
    have hlisted := rewrites_store (hown _ (p.own_inclusions file)) d₂ "inclusion list"
      included.toJson.pretty
    rw [← show _ = d' from congrArg Prod.snd hlist]
    exact hadded.trans (rewrites_disk _ hlisted)

/-- All files of a compiled text are written, with the index. -/
theorem rewrites_record (hown : ∀ q, p.Own file q → paths q) (hfile : scripts file) (d : Disk)
    (text hash : String) (c : Compilation) : Rewrites paths scripts p d
      (p.record d file text hash c).2.1 (p.record d file text hash c).2.2 := by
  have hdeposit : Rewrites paths scripts p d p (p.deposit d file text c.sourceMap hash).2 :=
    rewrites_disk p (rewrites_deposit hown d text c.sourceMap hash)
  unfold record
  split
  · next heq =>
    rw [heq] at hdeposit
    exact hdeposit
  · next d' heq =>
    rw [heq] at hdeposit
    generalize hrun : p.updateUsage d' file c.included = recorded
    obtain ⟨result, p', d''⟩ := recorded
    exact hdeposit.trans (rewrites_updateUsage hown hfile hrun)

end Project

namespace Workspace

variable {w w' v : Workspace} {f : ScriptFile} {name : String} {paths : Path → Prop}
  {scripts : String → Prop}

/-! ### What writes nothing -/

/-- The project and the disk. -/
def storage (w : Workspace) : Project × Disk := (w.project, w.host.disk)

theorem storage_send (w : Workspace) (event : Event) : (w.send event).storage = w.storage := rfl

theorem storage_put (w : Workspace) (f : ScriptFile) : (w.put f).storage = w.storage := rfl

theorem storage_get (w : Workspace) (name : String) : (w.get name).2.storage = w.storage := by
  unfold get
  split
  · rfl
  · split
    · rfl
    · unfold insertIfAbsent
      split <;> rfl

theorem storage_of_get {answer : Except Error ScriptFile} (h : w.get name = (answer, v)) :
    v.storage = w.storage := by
  rw [← storage_get w name, h]

theorem storage_hash (w : Workspace) (name : String) : (w.hash name).2.storage = w.storage := by
  rw [hash, ask_snd, storage_get]

theorem storage_openEditor (w : Workspace) (name : String) :
    (w.openEditor name).2.storage = w.storage := by
  unfold openEditor
  split
  · next hget => exact storage_of_get hget
  · next hget => exact (storage_put _ _).trans (storage_of_get hget)

theorem storage_finishClose (w : Workspace) (name : String) :
    (w.finishClose name).storage = w.storage := by
  unfold finishClose
  split <;> rfl

theorem storage_applyReload (w : Workspace) (name : String) :
    (w.applyReload name).2.storage = w.storage := by
  unfold applyReload
  split
  · rfl
  · split <;> rfl

theorem storage_refresh (w : Workspace) (f : ScriptFile) : (w.refresh f).storage = w.storage := by
  unfold refresh
  split <;> rfl

theorem storage_enterGround (w : Workspace) (name : String) :
    (w.enterGround name).2.storage = w.storage := by
  unfold enterGround
  split
  · next hget => exact storage_of_get hget
  · next hget =>
    split
    · exact (storage_put _ _).trans (storage_of_get hget)
    · exact (storage_refresh _ _).trans (storage_of_get hget)

theorem storage_leaveGround (w : Workspace) (name : String) :
    (w.leaveGround name).storage = w.storage := by
  unfold leaveGround
  split
  · rfl
  · exact storage_refresh w _

theorem storage_markRestored (w : Workspace) (name : String) :
    (w.markRestored name).2.storage = w.storage := by
  unfold markRestored
  split
  · next hget => exact storage_of_get hget
  · next hget => exact (storage_put _ _).trans (storage_of_get hget)

theorem storage_loadSsbs (w : Workspace) (name : String) :
    (w.loadSsbs name).2.storage = w.storage := by
  unfold loadSsbs
  split
  · next hget => exact storage_of_get hget
  · next hget =>
    split
    · exact storage_of_get hget
    · split
      · exact storage_of_get hget
      · exact (storage_put _ _).trans (storage_of_get hget)

theorem storage_writeProgram (w : Workspace) (name : String) (p : Program) :
    (w.writeProgram name p).2.storage = w.storage := by
  unfold writeProgram
  split
  · rfl
  · split
    · rfl
    · split <;> rfl

theorem storage_saveSsbs (w : Workspace) (name text : String) :
    (w.saveSsbs name text).2.storage = w.storage := by
  unfold saveSsbs
  split
  · next hget => exact storage_of_get hget
  · next f v hget =>
    split
    · exact storage_of_get hget
    · next c _ =>
      have hwritten := (storage_writeProgram v name c.program).trans (storage_of_get hget)
      split <;>
      next heq =>
        rw [heq] at hwritten
        exact hwritten

/-! ### What writes -/

/-- The project and the disk were changed within a footprint. -/
def Rewrites (paths : Path → Prop) (scripts : String → Prop) (w w' : Workspace) : Prop :=
  w.project.Rewrites paths scripts w.host.disk w'.project w'.host.disk

theorem rewrites_of_storage (h : w'.storage = w.storage) : w.Rewrites paths scripts w' := by
  obtain ⟨hproject, hdisk⟩ := Prod.mk.inj h
  unfold Rewrites
  rw [hproject, hdisk]
  exact .refl _ _

theorem Rewrites.refl (w : Workspace) : w.Rewrites paths scripts w := rewrites_of_storage rfl

theorem Rewrites.trans (h : w.Rewrites paths scripts w') (h' : w'.Rewrites paths scripts v) :
    w.Rewrites paths scripts v := Project.Rewrites.trans h h'

theorem rewrites_withDisk {disk : Disk} (h : Disk.Rewrites paths w.host.disk disk) :
    w.Rewrites paths scripts (w.withDisk disk) := Project.rewrites_disk w.project h

/-- The footprint of a script is within another one, also when the index has changed. -/
theorem Rewrites.own (h : w.Rewrites paths scripts w')
    (hown : ∀ q, w.project.Own name q → paths q) : ∀ q, w'.project.Own name q → paths q := by
  obtain ⟨usage, husage⟩ := h.usage
  rw [husage]
  exact hown

theorem own_of_storage (h : w'.storage = w.storage) (hown : ∀ q, w.project.Own name q → paths q) :
    ∀ q, w'.project.Own name q → paths q := by
  rw [(Prod.mk.inj h).1]
  exact hown

theorem rewrites_expsOnDisk (w : Workspace) (f : ScriptFile) (mode : ExpsLoadMode)
    (hown : ∀ q, w.project.Own f.name q → paths q) :
    w.Rewrites paths scripts (w.expsOnDisk f mode).2 := by
  have hhash : w.Rewrites paths scripts
      (w.withDisk (Project.store w.host.disk "hash" (w.project.hashPath f.name) f.hash).2) :=
    rewrites_withDisk
      (Project.rewrites_store (hown _ (w.project.own_hash f.name)) w.host.disk "hash" f.hash)
  unfold expsOnDisk
  dsimp only
  split
  · exact .refl w
  · split
    · exact .refl w
    · split <;>
      next heq =>
        unfold Project.saveHash at heq
        rw [show (w.warn _).host.disk = w.host.disk from rfl,
          show (w.warn _).project = w.project from rfl] at heq
        rw [heq] at hhash
        exact hhash

theorem rewrites_expsFromProgram (w : Workspace) (f : ScriptFile)
    (hown : ∀ q, w.project.Own f.name q → paths q) :
    w.Rewrites paths scripts (w.expsFromProgram f).2 := by
  unfold expsFromProgram
  split
  · exact .refl w
  · next text sourceMap _ =>
    have hdeposit : w.Rewrites paths scripts
        (w.withDisk (w.project.deposit w.host.disk f.name text sourceMap f.hash).2) :=
      rewrites_withDisk (Project.rewrites_deposit hown w.host.disk text sourceMap f.hash)
    split <;>
    next heq =>
      unfold Project.deposit at hdeposit
      rw [heq] at hdeposit
      exact hdeposit

/-- A load writes files under the name that the script has. -/
theorem rewrites_loadExps (w : Workspace) (name : String) (mode : ExpsLoadMode)
    (hown : ∀ f v, w.get name = (.ok f, v) → ∀ q, w.project.Own f.name q → paths q) :
    w.Rewrites paths scripts (w.loadExps name mode).2 := by
  unfold loadExps
  split
  · next hget => exact rewrites_of_storage (storage_of_get hget)
  · next f v hget =>
    have hstorage := storage_of_get hget
    have hownv := own_of_storage hstorage (hown f v hget)
    split
    · exact rewrites_of_storage hstorage
    · have hloaded : w.Rewrites paths scripts
          (if v.project.hasExps v.host.disk name ∧ mode ≠ .decompile then v.expsOnDisk f mode
            else v.expsFromProgram f).2 := by
        refine (rewrites_of_storage hstorage).trans ?_
        split
        · exact rewrites_expsOnDisk v f mode hownv
        · exact rewrites_expsFromProgram v f hownv
      split <;>
      next heq =>
        rw [heq] at hloaded
        exact hloaded

theorem rewrites_tryWriteSidecars (w : Workspace) (name text hash : String) (c : Compilation)
    (hown : ∀ q, w.project.Own name q → paths q) (hname : scripts name) :
    w.Rewrites paths scripts (w.tryWriteSidecars name text hash c) := by
  obtain ⟨host, hdisk, heq⟩ := w.tryWriteSidecars_eq name text hash c
  rw [heq]
  unfold Rewrites
  dsimp only
  rw [hdisk]
  exact Project.rewrites_record hown hname _ text hash c

theorem rewrites_saveExps (w : Workspace) (name text : String)
    (hown : ∀ q, w.project.Own name q → paths q) (hname : scripts name) :
    w.Rewrites paths scripts (w.saveExps name text).2 := by
  unfold saveExps
  split
  · next hget => exact rewrites_of_storage (storage_of_get hget)
  · next f v hget =>
    have hstorage := storage_of_get hget
    split
    · exact rewrites_of_storage hstorage
    · next c _ =>
      have hwritten := (storage_writeProgram v name c.program).trans hstorage
      split
      · next heq =>
        rw [heq] at hwritten
        exact rewrites_of_storage hwritten
      · next hash u heq =>
        rw [heq] at hwritten
        exact (rewrites_of_storage hwritten).trans
          (rewrites_tryWriteSidecars u name text hash c (own_of_storage hwritten hown) hname)

/-! ### Shared files -/

theorem rewrites_recompile (w : Workspace) (path : Path) (name : String)
    (hown : ∀ q, w.project.Own name q → paths q) (hname : scripts name) :
    w.Rewrites paths scripts (w.recompile path name).2 := by
  have hhash := storage_hash w name
  unfold recompile
  split
  · next heq =>
    rw [heq] at hhash
    exact rewrites_of_storage hhash
  · next hash v heq =>
    rw [heq] at hhash
    split
    · split
      · exact rewrites_of_storage hhash
      · next text _ _ =>
        have hsaved := (rewrites_of_storage hhash).trans
          (rewrites_saveExps v name text (own_of_storage hhash hown) hname)
        split <;>
        next hsave =>
          rw [hsave] at hsaved
          exact hsaved
    · exact rewrites_of_storage hhash

theorem rewrites_tryRecompile (w : Workspace) (path : Path) (name : String)
    (hown : ∀ q, w.project.Own name q → paths q) (hname : scripts name) :
    w.Rewrites paths scripts (w.tryRecompile path name).2 := by
  have hturn := rewrites_recompile w path name hown hname
  unfold tryRecompile
  split <;>
  next heq =>
    rw [heq] at hturn
    exact hturn

theorem rewrites_recompileAll (path : Path) (names : List String) (w : Workspace)
    (hown : ∀ name ∈ names, ∀ q, w.project.Own name q → paths q) (hnames : ∀ name ∈ names, scripts name) :
    w.Rewrites paths scripts (recompileAll path names w).2 := by
  induction names generalizing w with
  | nil => exact .refl w
  | cons name rest ih =>
    have hturn := rewrites_tryRecompile w path name (hown name List.mem_cons_self)
      (hnames name List.mem_cons_self)
    refine hturn.trans (ih _ (fun other hother => hturn.own ?_) fun other hother => ?_)
    · exact hown other (List.mem_cons_of_mem _ hother)
    · exact hnames other (List.mem_cons_of_mem _ hother)

theorem rewrites_saveMacro (w : Workspace) (path : Path) (text : String) (names : List String)
    (hpath : paths path) (hown : ∀ name ∈ names, ∀ q, w.project.Own name q → paths q)
    (hnames : ∀ name ∈ names, scripts name) :
    w.Rewrites paths scripts (w.saveMacro path text names).2 := by
  have hstored : w.Rewrites paths scripts
      (w.withDisk (Project.store w.host.disk "macro" path text).2) :=
    rewrites_withDisk (Project.rewrites_store hpath w.host.disk "macro" text)
  unfold saveMacro
  split
  · next heq =>
    unfold Project.saveMacro at heq
    rw [heq] at hstored
    exact hstored
  · next d heq =>
    unfold Project.saveMacro at heq
    rw [heq] at hstored
    exact hstored.trans (rewrites_recompileAll path names _ hown hnames)

end Workspace

/-! ### The game -/

namespace Ground

open Workspace

theorem storage_release (g : Ground) (w : Workspace) (file : String) :
    (g.release w file).storage = w.storage := by
  unfold release
  split
  · rfl
  · exact storage_leaveGround w file

theorem storage_releaseAll (g : Ground) (w : Workspace) (files : List String) :
    (g.releaseAll w files).storage = w.storage :=
  List.foldlRecOn (motive := fun v : Workspace => v.storage = w.storage) files _ rfl
    fun v hv file _ => (storage_release g v file).trans hv

theorem storage_start (g : Ground) (w : Workspace) : (g.start w).2.storage = w.storage :=
  storage_releaseAll _ w _

theorem storage_quit (g : Ground) (w : Workspace) : (g.quit w).2.storage = w.storage :=
  storage_releaseAll _ w _

theorem storage_changeMap (g : Ground) (w : Workspace) : (g.changeMap w).2.storage = w.storage :=
  storage_releaseAll _ w _

theorem storage_announce (g : Ground) (w : Workspace) (hanger : Nat) :
    (g.announce w hanger).2.storage = w.storage := by
  unfold announce
  dsimp only
  split
  · rfl
  · split <;> rfl

theorem storage_loadScene (g : Ground) (w : Workspace) (hanger : Nat) (name : String) :
    (g.loadScene w hanger name).2.storage = w.storage := by
  unfold loadScene
  split
  · exact storage_announce _ w hanger
  · rfl

theorem storage_loadTalk (g : Ground) (w : Workspace) (hanger : Nat) :
    (g.loadTalk w hanger).2.storage = w.storage := storage_announce g w _

theorem storage_enter (w : Workspace) (file : String) : (enter w file).storage = w.storage := by
  have hentered := storage_enterGround w file
  unfold enter
  split <;>
  next heq =>
    rw [heq] at hentered
    exact hentered

theorem storage_hashOf (w : Workspace) (file : String) : (hashOf w file).2.storage = w.storage := by
  have hasked := storage_hash w file
  unfold hashOf
  split <;>
  next heq =>
    rw [heq] at hasked
    exact hasked

theorem storage_place (g : Ground) (w : Workspace) (slot : Nat) (file : String) :
    (g.place w slot file).2.storage = w.storage := by
  have hasked := (storage_hashOf (enter w file) file).trans (storage_enter w file)
  unfold place
  dsimp only
  rw [storage_send]
  split
  · exact hasked
  · exact (storage_release _ _ _).trans hasked

theorem storage_loadScript (g : Ground) (w : Workspace) (file : String) :
    (g.loadScript w file).2.storage = w.storage := by
  unfold loadScript
  dsimp only
  split
  · exact storage_place _ w _ file
  · rfl

theorem storage_restoreScript (stale : List String) (w : Workspace) (script : LoadedScript) :
    (restoreScript stale w script).2.storage = w.storage := by
  have hentered := storage_enterGround w script.file
  unfold restoreScript
  split
  · next heq =>
    rw [heq] at hentered
    exact hentered
  · next v heq =>
    rw [heq] at hentered
    have hasked := (storage_hashOf v script.file).trans hentered
    generalize hashOf v script.file = answer at hasked
    obtain ⟨hash, u⟩ := answer
    dsimp only
    split
    · exact hasked
    · have hmarked := (storage_markRestored u script.file).trans hasked
      split <;>
      next heq =>
        rw [heq] at hmarked
        exact hmarked

theorem storage_restoreScripts (w : Workspace) (scripts : List LoadedScript) :
    (restoreScripts w scripts).2.storage = w.storage := by
  unfold restoreScripts
  exact List.foldlRecOn (motive := fun result : List String × Workspace =>
    result.2.storage = w.storage) scripts _ rfl fun result h script _ =>
      (storage_restoreScript result.1 result.2 script).trans h

theorem storage_reportStale (w : Workspace) (stale : List String) :
    (reportStale w stale).storage = w.storage := by
  unfold reportStale
  split <;> rfl

theorem storage_restore (g : Ground) (w : Workspace) (s : GroundSnapshot) :
    (g.restore w s).2.2.storage = w.storage := by
  have hleft : ((g.files.filter fun file => !(ofSnapshot s).holds file).foldl leaveGround w).storage =
      w.storage :=
    List.foldlRecOn (motive := fun v : Workspace => v.storage = w.storage) _ _ rfl
      fun v hv file _ => (storage_leaveGround v file).trans hv
  exact (storage_reportStale _ _).trans ((storage_restoreScripts _ _).trans hleft)

end Ground

end SceneDebugger
