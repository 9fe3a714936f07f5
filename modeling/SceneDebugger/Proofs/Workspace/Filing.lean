import SceneDebugger.Proofs.Workspace.IncludeIndex
import SceneDebugger.Proofs.Workspace.Undone

/-!
# SceneDebugger.Proofs.Workspace.Filing — what is put into a project, and how far

An EXPS text is put into the project together with its source map and a hash, and after a compilation
also with the files that it calls.  These are several files, written one after the other, and any write
can fail, after which the rest is not tried.

* `Deposit`, `Filing`: what is put into the project, and how far it got (`Extent`).
* `Workspace.saving?`, `Workspace.loading?`: what a save or a load puts there.
* `Workspace.Files`, `Workspace.Unfiled`: what that changes, and what changes nothing of it.
* `Workspace.does_saveExps`, `Workspace.does_loadExps`: what saves and loads change.
-/

namespace SceneDebugger

open Disk

/-! ### What is put into a project -/

/-- How far the files of an EXPS text were written, which are written one after the other. -/
inductive Extent where
  | nothing
  | text
  | map
  | hash
  | whole
  deriving DecidableEq, Repr

namespace Extent

/-- How many steps were done. -/
def rank : Extent → Nat
  | nothing => 0
  | text => 1
  | map => 2
  | hash => 3
  | whole => 4

/-- The one was reached on the way to the other. -/
def reaches (e e' : Extent) : Bool := decide (e'.rank ≤ e.rank)

theorem reaches_trans {e e' e'' : Extent} (h : e.reaches e' = true) (h' : e'.reaches e'' = true) :
    e.reaches e'' = true :=
  decide_eq_true (Nat.le_trans (of_decide_eq_true h') (of_decide_eq_true h))

end Extent

/-- An EXPS text with what belongs to it, put into the project. -/
structure Deposit where
  file : String
  text : String
  map : SourceMap
  /-- The hash of the bytes that the text and the map belong to. -/
  hash : String
  /-- The files that the text calls; none if the text is a program written down. -/
  included : Option PathSet
  extent : Extent

/-- What is done to the files of a script's EXPS text. -/
inductive Filing where
  | put (x : Deposit)
  /-- The text that is there is recorded as compiled to other bytes. -/
  | trust (file hash : String)

/-- What was written to a file beside the text of a script. -/
def Deposit.written? (x : Deposit) : ProjectFile → Option String
  | .exps script => if script = x.file ∧ x.extent.reaches .text then some x.text else none
  | .map script => if script = x.file ∧ x.extent.reaches .map then some x.map.store else none
  | .hash script => if script = x.file ∧ x.extent.reaches .hash then some x.hash else none
  | _ => none

namespace Filing

/-- The script whose files are concerned. -/
def file : Filing → String
  | put x => x.file
  | trust file _ => file

/-- What was written to a file beside the text of a script. -/
def written? : Filing → ProjectFile → Option String
  | put x, a => x.written? a
  | trust file hash, a => if a = .hash file then some hash else none

/-- The files that a text calls, if it was compiled. -/
def included? : Filing → Option PathSet
  | put x => x.included
  | trust _ _ => none

/-- No write has failed. -/
def isWhole : Filing → Bool
  | put x => x.extent = .whole
  | trust _ _ => true

end Filing

namespace Project

variable {p p' : Project} {d d' d'' : Disk} {a b : ProjectFile} {file text hash what : String}
  {m : SourceMap} {e : Failure} {writes : ProjectFile → Option String} {touched : ProjectFile → Prop}

/-! ### Files written one after the other -/

variable [Scripts]

/-- Some files of the EXPS texts were written, and the others were left alone. -/
structure Wrote (p : Project) (d d' : Disk) (writes : ProjectFile → Option String) : Prop where
  legible : p.Legible d → p.Legible d'
  written : ∀ a : ProjectFile, a.IsRecord → ∀ text, writes a = some text →
    d'.fileAt? (a.place p) = some text
  spares : ∀ a : ProjectFile, a.IsRecord → writes a = none → d.Spares d' (a.place p)

theorem Wrote.refl (p : Project) (d : Disk) : p.Wrote d d fun _ => none :=
  ⟨id, nofun, fun _ _ _ => .refl _ _⟩

theorem Wrote.congr {writes' : ProjectFile → Option String} (h : p.Wrote d d' writes)
    (heq : ∀ a, writes a = writes' a) : p.Wrote d d' writes' := by
  rwa [← funext heq]

/-- A further file is written. -/
theorem Wrote.store (h : p.Wrote d d' writes) (hb : b.IsRecord)
    (hstored : Project.store d' what (b.path p) text = (.ok (), d'')) :
    p.Wrote d d'' fun a => if a = b then some text else writes a := by
  have hspares : ∀ a : ProjectFile, a.IsRecord → a ≠ b → d'.Spares d'' (a.place p) := fun a ha hne => by
    have := spares_store ha hb.isNamed hne p d' what text
    rwa [hstored] at this
  refine ⟨fun hd => ?_, fun a ha content hcontent => ?_, fun a ha hnone => ?_⟩
  · have := legible_store (h.legible hd) hb.isNamed what text
    rwa [hstored] at this
  · by_cases hab : a = b
    · subst hab
      rw [if_pos rfl] at hcontent
      cases hcontent
      exact fileAt?_of_replace (replace_of_store hstored)
    · rw [if_neg hab] at hcontent
      rw [(hspares a ha hab).same, h.written a ha content hcontent]
  · split_ifs at hnone with hab
    exact (h.spares a ha hnone).trans (hspares a ha hab)

/-- A further file could not be written. -/
theorem Wrote.store_error (h : p.Wrote d d' writes)
    (hstored : Project.store d' what (b.path p) text = (.error e, d'')) : p.Wrote d d'' writes := by
  have hspares : ∀ a : ProjectFile, a.IsRecord → d'.Spares d'' (a.place p) :=
    fun a ha => spares_store_of_error ha.isNamed hstored
  exact ⟨fun hd => legible_of_spares (h.legible hd) hspares,
    fun a ha content hcontent => (hspares a ha).same.trans (h.written a ha content hcontent),
    fun a ha hnone => (h.spares a ha hnone).trans (hspares a ha)⟩

/-! ### Texts put into a project -/

/-- An EXPS text with its map and hash written. -/
def deposit (p : Project) (d : Disk) (file text : String) (m : SourceMap) (hash : String) :
    Except Failure Unit × Disk :=
  andThen (p.saveExps d file text m) fun d => p.saveHash d file hash

/-- How far that gets, given whether the rest gets through. -/
def depositExtent (p : Project) (d : Disk) (file text : String) (m : SourceMap) (hash : String)
    (rest : Disk → Bool) : Extent :=
  match Project.store d "EXPS source" (p.expsPath file) text with
  | (.error _, _) => .nothing
  | (.ok (), d) =>
    match Project.store d "source map" (p.mapPath file) m.store with
    | (.error _, _) => .text
    | (.ok (), d) =>
      match p.saveHash d file hash with
      | (.error _, _) => .map
      | (.ok (), d) => if rest d then .whole else .hash

/-- A text is put into the project up to where a write fails. -/
theorem deposit_cases (p : Project) (d : Disk) (hfile : IsScript file) (text : String)
    (m : SourceMap) (hash : String) (rest : Disk → Bool) (included : Option PathSet) :
    let extent := p.depositExtent d file text m hash rest
    let x : Deposit := { file, text, map := m, hash, included, extent }
    ∃ result d', p.deposit d file text m hash = (result, d') ∧ p.Wrote d d' x.written? ∧
      ((∃ e, result = .error e) ∧ extent.reaches .hash = false ∨
        result = .ok () ∧ extent = if rest d' then .whole else .hash) := by
  intro extent x
  have hstart := Wrote.refl p d
  have hdeposit : p.deposit d file text m hash = andThen (p.saveExps d file text m) fun d =>
    p.saveHash d file hash := rfl
  have hextent : extent = p.depositExtent d file text m hash rest := rfl
  unfold saveExps andThen at hdeposit
  unfold depositExtent at hextent
  unfold saveHash at hdeposit hextent
  cases hexps : Project.store d "EXPS source" (p.expsPath file) text with
  | mk result d₁ =>
  rw [hexps] at hdeposit hextent
  cases result with
  | error e =>
    refine ⟨.error e, d₁, hdeposit, ?_, .inl ⟨⟨e, rfl⟩, by rw [hextent]; rfl⟩⟩
    refine (hstart.store_error (b := .exps file) hexps).congr fun a => ?_
    cases a <;> simp [x, Deposit.written?, hextent, Extent.reaches, Extent.rank]
  | ok =>
  have htext := hstart.store (b := .exps file) hfile hexps
  dsimp only at hdeposit hextent
  cases hmap : Project.store d₁ "source map" (p.mapPath file) m.store with
  | mk result d₂ =>
  rw [hmap] at hdeposit hextent
  cases result with
  | error e =>
    refine ⟨.error e, d₂, hdeposit, ?_, .inl ⟨⟨e, rfl⟩, by rw [hextent]; rfl⟩⟩
    refine (htext.store_error (b := .map file) hmap).congr fun a => ?_
    cases a <;> simp [x, Deposit.written?, hextent, Extent.reaches, Extent.rank]
  | ok =>
  have hboth := htext.store (b := .map file) hfile hmap
  dsimp only at hdeposit hextent
  cases hhash : Project.store d₂ "hash" (p.hashPath file) hash with
  | mk result d₃ =>
  rw [hhash] at hdeposit hextent
  cases result with
  | error e =>
    refine ⟨.error e, d₃, hdeposit, ?_, .inl ⟨⟨e, rfl⟩, by rw [hextent]; rfl⟩⟩
    refine (hboth.store_error (b := .hash file) hhash).congr fun a => ?_
    cases a <;> simp [x, Deposit.written?, hextent, Extent.reaches, Extent.rank]
  | ok =>
    refine ⟨.ok (), d₃, hdeposit, ?_, .inr ⟨rfl, hextent⟩⟩
    refine (hboth.store (b := .hash file) hfile hhash).congr fun a => ?_
    have hreaches : extent.reaches .hash = true ∧ extent.reaches .map = true ∧
        extent.reaches .text = true := by
      rw [hextent]
      dsimp only
      split <;> decide
    cases a <;> simp [x, Deposit.written?, hreaches]

theorem Wrote.touches (h : p.Wrote d d' writes) : p.Touches d (fun a => writes a ≠ none) p d' :=
  ⟨⟨p.usage, rfl⟩, h.legible, fun a ha hnot => h.spares a ha (Decidable.not_not.mp hnot)⟩

theorem Wrote.fileAt? (h : p.Wrote d d' writes) (ha : a.IsRecord) :
    d'.fileAt? (a.place p) = (writes a).or (d.fileAt? (a.place p)) := by
  cases hwrites : writes a with
  | none => exact (h.spares a ha hwrites).same
  | some text => exact h.written a ha text hwrites

/-! ### The files of a compiled text -/

/-- What becomes of the index and the lists. -/
structure Indexes (p : Project) (d : Disk) (x : Filing) (p' : Project) (d' : Disk) : Prop where
  indexed : p'.Indexed d'
  others : ∀ path other, other ≠ x.file → (Notes p'.usage path other ↔ Notes p.usage path other)
  lists : ∀ other, IsScript other → other ≠ x.file →
    p'.inclusions d' other = p.inclusions d other
  /-- The list is that of the text; notes are taken where the list before and the text differ. -/
  compiled : ∀ included, x.included? = some included → x.isWhole →
    (∀ path, (p'.inclusions d' x.file).has path = included.has path) ∧
    ∀ path, Notes p'.usage path x.file ↔
      if (p.inclusions d x.file).has path ≠ included.has path then included.has path = true
      else Notes p.usage path x.file
  uncompiled : x.included? = none →
    p'.usage = p.usage ∧ p'.inclusions d' x.file = p.inclusions d x.file

/-- No file of the EXPS texts was touched before. -/
theorem Indexes.after {x : Filing} (h : p.Indexes d' x p' d'') (ht : p.Touches d (fun _ => False) p d')
    (hd : p.Legible d) (hfile : IsScript x.file) : p.Indexes d x p' d'' := by
  have hlists : ∀ other, IsScript other → p.inclusions d' other = p.inclusions d other :=
    fun other hother => ht.inclusions hd hother id
  refine ⟨h.indexed, h.others, fun other hother hne => ?_, fun included hsome hwhole => ?_,
    fun hnone => ?_⟩
  · rw [h.lists other hother hne, hlists other hother]
  · rw [← hlists x.file hfile]
    exact h.compiled included hsome hwhole
  · rw [← hlists x.file hfile]
    exact h.uncompiled hnone

/-- No file of the EXPS texts is touched afterwards. -/
theorem Indexes.before {x : Filing} (h : p.Indexes d x p' d')
    (ht : p'.Touches d' (fun _ => False) p' d'') (hfile : IsScript x.file) :
    p.Indexes d x p' d'' := by
  have hlists : ∀ other, IsScript other → p'.inclusions d'' other = p'.inclusions d' other :=
    fun other hother => ht.inclusions h.indexed.legible hother id
  refine ⟨h.indexed.frame ht id fun _ => id, h.others, fun other hother hne => ?_,
    fun included hsome hwhole => ?_, fun hnone => ?_⟩
  · rw [hlists other hother, h.lists other hother hne]
  · rw [hlists x.file hfile]
    exact h.compiled included hsome hwhole
  · rw [hlists x.file hfile]
    exact h.uncompiled hnone

/-- Only files of texts were touched. -/
theorem Indexed.indexes {x : Filing} (h : p.Indexed d) (hx : x.included? = none ∨ x.isWhole = false)
    (ht : p.Touches d touched p d') (husage : ¬touched .usage)
    (hlists : ∀ file, ¬touched (.inclusions file)) (hfile : IsScript x.file) :
    p.Indexes d x p d' := by
  refine ⟨h.frame ht husage hlists, fun _ _ _ => .rfl,
    fun other hother _ => ht.inclusions h.legible hother (hlists other), fun included hsome hwhole => ?_,
    fun _ => ⟨rfl, ht.inclusions h.legible hfile (hlists _)⟩⟩
  obtain hnone | hnot := hx
  · cases hnone.symm.trans hsome
  · cases hnot.symm.trans hwhole

/-- A compiled text put into the project, with its map, its hash and the files that it calls. -/
def record (p : Project) (d : Disk) (file text hash : String) (c : Compilation) :
    Except Failure Unit × Project × Disk :=
  match p.deposit d file text c.sourceMap hash with
  | (.error e, d) => (.error e, p, d)
  | (.ok (), d) => p.updateUsage d file c.included

/-- What that comes to. -/
def recorded (p : Project) (d : Disk) (file text hash : String) (c : Compilation) : Deposit :=
  { file
    text
    map := c.sourceMap
    hash
    included := some c.included
    extent := p.depositExtent d file text c.sourceMap hash fun d =>
      (p.updateUsage d file c.included).1.isOk }

/-- A compiled text is put into the project. -/
theorem record_spec (hfile : IsScript file) {c : Compilation} {result : Except Failure Unit}
    (hrun : p.record d file text hash c = (result, p', d')) :
    (∃ usage, p' = p.withUsage usage) ∧ (p.Legible d → p'.Legible d') ∧
      (∀ a : ProjectFile, a.IsText → d'.fileAt? (a.place p) =
        ((p.recorded d file text hash c).written? a).or (d.fileAt? (a.place p))) ∧
      (p.Indexed d → p.Indexes d (.put (p.recorded d file text hash c)) p' d') := by
  obtain ⟨first, d₁, hdeposit, hwrote, hextent⟩ := p.deposit_cases d hfile text c.sourceMap hash
    (fun d => (p.updateUsage d file c.included).1.isOk) (some c.included)
  change p.Wrote d d₁ (p.recorded d file text hash c).written? at hwrote
  change _ ∧ (p.recorded d file text hash c).extent.reaches .hash = false ∨
    _ ∧ (p.recorded d file text hash c).extent = _ at hextent
  unfold record at hrun
  rw [hdeposit] at hrun
  obtain ⟨⟨e, rfl⟩, hshort⟩ | ⟨rfl, hextent⟩ := hextent
  · obtain ⟨-, rfl, rfl⟩ : .error e = result ∧ p = p' ∧ d₁ = d' := by simpa using hrun
    have hnot : (p.recorded d file text hash c).extent ≠ .whole := by
      intro heq
      rw [heq] at hshort
      cases hshort
    refine ⟨⟨p.usage, rfl⟩, hwrote.legible, fun a ha => hwrote.fileAt? ha.isRecord, fun hindexed => ?_⟩
    exact hindexed.indexes (.inr (decide_eq_false hnot)) hwrote.touches (by simp [Deposit.written?])
      (by simp [Deposit.written?]) hfile
  · dsimp only at hrun
    have ht := touches_updateUsage hfile hrun
    refine ⟨ht.usage, fun hd => ht.legible (hwrote.legible hd), fun a ha => ?_, fun hindexed => ?_⟩
    · have hother : ¬(a = .usage ∨ a = .inclusions file) := by
        rintro (rfl | rfl) <;> exact ha
      exact (ht.spares a ha.isRecord hother).same.trans (hwrote.fileAt? ha.isRecord)
    · have hbefore := hindexed.frame hwrote.touches (by simp [Deposit.written?])
        (by simp [Deposit.written?])
      have hlists : ∀ other, IsScript other → p.inclusions d₁ other = p.inclusions d other :=
        fun other hother => hwrote.touches.inclusions hindexed.legible hother (by simp [Deposit.written?])
      have hrecorded := hbefore.updateUsage hfile hrun
      refine ⟨hrecorded.indexed, hrecorded.others, fun other hother hne => ?_,
        fun included hsome hwhole => ?_, nofun⟩
      · rw [ht.inclusions hbefore.legible hother fun heq => ?_, hlists other hother]
        obtain heq | heq := heq
        · cases heq
        · exact hne (ProjectFile.inclusions.inj heq)
      · cases hsome
        have hok : result = .ok () := by
          have hrest := of_decide_eq_true hwhole
          rw [hextent, hrun] at hrest
          cases result with
          | ok => rfl
          | error e => cases hrest
        have hnoted := hrecorded.noted hok
        rw [hlists file hfile] at hnoted
        exact ⟨hrecorded.listed hok, hnoted⟩

end Project

namespace Workspace

variable {w w' w'' v : Workspace} {name text : String} {f : ScriptFile} {x : Filing} {e : Error}

/-! ### Where programs come from -/

/-- The hash is that of bytes that hold the program. -/
def IsHashOf (c : Compiler) (program : Program) (hash : String) : Prop :=
  ∃ bytes, hash = Sha256.hex bytes ∧ (c.decode bytes = .ok program ∨ c.encode program = .ok bytes)

/-- The files in use have the hashes of bytes that hold their programs. -/
def Genuine (w : Workspace) : Prop :=
  ∀ name f, w.file? name = some f → IsHashOf w.compiler f.program f.hash

/-- The text, the map and the hash come from one compilation, or from writing down one program. -/
def IsProduced (c : Compiler) (x : Deposit) : Prop :=
  match x.included with
  | some included => ∃ disk paths compilation bytes,
      c.compileExps disk paths x.text = .ok compilation ∧ compilation.sourceMap = x.map ∧
        compilation.included = included ∧ c.encode compilation.program = .ok bytes ∧
        x.hash = Sha256.hex bytes
  | none => ∃ program, c.decompileExps program = .ok (x.text, x.map) ∧ IsHashOf c program x.hash

theorem stays_put (w : Workspace) (f : ScriptFile) (name : String) (h : (w.file? name).isSome) :
    ((w.put f).file? name).isSome := by
  rw [file?_put]
  split
  · rfl
  · exact h

theorem genuine_put (hw : w.Genuine) (hf : IsHashOf w.compiler f.program f.hash) :
    (w.put f).Genuine := by
  intro name g hg
  rw [file?_put] at hg
  split at hg
  · cases hg
    exact hf
  · exact hw name g hg

theorem isHashOf_of_fetch (h : w.fetch name = .ok f) : IsHashOf w.compiler f.program f.hash := by
  unfold fetch at h
  split at h
  · cases h
  · cases h
  · next bytes _ =>
    split at h
    · cases h
    · next program hdecode =>
      cases h
      exact ⟨bytes, rfl, .inl hdecode⟩

/-! ### Parts of a save -/

theorem writeProgram_ok {p : Program} {hash : String} (h : w.writeProgram name p = (.ok hash, v)) :
    ∃ bytes rom, w.compiler.encode p = .ok bytes ∧ hash = Sha256.hex bytes ∧ v = { w with rom } := by
  unfold writeProgram at h
  split at h
  · cases h
  · next bytes hencode =>
    split at h
    · cases h
    · split at h
      · cases h
      · next rom _ =>
        cases h
        exact ⟨bytes, rom, hencode, rfl, rfl⟩

theorem writeSidecars_eq (w : Workspace) (name text hash : String) (c : Compilation) :
    w.writeSidecars name text hash c =
      ((w.project.record w.host.disk name text hash c).1, { w with
        project := (w.project.record w.host.disk name text hash c).2.1
        host := w.host.withDisk (w.project.record w.host.disk name text hash c).2.2 }) := by
  have hdeposit : Project.andThen (w.project.saveExps w.host.disk name text c.sourceMap) (fun d =>
      w.project.saveHash d name hash) = w.project.deposit w.host.disk name text c.sourceMap hash := rfl
  unfold writeSidecars Project.record
  rw [hdeposit]
  cases w.project.deposit w.host.disk name text c.sourceMap hash with
  | mk result d =>
    cases result with
    | error e => rfl
    | ok => dsimp only

theorem tryWriteSidecars_eq (w : Workspace) (name text hash : String) (c : Compilation) :
    ∃ host, host.disk = (w.project.record w.host.disk name text hash c).2.2 ∧
      w.tryWriteSidecars name text hash c =
        { w with project := (w.project.record w.host.disk name text hash c).2.1, host } := by
  unfold tryWriteSidecars
  rw [writeSidecars_eq]
  generalize w.project.record w.host.disk name text hash c = recorded
  obtain ⟨result, project, disk⟩ := recorded
  cases result with
  | ok => exact ⟨w.host.withDisk disk, rfl, rfl⟩
  | error e =>
    simp only [send, warn]
    exact ⟨_, rfl, rfl⟩

/-! ### Changes of a project and around it -/

variable [Scripts]

/-- Neither the EXPS texts nor what belongs to them were touched. -/
structure Unfiled (w w' : Workspace) : Prop where
  compiler : w'.compiler = w.compiler
  project : w'.project = w.project
  spares : ∀ a : ProjectFile, a.IsRecord → w.host.disk.Spares w'.host.disk (a.place w.project)
  stays : ∀ name, (w.file? name).isSome → (w'.file? name).isSome
  names : w.Named → w'.Named
  genuine : w.Genuine → w'.Genuine

theorem Unfiled.refl (w : Workspace) : w.Unfiled w :=
  ⟨rfl, rfl, fun _ _ => .refl _ _, fun _ h => h, id, id⟩

theorem Unfiled.trans (h : w.Unfiled w') (h' : w'.Unfiled w'') : w.Unfiled w'' :=
  ⟨h'.compiler.trans h.compiler, h'.project.trans h.project,
    fun a ha => (h.spares a ha).trans (h.project ▸ h'.spares a ha),
    fun name hname => h'.stays name (h.stays name hname), fun hw => h'.names (h.names hw),
    fun hw => h'.genuine (h.genuine hw)⟩

/-- Something was done to the files of a script's EXPS text. -/
structure Files (w : Workspace) (x : Filing) (w' : Workspace) : Prop where
  named : IsScript x.file
  compiler : w'.compiler = w.compiler
  project : ∃ usage, w'.project = w.project.withUsage usage
  legible : w.project.Legible w.host.disk → w'.project.Legible w'.host.disk
  texts : ∀ a : ProjectFile, a.IsText → w'.host.disk.fileAt? (a.place w.project) =
    (x.written? a).or (w.host.disk.fileAt? (a.place w.project))
  indexes : w.project.Indexed w.host.disk →
    w.project.Indexes w.host.disk x w'.project w'.host.disk
  stays : ∀ name, (w.file? name).isSome → (w'.file? name).isSome
  held : (w'.file? x.file).isSome
  names : w.Named → w'.Named
  genuine : w.Genuine → w'.Genuine
  produced : w.Genuine → ∀ y, x = .put y → IsProduced w.compiler y

/-! ### What touches no text -/

theorem Unfiled.touches (h : w.Unfiled w') :
    w.project.Touches w.host.disk (fun _ => False) w.project w'.host.disk :=
  ⟨⟨w.project.usage, rfl⟩, fun hd => Project.legible_of_spares hd h.spares, fun a ha _ => h.spares a ha⟩

/-- What changes nothing may come before. -/
theorem Unfiled.files (h : w.Unfiled w') (h' : w'.Files x w'') : w.Files x w'' := by
  have hdisk := h.touches
  obtain ⟨hnamed, hcompiler, husage, hlegible, htexts, hindexes, hstays, hheld, hnames, hgenuine,
    hproduced⟩ := h'
  rw [h.project] at husage hlegible htexts hindexes
  rw [h.compiler] at hcompiler hproduced
  refine ⟨hnamed, hcompiler, husage, fun hd => hlegible (hdisk.legible hd), fun a ha => ?_,
    fun hw => ?_, fun name hname => hstays name (h.stays name hname), hheld,
    fun hw => hnames (h.names hw), fun hw => hgenuine (h.genuine hw),
    fun hw => hproduced (h.genuine hw)⟩
  · rw [htexts a ha, (h.spares a ha.isRecord).same]
  · exact (hindexes (hw.frame hdisk id fun _ => id)).after hdisk hw.legible hnamed

/-- What changes nothing may come afterwards. -/
theorem Files.unfiled (h : w.Files x w') (h' : w'.Unfiled w'') : w.Files x w'' := by
  have hdisk := h'.touches
  obtain ⟨usage, husage⟩ := h.project
  refine ⟨h.named, h'.compiler.trans h.compiler, ⟨usage, h'.project.trans husage⟩,
    fun hd => ?_, fun a ha => ?_,
    fun hw => ?_, fun name hname => h'.stays name (h.stays name hname), h'.stays _ h.held,
    fun hw => h'.names (h.names hw), fun hw => h'.genuine (h.genuine hw), h.produced⟩
  · rw [h'.project]
    exact hdisk.legible (h.legible hd)
  · have hsame := (h'.spares a ha.isRecord).same
    rw [husage, Project.place_withUsage] at hsame
    rw [hsame, h.texts a ha]
  · rw [h'.project]
    exact (h.indexes hw).before hdisk h.named

theorem unfiled_rom (w : Workspace) (rom : Rom) : w.Unfiled { w with rom } :=
  ⟨rfl, rfl, fun _ _ => .refl _ _, fun _ h => h, id, id⟩

/-- Events and the log do not matter, nor do files that are none of the project's. -/
theorem unfiled_host (w : Workspace) {host : Host}
    (h : ∀ a : ProjectFile, a.IsRecord → w.host.disk.Spares host.disk (a.place w.project)) :
    w.Unfiled { w with host } := ⟨rfl, rfl, h, fun _ h => h, id, id⟩

theorem unfiled_put (w : Workspace) (h : w.Genuine → IsHashOf w.compiler f.program f.hash) :
    w.Unfiled (w.put f) :=
  ⟨rfl, rfl, fun _ _ => .refl _ _, stays_put w f, fun hw => named_put hw f,
    fun hw => genuine_put hw (h hw)⟩

theorem unfiled_get (w : Workspace) (name : String) : w.Unfiled (w.get name).2 := by
  unfold get
  split
  · exact .refl w
  · split
    · exact .refl w
    · next hfetch =>
      unfold insertIfAbsent
      split
      · exact .refl w
      · exact unfiled_put w fun _ => isHashOf_of_fetch hfetch

theorem Unfiled.of_get {answer : Except Error ScriptFile} (h : w.get name = (answer, v)) :
    w.Unfiled v := by
  have := unfiled_get w name
  rwa [h] at this

/-- Something is done to the files of a script's EXPS text, or nothing changes. -/
inductive Does (w : Workspace) : Option Filing → Workspace → Prop where
  | something {x : Filing} {w' : Workspace} (h : w.Files x w') : Does w (some x) w'
  | nothing {w' : Workspace} (h : w.Unfiled w') : Does w none w'

theorem Unfiled.does {x? : Option Filing} (h : w.Unfiled w') (h' : w'.Does x? w'') :
    w.Does x? w'' := by
  cases h' with
  | something h' => exact .something (h.files h')
  | nothing h' => exact .nothing (h.trans h')

theorem Does.unfiled {x? : Option Filing} (h : w.Does x? w') (h' : w'.Unfiled w'') :
    w.Does x? w'' := by
  cases h with
  | something h => exact .something (h.unfiled h')
  | nothing h => exact .nothing (h.trans h')

/-! ### The ROM -/

theorem unfiled_writeProgram (w : Workspace) (name : String) (p : Program) :
    w.Unfiled (w.writeProgram name p).2 := by
  unfold writeProgram
  split
  · exact .refl w
  · split
    · exact .refl w
    · split <;> exact unfiled_rom w _

/-! ### Saves -/

/-- What a save puts into the project, if the text can be compiled and the ROM written. -/
def saving? (w : Workspace) (name text : String) : Option Deposit :=
  match w.get name with
  | (.error _, _) => none
  | (.ok _, w) =>
    match w.compiler.compileExps w.host.disk (w.project.searchPath name) text with
    | .error _ => none
    | .ok c =>
      match w.writeProgram name c.program with
      | (.error _, _) => none
      | (.ok hash, w) => some (w.project.recorded w.host.disk name text hash c)

/-- A save changes nothing of the project, or it puts a compiled text there. -/
theorem saveExps_cases (w : Workspace) (name text : String) :
    (∃ e v, w.saveExps name text = (.error e, v) ∧ w.saving? name text = none ∧ w.Unfiled v) ∨
      ∃ f u c bytes rom, w.get name = (.ok f, u) ∧
        u.compiler.compileExps u.host.disk (u.project.searchPath name) text = .ok c ∧
        u.compiler.encode c.program = .ok bytes ∧
        u.writeProgram name c.program = (.ok (Sha256.hex bytes), { u with rom }) ∧
        w.saving? name text =
          some (u.project.recorded u.host.disk name text (Sha256.hex bytes) c) ∧
        w.saveExps name text = (.ok (outcome f .exps c (Sha256.hex bytes)),
          (({ u with rom } : Workspace).tryWriteSidecars name text (Sha256.hex bytes) c).put
            { f.recompiled .exps c.program c.sourceMap (Sha256.hex bytes) with
              ssbs := none
              exps := some { text, sourceMap := c.sourceMap, path := u.project.expsPath name,
                             hash := Sha256.hex bytes } }) := by
  unfold saveExps saving?
  cases hget : w.get name with
  | mk answer u =>
  have hu := Unfiled.of_get hget
  cases answer with
  | error e => exact .inl ⟨e, u, rfl, rfl, hu⟩
  | ok f =>
  dsimp only
  cases hcompile : u.compiler.compileExps u.host.disk (u.project.searchPath name) text with
  | error e => exact .inl ⟨.compile e, u, rfl, rfl, hu⟩
  | ok c =>
  dsimp only
  cases hwrite : u.writeProgram name c.program with
  | mk answer v =>
  have hv := unfiled_writeProgram u name c.program
  rw [hwrite] at hv
  cases answer with
  | error e => exact .inl ⟨e, v, rfl, rfl, hu.trans hv⟩
  | ok hash =>
    obtain ⟨bytes, rom, hencode, rfl, rfl⟩ := writeProgram_ok hwrite
    exact .inr ⟨f, u, c, bytes, rom, rfl, hcompile, hencode, hwrite, rfl, rfl⟩

/-- A compiled text is put into the project, and the script holds it from then on. -/
theorem files_tryWriteSidecars (w : Workspace) (hname : IsScript name) {hash : String}
    {c : Compilation} (hf : f.name = name) (hgenuine : IsHashOf w.compiler f.program f.hash)
    (hproduced : IsProduced w.compiler (w.project.recorded w.host.disk name text hash c)) :
    w.Files (.put (w.project.recorded w.host.disk name text hash c))
      ((w.tryWriteSidecars name text hash c).put f) := by
  obtain ⟨host, hdisk, htry⟩ := tryWriteSidecars_eq w name text hash c
  rw [htry]
  cases hrun : w.project.record w.host.disk name text hash c with
  | mk result rest =>
  obtain ⟨p', d'⟩ := rest
  rw [hrun] at hdisk
  dsimp only at hdisk
  obtain ⟨husage, hlegible, htexts, hindexes⟩ := Project.record_spec hname hrun
  rw [← hdisk] at hlegible htexts hindexes
  refine ⟨hname, rfl, husage, hlegible, htexts, hindexes, stays_put _ f, ?_, fun hw => named_put hw f,
    fun hw => genuine_put hw hgenuine, ?_⟩
  · rw [file?_put, hf]
    exact (congrArg Option.isSome (if_pos rfl)).trans rfl
  · rintro - y ⟨rfl⟩
    exact hproduced

/-- What a save does to the project. -/
theorem does_saveExps (hw : w.Named) (hname : IsScript name) (text : String) :
    w.Does ((w.saving? name text).map .put) (w.saveExps name text).2 := by
  obtain ⟨e, v, hsave, hnone, hv⟩ | ⟨f, u, c, bytes, rom, hget, hcompile, hencode, -, hsaving, hsave⟩ :=
    saveExps_cases w name text
  · rw [hsave, hnone]
    exact .nothing hv
  have hf : f.name = name := name_of_seen? hw (by rw [seen?, hget]; rfl)
  rw [hsave, hsaving]
  refine .something (((Unfiled.of_get hget).trans (unfiled_rom u rom)).files ?_)
  refine files_tryWriteSidecars { u with rom } hname ?_ ?_ ?_
  · simp [hf]
  · exact ⟨bytes, rfl, .inr hencode⟩
  · exact ⟨_, _, c, bytes, hcompile, rfl, rfl, hencode, rfl⟩

/-! ### Loads -/

/-- The record that a load makes of a text in the project, if it has to and can. -/
def trusting? (w : Workspace) (f : ScriptFile) (mode : ExpsLoadMode) : Option Filing :=
  if w.project.hashIs w.host.disk f.name f.hash ∨ mode = .strict then none
  else
    match w.project.saveHash w.host.disk f.name f.hash with
    | (.ok (), _) => some (.trust f.name f.hash)
    | (.error _, _) => none

/-- The program of a script as a load puts it into the project, if it can be written down. -/
def writingDown? (w : Workspace) (f : ScriptFile) : Option Filing :=
  match w.compiler.decompileExps f.program with
  | .error _ => none
  | .ok (text, map) => some (.put
      { file := f.name
        text
        map
        hash := f.hash
        included := none
        extent := w.project.depositExtent w.host.disk f.name text map f.hash fun _ => true })

/-- What a load does to the files of a script's EXPS text. -/
def loading? (w : Workspace) (name : String) (mode : ExpsLoadMode) : Option Filing :=
  match w.get name with
  | (.error _, _) => none
  | (.ok f, w) =>
    match if mode = .strict then f.exps else none with
    | some _ => none
    | none =>
      if w.project.hasExps w.host.disk name ∧ mode ≠ .decompile then w.trusting? f mode
      else w.writingDown? f

/-- A file of a script's text was written, and nothing else. -/
theorem Wrote.files {writes : ProjectFile → Option String} {host : Host}
    (h : w.project.Wrote w.host.disk host.disk writes) (hnamed : IsScript x.file)
    (hwrites : ∀ a, a.IsText → x.written? a = writes a) (husage : writes .usage = none)
    (hlists : ∀ file, writes (.inclusions file) = none) (hincluded : x.included? = none)
    (hheld : (w.file? x.file).isSome)
    (hproduced : w.Genuine → ∀ y, x = .put y → IsProduced w.compiler y) :
    w.Files x { w with host } :=
  ⟨hnamed, rfl, ⟨w.project.usage, rfl⟩, h.legible,
    fun a ha => hwrites a ha ▸ h.fileAt? ha.isRecord,
    fun hw => hw.indexes (.inl hincluded) h.touches (fun h => h husage)
      (fun file h => h (hlists file)) hnamed,
    fun _ h => h, hheld, id, id, hproduced⟩

/-- The record of a text that is loaded from the project. -/
theorem does_saveHash (w : Workspace) (hf : w.file? f.name = some f) (hnamed : IsScript f.name)
    (host : Host) (hdisk : host.disk = (w.project.saveHash w.host.disk f.name f.hash).2) :
    w.Does (if (w.project.saveHash w.host.disk f.name f.hash).1.isOk then some (.trust f.name f.hash)
      else none) { w with host } := by
  unfold Project.saveHash at hdisk ⊢
  have hstart := Project.Wrote.refl w.project w.host.disk
  cases hsaved : Project.store w.host.disk "hash" (w.project.hashPath f.name) f.hash with
  | mk result d =>
  rw [hsaved] at hdisk
  dsimp only at hdisk
  subst hdisk
  cases result with
  | error e =>
    exact .nothing (unfiled_host w fun a ha =>
      (hstart.store_error (b := .hash f.name) hsaved).spares a ha rfl)
  | ok =>
    have hwrote := hstart.store (b := .hash f.name) hnamed hsaved
    refine .something (Wrote.files hwrote hnamed (fun a _ => rfl) rfl (fun _ => rfl) rfl ?_ nofun)
    rw [Filing.file, hf]
    rfl

theorem does_expsOnDisk (w : Workspace) (hf : w.file? f.name = some f) (hnamed : IsScript f.name)
    (mode : ExpsLoadMode) : w.Does (w.trusting? f mode) (w.expsOnDisk f mode).2 := by
  unfold trusting? expsOnDisk
  dsimp only
  by_cases hhash : w.project.hashIs w.host.disk f.name f.hash = true
  · rw [if_pos (.inl hhash), if_pos hhash]
    exact .nothing (.refl w)
  by_cases hmode : mode = .strict
  · rw [if_pos (.inr hmode), if_neg hhash, if_pos hmode]
    exact .nothing (.refl w)
  rw [if_neg (by simp [hhash, hmode]), if_neg hhash, if_neg hmode]
  have hdoes := w.does_saveHash hf hnamed
    ((w.host.warn ("Loading stale EXPS text of " ++ f.name ++ " on request")).withDisk
      (w.project.saveHash w.host.disk f.name f.hash).2) rfl
  have hwarned : ∀ message, (w.warn message).project.saveHash (w.warn message).host.disk f.name
    f.hash = w.project.saveHash w.host.disk f.name f.hash := fun _ => rfl
  rw [hwarned]
  cases hsaved : w.project.saveHash w.host.disk f.name f.hash with
  | mk result d =>
  rw [hsaved] at hdoes
  cases result with
  | ok => exact hdoes
  | error e => exact hdoes

theorem does_expsFromProgram (w : Workspace) (hf : w.file? f.name = some f)
    (hnamed : IsScript f.name) : w.Does (w.writingDown? f) (w.expsFromProgram f).2 := by
  unfold writingDown? expsFromProgram
  cases hdecompile : w.compiler.decompileExps f.program with
  | error e => exact .nothing (.refl w)
  | ok written =>
    obtain ⟨text, map⟩ := written
    dsimp only
    obtain ⟨result, d, hdeposit, hwrote, -⟩ :=
      w.project.deposit_cases w.host.disk hnamed text map f.hash (fun _ => true) none
    have hrun : (Project.andThen (w.project.saveExps w.host.disk f.name text map) fun d =>
        w.project.saveHash d f.name f.hash) = (result, d) := hdeposit
    rw [hrun]
    have hfiles : w.Files (.put
        { file := f.name
          text
          map
          hash := f.hash
          included := none
          extent := w.project.depositExtent w.host.disk f.name text map f.hash fun _ => true })
        { w with host := w.host.withDisk d } := by
      refine Wrote.files hwrote hnamed (fun a _ => rfl) rfl (fun _ => rfl) rfl ?_ ?_
      · rw [Filing.file, hf]
        rfl
      · rintro hw y ⟨rfl⟩
        exact ⟨f.program, hdecompile, hw f.name f hf⟩
    cases result with
    | ok => exact .something hfiles
    | error e => exact .something hfiles

/-- What a load does to the project. -/
theorem does_loadExps (hw : w.Named) (hname : IsScript name) (mode : ExpsLoadMode) :
    w.Does (w.loading? name mode) (w.loadExps name mode).2 := by
  unfold loading? loadExps
  cases hget : w.get name with
  | mk answer u =>
  have hu := Unfiled.of_get hget
  cases answer with
  | error e => exact .nothing hu
  | ok f =>
  have hf : f.name = name := name_of_seen? hw (by rw [seen?, hget]; rfl)
  have hheld : u.file? f.name = some f := hf.symm ▸ file?_of_get hget
  have hnamed : IsScript f.name := hf.symm ▸ hname
  dsimp only
  cases (if mode = .strict then f.exps else none) with
  | some held => exact .nothing hu
  | none =>
  dsimp only
  have hsource : u.Does
      (if u.project.hasExps u.host.disk name ∧ mode ≠ .decompile then u.trusting? f mode
        else u.writingDown? f)
      (if u.project.hasExps u.host.disk name ∧ mode ≠ .decompile then u.expsOnDisk f mode
        else u.expsFromProgram f).2 := by
    split
    · exact does_expsOnDisk u hheld hnamed mode
    · exact does_expsFromProgram u hheld hnamed
  have hbeside : u.Beside (if u.project.hasExps u.host.disk name ∧ mode ≠ .decompile
      then u.expsOnDisk f mode else u.expsFromProgram f).2 := by
    split
    · exact beside_expsOnDisk u f mode
    · exact beside_expsFromProgram u f
  generalize (if u.project.hasExps u.host.disk name ∧ mode ≠ .decompile then u.expsOnDisk f mode
    else u.expsFromProgram f) = source at hsource hbeside ⊢
  obtain ⟨answer, v⟩ := source
  cases answer with
  | error e => exact hu.does hsource
  | ok loaded =>
    have hv : v.file? f.name = some f := (hbeside.file? f.name).trans hheld
    exact (hu.does hsource).unfiled (unfiled_put v fun hgenuine => hgenuine f.name f hv)

end Workspace

end SceneDebugger
