import Mathlib.Control.Monad.Basic
import SceneDebugger.Proofs.Digest.Sha256
import SceneDebugger.Proofs.Workspace.Filing
import SceneDebugger.Script.LineLanguage

/-!
# SceneDebugger.Proofs.Workspace.FailedLoads — what a failed load of an EXPS text leaves behind

A load can write to the project: the program written down, or the hash of a text that is to count as
compiled to the ROM's bytes.  The program is written down before anything is written, and the hash of
its bytes comes last, so such a load fails with all of its writes or with none.  The other hash is
written before the text and its map are read, and stays if these cannot be read.

* `Workspace.writesOf`: the writes of a load, one after the other up to the first that fails
  (`Workspace.attempts_loadExps`).
* `Workspace.isUpToDate`: the texts that are compiled anew when a shared file is saved.
* `Workspace.unchanged_failedLoad_iff`: when a load that fails without a failed write changes nothing.
-/

namespace SceneDebugger

/-! ### Files written one after the other -/

/-- A file of the project to be written. -/
structure Writing where
  what : String
  path : Path
  text : String
  deriving DecidableEq, Repr

namespace Project

/-- Files written one after the other, up to the first that cannot be. -/
def storeAll (d : Disk) : List Writing → Except Failure Unit × Disk
  | [] => (.ok (), d)
  | x :: rest => andThen (store d x.what x.path x.text) fun d => storeAll d rest

theorem andThen_assoc (first : Except Failure Unit × Disk) (next last : Disk → Except Failure Unit × Disk) :
    andThen (andThen first next) last = andThen first fun d => andThen (next d) last := by
  obtain ⟨result, d⟩ := first
  cases result <;> rfl

theorem andThen_done (first : Except Failure Unit × Disk) : andThen first (fun d => (.ok (), d)) = first := by
  obtain ⟨result, d⟩ := first
  cases result <;> rfl

theorem storeAll_single (d : Disk) (x : Writing) : storeAll d [x] = store d x.what x.path x.text :=
  andThen_done _

/-- The hash that a text is recorded with. -/
def hashWriting (p : Project) (file hash : String) : Writing := ⟨"hash", p.hashPath file, hash⟩

/-- A text put into the project, with its map and then its hash. -/
def depositWritings (p : Project) (file text : String) (m : SourceMap) (hash : String) : List Writing :=
  [⟨"EXPS source", p.expsPath file, text⟩, ⟨"source map", p.mapPath file, m.store⟩, p.hashWriting file hash]

theorem storeAll_hashWriting (p : Project) (d : Disk) (file hash : String) :
    storeAll d [p.hashWriting file hash] = p.saveHash d file hash :=
  storeAll_single d _

theorem storeAll_depositWritings (p : Project) (d : Disk) (file text : String) (m : SourceMap)
    (hash : String) :
    storeAll d (p.depositWritings file text m hash) =
      andThen (p.saveExps d file text m) fun d => p.saveHash d file hash := by
  rw [saveExps, andThen_assoc]
  simp only [depositWritings, hashWriting, storeAll, andThen_done, saveHash]

/-- A hash that was recorded is recorded. -/
theorem hashIs_of_saveHash {p : Project} {d d' : Disk} {file hash : String}
    (hplain : String.ofList (Text.trim hash.toList) = hash)
    (h : p.saveHash d file hash = (.ok (), d')) : p.hashIs d' file hash = true := by
  have hstored : store d "hash" (p.hashPath file) hash = (.ok (), d') := h
  have hread : d'.read (p.hashPath file) = .ok hash := Disk.read_of_replace (replace_of_store hstored)
  unfold hashIs
  rw [hread]
  exact beq_iff_eq.mpr hplain

end Project

namespace Workspace

variable {w v : Workspace} {name k : String} {f : ScriptFile} {mode : ExpsLoadMode} {e : Error}

theorem undone_of_get {answer : Except Error ScriptFile} (h : w.get name = (answer, v)) :
    w.Undone v name ∧ v.rom = w.rom := by
  have hget := undone_get w name
  rwa [h] at hget

/-! ### Texts that are up to date -/

/-- The recorded hash of the script's text is that of its bytes. -/
def isUpToDate (w : Workspace) (k : String) : Bool :=
  (w.seen? k).any fun f => w.project.hashIs w.host.disk k f.hash

/-! ### Writes -/

/-- The hash that a load of a text in the project records. -/
def recordingsOf (w : Workspace) (f : ScriptFile) (mode : ExpsLoadMode) : List Writing :=
  if w.project.hashIs w.host.disk f.name f.hash ∨ mode = .strict then []
  else [w.project.hashWriting f.name f.hash]

/-- The program of a script written down, as a load puts it into the project. -/
def depositsOf (w : Workspace) (f : ScriptFile) : List Writing :=
  match w.compiler.decompileExps f.program with
  | .error _ => []
  | .ok (text, sourceMap) => w.project.depositWritings f.name text sourceMap f.hash

/-- The text and the map of a script that are not held. -/
def reading (w : Workspace) (name : String) (f : ScriptFile) (mode : ExpsLoadMode) :
    Except Error (String × SourceMap) × Workspace :=
  if w.project.hasExps w.host.disk name ∧ mode ≠ .decompile then w.expsOnDisk f mode else w.expsFromProgram f

/-- The writes of taking them from the project or the program. -/
def writesOfReading (w : Workspace) (name : String) (f : ScriptFile) (mode : ExpsLoadMode) : List Writing :=
  if w.project.hasExps w.host.disk name ∧ mode ≠ .decompile then w.recordingsOf f mode else w.depositsOf f

/-- The writes of a load. -/
def writesOf (w : Workspace) (name : String) (mode : ExpsLoadMode) : List Writing :=
  match w.get name with
  | (.error _, _) => []
  | (.ok f, w) =>
    match if mode = .strict then f.exps else none with
    | some _ => []
    | none => w.writesOfReading name f mode

/-- The writes are carried out in order, up to the first that fails, which the answer tells. -/
structure Attempts {α : Type} (w : Workspace) (writes : List Writing) (answer : Except Error α × Workspace) :
    Prop where
  disk : answer.2.host.disk = (Project.storeAll w.host.disk writes).2
  failed : ∀ failure, (Project.storeAll w.host.disk writes).1 = .error failure →
    answer.1 = .error (.ofFailure failure)

theorem attempts_nothing {α : Type} (w : Workspace) (answer : Except Error α) : w.Attempts [] (answer, w) :=
  ⟨rfl, nofun⟩

theorem attempts_of_storeAll {α : Type} {writes : List Writing} {answer : Except Error α × Workspace}
    {result : Except Failure Unit} (hstored : Project.storeAll w.host.disk writes = (result, answer.2.host.disk))
    (hfailed : ∀ failure, result = .error failure → answer.1 = .error (.ofFailure failure)) :
    w.Attempts writes answer where
  disk := by rw [hstored]
  failed failure h := hfailed failure (by rw [← h, hstored])

/-- A warning touches no file. -/
theorem saveHash_warn (w : Workspace) (message file hash : String) :
    (w.warn message).project.saveHash (w.warn message).host.disk file hash =
      w.project.saveHash w.host.disk file hash := rfl

theorem attempts_expsOnDisk (w : Workspace) (f : ScriptFile) (mode : ExpsLoadMode) :
    w.Attempts (w.recordingsOf f mode) (w.expsOnDisk f mode) := by
  unfold recordingsOf expsOnDisk
  dsimp only
  by_cases hhash : w.project.hashIs w.host.disk f.name f.hash = true
  · rw [if_pos (.inl hhash), if_pos hhash]
    exact w.attempts_nothing _
  by_cases hmode : mode = .strict
  · rw [if_pos (.inr hmode), if_neg hhash, if_pos hmode]
    exact w.attempts_nothing _
  rw [if_neg (not_or.mpr ⟨hhash, hmode⟩), if_neg hhash, if_neg hmode, saveHash_warn]
  have hstored := Project.storeAll_hashWriting w.project w.host.disk f.name f.hash
  cases hsaved : w.project.saveHash w.host.disk f.name f.hash with
  | mk result d =>
  rw [hsaved] at hstored
  cases result with
  | error reason =>
    refine attempts_of_storeAll hstored fun failure h => ?_
    cases h
    rfl
  | ok => exact attempts_of_storeAll hstored nofun

theorem attempts_expsFromProgram (w : Workspace) (f : ScriptFile) :
    w.Attempts (w.depositsOf f) (w.expsFromProgram f) := by
  unfold depositsOf expsFromProgram
  cases w.compiler.decompileExps f.program with
  | error reason => exact w.attempts_nothing _
  | ok written =>
  obtain ⟨text, map⟩ := written
  dsimp only
  rw [← Project.storeAll_depositWritings]
  cases hstored : Project.storeAll w.host.disk (w.project.depositWritings f.name text map f.hash) with
  | mk result d =>
  cases result with
  | error reason =>
    refine attempts_of_storeAll hstored fun failure h => ?_
    cases h
    rfl
  | ok => exact attempts_of_storeAll hstored nofun

theorem attempts_reading (w : Workspace) (name : String) (f : ScriptFile) (mode : ExpsLoadMode) :
    w.Attempts (w.writesOfReading name f mode) (w.reading name f mode) := by
  unfold writesOfReading reading
  split_ifs
  · exact w.attempts_expsOnDisk f mode
  · exact w.attempts_expsFromProgram f

/-- The writes of a load are those it carries out. -/
theorem attempts_loadExps (w : Workspace) (name : String) (mode : ExpsLoadMode) :
    w.Attempts (w.writesOf name mode) (w.loadExps name mode) := by
  unfold writesOf loadExps
  cases hget : w.get name with
  | mk asked v =>
  have hdisk : v.host.disk = w.host.disk := (undone_of_get hget).1.disk
  have hasked {α : Type} {writes : List Writing} {answer : Except Error α × Workspace}
      (h : v.Attempts writes answer) : w.Attempts writes answer :=
    ⟨hdisk ▸ h.disk, hdisk ▸ h.failed⟩
  cases asked with
  | error reason => exact hasked (v.attempts_nothing _)
  | ok f =>
  dsimp only
  cases (if mode = .strict then f.exps else none) with
  | some text => exact hasked (v.attempts_nothing _)
  | none =>
  have hread := v.attempts_reading name f mode
  cases hreading : v.reading name f mode with
  | mk result u =>
  rw [hreading] at hread
  rw [reading] at hreading
  rw [hreading]
  refine hasked ?_
  cases result with
  | error reason =>
    exact ⟨hread.disk, fun failure h => congrArg _ (Except.error.inj (hread.failed failure h))⟩
  | ok loaded => exact ⟨hread.disk, fun failure h => by cases hread.failed failure h⟩

/-! ### Failed loads -/

/-- Every file has the hash of bytes that hold its program. -/
theorem Genuine.seen (hw : w.Genuine) (h : w.seen? name = some f) : IsHashOf w.compiler f.program f.hash := by
  cases hname : w.file? name with
  | some g =>
    rw [seen?_of_file? hname] at h
    cases h
    exact hw name f hname
  | none =>
    rw [seen?_of_absent hname] at h
    cases hfetch : w.fetch name with
    | error reason =>
      rw [hfetch] at h
      cases h
    | ok g =>
      rw [hfetch] at h
      cases h
      exact isHashOf_of_fetch hfetch

/-- Nothing has changed but the log; the one file may be in use now, as the ROM has it. -/
structure Unchanged (w v : Workspace) (name : String) : Prop extends Undone w v name where
  same : v.rom = w.rom
  seen : ∀ k, v.seen? k = w.seen? k
  upToDate : ∀ k, v.isUpToDate k = w.isUpToDate k

/-- The text in the project is to count as compiled to the ROM's bytes, and does not yet. -/
def Rerecords (w : Workspace) (name : String) (mode : ExpsLoadMode) : Prop :=
  mode = .trustText ∧ w.project.hasExps w.host.disk name = true ∧ (w.seen? name).isSome ∧ w.isUpToDate name = false

theorem unchanged_get (hw : w.Named) {answer : Except Error ScriptFile} (h : w.get name = (answer, v)) :
    w.Unchanged v name := by
  obtain ⟨hundone, hrom⟩ := undone_of_get h
  have hseen := (alike_get hw name).seen
  rw [h] at hseen
  refine ⟨hundone, hrom, hseen, fun k => ?_⟩
  rw [isUpToDate, isUpToDate, hseen k, hundone.project, hundone.disk]

/-- What a file is does not depend on the project. -/
theorem seen?_host (w : Workspace) (host : Host) (k : String) :
    ({ w with host } : Workspace).seen? k = w.seen? k := by
  have hfile : ({ w with host } : Workspace).file? k = w.file? k := rfl
  cases hk : w.file? k with
  | some f => rw [seen?_of_file? hk, seen?_of_file? (hfile.trans hk)]
  | none =>
    rw [seen?_of_absent hk, seen?_of_absent (hfile.trans hk)]
    rfl

/-- Logging changes nothing else. -/
theorem Unchanged.warn (h : w.Unchanged v name) (text : String) : w.Unchanged (v.warn text) name := by
  have hseen : ∀ k, (v.warn text).seen? k = v.seen? k := v.seen?_host (v.host.warn text)
  refine ⟨h.toUndone.rewritten v.rom.files (v.warn text).host.log fun _ _ => rfl, h.same,
    fun k => (hseen k).trans (h.seen k), fun k => ?_⟩
  rw [← h.upToDate k, isUpToDate, isUpToDate, hseen]
  rfl

/-- A text in the project that cannot be read leaves the hash that was recorded for it. -/
theorem expsOnDisk_error (h : w.expsOnDisk f mode = (.error e, v)) :
    w.project.hashIs w.host.disk f.name f.hash = true ∧ v = w ∨ mode = .strict ∧ v = w ∨
      w.project.hashIs w.host.disk f.name f.hash = false ∧ mode ≠ .strict ∧
        ∃ text, v = (w.warn text).withDisk (w.project.saveHash w.host.disk f.name f.hash).2 := by
  unfold expsOnDisk at h
  dsimp only at h
  by_cases hhash : w.project.hashIs w.host.disk f.name f.hash = true
  · rw [if_pos hhash] at h
    exact .inl ⟨hhash, (Prod.mk.inj h).2.symm⟩
  rw [if_neg hhash] at h
  by_cases hmode : mode = .strict
  · rw [if_pos hmode] at h
    exact .inr (.inl ⟨hmode, (Prod.mk.inj h).2.symm⟩)
  rw [if_neg hmode] at h
  refine .inr (.inr ⟨Bool.eq_false_iff.mpr hhash, hmode,
    "Loading stale EXPS text of " ++ f.name ++ " on request", ?_⟩)
  rw [saveHash_warn] at h
  cases hsaved : w.project.saveHash w.host.disk f.name f.hash with
  | mk result d =>
  rw [hsaved] at h
  cases result <;> exact (Prod.mk.inj h).2.symm

/-- A program that is written down and put into the project is the answer. -/
theorem expsFromProgram_error (h : w.expsFromProgram f = (.error e, v))
    (hwrites : (Project.storeAll w.host.disk (w.depositsOf f)).1 = .ok ()) : v = w := by
  unfold depositsOf at hwrites
  unfold expsFromProgram at h
  cases hdecompile : w.compiler.decompileExps f.program with
  | error reason =>
    rw [hdecompile] at h
    exact (Prod.mk.inj h).2.symm
  | ok written =>
    obtain ⟨text, map⟩ := written
    rw [hdecompile] at h hwrites
    dsimp only at h hwrites
    rw [← Project.storeAll_depositWritings] at h
    cases hall : Project.storeAll w.host.disk (w.project.depositWritings f.name text map f.hash) with
    | mk result d =>
    rw [hall] at h hwrites
    cases hwrites
    cases h

/-- The text in the project is to count as compiled to the bytes of the file, and does not yet. -/
def Trusts (w : Workspace) (f : ScriptFile) (mode : ExpsLoadMode) : Prop :=
  mode = .trustText ∧ w.project.hasExps w.host.disk f.name = true ∧
    w.project.hashIs w.host.disk f.name f.hash = false

theorem reading_error (h : w.reading f.name f mode = (.error e, v))
    (hwrites : (Project.storeAll w.host.disk (w.writesOfReading f.name f mode)).1 = .ok ()) :
    ¬w.Trusts f mode ∧ v = w ∨
      w.Trusts f mode ∧ w.writesOfReading f.name f mode = [w.project.hashWriting f.name f.hash] ∧
        ∃ text d, v = (w.warn text).withDisk d := by
  unfold reading at h
  unfold writesOfReading at hwrites ⊢
  by_cases hdisk : w.project.hasExps w.host.disk f.name ∧ mode ≠ .decompile
  · rw [if_pos hdisk] at h hwrites ⊢
    obtain ⟨hhash, rfl⟩ | ⟨rfl, rfl⟩ | ⟨hhash, hmode, text, rfl⟩ := expsOnDisk_error h
    · exact .inl ⟨fun ht => Bool.false_ne_true (ht.2.2.symm.trans hhash), rfl⟩
    · exact .inl ⟨fun ht => ExpsLoadMode.noConfusion ht.1, rfl⟩
    · -- the hash was recorded before the text could not be read
      have htrust : mode = .trustText := by
        cases mode with
        | strict => exact absurd rfl hmode
        | decompile => exact absurd rfl hdisk.2
        | trustText => rfl
      refine .inr ⟨⟨htrust, hdisk.1, hhash⟩, ?_, text, _, rfl⟩
      rw [recordingsOf, if_neg (by simp [hhash, hmode])]
  · rw [if_neg hdisk] at h hwrites
    refine .inl ⟨fun ht => hdisk ⟨ht.2.1, ?_⟩, expsFromProgram_error h hwrites⟩
    rw [ht.1]
    exact ExpsLoadMode.noConfusion

/-- A load fails because the file is not there, or because its text cannot be had. -/
theorem loadExps_error (h : w.loadExps name mode = (.error e, v)) :
    w.get name = (.error e, v) ∨ ∃ f u, w.get name = (.ok f, u) ∧
      w.writesOf name mode = u.writesOfReading name f mode ∧ u.reading name f mode = (.error e, v) := by
  unfold loadExps at h
  unfold writesOf
  cases hget : w.get name with
  | mk asked u =>
  rw [hget] at h
  cases asked with
  | error reason =>
    cases h
    exact .inl rfl
  | ok f =>
  dsimp only at h ⊢
  cases hheld : (if mode = .strict then f.exps else none) with
  | some text =>
    rw [hheld] at h
    cases h
  | none =>
  rw [hheld] at h
  dsimp only at h
  cases hreading : u.reading name f mode with
  | mk result t =>
  rw [reading] at hreading
  rw [hreading] at h
  cases result with
  | error reason =>
    cases h
    exact .inr ⟨f, u, rfl, rfl, hreading⟩
  | ok loaded => cases h

/-- A load that fails without a failed write has changed nothing but the hash that it recorded, if it
did. -/
theorem failedLoad_cases (hw : w.Named) (hload : w.loadExps name mode = (.error e, v))
    (hwrites : (Project.storeAll w.host.disk (w.writesOf name mode)).1 = .ok ()) :
    ¬w.Rerecords name mode ∧ w.Unchanged v name ∨
      w.Rerecords name mode ∧ ∃ f, w.seen? name = some f ∧
        w.writesOf name mode = [w.project.hashWriting name f.hash] ∧
        w.Unchanged (v.withDisk w.host.disk) name := by
  obtain hget | ⟨f, u, hget, hsame, hread⟩ := loadExps_error hload
  · refine .inl ⟨fun h => ?_, unchanged_get hw hget⟩
    have hthere := h.2.2.1
    rw [(get_error hget).2] at hthere
    cases hthere
  have hu : w.Unchanged u name := unchanged_get hw hget
  have hseen : w.seen? name = some f := by rw [seen?, hget]; rfl
  obtain rfl : f.name = name := name_of_seen? hw hseen
  have htrusts : u.Trusts f mode ↔ w.Rerecords f.name mode := by
    unfold Trusts Rerecords isUpToDate
    rw [hu.project, hu.disk, hseen]
    simp
  rw [hsame, ← hu.disk] at hwrites
  rw [hsame, ← htrusts]
  obtain ⟨hnot, rfl⟩ | ⟨htrust, hone, text, d, rfl⟩ := reading_error hread hwrites
  · exact .inl ⟨hnot, hu⟩
  · refine .inr ⟨htrust, f, hseen, ?_, ?_⟩
    · rw [hone, hu.project]
    · rw [← hu.disk]
      exact hu.warn text

/-- A load that fails without a failed write has changed nothing, unless a text was to count as compiled
to the ROM's bytes that did not yet.  Then nothing has changed but that it counts as such. -/
theorem unchanged_failedLoad_iff (hw : w.Named) (hgenuine : w.Genuine)
    (hload : w.loadExps name mode = (.error e, v))
    (hwrites : (Project.storeAll w.host.disk (w.writesOf name mode)).1 = .ok ()) :
    v.host.disk = (Project.storeAll w.host.disk (w.writesOf name mode)).2 ∧
      w.Unchanged (v.withDisk w.host.disk) name ∧
      (w.Unchanged v name ↔ ¬w.Rerecords name mode) ∧
      (w.Rerecords name mode → v.isUpToDate name = true ∧ ∃ f, w.seen? name = some f ∧
        w.writesOf name mode = [w.project.hashWriting name f.hash]) := by
  have hdisk : v.host.disk = (Project.storeAll w.host.disk (w.writesOf name mode)).2 := by
    have hattempts := w.attempts_loadExps name mode
    rw [hload] at hattempts
    exact hattempts.disk
  refine ⟨hdisk, ?_⟩
  obtain ⟨hnot, hsame⟩ | ⟨hrerecords, f, hseen, hone, hsame⟩ := failedLoad_cases hw hload hwrites
  · have hback : v.withDisk w.host.disk = v := by
      rw [← hsame.disk]
      rfl
    rw [hback]
    exact ⟨hsame, iff_of_true hsame hnot, fun h => absurd h hnot⟩
  · have hrecorded : v.isUpToDate name = true := by
      rw [hone, Project.storeAll_hashWriting] at hwrites hdisk
      have hsaved : w.project.saveHash w.host.disk name f.hash = (.ok (), v.host.disk) :=
        Prod.ext hwrites hdisk.symm
      obtain ⟨bytes, hbytes, -⟩ := hgenuine.seen hseen
      have hproject : v.project = w.project := hsame.project
      have hfile : v.seen? name = some f := by
        rw [← hseen, ← hsame.seen name]
        exact (v.seen?_host (v.host.withDisk w.host.disk) name).symm
      have hplain : String.ofList (Text.trim f.hash.toList) = f.hash := by
        rw [hbytes]
        exact Sha256.trim_hex bytes
      rw [isUpToDate, hfile, hproject, Option.any_some]
      exact Project.hashIs_of_saveHash hplain hsaved
    refine ⟨hsame, iff_of_false (fun h => ?_) (not_not_intro hrerecords),
      fun _ => ⟨hrecorded, f, hseen, hone⟩⟩
    rw [h.upToDate name, hrerecords.2.2.2] at hrecorded
    cases hrecorded

/-! ### A source map that cannot be understood -/

/-- The bytes of a script. -/
def enterBytes : ByteArray := ((LineLanguage.assemble "routine Actor").toOption.getD .empty)

/-- A script in the ROM whose text in the project has no hash, and a source map that cannot be understood. -/
def garbled : Workspace where
  compiler := LineLanguage.compiler {}
  rom.files := (∅ : Std.ExtTreeMap String ByteArray).insert "enter.ssb" enterBytes
  project := { root := ⟨"proj"⟩, romName := "eos_us" }
  host.disk.nodes := (((∅ : Std.ExtTreeMap Place Node).insert ["proj"] .directory).insert
    ["proj", "enter.exps"] (.file "routine Actor\nWait 6")).insert
    ["proj", "enter.sourcemap.json"] (.file "[")

theorem no_file_garbled (k : String) : garbled.file? k = none := Std.ExtTreeMap.getElem?_empty

theorem named_garbled : garbled.Named := by
  intro k f h
  rw [no_file_garbled] at h
  cases h

theorem genuine_garbled : garbled.Genuine := by
  intro k f h
  rw [no_file_garbled] at h
  cases h

theorem unchanged_garbled : (garbled.loadExps "enter.ssb" .strict).1 = .error (.staleMapping "enter.ssb") ∧
    garbled.Unchanged (garbled.loadExps "enter.ssb" .strict).2 "enter.ssb" := by
  have hrun : (garbled.loadExps "enter.ssb" .strict).1 = .error (.staleMapping "enter.ssb") ∧
      (Project.storeAll garbled.host.disk (garbled.writesOf "enter.ssb" .strict)).1 = .ok () := by
    decide +kernel
  obtain ⟨hload, hwrites⟩ := hrun
  refine ⟨hload, ?_⟩
  generalize hloading : garbled.loadExps "enter.ssb" .strict = loading at hload ⊢
  obtain ⟨answer, v⟩ := loading
  dsimp only at hload ⊢
  subst hload
  exact (unchanged_failedLoad_iff named_garbled genuine_garbled hloading hwrites).2.2.1.mpr nofun

/-- A load that is to trust the text cannot understand its map, but no write of it fails.  Then the text
counts as compiled to the ROM's bytes, which it is not. -/
theorem garbled_rerecorded : garbled.Named ∧ garbled.Genuine ∧
    (garbled.loadExps "enter.ssb" .trustText).1 =
      .error (.other "parse source map proj/enter.sourcemap.json") ∧
    (Project.storeAll garbled.host.disk (garbled.writesOf "enter.ssb" .trustText)).1 = .ok () ∧
    garbled.isUpToDate "enter.ssb" = false ∧
    (garbled.loadExps "enter.ssb" .trustText).2.isUpToDate "enter.ssb" = true ∧
    ¬garbled.Unchanged (garbled.loadExps "enter.ssb" .trustText).2 "enter.ssb" := by
  have hrun : (garbled.loadExps "enter.ssb" .trustText).1 =
        .error (.other "parse source map proj/enter.sourcemap.json") ∧
      (Project.storeAll garbled.host.disk (garbled.writesOf "enter.ssb" .trustText)).1 = .ok () ∧
      garbled.isUpToDate "enter.ssb" = false ∧
      (garbled.loadExps "enter.ssb" .trustText).2.isUpToDate "enter.ssb" = true := by
    decide +kernel
  obtain ⟨hload, hwrites, hstale, hcurrent⟩ := hrun
  refine ⟨named_garbled, genuine_garbled, hload, hwrites, hstale, hcurrent, fun h => ?_⟩
  rw [h.upToDate, hstale] at hcurrent
  cases hcurrent

end Workspace

end SceneDebugger
