import Mathlib.Data.List.Infix
import SceneDebugger.Proofs.Session.Restoring

/-!
# SceneDebugger.Proofs.Session.Missing — what the flags of files miss

The game may take a file that cannot be read.  Its place is filled nevertheless, without a hash, but there
is no file that could be flagged.  If the file can be read later on and someone asks for it, then it is in
use as any new file is: flagged neither as held nor as stale, whatever is in its place.

* `ScriptFile.Noticed`: the flags of a file do not miss what is in its places.  A step of the file keeps
  this; it is a file that was not in use before which need not have it.
* `Session.flagsHeld_run_iff`, `Session.flagsChanged_run_iff`: in which runs no flag is missing.
* `Session.Attentive`: none is, as long as the game takes only files that can be read.
-/

namespace SceneDebugger

/-! ### A file -/

namespace ScriptFile

/-- The file is flagged as held if some place holds it. -/
def ShowsHeld (f : ScriptFile) (hashes : Set String) : Prop :=
  hashes.Nonempty → f.flags.inGround = true

/-- The file is stale if some place holds other bytes of it than the ROM. -/
def ShowsChanged (f : ScriptFile) (hashes : Set String) : Prop :=
  ∀ hash ∈ hashes, hash ≠ f.hash → f.flags.ramMatches = false

/-- The flags of the file do not miss what is in its places. -/
structure Noticed (f : ScriptFile) (hashes : Set String) : Prop where
  held : f.ShowsHeld hashes
  changed : f.ShowsChanged hashes

variable {f f' : ScriptFile} {hashes hashes' : Set String} {fills : Prop} {c : Marking StampedMap}

theorem noticed_empty (f : ScriptFile) : f.Noticed ∅ :=
  ⟨fun hsome => absurd rfl hsome.ne_empty, fun _ hh => absurd hh (Set.notMem_empty _)⟩

theorem ShowsChanged.subset (h : f.ShowsChanged hashes) (hsub : hashes' ⊆ hashes) :
    f.ShowsChanged hashes' := fun hash hh => h hash (hsub hh)

theorem Edited.inGround (he : f.Edited f' c) : f'.flags.inGround = f.flags.inGround := by
  cases he with
  | saved o program ssbs exps _ => exact f.recompiled_inGround o.view program o.newMap o.hash
  | _ => rfl

/-- A step that fills no place does not flag the file as held. -/
theorem Stepped.inGround_of_not_fills (hs : f.Stepped hashes fills f' hashes' c) (hno : ¬ fills)
    (hin : f.flags.inGround = false) : f'.flags.inGround = false := by
  cases hs with
  | edited _ he => exact he.inGround.trans hin
  | released _ hr =>
    cases hr with
    | held _ _ => exact hin
    | left => rfl
  | filled hfills _ => exact absurd hfills hno

theorem Stepped.showsHeld (hs : f.Stepped hashes fills f' hashes' c) (h : f.ShowsHeld hashes) :
    f'.ShowsHeld hashes' := by
  cases hs with
  | edited _ he => exact fun hsome => he.inGround.trans (h hsome)
  | released _ hr =>
    cases hr with
    | held hsub _ => exact fun hsome => h (hsome.mono hsub)
    | left => exact (noticed_empty _).held
  | filled _ hf => exact fun _ => hf.inGround

/-- Only a save changes the bytes of a file in the ROM, and leaves the places as they are. -/
theorem Stepped.hashes_of_hash_ne (hs : f.Stepped hashes fills f' hashes' c) (hne : f'.hash ≠ f.hash) :
    hashes' = hashes := by
  cases hs with
  | edited _ _ => rfl
  | released _ hr => cases hr <;> exact absurd rfl hne
  | filled _ hf => cases hf <;> exact absurd (entered_hash f) hne

/-- A save of a file that is flagged as held makes it stale. -/
theorem ShowsChanged.edited (h : f.ShowsChanged hashes) (he : f.Edited f' c)
    (hsaved : f.flags.inGround = false → f'.hash ≠ f.hash → hashes = ∅) : f'.ShowsChanged hashes := by
  cases he with
  | saved o program ssbs exps _ =>
    have hram : (f.saved o program ssbs exps).flags.ramMatches =
        (!f.flags.inGround && f.flags.ramMatches) :=
      f.recompiled_ramMatches o.view program o.newMap o.hash
    intro hash hh hne
    rw [hram]
    cases hin : f.flags.inGround with
    | true => rfl
    | false =>
      by_cases hhash : (f.saved o program ssbs exps).hash = f.hash
      · rw [hhash] at hne
        rw [h hash hh hne, Bool.and_false]
      · rw [hsaved hin hhash] at hh
        exact absurd hh (Set.notMem_empty hash)
  | _ => exact h

/-- The game flags as stale no more only a file that it did not hold, and then no place has other bytes
of it. -/
theorem ShowsChanged.filled (h : f.ShowsChanged hashes) (ht : f.Tracked hashes)
    (hf : f.Filled hashes f' hashes' c) : f'.ShowsChanged hashes' := by
  cases hf with
  | restored _ _ => exact fun _ _ _ => rfl
  | entered hnew _ =>
    intro hash hh hne
    rw [entered_hash] at hne
    obtain hold | rfl := hnew hash hh
    · have hstale := h hash hold hne
      rw [entered_of_inGround (ht.parked hstale).1]
      exact hstale
    · exact absurd rfl hne

/-- A step makes a file stale that it makes differ from a place, unless it saves a file that is held but
not flagged. -/
theorem Stepped.showsChanged (hs : f.Stepped hashes fills f' hashes' c) (ht : f.Tracked hashes)
    (h : f.ShowsChanged hashes)
    (hsaved : f.flags.inGround = false → f'.hash ≠ f.hash → hashes' = ∅) :
    f'.ShowsChanged hashes' := by
  cases hs with
  | edited _ he => exact h.edited he hsaved
  | released _ hr =>
    cases hr with
    | held hsub _ => exact h.subset hsub
    | left => exact (noticed_empty _).changed
  | filled _ hf => exact h.filled ht hf

theorem Noticed.stepped (h : f.Noticed hashes) (ht : f.Tracked hashes)
    (hs : f.Stepped hashes fills f' hashes' c) : f'.Noticed hashes' := by
  refine ⟨hs.showsHeld h.held, hs.showsChanged ht h.changed fun hin hne => ?_⟩
  rw [hs.hashes_of_hash_ne hne, ← Set.not_nonempty_iff_eq_empty]
  intro hsome
  rw [h.held hsome] at hin
  cases hin

/-- A file that is not flagged does not get stale, unless a save state has other bytes of it. -/
theorem Stepped.ramMatches_of_unflagged (hs : f.Stepped hashes fills f' hashes' c)
    (hin : f.flags.inGround = false) (hram : f.flags.ramMatches = true) (hc : c ≠ .park) :
    f'.flags.ramMatches = true := by
  cases hs with
  | edited _ he =>
    cases he with
    | saved o program ssbs exps _ =>
      refine (f.recompiled_ramMatches o.view program o.newMap o.hash).trans ?_
      rw [hin, hram]
      rfl
    | _ => exact hram
  | released _ hr =>
    cases hr with
    | held _ _ => exact hram
    | left => rfl
  | filled _ hf =>
    cases hf with
    | entered _ _ => rw [entered_ramMatches, hin]; rfl
    | restored _ _ => exact absurd (if_pos (by rw [entered_ramMatches, hin]; rfl)) hc

end ScriptFile

/-! ### Actions -/

namespace Session

open Workspace ScriptFile

variable {s : Session} {a : Action} {name : String} {f : ScriptFile}

/-- The files in use that are flagged as held by the game are the ones that some place holds. -/
def FlagsHeld (s : Session) : Prop :=
  ∀ name f, s.workspace.file? name = some f → (f.flags.inGround = true ↔
    ∃ hanger script, s.ground.scriptIn? hanger = some script ∧ script.file = name)

/-- A file in use is stale if some place holds other bytes of it than the ROM. -/
def FlagsChanged (s : Session) : Prop :=
  ∀ name f, s.workspace.file? name = some f → ∀ hanger script,
    s.ground.scriptIn? hanger = some script → script.file = name → script.hash ≠ f.hash →
      f.flags.ramMatches = false

theorem flagsHeld_iff (h : s.Tracks) : s.FlagsHeld ↔
    ∀ name f, s.workspace.file? name = some f → f.ShowsHeld (s.ground.hashes name) := by
  refine forall₂_congr fun name f => imp_congr_right fun hf => ?_
  have hheld : (∃ hanger script, s.ground.scriptIn? hanger = some script ∧ script.file = name) ↔
      (s.ground.hashes name).Nonempty := by
    constructor
    · rintro ⟨hanger, script, hs, rfl⟩
      exact ⟨script.hash, Ground.mem_hashes hs⟩
    · rintro ⟨hash, hanger, hs⟩
      exact ⟨hanger, ⟨name, hash⟩, hs, rfl⟩
  rw [hheld]
  exact ⟨fun hiff => hiff.mpr, fun hshows =>
    ⟨(h.tracked name f (seen?_of_file? hf)).held, hshows⟩⟩

theorem flagsChanged_iff : s.FlagsChanged ↔
    ∀ name f, s.workspace.file? name = some f → f.ShowsChanged (s.ground.hashes name) := by
  refine forall₂_congr fun name f => imp_congr_right fun _ => ?_
  constructor
  · rintro hflags hash ⟨hanger, hs⟩ hne
    exact hflags hanger ⟨name, hash⟩ hs rfl hne
  · rintro hshows hanger script hs rfl hne
    exact hshows script.hash (Ground.mem_hashes hs) hne

theorem FlagsHeld.of_used (hs : s.FlagsHeld) (ht : s.Tracks) (hf : s.workspace.file? name = some f) :
    f.ShowsHeld (s.ground.hashes name) := (flagsHeld_iff ht).mp hs name f hf

/-! ### Files held by the game -/

/-- The action puts a file in use that was not, but into no place. -/
structure PicksUp (s : Session) (a : Action) (name : String) : Prop where
  absent : s.workspace.file? name = none
  used : ((s.perform a).workspace.file? name).isSome
  fills : ¬ s.fills a name

/-- Where no flag of a held file is missing, none is after an action exactly if the action picks up no
file that a place holds. -/
theorem flagsHeld_perform (ht : s.Tracks) (h : s.FlagsHeld) (a : Action) :
    (s.perform a).FlagsHeld ↔
      ∀ name, s.PicksUp a name → (s.perform a).ground.holds name = false := by
  have hsteps := steps_perform ht.named a
  rw [flagsHeld_iff (tracks_perform s a ht)]
  constructor
  · intro hafter name hpicks
    obtain ⟨f', hf'⟩ := Option.isSome_iff_exists.mp hpicks.used
    obtain ⟨f, hf, hstep⟩ := hsteps.stepped name f' hf'
    obtain ⟨program, hash, rfl⟩ := eq_of_seen?_of_absent hpicks.absent hf
    have hout := hstep.inGround_of_not_fills hpicks.fills rfl
    rw [Ground.holds_eq_false_iff, ← Set.not_nonempty_iff_eq_empty]
    intro hsome
    rw [hafter name f' hf' hsome] at hout
    cases hout
  · intro hpicks name f' hf'
    obtain ⟨f, hf, hstep⟩ := hsteps.stepped name f' hf'
    obtain hused | ⟨habsent, -⟩ := seen?_cases hf
    · exact hstep.showsHeld (h.of_used ht hused)
    · by_cases hfills : s.fills a name
      · exact fun _ => hstep.inGround_of_fills hfills
      · have hnone := hpicks name ⟨habsent, by rw [hf']; rfl, hfills⟩
        rw [Ground.holds_eq_false_iff.mp hnone]
        exact (noticed_empty f').held

/-! ### Bytes other than the ROM's -/

/-- The action finds nothing in the places that it should have made a file stale for: a file that it puts
in use, unless it does so for a save state, has the bytes of the ROM in all of its places; and a file in
use that is not flagged as held is in no place when it is saved with other bytes. -/
structure FindsSame (s : Session) (a : Action) : Prop where
  pickedUp : ∀ name f', s.workspace.file? name = none →
    (s.perform a).workspace.file? name = some f' → (∀ snapshot, a ≠ .restore snapshot) →
      ∀ hash ∈ (s.perform a).ground.hashes name, hash = f'.hash
  saved : ∀ name f f', s.workspace.file? name = some f →
    (s.perform a).workspace.file? name = some f' → f.flags.inGround = false → f'.hash ≠ f.hash →
      (s.perform a).ground.holds name = false

/-- Only a save state takes maps out of use. -/
theorem marking_ne_park (ha : ∀ snapshot, a ≠ .restore snapshot) (name : String) (f : ScriptFile) :
    s.marking a name f ≠ .park := by
  intro heq
  cases a with
  | restore snapshot => exact absurd rfl (ha snapshot)
  | loadSsbs _ | loadExps _ _ | saveSsbs _ _ | saveExps _ _ | reload _ =>
    simp only [marking, ssbsMarking, expsMarking, saveMarking, reloadMarking] at heq
    repeat' split at heq
    all_goals cases heq
  | _ => cases heq

/-- A save state makes every file stale that it has other bytes of. -/
theorem showsChanged_restore (ht : s.Tracks) (snapshot : GroundSnapshot)
    (hf : (s.perform (.restore snapshot)).workspace.file? name = some f) :
    f.ShowsChanged ((s.perform (.restore snapshot)).ground.hashes name) := by
  intro hash hh hne
  have hname : f.name = name := (tracks_perform s (.restore snapshot) ht).named name f hf
  obtain ⟨before, -, -, -, hstale, -⟩ := restore_held ht snapshot (seen?_of_file? hf)
    (Ground.holds_iff.mpr ⟨hash, hh⟩)
  refine hstale.mpr (.inl ⟨hash, ?_, hne⟩)
  rw [hname]
  exact hh

/-- Where no file is missing that should be stale, none is after an action exactly if the action finds
nothing in the places to make it stale for. -/
theorem flagsChanged_perform (ht : s.Tracks) (h : s.FlagsChanged) (a : Action) :
    (s.perform a).FlagsChanged ↔ s.FindsSame a := by
  have hsteps := steps_perform ht.named a
  rw [flagsChanged_iff] at h ⊢
  -- an action that is no save state makes no file stale that is not flagged as held
  have hmatches : ∀ name f f', s.workspace.seen? name = some f →
      f.Stepped (s.ground.hashes name) (s.fills a name) f' ((s.perform a).ground.hashes name)
        (s.marking a name f) → f.flags.inGround = false → (∀ snapshot, a ≠ .restore snapshot) →
      f'.flags.ramMatches = true := by
    intro name f f' hf hstep hout ha
    refine hstep.ramMatches_of_unflagged hout ?_ (marking_ne_park ha name f)
    cases hram : f.flags.ramMatches with
    | true => rfl
    | false =>
      rw [((ht.tracked name f hf).parked hram).1] at hout
      cases hout
  constructor
  · intro hafter
    refine ⟨fun name f' habsent hf' ha hash hh => ?_, fun name f f' hf hf' hout hne => ?_⟩
    · obtain ⟨f, hf, hstep⟩ := hsteps.stepped name f' hf'
      obtain ⟨program, old, rfl⟩ := eq_of_seen?_of_absent habsent hf
      have hram := hmatches name _ f' hf hstep rfl ha
      by_contra hne
      rw [hafter name f' hf' hash hh hne] at hram
      cases hram
    · have hseen := seen?_of_file? hf
      have ha : ∀ snapshot, a ≠ .restore snapshot := by
        rintro snapshot rfl
        obtain ⟨after, hafter, hhash⟩ := restore_seen ht snapshot hseen
        rw [seen?_of_file? hf'] at hafter
        cases hafter
        exact hne hhash
      obtain ⟨g, hg, hstep⟩ := hsteps.stepped name f' hf'
      rw [hseen] at hg
      cases hg
      have hram := hmatches name f f' hseen hstep hout ha
      have hkept := hstep.hashes_of_hash_ne hne
      rw [Ground.holds_eq_false_iff, ← Set.not_nonempty_iff_eq_empty]
      rintro ⟨hash, hh⟩
      -- the place has the bytes that the ROM had before
      have hold : hash = f.hash := by
        by_contra hdiffers
        have hstale := h name f hf hash (hkept ▸ hh) hdiffers
        rw [((ht.tracked name f hseen).parked hstale).1] at hout
        cases hout
      rw [hafter name f' hf' hash hh fun heq => hne (heq.symm.trans hold)] at hram
      cases hram
  · intro hfinds name f' hf'
    obtain ⟨f, hf, hstep⟩ := hsteps.stepped name f' hf'
    obtain hused | ⟨habsent, -⟩ := seen?_cases hf
    · refine hstep.showsChanged (ht.tracked name f hf) (h name f hused) fun hout hne => ?_
      exact Ground.holds_eq_false_iff.mp (hfinds.saved name f f' hused hf' hout hne)
    · by_cases ha : ∃ snapshot, a = .restore snapshot
      · obtain ⟨snapshot, rfl⟩ := ha
        exact showsChanged_restore ht snapshot hf'
      · intro hash hh hne
        exact absurd (hfinds.pickedUp name f' habsent hf' (fun snapshot heq => ha ⟨snapshot, heq⟩) hash hh)
          hne

/-! ### Files that can be read -/

/-- Every file that the action puts into a place can be got by anyone. -/
def TakesReadable (s : Session) (a : Action) : Prop :=
  ∀ name, s.fills a name → (s.workspace.seen? name).isSome

/-- Every file that is in a place is in use, and its flags do not miss it. -/
def Attentive (s : Session) : Prop :=
  ∀ name, (s.ground.hashes name).Nonempty →
    ∃ f, s.workspace.file? name = some f ∧ f.Noticed (s.ground.hashes name)

theorem Fresh.attentive (h : s.Fresh) : s.Attentive := by
  intro name hsome
  have hempty : s.ground.hashes name = ∅ := by
    rw [h.ground]
    exact Ground.holds_eq_false_iff.mp rfl
  exact absurd hempty hsome.ne_empty

theorem Attentive.noticed (h : s.Attentive) (hf : s.workspace.seen? name = some f) :
    f.Noticed (s.ground.hashes name) := by
  by_cases hsome : (s.ground.hashes name).Nonempty
  · obtain ⟨g, hg, hnoticed⟩ := h name hsome
    rw [seen?_of_file? hg] at hf
    cases hf
    exact hnoticed
  · rw [Set.not_nonempty_iff_eq_empty.mp hsome]
    exact noticed_empty f

/-- The places of a file that an action does not fill held it before. -/
theorem hashes_perform_subset (hs : s.workspace.Named) (hno : ¬ s.fills a name) :
    (s.perform a).ground.hashes name ⊆ s.ground.hashes name := by
  have hkept : ∀ {g : Ground}, g.slots = s.ground.slots → g.hashes name ⊆ s.ground.hashes name :=
    fun hslots => (Ground.hashes_congr hslots).subset
  cases a with
  | startGround => exact Ground.hashes_emptied_subset s.ground false true
  | quitGround => exact Ground.hashes_emptied_subset s.ground false false
  | changeMap => exact Ground.hashes_emptied_subset s.ground true true
  | loadScript file =>
    by_cases hslot : s.ground.pending.getD 0 < hangerCount
    · have hne : ¬ name = file := fun heq => hno ⟨heq, hslot⟩
      have hplaced : (s.perform (.loadScript file)).ground =
          ({ s.ground with pending := none }.place s.workspace (s.ground.pending.getD 0) file).1 :=
        congrArg Prod.fst (Ground.loadScript_of_lt s.ground s.workspace file hslot)
      intro hash hh
      rw [hplaced, Ground.mem_hashes_place _ hs hslot] at hh
      obtain hnew | ⟨hanger, -, hs⟩ := hh
      · exact absurd (congrArg LoadedScript.file hnew).symm hne
      · exact ⟨hanger, hs⟩
    · have hground : (s.perform (.loadScript file)).ground = { s.ground with pending := none } :=
        (Ground.loadScript_of_not_lt s.ground s.workspace file hslot).1
      exact hkept (by rw [hground])
  | loadScene hanger scene => exact hkept (Ground.beside_loadScene _ s.workspace hanger scene).2
  | loadTalk hanger => exact hkept (Ground.beside_loadTalk _ s.workspace hanger).2
  | restore snapshot =>
    intro hash hh
    exact absurd (Ground.holds_iff.mpr ⟨hash, hh⟩) hno
  | _ => exact subset_rfl

/-- As long as the game takes only files that can be read, nothing in the places is missed. -/
theorem Attentive.perform (h : s.Attentive) (ht : s.Tracks) (ha : s.TakesReadable a) :
    (s.perform a).Attentive := by
  intro name hsome
  have hsteps := steps_perform ht.named a
  have hused : ((s.perform a).workspace.file? name).isSome := by
    by_cases hfills : s.fills a name
    · exact hsteps.filled name hfills (ha name hfills)
    · obtain ⟨f, hf, -⟩ := h name (hsome.mono (hashes_perform_subset ht.named hfills))
      exact hsteps.used name (by rw [hf]; rfl)
  obtain ⟨f', hf'⟩ := Option.isSome_iff_exists.mp hused
  obtain ⟨f, hf, hstep⟩ := hsteps.stepped name f' hf'
  exact ⟨f', hf', (h.noticed hf).stepped (ht.tracked name f hf) hstep⟩

theorem Attentive.flagsHeld (h : s.Attentive) (ht : s.Tracks) : s.FlagsHeld :=
  (flagsHeld_iff ht).mpr fun _ _ hf => (h.noticed (seen?_of_file? hf)).held

theorem Attentive.flagsChanged (h : s.Attentive) : s.FlagsChanged :=
  flagsChanged_iff.mpr fun _ _ hf => (h.noticed (seen?_of_file? hf)).changed

/-! ### Runs -/

variable {first : Session} {actions : List Action}

/-- What holds of a new session, and after each action exactly if the action is such, holds all along a
run exactly if all of its actions are. -/
theorem run_iff {P : Session → Prop} {Q : Session → Action → Prop} (hfirst : first.Fresh)
    (hnew : P first) (hstep : ∀ (s : Session) (a : Action), s.Tracks → P s → (P (s.perform a) ↔ Q s a)) :
    (∀ done, done <+: actions → P (first.run done)) ↔
      ∀ done a, done ++ [a] <+: actions → Q (first.run done) a := by
  have htracks : ∀ done, (first.run done).Tracks := fun done => run_induction tracks_perform
    hfirst.tracks done
  constructor
  · intro hall done a hprefix
    have hafter := hall (done ++ [a]) hprefix
    rw [run_concat] at hafter
    exact (hstep _ a (htracks done) (hall done ((List.prefix_append done [a]).trans hprefix))).mp hafter
  · intro hall done
    induction done using List.reverseRecOn with
    | nil => exact fun _ => hnew
    | append_singleton done a ih =>
      intro hprefix
      rw [run_concat]
      exact (hstep _ a (htracks done) (ih ((List.prefix_append done [a]).trans hprefix))).mpr
        (hall done a hprefix)

theorem Fresh.flagsHeld (h : s.Fresh) : s.FlagsHeld := h.attentive.flagsHeld h.tracks

theorem attentive_run (hfirst : first.Fresh)
    (hreads : ∀ done a, done ++ [a] <+: actions → (first.run done).TakesReadable a)
    {done : List Action} (hdone : done <+: actions) : (first.run done).Attentive := by
  induction done using List.reverseRecOn with
  | nil => exact hfirst.attentive
  | append_singleton done a ih =>
    rw [run_concat]
    exact (ih ((List.prefix_append done [a]).trans hdone)).perform
      (run_induction tracks_perform hfirst.tracks done) (hreads done a hdone)

/-- A file in use that is flagged as held by the game is held.  All along a run the files flagged are the
ones that some place holds exactly if no action picks up a file that a place holds; and so it is if the
game takes only files that can be read. -/
theorem flagsHeld_run_iff (hfirst : first.Fresh) (actions : List Action) :
    (∀ name f, (first.run actions).workspace.file? name = some f → f.flags.inGround = true →
      ∃ hanger script, (first.run actions).ground.scriptIn? hanger = some script ∧
        script.file = name) ∧
    ((∀ done, done <+: actions → (first.run done).FlagsHeld) ↔
      ∀ done a, done ++ [a] <+: actions → ∀ name, (first.run done).PicksUp a name →
        ((first.run done).perform a).ground.holds name = false) ∧
    ((∀ done a, done ++ [a] <+: actions → (first.run done).TakesReadable a) →
      ∀ done, done <+: actions → (first.run done).FlagsHeld) := by
  refine ⟨fun name f hf hin => ?_, run_iff hfirst hfirst.flagsHeld fun s a ht h =>
    flagsHeld_perform ht h a, fun hreads done hdone => ?_⟩
  · have hreachable : (first.run actions).Reachable := ⟨first, hfirst, actions, rfl⟩
    obtain ⟨hash, hanger, hs⟩ := (hreachable.tracked hf).held hin
    exact ⟨hanger, ⟨name, hash⟩, hs, rfl⟩
  · exact (attentive_run hfirst hreads hdone).flagsHeld (run_induction tracks_perform hfirst.tracks done)

/-- The game loads a script, which is saved. -/
def heldAndSaved : List Action :=
  [.loadScript "enter.ssb", .saveSsbs "enter.ssb" (waitText "6")]

theorem takesReadable_heldAndSaved (done : List Action) (a : Action)
    (hdone : done ++ [a] <+: heldAndSaved) : (sample.run done).TakesReadable a := by
  have hread : ∀ done ∈ heldAndSaved.inits,
      ((sample.run done).workspace.seen? "enter.ssb").isSome = true := by decide +kernel
  have hseen := hread done ((List.mem_inits _ _).mpr ((List.prefix_append done [a]).trans hdone))
  have ha : a ∈ heldAndSaved := hdone.subset (List.mem_append_right _ List.mem_cons_self)
  simp only [heldAndSaved, List.mem_cons, List.not_mem_nil, or_false] at ha
  rintro name hfills
  obtain rfl | rfl := ha
  · rw [hfills.1]
    exact hseen
  · cases hfills

theorem flagsHeld_run_iff_heldAndSaved :
    sample.Fresh ∧ ∀ done, done <+: heldAndSaved → (sample.run done).FlagsHeld :=
  ⟨fresh_sample, (flagsHeld_run_iff fresh_sample heldAndSaved).2.2 takesReadable_heldAndSaved⟩

/-- The ROM of the small session cannot be read. -/
def unreadable : Session :=
  { sample with workspace.rom.readFails := true }

/-- The game loads a script while the ROM cannot be read, and someone asks for it later. -/
def unnoticed : List Action :=
  [.beside unreadable, .loadScript "enter.ssb", .beside sample, .fetch "enter.ssb"]

/-- A place holds the script, which is not flagged as held. -/
theorem unnoticed_unflagged :
    (sample.run unnoticed).Reachable ∧ ¬ (sample.run unnoticed).FlagsHeld := by
  have hafter : ((sample.run unnoticed).workspace.file? "enter.ssb").map (fun f => f.flags.inGround) =
      some false ∧ ((sample.run unnoticed).ground.scriptIn? 0).map LoadedScript.file =
        some "enter.ssb" := by decide +kernel
  obtain ⟨hflag, hplace⟩ := hafter
  obtain ⟨f, hf, hout⟩ := Option.map_eq_some_iff.mp hflag
  obtain ⟨script, hs, hfile⟩ := Option.map_eq_some_iff.mp hplace
  refine ⟨reachable_sample _, fun hflags => ?_⟩
  rw [(hflags "enter.ssb" f hf).mpr ⟨0, script, hs, hfile⟩] at hout
  cases hout

/-- A stale file is held by the game, with maps that wait, and breakpoints are off of stale files only.
All along a run a file in use is stale if some place holds other bytes of it than the ROM, exactly if no
action finds such bytes without making the file stale; and so it is if the game takes only files that can
be read. -/
theorem flagsChanged_run_iff (hfirst : first.Fresh) (actions : List Action) :
    (∀ name f, (first.run actions).workspace.file? name = some f →
      (f.flags.breakpointsOff = true → f.flags.ramMatches = false) ∧
      (f.flags.ramMatches = false → f.flags.inGround = true ∧ f.marks.temporary.isSome = true)) ∧
    ((∀ done, done <+: actions → (first.run done).FlagsChanged) ↔
      ∀ done a, done ++ [a] <+: actions → (first.run done).FindsSame a) ∧
    ((∀ done a, done ++ [a] <+: actions → (first.run done).TakesReadable a) →
      ∀ done, done <+: actions → (first.run done).FlagsChanged) := by
  refine ⟨fun name f hf => ?_, run_iff hfirst hfirst.attentive.flagsChanged fun s a ht h =>
    flagsChanged_perform ht h a, fun hreads done hdone => (attentive_run hfirst hreads hdone).flagsChanged⟩
  have hreachable : (first.run actions).Reachable := ⟨first, hfirst, actions, rfl⟩
  exact ⟨(hreachable.tracked hf).off, (hreachable.tracked hf).parked⟩

theorem flagsChanged_run_iff_heldAndSaved :
    sample.Fresh ∧ ∀ done, done <+: heldAndSaved → (sample.run done).FlagsChanged :=
  ⟨fresh_sample, (flagsChanged_run_iff fresh_sample heldAndSaved).2.2 takesReadable_heldAndSaved⟩

/-- The game loads a script while the ROM cannot be read, and once more into another place later. -/
def loadedAgain : List Action :=
  [.beside unreadable, .loadScript "enter.ssb", .beside sample, .loadScene 1 "enter.ssx",
    .loadScript "enter.ssb"]

/-- The script is flagged as held, but it is not stale, though its first place has no hash of it. -/
theorem loadedAgain_matches :
    (sample.run loadedAgain).Reachable ∧ ¬ (sample.run loadedAgain).FlagsChanged := by
  have hafter : ((sample.run loadedAgain).workspace.file? "enter.ssb").any (fun f =>
        f.flags.inGround && f.flags.ramMatches && f.hash != "") = true ∧
      (sample.run loadedAgain).ground.scriptIn? 0 = some ⟨"enter.ssb", ""⟩ := by decide +kernel
  obtain ⟨hfile, hplace⟩ := hafter
  obtain ⟨f, hf, hflags⟩ := (Option.any_eq_true _ _).mp hfile
  simp only [Bool.and_eq_true, bne_iff_ne] at hflags
  obtain ⟨⟨-, hram⟩, hhash⟩ := hflags
  refine ⟨reachable_sample _, fun hchanged => ?_⟩
  rw [hchanged "enter.ssb" f hf 0 _ hplace rfl (Ne.symm hhash)] at hram
  cases hram

end Session

end SceneDebugger
