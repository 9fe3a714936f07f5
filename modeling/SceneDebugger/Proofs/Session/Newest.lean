import SceneDebugger.Proofs.Session.Requests

/-!
# SceneDebugger.Proofs.Session.Newest — which maps a poll puts in use

A poll puts the maps of the last compilation in use, for each file that is not stale; these should be
the maps of the texts that the file holds.  A save state with other bytes can break this: it takes the
maps in use for those of the last compilation, even if newer ones wait.

* `ScriptFile.HeldIn.stepped`: no other step of a file loses the map of a held text.
* `JointSession.Spares`: a turn that loses none either.
* `JointSession.delivers_iff`: polls deliver exactly if all turns are such.
-/

namespace SceneDebugger

open Workspace

/-! ### A file -/

theorem MapPair.get_set {M : Type} (p : MapPair M) (view other : View) (map : M) :
    (p.set view map).get other = if other = view then some map else p.get other := by
  cases view <;> cases other <;> rfl

namespace ScriptFile

variable {f f' : ScriptFile} {maps : MapPair} {hashes hashes' : Set String} {fills : Prop}
  {c : Marking StampedMap}

/-- The maps of all texts that the file holds are among some maps. -/
def HeldIn (f : ScriptFile) (maps : MapPair) : Prop :=
  ∀ view map, f.heldMaps.get view = some map → maps.get view = some map

theorem heldMaps_withSsbs (f : ScriptFile) (text : SsbsText) :
    (f.withSsbs text).heldMaps = f.heldMaps.set .ssbs text.sourceMap := rfl

theorem heldMaps_withExps (f : ScriptFile) (text : ExpsText) :
    (f.withExps text).heldMaps = f.heldMaps.set .exps text.sourceMap := rfl

@[simp] theorem heldMaps_entered (f : ScriptFile) : f.entered.heldMaps = f.heldMaps := by
  unfold entered
  split_ifs <;> rfl

@[simp] theorem heldMaps_restored (f : ScriptFile) : f.restored.heldMaps = f.heldMaps := rfl

@[simp] theorem heldMaps_reloaded (f : ScriptFile) : f.reloaded.heldMaps = f.heldMaps := by
  unfold reloaded
  split_ifs <;> rfl

theorem HeldIn.set (h : f.HeldIn maps) (view : View) (map : SourceMap)
    (hheld : f'.heldMaps = f.heldMaps.set view map) : f'.HeldIn (maps.set view map) := by
  intro other m hm
  rw [hheld, MapPair.get_set] at hm
  rw [MapPair.get_set]
  split_ifs at hm ⊢ with hview
  · exact hm
  · exact h other m hm

/-- The texts stay when the maps stay or are taken out of use. -/
theorem Stepped.heldMaps (hs : f.Stepped hashes fills f' hashes' c) (hc : c = .keep ∨ c = .park) :
    f'.heldMaps = f.heldMaps := by
  cases hs with
  | edited _ he =>
    cases he with
    | same => rfl
    | opened => rfl
    | closed => rfl
    | loadedSsbs text => cases hc <;> contradiction
    | loadedExps text => cases hc <;> contradiction
    | saved o program ssbs exps held => cases hc <;> contradiction
    | reloaded _ => rfl
  | released _ hr => cases hr <;> rfl
  | filled _ hf =>
    cases hf with
    | entered _ _ => exact heldMaps_entered f
    | restored _ _ => rw [heldMaps_restored, heldMaps_entered]

theorem HeldIn.congr (h : f.HeldIn maps) (hheld : f'.heldMaps = f.heldMaps) : f'.HeldIn maps := by
  intro view map hmap
  rw [hheld] at hmap
  exact h view map hmap

theorem HeldIn.edited (h : f.HeldIn f.marks.latest) (he : f.Edited f' c) :
    f'.HeldIn f'.marks.latest := by
  cases he with
  | same => exact h
  | opened => exact h
  | closed => exact h
  | loadedSsbs text =>
    show HeldIn _ (f.marks.record .ssbs text.sourceMap).latest
    rw [Marks.latest_record]
    exact h.set .ssbs text.sourceMap (heldMaps_withSsbs f text)
  | loadedExps text =>
    show HeldIn _ (f.marks.record .exps text.sourceMap).latest
    rw [Marks.latest_record]
    exact h.set .exps text.sourceMap (heldMaps_withExps f text)
  | saved o program ssbs exps held =>
    -- a save holds no text but its own, and no other map waits
    have hmarks : (f.saved o program ssbs exps).marks = f.marks.supersede o.view o.newMap :=
      f.recompiled_marks o.view program o.newMap o.hash
    intro view map hmap
    rw [held] at hmap
    rw [hmarks]
    exact hmap
  | reloaded _ =>
    show HeldIn _ f.marks.promote.latest
    rw [Marks.latest_promote]
    exact h.congr rfl

/-- The maps of the last compilation are those of the held texts after a step as before it, unless maps
in use that were others are taken out of use. -/
theorem HeldIn.stepped (h : f.HeldIn f.marks.latest) (hs : f.Stepped hashes fills f' hashes' c)
    (hpark : c = .park → f.HeldIn f.marks.permanent) : f'.HeldIn f'.marks.latest := by
  have hmarks := hs.marks
  have hheld := hs.heldMaps
  cases hs with
  | edited _ he => exact h.edited he
  | released _ hr =>
    rw [hr.marks]
    exact h.congr (hheld (.inl rfl))
  | filled _ hf =>
    cases hf with
    | entered _ _ =>
      rw [entered_marks]
      exact h.congr (hheld (.inl rfl))
    | restored _ _ =>
      rw [hmarks]
      split_ifs with hram
      · rw [if_pos hram] at hheld hpark
        exact (hpark rfl).congr (hheld (.inr rfl))
      · rw [if_neg hram] at hheld
        exact h.congr (hheld (.inl rfl))

end ScriptFile

/-! ### Runs -/

namespace JointSession

open Session

variable {j : JointSession} {t : Turn} {turns : List Turn} {snapshot : GroundSnapshot} {name : String}
  {f : ScriptFile}

/-- If the turn loads a save state, the files that it makes stale have the maps of all texts that they
hold in use. -/
def Spares (j : JointSession) : Turn → Prop
  | .act (.restore snapshot) => j.unfinished = [] → ∀ name f,
      j.session.workspace.file? name = some f → f.flags.ramMatches = true →
      f.differsIn name (Ground.ofSnapshot snapshot).loaded = true → f.HeldIn f.marks.permanent
  | _ => True

/-- After a poll the maps of all held texts are in use, for each file that is not stale. -/
def Delivers (s : Session) : Prop :=
  ∀ name f, s.poll.2.workspace.file? name = some f → f.flags.ramMatches = true →
    ∀ view map, f.heldMaps.get view = some map → s.poll.2.workspace.activeMap? name view = some map

/-- The maps of the last compilation of every file are those of the texts that it holds. -/
def Newest (j : JointSession) : Prop :=
  ∀ name f, j.session.workspace.file? name = some f → f.HeldIn f.marks.latest

theorem heldIn_of_absent (h : j.session.workspace.file? name = none)
    (hf : j.session.workspace.seen? name = some f) (maps : MapPair) : f.HeldIn maps := by
  obtain ⟨program, hash, rfl⟩ := eq_of_seen?_of_absent h hf
  intro view map hmap
  cases view <;> cases hmap

theorem New.newest (h : j.New) : j.Newest := by
  intro name f hf
  rw [h.fresh.absent name] at hf
  cases hf

/-- Maps are taken out of use only of files that are not stale. -/
theorem Spares.parked (ht : j.Spares t) (h : j.session.Tracks)
    (hf : j.session.workspace.seen? name = some f)
    (hpark : j.session.marking (j.action t) name f = .park) : f.HeldIn f.marks.permanent := by
  have hmarked := marked h.named t name f
  rw [hpark] at hmarked
  cases hmarked with
  | parked snapshot hidle hdiffers hram =>
    obtain hin | ⟨habsent, -⟩ := seen?_cases hf
    · refine ht hidle name f hin ?_ hdiffers
      -- a stale file is held already, and entering leaves it stale
      cases hstale : f.flags.ramMatches with
      | true => rfl
      | false =>
        obtain ⟨hheld, -⟩ := (h.tracked name f hf).parked hstale
        rw [ScriptFile.entered_of_inGround hheld, hstale] at hram
        cases hram
    · exact heldIn_of_absent habsent hf _

theorem Newest.perform (h : j.Newest) (hj : j.session.Tracks) (ht : j.Spares t) :
    (j.perform t).Newest := by
  intro name f' hf'
  obtain ⟨f, hf, hstep⟩ := (steps_perform hj.named t).stepped name f' hf'
  refine ScriptFile.HeldIn.stepped ?_ hstep (ht.parked hj hf)
  obtain hin | ⟨habsent, -⟩ := seen?_cases hf
  · exact h name f hin
  · exact heldIn_of_absent habsent hf _

theorem Orderly.delivers (h : j.Orderly) (hidle : j.unfinished = []) (hnew : j.Newest) :
    Delivers j.session := by
  intro name f hf hram view map hmap
  rw [activeMap?, hf, Option.bind_some]
  rw [h.file?_poll hidle] at hf
  obtain ⟨before, hbefore, rfl⟩ := Option.map_eq_some_iff.mp hf
  rw [ScriptFile.reloaded_flags] at hram
  rw [ScriptFile.heldMaps_reloaded] at hmap
  rw [ScriptFile.reloaded, if_pos hram, Marks.permanent_promote]
  exact hnew name before hbefore view map hmap

theorem Newest.run (h : j.Newest) (hj : j.Reachable)
    (hspares : ∀ done t, done ++ [t] <+: turns → (j.run done).Spares t) {done : List Turn}
    (hdone : done <+: turns) : (j.run done).Newest :=
  run_induction_along h (fun done t hpre hnewest =>
    hnewest.perform (hj.run done).tracks (hspares done t hpre)) done hdone

/-- The game loads no save states. -/
theorem spares_of_byGame {a : Action} (ha : a.byGame = true) : j.Spares (.act a) := by
  cases a with
  | restore snapshot => cases ha
  | _ => exact trivial

/-! ### A save state that takes maps out of use -/

theorem action_restore (hidle : j.unfinished = []) (snapshot : GroundSnapshot) :
    j.action (.act (.restore snapshot)) = .restore snapshot := by
  simp [action, allows, Action.byGame, Action.byUser, hidle]

theorem unfinished_act (j : JointSession) (a : Action) :
    (j.perform (.act a)).unfinished = j.unfinished := by
  simp only [perform]
  split_ifs <;> rfl

/-- When the game drops everything, no file is stale. -/
theorem ramMatches_quit (h : j.session.Tracks)
    (hf : (j.perform (.act .quitGround)).session.workspace.seen? name = some f) :
    f.flags.ramMatches = true := by
  have htracked := (tracks_perform h (.act .quitGround)).tracked name f hf
  have hempty : (j.perform (.act .quitGround)).session.ground.hashes name = ∅ := by
    rw [← Set.not_nonempty_iff_eq_empty]
    rintro ⟨hash, hanger, hs⟩
    rw [show (j.perform (.act .quitGround)).session.ground = j.session.ground.emptied false false
      from rfl, Ground.scriptIn?_emptied] at hs
    simp at hs
  cases hstale : f.flags.ramMatches with
  | true => rfl
  | false =>
    have hheld := htracked.held (htracked.parked hstale).1
    rw [hempty] at hheld
    exact absurd rfl hheld.ne_empty

/-- The maps that a save state takes out of use come back when the game drops the file, instead of those
of the last compilation. -/
theorem Orderly.dropped_of_restored (h : j.Orderly) (hidle : j.unfinished = [])
    (hf : j.session.workspace.file? name = some f) (hram : f.flags.ramMatches = true)
    (hdiffers : f.differsIn name (Ground.ofSnapshot snapshot).loaded = true) :
    ∃ f', ((j.perform (.act (.restore snapshot))).perform (.act .quitGround)).session.workspace.file?
        name = some f' ∧ f'.flags.ramMatches = true ∧ f'.heldMaps = f.heldMaps ∧
      f'.marks.latest = f.marks.permanent := by
  set k := j.perform (.act (.restore snapshot)) with hk
  have hafter : k.Orderly := h.perform (.act (.restore snapshot))
  have hpark : j.session.marking (j.action (.act (.restore snapshot))) name f = .park := by
    rw [action_restore hidle]
    refine if_pos ⟨hdiffers, ?_⟩
    rw [ScriptFile.entered_ramMatches, hram, Bool.or_true]
  obtain ⟨between, hbetween, hrestored⟩ :=
    (steps_perform h.tracks.named (.act (.restore snapshot))).stepped_of_used hf
  obtain ⟨f', hf', hdropped⟩ :=
    (steps_perform hafter.tracks.named (.act .quitGround)).stepped_of_used hbetween
  have hmarks := hrestored.marks
  rw [hpark] at hmarks
  refine ⟨f', hf', ramMatches_quit hafter.tracks (seen?_of_file? hf'), ?_, ?_⟩
  · exact (hdropped.heldMaps (.inl rfl)).trans (hrestored.heldMaps (.inr hpark))
  · have hkept : f'.marks = between.marks := hdropped.marks
    rw [hkept, hmarks]
    rfl

/-- If a poll after the game has dropped everything delivers, then the save state loaded before has not
lost a map. -/
theorem Orderly.spares (h : j.Orderly)
    (hdelivers : ((j.perform t).perform (.act .quitGround)).unfinished = [] →
      Delivers ((j.perform t).perform (.act .quitGround)).session) : j.Spares t := by
  cases t with
  | act a =>
    cases a with
    | restore snapshot =>
      intro hidle name f hf hram hdiffers view map hmap
      obtain ⟨f', hf', hram', hheld, hlatest⟩ := h.dropped_of_restored hidle hf hram hdiffers
      have hafter := (h.perform (.act (.restore snapshot))).perform (.act .quitGround)
      have hquiet := (unfinished_act _ .quitGround).trans ((unfinished_act j (.restore snapshot)).trans hidle)
      have hpolled := hafter.file?_poll hquiet name
      rw [hf', Option.map_some] at hpolled
      have hmapped := hdelivers hquiet name f'.reloaded hpolled (f'.reloaded_flags ▸ hram') view map
        (by rw [ScriptFile.heldMaps_reloaded, hheld, hmap])
      rw [activeMap?, hpolled, Option.bind_some, ScriptFile.reloaded, if_pos hram',
        Marks.permanent_promote, hlatest] at hmapped
      exact hmapped
    | _ => exact trivial
  | _ => exact trivial

/-! ### Polls -/

/-- All along a run, and whatever the game does after it, a poll puts the maps of all held texts in use
for files that are not stale, exactly if all of its turns are such that none is lost. -/
theorem delivers_iff (h : j.New) (turns : List Turn) :
    (∀ done, done <+: turns → ∀ later : List Action, (∀ a ∈ later, a.byGame = true) →
      (j.run (done ++ later.map .act)).unfinished = [] →
      Delivers (j.run (done ++ later.map .act)).session) ↔
    ∀ done t, done ++ [t] <+: turns → (j.run done).Spares t := by
  have hreachable : ∀ done, (j.run done).Reachable := fun done => ⟨j, h, done, rfl⟩
  constructor
  · intro hdelivers done t hpre
    have hrun : j.run ((done ++ [t]) ++ [Action.quitGround].map .act) =
        ((j.run done).perform t).perform (.act .quitGround) := by
      rw [run_append, run_concat]
      rfl
    have hlater := hdelivers (done ++ [t]) hpre [.quitGround] (by simp [Action.byGame])
    rw [hrun] at hlater
    exact (hreachable done).orderly.spares hlater
  · intro hspares done hdone later hlater hidle
    refine (hreachable _).orderly.delivers hidle ?_
    rw [run_append]
    refine Newest.run (h.newest.run ⟨j, h, [], rfl⟩ hspares hdone) (hreachable done) ?_
      (List.prefix_refl _)
    intro before t hpre
    have hmem := hpre.subset (List.mem_append_right _ (List.mem_singleton.mpr rfl))
    obtain ⟨a, ha, rfl⟩ := List.mem_map.mp hmem
    exact spares_of_byGame (hlater a ha)

/-- A held script is saved, and the game drops it. -/
def savedWhileHeld : List Turn :=
  [.act (.loadScript "enter.ssb"), .save .ssbs "enter.ssb" (waitText "6"), .finish, .act .quitGround]

/-- A poll puts the map of the saved text in use. -/
theorem delivers_iff_sample :
    ∃ f map, (({ session := sample } : JointSession).run savedWhileHeld).session.poll.2.workspace.file?
        "enter.ssb" = some f ∧ f.heldMaps.ssbs = some map ∧
      (({ session := sample } : JointSession).run savedWhileHeld).session.poll.2.workspace.activeMap?
        "enter.ssb" .ssbs = some map := by
  set j := ({ session := sample } : JointSession).run savedWhileHeld with hj
  have hpolled : j.unfinished = [] ∧ (j.session.poll.2.workspace.file? "enter.ssb").map (fun f =>
      (f.flags.ramMatches, f.heldMaps.ssbs.isSome)) = some (true, true) := by decide +kernel
  obtain ⟨hidle, hfile⟩ := hpolled
  obtain ⟨f, hf, hflags⟩ := Option.map_eq_some_iff.mp hfile
  obtain ⟨hram, hheld⟩ := Prod.mk.inj hflags
  obtain ⟨map, hmap⟩ := Option.isSome_iff_exists.mp hheld
  have hspares : ∀ done t, done ++ [t] <+: savedWhileHeld →
      (({ session := sample } : JointSession).run done).Spares t := by
    intro done t hpre
    have hmem := hpre.subset (List.mem_append_right _ (List.mem_singleton.mpr rfl))
    simp only [savedWhileHeld, List.mem_cons, List.not_mem_nil, or_false] at hmem
    obtain rfl | rfl | rfl | rfl := hmem <;> exact trivial
  have hdelivers := (delivers_iff new_sample savedWhileHeld).mpr hspares savedWhileHeld
    (List.prefix_refl _) [] (by simp) (by rw [List.map_nil, List.append_nil]; exact hidle)
  rw [List.map_nil, List.append_nil, ← hj] at hdelivers
  exact ⟨f, map, hf, hmap, hdelivers "enter.ssb" f hf hram .ssbs map hmap⟩

/-- What belongs to a save state made while the game holds the script. -/
def heldSnapshot : GroundSnapshot :=
  (({ session := sample } : JointSession).run [.act (.loadScript "enter.ssb")]).session.ground.snapshot

/-- A script that was saved while the game did not hold it; before its reload the save state puts older
bytes into the game, which drops them again. -/
def restoredBeforeReload : JointSession :=
  ({ session := sample } : JointSession).run [.act (.loadScript "enter.ssb"), .act .quitGround,
    .save .ssbs "enter.ssb" (waitText "6"), .finish, .act (.restore heldSnapshot), .act .quitGround]

/-- The script is not stale and its text is held, but the map of the text was lost. -/
theorem restoredBeforeReload_loses :
    restoredBeforeReload.Reachable ∧ restoredBeforeReload.unfinished = [] ∧
      ¬ Delivers restoredBeforeReload.session := by
  have hpolled : restoredBeforeReload.unfinished = [] ∧
      (restoredBeforeReload.session.poll.2.workspace.file? "enter.ssb").map (fun f =>
        (f.flags.ramMatches, f.heldMaps.ssbs.isSome)) = some (true, true) ∧
      restoredBeforeReload.session.poll.2.workspace.activeMap? "enter.ssb" .ssbs = none := by
    decide +kernel
  obtain ⟨hidle, hfile, hlost⟩ := hpolled
  refine ⟨reachable_sample _, hidle, fun hdelivers => ?_⟩
  obtain ⟨f, hf, hflags⟩ := Option.map_eq_some_iff.mp hfile
  obtain ⟨hram, hheld⟩ := Prod.mk.inj hflags
  obtain ⟨map, hmap⟩ := Option.isSome_iff_exists.mp hheld
  have hactive := hdelivers "enter.ssb" f hf hram .ssbs map hmap
  rw [hlost] at hactive
  cases hactive

end JointSession

end SceneDebugger
