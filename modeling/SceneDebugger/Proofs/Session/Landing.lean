import SceneDebugger.Proofs.Ground.Effects
import SceneDebugger.Proofs.Session.Run

/-!
# SceneDebugger.Proofs.Session.Landing — which script is in which place, told by what has happened

What the game holds depends on all that has happened: a load goes to the place that was announced last,
unless something has made the game forget it, and it stays there until something empties the place or
another load lands in it.

* `Session.target`: the place of the next load, read off the history.
* `Session.Stays`: a script was loaded into a place and is there still, read off the history.
* `Session.Follows.perform`: the places of the game follow the history, action by action.
* `Session.loads_land`: so they do after every run without save states.
-/

namespace SceneDebugger

/-! ### What actions say of the places -/

namespace Action

/-- The place that is announced for the next load, if the announcement is valid. -/
def announces? : Action → Option Nat
  | .loadScene hanger _ => if hanger ≤ 3 then some hanger else none
  | .loadTalk hanger => some (if hanger ≤ 3 then hanger + 3 else hanger)
  | _ => none

/-- Announcements so far do not count any more. -/
def forgets : Action → Bool
  | .loadScript _ => true
  | .startGround => true
  | .quitGround => true
  | .changeMap => true
  | _ => false

/-- The place is emptied. -/
def clears (place : Nat) : Action → Bool
  | .startGround => true
  | .quitGround => true
  | .changeMap => place != 0
  | _ => false

end Action

namespace Session

variable {history before after : List Action} {a : Action} {place : Nat} {file : String}

/-- The announcement that counts: the last valid one since announcements were forgotten. -/
def announced? (history : List Action) : Option Nat :=
  (history.reverse.takeWhile fun a => !a.forgets).findSome? Action.announces?

/-- The place of the next load: the announced one, or else the first. -/
def target (history : List Action) : Nat := (announced? history).getD 0

/-- After a history, an action changes what is in a place: it empties it, or it is a load that lands
there. -/
def Changes (place : Nat) (history : List Action) (a : Action) : Prop :=
  a.clears place = true ∨ target history = place ∧ ∃ file, a = .loadScript file

/-- The script was loaded into the place, which nothing has changed since. -/
def Stays (place : Nat) (file : String) (history : List Action) : Prop :=
  ∃ before after, history = before ++ .loadScript file :: after ∧ target before = place ∧
    ∀ done a rest, after = done ++ a :: rest → ¬Changes place (before ++ .loadScript file :: done) a

theorem announced?_concat (history : List Action) (a : Action) :
    announced? (history ++ [a]) = if a.forgets then none else a.announces?.or (announced? history) := by
  unfold announced?
  rw [List.reverse_append, List.reverse_singleton, List.singleton_append, List.takeWhile_cons]
  cases a.forgets with
  | true => rfl
  | false =>
    simp only [Bool.not_false, if_true, Bool.false_eq_true, if_false, List.findSome?_cons]
    cases a.announces? <;> rfl

/-- With one more action, a script is in a place if it was loaded just now, or if it was there and
the action does not change the place. -/
theorem stays_concat : Stays place file (history ++ [a]) ↔
    (a = .loadScript file ∧ target history = place) ∨
      (Stays place file history ∧ ¬Changes place history a) := by
  constructor
  · rintro ⟨before, after, heq, htarget, hkept⟩
    obtain rfl | ⟨done, last, rfl⟩ := List.eq_nil_or_concat after
    · obtain ⟨rfl, hlast⟩ := List.append_inj' heq rfl
      exact .inl ⟨(List.cons.inj hlast).1, htarget⟩
    · have hsplit : history ++ [a] = (before ++ .loadScript file :: done) ++ [last] := by
        simpa using heq
      obtain ⟨rfl, hlast⟩ := List.append_inj' hsplit rfl
      obtain rfl := (List.cons.inj hlast).1
      refine .inr ⟨⟨before, done, rfl, htarget, fun done' b rest hdone => ?_⟩, ?_⟩
      · exact hkept done' b (rest ++ [a]) (by simp [hdone])
      · exact hkept done a [] (by simp)
  · rintro (⟨rfl, htarget⟩ | ⟨⟨before, after, rfl, htarget, hkept⟩, hlast⟩)
    · exact ⟨history, [], rfl, htarget, fun done b rest hdone => by simp at hdone⟩
    · refine ⟨before, after ++ [a], by simp, htarget, fun done b rest hdone => ?_⟩
      obtain rfl | ⟨more, last, rfl⟩ := List.eq_nil_or_concat rest
      · obtain ⟨rfl, hb⟩ := List.append_inj' hdone rfl
        obtain rfl := (List.cons.inj hb).1
        exact hlast
      · have hsplit : after ++ [a] = (done ++ b :: more) ++ [last] := by simpa using hdone
        exact hkept done b more (List.append_inj' hsplit rfl).1

end Session

/-! ### What actions do to the places -/

namespace Ground

variable {g : Ground}

/-- The file in a place. -/
def fileIn? (g : Ground) (place : Nat) : Option String := (g.scriptIn? place).map LoadedScript.file

theorem fileIn?_emptied (g : Ground) (keepShared running : Bool) (place : Nat) :
    (g.emptied keepShared running).fileIn? place =
      if keepShared ∧ place = 0 then g.fileIn? place else none := by
  rw [fileIn?, scriptIn?_emptied]
  split_ifs with h
  · rw [fileIn?, h.2]
  · rfl

theorem pending_emptied (g : Ground) (keepShared running : Bool) :
    (g.emptied keepShared running).pending = none := by
  unfold emptied
  cases keepShared <;> rfl

theorem fileIn?_place (g : Ground) (w : Workspace) {slot : Nat} (hslot : slot < hangerCount)
    (file : String) (place : Nat) :
    (g.place w slot file).1.fileIn? place = if place = slot then some file else g.fileIn? place := by
  have hplaced : (g.place w slot file).1.scriptIn? place =
      if place = slot then some ⟨file, (hashOf (enter w file) file).1⟩ else g.scriptIn? place :=
    scriptIn?_put g hslot _
  rw [fileIn?, hplaced]
  split_ifs <;> rfl

theorem fileIn?_loadScript (g : Ground) (w : Workspace) (file : String) (place : Nat) :
    (g.loadScript w file).1.fileIn? place =
      if g.pending.getD 0 = place ∧ place < hangerCount then some file else g.fileIn? place := by
  by_cases hslot : g.pending.getD 0 < hangerCount
  · rw [loadScript_of_lt g w file hslot, fileIn?_place _ w hslot]
    by_cases hplace : place = g.pending.getD 0
    · rw [if_pos hplace, if_pos ⟨hplace.symm, hplace ▸ hslot⟩]
    · have hno : ¬(g.pending.getD 0 = place ∧ place < hangerCount) := fun h => hplace h.1.symm
      rw [if_neg hplace, if_neg hno]
      rfl
  · have hno : ¬(g.pending.getD 0 = place ∧ place < hangerCount) := by
      rintro ⟨rfl, hlt⟩
      exact hslot hlt
    rw [(loadScript_of_not_lt g w file hslot).1, if_neg hno]
    rfl

theorem pending_loadScript (g : Ground) (w : Workspace) (file : String) :
    (g.loadScript w file).1.pending = none := by
  unfold loadScript
  dsimp only
  split_ifs <;> rfl

theorem pending_loadScene (g : Ground) (w : Workspace) (hanger : Nat) (name : String) :
    (g.loadScene w hanger name).1.pending = if hanger ≤ 3 then some hanger else g.pending := by
  unfold loadScene
  by_cases h : hanger ≤ 3
  · rw [if_pos h, if_pos (show hanger ≤ lastSceneHanger from h)]
    rfl
  · rw [if_neg h, if_neg (show ¬hanger ≤ lastSceneHanger from h)]

end Ground

/-! ### One action after the other -/

namespace Session

variable {s : Session} {history : List Action} {a : Action}

/-- The places of the game are as a history says. -/
structure Follows (s : Session) (history : List Action) : Prop where
  pending : s.ground.pending = announced? history
  places : ∀ place file,
    s.ground.fileIn? place = some file ↔ place < hangerCount ∧ Stays place file history

theorem Follows.target (h : s.Follows history) : s.ground.pending.getD 0 = Session.target history :=
  congrArg (Option.getD · 0) h.pending

/-- What is announced after an action. -/
theorem pending_perform (s : Session) (ha : ∀ snapshot, a ≠ .restore snapshot) :
    (s.perform a).ground.pending =
      if a.forgets then none else a.announces?.or s.ground.pending := by
  cases a with
  | startGround => exact s.ground.pending_emptied false true
  | quitGround => exact s.ground.pending_emptied false false
  | changeMap => exact s.ground.pending_emptied true true
  | loadScript file => exact s.ground.pending_loadScript s.workspace file
  | loadScene hanger name =>
    have hscene := s.ground.pending_loadScene s.workspace hanger name
    refine hscene.trans ?_
    by_cases hvalid : hanger ≤ 3
    · simp [Action.forgets, Action.announces?, hvalid]
    · simp [Action.forgets, Action.announces?, hvalid]
  | restore snapshot => exact absurd rfl (ha snapshot)
  | _ => rfl

/-- What is in a place after an action that is no load of a script. -/
theorem fileIn?_perform (s : Session) (ha : ∀ snapshot, a ≠ .restore snapshot)
    (hload : ∀ file, a ≠ .loadScript file) (place : Nat) :
    (s.perform a).ground.fileIn? place =
      if a.clears place then none else s.ground.fileIn? place := by
  cases a with
  | startGround => exact s.ground.fileIn?_emptied false true place
  | quitGround => exact s.ground.fileIn?_emptied false false place
  | changeMap =>
    have hkept := s.ground.fileIn?_emptied true true place
    refine hkept.trans ?_
    by_cases hplace : place = 0
    · simp [Action.clears, hplace]
    · simp [Action.clears, hplace]
  | loadScript file => exact absurd rfl (hload file)
  | loadScene hanger name =>
    have hslots := (Ground.beside_loadScene s.ground s.workspace hanger name).2
    show (s.ground.loadScene s.workspace hanger name).1.fileIn? place = s.ground.fileIn? place
    rw [Ground.fileIn?, Ground.scriptIn?, hslots]
    rfl
  | restore snapshot => exact absurd rfl (ha snapshot)
  | _ => rfl

/-- The places of the game follow every action but the load of a save state. -/
theorem Follows.perform (h : s.Follows history) (ha : ∀ snapshot, a ≠ .restore snapshot) :
    (s.perform a).Follows (history ++ [a]) := by
  refine ⟨?_, fun place file => ?_⟩
  · rw [pending_perform s ha, announced?_concat, h.pending]
  rw [stays_concat]
  by_cases hload : ∃ loaded, a = .loadScript loaded
  · obtain ⟨loaded, rfl⟩ := hload
    have hplaces : (s.perform (.loadScript loaded)).ground.fileIn? place =
        if Session.target history = place ∧ place < hangerCount then some loaded
        else s.ground.fileIn? place := by
      rw [← h.target]
      exact s.ground.fileIn?_loadScript s.workspace loaded place
    have hchanges : Changes place history (.loadScript loaded) ↔ Session.target history = place := by
      simp [Changes, Action.clears]
    rw [hplaces, hchanges]
    by_cases hhere : Session.target history = place
    · by_cases hlt : place < hangerCount
      · simp [hhere, hlt]
      · simp [hhere, hlt, h.places]
    · simp [hhere, h.places]
  · have hno : ∀ loaded, a ≠ .loadScript loaded := fun loaded heq => hload ⟨loaded, heq⟩
    have hchanges : Changes place history a ↔ a.clears place = true := by
      simp [Changes, hno]
    rw [fileIn?_perform s ha hno, hchanges]
    cases a.clears place with
    | true => simp [hno]
    | false => simp [hno, h.places]

/-- In a new session nothing is announced, and nothing is in the places. -/
theorem follows_fresh (h : s.Fresh) : s.Follows [] := by
  refine ⟨by rw [h.ground]; rfl, fun place file => ?_⟩
  have hempty : s.ground.fileIn? place = none := by
    have hnew : ({} : Ground).fileIn? place = none := by
      unfold Ground.fileIn? Ground.scriptIn?
      rw [Vector.getElem?_replicate]
      split_ifs <;> rfl
    rw [h.ground, hnew]
  have hnever : ¬Stays place file [] := by
    rintro ⟨before, after, heq, -⟩
    simp at heq
  simp [hempty, hnever]

theorem Follows.run (h : s.Follows history) {actions : List Action}
    (hplain : ∀ snapshot, .restore snapshot ∉ actions) :
    (s.run actions).Follows (history ++ actions) := by
  induction actions using List.reverseRecOn with
  | nil => rwa [List.append_nil]
  | append_singleton actions a ih =>
    have hbefore : ∀ snapshot, .restore snapshot ∉ actions :=
      fun snapshot hmem => hplain snapshot (List.mem_append_left _ hmem)
    have hlast : ∀ snapshot, a ≠ .restore snapshot := by
      rintro snapshot rfl
      exact hplain snapshot (by simp)
    rw [run_concat, ← List.append_assoc]
    exact (ih hbefore).perform hlast

/-! ### Every load lands where it was announced -/

/-- After every run without save states, a load puts its script into the place that the history says,
and into no other; a load announced for a place that there is not changes neither the places nor the
files in use.  Either way the announcement is used up.  And in each place is the script that the history
says. -/
theorem loads_land {first : Session} (hfirst : first.Fresh)
    (hplain : ∀ snapshot, .restore snapshot ∉ history) :
    (first.run history).ground.pending = announced? history ∧
    (∀ file,
      (∀ place, ((first.run history).perform (.loadScript file)).ground.fileIn? place =
        if target history = place ∧ place < 7 then some file
        else (first.run history).ground.fileIn? place) ∧
      (7 ≤ target history →
        ((first.run history).perform (.loadScript file)).ground.slots =
          (first.run history).ground.slots ∧
        ((first.run history).perform (.loadScript file)).workspace.files =
          (first.run history).workspace.files) ∧
      ((first.run history).perform (.loadScript file)).ground.pending = none) ∧
    ∀ place file, (first.run history).ground.fileIn? place = some file ↔
      place < 7 ∧ Stays place file history := by
  have hnow : (first.run history).Follows history := (follows_fresh hfirst).run hplain
  refine ⟨hnow.pending, fun file => ⟨fun place => ?_, fun htarget => ?_, ?_⟩, hnow.places⟩
  · rw [← hnow.target]
    exact Ground.fileIn?_loadScript _ _ file place
  · have hout : ¬(first.run history).ground.pending.getD 0 < hangerCount := by
      rw [hnow.target]
      exact Nat.not_lt.mpr htarget
    obtain ⟨hground, hbeside⟩ :=
      Ground.loadScript_of_not_lt _ (first.run history).workspace file hout
    have hslots := congrArg Ground.slots hground
    exact ⟨hslots, hbeside.files⟩
  · exact Ground.pending_loadScript _ _ file

/-- Announcements that overwrite each other, one of them not valid, two loads, a change of the map and an
announcement of a place that there is not. -/
def crowdedLoads : List Action :=
  [.loadTalk 1, .loadScene 2 "meet.sse", .fetch "away.ssb", .loadScene 9 "leave.sse",
    .loadScript "meet.ssb", .loadScript "shared.ssb", .changeMap, .loadTalk 9]

theorem loads_land_crowded :
    target (crowdedLoads.take 4) = 2 ∧ target (crowdedLoads.take 5) = 0 ∧ target crowdedLoads = 9 ∧
      ((sample.run crowdedLoads).perform (.loadScript "away.ssb")).ground.slots =
        (sample.run crowdedLoads).ground.slots ∧
      Stays 0 "shared.ssb" crowdedLoads ∧ Stays 2 "meet.ssb" (crowdedLoads.take 6) := by
  have hplain : ∀ snapshot, .restore snapshot ∉ crowdedLoads := by simp [crowdedLoads]
  have hplain' : ∀ snapshot, .restore snapshot ∉ crowdedLoads.take 6 := by simp [crowdedLoads]
  obtain ⟨-, hload, hplaces⟩ := loads_land fresh_sample hplain
  obtain ⟨-, -, hplaces'⟩ := loads_land fresh_sample hplain'
  have hshared : (sample.run crowdedLoads).ground.fileIn? 0 = some "shared.ssb" := by decide +kernel
  have hmeet : (sample.run (crowdedLoads.take 6)).ground.fileIn? 2 = some "meet.ssb" := by
    decide +kernel
  have htarget : target crowdedLoads = 9 := by decide
  refine ⟨by decide, by decide, htarget, ?_, ?_, ?_⟩
  · exact ((hload "away.ssb").2.1 (by rw [htarget]; decide)).1
  · exact ((hplaces 0 "shared.ssb").mp hshared).2
  · exact ((hplaces' 2 "meet.ssb").mp hmeet).2

end Session

end SceneDebugger
