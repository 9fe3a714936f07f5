import SceneDebugger.Proofs.Session.Requests

/-!
# SceneDebugger.Proofs.Session.Toggling — what a poll leaves of a toggled breakpoint

A line is toggled at its first opcode in the map in use.  The next poll may put another map in use, in
which the line starts at another opcode, and other breakpoints, among which the toggled one is not.

* `Breakpoints.contains_toggle`: what a toggle does to the breakpoints in force.
* `JointSession.Orderly.activeMap?_poll`, `JointSession.Orderly.contains_poll`: the map and the
  breakpoints that a poll leaves in force are those of the last compilation.
* `JointSession.Reachable.waitTogether`: breakpoints of a file wait only if maps of it do.
* `JointSession.toggle_kept_iff`: when the line is then as the toggle has answered; it is whenever no
  maps of the file wait.
-/

namespace SceneDebugger

/-! ### Breakpoints -/

namespace Breakpoints

variable (b : Breakpoints) (h : Host) (file : String) (offset : UInt32)

theorem toggle_fst : (b.toggle h file offset).1 = !b.contains file offset := by
  unfold toggle
  split_ifs with hset <;> simp [hset]

theorem contains_add (k : UInt32) :
    (b.add h file offset).1.contains file k = (k == offset || b.contains file k) := by
  unfold add
  split_ifs with hset
  · cases hk : k == offset with
    | true => rw [eq_of_beq hk, hset, Bool.or_true]
    | false => rw [Bool.false_or]
  · show ((b.primary.add file offset).offsets file).contains k = _
    have hswap : offset = k ↔ k = offset := eq_comm
    rw [OffsetMap.add, OffsetMap.offsets_insert, if_pos rfl, Std.ExtTreeSet.contains_insert,
      Bool.eq_iff_iff]
    simp [hswap, contains]

theorem contains_remove (k : UInt32) :
    (b.remove h file offset).1.contains file k = (k != offset && b.contains file k) := by
  unfold remove
  split_ifs with hset
  · show ((b.primary.remove file offset).offsets file).contains k = _
    have hswap : offset = k ↔ k = offset := eq_comm
    rw [OffsetMap.remove, OffsetMap.offsets_replace, if_pos rfl, Std.ExtTreeSet.contains_erase,
      Bool.eq_iff_iff]
    simp [hswap, contains]
  · have hkept : ((b.primary.replace file (b.offsets file)).offsets file).contains k =
        b.contains file k := by
      rw [OffsetMap.offsets_replace, if_pos rfl]
      rfl
    refine hkept.trans ?_
    cases hk : k != offset with
    | true => rw [Bool.true_and]
    | false =>
      rw [bne_eq_false_iff_eq.mp hk, Bool.false_and]
      exact Bool.eq_false_iff.mpr hset

/-- A toggle changes its breakpoint and no other one of the file. -/
theorem contains_toggle (k : UInt32) : (b.toggle h file offset).2.1.contains file k =
    if k = offset then !b.contains file offset else b.contains file k := by
  unfold toggle
  split_ifs with hset hk hk
  · rw [contains_remove, hk, hset, bne_self_eq_false, Bool.false_and]
    rfl
  · rw [contains_remove, bne_iff_ne.mpr hk, Bool.true_and]
  · rw [contains_add, hk, beq_self_eq_true, Bool.true_or, Bool.eq_false_iff.mpr hset]
    rfl
  · rw [contains_add, beq_eq_false_iff_ne.mpr hk, Bool.false_or]

/-- A breakpoint is toggled in what is in force: if other breakpoints wait, they do not see it. -/
theorem latestOffsets_toggle (k : UInt32) :
    ((b.toggle h file offset).2.1.latestOffsets file).contains k =
      if b.pendingOffsets? file = none ∧ k = offset then !b.contains file offset
      else (b.latestOffsets file).contains k := by
  have hkept : (b.toggle h file offset).2.1.pendingOffsets? file = b.pendingOffsets? file := by
    rw [pendingOffsets?, pending_toggle]
    rfl
  rw [latestOffsets_eq, latestOffsets_eq, hkept]
  cases b.pendingOffsets? file with
  | none =>
    simp only [Option.getD_none, true_and]
    exact b.contains_toggle h file offset k
  | some waiting => simp

end Breakpoints

/-! ### Maps -/

namespace Workspace

/-- The map of the last compilation that belongs to a text. -/
def latestMap? (w : Workspace) (name : String) (view : View) : Option SourceMap :=
  (w.file? name).bind fun f => f.marks.latest.get view

end Workspace

namespace Session

open Workspace

variable {s s' : Session} {file : String} {view : View} {isSet : Bool}
  {opcodes : SourceMap → List UInt32}

/-- A toggle that answers has changed the breakpoint at the first opcode in the map in use. -/
theorem toggleFirst_eq_some (h : s.toggleFirst file view opcodes = (some isSet, s')) :
    s.workspace.ramMatches file = true ∧ ∃ map offset,
      s.workspace.activeMap? file view = some map ∧ (opcodes map).head? = some offset ∧
      isSet = !s.breakpoints.contains file offset ∧
      s'.breakpoints = (s.breakpoints.toggle s.workspace.host file offset).2.1 := by
  unfold toggleFirst at h
  split_ifs at h with hram
  · refine ⟨hram, ?_⟩
    split at h
    · cases h
    · next offset hfirst =>
      obtain ⟨map, hmap, hhead⟩ := Option.bind_eq_some_iff.mp hfirst
      cases h
      exact ⟨map, offset, hmap, hhead, s.breakpoints.toggle_fst s.workspace.host file offset, rfl⟩
  · cases h

/-- The first opcode of a line in the map that a poll puts in use is a breakpoint or not, as given. -/
def KeepsLine (s : Session) (file : String) (view : View) (line : UInt32) (isSet : Bool) : Prop :=
  ∀ map offset, s.poll.2.workspace.activeMap? file view = some map →
    (map.offsetsAtLine line).head? = some offset →
    s.poll.2.breakpoints.contains file offset = isSet

/-- The first opcode of a line in the map of the last compilation is the one in the map in use, and
no breakpoints wait; or it was a breakpoint of the last compilation or not, as given. -/
def LineAgrees (s : Session) (file : String) (view : View) (line : UInt32) (isSet : Bool) : Prop :=
  ∀ latest offset, s.workspace.latestMap? file view = some latest →
    (latest.offsetsAtLine line).head? = some offset →
    s.breakpoints.pendingOffsets? file = none ∧
        (∃ map, s.workspace.activeMap? file view = some map ∧
          (map.offsetsAtLine line).head? = some offset) ∨
      (s.breakpoints.latestOffsets file).contains offset = isSet

end Session

/-! ### Polls -/

namespace JointSession

open Session Workspace

variable {j : JointSession} {s : Session} {file : String} {view : View} {line : UInt32} {isSet : Bool}

theorem Orderly.activeMap?_poll (h : j.Orderly) (hidle : j.unfinished = [])
    (hram : j.session.workspace.ramMatches file = true) (view : View) :
    j.session.poll.2.workspace.activeMap? file view = j.session.workspace.latestMap? file view := by
  rw [activeMap?, h.file?_poll hidle, latestMap?]
  cases hf : j.session.workspace.file? file with
  | none => rfl
  | some f =>
    rw [ramMatches_of_file? hf] at hram
    rw [Option.map_some, Option.bind_some, Option.bind_some, ScriptFile.reloaded, if_pos hram,
      Marks.permanent_promote]

theorem Orderly.contains_poll (h : j.Orderly) (hram : j.session.workspace.ramMatches file = true)
    (offset : UInt32) : j.session.poll.2.breakpoints.contains file offset =
      (j.session.breakpoints.latestOffsets file).contains offset := by
  rw [Breakpoints.contains, ← Breakpoints.offsets, h.offsets_poll, if_pos hram]

theorem Orderly.keepsLine_iff (h : j.Orderly) (hidle : j.unfinished = [])
    (hram : j.session.workspace.ramMatches file = true) :
    j.session.KeepsLine file view line isSet ↔ ∀ latest offset,
      j.session.workspace.latestMap? file view = some latest →
      (latest.offsetsAtLine line).head? = some offset →
      (j.session.breakpoints.latestOffsets file).contains offset = isSet := by
  simp only [KeepsLine, h.activeMap?_poll hidle hram, h.contains_poll hram]

/-! ### Breakpoints that wait with a map -/

/-- Breakpoints of a file wait only if maps of it do. -/
def WaitTogether (j : JointSession) : Prop :=
  ∀ name, (j.session.breakpoints.pendingOffsets? name).isSome →
    ∃ f, j.session.workspace.file? name = some f ∧ f.marks.temporary.isSome = true

theorem WaitTogether.perform_take (h : j.WaitTogether) (hj : j.Orderly) :
    (j.perform .take).WaitTogether := by
  obtain hsame | ⟨event, rest, -, -, htaken⟩ := take_cases j
  · rw [hsame]
    exact h
  · rw [htaken]
    have hserved := served_take hj.tracks.named event rest
    intro name hsome
    rw [hserved.pending] at hsome
    split_ifs at hsome with hdone
    · cases hsome
    · obtain ⟨f, hf, hwaits⟩ := h name hsome
      rw [hserved.file, hf]
      split_ifs with hrequest
      · -- the request is for a stale file, of which a reload leaves everything waiting
        have hready : j.session.workspace.canReload name ≠ true := fun hready =>
          hdone ⟨hrequest, hready⟩
        rw [canReload_of_file? hf] at hready
        refine ⟨f, ?_, hwaits⟩
        rw [Option.map_some, ScriptFile.reloaded, if_neg hready]
      · exact ⟨f, rfl, hwaits⟩

theorem WaitTogether.perform_of_notifies (h : j.WaitTogether) (hj : j.Orderly) {t : Turn}
    (ht : t ≠ .take) : (j.perform t).WaitTogether := by
  intro name hsome
  -- a file of which maps wait still has maps waiting
  have hkept : (∃ f, j.session.workspace.file? name = some f ∧ f.marks.temporary.isSome = true) →
      ∃ f, (j.perform t).session.workspace.file? name = some f ∧
        f.marks.temporary.isSome = true := by
    rintro ⟨f, hf, hwaits⟩
    obtain ⟨f', hf', hstep⟩ := (steps_perform hj.tracks.named t).stepped_of_used hf
    refine ⟨f', hf', ?_⟩
    have hmarked := marked hj.tracks.named t name f
    rw [hstep.marks]
    generalize j.session.marking (j.action t) name f = c at hmarked
    cases hmarked with
    | keep _ => exact hwaits
    | promoted _ => exact absurd rfl ht
    | parked _ _ _ _ => rfl
    | ssbs _ _ => exact (ScriptFile.isSome_record _ _ _).trans hwaits
    | exps _ _ => exact (ScriptFile.isSome_record _ _ _).trans hwaits
    | saved _ _ => rfl
  have hadjusted := adjusted hj.tracks.named t name
  generalize (j.perform t).session.breakpoints = b at hadjusted hsome
  cases hadjusted with
  | same _ hs => exact hkept (h name (hs.pending ▸ hsome))
  | followed _ _ host =>
    -- breakpoints that follow a save wait only if the file is stale
    rw [Breakpoints.pending_resync, if_pos rfl] at hsome
    cases hram : j.session.workspace.ramMatches name with
    | true =>
      rw [hram] at hsome
      cases hsome
    | false =>
      obtain ⟨f, hf, hstale⟩ := ramMatches_eq_false.mp hram
      exact hkept ⟨f, hf, ((hj.tracks.tracked name f (seen?_of_file? hf)).parked hstale).2⟩
  | reloaded _ _ _ => exact absurd rfl ht
  | added offset host =>
    rw [Breakpoints.pendingOffsets?, Breakpoints.pending_add] at hsome
    exact hkept (h name hsome)
  | removed offset host =>
    rw [Breakpoints.pendingOffsets?, Breakpoints.pending_remove] at hsome
    exact hkept (h name hsome)
  | toggled _ _ offset host _ =>
    rw [Breakpoints.pendingOffsets?, Breakpoints.pending_toggle] at hsome
    exact hkept (h name hsome)

theorem Reachable.waitTogether (h : j.Reachable) : j.WaitTogether := by
  refine (h.induction (P := fun j => j.Orderly ∧ j.WaitTogether) (fun j hnew => ?_)
    fun j t hj => ⟨hj.1.perform t, ?_⟩).2
  · refine ⟨hnew.orderly, fun name hsome => ?_⟩
    rw [Breakpoints.pendingOffsets?, hnew.pending] at hsome
    simp at hsome
  · by_cases ht : t = .take
    · rw [ht]
      exact hj.2.perform_take hj.1
    · exact hj.2.perform_of_notifies hj.1 ht

theorem WaitTogether.pendingOffsets?_eq_none (h : j.WaitTogether) {f : ScriptFile}
    (hf : j.session.workspace.file? file = some f) (hsettled : f.marks.temporary.isSome = false) :
    j.session.breakpoints.pendingOffsets? file = none := by
  rw [← Option.not_isSome_iff_eq_none]
  intro hsome
  obtain ⟨g, hg, hwaits⟩ := h file hsome
  rw [hf] at hg
  cases hg
  rw [hsettled] at hwaits
  cases hwaits

/-! ### Toggles -/

/-- If no maps of a file wait, the one in use is that of the last compilation. -/
theorem WaitTogether.lineAgrees (h : j.WaitTogether) {f : ScriptFile}
    (hf : j.session.workspace.file? file = some f) (hsettled : f.marks.temporary.isSome = false) :
    j.session.LineAgrees file view line isSet := by
  have hpending := h.pendingOffsets?_eq_none hf hsettled
  have hlatest : f.marks.latest = f.marks.permanent := by
    rw [Marks.latest, Option.isSome_eq_false_iff.mp hsettled |> Option.isNone_iff_eq_none.mp,
      Option.getD_none]
  intro latest offset hmap hhead
  refine .inl ⟨hpending, latest, ?_, hhead⟩
  rw [latestMap?, hf, Option.bind_some, hlatest] at hmap
  rw [activeMap?, hf, Option.bind_some, hmap]

/-- A poll right after a toggle leaves the line as the toggle has answered exactly if the line starts at
the same opcode in the last compilation and no breakpoints wait, or if the breakpoints of the last
compilation happened to agree with the answer.  So it does if no maps of the file wait. -/
theorem toggle_kept_iff (h : j.Reachable) (hidle : j.unfinished = [])
    (ht : j.session.toggleAtLine file view line = (some isSet, s)) :
    (s.KeepsLine file view line isSet ↔ j.session.LineAgrees file view line isSet) ∧
      ((∃ f, j.session.workspace.file? file = some f ∧ f.marks.temporary.isSome = false) →
        s.KeepsLine file view line isSet) := by
  suffices hiff : s.KeepsLine file view line isSet ↔ j.session.LineAgrees file view line isSet from
    ⟨hiff, fun ⟨_, hf, hsettled⟩ => hiff.mpr (h.waitTogether.lineAgrees hf hsettled)⟩
  obtain ⟨hram, map, toggled, hmap, hhead, hanswer, hbreakpoints⟩ := toggleFirst_eq_some ht
  set t : Turn := .toggle file view fun m => m.offsetsAtLine line with hturn
  have hsession : (j.perform t).session = s := congrArg Prod.snd ht
  have horderly : (j.perform t).Orderly := h.orderly.perform t
  have hbeside : j.session.Beside s := by
    rw [← hsession]
    exact beside_toggleFirst j.session file view _
  have hlatest : s.workspace.latestMap? file view = j.session.workspace.latestMap? file view := by
    rw [latestMap?, hbeside.workspace.file?, latestMap?]
  have hkept : (j.perform t).session.KeepsLine file view line isSet ↔ _ :=
    horderly.keepsLine_iff hidle (by rw [hsession, hbeside.workspace.ramMatches, hram])
  rw [hsession] at hkept
  rw [hkept, LineAgrees, hlatest, hbreakpoints]
  refine forall₂_congr fun latest offset => imp_congr_right fun _ => imp_congr_right fun _ => ?_
  -- the line starts at one opcode in the map in use, which is the toggled one
  have hsame : (∃ map, j.session.workspace.activeMap? file view = some map ∧
      (map.offsetsAtLine line).head? = some offset) ↔ offset = toggled := by
    constructor
    · rintro ⟨map', hmap', hhead'⟩
      rw [hmap] at hmap'
      cases hmap'
      rw [hhead] at hhead'
      exact (Option.some.inj hhead').symm
    · rintro rfl
      exact ⟨map, hmap, hhead⟩
  rw [Breakpoints.latestOffsets_toggle, hsame, ← hanswer]
  split_ifs with hstays
  · exact iff_of_true rfl (.inl hstays)
  · exact ⟨.inr, fun hor => hor.resolve_left hstays⟩

/-- A script that waits twice, whose map is in use. -/
def mappedScript : JointSession :=
  ({ session := sample } : JointSession).run
    [.save .ssbs "enter.ssb" "routine Actor\nWait 5\nWait 6", .finish, .take, .take]

theorem toggle_kept_sample :
    (mappedScript.session.toggleAtLine "enter.ssb" .ssbs 3).1 = some true ∧
      (mappedScript.session.toggleAtLine "enter.ssb" .ssbs 3).2.KeepsLine "enter.ssb" .ssbs 3 true := by
  have hrun : mappedScript.unfinished = [] ∧
      (mappedScript.session.workspace.file? "enter.ssb").map (fun f => f.marks.temporary.isSome) =
        some false ∧
      (mappedScript.session.toggleAtLine "enter.ssb" .ssbs 3).1 = some true := by
    decide +kernel
  obtain ⟨hidle, hfile, hanswer⟩ := hrun
  obtain ⟨f, hf, hsettled⟩ := Option.map_eq_some_iff.mp hfile
  have hreachable : mappedScript.Reachable := reachable_sample _
  generalize htoggled : mappedScript.session.toggleAtLine "enter.ssb" .ssbs 3 = toggled at hanswer ⊢
  obtain ⟨answer, s⟩ := toggled
  cases hanswer
  exact ⟨rfl, (toggle_kept_iff hreachable hidle htoggled).2 ⟨f, hf, hsettled⟩⟩

/-- The second wait has moved to the front of the script, in a save that waits for the next poll. -/
def movedScript : JointSession :=
  mappedScript.run [.save .ssbs "enter.ssb" "routine Actor\n\nWait 6", .finish]

/-- The breakpoint is set where the line was, and a poll later the line has none. -/
theorem movedScript_loses : movedScript.Reachable ∧ movedScript.unfinished = [] ∧
    (movedScript.session.toggleAtLine "enter.ssb" .ssbs 3).1 = some true ∧
      ¬ (movedScript.session.toggleAtLine "enter.ssb" .ssbs 3).2.KeepsLine "enter.ssb" .ssbs 3 true := by
  have hrun : movedScript.unfinished = [] ∧
      (movedScript.session.toggleAtLine "enter.ssb" .ssbs 3).1 = some true ∧
      (((movedScript.session.toggleAtLine "enter.ssb" .ssbs 3).2.poll.2.workspace.activeMap?
        "enter.ssb" .ssbs).bind fun map => (map.offsetsAtLine 3).head?) = some 0 ∧
      (movedScript.session.toggleAtLine "enter.ssb" .ssbs 3).2.poll.2.breakpoints.contains
        "enter.ssb" 0 = false := by
    decide +kernel
  obtain ⟨hidle, hanswer, hline, hunset⟩ := hrun
  obtain ⟨map, hmap, hhead⟩ := Option.bind_eq_some_iff.mp hline
  have hreachable : mappedScript.Reachable := reachable_sample _
  refine ⟨hreachable.run _, hidle, hanswer, fun hkeeps => ?_⟩
  have hset := hkeeps map 0 hmap hhead
  rw [hunset] at hset
  cases hset

end JointSession

end SceneDebugger
