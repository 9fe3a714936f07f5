import SceneDebugger.Proofs.Session.Stamps
import SceneDebugger.Script.Record

/-!
# SceneDebugger.Proofs.Session.Showing — which map a halt is shown with

A halt is shown with the map in use of the halted file.  It is shown right if that is a map of the
bytes that the game loaded into the place of the script.

* `Annotated.runsRight_iff`: in a run this goes wrong by a load, a save state, a reload or the load of a
  text that does not find a map of the bytes (`Annotated.Safe`), and not otherwise.
* `Annotated.staysRight_iff`, `Annotated.runsRight_of_fillsReloaded`: if the game takes only files that can
  be read, then a reload or the load of a text goes wrong only if an earlier load did; and nothing goes
  wrong if maps of a file never wait when a place is filled with it.
-/

namespace SceneDebugger

/-! ### Halts -/

namespace Session

variable {s : Session} {halt : HaltRecord} {hanger : Nat} {script : LoadedScript}

theorem reachedOpcode?_eq_some {file : String} {c : ScriptContext}
    (h : s.reachedOpcode? = some (file, c)) :
    ∃ script, s.ground.scriptIn? c.hanger = some script ∧ script.file = file := by
  unfold reachedOpcode? at h
  split at h
  · cases h
  · split at h
    · cases h
    · split at h
      · obtain ⟨script, hs, heq⟩ := Option.map_eq_some_iff.mp h
        cases heq
        exact ⟨script, hs, rfl⟩
      · cases h

/-- A halt that is raised is one of a script in its place, shown with the map in use of its file. -/
theorem halt_of_onOpcode (hnone : s.controller.halt = none)
    (h : s.onOpcode.controller.halt = some halt) :
    ∃ script, s.ground.scriptIn? halt.context.hanger = some script ∧
      halt.place = .of script.file halt.context.offset
        ((s.workspace.file? script.file).bind ScriptFile.ramMap) := by
  unfold onOpcode at h
  split at h
  · rw [hnone] at h
    cases h
  · next file c hreached =>
    obtain ⟨script, hs, rfl⟩ := reachedOpcode?_eq_some hreached
    dsimp only at h
    split_ifs at h
    · cases h
      exact ⟨script, hs, rfl⟩
    · rw [show ({ s with controller := s.controller.askedForce } : Session).controller.halt = none
        from hnone] at h
      cases h

/-- A machine that is about to run an opcode of the script in a place. -/
def opcodeMachine (hanger : Nat) : Machine :=
  let record : ScriptRecord := { kind := 1, hanger := Int16.ofNat hanger }
  let memory : Memory := ({} : Memory).write 0x02100000 record.bytes
  { memory, registers := (Vector.replicate 16 0).set 6 0x02100000 }

theorem probe_opcodeMachine (hanger : Nat) (h : hanger < hangerCount) :
    ∃ c, ScriptContext.probe (opcodeMachine hanger).memory ((opcodeMachine hanger).register 6) 0 =
      .ok c ∧ c.hanger = hanger := by
  have hread : ∀ k < hangerCount, (ScriptContext.probe (opcodeMachine k).memory
      ((opcodeMachine k).register 6) 0).toOption.map ScriptContext.hanger = some k := by
    decide +kernel
  obtain ⟨c, hc, hhanger⟩ := Option.map_eq_some_iff.mp (hread hanger h)
  refine ⟨c, ?_, hhanger⟩
  cases hprobe : ScriptContext.probe (opcodeMachine hanger).memory
      ((opcodeMachine hanger).register 6) 0 with
  | error e => rw [hprobe] at hc; cases hc
  | ok c' => rw [hprobe] at hc; cases hc; rfl

theorem reachedOpcode?_of_probe {c : ScriptContext} (hboost : s.controller.boost = false)
    (hmay : s.controller.mayHalt s.machine.tick = true)
    (hprobe : ScriptContext.probe s.machine.memory (s.machine.register s.layout.registers.script)
      s.sharedTable = .ok c)
    (hs : s.ground.scriptIn? c.hanger = some script) :
    s.reachedOpcode? = some (script.file, c) := by
  unfold reachedOpcode?
  rw [hboost, hprobe, hmay]
  simp [hs]

/-- Every script in a place can be halted. -/
theorem exists_halt (hs : s.ground.scriptIn? hanger = some script) :
    ∃ other halt, (s.around other).controller.halt = none ∧
      (s.around other).onOpcode.controller.halt = some halt ∧
      halt.context.hanger = hanger := by
  obtain ⟨c, hprobe, rfl⟩ := probe_opcodeMachine hanger (Ground.lt_of_scriptIn? hs)
  let other : Session := { s with
    layout := {}, sharedTable := 0, controller := { forced := true }
    machine := opcodeMachine c.hanger }
  have hreached : (s.around other).reachedOpcode? = some (script.file, c) :=
    reachedOpcode?_of_probe rfl rfl hprobe hs
  refine ⟨other, (s.around other).haltOf script.file c, rfl, ?_, rfl⟩
  unfold onOpcode
  rw [hreached]
  rfl

end Session

namespace Annotated

variable {t : Annotated}

/-! ### Halts that are shown right -/

/-- The map in use of a file is the one whose stamp is kept. -/
theorem Faithful.ramMap (h : t.Faithful) (name : String) :
    (t.session.workspace.file? name).bind ScriptFile.ramMap =
      (t.marks name).permanent.shown?.map fun shown => (shown.1, shown.2.1) := by
  cases hf : t.session.workspace.file? name with
  | none =>
    rw [h.absent name hf]
    rfl
  | some f =>
    rw [Option.bind_some, ScriptFile.ramMap, ← h.marks name f hf]
    exact Marking.shown?_map Prod.fst _

/-- Whatever surrounds the session, the next halt is one of a script in its place; and the map it is
shown with, if it is shown with any, is of the bytes that the game loaded there. -/
def HaltsRight (t : Annotated) : Prop :=
  ∀ other halt, (t.session.around other).controller.halt = none →
    (t.session.around other).onOpcode.controller.halt = some halt →
    ∃ script, t.session.ground.scriptIn? halt.context.hanger = some script ∧
      halt.place = .of script.file halt.context.offset
        ((t.marks script.file).permanent.shown?.map fun shown => (shown.1, shown.2.1)) ∧
      (t.marks script.file).permanent.IsOf script.hash

theorem Right.haltsRight (h : t.Right) : t.HaltsRight := by
  intro other halt hnone hhalt
  obtain ⟨script, hs, hplace⟩ := Session.halt_of_onOpcode hnone hhalt
  refine ⟨script, hs, ?_, h.right script.file script.hash (Ground.mem_hashes hs)⟩
  rw [← h.ramMap script.file]
  exact hplace

/-- Every place can be shown, so that no map in use is wrong if all halts are right. -/
theorem HaltsRight.rightIn (h : t.HaltsRight) (name : String) :
    (t.marks name).RightIn (t.session.ground.hashes name) := by
  rintro hash ⟨hanger, hs⟩
  obtain ⟨other, halt, hnone, hhalt, hhanger⟩ := Session.exists_halt hs
  obtain ⟨script, hscript, -, hisOf⟩ := h other halt hnone hhalt
  rw [hhanger, hs] at hscript
  cases hscript
  exact hisOf

/-! ### Runs -/

/-- Every halt of a run is shown right. -/
def RunsRight (first : Session) (actions : List Action) : Prop :=
  ∀ done, done <+: actions → ((start first).run done).HaltsRight

/-- The halts of a run are shown right exactly if every load of a script or of a text, every reload and
every save state in it finds maps of the bytes that it puts in use (`Safe`); other actions do not
matter. -/
theorem runsRight_iff {first : Session} (hfirst : first.Fresh) (actions : List Action) :
    RunsRight first actions ↔
      ∀ done a, done ++ [a] <+: actions → ((start first).run done).Safe a := by
  constructor
  · intro hright done a hprefix
    have hbefore : ((start first).run done).Right :=
      ⟨faithful_run hfirst done, (hright done ((List.prefix_append done [a]).trans hprefix)).rightIn⟩
    have hhalts := hright (done ++ [a]) hprefix
    rw [run_concat] at hhalts
    exact (hbefore.rightAfter_iff a).mp hhalts.rightIn
  · intro hsafe done hprefix
    refine (run_induction (settles_start hfirst).toRight (fun done a hdone h => ?_) done
      hprefix).haltsRight
    exact h.perform ((h.rightAfter_iff a).mpr (hsafe done a hdone))

/-- A script whose text was loaded before the game loads it is shown right. -/
theorem runsRight_sample :
    RunsRight Session.sample [.loadSsbs "enter.ssb", .loadScript "enter.ssb"] := by
  refine (runsRight_iff Session.fresh_sample _).mpr fun done a hprefix => ?_
  rcases done with _ | ⟨b, _ | ⟨c, rest⟩⟩
  · obtain ⟨rfl, -⟩ := List.cons_prefix_cons.mp hprefix
    -- no place holds the file yet
    intro _ f _ hash hh
    have hempty : Session.sample.ground.hashes "enter.ssb" = ∅ := Ground.holds_eq_false_iff.mp rfl
    exact absurd (hempty.subset hh) (Set.notMem_empty hash)
  · obtain ⟨rfl, hrest⟩ := List.cons_prefix_cons.mp hprefix
    obtain ⟨rfl, -⟩ := List.cons_prefix_cons.mp hrest
    intro _ f hf view map stamp hshown
    have hstamp : (((start Session.sample).run [.loadSsbs "enter.ssb"]).session.workspace.seen?
          "enter.ssb").map (fun f => f.hash) =
        (((start Session.sample).run [.loadSsbs "enter.ssb"]).marks "enter.ssb").permanent.shown?.map
          fun shown => shown.2.2 := by decide +kernel
    rw [hf, hshown] at hstamp
    exact (Option.some.inj hstamp).symm
  · have hlength := hprefix.length_le
    simp at hlength

/-- A script is loaded, saved, and loaded once more into its place. -/
def reloadedInPlace : List Action :=
  [.loadSsbs "enter.ssb", .loadScript "enter.ssb", .saveSsbs "enter.ssb" (Session.waitText "6"),
    .loadScript "enter.ssb"]

/-- The place has the new bytes, but a halt is shown with the map of the old ones. -/
theorem reloadedInPlace_wrong :
    Session.sample.Fresh ∧ ¬ RunsRight Session.sample reloadedInPlace := by
  refine ⟨Session.fresh_sample, fun hright => ?_⟩
  have hhalts := hright reloadedInPlace (List.prefix_refl reloadedInPlace)
  have hwrong : ((((start Session.sample).run reloadedInPlace).marks
      "enter.ssb").permanent.shown?.any fun shown =>
      (((start Session.sample).run reloadedInPlace).session.ground.scriptIn? 0).any fun script =>
        script.file == "enter.ssb" && shown.2.2 != script.hash) = true := by decide +kernel
  obtain ⟨⟨view, map, stamp⟩, hshown, hscript⟩ := (Option.any_eq_true _ _).mp hwrong
  obtain ⟨⟨file, hash⟩, hs, hne⟩ := (Option.any_eq_true _ _).mp hscript
  simp only [Bool.and_eq_true, beq_iff_eq, bne_iff_ne] at hne
  obtain ⟨rfl, hne⟩ := hne
  exact hne (hhalts.rightIn "enter.ssb" hash ⟨0, hs⟩ view map stamp hshown)

/-! ### What goes wrong first -/

/-- Halts are shown right, also if a reload is carried out next. -/
def StaysRight (t : Annotated) : Prop :=
  t.HaltsRight ∧ ∀ name, (t.perform (.reload name)).HaltsRight

theorem Settles.staysRight (h : t.Settles) (hn : t.session.Attentive) : t.StaysRight :=
  ⟨h.toRight.haltsRight, fun name => (h.reload hn name).toRight.haltsRight⟩

theorem StaysRight.settles (h : t.StaysRight) (ht : t.Faithful) (hn : t.session.Attentive) :
    t.Settles := by
  refine ⟨ht, fun name f hf => ⟨h.1.rightIn name, ?_⟩⟩
  have hseen := Workspace.seen?_of_file? hf
  rintro ⟨hash, hh⟩ hram pair hpair
  have hright := (h.2 name).rightIn name hash hh
  rw [marks_reload hseen hram, Marks.promote, hpair, (hn.noticed hseen).eq_hash hram hh] at hright
  exact hright

variable {first : Session} {actions : List Action}

theorem attentive_run (hfirst : first.Fresh)
    (hreads : ∀ done a, done ++ [a] <+: actions → (first.run done).TakesReadable a)
    {done : List Action} (hdone : done <+: actions) : ((start first).run done).session.Attentive := by
  rw [session_run]
  exact Session.attentive_run hfirst hreads hdone

/-- If the game takes only files that can be read, then a reload goes wrong only if a place was filled
before with a file that was not settled then. -/
theorem staysRight_iff (hfirst : first.Fresh)
    (hreads : ∀ done a, done ++ [a] <+: actions → (first.run done).TakesReadable a) :
    (∀ done, done <+: actions → ((start first).run done).StaysRight) ↔
      ∀ done a, done ++ [a] <+: actions → ((start first).run done).FillsSettled a := by
  constructor
  · intro hright done a hdone name f _ hf
    have hsettles := (hright (done ++ [a]) hdone).settles (faithful_run hfirst _)
      (attentive_run hfirst hreads hdone)
    rw [run_concat] at hsettles
    exact hsettles.settled name f hf
  · intro hfilled done hdone
    refine (run_induction (settles_start hfirst) (fun done a hnext h => ?_) done hdone).staysRight
      (attentive_run hfirst hreads hdone)
    exact h.perform (attentive_run hfirst hreads ((List.prefix_append done [a]).trans hnext))
      (hfilled done a hnext)

/-- If the game takes only files that can be read, and no map of a file ever waits when a place is filled
with it, halts are shown right. -/
theorem runsRight_of_fillsReloaded (hfirst : first.Fresh)
    (hreads : ∀ done a, done ++ [a] <+: actions → (first.run done).TakesReadable a)
    (hfills : ∀ done a, done ++ [a] <+: actions → ((start first).run done).FillsReloaded a) :
    RunsRight first actions := by
  intro done hdone
  refine (run_induction (current_start hfirst) (fun done a hnext h => ?_) done
    hdone).toRight.haltsRight
  exact h.perform (attentive_run hfirst hreads ((List.prefix_append done [a]).trans hnext))
    (hfills done a hnext)

end Annotated

end SceneDebugger
