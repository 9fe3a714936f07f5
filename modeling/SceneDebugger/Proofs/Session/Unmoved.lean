import SceneDebugger.Proofs.Session.Carrying
import SceneDebugger.Proofs.Session.Toggling
import SceneDebugger.Proofs.Source.Positions

/-!
# SceneDebugger.Proofs.Session.Unmoved — saves that change no map

A toggle sets a breakpoint at the first opcode of a line, and a save carries it to the first opcode of
the line that it stands for.  These are two lines if the opcode is the first one of a call that was
toggled in the called file: then it stays only if it is also the first one at the line of the call.

* `Session.toggledIn_toggleAtLine`, `Session.toggledIn_toggleAtInlinedLine`: what toggles set.
* `JointSession.Reachable.offsets_resaved`: the breakpoints after a save that changes no map, and a poll.
* `JointSession.resaved_iff`: when they are the ones before.
-/

namespace SceneDebugger

open Workspace

namespace Session

variable {s t : Session} {file : String} {view : View} {m : SourceMap}

/-! ### Toggles -/

/-- Every breakpoint of a file is at the first opcode of a line in a map. -/
def ToggledIn (s : Session) (file : String) (m : SourceMap) : Prop :=
  ∀ o ∈ s.breakpoints.offsets file, m.Leads o

/-- A toggle that does not answer has done nothing. -/
theorem eq_of_toggleFirst {opcodes : SourceMap → List UInt32}
    (h : s.toggleFirst file view opcodes = (none, t)) : t = s := by
  unfold toggleFirst at h
  split_ifs at h
  · split at h
    · exact (congrArg Prod.snd h).symm
    · cases h
  · exact (congrArg Prod.snd h).symm

theorem ToggledIn.toggleFirst (h : s.ToggledIn file m)
    (hmap : s.workspace.activeMap? file view = some m) {opcodes : SourceMap → List UInt32}
    (hleads : ∀ o, (opcodes m).head? = some o → m.Leads o) :
    (s.toggleFirst file view opcodes).2.ToggledIn file m := by
  generalize htoggled : s.toggleFirst file view opcodes = toggled
  obtain ⟨answer, t⟩ := toggled
  cases answer with
  | none =>
    rw [eq_of_toggleFirst htoggled]
    exact h
  | some isSet =>
    obtain ⟨-, map, offset, hactive, hhead, -, hbreakpoints⟩ := toggleFirst_eq_some htoggled
    rw [hmap] at hactive
    cases hactive
    intro o ho
    have hcontains : t.breakpoints.contains file o = true := Std.ExtTreeSet.mem_iff_contains.mp ho
    rw [hbreakpoints, Breakpoints.contains_toggle] at hcontains
    split_ifs at hcontains with htarget
    · rw [htarget]
      exact hleads offset hhead
    · exact h o (Std.ExtTreeSet.mem_iff_contains.mpr hcontains)

theorem toggledIn_toggleAtLine (h : s.ToggledIn file m)
    (hmap : s.workspace.activeMap? file view = some m) (line : UInt32) :
    (s.toggleAtLine file view line).2.ToggledIn file m :=
  h.toggleFirst hmap fun _ hhead => .inl ⟨line, hhead⟩

theorem toggledIn_toggleAtInlinedLine (h : s.ToggledIn file m)
    (hmap : s.workspace.activeMap? file .exps = some m) (path : Path) (line : UInt32) :
    (s.toggleAtInlinedLine file path line).2.ToggledIn file m :=
  h.toggleFirst hmap fun _ hhead => .inr ⟨path, line, hhead⟩

/-! ### Saves -/

/-- A file that the game does not hold is saved from one of its texts, and the map of the text is what
it was in the last compilation. -/
structure Resaves (s : Session) (file : String) (view : View) (m : SourceMap) (t : Session) : Prop where
  before : ∃ f, s.workspace.file? file = some f ∧ f.flags.inGround = false ∧
    f.marks.latest.get view = some m
  saved : ∃ text o, finishing (s.saveText view file text) = (.ok o, t) ∧ o.newMap = m

theorem finishing_eq_ok {saved : Except Error SaveOutcome × Session} {o : SaveOutcome}
    (h : finishing saved = (.ok o, t)) : saved.1 = .ok o ∧ t = saved.2.finishSave o := by
  obtain ⟨answer, after⟩ := saved
  cases answer with
  | ok o' =>
    cases h
    exact ⟨rfl, rfl⟩
  | error e => cases h

end Session

namespace JointSession

open Session

variable {j : JointSession} {s : Session} {file : String} {view : View} {m : SourceMap}

/-- A save that succeeds and is finished is two turns. -/
theorem run_resaved (hidle : j.unfinished = []) {text : String} {o : SaveOutcome}
    (h : (j.session.saveText view file text).1 = .ok o) :
    (j.run [.save view file text, .finish]).session =
        (j.session.saveText view file text).2.finishSave o ∧
      (j.run [.save view file text, .finish]).unfinished = [] := by
  simp only [run_cons, run_nil, perform, saved?, h, hidle, List.nil_append]
  exact ⟨rfl, rfl⟩

/-- After a save that changes no map, a poll puts the breakpoints in use that are carried from the map
to itself. -/
theorem Reachable.offsets_resaved (h : j.Reachable) (hidle : j.unfinished = [])
    (hs : j.session.Resaves file view m s) : s.poll.2.breakpoints.offsets file =
      m.carry m (j.session.breakpoints.latestOffsets file) := by
  obtain ⟨⟨f, hf, hout, hmap⟩, text, o, hfinishing, rfl⟩ := hs
  obtain ⟨hanswer, rfl⟩ := finishing_eq_ok hfinishing
  obtain ⟨hsession, hdone⟩ := run_resaved hidle hanswer
  have hsaved : j.saved? (.save view file text) = some o := by
    rw [saved?, hanswer]
    rfl
  obtain ⟨view', text', f', c, program, ssbs, exps, hsame, hbefore, hoeq, -, hafter⟩ :=
    saved?_eq_some h.tracks.named hsaved
  obtain ⟨rfl, rfl, rfl⟩ : view = view' ∧ file = o.file ∧ text = text' := by simpa using hsame
  rw [seen?_of_file? hf] at hbefore
  cases hbefore
  have hview : o.view = view := by
    rw [hoeq]
    rfl
  have hstart : j.Carries o.file view o.newMap (j.session.breakpoints.latestOffsets o.file) :=
    ⟨⟨f, hf, hmap⟩, dueOffsets_of_idle hidle o.file⟩
  have hcarried := hstart.saved h.tracks.named (t := .save view o.file text) trivial
    (savedOf?_eq_some.mpr ⟨hsaved, rfl⟩) hview
  have hlatest : (j.run [.save view o.file text, .finish]).session.breakpoints.latestOffsets o.file =
      o.newMap.carry o.newMap (j.session.breakpoints.latestOffsets o.file) := by
    rw [← dueOffsets_of_idle hdone, ← hcarried.offsets]
    exact dueOffsets_finish _ o.file
  -- only a file that the game holds can be stale, and a save leaves it where it is
  have hmatches : f.flags.ramMatches = true := by
    rw [← Bool.not_eq_false]
    intro hstale
    have hin := ((h.tracks.tracked o.file f (seen?_of_file? hf)).parked hstale).1
    rw [hout] at hin
    cases hin
  have hram : ((j.session.saveText view o.file text).2.finishSave o).workspace.ramMatches o.file =
      true := by
    have hflags : (f.saved o program ssbs exps).flags.ramMatches =
        (!f.flags.inGround && f.flags.ramMatches) :=
      f.recompiled_ramMatches o.view program o.newMap o.hash
    rw [(beside_finishSave _ o).workspace.ramMatches]
    refine (ramMatches_of_file? hafter).trans (hflags.trans ?_)
    rw [hout, hmatches]
    rfl
  rw [← hsession] at hram ⊢
  rw [(h.run _).orderly.offsets_poll, if_pos hram, hlatest]

/-! ### Files of which no maps wait -/

theorem WaitTogether.latestOffsets_eq (h : j.WaitTogether) {f : ScriptFile}
    (hf : j.session.workspace.file? file = some f) (hsettled : f.marks.temporary = none) :
    j.session.breakpoints.latestOffsets file = j.session.breakpoints.offsets file := by
  rw [Breakpoints.latestOffsets_eq, h.pendingOffsets?_eq_none hf (by rw [hsettled]; rfl)]
  rfl

/-- A map carries the offsets that lead in it to themselves exactly if each one that is the first opcode
of a call also leads the line of the call.  Toggles set no others, and so a save that changes no map,
of a file that the game does not hold, leaves its breakpoints exactly in this case. -/
theorem resaved_iff :
    (∀ (m : SourceMap) (offsets : Std.ExtTreeSet UInt32), (∀ o ∈ offsets, m.Leads o) →
      (m.carry m offsets = offsets ↔ ∀ o ∈ offsets, m.LeadsCall o)) ∧
    (∀ (s : Session) (file : String) (view : View) (m : SourceMap), s.ToggledIn file m →
      s.workspace.activeMap? file view = some m →
      (∀ line, (s.toggleAtLine file view line).2.ToggledIn file m) ∧
      (view = .exps → ∀ path line, (s.toggleAtInlinedLine file path line).2.ToggledIn file m)) ∧
    ∀ (j : JointSession) (file : String) (view : View) (m : SourceMap) (s : Session), j.Reachable →
      j.unfinished = [] → j.session.Resaves file view m s →
      ((∀ o ∈ j.session.breakpoints.latestOffsets file, m.Leads o) →
        (s.poll.2.breakpoints.offsets file = j.session.breakpoints.latestOffsets file ↔
          ∀ o ∈ j.session.breakpoints.latestOffsets file, m.LeadsCall o)) ∧
      ∀ f, j.session.workspace.file? file = some f → f.marks.temporary = none →
        j.session.workspace.activeMap? file view = some m ∧
        j.session.breakpoints.latestOffsets file = j.session.breakpoints.offsets file := by
  refine ⟨fun m offsets => SourceMap.carry_self_iff, fun s file view m htoggled hmap => ⟨?_, ?_⟩, ?_⟩
  · exact toggledIn_toggleAtLine htoggled hmap
  · rintro rfl
    exact toggledIn_toggleAtInlinedLine htoggled hmap
  · intro j file view m s h hidle hs
    refine ⟨fun hleads => ?_, fun f hf hsettled => ⟨?_, h.waitTogether.latestOffsets_eq hf hsettled⟩⟩
    · rw [h.offsets_resaved hidle hs]
      exact SourceMap.carry_self_iff hleads
    · obtain ⟨g, hg, -, hmap⟩ := hs.before
      rw [hf] at hg
      cases hg
      rw [activeMap?, hf, Option.bind_some, ← hmap, Marks.latest, hsettled]
      rfl

/-- A script that waits twice, with a breakpoint that was toggled on the second line. -/
def toggledScript : JointSession :=
  mappedScript.run [.toggle "enter.ssb" .ssbs fun m => m.offsetsAtLine 3]

/-- The same text is saved again. -/
def savedUnchanged : Except Error SaveOutcome × Session :=
  finishing (toggledScript.session.saveText .ssbs "enter.ssb" "routine Actor\nWait 5\nWait 6")

theorem resaved_sample :
    (toggledScript.session.breakpoints.offsets "enter.ssb").toList = [2] ∧
      savedUnchanged.2.poll.2.breakpoints.offsets "enter.ssb" =
        toggledScript.session.breakpoints.offsets "enter.ssb" := by
  have hrun : toggledScript.unfinished = [] ∧
      (toggledScript.session.breakpoints.offsets "enter.ssb").toList = [2] ∧
      ((toggledScript.session.workspace.file? "enter.ssb").bind fun f =>
        (f.marks.latest.get .ssbs).bind fun m => savedUnchanged.1.toOption.map fun o =>
          (f.flags.inGround, f.marks.temporary.isNone, decide (o.newMap = m),
            (m.offsetsAtLine 3).head?, (m.at? 2).bind Entry.ownCallLine?)) =
        some (false, true, true, some 2, none) := by
    decide +kernel
  obtain ⟨hidle, hoffsets, hrun⟩ := hrun
  obtain ⟨f, hf, hrun⟩ := Option.bind_eq_some_iff.mp hrun
  obtain ⟨m, hm, hrun⟩ := Option.bind_eq_some_iff.mp hrun
  obtain ⟨o, ho, hrun⟩ := Option.map_eq_some_iff.mp hrun
  simp only [Prod.mk.injEq, decide_eq_true_eq, Option.isNone_iff_eq_none] at hrun
  obtain ⟨hout, hsettled, hsame, hfirst, hcall⟩ := hrun
  have hanswer : savedUnchanged = (.ok o, savedUnchanged.2) := by
    generalize savedUnchanged = saved at ho
    obtain ⟨answer, s⟩ := saved
    cases answer with
    | ok o' => cases ho; rfl
    | error e => cases ho
  have hresaves : toggledScript.session.Resaves "enter.ssb" .ssbs m savedUnchanged.2 :=
    ⟨⟨f, hf, hout, hm⟩, "routine Actor\nWait 5\nWait 6", o, hanswer, hsame⟩
  have hreachable : toggledScript.Reachable := Reachable.run (reachable_sample _) _
  obtain ⟨hkept, hsettles⟩ := resaved_iff.2.2 _ _ _ _ _ hreachable hidle hresaves
  obtain ⟨-, hlatest⟩ := hsettles f hf hsettled
  rw [hlatest] at hkept
  have honly : ∀ k ∈ toggledScript.session.breakpoints.offsets "enter.ssb", k = 2 := by
    intro k hk
    rw [← Std.ExtTreeSet.mem_toList, hoffsets] at hk
    exact List.mem_singleton.mp hk
  have hleads : ∀ k ∈ toggledScript.session.breakpoints.offsets "enter.ssb", m.Leads k := by
    intro k hk
    rw [honly k hk]
    exact .inl ⟨3, hfirst⟩
  have hcalls : ∀ k ∈ toggledScript.session.breakpoints.offsets "enter.ssb", m.LeadsCall k := by
    intro k hk e line he hline
    rw [honly k hk] at he
    rw [he, Option.bind_some, hline] at hcall
    cases hcall
  exact ⟨hoffsets, (hkept hleads).mpr hcalls⟩

end JointSession

end SceneDebugger
