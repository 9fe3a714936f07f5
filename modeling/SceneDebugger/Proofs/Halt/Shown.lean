import SceneDebugger.Halt.Place
import SceneDebugger.Proofs.Source.Positions

/-!
# SceneDebugger.Proofs.Halt.Shown — a breakpoint halts where it was set

A breakpoint is set by line, through the opcodes of a line, and a halt is shown by opcode.  Both read
what an entry says about an inlined file, each in its own order.  The two agree if the compiler never
gives a call in a file to an opcode that is not written in one.

* `SourceMap.CallsFromFiles`: the compiler gives no such call.
* `HaltPlace.shown_own`: an opcode of a line of the script's own text.
* `HaltPlace.shown_inlined`: an opcode of a line of an inlined file, shown there or at its call.
* `HaltPlace.shown_where_set`: both, for the places under a source map.
-/

namespace SceneDebugger

namespace Entry

variable {e : Entry} {site : CallSite} {line : UInt32} {path : Path}

/-- If the opcode is called in a file, it is written in one. -/
def CallFromFile (e : Entry) : Prop :=
  ∀ inlining call, e.inlining = some inlining → inlining.calledIn = some call →
    call.file.isSome = true → inlining.path.isSome = true

theorem CallFromFile.path? (h : e.CallFromFile) (hsite : e.callSite? = some site)
    (hfile : site.file.isSome = true) : e.path?.isSome = true := by
  obtain ⟨inlining, hinlining, hcall⟩ := Option.bind_eq_some_iff.mp hsite
  rw [Entry.path?, hinlining, Option.bind_some]
  split_ifs at hcall
  exact h inlining site hinlining hcall hfile

theorem ownCallLine?_of_callSite? (h : e.callSite? = some site) :
    e.ownCallLine? = if site.file.isNone then some site.line else none := by
  rw [ownCallLine?, h, Option.bind_some]

/-- An opcode of a line of the script's own text is the first one of a call there, or written there. -/
theorem standsFor_cases (h : e.CallFromFile) (hl : e.standsFor line = true) :
    (∃ column, e.callSite? = some { file := none, line, column }) ∨
      e.callSite? = none ∧ e.path? = none ∧ e.line = line := by
  unfold standsFor at hl
  cases hsite : e.callSite? with
  | none =>
    rw [ownCallLine?, hsite, Option.bind_none] at hl
    simp only [Bool.and_eq_true, beq_iff_eq, Option.isNone_iff_eq_none] at hl
    exact .inr ⟨rfl, hl.2, hl.1⟩
  | some site =>
    rw [ownCallLine?_of_callSite? hsite] at hl
    obtain ⟨file, callLine, column⟩ := site
    cases file with
    | none => exact .inl ⟨column, by rw [← eq_of_beq hl]⟩
    | some file =>
      -- called in a file, so that it is written in one, and not in the script's own text
      have hpath := h.path? hsite rfl
      simp only [Option.isNone_some, Bool.false_eq_true, if_false, Bool.and_eq_true,
        Option.isNone_iff_eq_none] at hl
      rw [hl.2] at hpath
      cases hpath

theorem writtenOn_iff : e.writtenOn path line = true ↔
    e.line = line ∧ ∃ written, e.path? = some written ∧ path.same written = true := by
  rw [writtenOn, Bool.and_eq_true, beq_iff_eq, Option.any_eq_true]

end Entry

/-- No opcode that is called in a file is written in the script's own text. -/
def SourceMap.CallsFromFiles (m : SourceMap) : Prop := ∀ o e, m.at? o = some e → e.CallFromFile

namespace HaltPlace

variable {p : HaltPlace} {e : Entry} {site : CallSite} {line : UInt32} {path : Path}

/-- The place is on a line of a file. -/
def ShownAt (p : HaltPlace) (path : Path) (line : UInt32) : Prop :=
  path.same ⟨p.shown⟩ = true ∧ ∃ column, p.position = some (line, column)

theorem withEntry_of_callSite? (h : e.callSite? = some site) : p.withEntry e =
    { p with
      entry := some e
      onCall := true
      shown := (site.file.map Path.text).getD p.shown
      position := some (site.line, site.column) } := by
  rw [withEntry, h]

theorem withEntry_of_not_callSite? (h : e.callSite? = none) : p.withEntry e =
    { p with
      entry := some e
      shown := (e.path?.map Path.text).getD p.shown
      position := some (e.line, e.column) } := by
  rw [withEntry, h]

theorem shown_own (h : e.CallFromFile) (hl : e.standsFor line = true) :
    (p.withEntry e).shown = p.shown ∧ ∃ column, (p.withEntry e).position = some (line, column) := by
  obtain ⟨column, hsite⟩ | ⟨hsite, hpath, rfl⟩ := e.standsFor_cases h hl
  · rw [withEntry_of_callSite? hsite]
    exact ⟨rfl, column, rfl⟩
  · rw [withEntry_of_not_callSite? hsite, hpath]
    exact ⟨rfl, e.column, rfl⟩

theorem shown_inlined (hp : p.onCall = false) (hl : e.writtenOn path line = true) :
    if (p.withEntry e).onCall then
      ∃ inside, (p.withEntry e).descend? = some inside ∧ inside.onCall = false ∧
        inside.ShownAt path line
    else (p.withEntry e).ShownAt path line := by
  obtain ⟨rfl, written, hpath, hsame⟩ := Entry.writtenOn_iff.mp hl
  cases hsite : e.callSite? with
  | none =>
    rw [withEntry_of_not_callSite? hsite, hpath, if_neg (by simp [hp])]
    exact ⟨hsame, e.column, rfl⟩
  | some site =>
    rw [withEntry_of_callSite? hsite, if_pos rfl]
    refine ⟨_, by rw [descend?, if_pos rfl, Option.bind_some, hpath, Option.map_some], rfl, ?_⟩
    exact ⟨hsame, e.column, rfl⟩

theorem of_of_at? {m : SourceMap} {o : UInt32} (h : m.at? o = some e) (file : String) (view : View) :
    of file o (some (view, m)) =
      ({ file, shown := file, view := some view, offset := o } : HaltPlace).withEntry e := by
  simp only [of, Option.bind_some, h, Option.map_some]

/-- An opcode of a line of the script's own text is shown in the script, on this line; an opcode of a
line of an inlined file is shown there, if not at once, then inside the call that it is shown at. -/
theorem shown_where_set {m : SourceMap} (hm : m.CallsFromFiles) (view : View) (file : String)
    (o line : UInt32) :
    (o ∈ m.offsetsAtLine line → (of file o (some (view, m))).shown = file ∧
      ∃ column, (of file o (some (view, m))).position = some (line, column)) ∧
    ∀ path, o ∈ m.offsetsAtInlinedLine path line →
      if (of file o (some (view, m))).onCall then
        ∃ inside, (of file o (some (view, m))).descend? = some inside ∧ inside.onCall = false ∧
          inside.ShownAt path line
      else (of file o (some (view, m))).ShownAt path line := by
  refine ⟨fun ho => ?_, fun path ho => ?_⟩
  · obtain ⟨e, he, hl⟩ := SourceMap.mem_offsetsWhere.mp ho
    rw [of_of_at? he]
    exact shown_own (hm o e he) hl
  · obtain ⟨e, he, hl⟩ := SourceMap.mem_offsetsWhere.mp ho
    rw [of_of_at? he]
    exact shown_inlined rfl hl

theorem callsFromFiles_callWithinCall : SourceMap.callWithinCall.CallsFromFiles := by
  have hfirst : ∀ path callFile line offset,
      (SourceMap.firstInlined path callFile line offset).CallFromFile := by
    intro path callFile line offset inlining call h _ _
    cases h
    rfl
  intro o e he
  simp only [SourceMap.callWithinCall, SourceMap.at?, SourceMap.insert,
    Std.ExtTreeMap.getElem?_insert] at he
  split_ifs at he
  · cases he
    exact hfirst _ _ _ _
  · cases he
    exact hfirst _ _ _ _
  · cases he
    exact hfirst _ _ _ _
  · simp at he

/-- The call within a call is shown in the calling file first. -/
theorem shown_callWithinCall :
    (of "enter.ssb" 4 (some (.exps, SourceMap.callWithinCall))).shown = "proj/Macros/walk.exps" ∧
      ∃ inside, (of "enter.ssb" 4 (some (.exps, SourceMap.callWithinCall))).descend? = some inside ∧
        inside.onCall = false ∧ inside.ShownAt ⟨"proj/Macros/turn.exps"⟩ 1 := by
  have hshown : (of "enter.ssb" 4 (some (.exps, SourceMap.callWithinCall))).shown =
      "proj/Macros/walk.exps" := by decide +kernel
  have hcall : (of "enter.ssb" 4 (some (.exps, SourceMap.callWithinCall))).onCall = true := by
    decide +kernel
  have hline : 4 ∈ SourceMap.callWithinCall.offsetsAtInlinedLine ⟨"proj/Macros/turn.exps"⟩ 1 := by
    decide +kernel
  have hinlined := (shown_where_set callsFromFiles_callWithinCall .exps "enter.ssb" 4 1).2 _ hline
  rw [if_pos hcall] at hinlined
  exact ⟨hshown, hinlined⟩

end HaltPlace

end SceneDebugger
