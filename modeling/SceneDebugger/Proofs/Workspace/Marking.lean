import SceneDebugger.Proofs.Workspace.Changes

/-!
# SceneDebugger.Proofs.Workspace.Marking — source maps with the hash that they were recorded with

A source map does not tell which bytes it belongs to.  Here it is kept together with the hash that its
file had when the map became known.  The marks of a file are changed in five ways (`Marking`), which
do not look into the maps, so that the stamped marks follow the marks of the file.

* `Marking.apply_map`: a change of stamped marks is the change of the marks, with the stamps left out.
* `ScriptFile.Edited`: what the user does to a file, with the change of its stamped marks.
-/

namespace SceneDebugger

/-- A source map with the hash that its file had when the map became known. -/
abbrev StampedMap := SourceMap × String

/-! ### Changes of marks -/

/-- The pair with another value for each map. -/
def MapPair.map {M N : Type} (g : M → N) (p : MapPair M) : MapPair N :=
  { ssbs := p.ssbs.map g, exps := p.exps.map g }

/-- The marks with another value for each map. -/
def Marks.map {M N : Type} (g : M → N) (m : Marks M) : Marks N :=
  { permanent := m.permanent.map g, temporary := m.temporary.map (MapPair.map g) }

namespace Marks

variable {M : Type} (m : Marks M) (view : View) (map : M)

theorem latest_record : (m.record view map).latest = m.latest.set view map := by
  rcases m with ⟨permanent, _ | waiting⟩ <;> rfl

theorem latest_promote : m.promote.latest = m.latest := by
  rcases m with ⟨permanent, _ | waiting⟩ <;> rfl

/-- There is no map if there is none with another value. -/
theorem eq_empty_of_map {N : Type} {m : Marks M} {g : M → N} (h : m.map g = {}) : m = {} := by
  obtain ⟨⟨ssbs, exps⟩, temporary⟩ := m
  simpa [map, MapPair.map] using h

/-- A promotion puts the maps of the last compilation in use. -/
theorem permanent_promote : m.promote.permanent = m.latest := by
  rcases m with ⟨permanent, _ | waiting⟩ <;> rfl

end Marks

/-- What happens to the marks of a file. -/
inductive Marking (M : Type) where
  | keep
  | record (view : View) (map : M)
  | supersede (view : View) (map : M)
  | promote
  | park

namespace Marking

variable {M N : Type}

/-- The marks after a change. -/
def apply (c : Marking M) (m : Marks M) : Marks M :=
  match c with
  | .keep => m
  | .record view map => m.record view map
  | .supersede view map => m.supersede view map
  | .promote => m.promote
  | .park => m.park

/-- The change with another value for its map. -/
def map (g : M → N) : Marking M → Marking N
  | .keep => .keep
  | .record view m => .record view (g m)
  | .supersede view m => .supersede view (g m)
  | .promote => .promote
  | .park => .park

theorem shown?_map (g : M → N) (p : MapPair M) :
    (p.map g).shown? = p.shown?.map fun shown => (shown.1, g shown.2) := by
  rcases p with ⟨_ | ssbs, _ | exps⟩ <;> rfl

/-- A change does not look into the maps. -/
theorem apply_map (g : M → N) (c : Marking M) (m : Marks M) :
    (c.map g).apply (m.map g) = (c.apply m).map g := by
  rcases m with ⟨permanent, _ | waiting⟩
  all_goals
    cases c with
    | keep => rfl
    | record view map => cases view <;> rfl
    | supersede view map => cases view <;> rfl
    | promote => rfl
    | park => rfl

end Marking

/-! ### What the user does -/

namespace ScriptFile

/-- What the user does to a file, with the change of its stamped marks. -/
inductive Edited (f : ScriptFile) : ScriptFile → Marking StampedMap → Prop where
  | same : Edited f f .keep
  | opened : Edited f (f.inEditor true) .keep
  | closed : Edited f (Workspace.closed f) .keep
  | loadedSsbs (text : SsbsText) : Edited f (f.withSsbs text) (.record .ssbs (text.sourceMap, f.hash))
  | loadedExps (text : ExpsText) : Edited f (f.withExps text) (.record .exps (text.sourceMap, f.hash))
  | saved (o : SaveOutcome) (program : Program) (ssbs : Option SsbsText) (exps : Option ExpsText)
    (held : (f.saved o program ssbs exps).heldMaps = .only o.view o.newMap) :
    Edited f (f.saved o program ssbs exps) (.supersede o.view (o.newMap, o.hash))
  | reloaded (h : f.flags.ramMatches = true) : Edited f { f with marks := f.marks.promote } .promote

variable {f f' : ScriptFile} {c : Marking StampedMap}

/-- The marks of the file change as the stamped marks do. -/
theorem Edited.marks (h : f.Edited f' c) : f'.marks = (c.map Prod.fst).apply f.marks := by
  cases h with
  | same => rfl
  | opened => rfl
  | closed => rfl
  | loadedSsbs text => rfl
  | loadedExps text => rfl
  | saved o program ssbs exps _ => exact recompiled_marks f o.view program o.newMap o.hash
  | reloaded h => rfl

/-- What loading the SSBS text does to the stamped marks. -/
def ssbsMarking (f : ScriptFile) (answer : Except Error SsbsText) : Marking StampedMap :=
  match answer with
  | .ok text => if f.ssbs.isSome then .keep else .record .ssbs (text.sourceMap, f.hash)
  | .error _ => .keep

/-- What loading the EXPS text does to the stamped marks. -/
def expsMarking (f : ScriptFile) (mode : ExpsLoadMode) (answer : Except Error ExpsText) :
    Marking StampedMap :=
  match answer with
  | .ok text =>
    if mode = .strict ∧ f.exps.isSome then .keep else .record .exps (text.sourceMap, f.hash)
  | .error _ => .keep

/-- What a save does to the stamped marks. -/
def saveMarking (answer : Except Error SaveOutcome) : Marking StampedMap :=
  match answer with
  | .ok o => .supersede o.view (o.newMap, o.hash)
  | .error _ => .keep

/-- What a reload does to the stamped marks. -/
def reloadMarking (f : ScriptFile) : Marking StampedMap :=
  if f.flags.ramMatches then .promote else .keep

theorem edited_loadedSsbs (f : ScriptFile) (answer : Except Error SsbsText) :
    f.Edited (f.loadedSsbs answer) (f.ssbsMarking answer) := by
  cases answer with
  | error e => exact .same
  | ok text =>
    simp only [ScriptFile.loadedSsbs, ssbsMarking]
    split_ifs
    · exact .same
    · exact .loadedSsbs text

theorem edited_loadedExps (f : ScriptFile) (mode : ExpsLoadMode) (answer : Except Error ExpsText) :
    f.Edited (f.loadedExps mode answer) (f.expsMarking mode answer) := by
  cases answer with
  | error e => exact .same
  | ok text =>
    simp only [ScriptFile.loadedExps, expsMarking]
    split_ifs
    · exact .same
    · exact .loadedExps text

theorem edited_reloaded (f : ScriptFile) : f.Edited f.reloaded f.reloadMarking := by
  unfold ScriptFile.reloaded reloadMarking
  split_ifs with h
  · exact .reloaded h
  · exact .same

end ScriptFile

end SceneDebugger
