import SceneDebugger.Proofs.Session.Missing

/-!
# SceneDebugger.Proofs.Session.Stamps — which bytes the maps of a file are of

The stamp of a map tells which bytes the map is of, so that it can be compared with the hashes that
the places of the game have recorded for the file.

* `Annotated`: a session with the stamped marks of its files, which follow every action.
* `Marks.RightIn`: the map in use is of the bytes in each place.  Of the steps of a file only those
  that fill a place, reloads and loads of a text can end that; `Annotated.Safe` says when they do not.
* `ScriptFile.Settled`: also the map that waits is of the bytes that it will be used for.  As long as the
  flags of files miss nothing, that can be ended by filling a place alone.
-/

namespace SceneDebugger

/-! ### Maps of given bytes -/

/-- The map that is shown, if there is one, is of the bytes with a hash. -/
def MapPair.IsOf (p : MapPair StampedMap) (hash : String) : Prop :=
  ∀ view map stamp, p.shown? = some (view, map, stamp) → stamp = hash

namespace MapPair

variable {p : MapPair StampedMap} {hash : String}

theorem isOf_empty (hash : String) : ({} : MapPair StampedMap).IsOf hash := by
  intro view map stamp h
  cases h

theorem IsOf.set (h : p.IsOf hash) (view : View) (map : SourceMap) :
    (p.set view (map, hash)).IsOf hash := by
  intro shown m stamp hs
  rcases p with ⟨ssbs, _ | exps⟩
  · cases view <;> cases hs <;> rfl
  · cases view with
    | ssbs => exact h shown m stamp hs
    | exps => cases hs; rfl

theorem isOf_only (view : View) (map : SourceMap) (hash : String) :
    (MapPair.only view (map, hash)).IsOf hash :=
  (isOf_empty hash).set view map

end MapPair

/-- The map in use is of the bytes in each place. -/
def Marks.RightIn (m : Marks StampedMap) (hashes : Set String) : Prop :=
  ∀ hash ∈ hashes, m.permanent.IsOf hash

namespace Marks

variable {m : Marks StampedMap} {hashes : Set String}

theorem rightIn_empty (hashes : Set String) : ({} : Marks StampedMap).RightIn hashes :=
  fun hash _ => MapPair.isOf_empty hash

/-- A map that becomes known is shown, or what is shown stays. -/
theorem shown?_record (m : Marks StampedMap) (view : View) (stamped : StampedMap) :
    (m.record view stamped).permanent.shown? = m.permanent.shown? ∨
      (m.record view stamped).permanent.shown? = some (view, stamped) := by
  rcases m with ⟨⟨ssbs, _ | exps⟩, _ | pair⟩ <;> cases view <;> first | exact .inl rfl | exact .inr rfl

/-- A map that becomes known leaves the one in use right exactly if it is not shown, or is of the bytes in
each place. -/
theorem rightIn_record_iff (h : m.RightIn hashes) (view : View) (map : SourceMap) (stamp : String) :
    (m.record view (map, stamp)).RightIn hashes ↔
      ((m.record view (map, stamp)).permanent.shown? ≠ m.permanent.shown? →
        ∀ hash ∈ hashes, hash = stamp) := by
  constructor
  · intro hafter hchanged hash hh
    have hshown := (m.shown?_record view (map, stamp)).resolve_left hchanged
    exact (hafter hash hh view map stamp hshown).symm
  · intro hsame hash hh shown other stamp' hs
    by_cases hkept : (m.record view (map, stamp)).permanent.shown? = m.permanent.shown?
    · exact h hash hh shown other stamp' (hkept.symm.trans hs)
    · rw [(m.shown?_record view (map, stamp)).resolve_left hkept] at hs
      cases hs
      exact (hsame hkept hash hh).symm

end Marks

/-! ### A file between two fills of its places -/

/-- The maps of a file are of the bytes that the game has or is about to have. -/
structure ScriptFile.Settled (f : ScriptFile) (hashes : Set String) (m : Marks StampedMap) :
    Prop where
  right : m.RightIn hashes
  /-- The map that the next reload puts in use is of the bytes of the ROM. -/
  waiting : hashes.Nonempty → f.flags.ramMatches = true →
    ∀ pair, m.temporary = some pair → pair.IsOf f.hash

namespace ScriptFile

variable {f f' : ScriptFile} {hashes hashes' : Set String} {m : Marks StampedMap}
  {c : Marking StampedMap}

theorem settled_of_empty (f : ScriptFile) (m : Marks StampedMap) : f.Settled ∅ m :=
  ⟨fun _ hh => absurd hh (Set.notMem_empty _), fun hsome => absurd rfl hsome.ne_empty⟩

theorem settled_of_no_marks (f : ScriptFile) (hashes : Set String) : f.Settled hashes {} :=
  ⟨Marks.rightIn_empty hashes, fun _ _ _ hpair => by cases hpair⟩

/-- The places of a file that is not stale have the bytes of the ROM. -/
theorem Noticed.eq_hash (h : f.Noticed hashes) (hram : f.flags.ramMatches = true) {hash : String}
    (hh : hash ∈ hashes) : hash = f.hash := by
  by_contra hne
  have hstale := h.changed hash hh hne
  rw [hram] at hstale
  cases hstale

/-- A file of which no map waits is not stale. -/
theorem Tracked.matches_of_none (h : f.Tracked hashes) (hm : m.map Prod.fst = f.marks)
    (hnone : m.temporary = none) : f.flags.ramMatches = true := by
  by_contra hstale
  have hsome := (h.parked (Bool.not_eq_true _ ▸ hstale)).2
  rw [← hm, Marks.map, hnone] at hsome
  cases hsome

/-! ### Places that are emptied -/

theorem Released.right (hr : f.Released hashes f' hashes') (h : m.RightIn hashes) :
    m.RightIn hashes' := by
  cases hr with
  | held hsub _ => exact fun hash hh => h hash (hsub hh)
  | left => exact (settled_of_empty f m).right

theorem Settled.released (h : f.Settled hashes m) (hr : f.Released hashes f' hashes') :
    f'.Settled hashes' m := by
  refine ⟨hr.right h.right, ?_⟩
  cases hr with
  | held hsub hsome => exact fun hn => h.waiting (hn.mono hsub)
  | left => exact (settled_of_empty _ m).waiting

/-! ### What the user does -/

/-- Only a reload and the load of a text put a map in use. -/
theorem Edited.right (he : f.Edited f' c) (h : m.RightIn hashes)
    (hother : c = .promote ∨ (∃ view stamped, c = .record view stamped) →
      (c.apply m).RightIn hashes) : (c.apply m).RightIn hashes := by
  cases he with
  | same => exact h
  | opened => exact h
  | closed => exact h
  | loadedSsbs text => exact hother (.inr ⟨_, _, rfl⟩)
  | loadedExps text => exact hother (.inr ⟨_, _, rfl⟩)
  | saved o program ssbs exps _ => exact h
  | reloaded _ => exact hother (.inl rfl)

/-- A map that becomes known is of the bytes of the ROM.  It comes in use at once only if no map waits,
and then the places have the bytes of the ROM. -/
theorem Noticed.right_record (hn : f.Noticed hashes) (ht : f.Tracked hashes)
    (hm : m.map Prod.fst = f.marks) (h : m.RightIn hashes) (view : View) (map : SourceMap) :
    (m.record view (map, f.hash)).RightIn hashes := by
  refine (Marks.rightIn_record_iff h view map f.hash).mpr fun hshown hash hh => ?_
  rcases m with ⟨permanent, _ | pair⟩
  · exact hn.eq_hash (ht.matches_of_none hm rfl) hh
  · exact absurd rfl hshown

theorem Settled.record (h : f.Settled hashes m) (hn : f.Noticed hashes) (ht : f.Tracked hashes)
    (hm : m.map Prod.fst = f.marks) (hhash : f'.hash = f.hash)
    (hram : f'.flags.ramMatches = f.flags.ramMatches) (view : View) (map : SourceMap) :
    f'.Settled hashes (m.record view (map, f.hash)) := by
  refine ⟨hn.right_record ht hm h.right view map, fun hsome hmatches new hnew => ?_⟩
  rcases m with ⟨permanent, _ | pair⟩
  · cases hnew
  · cases hnew
    rw [hram] at hmatches
    rw [hhash]
    exact (h.waiting hsome hmatches pair rfl).set view map

/-- A save leaves the map in use alone.  The new map is not put in use before the file is held again,
or is stale no more. -/
theorem Settled.saved (h : f.Settled hashes m) (hn : f.Noticed hashes) (o : SaveOutcome)
    (program : Program) (ssbs : Option SsbsText) (exps : Option ExpsText) (stamped : StampedMap) :
    (f.saved o program ssbs exps).Settled hashes (m.supersede o.view stamped) := by
  refine ⟨h.right, fun hsome hmatches => ?_⟩
  have hin : f.flags.inGround = true := hn.held hsome
  have hstale : (f.saved o program ssbs exps).flags.ramMatches = false := by
    simp [ScriptFile.saved, hin]
  rw [hstale] at hmatches
  cases hmatches

/-- A reload puts the map that waits in use. -/
theorem Settled.promote (h : f.Settled hashes m) (hn : f.Noticed hashes)
    (hram : f.flags.ramMatches = true) :
    ({ f with marks := f.marks.promote } : ScriptFile).Settled hashes m.promote := by
  rcases m with ⟨permanent, _ | pair⟩
  · exact ⟨h.right, fun _ _ _ hp => by cases hp⟩
  · refine ⟨fun hash hh => ?_, fun _ _ _ hp => by cases hp⟩
    rw [hn.eq_hash hram hh]
    exact h.waiting ⟨hash, hh⟩ hram pair rfl

theorem Settled.edited (h : f.Settled hashes m) (hn : f.Noticed hashes) (ht : f.Tracked hashes)
    (hm : m.map Prod.fst = f.marks) (he : f.Edited f' c) : f'.Settled hashes (c.apply m) := by
  cases he with
  | same => exact h
  | opened => exact ⟨h.right, h.waiting⟩
  | closed => exact ⟨h.right, h.waiting⟩
  | loadedSsbs text => refine h.record hn ht hm ?_ ?_ .ssbs text.sourceMap <;> rfl
  | loadedExps text => refine h.record hn ht hm ?_ ?_ .exps text.sourceMap <;> rfl
  | saved o program ssbs exps _ => exact h.saved hn o program ssbs exps (o.newMap, o.hash)
  | reloaded hram => exact h.promote hn hram

/-! ### Steps -/

/-- Only a step that fills a place, a reload and the load of a text can bring a map of other bytes in
use. -/
theorem Stepped.right {fills : Prop} (hs : f.Stepped hashes fills f' hashes' c) (h : m.RightIn hashes)
    (hother : fills ∨ c = .promote ∨ (∃ view stamped, c = .record view stamped) →
      (c.apply m).RightIn hashes') : (c.apply m).RightIn hashes' := by
  cases hs with
  | edited _ he => exact he.right h fun hc => hother (.inr hc)
  | released _ hr => exact hr.right h
  | filled hfills _ => exact hother (.inl hfills)

/-- Only a step that fills a place can unsettle a file. -/
theorem Settled.stepped {fills : Prop} (h : f.Settled hashes m) (hn : f.Noticed hashes)
    (ht : f.Tracked hashes) (hm : m.map Prod.fst = f.marks)
    (hs : f.Stepped hashes fills f' hashes' c)
    (hfilled : fills → f'.Settled hashes' (c.apply m)) : f'.Settled hashes' (c.apply m) := by
  cases hs with
  | edited _ he => exact h.edited hn ht hm he
  | released _ hr => exact h.released hr
  | filled hfills _ => exact hfilled hfills

/-- The map of the last compilation stays one of the bytes of the ROM. -/
theorem Edited.latest (he : f.Edited f' c) (hlatest : m.latest.IsOf f.hash) :
    (c.apply m).latest.IsOf f'.hash := by
  rcases m with ⟨permanent, waiting⟩
  cases he with
  | same => exact hlatest
  | opened => exact hlatest
  | closed => exact hlatest
  | loadedSsbs text => cases waiting <;> exact MapPair.IsOf.set hlatest .ssbs text.sourceMap
  | loadedExps text => cases waiting <;> exact MapPair.IsOf.set hlatest .exps text.sourceMap
  | saved o program ssbs exps => exact MapPair.isOf_only o.view o.newMap o.hash
  | reloaded hram => cases waiting <;> exact hlatest

theorem Filled.latest (hf : f.Filled hashes f' hashes' c) (hlatest : m.latest.IsOf f.hash)
    (hnone : m.temporary = none) : (c.apply m).latest.IsOf f'.hash := by
  have hpermanent : m.latest = m.permanent := by rw [Marks.latest, hnone, Option.getD_none]
  cases hf with
  | entered _ _ =>
    rw [entered_hash]
    exact hlatest
  | restored _ _ =>
    rw [show f.entered.restored.hash = f.hash from entered_hash f]
    split_ifs
    · show m.permanent.IsOf f.hash
      rw [← hpermanent]
      exact hlatest
    · exact hlatest

theorem Stepped.latest {fills : Prop} (hs : f.Stepped hashes fills f' hashes' c)
    (hlatest : m.latest.IsOf f.hash) (hnone : fills → m.temporary = none) :
    (c.apply m).latest.IsOf f'.hash := by
  cases hs with
  | edited _ he => exact he.latest hlatest
  | released _ hr => cases hr <;> exact hlatest
  | filled hfills hf => exact hf.latest hlatest (hnone hfills)

/-- A file of which no map waits is settled when a place was filled with it. -/
theorem Stepped.settled {fills : Prop} (hs : f.Stepped hashes fills f' hashes' c)
    (hn : f.Noticed hashes) (ht : f.Tracked hashes) (hm : m.map Prod.fst = f.marks)
    (hlatest : m.latest.IsOf f.hash) (hnone : m.temporary = none) (hfills : fills) : f'.Settled hashes' (c.apply m) := by
  have hpermanent : m.permanent.IsOf f.hash := by
    rw [Marks.latest, hnone, Option.getD_none] at hlatest
    exact hlatest
  have hram : f.flags.ramMatches = true := ht.matches_of_none hm hnone
  cases hs with
  | edited hno _ => exact absurd hfills hno
  | released hno _ => exact absurd hfills hno
  | filled _ hf =>
    cases hf with
    | entered hnew _ =>
      refine ⟨fun hash hh => ?_, fun _ _ pair hpair => ?_⟩
      · obtain hold | rfl := hnew hash hh
        · rw [hn.eq_hash hram hold]
          exact hpermanent
        · exact hpermanent
      · rw [show (Marking.keep.apply m).temporary = m.temporary from rfl, hnone] at hpair
        cases hpair
    | restored _ _ =>
      -- no map is in use then, and the file is stale
      rw [if_pos (by simp [entered_ramMatches, hram])]
      exact ⟨fun hash _ => MapPair.isOf_empty hash, fun _ hmatches => by cases hmatches⟩

end ScriptFile

/-- The action loads a text of the file. -/
def Action.LoadsText (a : Action) (name : String) : Prop :=
  a = .loadSsbs name ∨ ∃ mode, a = .loadExps name mode

namespace Session

variable {s : Session} {a : Action} {name : String} {f : ScriptFile}

/-- The action puts the file into places, reloads it or loads a text of it. -/
def Disturbs (s : Session) (a : Action) (name : String) : Prop :=
  match a with
  | .reload file | .loadSsbs file | .loadExps file _ => name = file
  | _ => s.fills a name

theorem disturbs_of_fills (h : s.fills a name) : s.Disturbs a name := by
  cases a with
  | reload _ | loadSsbs _ | loadExps _ _ => cases h
  | _ => exact h

/-- Only a reload puts maps that wait in use, and only the load of a text makes a map known of the bytes
that a file had. -/
theorem disturbs_of_marking (h : s.marking a name f = .promote ∨
    ∃ view stamped, s.marking a name f = .record view stamped) : s.Disturbs a name := by
  cases a with
  | reload file | loadSsbs file | loadExps file _ =>
    by_contra hother
    have hne : ¬ name = file := hother
    rw [marking, if_neg hne] at h
    obtain h | ⟨_, _, h⟩ := h <;> cases h
  | saveSsbs _ _ | saveExps _ _ | restore _ =>
    simp only [marking, ScriptFile.saveMarking, ScriptFile.restoreMarking] at h
    obtain h | ⟨_, _, h⟩ := h
    all_goals
      repeat' split at h
      all_goals cases h
  | _ => obtain h | ⟨_, _, h⟩ := h <;> cases h

theorem eq_of_loadsText {k : String} (ha : a.LoadsText name) (h : s.Disturbs a k) : k = name := by
  obtain rfl | ⟨mode, rfl⟩ := ha <;> exact h

end Session

/-- The load of a text makes a map known of the bytes in the ROM, or changes no map. -/
theorem Action.LoadsText.marking {s : Session} {a : Action} {name : String} (h : a.LoadsText name)
    (f : ScriptFile) : s.marking a name f = .keep ∨
      ∃ view map, s.marking a name f = .record view (map, f.hash) := by
  obtain rfl | ⟨mode, rfl⟩ := h
  all_goals
    simp only [Session.marking, if_pos, ScriptFile.ssbsMarking, ScriptFile.expsMarking]
    split
    · split_ifs
      · exact .inl rfl
      · exact .inr ⟨_, _, rfl⟩
    · exact .inl rfl

/-! ### Runs with stamped marks -/

/-- A session with the stamped marks of its files. -/
structure Annotated where
  session : Session
  marks : String → Marks StampedMap

namespace Annotated

variable {t : Annotated}

/-- A session in which no map is known. -/
def start (s : Session) : Annotated := { session := s, marks := fun _ => {} }

/-- The annotated session after an action. -/
def perform (t : Annotated) (a : Action) : Annotated where
  session := t.session.perform a
  marks name :=
    match t.session.workspace.seen? name with
    | some f => (t.session.marking a name f).apply (t.marks name)
    | none => t.marks name

/-- The annotated session after actions, one after the other. -/
def run (t : Annotated) (actions : List Action) : Annotated := actions.foldl perform t

theorem run_concat (t : Annotated) (actions : List Action) (a : Action) :
    t.run (actions ++ [a]) = (t.run actions).perform a := List.foldl_append

/-- What every action of a run keeps holds at every moment of the run. -/
theorem run_induction {P : Annotated → Prop} {actions : List Action} (h : P t)
    (hstep : ∀ done a, done ++ [a] <+: actions → P (t.run done) → P ((t.run done).perform a)) :
    ∀ done, done <+: actions → P (t.run done) := by
  intro done
  induction done using List.reverseRecOn with
  | nil => exact fun _ => h
  | append_singleton done a ih =>
    intro hprefix
    rw [run_concat]
    exact hstep done a hprefix (ih ((List.prefix_append done [a]).trans hprefix))

/-- The annotations do not take part in a run. -/
@[simp] theorem session_run (t : Annotated) (actions : List Action) :
    (t.run actions).session = t.session.run actions := by
  induction actions generalizing t with
  | nil => rfl
  | cons a actions ih => exact ih (t.perform a)

/-- The stamped marks are those of the files in use, and the files are tracked. -/
structure Faithful (t : Annotated) : Prop where
  tracks : t.session.Tracks
  marks : ∀ name f, t.session.workspace.file? name = some f → (t.marks name).map Prod.fst = f.marks
  absent : ∀ name, t.session.workspace.file? name = none → t.marks name = {}

theorem faithful_start {s : Session} (h : s.Fresh) : (start s).Faithful := by
  refine ⟨h.tracks, fun name f hf => ?_, fun _ _ => rfl⟩
  have hnone : s.workspace.file? name = some f := hf
  rw [h.absent name] at hnone
  cases hnone

/-- A file that is not in use has no marks. -/
theorem Faithful.marks_seen (h : t.Faithful) {name : String} {f : ScriptFile}
    (hf : t.session.workspace.seen? name = some f) : (t.marks name).map Prod.fst = f.marks := by
  obtain hused | ⟨habsent, -⟩ := Workspace.seen?_cases hf
  · exact h.marks name f hused
  · rw [h.absent name habsent, Workspace.marks_of_absent habsent hf]
    rfl

theorem marks_perform {name : String} {f : ScriptFile}
    (hf : t.session.workspace.seen? name = some f) (a : Action) :
    (t.perform a).marks name = (t.session.marking a name f).apply (t.marks name) := by
  simp only [perform, hf]

/-- What an action does to a file in use and to its stamped marks. -/
theorem Faithful.stepped (h : t.Faithful) (a : Action) {name : String} {f' : ScriptFile}
    (hf' : (t.perform a).session.workspace.file? name = some f') :
    ∃ f, t.session.workspace.seen? name = some f ∧
      (t.perform a).marks name = (t.session.marking a name f).apply (t.marks name) ∧
      f.Stepped (t.session.ground.hashes name) (t.session.fills a name) f'
        ((t.perform a).session.ground.hashes name) (t.session.marking a name f) := by
  obtain ⟨f, hf, hstep⟩ := (Session.steps_perform h.tracks.named a).stepped name f' hf'
  exact ⟨f, hf, marks_perform hf a, hstep⟩

theorem Faithful.perform (h : t.Faithful) (a : Action) : (t.perform a).Faithful := by
  refine ⟨Session.tracks_perform t.session a h.tracks, fun name f' hf' => ?_, fun name hn => ?_⟩
  · obtain ⟨f, hf, hmarks, hstep⟩ := h.stepped a hf'
    rw [hmarks, ← Marking.apply_map, h.marks_seen hf, hstep.marks]
  · have hsteps := Session.steps_perform h.tracks.named a
    have hempty := h.absent name (Workspace.file?_eq_none_of_used (hsteps.used name) hn)
    cases hf : t.session.workspace.seen? name with
    | none =>
      simp only [Annotated.perform, hf]
      exact hempty
    | some f =>
      rw [marks_perform hf, hempty]
      exact hsteps.absent name f hn hf

theorem faithful_run {first : Session} (hfirst : first.Fresh) (actions : List Action) :
    ((start first).run actions).Faithful :=
  run_induction (faithful_start hfirst) (fun _ a _ h => h.perform a) actions (List.prefix_refl actions)

/-! ### Maps that are right -/

/-- The map in use of every file is of the bytes in each of its places. -/
structure Right (t : Annotated) : Prop extends t.Faithful where
  right : ∀ name, (t.marks name).RightIn (t.session.ground.hashes name)

/-- The maps in use are of the bytes in the places after the action. -/
def RightAfter (t : Annotated) (a : Action) : Prop :=
  ∀ name, ((t.perform a).marks name).RightIn ((t.perform a).session.ground.hashes name)

theorem Right.perform (h : t.Right) {a : Action} (ha : t.RightAfter a) : (t.perform a).Right :=
  ⟨h.toFaithful.perform a, ha⟩

/-- Only a file that an action puts into places, reloads or loads a text of can get a map of other
bytes. -/
theorem Right.rightAfter_of (h : t.Right) {a : Action}
    (ha : ∀ name f, t.session.workspace.seen? name = some f → t.session.Disturbs a name →
      ((t.perform a).marks name).RightIn ((t.perform a).session.ground.hashes name)) :
    t.RightAfter a := by
  intro name
  cases hf' : (t.perform a).session.workspace.file? name with
  | none =>
    rw [(h.toFaithful.perform a).absent name hf']
    exact Marks.rightIn_empty _
  | some f' =>
    obtain ⟨f, hf, hmarks, hstep⟩ := h.toFaithful.stepped a hf'
    have hother := ha name f hf
    rw [hmarks] at hother ⊢
    exact hstep.right (h.right name) fun hor =>
      hother (hor.elim Session.disturbs_of_fills Session.disturbs_of_marking)

/-! ### What has to hold before an action -/

/-- The action finds the maps such that it leaves them right: the game loads a file of which the map in
use is of the bytes in the ROM; a reload finds a map waiting of the bytes in each place of the file; a
save state has the bytes that the map in use is of, unless it makes the file stale, after which no map is
in use; and a text that is loaded with a map that is put in use is one of a file that has the bytes of the
ROM in each of its places. -/
def Safe (t : Annotated) (a : Action) : Prop :=
  match a with
  | .loadScript file => t.session.ground.pending.getD 0 < hangerCount →
    ∀ f, t.session.workspace.seen? file = some f → (t.marks file).permanent.IsOf f.hash
  | .reload name => ∀ f, t.session.workspace.seen? name = some f → f.flags.ramMatches = true →
    ∀ pair, (t.marks name).temporary = some pair →
      ∀ hash ∈ t.session.ground.hashes name, pair.IsOf hash
  | .restore snapshot => ∀ name f, t.session.workspace.seen? name = some f →
    ¬ (f.differsIn name (Ground.ofSnapshot snapshot).loaded = true ∧
      f.entered.flags.ramMatches = true) →
    (t.marks name).RightIn ((Ground.ofSnapshot snapshot).hashes name)
  | .loadSsbs name | .loadExps name _ =>
    ((t.perform a).marks name).permanent.shown? ≠ (t.marks name).permanent.shown? →
    ∀ f, t.session.workspace.seen? name = some f →
      ∀ hash ∈ t.session.ground.hashes name, hash = f.hash
  | _ => True

theorem marks_reload {name : String} {f : ScriptFile}
    (hf : t.session.workspace.seen? name = some f) (hram : f.flags.ramMatches = true) :
    (t.perform (.reload name)).marks name = (t.marks name).promote := by
  rw [marks_perform hf, Session.marking, if_pos rfl, ScriptFile.reloadMarking, if_pos hram]
  rfl

theorem marks_loadScript (file name : String) :
    (t.perform (.loadScript file)).marks name = t.marks name := by
  simp only [Annotated.perform, Session.marking, Marking.apply]
  split <;> rfl

theorem Right.rightAfter_loadScript (h : t.Right) (file : String) :
    t.RightAfter (.loadScript file) ↔ t.Safe (.loadScript file) := by
  have hhashes : t.session.ground.pending.getD 0 < hangerCount → ∀ hash,
      hash ∈ (t.perform (.loadScript file)).session.ground.hashes file ↔
        Ground.recordedHash t.session.workspace file = hash ∨ ∃ hanger ≠ t.session.ground.pending.getD 0,
          t.session.ground.scriptIn? hanger = some ⟨file, hash⟩ :=
    fun hslot _ => Ground.mem_hashes_loadScript t.session.ground h.tracks.named hslot
  have hrecorded : ∀ f, t.session.workspace.seen? file = some f →
      Ground.recordedHash t.session.workspace file = f.hash := by
    intro f hf
    rw [Ground.recordedHash, hf]
    rfl
  constructor
  · intro hafter hslot f hf
    have hright := hafter file f.hash
    rw [marks_loadScript, hhashes hslot, hrecorded f hf] at hright
    exact hright (.inl rfl)
  · intro hsafe
    refine h.rightAfter_of fun name f hf hdisturbs hash hh => ?_
    obtain ⟨rfl, hslot⟩ := hdisturbs
    rw [marks_loadScript]
    obtain hnew | ⟨hanger, -, hs⟩ := (hhashes hslot hash).mp hh
    · rw [← hnew, hrecorded f hf]
      exact hsafe hslot f hf
    · exact h.right name hash ⟨hanger, hs⟩

theorem Right.rightAfter_reload (h : t.Right) (name : String) :
    t.RightAfter (.reload name) ↔ t.Safe (.reload name) := by
  constructor
  · intro hafter f hf hram pair hpair hash hh
    have hright := hafter name hash hh
    rw [marks_reload hf hram, Marks.promote, hpair] at hright
    exact hright
  · intro hsafe
    refine h.rightAfter_of fun k f hf hdisturbs hash hh => ?_
    obtain rfl := hdisturbs
    have hold : (t.marks k).permanent.IsOf hash := h.right k hash hh
    rw [marks_perform hf, Session.marking, if_pos rfl, ScriptFile.reloadMarking]
    split_ifs with hram
    · rw [Marking.apply, Marks.promote]
      cases hpair : (t.marks k).temporary with
      | none => exact hold
      | some pair => exact hsafe f hf hram pair hpair hash hh
    · exact hold

theorem Right.rightAfter_restore (h : t.Right) (snapshot : GroundSnapshot) :
    t.RightAfter (.restore snapshot) ↔ t.Safe (.restore snapshot) := by
  constructor
  · intro hafter name f hf hnot hash hh
    have hright := hafter name hash hh
    rw [marks_perform hf, Session.marking, ScriptFile.restoreMarking, if_neg hnot] at hright
    exact hright
  · intro hsafe
    refine h.rightAfter_of fun name f hf _ hash hh => ?_
    rw [marks_perform hf, Session.marking, ScriptFile.restoreMarking]
    split_ifs with hpark
    · exact MapPair.isOf_empty hash
    · exact hsafe name f hf hpark hash hh

/-- The load of a text leaves the places alone. -/
theorem hashes_perform_of_loadsText {a : Action} {name : String} (ha : a.LoadsText name) (k : String) :
    (t.perform a).session.ground.hashes k = t.session.ground.hashes k := by
  obtain rfl | ⟨mode, rfl⟩ := ha <;> rfl

/-- The load of a text leaves the maps right exactly if the map that it puts in use, if it puts one, is of
the bytes in each place. -/
theorem Right.rightAfter_loadsText (h : t.Right) {a : Action} {name : String} (ha : a.LoadsText name) :
    t.RightAfter a ↔
      (((t.perform a).marks name).permanent.shown? ≠ (t.marks name).permanent.shown? →
        ∀ f, t.session.workspace.seen? name = some f →
          ∀ hash ∈ t.session.ground.hashes name, hash = f.hash) := by
  have hself : ∀ f, t.session.workspace.seen? name = some f →
      (((t.perform a).marks name).RightIn (t.session.ground.hashes name) ↔
        (((t.perform a).marks name).permanent.shown? ≠ (t.marks name).permanent.shown? →
          ∀ hash ∈ t.session.ground.hashes name, hash = f.hash)) := by
    intro f hf
    rw [marks_perform hf]
    obtain hkeep | ⟨view, map, hrecord⟩ := ha.marking f
    · rw [hkeep]
      exact iff_of_true (h.right name) fun hchanged => absurd rfl hchanged
    · rw [hrecord]
      exact Marks.rightIn_record_iff (h.right name) view map f.hash
  constructor
  · intro hafter hchanged f hf
    have hright := hafter name
    rw [hashes_perform_of_loadsText ha] at hright
    exact (hself f hf).mp hright hchanged
  · intro hsafe
    refine h.rightAfter_of fun k f hf hdisturbs => ?_
    cases Session.eq_of_loadsText ha hdisturbs
    rw [hashes_perform_of_loadsText ha]
    exact (hself f hf).mpr fun hchanged => hsafe hchanged f hf

/-- Where the maps are right, they are so after an action exactly if it is safe. -/
theorem Right.rightAfter_iff (h : t.Right) (a : Action) : t.RightAfter a ↔ t.Safe a := by
  cases a with
  | loadScript file => exact h.rightAfter_loadScript file
  | reload name => exact h.rightAfter_reload name
  | restore snapshot => exact h.rightAfter_restore snapshot
  | loadSsbs name => exact h.rightAfter_loadsText (.inl rfl)
  | loadExps name mode => exact h.rightAfter_loadsText (.inr ⟨mode, rfl⟩)
  | _ => exact iff_of_true (h.rightAfter_of fun name f _ hdisturbs => hdisturbs.elim) trivial

/-! ### Files that are settled -/

/-- Every file is settled. -/
structure Settles (t : Annotated) : Prop extends t.Faithful where
  settled : ∀ name f, t.session.workspace.file? name = some f →
    f.Settled (t.session.ground.hashes name) (t.marks name)

/-- The action leaves the files settled that it puts into places. -/
def FillsSettled (t : Annotated) (a : Action) : Prop :=
  ∀ name f, t.session.fills a name → (t.perform a).session.workspace.file? name = some f →
    f.Settled ((t.perform a).session.ground.hashes name) ((t.perform a).marks name)

theorem Settles.toRight (h : t.Settles) : t.Right := by
  refine ⟨h.toFaithful, fun name => ?_⟩
  cases hf : t.session.workspace.file? name with
  | none =>
    rw [h.absent name hf]
    exact Marks.rightIn_empty _
  | some f => exact (h.settled name f hf).right

theorem Settles.seen (h : t.Settles) {name : String} {f : ScriptFile}
    (hf : t.session.workspace.seen? name = some f) :
    f.Settled (t.session.ground.hashes name) (t.marks name) := by
  obtain hused | ⟨habsent, -⟩ := Workspace.seen?_cases hf
  · exact h.settled name f hused
  · rw [h.absent name habsent]
    exact f.settled_of_no_marks _

theorem settles_start {s : Session} (h : s.Fresh) : (start s).Settles :=
  ⟨faithful_start h, fun _ f _ => f.settled_of_no_marks _⟩

/-- As long as the flags of files miss nothing, only the fill of a place unsettles a file. -/
theorem Settles.perform (h : t.Settles) (hn : t.session.Attentive) {a : Action}
    (ha : t.FillsSettled a) : (t.perform a).Settles := by
  refine ⟨h.toFaithful.perform a, fun name f' hf' => ?_⟩
  obtain ⟨f, hf, hmarks, hstep⟩ := h.toFaithful.stepped a hf'
  have hfilled := fun hfill => ha name f' hfill hf'
  rw [hmarks] at hfilled ⊢
  exact (h.seen hf).stepped (hn.noticed hf) (h.tracks.tracked name f hf) (h.marks_seen hf) hstep hfilled

/-- A reload fills no place. -/
theorem Settles.reload (h : t.Settles) (hn : t.session.Attentive) (name : String) :
    (t.perform (.reload name)).Settles :=
  h.perform hn fun _ _ hfill => absurd hfill not_false

/-! ### Places filled while no map waits -/

/-- Every file is settled, and the map of its last compilation is of the bytes of the ROM. -/
structure Current (t : Annotated) : Prop extends t.Settles where
  latest : ∀ name f, t.session.workspace.file? name = some f → (t.marks name).latest.IsOf f.hash

/-- No map waits of the files that the action puts into places. -/
def FillsReloaded (t : Annotated) (a : Action) : Prop :=
  ∀ name, t.session.fills a name → (t.marks name).temporary = none

theorem current_start {s : Session} (h : s.Fresh) : (start s).Current :=
  ⟨settles_start h, fun _ f _ => MapPair.isOf_empty f.hash⟩

theorem Current.latest_seen (h : t.Current) {name : String} {f : ScriptFile}
    (hf : t.session.workspace.seen? name = some f) : (t.marks name).latest.IsOf f.hash := by
  obtain hused | ⟨habsent, -⟩ := Workspace.seen?_cases hf
  · exact h.latest name f hused
  · rw [h.absent name habsent]
    exact MapPair.isOf_empty f.hash

theorem Current.fillsSettled (h : t.Current) (hn : t.session.Attentive) {a : Action}
    (ha : t.FillsReloaded a) : t.FillsSettled a := by
  intro name f' hfills hf'
  obtain ⟨f, hf, hmarks, hstep⟩ := h.toFaithful.stepped a hf'
  rw [hmarks]
  exact hstep.settled (hn.noticed hf) (h.tracks.tracked name f hf) (h.marks_seen hf) (h.latest_seen hf)
    (ha name hfills) hfills

theorem Current.perform (h : t.Current) (hn : t.session.Attentive) {a : Action}
    (ha : t.FillsReloaded a) : (t.perform a).Current := by
  refine ⟨h.toSettles.perform hn (h.fillsSettled hn ha), fun name f' hf' => ?_⟩
  obtain ⟨f, hf, hmarks, hstep⟩ := h.toFaithful.stepped a hf'
  rw [hmarks]
  exact hstep.latest (h.latest_seen hf) (ha name)

end Annotated

end SceneDebugger
