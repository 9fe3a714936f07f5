import SceneDebugger.Proofs.Files.Replacing

/-!
# SceneDebugger.Proofs.Files.Frames — what writing a file leaves alone

A path that can be followed leads to the place that its names spell (`Disk.lexical`), whatever is on
the disk.  Writing a file whole touches that place and the one of the temporary sibling; it makes
directories where nothing was, and no directory goes.

* `Disk.Spares`: a change that leaves the file at a place alone.
* `Disk.spares_replace`, `Disk.spares_replace_of_error`: a written file spares every other place, and
  its own if the write failed.
* `Disk.Legible`: a file at the place of a path can be read by it.  Sparing changes keep that.
-/

namespace SceneDebugger

namespace Disk

variable {d d' d'' : Disk} {p : Path} {place other : Place} {text : String} {fault : Fault}

/-! ### The place that names spell -/

/-- The place that the names of a path lead to if they can be followed. -/
def lexical (p : Path) : Place := (names p).foldl step (if p.isAbsolute then ["/"] else [])

theorem follow_eq {names : List String} (h : d.follow place names = .ok other) :
    other = names.foldl step place := by
  induction names generalizing place with
  | nil => exact (Except.ok.inj h).symm
  | cons name rest ih =>
    rw [follow] at h
    split_ifs at h
    exact ih h

/-- The host can make something of the path. -/
def Sayable (p : Path) : Prop :=
  p.text.toList.contains '\x00' = false ∧ p.text ≠ "" ∧ p.text.utf8ByteSize ≤ maxPathSize

theorem locate_ok_iff : d.locate p = .ok place ↔
    Sayable p ∧ d.follow (if p.isAbsolute then ["/"] else []) (names p) = .ok place ∧
      ¬(wantsDirectory p = true ∧ (d.fileAt? place).isSome = true) := by
  unfold locate Sayable
  generalize (if p.isAbsolute then ["/"] else []) = start
  cases hf : d.follow start (names p) with
  | error fault =>
    simp only [bind, Except.bind]
    split_ifs <;> simp
  | ok found =>
    simp only [bind, Except.bind]
    by_cases hplace : found = place
    · subst hplace
      split_ifs <;> simp_all [Nat.not_le.mpr]
    · split_ifs <;> simp [hplace]

theorem locate_eq (h : d.locate p = .ok place) : place = lexical p :=
  follow_eq (locate_ok_iff.mp h).2.1

/-! ### Files that are left alone -/

/-- The file at a place is left alone, and no directory goes. -/
structure Spares (d d' : Disk) (place : Place) : Prop where
  grows : ∀ other, d.directoryAt other = true → d'.directoryAt other = true
  same : d'.fileAt? place = d.fileAt? place

theorem Spares.refl (d : Disk) (place : Place) : d.Spares d place := ⟨fun _ h => h, rfl⟩

theorem Spares.trans (h : d.Spares d' place) (h' : d'.Spares d'' place) : d.Spares d'' place :=
  ⟨fun other hd => h'.grows other (h.grows other hd), h'.same.trans h.same⟩

theorem spares_of_nodes (h : d'.nodes = d.nodes) : d.Spares d' place :=
  ⟨fun other => by simp [directoryAt, h], by simp [fileAt?, h]⟩

theorem SameDirectories.spares (h : d.SameDirectories d')
    (hsame : d'.fileAt? place = d.fileAt? place) : d.Spares d' place :=
  ⟨fun other hd => (h other).trans hd, hsame⟩

theorem fileAt?_insert (d : Disk) (place other : Place) (text : String) :
    fileAt? { d with nodes := d.nodes.insert place (.file text) } other =
      if other = place then some text else d.fileAt? other := by
  unfold fileAt?
  rw [Std.ExtTreeMap.getElem?_insert]
  by_cases h : place = other
  · simp [h]
  · simp [h, Ne.symm h]

theorem fileAt?_erase (d : Disk) (place other : Place) :
    fileAt? { d with nodes := d.nodes.erase place } other =
      if other = place then none else d.fileAt? other := by
  unfold fileAt?
  rw [Std.ExtTreeMap.getElem?_erase]
  by_cases h : place = other
  · simp [h]
  · simp [h, Ne.symm h]

theorem spares_makeDirectory (h : d.makeDirectory p = .ok d') (place : Place) :
    d.Spares d' place := by
  unfold makeDirectory at h
  cases hl : d.locate p with
  | error fault =>
    rw [hl] at h
    cases h
  | ok made =>
    rw [hl] at h
    simp only [bind, Except.bind] at h
    split_ifs at h with hthere
    cases h
    refine ⟨fun other hdir => ?_, ?_⟩
    · unfold directoryAt at hdir ⊢
      rw [Std.ExtTreeMap.getElem?_insert]
      split_ifs
      · simp
      · exact hdir
    · have hnofile : d.fileAt? made = none := by simpa using (not_or.mp hthere).2
      unfold fileAt?
      rw [Std.ExtTreeMap.getElem?_insert]
      split_ifs with hmade
      · rw [Std.compare_eq_iff_eq] at hmade
        subst hmade
        exact hnofile.symm
      · rfl

/-- What holds of a disk and itself, can be chained and holds of every directory made, holds of a lineage
made. -/
theorem makeLineage_induction {R : Disk → Disk → Prop} (refl : ∀ d, R d d)
    (trans : ∀ {d d' d''}, R d d' → R d' d'' → R d d'') {paths : List Path}
    (make : ∀ p ∈ paths, ∀ {d d'}, d.makeDirectory p = .ok d' → R d d') (d : Disk) :
    R d (d.makeLineage paths).2 := by
  induction paths generalizing d with
  | nil => exact refl d
  | cons p above ih =>
    have hfirst := @make p List.mem_cons_self
    have habove := ih (fun q hq => make q (List.mem_cons_of_mem p hq)) d
    unfold makeLineage
    split
    next => exact refl d
    next =>
      split
      next made hmade => exact hfirst hmade
      next =>
        split
        next heq => exact heq ▸ habove
        next v heq =>
          rw [heq] at habove
          split
          next made hmade => exact trans habove (hfirst hmade)
          next => split <;> exact habove
      next => split <;> exact refl d

theorem spares_makeLineage (d : Disk) (place : Place) (paths : List Path) :
    d.Spares (d.makeLineage paths).2 place :=
  makeLineage_induction (R := fun d d' => d.Spares d' place) (Spares.refl · place) Spares.trans
    (fun _ _ _ _ h => spares_makeDirectory h place) d

theorem spares_makeParents (d : Disk) (p : Path) (place : Place) :
    d.Spares (d.makeParents p).2 place := by
  unfold makeParents
  cases p.parent? with
  | none => exact .refl d place
  | some above => exact spares_makeLineage d place _

/-- Writing touches the place of the path only. -/
theorem spares_write (h : d.write p text = .ok d') (hplace : place ≠ lexical p) :
    d.Spares d' place := by
  refine (sameDirectories_write h).spares ?_
  obtain ⟨written, hl, -, -, rfl⟩ := write_ok h
  rw [fileAt?_insert, if_neg (locate_eq hl ▸ hplace)]

/-- Moving touches the two places only. -/
theorem spares_rename {source target : Path} (h : d.rename source target = .ok d')
    (hsource : place ≠ lexical source) (htarget : place ≠ lexical target) : d.Spares d' place := by
  refine (sameDirectories_rename h).spares ?_
  obtain ⟨old, new, moved, hold, hnew, -, -, -, rfl⟩ := rename_ok h
  exact (fileAt?_insert { d with nodes := d.nodes.erase old } new place moved).trans
    ((if_neg (locate_eq hnew ▸ htarget)).trans
      ((fileAt?_erase d old place).trans (if_neg (locate_eq hold ▸ hsource))))

theorem spares_nextRefusal (d : Disk) (place : Place) : d.Spares d.nextRefusal.2 place := by
  unfold nextRefusal
  split <;> exact spares_of_nodes rfl

/-- How writing a file whole can go: it ends before the temporary sibling is written, or before that is
moved, or with the file in place. -/
theorem replace_cases (d : Disk) (p : Path) (text : String) :
    ∃ made : Disk, (∀ place, d.Spares made place) ∧
      ((∃ fault, d.replace p text = (.error fault, made)) ∨
        ∃ written, made.write (temporary p) text = .ok written ∧
          ((∃ fault, d.replace p text = (.error fault, written)) ∨
            ∃ d', written.rename (temporary p) p = .ok d' ∧ d.replace p text = (.ok (), d'))) := by
  obtain ⟨made, hmade, houtcome⟩ := replace_steps d p text
  refine ⟨made, fun place => ?_, houtcome⟩
  rcases hmade with rfl | rfl
  · exact spares_nextRefusal d place
  · exact (spares_nextRefusal d place).trans (spares_makeParents _ p place)

/-- A file written whole spares every other place. -/
theorem spares_replace (d : Disk) (text : String) (hplace : place ≠ lexical p)
    (htemporary : place ≠ lexical (temporary p)) : d.Spares (d.replace p text).2 place := by
  obtain ⟨made, hmade, ⟨fault, heq⟩ | ⟨written, hw, ⟨fault, heq⟩ | ⟨d', hr, heq⟩⟩⟩ :=
    replace_cases d p text
  · exact heq ▸ hmade place
  · exact heq ▸ (hmade place).trans (spares_write hw htemporary)
  · exact heq ▸ ((hmade place).trans (spares_write hw htemporary)).trans
      (spares_rename hr htemporary hplace)

/-- A file that was not written is left alone. -/
theorem spares_replace_of_error (h : d.replace p text = (.error fault, d'))
    (htemporary : place ≠ lexical (temporary p)) : d.Spares d' place := by
  obtain ⟨made, hmade, ⟨fault, heq⟩ | ⟨written, hw, ⟨fault, heq⟩ | ⟨renamed, hr, heq⟩⟩⟩ :=
    replace_cases d p text
  · cases heq.symm.trans h
    exact hmade place
  · cases heq.symm.trans h
    exact (hmade place).trans (spares_write hw htemporary)
  · cases heq.symm.trans h

/-! ### Files that can be read -/

/-- A file at the place of the path can be read by the path. -/
def Legible (d : Disk) (p : Path) : Prop :=
  ∀ text, d.fileAt? (lexical p) = some text → d.read p = .ok text

theorem read_ok (h : d.read p = .ok text) :
    d.locate p = .ok (lexical p) ∧ d.directoryAt (lexical p) = false ∧
      d.fileAt? (lexical p) = some text := by
  unfold read at h
  cases hl : d.locate p with
  | error fault =>
    rw [hl] at h
    cases h
  | ok place =>
    obtain rfl := locate_eq hl
    rw [hl] at h
    simp only [bind, Except.bind] at h
    split_ifs at h with hdir
    split at h
    next found hfound =>
      cases h
      exact ⟨rfl, by simpa using hdir, hfound⟩
    next => cases h

theorem follow_of_grows (h : ∀ other, d.directoryAt other = true → d'.directoryAt other = true)
    {names : List String} (hf : d.follow place names = .ok other) :
    d'.follow place names = .ok other := by
  induction names generalizing place with
  | nil => exact hf
  | cons name rest ih =>
    rw [follow] at hf ⊢
    split_ifs at hf with hdir hsize
    rw [if_pos (h place hdir), if_pos hsize]
    exact ih hf

/-- A file that can be read stays so while it is left alone. -/
theorem Spares.read (h : d.Spares d' (lexical p)) (hr : d.read p = .ok text) :
    d'.read p = .ok text := by
  obtain ⟨hl, hdir, hfile⟩ := read_ok hr
  have hfile' : d'.fileAt? (lexical p) = some text := h.same.trans hfile
  have hl' : d'.locate p = .ok (lexical p) := by
    obtain ⟨hsayable, hf, hwants⟩ := locate_ok_iff.mp hl
    exact locate_ok_iff.mpr ⟨hsayable, follow_of_grows h.grows hf, by rwa [hfile', ← hfile]⟩
  have hdir' : d'.directoryAt (lexical p) = false := by
    unfold directoryAt at hdir ⊢
    rw [lookup_of_fileAt? hfile] at hdir
    rw [lookup_of_fileAt? hfile']
    exact hdir
  exact read_eq hl' hdir' (lookup_of_fileAt? hfile')

/-- Files stay legible while they are left alone. -/
theorem Spares.legible (h : d.Spares d' (lexical p)) (hd : d.Legible p) : d'.Legible p :=
  fun text htext => h.read (hd text (h.same ▸ htext))

theorem legible_of_replace (h : d.replace p text = (.ok (), d')) : d'.Legible p := by
  intro found hfound
  have hread := read_of_replace h
  rw [(read_ok hread).2.2] at hfound
  exact Option.some_inj.mp hfound ▸ hread

theorem fileAt?_of_replace (h : d.replace p text = (.ok (), d')) :
    d'.fileAt? (lexical p) = some text := (read_ok (read_of_replace h)).2.2

/-- What is read by a path is the file at its place. -/
theorem Legible.read_toOption (hd : d.Legible p) : (d.read p).toOption = d.fileAt? (lexical p) := by
  cases hr : d.read p with
  | ok text => exact (read_ok hr).2.2.symm
  | error fault =>
    cases hf : d.fileAt? (lexical p) with
    | none => rfl
    | some text => cases hr.symm.trans (hd text hf)

end Disk

end SceneDebugger
