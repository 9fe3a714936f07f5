import Mathlib.Tactic.SplitIfs
import SceneDebugger.Files.Disk

/-!
# SceneDebugger.Proofs.Files.Replacing — a file written whole is there to be read

`Disk.replace` makes directories, writes a temporary sibling and moves it over the file; it can end at
any of these steps (`Disk.replace_steps`).  Where it succeeds, the file has the new text
(`Disk.read_of_replace`).

What a path denotes depends on the directories only (`Disk.SameDirectories`), and writing or moving
a file leaves those as they are.
-/

namespace SceneDebugger

namespace Disk

variable {d d' d'' : Disk} {p : Path} {place : Place} {text : String}

/-! ### What paths denote -/

/-- The same places are directories. -/
def SameDirectories (d d' : Disk) : Prop := ∀ place, d'.directoryAt place = d.directoryAt place

theorem SameDirectories.trans (h : d.SameDirectories d') (h' : d'.SameDirectories d'') :
    d.SameDirectories d'' :=
  fun place => (h' place).trans (h place)

theorem follow_of_sameDirectories (h : d.SameDirectories d') {names : List String} {start : Place}
    (hf : d.follow start names = .ok place) : d'.follow start names = .ok place := by
  induction names generalizing start with
  | nil => exact hf
  | cons name rest ih =>
    rw [follow] at hf ⊢
    rw [h start]
    split_ifs at hf ⊢
    exact ih hf

/-- A path that can denote a file denotes the same place on every disk with the same directories. -/
theorem locate_of_sameDirectories (h : d.SameDirectories d') (hp : wantsDirectory p = false)
    (hl : d.locate p = .ok place) : d'.locate p = .ok place := by
  unfold locate at hl ⊢
  generalize (if p.isAbsolute then ["/"] else []) = start at hl ⊢
  split_ifs at hl ⊢
  cases hf : d.follow start (names p) with
  | error fault =>
    rw [hf] at hl
    cases hl
  | ok found =>
    rw [hf] at hl
    rw [follow_of_sameDirectories h hf]
    simp only [hp, Bool.false_eq_true, false_and, if_false] at hl ⊢
    exact hl

theorem lookup_ne_directory (h : d.directoryAt place = false) :
    d.nodes[place]? ≠ some .directory := by
  intro hnode
  simp [directoryAt, hnode] at h

theorem lookup_of_fileAt? (h : d.fileAt? place = some text) :
    d.nodes[place]? = some (.file text) := by
  unfold fileAt? at h
  split at h
  · rename_i found hfound
    rw [hfound, Option.some.inj h]
  · cases h

theorem sameDirectories_insert (h : d.nodes[place]? ≠ some .directory) (text : String) :
    d.SameDirectories { d with nodes := d.nodes.insert place (.file text) } := by
  intro other
  have hsame : ((d.nodes.insert place (.file text))[other]? == some Node.directory) =
      (d.nodes[other]? == some Node.directory) := by
    by_cases hother : place = other
    · subst hother
      rw [Std.ExtTreeMap.getElem?_insert_self, beq_eq_false_iff_ne.mpr h]
      rfl
    · rw [Std.ExtTreeMap.getElem?_insert, if_neg (by simpa using hother)]
  simp only [directoryAt, hsame]

theorem sameDirectories_erase (h : d.nodes[place]? ≠ some .directory) :
    d.SameDirectories { d with nodes := d.nodes.erase place } := by
  intro other
  have hsame : ((d.nodes.erase place)[other]? == some Node.directory) =
      (d.nodes[other]? == some Node.directory) := by
    by_cases hother : place = other
    · subst hother
      rw [Std.ExtTreeMap.getElem?_erase_self, beq_eq_false_iff_ne.mpr h]
      rfl
    · rw [Std.ExtTreeMap.getElem?_erase, if_neg (by simpa using hother)]
  simp only [directoryAt, hsame]

/-! ### Writing and moving -/

/-- What a written disk is. -/
theorem write_ok (h : d.write p text = .ok d') :
    ∃ place, d.locate p = .ok place ∧ wantsDirectory p = false ∧ d.directoryAt place = false ∧
      d' = { d with nodes := d.nodes.insert place (.file text) } := by
  unfold write at h
  cases hl : d.locate p with
  | error fault =>
    rw [hl] at h
    cases h
  | ok place =>
    rw [hl] at h
    simp only [bind, Except.bind] at h
    split_ifs at h with hdir
    rw [not_or, Bool.not_eq_true, Bool.not_eq_true] at hdir
    exact ⟨place, rfl, hdir.2, hdir.1, (Except.ok.inj h).symm⟩

/-- What a disk is after a file was moved. -/
theorem rename_ok {source target : Path} (h : d.rename source target = .ok d') :
    ∃ old new text, d.locate source = .ok old ∧ d.locate target = .ok new ∧
      d.fileAt? old = some text ∧ d.directoryAt new = false ∧ wantsDirectory target = false ∧
      d' = { d with nodes := (d.nodes.erase old).insert new (.file text) } := by
  unfold rename at h
  cases hold : d.locate source with
  | error fault =>
    rw [hold] at h
    cases h
  | ok old =>
    cases hnew : d.locate target with
    | error fault =>
      rw [hold, hnew] at h
      cases h
    | ok new =>
      rw [hold, hnew] at h
      cases htext : d.fileAt? old with
      | none =>
        simp only [bind, Except.bind, htext] at h
        cases h
      | some text =>
        simp only [bind, Except.bind, htext] at h
        split_ifs at h with hdir hwants
        exact ⟨old, new, text, rfl, rfl, htext, eq_false_of_ne_true hdir,
          eq_false_of_ne_true hwants, (Except.ok.inj h).symm⟩

theorem read_eq (hl : d.locate p = .ok place) (hdir : d.directoryAt place = false)
    (htext : d.nodes[place]? = some (.file text)) : d.read p = .ok text := by
  have hfile : d.fileAt? place = some text := by rw [fileAt?, htext]
  simp only [read, hl, bind, Except.bind, hdir, hfile, Bool.false_eq_true, if_false]

/-- Writing a file leaves the directories as they are. -/
theorem sameDirectories_write (h : d.write p text = .ok d') : d.SameDirectories d' := by
  obtain ⟨place, -, -, hdir, rfl⟩ := write_ok h
  exact sameDirectories_insert (lookup_ne_directory hdir) text

/-- Moving a file leaves the directories as they are. -/
theorem sameDirectories_rename {source target : Path} (h : d.rename source target = .ok d') :
    d.SameDirectories d' := by
  obtain ⟨old, new, moved, -, -, hmoved, hnewdir, -, rfl⟩ := rename_ok h
  have herase : d.SameDirectories { d with nodes := d.nodes.erase old } :=
    sameDirectories_erase (by simp [lookup_of_fileAt? hmoved])
  exact herase.trans
    (sameDirectories_insert (lookup_ne_directory ((herase new).trans hnewdir)) moved)

theorem read_of_write_rename {source target : Path} (hw : d.write source text = .ok d')
    (hr : d'.rename source target = .ok d'') : d''.read target = .ok text := by
  have hwritten := sameDirectories_write hw
  have hrenamed := sameDirectories_rename hr
  obtain ⟨place, hplace, hsource, -, hd'⟩ := write_ok hw
  obtain ⟨old, new, moved, hold, hnew, hmoved, hnewdir, htarget, rfl⟩ := rename_ok hr
  -- the file that is moved is the one that was written
  have hsame : old = place := by
    rw [locate_of_sameDirectories hwritten hsource hplace] at hold
    exact (Except.ok.inj hold).symm
  have htext : moved = text := by
    have hfile : d'.fileAt? place = some text := by
      rw [hd', fileAt?, Std.ExtTreeMap.getElem?_insert_self]
    rw [hsame, hfile] at hmoved
    exact (Option.some.inj hmoved).symm
  subst hsame htext
  refine read_eq (locate_of_sameDirectories hrenamed htarget hnew) ?_ ?_
  · rw [hrenamed new, hnewdir]
  · exact Std.ExtTreeMap.getElem?_insert_self

/-- How writing a file whole can go: it ends before the temporary sibling is written, or before that is
moved, or with the file in place.  Up to the first write, directories above the file are all that is made. -/
theorem replace_steps (d : Disk) (p : Path) (text : String) :
    ∃ made : Disk, (made = d.nextRefusal.2 ∨ made = (d.nextRefusal.2.makeParents p).2) ∧
      ((∃ fault, d.replace p text = (.error fault, made)) ∨
        ∃ written, made.write (temporary p) text = .ok written ∧
          ((∃ fault, d.replace p text = (.error fault, written)) ∨
            ∃ d', written.rename (temporary p) p = .ok d' ∧ d.replace p text = (.ok (), d'))) := by
  unfold replace
  rcases d.nextRefusal with ⟨refusal, started⟩
  dsimp only
  split
  next => exact ⟨started, .inl rfl, .inl ⟨_, rfl⟩⟩
  next =>
    rcases started.makeParents p with ⟨fault | ⟨⟩, made⟩
    · exact ⟨made, .inr rfl, .inl ⟨fault, rfl⟩⟩
    · refine ⟨made, .inr rfl, ?_⟩
      dsimp only
      split
      next => exact .inl ⟨_, rfl⟩
      next =>
        split
        next => exact .inl ⟨_, rfl⟩
        next written hw =>
          refine .inr ⟨written, hw, ?_⟩
          split
          next => exact .inl ⟨_, rfl⟩
          next =>
            split
            next => exact .inl ⟨_, rfl⟩
            next renamed hr => exact .inr ⟨renamed, hr, rfl⟩

/-- An atomic write that succeeds ends with a written temporary that is moved over the file. -/
theorem replace_ok (h : d.replace p text = (.ok (), d')) :
    ∃ made written : Disk, made.write (temporary p) text = .ok written ∧
      written.rename (temporary p) p = .ok d' := by
  obtain ⟨made, -, ⟨fault, heq⟩ | ⟨written, hw, ⟨fault, heq⟩ | ⟨renamed, hr, heq⟩⟩⟩ :=
    replace_steps d p text
  · cases heq.symm.trans h
  · cases heq.symm.trans h
  · cases heq.symm.trans h
    exact ⟨made, written, hw, hr⟩

/-- A file that was written whole is there to be read. -/
theorem read_of_replace (h : d.replace p text = (.ok (), d')) : d'.read p = .ok text := by
  obtain ⟨made, written, hw, hr⟩ := replace_ok h
  exact read_of_write_rename hw hr

end Disk

end SceneDebugger
