import SceneDebugger.Proofs.Files.Footprints

/-!
# SceneDebugger.Proofs.Files.Wholeness — a file is replaced whole or stays as it was

Writing a file whole makes the directories that the path leads through, writes the temporary sibling
and moves it.  What is at a place afterwards is compared with what was there (`Disk.found?`).

* `Disk.names_parent?`: the parent of a path has all its names but the last.
* `Disk.LeadsThrough`: the places on the way of a path.
* `Disk.AsBefore`: a place is as it was, or a directory on the way was made there.
* `Disk.replace_whole`: where the write succeeds, the file has the text and the sibling is gone; where it
  fails, the place of the file is as it was; other places are as they were but for directories on the way.

A path can lead up again from a directory that is missing, and end there: then the directory that is
made on the way is in the place of the file, which cannot be written (`Disk.replace_throughItself`).
-/

namespace SceneDebugger

namespace Path

variable {cs piece last : List Char} {ps qs before : List (List Char)} {start : Start} {p : Path}

/-! ### Pieces of a parent -/

theorem slash_not_mem_of_mem_pieces (h : piece ∈ pieces cs) : '/' ∉ piece := by
  induction cs generalizing piece with
  | nil =>
    obtain rfl := List.mem_singleton.mp h
    exact List.not_mem_nil
  | cons c rest ih =>
    by_cases hc : c = '/'
    · rw [pieces, if_pos hc, List.mem_cons] at h
      rcases h with rfl | h
      · exact List.not_mem_nil
      · exact ih h
    · rw [pieces, if_neg hc] at h
      cases hrest : pieces rest with
      | nil => exact absurd hrest (pieces_ne_nil rest)
      | cons first more =>
        rw [hrest] at ih h
        rcases List.mem_cons.mp h with rfl | h
        · rw [List.mem_cons, not_or]
          exact ⟨Ne.symm hc, ih List.mem_cons_self⟩
        · exact ih (List.mem_cons_of_mem first h)

theorem joined_isPrefix (h : qs <+: ps) : joined qs <+: joined ps := by
  induction qs generalizing ps with
  | nil => exact List.nil_prefix
  | cons q qs ih =>
    obtain ⟨rest, rfl, hrest⟩ := List.cons_prefix_iff.mp h
    cases qs with
    | nil =>
      cases rest with
      | nil => exact List.prefix_rfl
      | cons r rest => exact List.prefix_append q _
    | cons second qs =>
      obtain ⟨more, rfl, -⟩ := List.cons_prefix_iff.mp hrest
      rw [joined_cons (List.cons_ne_nil second qs) q, joined_cons (List.cons_ne_nil second more) q,
        List.prefix_append_right_inj, List.prefix_cons_inj]
      exact ih hrest

theorem trimEnd_isPrefix (ps : List (List Char)) : trimEnd ps <+: ps := by
  unfold trimEnd
  rw [← List.reverse_suffix, List.reverse_reverse]
  exact List.dropWhile_suffix isSilent

theorem lastPiece?_isPrefix (h : lastPiece? ps = some (before, last)) : before <+: ps := by
  unfold lastPiece? at h
  split at h
  · cases h
  next found rest hrest =>
    obtain ⟨rfl, rfl⟩ := Prod.mk.inj (Option.some.inj h)
    rw [← List.reverse_suffix, List.reverse_reverse]
    exact (List.suffix_cons found rest).trans (hrest ▸ List.dropWhile_suffix isSilent)

theorem slash_not_mem_of_mem_split (h : piece ∈ p.split.2) : '/' ∉ piece := by
  unfold split at h
  split at h
  next => exact slash_not_mem_of_mem_pieces h
  next =>
    split at h
    next rest hhere =>
      exact slash_not_mem_of_mem_pieces (hhere ▸ List.mem_cons_of_mem ['.'] h)
    next => exact slash_not_mem_of_mem_pieces h

/-- The pieces of a path that starts plainly do not spell a path from the root. -/
theorem head?_joined_split (h : p.split.1 = .plain) : (joined p.split.2).head? ≠ some '/' := by
  unfold split at h ⊢
  split at h
  next => cases h
  next hroot =>
    split at h
    next => cases h
    next =>
      rw [joined_pieces]
      intro hhead
      obtain ⟨rest, hrest⟩ := List.head?_eq_some_iff.mp hhead
      exact hroot rest hrest

theorem isAbsolute_unsplit (h : start = .plain → (joined qs).head? ≠ some '/') :
    (unsplit start qs).isAbsolute = (start == .root) := by
  rw [isAbsolute_iff]
  cases start with
  | root => simp [unsplit]
  | here => cases qs <;> simp [unsplit]
  | plain => simpa [unsplit] using h rfl

end Path

namespace Disk

open SceneDebugger.Path

variable {d d' d'' : Disk} {p q r : Path} {place : Place} {text : String} {start : Start}
  {qs : List (List Char)}

theorem namesOf_pieces_joined (h : ∀ piece ∈ qs, '/' ∉ piece) :
    namesOf (pieces (joined qs)) = namesOf qs := by
  cases qs with
  | nil => rfl
  | cons q qs => rw [pieces_joined (by simp) h]

theorem names_unsplit (h : ∀ piece ∈ qs, '/' ∉ piece) : names (unsplit start qs) = namesOf qs := by
  rw [names_eq]
  cases start with
  | root =>
    rw [unsplit, String.toList_ofList, pieces, if_pos rfl, ← namesOf_pieces_joined h]
    rfl
  | here =>
    cases qs with
    | nil => rfl
    | cons q qs =>
      rw [unsplit_here (by simp), String.toList_ofList, pieces_joined (by simp)]
      · rfl
      · intro piece hpiece
        rcases List.mem_cons.mp hpiece with rfl | hpiece
        · decide
        · exact h piece hpiece
  | plain => rw [unsplit, String.toList_ofList, namesOf_pieces_joined h]

theorem namesOf_trimEnd (ps : List (List Char)) : namesOf (trimEnd ps) = namesOf ps := by
  have hsilent : namesOf (ps.reverse.takeWhile isSilent).reverse = [] :=
    namesOf_of_silent fun piece hpiece => List.mem_takeWhile_imp (List.mem_reverse.mp hpiece)
  have hps : ps = trimEnd ps ++ (ps.reverse.takeWhile isSilent).reverse := by
    rw [trimEnd, ← List.reverse_append, List.takeWhile_append_dropWhile, List.reverse_reverse]
  rw [hps, namesOf_append, ← hps, hsilent, List.append_nil]

/-- The parent of a path has all its names but the last, and starts where the path starts. -/
theorem names_parent? (h : p.parent? = some q) :
    names q = (names p).dropLast ∧ q.isAbsolute = p.isAbsolute := by
  rw [names_split p, show p.isAbsolute = (p.split.1 == .root) from rfl]
  unfold parent? at h
  have hslash := fun piece => @slash_not_mem_of_mem_split piece p
  have hhead := @head?_joined_split p
  generalize p.split = parts at h hslash hhead ⊢
  obtain ⟨start, ps⟩ := parts
  dsimp only at h hslash hhead ⊢
  cases hlast : lastPiece? ps with
  | none =>
    rw [hlast] at h
    dsimp only at h
    split_ifs at h with hhere
    cases h
    rw [namesOf_eq_nil hlast, hhere]
    exact ⟨rfl, by decide⟩
  | some found =>
    obtain ⟨before, last⟩ := found
    rw [hlast] at h
    cases h
    have hfirst := (trimEnd_isPrefix before).trans (lastPiece?_isPrefix hlast)
    constructor
    · rw [names_unsplit fun piece hpiece => hslash piece (hfirst.subset hpiece), namesOf_trimEnd,
        namesOf_lastPiece? hlast, List.dropLast_concat]
    · refine isAbsolute_unsplit fun hplain hroot => hhead hplain ?_
      obtain ⟨more, hmore⟩ := joined_isPrefix hfirst
      rw [← hmore, List.head?_append, hroot]
      rfl

/-! ### The way of a path -/

/-- The path leads through the place: all its names but the last, or the first ones of these, lead there. -/
def LeadsThrough (p : Path) (place : Place) : Prop :=
  ∃ above, above <+: (names p).dropLast ∧
    place = above.foldl step (if p.isAbsolute then ["/"] else [])

theorem leadsThrough_parent? (h : p.parent? = some q) : LeadsThrough p (lexical q) := by
  obtain ⟨hnames, habsolute⟩ := names_parent? h
  exact ⟨names q, hnames ▸ List.prefix_rfl, by rw [lexical, habsolute]⟩

theorem LeadsThrough.of_parent? (h : p.parent? = some q) (hq : LeadsThrough q place) :
    LeadsThrough p place := by
  obtain ⟨hnames, habsolute⟩ := names_parent? h
  obtain ⟨above, habove, hplace⟩ := hq
  exact ⟨above, habove.trans (hnames ▸ List.dropLast_prefix (names q)), habsolute ▸ hplace⟩

/-- A path leads through the places of the paths above it. -/
theorem leadsThrough_of_mem_lineage {n : Nat} (h : p.parent? = some q) (hr : r ∈ lineage n q) :
    LeadsThrough p (lexical r) := by
  induction n generalizing p q with
  | zero => cases hr
  | succ n ih =>
    rw [lineage, List.mem_cons] at hr
    rcases hr with rfl | hr
    · exact leadsThrough_parent? h
    · cases hparent : q.parent? with
      | none =>
        rw [hparent] at hr
        cases hr
      | some above =>
        rw [hparent] at hr
        exact (ih hparent hr).of_parent? h

/-- Without names that lead up, names lead down to themselves. -/
theorem foldl_step_of_not_up {names : List String} (h : ".." ∉ names) (start : Place) :
    names.foldl step start = start ++ names := by
  induction names generalizing start with
  | nil => rw [List.foldl_nil, List.append_nil]
  | cons name rest ih =>
    rw [List.mem_cons, not_or] at h
    rw [List.foldl_cons, step, if_neg (Ne.symm h.1), ih h.2, List.append_assoc,
      List.singleton_append]

theorem directoryAt_start (d : Disk) (absolute : Bool) :
    d.directoryAt (if absolute then ["/"] else []) = true := by
  cases absolute <;> simp [directoryAt]

/-- A path that leads through its own place leads up somewhere, unless it has no names at all. -/
theorem up_mem_names_of_leadsThrough (h : LeadsThrough p (lexical p))
    (hdir : d.directoryAt (lexical p) = false) : ".." ∈ names p := by
  by_contra hup
  obtain ⟨above, habove, hplace⟩ := h
  have hnot : ".." ∉ above := fun hmem => hup (List.dropLast_subset _ (habove.subset hmem))
  rw [lexical, foldl_step_of_not_up hup, foldl_step_of_not_up hnot, List.append_cancel_left_eq]
    at hplace
  have hlength := habove.length_le
  rw [← hplace, List.length_dropLast] at hlength
  have hnil : names p = [] := List.length_eq_zero_iff.mp (by omega)
  rw [lexical, hnil, List.foldl_nil, directoryAt_start] at hdir
  cases hdir

/-! ### What is at a place -/

/-- What is at a place. -/
def found? (d : Disk) (place : Place) : Option Node :=
  if d.directoryAt place then some .directory else (d.fileAt? place).map .file

theorem found?_congr (hdirs : d'.directoryAt place = d.directoryAt place)
    (hfile : d'.fileAt? place = d.fileAt? place) : d'.found? place = d.found? place := by
  rw [found?, found?, hdirs, hfile]

theorem found?_of_nodes (h : d'.nodes = d.nodes) (place : Place) :
    d'.found? place = d.found? place :=
  found?_congr (by rw [directoryAt, directoryAt, h]) (by rw [fileAt?, fileAt?, h])

theorem found?_eq_none_iff :
    d.found? place = none ↔ d.directoryAt place = false ∧ d.fileAt? place = none := by
  unfold found?
  split_ifs with h <;> simp [h]

/-- A path leads to nothing if there is nothing at its place. -/
theorem exists?_eq_false (h : d.found? (lexical p) = none) : d.exists? p = false := by
  obtain ⟨hdir, hfile⟩ := found?_eq_none_iff.mp h
  unfold exists? isDirectory isFile
  cases hl : d.locate p with
  | error fault => rfl
  | ok place =>
    obtain rfl := locate_eq hl
    simp [hdir, hfile]

/-- A place is as it was, or there was nothing, and there is now a directory that the path leads
through. -/
def AsBefore (d d' : Disk) (p : Path) (place : Place) : Prop :=
  d'.found? place = d.found? place ∨
    LeadsThrough p place ∧ d.found? place = none ∧ d'.found? place = some .directory

theorem AsBefore.refl (d : Disk) (p : Path) (place : Place) : d.AsBefore d p place := .inl rfl

theorem AsBefore.trans (h : d.AsBefore d' p place) (h' : d'.AsBefore d'' p place) :
    d.AsBefore d'' p place := by
  rcases h with hsame | ⟨hway, hnone, hmade⟩
  · rcases h' with hsame' | ⟨hway, hnone, hmade⟩
    · exact .inl (hsame'.trans hsame)
    · exact .inr ⟨hway, hsame ▸ hnone, hmade⟩
  · rcases h' with hsame' | ⟨-, hnone', -⟩
    · exact .inr ⟨hway, hnone, hsame'.trans hmade⟩
    · cases hmade.symm.trans hnone'

theorem asBefore_makeDirectory (h : d.makeDirectory q = .ok d') (hq : LeadsThrough p (lexical q))
    (place : Place) : d.AsBefore d' p place := by
  unfold makeDirectory at h
  cases hl : d.locate q with
  | error fault =>
    rw [hl] at h
    cases h
  | ok made =>
    obtain rfl := locate_eq hl
    rw [hl] at h
    simp only [bind, Except.bind] at h
    split_ifs at h with hthere
    cases h
    by_cases hplace : place = lexical q
    · subst hplace
      rw [not_or, Bool.not_eq_true, Option.not_isSome_iff_eq_none] at hthere
      refine .inr ⟨hq, found?_eq_none_iff.mpr hthere, ?_⟩
      simp [found?, directoryAt]
    · have hnode : (d.nodes.insert (lexical q) .directory)[place]? = d.nodes[place]? := by
        rw [Std.ExtTreeMap.getElem?_insert, if_neg (by simpa using Ne.symm hplace)]
      refine .inl (found?_congr ?_ ?_)
      · simp only [directoryAt, hnode]
      · simp only [fileAt?, hnode]

/-- To make the directories above a path changes places on its way only. -/
theorem asBefore_makeParents (d : Disk) (p : Path) (place : Place) :
    d.AsBefore (d.makeParents p).2 p place := by
  unfold makeParents
  cases hparent : p.parent? with
  | none => exact .refl d p place
  | some above =>
    exact makeLineage_induction (R := fun d d' => d.AsBefore d' p place) (AsBefore.refl · p place)
      AsBefore.trans
      (fun _ hq _ _ hmade => asBefore_makeDirectory hmade (leadsThrough_of_mem_lineage hparent hq) place)
      d

theorem found?_nextRefusal (d : Disk) (place : Place) :
    d.nextRefusal.2.found? place = d.found? place := by
  unfold nextRefusal
  split <;> exact found?_of_nodes rfl place

theorem found?_write (h : d.write p text = .ok d') (hplace : place ≠ lexical p) :
    d'.found? place = d.found? place :=
  found?_congr (sameDirectories_write h place) (spares_write h hplace).same

theorem found?_rename (h : d.rename q p = .ok d') (hsource : place ≠ lexical q)
    (htarget : place ≠ lexical p) : d'.found? place = d.found? place :=
  found?_congr (sameDirectories_rename h place) (spares_rename h hsource htarget).same

/-- What was moved is no longer where it was. -/
theorem found?_source_of_rename (h : d.rename q p = .ok d') (hne : lexical q ≠ lexical p)
    (hdir : d.directoryAt (lexical q) = false) : d'.found? (lexical q) = none := by
  refine found?_eq_none_iff.mpr ⟨(sameDirectories_rename h _).trans hdir, ?_⟩
  obtain ⟨old, new, moved, hold, hnew, -, -, -, rfl⟩ := rename_ok h
  obtain rfl := locate_eq hold
  obtain rfl := locate_eq hnew
  exact (fileAt?_insert { d with nodes := d.nodes.erase (lexical q) } _ _ moved).trans
    ((if_neg hne).trans ((fileAt?_erase d _ _).trans (if_pos rfl)))

/-! ### Whole or not at all -/

/-- A step to a name below leads there by this name. -/
theorem eq_of_step_eq_concat {above : Place} {name other : String} (hother : other ≠ "..")
    (h : step above name = above ++ [other]) : name = other := by
  have hlength := congrArg List.length h
  unfold step up at h hlength
  split_ifs at h hlength
  · simp at h
  · exact absurd (List.head_eq_of_cons_eq (List.append_cancel_left h)).symm hother
  · simp only [List.length_append, List.length_dropLast, List.length_singleton] at hlength
    omega
  · exact List.head_eq_of_cons_eq (List.append_cancel_left h)

/-- A path with more characters leads to another place. -/
theorem lexical_suffixed_ne (p : Path) {more : String} (hslash : '/' ∉ more.toList)
    (hlong : 2 < more.toList.length) : lexical (p.suffixed more) ≠ lexical p := by
  obtain ⟨ps, last, hspelled, hplace⟩ := lexical_suffixed p hslash hlong
  have hstart : ((p.text ++ more).toList.head? == some '/') = (p.text.toList.head? == some '/') := by
    rw [String.toList_append, List.head?_append]
    cases hp : p.text.toList with
    | nil =>
      refine beq_eq_false_iff_ne.mpr fun hhead => hslash ?_
      exact List.mem_of_head? (by simpa using hhead)
    | cons c rest => rfl
  rw [hplace, hstart, lexical_eq p, hspelled, placeOf_append]
  generalize placeOf (p.text.toList.head? == some '/') ps = above
  obtain ⟨-, hup⟩ := namesOf_long (show 2 < (last ++ more.toList).length by simp; omega)
  intro heq
  -- the last piece of the path is silent, or it is a name that the characters make longer
  by_cases hsilent : isSilent last = true
  · simp [namesOf, hsilent] at heq
  · have hnames : namesOf [last] = [String.ofList last] := by simp [namesOf, hsilent]
    rw [hnames, List.foldl_cons, List.foldl_nil] at heq
    have hname := congrArg String.toList (eq_of_step_eq_concat hup heq.symm)
    rw [String.toList_ofList, String.toList_ofList] at hname
    have hlength := congrArg List.length hname
    rw [List.length_append] at hlength
    omega

theorem lexical_temporary_ne (p : Path) : lexical (temporary p) ≠ lexical p :=
  lexical_suffixed_ne p (by decide) (by decide)

/-- What was there before the first write is as before, but for directories on the way. -/
theorem asBefore_made {made : Disk}
    (h : made = d.nextRefusal.2 ∨ made = (d.nextRefusal.2.makeParents p).2) (place : Place) :
    d.AsBefore made p place := by
  have hstart : d.AsBefore d.nextRefusal.2 p place := .inl (found?_nextRefusal d place)
  rcases h with rfl | rfl
  · exact hstart
  · exact hstart.trans (asBefore_makeParents _ p place)

/-- Places other than those of a file and of its temporary sibling are as before, but for directories on
the way. -/
theorem asBefore_replace (d : Disk) (text : String) (hplace : place ≠ lexical p)
    (htemporary : place ≠ lexical (temporary p)) : d.AsBefore (d.replace p text).2 p place := by
  obtain ⟨made, hmade, ⟨fault, heq⟩ | ⟨written, hw, ⟨fault, heq⟩ | ⟨d', hr, heq⟩⟩⟩ :=
    replace_steps d p text
  · exact heq ▸ asBefore_made hmade place
  · exact heq ▸ (asBefore_made hmade place).trans (.inl (found?_write hw htemporary))
  · have hwritten := (asBefore_made hmade place).trans (.inl (found?_write hw htemporary))
    exact heq ▸ hwritten.trans (.inl (found?_rename hr htemporary hplace))

/-- The place of a file that could not be written is as before, unless it is on the way. -/
theorem asBefore_replace_of_error {fault : Fault} (h : (d.replace p text).1 = .error fault) :
    d.AsBefore (d.replace p text).2 p (lexical p) := by
  obtain ⟨made, hmade, ⟨fault, heq⟩ | ⟨written, hw, ⟨fault, heq⟩ | ⟨d', hr, heq⟩⟩⟩ :=
    replace_steps d p text
  · exact heq ▸ asBefore_made hmade (lexical p)
  · exact heq ▸ (asBefore_made hmade (lexical p)).trans
      (.inl (found?_write hw (lexical_temporary_ne p).symm))
  · rw [heq] at h
    cases h

/-- Once a file is in place, its temporary sibling is gone. -/
theorem found?_temporary_of_replace (h : (d.replace p text).1 = .ok ()) :
    (d.replace p text).2.found? (lexical (temporary p)) = none := by
  obtain ⟨made, written, hw, hr⟩ := replace_ok (Prod.ext h rfl : d.replace p text = (.ok (), _))
  refine found?_source_of_rename hr (lexical_temporary_ne p) ?_
  rw [sameDirectories_write hw]
  obtain ⟨place, hl, -, hdir, -⟩ := write_ok hw
  exact locate_eq hl ▸ hdir

/-- A file is replaced whole or not at all.  If the write succeeds, the file has the text and its temporary
sibling is gone.  If it fails at any step, what is at the place of the file is what was there, except that the
path can lead up (`..`) from a missing directory and end at it, which then may have been made.  In both cases
any other place but that of the sibling is as it was, or there was nothing and there is now a directory on
the way of the path. -/
theorem replace_whole (d : Disk) (p : Path) (text : String) :
    ((d.replace p text).1 = .ok () →
      (d.replace p text).2.read p = .ok text ∧
        (d.replace p text).2.found? (lexical p) = some (.file text) ∧
        (d.replace p text).2.exists? (temporary p) = false ∧
        (d.replace p text).2.found? (lexical (temporary p)) = none) ∧
    (∀ fault, (d.replace p text).1 = .error fault →
      (d.replace p text).2.found? (lexical p) = d.found? (lexical p) ∨
        ".." ∈ names p ∧ LeadsThrough p (lexical p) ∧ d.found? (lexical p) = none ∧
          (d.replace p text).2.found? (lexical p) = some .directory) ∧
    ∀ place, place ≠ lexical p → place ≠ lexical (temporary p) →
      d.AsBefore (d.replace p text).2 p place := by
  refine ⟨fun h => ?_, fun fault h => ?_, fun place => asBefore_replace d text⟩
  · have hread := read_of_replace (Prod.ext h rfl : d.replace p text = (.ok (), _))
    obtain ⟨-, hdir, hfile⟩ := read_ok hread
    have hgone := found?_temporary_of_replace h
    refine ⟨hread, ?_, exists?_eq_false hgone, hgone⟩
    simp [found?, hdir, hfile]
  · refine (asBefore_replace_of_error h).imp id fun ⟨hway, hnone, hmade⟩ => ?_
    exact ⟨up_mem_names_of_leadsThrough hway (found?_eq_none_iff.mp hnone).1, hway, hnone, hmade⟩

/-- A file whose temporary sibling is a directory. -/
def obstructed : Disk where
  nodes := (∅ : Std.ExtTreeMap Place Node).insert ["f"] (.file "old") |>.insert ["f.tmp"] .directory

/-- The directories above a new file are made; a file whose sibling cannot be written keeps its text. -/
theorem replace_whole_obstructed :
    (({} : Disk).replace ⟨"nested/file.json"⟩ "new").1 = .ok () ∧
      (({} : Disk).replace ⟨"nested/file.json"⟩ "new").2.read ⟨"nested/file.json"⟩ = .ok "new" ∧
      (obstructed.replace ⟨"f"⟩ "new").1 = .error .isDirectory ∧
      (obstructed.replace ⟨"f"⟩ "new").2.found? ["f"] = some (.file "old") := by
  have hmade : (({} : Disk).replace ⟨"nested/file.json"⟩ "new").1 = .ok () := by decide +kernel
  have hfails : (obstructed.replace ⟨"f"⟩ "new").1 = .error .isDirectory := by decide +kernel
  have hplace : lexical ⟨"f"⟩ = ["f"] := by decide +kernel
  have hold : obstructed.found? ["f"] = some (.file "old") := by decide +kernel
  refine ⟨hmade, ((replace_whole {} ⟨"nested/file.json"⟩ "new").1 hmade).1, hfails, ?_⟩
  have hkept := (replace_whole obstructed ⟨"f"⟩ "new").2.1 _ hfails
  rw [hplace] at hkept
  rcases hkept with hsame | ⟨-, -, hnone, -⟩
  · exact hsame.trans hold
  · cases hold.symm.trans hnone

/-- A path that leads up from a missing directory and ends at it: the directory is made, and the file cannot
be moved there. -/
def throughItself : Path := ⟨"proj/a/../a"⟩

theorem replace_throughItself :
    throughItself.fileName? = some ['a'] ∧ wantsDirectory throughItself = false ∧
      lexical throughItself = ["proj", "a"] ∧
      (({} : Disk).replace throughItself "x").1 = .error .isDirectory ∧
      ({} : Disk).exists? throughItself = false ∧ ({} : Disk).found? ["proj", "a"] = none ∧
      (({} : Disk).replace throughItself "x").2.isDirectory throughItself = true ∧
      (({} : Disk).replace throughItself "x").2.found? ["proj", "a"] = some .directory := by
  decide +kernel

end Disk

end SceneDebugger
