import SceneDebugger.Proofs.Files.Frames

/-!
# SceneDebugger.Proofs.Files.Names — the names in a spelled path

* `Disk.names_eq`: the names of a path are the pieces of its spelling that are no silent ones.
* `Disk.lexical_child`: the names of a child follow those of the directory.
* `Disk.lexical_suffixed`: a path with more characters leads to a name that ends in them.
* `Disk.lexical_suffixed_injective`: different characters lead to different places.
* `Path.withExtension_eq`: an extension replaces what follows the stem of the last name.
* `Disk.Ends`: the last name of a place ends in some characters, which tells places apart.
-/

namespace SceneDebugger

namespace Path

variable {cs name before : List Char} {p : Path}

/-! ### Pieces -/

theorem pieces_ne_nil (cs : List Char) : pieces cs ≠ [] := by
  cases cs with
  | nil => simp [pieces]
  | cons c rest =>
    unfold pieces
    split
    · simp
    · split <;> simp

theorem pieces_of_no_slash (h : '/' ∉ name) : pieces name = [name] := by
  induction name with
  | nil => rfl
  | cons c rest ih =>
    simp only [List.mem_cons, not_or] at h
    rw [pieces, if_neg (Ne.symm h.1), ih h.2]

theorem pieces_slash (as bs : List Char) : pieces (as ++ '/' :: bs) = pieces as ++ pieces bs := by
  induction as with
  | nil => rfl
  | cons c rest ih =>
    by_cases hc : c = '/'
    · simp [pieces, hc, ih]
    · simp only [List.cons_append, pieces, hc, if_false, ih]
      cases hrest : pieces rest with
      | nil => exact absurd hrest (pieces_ne_nil rest)
      | cons p ps => rfl

/-- The last piece is continued by characters without a slash. -/
theorem pieces_append_name (as : List Char) (h : '/' ∉ name) :
    ∃ ps last, pieces as = ps ++ [last] ∧ pieces (as ++ name) = ps ++ [last ++ name] := by
  induction as with
  | nil => exact ⟨[], [], rfl, pieces_of_no_slash h⟩
  | cons c rest ih =>
    obtain ⟨ps, last, hrest, hmore⟩ := ih
    by_cases hc : c = '/'
    · exact ⟨[] :: ps, last, by simp [pieces, hc, hrest], by simp [pieces, hc, hmore]⟩
    · cases ps with
      | nil => exact ⟨[], c :: last, by simp [pieces, hc, hrest], by simp [pieces, hc, hmore]⟩
      | cons p ps =>
        exact ⟨(c :: p) :: ps, last, by simp [pieces, hc, hrest], by simp [pieces, hc, hmore]⟩

theorem joined_cons {ps : List (List Char)} (h : ps ≠ []) (p : List Char) :
    joined (p :: ps) = p ++ '/' :: joined ps := by
  cases ps with
  | nil => exact absurd rfl h
  | cons q rest => rfl

theorem joined_concat {ps : List (List Char)} (h : ps ≠ []) (p : List Char) :
    joined (ps ++ [p]) = joined ps ++ '/' :: p := by
  induction ps with
  | nil => exact absurd rfl h
  | cons q rest ih =>
    cases rest with
    | nil => rfl
    | cons r rest =>
      rw [List.cons_append, joined_cons (show r :: rest ++ [p] ≠ [] by simp), ih (by simp),
        joined_cons (show r :: rest ≠ [] by simp), List.append_assoc, List.cons_append]

theorem joined_pieces (cs : List Char) : joined (pieces cs) = cs := by
  induction cs with
  | nil => rfl
  | cons c rest ih =>
    by_cases hc : c = '/'
    · rw [pieces, if_pos hc, joined_cons (pieces_ne_nil rest), ih, hc]
      rfl
    · rw [pieces, if_neg hc]
      cases hrest : pieces rest with
      | nil => exact absurd hrest (pieces_ne_nil rest)
      | cons p ps =>
        rw [hrest] at ih
        cases ps with
        | nil => exact congrArg (c :: ·) ih
        | cons q qs => exact congrArg (c :: ·) ih

theorem pieces_joined {ps : List (List Char)} (hne : ps ≠ []) (h : ∀ p ∈ ps, '/' ∉ p) :
    pieces (joined ps) = ps := by
  induction ps with
  | nil => exact absurd rfl hne
  | cons p rest ih =>
    cases rest with
    | nil => exact pieces_of_no_slash (h p (by simp))
    | cons q rest =>
      rw [joined_cons (by simp), pieces_slash, pieces_of_no_slash (h p (by simp)),
        ih (by simp) fun r hr => h r (List.mem_cons_of_mem p hr)]
      rfl

/-! ### Directories before a name -/

theorem isAbsolute_iff (p : Path) : p.isAbsolute = (p.text.toList.head? == some '/') := by
  unfold isAbsolute split
  split
  next rest hroot => simp [hroot]
  next hroot =>
    have hhead : p.text.toList.head? ≠ some '/' := by
      intro h
      obtain ⟨rest, hrest⟩ := List.head?_eq_some_iff.mp h
      exact hroot rest hrest
    rw [beq_eq_false_iff_ne.mpr hhead]
    split <;> rfl

/-- The characters before a name: none, or some that end in a slash. -/
def EndsInSlash (before : List Char) : Prop := before = [] ∨ ∃ above, before = above ++ ['/']

theorem EndsInSlash.tail {c : Char} (h : EndsInSlash (c :: before)) : EndsInSlash before := by
  obtain ⟨above, habove⟩ := h.resolve_left (by simp)
  cases above with
  | nil => exact .inl (List.cons.inj habove).2
  | cons a above => exact .inr ⟨above, (List.cons.inj habove).2⟩

/-- A name behind a slash is the last piece. -/
theorem exists_pieces (h : EndsInSlash before) :
    ∃ ps, (∀ name, '/' ∉ name → pieces (before ++ name) = ps ++ [name]) ∧
      ∀ name, joined (ps ++ [name]) = before ++ name := by
  rcases h with rfl | ⟨above, rfl⟩
  · exact ⟨[], fun name => pieces_of_no_slash, fun name => rfl⟩
  · refine ⟨pieces above, fun name hname => ?_, fun name => ?_⟩
    · rw [List.append_assoc, List.singleton_append, pieces_slash, pieces_of_no_slash hname]
    · rw [joined_concat (pieces_ne_nil above), joined_pieces, List.append_assoc,
        List.singleton_append]

/-- Directories are spelled before whatever is in them. -/
theorem joined_directories (directories : List (List Char)) :
    ∃ before, EndsInSlash before ∧ ∀ name, joined (directories ++ [name]) = before ++ name := by
  cases directories with
  | nil => exact ⟨[], .inl rfl, fun name => rfl⟩
  | cons d rest =>
    exact ⟨joined (d :: rest) ++ ['/'], .inr ⟨_, rfl⟩, fun name => by
      rw [joined_concat (by simp), List.append_assoc, List.singleton_append]⟩

theorem EndsInSlash.append {more : List Char} (h : EndsInSlash before) (h' : EndsInSlash more) :
    EndsInSlash (before ++ more) := by
  rcases h' with rfl | ⟨above, rfl⟩
  · rwa [List.append_nil]
  · exact .inr ⟨before ++ above, by rw [List.append_assoc]⟩

/-- A child is spelled behind its directory. -/
theorem child_eq (p : Path) :
    ∃ before, EndsInSlash before ∧ ∀ name : List Char, name.head? ≠ some '/' →
      p.child (String.ofList name) = ⟨String.ofList (before ++ name)⟩ := by
  have hrelative : ∀ name : List Char, name.head? ≠ some '/' →
      (⟨String.ofList name⟩ : Path).isAbsolute = false := fun name hname => by
    rw [isAbsolute_iff, String.toList_ofList]
    exact beq_eq_false_iff_ne.mpr hname
  by_cases hplain : p.text = "" ∨ p.text.toList.getLast? = some '/'
  · refine ⟨p.text.toList, ?_, fun name hname => ?_⟩
    · refine hplain.imp (fun hempty => by rw [hempty]; rfl) fun hslash => ?_
      exact List.getLast?_eq_some_iff.mp hslash
    · unfold child join
      rw [hrelative name hname, if_neg Bool.false_ne_true]
      dsimp only
      rw [if_pos hplain, String.ofList_append, String.ofList_toList]
  · refine ⟨p.text.toList ++ ['/'], .inr ⟨_, rfl⟩, fun name hname => ?_⟩
    unfold child join
    rw [hrelative name hname, if_neg Bool.false_ne_true]
    dsimp only
    rw [if_neg hplain, String.ofList_append, String.ofList_append, String.ofList_toList]

/-- A child whose name goes on is the child with more characters. -/
theorem child_append (p : Path) (name : String) {more : String}
    (h : more.toList.head? ≠ some '/') : p.child (name ++ more) = (p.child name).suffixed more := by
  have hstart : (⟨name ++ more⟩ : Path).isAbsolute = (⟨name⟩ : Path).isAbsolute := by
    rw [isAbsolute_iff, isAbsolute_iff, String.toList_append, List.head?_append]
    cases name.toList with
    | nil => simpa using h
    | cons c rest => rfl
  unfold child join suffixed
  rw [hstart]
  split
  · rfl
  · split
    · rw [String.append_assoc]
    · rw [String.append_assoc, String.append_assoc, String.append_assoc]

theorem lastPiece?_concat {ps : List (List Char)} (h : isSilent name = false) :
    lastPiece? (ps ++ [name]) = some (ps, name) := by
  simp [lastPiece?, h]

theorem unsplit_here {qs : List (List Char)} (h : qs ≠ []) :
    (unsplit .here qs).text = String.ofList (joined (['.'] :: qs)) := by
  cases qs with
  | nil => exact absurd rfl h
  | cons q rest => rfl

/-- A path that ends in a name is split before it, and can be put together with another one. -/
theorem split_eq (hbefore : EndsInSlash before) (hslash : '/' ∉ name)
    (hsilent : isSilent name = false) :
    ∃ start qs, (⟨String.ofList (before ++ name)⟩ : Path).split = (start, qs ++ [name]) ∧
      ∀ other, (unsplit start (qs ++ [other])).text = String.ofList (before ++ other) := by
  have hdot : name ≠ ['.'] := by rintro rfl; cases hsilent
  unfold split
  simp only [String.toList_ofList]
  split
  next rest hroot =>
    cases before with
    | nil =>
      rw [List.nil_append] at hroot
      simp [hroot] at hslash
    | cons c before =>
      obtain ⟨rfl, rfl⟩ := List.cons.inj hroot
      obtain ⟨ps, hpieces, hjoined⟩ := exists_pieces hbefore.tail
      exact ⟨.root, ps, congrArg (Prod.mk Start.root) (hpieces name hslash),
        fun other => by rw [unsplit, hjoined]; rfl⟩
  next hroot =>
    obtain ⟨ps, hpieces, hjoined⟩ := exists_pieces hbefore
    split
    next rest hhere =>
      rw [hpieces name hslash] at hhere
      cases ps with
      | nil => exact absurd (List.cons.inj hhere).1 hdot
      | cons first ps =>
        obtain ⟨rfl, rfl⟩ := List.cons.inj hhere
        exact ⟨.here, ps, rfl, fun other => by
          rw [unsplit_here (by simp), ← List.cons_append, hjoined]⟩
    next =>
      exact ⟨.plain, ps, by rw [hpieces name hslash], fun other => by rw [unsplit, hjoined]⟩

/-- An extension replaces what follows the stem of the last name. -/
theorem withExtension_eq (hbefore : EndsInSlash before) (hslash : '/' ∉ name)
    (hsilent : isSilent name = false) (hup : name ≠ ['.', '.']) (extension : String) :
    withExtension extension ⟨String.ofList (before ++ name)⟩ =
      ⟨String.ofList (before ++ stemOf name) ++ "." ++ extension⟩ := by
  obtain ⟨start, qs, hsplit, htext⟩ := split_eq hbefore hslash hsilent
  unfold withExtension
  rw [hsplit]
  simp only [lastPiece?_concat hsilent]
  rw [if_neg hup, htext]

end Path

namespace Disk

open SceneDebugger.Path

variable {p : Path} {name : List Char}

/-! ### Names -/

/-- The names among pieces. -/
def namesOf (ps : List (List Char)) : List String :=
  (ps.filter fun piece => !isSilent piece).map String.ofList

theorem namesOf_append (ps qs : List (List Char)) : namesOf (ps ++ qs) = namesOf ps ++ namesOf qs := by
  simp [namesOf]

/-- Silent pieces give no names. -/
theorem namesOf_of_silent {ps : List (List Char)} (h : ∀ piece ∈ ps, isSilent piece = true) :
    namesOf ps = [] := by
  rw [namesOf, List.filter_eq_nil_iff.mpr fun piece hpiece => by simp [h piece hpiece]]
  rfl

/-- The names of a path are the pieces of its spelling that are no silent ones. -/
theorem names_eq (p : Path) : names p = namesOf (pieces p.text.toList) := by
  unfold names split
  split
  next rest hroot =>
    rw [hroot]
    rfl
  next =>
    split
    next rest hhere =>
      rw [hhere]
      rfl
    next => rfl

/-- The place that pieces lead to. -/
def placeOf (absolute : Bool) (ps : List (List Char)) : Place :=
  (namesOf ps).foldl step (if absolute then ["/"] else [])

theorem lexical_eq (p : Path) :
    lexical p = placeOf (p.text.toList.head? == some '/') (pieces p.text.toList) := by
  rw [lexical, names_eq, isAbsolute_iff, placeOf]

theorem placeOf_append (absolute : Bool) (ps qs : List (List Char)) :
    placeOf absolute (ps ++ qs) = (namesOf qs).foldl step (placeOf absolute ps) := by
  rw [placeOf, namesOf_append, List.foldl_append, placeOf]

/-- The names of a child follow those of the directory. -/
theorem lexical_child (p : Path) {file : String} (h : file.toList.head? ≠ some '/') :
    lexical (p.child file) = (namesOf (pieces file.toList)).foldl step (lexical p) := by
  have hrelative : (⟨file⟩ : Path).isAbsolute = false := by
    rw [isAbsolute_iff]
    exact beq_eq_false_iff_ne.mpr h
  rw [lexical_eq p]
  unfold child join
  rw [hrelative, if_neg Bool.false_ne_true]
  dsimp only
  split
  next hplain =>
    rw [lexical_eq, String.toList_append]
    rcases hplain with hempty | hslash
    · have hnil : p.text.toList = [] := by rw [hempty]; rfl
      rw [hnil, List.nil_append, beq_eq_false_iff_ne.mpr h]
      rfl
    · obtain ⟨above, habove⟩ := List.getLast?_eq_some_iff.mp hslash
      have hhead : (above ++ '/' :: file.toList).head? = (above ++ '/' :: []).head? := by
        cases above <;> rfl
      rw [habove, List.append_assoc, List.singleton_append, hhead, pieces_slash, pieces_slash,
        placeOf_append, placeOf_append]
      rfl
  next hplain =>
    have hslash : p.text ++ "/" ++ file = String.ofList (p.text.toList ++ '/' :: file.toList) := by
      rw [String.append_assoc, ← String.toList_inj]
      simp
    have hhead : (p.text.toList ++ '/' :: file.toList).head? = p.text.toList.head? := by
      cases hp : p.text.toList with
      | nil => exact absurd (.inl (String.toList_eq_nil_iff.mp hp)) hplain
      | cons c rest => rfl
    rw [lexical_eq, hslash, String.toList_ofList, hhead, pieces_slash, placeOf_append]

/-! ### Endings -/

/-- The last name of a place ends in some characters. -/
def Ends (place : Place) (ending : String) : Prop :=
  ∃ above name, place = above ++ [name] ∧ ending.toList <:+ name.toList

/-- Names that end in more than two characters are neither silent nor lead up. -/
theorem namesOf_long {last : List Char} (h : 2 < last.length) :
    namesOf [last] = [String.ofList last] ∧ String.ofList last ≠ ".." := by
  have hsilent : isSilent last = false := by
    unfold isSilent
    rw [Bool.or_eq_false_iff]
    constructor <;> rw [beq_eq_false_iff_ne] <;> rintro rfl <;> simp at h
  refine ⟨by simp [namesOf, hsilent], ?_⟩
  intro hup
  have hlist : last = ['.', '.'] := by rw [← String.toList_ofList (l := last), hup]; rfl
  rw [hlist] at h
  simp at h

/-- The last name that characters after a path make. -/
theorem lexical_suffixed (p : Path) {more : String} (hslash : '/' ∉ more.toList)
    (hlong : 2 < more.toList.length) :
    ∃ ps last, pieces p.text.toList = ps ++ [last] ∧
      lexical (p.suffixed more) = placeOf ((p.text ++ more).toList.head? == some '/') ps ++
        [String.ofList (last ++ more.toList)] := by
  obtain ⟨ps, last, hspelled, hpieces⟩ := pieces_append_name p.text.toList hslash
  obtain ⟨hnames, hup⟩ := namesOf_long (show 2 < (last ++ more.toList).length by simp; omega)
  refine ⟨ps, last, hspelled, ?_⟩
  rw [lexical_eq, suffixed, String.toList_append, hpieces, placeOf_append, hnames, List.foldl_cons,
    List.foldl_nil, step, if_neg hup]

/-- Different characters after a path lead to different places. -/
theorem lexical_suffixed_injective (p : Path) {more other : String}
    (hslash : '/' ∉ more.toList ∧ '/' ∉ other.toList)
    (hlong : 2 < more.toList.length ∧ 2 < other.toList.length)
    (h : lexical (p.suffixed more) = lexical (p.suffixed other)) : more = other := by
  obtain ⟨ps, last, hspelled, hplace⟩ := lexical_suffixed p hslash.1 hlong.1
  obtain ⟨ps', last', hspelled', hplace'⟩ := lexical_suffixed p hslash.2 hlong.2
  obtain ⟨-, hlast⟩ := List.append_inj' (hspelled.symm.trans hspelled') rfl
  obtain rfl : last = last' := List.head_eq_of_cons_eq hlast
  rw [hplace, hplace'] at h
  have hname := List.head_eq_of_cons_eq (List.append_inj' h rfl).2
  have hlist := congrArg String.toList hname
  rw [String.toList_ofList, String.toList_ofList, List.append_cancel_left_eq] at hlist
  exact String.toList_inj.mp hlist

/-- A path with more characters leads to a name that ends in them. -/
theorem ends_suffixed (p : Path) {more : String} (hslash : '/' ∉ more.toList)
    (hlong : 2 < more.toList.length) : Ends (lexical (p.suffixed more)) more := by
  obtain ⟨ps, last, -, hplace⟩ := lexical_suffixed p hslash hlong
  exact ⟨_, _, hplace, by simp⟩

theorem ends_temporary (p : Path) : Ends (lexical (temporary p)) ".tmp" :=
  ends_suffixed p (by decide) (by decide)

/-- Places whose names end differently are different. -/
theorem Ends.ne {place other : Place} {ending ending' : String} (h : Ends place ending)
    (h' : Ends other ending') (hne : ¬ending.toList <:+ ending'.toList ∧ ¬ending'.toList <:+ ending.toList) :
    place ≠ other := by
  rintro rfl
  obtain ⟨above, name, hplace, hending⟩ := h
  obtain ⟨above', name', hplace', hending'⟩ := h'
  obtain rfl : name = name' := by
    have heq := hplace.symm.trans hplace'
    simpa using congrArg List.getLast? heq
  rcases List.suffix_or_suffix_of_suffix hending hending' with hsuffix | hsuffix
  · exact hne.1 hsuffix
  · exact hne.2 hsuffix

end Disk

end SceneDebugger
