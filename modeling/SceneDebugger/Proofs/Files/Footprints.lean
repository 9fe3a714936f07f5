import Mathlib.Data.List.TakeWhile
import SceneDebugger.Proofs.Files.Names

/-!
# SceneDebugger.Proofs.Files.Footprints — series of written files

What is done to a disk is told by the paths at which files were written whole.  A file stays as it is
unless one of these paths can lead to its place.

A path can be spelled so that it leads to a place by way of directories below it.  No such way is open
while there is a file at the place, as nothing is below a file.

* `Disk.Rewrites`: a series of files written whole, or not written.
* `Disk.Misses`: a path that leads elsewhere for as long as a file stays.
* `Disk.Rewrites.spares`: a file that all paths of a series miss stays.
* `Disk.misses_withExtension`: a path with an extension misses files whose names end differently.
-/

namespace SceneDebugger

namespace Disk

open SceneDebugger.Path

variable {d d' d'' : Disk} {p q : Path} {place start other : Place} {paths more : Path → Prop}

/-! ### Series -/

/-- Files at some paths were written whole, or could not be, one after the other.  Which coming writes
the host refuses is left open. -/
inductive Rewrites (paths : Path → Prop) : Disk → Disk → Prop where
  | refl (d : Disk) : Rewrites paths d d
  | step {d d' : Disk} (h : Rewrites paths d d') {q : Path} (hq : paths q) (text : String) :
    Rewrites paths d (d'.replace q text).2
  | refusals {d d' d'' : Disk} (h : Rewrites paths d d') (hnodes : d''.nodes = d'.nodes) :
    Rewrites paths d d''

theorem Rewrites.trans (h : Rewrites paths d d') (h' : Rewrites paths d' d'') :
    Rewrites paths d d'' := by
  induction h' with
  | refl => exact h
  | step _ hq text ih => exact .step ih hq text
  | refusals _ hnodes ih => exact .refusals ih hnodes

theorem Rewrites.mono (h : Rewrites paths d d') (hmore : ∀ q, paths q → more q) :
    Rewrites more d d' := by
  induction h with
  | refl => exact .refl _
  | step _ hq text ih => exact .step ih (hmore _ hq) text
  | refusals _ hnodes ih => exact .refusals ih hnodes

theorem rewrites_replace (hq : paths q) (d : Disk) (text : String) :
    Rewrites paths d (d.replace q text).2 := .step (.refl d) hq text

/-! ### Files that stay -/

/-- For as long as the file at a place is as on the disk, if there is one, the path leads elsewhere. -/
def Misses (d : Disk) (place : Place) (q : Path) : Prop :=
  ∀ e : Disk, e.fileAt? place = d.fileAt? place → e.locate q ≠ .ok place

theorem misses_of_ne (h : place ≠ lexical q) : d.Misses place q := fun _ _ hl => h (locate_eq hl)

theorem Misses.congr (h : d.Misses place q) (hsame : d'.fileAt? place = d.fileAt? place) :
    d'.Misses place q :=
  fun e he => h e (he.trans hsame)

/-- A file written whole spares the places that its path misses. -/
theorem spares_replace_of_misses (d : Disk) (text : String) (hmisses : d.Misses place p)
    (htemporary : place ≠ lexical (temporary p)) : d.Spares (d.replace p text).2 place := by
  obtain ⟨made, hmade, ⟨fault, heq⟩ | ⟨written, hw, ⟨fault, heq⟩ | ⟨d', hr, heq⟩⟩⟩ :=
    replace_cases d p text
  · exact heq ▸ hmade place
  · exact heq ▸ (hmade place).trans (spares_write hw htemporary)
  · have hwritten := (hmade place).trans (spares_write hw htemporary)
    obtain ⟨-, new, -, -, hnew, -⟩ := rename_ok hr
    -- the place that the file is moved to is another one, whatever the path spells
    have hplace : place ≠ lexical p := fun hsame =>
      hmisses written hwritten.same (by rw [hnew, locate_eq hnew, hsame])
    exact heq ▸ hwritten.trans (spares_rename hr htemporary hplace)

theorem Rewrites.spares (h : Rewrites paths d d') (hmisses : ∀ q, paths q → d.Misses place q)
    (htemporary : ∀ q, paths q → place ≠ lexical (temporary q)) : d.Spares d' place := by
  induction h with
  | refl => exact .refl _ place
  | step _ hq text ih =>
    exact ih.trans (spares_replace_of_misses _ text ((hmisses _ hq).congr ih.same)
      (htemporary _ hq))
  | refusals _ hnodes ih => exact ih.trans (spares_of_nodes hnodes)

/-! ### Ways around a file -/

/-- A place is below another one. -/
def Inside (place other : Place) : Prop := place <+: other ∧ other ≠ place

theorem inside_concat {name : String} (h : Inside place (other ++ [name])) :
    place <+: other := by
  rcases List.prefix_concat_iff.mp h.1 with heq | habove
  · exact absurd heq.symm h.2
  · exact habove

/-- A step from a directory does not lead below a place that is none. -/
theorem not_inside_step (hplace : d.directoryAt place = false) (hother : d.directoryAt other = true)
    (hout : ¬Inside place other) (name : String) : ¬Inside place (step other name) := by
  have hne : other ≠ place := by
    rintro rfl
    cases hplace.symm.trans hother
  intro hin
  refine hout ⟨?_, hne⟩
  unfold step up at hin
  split_ifs at hin
  · exact hin.1
  · exact inside_concat hin
  · exact hin.1.trans (List.dropLast_prefix other)
  · exact inside_concat hin

theorem not_inside_follow (hplace : d.directoryAt place = false) (hout : ¬Inside place start)
    {names : List String} (h : d.follow start names = .ok other) : ¬Inside place other := by
  induction names generalizing start with
  | nil => exact (Except.ok.inj h) ▸ hout
  | cons name rest ih =>
    rw [follow] at h
    split_ifs at h with hdir
    exact ih (not_inside_step hplace hdir hout name) h

theorem follow_concat {names : List String} {name : String}
    (h : d.follow start (names ++ [name]) = .ok other) :
    ∃ last, d.follow start names = .ok last ∧ d.directoryAt last = true ∧ other = step last name := by
  induction names generalizing start with
  | nil =>
    rw [List.nil_append, follow] at h
    split_ifs at h with hdir
    exact ⟨start, rfl, hdir, (Except.ok.inj h).symm⟩
  | cons first rest ih =>
    rw [List.cons_append, follow] at h
    split_ifs at h with hdir hsize
    obtain ⟨last, hlast, hlastdir, heq⟩ := ih h
    refine ⟨last, ?_, hlastdir, heq⟩
    rw [follow, if_pos hdir, if_pos hsize, hlast]

/-- A walk that ends by leading up does not end at a place with a name, unless that is a directory. -/
theorem follow_up_ne (hplace : d.directoryAt place = false) (hnamed : place.getLast? ≠ some "..")
    (hout : ¬Inside place start) {names : List String}
    (h : d.follow start (names ++ [".."]) = .ok other) : other ≠ place := by
  rintro rfl
  obtain ⟨last, hlast, hdir, heq⟩ := follow_concat h
  have hbelow := not_inside_follow hplace hout hlast
  rw [step, if_pos rfl] at heq
  unfold up at heq
  split_ifs at heq with hroot habove
  · rw [heq, hdir] at hplace
    cases hplace
  · exact hnamed (by rw [heq, List.getLast?_concat])
  · refine hbelow ⟨heq ▸ List.dropLast_prefix last, fun hsame => ?_⟩
    rw [hsame, hplace] at hdir
    cases hdir

theorem Ends.last {ending : String} (h : Ends place ending) (hlong : 2 < ending.toList.length) :
    place.getLast? ≠ some ".." ∧ place ≠ ["/"] ∧ place ≠ [] := by
  obtain ⟨above, name, rfl, hending⟩ := h
  have hname : 2 < name.toList.length := Nat.lt_of_lt_of_le hlong hending.length_le
  refine ⟨?_, ?_, by simp⟩
  · rw [List.getLast?_concat]
    intro heq
    rw [Option.some_inj.mp heq] at hname
    exact absurd hname (by decide)
  · intro heq
    have hroot : name = "/" := by simpa using congrArg List.getLast? heq
    rw [hroot] at hname
    exact absurd hname (by decide)

/-- No directory is where a file with a name is. -/
theorem Ends.not_directoryAt {ending : String} (h : Ends place ending)
    (hlong : 2 < ending.toList.length) (hfile : (d.fileAt? place).isSome = true) :
    d.directoryAt place = false := by
  obtain ⟨text, htext⟩ := Option.isSome_iff_exists.mp hfile
  obtain ⟨hup, hroot, hne⟩ := h.last hlong
  obtain ⟨above, name, rfl, -⟩ := h
  have habove : name ≠ ".." := fun heq => hup (by rw [List.getLast?_concat, heq])
  unfold directoryAt
  rw [lookup_of_fileAt? htext]
  simp [habove, hroot]

/-- A walk starts at a place that is not inside one with a name. -/
theorem Ends.not_inside_start {ending : String} (h : Ends place ending)
    (hlong : 2 < ending.toList.length) (absolute : Bool) :
    ¬Inside place (if absolute then ["/"] else []) := by
  obtain ⟨-, -, hnil⟩ := h.last hlong
  rintro ⟨habove, hother⟩
  cases absolute with
  | true =>
    rcases List.prefix_concat_iff.mp (show place <+: [] ++ ["/"] from habove) with heq | heq
    · exact hother heq.symm
    · exact hnil (List.prefix_nil.mp heq)
  | false => exact hnil (List.prefix_nil.mp habove)

/-- A path that ends by leading up misses a file with a name. -/
theorem misses_of_up {ending : String} (h : Ends place ending) (hlong : 2 < ending.toList.length)
    (hfile : (d.fileAt? place).isSome = true) {above : List String}
    (hnames : names p = above ++ [".."]) : d.Misses place p := by
  intro e he hl
  obtain ⟨-, hfollow, -⟩ := locate_ok_iff.mp hl
  have hdir : e.directoryAt place = false := h.not_directoryAt hlong (he ▸ hfile)
  rw [hnames] at hfollow
  exact follow_up_ne hdir (h.last hlong).1 (h.not_inside_start hlong _) hfollow rfl

/-! ### Paths with an extension -/

theorem namesOf_eq_nil {ps : List (List Char)} (h : lastPiece? ps = none) : namesOf ps = [] := by
  unfold lastPiece? at h
  split at h
  · next hnil =>
    exact namesOf_of_silent fun piece hpiece =>
      List.dropWhile_eq_nil_iff.mp hnil piece (List.mem_reverse.mpr hpiece)
  · cases h

/-- The last piece that is a component gives the last name. -/
theorem namesOf_lastPiece? {ps before : List (List Char)} {last : List Char}
    (h : lastPiece? ps = some (before, last)) :
    namesOf ps = namesOf before ++ [String.ofList last] := by
  unfold lastPiece? at h
  split at h
  · cases h
  · next found rest hrest =>
    obtain ⟨rfl, rfl⟩ : rest.reverse = before ∧ found = last := by simpa using h
    have hsplit := List.takeWhile_append_dropWhile (p := isSilent) (l := ps.reverse)
    rw [hrest] at hsplit
    have hlast : isSilent found = false := by
      have hhead := List.head?_dropWhile_not isSilent ps.reverse
      rw [hrest] at hhead
      exact hhead
    have hps : ps = (found :: rest).reverse ++ (ps.reverse.takeWhile isSilent).reverse := by
      rw [← List.reverse_append, hsplit, List.reverse_reverse]
    have htail : namesOf (ps.reverse.takeWhile isSilent).reverse = [] :=
      namesOf_of_silent fun piece hpiece => List.mem_takeWhile_imp (List.mem_reverse.mp hpiece)
    rw [hps, namesOf_append, htail, List.append_nil, List.reverse_cons, namesOf_append]
    congr 1
    simp [namesOf, hlast]

/-- The names of a path are given by its pieces. -/
theorem names_split (p : Path) : names p = namesOf p.split.2 := rfl

/-- A path with an extension misses a file whose name ends differently, however the path is spelled. -/
theorem misses_withExtension {ending extension : String} (h : Ends place ending)
    (hlong : 2 < ending.toList.length) (hfile : (d.fileAt? place).isSome = true)
    (hextension : '/' ∉ extension.toList ∧ 1 < extension.toList.length)
    (hne : ¬ending.toList <:+ ("." ++ extension).toList ∧
      ¬("." ++ extension).toList <:+ ending.toList) (p : Path) :
    d.Misses place (p.withExtension extension) := by
  unfold withExtension
  have hnames := names_split p
  generalize p.split = parts at hnames
  obtain ⟨first, ps⟩ := parts
  dsimp only at hnames ⊢
  cases hlast : lastPiece? ps with
  | none =>
    obtain ⟨-, hroot, hnil⟩ := h.last hlong
    refine misses_of_ne ?_
    rw [lexical, hnames, namesOf_eq_nil hlast, List.foldl_nil]
    split_ifs
    · exact hroot
    · exact hnil
  | some found =>
    obtain ⟨before, last⟩ := found
    dsimp only
    split_ifs with hdots
    · exact misses_of_up h hlong hfile (hnames.trans (by rw [namesOf_lastPiece? hlast, hdots]))
    · refine misses_of_ne (h.ne ?_ hne)
      have hsuffixed : (⟨(unsplit first (before ++ [stemOf last])).text ++ "." ++ extension⟩ : Path) =
          (unsplit first (before ++ [stemOf last])).suffixed ("." ++ extension) := by
        rw [suffixed, String.append_assoc]
      rw [hsuffixed]
      exact ends_suffixed _ (by simp [hextension.1]) (by simp; omega)

end Disk

end SceneDebugger
