import SceneDebugger.Proofs.Files.PathSets
import SceneDebugger.Proofs.Workspace.Sidecars

/-!
# SceneDebugger.Proofs.Workspace.IncludeIndex — the include index, in memory and on the disk

The include index is written after every note.  When a script was compiled, notes are taken where the
list on the disk differs from the files that the script calls now, and the list is written last.

* `Project.Notes`: what an index says of a script and a shared file.
* `Project.usageOn`: the index on the disk, which a project that is opened has (`load_eq`).
* `Project.Touches`: what an operation leaves alone.
* `Project.Indexed`: where a list agrees with the index in memory, the index on the disk does too.
* `Project.Indexed.updateUsage`: what becomes of all three when the called files are recorded.
-/

namespace SceneDebugger

open Disk

namespace Project

/-- A way to change an index in what it says about one script and one file. -/
abbrev Change : Type :=
  PathMap (Std.ExtTreeSet String) → Path → String → PathMap (Std.ExtTreeSet String)

variable {p p' p'' : Project} {d d' d'' : Disk} {a b : ProjectFile} {file other text : String}
  {touched : ProjectFile → Prop}
  {path q : Path} {usage : PathMap (Std.ExtTreeSet String)} {included : PathSet} {e : Failure}

/-! ### What an index says -/

/-- The index has a script among those that call a shared file. -/
def Notes (usage : PathMap (Std.ExtTreeSet String)) (path : Path) (file : String) : Prop :=
  file ∈ (usage.at? path).getD ∅

theorem mem_dependents : file ∈ p.dependents path ↔ Notes p.usage path file := by
  unfold dependents Notes
  cases p.usage.at? path with
  | none => simp
  | some users => simp [Std.ExtTreeSet.mem_toList]

theorem notes_addUser : Notes (addUser usage q other) path file ↔
    path.key = q.key ∧ file = other ∨ Notes usage path file := by
  unfold Notes addUser
  rw [PathMap.at?_put]
  split
  next hkey =>
    rw [Option.getD_some, Std.ExtTreeSet.mem_insert, Std.compare_eq_iff_eq,
      PathMap.at?_congr usage hkey]
    simp [hkey, eq_comm]
  next hkey => simp [hkey]

theorem notes_removeUser : Notes (removeUser usage q other) path file ↔
    ¬(path.key = q.key ∧ file = other) ∧ Notes usage path file := by
  unfold Notes removeUser
  split
  next hnone =>
    by_cases hkey : path.key = q.key
    · simp [hkey, PathMap.at?_congr usage hkey, hnone]
    · simp [hkey]
  next users hsome =>
    have herase : file ∈ users.erase other ↔ ¬file = other ∧ file ∈ users := by
      rw [Std.ExtTreeSet.mem_erase, ne_eq, Std.compare_eq_iff_eq, eq_comm]
    split
    next hempty =>
      have hnone : file ∉ users.erase other := by
        rw [Std.ExtTreeSet.isEmpty_iff.mp hempty]
        exact Std.ExtTreeSet.not_mem_empty
      rw [PathMap.at?_without]
      by_cases hkey : path.key = q.key
      · simpa [hkey, PathMap.at?_congr usage hkey, hsome] using mt herase.mpr hnone
      · simp [hkey]
    next hrest =>
      rw [PathMap.at?_put]
      by_cases hkey : path.key = q.key
      · simp [hkey, PathMap.at?_congr usage hkey, hsome, herase]
      · simp [hkey]

/-! ### What is on the disk -/

/-- The include index in the file of the project, empty if there is none that can be understood. -/
def usageOn (p : Project) (d : Disk) : PathMap (Std.ExtTreeSet String) :=
  match d.read p.usagePath with
  | .ok text => ((Json.parse? text).bind usageOfJson?).getD ∅
  | .error _ => ∅

/-- A project that is opened has the index that is on the disk. -/
theorem load_eq (h : Host) (p : Project) :
    (load h p.root p.romName).1 = { p with usage := p.usageOn h.disk } := by
  have hpath : usagePath { root := p.root, romName := p.romName } = p.usagePath := rfl
  unfold load usageOn
  dsimp only
  rw [hpath]
  cases h.disk.read p.usagePath with
  | error fault => rfl
  | ok text =>
    dsimp only
    cases (Json.parse? text).bind usageOfJson? <;> rfl

theorem disk_load (h : Host) (root : Path) (romName : String) :
    (load h root romName).2.disk = h.disk := by
  unfold load
  dsimp only
  split
  next => rfl
  next => split <;> rfl

theorem usageOn_eq (p : Project) (d : Disk) : p.usageOn d =
    ((d.read p.usagePath).toOption.bind fun text => (Json.parse? text).bind usageOfJson?).getD ∅ := by
  unfold usageOn
  cases d.read p.usagePath <;> rfl

theorem inclusions_eq (p : Project) (d : Disk) (file : String) : p.inclusions d file =
    ((d.read (p.inclusionPath file)).toOption.bind fun text =>
      (Json.parse? text).bind PathSet.ofJson?).getD ∅ := by
  unfold inclusions
  cases d.read (p.inclusionPath file) <;> rfl

theorem usageOn_of_spares [Scripts] (hd : p.Legible d)
    (h : d.Spares d' (ProjectFile.usage.place p)) : p.usageOn d' = p.usageOn d := by
  have hread := read_of_spares (a := .usage) hd trivial h
  rw [usageOn_eq, usageOn_eq, show p.usagePath = ProjectFile.usage.path p from rfl, hread]

theorem inclusions_of_spares [Scripts] (hd : p.Legible d) (hfile : IsScript file)
    (h : d.Spares d' ((ProjectFile.inclusions file).place p)) :
    p.inclusions d' file = p.inclusions d file := by
  have hread := read_of_spares (a := .inclusions file) hd hfile h
  rw [inclusions_eq, inclusions_eq,
    show p.inclusionPath file = (ProjectFile.inclusions file).path p from rfl, hread]

/-- An index that was written is the one on the disk. -/
theorem usageOn_of_stored (hstored : p.storeUsage d = (.ok (), d')) : p.usageOn d' = p.usage := by
  unfold storeUsage at hstored
  have hread := read_of_replace (replace_of_store hstored)
  rw [usageOn, hread]
  dsimp only
  rw [usage_of_pretty, Option.getD_some]

/-- A list of called files that was written lists the places of the set. -/
theorem has_of_stored (hstored : p.saveInclusions d file included = (.ok (), d')) (path : Path) :
    (p.inclusions d' file).has path = included.has path := by
  obtain ⟨s, hs, hhas⟩ := included.has_of_pretty
  unfold saveInclusions at hstored
  have hread := read_of_replace (replace_of_store hstored)
  have hset : p.inclusions d' file = s := by
    unfold inclusions
    rw [hread]
    dsimp only
    rw [hs, Option.getD_some]
  rw [hset, hhas]

/-! ### Notes -/

/-- The project with another index. -/
def withUsage (p : Project) (usage : PathMap (Std.ExtTreeSet String)) : Project := { p with usage }

theorem withUsage_usage (p : Project) (usage : PathMap (Std.ExtTreeSet String)) :
    (p.withUsage usage).usage = usage := rfl

theorem usageOn_withUsage (p : Project) (usage : PathMap (Std.ExtTreeSet String)) (d : Disk) :
    (p.withUsage usage).usageOn d = p.usageOn d := rfl

theorem inclusions_withUsage (p : Project) (usage : PathMap (Std.ExtTreeSet String)) (d : Disk)
    (file : String) : (p.withUsage usage).inclusions d file = p.inclusions d file := by
  have hpath : (p.withUsage usage).inclusionPath file = p.inclusionPath file := rfl
  rw [inclusions_eq, inclusions_eq, hpath]

theorem place_withUsage (p : Project) (usage : PathMap (Std.ExtTreeSet String)) (a : ProjectFile) :
    a.place (p.withUsage usage) = a.place p := by cases a <;> rfl

/-- The change settles what the index says about one script and one file, and nothing else. -/
def Settles (change : Change) (value : Bool) : Prop :=
  ∀ usage q other path file, Notes (change usage q other) path file ↔
    if path.key = q.key ∧ file = other then value = true else Notes usage path file

theorem settles_addUser : Settles addUser true := by
  intro usage q other path file
  rw [notes_addUser]
  split <;> simp_all

theorem settles_removeUser : Settles removeUser false := by
  intro usage q other path file
  rw [notes_removeUser]
  split <;> simp_all

/-- The notes are changes of the index in memory, each written at once. -/
def Takes (note : Project → Disk → Path → String → Except Failure Unit × Project × Disk)
    (change : Change) : Prop :=
  ∀ p d q file, note p d q file =
    (((p.withUsage (change p.usage q file)).storeUsage d).1,
      p.withUsage (change p.usage q file), ((p.withUsage (change p.usage q file)).storeUsage d).2)

theorem takes_addUsage : Takes addUsage addUser := fun _ _ _ _ => rfl

theorem takes_removeUsage : Takes removeUsage removeUser := fun _ _ _ _ => rfl

/-- The first note could not be written, or the others follow. -/
theorem noteAll_cons {note : Project → Disk → Path → String → Except Failure Unit × Project × Disk}
    {change : Change} (hnote : Takes note change) {paths : List Path} {result : Except Failure Unit}
    (hrun : Project.noteAll note file (q :: paths) p d = (result, p', d')) :
    ∃ usage first d₁, usage = change p.usage q file ∧ (p.withUsage usage).storeUsage d = (first, d₁) ∧
      ((∃ e, first = .error e ∧ result = .error e ∧ p' = p.withUsage usage ∧ d' = d₁) ∨
        first = .ok () ∧
          Project.noteAll note file paths (p.withUsage usage) d₁ = (result, p', d')) := by
  rw [Project.noteAll, hnote] at hrun
  cases hstored : (p.withUsage (change p.usage q file)).storeUsage d with
  | mk first d₁ =>
    rw [hstored] at hrun
    refine ⟨_, first, d₁, rfl, hstored, ?_⟩
    generalize change p.usage q file = usage at hrun
    cases first with
    | error e =>
      obtain ⟨rfl, rfl, rfl⟩ : .error e = result ∧ p.withUsage usage = p' ∧ d₁ = d' := by
        simpa using hrun
      exact .inl ⟨e, rfl, rfl, rfl, rfl⟩
    | ok => exact .inr ⟨rfl, hrun⟩

/-- The called files of a script are recorded in three parts, up to what cannot be written: those that
it calls no more, those that it calls now, and the list. -/
theorem updateUsage_cases {result : Except Failure Unit}
    (hrun : p.updateUsage d file included = (result, p', d')) :
    ∃ first p₁ d₁, Project.noteAll removeUsage file ((p.inclusions d file).minus included) p d =
        (first, p₁, d₁) ∧
      ((∃ e, first = .error e ∧ result = .error e ∧ p' = p₁ ∧ d' = d₁) ∨ first = .ok () ∧
        ∃ second p₂ d₂,
          Project.noteAll addUsage file (included.minus (p.inclusions d file)) p₁ d₁ =
            (second, p₂, d₂) ∧
          ((∃ e, second = .error e ∧ result = .error e ∧ p' = p₂ ∧ d' = d₂) ∨ second = .ok () ∧
            p' = p₂ ∧ p₂.saveInclusions d₂ file included = (result, d'))) := by
  unfold Project.updateUsage at hrun
  dsimp only at hrun
  cases hfirst : Project.noteAll removeUsage file ((p.inclusions d file).minus included) p d with
  | mk first rest =>
  obtain ⟨p₁, d₁⟩ := rest
  rw [hfirst] at hrun
  refine ⟨first, p₁, d₁, rfl, ?_⟩
  cases first with
  | error e =>
    obtain ⟨rfl, rfl, rfl⟩ : .error e = result ∧ p₁ = p' ∧ d₁ = d' := by simpa using hrun
    exact .inl ⟨e, rfl, rfl, rfl, rfl⟩
  | ok =>
  dsimp only at hrun
  cases hsecond : Project.noteAll addUsage file (included.minus (p.inclusions d file)) p₁ d₁ with
  | mk second rest =>
  obtain ⟨p₂, d₂⟩ := rest
  rw [hsecond] at hrun
  refine .inr ⟨rfl, second, p₂, d₂, rfl, ?_⟩
  cases second with
  | error e =>
    obtain ⟨rfl, rfl, rfl⟩ : .error e = result ∧ p₂ = p' ∧ d₂ = d' := by simpa using hrun
    exact .inl ⟨e, rfl, rfl, rfl, rfl⟩
  | ok =>
    obtain ⟨rfl, rfl, rfl⟩ : (p₂.saveInclusions d₂ file included).1 = result ∧ p₂ = p' ∧
        (p₂.saveInclusions d₂ file included).2 = d' := by simpa using hrun
    exact .inr ⟨rfl, rfl, rfl⟩

/-! ### What was touched -/

variable [Scripts]

/-- The index in memory may be another one, and of the files of the EXPS texts at most some were
touched. -/
structure Touches (p : Project) (d : Disk) (touched : ProjectFile → Prop) (p' : Project) (d' : Disk) :
    Prop where
  usage : ∃ usage, p' = p.withUsage usage
  legible : p.Legible d → p'.Legible d'
  spares : ∀ a : ProjectFile, a.IsRecord → ¬touched a → d.Spares d' (a.place p)

theorem Touches.refl (p : Project) (d : Disk) (touched : ProjectFile → Prop) :
    p.Touches d touched p d := ⟨⟨p.usage, rfl⟩, id, fun _ _ _ => .refl _ _⟩

theorem Touches.trans (h : p.Touches d touched p' d') (h' : p'.Touches d' touched p'' d'') :
    p.Touches d touched p'' d'' := by
  obtain ⟨usage, rfl⟩ := h.usage
  obtain ⟨later, rfl⟩ := h'.usage
  exact ⟨⟨later, rfl⟩, fun hd => h'.legible (h.legible hd), fun a ha hnot =>
    (h.spares a ha hnot).trans (place_withUsage p usage a ▸ h'.spares a ha hnot)⟩

theorem Touches.mono {more : ProjectFile → Prop} (h : p.Touches d touched p' d')
    (hmore : ∀ a, touched a → more a) : p.Touches d more p' d' :=
  ⟨h.usage, h.legible, fun a ha hnot => h.spares a ha fun ht => hnot (hmore a ht)⟩

/-- The list of a script stays unless it is touched. -/
theorem Touches.inclusions (h : p.Touches d touched p' d') (hd : p.Legible d)
    (hfile : IsScript file) (hnot : ¬touched (.inclusions file)) :
    p'.inclusions d' file = p.inclusions d file := by
  obtain ⟨usage, rfl⟩ := h.usage
  rw [inclusions_withUsage]
  exact inclusions_of_spares hd hfile (h.spares (.inclusions file) hfile hnot)

/-- The index on the disk stays unless it is touched. -/
theorem Touches.usageOn (h : p.Touches d touched p' d') (hd : p.Legible d)
    (hnot : ¬touched .usage) : p'.usageOn d' = p.usageOn d := by
  obtain ⟨usage, rfl⟩ := h.usage
  rw [usageOn_withUsage]
  exact usageOn_of_spares hd (h.spares .usage trivial hnot)

/-- Whatever comes of a note, it leaves everything but the index alone. -/
theorem touches_storeUsage (p : Project) (usage : PathMap (Std.ExtTreeSet String)) (d : Disk) :
    p.Touches d (· = .usage) (p.withUsage usage) ((p.withUsage usage).storeUsage d).2 := by
  unfold storeUsage
  exact ⟨⟨usage, rfl⟩, fun hd => legible_store (b := .usage) hd trivial _ _,
    fun a ha hne => spares_store (b := .usage) ha trivial hne p d _ _⟩

/-- A note that cannot be written leaves the index on the disk alone. -/
theorem usageOn_of_storeUsage_error (hd : p.Legible d)
    (h : (p.withUsage usage).storeUsage d = (.error e, d')) : p.usageOn d' = p.usageOn d :=
  usageOn_of_spares hd (spares_store_of_error (a := .usage) trivial h)

/-- Whatever comes of writing the list of a script, everything else is left alone. -/
theorem touches_saveInclusions (p : Project) (d : Disk) (hfile : IsScript file)
    (included : PathSet) :
    p.Touches d (· = .inclusions file) p (p.saveInclusions d file included).2 := by
  unfold saveInclusions
  exact ⟨⟨p.usage, rfl⟩, fun hd => legible_store (b := .inclusions file) hd hfile.named _ _,
    fun a ha hne => spares_store (b := .inclusions file) ha hfile.named hne p d _ _⟩

/-- A list that cannot be written leaves all lists alone. -/
theorem inclusions_saveInclusions_of_error (hd : p.Legible d) (hother : IsScript other)
    (h : p.saveInclusions d file included = (.error e, d')) :
    p.inclusions d' other = p.inclusions d other :=
  inclusions_of_spares hd hother (spares_store_of_error (a := .inclusions other) hother.named h)

/-! ### The index in memory and the one on the disk -/

/-- Where the list of a script agrees with the index in memory, the index on the disk does as well. -/
structure Indexed (p : Project) (d : Disk) : Prop where
  legible : p.Legible d
  follows : ∀ file, IsScript file → ∀ path,
    ((p.inclusions d file).has path = true ↔ Notes p.usage path file) →
      (Notes (p.usageOn d) path file ↔ Notes p.usage path file)

/-- Neither the index nor a list is touched. -/
theorem Indexed.frame (h : p.Indexed d) (ht : p.Touches d touched p d') (husage : ¬touched .usage)
    (hlists : ∀ file, ¬touched (.inclusions file)) : p.Indexed d' := by
  refine ⟨ht.legible h.legible, fun file hfile path hsame => ?_⟩
  rw [ht.usageOn h.legible husage]
  rw [ht.inclusions h.legible hfile (hlists file)] at hsame
  exact h.follows file hfile path hsame

/-- A note about a script and a file of which its list says the opposite. -/
theorem Indexed.note (h : p.Indexed d) {value : Bool} {change : Change} (hchange : Settles change value)
    (hq : (p.inclusions d file).has q = !value) :
    (p.withUsage (change p.usage q file)).Indexed
      ((p.withUsage (change p.usage q file)).storeUsage d).2 := by
  have hnotes := hchange p.usage q file
  generalize change p.usage q file = usage at hnotes
  have ht := touches_storeUsage p usage d
  refine ⟨ht.legible h.legible, fun g hg path hsame => ?_⟩
  rw [ht.inclusions h.legible hg nofun, withUsage_usage, hnotes] at hsame
  rw [withUsage_usage, usageOn_withUsage]
  cases hstored : (p.withUsage usage).storeUsage d with
  | mk result d' =>
    cases result with
    | ok =>
      have husage := usageOn_of_stored hstored
      rw [usageOn_withUsage, withUsage_usage] at husage
      rw [husage]
    | error e =>
      -- the note is in memory only, but it is about what the list has wrong
      rw [usageOn_of_storeUsage_error h.legible hstored, hnotes]
      split at hsame
      next hself =>
        obtain ⟨hkey, rfl⟩ := hself
        rw [PathSet.has_congr _ hkey, hq] at hsame
        cases value <;> simp at hsame
      next hother =>
        rw [if_neg hother]
        exact h.follows g hg path hsame

/-! ### Several notes -/

theorem touches_noteAll {note : Project → Disk → Path → String → Except Failure Unit × Project × Disk}
    {change : Change} (hnote : Takes note change) {paths : List Path} {result : Except Failure Unit}
    (hrun : Project.noteAll note file paths p d = (result, p', d')) :
    p.Touches d (· = .usage) p' d' := by
  induction paths generalizing p d with
  | nil =>
    obtain ⟨-, rfl, rfl⟩ : .ok () = result ∧ p = p' ∧ d = d' := by
      simpa [Project.noteAll] using hrun
    exact .refl p d _
  | cons q rest ih =>
    obtain ⟨usage, first, d₁, -, hstored, ⟨e, -, -, rfl, rfl⟩ | ⟨-, hrest⟩⟩ := noteAll_cons hnote hrun
    · have ht := touches_storeUsage p usage d
      rwa [hstored] at ht
    · have ht := touches_storeUsage p usage d
      rw [hstored] at ht
      exact ht.trans (ih hrest)

/-- What becomes of several notes about a script. -/
structure Noted (p : Project) (d : Disk) (file : String) (paths : List Path) (value : Bool)
    (result : Except Failure Unit) (p' : Project) (d' : Disk) : Prop where
  indexed : p'.Indexed d'
  others : ∀ path other, other ≠ file → (Notes p'.usage path other ↔ Notes p.usage path other)
  noted : result = .ok () → ∀ path, Notes p'.usage path file ↔
    if ∃ q ∈ paths, q.key = path.key then value = true else Notes p.usage path file
  written : result = .ok () → paths = [] ∧ p' = p ∧ d' = d ∨ p'.usageOn d' = p'.usage

/-- Notes about a script and files of which its list says the opposite. -/
theorem Indexed.noteAll (h : p.Indexed d) (hfile : IsScript file) {value : Bool}
    {note : Project → Disk → Path → String → Except Failure Unit × Project × Disk} {change : Change}
    (hnote : Takes note change) (hchange : Settles change value) {paths : List Path}
    (hpaths : ∀ q ∈ paths, (p.inclusions d file).has q = !value) {result : Except Failure Unit}
    (hrun : Project.noteAll note file paths p d = (result, p', d')) :
    Noted p d file paths value result p' d' := by
  induction paths generalizing p d with
  | nil =>
    obtain ⟨rfl, rfl, rfl⟩ : .ok () = result ∧ p = p' ∧ d = d' := by
      simpa [Project.noteAll] using hrun
    exact ⟨h, fun _ _ _ => .rfl, fun _ path => by simp, fun _ => .inl ⟨rfl, rfl, rfl⟩⟩
  | cons q rest ih =>
    obtain ⟨usage, first, d₁, husage, hstored, hrest⟩ := noteAll_cons hnote hrun
    have hq := h.note hchange (hpaths q List.mem_cons_self)
    have hnotes := hchange p.usage q file
    have hlist := (touches_storeUsage p usage d).inclusions h.legible hfile nofun
    rw [← husage] at hq hnotes
    rw [hstored] at hq hlist
    obtain ⟨e, -, rfl, rfl, rfl⟩ | ⟨rfl, hrest⟩ := hrest
    · refine ⟨hq, fun path g hg => ?_, nofun, nofun⟩
      rw [withUsage_usage, hnotes, if_neg fun h => hg h.2]
    · have hlater := ih hq (fun q' hq' => by
        rw [hlist, hpaths q' (List.mem_cons_of_mem _ hq')]) hrest
      refine ⟨hlater.indexed, fun path g hg => ?_, fun hok path => ?_, fun hok => ?_⟩
      · rw [hlater.others path g hg, withUsage_usage, hnotes, if_neg fun h => hg h.2]
      · rw [hlater.noted hok, withUsage_usage, hnotes]
        by_cases hkey : path.key = q.key <;> simp [hkey, eq_comm (a := q.key)]
      · obtain ⟨-, rfl, rfl⟩ | hwritten := hlater.written hok
        · exact .inr (usageOn_of_stored hstored)
        · exact .inr hwritten

/-! ### The index after a save -/

/-- The list of the files that a script calls is written, after the index or because of nothing
new. -/
theorem Indexed.list (h : p.Indexed d) (hfile : IsScript file)
    (hwritten : p.usageOn d = p.usage ∨ ∀ path, (p.inclusions d file).has path = included.has path) :
    p.Indexed (p.saveInclusions d file included).2 := by
  have ht := touches_saveInclusions p d hfile included
  refine ⟨ht.legible h.legible, fun other hother path hsame => ?_⟩
  rw [ht.usageOn h.legible nofun]
  obtain hall | hlist := hwritten
  · rw [hall]
  · refine h.follows other hother path ?_
    by_cases hne : other = file
    · subst hne
      cases hstored : p.saveInclusions d other included with
      | mk result d' =>
        rw [hstored] at hsame
        cases result with
        | ok => rwa [has_of_stored hstored, ← hlist] at hsame
        | error e => rwa [inclusions_saveInclusions_of_error h.legible hother hstored] at hsame
    · rwa [ht.inclusions h.legible hother fun heq => hne (ProjectFile.inclusions.inj heq)] at hsame

theorem touches_updateUsage (hfile : IsScript file) {result : Except Failure Unit}
    (hrun : p.updateUsage d file included = (result, p', d')) :
    p.Touches d (fun a => a = .usage ∨ a = .inclusions file) p' d' := by
  obtain ⟨first, p₁, d₁, hfirst, ⟨e, -, -, rfl, rfl⟩ | ⟨-, second, p₂, d₂, hsecond, hrest⟩⟩ :=
    updateUsage_cases hrun
  · exact (touches_noteAll takes_removeUsage hfirst).mono fun a => .inl
  · have ht : p.Touches d (· = .usage) p₂ d₂ :=
      (touches_noteAll takes_removeUsage hfirst).trans (touches_noteAll takes_addUsage hsecond)
    obtain ⟨e, -, -, rfl, rfl⟩ | ⟨-, rfl, hlist⟩ := hrest
    · exact ht.mono fun a => .inl
    · have hsaved := touches_saveInclusions p' d₂ hfile included
      rw [hlist] at hsaved
      exact (ht.mono fun a => .inl).trans (hsaved.mono fun a => .inr)

/-- What becomes of the index and the list when the files that a script calls are recorded. -/
structure Recorded (p : Project) (d : Disk) (file : String) (included : PathSet)
    (result : Except Failure Unit) (p' : Project) (d' : Disk) : Prop where
  indexed : p'.Indexed d'
  others : ∀ path other, other ≠ file → (Notes p'.usage path other ↔ Notes p.usage path other)
  listed : result = .ok () → ∀ path, (p'.inclusions d' file).has path = included.has path
  /-- Notes are taken where the list and the text differ. -/
  noted : result = .ok () → ∀ path, Notes p'.usage path file ↔
    if (p.inclusions d file).has path ≠ included.has path then included.has path = true
    else Notes p.usage path file

/-- The files that a script calls are recorded. -/
theorem Indexed.updateUsage (h : p.Indexed d) (hfile : IsScript file) {result : Except Failure Unit}
    (hrun : p.updateUsage d file included = (result, p', d')) :
    Recorded p d file included result p' d' := by
  obtain ⟨first, p₁, d₁, hfirst, hrest⟩ := updateUsage_cases hrun
  have hremoved : Noted p d file ((p.inclusions d file).minus included) false first p₁ d₁ :=
    h.noteAll hfile takes_removeUsage settles_removeUser
      (fun q hq => (PathSet.has_of_mem_minus hq).1) hfirst
  have hlist₁ : p₁.inclusions d₁ file = p.inclusions d file :=
    (touches_noteAll takes_removeUsage hfirst).inclusions h.legible hfile nofun
  obtain ⟨e, -, rfl, rfl, rfl⟩ | ⟨rfl, second, p₂, d₂, hsecond, hrest⟩ := hrest
  · exact ⟨hremoved.indexed, hremoved.others, nofun, nofun⟩
  have hadded : Noted p₁ d₁ file (included.minus (p.inclusions d file)) true second p₂ d₂ :=
    hremoved.indexed.noteAll hfile takes_addUsage settles_addUser
      (fun q hq => by rw [hlist₁, (PathSet.has_of_mem_minus hq).2]; rfl) hsecond
  have hlist₂ : p₂.inclusions d₂ file = p.inclusions d file :=
    ((touches_noteAll takes_addUsage hsecond).inclusions hremoved.indexed.legible hfile nofun).trans
      hlist₁
  have hothers : ∀ path other, other ≠ file →
      (Notes p₂.usage path other ↔ Notes p.usage path other) := fun path other hne =>
    (hadded.others path other hne).trans (hremoved.others path other hne)
  obtain ⟨e, -, rfl, rfl, rfl⟩ | ⟨rfl, rfl, hlist⟩ := hrest
  · exact ⟨hadded.indexed, hothers, nofun, nofun⟩
  have hwritten : p'.usageOn d₂ = p'.usage ∨
      ∀ path, (p'.inclusions d₂ file).has path = included.has path := by
    obtain ⟨hnone, rfl, rfl⟩ | hwritten := hadded.written rfl
    · obtain ⟨hnone', -⟩ | hwritten := hremoved.written rfl
      · right
        intro path
        rw [hlist₁]
        exact PathSet.has_eq_of_minus_nil hnone' hnone path
      · exact .inl hwritten
    · exact .inl hwritten
  have hindexed := hadded.indexed.list hfile hwritten
  rw [hlist] at hindexed
  refine ⟨hindexed, hothers, fun hok path => ?_, fun _ path => ?_⟩
  · subst hok
    exact has_of_stored hlist path
  · simp only [hadded.noted rfl, hremoved.noted rfl, PathSet.exists_mem_minus]
    cases (p.inclusions d file).has path <;> cases included.has path <;> simp

end Project

end SceneDebugger
