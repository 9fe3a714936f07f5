import SceneDebugger.Proofs.Digest.Sha256
import SceneDebugger.Proofs.Source.Storage
import SceneDebugger.Proofs.Workspace.History

/-!
# SceneDebugger.Proofs.Workspace.Contents — what is read from the files of a project

Each file beside the text of a script holds what was written to it last.  What the debugger reads there
is therefore known from the history of the project.

* `Filing.content?_append`, `Filing.exists_of_content?`: where a content was written.
* `Workspace.hashIs_iff`, `Workspace.loadExps_eq_ok_iff`: the recorded hash, the text and its map.
-/

namespace SceneDebugger

namespace Filing

variable {history more : List Filing} {x : Filing} {a : ProjectFile} {file text : String}

/-! ### What was written last -/

theorem foldl_written (history : List Filing) (a : ProjectFile) (held : Option String) :
    history.foldl (fun held x => (x.written? a).or held) held = (content? history a).or held := by
  unfold content?
  induction history generalizing held with
  | nil => rfl
  | cons x rest ih => rw [List.foldl_cons, ih, List.foldl_cons, ih (Option.or _ none), Option.or_none,
      Option.or_assoc]

theorem content?_append (history more : List Filing) (a : ProjectFile) :
    content? (history ++ more) a = (content? more a).or (content? history a) := by
  rw [content?, List.foldl_append, foldl_written]
  rfl

theorem content?_cons (x : Filing) (history : List Filing) (a : ProjectFile) :
    content? (x :: history) a = (content? history a).or (x.written? a) := by
  have hone := content?_append [x] history a
  rwa [show content? [x] a = x.written? a from Option.or_none] at hone

theorem exists_of_content? (h : content? history a = some text) :
    ∃ x ∈ history, x.written? a = some text := by
  induction history with
  | nil => cases h
  | cons x rest ih =>
    rw [content?_cons] at h
    cases hrest : content? rest a with
    | some later =>
      rw [hrest] at h
      obtain ⟨x, hx, hwritten⟩ := ih (hrest.trans h)
      exact ⟨x, List.mem_cons_of_mem _ hx, hwritten⟩
    | none =>
      rw [hrest] at h
      exact ⟨x, List.mem_cons_self, h⟩

theorem content?_isSome (hx : x ∈ history) (hwritten : (x.written? a).isSome) :
    (content? history a).isSome := by
  induction history with
  | nil => cases hx
  | cons first rest ih =>
    rw [content?_cons, Option.isSome_or, Bool.or_eq_true]
    obtain rfl | hx := List.mem_cons.mp hx
    · exact .inr hwritten
    · exact .inl (ih hx)

theorem content?_of_unwritten (h : ∀ x ∈ history, x.written? a = none) :
    content? history a = none := by
  cases hcontent : content? history a with
  | none => rfl
  | some text =>
    obtain ⟨x, hx, hwritten⟩ := exists_of_content? hcontent
    cases (h x hx).symm.trans hwritten

theorem content?_append_of_unwritten (h : ∀ x ∈ more, x.written? a = none) :
    content? (history ++ more) a = content? history a := by
  rw [content?_append, content?_of_unwritten h, Option.none_or]

/-- What concerns another script writes neither the text of a script nor its hash. -/
theorem unwritten_of_other (h : x.file ≠ file) :
    x.written? (.exps file) = none ∧ x.written? (.hash file) = none := by
  cases x with
  | put y =>
    have hne : file ≠ y.file := Ne.symm h
    simp [written?, Deposit.written?, hne]
  | trust other hash =>
    have hne : file ≠ other := Ne.symm h
    simp [written?, hne]

/-- A map was stored as part of a deposit. -/
theorem exists_of_content?_map (h : content? history (.map file) = some text) :
    ∃ y, .put y ∈ history ∧ y.file = file ∧ text = y.map.store := by
  obtain ⟨x, hx, hwritten⟩ := exists_of_content? h
  cases x with
  | put y =>
    simp only [written?, Deposit.written?, Option.ite_none_right_eq_some, Option.some_inj] at hwritten
    exact ⟨y, hx, hwritten.1.1.symm, hwritten.2.symm⟩
  | trust => simp [written?] at hwritten

end Filing

/-- A text is put into the project with a hash that has no white space around it. -/
theorem Workspace.IsProduced.trim_hash {c : Compiler} {y : Deposit} (h : IsProduced c y) :
    String.ofList (Text.trim y.hash.toList) = y.hash := by
  unfold IsProduced at h
  split at h
  next =>
    obtain ⟨disk, paths, compilation, bytes, -, -, -, -, hhash⟩ := h
    rw [hhash, Sha256.trim_hex]
  next =>
    obtain ⟨program, -, bytes, hhash, -⟩ := h
    rw [hhash, Sha256.trim_hex]

namespace Project

variable (p : Project) (usage : PathMap (Std.ExtTreeSet String)) (d : Disk) (file hash : String)

/-! ### The index does not matter -/

theorem hasExps_withUsage : (p.withUsage usage).hasExps d file = p.hasExps d file := by
  have hpath : (p.withUsage usage).expsPath file = p.expsPath file := rfl
  unfold hasExps
  rw [hpath]

theorem hashIs_withUsage : (p.withUsage usage).hashIs d file hash = p.hashIs d file hash := by
  have hpath : (p.withUsage usage).hashPath file = p.hashPath file := rfl
  unfold hashIs
  rw [hpath]

theorem loadExps_withUsage : (p.withUsage usage).loadExps d file = p.loadExps d file := by
  have htext : (p.withUsage usage).expsPath file = p.expsPath file := rfl
  have hmap : (p.withUsage usage).mapPath file = p.mapPath file := rfl
  unfold loadExps loadMap
  rw [htext, hmap]

end Project

namespace Workspace

open Disk Filing

variable [Scripts] {w v : Workspace} {history more : List Filing} {file hash text : String}
  {m : SourceMap}

/-! ### What the files hold -/

theorem read_of_stores {a : ProjectFile} (hs : w.Stores history) (ha : a.IsText) :
    (w.host.disk.read (a.path w.project)).toOption = content? history a :=
  (hs.legible a ha.isRecord).read_toOption.trans (hs.texts a ha)

theorem hashIs_iff (hs : w.Stores history) (hfile : IsScript file) :
    w.project.hashIs w.host.disk file hash = true ↔
      ∃ text, content? history (.hash file) = some text ∧
        String.ofList (Text.trim text.toList) = hash := by
  have hread := read_of_stores (a := .hash file) hs hfile
  rw [show (ProjectFile.hash file).path w.project = w.project.hashPath file from rfl] at hread
  unfold Project.hashIs
  cases hdisk : w.host.disk.read (w.project.hashPath file) with
  | error fault =>
    rw [hdisk] at hread
    simp [← hread, Except.toOption]
  | ok text =>
    rw [hdisk] at hread
    simp [← hread, Except.toOption]

theorem loadExps_eq_ok_iff (hs : w.Stores history) (hfile : IsScript file) :
    w.project.loadExps w.host.disk file = .ok (text, m) ↔
      content? history (.exps file) = some text ∧
        match content? history (.map file) with
        | some stored => SourceMap.restore? stored = some m
        | none => m = {} := by
  have hexps := read_of_stores (a := .exps file) hs hfile
  have hmap := read_of_stores (a := .map file) hs hfile
  rw [show (ProjectFile.exps file).path w.project = w.project.expsPath file from rfl] at hexps
  rw [show (ProjectFile.map file).path w.project = w.project.mapPath file from rfl] at hmap
  rw [← hexps, ← hmap]
  unfold Project.loadExps Project.loadMap
  cases w.host.disk.read (w.project.expsPath file) with
  | error fault => simp [Except.toOption]
  | ok read =>
    cases w.host.disk.read (w.project.mapPath file) with
    | error fault => simp [Except.toOption, Except.map, eq_comm]
    | ok stored =>
      cases hrestored : SourceMap.restore? stored with
      | none => simp [Except.toOption, Except.map, hrestored]
      | some map => simp [Except.toOption, Except.map, hrestored]

theorem read_exps_iff (hs : w.Stores history) (hfile : IsScript file) :
    w.host.disk.read (w.project.expsPath file) = .ok text ↔
      content? history (.exps file) = some text := by
  have hread := read_of_stores (a := .exps file) hs hfile
  rw [show (ProjectFile.exps file).path w.project = w.project.expsPath file from rfl] at hread
  rw [← hread]
  cases w.host.disk.read (w.project.expsPath file) <;> simp [Except.toOption]

/-- A text that can be read can be loaded, since its map was written by the debugger. -/
theorem exists_loadExps_iff (hs : w.Stores history) (hfile : IsScript file) :
    (∃ m, w.project.loadExps w.host.disk file = .ok (text, m)) ↔
      w.host.disk.read (w.project.expsPath file) = .ok text := by
  rw [read_exps_iff hs hfile]
  constructor
  · rintro ⟨m, hload⟩
    exact ((loadExps_eq_ok_iff hs hfile).mp hload).1
  · intro htext
    cases hstored : content? history (.map file) with
    | none => exact ⟨{}, (loadExps_eq_ok_iff hs hfile).mpr ⟨htext, by rw [hstored]⟩⟩
    | some stored =>
      obtain ⟨y, -, -, rfl⟩ := exists_of_content?_map hstored
      refine ⟨y.map, (loadExps_eq_ok_iff hs hfile).mpr ⟨htext, ?_⟩⟩
      rw [hstored]
      exact SourceMap.restore?_store y.map

/-! ### What concerns other scripts -/

theorem hashIs_of_others (hs : w.Stores history) (hv : v.Stores (history ++ more))
    (hfile : IsScript file) (hmore : ∀ x ∈ more, x.file ≠ file) (hash : String) :
    v.project.hashIs v.host.disk file hash = w.project.hashIs w.host.disk file hash := by
  rw [Bool.eq_iff_iff, hashIs_iff hv hfile, hashIs_iff hs hfile,
    content?_append_of_unwritten fun x hx => (unwritten_of_other (hmore x hx)).2]

theorem read_exps_of_others (hs : w.Stores history) (hv : v.Stores (history ++ more))
    (hfile : IsScript file) (hmore : ∀ x ∈ more, x.file ≠ file) :
    v.host.disk.read (v.project.expsPath file) = .ok text ↔
      w.host.disk.read (w.project.expsPath file) = .ok text := by
  rw [read_exps_iff hv hfile, read_exps_iff hs hfile,
    content?_append_of_unwritten fun x hx => (unwritten_of_other (hmore x hx)).1]

end Workspace

end SceneDebugger
