import Mathlib.Tactic.SplitIfs
import SceneDebugger.Workspace.Texts

/-!
# SceneDebugger.Proofs.Workspace.Seen — the file that anyone who asks for it gets

A file that is not in use is read from the ROM when it is asked for.  `Workspace.seen?` is the file
either way, so that asking for a file changes nothing: two workspaces that show the same files are
`Workspace.Alike`.

* `Workspace.Outside`: the files in use and the ROM's bytes are the same, but the ROM need not be readable.
* `Workspace.Beside`: only what surrounds the files has changed, which shows in no file.
* `Workspace.Updates`, `Workspace.Changes`: one file, or every file, has changed by a function of it.
* `Workspace.alike_get`, `Workspace.updates_put`: the two ways in which files are touched.
-/

namespace SceneDebugger.Workspace

variable {w w' w'' : Workspace} {name : String} {f : ScriptFile} {change : ScriptFile → ScriptFile}

/-- Files are kept under their own names. -/
def Named (w : Workspace) : Prop := ∀ name f, w.file? name = some f → f.name = name

/-- The file that anyone who asks for it gets. -/
def seen? (w : Workspace) (name : String) : Option ScriptFile := (w.get name).1.toOption

/-! ### What is seen -/

theorem seen?_of_file? (h : w.file? name = some f) : w.seen? name = some f := by
  simp [seen?, get, h, Except.toOption]

theorem seen?_of_absent (h : w.file? name = none) : w.seen? name = (w.fetch name).toOption := by
  simp only [seen?, get, h]
  cases w.fetch name <;> rfl

/-- A file that is read from the ROM is new. -/
theorem eq_of_fetch (h : w.fetch name = .ok f) :
    ∃ program hash, f = { name := name, program := program, hash := hash } := by
  unfold fetch at h
  split at h
  · cases h
  · cases h
  · split at h
    · cases h
    · cases h
      exact ⟨_, _, rfl⟩

/-- A file that is seen but not in use is new. -/
theorem eq_of_seen?_of_absent (h : w.file? name = none) (hs : w.seen? name = some f) :
    ∃ program hash, f = { name := name, program := program, hash := hash } := by
  rw [seen?_of_absent h] at hs
  cases hf : w.fetch name with
  | error e => rw [hf] at hs; cases hs
  | ok g =>
    rw [hf] at hs
    cases hs
    exact eq_of_fetch hf

/-- A file that is seen is in use, or new. -/
theorem seen?_cases (h : w.seen? name = some f) : w.file? name = some f ∨
    w.file? name = none ∧ ∃ program hash, f = { name := name, program := program, hash := hash } := by
  cases hn : w.file? name with
  | none => exact .inr ⟨rfl, eq_of_seen?_of_absent hn h⟩
  | some g =>
    rw [seen?_of_file? hn] at h
    exact .inl h

/-- A stale file is in use. -/
theorem file?_of_stale (hs : w.seen? name = some f) (hstale : f.flags.ramMatches = false) :
    w.file? name = some f := by
  obtain hf | ⟨-, program, hash, rfl⟩ := seen?_cases hs
  · exact hf
  · cases hstale

theorem name_of_seen? (hw : w.Named) (h : w.seen? name = some f) : f.name = name := by
  obtain hf | ⟨-, program, hash, rfl⟩ := seen?_cases h
  · exact hw name f hf
  · rfl

/-! ### Changes around the files -/

/-- The files in use and the bytes in the ROM have not changed.  Whether the ROM can be read may have, so
that a file which is not in use need not be seen any more. -/
structure Outside (w w' : Workspace) : Prop where
  files : w'.files = w.files
  compiler : w'.compiler = w.compiler
  bytes : w'.rom.files = w.rom.files

theorem Outside.refl (w : Workspace) : w.Outside w := ⟨rfl, rfl, rfl⟩

theorem Outside.trans (h : w.Outside w') (h' : w'.Outside w'') : w.Outside w'' :=
  ⟨h'.files.trans h.files, h'.compiler.trans h.compiler, h'.bytes.trans h.bytes⟩

theorem Outside.file? (h : w.Outside w') (name : String) : w'.file? name = w.file? name := by
  simp [Workspace.file?, h.files]

theorem Outside.named (h : w.Outside w') (hw : w.Named) : w'.Named := fun name f hf =>
  hw name f ((h.file? name).symm.trans hf)

/-- Only what surrounds the files has changed. -/
structure Beside (w w' : Workspace) : Prop where
  files : w'.files = w.files
  compiler : w'.compiler = w.compiler
  bytes : w'.rom.files = w.rom.files
  reads : w'.rom.readFails = w.rom.readFails

theorem Beside.refl (w : Workspace) : w.Beside w := ⟨rfl, rfl, rfl, rfl⟩

theorem Beside.trans (h : w.Beside w') (h' : w'.Beside w'') : w.Beside w'' :=
  ⟨h'.files.trans h.files, h'.compiler.trans h.compiler, h'.bytes.trans h.bytes,
    h'.reads.trans h.reads⟩

theorem Beside.outside (h : w.Beside w') : w.Outside w' := ⟨h.files, h.compiler, h.bytes⟩

theorem Beside.file? (h : w.Beside w') (name : String) : w'.file? name = w.file? name :=
  h.outside.file? name

theorem beside_host (w : Workspace) (host : Host) : w.Beside { w with host } :=
  ⟨rfl, rfl, rfl, rfl⟩

theorem beside_send (w : Workspace) (event : Event) : w.Beside (w.send event) := beside_host w _

theorem beside_warn (w : Workspace) (text : String) : w.Beside (w.warn text) := beside_host w _

theorem beside_withDisk (w : Workspace) (disk : Disk) : w.Beside (w.withDisk disk) :=
  beside_host w _

/-! ### Workspaces that show the same files -/

/-- The same files are seen as before, and those in use stay in use. -/
structure Alike (w w' : Workspace) : Prop where
  named : w'.Named
  used : ∀ name, (w.file? name).isSome → (w'.file? name).isSome
  seen : ∀ name, w'.seen? name = w.seen? name

theorem Alike.refl (hw : w.Named) : w.Alike w := ⟨hw, fun _ => id, fun _ => rfl⟩

theorem Alike.trans (h : w.Alike w') (h' : w'.Alike w'') : w.Alike w'' :=
  ⟨h'.named, fun name hn => h'.used name (h.used name hn),
    fun name => (h'.seen name).trans (h.seen name)⟩

/-- A ROM that differs in the bytes of one file shows in no other file, and not in that one either
if it is in use. -/
theorem alike_rom (hw : w.Named) (hfiles : w'.files = w.files) (hcompiler : w'.compiler = w.compiler)
    (hreads : w'.rom.readFails = w.rom.readFails)
    (hbytes : ∀ k, w.file? k = none → w'.rom.files[k]? = w.rom.files[k]?) : w.Alike w' := by
  have hfile : ∀ k, w'.file? k = w.file? k := fun k => by simp [file?, hfiles]
  refine ⟨fun k f hk => hw k f (by rw [← hfile k]; exact hk), fun k hk => by rw [hfile k]; exact hk,
    fun k => ?_⟩
  cases hk : w.file? k with
  | some f => rw [seen?_of_file? hk, seen?_of_file? ((hfile k).trans hk)]
  | none =>
    have hfetch : w'.fetch k = w.fetch k := by
      simp only [fetch, Rom.read, hcompiler, hreads, hbytes k hk]
    rw [seen?_of_absent hk, seen?_of_absent ((hfile k).trans hk), hfetch]

theorem Beside.alike (h : w.Beside w') (hw : w.Named) : w.Alike w' :=
  alike_rom hw h.files h.compiler h.reads fun k _ => by rw [h.bytes]

theorem file?_put (w : Workspace) (f : ScriptFile) (k : String) :
    (w.put f).file? k = if k = f.name then some f else w.file? k := by
  simp only [file?, put, Std.ExtTreeMap.getElem?_insert, Std.compare_eq_iff_eq]
  by_cases h : k = f.name
  · rw [if_pos h, if_pos h.symm]
  · rw [if_neg h, if_neg (Ne.symm h)]

theorem used_put (f : ScriptFile) (h : (w.file? name).isSome) : ((w.put f).file? name).isSome := by
  rw [file?_put]
  split_ifs
  · rfl
  · exact h

theorem named_put (hw : w.Named) (f : ScriptFile) : (w.put f).Named := by
  intro k g hk
  rw [file?_put] at hk
  split_ifs at hk with h
  · cases hk
    exact h.symm
  · exact hw k g hk

theorem seen?_put (w : Workspace) (f : ScriptFile) (k : String) :
    (w.put f).seen? k = if k = f.name then some f else w.seen? k := by
  have hput := file?_put w f k
  by_cases h : k = f.name
  · rw [if_pos h] at hput ⊢
    exact seen?_of_file? hput
  · rw [if_neg h] at hput ⊢
    cases hk : w.file? k with
    | some g => rw [seen?_of_file? hk, seen?_of_file? (hput.trans hk)]
    | none =>
      rw [seen?_of_absent hk, seen?_of_absent (hput.trans hk)]
      rfl

/-- A value of a file is asked for by getting the file. -/
theorem ask_snd {α : Type} (w : Workspace) (name : String) (value : ScriptFile → α) :
    (w.ask name value).2 = (w.get name).2 := by
  unfold ask
  split <;> next heq => rw [heq]

/-- What asking for a file does. -/
theorem get_cases (hw : w.Named) (name : String) :
    (∃ e, w.get name = (.error e, w) ∧ w.seen? name = none) ∨
      ∃ f v, w.get name = (.ok f, v) ∧ w.Alike v ∧ v.file? name = some f ∧ f.name = name ∧
        w.seen? name = some f := by
  cases hn : w.file? name with
  | some f =>
    refine .inr ⟨f, w, by simp [get, hn], .refl hw, hn, hw name f hn, seen?_of_file? hn⟩
  | none =>
    cases hf : w.fetch name with
    | error e =>
      refine .inl ⟨e, by simp [get, hn, hf], ?_⟩
      rw [seen?_of_absent hn, hf]
      rfl
    | ok f =>
      obtain ⟨program, hash, rfl⟩ := eq_of_fetch hf
      have habsent : w.files.contains name = false := by
        rw [Std.ExtTreeMap.contains_eq_isSome_getElem?, show w.files[name]? = none from hn]
        rfl
      have hseen : w.seen? name = some { name, program, hash } := by
        rw [seen?_of_absent hn, hf]
        rfl
      have hget : w.get name = (.ok { name, program, hash }, w.put { name, program, hash }) := by
        simp only [get, hn, hf, insertIfAbsent, habsent, Bool.false_eq_true, if_false]
      refine .inr ⟨_, _, hget, ?_, ?_, rfl, hseen⟩
      · refine ⟨named_put hw _, fun k => used_put _, fun k => ?_⟩
        rw [seen?_put]
        split_ifs with hk
        · rw [hk, hseen]
        · rfl
      · rw [file?_put, if_pos rfl]

theorem alike_get (hw : w.Named) (name : String) : w.Alike (w.get name).2 := by
  obtain ⟨e, hget, -⟩ | ⟨f, v, hget, hv, -⟩ := get_cases hw name
  · rw [hget]
    exact .refl hw
  · rw [hget]
    exact hv

/-! ### Workspaces that differ in one file -/

/-- One file is seen changed by a function of it, the others are seen as before. -/
structure Updates (w w' : Workspace) (name : String) (change : ScriptFile → ScriptFile) : Prop where
  named : w'.Named
  used : ∀ k, (w.file? k).isSome → (w'.file? k).isSome
  seen : ∀ k, w'.seen? k = if k = name then (w.seen? k).map change else w.seen? k

/-- A change that leaves the file as it is seen can be read as any such change. -/
theorem Alike.updates_of_eq (h : w.Alike w') (hc : ∀ f, w.seen? name = some f → change f = f) :
    w.Updates w' name change := by
  refine ⟨h.named, h.used, fun k => ?_⟩
  rw [h.seen k]
  split_ifs with hk
  · subst hk
    cases hs : w.seen? k with
    | none => rfl
    | some f => rw [Option.map_some, hc f hs]
  · rfl

theorem Alike.updates_of_none (h : w.Alike w') (hn : w.seen? name = none)
    (change : ScriptFile → ScriptFile) : w.Updates w' name change :=
  h.updates_of_eq fun f hf => by rw [hn] at hf; cases hf

theorem Alike.trans_updates (h : w.Alike w') (h' : w'.Updates w'' name change) :
    w.Updates w'' name change :=
  ⟨h'.named, fun k hk => h'.used k (h.used k hk), fun k => by rw [h'.seen k, h.seen k]⟩

theorem Updates.trans_alike (h : w.Updates w' name change) (h' : w'.Alike w'') :
    w.Updates w'' name change :=
  ⟨h'.named, fun k hk => h'.used k (h.used k hk), fun k => by rw [h'.seen k, h.seen k]⟩

theorem Updates.trans_beside (h : w.Updates w' name change) (h' : w'.Beside w'') :
    w.Updates w'' name change :=
  h.trans_alike (h'.alike h.named)

theorem Updates.trans {change' : ScriptFile → ScriptFile} (h : w.Updates w' name change)
    (h' : w'.Updates w'' name change') : w.Updates w'' name fun f => change' (change f) := by
  refine ⟨h'.named, fun k hk => h'.used k (h.used k hk), fun k => ?_⟩
  rw [h'.seen k, h.seen k]
  split_ifs
  · rw [Option.map_map]
    rfl
  · rfl

/-- Nothing happens to a file that is not seen. -/
theorem Updates.alike (h : w.Updates w' name change) (hn : w.seen? name = none) : w.Alike w' := by
  refine ⟨h.named, h.used, fun k => ?_⟩
  rw [h.seen k]
  split_ifs with hk
  · rw [hk, hn]
    rfl
  · rfl

theorem updates_put (hw : w.Named) (change : ScriptFile → ScriptFile)
    (hf : w.seen? name = some f) (hc : (change f).name = name) :
    w.Updates (w.put (change f)) name change := by
  refine ⟨named_put hw _, fun k => used_put _, fun k => ?_⟩
  rw [seen?_put, hc]
  split_ifs with hk
  · rw [hk, hf]
    rfl
  · rfl

/-! ### Workspaces that differ in many files -/

/-- Every file is seen changed, each by a function of its own. -/
structure Changes (w w' : Workspace) (change : String → ScriptFile → ScriptFile) : Prop where
  named : w'.Named
  used : ∀ k, (w.file? k).isSome → (w'.file? k).isSome
  seen : ∀ k, w'.seen? k = (w.seen? k).map (change k)

theorem Alike.changes (h : w.Alike w') : w.Changes w' fun _ f => f :=
  ⟨h.named, h.used, fun k => by rw [h.seen k, Option.map_id']⟩

theorem Updates.changes (h : w.Updates w' name change) :
    w.Changes w' fun k f => if k = name then change f else f := by
  refine ⟨h.named, h.used, fun k => ?_⟩
  rw [h.seen k]
  split_ifs
  · rfl
  · rw [Option.map_id']

theorem Changes.trans {c d : String → ScriptFile → ScriptFile} (h : w.Changes w' c)
    (h' : w'.Changes w'' d) : w.Changes w'' fun k f => d k (c k f) :=
  ⟨h'.named, fun k hk => h'.used k (h.used k hk),
    fun k => by rw [h'.seen k, h.seen k, Option.map_map]; rfl⟩

/-- How a file changes matters only where a file is seen. -/
theorem Changes.congr {c d : String → ScriptFile → ScriptFile} (h : w.Changes w' c)
    (hcd : ∀ k f, w.seen? k = some f → c k f = d k f) : w.Changes w' d := by
  refine ⟨h.named, h.used, fun k => ?_⟩
  rw [h.seen k]
  cases hs : w.seen? k with
  | none => rfl
  | some f => rw [Option.map_some, Option.map_some, hcd k f hs]

end SceneDebugger.Workspace
