import Mathlib.Data.List.Induction
import SceneDebugger.Proofs.Ground.Slots
import SceneDebugger.Proofs.Workspace.Changes

/-!
# SceneDebugger.Proofs.Ground.Effects — what the game does to the files that are seen

Each operation of the game is described twice: by the places (`Ground.scriptIn?`) and by how the files
are seen to change (`Workspace.Changes`).

* `Ground.changes_reset`: the files that are in no place any more have left.
* `Ground.changes_place`: the loaded file has entered, and the one it replaced has left unless another
  place still has it.
* `Ground.changes_restore`, `Ground.mem_restore`: a save state, with the files whose bytes it has in an
  older version.
-/

namespace SceneDebugger

/-! ### Files that enter and leave -/

namespace ScriptFile

variable {f : ScriptFile}

theorem left_left (f : ScriptFile) : f.left.left = f.left := rfl

theorem entered_of_inGround (h : f.flags.inGround = true) : f.entered = f := by
  rw [entered, if_pos h, inGround, ← h]

@[simp] theorem entered_inGround (f : ScriptFile) : f.entered.flags.inGround = true := by
  unfold entered
  split_ifs <;> rfl

@[simp] theorem entered_hash (f : ScriptFile) : f.entered.hash = f.hash := by
  unfold entered
  split_ifs <;> rfl

@[simp] theorem entered_marks (f : ScriptFile) : f.entered.marks = f.marks := by
  unfold entered
  split_ifs <;> rfl

/-- Only a file that the game did not hold is stale no more when the game takes it. -/
theorem entered_ramMatches (f : ScriptFile) :
    f.entered.flags.ramMatches = (!f.flags.inGround || f.flags.ramMatches) := by
  cases hin : f.flags.inGround <;> simp [entered, hin, inGround, fresh]

theorem entered_breakpointsOff (f : ScriptFile) :
    f.entered.flags.breakpointsOff = (f.flags.inGround && f.flags.breakpointsOff) := by
  cases hin : f.flags.inGround <;> simp [entered, hin, inGround, fresh]

/-- Some of the scripts that a save state has of a file differ from it. -/
def differsIn (f : ScriptFile) (name : String) (scripts : List LoadedScript) : Bool :=
  scripts.any fun s => s.file == name && s.hash != f.hash

/-- The file after the scripts of a save state were put into their places. -/
def afterRestore (f : ScriptFile) (name : String) (scripts : List LoadedScript) : ScriptFile :=
  if scripts.any fun s => s.file == name then
    if f.differsIn name scripts then f.entered.restored else f.entered
  else f

theorem differsIn_iff {name : String} {scripts : List LoadedScript} :
    f.differsIn name scripts = true ↔ ∃ s ∈ scripts, s.file = name ∧ s.hash ≠ f.hash := by
  simp [differsIn]

theorem differsIn_concat_of_ne (f : ScriptFile) {name : String} {s : LoadedScript}
    (scripts : List LoadedScript) (h : s.file ≠ name) :
    f.differsIn name (scripts ++ [s]) = f.differsIn name scripts := by
  simp [differsIn, h]

theorem differsIn_concat (f : ScriptFile) (name : String) (scripts : List LoadedScript)
    (s : LoadedScript) : f.differsIn name (scripts ++ [s]) =
      (f.differsIn name scripts || (s.file == name && s.hash != f.hash)) := by
  simp [differsIn]

theorem afterRestore_hash (f : ScriptFile) (name : String) (scripts : List LoadedScript) :
    (f.afterRestore name scripts).hash = f.hash := by
  unfold afterRestore
  split_ifs
  · exact entered_hash f
  · exact entered_hash f
  · rfl

theorem afterRestore_concat_of_ne {name : String} {s : LoadedScript} (scripts : List LoadedScript)
    (h : s.file ≠ name) : f.afterRestore name (scripts ++ [s]) = f.afterRestore name scripts := by
  simp [afterRestore, differsIn_concat, h]

/-- A further script of a file: the file enters, and is marked if it is the first that differs. -/
theorem afterRestore_concat_self (f : ScriptFile) (s : LoadedScript) (scripts : List LoadedScript) :
    f.afterRestore s.file (scripts ++ [s]) =
      if s.hash ≠ f.hash ∧ f.differsIn s.file scripts = false
      then (f.afterRestore s.file scripts).entered.restored
      else (f.afterRestore s.file scripts).entered := by
  have hlast : (scripts ++ [s]).any (fun t => t.file == s.file) = true := by simp
  have hnone : scripts.any (fun t => t.file == s.file) = false → f.differsIn s.file scripts = false := by
    simp only [List.any_eq_false, differsIn, Bool.and_eq_true, not_and]
    exact fun h t ht hts => absurd hts (h t ht)
  have hentered : f.entered.entered = f.entered := entered_of_inGround (entered_inGround f)
  have hrestored : f.entered.restored.entered = f.entered.restored :=
    entered_of_inGround (entered_inGround f)
  rw [afterRestore, if_pos hlast, differsIn_concat, afterRestore]
  cases hany : scripts.any (fun t => t.file == s.file) with
  | false =>
    rw [hnone hany]
    by_cases hs : s.hash = f.hash <;> simp [hs]
  | true =>
    cases hd : f.differsIn s.file scripts with
    | true => simp [hrestored]
    | false => by_cases hs : s.hash = f.hash <;> simp [hs, hentered]

end ScriptFile

/-- A file after some of the places that held it were emptied: it has left if no place holds it any
more. -/
inductive ScriptFile.Released (f : ScriptFile) (hashes : Set String) :
    ScriptFile → Set String → Prop where
  | held {hashes' : Set String} (hsub : hashes' ⊆ hashes)
      (hsome : hashes.Nonempty → hashes'.Nonempty) : Released f hashes f hashes'
  | left : Released f hashes f.left ∅

namespace Ground

open Workspace

variable {g : Ground} {w : Workspace}

/-! ### Leaving places -/

theorem changes_leave (hw : w.Named) (files : List String) :
    w.Changes (files.foldl leaveGround w) fun k f => if k ∈ files then f.left else f := by
  induction files generalizing w with
  | nil => exact (Alike.refl hw).changes.congr fun k f _ => by simp
  | cons file files ih =>
    have hfirst := updates_leaveGround hw file
    refine (hfirst.changes.trans (ih hfirst.named)).congr fun k f _ => ?_
    by_cases hk : k = file
    · by_cases hmem : k ∈ files <;> simp [hk, ScriptFile.left_left]
    · simp [hk]

/-- Reporting files that left is the same as dropping those that no place has. -/
theorem releaseAll_eq (next : Ground) (w : Workspace) (files : List String) :
    next.releaseAll w files = (files.filter fun file => !next.holds file).foldl leaveGround w := by
  rw [List.foldl_filter, releaseAll]
  congr
  funext w file
  cases h : next.holds file <;> simp [release, h]

theorem changes_releaseAll (next : Ground) (hw : w.Named) (files : List String) :
    w.Changes (next.releaseAll w files) fun k f =>
      if k ∈ files ∧ next.holds k = false then f.left else f := by
  rw [releaseAll_eq]
  exact (changes_leave hw _).congr fun k f _ => by simp

theorem changes_reset (g : Ground) (hw : w.Named) (keepShared running : Bool) :
    w.Changes (g.reset w keepShared running).2 fun k f =>
      if k ∈ g.dropped keepShared ∧ (g.emptied keepShared running).holds k = false
      then f.left else f :=
  changes_releaseAll _ hw _

theorem released_reset (g : Ground) (keepShared running : Bool) (k : String) (f : ScriptFile) :
    f.Released (g.hashes k)
      (if k ∈ g.dropped keepShared ∧ (g.emptied keepShared running).holds k = false
        then f.left else f)
      ((g.emptied keepShared running).hashes k) := by
  split_ifs with h
  · rw [holds_eq_false_iff.mp h.2]
    exact .left
  · refine .held (hashes_emptied_subset g keepShared running) fun hsome => ?_
    rw [Set.nonempty_iff_ne_empty]
    intro hempty
    have hmem := mem_dropped_of_hashes_emptied g keepShared running hsome hempty
    exact h ⟨hmem, holds_eq_false_iff.mpr hempty⟩

/-! ### Loading a script -/

/-- The hash that is recorded for a file which the game takes. -/
def recordedHash (w : Workspace) (file : String) : String :=
  ((w.seen? file).map ScriptFile.hash).getD ""

theorem updates_enter (hw : w.Named) (file : String) :
    w.Updates (enter w file) file ScriptFile.entered := by
  have h := updates_enterGround hw file
  unfold enter
  cases hresult : w.enterGround file with
  | mk answer v =>
    rw [hresult] at h
    cases answer with
    | ok _ => exact h
    | error e => exact h.trans_beside (beside_warn v _)

theorem hashOf_eq (hw : w.Named) (file : String) :
    ∃ v, hashOf w file = (recordedHash w file, v) ∧ w.Alike v := by
  obtain ⟨e, hget, hn⟩ | ⟨f, v, hget, hv, -, -, hs⟩ := get_cases hw file
  · exact ⟨w, by simp only [hashOf, Workspace.hash, ask, hget, recordedHash, hn]; rfl, .refl hw⟩
  · exact ⟨v, by simp only [hashOf, Workspace.hash, ask, hget, recordedHash, hs]; rfl, hv⟩

theorem recordedHash_enter (hw : w.Named) (file : String) :
    recordedHash (enter w file) file = recordedHash w file := by
  rw [recordedHash, (updates_enter hw file).seen, if_pos rfl, Option.map_map, recordedHash]
  congr 2
  funext f
  exact ScriptFile.entered_hash f

theorem place_fst (g : Ground) (hw : w.Named) (slot : Nat) (file : String) :
    (g.place w slot file).1 =
      { g with slots := g.slots.setIfInBounds slot (some ⟨file, recordedHash w file⟩) } := by
  obtain ⟨v, hhash, -⟩ := hashOf_eq (updates_enter hw file).named file
  simp only [place, hhash, recordedHash_enter hw]

theorem mem_hashes_place (g : Ground) (hw : w.Named) {slot : Nat} (hslot : slot < hangerCount)
    {file k hash : String} : hash ∈ (g.place w slot file).1.hashes k ↔
      (⟨file, recordedHash w file⟩ : LoadedScript) = ⟨k, hash⟩ ∨
        ∃ hanger ≠ slot, g.scriptIn? hanger = some ⟨k, hash⟩ := by
  rw [place_fst g hw]
  exact mem_hashes_put g hslot _

/-- The hashes of a file after it was put into a place. -/
theorem mem_hashes_place_self (g : Ground) (hw : w.Named) {slot : Nat} (hslot : slot < hangerCount)
    {file hash : String} : hash ∈ (g.place w slot file).1.hashes file ↔
      recordedHash w file = hash ∨
        ∃ hanger ≠ slot, g.scriptIn? hanger = some ⟨file, hash⟩ := by
  rw [mem_hashes_place g hw hslot, LoadedScript.mk.injEq, eq_self_iff_true, true_and]

theorem changes_place (g : Ground) (hw : w.Named) {slot : Nat} (hslot : slot < hangerCount)
    (file : String) :
    w.Changes (g.place w slot file).2 fun k f =>
      if k = file then f.entered
      else if (g.scriptIn? slot).any (fun before => before.file == k) ∧
        (g.place w slot file).1.holds k = false then f.left
      else f := by
  have hholds : (g.place w slot file).1.holds file = true :=
    holds_iff.mpr ⟨_, (mem_hashes_place g hw hslot).mpr (.inl rfl)⟩
  obtain ⟨v, hhash, hv⟩ := hashOf_eq (updates_enter hw file).named file
  have hentered := ((updates_enter hw file).trans_alike hv).changes
  have hnext := place_fst g hw slot file
  rw [hnext] at hholds
  simp only [place, hhash] at hnext ⊢
  cases hbefore : g.scriptIn? slot with
  | none =>
    refine (hentered.trans ((beside_send v _).alike hv.named).changes).congr fun k f _ => ?_
    simp
  | some before =>
    simp only [hnext]
    have hrelease := changes_releaseAll
      { g with slots := g.slots.setIfInBounds slot (some ⟨file, recordedHash w file⟩) }
      hv.named [before.file]
    refine ((hentered.trans hrelease).trans
      ((beside_send _ _).alike hrelease.named).changes).congr fun k f _ => ?_
    have hcomm : (before.file = k) = (k = before.file) := propext eq_comm
    simp only [List.mem_singleton, Option.any_some, beq_iff_eq, hcomm]
    by_cases hk : k = file
    · subst hk
      simp [hholds]
    · simp only [if_neg hk]

theorem released_place (g : Ground) (hw : w.Named) {slot : Nat} (hslot : slot < hangerCount)
    {file k : String} (hk : k ≠ file) (f : ScriptFile) :
    f.Released (g.hashes k)
      (if (g.scriptIn? slot).any (fun before => before.file == k) ∧
        (g.place w slot file).1.holds k = false then f.left else f)
      ((g.place w slot file).1.hashes k) := by
  have hother : ∀ hash, hash ∈ (g.place w slot file).1.hashes k ↔
      ∃ hanger ≠ slot, g.scriptIn? hanger = some ⟨k, hash⟩ := by
    intro hash
    rw [mem_hashes_place g hw hslot]
    simp [Ne.symm hk]
  split_ifs with h
  · rw [holds_eq_false_iff.mp h.2]
    exact .left
  · refine .held (fun hash hhash => ?_) ?_
    · obtain ⟨hanger, -, hs⟩ := (hother hash).mp hhash
      exact ⟨hanger, hs⟩
    · rintro ⟨hash, hanger, hs⟩
      by_cases hslot : hanger = slot
      · subst hslot
        refine holds_iff.mp (Bool.not_eq_false _ ▸ fun hfalse => h ⟨?_, hfalse⟩)
        simp [hs]
      · exact ⟨hash, (hother hash).mpr ⟨hanger, hslot, hs⟩⟩

/-- Outside the places of the game a script is discarded. -/
theorem loadScript_of_not_lt (g : Ground) (w : Workspace) (file : String)
    (h : ¬ g.pending.getD 0 < hangerCount) :
    (g.loadScript w file).1 = { g with pending := none } ∧ w.Beside (g.loadScript w file).2 := by
  unfold loadScript
  dsimp only
  rw [if_neg h]
  exact ⟨rfl, beside_warn w _⟩

theorem loadScript_of_lt (g : Ground) (w : Workspace) (file : String)
    (h : g.pending.getD 0 < hangerCount) :
    g.loadScript w file = { g with pending := none }.place w (g.pending.getD 0) file := by
  simp only [loadScript, if_pos h]

theorem mem_hashes_loadScript (g : Ground) (hw : w.Named) {file hash : String}
    (h : g.pending.getD 0 < hangerCount) : hash ∈ (g.loadScript w file).1.hashes file ↔
      recordedHash w file = hash ∨
        ∃ hanger ≠ g.pending.getD 0, g.scriptIn? hanger = some ⟨file, hash⟩ := by
  rw [loadScript_of_lt g w file h]
  exact mem_hashes_place_self { g with pending := none } hw h

/-! ### Announcements -/

theorem beside_announce (g : Ground) (w : Workspace) (hanger : Nat) :
    w.Beside (g.announce w hanger).2 := by
  unfold announce
  dsimp only
  split
  · exact .refl w
  · split_ifs
    · exact .refl w
    · exact beside_warn w _

theorem beside_loadScene (g : Ground) (w : Workspace) (hanger : Nat) (name : String) :
    w.Beside (g.loadScene w hanger name).2 ∧ (g.loadScene w hanger name).1.slots = g.slots := by
  unfold loadScene
  split_ifs
  · exact ⟨(beside_announce _ w hanger).trans (beside_send _ _), rfl⟩
  · exact ⟨beside_warn w _, rfl⟩

theorem beside_loadTalk (g : Ground) (w : Workspace) (hanger : Nat) :
    w.Beside (g.loadTalk w hanger).2 ∧ (g.loadTalk w hanger).1.slots = g.slots :=
  ⟨(beside_announce g w _).trans (beside_send _ _), rfl⟩

/-! ### Save states -/

/-- A script of a file that cannot be read. -/
theorem restoreScript_of_unseen (hw : w.Named) (stale : List String) {script : LoadedScript}
    (hn : w.seen? script.file = none) :
    w.Alike (restoreScript stale w script).2 ∧ (restoreScript stale w script).1 = stale := by
  have hentered := (updates_enterGround hw script.file).alike hn
  obtain ⟨e, v, hresult, -⟩ | ⟨v, hresult, hsome⟩ := enterGround_ok hw script.file
  · rw [hresult] at hentered
    simp only [restoreScript, hresult, and_true]
    exact hentered.trans ((beside_warn v _).alike hentered.named)
  · rw [hn] at hsome
    cases hsome

/-- One script of a save state: its file enters, and is marked if it differs for the first time. -/
theorem restoreScript_of_seen {f : ScriptFile} (hw : w.Named) (stale : List String)
    {script : LoadedScript} (hf : w.seen? script.file = some f) :
    w.Updates (restoreScript stale w script).2 script.file (fun g =>
      if script.hash ≠ f.hash ∧ script.file ∉ stale then g.entered.restored else g.entered) ∧
    (restoreScript stale w script).1 =
      if script.hash ≠ f.hash ∧ script.file ∉ stale then stale ++ [script.file] else stale := by
  have hentered := updates_enterGround hw script.file
  obtain ⟨e, v, hresult, hn⟩ | ⟨v, hresult, -⟩ := enterGround_ok hw script.file
  · rw [hf] at hn
    cases hn
  · rw [hresult] at hentered
    obtain ⟨u, hhash, hu⟩ := hashOf_eq hentered.named script.file
    have hread : w.Updates u script.file ScriptFile.entered := hentered.trans_alike hu
    have hrecorded : recordedHash v script.file = f.hash := by
      rw [recordedHash, hentered.seen, if_pos rfl, hf]
      exact ScriptFile.entered_hash f
    simp only [restoreScript, hresult, hhash, hrecorded]
    by_cases hmark : script.hash ≠ f.hash ∧ script.file ∉ stale
    · have hrestored := hread.trans (updates_markRestored hread.named script.file)
      have hno : ¬ (f.hash = script.hash ∨ script.file ∈ stale) :=
        fun hor => hor.elim (fun heq => hmark.1 heq.symm) hmark.2
      simp only [if_pos hmark, if_neg hno]
      cases hanswer : u.markRestored script.file with
      | mk answer t =>
        rw [hanswer] at hrestored
        cases answer with
        | ok _ => exact ⟨hrestored, rfl⟩
        | error e => exact ⟨hrestored.trans_beside (beside_warn t _), rfl⟩
    · have hyes : f.hash = script.hash ∨ script.file ∈ stale := by
        by_contra hor
        rw [not_or] at hor
        exact hmark ⟨Ne.symm hor.1, hor.2⟩
      simp only [if_neg hmark, if_pos hyes]
      exact ⟨hread, trivial⟩

/-- What several scripts of a save state do: each file is changed by all scripts of it at once, and
those that differ from some of them are reported. -/
structure Restored (w : Workspace) (scripts : List LoadedScript)
    (result : List String × Workspace) : Prop where
  changes : w.Changes result.2 fun k f => f.afterRestore k scripts
  reported : ∀ k, k ∈ result.1 ↔ ∃ f, w.seen? k = some f ∧ f.differsIn k scripts = true

theorem Restored.unseen {scripts : List LoadedScript} {result : List String × Workspace}
    {script : LoadedScript} (h : Restored w scripts result) (hn : w.seen? script.file = none) :
    Restored w (scripts ++ [script]) (restoreScript result.1 result.2 script) := by
  have hunseen : result.2.seen? script.file = none := by
    rw [h.changes.seen, hn, Option.map_none]
  obtain ⟨halike, hstale⟩ := restoreScript_of_unseen h.changes.named result.1 hunseen
  have hne : ∀ k f, w.seen? k = some f → script.file ≠ k := by
    rintro k f hf rfl
    rw [hn] at hf
    cases hf
  refine ⟨(h.changes.trans halike.changes).congr fun k f hf => ?_, fun k => ?_⟩
  · exact (ScriptFile.afterRestore_concat_of_ne scripts (hne k f hf)).symm
  · rw [hstale, h.reported k]
    refine exists_congr fun f => and_congr_right fun hf => ?_
    rw [f.differsIn_concat_of_ne scripts (hne k f hf)]

theorem Restored.seen {scripts : List LoadedScript} {result : List String × Workspace}
    {script : LoadedScript} {g : ScriptFile} (h : Restored w scripts result)
    (hg : w.seen? script.file = some g) :
    Restored w (scripts ++ [script]) (restoreScript result.1 result.2 script) := by
  have hseen : result.2.seen? script.file = some (g.afterRestore script.file scripts) := by
    rw [h.changes.seen, hg, Option.map_some]
  obtain ⟨hstep, hstale⟩ := restoreScript_of_seen h.changes.named result.1 hseen
  -- a file was marked before exactly if it differs from one of the scripts so far
  have hmarked : script.file ∉ result.1 ↔ g.differsIn script.file scripts = false := by
    rw [h.reported, hg]
    simp
  rw [ScriptFile.afterRestore_hash] at hstale
  simp only [ScriptFile.afterRestore_hash] at hstep
  refine ⟨(h.changes.trans hstep.changes).congr fun k f hf => ?_, fun k => ?_⟩
  · by_cases hk : k = script.file
    · subst hk
      rw [hg] at hf
      cases hf
      simp only [if_true, ScriptFile.afterRestore_concat_self, hmarked]
    · rw [if_neg hk, ScriptFile.afterRestore_concat_of_ne scripts (Ne.symm hk)]
  · rw [hstale]
    by_cases hk : k = script.file
    · subst hk
      simp only [hg, Option.some.injEq, exists_eq_left', ScriptFile.differsIn_concat, beq_self_eq_true,
        Bool.true_and, Bool.or_eq_true, bne_iff_ne]
      have hbefore : script.file ∈ result.1 ↔ g.differsIn script.file scripts = true := by
        rw [h.reported, hg]
        simp
      rw [← hbefore]
      split_ifs with hmark
      · exact iff_of_true (List.mem_append_right _ (List.mem_singleton.mpr rfl)) (.inr hmark.1)
      · refine ⟨.inl, fun hor => hor.elim id fun hne => ?_⟩
        exact not_not.mp fun hnot => hmark ⟨hne, hnot⟩
    · have hsame : (k ∈ if script.hash ≠ g.hash ∧ script.file ∉ result.1
          then result.1 ++ [script.file] else result.1) ↔ k ∈ result.1 := by
        split_ifs
        · rw [List.mem_append, List.mem_singleton, or_iff_left hk]
        · exact Iff.rfl
      rw [hsame, h.reported k]
      refine exists_congr fun f => and_congr_right fun _ => ?_
      rw [f.differsIn_concat_of_ne scripts (Ne.symm hk)]

theorem restoreScripts_concat (w : Workspace) (scripts : List LoadedScript) (script : LoadedScript) :
    restoreScripts w (scripts ++ [script]) =
      restoreScript (restoreScripts w scripts).1 (restoreScripts w scripts).2 script := by
  simp [restoreScripts, List.foldl_append]

theorem restored_restoreScripts (hw : w.Named) (scripts : List LoadedScript) :
    Restored w scripts (restoreScripts w scripts) := by
  induction scripts using List.reverseRecOn with
  | nil =>
    refine ⟨(Alike.refl hw).changes.congr fun k f _ => rfl, fun k => ?_⟩
    simp [restoreScripts, ScriptFile.differsIn]
  | append_singleton scripts script ih =>
    rw [restoreScripts_concat]
    cases hs : w.seen? script.file with
    | none => exact ih.unseen hs
    | some g => exact ih.seen hs

/-- No file is reported twice. -/
theorem nodup_restoreScript {stale : List String} (h : stale.Nodup) (w : Workspace)
    (script : LoadedScript) : (restoreScript stale w script).1.Nodup := by
  have hmore : script.file ∉ stale → (stale ++ [script.file]).Nodup := by
    intro hnew
    refine List.nodup_append.mpr ⟨h, by simp, fun a ha b hb hab => hnew ?_⟩
    rw [← List.mem_singleton.mp hb, ← hab]
    exact ha
  unfold restoreScript
  split
  · exact h
  · dsimp only
    split_ifs with hno
    · exact h
    · split <;> exact hmore fun hold => hno (.inr hold)

theorem nodup_restoreScripts (w : Workspace) (scripts : List LoadedScript) :
    (restoreScripts w scripts).1.Nodup := by
  induction scripts using List.reverseRecOn with
  | nil => exact List.nodup_nil
  | append_singleton scripts script ih =>
    rw [restoreScripts_concat]
    exact nodup_restoreScript ih _ script

theorem beside_reportStale (w : Workspace) (stale : List String) :
    w.Beside (reportStale w stale) := by
  unfold reportStale
  split_ifs
  · exact .refl w
  · exact (beside_warn w _).trans (beside_send _ _)

theorem changes_restore (g : Ground) (hw : w.Named) (s : GroundSnapshot) :
    w.Changes (g.restore w s).2.2 fun k f =>
      (if k ∈ g.files ∧ (ofSnapshot s).holds k = false then f.left else f).afterRestore k
        (ofSnapshot s).loaded := by
  have hleft := changes_releaseAll (ofSnapshot s) hw g.files
  rw [releaseAll_eq] at hleft
  have hscripts := (restored_restoreScripts hleft.named (ofSnapshot s).loaded).changes
  exact ((hleft.trans hscripts).trans
    ((beside_reportStale _ _).alike hscripts.named).changes).congr fun k f _ => rfl

theorem nodup_restore (g : Ground) (w : Workspace) (s : GroundSnapshot) :
    (g.restore w s).1.Nodup := nodup_restoreScripts _ _

/-- A save state reports the files that differ from some of its scripts. -/
theorem mem_restore (g : Ground) (hw : w.Named) (s : GroundSnapshot) (k : String) :
    k ∈ (g.restore w s).1 ↔ ∃ f, w.seen? k = some f ∧ f.differsIn k (ofSnapshot s).loaded := by
  have hleft := changes_leave hw (g.files.filter fun file => !(ofSnapshot s).holds file)
  refine ((restored_restoreScripts hleft.named (ofSnapshot s).loaded).reported k).trans ?_
  rw [hleft.seen]
  cases hs : w.seen? k with
  | none => simp
  | some f =>
    have hhash : ∀ (c : Prop) [Decidable c], (if c then f.left else f).differsIn k (ofSnapshot s).loaded =
        f.differsIn k (ofSnapshot s).loaded := by
      intro c _
      split_ifs <;> rfl
    simp only [Option.map_some, Option.some.injEq, exists_eq_left', hhash]

end Ground

end SceneDebugger
