import SceneDebugger.Proofs.Breakpoints.Documents
import SceneDebugger.Proofs.Files.Replacing

/-!
# SceneDebugger.Proofs.Breakpoints.Stored — what a crash leaves of the breakpoints

The file of the breakpoints is written anew by every call that changes them, with the waiting ones
put to those in force.  So while the last write that was attempted succeeded, a store that is loaded
afresh has for every file what was in force and what was waiting, and nothing waits
(`Kept.reloaded`).

* `BreakpointCall.run_of_writes`, `BreakpointCall.run_of_not_writes`: a call does nothing to the
  disk but the one write it may attempt, which is of the breakpoints after the call and is logged if
  it fails; a call that attempts none changes no breakpoint.
* `Keeping.OnDisk`: the file holds the breakpoints, unless the last attempt failed.
-/

namespace SceneDebugger

namespace Breakpoints

/-! ### The file -/

/-- The breakpoints that the file holds; none where it cannot be used. -/
def stored (d : Disk) (path : Path) : OffsetMap := (read d path).toOption.getD ∅

theorem load_fst (h : Host) (path : Path) :
    (load h path).1 = { path, primary := stored h.disk path } := by
  unfold load stored
  cases read h.disk path with
  | ok primary => rfl
  | error reason =>
    dsimp only
    split <;> rfl

theorem disk_load (h : Host) (path : Path) : (load h path).2.disk = h.disk := by
  unfold load
  split
  · rfl
  · split <;> rfl

/-- A file that was written whole holds what was written. -/
theorem stored_of_replace {d d' : Disk} {path : Path} {m : OffsetMap}
    (h : d.replace path m.toJson.pretty = (.ok (), d')) : stored d' path = m := by
  have hread : read d' path = .ok m := by
    rw [read, Disk.read_of_replace h]
    exact m.ofText_pretty
  rw [stored, hread]
  rfl

theorem offsets_merged (b : Breakpoints) (k : String) :
    b.merged.offsets k = b.offsets k ∪ (b.pendingOffsets? k).getD ∅ :=
  OffsetMap.offsets_union b.primary b.pending k

theorem disk_persist (b : Breakpoints) (h : Host) :
    (b.persist h).disk = (h.disk.replace b.path b.merged.toJson.pretty).2 := by
  unfold persist
  rcases h.disk.replace b.path b.merged.toJson.pretty with ⟨outcome, d⟩
  cases outcome <;> rfl

/-- What is logged of a write: a warning where it failed. -/
def complaints (b : Breakpoints) : Except Fault Unit → List LogRecord
  | .ok _ => []
  | .error fault => [⟨.warning, b.notStored fault⟩]

theorem log_persist (b : Breakpoints) (h : Host) :
    (b.persist h).log =
      h.log ++ b.complaints (h.disk.replace b.path b.merged.toJson.pretty).1 := by
  unfold persist
  rcases h.disk.replace b.path b.merged.toJson.pretty with ⟨outcome, d⟩
  cases outcome with
  | ok _ => exact (List.append_nil _).symm
  | error fault => rfl

/-- The outcome of an operation that wrote the file: the disk is what writing the breakpoints of the
outcome leaves, and a failure is in the log. -/
structure Wrote (b : Breakpoints) (h : Host) (outcome : Breakpoints × Host) : Prop where
  path : outcome.1.path = b.path
  disk : outcome.2.disk = (h.disk.replace b.path outcome.1.merged.toJson.pretty).2
  log : outcome.2.log =
    h.log ++ outcome.1.complaints (h.disk.replace b.path outcome.1.merged.toJson.pretty).1

variable {b b' : Breakpoints} {file : String} {offset : UInt32}

theorem wrote_persist (hpath : b'.path = b.path) (h : Host) : b.Wrote h (b', b'.persist h) :=
  ⟨hpath, hpath ▸ disk_persist b' h, hpath ▸ log_persist b' h⟩

theorem wrote_commit (hpath : b'.path = b.path) (h : Host) (file : String)
    (change : BreakpointChange) : b.Wrote h (b'.commit h file change) :=
  ⟨hpath, hpath ▸ disk_persist b' h, hpath ▸ log_persist b' h⟩

theorem wrote_add (hnew : b.contains file offset = false) (h : Host) :
    b.Wrote h (b.add h file offset) := by
  rw [add, if_neg (by rw [hnew]; decide)]
  exact wrote_commit (by rfl) h file _

theorem wrote_remove (hold : b.contains file offset = true) (h : Host) :
    b.Wrote h (b.remove h file offset) := by
  rw [remove, if_pos hold]
  exact wrote_commit (by rfl) h file _

end Breakpoints

/-! ### Calls -/

/-- A call of the store.  `ramMatches` is what the workspace says of the file at the time of the
call, which can be anything. -/
inductive BreakpointCall where
  | add (file : String) (offset : UInt32)
  | remove (file : String) (offset : UInt32)
  | toggle (file : String) (offset : UInt32)
  | resync (ramMatches : Bool) (file : String) (offsets : Std.ExtTreeSet UInt32)
  | onReload (file : String)

namespace BreakpointCall

variable {b : Breakpoints} {h : Host}

/-- The breakpoints and their surroundings after a call. -/
def run (b : Breakpoints) (h : Host) : BreakpointCall → Breakpoints × Host
  | .add file offset => b.add h file offset
  | .remove file offset => b.remove h file offset
  | .toggle file offset => (b.toggle h file offset).2
  | .resync ramMatches file offsets => b.resync h ramMatches file offsets
  | .onReload file => b.onReload h file

/-- The call writes the file. -/
def writes (b : Breakpoints) : BreakpointCall → Bool
  | .add file offset => !b.contains file offset
  | .remove file offset => b.contains file offset
  | .toggle _ _ => true
  | .resync _ _ _ => true
  | .onReload file => (b.pendingOffsets? file).isSome

/-- The write that a call attempts: how it ends, and the disk after it. -/
def attempt? (b : Breakpoints) (h : Host) (c : BreakpointCall) :
    Option (Except Fault Unit × Disk) :=
  if c.writes b then some (h.disk.replace b.path (c.run b h).1.merged.toJson.pretty) else none

/-- A call that writes leaves the disk that its write leaves, and logs its failure. -/
theorem run_of_writes (c : BreakpointCall) (hc : c.writes b = true) : b.Wrote h (c.run b h) := by
  cases c with
  | add file offset => exact Breakpoints.wrote_add (by simpa [writes] using hc) h
  | remove file offset => exact Breakpoints.wrote_remove hc h
  | toggle file offset =>
    rw [run, Breakpoints.toggle]
    cases hcontains : b.contains file offset with
    | true => exact Breakpoints.wrote_remove hcontains h
    | false => exact Breakpoints.wrote_add hcontains h
  | resync ramMatches file offsets =>
    cases ramMatches with
    | true => exact Breakpoints.wrote_commit (by rfl) h file _
    | false => exact Breakpoints.wrote_persist (by rfl) h
  | onReload file =>
    obtain ⟨offsets, hpending⟩ := Option.isSome_iff_exists.mp hc
    rw [Breakpoints.pendingOffsets?] at hpending
    rw [run, Breakpoints.onReload, hpending]
    exact Breakpoints.wrote_commit (by rfl) h file _

/-- A call that does not write leaves its surroundings and the breakpoints of every file alone. -/
theorem run_of_not_writes (c : BreakpointCall) (hc : c.writes b = false) :
    (c.run b h).1.path = b.path ∧ (c.run b h).2 = h ∧
      ∀ k, (c.run b h).1.merged.offsets k = b.merged.offsets k := by
  cases c with
  | add file offset =>
    have hold : b.contains file offset = true := by simpa [writes] using hc
    have hrun : b.add h file offset = (b, h) := if_pos hold
    rw [run, hrun]
    exact ⟨rfl, rfl, fun k => rfl⟩
  | remove file offset =>
    have hnew : b.contains file offset = false := hc
    have hrun : b.remove h file offset =
        ({ b with primary := b.primary.replace file (b.offsets file) }, h) :=
      if_neg (by rw [hnew]; decide)
    rw [run, hrun]
    refine ⟨rfl, rfl, fun k => ?_⟩
    -- a file that is left with no offsets had none before
    rw [Breakpoints.offsets_merged, Breakpoints.offsets_merged, Breakpoints.offsets,
      OffsetMap.offsets_replace]
    split_ifs with hk
    · rw [hk]
      rfl
    · rfl
  | toggle file offset => cases hc
  | resync ramMatches file offsets => cases hc
  | onReload file =>
    have hnone : b.pending[file]? = none :=
      Option.isNone_iff_eq_none.mp (Option.isSome_eq_false_iff.mp hc)
    have hrun : b.onReload h file = (b, h) := by rw [Breakpoints.onReload, hnone]
    rw [run, hrun]
    exact ⟨rfl, rfl, fun k => rfl⟩

end BreakpointCall

/-! ### Runs -/

/-- A store among its surroundings, and how the writes of its file ended. -/
structure Keeping where
  breakpoints : Breakpoints
  host : Host
  /-- How the attempted writes ended, the last one first. -/
  attempts : List (Except Fault Unit) := []

namespace Keeping

/-- A store that was just loaded. -/
def start (h : Host) (path : Path) : Keeping :=
  { breakpoints := (Breakpoints.load h path).1, host := (Breakpoints.load h path).2 }

/-- The store after a call. -/
def after (t : Keeping) (c : BreakpointCall) : Keeping where
  breakpoints := (c.run t.breakpoints t.host).1
  host := (c.run t.breakpoints t.host).2
  attempts := ((c.attempt? t.breakpoints t.host).map Prod.fst).toList ++ t.attempts

/-- The last attempted write succeeded, if there was one. -/
def Intact (t : Keeping) : Prop := t.attempts.head?.all Except.isOk = true

instance (t : Keeping) : Decidable t.Intact := inferInstanceAs (Decidable (_ = true))

end Keeping

/-- The stores that calls can lead to, from a path on any disk.  Whatever else may happen to the
surroundings, the file stays as it is. -/
inductive Kept (path : Path) : Keeping → Prop where
  | start (h : Host) : Kept path (.start h path)
  | call {t : Keeping} (c : BreakpointCall) : Kept path t → Kept path (t.after c)
  | surroundings {t : Keeping} (h : Host)
      (hread : Breakpoints.read h.disk path = Breakpoints.read t.host.disk path) :
      Kept path t → Kept path { t with host := h }

namespace Keeping

/-- The file of the store holds its breakpoints, unless the last attempt to write it failed. -/
structure OnDisk (t : Keeping) (path : Path) : Prop where
  samePath : t.breakpoints.path = path
  stored : t.Intact → ∀ k,
    (Breakpoints.stored t.host.disk path).offsets k = t.breakpoints.merged.offsets k

namespace OnDisk

variable {path : Path} {t : Keeping}

theorem start (h : Host) (path : Path) : (Keeping.start h path).OnDisk path where
  samePath := by rw [Keeping.start, Breakpoints.load_fst]
  stored _ k := by
    rw [Breakpoints.offsets_merged, Keeping.start, Breakpoints.load_fst, Breakpoints.disk_load]
    -- nothing waits in a store that was just loaded
    refine Std.ExtTreeSet.ext_mem fun offset => ?_
    rw [Std.ExtTreeSet.mem_union_iff]
    exact (or_iff_left Std.ExtTreeSet.not_mem_empty).symm

theorem after (ht : t.OnDisk path) (c : BreakpointCall) : (t.after c).OnDisk path := by
  cases hc : c.writes t.breakpoints with
  | true =>
    obtain ⟨hpath, hdisk, -⟩ := BreakpointCall.run_of_writes (h := t.host) c hc
    refine ⟨hpath.trans ht.samePath, fun hintact k => ?_⟩
    cases hreplace : t.host.disk.replace path (t.after c).breakpoints.merged.toJson.pretty with
    | mk outcome d =>
      have hattempt : c.attempt? t.breakpoints t.host = some (outcome, d) := by
        rw [BreakpointCall.attempt?, if_pos hc, ht.samePath]
        exact congrArg some hreplace
      have hok : outcome = .ok () := by
        rw [Keeping.Intact, Keeping.after, hattempt] at hintact
        cases outcome with
        | ok _ => rfl
        | error fault => cases hintact
      subst hok
      have hafter : (t.after c).host.disk = d := by
        rw [Keeping.after, hdisk, ht.samePath]
        exact congrArg Prod.snd hreplace
      rw [hafter, Breakpoints.stored_of_replace hreplace]
  | false =>
    obtain ⟨hpath, hhost, hoffsets⟩ := BreakpointCall.run_of_not_writes (h := t.host) c hc
    have hattempts : (t.after c).attempts = t.attempts := by
      rw [Keeping.after, BreakpointCall.attempt?, hc]
      rfl
    refine ⟨hpath.trans ht.samePath, fun hintact k => ?_⟩
    have hbefore : t.Intact := by rwa [Keeping.Intact, hattempts] at hintact
    calc (Breakpoints.stored (t.after c).host.disk path).offsets k
        = (Breakpoints.stored t.host.disk path).offsets k := by rw [Keeping.after, hhost]
      _ = t.breakpoints.merged.offsets k := ht.stored hbefore k
      _ = (t.after c).breakpoints.merged.offsets k := (hoffsets k).symm

theorem surroundings (ht : t.OnDisk path) (h : Host)
    (hread : Breakpoints.read h.disk path = Breakpoints.read t.host.disk path) :
    Keeping.OnDisk { t with host := h } path := by
  refine ⟨ht.samePath, fun hintact k => ?_⟩
  rw [← ht.stored hintact k, Breakpoints.stored, Breakpoints.stored, hread]

end OnDisk

end Keeping

theorem Kept.onDisk {path : Path} {t : Keeping} (ht : Kept path t) : t.OnDisk path := by
  induction ht with
  | start h => exact .start h path
  | call c _ ih => exact ih.after c
  | surroundings h hread _ ih => exact ih.surroundings h hread

/-- While the last attempted write succeeded, or none was attempted, a store that is loaded afresh
has for every file the breakpoints in force and the waiting ones together, and none wait. -/
theorem Kept.reloaded {path : Path} {t : Keeping} (ht : Kept path t) (hintact : t.Intact)
    (k : String) :
    (Breakpoints.load t.host path).1.offsets k =
        t.breakpoints.offsets k ∪ (t.breakpoints.pendingOffsets? k).getD ∅ ∧
      (Breakpoints.load t.host path).1.pendingOffsets? k = none := by
  rw [← Breakpoints.offsets_merged, ← ht.onDisk.stored hintact k, Breakpoints.load_fst]
  exact ⟨rfl, Std.ExtTreeMap.getElem?_empty⟩

namespace Keeping

/-- A disk whose file of breakpoints is cut off. -/
def damaged : Disk :=
  { nodes := Std.ExtTreeMap.ofList [(["breakpoints.json"], Node.file "\x7b\"a.ssb\": [")] }

/-- A breakpoint is set, and a compilation that the game does not run yet has another one. -/
def parked : Keeping :=
  ((start { disk := damaged } ⟨"breakpoints.json"⟩).after (.add "a.ssb" 3)).after
    (.resync false "a.ssb" (Std.ExtTreeSet.ofList [(8 : UInt32)]))

theorem reloaded_parked :
    parked.Intact ∧ parked.breakpoints.contains "a.ssb" 3 = true ∧
      (Breakpoints.load parked.host ⟨"breakpoints.json"⟩).1.offsets "a.ssb" =
        parked.breakpoints.offsets "a.ssb" ∪ (parked.breakpoints.pendingOffsets? "a.ssb").getD ∅ ∧
      (Breakpoints.load parked.host ⟨"breakpoints.json"⟩).1.pendingOffsets? "a.ssb" = none := by
  have hintact : parked.Intact := by decide +kernel
  have hkept : Kept ⟨"breakpoints.json"⟩ parked := .call _ (.call _ (.start _))
  exact ⟨hintact, by decide +kernel, hkept.reloaded hintact "a.ssb"⟩

end Keeping

end SceneDebugger
