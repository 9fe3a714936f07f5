import Mathlib.Tactic.SplitIfs
import SceneDebugger.Breakpoints.Store

/-!
# SceneDebugger.Proofs.Breakpoints.Changes — what an operation does to the breakpoints of each file

The breakpoints of a file are given by what is in force (`Breakpoints.offsets`) and by what waits
(`Breakpoints.pendingOffsets?`).  Each operation is described by both, for every file, and by what it
tells the user, which is never about reloads.

* `Breakpoints.latestOffsets_resync`, `Breakpoints.latestOffsets_onReload`: a new compilation sets the
  breakpoints of the last compilation, a reload leaves them as they are.
* `Host.Informs`: breakpoint changes and warnings are put at the end of the queue.
* `Host.behind`: the same with other events before the ones in the queue.
-/

namespace SceneDebugger

/-! ### Offsets by file -/

namespace OffsetMap

variable (m : OffsetMap) {file k : String}

theorem lookup_erase (file k : String) :
    (m.erase file : OffsetMap)[k]? = if k = file then none else m[k]? := by
  have hswap : file = k ↔ k = file := eq_comm
  simp only [Std.ExtTreeMap.getElem?_erase, Std.compare_eq_iff_eq, hswap]

theorem lookup_insert (file : String) (offsets : Std.ExtTreeSet UInt32 compare) (k : String) :
    (m.insert file offsets : OffsetMap)[k]? = if k = file then some offsets else m[k]? := by
  have hswap : file = k ↔ k = file := eq_comm
  simp only [Std.ExtTreeMap.getElem?_insert, Std.compare_eq_iff_eq, hswap]

theorem lookup_replace_of_ne (h : k ≠ file)
    (offsets : Std.ExtTreeSet UInt32) : (m.replace file offsets)[k]? = m[k]? := by
  unfold replace
  split_ifs
  · rw [lookup_erase, if_neg h]
  · rw [lookup_insert, if_neg h]

theorem offsets_insert (file : String) (offsets : Std.ExtTreeSet UInt32) (k : String) :
    OffsetMap.offsets (m.insert file offsets) k = if k = file then offsets else m.offsets k := by
  rw [OffsetMap.offsets, lookup_insert]
  split_ifs <;> rfl

theorem offsets_replace (file : String) (offsets : Std.ExtTreeSet UInt32) (k : String) :
    (m.replace file offsets).offsets k = if k = file then offsets else m.offsets k := by
  unfold replace
  by_cases hempty : offsets.isEmpty
  · rw [if_pos hempty, OffsetMap.offsets, lookup_erase, Std.ExtTreeSet.isEmpty_iff.mp hempty]
    split_ifs <;> rfl
  · rw [if_neg hempty]
    exact offsets_insert m file offsets k

theorem offsets_add_of_ne (h : k ≠ file) (offset : UInt32) :
    (m.add file offset).offsets k = m.offsets k := by
  rw [add, offsets_insert, if_neg h]

theorem offsets_remove_of_ne (h : k ≠ file) (offset : UInt32) :
    (m.remove file offset).offsets k = m.offsets k := by
  rw [remove, offsets_replace, if_neg h]

end OffsetMap

/-! ### What the user is told -/

/-- The event tells of a change of breakpoints, or warns. -/
def Event.isNotice : Event → Bool
  | .breakpointsChanged _ => true
  | .warning _ => true
  | _ => false

namespace Host

variable {h h' h'' : Host}

/-- Notices were put at the end of the queue. -/
def Informs (h h' : Host) : Prop :=
  ∃ more, h'.events = h.events ++ more ∧ ∀ e ∈ more, e.isNotice = true

theorem Informs.refl (h : Host) : h.Informs h :=
  ⟨[], (List.append_nil _).symm, fun _ he => absurd he List.not_mem_nil⟩

theorem Informs.trans (hh : h.Informs h') (hh' : h'.Informs h'') : h.Informs h'' := by
  obtain ⟨more, hmore, hnotice⟩ := hh
  obtain ⟨more', hmore', hnotice'⟩ := hh'
  refine ⟨more ++ more', by rw [hmore', hmore, List.append_assoc], fun e he => ?_⟩
  exact (List.mem_append.mp he).elim (hnotice e) (hnotice' e)

theorem informs_send (h : Host) {event : Event} (hnotice : event.isNotice = true) :
    h.Informs (h.send event) :=
  ⟨[event], rfl, fun e he => by rw [List.mem_singleton.mp he, hnotice]⟩

/-- The host with events before those in the queue. -/
def behind (h : Host) (events : List Event) : Host := { h with events := events ++ h.events }

theorem behind_send (h : Host) (events : List Event) (event : Event) :
    (h.behind events).send event = (h.send event).behind events := by
  simp [behind, send]

end Host

namespace Breakpoints

variable {b : Breakpoints} {h : Host} {file k : String} {offset : UInt32}
  {offsets : Std.ExtTreeSet UInt32} {change : BreakpointChange}

/-- Both kinds of breakpoints of a file are as before. -/
structure SameOf (b b' : Breakpoints) (k : String) : Prop where
  offsets : b'.offsets k = b.offsets k
  pending : b'.pendingOffsets? k = b.pendingOffsets? k

theorem latestOffsets_eq (b : Breakpoints) (k : String) :
    b.latestOffsets k = (b.pendingOffsets? k).getD (b.offsets k) := rfl

theorem SameOf.latest {b' : Breakpoints} (hs : b.SameOf b' k) :
    b'.latestOffsets k = b.latestOffsets k := by
  rw [latestOffsets_eq, latestOffsets_eq, hs.offsets, hs.pending]

theorem informs_persist (b : Breakpoints) (h : Host) : h.Informs (b.persist h) := by
  unfold persist
  split
  · exact .refl h
  · exact Host.informs_send ((h.withDisk _).warn _) rfl

theorem informs_commit (b : Breakpoints) (h : Host) (file : String) (change : BreakpointChange) :
    h.Informs (b.commit h file change).2 :=
  (informs_persist b h).trans (Host.informs_send _ rfl)

theorem persist_behind (b : Breakpoints) (h : Host) (events : List Event) :
    b.persist (h.behind events) = (b.persist h).behind events := by
  have hdisk : (h.behind events).disk = h.disk := rfl
  unfold persist
  rw [hdisk]
  cases h.disk.replace b.path b.merged.toJson.pretty with
  | mk result d =>
    cases result with
    | ok _ => rfl
    | error fault => exact Host.behind_send ((h.withDisk d).warn _) events _

theorem commit_behind (b : Breakpoints) (h : Host) (events : List Event) (file : String)
    (change : BreakpointChange) : b.commit (h.behind events) file change =
      ((b.commit h file change).1, (b.commit h file change).2.behind events) := by
  simp only [commit, announce, persist_behind, Host.behind_send]

/-! ### New compilations -/

theorem offsets_resync (b : Breakpoints) (h : Host) (ramMatches : Bool) (file : String)
    (offsets : Std.ExtTreeSet UInt32) (k : String) :
    (b.resync h ramMatches file offsets).1.offsets k =
      if k = file ∧ ramMatches then offsets else b.offsets k := by
  cases ramMatches with
  | true =>
    simp only [and_true]
    exact OffsetMap.offsets_replace b.primary file offsets k
  | false =>
    rw [if_neg (by simp)]
    rfl

theorem pending_resync (b : Breakpoints) (h : Host) (ramMatches : Bool) (file : String)
    (offsets : Std.ExtTreeSet UInt32) (k : String) :
    (b.resync h ramMatches file offsets).1.pendingOffsets? k =
      if k = file then (if ramMatches then none else some offsets) else b.pendingOffsets? k := by
  cases ramMatches with
  | true =>
    exact OffsetMap.lookup_erase b.pending file k
  | false =>
    exact OffsetMap.lookup_insert b.pending file offsets k

theorem latestOffsets_resync (b : Breakpoints) (h : Host) (ramMatches : Bool) (file : String)
    (offsets : Std.ExtTreeSet UInt32) (k : String) :
    (b.resync h ramMatches file offsets).1.latestOffsets k =
      if k = file then offsets else b.latestOffsets k := by
  rw [latestOffsets_eq, offsets_resync, pending_resync]
  by_cases hk : k = file
  · cases ramMatches <;> simp [hk]
  · simp only [hk, false_and, if_false]
    rfl

theorem informs_resync (b : Breakpoints) (h : Host) (ramMatches : Bool) (file : String)
    (offsets : Std.ExtTreeSet UInt32) : h.Informs (b.resync h ramMatches file offsets).2 := by
  unfold resync
  split_ifs
  · exact informs_commit _ h file .replaced
  · exact informs_persist _ h

/-! ### Reloads -/

theorem offsets_onReload (b : Breakpoints) (h : Host) (file k : String) :
    (b.onReload h file).1.offsets k = if k = file then b.latestOffsets k else b.offsets k := by
  cases hp : b.pending[file]? with
  | none =>
    have hlatest : b.latestOffsets file = b.offsets file := by
      rw [latestOffsets, hp]
      rfl
    simp only [onReload, hp]
    split_ifs with hk
    · rw [hk, hlatest]
    · rfl
  | some offsets =>
    have hlatest : b.latestOffsets file = offsets := by
      rw [latestOffsets, hp]
      rfl
    simp only [onReload, hp]
    refine (OffsetMap.offsets_replace b.primary file offsets k).trans ?_
    split_ifs with hk
    · rw [hk, hlatest]
    · rfl

theorem pending_onReload (b : Breakpoints) (h : Host) (file k : String) :
    (b.onReload h file).1.pendingOffsets? k = if k = file then none else b.pendingOffsets? k := by
  cases hp : b.pending[file]? with
  | none =>
    simp only [onReload, hp]
    split_ifs with hk
    · rw [hk]
      exact hp
    · rfl
  | some offsets =>
    simp only [onReload, hp]
    exact OffsetMap.lookup_erase b.pending file k

theorem latestOffsets_onReload (b : Breakpoints) (h : Host) (file k : String) :
    (b.onReload h file).1.latestOffsets k = b.latestOffsets k := by
  rw [latestOffsets_eq, offsets_onReload, pending_onReload]
  split_ifs
  · rfl
  · rfl

theorem informs_onReload (b : Breakpoints) (h : Host) (file : String) :
    h.Informs (b.onReload h file).2 := by
  unfold onReload
  split
  · exact .refl h
  · exact informs_commit _ h file .replaced

theorem onReload_behind (b : Breakpoints) (h : Host) (events : List Event) (file : String) :
    b.onReload (h.behind events) file =
      ((b.onReload h file).1, (b.onReload h file).2.behind events) := by
  unfold onReload
  split
  · rfl
  · exact commit_behind _ h events file .replaced

/-! ### Single breakpoints -/

theorem sameOf_add (b : Breakpoints) (h : Host) (hk : k ≠ file) (offset : UInt32) :
    b.SameOf (b.add h file offset).1 k := by
  unfold add
  split_ifs
  · exact ⟨rfl, rfl⟩
  · exact ⟨OffsetMap.offsets_add_of_ne b.primary hk offset, rfl⟩

theorem sameOf_remove (b : Breakpoints) (h : Host) (hk : k ≠ file) (offset : UInt32) :
    b.SameOf (b.remove h file offset).1 k := by
  unfold remove
  split_ifs
  · exact ⟨OffsetMap.offsets_remove_of_ne b.primary hk offset, rfl⟩
  · exact ⟨(OffsetMap.offsets_replace b.primary file (b.offsets file) k).trans (if_neg hk), rfl⟩

theorem sameOf_toggle (b : Breakpoints) (h : Host) (hk : k ≠ file) (offset : UInt32) :
    b.SameOf (b.toggle h file offset).2.1 k := by
  unfold toggle
  split_ifs
  · exact sameOf_remove b h hk offset
  · exact sameOf_add b h hk offset

theorem pending_add (b : Breakpoints) (h : Host) (file : String) (offset : UInt32) :
    (b.add h file offset).1.pending = b.pending := by
  unfold add
  split_ifs <;> rfl

theorem pending_remove (b : Breakpoints) (h : Host) (file : String) (offset : UInt32) :
    (b.remove h file offset).1.pending = b.pending := by
  unfold remove
  split_ifs <;> rfl

theorem pending_toggle (b : Breakpoints) (h : Host) (file : String) (offset : UInt32) :
    (b.toggle h file offset).2.1.pending = b.pending := by
  unfold toggle
  split_ifs
  · exact pending_remove b h file offset
  · exact pending_add b h file offset

theorem informs_add (b : Breakpoints) (h : Host) (file : String) (offset : UInt32) :
    h.Informs (b.add h file offset).2 := by
  unfold add
  split_ifs
  · exact .refl h
  · exact informs_commit _ h file (.added offset)

theorem informs_remove (b : Breakpoints) (h : Host) (file : String) (offset : UInt32) :
    h.Informs (b.remove h file offset).2 := by
  unfold remove
  split_ifs
  · exact informs_commit _ h file (.removed offset)
  · exact .refl h

theorem informs_toggle (b : Breakpoints) (h : Host) (file : String) (offset : UInt32) :
    h.Informs (b.toggle h file offset).2.2 := by
  unfold toggle
  split_ifs
  · exact informs_remove b h file offset
  · exact informs_add b h file offset

end Breakpoints

end SceneDebugger
