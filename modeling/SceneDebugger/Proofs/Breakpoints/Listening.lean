import SceneDebugger.Proofs.Breakpoints.Stored

/-!
# SceneDebugger.Proofs.Breakpoints.Listening — a copy kept by listening

A listener has a copy of the breakpoints in force.  It learns of a change when the store is done with
it: an offset that was added or removed is added to the copy or removed from it, and the offsets of a
file that was replaced are looked up anew.

* `BreakpointCall.tells`: what a call announces, which is at most one change.
* `Listening.Copies.after`: after every call the copy has the breakpoints in force of every file.
* `Heard.mirrors`: the whole of what a listener can rely on, in every run of calls.
-/

namespace SceneDebugger

namespace Breakpoints

variable {b b' : Breakpoints} {h h' : Host} {file k : String} {offset : UInt32}
  {change : BreakpointChange}

/-! ### Offsets in force -/

theorem offsets_add (b : Breakpoints) (h : Host) (file : String) (offset : UInt32) (k : String) :
    (b.add h file offset).1.offsets k =
      if k = file ∧ b.contains file offset = false then (b.offsets k).insert offset
      else b.offsets k := by
  unfold add
  cases hcontains : b.contains file offset with
  | true => simp
  | false =>
    refine (OffsetMap.offsets_insert b.primary file _ k).trans ?_
    by_cases hk : k = file
    · simp [hk, offsets]
    · simp [hk, offsets]

theorem offsets_remove (b : Breakpoints) (h : Host) (file : String) (offset : UInt32) (k : String) :
    (b.remove h file offset).1.offsets k =
      if k = file ∧ b.contains file offset = true then (b.offsets k).erase offset
      else b.offsets k := by
  unfold remove
  cases hcontains : b.contains file offset with
  | true =>
    refine (OffsetMap.offsets_replace b.primary file _ k).trans ?_
    by_cases hk : k = file
    · simp [hk, offsets]
    · simp [hk, offsets]
  | false =>
    refine (OffsetMap.offsets_replace b.primary file _ k).trans ?_
    by_cases hk : k = file
    · simp [hk]
    · simp [hk, offsets]

/-- What is said of a breakpoint is what became of it. -/
def IsReal (b b' : Breakpoints) (file : String) : BreakpointChange → Prop
  | .added offset => b.contains file offset = false ∧ b'.contains file offset = true
  | .removed offset => b.contains file offset = true ∧ b'.contains file offset = false
  | .replaced => True

theorem isReal_add (hnew : b.contains file offset = false) (h : Host) :
    b.IsReal (b.add h file offset).1 file (.added offset) := by
  refine ⟨hnew, ?_⟩
  show ((b.add h file offset).1.offsets file).contains offset = true
  rw [offsets_add, if_pos ⟨rfl, hnew⟩]
  simp

theorem isReal_remove (hold : b.contains file offset = true) (h : Host) :
    b.IsReal (b.remove h file offset).1 file (.removed offset) := by
  refine ⟨hold, ?_⟩
  show ((b.remove h file offset).1.offsets file).contains offset = false
  rw [offsets_remove, if_pos ⟨rfl, hold⟩]
  simp

/-! ### Notices of changes -/

/-- The file that an event says has other breakpoints. -/
def changedFile? : Event → Option String
  | .breakpointsChanged file => some file
  | _ => none

/-- Changes were announced, each with one event for the user, and the user learned of no other
changes. -/
structure Tells (b : Breakpoints) (h : Host) (b' : Breakpoints) (h' : Host)
    (told : List (String × BreakpointChange)) : Prop where
  announced : b'.announced = b.announced ++ told
  events : ∃ more, h'.events = h.events ++ more ∧
    more.filterMap changedFile? = told.map Prod.fst

theorem tells_nothing (ha : b'.announced = b.announced) (h : Host) : b.Tells h b' h [] :=
  ⟨by rw [ha, List.append_nil], [], (List.append_nil _).symm, rfl⟩

theorem tells_persist (ha : b'.announced = b.announced) (h : Host) :
    b.Tells h b' (b'.persist h) [] := by
  refine ⟨by rw [ha, List.append_nil], ?_⟩
  unfold persist
  split
  · exact ⟨[], (List.append_nil _).symm, rfl⟩
  · exact ⟨_, rfl, rfl⟩

theorem tells_commit (ha : b'.announced = b.announced) (h : Host) (file : String)
    (change : BreakpointChange) :
    b.Tells h (b'.commit h file change).1 (b'.commit h file change).2 [(file, change)] := by
  obtain ⟨-, more, hmore, hfiles⟩ := tells_persist ha h
  refine ⟨congrArg (· ++ [(file, change)]) ha, more ++ [.breakpointsChanged file], ?_, ?_⟩
  · rw [← List.append_assoc, ← hmore]
    rfl
  · rw [List.filterMap_append, hfiles]
    rfl

theorem tells_add (hnew : b.contains file offset = false) (h : Host) :
    b.Tells h (b.add h file offset).1 (b.add h file offset).2 [(file, .added offset)] := by
  rw [add, if_neg (by rw [hnew]; decide)]
  exact tells_commit (by rfl) h file _

theorem tells_remove (hold : b.contains file offset = true) (h : Host) :
    b.Tells h (b.remove h file offset).1 (b.remove h file offset).2 [(file, .removed offset)] := by
  rw [remove, if_pos hold]
  exact tells_commit (by rfl) h file _

end Breakpoints

/-! ### Calls -/

namespace BreakpointCall

variable {b : Breakpoints} {h : Host}

/-- What a call announces. -/
def tells (b : Breakpoints) : BreakpointCall → List (String × BreakpointChange)
  | .add file offset => if b.contains file offset then [] else [(file, .added offset)]
  | .remove file offset => if b.contains file offset then [(file, .removed offset)] else []
  | .toggle file offset =>
    [(file, if b.contains file offset then .removed offset else .added offset)]
  | .resync ramMatches file _ => if ramMatches then [(file, .replaced)] else []
  | .onReload file => if (b.pendingOffsets? file).isSome then [(file, .replaced)] else []

/-- A call announces what it is said to announce, and that only. -/
theorem tells_run (c : BreakpointCall) : b.Tells h (c.run b h).1 (c.run b h).2 (c.tells b) := by
  cases c with
  | add file offset =>
    cases hcontains : b.contains file offset with
    | true =>
      have hrun : b.add h file offset = (b, h) := if_pos hcontains
      rw [run, hrun, tells, if_pos hcontains]
      exact Breakpoints.tells_nothing rfl h
    | false =>
      rw [tells, if_neg (by rw [hcontains]; decide)]
      exact Breakpoints.tells_add hcontains h
  | remove file offset =>
    cases hcontains : b.contains file offset with
    | true =>
      rw [tells, if_pos hcontains]
      exact Breakpoints.tells_remove hcontains h
    | false =>
      rw [run, Breakpoints.remove, tells, if_neg (by rw [hcontains]; decide),
        if_neg (by rw [hcontains]; decide)]
      exact Breakpoints.tells_nothing (by rfl) h
  | toggle file offset =>
    rw [run, Breakpoints.toggle, tells]
    cases hcontains : b.contains file offset with
    | true => exact Breakpoints.tells_remove hcontains h
    | false => exact Breakpoints.tells_add hcontains h
  | resync ramMatches file offsets =>
    cases ramMatches with
    | true => exact Breakpoints.tells_commit (by rfl) h file .replaced
    | false => exact Breakpoints.tells_persist (by rfl) h
  | onReload file =>
    rw [run, Breakpoints.onReload, tells, Breakpoints.pendingOffsets?]
    cases b.pending[file]? with
    | none => exact Breakpoints.tells_nothing rfl h
    | some offsets => exact Breakpoints.tells_commit (by rfl) h file .replaced

/-- A breakpoint that is announced as added or removed was added or removed by the call. -/
theorem isReal_run (c : BreakpointCall) {file : String} {change : BreakpointChange}
    (htold : (file, change) ∈ c.tells b) : b.IsReal (c.run b h).1 file change := by
  cases c with
  | add file' offset =>
    rw [tells] at htold
    split_ifs at htold with hcontains
    · cases htold
    · cases List.mem_singleton.mp htold
      exact Breakpoints.isReal_add (by simpa using hcontains) h
  | remove file' offset =>
    rw [tells] at htold
    split_ifs at htold with hcontains
    · cases List.mem_singleton.mp htold
      exact Breakpoints.isReal_remove hcontains h
    · cases htold
  | toggle file' offset =>
    rw [run, Breakpoints.toggle]
    rw [tells] at htold
    cases hcontains : b.contains file' offset with
    | true =>
      rw [hcontains, if_pos rfl] at htold
      cases List.mem_singleton.mp htold
      exact Breakpoints.isReal_remove hcontains h
    | false =>
      rw [hcontains, if_neg (by decide)] at htold
      cases List.mem_singleton.mp htold
      exact Breakpoints.isReal_add hcontains h
  | resync ramMatches file' offsets =>
    rw [tells] at htold
    split_ifs at htold
    · cases List.mem_singleton.mp htold
      trivial
    · cases htold
  | onReload file' =>
    rw [tells] at htold
    split_ifs at htold
    · cases List.mem_singleton.mp htold
      trivial
    · cases htold

/-- The call sets or clears a single breakpoint. -/
def isSingle : BreakpointCall → Bool
  | .add _ _ => true
  | .remove _ _ => true
  | .toggle _ _ => true
  | .resync _ _ _ => false
  | .onReload _ => false

/-- A call that announces no change of a single breakpoint neither writes the file nor tells the
user anything. -/
theorem host_run_of_silent (c : BreakpointCall) (hc : c.isSingle = true) (htold : c.tells b = []) :
    (c.run b h).2 = h := by
  refine (run_of_not_writes c ?_).2.1
  cases c with
  | add file offset =>
    rw [tells] at htold
    split_ifs at htold with hcontains
    rw [writes, hcontains]
    rfl
  | remove file offset =>
    rw [tells] at htold
    split_ifs at htold with hcontains
    exact eq_false_of_ne_true hcontains
  | toggle file offset => cases htold
  | resync ramMatches file offsets => cases hc
  | onReload file => cases hc

/-- A call that leaves its single breakpoint as it was announces nothing. -/
theorem tells_of_same (c : BreakpointCall) (hc : c.isSingle = true)
    (hsame : ∀ k, (c.run b h).1.offsets k = b.offsets k) : c.tells b = [] := by
  have hcontains : ∀ file offset, (c.run b h).1.contains file offset = b.contains file offset := by
    intro file offset
    show ((c.run b h).1.offsets file).contains offset = (b.offsets file).contains offset
    rw [hsame]
  cases c with
  | add file offset =>
    cases hnew : b.contains file offset with
    | true => exact if_pos hnew
    | false =>
      have hadded := (Breakpoints.isReal_add hnew h).2
      cases hadded.symm.trans ((hcontains file offset).trans hnew)
  | remove file offset =>
    cases hold : b.contains file offset with
    | true =>
      have hremoved := (Breakpoints.isReal_remove hold h).2
      cases hremoved.symm.trans ((hcontains file offset).trans hold)
    | false => exact if_neg (by rw [hold]; decide)
  | toggle file offset =>
    have htoggle := hcontains file offset
    rw [run, Breakpoints.toggle] at htoggle
    cases hold : b.contains file offset with
    | true =>
      rw [if_pos hold] at htoggle
      cases (Breakpoints.isReal_remove hold h).2.symm.trans (htoggle.trans hold)
    | false =>
      rw [if_neg (by rw [hold]; decide)] at htoggle
      cases (Breakpoints.isReal_add hold h).2.symm.trans (htoggle.trans hold)
  | resync ramMatches file offsets => cases hc
  | onReload file => cases hc

end BreakpointCall

/-! ### Listening -/

/-- A store among its surroundings, and a listener's copy of the breakpoints in force. -/
structure Listening where
  breakpoints : Breakpoints
  host : Host
  copy : OffsetMap

namespace Listening

/-- The copy of a listener who hears of a change in a file, when the store is as given. -/
def hear (b : Breakpoints) (copy : OffsetMap) : String × BreakpointChange → OffsetMap
  | (file, .added offset) => copy.add file offset
  | (file, .removed offset) => copy.remove file offset
  | (file, .replaced) => copy.replace file (b.offsets file)

/-- The changes that the listener hears of during a call. -/
def heard (l : Listening) (c : BreakpointCall) : List (String × BreakpointChange) :=
  (c.run l.breakpoints l.host).1.announced.drop l.breakpoints.announced.length

/-- The store and the copy after a call. -/
def after (l : Listening) (c : BreakpointCall) : Listening where
  breakpoints := (c.run l.breakpoints l.host).1
  host := (c.run l.breakpoints l.host).2
  copy := (l.heard c).foldl (hear (c.run l.breakpoints l.host).1) l.copy

/-- The copy has the breakpoints in force of every file. -/
def Copies (l : Listening) : Prop := ∀ k, l.copy.offsets k = l.breakpoints.offsets k

theorem heard_eq (l : Listening) (c : BreakpointCall) : l.heard c = c.tells l.breakpoints := by
  rw [heard, (c.tells_run (h := l.host)).announced, List.drop_left]

theorem hear_add {b : Breakpoints} {copy : OffsetMap} (hcopy : ∀ k, copy.offsets k = b.offsets k)
    {file : String} {offset : UInt32} (hnew : b.contains file offset = false) (h : Host)
    (k : String) :
    (hear (b.add h file offset).1 copy (file, .added offset)).offsets k =
      (b.add h file offset).1.offsets k := by
  rw [Breakpoints.offsets_add, hear, OffsetMap.add, OffsetMap.offsets_insert]
  by_cases hk : k = file
  · rw [if_pos hk, if_pos ⟨hk, hnew⟩, hk, hcopy]
  · rw [if_neg hk, if_neg (hk ·.1), hcopy]

theorem hear_remove {b : Breakpoints} {copy : OffsetMap}
    (hcopy : ∀ k, copy.offsets k = b.offsets k) {file : String} {offset : UInt32}
    (hold : b.contains file offset = true) (h : Host) (k : String) :
    (hear (b.remove h file offset).1 copy (file, .removed offset)).offsets k =
      (b.remove h file offset).1.offsets k := by
  rw [Breakpoints.offsets_remove, hear, OffsetMap.remove, OffsetMap.offsets_replace]
  by_cases hk : k = file
  · rw [if_pos hk, if_pos ⟨hk, hold⟩, hk, hcopy]
  · rw [if_neg hk, if_neg (hk ·.1), hcopy]

/-- Looking a file up anew is right where no other file has changed. -/
theorem hear_replaced {b b' : Breakpoints} {copy : OffsetMap}
    (hcopy : ∀ k, copy.offsets k = b.offsets k) {file : String}
    (hothers : ∀ k, k ≠ file → b'.offsets k = b.offsets k) (k : String) :
    (hear b' copy (file, .replaced)).offsets k = b'.offsets k := by
  rw [hear, OffsetMap.offsets_replace]
  split_ifs with hk
  · rw [hk]
  · rw [hcopy, hothers k hk]

/-- After every call the copy has the breakpoints in force again. -/
theorem Copies.after {l : Listening} (hl : l.Copies) (c : BreakpointCall) : (l.after c).Copies := by
  intro k
  rw [Listening.after, heard_eq]
  dsimp only
  cases c with
  | add file offset =>
    rw [BreakpointCall.run, BreakpointCall.tells]
    cases hnew : l.breakpoints.contains file offset with
    | true =>
      rw [if_pos rfl, Breakpoints.offsets_add, if_neg fun hboth => by cases hnew.symm.trans hboth.2]
      exact hl k
    | false => exact hear_add hl hnew l.host k
  | remove file offset =>
    rw [BreakpointCall.run, BreakpointCall.tells]
    cases hold : l.breakpoints.contains file offset with
    | true => exact hear_remove hl hold l.host k
    | false =>
      rw [if_neg (by decide), Breakpoints.offsets_remove,
        if_neg fun hboth => by cases hold.symm.trans hboth.2]
      exact hl k
  | toggle file offset =>
    rw [BreakpointCall.run, BreakpointCall.tells, Breakpoints.toggle]
    cases hold : l.breakpoints.contains file offset with
    | true => exact hear_remove hl hold l.host k
    | false => exact hear_add hl hold l.host k
  | resync ramMatches file offsets =>
    cases ramMatches with
    | true =>
      refine hear_replaced hl (fun other hother => ?_) k
      rw [BreakpointCall.run, Breakpoints.offsets_resync, if_neg (hother ·.1)]
    | false => exact hl k
  | onReload file =>
    rw [BreakpointCall.tells]
    cases hpending : l.breakpoints.pendingOffsets? file with
    | none =>
      rw [Option.isSome_none, if_neg (by decide), BreakpointCall.run, Breakpoints.onReload,
        ← Breakpoints.pendingOffsets?, hpending]
      exact hl k
    | some offsets =>
      refine hear_replaced hl (fun other hother => ?_) k
      rw [BreakpointCall.run, Breakpoints.offsets_onReload, if_neg hother]

end Listening

/-- What a listener can see: it starts with a copy of what is in force in any store, and calls
follow, between which anything may happen to the surroundings. -/
inductive Heard : Listening → Prop where
  | start {l : Listening} (hcopy : l.Copies) : Heard l
  | call {l : Listening} (c : BreakpointCall) : Heard l → Heard (l.after c)
  | surroundings {l : Listening} (h : Host) : Heard l → Heard { l with host := h }

theorem Heard.copies {l : Listening} (hl : Heard l) : l.Copies := by
  induction hl with
  | start hcopy => exact hcopy
  | call c _ ih => exact ih.after c
  | surroundings h _ ih => exact ih

/-- A listener has the breakpoints in force of every file, before and after every call.  What it hears
of single breakpoints is real, each change comes with one event for the same file, in the same order,
and a call that leaves the single breakpoint that it is about as it was is silent: nothing is
announced, sent or written. -/
theorem Heard.mirrors {l : Listening} (hl : Heard l) (c : BreakpointCall) :
    l.Copies ∧ (l.after c).Copies ∧
      (l.after c).breakpoints.announced = l.breakpoints.announced ++ l.heard c ∧
      (∀ file change, (file, change) ∈ l.heard c →
        l.breakpoints.IsReal (l.after c).breakpoints file change) ∧
      (c.isSingle = true → (∀ k, l.breakpoints.SameOf (l.after c).breakpoints k) →
        l.heard c = [] ∧ (l.after c).host = l.host) ∧
      ∃ more, (l.after c).host.events = l.host.events ++ more ∧
        more.filterMap Breakpoints.changedFile? = (l.heard c).map Prod.fst := by
  have htells := c.tells_run (b := l.breakpoints) (h := l.host)
  refine ⟨hl.copies, hl.copies.after c, ?_, fun file change htold => ?_, fun hc hsame => ?_, ?_⟩
  · rw [l.heard_eq]
    exact htells.announced
  · rw [l.heard_eq] at htold
    exact c.isReal_run htold
  · have hsilent := c.tells_of_same hc fun k => (hsame k).offsets
    rw [l.heard_eq]
    exact ⟨hsilent, c.host_run_of_silent hc hsilent⟩
  · rw [l.heard_eq]
    exact htells.events

namespace Listening

/-- A file has a breakpoint in force, another one waits for its reload, and a third one is set. -/
def waiting : Listening :=
  { breakpoints :=
      { path := ⟨"breakpoints.json"⟩
        primary := OffsetMap.add ∅ "a.ssb" 3
        pending := OffsetMap.add ∅ "a.ssb" 8 }
    host := {}
    copy := OffsetMap.add ∅ "a.ssb" 3 : Listening }.after (.add "a.ssb" 5)

end Listening

theorem Heard.mirrors_waiting :
    Heard Listening.waiting ∧
      Listening.waiting.copy.offsets "a.ssb" = Std.ExtTreeSet.ofList [(3 : UInt32), 5] ∧
      (Listening.waiting.after (.onReload "a.ssb")).Copies ∧
      (Listening.waiting.after (.onReload "a.ssb")).copy.offsets "a.ssb" =
        Std.ExtTreeSet.ofList [(8 : UInt32)] ∧
      Listening.waiting.heard (.onReload "a.ssb") = [("a.ssb", .replaced)] := by
  have hheard : Heard Listening.waiting := .call _ (.start fun _ => rfl)
  exact ⟨hheard, by decide +kernel, (hheard.mirrors (.onReload "a.ssb")).2.1, by decide +kernel,
    by decide +kernel⟩

end SceneDebugger
