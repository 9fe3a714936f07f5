import SceneDebugger.Proofs.Session.Turns

/-!
# SceneDebugger.Proofs.Session.Polling — what a poll does to files and breakpoints

A poll takes the events that are in the queue one by one, and then those that the reloads have sent.

* `Session.Served`: what taking events does to every file, given which reloads are requested.
* `Session.served_poll`, `Session.poll_fst`: the same for a poll, and what the user is told.
* `JointSession.run_takes`: a poll is as many turns as it tells and drops events.
-/

namespace SceneDebugger

/-! ### Reloads -/

namespace ScriptFile

@[simp] theorem reloaded_flags (f : ScriptFile) : f.reloaded.flags = f.flags := by
  unfold reloaded
  split_ifs <;> rfl

theorem promote_promote {M : Type} (m : Marks M) : m.promote.promote = m.promote := by
  rcases m with ⟨permanent, _ | pair⟩ <;> rfl

/-- After a reload no map of a file that is not stale waits. -/
theorem reloaded_temporary {f : ScriptFile} (h : f.flags.ramMatches = true) :
    f.reloaded.marks.temporary = none := by
  rw [reloaded, if_pos h]
  rcases f.marks with ⟨permanent, _ | pair⟩ <;> rfl

theorem reloaded_reloaded (f : ScriptFile) : f.reloaded.reloaded = f.reloaded := by
  by_cases h : f.flags.ramMatches = true
  · simp only [reloaded, if_pos h, promote_promote]
  · simp only [reloaded, if_neg h]

end ScriptFile

namespace Workspace

variable {w w' : Workspace} {name k : String} {f : ScriptFile}

/-- The file is in use and not stale. -/
def canReload (w : Workspace) (name : String) : Bool :=
  (w.file? name).any fun f => f.flags.ramMatches

theorem canReload_of_file? (h : w.file? name = some f) : w.canReload name = f.flags.ramMatches := by
  rw [canReload, h, Option.any_some]

theorem canReload_of_used (h : (w.file? name).isSome) : w.canReload name = w.ramMatches name := by
  obtain ⟨f, hf⟩ := Option.isSome_iff_exists.mp h
  rw [canReload_of_file? hf, ramMatches_of_file? hf]

theorem applyReload_fst (w : Workspace) (name : String) :
    (w.applyReload name).1 = w.canReload name := by
  unfold applyReload canReload
  split
  · next h => rw [h]; rfl
  · next h => split_ifs with hram <;> simp [h, hram]

theorem applyReload_host (w : Workspace) (name : String) : (w.applyReload name).2.host = w.host := by
  unfold applyReload
  split
  · rfl
  · split_ifs <;> rfl

theorem file?_applyReload (hw : w.Named) (name k : String) :
    (w.applyReload name).2.file? k =
      if k = name then (w.file? k).map ScriptFile.reloaded else w.file? k := by
  unfold applyReload
  split
  · next h =>
    split_ifs with hk
    · rw [hk, h]
      rfl
    · rfl
  · next f h =>
    obtain rfl : f.name = name := hw name f h
    by_cases hram : f.flags.ramMatches = true
    · simp only [hram, if_true, file?_put]
      split_ifs with hk
      · rw [hk, h, Option.map_some, ScriptFile.reloaded, if_pos hram]
      · rfl
    · simp only [hram, Bool.false_eq_true, if_false]
      split_ifs with hk
      · rw [hk, h, Option.map_some, ScriptFile.reloaded, if_neg hram]
      · rfl

end Workspace

namespace Session

open Workspace

variable {s t u : Session} {events more : List Event} {k file : String}

/-! ### Events taken from the queue -/

/-- What taking events does: the reloads that they request are carried out on files that are not
stale, with their breakpoints. -/
structure Served (s : Session) (events : List Event) (t : Session) : Prop where
  named : t.workspace.Named
  file : ∀ k, t.workspace.file? k =
    if .reloadRequested k ∈ events then (s.workspace.file? k).map ScriptFile.reloaded
    else s.workspace.file? k
  pending : ∀ k, t.breakpoints.pendingOffsets? k =
    if .reloadRequested k ∈ events ∧ s.workspace.canReload k then none
    else s.breakpoints.pendingOffsets? k
  offsets : ∀ k, t.breakpoints.offsets k =
    if .reloadRequested k ∈ events ∧ s.workspace.canReload k then s.breakpoints.latestOffsets k
    else s.breakpoints.offsets k

theorem Served.canReload (h : s.Served events t) (k : String) :
    t.workspace.canReload k = s.workspace.canReload k := by
  rw [Workspace.canReload, Workspace.canReload, h.file]
  split_ifs
  · cases s.workspace.file? k <;> simp
  · rfl

theorem Served.used (h : s.Served events t) (hk : (s.workspace.file? k).isSome) :
    (t.workspace.file? k).isSome := by
  rw [h.file]
  split_ifs
  · rw [Option.isSome_map]
    exact hk
  · exact hk

theorem Served.ramMatches (h : s.Served events t) (k : String) :
    t.workspace.ramMatches k = s.workspace.ramMatches k := by
  rw [Workspace.ramMatches, Workspace.ramMatches, h.file]
  split_ifs
  · cases s.workspace.file? k <;> simp
  · rfl

theorem Served.latestOffsets (h : s.Served events t) (k : String) :
    t.breakpoints.latestOffsets k = s.breakpoints.latestOffsets k := by
  rw [Breakpoints.latestOffsets_eq, h.offsets, h.pending]
  split_ifs
  · rfl
  · rfl

theorem served_nil (hs : s.workspace.Named) : s.Served [] s := by
  refine ⟨hs, fun k => ?_, fun k => ?_, fun k => ?_⟩ <;> simp

theorem Served.append (h : s.Served events t) (h' : t.Served more u) :
    s.Served (events ++ more) u := by
  refine ⟨h'.named, fun k => ?_, fun k => ?_, fun k => ?_⟩
  · rw [h'.file, h.file]
    by_cases hfirst : .reloadRequested k ∈ events
    · simp only [hfirst, List.mem_append, true_or, if_true, Option.map_map]
      split_ifs
      · congr 1
        funext f
        exact f.reloaded_reloaded
      · rfl
    · simp only [hfirst, List.mem_append, false_or, if_false]
  · rw [h'.pending, h.pending, h.canReload]
    by_cases hready : s.workspace.canReload k = true
    · by_cases hfirst : .reloadRequested k ∈ events <;> simp [hready, hfirst]
    · simp [hready]
  · rw [h'.offsets, h.offsets, h.canReload, h.latestOffsets]
    by_cases hready : s.workspace.canReload k = true
    · by_cases hfirst : .reloadRequested k ∈ events <;> simp [hready, hfirst]
    · simp [hready]

/-- What the user is told of an event. -/
def answer (s : Session) (event : Event) : List Event :=
  match event with
  | .reloadRequested file => if s.workspace.canReload file then [.fileReloaded file] else []
  | event => [event]

/-- A request for a file that is not stale. -/
theorem takeEvent_of_ready (h : s.workspace.canReload file = true) :
    s.takeEvent (.reloadRequested file) = ([.fileReloaded file], { s with
      breakpoints := (s.breakpoints.onReload s.workspace.host file).1
      workspace := { (s.workspace.applyReload file).2 with
        host := (s.breakpoints.onReload s.workspace.host file).2 } }) := by
  have happly : s.workspace.applyReload file = (true, (s.workspace.applyReload file).2) :=
    Prod.ext ((applyReload_fst _ _).trans h) rfl
  have hhost := s.workspace.applyReload_host file
  have hdone : Reload.apply s.breakpoints s.workspace file =
      (true, Reload.within (s.workspace.applyReload file).2 fun h => s.breakpoints.onReload h file) := by
    unfold Reload.apply
    rw [happly]
  simp only [takeEvent, hdone, Reload.within, hhost, if_true]

/-- A request that has come too late, or for a file not in use, is dropped. -/
theorem takeEvent_of_stale (h : s.workspace.canReload file = false) :
    s.takeEvent (.reloadRequested file) =
      ([], { s with workspace := (s.workspace.applyReload file).2 }) := by
  have happly : s.workspace.applyReload file = (false, (s.workspace.applyReload file).2) :=
    Prod.ext ((applyReload_fst _ _).trans h) rfl
  have hdropped : Reload.apply s.breakpoints s.workspace file =
      (false, s.breakpoints, (s.workspace.applyReload file).2) := by
    unfold Reload.apply
    rw [happly]
  simp only [takeEvent, hdropped, Bool.false_eq_true, if_false]

theorem takeEvent_fst (s : Session) (event : Event) : (s.takeEvent event).1 = s.answer event := by
  cases event with
  | reloadRequested file =>
    cases hready : s.workspace.canReload file with
    | true => rw [takeEvent_of_ready hready, answer, if_pos hready]
    | false => rw [takeEvent_of_stale hready, answer, if_neg (Bool.eq_false_iff.mp hready)]
  | _ => rfl

theorem takeEvent_quiet (s : Session) {event : Event} (h : event.isReload = false) :
    s.takeEvent event = ([event], s) := by
  cases event with
  | reloadRequested file => cases h
  | _ => rfl

theorem informs_takeEvent (s : Session) (event : Event) :
    s.workspace.host.Informs (s.takeEvent event).2.workspace.host := by
  cases event with
  | reloadRequested file =>
    cases hready : s.workspace.canReload file with
    | true =>
      rw [takeEvent_of_ready hready]
      exact Breakpoints.informs_onReload _ _ file
    | false =>
      rw [takeEvent_of_stale hready]
      dsimp only
      rw [applyReload_host]
      exact .refl _
  | _ => exact .refl _

theorem served_takeEvent (hs : s.workspace.Named) (event : Event) :
    s.Served [event] (s.takeEvent event).2 := by
  cases event with
  | reloadRequested file =>
    have hmem : ∀ k, (Event.reloadRequested k ∈ [Event.reloadRequested file]) ↔ k = file := by simp
    have hnamed : (s.workspace.applyReload file).2.Named := (updates_applyReload hs file).named
    cases hready : s.workspace.canReload file with
    | true =>
      rw [takeEvent_of_ready hready]
      refine ⟨hnamed, fun k => ?_, fun k => ?_, fun k => ?_⟩
      · simp only [hmem]
        exact file?_applyReload hs file k
      · simp only [hmem, Breakpoints.pending_onReload]
        by_cases hk : k = file <;> simp [hk, hready]
      · simp only [hmem, Breakpoints.offsets_onReload]
        by_cases hk : k = file <;> simp [hk, hready]
    | false =>
      have hno : ∀ k, ¬ (k = file ∧ s.workspace.canReload k = true) := by
        rintro k ⟨rfl, hk⟩
        rw [hready] at hk
        cases hk
      rw [takeEvent_of_stale hready]
      refine ⟨hnamed, fun k => ?_, fun k => ?_, fun k => ?_⟩
      · simp only [hmem]
        exact file?_applyReload hs file k
      · simp only [hmem, if_neg (hno k)]
      · simp only [hmem, if_neg (hno k)]
  | _ => refine ⟨hs, fun k => ?_, fun k => ?_, fun k => ?_⟩ <;> simp [takeEvent]

theorem served_takeEvents (hs : s.workspace.Named) (events : List Event) :
    s.Served events (takeEvents events s).2 := by
  induction events generalizing s with
  | nil => exact served_nil hs
  | cons event rest ih =>
    have hfirst := served_takeEvent hs event
    exact hfirst.append (ih hfirst.named)

theorem takeEvents_fst (hs : s.workspace.Named) (events : List Event) :
    (takeEvents events s).1 = events.flatMap s.answer := by
  induction events generalizing s with
  | nil => rfl
  | cons event rest ih =>
    have hfirst := served_takeEvent hs event
    have hanswer : (s.takeEvent event).2.answer = s.answer := by
      funext e
      cases e with
      | reloadRequested file => simp only [answer, hfirst.canReload]
      | _ => rfl
    rw [List.flatMap_cons, ← takeEvent_fst, ← hanswer, ← ih hfirst.named]
    rfl

theorem informs_takeEvents (events : List Event) (s : Session) :
    s.workspace.host.Informs (takeEvents events s).2.workspace.host := by
  induction events generalizing s with
  | nil => exact .refl _
  | cons event rest ih => exact (informs_takeEvent s event).trans (ih _)

theorem takeEvents_quiet (s : Session) (h : ∀ e ∈ events, e.isReload = false) :
    takeEvents events s = (events, s) := by
  induction events with
  | nil => rfl
  | cons event rest ih =>
    have hrest := ih fun e he => h e (List.mem_cons_of_mem event he)
    simp only [takeEvents, takeEvent_quiet s (h event List.mem_cons_self), hrest]
    rfl

/-! ### Polls -/

/-- The events that the reloads of a poll send. -/
def sentByPoll (s : Session) : List Event :=
  (takeEvents s.workspace.host.events s.withoutEvents).2.workspace.host.events

theorem sentByPoll_notices (s : Session) : ∀ e ∈ s.sentByPoll, e.isNotice = true := by
  obtain ⟨more, hmore, hnotice⟩ := informs_takeEvents s.workspace.host.events s.withoutEvents
  rw [sentByPoll, hmore]
  exact hnotice

theorem isReload_of_isNotice {event : Event} (h : event.isNotice = true) : event.isReload = false := by
  cases event <;> first | rfl | cases h

/-- The user is told the events of the queue, a requested reload as a file reloaded, and then what
the reloads have sent. -/
theorem poll_fst (hs : s.workspace.Named) :
    s.poll.1 = s.workspace.host.events.flatMap s.answer ++ s.sentByPoll := by
  have htaken : (takeEvents s.workspace.host.events s.withoutEvents).1 =
      s.workspace.host.events.flatMap s.answer := takeEvents_fst (s := s.withoutEvents) hs _
  rw [← htaken]
  rfl

theorem served_poll (hs : s.workspace.Named) : s.Served s.workspace.host.events s.poll.2 := by
  have hserved : s.withoutEvents.Served s.workspace.host.events
      (takeEvents s.workspace.host.events s.withoutEvents).2 :=
    served_takeEvents (s := s.withoutEvents) hs _
  exact ⟨hserved.named, hserved.file, hserved.pending, hserved.offsets⟩

theorem poll_events (s : Session) : s.poll.2.workspace.host.events = [] := rfl

/-! ### Polls event by event -/

/-- The session with events before those in the queue. -/
def behind (s : Session) (events : List Event) : Session :=
  { s with workspace := { s.workspace with host := s.workspace.host.behind events } }

theorem applyReload_behind (w : Workspace) (events : List Event) (file : String) :
    ({ w with host := w.host.behind events } : Workspace).applyReload file =
      ((w.applyReload file).1,
        { (w.applyReload file).2 with host := (w.applyReload file).2.host.behind events }) := by
  have hfile : ({ w with host := w.host.behind events } : Workspace).file? file = w.file? file := rfl
  unfold applyReload
  rw [hfile]
  cases w.file? file with
  | none => rfl
  | some f =>
    dsimp only
    split_ifs <;> rfl

/-- Taking an event does not depend on the events behind it. -/
theorem takeEvent_behind (s : Session) (events : List Event) (event : Event) :
    (s.behind events).takeEvent event =
      ((s.takeEvent event).1, (s.takeEvent event).2.behind events) := by
  cases event with
  | reloadRequested file =>
    have hcan : (s.behind events).workspace.canReload file = s.workspace.canReload file := rfl
    have hreload := applyReload_behind s.workspace events file
    have honReload := Breakpoints.onReload_behind s.breakpoints s.workspace.host events file
    cases hready : s.workspace.canReload file with
    | true =>
      rw [takeEvent_of_ready hready, takeEvent_of_ready (hcan.trans hready)]
      simp only [behind, hreload, honReload]
    | false =>
      rw [takeEvent_of_stale hready, takeEvent_of_stale (hcan.trans hready)]
      simp only [behind, hreload]
  | _ => rfl

end Session

namespace JointSession

open Session

variable {j : JointSession}

theorem take_behind {s : Session} (event : Event) (rest : List Event) (told : List Event) :
    ({ session := s.behind (event :: rest), told } : JointSession).perform .take =
      { session := (s.takeEvent event).2.behind rest, told := told ++ (s.takeEvent event).1 } := by
  have htaken := takeEvent_behind s rest event
  simp only [perform, if_true, take]
  exact congrArg (fun r : List Event × Session =>
    ({ session := r.2, told := told ++ r.1 } : JointSession)) htaken

/-- Events are taken one by one, while others are put behind them. -/
theorem run_takes_behind (s : Session) (events told : List Event) :
    ({ session := s.behind events, told } : JointSession).run (.replicate events.length .take) =
      { session := (takeEvents events s).2, told := told ++ (takeEvents events s).1 } := by
  induction events generalizing s told with
  | nil => simp [takeEvents, behind, Host.behind]
  | cons event rest ih =>
    rw [List.length_cons, List.replicate_succ, run_cons, take_behind, ih]
    simp only [takeEvents, List.append_assoc]

/-- A poll is done by taking events until there are none. -/
theorem run_takes (h : j.unfinished = []) : ∃ n, j.run (.replicate n .take) =
    { j with session := j.session.poll.2, told := j.told ++ j.session.poll.1 } := by
  obtain ⟨s, unfinished, told⟩ := j
  cases h
  set events := s.workspace.host.events with hevents
  set taken := takeEvents events s.withoutEvents with htaken
  have hsent : s.sentByPoll = taken.2.workspace.host.events := rfl
  have hfirst : s.withoutEvents.behind events = s := by
    simp [behind, Host.behind, withoutEvents, hevents]
  have hsecond : taken.2.withoutEvents.behind s.sentByPoll = taken.2 := by
    simp [behind, Host.behind, withoutEvents, hsent]
  have hquiet : takeEvents s.sentByPoll taken.2.withoutEvents =
      (s.sentByPoll, taken.2.withoutEvents) :=
    takeEvents_quiet _ fun e he => isReload_of_isNotice (s.sentByPoll_notices e he)
  refine ⟨events.length + s.sentByPoll.length, ?_⟩
  have hqueue := run_takes_behind s.withoutEvents events told
  have hrest := run_takes_behind taken.2.withoutEvents s.sentByPoll (told ++ taken.1)
  rw [hfirst, ← htaken] at hqueue
  rw [hsecond, hquiet] at hrest
  rw [← List.replicate_append_replicate, run_append, hqueue, hrest, List.append_assoc]
  rfl

end JointSession

end SceneDebugger
