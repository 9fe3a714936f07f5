import SceneDebugger.Proofs.Session.TurnEffects

/-!
# SceneDebugger.Proofs.Session.Requests — whatever waits for a reload has its reload requested

Maps and breakpoints of a file wait while the file is stale.  Once it is not, a request for its reload
is in the queue, or the save that made them wait is not finished yet and will send one.

* `JointSession.Orderly`: this invariant, which every turn keeps (`JointSession.Orderly.perform`).
* `JointSession.Orderly.file?_poll`, `JointSession.Orderly.offsets_poll`: a poll puts in use all that
  waits for files that are not stale.
* `JointSession.nothing_stranded`: what a poll owes to the files and to the user.
-/

namespace SceneDebugger

open Workspace

/-- A file of which maps wait has them waiting since before the step, unless the step is a save or makes
the file stale. -/
theorem ScriptFile.Stepped.waits {f f' : ScriptFile} {hashes hashes' : Set String} {fills : Prop}
    {c : Marking StampedMap} (hs : f.Stepped hashes fills f' hashes' c)
    (hram : f'.flags.ramMatches = true) (hsome : f'.marks.temporary.isSome = true)
    (hc : ∀ view map, c ≠ .supersede view map) : f.marks.temporary.isSome = true := by
  cases hs with
  | edited _ he =>
    cases he with
    | same => exact hsome
    | opened => exact hsome
    | closed => exact hsome
    | loadedSsbs text => exact (isSome_record _ _ _).symm.trans hsome
    | loadedExps text => exact (isSome_record _ _ _).symm.trans hsome
    | saved o program ssbs exps _ => exact absurd rfl (hc _ _)
    | reloaded _ =>
      have hnone : f.marks.promote.temporary = none := by
        rcases f.marks with ⟨permanent, _ | pair⟩ <;> rfl
      rw [hnone] at hsome
      cases hsome
  | released _ hr => rwa [hr.marks] at hsome
  | filled _ hf =>
    cases hf with
    | entered _ _ => rwa [entered_marks] at hsome
    | restored _ _ => cases hram

namespace JointSession

open Session

variable {j : JointSession} {name : String} {f : ScriptFile} {o : SaveOutcome} {t : Turn}

/-- Whatever waits for a file that is not stale is about to be put in use. -/
structure Orderly (j : JointSession) : Prop where
  tracks : j.session.Tracks
  /-- The queue has requests for files in use, and no report of a reload. -/
  requests : ∀ e ∈ j.session.workspace.host.reloads, ∃ file,
    e = .reloadRequested file ∧ (j.session.workspace.file? file).isSome
  saved : ∀ o ∈ j.unfinished, (j.session.workspace.file? o.file).isSome
  maps : ∀ name f, j.session.workspace.seen? name = some f → f.flags.ramMatches = true →
    f.marks.temporary.isSome = true → .reloadRequested name ∈ j.session.workspace.host.reloads ∨
      ∃ o ∈ j.unfinished, o.file = name ∧ o.ready = true
  offsets : ∀ name, (j.session.breakpoints.pendingOffsets? name).isSome →
    j.session.workspace.ramMatches name = false ∨
      .reloadRequested name ∈ j.session.workspace.host.reloads

theorem New.orderly (h : j.New) : j.Orderly := by
  refine ⟨h.fresh.tracks, fun e he => ?_, fun o ho => ?_, fun name f hf _ hsome => ?_,
    fun name hsome => ?_⟩
  · rw [h.quiet] at he
    cases he
  · rw [h.unfinished] at ho
    cases ho
  · obtain ⟨program, hash, rfl⟩ := eq_of_seen?_of_absent (h.fresh.absent name) hf
    cases hsome
  · rw [Breakpoints.pendingOffsets?, h.pending] at hsome
    simp at hsome

/-! ### Turns that leave the queue to others -/

theorem Orderly.requested_of_stale (hn : j.session.workspace.Notifies (j.perform t).session.workspace)
    (hf : j.session.workspace.seen? name = some f) (hstale : f.flags.ramMatches = false)
    {f' : ScriptFile} (hf' : (j.perform t).session.workspace.seen? name = some f')
    (hram : f'.flags.ramMatches = true) :
    .reloadRequested name ∈ (j.perform t).session.workspace.host.reloads := by
  have hbefore : j.session.workspace.ramMatches name = false :=
    ramMatches_eq_false.mpr ⟨f, file?_of_stale hf hstale, hstale⟩
  obtain hafter | hrequest := hn.requested name hbefore
  · obtain ⟨g, hg, hgstale⟩ := ramMatches_eq_false.mp hafter
    rw [seen?_of_file? hg] at hf'
    cases hf'
    rw [hram] at hgstale
    cases hgstale
  · exact hrequest

theorem Notifies.reloads_mem {w w' : Workspace} (hn : w.Notifies w') {e : Event}
    (he : e ∈ w.host.reloads) : e ∈ w'.host.reloads := by
  obtain ⟨more, hmore, -⟩ := hn.queued
  rw [hmore]
  exact List.mem_append_left _ he

/-- A save that leaves the file as it should be has found it in no place. -/
theorem ready_of_saved (hj : j.session.workspace.Named) (ho : j.saved? t = some o)
    (hf : (j.perform t).session.workspace.seen? o.file = some f) (hram : f.flags.ramMatches = true) :
    o ∈ (j.perform t).unfinished ∧ o.ready = true := by
  obtain ⟨view, text, before, c, program, ssbs, exps, rfl, -, hoeq, -, hafter⟩ := saved?_eq_some hj ho
  rw [seen?_of_file? hafter] at hf
  cases hf
  have hflags : (!before.flags.inGround && before.flags.ramMatches) = true :=
    (before.recompiled_ramMatches o.view program o.newMap o.hash).symm.trans hram
  rw [Bool.and_eq_true] at hflags
  constructor
  · rw [unfinished_perform_save, ho]
    exact List.mem_append_right _ (List.mem_singleton.mpr rfl)
  · rw [hoeq]
    exact hflags.1

theorem Orderly.maps_perform (h : j.Orderly)
    (hn : j.session.workspace.Notifies (j.perform t).session.workspace) {f' : ScriptFile}
    (hf' : (j.perform t).session.workspace.seen? name = some f') (hram : f'.flags.ramMatches = true)
    (hsome : f'.marks.temporary.isSome = true) :
    .reloadRequested name ∈ (j.perform t).session.workspace.host.reloads ∨
      ∃ o ∈ (j.perform t).unfinished, o.file = name ∧ o.ready = true := by
  have hin : (j.perform t).session.workspace.file? name = some f' := by
    obtain hin | ⟨habsent, -⟩ := seen?_cases hf'
    · exact hin
    · rw [marks_of_absent habsent hf'] at hsome
      cases hsome
  obtain ⟨f, hf, hstep⟩ := (steps_perform h.tracks.named t).stepped name f' hin
  by_cases hsave : ∃ o, j.saved? t = some o ∧ o.file = name
  · obtain ⟨o, ho, rfl⟩ := hsave
    obtain ⟨hmem, hready⟩ := ready_of_saved h.tracks.named ho hf' hram
    exact .inr ⟨o, hmem, rfl, hready⟩
  · have hmarked := marked h.tracks.named t name f
    have hc : ∀ view map, j.session.marking (j.action t) name f ≠ .supersede view map := by
      intro view map heq
      rw [heq] at hmarked
      cases hmarked with
      | saved ho hfile => exact hsave ⟨_, ho, hfile⟩
    have hwaits := hstep.waits hram hsome hc
    cases hbefore : f.flags.ramMatches with
    | false => exact .inl (Orderly.requested_of_stale hn hf hbefore hf' hram)
    | true =>
      obtain hrequest | ⟨o, ho, hfile, hready⟩ := h.maps name f hf hbefore hwaits
      · exact .inl (Notifies.reloads_mem hn hrequest)
      · obtain hkept | hrequest := mem_unfinished_of_ready (t := t) ho hready
        · exact .inr ⟨o, hkept, hfile, hready⟩
        · exact .inl (hfile ▸ hrequest)

theorem Orderly.offsets_perform (h : j.Orderly)
    (hn : j.session.workspace.Notifies (j.perform t).session.workspace) (ht : t ≠ .take)
    (hsome : ((j.perform t).session.breakpoints.pendingOffsets? name).isSome) :
    (j.perform t).session.workspace.ramMatches name = false ∨
      .reloadRequested name ∈ (j.perform t).session.workspace.host.reloads := by
  have hkept : (j.session.breakpoints.pendingOffsets? name).isSome →
      (j.perform t).session.workspace.ramMatches name = false ∨
        .reloadRequested name ∈ (j.perform t).session.workspace.host.reloads := by
    intro hbefore
    obtain hstale | hrequest := h.offsets name hbefore
    · exact hn.requested name hstale
    · exact .inr (Notifies.reloads_mem hn hrequest)
  have hadjusted := adjusted h.tracks.named t name
  generalize (j.perform t).session.breakpoints = b at hadjusted hsome
  cases hadjusted with
  | same _ hs =>
    rw [hs.pending] at hsome
    exact hkept hsome
  | followed _ _ host =>
    rw [Breakpoints.pending_resync, if_pos rfl] at hsome
    cases hram : j.session.workspace.ramMatches name with
    | true =>
      rw [hram] at hsome
      cases hsome
    | false => exact hn.requested name hram
  | reloaded _ _ _ => exact absurd rfl ht
  | added offset host =>
    rw [Breakpoints.pendingOffsets?, Breakpoints.pending_add] at hsome
    exact hkept hsome
  | removed offset host =>
    rw [Breakpoints.pendingOffsets?, Breakpoints.pending_remove] at hsome
    exact hkept hsome
  | toggled view opcodes offset host _ =>
    rw [Breakpoints.pendingOffsets?, Breakpoints.pending_toggle] at hsome
    exact hkept hsome

theorem Orderly.perform_of_notifies (h : j.Orderly) (ht : t ≠ .take) : (j.perform t).Orderly := by
  have hn := notifies_perform h.tracks.named h.saved ht
  refine ⟨tracks_perform h.tracks t, fun e he => ?_, fun o ho => ?_, fun name f hf hram hsome =>
    h.maps_perform hn hf hram hsome, fun name => h.offsets_perform hn ht⟩
  · obtain ⟨more, hmore, hasks⟩ := hn.queued
    rw [hmore] at he
    obtain he | he := List.mem_append.mp he
    · obtain ⟨file, rfl, hused⟩ := h.requests e he
      exact ⟨file, rfl, hn.used file hused⟩
    · exact hasks e he
  · obtain hold | hnew := mem_unfinished_perform ho
    · exact hn.used o.file (h.saved o hold)
    · obtain ⟨_, _, _, _, _, _, _, -, -, -, -, hafter⟩ := saved?_eq_some h.tracks.named hnew
      rw [hafter]
      rfl

/-! ### Events taken from the queue -/

section Take

variable {after : Session} {event : Event} {rest : List Event}

/-- The events about reloads that are left when one was taken. -/
def Remain (j : JointSession) (after : Session) (event : Event) : Prop :=
  ∀ e, (e ∈ after.workspace.host.reloads → e ∈ j.session.workspace.host.reloads) ∧
    (e ∈ j.session.workspace.host.reloads → e ∈ [event] ∨ e ∈ after.workspace.host.reloads)

theorem remain_take (hqueue : j.session.workspace.host.events = event :: rest) :
    j.Remain ((j.session.withEvents rest).takeEvent event).2 event := by
  have hafter : ((j.session.withEvents rest).takeEvent event).2.workspace.host.reloads =
      rest.filter Event.isReload := (informs_takeEvent (j.session.withEvents rest) event).reloads
  have hbefore : j.session.workspace.host.reloads = (event :: rest).filter Event.isReload := by
    rw [Host.reloads, hqueue]
  intro e
  rw [hafter, hbefore, List.mem_filter, List.mem_filter, List.mem_cons, List.mem_singleton]
  constructor
  · rintro ⟨hrest, hreload⟩
    exact ⟨.inr hrest, hreload⟩
  · rintro ⟨rfl | hrest, hreload⟩
    · exact .inl rfl
    · exact .inr ⟨hrest, hreload⟩

theorem Orderly.maps_take (h : j.Orderly) (hidle : j.unfinished = [])
    (hserved : j.session.Served [event] after) (hremain : j.Remain after event)
    (hf : after.workspace.seen? name = some f) (hram : f.flags.ramMatches = true)
    (hsome : f.marks.temporary.isSome = true) :
    .reloadRequested name ∈ after.workspace.host.reloads := by
  cases hin : after.workspace.file? name with
  | none =>
    obtain ⟨program, hash, rfl⟩ := eq_of_seen?_of_absent hin hf
    cases hsome
  | some g =>
    rw [seen?_of_file? hin] at hf
    cases hf
    rw [hserved.file] at hin
    split_ifs at hin with hrequest
    · obtain ⟨before, -, rfl⟩ := Option.map_eq_some_iff.mp hin
      rw [before.reloaded_flags] at hram
      rw [ScriptFile.reloaded_temporary hram] at hsome
      cases hsome
    · obtain hmem | ⟨o, ho, -⟩ := h.maps name f (seen?_of_file? hin) hram hsome
      · exact ((hremain _).2 hmem).resolve_left hrequest
      · rw [hidle] at ho
        cases ho

theorem Orderly.offsets_take (h : j.Orderly) (hserved : j.session.Served [event] after)
    (hremain : j.Remain after event) (hsome : (after.breakpoints.pendingOffsets? name).isSome) :
    after.workspace.ramMatches name = false ∨
      .reloadRequested name ∈ after.workspace.host.reloads := by
  rw [hserved.pending] at hsome
  rw [hserved.ramMatches]
  split_ifs at hsome with hdone
  · cases hsome
  · obtain hstale | hmem := h.offsets name hsome
    · exact .inl hstale
    · obtain hrequest | hleft := (hremain _).2 hmem
      · -- the request that was taken has come too late
        obtain ⟨file, heq, hin⟩ := h.requests _ hmem
        cases heq
        refine .inl (Bool.eq_false_iff.mpr fun hram => hdone ⟨hrequest, ?_⟩)
        rw [canReload_of_used hin, hram]
      · exact .inr hleft

theorem Orderly.perform_take (h : j.Orderly) : (j.perform .take).Orderly := by
  obtain hsame | ⟨event, rest, hidle, hqueue, htaken⟩ := take_cases j
  · rw [hsame]
    exact h
  · have htracks := tracks_perform h.tracks .take
    have hserved := served_take h.tracks.named event rest
    have hremain := remain_take hqueue
    rw [htaken] at htracks ⊢
    refine ⟨htracks, fun e he => ?_, fun o ho => ?_, fun name f hf hram hsome => ?_, fun name => ?_⟩
    · obtain ⟨file, rfl, hin⟩ := h.requests e ((hremain e).1 he)
      exact ⟨file, rfl, hserved.used hin⟩
    · exact hserved.used (h.saved o ho)
    · exact .inl (h.maps_take hidle hserved hremain hf hram hsome)
    · exact h.offsets_take hserved hremain

end Take

theorem Orderly.perform (h : j.Orderly) (t : Turn) : (j.perform t).Orderly := by
  by_cases ht : t = .take
  · rw [ht]
    exact h.perform_take
  · exact h.perform_of_notifies ht

theorem Reachable.orderly (h : j.Reachable) : j.Orderly :=
  h.induction (fun _ hnew => hnew.orderly) fun _ t hj => hj.perform t

/-! ### Polls -/

/-- A poll carries out all reloads that there is something for. -/
theorem Orderly.file?_poll (h : j.Orderly) (hidle : j.unfinished = []) (name : String) :
    j.session.poll.2.workspace.file? name =
      (j.session.workspace.file? name).map ScriptFile.reloaded := by
  rw [(served_poll h.tracks.named).file]
  split_ifs with hrequest
  · rfl
  · cases hf : j.session.workspace.file? name with
    | none => rfl
    | some f =>
      have hno : f.flags.ramMatches = true → f.marks.temporary = none := by
        intro hram
        cases hsome : f.marks.temporary with
        | none => rfl
        | some pair =>
          obtain hmem | ⟨o, ho, -⟩ := h.maps name f (seen?_of_file? hf) hram (by rw [hsome]; rfl)
          · exact absurd (Host.mem_reloads.mp hmem) hrequest
          · rw [hidle] at ho
            cases ho
      rw [Option.map_some, ScriptFile.reloaded]
      split_ifs with hram
      · rw [Marks.promote, hno hram]
      · rfl

theorem Orderly.canReload_of_pending (h : j.Orderly)
    (hram : j.session.workspace.ramMatches name = true)
    (hsome : (j.session.breakpoints.pendingOffsets? name).isSome) :
    .reloadRequested name ∈ j.session.workspace.host.events ∧
      j.session.workspace.canReload name = true := by
  obtain hstale | hmem := h.offsets name hsome
  · rw [hram] at hstale
    cases hstale
  · obtain ⟨file, heq, hin⟩ := h.requests _ hmem
    cases heq
    exact ⟨Host.mem_reloads.mp hmem, (canReload_of_used hin).trans hram⟩

theorem canReload_of_stale {w : Workspace} (h : w.ramMatches name = false) :
    w.canReload name = false := by
  obtain ⟨f, hf, hstale⟩ := ramMatches_eq_false.mp h
  rw [canReload_of_file? hf, hstale]

/-- After a poll breakpoints wait for stale files only. -/
theorem Orderly.pending_poll (h : j.Orderly) (name : String) :
    j.session.poll.2.breakpoints.pendingOffsets? name =
      if j.session.workspace.ramMatches name then none
      else j.session.breakpoints.pendingOffsets? name := by
  rw [(served_poll h.tracks.named).pending]
  cases hram : j.session.workspace.ramMatches name with
  | true =>
    rw [if_pos rfl, ← Option.not_isSome_iff_eq_none]
    split_ifs with hdone
    · simp
    · exact fun hsome => hdone (h.canReload_of_pending hram hsome)
  | false => simp [canReload_of_stale hram]

theorem Orderly.offsets_poll (h : j.Orderly) (name : String) :
    j.session.poll.2.breakpoints.offsets name =
      if j.session.workspace.ramMatches name then j.session.breakpoints.latestOffsets name
      else j.session.breakpoints.offsets name := by
  rw [(served_poll h.tracks.named).offsets]
  cases hram : j.session.workspace.ramMatches name with
  | true =>
    rw [if_pos rfl]
    split_ifs with hdone
    · rfl
    · have hnone : j.session.breakpoints.pendingOffsets? name = none := by
        rw [← Option.not_isSome_iff_eq_none]
        exact fun hsome => hdone (h.canReload_of_pending hram hsome)
      rw [Breakpoints.latestOffsets_eq, hnone]
      rfl
  | false => simp [canReload_of_stale hram]

/-- What a poll owes to the user and to the files. -/
structure Drains (s : Session) : Prop where
  empty : s.poll.2.workspace.host.events = []
  /-- All events are passed on in order, a requested reload as a file reloaded if it could be carried
  out; behind them stands what the reloads have sent. -/
  told : ∃ sent, s.poll.1 = s.workspace.host.events.flatMap s.answer ++ sent ∧
    ∀ e ∈ sent, e.isNotice = true
  reloaded : ∀ name, s.poll.1.count (.fileReloaded name) =
    if s.workspace.ramMatches name then s.workspace.host.events.count (.reloadRequested name) else 0
  maps : ∀ name f, s.poll.2.workspace.file? name = some f → f.flags.ramMatches = true →
    f.marks.temporary = none
  offsets : ∀ name, s.poll.2.workspace.ramMatches name = true →
    s.poll.2.breakpoints.pendingOffsets? name = none
  stale : ∀ name f, s.workspace.file? name = some f → f.flags.ramMatches = false →
    s.poll.2.workspace.file? name = some f ∧
      s.poll.2.breakpoints.pendingOffsets? name = s.breakpoints.pendingOffsets? name ∧
      s.poll.2.breakpoints.offsets name = s.breakpoints.offsets name

/-- Each request for a file is told as one reload, if all requests are for files in use. -/
theorem count_answers {s : Session} {name : String} {events : List Event}
    (h : ∀ e ∈ events, e.isReload = true →
      ∃ file, e = .reloadRequested file ∧ (s.workspace.file? file).isSome) :
    (events.flatMap s.answer).count (.fileReloaded name) =
      if s.workspace.ramMatches name then events.count (.reloadRequested name) else 0 := by
  induction events with
  | nil => simp
  | cons event rest ih =>
    have hrest := ih fun e he => h e (List.mem_cons_of_mem event he)
    rw [List.flatMap_cons, List.count_append, hrest, List.count_cons]
    cases hreload : event.isReload with
    | true =>
      obtain ⟨file, rfl, hin⟩ := h event List.mem_cons_self hreload
      simp only [answer, canReload_of_used hin]
      by_cases hfile : file = name
      · subst hfile
        cases s.workspace.ramMatches file <;> simp [Nat.add_comm]
      · cases s.workspace.ramMatches file <;> simp [hfile]
    | false =>
      have hanswer : s.answer event = [event] := by cases event <;> first | rfl | cases hreload
      have hreported : (event == .fileReloaded name) = false := by
        cases event <;> first | rfl | cases hreload
      have hrequest : (event == .reloadRequested name) = false := by
        cases event <;> first | rfl | cases hreload
      simp [hanswer, List.count_cons, hreported, hrequest]

theorem Orderly.drains (h : j.Orderly) (hidle : j.unfinished = []) : Drains j.session := by
  have hnamed := h.tracks.named
  have hram : ∀ name, j.session.poll.2.workspace.ramMatches name =
      j.session.workspace.ramMatches name := (served_poll hnamed).ramMatches
  refine ⟨poll_events _, ⟨_, poll_fst hnamed, sentByPoll_notices _⟩, fun name => ?_,
    fun name f hf hfresh => ?_, fun name hfresh => ?_, fun name f hf hstale => ⟨?_, ?_, ?_⟩⟩
  · have hsent : j.session.sentByPoll.count (.fileReloaded name) = 0 := by
      refine List.count_eq_zero.mpr fun hmem => ?_
      cases j.session.sentByPoll_notices _ hmem
    rw [poll_fst hnamed, List.count_append, hsent, Nat.add_zero]
    refine count_answers fun e he hreload => h.requests e ?_
    exact List.mem_filter.mpr ⟨he, hreload⟩
  · rw [h.file?_poll hidle] at hf
    obtain ⟨before, -, rfl⟩ := Option.map_eq_some_iff.mp hf
    rw [before.reloaded_flags] at hfresh
    exact ScriptFile.reloaded_temporary hfresh
  · rw [hram] at hfresh
    rw [h.pending_poll, if_pos hfresh]
  · rw [h.file?_poll hidle, hf, Option.map_some, ScriptFile.reloaded,
      if_neg (Bool.eq_false_iff.mp hstale)]
  · have hold : j.session.workspace.ramMatches name = false :=
      ramMatches_eq_false.mpr ⟨f, hf, hstale⟩
    rw [h.pending_poll, if_neg (Bool.eq_false_iff.mp hold)]
  · have hold : j.session.workspace.ramMatches name = false :=
      ramMatches_eq_false.mpr ⟨f, hf, hstale⟩
    rw [h.offsets_poll, if_neg (Bool.eq_false_iff.mp hold)]

/-- Whenever no save is under way, all that waits for a file that is not stale has its reload requested.
A poll, taken event by event until there are none, is done after finitely many, and leaves something
waiting for stale files only. -/
theorem nothing_stranded (h : j.Reachable) (hidle : j.unfinished = []) :
    (∀ name f, j.session.workspace.file? name = some f →
      f.marks.temporary.isSome = true ∨
        (j.session.breakpoints.pendingOffsets? name).isSome = true →
      f.flags.ramMatches = false ∨ .reloadRequested name ∈ j.session.workspace.host.events) ∧
    Drains j.session ∧
    ∃ n, j.run (.replicate n .take) =
      { j with session := j.session.poll.2, told := j.told ++ j.session.poll.1 } := by
  have horderly := h.orderly
  refine ⟨fun name f hf hwaits => ?_, horderly.drains hidle, run_takes hidle⟩
  cases hram : f.flags.ramMatches with
  | false => exact .inl rfl
  | true =>
    refine .inr (Host.mem_reloads.mp ?_)
    obtain hmap | hoffsets := hwaits
    · obtain hmem | ⟨o, ho, -⟩ := horderly.maps name f (seen?_of_file? hf) hram hmap
      · exact hmem
      · rw [hidle] at ho
        cases ho
    · obtain hstale | hmem := horderly.offsets name hoffsets
      · rw [ramMatches_of_file? hf, hram] at hstale
        cases hstale
      · exact hmem

/-- A held script is saved, and the game drops it before its breakpoints follow. -/
def droppedMeanwhile : JointSession :=
  ({ session := sample } : JointSession).run [.act (.loadScript "enter.ssb"),
    .save .ssbs "enter.ssb" (waitText "6"), .act .quitGround, .finish]

theorem nothing_stranded_sample :
    (∃ f, droppedMeanwhile.session.workspace.file? "enter.ssb" = some f ∧
      f.marks.temporary.isSome = true ∧ f.flags.ramMatches = true) ∧
    .reloadRequested "enter.ssb" ∈ droppedMeanwhile.session.workspace.host.events ∧
    droppedMeanwhile.session.poll.1.count (.fileReloaded "enter.ssb") = 1 := by
  have hafter : droppedMeanwhile.unfinished = [] ∧
      ((droppedMeanwhile.session.workspace.file? "enter.ssb").map fun f =>
        (f.marks.temporary.isSome, f.flags.ramMatches)) = some (true, true) ∧
      droppedMeanwhile.session.workspace.host.events.count (.reloadRequested "enter.ssb") = 1 := by
    decide +kernel
  obtain ⟨hidle, hfile, hcount⟩ := hafter
  obtain ⟨f, hf, hflags⟩ := Option.map_eq_some_iff.mp hfile
  obtain ⟨hwaits, hram⟩ := Prod.mk.inj hflags
  have hreachable : droppedMeanwhile.Reachable := reachable_sample _
  obtain ⟨hrequested, hdrains, -⟩ := nothing_stranded hreachable hidle
  refine ⟨⟨f, hf, hwaits, hram⟩, ?_, ?_⟩
  · obtain hstale | hmem := hrequested "enter.ssb" f hf (.inl hwaits)
    · rw [hram] at hstale
      cases hstale
    · exact hmem
  · rw [hdrains.reloaded, hcount, ramMatches_of_file? hf, if_pos hram]

end JointSession

end SceneDebugger
