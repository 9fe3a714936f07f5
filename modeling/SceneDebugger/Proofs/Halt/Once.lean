import Mathlib.Data.List.Induction
import SceneDebugger.Proofs.Halt.Progress

/-!
# SceneDebugger.Proofs.Halt.Once — a halt is released exactly once

However calls interleave at a shared halt, one release counts.  The emulator's side returns with what
that release resolved its decision to, and tells it to the watchers.

* `SharedHalt.resolution?_run`: the decision is resolved in a step of the release, with the place then.
* `SharedHalt.Tells`, `SharedHalt.tells_run`: whom the emulator's side has told, and whom it will tell.
* `SharedHalt.released_once`: the whole of it.
-/

namespace SceneDebugger

open Function

/-- What a release was asked for, and what that was resolved to. -/
def CallStage.resolution? : CallStage → Option (Decision × Decision)
  | .resolved d r | .deciding d r => some (d, r)
  | .naming d r _ | .describing d r _ | .settling d r _ | .leaving d r _ | .released d r _ =>
    some (d, r)
  | _ => none

/-- The call is a release under way. -/
def CallStage.releases : CallStage → Bool
  | .called (.release _) | .resolving _ | .resolved .. | .deciding .. => true
  | .naming .. | .describing .. | .settling .. | .leaving .. => true
  | _ => false

/-- The decision that the emulator's side tells the watchers, and those that it has yet to tell. -/
def WaitStage.telling? : WaitStage → Option (Decision × List Nat)
  | .telling d watchers => some (d, watchers)
  | .returned d => some (d, [])
  | _ => none

namespace HaltRecord

@[simp] theorem descend_context (h : HaltRecord) : h.descend.2.context = h.context := by
  unfold descend
  split <;> rfl

@[simp] theorem descend_watchers (h : HaltRecord) : h.descend.2.watchers = h.watchers := by
  unfold descend
  split <;> rfl

end HaltRecord

namespace SharedHalt

variable {T : Type} [DecidableEq T] {s : SharedHalt T} {t : T} {m : Move T}
  {moves before : List (Move T)} {context : ScriptContext} {place : HaltPlace} {d r : Decision}

/-! ### What a release decides -/

theorem resolution?_lock {l : HaltLock} {stage : CallStage}
    (hsame : stage.resolution? = (s.stage t).resolution?) :
    ((s.lock l t stage).stage t).resolution? = (s.stage t).resolution? := by
  rw [lock_stage, update_self]
  split
  next => exact hsame
  next => rfl

/-- A call that resolved its decision did so in this step or before. -/
theorem resolution?_step (h : ((s.step t).stage t).resolution? = some (d, r)) :
    (s.stage t).resolution? = some (d, r) ∨
      s.stage t = .resolving d ∧ s.halt.place.resolve s.halt.context d = r := by
  unfold step at h
  split at h
  case h_2 asked hstage =>
    refine .inr ?_
    simp only [unlock_stage, update_self, CallStage.resolution?, Option.some.injEq,
      Prod.mk.injEq] at h
    obtain ⟨rfl, rfl⟩ := h
    exact ⟨hstage, rfl⟩
  all_goals
    next hstage =>
      refine .inl ?_
      first
      | rwa [resolution?_lock (by rw [hstage]; rfl)] at h
      | simp_all [CallStage.resolution?]

omit [DecidableEq T] in
@[simp] theorem waitStep_stage (s : SharedHalt T) : s.waitStep.stage = s.stage := by
  unfold waitStep
  split <;> simp

/-- A move gives a call a resolution only when the call resolves its decision. -/
theorem resolution?_perform (h : ((s.perform m).stage t).resolution? = some (d, r)) :
    (s.stage t).resolution? = some (d, r) ∨
      m = .step t ∧ s.stage t = .resolving d ∧ s.halt.place.resolve s.halt.context d = r := by
  cases m with
  | call w c =>
    simp only [perform] at h
    split at h
    next hidle =>
      rcases eq_or_ne t w with rfl | hne
      · simp [CallStage.resolution?] at h
      · exact .inl (by simpa [hne] using h)
    next => exact .inl h
  | step w =>
    rcases eq_or_ne t w with rfl | hne
    · exact (resolution?_step h).imp_right fun h => ⟨rfl, h⟩
    · exact .inl (step_stage_of_ne hne ▸ h)
  | wait => exact .inl (by simpa [perform] using h)

@[simp] theorem context_perform (s : SharedHalt T) (m : Move T) :
    (s.perform m).halt.context = s.halt.context := by
  cases m with
  | call t c =>
    simp only [perform]
    split <;> rfl
  | step t =>
    simp only [perform, step]
    split <;> simp [HaltRecord.watch]
  | wait =>
    simp only [perform, waitStep]
    split <;> simp

@[simp] theorem context_run (s : SharedHalt T) (moves : List (Move T)) :
    (s.run moves).halt.context = s.halt.context := by
  induction moves generalizing s with
  | nil => rfl
  | cons m rest ih => rw [run_cons, ih, context_perform]

/-- A call that resolved its decision did so in a step of its own, with the place as it was then. -/
theorem resolution?_run (hstart : (s.stage t).resolution? = none)
    (h : ((s.run moves).stage t).resolution? = some (d, r)) :
    ∃ before rest, moves = before ++ .step t :: rest ∧ (s.run before).stage t = .resolving d ∧
      (s.run before).halt.place.resolve s.halt.context d = r := by
  induction moves using List.reverseRecOn with
  | nil => simp [hstart] at h
  | append_singleton init m ih =>
    rw [run_concat] at h
    rcases resolution?_perform h with hbefore | ⟨rfl, hresolving, hr⟩
    · obtain ⟨before, rest, rfl, hstage, hr⟩ := ih hbefore
      exact ⟨before, rest ++ [m], by simp, hstage, hr⟩
    · exact ⟨init, [], rfl, hresolving, by simpa using hr⟩

/-! ### What the watchers learn -/

/-- A step of a call gives the halt no watcher but the one it adds. -/
theorem step_watchers (s : SharedHalt T) (t : T) :
    (s.step t).halt.watchers = s.halt.watchers ++ s.adds (.step t) := by
  unfold step adds
  split <;> simp_all [HaltRecord.watch]

/-- A call and its steps add watchers, and leave the emulator's side as it is. -/
theorem perform_of_ne_wait (s : SharedHalt T) (hm : m ≠ .wait) :
    (s.perform m).waiter = s.waiter ∧ (s.perform m).informed = s.informed ∧
      (s.perform m).halt.watchers = s.halt.watchers ++ s.adds m := by
  cases m with
  | call t c =>
    simp only [perform]
    split <;> simp [adds]
  | step t => exact ⟨step_waiter s t, step_informed s t, step_watchers s t⟩
  | wait => exact absurd rfl hm

theorem added_length_le (s : SharedHalt T) (h : before <+: moves) :
    (s.added before).length ≤ (s.added moves).length := by
  obtain ⟨rest, rfl⟩ := h
  simp [added_append]

/-- Before the emulator's side takes the watchers they wait in the order of their addition.  From
then on, those that know the decision and those that are yet to learn it are the first ones that were
added; all that were added before there was a decision are among them. -/
def Tells (s : SharedHalt T) (moves : List (Move T)) : Prop :=
  match (s.run moves).waiter.telling? with
  | none => (s.run moves).informed = [] ∧ (s.run moves).halt.watchers = s.added moves
  | some (d, watchers) =>
    ∃ n ≤ (s.added moves).length,
      (s.run moves).informed ++ watchers.map (·, d) = ((s.added moves).take n).map (·, d) ∧
      ∀ before, before <+: moves → (s.run before).halt.decision = none →
        (s.added before).length ≤ n

omit [DecidableEq T] in
theorem hearing_of_telling? {waiter : WaitStage} {watchers : List Nat}
    (h : waiter.telling? = some (d, watchers)) : waiter.hearing = .knows d := by
  cases waiter <;> simp_all [WaitStage.telling?, WaitStage.hearing]

/-- A move after the decision adds no watcher before the decision. -/
theorem early_concat {n : Nat} (hs : s.verdict.Sound) (hd : (s.run moves).halt.decision = some d)
    (hearly : ∀ before, before <+: moves → (s.run before).halt.decision = none →
      (s.added before).length ≤ n) (m : Move T) :
    ∀ before, before <+: moves ++ [m] → (s.run before).halt.decision = none →
      (s.added before).length ≤ n := by
  intro before hbefore hnone
  rcases List.prefix_concat_iff.mp hbefore with rfl | hbefore
  · rw [run_append, decision_run (sound_run hs moves) hd] at hnone
    cases hnone
  · exact hearly before hbefore hnone

/-- A move after which the emulator's side has told no more. -/
theorem tells_concat_of_same (hs : s.verdict.Sound) (h : s.Tells moves)
    (htelling : ((s.run moves).perform m).waiter.telling? = (s.run moves).waiter.telling?)
    (hinformed : ((s.run moves).perform m).informed = (s.run moves).informed)
    (hwatchers : ((s.run moves).perform m).halt.watchers =
      (s.run moves).halt.watchers ++ (s.run moves).adds m) :
    s.Tells (moves ++ [m]) := by
  unfold Tells at h ⊢
  rw [run_concat, htelling, hinformed, hwatchers, added_concat]
  cases htold : (s.run moves).waiter.telling? with
  | none =>
    simp only [htold] at h ⊢
    exact ⟨h.1, by rw [h.2]⟩
  | some told =>
    simp only [htold] at h ⊢
    obtain ⟨n, hn, hlist, hearly⟩ := h
    have hdecision := decision_of_knows (sound_run hs moves) (hearing_of_telling? htold)
    exact ⟨n, by simp; omega, by rwa [List.take_append_of_le_length hn],
      early_concat hs hdecision hearly m⟩

omit [DecidableEq T] in
/-- The emulator's side has told no more after a look at a lock. -/
theorem telling?_waitLock {l : HaltLock} {waiter : WaitStage}
    (hsame : waiter.telling? = s.waiter.telling?) :
    (s.waitLock l waiter).waiter.telling? = s.waiter.telling? := by
  rw [waitLock_waiter]
  split
  next => exact hsame
  next => rfl

theorem tells_concat_wait (hs : s.verdict.Sound) (h : s.Tells moves) :
    s.Tells (moves ++ [.wait]) := by
  have hstep : (s.run moves).perform .wait = (s.run moves).waitStep := rfl
  cases hwaiter : (s.run moves).waiter with
  | called | asleep | woken =>
    rw [waitStep.eq_def, hwaiter] at hstep
    refine tells_concat_of_same hs h ?_ (by simp [hstep]) (by simp [hstep, adds])
    rw [hstep]
    exact telling?_waitLock (by rw [hwaiter]; rfl)
  | looking =>
    rw [waitStep.eq_def, hwaiter] at hstep
    refine tells_concat_of_same hs h ?_ (by simp [hstep]) (by simp [hstep, adds])
    rw [hstep, hwaiter]
    cases (s.run moves).halt.decision <;> rfl
  | taking d =>
    simp only [Tells, hwaiter, WaitStage.telling?] at h
    simp only [Tells, run_concat, hstep, waitStep, hwaiter, WaitStage.telling?]
    refine ⟨(s.added (moves ++ [.wait])).length, Nat.le_refl _, ?_, fun _ hbefore _ =>
      s.added_length_le hbefore⟩
    simp [added_concat, adds, h]
  | telling d watchers =>
    have hdecision := decision_of_knows (sound_run hs moves) (d := d) (by rw [hwaiter]; rfl)
    simp only [Tells, hwaiter, WaitStage.telling?] at h
    obtain ⟨n, hn, hlist, hearly⟩ := h
    have hadded : s.added (moves ++ [.wait]) = s.added moves := by simp [added_concat, adds]
    have hearly' := early_concat hs hdecision hearly .wait
    cases watchers with
    | nil =>
      simp only [Tells, run_concat, hstep, waitStep, hwaiter, WaitStage.telling?, hadded]
      exact ⟨n, hn, hlist, hearly'⟩
    | cons w rest =>
      simp only [Tells, run_concat, hstep, waitStep, hwaiter, WaitStage.telling?, hadded]
      exact ⟨n, hn, by simpa using hlist, hearly'⟩
  | returned d =>
    rw [waitStep.eq_def, hwaiter] at hstep
    exact tells_concat_of_same hs h (by rw [hstep]) (by rw [hstep]) (by simp [hstep, adds])

theorem tells_concat (hs : s.verdict.Sound) (h : s.Tells moves) (m : Move T) :
    s.Tells (moves ++ [m]) := by
  rcases eq_or_ne m .wait with rfl | hm
  · exact tells_concat_wait hs h
  · obtain ⟨hwaiter, hinformed, hwatchers⟩ := perform_of_ne_wait (s.run moves) hm
    exact tells_concat_of_same hs h (by rw [hwaiter]) hinformed hwatchers

theorem tells_run (hs : s.verdict.Sound) (hstart : s.Tells []) (moves : List (Move T)) :
    s.Tells moves := by
  induction moves using List.reverseRecOn with
  | nil => exact hstart
  | append_singleton init m ih => exact tells_concat hs ih m

/-! ### Exactly one release counts -/

omit [DecidableEq T] in
theorem released_of_won (h : s.verdict.standing t = .won r) : ∃ d, s.stage t = .released d r true := by
  have hstanding : (s.stage t).standing = .won r := h
  unfold CallStage.standing at hstanding
  split at hstanding <;> simp_all

/-- A release under way leaves a halt that was released as it is. -/
theorem step_of_decided (hs : s.verdict.Sound) (hreleases : (s.stage t).releases = true)
    (hd : s.halt.decision ≠ none) : (s.step t).halt = s.halt := by
  unfold step
  split <;> simp_all [CallStage.releases]
  next d r hstage =>
    have hfirst : s.verdict.standing t = .first r := by simp [verdict, hstage, CallStage.standing]
    exact absurd (hs.first t r hfirst) hd

/-- A release that had not counted when there was a decision does not count. -/
theorem not_counts_of_decided (hs : s.verdict.Sound) (hd : s.halt.decision ≠ none)
    (ht : (s.stage t).standing.wrote? = none) (moves : List (Move T)) (d r : Decision) :
    (s.run moves).stage t ≠ .released d r true := by
  intro hcounts
  obtain ⟨decided, hdecided⟩ := Option.ne_none_iff_exists'.mp hd
  obtain ⟨w, hw⟩ := hs.author decided hdecided
  have hsame : t = w :=
    (sound_run hs moves).single t w r decided (by simp [verdict, hcounts, CallStage.standing,
      Standing.wrote?]) (wrote_run hw moves)
  subst hsame
  cases ht.symm.trans hw

/-- Calls of any kind use a halt in any order, while the emulator's side waits on it.

One release at most counts, and one does if any is over.  The wait returns after it, with the decision
that it resolved, and has told that decision to the first `n` watchers that were added, once each and
in the order of their addition; all that were added while there was no decision are among them.  Once
there is a decision it stays, the emulator's side can always get away with it, and a release that has
not counted by then changes nothing and does not count. -/
theorem released_once (context : ScriptContext) (place : HaltPlace) (moves : List (Move T)) :
    let start : SharedHalt T := .start context place
    let s := start.run moves
    (∀ t t' d d' r r', s.stage t = .released d r true → s.stage t' = .released d' r' true →
      t = t') ∧
    (∀ t d r counts, s.stage t = .released d r counts →
      ∃ w d' r', s.stage w = .released d' r' true) ∧
    (∀ d, s.waiter = .returned d →
      (∃ t asked before rest, s.stage t = .released asked d true ∧
        moves = before ++ .step t :: rest ∧ (start.run before).stage t = .resolving asked ∧
        (start.run before).halt.place.resolve context asked = d) ∧
      ∃ n, s.informed = ((start.added moves).take n).map (·, d) ∧
        ∀ before, before <+: moves → (start.run before).halt.decision = none →
          (start.added before).length ≤ n) ∧
    (∀ d, s.halt.decision = some d →
      (∃ more, (s.run more).waiter = .returned d) ∧
      (∀ more, (s.run more).halt.decision = some d) ∧
      (∀ t, (s.stage t).releases = true → (s.step t).halt = s.halt ∧
        (s.step t).waiter = s.waiter ∧ (s.step t).informed = s.informed) ∧
      ∀ t, (s.stage t).standing.wrote? = none →
        ∀ more d' r, (s.run more).stage t ≠ .released d' r true) := by
  intro start s
  have hstart : start.verdict.Sound := sound_start context place
  have hs : s.verdict.Sound := sound_run hstart moves
  have hstanding : ∀ {t d r}, s.stage t = .released d r true → s.verdict.standing t = .won r :=
    fun h => by simp [verdict, h, CallStage.standing]
  refine ⟨?one, ?some, ?returned, ?decided⟩
  case one =>
    intro t t' d d' r r' h h'
    exact hs.single t t' r r' (by rw [hstanding h]; rfl) (by rw [hstanding h']; rfl)
  case some =>
    intro t d r counts h
    cases counts with
    | true => exact ⟨t, d, r, h⟩
    | false =>
      obtain ⟨w, r', hw⟩ := hs.found t (by simp [s, verdict, h, CallStage.standing, Standing.foundOne])
      obtain ⟨d', hw⟩ := released_of_won hw
      exact ⟨w, d', r', hw⟩
  case returned =>
    intro d hreturned
    refine ⟨?_, ?_⟩
    · obtain ⟨t, ht⟩ := hs.heard d (by rw [verdict, hreturned]; rfl)
      obtain ⟨asked, ht⟩ := released_of_won ht
      obtain ⟨before, rest, hmoves, hresolving, hr⟩ :=
        resolution?_run (s := start) (t := t) rfl (by rw [show start.run moves = s from rfl, ht]; rfl)
      exact ⟨t, asked, before, rest, ht, hmoves, hresolving, hr⟩
    · have htells := tells_run hstart ⟨rfl, rfl⟩ moves
      simp only [Tells, show start.run moves = s from rfl, hreturned, WaitStage.telling?] at htells
      obtain ⟨n, -, hlist, hearly⟩ := htells
      exact ⟨n, by simpa using hlist, hearly⟩
  case decided =>
    intro d hd
    have hdecided : s.halt.decision ≠ none := by simp [hd]
    exact ⟨leaves_of_decided (held_run (held_start context place) moves) hs hd,
      decision_run hs hd,
      fun t ht => ⟨step_of_decided hs ht hdecided, step_waiter s t, step_informed s t⟩,
      fun t ht => not_counts_of_decided hs hdecided ht⟩

/-- A script about to run its opcode at offset 4. -/
def amidContext : ScriptContext where
  pointer := 0x02100000
  target := .generic
  targetAddress := 0
  slot := 0
  routineTable := 0x02200000
  opcodeTable := 0x02200010
  stringTable := 0x02200100
  address := 0x02200008
  offset := 4
  isShared := false
  hanger := 1
  caller := none

/-- The script is shown at a call, with the offset behind it. -/
def amidPlace : HaltPlace where
  file := "enter.ssb"
  shown := "enter.ssb"
  offset := 4
  onCall := true
  entry := some { line := 1, column := 4, inlining := some { returnOffset := some 9 } }

/-- Two releases resolve their decisions while the view descends, and the first one counts; a watcher
is added before that and one after it. -/
def crowd : List (Move Nat) :=
  [.wait, .wait, .call 0 (.release .stepOver), .step 0, .step 0,
    .call 1 (.release .resume), .step 1, .step 1, .call 2 .descend, .step 2, .step 2,
    .call 3 (.watch 7), .step 3, .step 3, .step 0, .wait, .step 0, .step 0, .step 0, .step 0, .step 0,
    .step 1, .step 1, .step 1, .step 1, .step 1, .step 1, .call 4 (.watch 8), .step 4, .step 4,
    .wait, .wait, .wait, .wait, .wait, .wait, .wait]

theorem released_once_crowd :
    let s := (start amidContext amidPlace).run crowd
    s.waiter = .returned (.stepManual 0x02200012) ∧
      s.stage 1 = .released .resume .resume false ∧
      (∃ t asked, s.stage t = .released asked (.stepManual 0x02200012) true) ∧
      ∃ n, s.informed = ([7, 8].take n).map (·, .stepManual 0x02200012) := by
  have hreturned : ((start amidContext amidPlace).run crowd).waiter =
      .returned (.stepManual 0x02200012) := by decide
  have hadded : (start amidContext amidPlace).added crowd = [7, 8] := by decide
  obtain ⟨-, -, hreturns, -⟩ := released_once amidContext amidPlace crowd
  obtain ⟨⟨t, asked, -, -, ht, -⟩, n, hn, -⟩ := hreturns _ hreturned
  exact ⟨hreturned, by decide, ⟨t, asked, ht⟩, n, hadded ▸ hn⟩

end SharedHalt

end SceneDebugger
