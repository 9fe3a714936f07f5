import SceneDebugger.Proofs.Halt.Verdict

/-!
# SceneDebugger.Proofs.Halt.Progress — the emulator's side gets away from a released halt

The locks of a shared halt cannot block each other: whoever holds the lock of the place or of the
watchers gives it back in the next step, and whoever holds the lock of the decision needs only the
place meanwhile.

* `SharedHalt.Held`, `SharedHalt.held_run`: who holds a lock is at a stage that gives it back.
* `SharedHalt.frees_decision`, `SharedHalt.frees_watchers`: moves can make a lock free.
* `SharedHalt.leaves_of_decided`: from a released halt the emulator's side can return.
-/

namespace SceneDebugger

open Function

/-- The locks that a call holds at a stage. -/
def CallStage.holds : CallStage → HaltLock → Bool
  | .resolving _, .place | .describing .., .place | .descending, .place => true
  | .deciding .., .decision | .naming .., .decision | .describing .., .decision => true
  | .settling .., .decision | .leaving .., .decision | .asking, .decision => true
  | .watching _, .watchers => true
  | _, _ => false

/-- The locks that the emulator's side holds at a stage. -/
def WaitStage.holds : WaitStage → HaltLock → Bool
  | .looking, .decision | .taking _, .watchers => true
  | _, _ => false

namespace SharedHalt

variable {T : Type} [DecidableEq T] {s : SharedHalt T} {t : T} {m : Move T}
  {moves : List (Move T)} {l : HaltLock} {d : Decision}

/-- Whoever is said to hold a lock is at a stage that gives it back. -/
structure Held (s : SharedHalt T) : Prop where
  calls : ∀ l t, s.holder l = some (some t) → (s.stage t).holds l = true
  waiter : ∀ l, s.holder l = some none → s.waiter.holds l = true

/-- A call goes on to a stage at which it holds the locks that it has then. -/
theorem Held.call (hs : s.Held) {s' : SharedHalt T} {stage : CallStage}
    (hstage : s'.stage = update s.stage t stage) (hwaiter : s'.waiter = s.waiter)
    (hcall : ∀ l, s'.holder l = some (some t) → stage.holds l = true)
    (hothers : ∀ l w, w ≠ some t → s'.holder l = some w → s.holder l = some w) : s'.Held where
  calls l w h := by
    rw [hstage]
    rcases eq_or_ne w t with rfl | hne
    · rw [update_self]
      exact hcall l h
    · rw [update_of_ne hne]
      exact hs.calls l w (hothers l _ (by simpa using hne) h)
  waiter l h := by
    rw [hwaiter]
    exact hs.waiter l (hothers l none nofun h)

theorem Held.become (hs : s.Held) {stage : CallStage}
    (hkeeps : ∀ l, (s.stage t).holds l = true → stage.holds l = true) : (s.become t stage).Held :=
  hs.call rfl rfl (fun l h => hkeeps l (hs.calls l t h)) fun _ _ _ h => h

theorem Held.lock (hs : s.Held) {stage : CallStage}
    (hkeeps : ∀ l', (s.stage t).holds l' = true → stage.holds l' = true)
    (htakes : stage.holds l = true) : (s.lock l t stage).Held := by
  unfold SharedHalt.lock
  split
  next =>
    refine hs.call (t := t) rfl rfl (fun l' h => ?_) fun l' w hw h => ?_
    · rcases eq_or_ne l' l with rfl | hne
      · exact htakes
      · exact hkeeps l' (hs.calls l' t (by simpa [hne] using h))
    · rcases eq_or_ne l' l with rfl | hne
      · simp [hw.symm] at h
      · simpa [hne] using h
  next => exact hs

theorem Held.unlock (hs : s.Held) {stage : CallStage}
    (hkeeps : ∀ l', l' ≠ l → (s.stage t).holds l' = true → stage.holds l' = true) :
    (s.unlock l t stage).Held := by
  unfold SharedHalt.unlock
  refine hs.call (t := t) rfl rfl (fun l' h => ?_) fun l' w _ h => ?_
  · rcases eq_or_ne l' l with rfl | hne
    · simp at h
    · exact hkeeps l' hne (hs.calls l' t (by simpa [hne] using h))
  · rcases eq_or_ne l' l with rfl | hne
    · simp at h
    · simpa [hne] using h

omit [DecidableEq T] in
/-- The halt itself does not matter for its locks. -/
theorem Held.halt (hs : s.Held) (halt : HaltRecord) : ({ s with halt } : SharedHalt T).Held :=
  ⟨hs.calls, hs.waiter⟩

theorem held_step (hs : s.Held) (t : T) : (s.step t).Held := by
  unfold step
  split
  case h_7 d r hstage =>
    refine Held.halt (s := s.become t (.leaving d r true)) (hs.become ?_) _
    rw [hstage]
    intro l; cases l <;> simp [CallStage.holds]
  case h_13 hstage =>
    refine Held.halt (s := s.unlock .place t _) (hs.unlock ?_) _
    rw [hstage]
    intro l; cases l <;> simp [CallStage.holds]
  case h_15 hstage =>
    refine Held.halt (s := s.unlock .watchers t _) (hs.unlock ?_) _
    rw [hstage]
    intro l; cases l <;> simp [CallStage.holds]
  case h_4 | h_8 =>
    next hstage =>
      refine hs.become ?_
      rw [hstage]
      intro l; cases l <;> simp [CallStage.holds]
  case h_1 | h_3 | h_5 | h_10 | h_12 | h_14 =>
    next hstage =>
      refine hs.lock ?_ rfl
      rw [hstage]
      intro l; cases l <;> simp [CallStage.holds]
  case h_2 | h_6 | h_9 | h_11 =>
    next hstage =>
      refine hs.unlock ?_
      rw [hstage]
      intro l; cases l <;> simp [CallStage.holds]
  all_goals exact hs

omit [DecidableEq T] in
/-- The emulator's side goes on to a stage at which it holds the locks that it has then. -/
theorem Held.wait (hs : s.Held) {s' : SharedHalt T} (hstage : s'.stage = s.stage)
    (hwait : ∀ l, s'.holder l = some none → s'.waiter.holds l = true)
    (hothers : ∀ l t, s'.holder l = some (some t) → s.holder l = some (some t)) : s'.Held where
  calls l t h := hstage ▸ hs.calls l t (hothers l t h)
  waiter := hwait

omit [DecidableEq T] in
theorem Held.waitLock (hs : s.Held) {waiter : WaitStage}
    (hkeeps : ∀ l', s.waiter.holds l' = true → waiter.holds l' = true)
    (htakes : waiter.holds l = true) : (s.waitLock l waiter).Held := by
  unfold SharedHalt.waitLock
  split
  next =>
    refine hs.wait rfl (fun l' h => ?_) fun l' t h => ?_
    · rcases eq_or_ne l' l with rfl | hne
      · exact htakes
      · exact hkeeps l' (hs.waiter l' (by simpa [hne] using h))
    · rcases eq_or_ne l' l with rfl | hne
      · simp at h
      · simpa [hne] using h
  next => exact hs

omit [DecidableEq T] in
/-- The emulator's side gives a lock back. -/
theorem Held.waitUnlock (hs : s.Held) {s' : SharedHalt T} (hstage : s'.stage = s.stage)
    (hholder : s'.holder = update s.holder l none)
    (hkeeps : ∀ l', l' ≠ l → s.waiter.holds l' = true → s'.waiter.holds l' = true) : s'.Held := by
  refine hs.wait hstage (fun l' h => ?_) fun l' t h => ?_ <;> rw [hholder] at h <;>
    rcases eq_or_ne l' l with rfl | hne
  · simp at h
  · exact hkeeps l' hne (hs.waiter l' (by simpa [hne] using h))
  · simp at h
  · simpa [hne] using h

omit [DecidableEq T] in
theorem held_waitStep (hs : s.Held) : s.waitStep.Held := by
  unfold waitStep
  split
  case h_1 | h_2 | h_4 =>
    next hwaiter =>
      refine hs.waitLock ?_ rfl
      rw [hwaiter]
      intro l; cases l <;> simp [WaitStage.holds]
  case h_3 | h_5 =>
    next hwaiter =>
      refine hs.waitUnlock rfl rfl ?_
      rw [hwaiter]
      intro l; cases l <;> simp [WaitStage.holds]
  case h_6 | h_7 =>
    next hwaiter =>
      refine hs.wait rfl (fun l h => ?_) fun l t h => h
      have hholds := hs.waiter l h
      rw [hwaiter] at hholds
      cases hholds
  all_goals exact hs

theorem held_perform (hs : s.Held) (m : Move T) : (s.perform m).Held := by
  cases m with
  | call t c =>
    simp only [perform]
    split
    next hidle =>
      refine hs.become fun l hl => ?_
      rw [hidle] at hl
      cases hl
    next => exact hs
  | step t => exact held_step hs t
  | wait => exact held_waitStep hs

theorem held_run (hs : s.Held) (moves : List (Move T)) : (s.run moves).Held := by
  induction moves generalizing s with
  | nil => exact hs
  | cons m rest ih => exact ih (held_perform hs m)

omit [DecidableEq T] in
theorem held_start (context : ScriptContext) (place : HaltPlace) :
    (start context place : SharedHalt T).Held := ⟨nofun, nofun⟩

/-! ### Locks become free -/

/-- Moves of the calls can make a lock free. -/
def Frees (s : SharedHalt T) (l : HaltLock) : Prop :=
  ∃ moves, (s.run moves).holder l = none ∧ (s.run moves).waiter = s.waiter

theorem frees_of_free (h : s.holder l = none) : s.Frees l := ⟨[], h, rfl⟩

theorem Frees.of_step (t : T) (h : (s.step t).Frees l) : s.Frees l := by
  obtain ⟨moves, hfree, hwaiter⟩ := h
  exact ⟨.step t :: moves, hfree, hwaiter.trans (step_waiter s t)⟩

theorem frees_leaving {r : Decision} {counts : Bool} (hstage : s.stage t = .leaving d r counts) :
    s.Frees .decision :=
  .of_step t (frees_of_free (by simp [step, hstage, unlock]))

theorem frees_settling {r : Decision} {counts : Bool} (hstage : s.stage t = .settling d r counts) :
    s.Frees .decision := by
  have hnext : (s.step t).stage t = .leaving d r counts := by cases counts <;> simp [step, hstage]
  exact .of_step t (frees_leaving hnext)

theorem frees_describing {r : Decision} {counts : Bool}
    (hstage : s.stage t = .describing d r counts) : s.Frees .decision := by
  have hnext : (s.step t).stage t = .settling d r counts := by simp [step, hstage]
  exact .of_step t (frees_settling hnext)

/-- Whoever holds the lock of the place gives it back in the next step. -/
theorem holder_place_step (hstage : (s.stage t).holds .place = true) :
    (s.step t).holder .place = none := by
  unfold step
  split <;> simp_all [CallStage.holds, unlock]

/-- For the log a release needs the place while it holds the decision. -/
theorem frees_naming (hs : s.Held) {r : Decision} {counts : Bool}
    (hstage : s.stage t = .naming d r counts) : s.Frees .decision := by
  have hfree : ∀ {s : SharedHalt T}, s.holder .place = none → s.stage t = .naming d r counts →
      s.Frees .decision := by
    intro s hplace hstage
    have hnext : (s.step t).stage t = .describing d r counts := by
      simp [step, hstage, lock_stage, hplace]
    exact .of_step t (frees_describing hnext)
  cases hplace : s.holder .place with
  | none => exact hfree hplace hstage
  | some holder =>
    cases holder with
    | none =>
      have hholds := hs.waiter .place hplace
      cases hwaiter : s.waiter <;> simp [hwaiter, WaitStage.holds] at hholds
    | some w =>
      have hholds := hs.calls .place w hplace
      have hne : t ≠ w := by
        rintro rfl
        simp [hstage, CallStage.holds] at hholds
      exact .of_step w (hfree (holder_place_step hholds) ((step_stage_of_ne hne).trans hstage))

/-- Whoever holds the lock of the decision can give it back. -/
theorem frees_decision (hs : s.Held) (hwaiter : s.waiter.holds .decision = false) :
    s.Frees .decision := by
  cases hdecision : s.holder .decision with
  | none => exact frees_of_free hdecision
  | some holder =>
    cases holder with
    | none => simp [hs.waiter .decision hdecision] at hwaiter
    | some t =>
      have hholds := hs.calls .decision t hdecision
      cases hstage : s.stage t <;> simp only [hstage, CallStage.holds, Bool.false_eq_true] at hholds
      case deciding d r =>
        have hnext : (s.step t).stage t = .naming d r !s.halt.isReleased := by simp [step, hstage]
        exact .of_step t (frees_naming (held_step hs t) hnext)
      case naming d r counts => exact frees_naming hs hstage
      case describing d r counts => exact frees_describing hstage
      case settling d r counts => exact frees_settling hstage
      case leaving d r counts => exact frees_leaving hstage
      case asking => exact .of_step t (frees_of_free (by simp [step, hstage, unlock]))

theorem frees_watchers (hs : s.Held) (hwaiter : s.waiter.holds .watchers = false) :
    s.Frees .watchers := by
  cases hwatchers : s.holder .watchers with
  | none => exact frees_of_free hwatchers
  | some holder =>
    cases holder with
    | none => simp [hs.waiter .watchers hwatchers] at hwaiter
    | some t =>
      have hholds := hs.calls .watchers t hwatchers
      cases hstage : s.stage t <;> simp only [hstage, CallStage.holds, Bool.false_eq_true] at hholds
      case watching watcher => exact .of_step t (frees_of_free (by simp [step, hstage, unlock]))

/-! ### Away from a released halt -/

/-- Moves can take the emulator's side away from the halt. -/
def Leaves (s : SharedHalt T) (d : Decision) : Prop := ∃ moves, (s.run moves).waiter = .returned d

theorem Leaves.of_run (moves : List (Move T)) (h : (s.run moves).Leaves d) : s.Leaves d := by
  obtain ⟨more, hmore⟩ := h
  exact ⟨moves ++ more, by rw [run_append, hmore]⟩

theorem leaves_telling {watchers : List Nat} (hwaiter : s.waiter = .telling d watchers) :
    s.Leaves d := ⟨_, by rw [run_telling hwaiter]⟩

theorem leaves_taking (hwaiter : s.waiter = .taking d) : s.Leaves d :=
  .of_run [.wait] (leaves_telling (show (s.perform .wait).waiter = .telling d s.halt.watchers by
    simp [perform, waitStep, hwaiter]))

theorem leaves_woken (hs : s.Held) (hwaiter : s.waiter = .woken d) : s.Leaves d := by
  obtain ⟨moves, hfree, hsame⟩ := frees_watchers hs (by rw [hwaiter]; rfl)
  refine .of_run moves (.of_run [.wait] (leaves_taking ?_))
  simp [perform, waitStep, hsame, hwaiter, waitLock_waiter, hfree]

theorem leaves_looking (hs : s.Held) (hd : s.halt.decision = some d)
    (hwaiter : s.waiter = .looking) : s.Leaves d :=
  .of_run [.wait] (leaves_woken (held_waitStep hs) (by simp [perform, waitStep, hwaiter, hd]))

theorem leaves_of_waiting (hs : s.Held) (hsound : s.verdict.Sound) (hd : s.halt.decision = some d)
    (hwaiter : s.waiter = .called ∨ s.waiter = .asleep) : s.Leaves d := by
  have hnot : s.waiter.holds .decision = false := by rcases hwaiter with h | h <;> rw [h] <;> rfl
  obtain ⟨moves, hfree, hsame⟩ := frees_decision hs hnot
  have hlooking : ((s.run moves).perform .wait).waiter = .looking := by
    rcases hwaiter with h | h <;> simp [perform, waitStep, hsame, h, waitLock_waiter, hfree]
  have hd' : ((s.run moves).perform .wait).halt.decision = some d :=
    decision_run (sound_run hsound moves) (decision_run hsound hd moves) [.wait]
  exact .of_run moves (.of_run [.wait]
    (leaves_looking (held_perform (held_run hs moves) .wait) hd' hlooking))

/-- From a released halt the emulator's side can always get away, with what was decided. -/
theorem leaves_of_decided (hs : s.Held) (hsound : s.verdict.Sound)
    (hd : s.halt.decision = some d) : s.Leaves d := by
  have hknows : ∀ d', s.waiter.hearing = .knows d' → d' = d := fun _ h =>
    Option.some_inj.mp ((decision_of_knows hsound h).symm.trans hd)
  cases hwaiter : s.waiter with
  | called => exact leaves_of_waiting hs hsound hd (.inl hwaiter)
  | asleep => exact leaves_of_waiting hs hsound hd (.inr hwaiter)
  | looking => exact leaves_looking hs hd hwaiter
  | woken d' =>
    obtain rfl := hknows d' (by rw [hwaiter]; rfl)
    exact leaves_woken hs hwaiter
  | taking d' =>
    obtain rfl := hknows d' (by rw [hwaiter]; rfl)
    exact leaves_taking hwaiter
  | telling d' watchers =>
    obtain rfl := hknows d' (by rw [hwaiter]; rfl)
    exact leaves_telling hwaiter
  | returned d' =>
    obtain rfl := hknows d' (by rw [hwaiter]; rfl)
    exact ⟨[], hwaiter⟩

end SharedHalt

end SceneDebugger
