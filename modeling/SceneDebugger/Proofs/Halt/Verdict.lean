import SceneDebugger.Proofs.Halt.Shared

/-!
# SceneDebugger.Proofs.Halt.Verdict — who decides how a script goes on from a halt that is shared

Of all that happens at a shared halt, its decision concerns only who looks at it, who writes it down,
and who holds its lock.  Each move goes one of a few ways there, and each of those keeps `Sound`: the
lock is held by whoever looks, one release at most has written the decision down, and whoever found or
heard a decision did so after the release that counted was over.

* `Standing`, `Hearing`, `Verdict`: what concerns the decision.
* `Verdict.Goes`, `Verdict.Sound.goes`: what a move does to it, and what that keeps.
* `SharedHalt.goes_perform`, `SharedHalt.sound_run`, `SharedHalt.decision_run`: moves and runs.
-/

namespace SceneDebugger

open Function

/-! ### What concerns the decision -/

/-- What a call has to do with the decision of the halt. -/
inductive Standing where
  /-- The call is not a release, or has not looked at the decision yet. -/
  | apart
  /-- The lock of the decision is held, here and up to `counted`. -/
  | looking
  /-- There was no decision, and `r` is to be written down. -/
  | first (r : Decision)
  /-- There was a decision. -/
  | late
  | counted (r : Decision)
  /-- The release is over, and counted. -/
  | won (r : Decision)
  /-- The release is over, and did not count. -/
  | lost
  deriving DecidableEq

namespace Standing

/-- The lock of the decision is held. -/
def locks : Standing → Bool
  | .looking | .first _ | .late | .counted _ => true
  | .apart | .won _ | .lost => false

/-- The decision that was written down. -/
def wrote? : Standing → Option Decision
  | .counted r | .won r => some r
  | _ => none

/-- There was a decision when the call looked. -/
def foundOne : Standing → Bool
  | .late | .lost => true
  | _ => false

end Standing

/-- What a stage has to do with the decision. -/
def CallStage.standing : CallStage → Standing
  | .deciding _ _ | .asking => .looking
  | .naming _ r true | .describing _ r true | .settling _ r true => .first r
  | .naming _ _ false | .describing _ _ false | .settling _ _ false | .leaving _ _ false => .late
  | .leaving _ r true => .counted r
  | .released _ r true => .won r
  | .released _ _ false => .lost
  | _ => .apart

/-- What the emulator's side knows of the decision. -/
inductive Hearing where
  | nothing
  /-- The lock of the decision is held. -/
  | looking
  | knows (d : Decision)
  deriving DecidableEq

/-- What the emulator's side knows of the decision at a stage. -/
def WaitStage.hearing : WaitStage → Hearing
  | .called | .asleep => .nothing
  | .looking => .looking
  | .woken d | .taking d | .telling d _ | .returned d => .knows d

/-- What of a shared halt concerns its decision. -/
structure Verdict (T : Type) where
  standing : T → Standing
  decision : Option Decision
  holder : Option (Option T)
  hearing : Hearing

/-- What of the shared halt concerns its decision. -/
def SharedHalt.verdict {T : Type} (s : SharedHalt T) : Verdict T where
  standing t := (s.stage t).standing
  decision := s.halt.decision
  holder := s.holder .decision
  hearing := s.waiter.hearing

namespace Verdict

variable {T : Type} [DecidableEq T] {v v' : Verdict T}

/-- What a move does to what concerns the decision. -/
inductive Goes (v : Verdict T) : Verdict T → Prop where
  | stays : v.Goes v
  | locks (t : T) (h : v.standing t = .apart) (hfree : v.holder = none) :
      v.Goes { v with standing := update v.standing t .looking, holder := some (some t) }
  | first (t : T) (r : Decision) (h : v.standing t = .looking) (hd : v.decision = none) :
      v.Goes { v with standing := update v.standing t (.first r) }
  | late (t : T) (h : v.standing t = .looking) (hd : v.decision ≠ none) :
      v.Goes { v with standing := update v.standing t .late }
  | told (t : T) (h : v.standing t = .looking) :
      v.Goes { v with standing := update v.standing t .apart, holder := none }
  | counted (t : T) (r : Decision) (h : v.standing t = .first r) :
      v.Goes { v with standing := update v.standing t (.counted r), decision := some r }
  | won (t : T) (r : Decision) (h : v.standing t = .counted r) :
      v.Goes { v with standing := update v.standing t (.won r), holder := none }
  | lost (t : T) (h : v.standing t = .late) :
      v.Goes { v with standing := update v.standing t .lost, holder := none }
  | waiterLocks (h : v.hearing = .nothing) (hfree : v.holder = none) :
      v.Goes { v with hearing := .looking, holder := some none }
  | sleeps (h : v.hearing = .looking) (hd : v.decision = none) :
      v.Goes { v with hearing := .nothing, holder := none }
  | hears (d : Decision) (h : v.hearing = .looking) (hd : v.decision = some d) :
      v.Goes { v with hearing := .knows d, holder := none }

/-- Who holds the lock of the decision, who wrote it down, and who knows it. -/
structure Sound (v : Verdict T) : Prop where
  holds : ∀ t, (v.standing t).locks = true → v.holder = some (some t)
  waits : v.hearing = .looking → v.holder = some none
  first : ∀ t r, v.standing t = .first r → v.decision = none
  wrote : ∀ t r, (v.standing t).wrote? = some r → v.decision = some r
  found : ∀ t, (v.standing t).foundOne = true → ∃ w r, v.standing w = .won r
  single : ∀ t t' r r', (v.standing t).wrote? = some r → (v.standing t').wrote? = some r' → t = t'
  author : ∀ r, v.decision = some r → ∃ t, (v.standing t).wrote? = some r
  heard : ∀ d, v.hearing = .knows d → ∃ t, v.standing t = .won d

omit [DecidableEq T] in
theorem Sound.won_of_wrote (hv : v.Sound) {t : T} {d : Decision}
    (hwrote : (v.standing t).wrote? = some d) (hfree : v.holder ≠ some (some t)) :
    v.standing t = .won d := by
  have hlocks := hv.holds t
  cases hstanding : v.standing t <;> simp_all [Standing.locks, Standing.wrote?]

/-- A call that has not the property before it goes on is not the one that has it. -/
theorem exists_update_of_not {standing : T → Standing} {p : Standing → Prop} {t : T}
    (hex : ∃ w, p (standing w)) (hnot : ¬ p (standing t)) (x : Standing) :
    ∃ w, p (update standing t x w) := by
  obtain ⟨w, hw⟩ := hex
  have hne : w ≠ t := fun heq => hnot (heq ▸ hw)
  exact ⟨w, by rwa [update_of_ne hne]⟩

/-- Some call still wrote down what is decided. -/
theorem Sound.author_goes (hv : v.Sound) (h : v.Goes v') {r : Decision}
    (hr : v'.decision = some r) : ∃ t, (v'.standing t).wrote? = some r := by
  cases h with
  | stays | waiterLocks | sleeps | hears => exact hv.author r hr
  | locks t h | first t _ h | late t h | told t h | lost t h =>
    exact exists_update_of_not (p := (·.wrote? = some r)) (hv.author r hr)
      (by simp [h, Standing.wrote?]) _
  | counted t r' h => exact ⟨t, by simpa [Standing.wrote?] using hr⟩
  | won t r' h =>
    have hdecision : v.decision = some r' := hv.wrote t r' (by simp [h, Standing.wrote?])
    have heq : r' = r := Option.some_inj.mp (hdecision.symm.trans hr)
    exact ⟨t, by simp [heq, Standing.wrote?]⟩

/-- Some release that is over still counted with what the emulator's side knows. -/
theorem Sound.heard_goes (hv : v.Sound) (h : v.Goes v') {d : Decision}
    (hd : v'.hearing = .knows d) : ∃ t, v'.standing t = .won d := by
  cases h with
  | stays => exact hv.heard d hd
  | waiterLocks | sleeps => cases hd
  | hears d' hlooking hdecided =>
    cases hd
    obtain ⟨t, ht⟩ := hv.author d hdecided
    exact ⟨t, hv.won_of_wrote ht (by simp [hv.waits hlooking])⟩
  | locks t h | first t _ h | late t h | told t h | counted t _ h | won t _ h | lost t h =>
    exact exists_update_of_not (p := (· = .won d)) (hv.heard d hd) (by simp [h]) _

/-- A release that found a decision still has another one that is over and counted. -/
theorem Sound.found_goes (hv : v.Sound) (h : v.Goes v') {t : T}
    (hfound : (v'.standing t).foundOne = true) : ∃ w r, v'.standing w = .won r := by
  have hkept : ∀ {t' x}, (∃ w r, v.standing w = .won r) → (∀ r, v.standing t' ≠ .won r) →
      ∃ w r, update v.standing t' x w = .won r := fun hex hnot =>
    exists_update_of_not (p := fun st => ∃ r, st = .won r) hex (by simpa using hnot) _
  cases h with
  | stays | waiterLocks | sleeps | hears => exact hv.found t hfound
  | late t' h hd =>
    obtain ⟨r, hr⟩ := Option.ne_none_iff_exists'.mp hd
    obtain ⟨w, hw⟩ := hv.author r hr
    have hne : v.holder ≠ some (some w) := by
      have hheld : v.holder = some (some t') := hv.holds t' (by simp [h, Standing.locks])
      rw [hheld]
      rintro ⟨rfl⟩
      simp [h, Standing.wrote?] at hw
    exact hkept ⟨w, r, hv.won_of_wrote hw hne⟩ (by simp [h])
  | locks t' h | first t' _ h | told t' h | counted t' _ h | won t' _ h | lost t' h =>
    refine hkept (hv.found t ?_) (by simp [h])
    rcases eq_or_ne t t' with rfl | hne
    · simp_all [Standing.foundOne]
    · simpa [update_of_ne hne] using hfound

/-- What was decided stays decided. -/
theorem Sound.decision_goes (hv : v.Sound) (h : v.Goes v') {d : Decision}
    (hd : v.decision = some d) : v'.decision = some d := by
  cases h with
  | counted t r h => cases (hv.first t r h).symm.trans hd
  | stays | locks | first | late | told | won | lost | waiterLocks | sleeps | hears => exact hd

/-- Whoever wrote the decision down stays the one who did. -/
theorem wrote_goes (h : v.Goes v') {t : T} {r : Decision}
    (hr : (v.standing t).wrote? = some r) : (v'.standing t).wrote? = some r := by
  cases h with
  | stays | waiterLocks | sleeps | hears => exact hr
  | locks t' h | first t' _ h | late t' h | told t' h | counted t' _ h | won t' _ h | lost t' h =>
    rcases eq_or_ne t t' with rfl | hne
    · simp_all [Standing.wrote?]
    · simpa [update_of_ne hne] using hr

/-- Whoever has written the decision down did so before, or does so in this move. -/
theorem wrote_before (h : v.Goes v') {t : T} {r : Decision}
    (hr : (v'.standing t).wrote? = some r) :
    (v.standing t).wrote? = some r ∨ v.standing t = .first r ∧ v'.decision = some r := by
  cases h with
  | stays | waiterLocks | sleeps | hears => exact .inl hr
  | locks t' h | first t' _ h | late t' h | told t' h | counted t' _ h | won t' _ h | lost t' h =>
    rcases eq_or_ne t t' with rfl | hne
    · simp_all [Standing.wrote?]
    · exact .inl (by simpa [update_of_ne hne] using hr)

/-- Whoever is first has been so before, unless nothing is decided when the release gets there. -/
theorem first_before (h : v.Goes v') {t : T} {r : Decision} (hr : v'.standing t = .first r) :
    v.standing t = .first r ∨ v.decision = none ∧ v'.decision = none := by
  cases h with
  | stays | waiterLocks | sleeps | hears => exact .inl hr
  | locks t' h | first t' _ h | late t' h | told t' h | counted t' _ h | won t' _ h | lost t' h =>
    rcases eq_or_ne t t' with rfl | hne
    · simp_all
    · exact .inl (by simpa [update_of_ne hne] using hr)

omit [DecidableEq T] in
/-- One call at a time is within the lock of the decision. -/
theorem Sound.alone (hv : v.Sound) {t t' : T} (ht : (v.standing t).locks = true)
    (ht' : (v.standing t').locks = true) : t = t' := by
  simpa using (hv.holds t ht).symm.trans (hv.holds t' ht')

omit [DecidableEq T] in
/-- While a call is within the lock, the emulator's side is not. -/
theorem Sound.not_looking (hv : v.Sound) {t : T} (ht : (v.standing t).locks = true) :
    v.hearing ≠ .looking := fun hlooking => by
  cases (hv.holds t ht).symm.trans (hv.waits hlooking)

omit [DecidableEq T] in
theorem Sound.not_free (hv : v.Sound) {t : T} (ht : (v.standing t).locks = true) :
    v.holder ≠ none := fun hfree => by
  cases (hv.holds t ht).symm.trans hfree

/-- Who is within the lock of the decision holds it. -/
theorem Sound.holds_goes (hv : v.Sound) (h : v.Goes v') {t : T}
    (ht : (v'.standing t).locks = true) : v'.holder = some (some t) := by
  cases h with
  | stays => exact hv.holds t ht
  | locks t' h hfree =>
    rcases eq_or_ne t t' with rfl | hne
    · rfl
    · exact absurd hfree (hv.not_free (by simpa [update_of_ne hne] using ht))
  | first t' _ h | late t' h | counted t' _ h =>
    rcases eq_or_ne t t' with rfl | hne
    · exact hv.holds t (by simp [h, Standing.locks])
    · exact hv.holds t (by simpa [update_of_ne hne] using ht)
  | told t' h | won t' _ h | lost t' h =>
    rcases eq_or_ne t t' with rfl | hne
    · simp [Standing.locks] at ht
    · exact absurd (hv.alone (by simpa [update_of_ne hne] using ht) (by simp [h, Standing.locks])) hne
  | waiterLocks _ hfree => exact absurd hfree (hv.not_free ht)
  | sleeps hlooking | hears _ hlooking => exact absurd hlooking (hv.not_looking ht)

theorem Sound.waits_goes (hv : v.Sound) (h : v.Goes v') (hlooking : v'.hearing = .looking) :
    v'.holder = some none := by
  cases h with
  | stays | first | late | counted => exact hv.waits hlooking
  | locks _ _ hfree => cases hfree.symm.trans (hv.waits hlooking)
  | told t h | won t _ h | lost t h =>
    exact absurd hlooking (hv.not_looking (t := t) (by simp [h, Standing.locks]))
  | waiterLocks => rfl
  | sleeps | hears => cases hlooking

/-- A release that is the first one holds the lock alone, so that nobody writes a decision down. -/
theorem Sound.first_goes (hv : v.Sound) (h : v.Goes v') {t : T} {r : Decision}
    (hr : v'.standing t = .first r) : v'.decision = none := by
  rcases first_before h hr with hfirst | ⟨-, hnone⟩
  · have hnone := hv.first t r hfirst
    cases h with
    | counted t' r' h =>
      have hsame : t = t' := hv.alone (by simp [hfirst, Standing.locks]) (by simp [h, Standing.locks])
      simp [hsame] at hr
    | stays | locks | first | late | told | won | lost | waiterLocks | sleeps | hears => exact hnone
  · exact hnone

theorem Sound.wrote_goes (hv : v.Sound) (h : v.Goes v') {t : T} {r : Decision}
    (hr : (v'.standing t).wrote? = some r) : v'.decision = some r := by
  rcases wrote_before h hr with hbefore | ⟨-, hdecision⟩
  · exact hv.decision_goes h (hv.wrote t r hbefore)
  · exact hdecision

/-- Only one release writes a decision down. -/
theorem Sound.single_goes (hv : v.Sound) (h : v.Goes v') {t t' : T} {r r' : Decision}
    (hr : (v'.standing t).wrote? = some r) (hr' : (v'.standing t').wrote? = some r') : t = t' := by
  rcases wrote_before h hr with hbefore | ⟨hfirst, -⟩ <;>
    rcases wrote_before h hr' with hbefore' | ⟨hfirst', -⟩
  · exact hv.single t t' r r' hbefore hbefore'
  · cases (hv.first t' r' hfirst').symm.trans (hv.wrote t r hbefore)
  · cases (hv.first t r hfirst).symm.trans (hv.wrote t' r' hbefore')
  · exact hv.alone (by simp [hfirst, Standing.locks]) (by simp [hfirst', Standing.locks])

theorem Sound.goes (hv : v.Sound) (h : v.Goes v') : v'.Sound where
  holds _ := hv.holds_goes h
  waits := hv.waits_goes h
  first _ _ := hv.first_goes h
  wrote _ _ := hv.wrote_goes h
  found _ := hv.found_goes h
  single _ _ _ _ := hv.single_goes h
  author _ := hv.author_goes h
  heard _ := hv.heard_goes h

end Verdict

/-! ### What a move does to the decision -/

@[simp] theorem HaltRecord.descend_decision (h : HaltRecord) :
    h.descend.2.decision = h.decision := by
  unfold HaltRecord.descend
  split <;> rfl

namespace SharedHalt

variable {T : Type} [DecidableEq T] {s : SharedHalt T} {t : T} {d : Decision}

/-- When a call goes on, only its standing, the decision and its lock matter. -/
theorem goes_of {s' : SharedHalt T} (t : T) (stage : CallStage)
    (hstage : s'.stage = update s.stage t stage) (hwaiter : s'.waiter = s.waiter)
    (hgoes : s.verdict.Goes
      { s.verdict with
        standing := update s.verdict.standing t stage.standing
        decision := s'.halt.decision
        holder := s'.holder .decision }) :
    s.verdict.Goes s'.verdict := by
  have hstanding : s'.verdict.standing = update s.verdict.standing t stage.standing := by
    funext w
    unfold verdict
    rw [hstage]
    exact apply_update (fun _ => CallStage.standing) s.stage t stage w
  have heq : s'.verdict =
      { s.verdict with
        standing := s'.verdict.standing
        decision := s'.halt.decision
        holder := s'.holder .decision } := by
    unfold verdict
    rw [hwaiter]
  rwa [heq, hstanding]

/-- A call that goes on without any concern for the decision. -/
theorem goes_apart {s' : SharedHalt T} (t : T) (stage : CallStage)
    (hstage : s'.stage = update s.stage t stage) (hsame : stage.standing = (s.stage t).standing)
    (hwaiter : s'.waiter = s.waiter) (hdecision : s'.halt.decision = s.halt.decision)
    (hholder : s'.holder .decision = s.holder .decision) : s.verdict.Goes s'.verdict := by
  refine goes_of t stage hstage hwaiter ?_
  rw [hsame, hdecision, hholder, show (s.stage t).standing = s.verdict.standing t from rfl,
    update_eq_self]
  exact .stays

theorem goes_become {stage : CallStage} (hsame : stage.standing = (s.stage t).standing) :
    s.verdict.Goes (s.become t stage).verdict :=
  goes_apart t stage rfl hsame rfl rfl rfl

theorem goes_lock {l : HaltLock} {stage : CallStage} (hl : l ≠ .decision)
    (hsame : stage.standing = (s.stage t).standing) : s.verdict.Goes (s.lock l t stage).verdict := by
  unfold lock
  split
  next => exact goes_apart t stage rfl hsame rfl rfl (update_of_ne hl.symm ..)
  next => exact .stays

theorem goes_unlock {l : HaltLock} {stage : CallStage} (hl : l ≠ .decision)
    (hsame : stage.standing = (s.stage t).standing) :
    s.verdict.Goes (s.unlock l t stage).verdict :=
  goes_apart t stage rfl hsame rfl rfl (update_of_ne hl.symm ..)

theorem goes_lock_decision {stage : CallStage} (hapart : (s.stage t).standing = .apart)
    (hlooking : stage.standing = .looking) :
    s.verdict.Goes (s.lock .decision t stage).verdict := by
  unfold lock
  split
  next hfree =>
    refine goes_of t stage rfl rfl ?_
    simpa [hlooking] using .locks t hapart hfree
  next => exact .stays

/-- A call that gives the lock of the decision back. -/
theorem goes_unlock_decision {stage : CallStage}
    (hgoes : s.verdict.Goes
      { s.verdict with
        standing := update s.verdict.standing t stage.standing, holder := none }) :
    s.verdict.Goes (s.unlock .decision t stage).verdict := by
  refine goes_of t stage rfl rfl ?_
  have hholder : (s.unlock .decision t stage).holder .decision = none := by simp [unlock]
  rwa [hholder]

/-- The emulator's side goes on without any concern for the decision. -/
theorem goes_waiter {s' : SharedHalt T} (hstage : s'.stage = s.stage)
    (hhearing : s'.waiter.hearing = s.waiter.hearing)
    (hdecision : s'.halt.decision = s.halt.decision)
    (hholder : s'.holder .decision = s.holder .decision) : s.verdict.Goes s'.verdict := by
  have heq : s'.verdict = s.verdict := by
    unfold verdict
    rw [hstage, hhearing, hdecision, hholder]
  exact heq ▸ .stays

theorem goes_step (s : SharedHalt T) (t : T) : s.verdict.Goes (s.step t).verdict := by
  unfold step
  split
  next d hstage => exact goes_lock (by decide) (by rw [hstage]; rfl)
  next d hstage => exact goes_unlock (by decide) (by rw [hstage]; rfl)
  next d r hstage => exact goes_lock_decision (by rw [hstage]; rfl) rfl
  next d r hstage =>
    have hlooking : s.verdict.standing t = .looking := by simp [verdict, hstage, CallStage.standing]
    refine goes_of t (.naming d r !s.halt.isReleased) rfl rfl ?_
    cases hdecision : s.halt.decision with
    | none =>
      have hcounts : (!s.halt.isReleased) = true := by simp [HaltRecord.isReleased, hdecision]
      rw [hcounts]
      exact .first t r hlooking hdecision
    | some d' =>
      have hcounts : (!s.halt.isReleased) = false := by simp [HaltRecord.isReleased, hdecision]
      rw [hcounts]
      exact .late t hlooking (by simp [verdict, hdecision])
  next d r counts hstage => exact goes_lock (by decide) (by rw [hstage]; cases counts <;> rfl)
  next d r counts hstage => exact goes_unlock (by decide) (by rw [hstage]; cases counts <;> rfl)
  next d r hstage =>
    have hfirst : s.verdict.standing t = .first r := by simp [verdict, hstage, CallStage.standing]
    exact goes_of t (.leaving d r true) rfl rfl (.counted t r hfirst)
  next d r hstage => exact goes_become (by rw [hstage]; rfl)
  next d r counts hstage =>
    cases counts with
    | true =>
      exact goes_unlock_decision (.won t r (by simp [verdict, hstage, CallStage.standing]))
    | false => exact goes_unlock_decision (.lost t (by simp [verdict, hstage, CallStage.standing]))
  next hstage => exact goes_lock_decision (by rw [hstage]; rfl) rfl
  next hstage =>
    exact goes_unlock_decision (.told t (by simp [verdict, hstage, CallStage.standing]))
  next hstage => exact goes_lock (by decide) (by rw [hstage]; rfl)
  next hstage =>
    exact goes_apart t _ rfl (by rw [hstage]; rfl) rfl s.halt.descend_decision
      (by simp [unlock])
  next watcher hstage => exact goes_lock (by decide) (by rw [hstage]; rfl)
  next watcher hstage =>
    exact goes_apart t .watched rfl (by rw [hstage]; rfl) rfl rfl (by simp [unlock])
  next => exact .stays
  all_goals exact .stays

theorem goes_waitLock_decision (h : s.waiter.hearing = .nothing) :
    s.verdict.Goes (s.waitLock .decision .looking).verdict := by
  unfold waitLock
  split
  next hfree =>
    have heq : ({ s with
        holder := update s.holder .decision (some none), waiter := .looking } : SharedHalt T).verdict
        = { s.verdict with hearing := .looking, holder := some none } := by
      simp [verdict, WaitStage.hearing]
    exact heq ▸ .waiterLocks h hfree
  next => exact .stays

theorem goes_waitStep (s : SharedHalt T) : s.verdict.Goes s.waitStep.verdict := by
  unfold waitStep
  split
  next h => exact goes_waitLock_decision (by rw [h]; rfl)
  next h => exact goes_waitLock_decision (by rw [h]; rfl)
  next h =>
    have hlooking : s.verdict.hearing = .looking := by simp [verdict, h, WaitStage.hearing]
    cases hdecision : s.halt.decision with
    | none => simpa [verdict, WaitStage.hearing] using Verdict.Goes.sleeps hlooking hdecision
    | some d => simpa [verdict, WaitStage.hearing] using Verdict.Goes.hears d hlooking hdecision
  next d h =>
    unfold waitLock
    split
    next => exact goes_waiter rfl (by rw [h]; rfl) rfl (by simp)
    next => exact .stays
  next d h => exact goes_waiter rfl (by rw [h]; rfl) rfl (by simp)
  next d w rest h => exact goes_waiter rfl (by rw [h]; rfl) rfl rfl
  next d h => exact goes_waiter rfl (by rw [h]; rfl) rfl rfl
  next => exact .stays

theorem goes_perform (s : SharedHalt T) (m : Move T) : s.verdict.Goes (s.perform m).verdict := by
  cases m with
  | call t c =>
    simp only [perform]
    split
    next hidle => exact goes_become (by rw [hidle]; rfl)
    next => exact .stays
  | step t => exact goes_step s t
  | wait => exact goes_waitStep s

/-! ### Along a run -/

omit [DecidableEq T] in
theorem sound_start (context : ScriptContext) (place : HaltPlace) :
    (start context place : SharedHalt T).verdict.Sound where
  holds t h := by cases h
  waits h := by cases h
  first t r h := by cases h
  wrote t r h := by cases h
  found t h := by cases h
  single t t' r r' h := by cases h
  author r h := by cases h
  heard d h := by cases h

theorem sound_run (h : s.verdict.Sound) (moves : List (Move T)) : (s.run moves).verdict.Sound := by
  induction moves generalizing s with
  | nil => exact h
  | cons m rest ih => exact ih (h.goes (goes_perform s m))

theorem wrote_run (hr : (s.stage t).standing.wrote? = some d) (moves : List (Move T)) :
    ((s.run moves).stage t).standing.wrote? = some d := by
  induction moves generalizing s with
  | nil => exact hr
  | cons m rest ih => exact ih (Verdict.wrote_goes (goes_perform s m) hr)

/-- What was decided stays decided. -/
theorem decision_run (h : s.verdict.Sound) (hd : s.halt.decision = some d) (moves : List (Move T)) :
    (s.run moves).halt.decision = some d := by
  induction moves generalizing s with
  | nil => exact hd
  | cons m rest ih => exact ih (h.goes (goes_perform s m)) (h.decision_goes (goes_perform s m) hd)

omit [DecidableEq T] in
/-- The emulator's side knows the decision that was written down. -/
theorem decision_of_knows (h : s.verdict.Sound) (hd : s.waiter.hearing = .knows d) :
    s.halt.decision = some d := by
  obtain ⟨t, ht⟩ := h.heard d hd
  exact h.wrote t d (by rw [ht]; rfl)

end SharedHalt

end SceneDebugger
