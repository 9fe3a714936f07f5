import Mathlib.Data.List.Induction
import SceneDebugger.Proofs.Session.Teardown

/-!
# SceneDebugger.Proofs.Session.Blocking — who is left waiting when the hooks are dropped

The user's side looks up the current halt only once.  A halt that is raised after the look is failed by
nobody, so that the emulator's side stays blocked exactly if it raises a halt after the look
(`Teardown.blocked_iff_raisedLate`).  A handler that is under way at the look can do so
(`Teardown.mayBlock`, `Teardown.overtaken_blocks`).

Once no handler is under way any more none comes (`Teardown.never_blocked_of_playing`), and if the
emulator's side does nothing until the user's side has returned, it is never left blocked
(`Teardown.never_blocked_of_undisturbed`).
-/

namespace SceneDebugger.Teardown

open Session

variable {t t' : Teardown} {r : HaltRecord} {m : TeardownMove}

/-- The emulator's side waits on a halt that was not released. -/
def Blocked (t : Teardown) : Prop :=
  ∃ r rest, t.engine = .waiting rest ∧ t.session.controller.halt = some r ∧ r.isReleased = false

/-- The emulator's side is about to publish a halt. -/
def IsHalting (t : Teardown) : Prop := ∃ file c rest, t.engine = .halting file c rest

/-- A halt is raised after the look. -/
def RaisedLate (t : Teardown) (moves : List TeardownMove) : Prop :=
  ∃ done, done ++ [.engine] <+: moves ∧ (t.run done).user ≠ .called ∧ (t.run done).IsHalting

theorem raisedLate_concat {moves : List TeardownMove} :
    t.RaisedLate (moves ++ [m]) ↔
      t.RaisedLate moves ∨
        (m = .engine ∧ (t.run moves).user ≠ .called ∧ (t.run moves).IsHalting) := by
  constructor
  · rintro ⟨done, hdone, hlate⟩
    rcases List.prefix_concat_iff.mp hdone with heq | hbefore
    · obtain ⟨rfl, hm⟩ := List.append_inj' heq rfl
      exact .inr ⟨(List.singleton_inj.mp hm).symm, hlate⟩
    · exact .inl ⟨done, hbefore, hlate⟩
  · rintro (⟨done, hdone, hlate⟩ | ⟨rfl, hlate⟩)
    · exact ⟨done, hdone.trans (List.prefix_append _ _), hlate⟩
    · exact ⟨moves, List.prefix_rfl, hlate⟩

/-! ### What becomes of the halt -/

/-- The halt and the user's side are not concerned. -/
structure Passes (t t' : Teardown) : Prop where
  user : t'.user = t.user
  halt : t'.session.controller.halt = t.session.controller.halt
  waiting : ∀ rest, t.engine = .waiting rest → t'.engine = .waiting rest

/-- A halt is raised. -/
structure Raises (t t' : Teardown) : Prop where
  user : t'.user = t.user
  halting : t.IsHalting
  blocked : t'.Blocked

/-- The emulator's side wakes up from a halt that was released. -/
structure Wakes (t t' : Teardown) : Prop where
  user : t'.user = t.user
  released : ∃ r, t.session.controller.halt = some r ∧ r.isReleased = true
  halt : t'.session.controller.halt = none

theorem passes_of_awake (hengine : ∀ rest, t.engine ≠ .waiting rest) (huser : t'.user = t.user)
    (hhalt : t'.session.controller.halt = t.session.controller.halt) : t.Passes t' :=
  ⟨huser, hhalt, fun rest hwaiting => absurd hwaiting (hengine rest)⟩

theorem Goes.cases_halt (h : t.Goes t') : t.Passes t' ∨ t.Raises t' ∨ t.Wakes t' := by
  cases h with
  | playing | asleep => exact .inl ⟨rfl, rfl, fun _ hwaiting => hwaiting⟩
  | done hengine => exact .inl (passes_of_awake (by simp [hengine]) rfl rfl)
  | handled h rest hengine hh =>
    refine .inl (passes_of_awake (by simp [hengine]) rfl ?_)
    show (t.session.handle h).controller.halt = _
    rw [(apart_handle t.session hh).controller]
  | unreached rest hengine => exact .inl (passes_of_awake (by simp [hengine]) rfl rfl)
  | passed rest hengine => exact .inl (passes_of_awake (by simp [hengine]) rfl rfl)
  | decided file c rest hengine => exact .inl (passes_of_awake (by simp [hengine]) rfl rfl)
  | raised file c rest hengine =>
    exact .inr (.inl ⟨rfl, ⟨file, c, rest, hengine⟩, _, rest, rfl, rfl, rfl⟩)
  | woken rest r d hengine hr hd =>
    refine .inr (.inr ⟨rfl, ⟨r, hr, ?_⟩, ?_⟩)
    · rw [HaltRecord.isReleased, hd]
      rfl
    · cases d <;> rfl

theorem GoesOn.passes (h : t.GoesOn t') : t.Passes t' := by
  cases h with
  | stopped => exact ⟨rfl, rfl, fun _ hwaiting => hwaiting⟩
  | begun hengine runs => exact passes_of_awake (by simp [hengine]) rfl rfl
  | played hengine machine => exact passes_of_awake (by simp [hengine]) rfl rfl

/-- What becomes of the halt while the user's side does nothing. -/
theorem step_cases (hm : m ≠ .user) :
    t.Passes (t.step m) ∨ (m = .engine ∧ t.Raises (t.step m)) ∨ t.Wakes (t.step m) := by
  by_cases hengine : m = .engine
  · subst hengine
    rcases t.goes_engineStep.cases_halt with hpasses | hraises | hwakes
    · exact .inl hpasses
    · exact .inr (.inl ⟨rfl, hraises⟩)
    · exact .inr (.inr hwakes)
  · exact .inl (goesOn_step hm hengine).passes

theorem raises_of_isHalting (h : t.IsHalting) : t.Raises (t.step .engine) := by
  obtain ⟨file, c, rest, hengine⟩ := h
  have hstep : t.step .engine = { t with
      session := { t.session.raise file c with waiting := rest }, engine := .waiting rest } := by
    simp only [step, engineStep, hengine]
  rw [hstep]
  exact ⟨rfl, ⟨file, c, rest, hengine⟩, _, rest, rfl, rfl, rfl⟩

/-- The look, the release, and what does not concern the halt. -/
theorem userStep_cases (t : Teardown) :
    (t.user = .called ∧ t.userStep = { t with user := .looked t.session.controller.halt }) ∨
    (∃ r, t.user = .looked (some r) ∧
      t.userStep = { t with session := t.session.failLooked r, user := .dropping }) ∨
    ((∀ r, t.user ≠ .looked (some r)) ∧ t.user ≠ .called ∧
      (∀ halt, t.userStep.user ≠ .looked halt) ∧ t.userStep.user ≠ .called ∧
      t.userStep.session.controller = t.session.controller ∧ t.userStep.engine = t.engine) := by
  unfold userStep
  cases huser : t.user with
  | called => exact .inl ⟨rfl, rfl⟩
  | looked halt =>
    cases halt with
    | none => exact .inr (.inr (by simp))
    | some r => exact .inr (.inl ⟨r, rfl, rfl⟩)
  | dropping =>
    refine .inr (.inr ?_)
    cases t.session.hooks with
    | nil => simp
    | cons id rest => simp [dropHook]
  | returned => exact .inr (.inr (by simp [huser]))

theorem failLooked_of_released {s : Session} (hr : r.isReleased = true) :
    (s.failLooked r).controller = s.controller := by
  simp [failLooked, hr]

theorem failLooked_of_current {s : Session} (hcurrent : s.controller.halt = some r)
    (hr : r.decision = none) :
    (s.failLooked r).controller.halt = some { r with decision := some .failHard } := by
  simp [failLooked, HaltRecord.isReleased, hr, release, hcurrent, HaltRecord.release_of_unreleased hr,
    changeHalt, HaltPlace.resolve]

theorem decision_eq_none (h : r.isReleased = false) : r.decision = none := by
  simpa [HaltRecord.isReleased] using h

/-! ### Halts after the look -/

/-- The emulator's side waits on the current halt, and the user's side has no other one to release. -/
structure Joined (t : Teardown) : Prop where
  waits : ∀ r, t.session.controller.halt = some r → ∃ rest, t.engine = .waiting rest
  looked : ∀ r, t.user = .looked (some r) → r.isReleased = false →
    t.session.controller.halt = some r

/-- Every halt was released, or the user's side is about to. -/
def Answered (t : Teardown) : Prop :=
  t.user ≠ .called → ∀ r, t.session.controller.halt = some r →
    r.isReleased = true ∨ t.user = .looked (some r)

/-- The emulator's side waits on a halt that the user's side does not have. -/
structure Stuck (t : Teardown) : Prop where
  called : t.user ≠ .called
  blocked : t.Blocked
  looked : ∀ r, t.user = .looked (some r) → r.isReleased = true

theorem Joined.userStep (h : t.Joined) : t.userStep.Joined := by
  rcases t.userStep_cases with ⟨-, hstep⟩ | ⟨r, huser, hstep⟩ |
    ⟨-, -, hlooked, -, hcontroller, hengine⟩
  · rw [hstep]
    refine ⟨h.waits, fun r hr _ => ?_⟩
    exact UserStage.looked.inj hr
  · rw [hstep]
    refine ⟨fun r' hr' => ?_, fun r' hr' => by cases hr'⟩
    cases hr : r.isReleased with
    | true =>
      rw [failLooked_of_released hr] at hr'
      exact h.waits r' hr'
    | false => exact h.waits r (h.looked r huser hr)
  · refine ⟨fun r hr => ?_, fun r hr => absurd hr (hlooked _)⟩
    rw [hcontroller] at hr
    rw [hengine]
    exact h.waits r hr

/-- Who waits on a halt is not about to raise another one. -/
theorem Joined.none_of_isHalting (h : t.Joined) (hhalting : t.IsHalting) :
    t.session.controller.halt = none := by
  obtain ⟨file, c, rest, hengine⟩ := hhalting
  cases hhalt : t.session.controller.halt with
  | none => rfl
  | some r =>
    obtain ⟨rest', hwaiting⟩ := h.waits r hhalt
    rw [hengine] at hwaiting
    cases hwaiting

/-- When a halt is raised, the user's side has no other one to release. -/
theorem Joined.released_of_isHalting (h : t.Joined) (hhalting : t.IsHalting)
    (hr : t.user = .looked (some r)) : r.isReleased = true := by
  by_contra hfree
  have hcurrent := h.looked r hr (by simpa using hfree)
  rw [h.none_of_isHalting hhalting] at hcurrent
  cases hcurrent

theorem Joined.step (h : t.Joined) (m : TeardownMove) : (t.step m).Joined := by
  by_cases hm : m = .user
  · subst hm
    exact h.userStep
  · rcases step_cases (t := t) hm with hpasses | ⟨-, hraises⟩ | hwakes
    · refine ⟨fun r hr => ?_, fun r hr hfree => ?_⟩
      · rw [hpasses.halt] at hr
        obtain ⟨rest, hwaiting⟩ := h.waits r hr
        exact ⟨rest, hpasses.waiting rest hwaiting⟩
      · rw [hpasses.user] at hr
        rw [hpasses.halt]
        exact h.looked r hr hfree
    · obtain ⟨r', rest, hengine, -, -⟩ := hraises.blocked
      refine ⟨fun r _ => ⟨rest, hengine⟩, fun r hr hfree => ?_⟩
      rw [hraises.user] at hr
      rw [h.released_of_isHalting hraises.halting hr] at hfree
      cases hfree
    · obtain ⟨r', hr', hreleased⟩ := hwakes.released
      refine ⟨fun r hr => ?_, fun r hr hfree => ?_⟩
      · rw [hwakes.halt] at hr
        cases hr
      · rw [hwakes.user] at hr
        have hcurrent := h.looked r hr hfree
        rw [hr'] at hcurrent
        cases hcurrent
        rw [hreleased] at hfree
        cases hfree

theorem Answered.userStep (h : t.Answered) (hjoined : t.Joined) : t.userStep.Answered := by
  intro _ r hr
  rcases t.userStep_cases with ⟨-, hstep⟩ | ⟨r', huser, hstep⟩ |
    ⟨hunlooked, hcalled, -, -, hcontroller, -⟩
  · right
    rw [hstep] at hr ⊢
    exact congrArg UserStage.looked hr
  · left
    rw [hstep] at hr
    cases hr' : r'.isReleased with
    | true =>
      rw [failLooked_of_released hr'] at hr
      rcases h (by simp [huser]) r hr with hreleased | hlooked
      · exact hreleased
      · rw [huser] at hlooked
        cases hlooked
        exact hr'
    | false =>
      rw [failLooked_of_current (hjoined.looked r' huser hr') (decision_eq_none hr')] at hr
      cases hr
      rfl
  · rw [hcontroller] at hr
    rcases h hcalled r hr with hreleased | hlooked
    · exact .inl hreleased
    · exact absurd hlooked (hunlooked r)

/-- As long as no halt is raised after the look, every halt is released or about to be. -/
theorem Answered.step (h : t.Answered) (hjoined : t.Joined)
    (hearly : ¬ (m = .engine ∧ t.user ≠ .called ∧ t.IsHalting)) : (t.step m).Answered := by
  by_cases hm : m = .user
  · subst hm
    exact h.userStep hjoined
  · intro hcalled r hr
    rcases step_cases (t := t) hm with hpasses | ⟨hengine, hraises⟩ | hwakes
    · rw [hpasses.user] at hcalled ⊢
      rw [hpasses.halt] at hr
      exact h hcalled r hr
    · rw [hraises.user] at hcalled
      exact absurd ⟨hengine, hcalled, hraises.halting⟩ hearly
    · rw [hwakes.halt] at hr
      cases hr

theorem Joined.stuck_of_isHalting (h : t.Joined) (hcalled : t.user ≠ .called)
    (hhalting : t.IsHalting) : (t.step .engine).Stuck := by
  have hraises := raises_of_isHalting hhalting
  refine ⟨?_, hraises.blocked, fun r hr => ?_⟩
  · rw [hraises.user]
    exact hcalled
  · rw [hraises.user] at hr
    exact h.released_of_isHalting hhalting hr

theorem Stuck.userStep (h : t.Stuck) : t.userStep.Stuck := by
  obtain ⟨hcalled, ⟨r, rest, hengine, hr, hfree⟩, hlooked⟩ := h
  rcases t.userStep_cases with ⟨huser, -⟩ | ⟨r', huser, hstep⟩ |
    ⟨-, -, hunlooked, hcalled', hcontroller, hengine'⟩
  · exact absurd huser hcalled
  · rw [hstep]
    refine ⟨by simp, ⟨r, rest, hengine, ?_, hfree⟩, fun r'' hr'' => by cases hr''⟩
    show (t.session.failLooked r').controller.halt = some r
    rw [failLooked_of_released (hlooked r' huser)]
    exact hr
  · refine ⟨hcalled', ⟨r, rest, hengine'.trans hengine, ?_, hfree⟩, fun r' hr' =>
      absurd hr' (hunlooked _)⟩
    rw [hcontroller]
    exact hr

/-- Nobody releases a halt that the user's side does not have. -/
theorem Stuck.step (h : t.Stuck) (m : TeardownMove) : (t.step m).Stuck := by
  by_cases hm : m = .user
  · subst hm
    exact h.userStep
  · obtain ⟨hcalled, ⟨r, rest, hengine, hr, hfree⟩, hlooked⟩ := h
    rcases step_cases (t := t) hm with hpasses | ⟨-, hraises⟩ | hwakes
    · refine ⟨?_, ⟨r, rest, hpasses.waiting rest hengine, ?_, hfree⟩, fun r' hr' => ?_⟩
      · rw [hpasses.user]
        exact hcalled
      · rw [hpasses.halt]
        exact hr
      · rw [hpasses.user] at hr'
        exact hlooked r' hr'
    · obtain ⟨file, c, rest', hhalting⟩ := hraises.halting
      rw [hengine] at hhalting
      cases hhalting
    · obtain ⟨r', hr', hreleased⟩ := hwakes.released
      rw [hr] at hr'
      cases hr'
      rw [hfree] at hreleased
      cases hreleased

theorem Stuck.run (h : t.Stuck) (moves : List TeardownMove) : (t.run moves).Stuck := by
  induction moves generalizing t with
  | nil => exact h
  | cons m moves ih => exact ih (h.step m)

/-- A halt that is raised after the look sticks, and without such a halt every halt is released. -/
theorem run_invariant (hjoined : t.Joined) (hcalled : t.user = .called) (moves : List TeardownMove) :
    (t.run moves).Joined ∧ (t.RaisedLate moves → (t.run moves).Stuck) ∧
      (¬ t.RaisedLate moves → (t.run moves).Answered) := by
  induction moves using List.reverseRecOn with
  | nil =>
    refine ⟨hjoined, fun hlate => ?_, fun _ huser => absurd hcalled huser⟩
    obtain ⟨done, hdone, -⟩ := hlate
    simp at hdone
  | append_singleton moves m ih =>
    obtain ⟨hjoined', hstuck, hanswered⟩ := ih
    rw [run_concat, raisedLate_concat]
    refine ⟨hjoined'.step m, fun hlate => ?_, fun hearly => ?_⟩
    · rcases hlate with hlate | ⟨rfl, huser, hhalting⟩
      · exact (hstuck hlate).step m
      · exact hjoined'.stuck_of_isHalting huser hhalting
    · rw [not_or] at hearly
      exact (hanswered hearly.1).step hjoined' hearly.2

/-- Whatever the order of steps, once the user's side has returned the emulator's side is blocked
exactly if it has raised a halt after the look. -/
theorem blocked_iff_raisedLate (hjoined : t.Joined) (hcalled : t.user = .called)
    (moves : List TeardownMove) (hreturned : (t.run moves).user = .returned) :
    (t.run moves).Blocked ↔ t.RaisedLate moves := by
  obtain ⟨-, hstuck, hanswered⟩ := run_invariant hjoined hcalled moves
  constructor
  · rintro ⟨r, rest, -, hr, hfree⟩
    by_contra hearly
    rcases hanswered hearly (by simp [hreturned]) r hr with hreleased | hlooked
    · rw [hfree] at hreleased
      cases hreleased
    · rw [hreturned] at hlooked
      cases hlooked
  · intro hlate
    exact (hstuck hlate).blocked

/-! ### A handler under way -/

/-- A handler that is under way at the look can block the emulator's side for good: it has decided to
halt a script, and raises the halt when the user's side is through. -/
theorem mayBlock {s : Session} {address : UInt32} {rest : List Handler} {file : String}
    {c : ScriptContext} (hnone : s.controller.halt = none)
    (hhandlers : s.machine.handlersAt address = .opcode :: rest)
    (hreached : s.reachedOpcode? = some (file, c))
    (hstops : s.controller.forced = true ∨ s.hasBreakpoint file c = true) :
    ∃ moves, (run { session := s } moves).user = .returned ∧
      ∀ more, (run { session := s } (moves ++ more)).Blocked := by
  let about : Teardown := { session := s.asked, engine := .halting file c rest }
  have habout : run { session := s } [.reach address, .engine] = about := by
    have hcond : (s.controller.forced || s.hasBreakpoint file c) = true := by simpa using hstops
    simp [step, engineStep, opcodeStep, hhandlers, hreached, hcond, about]
  let gone : Teardown := { about with session := s.asked.failHalt.dropHooks, user := .returned }
  have hgone : about.run (.replicate (s.asked.hooks.length + 3) .user) = gone :=
    run_user (t := about) rfl
  have hhalting : gone.IsHalting := ⟨file, c, rest, rfl⟩
  have hjoined : gone.Joined := by
    have hnone' : gone.session.controller.halt = none := by
      show s.asked.failHalt.controller.halt = none
      rw [failHalt_of_none (show s.asked.controller.halt = none from hnone)]
      exact hnone
    refine ⟨fun r hr => ?_, fun r hr => by cases hr⟩
    rw [hnone'] at hr
    cases hr
  have hstuck : (gone.step .engine).Stuck := hjoined.stuck_of_isHalting (by simp [gone]) hhalting
  refine ⟨[.reach address, .engine] ++ .replicate (s.asked.hooks.length + 3) .user ++ [.engine], ?_,
    fun more => ?_⟩
  · rw [run_append, run_append, habout, hgone]
    exact (raises_of_isHalting hhalting).user
  · rw [run_append, run_append, run_append, habout, hgone]
    exact (hstuck.run more).blocked

/-! ### After the hooks are dropped -/

/-- Hooks on opcodes are those of the session, which are dropped when the user's side returns. -/
structure Owned (t : Teardown) : Prop where
  opcodes : ∀ h ∈ t.session.machine.hooks, h.handler = .opcode → h.id ∈ t.session.hooks
  returned : t.user = .returned → t.session.hooks = []

theorem Owned.of_same (h : t.Owned) (huser : t'.user = t.user)
    (hhooks : t'.session.hooks = t.session.hooks)
    (hmachine : t'.session.machine.hooks = t.session.machine.hooks) : t'.Owned := by
  refine ⟨?_, ?_⟩
  · rw [hhooks, hmachine]
    exact h.opcodes
  · rw [huser, hhooks]
    exact h.returned

theorem Owned.goes (h : t.Owned) (hgoes : t.Goes t') : t'.Owned := by
  cases hgoes with
  | handled handler rest hengine hh =>
    have hapart := apart_handle t.session hh
    exact h.of_same rfl hapart.hooks hapart.machineHooks
  | _ => exact h.of_same rfl rfl rfl

theorem Owned.goesOn (h : t.Owned) (hgoes : t.GoesOn t') : t'.Owned := by
  cases hgoes with
  | stopped => exact h
  | begun hengine runs => exact h.of_same rfl rfl rfl
  | played hengine machine hhooks => exact h.of_same rfl rfl hhooks

theorem Owned.userStep (h : t.Owned) : t.userStep.Owned := by
  unfold Teardown.userStep
  cases huser : t.user with
  | called => exact ⟨h.opcodes, fun hreturned => by cases hreturned⟩
  | looked halt =>
    cases halt with
    | none => exact ⟨h.opcodes, fun hreturned => by cases hreturned⟩
    | some r =>
      refine ⟨?_, fun hreturned => by cases hreturned⟩
      obtain ⟨hhooks, hmachine⟩ := hooks_failLooked t.session r
      show ∀ h ∈ (t.session.failLooked r).machine.hooks, _ → _ ∈ (t.session.failLooked r).hooks
      rw [hhooks, hmachine]
      exact h.opcodes
  | dropping =>
    cases hhooks : t.session.hooks with
    | nil => exact ⟨h.opcodes, fun _ => hhooks⟩
    | cons id rest =>
      refine ⟨fun hook hhook hopcode => ?_, fun hreturned => by cases hreturned⟩
      obtain ⟨hmem, hkept⟩ := List.mem_filter.mp hhook
      have howned := h.opcodes hook hmem hopcode
      rw [hhooks] at howned
      rcases List.mem_cons.mp howned with heq | hrest
      · simp [heq] at hkept
      · exact hrest
  | returned => exact h

theorem Owned.step (h : t.Owned) (m : TeardownMove) : (t.step m).Owned := by
  by_cases huser : m = .user
  · subst huser
    exact h.userStep
  · by_cases hengine : m = .engine
    · subst hengine
      exact h.goes t.goes_engineStep
    · exact h.goesOn (goesOn_step huser hengine)

theorem Owned.run (h : t.Owned) (moves : List TeardownMove) : (t.run moves).Owned := by
  induction moves generalizing t with
  | nil => exact h
  | cons m moves ih => exact ih (h.step m)

theorem Owned.dropped (h : t.Owned) (hreturned : t.user = .returned) :
    ∀ hook ∈ t.session.machine.hooks, hook.handler ≠ .opcode := by
  intro hook hhook hopcode
  have hmem := h.opcodes hook hhook hopcode
  rw [h.returned hreturned] at hmem
  cases hmem

/-- The user's side has returned, and the emulator's side is not about to halt a script: no handler of
opcodes is under way, but in a tick that is ignored or will be. -/
structure Harmless (t : Teardown) : Prop where
  owned : t.Owned
  returned : t.user = .returned
  engine : t.engine = .playing ∨
    (∃ handlers, t.engine = .handling handlers ∧
      (.opcode ∈ handlers → t.session.controller.ignoredTick = t.session.machine.tick)) ∨
    ∃ rest r, t.engine = .waiting rest ∧ t.session.controller.halt = some r ∧
      r.decision = some .failHard

theorem Harmless.not_blocked (h : t.Harmless) : ¬ t.Blocked := by
  rintro ⟨r, rest, hengine, hr, hfree⟩
  rcases h.engine with hplaying | ⟨handlers, hhandling, -⟩ | ⟨rest', r', -, hr', hd⟩
  · rw [hplaying] at hengine
    cases hengine
  · rw [hhandling] at hengine
    cases hengine
  · rw [hr] at hr'
    cases hr'
    simp [HaltRecord.isReleased, hd] at hfree

theorem reachedOpcode?_of_ignored {s : Session} (h : s.controller.ignoredTick = s.machine.tick) :
    s.reachedOpcode? = none := by
  unfold reachedOpcode?
  split
  · rfl
  · split
    · rfl
    · simp [Controller.mayHalt, h]

/-- What is known of the handlers that are under way. -/
theorem Harmless.ignored {handlers : List Handler} (h : t.Harmless)
    (hengine : t.engine = .handling handlers) (hmem : .opcode ∈ handlers) :
    t.session.controller.ignoredTick = t.session.machine.tick := by
  rcases h.engine with hplaying | ⟨handlers', hhandling, hignored⟩ | ⟨rest, r, hwaiting, -⟩
  · rw [hengine] at hplaying
    cases hplaying
  · rw [hengine] at hhandling
    cases hhandling
    exact hignored hmem
  · rw [hengine] at hwaiting
    cases hwaiting

theorem Harmless.goes (h : t.Harmless) (hgoes : t.Goes t') : t'.Harmless := by
  have howned := h.owned.goes hgoes
  cases hgoes with
  | playing | asleep => exact h
  | done hengine => exact ⟨howned, h.returned, .inl rfl⟩
  | handled handler rest hengine hh =>
    have hapart := apart_handle t.session hh
    refine ⟨howned, h.returned, .inr (.inl ⟨rest, rfl, fun hmem => ?_⟩)⟩
    show (t.session.handle handler).controller.ignoredTick = (t.session.handle handler).machine.tick
    rw [hapart.controller, hapart.tick]
    exact h.ignored hengine (List.mem_cons_of_mem handler hmem)
  | unreached rest hengine =>
    have hignored := h.ignored hengine List.mem_cons_self
    exact ⟨howned, h.returned, .inr (.inl ⟨rest, rfl, fun _ => hignored⟩)⟩
  | passed rest hengine hopcode hreached =>
    exact absurd (reachedOpcode?_of_ignored (h.ignored hengine List.mem_cons_self)) hreached
  | decided file c rest hengine hopcode hreached =>
    exact absurd (reachedOpcode?_of_ignored (h.ignored hengine List.mem_cons_self)) hreached
  | raised file c rest hengine =>
    rcases h.engine with hplaying | ⟨handlers, hhandling, -⟩ | ⟨rest', r, hwaiting, -⟩
    · rw [hengine] at hplaying
      cases hplaying
    · rw [hengine] at hhandling
      cases hhandling
    · rw [hengine] at hwaiting
      cases hwaiting
  | woken rest r d hengine hr hd =>
    have hfailed : d = .failHard := by
      rcases h.engine with hplaying | ⟨handlers, hhandling, -⟩ | ⟨rest', r', -, hr', hd'⟩
      · rw [hengine] at hplaying
        cases hplaying
      · rw [hengine] at hhandling
        cases hhandling
      · rw [hr] at hr'
        cases hr'
        rw [hd] at hd'
        exact Option.some.inj hd'
    subst hfailed
    exact ⟨howned, h.returned, .inr (.inl ⟨rest, rfl, fun _ => rfl⟩)⟩

theorem Harmless.goesOn (h : t.Harmless) (hgoes : t.GoesOn t') : t'.Harmless := by
  have howned := h.owned.goesOn hgoes
  cases hgoes with
  | stopped => exact h
  | begun hengine runs =>
    refine ⟨howned, h.returned, .inr (.inl ⟨_, rfl, fun hmem => ?_⟩)⟩
    obtain ⟨hook, hhook, hopcode⟩ := List.mem_map.mp hmem
    exact absurd hopcode (h.owned.dropped h.returned hook (List.mem_filter.mp hhook).1)
  | played hengine machine hhooks => exact ⟨howned, h.returned, .inl hengine⟩

theorem Harmless.step (h : t.Harmless) (m : TeardownMove) : (t.step m).Harmless := by
  by_cases huser : m = .user
  · have hstep : t.step .user = t := by
      simp only [Teardown.step, Teardown.userStep, h.returned]
    rw [huser, hstep]
    exact h
  · by_cases hengine : m = .engine
    · subst hengine
      exact h.goes t.goes_engineStep
    · exact h.goesOn (goesOn_step huser hengine)

theorem Harmless.run (h : t.Harmless) (moves : List TeardownMove) : (t.run moves).Harmless := by
  induction moves generalizing t with
  | nil => exact h
  | cons m moves ih => exact ih (h.step m)

/-- Once the user's side has returned and no handler is under way, the emulator's side is not blocked
any more. -/
theorem never_blocked_of_playing (howned : t.Owned) (moves : List TeardownMove)
    (hreturned : (t.run moves).user = .returned) (hplaying : (t.run moves).engine = .playing)
    (more : List TeardownMove) : ¬ (t.run (moves ++ more)).Blocked := by
  have hharmless : (t.run moves).Harmless := ⟨howned.run moves, hreturned, .inl hplaying⟩
  rw [run_append]
  exact (hharmless.run more).not_blocked

/-- If the user's side gets through while a script is halted, or while the game runs outside of
handlers, the emulator's side is never left blocked. -/
theorem never_blocked_of_undisturbed (howned : t.Owned) (hcalled : t.user = .called)
    (hengine : t.engine = .playing ∨
      ∃ rest r, t.engine = .waiting rest ∧ t.session.controller.halt = some r ∧ r.isReleased = false)
    (more : List TeardownMove) :
    ¬ (t.run (.replicate (t.session.hooks.length + 3) .user ++ more)).Blocked := by
  have hharmless : (t.run (.replicate (t.session.hooks.length + 3) .user)).Harmless := by
    have howned' := howned.run (.replicate (t.session.hooks.length + 3) .user)
    rw [run_user hcalled] at howned' ⊢
    refine ⟨howned', rfl, ?_⟩
    rcases hengine with hplaying | ⟨rest, r, hwaiting, hr, hfree⟩
    · exact .inl hplaying
    · have hfailed : t.session.failHalt.controller.halt =
          some { r with decision := some .failHard } := by
        rw [failHalt_of_halt hr]
        exact failLooked_of_current hr (decision_eq_none hfree)
      exact .inr (.inr ⟨rest, _, hwaiting, hfailed, rfl⟩)
  rw [run_append]
  exact (hharmless.run more).not_blocked

/-! ### A teardown that is overtaken -/

/-- A session with a hook on opcodes, before an opcode with a breakpoint. -/
def hooked : Session :=
  let s := breaking.facing { kind := 1, hanger := 1, address := 0 }
  { s with
    machine := { s.machine with
      hooks := [{ trigger := .execution 0x02040000, handler := .opcode, id := 0 }] }
    hooks := [0] }

theorem owned_hooked : Owned { session := hooked } := by
  refine ⟨fun h hh _ => ?_, fun hreturned => by cases hreturned⟩
  obtain rfl := List.mem_singleton.mp hh
  exact List.mem_singleton.mpr rfl

/-- The halt at the look is failed and the hooks are dropped, but the emulator's side can be left
blocked. -/
theorem overtaken_blocks :
    ¬ ∀ (t : Teardown) (moves : List TeardownMove), t.Owned → t.Joined → t.user = .called →
      (t.run moves).user = .returned → ¬ (t.run moves).Blocked := by
  intro hclaim
  have hreach : (hooked.reachedOpcode?.any fun x => hooked.hasBreakpoint x.1 x.2) = true := by
    decide +kernel
  obtain ⟨⟨file, c⟩, hreached, hbreaks⟩ := (Option.any_eq_true _ _).mp hreach
  have hhandlers : hooked.machine.handlersAt 0x02040000 = [.opcode] := rfl
  obtain ⟨moves, hreturned, hblocked⟩ := mayBlock rfl hhandlers hreached (.inr hbreaks)
  have hjoined : Joined { session := hooked } := by
    refine ⟨fun r hr => ?_, fun r hr => by cases hr⟩
    cases hr
  have hnow := hblocked []
  rw [List.append_nil] at hnow
  exact hclaim { session := hooked } moves owned_hooked hjoined rfl hreturned hnow

end SceneDebugger.Teardown
