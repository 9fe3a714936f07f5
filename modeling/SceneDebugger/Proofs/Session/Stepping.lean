import SceneDebugger.Proofs.Session.HaltMoves

/-!
# SceneDebugger.Proofs.Session.Stepping — where a step ends

An opcode halts its script if the user breaks there or if the last decision asked for it, and nothing
of an earlier decision is left by then.

* `Decision.EndsAt`: the opcodes at which the step of a decision may end.
* `Session.Cleared`: no step is on its way while a script is halted.
* `Session.Bound`: between two halts the steps on their way are those of the last decision.
* `Session.Bound.stepsBy`: the first opcode that has a breakpoint, or at which the step of the decision
  ends, halts its script, and no other does.
* `Session.step_ends`: both for all runs.
-/

namespace SceneDebugger

/-! ### Where decisions stop -/

namespace ScriptContext

/-- Another script is bound to the same target. -/
def SameTarget (c c' : ScriptContext) : Prop := c.target = c'.target ∧ c.slot = c'.slot

/-- Another script is about to run the opcode at which the caller of this one goes on. -/
def ReturnsTo (c c' : ScriptContext) : Prop := ∃ f, c.caller = some f ∧ f.address = c'.address

instance (c c' : ScriptContext) : Decidable (c.SameTarget c') :=
  inferInstanceAs (Decidable (_ ∧ _))

instance (c c' : ScriptContext) : Decidable (c.ReturnsTo c') :=
  decidable_of_iff (c.caller.any fun f => f.address == c'.address)
    (by simp [ReturnsTo, Option.any_eq_true])

end ScriptContext

/-- The step of a decision about a script may end at the opcode of another one. -/
def Decision.EndsAt (d : Decision) (c c' : ScriptContext) : Prop :=
  match d with
  | .failHard | .resume => False
  | .stepNext => True
  | .stepInto => c.SameTarget c'
  | .stepOver => c.SameTarget c' ∧ (c.isShared = c'.isShared ∨ c.ReturnsTo c')
  | .stepOut => c.SameTarget c' ∧ c.ReturnsTo c'
  | .stepManual address => c.SameTarget c' ∧ c.isShared = c'.isShared ∧ address = c'.address

instance (d : Decision) (c c' : ScriptContext) : Decidable (d.EndsAt c c') := by
  cases d <;> unfold Decision.EndsAt <;> infer_instance

section Targets

variable {c c' : ScriptContext} {file : String}

theorem accepts_any : (StepTarget.of c).accepts (.of file c') = true ↔ c.SameTarget c' := by
  simp [StepTarget.accepts, StepTarget.of, OpcodeHit.of, ScriptContext.SameTarget]

theorem accepts_inShared {b : Bool} :
    ((StepTarget.of c).inShared b).accepts (.of file c') = true ↔
      c.SameTarget c' ∧ b = c'.isShared := by
  simp [StepTarget.accepts, StepTarget.of, StepTarget.inShared, OpcodeHit.of, ScriptContext.SameTarget]

theorem accepts_atAddress {t : StepTarget} {address : UInt32} (ht : t.address = none) :
    (t.atAddress address).accepts (.of file c') = true ↔
      t.accepts (.of file c') = true ∧ address = c'.address := by
  simp [StepTarget.accepts, StepTarget.atAddress, OpcodeHit.of, ht]

/-- The target of the caller accepts the opcode at which the caller goes on. -/
theorem any_atCaller :
    ((c.caller.map fun f => (StepTarget.of c).atAddress f.address).toList.any
        fun t => t.accepts (.of file c')) = true ↔ c.SameTarget c' ∧ c.ReturnsTo c' := by
  cases hc : c.caller with
  | none => simp [ScriptContext.ReturnsTo, hc]
  | some f => simp [ScriptContext.ReturnsTo, hc, accepts_atAddress (t := .of c) rfl, accepts_any]

/-- The step targets of a decision accept the opcodes at which its step may end; the step to the very
next opcode has no targets. -/
theorem any_stepTargets (d : Decision) :
    ((d.stepTargets c).any fun t => t.accepts (.of file c')) = true ↔
      d ≠ .stepNext ∧ d.EndsAt c c' := by
  cases d with
  | failHard => simp [Decision.stepTargets, Decision.EndsAt]
  | resume => simp [Decision.stepTargets, Decision.EndsAt]
  | stepNext => simp [Decision.stepTargets]
  | stepInto => simp [Decision.stepTargets, Decision.EndsAt, accepts_any]
  | stepOver =>
    simp only [Decision.stepTargets, List.any_cons, Bool.or_eq_true, accepts_inShared, any_atCaller,
      Decision.EndsAt, ← and_or_left, ne_eq, reduceCtorEq, not_false_eq_true, true_and]
  | stepOut =>
    simp only [Decision.stepTargets, any_atCaller, Decision.EndsAt, ne_eq, reduceCtorEq,
      not_false_eq_true, true_and]
  | stepManual address =>
    simp [Decision.stepTargets, Decision.EndsAt, accepts_inShared, and_assoc,
      accepts_atAddress (t := (StepTarget.of c).inShared c.isShared) rfl]

end Targets

namespace Session

variable {s t : Session} {d : Decision} {c c' : ScriptContext} {r : HaltRecord} {file : String}
  {m : HaltMove} {moves : List HaltMove}

/-! ### Steps on their way -/

/-- No opcode that the engine runs during the moves is one that could halt. -/
def Unreached (s : Session) (moves : List HaltMove) : Prop :=
  ∀ done, done ++ [.opcode] <+: moves → (s.after done).reachedOpcode? = none

/-- After moves without a halt, an opcode halts its script exactly if it is one that can halt and has
a breakpoint, or is one at which the step of a decision about a script ends. -/
def StepsBy (s : Session) (d : Decision) (c : ScriptContext) : Prop :=
  ∀ moves, s.Quiet moves → ∀ file c', (s.after moves).HaltsAt file c' ↔
    (s.after moves).reachedOpcode? = some (file, c') ∧
      ((s.after moves).BreaksAt file c' ∨ d.EndsAt c c')

/-- No step is on its way while a script is halted. -/
def Cleared (s : Session) : Prop :=
  s.controller.isStopped = true → s.breakpoints.stepTargets = [] ∧ s.controller.forced = false

/-- No script is halted, and the steps on their way are those of a decision about a script. -/
structure Bound (s : Session) (d : Decision) (c : ScriptContext) : Prop where
  running : s.controller.halt = none
  targets : s.breakpoints.stepTargets = d.stepTargets c
  forced : s.controller.forced = true ↔ d = .stepNext

theorem cleared_of_none (h : s.controller.halt = none) : s.Cleared := by
  intro hstopped
  simp [Controller.isStopped, h] at hstopped

theorem Cleared.of_halt (h : s.Cleared) (hr : s.controller.halt = some r) :
    s.breakpoints.stepTargets = [] ∧ s.controller.forced = false :=
  h (by simp [Controller.isStopped, hr])

theorem stepTargets_foldl (targets : List StepTarget) (b : Breakpoints) :
    (targets.foldl Breakpoints.addStepTarget b).stepTargets = b.stepTargets ++ targets := by
  induction targets generalizing b with
  | nil => simp
  | cons target rest ih =>
    rw [List.foldl_cons, ih]
    simp [Breakpoints.addStepTarget]

/-- Once the emulator's side has followed a decision, no other step is on its way. -/
theorem Cleared.bound_wake (h : s.Cleared) (hr : s.controller.halt = some r)
    (hd : r.decision = some d) : (s.moved .wake).Bound d r.context := by
  obtain ⟨htargets, hforced⟩ := h.of_halt hr
  have hwake : s.moved .wake =
      { s with controller := { s.controller with halt := none } }.follow d r.context := by
    simp only [moved, wakeUp?_of_released hr hd]
  rw [hwake]
  refine ⟨?_, ?_, ?_⟩
  · cases d <;> rfl
  · show ((d.stepTargets r.context).foldl Breakpoints.addStepTarget s.breakpoints).stepTargets = _
    rw [stepTargets_foldl, htargets, List.nil_append]
  · show (Controller.follow { s.controller with halt := none } d s.machine.tick).forced = true ↔ _
    cases d <;> simp [Controller.follow, hforced]

/-! ### Runs -/

theorem Cleared.moved (h : s.Cleared) (m : HaltMove) : (s.moved m).Cleared := by
  cases hr : s.controller.halt with
  | none =>
    by_cases hopcode : m = .opcode
    · subst hopcode
      rw [moved_opcode_of_none hr]
      cases hreached : s.reachedOpcode? with
      | none =>
        rw [onOpcode_of_unreached hreached]
        exact h
      | some reached =>
        by_cases hstops : s.controller.forced = true ∨ s.hasBreakpoint reached.1 reached.2 = true
        · rw [onOpcode_of_stops hreached hstops]
          exact fun _ => ⟨rfl, rfl⟩
        · rw [not_or, Bool.not_eq_true, Bool.not_eq_true] at hstops
          rw [onOpcode_of_passes hreached hstops.1 hstops.2]
          exact cleared_of_none hr
    · by_cases hamid : ∃ other, m = .amid other
      · obtain ⟨other, rfl⟩ := hamid
        exact cleared_of_none hr
      · rw [moved_of_none hr hopcode fun other heq => hamid ⟨other, heq⟩]
        exact h
  | some r =>
    obtain ⟨htargets, hforced⟩ := h.of_halt hr
    by_cases hwake : m = .wake
    · subst hwake
      cases hd : r.decision with
      | none =>
        rw [show s.moved .wake = s by simp only [Session.moved, wakeUp?_of_unreleased hr hd]]
        exact h
      | some d => exact cleared_of_none (h.bound_wake hr hd).running
    · have hholds := holds_moved hr hwake
      exact fun _ => ⟨hholds.targets.trans htargets, hholds.forced.trans hforced⟩

theorem Cleared.after (h : s.Cleared) (moves : List HaltMove) : (s.after moves).Cleared := by
  induction moves generalizing s with
  | nil => exact h
  | cons m moves ih => exact ih (h.moved m)

/-- As long as no script is halted, the steps on their way stay, and the demand to halt at the next
opcode is not taken up by any. -/
theorem Bound.moved (h : s.Bound d c) (hquiet : (s.moved m).controller.halt = none) :
    (s.moved m).Bound d c ∧ (m = .opcode → d = .stepNext → s.reachedOpcode? = none) := by
  by_cases hopcode : m = .opcode
  · subst hopcode
    cases hreached : s.reachedOpcode? with
    | none =>
      rw [moved_opcode_of_none h.running, onOpcode_of_unreached hreached]
      exact ⟨h, fun _ _ => rfl⟩
    | some reached =>
      have hpasses : ¬ (s.controller.forced = true ∨ s.hasBreakpoint reached.1 reached.2 = true) := by
        intro hstops
        obtain ⟨r, hr, -⟩ := (haltsAt_iff h.running).mpr ⟨hreached, hstops⟩
        rw [hquiet] at hr
        cases hr
      rw [not_or, Bool.not_eq_true, Bool.not_eq_true] at hpasses
      have hstep : d ≠ .stepNext := fun hd => by
        have hforced := h.forced.mpr hd
        rw [hpasses.1] at hforced
        cases hforced
      rw [moved_opcode_of_none h.running, onOpcode_of_passes hreached hpasses.1 hpasses.2,
        askedForce_of_not_forced hpasses.1]
      exact ⟨h, fun _ hd => absurd hd hstep⟩
  · refine ⟨?_, fun heq => absurd heq hopcode⟩
    by_cases hamid : ∃ other, m = .amid other
    · obtain ⟨other, rfl⟩ := hamid
      exact ⟨h.running, h.targets, h.forced⟩
    · rw [moved_of_none h.running hopcode fun other heq => hamid ⟨other, heq⟩]
      exact h

theorem Bound.after (h : s.Bound d c) (hquiet : s.Quiet moves) :
    (s.after moves).Bound d c ∧ (d = .stepNext → s.Unreached moves) := by
  induction moves generalizing s with
  | nil =>
    refine ⟨h, fun _ done hdone => ?_⟩
    simp at hdone
  | cons m moves ih =>
    have hfirst : (s.moved m).controller.halt = none :=
      hquiet [m] (List.cons_prefix_cons.mpr ⟨rfl, List.nil_prefix⟩)
    obtain ⟨hmoved, hreached⟩ := h.moved hfirst
    obtain ⟨hafter, hunreached⟩ := ih hmoved hquiet.tail
    refine ⟨hafter, fun hd done hdone => ?_⟩
    cases done with
    | nil =>
      obtain ⟨hm, -⟩ := List.cons_prefix_cons.mp hdone
      exact hreached hm.symm hd
    | cons m' done =>
      obtain ⟨rfl, hrest⟩ := List.cons_prefix_cons.mp hdone
      exact hunreached hd done hrest

/-- Where the steps on their way are those of a decision, an opcode halts its script by a breakpoint or
by the decision. -/
theorem Bound.haltsAt_iff (h : s.Bound d c) :
    s.HaltsAt file c' ↔ s.reachedOpcode? = some (file, c') ∧
      (s.BreaksAt file c' ∨ d.EndsAt c c') := by
  rw [Session.haltsAt_iff h.running, hasBreakpoint_iff, h.targets, h.forced, any_stepTargets]
  refine and_congr_right fun _ => ?_
  by_cases hd : d = .stepNext
  · subst hd
    simp [Decision.EndsAt]
  · simp [hd]

theorem Bound.stepsBy (h : s.Bound d c) : s.StepsBy d c :=
  fun _ hquiet _ _ => (h.after hquiet).1.haltsAt_iff

/-- A halt that was released leaves the steps of the decision on their way, which is resolved against
the place that was shown then. -/
theorem Cleared.bound_of_resumes (h : s.Cleared) (hr : s.controller.halt = some r)
    (hfree : r.decision = none) (ht : s.Resumes d t) :
    t.Bound (r.place.resolve r.context d) r.context := by
  obtain ⟨idle, hidle, rfl⟩ := ht
  have hreleased : (s.moved (.release d)).controller.halt =
      some { r with decision := some (r.place.resolve r.context d) } := by
    rw [moved_release_of_unreleased hr hfree]
    rfl
  obtain ⟨⟨r', hr', hlater⟩, -, -⟩ := holds_after hreleased hidle
  have hbound := ((h.moved (.release d)).after idle).bound_wake hr' (hlater.decision _ rfl)
  rw [hlater.context] at hbound
  exact hbound

/-- While a script is halted no step is on its way.  If the next halt after a decision is not at a
breakpoint, then the step of the decision may end there, and a step to the very next opcode has met no
opcode before that could halt. -/
theorem step_ends {first : Session} (hfirst : first.controller.halt = none) (moves : List HaltMove) :
    ((first.after moves).controller.isStopped = true →
      (first.after moves).breakpoints.stepTargets = [] ∧
        (first.after moves).controller.forced = false) ∧
    ∀ r d t more file c', (first.after moves).controller.halt = some r → r.isReleased = false →
      (first.after moves).Resumes d t → t.Quiet more → (t.after more).HaltsAt file c' →
        (t.after more).BreaksAt file c' ∨
          ((r.place.resolve r.context d).EndsAt r.context c' ∧
            (r.place.resolve r.context d = .stepNext → t.Unreached more)) := by
  have hcleared : (first.after moves).Cleared := (cleared_of_none hfirst).after moves
  refine ⟨hcleared, fun r d t more file c' hr hfree ht hquiet hhalts => ?_⟩
  have hbound := hcleared.bound_of_resumes hr (by simpa [HaltRecord.isReleased] using hfree) ht
  obtain ⟨hafter, hunreached⟩ := hbound.after hquiet
  obtain ⟨-, hbreaks | hends⟩ := hafter.haltsAt_iff.mp hhalts
  · exact .inl hbreaks
  · exact .inr ⟨hends, hunreached⟩

/-- A script calls a routine that is stepped out of: the next opcode of the routine passes. -/
def leavingRoutine : List HaltMove := [breaking.facingAt 4 8, .opcode, breaking.facingAt 8 0]

/-- A script that is stepped out of halts where its caller goes on. -/
theorem step_ends_sample :
    breaking.controller.halt = none ∧ ∃ r t c, (breaking.halted 8).controller.halt = some r ∧
      (breaking.halted 8).Resumes .stepOut t ∧ t.Quiet leavingRoutine ∧
      (t.after leavingRoutine).HaltsAt "enter.ssb" c ∧ r.context.ReturnsTo c := by
  refine ⟨rfl, ?_⟩
  obtain ⟨r, hr, hfree, hresolve⟩ := exists_currentHalt (breaking.halted 8)
    (fun r => r.isReleased = false ∧ r.place.resolve r.context .stepOut = .stepOut) (by decide +kernel)
  have ht := resumes_resumed (breaking.halted 8) .stepOut
  have hquiet : ((breaking.halted 8).resumed .stepOut).Quiet leavingRoutine := by decide +kernel
  obtain ⟨c, hhalts, hpasses⟩ :=
    exists_haltsAt (((breaking.halted 8).resumed .stepOut).after leavingRoutine) "enter.ssb"
      (fun c => ¬ (((breaking.halted 8).resumed .stepOut).after leavingRoutine).BreaksAt "enter.ssb" c)
      (by decide +kernel)
  refine ⟨r, _, c, hr, ht, hquiet, hhalts, ?_⟩
  rcases (step_ends rfl [breaking.facingAt 0 8, .opcode]).2 r .stepOut _ _ "enter.ssb" c hr hfree ht
    hquiet hhalts with hbreak | ⟨hends, -⟩
  · exact absurd hbreak hpasses
  · rw [hresolve] at hends
    exact hends.2

end Session

end SceneDebugger
