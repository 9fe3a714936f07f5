import SceneDebugger.Proofs.Session.HaltMoves

/-!
# SceneDebugger.Proofs.Session.Teardown — the hooks are dropped while the game runs

To disable debugging, the user's side looks up the current halt, fails it if there is one, and drops
the hooks one by one.  Meanwhile the emulator's side runs handlers: it decides to halt a script,
publishes the halt and waits on it.  Neither side waits for the other (`Teardown.step`).

* `EngineStage`, `UserStage`: how far the two sides have come.
* `Teardown.run`: the two sides take steps in any order, while the game goes on.
* `Teardown.Goes`, `Teardown.GoesOn`: all that the emulator's side and the game do.
* `Teardown.run_user`, `Teardown.run_engine`: alone, the two sides do what `Session.disable` and
  `Session.runHandlers` do.
-/

namespace SceneDebugger

/-! ### Two sides -/

/-- How far the emulator's side has come. -/
inductive EngineStage where
  /-- The game runs, outside of all handlers. -/
  | playing
  /-- Handlers are to run, one after the other. -/
  | handling (handlers : List Handler)
  /-- A script is to be halted, which nobody knows yet. -/
  | halting (file : String) (c : ScriptContext) (rest : List Handler)
  /-- The emulator's side waits on the current halt. -/
  | waiting (rest : List Handler)

/-- How far the user's side has come. -/
inductive UserStage where
  | called
  /-- The current halt was looked up. -/
  | looked (halt : Option HaltRecord)
  | dropping
  | returned

/-- A session of which the hooks are dropped. -/
structure Teardown where
  session : Session
  engine : EngineStage := .playing
  user : UserStage := .called

/-- What either side does, and how the game goes on. -/
inductive TeardownMove where
  | user
  | engine
  /-- Execution reaches an address. -/
  | reach (address : UInt32)
  /-- The byte at an address is written. -/
  | write (address : UInt32)
  /-- The game goes on without running into a hook. -/
  | play (machine : Machine)

namespace Session

/-- A halt is failed that was looked up before. -/
def failLooked (s : Session) (r : HaltRecord) : Session :=
  let warned : Session := { s with
    workspace := s.workspace.warn ("Failing outstanding halt at " ++ r.describe) }
  if r.isReleased then { warned with workspace := warned.workspace.warn r.alreadyReleased }
  else (warned.release .failHard).2

/-- The first of the hooks is dropped. -/
def dropHook (s : Session) (id : Nat) (rest : List Nat) : Session :=
  { s with machine := s.machine.unhook [id], hooks := rest }

/-- An opcode has asked whether it is to halt. -/
def asked (s : Session) : Session := { s with controller := s.controller.askedForce }

/-- The emulator's side has woken up and followed a decision. -/
def awake (s : Session) (d : Decision) (c : ScriptContext) : Session :=
  { s with controller := { s.controller with halt := none } }.follow d c

end Session

namespace Teardown

open Session

/-! ### Steps -/

/-- The next step of the user's side. -/
def userStep (t : Teardown) : Teardown :=
  match t.user with
  | .called => { t with user := .looked t.session.controller.halt }
  | .looked none => { t with user := .dropping }
  | .looked (some r) => { t with session := t.session.failLooked r, user := .dropping }
  | .dropping =>
    match t.session.hooks with
    | [] => { t with user := .returned }
    | id :: rest => { t with session := t.session.dropHook id rest }
  | .returned => t

/-- An opcode is looked at, with further handlers to run. -/
def opcodeStep (t : Teardown) (rest : List Handler) : Teardown :=
  match t.session.reachedOpcode? with
  | none => { t with engine := .handling rest }
  | some (file, c) =>
    if t.session.controller.forced || t.session.hasBreakpoint file c then
      { t with session := t.session.asked, engine := .halting file c rest }
    else { t with session := t.session.asked, engine := .handling rest }

/-- The next step of the emulator's side. -/
def engineStep (t : Teardown) : Teardown :=
  match t.engine with
  | .playing => t
  | .handling [] => { t with session := { t.session with waiting := [] }, engine := .playing }
  | .handling (.opcode :: rest) => t.opcodeStep rest
  | .handling (h :: rest) => { t with session := t.session.handle h, engine := .handling rest }
  | .halting file c rest =>
    { t with session := { t.session.raise file c with waiting := rest }, engine := .waiting rest }
  | .waiting rest =>
    match t.session.wakeUp? with
    | none => t
    | some (_, _, awake) => { t with session := awake, engine := .handling rest }

/-- The teardown after a move.  The game goes on outside of handlers only. -/
def step (t : Teardown) : TeardownMove → Teardown
  | .user => t.userStep
  | .engine => t.engineStep
  | .reach address =>
    match t.engine with
    | .playing => { t with engine := .handling (t.session.machine.handlersAt address) }
    | _ => t
  | .write address =>
    match t.engine with
    | .playing => { t with engine := .handling (t.session.machine.handlersOfWrite address) }
    | _ => t
  | .play machine =>
    match t.engine with
    | .playing =>
      { t with session := { t.session with
          machine := { machine with hooks := t.session.machine.hooks } } }
    | _ => t

/-- The teardown after moves in any order. -/
def run (t : Teardown) (moves : List TeardownMove) : Teardown := moves.foldl step t

@[simp] theorem run_nil (t : Teardown) : t.run [] = t := rfl

@[simp] theorem run_cons (t : Teardown) (m : TeardownMove) (moves : List TeardownMove) :
    t.run (m :: moves) = (t.step m).run moves := rfl

theorem run_append (t : Teardown) (moves more : List TeardownMove) :
    t.run (moves ++ more) = (t.run moves).run more := List.foldl_append

theorem run_concat (t : Teardown) (moves : List TeardownMove) (m : TeardownMove) :
    t.run (moves ++ [m]) = (t.run moves).step m := run_append t moves [m]

/-! ### What the emulator's side does -/

variable {t t' : Teardown} {r : HaltRecord}

/-- One step of the emulator's side. -/
inductive Goes (t : Teardown) : Teardown → Prop where
  | playing (hengine : t.engine = .playing) : t.Goes t
  | done (hengine : t.engine = .handling []) :
      t.Goes { t with session := { t.session with waiting := [] }, engine := .playing }
  | handled (h : Handler) (rest : List Handler) (hengine : t.engine = .handling (h :: rest))
      (hh : h ≠ .opcode) : t.Goes { t with session := t.session.handle h, engine := .handling rest }
  | unreached (rest : List Handler) (hengine : t.engine = .handling (.opcode :: rest))
      (hopcode : t.session.onOpcode = t.session) : t.Goes { t with engine := .handling rest }
  | passed (rest : List Handler) (hengine : t.engine = .handling (.opcode :: rest))
      (hopcode : t.session.onOpcode = t.session.asked) (hreached : t.session.reachedOpcode? ≠ none) :
      t.Goes { t with session := t.session.asked, engine := .handling rest }
  | decided (file : String) (c : ScriptContext) (rest : List Handler)
      (hengine : t.engine = .handling (.opcode :: rest))
      (hopcode : t.session.onOpcode = t.session.asked.raise file c)
      (hreached : t.session.reachedOpcode? ≠ none) :
      t.Goes { t with session := t.session.asked, engine := .halting file c rest }
  | raised (file : String) (c : ScriptContext) (rest : List Handler)
      (hengine : t.engine = .halting file c rest) :
      t.Goes { t with
        session := { t.session.raise file c with waiting := rest }, engine := .waiting rest }
  | asleep (rest : List Handler) (hengine : t.engine = .waiting rest) : t.Goes t
  | woken (rest : List Handler) (r : HaltRecord) (d : Decision) (hengine : t.engine = .waiting rest)
      (hr : t.session.controller.halt = some r) (hd : r.decision = some d) :
      t.Goes { t with session := t.session.awake d r.context, engine := .handling rest }

/-- What the game does between the steps of the two sides. -/
inductive GoesOn (t : Teardown) : Teardown → Prop where
  | stopped : t.GoesOn t
  | begun (hengine : t.engine = .playing) (runs : Hook → Bool) :
      t.GoesOn { t with
        engine := .handling ((t.session.machine.hooks.filter runs).map fun h => h.handler) }
  | played (hengine : t.engine = .playing) (machine : Machine)
      (hhooks : machine.hooks = t.session.machine.hooks) :
      t.GoesOn { t with session := { t.session with machine } }

theorem goes_opcodeStep {rest : List Handler} (hengine : t.engine = .handling (.opcode :: rest)) :
    t.Goes (t.opcodeStep rest) := by
  unfold opcodeStep
  cases hreached : t.session.reachedOpcode? with
  | none => exact .unreached rest hengine (onOpcode_of_unreached hreached)
  | some reached =>
    obtain ⟨file, c⟩ := reached
    have hsome : t.session.reachedOpcode? ≠ none := by simp [hreached]
    dsimp only
    split_ifs with hstops
    · rw [Bool.or_eq_true] at hstops
      exact .decided file c rest hengine (onOpcode_of_stops hreached hstops) hsome
    · rw [Bool.or_eq_true, not_or, Bool.not_eq_true, Bool.not_eq_true] at hstops
      exact .passed rest hengine (onOpcode_of_passes hreached hstops.1 hstops.2) hsome

theorem goes_engineStep (t : Teardown) : t.Goes t.engineStep := by
  unfold engineStep
  split
  · next hengine => exact .playing hengine
  · next hengine => exact .done hengine
  · next rest hengine => exact goes_opcodeStep hengine
  · next h rest hh hengine => exact .handled h rest hengine hh
  · next file c rest hengine => exact .raised file c rest hengine
  · next rest hengine =>
    cases hr : t.session.controller.halt with
    | none =>
      rw [wakeUp?_of_none hr]
      exact .asleep rest hengine
    | some r =>
      cases hd : r.decision with
      | none =>
        rw [wakeUp?_of_unreleased hr hd]
        exact .asleep rest hengine
      | some d =>
        rw [wakeUp?_of_released hr hd]
        exact .woken rest r d hengine hr hd

theorem goesOn_step {m : TeardownMove} (huser : m ≠ .user) (hengine : m ≠ .engine) :
    t.GoesOn (t.step m) := by
  cases m with
  | user => exact absurd rfl huser
  | engine => exact absurd rfl hengine
  | reach address =>
    simp only [step]
    split
    · next hplaying => exact .begun hplaying (Hook.runsAt address)
    · exact .stopped
  | write address =>
    simp only [step]
    split
    · next hplaying => exact .begun hplaying (Hook.runsOnWrite address)
    · exact .stopped
  | play machine =>
    simp only [step]
    split
    · next hplaying => exact .played hplaying { machine with hooks := t.session.machine.hooks } rfl
    · exact .stopped

/-! ### Without disturbance -/

theorem unhook_nil (machine : Machine) : machine.unhook [] = machine := by
  unfold Machine.unhook
  rw [List.filter_eq_self.mpr (by simp)]

theorem unhook_cons (machine : Machine) (id : Nat) (rest : List Nat) :
    (machine.unhook [id]).unhook rest = machine.unhook (id :: rest) := by
  simp only [Machine.unhook, List.filter_filter, List.contains_cons, List.contains_nil, Bool.or_false,
    Bool.not_or, Bool.and_comm]

theorem run_dropping (hdropping : t.user = .dropping) :
    t.run (.replicate (t.session.hooks.length + 1) .user) =
      { t with session := t.session.dropHooks, user := .returned } := by
  obtain ⟨s, engine, user⟩ := t
  cases hdropping
  show run _ (.replicate (s.hooks.length + 1) .user) = _
  generalize hhooks : s.hooks = hooks
  induction hooks generalizing s with
  | nil =>
    have hdropped : s.dropHooks = s := by
      unfold dropHooks
      rw [hhooks, unhook_nil, ← hhooks]
    simp [List.replicate_succ, step, userStep, hhooks, hdropped]
  | cons id rest ih =>
    have hdropped : (s.dropHook id rest).dropHooks = s.dropHooks := by
      simp only [dropHooks, dropHook, hhooks, unhook_cons]
    have hfirst : step ⟨s, engine, .dropping⟩ .user = ⟨s.dropHook id rest, engine, .dropping⟩ := by
      simp [step, userStep, hhooks]
    rw [List.length_cons, List.replicate_succ, run_cons, hfirst, ih (s.dropHook id rest) rfl, hdropped]

theorem failHalt_of_none {s : Session} (h : s.controller.halt = none) : s.failHalt = s := by
  unfold failHalt
  rw [h]

theorem failHalt_of_halt {s : Session} (hr : s.controller.halt = some r) :
    s.failHalt = s.failLooked r := by
  unfold failHalt failLooked
  rw [hr]
  cases hd : r.decision with
  | none =>
    have hfree : r.isReleased = false := by rw [HaltRecord.isReleased, hd]; rfl
    rw [hfree]
    rfl
  | some d =>
    have hreleased : r.isReleased = true := by rw [HaltRecord.isReleased, hd]; rfl
    rw [hreleased]
    simp [release, hr, HaltRecord.release_of_released hd]

theorem hooks_failLooked (s : Session) (r : HaltRecord) :
    (s.failLooked r).hooks = s.hooks ∧ (s.failLooked r).machine.hooks = s.machine.hooks := by
  unfold failLooked release
  dsimp only
  split_ifs
  · exact ⟨rfl, rfl⟩
  · split
    · exact ⟨rfl, rfl⟩
    · split <;> exact ⟨rfl, rfl⟩

theorem hooks_failHalt (s : Session) : s.failHalt.hooks = s.hooks := by
  cases hr : s.controller.halt with
  | none => rw [failHalt_of_none hr]
  | some r =>
    rw [failHalt_of_halt hr]
    exact (hooks_failLooked s r).1

/-- The current halt is looked up and failed, if there is one. -/
theorem run_looking (hcalled : t.user = .called) :
    t.run [.user, .user] = { t with session := t.session.failHalt, user := .dropping } := by
  cases hhalt : t.session.controller.halt with
  | none => simp [step, userStep, hcalled, hhalt, failHalt_of_none hhalt]
  | some r => simp [step, userStep, hcalled, hhalt, failHalt_of_halt hhalt]

/-- If the emulator's side does nothing meanwhile, the user's side does what `Session.disable` does
before the emulator goes on. -/
theorem run_user (hcalled : t.user = .called) :
    t.run (.replicate (t.session.hooks.length + 3) .user) =
      { t with session := t.session.failHalt.dropHooks, user := .returned } := by
  have hsplit : List.replicate (t.session.hooks.length + 3) TeardownMove.user =
      [.user, .user] ++ .replicate (t.session.failHalt.hooks.length + 1) .user := by
    rw [hooks_failHalt]
    rfl
  rw [hsplit, run_append, run_looking hcalled]
  exact run_dropping (t := { t with session := t.session.failHalt, user := .dropping }) rfl

/-- A handler is through after one step, or it halts a script, which takes another one. -/
theorem engineStep_of_handling {h : Handler} {rest : List Handler}
    (hnone : t.session.controller.halt = none) (hengine : t.engine = .handling (h :: rest)) :
    (t.engineStep = { t with session := t.session.handle h, engine := .handling rest } ∧
      (t.session.handle h).controller.halt = none) ∨
    ∃ s file c, t.engineStep = { t with session := s, engine := .halting file c rest } ∧
      t.session.handle h = s.raise file c := by
  generalize hstep : t.engineStep = t'
  have hgoes : t.Goes t' := hstep ▸ t.goes_engineStep
  cases hgoes with
  | handled h' rest' hengine' hh =>
    rw [hengine] at hengine'
    cases hengine'
    rw [(apart_handle t.session hh).controller]
    exact .inl ⟨rfl, hnone⟩
  | unreached rest' hengine' hopcode =>
    rw [hengine] at hengine'
    cases hengine'
    show (_ = { t with session := t.session.onOpcode, engine := _ } ∧
      t.session.onOpcode.controller.halt = none) ∨ _
    rw [hopcode]
    exact .inl ⟨rfl, hnone⟩
  | passed rest' hengine' hopcode =>
    rw [hengine] at hengine'
    cases hengine'
    show (_ = { t with session := t.session.onOpcode, engine := _ } ∧
      t.session.onOpcode.controller.halt = none) ∨ _
    rw [hopcode]
    exact .inl ⟨rfl, hnone⟩
  | decided file c rest' hengine' hopcode =>
    rw [hengine] at hengine'
    cases hengine'
    exact .inr ⟨_, file, c, rfl, hopcode⟩
  | playing hengine' | done hengine' | raised _ _ _ hengine' | asleep _ hengine'
  | woken _ _ _ hengine' =>
    rw [hengine] at hengine'
    cases hengine'

/-- If the user's side does nothing meanwhile, the emulator's side does what `Session.runHandlers`
does. -/
theorem run_engine {handlers : List Handler} (hnone : t.session.controller.halt = none)
    (hengine : t.engine = .handling handlers) :
    ∃ n, (t.run (.replicate n .engine)).session = runHandlers handlers t.session := by
  induction handlers generalizing t with
  | nil =>
    refine ⟨1, ?_⟩
    simp [step, engineStep, hengine, runHandlers]
  | cons h rest ih =>
    rcases engineStep_of_handling hnone hengine with ⟨hstep, hnone'⟩ | ⟨s, file, c, hstep, hhandle⟩
    · obtain ⟨n, hn⟩ := ih (t := t.engineStep) (by rw [hstep]; exact hnone') (by rw [hstep])
      refine ⟨n + 1, ?_⟩
      rw [List.replicate_succ, run_cons, show t.step .engine = t.engineStep from rfl, hn, hstep]
      simp [runHandlers, Controller.isStopped, hnone']
    · refine ⟨2, ?_⟩
      show t.engineStep.engineStep.session = _
      have hraised : t.engineStep.engineStep.session = { s.raise file c with waiting := rest } := by
        rw [hstep]
        rfl
      rw [hraised, runHandlers]
      simp only [hhandle]
      rfl

end Teardown

end SceneDebugger
