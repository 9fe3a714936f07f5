import SceneDebugger.Proofs.Session.Run
import SceneDebugger.Script.Record

/-!
# SceneDebugger.Proofs.Session.HaltMoves — the two sides of a halt

A halt belongs to two sides, which move in turn (`HaltMove`).  The emulator's side looks at opcodes
until one halts its script, and wakes up once the halt was released.  The user's side shows the halt
inside a called file, watches it and releases it.  Breakpoints, switches, the files in use, the places
of the game and the machine may change between any two moves (`Session.amid`); the current halt and the
steps on their way are the controller's alone.

* `Session.after`, `Session.Resumes`: sessions after moves, and after a halt that was released.
* `Session.haltsAt_iff`: which opcode halts its script.
* `Session.holds_after`: a halt lasts until the emulator's side wakes up.
* `Session.plays_reach`, `Session.plays_resume`, `Session.plays_disable`: what the game runs into and
  what the user does about a halt are moves.
-/

namespace SceneDebugger

/-! ### Moves -/

/-- What the two sides of halts do, and what happens around them. -/
inductive HaltMove where
  /-- The script engine is about to run an opcode, which it is not while a script is halted. -/
  | opcode
  /-- The emulator's side wakes up, if the current halt was released. -/
  | wake
  | release (d : Decision)
  | descend
  | watch (watcher : Nat)
  /-- All but the current halt and the steps on their way becomes as in another session. -/
  | amid (other : Session)

namespace Session

variable {s t u : Session} {d : Decision} {c c' : ScriptContext} {r : HaltRecord} {file : String}
  {m : HaltMove} {moves more : List HaltMove}

/-- The session with its halt and the steps on their way, and all else as in another session. -/
def amid (s other : Session) : Session :=
  { other with
    breakpoints := { other.breakpoints with stepTargets := s.breakpoints.stepTargets }
    controller := { s.controller with
      enabled := other.controller.enabled, boost := other.controller.boost } }

/-- The session after a move. -/
def moved (s : Session) : HaltMove → Session
  | .opcode => if s.controller.isStopped then s else s.onOpcode
  | .wake =>
    match s.wakeUp? with
    | none => s
    | some (_, _, awake) => awake
  | .release d => (s.release d).2
  | .descend => s.descend.2
  | .watch watcher => s.watch watcher
  | .amid other => s.amid other

/-- The session after moves, one after the other. -/
def after (s : Session) (moves : List HaltMove) : Session := moves.foldl moved s

@[simp] theorem after_nil (s : Session) : s.after [] = s := rfl

@[simp] theorem after_cons (s : Session) (m : HaltMove) (moves : List HaltMove) :
    s.after (m :: moves) = (s.moved m).after moves := rfl

theorem after_append (s : Session) (moves more : List HaltMove) :
    s.after (moves ++ more) = (s.after moves).after more := List.foldl_append

/-- No script is halted, neither by the moves nor before them. -/
def Quiet (s : Session) (moves : List HaltMove) : Prop :=
  ∀ done, done <+: moves → (s.after done).controller.halt = none

/-- The current halt is released with a decision, and later the emulator's side wakes up. -/
def Resumes (s : Session) (d : Decision) (t : Session) : Prop :=
  ∃ idle : List HaltMove, (∀ m ∈ idle, m ≠ .wake) ∧
    t = ((s.moved (.release d)).after idle).moved .wake

/-- The current halt is released with a decision, and the emulator's side wakes up at once. -/
def resumed (s : Session) (d : Decision) : Session := (s.moved (.release d)).moved .wake

theorem resumes_resumed (s : Session) (d : Decision) : s.Resumes d (s.resumed d) :=
  ⟨[], by simp, rfl⟩

/-- A script of a file is at a breakpoint of the user, and the file is breakable. -/
def BreaksAt (s : Session) (file : String) (c : ScriptContext) : Prop :=
  s.breakpoints.contains file c.offset = true ∧ s.workspace.isBreakable file = true

/-- The opcode that is about to run halts a script of a file. -/
def HaltsAt (s : Session) (file : String) (c : ScriptContext) : Prop :=
  ∃ r, (s.moved .opcode).controller.halt = some r ∧ r.place.file = file ∧ r.context = c

theorem Quiet.tail (h : s.Quiet (m :: moves)) : (s.moved m).Quiet moves := by
  intro done hdone
  exact h (m :: done) (List.cons_prefix_cons.mpr ⟨rfl, hdone⟩)

instance (s : Session) (moves : List HaltMove) : Decidable (s.Quiet moves) :=
  decidable_of_iff (∀ n < moves.length + 1, (s.after (moves.take n)).controller.halt = none) <| by
    constructor
    · intro h done hdone
      have htake := h done.length (Nat.lt_succ_of_le hdone.length_le)
      rwa [← List.prefix_iff_eq_take.mp hdone] at htake
    · intro h n _
      exact h (moves.take n) (List.take_prefix n moves)

instance (s : Session) (file : String) (c : ScriptContext) : Decidable (s.BreaksAt file c) :=
  inferInstanceAs (Decidable (_ ∧ _))

instance (s : Session) (file : String) (c : ScriptContext) : Decidable (s.HaltsAt file c) :=
  decidable_of_iff ((s.moved .opcode).controller.halt.any fun r =>
    r.place.file == file && r.context == c) (by simp [HaltsAt, Option.any_eq_true])

theorem exists_currentHalt (s : Session) (P : HaltRecord → Prop) [DecidablePred P]
    (h : (s.controller.halt.any fun r => P r) = true) : ∃ r, s.controller.halt = some r ∧ P r := by
  obtain ⟨r, hr, hP⟩ := (Option.any_eq_true _ _).mp h
  exact ⟨r, hr, of_decide_eq_true hP⟩

theorem exists_haltsAt (s : Session) (file : String) (P : ScriptContext → Prop) [DecidablePred P]
    (h : ((s.moved .opcode).controller.halt.any fun r => r.place.file = file ∧ P r.context) = true) :
    ∃ c, s.HaltsAt file c ∧ P c := by
  obtain ⟨r, hr, hfile, hP⟩ := exists_currentHalt (s.moved .opcode) _ h
  exact ⟨r.context, ⟨r, hr, hfile, rfl⟩, hP⟩

/-! ### Opcodes -/

theorem moved_opcode_of_halt (h : s.controller.halt = some r) : s.moved .opcode = s := by
  simp [moved, Controller.isStopped, h]

theorem moved_opcode_of_none (h : s.controller.halt = none) : s.moved .opcode = s.onOpcode := by
  simp [moved, Controller.isStopped, h]

/-- A script halts at an opcode without being forced to, by a breakpoint or by a step target. -/
theorem hasBreakpoint_iff :
    s.hasBreakpoint file c = true ↔
      s.BreaksAt file c ∨ (s.breakpoints.stepTargets.any fun t => t.accepts (.of file c)) = true := by
  unfold hasBreakpoint Breakpoints.has BreaksAt
  rw [Bool.or_eq_true, Bool.and_eq_true]
  rfl

theorem onOpcode_of_unreached (h : s.reachedOpcode? = none) : s.onOpcode = s := by
  unfold onOpcode
  rw [h]

theorem onOpcode_of_stops (h : s.reachedOpcode? = some (file, c))
    (hstops : s.controller.forced = true ∨ s.hasBreakpoint file c = true) :
    s.onOpcode = { s with controller := s.controller.askedForce }.raise file c := by
  unfold onOpcode
  rw [h]
  have hcond : (s.controller.forced || s.hasBreakpoint file c) = true := by simpa using hstops
  exact if_pos hcond

theorem onOpcode_of_passes (h : s.reachedOpcode? = some (file, c))
    (hforced : s.controller.forced = false) (hpasses : s.hasBreakpoint file c = false) :
    s.onOpcode = { s with controller := s.controller.askedForce } := by
  unfold onOpcode
  rw [h]
  have hcond : ¬ (s.controller.forced || s.hasBreakpoint file c) = true := by simp [hforced, hpasses]
  exact if_neg hcond

theorem askedForce_of_not_forced {controller : Controller} (h : controller.forced = false) :
    controller.askedForce = controller := by
  cases controller
  cases h
  rfl

theorem file_haltOf (s : Session) (file : String) (c : ScriptContext) :
    (s.haltOf file c).place.file = file := by
  unfold haltOf HaltRecord.start HaltPlace.of
  dsimp only
  split
  · rfl
  · unfold HaltPlace.withEntry
    split <;> rfl

/-- What an opcode does while no script is halted. -/
theorem haltsAt_iff (h : s.controller.halt = none) :
    s.HaltsAt file c ↔ s.reachedOpcode? = some (file, c) ∧
      (s.controller.forced = true ∨ s.hasBreakpoint file c = true) := by
  unfold HaltsAt
  rw [moved_opcode_of_none h]
  constructor
  · rintro ⟨r, hr, hfile, hcontext⟩
    cases hreached : s.reachedOpcode? with
    | none =>
      rw [onOpcode_of_unreached hreached, h] at hr
      cases hr
    | some reached =>
      obtain ⟨file', c'⟩ := reached
      by_cases hstops : s.controller.forced = true ∨ s.hasBreakpoint file' c' = true
      · rw [onOpcode_of_stops hreached hstops] at hr
        have heq : r = s.haltOf file' c' := (Option.some.inj hr).symm
        have hfile' : file' = file := by rw [← hfile, heq, file_haltOf]
        have hcontext' : c' = c := by rw [← hcontext, heq]; rfl
        subst hfile' hcontext'
        exact ⟨rfl, hstops⟩
      · rw [not_or, Bool.not_eq_true, Bool.not_eq_true] at hstops
        rw [onOpcode_of_passes hreached hstops.1 hstops.2] at hr
        exact absurd (hr.symm.trans h) (by simp)
  · rintro ⟨hreached, hstops⟩
    refine ⟨s.haltOf file c, ?_, file_haltOf s file c, rfl⟩
    rw [onOpcode_of_stops hreached hstops]
    rfl

/-! ### Halts that last -/

end Session

namespace HaltRecord

variable {r r' r'' : HaltRecord} {d d' : Decision}

/-- The same halt later on: the first release counts, and a place that is not a call stays. -/
structure Later (r r' : HaltRecord) : Prop where
  context : r'.context = r.context
  decision : ∀ d, r.decision = some d → r'.decision = some d
  place : r.place.onCall = false → r'.place = r.place

theorem Later.refl (r : HaltRecord) : r.Later r := ⟨rfl, fun _ h => h, fun _ => rfl⟩

theorem Later.trans (h : r.Later r') (h' : r'.Later r'') : r.Later r'' := by
  refine ⟨h'.context.trans h.context, fun d hd => h'.decision d (h.decision d hd), fun hcall => ?_⟩
  have hplace := h.place hcall
  exact (h'.place (by rw [hplace, hcall])).trans hplace

theorem release_of_unreleased (h : r.decision = none) :
    r.release d = (true, { r with decision := some (r.place.resolve r.context d) }) := by
  simp [release, isReleased, h]

theorem release_of_released (h : r.decision = some d') : r.release d = (false, r) := by
  simp [release, isReleased, h]

theorem descend?_of_not_onCall {p : HaltPlace} (h : p.onCall = false) : p.descend? = none := by
  simp [HaltPlace.descend?, h]

theorem later_descend (r : HaltRecord) : r.Later r.descend.2 := by
  unfold descend
  cases hplace : r.place.descend? with
  | none => exact .refl r
  | some place =>
    refine ⟨rfl, fun _ h => h, fun hcall => ?_⟩
    rw [descend?_of_not_onCall hcall] at hplace
    cases hplace

end HaltRecord

namespace Session

variable {s t u : Session} {d d' : Decision} {r : HaltRecord} {m : HaltMove} {moves : List HaltMove}

theorem moved_release_of_unreleased (hr : s.controller.halt = some r) (hd : r.decision = none) :
    s.moved (.release d) =
      s.changeHalt r { r with decision := some (r.place.resolve r.context d) } := by
  simp only [moved, release, hr, HaltRecord.release_of_unreleased hd]

theorem moved_release_of_released (hr : s.controller.halt = some r) (hd : r.decision = some d') :
    s.moved (.release d) = { s with workspace := s.workspace.warn r.alreadyReleased } := by
  simp only [moved, release, hr, HaltRecord.release_of_released hd]

theorem moved_descend_of_halt (hr : s.controller.halt = some r) :
    s.moved .descend = s.changeHalt r r.descend.2 := by
  simp only [moved, descend, hr]

theorem moved_watch_of_halt (hr : s.controller.halt = some r) (watcher : Nat) :
    s.moved (.watch watcher) = s.changeHalt r (r.watch watcher) := by
  simp only [moved, watch, hr]

/-- The halt of a session is the one of an earlier one, and no step has been put on its way since. -/
structure Holds (s : Session) (r : HaltRecord) (t : Session) : Prop where
  halt : ∃ r', t.controller.halt = some r' ∧ r.Later r'
  targets : t.breakpoints.stepTargets = s.breakpoints.stepTargets
  forced : t.controller.forced = s.controller.forced

/-- Until the emulator's side wakes up, a halt lasts. -/
theorem holds_moved (hr : s.controller.halt = some r) (hm : m ≠ .wake) : s.Holds r (s.moved m) := by
  cases m with
  | opcode =>
    rw [moved_opcode_of_halt hr]
    exact ⟨⟨r, hr, .refl r⟩, rfl, rfl⟩
  | wake => exact absurd rfl hm
  | release d =>
    cases hd : r.decision with
    | none =>
      rw [moved_release_of_unreleased hr hd]
      refine ⟨⟨_, rfl, rfl, fun d' hd' => ?_, fun _ => rfl⟩, rfl, rfl⟩
      rw [hd] at hd'
      cases hd'
    | some d' =>
      rw [moved_release_of_released hr hd]
      exact ⟨⟨r, hr, .refl r⟩, rfl, rfl⟩
  | descend =>
    rw [moved_descend_of_halt hr]
    exact ⟨⟨_, rfl, r.later_descend⟩, rfl, rfl⟩
  | watch watcher =>
    rw [moved_watch_of_halt hr]
    exact ⟨⟨_, rfl, rfl, fun _ h => h, fun _ => rfl⟩, rfl, rfl⟩
  | amid other => exact ⟨⟨r, hr, .refl r⟩, rfl, rfl⟩

theorem holds_after (hr : s.controller.halt = some r) (hidle : ∀ m ∈ moves, m ≠ .wake) :
    s.Holds r (s.after moves) := by
  induction moves generalizing s r with
  | nil => exact ⟨⟨r, hr, .refl r⟩, rfl, rfl⟩
  | cons m moves ih =>
    obtain ⟨⟨r', hr', hlater⟩, htargets, hforced⟩ := holds_moved hr (hidle m List.mem_cons_self)
    obtain ⟨⟨r'', hr'', hlater'⟩, htargets', hforced'⟩ :=
      ih hr' fun m' hm' => hidle m' (List.mem_cons_of_mem m hm')
    exact ⟨⟨r'', hr'', hlater.trans hlater'⟩, htargets'.trans htargets, hforced'.trans hforced⟩

theorem wakeUp?_of_released (hr : s.controller.halt = some r) (hd : r.decision = some d) :
    s.wakeUp? = some (d, r.watchers,
      { s with controller := { s.controller with halt := none } }.follow d r.context) := by
  simp [wakeUp?, HaltRecord.wake?, hr, hd]

theorem wakeUp?_of_none (h : s.controller.halt = none) : s.wakeUp? = none := by
  simp [wakeUp?, h]

theorem wakeUp?_of_unreleased (hr : s.controller.halt = some r) (hd : r.decision = none) :
    s.wakeUp? = none := by
  simp [wakeUp?, HaltRecord.wake?, hr, hd]

/-- Without a halt neither side of it has anything to do. -/
theorem moved_of_none (hnone : s.controller.halt = none) (hopcode : m ≠ .opcode)
    (hamid : ∀ other, m ≠ .amid other) : s.moved m = s := by
  cases m with
  | opcode => exact absurd rfl hopcode
  | wake => simp only [moved, wakeUp?_of_none hnone]
  | release d => simp only [moved, release, hnone]
  | descend => simp only [moved, descend, hnone]
  | watch watcher => simp only [moved, watch, hnone]
  | amid other => exact absurd rfl (hamid other)

/-! ### Operations -/

/-- Moves lead from one session to the other. -/
def Plays (s t : Session) : Prop := ∃ moves, t = s.after moves

theorem Plays.refl (s : Session) : s.Plays s := ⟨[], rfl⟩

theorem Plays.trans (h : s.Plays t) (h' : t.Plays u) : s.Plays u := by
  obtain ⟨moves, rfl⟩ := h
  obtain ⟨more, rfl⟩ := h'
  exact ⟨moves ++ more, (after_append s moves more).symm⟩

theorem plays_moved (s : Session) (m : HaltMove) : s.Plays (s.moved m) := ⟨[m], rfl⟩

/-- Whatever leaves the controller and the breakpoints alone happens around the halts. -/
theorem plays_of_eq (hcontroller : t.controller = s.controller)
    (hbreakpoints : t.breakpoints = s.breakpoints) : s.Plays t := by
  refine ⟨[.amid t], ?_⟩
  show t = s.amid t
  unfold amid
  rw [← hcontroller, ← hbreakpoints]

/-- The controller, the breakpoints, the hooks and the frames stay. -/
structure Apart (s t : Session) : Prop where
  controller : t.controller = s.controller
  breakpoints : t.breakpoints = s.breakpoints
  hooks : t.hooks = s.hooks
  machineHooks : t.machine.hooks = s.machine.hooks
  tick : t.machine.tick = s.machine.tick

/-- Only the handler of opcodes takes part in halts. -/
theorem apart_handle (s : Session) {h : Handler} (hh : h ≠ .opcode) : s.Apart (s.handle h) := by
  cases h with
  | opcode => exact absurd rfl hh
  | sharedScript =>
    simp only [handle, refreshSharedTable]
    split <;> exact ⟨rfl, rfl, rfl, rfl, rfl⟩
  | scriptLoad =>
    simp only [handle, onScriptLoad]
    split <;> exact ⟨rfl, rfl, rfl, rfl, rfl⟩
  | sceneLoad =>
    simp only [handle, onSceneLoad]
    split <;> exact ⟨rfl, rfl, rfl, rfl, rfl⟩
  | print register =>
    simp only [handle, onPrint]
    split <;> exact ⟨rfl, rfl, rfl, rfl, rfl⟩
  | scriptPrint =>
    simp only [handle, onScriptPrint]
    split
    · exact ⟨rfl, rfl, rfl, rfl, rfl⟩
    · split <;> exact ⟨rfl, rfl, rfl, rfl, rfl⟩
  | debugMode =>
    simp only [handle, onDebugMode]
    split <;> exact ⟨rfl, rfl, rfl, rfl, rfl⟩
  | _ => exact ⟨rfl, rfl, rfl, rfl, rfl⟩

theorem plays_handle (hnone : s.controller.halt = none) (h : Handler) : s.Plays (s.handle h) := by
  by_cases hh : h = .opcode
  · subst hh
    show s.Plays s.onOpcode
    rw [← moved_opcode_of_none hnone]
    exact plays_moved s .opcode
  · have hapart := apart_handle s hh
    exact plays_of_eq hapart.controller hapart.breakpoints

/-- Handlers that run while no script is halted make moves, up to the one that halts a script. -/
theorem plays_runHandlers (hnone : s.controller.halt = none) (handlers : List Handler) :
    s.Plays (runHandlers handlers s) := by
  induction handlers generalizing s with
  | nil => exact plays_of_eq rfl rfl
  | cons h rest ih =>
    have hfirst : s.Plays (s.handle h) := plays_handle hnone h
    unfold runHandlers
    dsimp only
    split_ifs with hstopped
    · exact hfirst.trans (plays_of_eq rfl rfl)
    · have hnone' : (s.handle h).controller.halt = none := by
        simpa [Controller.isStopped] using hstopped
      exact hfirst.trans (ih hnone')

/-- What the game runs into makes moves. -/
theorem plays_reach (hnone : s.controller.halt = none) (address : UInt32) :
    s.Plays (s.reach address).2 := plays_runHandlers hnone _

theorem plays_goOn (s : Session) : s.Plays s.goOn.2 := by
  unfold goOn
  split
  · exact .refl s
  · next d watchers awake heq =>
    have hwake : s.moved .wake = awake := by simp only [moved, heq]
    have hnone : awake.controller.halt = none := by
      simp only [wakeUp?, Option.bind_eq_bind, Option.bind_eq_some_iff] at heq
      obtain ⟨halt, -, ⟨d', watchers', halt'⟩, -, hawake⟩ := heq
      cases hawake
      cases d' <;> rfl
    rw [← hwake] at hnone ⊢
    exact (plays_moved s .wake).trans (plays_runHandlers hnone _)

/-- A release of the current halt, after which the emulator's side goes on, makes moves. -/
theorem plays_resume (s : Session) (d : Decision) : s.Plays (s.resume d).2.2 :=
  (plays_moved s (.release d)).trans (plays_goOn _)

/-- Dropping the hooks makes moves. -/
theorem plays_disable (s : Session) : s.Plays s.disable.2 := by
  have hfailed : s.Plays s.failHalt := by
    unfold failHalt
    split
    · exact .refl s
    · next halt _ =>
      let warned : Session := { s with
        workspace := s.workspace.warn ("Failing outstanding halt at " ++ halt.describe) }
      have hwarned : s.Plays warned := plays_of_eq rfl rfl
      exact hwarned.trans (plays_moved warned (.release .failHard))
  have hdropped : s.failHalt.Plays s.failHalt.dropHooks := plays_of_eq rfl rfl
  exact (hfailed.trans hdropped).trans (plays_goOn _)

/-! ### A script to step through -/

/-- A session whose engine is about to run an opcode of a script with a record. -/
def facing (s : Session) (record : ScriptRecord) : Session :=
  let memory := ({} : Memory).write 0x02100000 record.bytes
  { s with machine := { s.machine with memory }.setRegister 6 0x02100000 }

/-- A session with a script in place 1 and a breakpoint at its first opcode. -/
def breaking : Session :=
  { sample with
    breakpoints := { sample.breakpoints with primary := (∅ : OffsetMap).add "enter.ssb" 0 }
    ground.slots :=
      (Vector.replicate hangerCount none).set 1 (some { file := "enter.ssb", hash := "" }) }

/-- The engine is about to run the opcode of a script in place 1 at an address.  The script was called
from before another address, unless that is 0. -/
def facingAt (s : Session) (address caller : UInt32) : HaltMove :=
  .amid (s.facing { kind := 1, hanger := 1, address, callerAddress := caller })

/-- The engine runs the opcode at address 0 of the script. -/
def halted (s : Session) (caller : UInt32) : Session := s.after [s.facingAt 0 caller, .opcode]

end Session

end SceneDebugger
