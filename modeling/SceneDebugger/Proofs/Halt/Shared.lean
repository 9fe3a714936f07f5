import Mathlib.Logic.Function.Basic
import SceneDebugger.Halt.Record

/-!
# SceneDebugger.Proofs.Halt.Shared — a halt that several threads use at once

Threads release a halt, ask whether it was released, show it inside a called file and watch it, while
the emulator's side waits on it.  The place of the halt, its decision and its watchers have a lock
each.  A release resolves its decision under the lock of the place, gives that lock back, and looks
under the lock of the decision whether it is the first one; before it writes its decision down, the
log asks for the place once more.  The emulator's side sleeps between its looks at the decision; it
may wake up at any time.

* `HaltCall`, `CallStage`, `WaitStage`: what is asked of a halt, and how far that has come.
* `SharedHalt.perform`, `SharedHalt.run`: calls begin and go on in any order.
* `SharedHalt.run_release`, `SharedHalt.run_descend`, `SharedHalt.run_watch`, `SharedHalt.run_wait`: a
  call that is not interrupted does what the operation of `HaltRecord` does.
-/

namespace SceneDebugger

open Function

/-! ### Calls -/

/-- What a thread asks of a halt. -/
inductive HaltCall where
  | release (d : Decision)
  | isReleased
  | descend
  | watch (watcher : Nat)
  deriving DecidableEq

/-- What of a halt has a lock. -/
inductive HaltLock where
  | place
  | decision
  | watchers
  deriving DecidableEq

/-- How far a call has come.  A release has the decision `d` that was asked for and the resolved
decision `r`; it counts if it found no decision. -/
inductive CallStage where
  | idle
  | called (c : HaltCall)
  /-- The place is locked. -/
  | resolving (d : Decision)
  | resolved (d r : Decision)
  /-- The decision is locked, here and in the following stages. -/
  | deciding (d r : Decision)
  | naming (d r : Decision) (counts : Bool)
  /-- The place is locked as well, for the log. -/
  | describing (d r : Decision) (counts : Bool)
  | settling (d r : Decision) (counts : Bool)
  | leaving (d r : Decision) (counts : Bool)
  /-- The release is over, and tells whether it counted. -/
  | released (d r : Decision) (counts : Bool)
  /-- The decision is locked. -/
  | asking
  | told (released : Bool)
  /-- The place is locked. -/
  | descending
  | descended (moved : Bool)
  /-- The watchers are locked. -/
  | watching (watcher : Nat)
  | watched
  deriving DecidableEq

/-- How far the emulator's side has come. -/
inductive WaitStage where
  | called
  /-- The decision is locked. -/
  | looking
  | asleep
  | woken (d : Decision)
  /-- The watchers are locked. -/
  | taking (d : Decision)
  /-- The watchers learn the decision, one after the other. -/
  | telling (d : Decision) (watchers : List Nat)
  | returned (d : Decision)
  deriving DecidableEq

/-! ### Halts in use -/

/-- A halt that is used by calls, each of which is made once, and waited on by the emulator's side. -/
structure SharedHalt (T : Type) where
  halt : HaltRecord
  /-- Who holds a lock: a call, or the emulator's side. -/
  holder : HaltLock → Option (Option T) := fun _ => none
  stage : T → CallStage := fun _ => .idle
  waiter : WaitStage := .called
  /-- The watchers that have learned a decision, the first one first. -/
  informed : List (Nat × Decision) := []

namespace SharedHalt

variable {T : Type} [DecidableEq T]

/-- A halt that nobody has used yet. -/
def start (context : ScriptContext) (place : HaltPlace) : SharedHalt T :=
  { halt := .start context place }

/-- A call goes on to another stage. -/
def become (s : SharedHalt T) (t : T) (stage : CallStage) : SharedHalt T :=
  { s with stage := update s.stage t stage }

/-- A call takes a lock, or waits until it is free. -/
def lock (s : SharedHalt T) (l : HaltLock) (t : T) (stage : CallStage) : SharedHalt T :=
  match s.holder l with
  | none => { s.become t stage with holder := update s.holder l (some (some t)) }
  | some _ => s

/-- A call gives a lock back. -/
def unlock (s : SharedHalt T) (l : HaltLock) (t : T) (stage : CallStage) : SharedHalt T :=
  { s.become t stage with holder := update s.holder l none }

/-- The next step of a call. -/
def step (s : SharedHalt T) (t : T) : SharedHalt T :=
  match s.stage t with
  | .called (.release d) => s.lock .place t (.resolving d)
  | .resolving d => s.unlock .place t (.resolved d (s.halt.place.resolve s.halt.context d))
  | .resolved d r => s.lock .decision t (.deciding d r)
  | .deciding d r => s.become t (.naming d r !s.halt.isReleased)
  | .naming d r counts => s.lock .place t (.describing d r counts)
  | .describing d r counts => s.unlock .place t (.settling d r counts)
  | .settling d r true =>
    { s.become t (.leaving d r true) with halt := { s.halt with decision := some r } }
  | .settling d r false => s.become t (.leaving d r false)
  | .leaving d r counts => s.unlock .decision t (.released d r counts)
  | .called .isReleased => s.lock .decision t .asking
  | .asking => s.unlock .decision t (.told s.halt.isReleased)
  | .called .descend => s.lock .place t .descending
  | .descending =>
    { s.unlock .place t (.descended s.halt.descend.1) with halt := s.halt.descend.2 }
  | .called (.watch watcher) => s.lock .watchers t (.watching watcher)
  | .watching watcher => { s.unlock .watchers t .watched with halt := s.halt.watch watcher }
  | .idle | .released .. | .told _ | .descended _ | .watched => s

/-- The emulator's side takes a lock, or waits until it is free. -/
def waitLock (s : SharedHalt T) (l : HaltLock) (waiter : WaitStage) : SharedHalt T :=
  match s.holder l with
  | none => { s with holder := update s.holder l (some none), waiter }
  | some _ => s

/-- The next step of the emulator's side. -/
def waitStep (s : SharedHalt T) : SharedHalt T :=
  match s.waiter with
  | .called | .asleep => s.waitLock .decision .looking
  | .looking =>
    let waiter := match s.halt.decision with
      | none => .asleep
      | some d => .woken d
    { s with holder := update s.holder .decision none, waiter }
  | .woken d => s.waitLock .watchers (.taking d)
  | .taking d =>
    { s with
      halt := { s.halt with watchers := [] }
      holder := update s.holder .watchers none
      waiter := .telling d s.halt.watchers }
  | .telling d (w :: rest) => { s with waiter := .telling d rest, informed := s.informed ++ [(w, d)] }
  | .telling d [] => { s with waiter := .returned d }
  | .returned _ => s

section

variable (s : SharedHalt T) (t : T) (l : HaltLock) (stage : CallStage)

@[simp] theorem become_halt : (s.become t stage).halt = s.halt := rfl
@[simp] theorem become_waiter : (s.become t stage).waiter = s.waiter := rfl
@[simp] theorem become_informed : (s.become t stage).informed = s.informed := rfl
@[simp] theorem unlock_halt : (s.unlock l t stage).halt = s.halt := rfl
@[simp] theorem unlock_waiter : (s.unlock l t stage).waiter = s.waiter := rfl
@[simp] theorem unlock_informed : (s.unlock l t stage).informed = s.informed := rfl

@[simp] theorem become_stage : (s.become t stage).stage = update s.stage t stage := rfl
@[simp] theorem unlock_stage : (s.unlock l t stage).stage = update s.stage t stage := rfl

@[simp] theorem lock_halt : (s.lock l t stage).halt = s.halt := by
  unfold lock
  split <;> rfl

@[simp] theorem lock_waiter : (s.lock l t stage).waiter = s.waiter := by
  unfold lock
  split <;> rfl

@[simp] theorem lock_informed : (s.lock l t stage).informed = s.informed := by
  unfold lock
  split <;> rfl

/-- The call waits where it is while the lock is not free. -/
theorem lock_stage (w : T) :
    (s.lock l t stage).stage w =
      if (s.holder l).isNone then update s.stage t stage w else s.stage w := by
  unfold lock
  split
  next hfree => simp [hfree]
  next hheld => simp [hheld]

omit [DecidableEq T]

variable (waiter : WaitStage)

@[simp] theorem waitLock_halt : (s.waitLock l waiter).halt = s.halt := by
  unfold waitLock
  split <;> rfl

@[simp] theorem waitLock_stage : (s.waitLock l waiter).stage = s.stage := by
  unfold waitLock
  split <;> rfl

@[simp] theorem waitLock_informed : (s.waitLock l waiter).informed = s.informed := by
  unfold waitLock
  split <;> rfl

/-- The emulator's side waits where it is while the lock is not free. -/
theorem waitLock_waiter :
    (s.waitLock l waiter).waiter = if (s.holder l).isNone then waiter else s.waiter := by
  unfold waitLock
  split
  next hfree => simp [hfree]
  next hheld => simp [hheld]

end

/-- A step of a call leaves the others where they are. -/
theorem step_stage_of_ne {s : SharedHalt T} {t w : T} (hne : w ≠ t) : (s.step t).stage w = s.stage w := by
  unfold step
  split <;> simp [lock_stage, hne]

@[simp] theorem step_waiter (s : SharedHalt T) (t : T) : (s.step t).waiter = s.waiter := by
  unfold step
  split <;> simp

@[simp] theorem step_informed (s : SharedHalt T) (t : T) : (s.step t).informed = s.informed := by
  unfold step
  split <;> simp

/-! ### Runs -/

/-- What happens next. -/
inductive Move (T : Type) where
  /-- A call is made, unless it was made before. -/
  | call (t : T) (c : HaltCall)
  | step (t : T)
  /-- A step of the emulator's side. -/
  | wait

/-- The halt after a move. -/
def perform (s : SharedHalt T) : Move T → SharedHalt T
  | .call t c =>
    match s.stage t with
    | .idle => s.become t (.called c)
    | _ => s
  | .step t => s.step t
  | .wait => s.waitStep

/-- The halt after moves, one after the other. -/
def run (s : SharedHalt T) (moves : List (Move T)) : SharedHalt T := moves.foldl perform s

/-- The watcher that a move adds. -/
def adds (s : SharedHalt T) : Move T → List Nat
  | .step t =>
    match s.stage t with
    | .watching watcher => [watcher]
    | _ => []
  | _ => []

/-- The watchers that moves add, the first one first. -/
def added (s : SharedHalt T) : List (Move T) → List Nat
  | [] => []
  | m :: rest => s.adds m ++ (s.perform m).added rest

variable {s : SharedHalt T} {t : T} {m : Move T} {moves more : List (Move T)} {d : Decision}

@[simp] theorem run_nil (s : SharedHalt T) : s.run [] = s := rfl

@[simp] theorem run_cons (s : SharedHalt T) (m : Move T) (moves : List (Move T)) :
    s.run (m :: moves) = (s.perform m).run moves := rfl

theorem run_append (s : SharedHalt T) (moves more : List (Move T)) :
    s.run (moves ++ more) = (s.run moves).run more := List.foldl_append

theorem run_concat (s : SharedHalt T) (moves : List (Move T)) (m : Move T) :
    s.run (moves ++ [m]) = (s.run moves).perform m := run_append s moves [m]

theorem added_append (s : SharedHalt T) (moves more : List (Move T)) :
    s.added (moves ++ more) = s.added moves ++ (s.run moves).added more := by
  induction moves generalizing s with
  | nil => rfl
  | cons m rest ih => rw [List.cons_append, added, added, ih, List.append_assoc, run_cons]

theorem added_concat (s : SharedHalt T) (moves : List (Move T)) (m : Move T) :
    s.added (moves ++ [m]) = s.added moves ++ (s.run moves).adds m := by
  rw [added_append, added, added, List.append_nil]

/-! ### Without disturbance -/

omit [DecidableEq T] in
theorem holder_free {holder : HaltLock → Option (Option T)} {l : HaltLock}
    (hfree : holder l = none) : update holder l none = holder :=
  update_eq_self_iff.mpr hfree.symm

/-- The second half of a release that is not interrupted. -/
theorem run_resolved {r : Decision} (hstage : s.stage t = .resolved d r)
    (hplace : s.holder .place = none) (hdecision : s.holder .decision = none) :
    s.run (.replicate 6 (.step t)) =
      { s.become t (.released d r !s.halt.isReleased) with
        halt := if s.halt.isReleased then s.halt else { s.halt with decision := some r } } := by
  have hboth : update (update s.holder .decision (some (some t))) .place none =
      update s.holder .decision (some (some t)) := holder_free (by simp [hplace])
  cases hreleased : s.halt.isReleased with
  | true =>
    simp [List.replicate, perform, step, become, lock, unlock, hstage, hplace, hdecision, hreleased,
      hboth, holder_free]
  | false =>
    simp [List.replicate, perform, step, become, lock, unlock, hstage, hplace, hdecision, hreleased,
      hboth, holder_free]

/-- A release that is not interrupted is the one of the record. -/
theorem run_release (hidle : s.stage t = .idle) (hplace : s.holder .place = none)
    (hdecision : s.holder .decision = none) (d : Decision) :
    s.run (.call t (.release d) :: .replicate 8 (.step t)) =
      { s.become t (.released d (s.halt.place.resolve s.halt.context d) (s.halt.release d).1) with
        halt := (s.halt.release d).2 } := by
  have hfirst : s.run [.call t (.release d), .step t, .step t] =
      s.become t (.resolved d (s.halt.place.resolve s.halt.context d)) := by
    simp [perform, step, become, lock, unlock, hidle, hplace, holder_free]
  have hstage : (s.become t (.resolved d (s.halt.place.resolve s.halt.context d))).stage t =
      .resolved d (s.halt.place.resolve s.halt.context d) := update_self ..
  have hsplit : Move.call t (.release d) :: .replicate 8 (.step t) =
      [.call t (.release d), .step t, .step t] ++ .replicate 6 (.step t) := rfl
  rw [hsplit, run_append, hfirst, run_resolved hstage hplace hdecision]
  unfold HaltRecord.release
  cases hreleased : s.halt.isReleased <;> simp [become, hreleased]

theorem run_descend (hidle : s.stage t = .idle) (hplace : s.holder .place = none) :
    s.run [.call t .descend, .step t, .step t] =
      { s.become t (.descended s.halt.descend.1) with halt := s.halt.descend.2 } := by
  simp [perform, step, become, lock, unlock, hidle, hplace, holder_free]

theorem run_watch (hidle : s.stage t = .idle) (hwatchers : s.holder .watchers = none)
    (watcher : Nat) :
    s.run [.call t (.watch watcher), .step t, .step t] =
      { s.become t .watched with halt := s.halt.watch watcher } := by
  simp [perform, step, become, lock, unlock, hidle, hwatchers, holder_free]

/-- The watchers learn the decision one after the other. -/
theorem run_telling {watchers : List Nat} (hwaiter : s.waiter = .telling d watchers) :
    s.run (.replicate (watchers.length + 1) .wait) =
      { s with waiter := .returned d, informed := s.informed ++ watchers.map (·, d) } := by
  induction watchers generalizing s with
  | nil => simp [perform, waitStep, hwaiter]
  | cons w rest ih =>
    have hfirst : s.perform .wait =
        { s with waiter := .telling d rest, informed := s.informed ++ [(w, d)] } := by
      simp [perform, waitStep, hwaiter]
    rw [List.length_cons, List.replicate_succ, run_cons, hfirst, ih rfl]
    simp

/-- A wait that is not interrupted, for a halt that was released, is the waking of the record. -/
theorem run_wait {watchers : List Nat} {awake : HaltRecord} (hwaiter : s.waiter = .called)
    (hdecision : s.holder .decision = none) (hwatchers : s.holder .watchers = none)
    (hwake : s.halt.wake? = some (d, watchers, awake)) :
    s.run (.replicate (watchers.length + 5) .wait) =
      { s with
        halt := awake, waiter := .returned d, informed := s.informed ++ watchers.map (·, d) } := by
  have hwoken : s.halt.decision = some d ∧ s.halt.watchers = watchers ∧
      { s.halt with watchers := [] } = awake := by
    unfold HaltRecord.wake? at hwake
    cases hd : s.halt.decision with
    | none => simp [hd] at hwake
    | some d' => simpa [hd] using hwake
  obtain ⟨hd, rfl, rfl⟩ := hwoken
  have htaken : s.run (.replicate 4 .wait) =
      { s with halt := { s.halt with watchers := [] }, waiter := .telling d s.halt.watchers } := by
    simp [List.replicate, perform, waitStep, waitLock, hwaiter, hdecision, hwatchers, hd, holder_free]
  have hsplit : List.replicate (s.halt.watchers.length + 5) (Move.wait : Move T) =
      .replicate 4 .wait ++ .replicate (s.halt.watchers.length + 1) .wait := by
    rw [List.replicate_append_replicate, Nat.add_comm 4]
  rw [hsplit, run_append, htaken]
  exact run_telling rfl

end SharedHalt

end SceneDebugger
