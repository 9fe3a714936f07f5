import SceneDebugger.Proofs.Machine.FrameLoop

/-!
# SceneDebugger.Proofs.Machine.FrameThread — the frame loop beside the owner of its thread

The owner of the thread sends commands through a channel and shuts the loop down at last; the channel
stays open until the loop has ended.  While the machine runs, the loop looks for a command between
frames; otherwise it waits for one.  The two take their steps in any order.

* `FrameThread.run`, `FrameThread.Fair`: steps one after the other, and schedules of them.
* `FrameThread.sound_run`: the calls made and begun answer the commands taken.
* `FrameThread.ended_of_work`: once all commands are sent, the loop ends after so many steps of its own.
* `FrameThread.frames_run`: no frame passes while no command asks for one.
* `FrameThread.exists_run`: all calls that `FrameLoop.calls` gives are made in some order of steps.
* `FrameThread.obeys`: what the loop does under every schedule.
-/

namespace SceneDebugger

open FrameLoop

/-! ### The loop and its owner -/

/-- How far the loop has come. -/
inductive LoopStage where
  /-- It is about to look for a command, or to wait for one. -/
  | looking
  /-- There are calls to make before it looks for a command again. -/
  | calling (todo : List FrameCall)
  | ended
  deriving DecidableEq

/-- The frame loop on its thread, and what the owner of the thread sends to it. -/
structure FrameThread where
  /-- What the owner has still to send. -/
  unsent : List Command
  /-- What was sent and not taken yet, the oldest first. -/
  queue : List Command := []
  /-- What the loop has taken, the oldest first. -/
  taken : List Command := []
  running : Bool := false
  stage : LoopStage := .looking
  /-- The calls made so far. -/
  made : List FrameCall := []
  deriving DecidableEq

namespace FrameThread

/-- A thread whose owner sends some commands and then stops it. -/
def start (commands : List Command) : FrameThread := { unsent := commands ++ [.shutdown] }

/-- The calls that the loop has begun with and not made yet. -/
def todo (s : FrameThread) : List FrameCall :=
  match s.stage with
  | .calling todo => todo
  | _ => []

/-- The next command is sent, if there is one. -/
def send (s : FrameThread) : FrameThread :=
  match s.unsent with
  | [] => s
  | c :: rest => { s with unsent := rest, queue := s.queue ++ [c] }

/-- The loop has taken a command from the queue. -/
def receive (s : FrameThread) (c : Command) (queue : List Command) : FrameThread :=
  match c.effect? with
  | none => { s with queue, taken := s.taken ++ [c], stage := .ended }
  | some (now, running) => { s with queue, taken := s.taken ++ [c], running, stage := .calling now }

/-- The loop looks for a command.  If there is none, it waits, or lets a frame pass if the machine
runs. -/
def look (s : FrameThread) : FrameThread :=
  match s.queue with
  | c :: rest => s.receive c rest
  | [] => if s.running then { s with stage := .calling [.cycle] } else s

/-- The next step of the loop. -/
def goOn (s : FrameThread) : FrameThread :=
  match s.stage with
  | .looking => s.look
  | .calling (call :: todo) => { s with stage := .calling todo, made := s.made ++ [call] }
  | .calling [] => { s with stage := .looking }
  | .ended => s

/-- Whose step is next. -/
inductive Move where
  | send
  | goOn
  deriving DecidableEq

/-- The thread after a move. -/
def perform (s : FrameThread) : Move → FrameThread
  | .send => s.send
  | .goOn => s.goOn

/-- The thread after moves, one after the other. -/
def run (s : FrameThread) (moves : List Move) : FrameThread := moves.foldl perform s

/-- The first moves of a schedule. -/
def firstMoves (schedule : Nat → Move) (n : Nat) : List Move := (List.range n).map schedule

/-- The owner and the loop come to their turns again and again. -/
def Fair (schedule : Nat → Move) : Prop := ∀ m n, ∃ k, n ≤ k ∧ schedule k = m

variable {s : FrameThread} {c : Command} {m : Move} {moves more : List Move} {commands : List Command}

@[simp] theorem run_nil (s : FrameThread) : s.run [] = s := rfl

@[simp] theorem run_cons (s : FrameThread) (m : Move) (moves : List Move) :
    s.run (m :: moves) = (s.perform m).run moves := rfl

theorem run_append (s : FrameThread) (moves more : List Move) :
    s.run (moves ++ more) = (s.run moves).run more := List.foldl_append

/-! ### Every order is sound -/

/-- Every command is in its place, and the calls made and begun answer the commands taken. -/
structure Sound (commands : List Command) (s : FrameThread) : Prop where
  order : s.taken ++ (s.queue ++ s.unsent) = commands ++ [.shutdown]
  ended_iff : s.stage = .ended ↔ .shutdown ∈ s.taken
  running : s.running = true → s.stage ≠ .ended → ∃ before, s.taken = before ++ [.run]
  answers : Answered (heeded s.taken) (s.made ++ s.todo)

theorem sound_start (commands : List Command) : (start commands).Sound commands where
  order := rfl
  ended_iff := by simp [start]
  running := nofun
  answers := answered_nil_iff.mpr rfl

theorem sound_send (hs : s.Sound commands) : s.send.Sound commands := by
  unfold send
  split
  · exact hs
  · next c rest hunsent =>
    refine ⟨?_, hs.ended_iff, hs.running, hs.answers⟩
    rw [← hs.order, hunsent, List.append_assoc]
    rfl

theorem sound_receive {rest : List Command} (hs : s.Sound commands) (hstage : s.stage = .looking)
    (hqueue : s.queue = c :: rest) : (s.receive c rest).Sound commands := by
  have horder : s.taken ++ [c] ++ (rest ++ s.unsent) = commands ++ [.shutdown] := by
    rw [← hs.order, hqueue, List.append_assoc]
    rfl
  have hnone : .shutdown ∉ s.taken := fun h => by
    rw [hs.ended_iff.mpr h] at hstage
    cases hstage
  have hanswers : Answered s.taken s.made := by
    have h := hs.answers
    rwa [heeded_of_not_mem hnone, todo, hstage, List.append_nil] at h
  unfold receive
  split
  next heffect =>
    obtain rfl := effect?_eq_none_iff.mp heffect
    refine ⟨horder, by simp, fun _ h => absurd rfl h, ?_⟩
    rw [heeded_concat_shutdown, heeded_of_not_mem hnone]
    exact (List.append_nil s.made).symm ▸ hanswers
  next now running heffect =>
    have hnot : .shutdown ∉ s.taken ++ [c] := by
      simp [hnone, Ne.symm (ne_shutdown_of_effect? heffect)]
    refine ⟨horder, iff_of_false nofun hnot, fun hrunning _ => ⟨s.taken, ?_⟩, ?_⟩
    · obtain rfl : c = .run := by cases c <;> cases heffect <;> first | rfl | cases hrunning
      rfl
    · rw [heeded_of_not_mem hnot]
      refine hanswers.concat ((answer_iff heffect).mpr ⟨0, ?_⟩)
      simp [idleCalls, todo]

/-- While the loop goes on, it has to answer the same commands. -/
theorem Sound.goes {stage : LoopStage} {made : List FrameCall} (hs : s.Sound commands)
    (hopen : s.stage ≠ .ended) (hstage : stage ≠ .ended)
    (hanswers : Answered (heeded s.taken) (made ++ ({ s with stage, made } : FrameThread).todo)) :
    ({ s with stage, made } : FrameThread).Sound commands where
  order := hs.order
  ended_iff := iff_of_false hstage fun h => hopen (hs.ended_iff.mpr h)
  running hrunning _ := hs.running hrunning hopen
  answers := hanswers

theorem sound_goOn (hs : s.Sound commands) : s.goOn.Sound commands := by
  have hanswers := hs.answers
  unfold goOn
  split
  case h_1 hstage =>
    have hopen : s.stage ≠ .ended := by simp [hstage]
    unfold look
    split
    next c rest hqueue => exact sound_receive hs hstage hqueue
    next =>
      split_ifs with hrunning
      · -- a frame passes, which answers the command to run as well
        refine hs.goes hopen nofun ?_
        have hnone : .shutdown ∉ s.taken := fun h => hopen (hs.ended_iff.mpr h)
        obtain ⟨before, htaken⟩ := hs.running hrunning hopen
        rw [heeded_of_not_mem hnone, htaken, todo, hstage, List.append_nil] at hanswers
        rw [heeded_of_not_mem hnone, htaken]
        exact hanswers.cycle
      · exact hs
  case h_2 call rest hstage =>
    rw [todo, hstage] at hanswers
    refine hs.goes (by simp [hstage]) nofun ?_
    rw [List.append_assoc]
    exact hanswers
  case h_3 hstage =>
    rw [todo, hstage] at hanswers
    exact hs.goes (by simp [hstage]) nofun hanswers
  case h_4 => exact hs

theorem sound_perform (hs : s.Sound commands) (m : Move) : (s.perform m).Sound commands := by
  cases m with
  | send => exact sound_send hs
  | goOn => exact sound_goOn hs

theorem sound_run (hs : s.Sound commands) (moves : List Move) : (s.run moves).Sound commands := by
  induction moves generalizing s with
  | nil => exact hs
  | cons m rest ih => exact ih (sound_perform hs m)

/-- All that the loop heeds has been answered when it ends. -/
theorem Sound.answered (hs : s.Sound commands) (hended : s.stage = .ended) :
    Answered (heeded commands) s.made := by
  have hshutdown := hs.ended_iff.mp hended
  have hheeded : heeded s.taken = heeded commands := by
    rw [← heeded_append hshutdown (s.queue ++ s.unsent), hs.order, heeded_concat_shutdown]
  have h := hs.answers
  rwa [hheeded, todo, hended, List.append_nil] at h

/-! ### Every fair schedule ends -/

theorem run_of_ended (h : s.stage = .ended) (moves : List Move) : (s.run moves).stage = .ended := by
  induction moves generalizing s with
  | nil => exact h
  | cons m rest ih =>
    refine ih ?_
    cases m with
    | send =>
      simp only [perform, send]
      split <;> exact h
    | goOn => simp only [perform, goOn, h]

theorem unsent_goOn (s : FrameThread) : s.goOn.unsent = s.unsent := by
  unfold goOn
  split
  · unfold look receive
    split
    · split <;> rfl
    · split_ifs <;> rfl
  all_goals rfl

theorem length_unsent_run (s : FrameThread) (moves : List Move) :
    (s.run moves).unsent.length = s.unsent.length - moves.count .send := by
  induction moves generalizing s with
  | nil => rfl
  | cons m rest ih =>
    rw [run_cons, ih]
    cases m with
    | goOn =>
      have hsame : (s.perform .goOn).unsent = s.unsent := unsent_goOn s
      rw [hsame, List.count_cons_of_ne (by decide)]
    | send =>
      have hone : (s.perform .send).unsent.length = s.unsent.length - 1 := by
        simp only [perform, send]
        split <;> simp [*]
      rw [hone, List.count_cons_self]
      omega

/-- A bound on the steps of the loop until it ends, if nothing more is sent. -/
def work (s : FrameThread) : Nat :=
  match s.stage with
  | .looking => 4 * s.queue.length
  | .calling todo => 4 * s.queue.length + todo.length + 1
  | .ended => 0

/-- With all commands sent, the one to shut down is waiting for a loop that has not ended. -/
theorem Sound.queue_ne_nil (hs : s.Sound commands) (hsent : s.unsent = []) (hopen : s.stage ≠ .ended) :
    s.queue ≠ [] := by
  intro hqueue
  have horder := hs.order
  rw [hsent, hqueue, List.append_nil, List.append_nil] at horder
  exact hopen (hs.ended_iff.mpr (by simp [horder]))

theorem work_goOn (hs : s.Sound commands) (hsent : s.unsent = []) (hopen : s.stage ≠ .ended) :
    s.goOn.work < s.work := by
  unfold goOn
  split
  case h_1 hstage =>
    unfold look
    split
    next c rest hqueue =>
      have hwork : s.work = 4 * rest.length + 4 := by
        simp only [work, hstage, hqueue, List.length_cons]
        omega
      rw [hwork]
      cases c <;> simp only [receive, Command.effect?, work, List.length_cons, List.length_nil] <;> omega
    next hqueue => exact absurd hqueue (hs.queue_ne_nil hsent hopen)
  case h_2 call rest hstage =>
    simp only [work, hstage, List.length_cons]
    omega
  case h_3 hstage =>
    simp only [work, hstage, List.length_nil]
    omega
  case h_4 hstage => exact absurd hstage hopen

theorem ended_of_work (hs : s.Sound commands) (hsent : s.unsent = [])
    (hwork : s.work ≤ moves.count .goOn) : (s.run moves).stage = .ended := by
  induction moves generalizing s with
  | nil =>
    by_contra hopen
    have hless := work_goOn hs hsent hopen
    rw [List.count_nil] at hwork
    omega
  | cons m rest ih =>
    by_cases hended : s.stage = .ended
    · exact run_of_ended hended _
    · cases m with
      | send =>
        have hidle : s.perform .send = s := by simp only [perform, send, hsent]
        rw [run_cons, hidle]
        rw [List.count_cons_of_ne (by decide)] at hwork
        exact ih hs hsent hwork
      | goOn =>
        have hless : (s.perform .goOn).work < s.work := work_goOn hs hsent hended
        rw [List.count_cons_self] at hwork
        exact ih (sound_goOn hs) ((unsent_goOn s).trans hsent) (by omega)

variable {schedule : Nat → Move}

theorem firstMoves_succ (schedule : Nat → Move) (n : Nat) :
    firstMoves schedule (n + 1) = firstMoves schedule n ++ [schedule n] := by
  rw [firstMoves, List.range_succ, List.map_append]
  rfl

theorem firstMoves_add (schedule : Nat → Move) (n k : Nat) : firstMoves schedule (n + k) =
    firstMoves schedule n ++ firstMoves (fun i => schedule (n + i)) k := by
  rw [firstMoves, List.range_add, List.map_append, List.map_map]
  rfl

theorem Fair.shift (h : Fair schedule) (n : Nat) : Fair fun i => schedule (n + i) := by
  intro m i
  obtain ⟨k, hk, hm⟩ := h m (n + i)
  obtain ⟨d, rfl⟩ := Nat.exists_eq_add_of_le (Nat.le_of_add_right_le hk)
  exact ⟨d, by omega, hm⟩

/-- By a fair schedule each side comes to its turn any number of times. -/
theorem Fair.exists_count (h : Fair schedule) (m : Move) (bound : Nat) :
    ∃ n, bound ≤ (firstMoves schedule n).count m := by
  induction bound with
  | zero => exact ⟨0, Nat.zero_le _⟩
  | succ bound ih =>
    obtain ⟨n, hn⟩ := ih
    obtain ⟨k, hk, hm⟩ := h m n
    obtain ⟨d, rfl⟩ := Nat.exists_eq_add_of_le hk
    refine ⟨n + d + 1, ?_⟩
    rw [firstMoves_succ, hm, List.count_append, List.count_singleton_self, firstMoves_add,
      List.count_append]
    omega

theorem ends (h : Fair schedule) (commands : List Command) :
    ∃ n, ((start commands).run (firstMoves schedule n)).stage = .ended := by
  obtain ⟨n, hn⟩ := h.exists_count .send (commands.length + 1)
  set s := (start commands).run (firstMoves schedule n) with hs
  have hsent : s.unsent = [] := by
    have hlength : s.unsent.length = (commands ++ [Command.shutdown]).length - _ :=
      length_unsent_run _ _
    rw [List.length_append, List.length_singleton] at hlength
    exact List.eq_nil_of_length_eq_zero (by omega)
  obtain ⟨k, hk⟩ := (h.shift n).exists_count .goOn s.work
  refine ⟨n + k, ?_⟩
  rw [firstMoves_add, run_append, ← hs]
  exact ended_of_work (sound_run (sound_start commands) _) hsent hk

/-! ### Frames pass only for a command -/

/-- The frames that were let pass or begun. -/
def frames (s : FrameThread) : Nat := (s.made ++ s.todo).count .cycle

theorem taken_perform (s : FrameThread) (m : Move) : s.taken <+: (s.perform m).taken := by
  cases m with
  | send =>
    simp only [perform, send]
    split <;> exact List.prefix_refl _
  | goOn =>
    simp only [perform, goOn]
    split
    · unfold look receive
      split
      · split <;> exact List.prefix_append _ _
      · split_ifs <;> exact List.prefix_refl _
    all_goals exact List.prefix_refl _

theorem taken_run (s : FrameThread) (moves : List Move) : s.taken <+: (s.run moves).taken := by
  induction moves generalizing s with
  | nil => exact List.prefix_refl _
  | cons m rest ih => exact (taken_perform s m).trans (ih (s.perform m))

/-- The last command taken does not let frames pass on end. -/
def Rests (s : FrameThread) : Prop := s.taken.getLast? ≠ some .run

theorem Sound.not_running (hs : s.Sound commands) (hrests : s.Rests) (hopen : s.stage ≠ .ended) :
    s.running = false := by
  rw [← Bool.not_eq_true]
  intro hrunning
  obtain ⟨before, htaken⟩ := hs.running hrunning hopen
  exact hrests (by rw [htaken, List.getLast?_concat])

/-- A step at which no command to run or to step is taken lets no frame pass. -/
theorem rests_perform (hs : s.Sound commands) (hrests : s.Rests) {since : List Command}
    (htaken : (s.perform m).taken = s.taken ++ since)
    (hsince : ∀ c ∈ since, c = .pause ∨ c = .shutdown) :
    (s.perform m).Rests ∧ (s.perform m).frames = s.frames := by
  have hkept : ∀ {t : FrameThread}, t.taken = s.taken → t.made ++ t.todo = s.made ++ s.todo →
      t.Rests ∧ t.frames = s.frames := by
    intro t htaken hcalls
    exact ⟨by rwa [Rests, htaken], by rw [frames, hcalls, frames]⟩
  cases m with
  | send =>
    simp only [perform, send]
    split <;> exact hkept rfl rfl
  | goOn =>
    simp only [perform, goOn] at htaken ⊢
    split at htaken
    case h_1 hstage =>
      have hopen : s.stage ≠ .ended := by simp [hstage]
      unfold look at htaken ⊢
      split at htaken
      next c rest hqueue =>
        have hc : c = .pause ∨ c = .shutdown := by
          refine hsince c ?_
          have hnew : s.taken ++ [c] = s.taken ++ since := by
            rw [← htaken]
            unfold receive
            split <;> rfl
          rw [← List.append_cancel_left hnew]
          exact List.mem_singleton_self c
        rcases hc with rfl | rfl <;> exact ⟨by simp [Rests, receive, Command.effect?],
          by simp [frames, receive, Command.effect?, todo, hstage]⟩
      next hqueue =>
        rw [hs.not_running hrests hopen]
        exact hkept rfl rfl
    case h_2 call rest hstage => exact hkept rfl (by simp [todo, hstage])
    case h_3 hstage => exact hkept rfl (by simp [todo, hstage])
    case h_4 hstage => exact hkept rfl rfl

theorem frames_run (hs : s.Sound commands) (hrests : s.Rests) {since : List Command}
    (htaken : (s.run moves).taken = s.taken ++ since)
    (hsince : ∀ c ∈ since, c = .pause ∨ c = .shutdown) : (s.run moves).frames = s.frames := by
  induction moves generalizing s since with
  | nil => rfl
  | cons m rest ih =>
    obtain ⟨now, hnow⟩ := taken_perform s m
    obtain ⟨later, hlater⟩ := taken_run (s.perform m) rest
    have hsplit : now ++ later = since := by
      refine (List.append_right_inj s.taken).mp ?_
      rw [← List.append_assoc, hnow, hlater, ← htaken, run_cons]
    obtain ⟨hstill, hframes⟩ := rests_perform hs hrests hnow.symm fun c hc =>
      hsince c (hsplit ▸ List.mem_append_left later hc)
    rw [run_cons, ← hframes]
    exact ih (sound_perform hs m) hstill hlater.symm fun c hc =>
      hsince c (hsplit ▸ List.mem_append_right now hc)

/-! ### Every answer is given -/

/-- The loop makes the calls that it has begun with. -/
theorem run_calling (unsent queue taken : List Command) (running : Bool) (todo made : List FrameCall) :
    ({ unsent, queue, taken, running, stage := .calling todo, made } : FrameThread).run
        (.replicate (todo.length + 1) .goOn) =
      { unsent, queue, taken, running, made := made ++ todo } := by
  induction todo generalizing made with
  | nil => simp [perform, goOn]
  | cons call rest ih =>
    rw [List.length_cons, List.replicate_succ, run_cons]
    exact (ih (made ++ [call])).trans (by rw [List.append_assoc]; rfl)

/-- The loop looks for a command in vain, any number of times. -/
theorem run_idle (unsent taken : List Command) (running : Bool) (made : List FrameCall) (idle : Nat) :
    ∃ moves, ({ unsent, taken, running, made } : FrameThread).run moves =
      { unsent, taken, running, made := made ++ idleCalls running idle } := by
  cases running with
  | false => exact ⟨[], by simp [idleCalls]⟩
  | true =>
    induction idle generalizing made with
    | zero => exact ⟨[], by simp [idleCalls]⟩
    | succ idle ih =>
      obtain ⟨moves, hmoves⟩ := ih (made ++ [.cycle])
      refine ⟨.goOn :: (.replicate 2 .goOn ++ moves), ?_⟩
      rw [run_cons, run_append]
      refine (congrArg (run · moves) (run_calling unsent [] taken true [.cycle] made)).trans ?_
      rw [hmoves, List.append_assoc]
      rfl

/-- The calls of the loop are made if each command is sent after the loop has looked for it in vain as
often as its arrival says. -/
theorem exists_run (arrivals : List Arrival) (taken : List Command) (running : Bool)
    (made : List FrameCall) (hshutdown : .shutdown ∈ arrivals.map Arrival.command) : ∃ moves,
    (({ unsent := arrivals.map Arrival.command, taken, running, made } : FrameThread).run
      moves).stage = .ended ∧
    (({ unsent := arrivals.map Arrival.command, taken, running, made } : FrameThread).run
      moves).made = made ++ FrameLoop.calls running arrivals := by
  induction arrivals generalizing taken running made with
  | nil => cases hshutdown
  | cons a rest ih =>
    obtain ⟨c, idle⟩ := a
    rw [List.map_cons] at hshutdown ⊢
    obtain ⟨waiting, hwaiting⟩ := run_idle (c :: rest.map Arrival.command) taken running made idle
    cases heffect : c.effect? with
    | none =>
      refine ⟨waiting ++ [.send, .goOn], ?_⟩
      rw [run_append, hwaiting]
      simp [perform, send, goOn, look, receive, heffect, FrameLoop.calls]
    | some effect =>
      obtain ⟨now, running'⟩ := effect
      have hrest : .shutdown ∈ rest.map Arrival.command :=
        (List.mem_cons.mp hshutdown).resolve_left (ne_shutdown_of_effect? heffect).symm
      have hreceived : ∀ unsent made,
          ({ unsent := c :: unsent, taken, running, made } : FrameThread).run [.send, .goOn] =
            { unsent, taken := taken ++ [c], running := running', stage := .calling now, made } := by
        simp [perform, send, goOn, look, receive, heffect]
      obtain ⟨moves, hended, hmade⟩ :=
        ih (taken ++ [c]) running' (made ++ idleCalls running idle ++ now) hrest
      refine ⟨waiting ++ ([.send, .goOn] ++ (.replicate (now.length + 1) .goOn ++ moves)), ?_⟩
      rw [run_append, run_append, run_append, hwaiting, hreceived, run_calling]
      refine ⟨hended, ?_⟩
      rw [hmade, FrameLoop.calls, heffect, List.append_assoc, List.append_assoc]

/-! ### What the loop does -/

/-- Commands are sent to a thread, which is stopped then.

The loop ends under every fair schedule.  When it ends, its calls have answered the commands before the
first one to shut down; each such answer is given under some schedule, and these are the calls of
`FrameLoop.calls` for all times of arrival.  Once the last command taken is not to run, no frame is let
pass but for those begun with, until a command to run or to step is taken. -/
theorem obeys (commands : List Command) :
    (∀ schedule, Fair schedule →
      ∃ n, ((start commands).run (firstMoves schedule n)).stage = .ended) ∧
    (∀ calls, (∃ moves, ((start commands).run moves).stage = .ended ∧
        ((start commands).run moves).made = calls) ↔
      Answered (heeded commands) calls) ∧
    (∀ calls, Answered (heeded commands) calls ↔ ∃ arrivals : List Arrival,
      arrivals.map Arrival.command = commands ++ [.shutdown] ∧
        FrameLoop.calls false arrivals = calls) ∧
    ∀ moves more since, ((start commands).run moves).Rests →
      (((start commands).run moves).run more).taken = ((start commands).run moves).taken ++ since →
      (∀ c ∈ since, c = .pause ∨ c = .shutdown) →
      (((start commands).run moves).run more).frames = ((start commands).run moves).frames := by
  have hsound : ∀ moves, ((start commands).run moves).Sound commands := sound_run (sound_start commands)
  have harrivals : ∀ calls, Answered (heeded commands) calls ↔ ∃ arrivals : List Arrival,
      arrivals.map Arrival.command = commands ++ [.shutdown] ∧
        FrameLoop.calls false arrivals = calls := by
    intro calls
    rw [exists_calls_iff]
    simp [idleCalls]
  refine ⟨fun schedule h => ends h commands, fun calls => ⟨?_, fun h => ?_⟩, harrivals,
    fun moves more since hrests => frames_run (hsound moves) hrests⟩
  · rintro ⟨moves, hended, rfl⟩
    exact (hsound moves).answered hended
  · obtain ⟨arrivals, hcommands, rfl⟩ := (harrivals calls).mp h
    have hrun := exists_run arrivals [] false [] (by simp [hcommands])
    rwa [hcommands] at hrun

/-- The owner and the loop in turn. -/
def turnAbout (n : Nat) : Move := if n % 2 = 0 then .send else .goOn

theorem fair_turnAbout : Fair turnAbout := by
  intro m n
  cases m with
  | send => exact ⟨2 * n, by omega, if_pos (by omega)⟩
  | goOn => exact ⟨2 * n + 1, by omega, if_neg (by omega)⟩

/-- One frame, two frames on end, and none once the machine is paused again. -/
theorem obeys_stepping :
    (∃ n, ((start [.stepFrame, .run, .pause]).run (firstMoves turnAbout n)).stage = .ended) ∧
    (∃ moves, ((start [.stepFrame, .run, .pause]).run moves).stage = .ended ∧
      ((start [.stepFrame, .run, .pause]).run moves).made =
        [.pause, .cycle, .resume, .cycle, .cycle, .pause]) ∧
    (((start [.stepFrame, .run, .pause]).run (.send :: .replicate 4 .goOn)).run
      (.replicate 5 .goOn)).frames = 1 := by
  obtain ⟨hends, hanswers, -, hquiet⟩ := obeys [.stepFrame, .run, .pause]
  refine ⟨hends turnAbout fair_turnAbout, (hanswers _).mpr ?_, ?_⟩
  · exact ⟨[[.pause, .cycle], [.resume, .cycle, .cycle], [.pause]],
      .cons rfl (.cons ⟨1, rfl⟩ (.cons rfl .nil)), rfl⟩
  · rw [hquiet (.send :: .replicate 4 .goOn) (.replicate 5 .goOn) [] (by unfold Rests; decide)
      (by decide) (by simp)]
    decide

end FrameThread

end SceneDebugger
