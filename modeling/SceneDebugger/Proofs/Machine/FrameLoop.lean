import Mathlib.Data.List.Forall2
import Mathlib.Data.List.TakeWhile
import SceneDebugger.Machine.FrameLoop

/-!
# SceneDebugger.Proofs.Machine.FrameLoop — what the frame loop calls

The loop answers the commands before the first one to shut it down, each with its own calls: frames on
end follow a command to run, however often the loop looks for the next command in vain, and a single
one follows a command to step.

* `FrameLoop.Answered`: which calls answer commands.
* `FrameLoop.exists_calls_iff`: these are the calls of `FrameLoop.calls` for all times of arrival.
-/

namespace SceneDebugger

namespace FrameLoop

/-! ### Answers -/

/-- The calls that answer a command; the frames after `run` are one or more. -/
def Command.Answer : Command → List FrameCall → Prop
  | .run, calls => ∃ n, calls = .resume :: .replicate (n + 1) .cycle
  | .pause, calls => calls = [.pause]
  | .stepFrame, calls => calls = [.pause, .cycle]
  | .shutdown, _ => False

/-- The calls answer the commands, one after the other. -/
def Answered (commands : List Command) (calls : List FrameCall) : Prop :=
  ∃ parts, List.Forall₂ Command.Answer commands parts ∧ calls = parts.flatten

/-- The commands before the first one to shut down. -/
def heeded (commands : List Command) : List Command := commands.takeWhile (· ≠ .shutdown)

variable {c : Command} {commands : List Command} {now calls more : List FrameCall} {running : Bool}

theorem effect?_eq_none_iff : c.effect? = none ↔ c = .shutdown := by
  cases c <;> simp [Command.effect?]

theorem ne_shutdown_of_effect? (h : c.effect? = some (now, running)) : c ≠ .shutdown := by
  rintro rfl
  cases h

/-- A command that does not end the loop is answered by what it leads to at once, and by the frames that
pass while the loop looks for the next one. -/
theorem answer_iff (h : c.effect? = some (now, running)) :
    c.Answer calls ↔ ∃ idle, calls = now ++ idleCalls running idle := by
  cases c with
  | run =>
    cases h
    exact Iff.rfl
  | shutdown => cases h
  | pause | stepFrame =>
    cases h
    simp [Command.Answer, idleCalls]

@[simp] theorem answered_nil_iff : Answered [] calls ↔ calls = [] := by
  simp [Answered]

theorem answered_cons_iff : Answered (c :: commands) calls ↔
    ∃ first rest, c.Answer first ∧ Answered commands rest ∧ calls = first ++ rest := by
  constructor
  · rintro ⟨parts, hparts, rfl⟩
    obtain ⟨first, others, hfirst, hothers, rfl⟩ := List.forall₂_cons_left_iff.mp hparts
    exact ⟨first, others.flatten, hfirst, ⟨others, hothers, rfl⟩, List.flatten_cons⟩
  · rintro ⟨first, rest, hfirst, ⟨parts, hparts, rfl⟩, rfl⟩
    exact ⟨first :: parts, .cons hfirst hparts, List.flatten_cons.symm⟩

theorem Answered.concat (h : Answered commands calls) (hc : c.Answer more) :
    Answered (commands ++ [c]) (calls ++ more) := by
  obtain ⟨parts, hparts, rfl⟩ := h
  refine ⟨parts ++ [more], List.rel_append hparts (.cons hc .nil), ?_⟩
  rw [List.flatten_append, List.flatten_singleton]

/-- A further frame answers the last command as well, if that is `run`. -/
theorem Answered.cycle (h : Answered (commands ++ [.run]) calls) :
    Answered (commands ++ [.run]) (calls ++ [.cycle]) := by
  induction commands generalizing calls with
  | nil =>
    obtain ⟨first, rest, ⟨n, rfl⟩, hrest, rfl⟩ := answered_cons_iff.mp h
    rw [answered_nil_iff.mp hrest, List.append_nil, List.cons_append, ← List.replicate_succ']
    exact answered_cons_iff.mpr
      ⟨_, [], ⟨n + 1, rfl⟩, answered_nil_iff.mpr rfl, (List.append_nil _).symm⟩
  | cons c rest ih =>
    rw [List.cons_append, answered_cons_iff] at h ⊢
    obtain ⟨first, others, hfirst, hothers, rfl⟩ := h
    exact ⟨first, others ++ [.cycle], hfirst, ih hothers, List.append_assoc ..⟩

theorem heeded_shutdown (commands : List Command) : heeded (.shutdown :: commands) = [] := by
  simp [heeded]

theorem heeded_cons (hc : c ≠ .shutdown) : heeded (c :: commands) = c :: heeded commands := by
  simp [heeded, hc]

theorem heeded_of_not_mem (h : .shutdown ∉ commands) : heeded commands = commands := by
  refine List.takeWhile_eq_self_iff.mpr fun c hc => ?_
  rw [decide_eq_true_eq]
  rintro rfl
  exact h hc

/-- Nothing behind a command to shut down is heeded. -/
theorem heeded_append (h : .shutdown ∈ commands) (others : List Command) :
    heeded (commands ++ others) = heeded commands := by
  induction commands with
  | nil => cases h
  | cons c rest ih =>
    rw [List.cons_append]
    by_cases hc : c = .shutdown
    · rw [hc, heeded_shutdown, heeded_shutdown]
    · have hrest : .shutdown ∈ rest := (List.mem_cons.mp h).resolve_left (Ne.symm hc)
      rw [heeded_cons hc, heeded_cons hc, ih hrest]

theorem heeded_concat_shutdown (commands : List Command) :
    heeded (commands ++ [.shutdown]) = heeded commands := by
  by_cases h : .shutdown ∈ commands
  · exact heeded_append h _
  · have hall : ∀ c ∈ commands, decide (c ≠ .shutdown) = true :=
      List.takeWhile_eq_self_iff.mp (heeded_of_not_mem h)
    rw [heeded_of_not_mem h, heeded, List.takeWhile_append_of_pos hall]
    simp

/-- The calls of the loop, for some times of arrival, answer the commands before it is shut down; some
frames may pass before the first one. -/
theorem exists_calls_iff : (∃ arrivals : List Arrival,
      arrivals.map Arrival.command = commands ++ [.shutdown] ∧ FrameLoop.calls running arrivals = calls) ↔
    ∃ idle rest, Answered (heeded commands) rest ∧ calls = idleCalls running idle ++ rest := by
  induction commands generalizing running calls with
  | nil =>
    constructor
    · rintro ⟨arrivals, harrivals, rfl⟩
      obtain ⟨⟨-, idle⟩, others, rfl, rfl, -⟩ := List.map_eq_cons_iff.mp harrivals
      exact ⟨idle, [], answered_nil_iff.mpr rfl, rfl⟩
    · rintro ⟨idle, rest, hrest, rfl⟩
      rw [answered_nil_iff.mp hrest]
      exact ⟨[{ command := .shutdown, idle }], rfl, rfl⟩
  | cons c rest ih =>
    cases heffect : c.effect? with
    | none =>
      obtain rfl := effect?_eq_none_iff.mp heffect
      rw [heeded_shutdown]
      constructor
      · rintro ⟨arrivals, harrivals, rfl⟩
        obtain ⟨⟨-, idle⟩, others, rfl, rfl, -⟩ := List.map_eq_cons_iff.mp harrivals
        exact ⟨idle, [], answered_nil_iff.mpr rfl, rfl⟩
      · rintro ⟨idle, others, hothers, rfl⟩
        rw [answered_nil_iff.mp hothers]
        refine ⟨{ command := .shutdown, idle } ::
          (rest ++ [Command.shutdown]).map fun command => { command }, ?_, rfl⟩
        simp [Function.comp_def]
    | some effect =>
      obtain ⟨now, running'⟩ := effect
      have hcalls : ∀ idle others, FrameLoop.calls running ({ command := c, idle } :: others) =
          idleCalls running idle ++ (now ++ FrameLoop.calls running' others) := by
        intro idle others
        rw [FrameLoop.calls, heffect]
      rw [heeded_cons (ne_shutdown_of_effect? heffect)]
      constructor
      · rintro ⟨arrivals, harrivals, rfl⟩
        obtain ⟨⟨c, idle⟩, others, rfl, rfl, hothers⟩ := List.map_eq_cons_iff.mp harrivals
        obtain ⟨later, answers, hanswers, hlater⟩ := ih.mp ⟨others, hothers, rfl⟩
        refine ⟨idle, now ++ idleCalls running' later ++ answers, ?_, ?_⟩
        · exact answered_cons_iff.mpr ⟨_, answers, (answer_iff heffect).mpr ⟨later, rfl⟩, hanswers, rfl⟩
        · rw [hcalls, hlater, List.append_assoc]
      · rintro ⟨idle, answers, hanswers, rfl⟩
        obtain ⟨first, others, hfirst, hothers, rfl⟩ := answered_cons_iff.mp hanswers
        obtain ⟨later, rfl⟩ := (answer_iff heffect).mp hfirst
        obtain ⟨arrivals, harrivals, hlater⟩ := ih.mpr ⟨later, others, hothers, rfl⟩
        refine ⟨{ command := c, idle } :: arrivals, by rw [List.map_cons, harrivals]; rfl, ?_⟩
        rw [hcalls, hlater, List.append_assoc]

end FrameLoop

end SceneDebugger
