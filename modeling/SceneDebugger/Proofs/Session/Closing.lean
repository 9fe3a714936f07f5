import SceneDebugger.Proofs.Session.Operated
import SceneDebugger.Proofs.Session.Tracking

/-!
# SceneDebugger.Proofs.Session.Closing — editors closed around a question

To close the editor of a script, the file is looked up, it is looked at, the user may be asked, and the
file is changed at last.  No lock is held between these steps.  The game goes on all the while, and as
long as the user is asked anything can happen: the file may be reloaded, saved or closed once more.  So
what was seen of the file before the question need not hold after the answer (`Closing.step`).

* `Closing.run`: steps of closing, answers, and what others do, in any order.
* `Closing.Comes`, `Closing.comes_run`: all that closing can come to.
* `Closing.run_closeEditor`: undisturbed, the steps do what `Session.closeEditor` does.
* `Closing.off_with_consent`: breakpoints are turned off only of stale files, and not without consent.
-/

namespace SceneDebugger

/-- A script is saved from one of its texts. -/
def Action.saves : Action → Bool
  | .saveSsbs _ _ => true
  | .saveExps _ _ => true
  | _ => false

/-- How far closing an editor has come. -/
inductive ClosingStage where
  | called
  /-- The file is in use. -/
  | found
  /-- The user is asked, which may take some time. -/
  | asking
  /-- The editor may be closed. -/
  | cleared
  | returned (closed : Bool)
  deriving DecidableEq, Repr

/-- An editor that is being closed in a session. -/
structure Closing where
  session : Session
  file : String
  /-- The user is asked if the file is stale. -/
  asks : Bool
  stage : ClosingStage := .called
  /-- The sessions in which the user was asked. -/
  asked : List Session := []
  answer : Option Bool := none
  /-- What others have done so far, in order. -/
  meanwhile : List Action := []

/-- What happens while an editor is closed. -/
inductive ClosingMove where
  /-- The next step of closing. -/
  | go
  /-- The user answers. -/
  | answer (yes : Bool)
  /-- The game goes on, or someone acts while the user is asked.  Operations are runs of actions, as
  `Session.Operated.reaches` says. -/
  | act (a : Action)

namespace Closing

open Session Workspace

/-! ### Steps -/

/-- How often the user was asked. -/
def questions (c : Closing) : Nat := c.asked.length

/-- The editor of a file is to be closed. -/
def called (s : Session) (file : String) : Closing :=
  { session := s, file, asks := s.settings.confirmCloseStale }

/-- The next step of closing.  The user's answer is waited for. -/
def goOn (c : Closing) : Closing :=
  match c.stage with
  | .called =>
    match c.session.workspace.file? c.file with
    | none => { c with stage := .returned true }
    | some _ => { c with stage := .found }
  | .found =>
    if c.asks ∧ c.session.workspace.asksToClose c.file then
      { c with stage := .asking, asked := c.asked ++ [c.session] }
    else { c with stage := .cleared }
  | .asking => c
  | .cleared =>
    { c with
      session := { c.session with workspace := c.session.workspace.finishClose c.file }
      stage := .returned true }
  | .returned _ => c

/-- Others may do it now: anything while the user is asked, and before and after anything but a save. -/
def allows (c : Closing) (a : Action) : Bool :=
  match c.stage with
  | .asking => true
  | .returned _ => false
  | _ => !a.saves

/-- Closing an editor after a move.  It is over once it has returned. -/
def step (c : Closing) : ClosingMove → Closing
  | .go => c.goOn
  | .answer yes =>
    if c.stage = .asking then
      { c with stage := if yes then .cleared else .returned false, answer := some yes }
    else c
  | .act a =>
    if c.allows a then { c with session := c.session.perform a, meanwhile := c.meanwhile ++ [a] }
    else c

/-- Closing an editor after moves in any order. -/
def run (c : Closing) (moves : List ClosingMove) : Closing := moves.foldl step c

@[simp] theorem run_nil (c : Closing) : c.run [] = c := rfl

@[simp] theorem run_cons (c : Closing) (m : ClosingMove) (moves : List ClosingMove) :
    c.run (m :: moves) = (c.step m).run moves := rfl

theorem run_append (c : Closing) (moves more : List ClosingMove) :
    c.run (moves ++ more) = (c.run moves).run more := List.foldl_append

theorem run_concat (c : Closing) (moves : List ClosingMove) (m : ClosingMove) :
    c.run (moves ++ [m]) = (c.run moves).step m := run_append c moves [m]

end Closing

/-! ### Files that become stale -/

namespace ScriptFile

variable {f f' : ScriptFile} {hashes hashes' : Set String} {fills : Prop} {c : Marking StampedMap}

/-- If the file is stale, its breakpoints are off. -/
def Disarmed (f : ScriptFile) : Prop := f.flags.ramMatches = false → f.flags.breakpointsOff = true

theorem disarmed_of_ramMatches (h : f.flags.ramMatches = true) : f.Disarmed := fun hstale => by
  rw [h] at hstale
  cases hstale

theorem Disarmed.closed (h : f.Disarmed) : (Workspace.closed f).Disarmed := by
  intro hstale
  show (!f.flags.ramMatches || f.flags.breakpointsOff) = true
  rw [h hstale, Bool.or_true]

/-- Only a save makes a file stale and leaves its breakpoints on. -/
theorem Disarmed.edited (h : f.Disarmed) (he : f.Edited f' c) (hc : ∀ view m, c ≠ .supersede view m) :
    f'.Disarmed := by
  cases he with
  | same => exact h
  | opened => exact h
  | closed => exact h.closed
  | loadedSsbs text => exact h
  | loadedExps text => exact h
  | saved o program ssbs exps _ => exact absurd rfl (hc _ _)
  | reloaded hram => exact h

theorem Disarmed.filled (h : f.Disarmed) (hf : f.Filled hashes f' hashes' c) : f'.Disarmed := by
  cases hf with
  | entered _ _ =>
    intro hstale
    rw [entered_ramMatches, Bool.or_eq_false_iff, Bool.not_eq_false'] at hstale
    rw [entered_breakpointsOff, hstale.1, h hstale.2, Bool.and_true]
  | restored _ _ => exact fun _ => rfl

theorem Disarmed.stepped (h : f.Disarmed) (hs : f.Stepped hashes fills f' hashes' c)
    (hc : ∀ view m, c ≠ .supersede view m) : f'.Disarmed := by
  cases hs with
  | edited _ he => exact h.edited he hc
  | released _ hr =>
    cases hr with
    | held _ _ => exact h
    | left => exact disarmed_of_ramMatches rfl
  | filled _ hf => exact h.filled hf

end ScriptFile

namespace Session

open Workspace

variable {s t : Session} {a : Action} {file name : String} {f : ScriptFile}

/-- Only a save brings in the map of a new compilation. -/
theorem marking_of_not_saves (ha : a.saves = false) (f : ScriptFile) (view : View) (m : StampedMap) :
    s.marking a name f ≠ .supersede view m := by
  have hssbs : ∀ answer, f.ssbsMarking answer ≠ .supersede view m := by
    intro answer heq
    unfold ScriptFile.ssbsMarking at heq
    repeat' split at heq
    all_goals cases heq
  have hexps : ∀ mode answer, f.expsMarking mode answer ≠ .supersede view m := by
    intro mode answer heq
    unfold ScriptFile.expsMarking at heq
    repeat' split at heq
    all_goals cases heq
  intro heq
  cases a with
  | loadSsbs file =>
    unfold marking at heq
    dsimp only at heq
    split_ifs at heq
    exact hssbs _ heq
  | loadExps file mode =>
    unfold marking at heq
    dsimp only at heq
    split_ifs at heq
    exact hexps mode _ heq
  | reload file =>
    unfold marking ScriptFile.reloadMarking at heq
    dsimp only at heq
    split_ifs at heq
  | restore snapshot =>
    unfold marking ScriptFile.restoreMarking at heq
    dsimp only at heq
    split_ifs at heq
  | saveSsbs file text => cases ha
  | saveExps file text => cases ha
  | _ => cases heq

/-- If the file is stale, its breakpoints are off. -/
def Disarmed (s : Session) (file : String) : Prop :=
  ∀ f, s.workspace.file? file = some f → f.Disarmed

theorem disarmed_perform (hs : s.Reachable) (h : s.Disarmed file) (ha : a.saves = false) :
    (s.perform a).Disarmed file := by
  intro f' hf'
  obtain ⟨f, hf, hstep⟩ := (steps_perform hs.tracks.named a).stepped file f' hf'
  refine ScriptFile.Disarmed.stepped ?_ hstep (marking_of_not_saves ha f)
  obtain hused | ⟨-, program, hash, rfl⟩ := seen?_cases hf
  · exact h f hused
  · exact ScriptFile.disarmed_of_ramMatches rfl

/-- The user need not be asked about a file that is not stale. -/
theorem disarmed_of_not_asks (h : s.workspace.asksToClose file = false) : s.Disarmed file := by
  intro f hf
  rw [asksToClose, hf] at h
  exact ScriptFile.disarmed_of_ramMatches (by simpa using h)

/-- What closing does to the file. -/
theorem file?_closeEditor (hs : s.Reachable) (hf : s.workspace.file? file = some f) :
    (s.perform (.closeEditor file)).workspace.file? file = some (closed f) := by
  have hname : f.name = file := hs.tracks.named file f hf
  have hput : (s.perform (.closeEditor file)).workspace = s.workspace.put (closed f) := by
    show s.workspace.finishClose file = _
    rw [finishClose, hf]
  rw [hput, file?_put]
  exact if_pos hname.symm

/-- Closing does nothing to a file that is not in use. -/
theorem perform_closeEditor_of_absent (hf : s.workspace.file? file = none) :
    s.perform (.closeEditor file) = s := by
  show { s with workspace := s.workspace.finishClose file } = s
  rw [finishClose, hf]

end Session

namespace Closing

open Session Workspace

variable {s t : Session} {file : String} {c : Closing} {done : List Action}

/-! ### What closing can come to -/

/-- The user is to be asked about stale files, and the file was stale in the session in which the user
was asked, after some of what others have done. -/
structure AskedIn (s : Session) (file : String) (done : List Action) (t : Session) : Prop where
  confirm : s.settings.confirmCloseStale = true
  stale : t.workspace.asksToClose file = true
  early : ∃ early, early <+: done ∧ t = s.run early

/-- There is no reason to ask: nobody wants to be asked, or the breakpoints of the file need not be
turned off. -/
def Free (s : Session) (file : String) (done : List Action) : Prop :=
  s.settings.confirmCloseStale = false ∨ (s.run done).Disarmed file

theorem AskedIn.concat (h : AskedIn s file done t) (a : Action) :
    AskedIn s file (done ++ [a]) t := by
  obtain ⟨early, hearly, ht⟩ := h.early
  exact ⟨h.confirm, h.stale, early, hearly.trans (List.prefix_append done [a]), ht⟩

theorem Free.concat (hs : s.Reachable) (h : Free s file done) {a : Action} (ha : a.saves = false) :
    Free s file (done ++ [a]) := by
  obtain hoff | hdisarmed := h
  · exact .inl hoff
  · refine .inr ?_
    rw [Session.run_concat]
    exact disarmed_perform (hs.reaches ⟨done, rfl⟩) hdisarmed ha

/-- Closing at a stage, after what others have done. -/
def after (s : Session) (file : String) (done : List Action) (stage : ClosingStage)
    (asked : List Session) (answer : Option Bool) : Closing :=
  { session := s.run done, file, asks := s.settings.confirmCloseStale, stage, asked, answer
    meanwhile := done }

/-- The editor was closed, after what others have done. -/
def closedAfter (s : Session) (file : String) (done : List Action) (asked : List Session)
    (answer : Option Bool) : Closing :=
  { after s file done (.returned true) asked answer with
    session := (s.run done).perform (.closeEditor file) }

/-- What closing comes to. -/
inductive Comes (s : Session) (file : String) : Closing → Prop where
  | called (done : List Action) : Comes s file (after s file done .called [] none)
  | found (done : List Action) : Comes s file (after s file done .found [] none)
  | asking (done : List Action) {t : Session} (h : AskedIn s file done t) :
    Comes s file (after s file done .asking [t] none)
  | agreed (done : List Action) {t : Session} (h : AskedIn s file done t) :
    Comes s file (after s file done .cleared [t] (some true))
  | refused (done : List Action) {t : Session} (h : AskedIn s file done t) :
    Comes s file (after s file done (.returned false) [t] (some false))
  | unasked (done : List Action) (h : Free s file done) :
    Comes s file (after s file done .cleared [] none)
  | closedAgreed (done : List Action) {t : Session} (h : AskedIn s file done t) :
    Comes s file (closedAfter s file done [t] (some true))
  | closedUnasked (done : List Action) (h : Free s file done) :
    Comes s file (closedAfter s file done [] none)

/-- What others do is noted, and done if it is allowed. -/
theorem step_act (done : List Action) (stage : ClosingStage) (asked : List Session)
    (answer : Option Bool) (a : Action) : (after s file done stage asked answer).step (.act a) =
      if (after s file done stage asked answer).allows a
        then after s file (done ++ [a]) stage asked answer
        else after s file done stage asked answer := by
  rw [after, after, Session.run_concat]
  rfl

/-- While the user is asked, it is allowed. -/
theorem step_act_asking (done : List Action) (asked : List Session) (answer : Option Bool)
    (a : Action) : (after s file done .asking asked answer).step (.act a) =
      after s file (done ++ [a]) .asking asked answer :=
  step_act done .asking asked answer a

theorem comes_goOn (h : Comes s file c) : Comes s file c.goOn := by
  cases h with
  | called done =>
    cases hfile : (s.run done).workspace.file? file with
    | none =>
      -- it returns at once, which is what closing a file that is not in use would do
      have hclosed : (after s file done .called [] none).goOn = closedAfter s file done [] none := by
        rw [closedAfter, perform_closeEditor_of_absent hfile]
        simp [goOn, after, hfile]
      rw [hclosed]
      refine .closedUnasked done (.inr (disarmed_of_not_asks ?_))
      rw [asksToClose, hfile]
      rfl
    | some f =>
      have hfound : (after s file done .called [] none).goOn = after s file done .found [] none := by
        simp [goOn, after, hfile]
      rw [hfound]
      exact .found done
  | found done =>
    by_cases hask : s.settings.confirmCloseStale = true ∧ (s.run done).workspace.asksToClose file = true
    · have hasking : (after s file done .found [] none).goOn = after s file done .asking [s.run done] none :=
        if_pos hask
      rw [hasking]
      exact .asking done ⟨hask.1, hask.2, done, List.prefix_rfl, rfl⟩
    · have hcleared : (after s file done .found [] none).goOn = after s file done .cleared [] none :=
        if_neg hask
      rw [hcleared]
      rw [not_and_or, Bool.not_eq_true, Bool.not_eq_true] at hask
      exact .unasked done (hask.imp id disarmed_of_not_asks)
  | asking done h => exact .asking done h
  | agreed done h => exact .closedAgreed done h
  | refused done h => exact .refused done h
  | unasked done h => exact .closedUnasked done h
  | closedAgreed done h => exact .closedAgreed done h
  | closedUnasked done h => exact .closedUnasked done h

theorem comes_answer (h : Comes s file c) (yes : Bool) : Comes s file (c.step (.answer yes)) := by
  cases h with
  | asking done h =>
    cases yes with
    | true => exact .agreed done h
    | false => exact .refused done h
  | called done => exact .called done
  | found done => exact .found done
  | agreed done h => exact .agreed done h
  | refused done h => exact .refused done h
  | unasked done h => exact .unasked done h
  | closedAgreed done h => exact .closedAgreed done h
  | closedUnasked done h => exact .closedUnasked done h

theorem comes_act (hs : s.Reachable) (h : Comes s file c) (a : Action) :
    Comes s file (c.step (.act a)) := by
  cases h with
  | called done =>
    rw [step_act]
    split_ifs
    · exact .called _
    · exact .called done
  | found done =>
    rw [step_act]
    split_ifs
    · exact .found _
    · exact .found done
  | asking done h =>
    rw [step_act_asking]
    exact .asking _ (h.concat a)
  | agreed done h =>
    rw [step_act]
    split_ifs
    · exact .agreed _ (h.concat a)
    · exact .agreed done h
  | unasked done h =>
    rw [step_act]
    split_ifs with hallows
    · have ha : a.saves = false := by simpa [allows, after] using hallows
      exact .unasked _ (h.concat hs ha)
    · exact .unasked done h
  | refused done h => exact .refused done h
  | closedAgreed done h => exact .closedAgreed done h
  | closedUnasked done h => exact .closedUnasked done h

theorem comes_step (hs : s.Reachable) (h : Comes s file c) (m : ClosingMove) :
    Comes s file (c.step m) := by
  cases m with
  | go => exact comes_goOn h
  | answer yes => exact comes_answer h yes
  | act a => exact comes_act hs h a

/-- Whatever happens meanwhile, closing comes to one of these. -/
theorem comes_run (hs : s.Reachable) (file : String) (moves : List ClosingMove) :
    Comes s file ((called s file).run moves) := by
  induction moves using List.reverseRecOn with
  | nil => exact .called []
  | append_singleton moves m ih =>
    rw [run_concat]
    exact comes_step hs ih m

/-! ### Without disturbance -/

/-- While the user is asked, anything is done that is to be done. -/
theorem run_acts (done actions : List Action) (asked : List Session) (answer : Option Bool) :
    (after s file done .asking asked answer).run (actions.map .act) =
      after s file (done ++ actions) .asking asked answer := by
  induction actions generalizing done with
  | nil => rw [List.append_nil]; rfl
  | cons a actions ih =>
    rw [List.map_cons, run_cons, step_act_asking, ih, List.append_assoc, List.singleton_append]

/-- If nobody acts but while the user is asked, closing does what `Session.closeEditor` does. -/
theorem run_closeEditor (s : Session) (file : String) {confirm : Session → Bool × Session}
    {actions : List Action} (hconfirm : (confirm s).2 = s.run actions) :
    let result := s.closeEditor file confirm
    let c := (called s file).run (if result.1.asked
      then [.go, .go] ++ (actions.map .act ++ [.answer (confirm s).1, .go]) else [.go, .go, .go])
    c.stage = .returned result.1.closed ∧ c.session = result.2 ∧
      c.questions = result.1.asked.toNat := by
  by_cases hask : s.settings.confirmCloseStale = true ∧ s.workspace.asksToClose file = true
  · have hfound : ∃ f, s.workspace.file? file = some f := by
      have hany : (s.workspace.file? file).any (fun f => !f.flags.ramMatches) = true := hask.2
      cases hfile : s.workspace.file? file with
      | none =>
        rw [hfile] at hany
        cases hany
      | some f => exact ⟨f, rfl⟩
    obtain ⟨f, hf⟩ := hfound
    have hasking : (called s file).run [.go, .go] = after s file [] .asking [s] none := by
      simp [called, step, goOn, hf, hask, after]
    have hrun : ∀ yes, (called s file).run ([.go, .go] ++ (actions.map .act ++ [.answer yes, .go])) =
        if yes then closedAfter s file actions [s] (some true)
        else after s file actions (.returned false) [s] (some false) := by
      intro yes
      rw [run_append, hasking, run_append, run_acts, List.nil_append]
      cases yes <;> rfl
    cases hanswer : confirm s with
    | mk yes t =>
      obtain rfl : t = s.run actions := by
        rw [← hconfirm, hanswer]
      have hresult : s.closeEditor file confirm =
          if yes then ({ closed := true, asked := true }, (s.run actions).perform (.closeEditor file))
          else ({ closed := false, asked := true }, s.run actions) := by
        rw [closeEditor, if_pos hask, hanswer]
        cases yes <;> rfl
      rw [hresult]
      dsimp only
      cases yes with
      | true =>
        rw [if_pos rfl, if_pos rfl, hrun]
        exact ⟨rfl, rfl, rfl⟩
      | false =>
        rw [if_neg Bool.false_ne_true, if_pos rfl, hrun]
        exact ⟨rfl, rfl, rfl⟩
  · have hresult : s.closeEditor file confirm =
        ({ closed := true, asked := false }, s.perform (.closeEditor file)) := if_neg hask
    rw [hresult]
    cases hfile : s.workspace.file? file with
    | none =>
      rw [perform_closeEditor_of_absent hfile]
      simp [called, step, goOn, hfile, questions]
    | some f => simp [called, step, goOn, hfile, hask, perform, onWorkspace, questions]

/-! ### Consent -/

/-- What closing has done itself. -/
theorem Comes.session (h : Comes s file c) : c.session = if c.stage = .returned true
    then (s.run c.meanwhile).perform (.closeEditor file) else s.run c.meanwhile := by
  cases h <;> rfl

theorem Comes.reachable (hs : s.Reachable) (h : Comes s file c) : c.session.Reachable := by
  have hmeanwhile : (s.run c.meanwhile).Reachable := hs.reaches ⟨c.meanwhile, rfl⟩
  rw [h.session]
  split_ifs
  · exact hmeanwhile.reaches (reaches_perform _ _)
  · exact hmeanwhile

theorem Comes.asked (h : Comes s file c) :
    c.questions ≤ 1 ∧ ∀ t ∈ c.asked, AskedIn s file c.meanwhile t := by
  have honce : ∀ {done : List Action} {t : Session}, AskedIn s file done t →
      ∀ u ∈ [t], AskedIn s file done u := by
    intro done t ht u hu
    rw [List.mem_singleton.mp hu]
    exact ht
  have hnever : ∀ {done : List Action}, ∀ t ∈ [], AskedIn s file done t :=
    fun t ht => absurd ht List.not_mem_nil
  cases h with
  | called done => exact ⟨Nat.zero_le 1, hnever⟩
  | found done => exact ⟨Nat.zero_le 1, hnever⟩
  | asking done h => exact ⟨le_rfl, honce h⟩
  | agreed done h => exact ⟨le_rfl, honce h⟩
  | refused done h => exact ⟨le_rfl, honce h⟩
  | unasked done h => exact ⟨Nat.zero_le 1, hnever⟩
  | closedAgreed done h => exact ⟨le_rfl, honce h⟩
  | closedUnasked done h => exact ⟨Nat.zero_le 1, hnever⟩

theorem Comes.kept (h : Comes s file c) (hstage : c.stage = .returned false) :
    c.questions = 1 ∧ c.answer = some false := by
  cases h with
  | refused done h => exact ⟨rfl, rfl⟩
  | _ => cases hstage

/-- An editor is closed because the user agreed, or because there was no reason to ask. -/
theorem Comes.closed (h : Comes s file c) (hstage : c.stage = .returned true) :
    c.questions = 1 ∧ c.answer = some true ∨ Free s file c.meanwhile := by
  cases h with
  | closedAgreed done h => exact .inl ⟨rfl, rfl⟩
  | closedUnasked done h => exact .inr h
  | _ => cases hstage

/-- Whatever others do while an editor is closed, the user is asked at most once, and only about a file
that is stale when the user is asked.  Closing itself does nothing but to close the editor at last, which
it does not do if the user refuses.  The editor is closed then, and breakpoints that were on before are off
only if the file is stale right then, and the user has agreed or does not want to be asked.  No breakpoints
are off of a file that is not stale.  Undisturbed, this is what `Session.closeEditor` does. -/
theorem off_with_consent (hs : s.Reachable) (file : String) (moves : List ClosingMove) :
    let c := (called s file).run moves
    let others := s.run c.meanwhile
    (c.questions ≤ 1 ∧ ∀ t ∈ c.asked, s.settings.confirmCloseStale = true ∧
      (∃ early, early <+: c.meanwhile ∧ t = s.run early) ∧
      ∃ f, t.workspace.file? file = some f ∧ f.flags.ramMatches = false) ∧
    (c.stage ≠ .returned true → c.session = others) ∧
    (c.stage = .returned false → c.questions = 1 ∧ c.answer = some false) ∧
    (c.stage = .returned true → c.session = others.perform (.closeEditor file) ∧
      (∀ f, c.session.workspace.file? file = some f → f.flags.inEditor = false) ∧
      ∀ f f', others.workspace.file? file = some f → c.session.workspace.file? file = some f' →
        f.flags.breakpointsOff = false → f'.flags.breakpointsOff = true →
          f.flags.ramMatches = false ∧
            (c.questions = 1 ∧ c.answer = some true ∨ s.settings.confirmCloseStale = false)) ∧
    (∀ name f, c.session.workspace.file? name = some f → f.flags.breakpointsOff = true →
      f.flags.ramMatches = false) ∧
    ∀ confirm : Session → Bool × Session, s.Reaches (confirm s).2 → ∃ moves,
      let c := (called s file).run moves
      c.stage = .returned (s.closeEditor file confirm).1.closed ∧
        c.session = (s.closeEditor file confirm).2 ∧
        c.questions = (s.closeEditor file confirm).1.asked.toNat := by
  intro c others
  have hcomes : Comes s file c := comes_run hs file moves
  have hothers : others.Reachable := hs.reaches ⟨c.meanwhile, rfl⟩
  refine ⟨⟨hcomes.asked.1, ?asked⟩, ?untouched, hcomes.kept, ?closed, ?off, ?alone⟩
  case asked =>
    intro t ht
    obtain ⟨hconfirm, hstale, hearly⟩ := hcomes.asked.2 t ht
    obtain ⟨f, hf, hram⟩ := (Option.any_eq_true _ _).mp hstale
    exact ⟨hconfirm, hearly, f, hf, by simpa using hram⟩
  case untouched =>
    intro hstage
    exact hcomes.session.trans (if_neg hstage)
  case closed =>
    intro hstage
    have hsession : c.session = others.perform (.closeEditor file) :=
      hcomes.session.trans (if_pos hstage)
    rw [hsession]
    refine ⟨rfl, fun f' hf' => ?_, fun f f' hf hf' hon hoff => ?_⟩
    · cases hf : others.workspace.file? file with
      | none =>
        rw [perform_closeEditor_of_absent hf, hf] at hf'
        cases hf'
      | some f =>
        rw [file?_closeEditor hothers hf] at hf'
        cases hf'
        rfl
    · rw [file?_closeEditor hothers hf] at hf'
      cases hf'
      have hstale : f.flags.ramMatches = false := by
        simpa [Workspace.closed, hon] using hoff
      refine ⟨hstale, (hcomes.closed hstage).imp id fun hfree => ?_⟩
      -- unasked, nobody can have made the file stale and left its breakpoints on
      obtain hunasked | hdisarmed := hfree
      · exact hunasked
      · have hoff : f.flags.breakpointsOff = true := hdisarmed f hf hstale
        rw [hon] at hoff
        cases hoff
  case off =>
    intro name f hf hoff
    exact ((hcomes.reachable hs).tracked hf).off hoff
  case alone =>
    rintro confirm ⟨actions, hconfirm⟩
    exact ⟨_, run_closeEditor s file hconfirm⟩

/-- A session in which a held script was saved in its editor. -/
def edited : Session :=
  sample.run [.loadScript "enter.ssb", .openEditor "enter.ssb", .saveSsbs "enter.ssb" (waitText "6")]

/-- While the user is asked, the script is loaded anew and saved once more. -/
def consenting : List ClosingMove :=
  [.go, .go, .act .quitGround, .act (.loadScript "enter.ssb"),
    .act (.saveSsbs "enter.ssb" (waitText "7")), .answer true, .go]

theorem off_with_consent_edited :
    edited.Reachable ∧ ((called edited "enter.ssb").run consenting).stage = .returned true ∧
    ((edited.run ((called edited "enter.ssb").run consenting).meanwhile).workspace.file?
      "enter.ssb").map (fun f => f.flags) =
        some { inEditor := true, inGround := true, ramMatches := false } ∧
    (((called edited "enter.ssb").run consenting).session.workspace.file? "enter.ssb").map
      (fun f => f.flags) = some { inGround := true, ramMatches := false, breakpointsOff := true } ∧
    ((called edited "enter.ssb").run consenting).questions = 1 ∧
    ((called edited "enter.ssb").run consenting).answer = some true := by
  have hreachable : edited.Reachable := reachable_sample _
  obtain ⟨-, -, -, hclosed, -⟩ := off_with_consent hreachable "enter.ssb" consenting
  obtain ⟨hasks, hstage, hbefore, hafter⟩ : edited.settings.confirmCloseStale = true ∧
      ((called edited "enter.ssb").run consenting).stage = .returned true ∧
      ((edited.run ((called edited "enter.ssb").run consenting).meanwhile).workspace.file?
        "enter.ssb").map (fun f => f.flags) =
          some { inEditor := true, inGround := true, ramMatches := false } ∧
      (((called edited "enter.ssb").run consenting).session.workspace.file? "enter.ssb").map
        (fun f => f.flags) = some { inGround := true, ramMatches := false, breakpointsOff := true } := by
    decide +kernel
  obtain ⟨f, hf, hflags⟩ := Option.map_eq_some_iff.mp hbefore
  obtain ⟨f', hf', hflags'⟩ := Option.map_eq_some_iff.mp hafter
  obtain ⟨-, hconsent⟩ := (hclosed hstage).2.2 f f' hf hf' (by rw [hflags]) (by rw [hflags'])
  refine ⟨hreachable, hstage, hbefore, hafter, hconsent.resolve_right fun hoff => ?_⟩
  rw [hasks] at hoff
  cases hoff

end Closing

end SceneDebugger
