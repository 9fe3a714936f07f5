import SceneDebugger.Ground.Tracker
import SceneDebugger.Proofs.Workspace.Filing

/-!
# SceneDebugger.Proofs.Workspace.Idle — what puts nothing into the project

Editors, the game, reloads and SSBS texts concern files in use only: they leave the EXPS texts in the
project alone, with everything that belongs to them.

* `Workspace.unfiled_put_of_get`: a file in use changes, but not its program.
* `Workspace.unfiled_saveSsbs`: a save from an SSBS text.
* `Ground.unfiled_loadScript`, `Ground.unfiled_restore`: the game takes and drops files.
-/

namespace SceneDebugger

namespace Workspace

variable [Scripts] {w v : Workspace} {f g : ScriptFile} {name : String}

/-! ### Files in use -/

theorem unfiled_send (w : Workspace) (event : Event) : w.Unfiled (w.send event) :=
  unfiled_host w fun _ _ => .refl _ _

theorem unfiled_warn (w : Workspace) (text : String) : w.Unfiled (w.warn text) :=
  unfiled_host w fun _ _ => .refl _ _

/-- A file in use changes, but not its program. -/
theorem unfiled_put_of_file? (h : w.file? name = some f) (hprogram : g.program = f.program)
    (hhash : g.hash = f.hash) : w.Unfiled (w.put g) :=
  unfiled_put w fun hw => by rw [hprogram, hhash]; exact hw name f h

theorem unfiled_put_of_get (h : w.get name = (.ok f, v)) (hprogram : g.program = f.program)
    (hhash : g.hash = f.hash) : w.Unfiled (v.put g) :=
  (Unfiled.of_get h).trans (unfiled_put_of_file? (file?_of_get h) hprogram hhash)

theorem unfiled_hash (w : Workspace) (name : String) : w.Unfiled (w.hash name).2 := by
  rw [hash, ask_snd]
  exact unfiled_get w name

theorem unfiled_openEditor (w : Workspace) (name : String) : w.Unfiled (w.openEditor name).2 := by
  unfold openEditor
  split
  next hget => exact .of_get hget
  next hget => exact unfiled_put_of_get hget rfl rfl

theorem unfiled_finishClose (w : Workspace) (name : String) : w.Unfiled (w.finishClose name) := by
  unfold finishClose
  split
  next => exact .refl w
  next hf => exact unfiled_put_of_file? hf rfl rfl

theorem unfiled_applyReload (w : Workspace) (name : String) : w.Unfiled (w.applyReload name).2 := by
  unfold applyReload
  split
  next => exact .refl w
  next hf =>
    split
    next => exact unfiled_put_of_file? hf rfl rfl
    next => exact .refl w

theorem unfiled_refresh (h : w.Unfiled (w.put f.fresh)) : w.Unfiled (w.refresh f) := by
  unfold refresh
  split
  next => exact h
  next => exact h.trans (unfiled_send _ _)

theorem unfiled_enterGround (w : Workspace) (name : String) : w.Unfiled (w.enterGround name).2 := by
  unfold enterGround
  split
  next hget => exact .of_get hget
  next f v hget =>
    split
    next => exact unfiled_put_of_get hget rfl rfl
    next =>
      exact (Unfiled.of_get hget).trans
        (unfiled_refresh (unfiled_put_of_file? (file?_of_get hget) rfl rfl))

theorem unfiled_leaveGround (w : Workspace) (name : String) : w.Unfiled (w.leaveGround name) := by
  unfold leaveGround
  split
  next => exact .refl w
  next hf => exact unfiled_refresh (unfiled_put_of_file? hf rfl rfl)

theorem unfiled_markRestored (w : Workspace) (name : String) :
    w.Unfiled (w.markRestored name).2 := by
  unfold markRestored
  split
  next hget => exact .of_get hget
  next hget => exact unfiled_put_of_get hget rfl rfl

theorem unfiled_loadSsbs (w : Workspace) (name : String) : w.Unfiled (w.loadSsbs name).2 := by
  unfold loadSsbs
  split
  next hget => exact .of_get hget
  next hget =>
    split
    next => exact .of_get hget
    next =>
      split
      next => exact .of_get hget
      next => exact unfiled_put_of_get hget rfl rfl

/-! ### Saves from SSBS texts -/

/-- A save from an SSBS text changes the program of a file in use, along with its hash. -/
theorem unfiled_saveSsbs (w : Workspace) (name text : String) : w.Unfiled (w.saveSsbs name text).2 := by
  unfold saveSsbs
  split
  next hget => exact .of_get hget
  next f v hget =>
    split
    next => exact .of_get hget
    next c _ =>
      have hwritten := (Unfiled.of_get hget).trans (unfiled_writeProgram v name c.program)
      split
      next heq =>
        rw [heq] at hwritten
        exact hwritten
      next hash u heq =>
        obtain ⟨bytes, rom, hencode, rfl, rfl⟩ := writeProgram_ok heq
        rw [heq] at hwritten
        exact hwritten.trans (unfiled_put _ fun _ => ⟨bytes, rfl, .inr hencode⟩)

end Workspace

/-! ### The game -/

namespace Ground

open Workspace

variable [Scripts] {w : Workspace}

theorem unfiled_release (g : Ground) (w : Workspace) (file : String) : w.Unfiled (g.release w file) := by
  unfold release
  split
  next => exact .refl w
  next => exact unfiled_leaveGround w file

theorem unfiled_releaseAll (g : Ground) (w : Workspace) (files : List String) :
    w.Unfiled (g.releaseAll w files) :=
  List.foldlRecOn _ _ (.refl w) fun v hv file _ => hv.trans (unfiled_release g v file)

theorem unfiled_start (g : Ground) (w : Workspace) : w.Unfiled (g.start w).2 :=
  (unfiled_releaseAll _ w _).trans (unfiled_send _ _)

theorem unfiled_quit (g : Ground) (w : Workspace) : w.Unfiled (g.quit w).2 :=
  (unfiled_releaseAll _ w _).trans (unfiled_send _ _)

theorem unfiled_changeMap (g : Ground) (w : Workspace) : w.Unfiled (g.changeMap w).2 :=
  (unfiled_releaseAll _ w _).trans (unfiled_send _ _)

theorem unfiled_announce (g : Ground) (w : Workspace) (hanger : Nat) :
    w.Unfiled (g.announce w hanger).2 := by
  unfold announce
  dsimp only
  split
  next => exact .refl w
  next =>
    split
    next => exact .refl w
    next => exact unfiled_warn w _

theorem unfiled_loadScene (g : Ground) (w : Workspace) (hanger : Nat) (name : String) :
    w.Unfiled (g.loadScene w hanger name).2 := by
  unfold loadScene
  split
  next => exact (unfiled_announce _ w hanger).trans (unfiled_send _ _)
  next => exact unfiled_warn w _

theorem unfiled_loadTalk (g : Ground) (w : Workspace) (hanger : Nat) :
    w.Unfiled (g.loadTalk w hanger).2 :=
  (unfiled_announce g w _).trans (unfiled_send _ _)

theorem unfiled_enter (w : Workspace) (file : String) : w.Unfiled (enter w file) := by
  have hentered := unfiled_enterGround w file
  unfold enter
  split
  next heq =>
    rw [heq] at hentered
    exact hentered
  next heq =>
    rw [heq] at hentered
    exact hentered.trans (unfiled_warn _ _)

theorem unfiled_hashOf (w : Workspace) (file : String) : w.Unfiled (hashOf w file).2 := by
  have hasked := unfiled_hash w file
  unfold hashOf
  split <;>
  next heq =>
    rw [heq] at hasked
    exact hasked

theorem unfiled_place (g : Ground) (w : Workspace) (slot : Nat) (file : String) :
    w.Unfiled (g.place w slot file).2 := by
  have hasked := (unfiled_enter w file).trans (unfiled_hashOf (enter w file) file)
  unfold place
  dsimp only
  refine Unfiled.trans ?_ (unfiled_send _ _)
  split
  next => exact hasked
  next => exact hasked.trans (unfiled_release _ _ _)

theorem unfiled_loadScript (g : Ground) (w : Workspace) (file : String) :
    w.Unfiled (g.loadScript w file).2 := by
  unfold loadScript
  dsimp only
  split
  next => exact unfiled_place _ w _ file
  next => exact unfiled_warn w _

theorem unfiled_restoreScript (stale : List String) (w : Workspace) (script : LoadedScript) :
    w.Unfiled (restoreScript stale w script).2 := by
  have hentered := unfiled_enterGround w script.file
  unfold restoreScript
  split
  next heq =>
    rw [heq] at hentered
    exact hentered.trans (unfiled_warn _ _)
  next v heq =>
    rw [heq] at hentered
    have hasked := hentered.trans (unfiled_hashOf v script.file)
    generalize hashOf v script.file = answer at hasked
    obtain ⟨hash, u⟩ := answer
    dsimp only
    split
    next => exact hasked
    next =>
      have hmarked := hasked.trans (unfiled_markRestored u script.file)
      split
      next heq =>
        rw [heq] at hmarked
        exact hmarked
      next heq =>
        rw [heq] at hmarked
        exact hmarked.trans (unfiled_warn _ _)

theorem unfiled_restoreScripts (w : Workspace) (scripts : List LoadedScript) :
    w.Unfiled (restoreScripts w scripts).2 := by
  unfold restoreScripts
  exact List.foldlRecOn (motive := fun result : List String × Workspace => w.Unfiled result.2) _ _
    (.refl w) fun result h script _ => h.trans (unfiled_restoreScript result.1 result.2 script)

theorem unfiled_reportStale (w : Workspace) (stale : List String) :
    w.Unfiled (reportStale w stale) := by
  unfold reportStale
  split
  next => exact .refl w
  next => exact (unfiled_warn w _).trans (unfiled_send _ _)

theorem unfiled_restore (g : Ground) (w : Workspace) (s : GroundSnapshot) :
    w.Unfiled (g.restore w s).2.2 := by
  have hleft : w.Unfiled ((g.files.filter fun file => !(ofSnapshot s).holds file).foldl leaveGround w) :=
    List.foldlRecOn _ _ (.refl w) fun v hv file _ => hv.trans (unfiled_leaveGround v file)
  exact (hleft.trans (unfiled_restoreScripts _ _)).trans (unfiled_reportStale _ _)

end Ground

end SceneDebugger
