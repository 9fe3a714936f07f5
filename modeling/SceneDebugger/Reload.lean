import SceneDebugger.Breakpoints.Store
import SceneDebugger.Workspace.Texts

/-!
# SceneDebugger.Reload — breakpoints follow saves and reloads

After a save, the breakpoints of the file are carried to the new source map.  A file that the game
does not hold is reloaded at once; otherwise its waiting source maps and breakpoints are put in use
when the game drops it.
-/

namespace SceneDebugger.Reload

/-- The offsets of breakpoints after a save.  Without the map before it, those stay that are still
the offset of an opcode. -/
def carried (o : SaveOutcome) (offsets : Std.ExtTreeSet UInt32) : Std.ExtTreeSet UInt32 :=
  match o.previousMap with
  | some before => before.carry o.newMap offsets
  | none => offsets.filter fun offset => (o.newMap.at? offset).isSome

/-- A change of the breakpoints in the host of a workspace. -/
def within (w : Workspace) (change : Host → Breakpoints × Host) : Breakpoints × Workspace :=
  let (b, host) := change w.host
  (b, { w with host })

/-- The breakpoints of a saved file follow, and its reload is requested if it is ready. -/
def finishSave (b : Breakpoints) (w : Workspace) (o : SaveOutcome) : Breakpoints × Workspace :=
  let (b, w) := within w fun h =>
    b.resync h (w.ramMatches o.file) o.file (carried o (b.latestOffsets o.file))
  (b, if o.ready then w.requestReload o.file else w)

/-- The breakpoints of the scripts that were compiled anew follow. -/
def finishMacroSave (b : Breakpoints) (w : Workspace) (outcomes : List MacroOutcome) :
    Breakpoints × Workspace :=
  outcomes.foldl (fun (b, w) outcome =>
    match outcome with
    | .recompiled o => finishSave b w o
    | _ => (b, w)) (b, w)

/-- What waits for the reload of a file is put in use, unless the file is stale; and whether it
was. -/
def apply (b : Breakpoints) (w : Workspace) (file : String) : Bool × Breakpoints × Workspace :=
  match w.applyReload file with
  | (false, w) => (false, b, w)
  | (true, w) => (true, within w fun h => b.onReload h file)

end SceneDebugger.Reload
