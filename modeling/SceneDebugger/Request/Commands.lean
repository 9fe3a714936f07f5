import SceneDebugger.Machine.FrameLoop
import SceneDebugger.Request.Fields
import SceneDebugger.Workspace.Texts

/-!
# SceneDebugger.Request.Commands — commands by name

The words with which a front end drives the machine and loads texts.
-/

namespace SceneDebugger

/-- The command to the loop of frames that a word stands for. -/
def FrameLoop.Command.ofName? : String → Option FrameLoop.Command
  | "run" => some .run
  | "pause" => some .pause
  | "step" => some .stepFrame
  | "shutdown" => some .shutdown
  | _ => none

/-- The call to the machine that a word stands for. -/
def FrameCall.ofName? : String → Option FrameCall
  | "pause" => some .pause
  | "resume" => some .resume
  | "cycle" => some .cycle
  | _ => none

/-- What to do about an EXPS text, by the field `mode`; strict unless it says otherwise. -/
def ExpsLoadMode.ofRequest (j : Json) : ExpsLoadMode :=
  match j.textAt "mode" with
  | "force_text" => .trustText
  | "force_decompile" => .decompile
  | _ => .strict

end SceneDebugger
