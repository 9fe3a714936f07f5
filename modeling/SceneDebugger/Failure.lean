import SceneDebugger.Script.Compiler

/-!
# SceneDebugger.Failure — what can go wrong, and its words

A `Failure` is a step that was attempted and the reason why it did not succeed.  `Error` sorts the
failures of the debugger's operations by cause; the wording is in `Error.message` alone.
-/

namespace SceneDebugger

/-- An attempted step and why it did not succeed. -/
structure Failure where
  /-- The step, such as `read ground state PATH`. -/
  context : String
  cause : String
  deriving DecidableEq, Repr

/-- The step with the reason behind it. -/
def Failure.full (f : Failure) : String := f.context ++ ": " ++ f.cause

/-- Why an operation of the debugger fails. -/
inductive Error where
  /-- The ROM has no such file. -/
  | notFound (file : String)
  | compile (error : CompileError)
  /-- The EXPS text was compiled to other bytes than the ROM holds. -/
  | staleMapping (file : String)
  /-- The state of the running script cannot be made out. -/
  | probe (reason : String)
  | hookRegistration (address : UInt32) (reason : String)
  | persistence (text : String)
  /-- A collaborator or the project directory failed. -/
  | other (text : String)
  deriving DecidableEq, Repr

/-- The words for an error. -/
def Error.message : Error → String
  | .notFound file => "file not found in ROM: " ++ file
  | .compile error => error.message
  | .staleMapping file => "the EXPS source of " ++ file ++ " does not match the compiled script"
  | .probe reason => "invalid script runtime data: " ++ reason
  | .hookRegistration address reason =>
    "could not hook address " ++ Text.address address ++ ": " ++ reason
  | .persistence text => "could not persist debugger state: " ++ text
  | .other text => text

/-- The error is in a script text. -/
def Error.isCompileError : Error → Bool
  | .compile _ => true
  | _ => false

/-- A failed step as an error: the step without its reason. -/
def Error.ofFailure (f : Failure) : Error := .other f.context

end SceneDebugger
