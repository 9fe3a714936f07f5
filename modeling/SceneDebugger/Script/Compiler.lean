import SceneDebugger.Files.Disk
import SceneDebugger.Script.Program
import SceneDebugger.Source.SourceMap
import SceneDebugger.Text.Digits

/-!
# SceneDebugger.Script.Compiler — what the debugger expects of a compiler

A script has two texts: the SSBS text, close to the opcodes, and the EXPS text, which can call shared
text files.  A `Compiler` turns both into a `Program` with the positions of its opcodes, turns
programs back to text, and knows the byte form that the game loads.  The debugger is written against
this record alone.
-/

namespace SceneDebugger

/-- The two texts of a script. -/
inductive View where
  | ssbs
  | exps
  deriving DecidableEq, Repr

/-! ### Failures -/

/-- Why a text does not compile. -/
inductive CompileErrorKind where
  /-- The text is malformed. -/
  | parse
  /-- An opcode, a constant or a called file is unknown. -/
  | semantic
  deriving DecidableEq, Repr

/-- An error in a script text, with its position. -/
structure CompileError where
  kind : CompileErrorKind
  text : String
  line : UInt32
  column : UInt32
  deriving DecidableEq, Repr

/-- The words for an error in a script text. -/
def CompileError.message (e : CompileError) : String :=
  let kind := match e.kind with
    | .parse => "parse error"
    | .semantic => "semantic error"
  kind ++ " at " ++ Text.decimal e.line.toNat ++ ":" ++ Text.decimal e.column.toNat ++ ": " ++ e.text

/-! ### The compiler -/

/-- What compiling a text yields. -/
structure Compilation where
  program : Program := {}
  sourceMap : SourceMap := {}
  /-- The files called, directly or by another called file. -/
  included : PathSet := ∅

/-- A compiler for scripts. -/
structure Compiler where
  /-- The program that the game's bytes hold. -/
  decode : ByteArray → Except String Program
  /-- The bytes that the game loads. -/
  encode : Program → Except String ByteArray
  /-- The SSBS text compiled. -/
  compileSsbs : String → Except CompileError Compilation
  /-- The EXPS text compiled, with called files searched in the given directories. -/
  compileExps : Disk → List Path → String → Except CompileError Compilation
  /-- The program as SSBS text. -/
  decompileSsbs : Program → Except String (String × SourceMap)
  /-- The program as EXPS text. -/
  decompileExps : Program → Except String (String × SourceMap)

end SceneDebugger
