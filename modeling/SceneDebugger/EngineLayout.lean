import SceneDebugger.Failure

/-!
# SceneDebugger.EngineLayout — what is known of a build of the game

The addresses to hook, the registers that hold arguments there, and the names of opcodes and
variables.  They are read from a JSON file; what it leaves out has a default.
-/

namespace SceneDebugger

/-- The addresses of the engine's functions. -/
structure HookAddresses where
  /-- Where an opcode is about to run. -/
  opcode : List UInt32 := []
  scriptLoad : List UInt32 := []
  sceneLoad : List UInt32 := []
  talkLoad : List UInt32 := []
  groundStart : List UInt32 := []
  groundQuit : List UInt32 := []
  mapChange : List UInt32 := []
  /-- The printing functions with the format in register 0. -/
  printFirst : List UInt32 := []
  /-- The printing functions with the format in register 1. -/
  printSecond : List UInt32 := []
  /-- Where a printing opcode runs. -/
  scriptPrint : List UInt32 := []
  flagQuestionFirst : List UInt32 := []
  flagQuestionSecond : List UInt32 := []
  flagChangeFirst : List UInt32 := []
  flagChangeSecond : List UInt32 := []
  debugMode : List UInt32 := []
  /-- Where the address of the shared script is kept. -/
  sharedPointer : UInt32 := 0
  deriving DecidableEq, Repr

/-- The registers that hold arguments at the hooked addresses. -/
structure HookRegisters where
  /-- The record of the script that is about to run an opcode. -/
  script : UInt8 := 6
  scriptName : UInt8 := 1
  sceneHanger : UInt8 := 2
  sceneName : UInt8 := 3
  talkHanger : UInt8 := 0
  /-- The record of the script that prints. -/
  printScript : UInt8 := 4
  printText : UInt8 := 1
  /-- Where the game expects the answer about the debug mode. -/
  debugModeAnswer : UInt8 := 0
  deriving DecidableEq, Repr

/-- What is known of a build of the game. -/
structure EngineLayout where
  addresses : HookAddresses := {}
  registers : HookRegisters := {}
  /-- The names of opcodes, by id. -/
  opcodeNames : List String := []
  /-- The names of variables, by id. -/
  variableNames : List String := []
  deriving DecidableEq, Repr

namespace EngineLayout

/-- The name of an opcode. -/
def opcodeName? (l : EngineLayout) (id : UInt16) : Option String := l.opcodeNames[id.toNat]?

/-- The name of a variable. -/
def variableName? (l : EngineLayout) (id : UInt16) : Option String := l.variableNames[id.toNat]?

end EngineLayout

/-! ### In documents -/

/-- The fields of addresses. -/
def HookAddresses.fields : List String :=
  ["script_debug", "ssb_load", "ssx_load", "talk_load", "ground_start", "ground_quit",
    "ground_map_change", "printf_r0", "printf_r1", "script_print", "debug_flag_get_1",
    "debug_flag_get_2", "debug_flag_set_1", "debug_flag_set_2", "script_debug_mode",
    "unionall_pointer"]

/-- Addresses in a document. -/
def HookAddresses.toJson (a : HookAddresses) : Json :=
  .obj (fields.zip
    (([a.opcode, a.scriptLoad, a.sceneLoad, a.talkLoad, a.groundStart, a.groundQuit, a.mapChange,
        a.printFirst, a.printSecond, a.scriptPrint, a.flagQuestionFirst, a.flagQuestionSecond,
        a.flagChangeFirst, a.flagChangeSecond, a.debugMode].map (Json.ofList Json.word))
      ++ [.word a.sharedPointer]))

/-- The addresses that a document describes. -/
def HookAddresses.ofJson? (j : Json) : Option HookAddresses := do
  let list := Json.part? (Json.asList? Json.asWord?) []
  match ← j.parts? fields with
  | [opcode, scriptLoad, sceneLoad, talkLoad, groundStart, groundQuit, mapChange, printFirst,
      printSecond, scriptPrint, questionFirst, questionSecond, changeFirst, changeSecond,
      debugMode, shared] =>
    return {
      opcode := ← list opcode
      scriptLoad := ← list scriptLoad
      sceneLoad := ← list sceneLoad
      talkLoad := ← list talkLoad
      groundStart := ← list groundStart
      groundQuit := ← list groundQuit
      mapChange := ← list mapChange
      printFirst := ← list printFirst
      printSecond := ← list printSecond
      scriptPrint := ← list scriptPrint
      flagQuestionFirst := ← list questionFirst
      flagQuestionSecond := ← list questionSecond
      flagChangeFirst := ← list changeFirst
      flagChangeSecond := ← list changeSecond
      debugMode := ← list debugMode
      sharedPointer := ← Json.part? Json.asWord? 0 shared }
  | _ => none

/-- The fields of registers. -/
def HookRegisters.fields : List String :=
  ["script_runtime", "ssb_load_name", "ssx_load_hanger", "ssx_load_name", "talk_load_hanger",
    "script_print_runtime", "script_print_string", "debug_mode_result"]

/-- Registers in a document. -/
def HookRegisters.toJson (r : HookRegisters) : Json :=
  .obj (fields.zip
    ([r.script, r.scriptName, r.sceneHanger, r.sceneName, r.talkHanger, r.printScript,
      r.printText, r.debugModeAnswer].map fun n => .nat n.toNat))

/-- The registers that a document describes. -/
def HookRegisters.ofJson? (j : Json) : Option HookRegisters := do
  let default : HookRegisters := {}
  match ← j.parts? fields with
  | [script, scriptName, sceneHanger, sceneName, talkHanger, printScript, printText, answer] =>
    return {
      script := ← Json.part? Json.asByte? default.script script
      scriptName := ← Json.part? Json.asByte? default.scriptName scriptName
      sceneHanger := ← Json.part? Json.asByte? default.sceneHanger sceneHanger
      sceneName := ← Json.part? Json.asByte? default.sceneName sceneName
      talkHanger := ← Json.part? Json.asByte? default.talkHanger talkHanger
      printScript := ← Json.part? Json.asByte? default.printScript printScript
      printText := ← Json.part? Json.asByte? default.printText printText
      debugModeAnswer := ← Json.part? Json.asByte? default.debugModeAnswer answer }
  | _ => none

namespace EngineLayout

/-- A layout in a document. -/
def toJson (l : EngineLayout) : Json :=
  .obj [("addresses", l.addresses.toJson), ("registers", l.registers.toJson),
    ("opcodes", Json.ofStrings l.opcodeNames), ("game_variables", Json.ofStrings l.variableNames)]

/-- The layout that a document describes. -/
def ofJson? (j : Json) : Option EngineLayout := do
  match ← j.parts? ["addresses", "registers", "opcodes", "game_variables"] with
  | [addresses, registers, opcodeNames, variableNames] =>
    return {
      addresses := ← Json.needed? HookAddresses.ofJson? addresses
      registers := ← Json.part? HookRegisters.ofJson? {} registers
      opcodeNames := ← Json.part? (Json.asList? Json.asString?) [] opcodeNames
      variableNames := ← Json.part? (Json.asList? Json.asString?) [] variableNames }
  | _ => none

/-- The layout in a file. -/
def load (d : Disk) (p : Path) : Except Failure EngineLayout :=
  match d.read p with
  | .error fault => .error ⟨"read script engine layout " ++ p.text, fault.message⟩
  | .ok text =>
    match (Json.parse? text).bind ofJson? with
    | some l => .ok l
    | none => .error ⟨"parse script engine layout " ++ p.text, "not a layout"⟩

end EngineLayout

end SceneDebugger
