import SceneDebugger.Output.ScriptPrint
import SceneDebugger.Session.Halting

/-!
# SceneDebugger.Session.Hooks — the hooks of a session and their handlers

The hook on opcodes is required, the other hooks come in features.  A feature that cannot be hooked
as a whole is reported and left out (`Session.enable`).

* `Session.handle`: what a handler does.
* `Session.runHandlers`: handlers run one after the other, until one of them halts a script.
* `Session.resume`: the current halt is released, and the emulator goes on where it waited.
* `Session.disable`: an outstanding halt is failed and every hook dropped.
-/

namespace SceneDebugger

/-! ### What is hooked -/

namespace HookAddresses

/-- A handler at every address of a list. -/
def each (addresses : List UInt32) (handler : Handler) : List HookRequest :=
  addresses.map fun a => { trigger := .execution a, handler }

/-- The hooks on opcodes. -/
def opcodeHooks (a : HookAddresses) : List HookRequest := each a.opcode .opcode

/-- The hook on the address of the shared script, if the layout has that. -/
def sharedHooks (a : HookAddresses) : List HookRequest :=
  if a.sharedPointer = 0 then []
  else [{ trigger := .write a.sharedPointer 4, handler := .sharedScript }]

/-- The hooks on the ground engine. -/
def groundHooks (a : HookAddresses) : List HookRequest :=
  each a.scriptLoad .scriptLoad ++ each a.sceneLoad .sceneLoad ++ each a.talkLoad .talkLoad
    ++ each a.groundStart .groundStart ++ each a.groundQuit .groundQuit
    ++ each a.mapChange .mapChange

/-- The hooks on printing. -/
def printHooks (a : HookAddresses) : List HookRequest :=
  each a.printFirst (.print 0) ++ each a.printSecond (.print 1) ++ each a.scriptPrint .scriptPrint

/-- Where the game asks for the flags of a bank. -/
def flagQuestion (a : HookAddresses) : FlagBank → List UInt32
  | .first => a.flagQuestionFirst
  | .second => a.flagQuestionSecond

/-- Where the game sets the flags of a bank. -/
def flagChange (a : HookAddresses) : FlagBank → List UInt32
  | .first => a.flagChangeFirst
  | .second => a.flagChangeSecond

/-- The hooks on a bank of flags.  An answer is given one instruction after the question. -/
def bankHooks (a : HookAddresses) (bank : FlagBank) : List HookRequest :=
  each (a.flagQuestion bank) (.flagQuestion bank)
    ++ each ((a.flagQuestion bank).map (· + 4)) (.flagAnswer bank)
    ++ each (a.flagChange bank) (.flagChange bank)

/-- The hooks on flags and the debug mode. -/
def flagHooks (a : HookAddresses) : List HookRequest :=
  a.bankHooks .first ++ a.bankHooks .second ++ each a.debugMode .debugMode

/-- The features with their names and hooks, in the order of registration. -/
def features (a : HookAddresses) : List (String × List HookRequest) :=
  [("unionall watcher", a.sharedHooks), ("ground engine tracking", a.groundHooks),
    ("debug output", a.printHooks), ("debug flags", a.flagHooks)]

end HookAddresses

/-- The machine with several hooks, `done` of which are registered already.  If one is refused, all of
them are dropped again. -/
def Machine.hookAll : Machine → List HookRequest → List Nat → Except Error (List Nat) × Machine
  | m, [], done => (.ok done, m)
  | m, request :: rest, done =>
    match m.hook request with
    | .error reason =>
      (.error (.hookRegistration request.trigger.address reason), m.unhook done)
    | .ok (id, m) => hookAll m rest (done ++ [id])

namespace Session

/-! ### Registering -/

/-- The session with the hooks of a feature, or with a report that it is left out. -/
def addFeature (s : Session) (name : String) (requests : List HookRequest) : Session :=
  match s.machine.hookAll requests [] with
  | (.ok ids, machine) => { s with machine, hooks := s.hooks ++ ids }
  | (.error e, machine) =>
    let host := s.workspace.host.complain ("Disabling " ++ name ++ ": " ++ e.message)
    { s with
      machine
      workspace := { s.workspace with
        host := host.send (.warning (name ++ " unavailable: " ++ e.message)) } }

/-- The session with every hook registered. -/
def enable (s : Session) : Except Error Unit × Session :=
  if s.isDebugging then (.ok (), s)
  else
    let addresses := s.layout.addresses
    match s.machine.hookAll addresses.opcodeHooks [] with
    | (.error e, machine) => (.error e, { s with machine })
    | (.ok ids, machine) =>
      let s := { s with machine, hooks := ids, switches := s.switches.forgetQuestions }
      let s := if addresses.sharedPointer = 0 then s else s.refreshSharedTable
      (.ok (), addresses.features.foldl (fun s (name, requests) => s.addFeature name requests) s)

/-! ### Handlers -/

/-- The game loads a script whose name is in a register. -/
def onScriptLoad (s : Session) : Session :=
  match s.machine.textIn? s.layout.registers.scriptName with
  | .error _ => s
  | .ok name => s.onGround fun g w => g.loadScript w name

/-- The game loads a scene. -/
def onSceneLoad (s : Session) : Session :=
  match s.machine.textIn? s.layout.registers.sceneName with
  | .error _ => s
  | .ok name =>
    let hanger := (s.machine.register s.layout.registers.sceneHanger).toNat
    s.onGround fun g w => g.loadScene w hanger name

/-- The game loads a talk script. -/
def onTalkLoad (s : Session) : Session :=
  let hanger := (s.machine.register s.layout.registers.talkHanger).toNat
  s.onGround fun g w => g.loadTalk w hanger

/-- A printing function of the game is called. -/
def onPrint (s : Session) (r : UInt8) : Session :=
  match s.machine.printed? r with
  | .error _ => s
  | .ok text => s.send (.printed .functions text)

/-- A script runs a printing opcode. -/
def onScriptPrint (s : Session) : Session :=
  let registers := s.layout.registers
  match ScriptContext.probe s.machine.memory (s.machine.register registers.printScript)
      s.sharedTable with
  | .error _ => s
  | .ok c =>
    match c.printed? s.machine s.layout (s.machine.register registers.printText) with
    | .ok (some text) => s.send (.printed .opcodes text)
    | _ => s

/-- The game asks for a flag. -/
def onFlagQuestion (s : Session) (bank : FlagBank) : Session :=
  { s with switches := s.switches.ask bank (s.machine.register 0) }

/-- The game gets the answer about the flag that it asked for. -/
def onFlagAnswer (s : Session) (bank : FlagBank) : Session :=
  s.setRegister 0 (if s.switches.isOn bank (s.switches.asked bank) then 1 else 0)

/-- The game turns a flag on or off. -/
def onFlagChange (s : Session) (bank : FlagBank) : Session :=
  let flag := s.machine.register 0
  let value := s.machine.register 1 != 0
  { s with switches := s.switches.turn bank flag value }.send (.flagChanged bank flag value)

/-- The game asks whether the debug mode is on. -/
def onDebugMode (s : Session) : Session :=
  if s.switches.debugMode then s.setRegister s.layout.registers.debugModeAnswer 1 else s

/-- What a handler does. -/
def handle (s : Session) : Handler → Session
  | .opcode => s.onOpcode
  | .sharedScript => s.refreshSharedTable
  | .scriptLoad => s.onScriptLoad
  | .sceneLoad => s.onSceneLoad
  | .talkLoad => s.onTalkLoad
  | .groundStart => s.onGround Ground.start
  | .groundQuit => s.onGround Ground.quit
  | .mapChange => s.onGround Ground.changeMap
  | .print r => s.onPrint r
  | .scriptPrint => s.onScriptPrint
  | .flagQuestion bank => s.onFlagQuestion bank
  | .flagAnswer bank => s.onFlagAnswer bank
  | .flagChange bank => s.onFlagChange bank
  | .debugMode => s.onDebugMode

/-- Handlers run one after the other.  If one halts a script, the rest of them waits. -/
def runHandlers : List Handler → Session → Session
  | [], s => { s with waiting := [] }
  | h :: rest, s =>
    let s := s.handle h
    if s.controller.isStopped then { s with waiting := rest } else runHandlers rest s

/-- Execution reaches an address; with the number of hooks there. -/
def reach (s : Session) (address : UInt32) : Nat × Session :=
  let handlers := s.machine.handlersAt address
  (handlers.length, runHandlers handlers s)

/-- A byte at an address was written; with the number of hooks that ran. -/
def written (s : Session) (address : UInt32) : Nat × Session :=
  let handlers := s.machine.handlersOfWrite address
  (handlers.length, handlers.foldl handle s)

/-! ### Going on after a halt -/

/-- The emulator's side goes on if the current halt was released; with what the watchers of the halt
learn. -/
def goOn (s : Session) : List (Nat × Decision) × Session :=
  match s.wakeUp? with
  | none => ([], s)
  | some (d, watchers, s) => (watchers.map fun n => (n, d), runHandlers s.waiting s)

/-- The current halt released and the emulator gone on; whether there was a halt to release, and what
its watchers learn. -/
def resume (s : Session) (d : Decision) : Bool × List (Nat × Decision) × Session :=
  let (counted, s) := s.release d
  let (learned, s) := s.goOn
  (counted, learned, s)

/-! ### Dropping the hooks -/

/-- An outstanding halt is failed. -/
def failHalt (s : Session) : Session :=
  match s.controller.halt with
  | none => s
  | some halt =>
    let s := { s with
      workspace := s.workspace.warn ("Failing outstanding halt at " ++ halt.describe) }
    (s.release .failHard).2

/-- Every hook dropped. -/
def dropHooks (s : Session) : Session :=
  { s with machine := s.machine.unhook s.hooks, hooks := [] }

/-- An outstanding halt failed, every hook dropped, and the emulator gone on; with what the watchers
of the halt learn. -/
def disable (s : Session) : List (Nat × Decision) × Session := s.failHalt.dropHooks.goOn

end Session

end SceneDebugger
