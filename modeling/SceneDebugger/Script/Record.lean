import SceneDebugger.Script.Context

/-!
# SceneDebugger.Script.Record — the engine's record of a running script

`ScriptRecord` has the parts of the record that the debugger reads, and `ScriptRecord.bytes` their
places in it, least byte first; what lies between them is zero.  It is what `ScriptContext.probe`
reads, written down.
-/

namespace SceneDebugger

/-- The engine's record of a running script. -/
structure ScriptRecord where
  /-- The address of the entity that the script is bound to. -/
  target : UInt32 := 0
  /-- The number of the kind of the target. -/
  kind : UInt32 := 0
  hanger : Int16 := 0
  routineTable : UInt32 := 0
  opcodeTable : UInt32 := 0
  address : UInt32 := 0
  stringTable : UInt32 := 0
  callerTable : UInt32 := 0
  /-- The address at which the caller goes on, 0 without a caller. -/
  callerAddress : UInt32 := 0
  deriving DecidableEq, Repr

/-- The bytes of a record. -/
def ScriptRecord.bytes (r : ScriptRecord) : ByteArray :=
  Memory.wordBytes 0 ++ Memory.wordBytes r.target ++ Memory.wordBytes r.kind ++ Memory.wordBytes 0
    ++ Memory.wordBytes r.hanger.toUInt16.toUInt32 ++ Memory.wordBytes r.routineTable
    ++ Memory.wordBytes r.opcodeTable ++ Memory.wordBytes r.address
    ++ Memory.wordBytes r.stringTable ++ Memory.wordBytes r.callerTable ++ Memory.wordBytes 0
    ++ Memory.wordBytes r.callerAddress ++ Memory.wordBytes 0

end SceneDebugger
