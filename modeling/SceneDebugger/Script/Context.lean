import SceneDebugger.Failure
import SceneDebugger.Machine.Memory

/-!
# SceneDebugger.Script.Context — the script that is about to run an opcode

The script engine keeps a record for every running script.  `ScriptContext.probe` reads the record
that the engine is about to run an opcode of, and the slot of the entity that the script is bound to.
Records that no running script can have are refused, each for the first reason in a fixed order.

* `ScriptContext.offset` is counted in words from the routine table, like the offsets of opcodes.
* The script shared by all scenes is told by its routine table; it is in hanger 0.
-/

namespace SceneDebugger

/-- The number of places that hold a script: the shared script, three for scenes, three for talks. -/
def hangerCount : Nat := 7

/-- The greatest place of a scene. -/
def lastSceneHanger : Nat := 3

/-- How far the places of talk scripts are behind the ones of scenes. -/
def talkHangerShift : Nat := 3

/-! ### Targets -/

/-- What a running script is bound to. -/
inductive TargetKind where
  | generic
  | actor
  | object
  | performer
  | coroutine
  deriving DecidableEq, Repr

namespace TargetKind

/-- The kind that the engine stores as a number. -/
def ofNumber? (n : UInt32) : Option TargetKind :=
  if n = 1 then some .generic
  else if n = 3 then some .actor
  else if n = 4 then some .object
  else if n = 5 then some .performer
  else if n = 9 then some .coroutine
  else none

/-- The kind has slots; the scripts of a scene and coroutines have none. -/
def hasSlot : TargetKind → Bool
  | .actor | .object | .performer => true
  | .generic | .coroutine => false

/-- The name of a kind. -/
def name : TargetKind → String
  | .generic => "GENERIC"
  | .actor => "ACTOR"
  | .object => "OBJECT"
  | .performer => "PERFORMER"
  | .coroutine => "COROUTINE"

end TargetKind

/-! ### Contexts -/

/-- Where a script goes on after the routine that it called. -/
structure CallFrame where
  routineTable : UInt32
  address : UInt32
  deriving DecidableEq, Repr

/-- The offset at which the caller goes on. -/
def CallFrame.offset (f : CallFrame) : UInt32 := (f.address - f.routineTable) / 2

/-- A script that is about to run an opcode. -/
structure ScriptContext where
  /-- The address of the engine's record. -/
  pointer : UInt32
  target : TargetKind
  targetAddress : UInt32
  slot : UInt16
  routineTable : UInt32
  opcodeTable : UInt32
  stringTable : UInt32
  /-- The address of the opcode. -/
  address : UInt32
  /-- The offset of the opcode. -/
  offset : UInt32
  /-- The script is the one shared by all scenes. -/
  isShared : Bool
  /-- The place that holds the script. -/
  hanger : Nat
  caller : Option CallFrame
  deriving DecidableEq, Repr

namespace ScriptContext

/-- The size of the part of the record that is read. -/
def recordSize : Nat := 0x34

/-- The address of the opcode at an offset of the script. -/
def addressOf (c : ScriptContext) (offset : UInt32) : UInt32 := c.routineTable + offset * 2

/-- One line that tells where a script is. -/
def describe (c : ScriptContext) : String :=
  c.target.name ++ "/" ++ Text.decimal c.slot.toNat ++ " hanger " ++ Text.decimal c.hanger
    ++ (if c.isShared then " [unionall]" else "") ++ " @ " ++ Text.decimal c.offset.toNat
    ++ " (" ++ Text.address c.address ++ ")"

/-! ### Reading the record -/

/-- The word in a record at an offset. -/
def wordIn (record : List UInt8) (offset : Nat) : UInt32 :=
  UInt32.ofNat (Memory.littleEndian ((record.drop offset).take 4))

/-- The signed halfword in a record at an offset. -/
def signedIn (record : List UInt8) (offset : Nat) : Int16 :=
  Int16.ofNat (Memory.littleEndian ((record.drop offset).take 2))

/-- The place of a script that is not shared. -/
def hanger? (hanger : Int16) : Except Error Nat :=
  if 0 ≤ hanger.toInt ∧ hanger.toInt < hangerCount then .ok hanger.toInt.toNat
  else .error (.probe ("hanger " ++ Text.signedDecimal hanger.toInt ++ " out of range"))

/-- The context that a record describes, all but the slot.  `sharedTable` is the routine table of the
shared script, 0 before it is loaded. -/
def ofRecord? (pointer : UInt32) (record : List UInt8) (sharedTable : UInt32) :
    Except Error ScriptContext :=
  let number := wordIn record 0x08
  let table := wordIn record 0x14
  let address := wordIn record 0x1c
  match TargetKind.ofNumber? number with
  | none => .error (.probe ("unknown script target type " ++ Text.decimal number.toNat))
  | some target =>
    if address < table then
      .error (.probe ("opcode " ++ Text.address address ++ " before routine table "
        ++ Text.address table))
    else
      let isShared := sharedTable != 0 && table == sharedTable
      match if isShared then .ok 0 else hanger? (signedIn record 0x10) with
      | .error e => .error e
      | .ok hanger =>
        .ok {
          pointer, target, isShared, hanger, address
          targetAddress := wordIn record 0x04
          slot := 0
          routineTable := table
          opcodeTable := wordIn record 0x18
          stringTable := wordIn record 0x20
          offset := (address - table) / 2
          caller := if wordIn record 0x2c = 0 then none
            else some { routineTable := wordIn record 0x24, address := wordIn record 0x2c } }

/-- The context has an entity with a slot to read. -/
def needsSlot (c : ScriptContext) : Bool := c.target.hasSlot && c.targetAddress != 0

/-- The context that the engine's record at an address describes. -/
def probe (m : Memory) (pointer sharedTable : UInt32) : Except Error ScriptContext :=
  if pointer = 0 then .error (.probe "null runtime pointer")
  else
    match m.bytes? pointer recordSize with
    | .error e => .error (.probe ("read " ++ Text.address pointer ++ ": " ++ e))
    | .ok record =>
      match ofRecord? pointer record sharedTable with
      | .error e => .error e
      | .ok c =>
        if c.needsSlot then
          match m.halfword? c.targetAddress with
          | .error e => .error (.probe ("read target " ++ Text.address c.targetAddress ++ ": " ++ e))
          | .ok slot => .ok { c with slot }
        else .ok c

end ScriptContext

end SceneDebugger
