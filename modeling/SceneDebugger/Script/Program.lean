import SceneDebugger.Json.Decode

/-!
# SceneDebugger.Script.Program — compiled scripts

A `Program` is a compiled script: routines, opcodes and strings.  Opcodes stand in the order of their
offsets, so they are looked up by bisection (`Program.indexOf?`); in a table that is out of order the
search still answers only with an opcode of the offset asked for.

* `Program.opcodeAt?`: the opcode at an offset.
* `Program.nextInRoutine?`: the opcode after it, unless that one starts a routine.
-/

namespace SceneDebugger

/-- What a routine is bound to. -/
inductive RoutineKind where
  | generic
  | actor
  | object
  | performer
  | coroutine
  deriving DecidableEq, Repr, Inhabited

/-- A routine of a script. -/
structure Routine where
  kind : RoutineKind
  /-- The entity it is bound to, -1 for none. -/
  linkedTo : Int16
  offset : UInt32
  deriving DecidableEq, Repr

/-- An opcode of a script. -/
structure Opcode where
  /-- The offset in 16-bit words from the start of the routine table. -/
  offset : UInt32
  id : UInt16
  name : String
  params : List Int32 := []
  deriving DecidableEq, Repr

/-- A compiled script. -/
structure Program where
  routines : List Routine := []
  opcodes : Array Opcode := #[]
  strings : Std.ExtTreeMap String (List String) := ∅
  deriving DecidableEq

instance : Inhabited Program := ⟨{}⟩

/-! ### Lookup -/

namespace Program

/-- The index in `[base, base + size)` at which a bisection for an offset ends: the last one that
the search found not to be beyond the offset. -/
def bisect (opcodes : Array Opcode) (offset : UInt32) (base size : Nat) : Nat :=
  if 1 < size then
    let half := size / 2
    let base := if (opcodes[base + half]?.any fun op => offset < op.offset) then base
      else base + half
    bisect opcodes offset base (size - half)
  else base
termination_by size
decreasing_by omega

/-- The index of the opcode at an offset. -/
def indexOf? (p : Program) (offset : UInt32) : Option Nat :=
  let i := bisect p.opcodes offset 0 p.opcodes.size
  if p.opcodes[i]?.any fun op => op.offset == offset then some i else none

/-- The opcode at an offset. -/
def opcodeAt? (p : Program) (offset : UInt32) : Option Opcode :=
  (p.indexOf? offset).bind fun i => p.opcodes[i]?

/-- The opcode after the one at an offset, in the same routine. -/
def nextInRoutine? (p : Program) (offset : UInt32) : Option Opcode :=
  (p.indexOf? offset).bind fun i =>
    p.opcodes[i + 1]?.filter fun next => !p.routines.any fun r => r.offset == next.offset

end Program

/-! ### In documents -/

/-- The name of a routine kind. -/
def RoutineKind.name : RoutineKind → String
  | .generic => "Generic"
  | .actor => "Actor"
  | .object => "Object"
  | .performer => "Performer"
  | .coroutine => "Coroutine"

/-- Every routine kind. -/
def RoutineKind.all : List RoutineKind := [.generic, .actor, .object, .performer, .coroutine]

/-- The routine kind of a name. -/
def RoutineKind.ofName? (name : String) : Option RoutineKind :=
  RoutineKind.all.find? fun k => k.name == name

/-- The routine kind in a document: its name, or an object with the name as its one key. -/
def RoutineKind.ofJson? : Json → Option RoutineKind
  | .str name => RoutineKind.ofName? name
  | .obj [(name, .null)] => RoutineKind.ofName? name
  | _ => none

/-- A routine in a document. -/
def Routine.toJson (r : Routine) : Json :=
  .obj [("kind", .str r.kind.name), ("linked_to", .int r.linkedTo.toInt),
    ("opcode_offset", .word r.offset)]

/-- The routine that a document describes. -/
def Routine.ofJson? (j : Json) : Option Routine := do
  match ← j.parts? ["kind", "linked_to", "opcode_offset"] with
  | [kind, linkedTo, offset] =>
    return {
      kind := ← Json.needed? RoutineKind.ofJson? kind
      linkedTo := Int16.ofInt (← Json.needed? (Json.asIntIn? (-32768) 32767) linkedTo)
      offset := ← Json.needed? Json.asWord? offset }
  | _ => none

/-- An opcode in a document. -/
def Opcode.toJson (op : Opcode) : Json :=
  .obj [("offset", .word op.offset), ("id", .nat op.id.toNat), ("name", .str op.name),
    ("params", Json.ofList (fun i : Int32 => .int i.toInt) op.params)]

/-- A 32-bit signed parameter. -/
def Opcode.param? (j : Json) : Option Int32 :=
  (j.asIntIn? (-2147483648) 2147483647).map Int32.ofInt

/-- The opcode that a document describes. -/
def Opcode.ofJson? (j : Json) : Option Opcode := do
  match ← j.parts? ["offset", "id", "name", "params"] with
  | [offset, id, name, params] =>
    return {
      offset := ← Json.needed? Json.asWord? offset
      id := ← Json.needed? Json.asWord16? id
      name := ← Json.needed? Json.asString? name
      params := ← Json.part? (Json.asList? Opcode.param?) [] params }
  | _ => none

/-- A script in a document. -/
def Program.toJson (p : Program) : Json :=
  .obj [("routines", Json.ofList Routine.toJson p.routines),
    ("opcodes", Json.ofList Opcode.toJson p.opcodes.toList),
    ("strings", .ofMap id Json.ofStrings p.strings)]

/-- The script that a document describes. -/
def Program.ofJson? (j : Json) : Option Program := do
  match ← j.parts? ["routines", "opcodes", "strings"] with
  | [routines, opcodes, strings] =>
    return {
      routines := ← Json.needed? (Json.asList? Routine.ofJson?) routines
      opcodes := (← Json.needed? (Json.asList? Opcode.ofJson?) opcodes).toArray
      strings := ← Json.part? (Json.asMap? some (Json.asList? Json.asString?)) ∅ strings }
  | _ => none

end SceneDebugger
