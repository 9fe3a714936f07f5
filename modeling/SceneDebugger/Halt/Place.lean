import SceneDebugger.Script.Compiler
import SceneDebugger.Script.Context

/-!
# SceneDebugger.Halt.Place — where a halt is shown, and how it goes on

A halted script is shown in one of its texts, or in a shared file that the opcode comes from.  The
first opcode of an inlined call is shown at the call, until the user descends into the called file
(`HaltPlace.descend`); that moves the view only, not the script.

* `HaltPlace.of`: the place of an opcode under the source map of the running bytes.
* `HaltPlace.resolve`: stepping over a call that is shown means to run to the offset behind it.
-/

namespace SceneDebugger

/-- How the user lets a halted script go on. -/
inductive Decision where
  /-- Without any further halt in this tick. -/
  | failHard
  | resume
  /-- Up to the next opcode of any script. -/
  | stepNext
  | stepInto
  | stepOver
  | stepOut
  /-- Up to an opcode at an address, run for the same target. -/
  | stepManual (address : UInt32)
  deriving DecidableEq, Repr

/-- Where a halt is shown. -/
structure HaltPlace where
  /-- The script file. -/
  file : String
  /-- The file that is shown: the script, or the path of a shared file. -/
  shown : String
  /-- The text whose map gave the position. -/
  view : Option View := none
  offset : UInt32
  /-- Line and column in the shown file, if the opcode has a position. -/
  position : Option (UInt32 × UInt32) := none
  /-- The place is the call that the opcode is the first one of. -/
  onCall : Bool := false
  entry : Option Entry := none
  deriving DecidableEq

namespace HaltPlace

/-- The place of an opcode with an entry. -/
def withEntry (p : HaltPlace) (e : Entry) : HaltPlace :=
  match e.callSite? with
  | some site =>
    { p with
      entry := some e
      onCall := true
      shown := (site.file.map Path.text).getD p.shown
      position := some (site.line, site.column) }
  | none =>
    { p with
      entry := some e
      shown := (e.path?.map Path.text).getD p.shown
      position := some (e.line, e.column) }

/-- The place of an opcode under a source map. -/
def of (file : String) (offset : UInt32) (map : Option (View × SourceMap)) : HaltPlace :=
  let plain : HaltPlace := { file, shown := file, view := map.map Prod.fst, offset }
  match map.bind fun (_, m) => m.at? offset with
  | none => plain
  | some e => plain.withEntry e

/-- The place in the file called at a shown call, if a call is shown. -/
def descend? (p : HaltPlace) : Option HaltPlace :=
  if p.onCall then
    p.entry.bind fun e => e.path?.map fun path =>
      { p with shown := path.text, position := some (e.line, e.column), onCall := false }
  else none

/-- The offset behind the shown call. -/
def returnOffset? (p : HaltPlace) : Option UInt32 :=
  p.entry.bind fun e => e.inlining.bind Inlining.returnOffset

/-- A decision in the terms of the script: over a shown call means up to the offset behind it. -/
def resolve (p : HaltPlace) (c : ScriptContext) (d : Decision) : Decision :=
  if d = .stepOver ∧ p.onCall then
    match p.returnOffset? with
    | some offset => .stepManual (c.addressOf offset)
    | none => d
  else d

end HaltPlace

end SceneDebugger
