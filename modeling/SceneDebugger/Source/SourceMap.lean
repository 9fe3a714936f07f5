import SceneDebugger.Files.Path

/-!
# SceneDebugger.Source.SourceMap — where the opcodes of a script come from

A `SourceMap` gives opcode offsets their position in the text that was compiled.  An opcode inlined
from a shared text file has its position in that file; the first opcode of an inlined call also says
where the call stands and where execution goes on after it (`Entry.callSite?`).

* `SourceMap.offsetsAtLine`: the opcodes that stand for a line of the script's own text.  An inlined
  opcode does not, except the first one of a call written there.
* `SourceMap.offsetsAtInlinedLine`: the opcodes that a line of an inlined file produced.
* `SourceMap.carry`: offsets taken to another compilation of the text, by their line.
-/

namespace SceneDebugger

/-- Where an inlined file is called; the script's own text if no file is given. -/
structure CallSite where
  file : Option Path := none
  line : UInt32
  column : UInt32
  deriving DecidableEq

/-- What an entry says about an opcode inlined from another file. -/
structure Inlining where
  /-- The file that the opcode is written in. -/
  path : Option Path := none
  /-- Where the call stands. -/
  calledIn : Option CallSite := none
  /-- The offset at which execution goes on after the call. -/
  returnOffset : Option UInt32 := none
  /-- The arguments of the call. -/
  parameters : Std.ExtTreeMap String String := ∅
  deriving DecidableEq

/-- The position of an opcode. -/
structure Entry where
  line : UInt32
  column : UInt32
  inlining : Option Inlining := none
  deriving DecidableEq

/-- The positions of opcodes, by offset. -/
structure SourceMap where
  entries : Std.ExtTreeMap UInt32 Entry := ∅
  deriving DecidableEq

/-! ### Entries -/

namespace Entry

/-- The inlined file that the opcode is written in. -/
def path? (e : Entry) : Option Path := e.inlining.bind Inlining.path

/-- The call that the opcode is the first one of.  Only the first opcode of an inlined call has both
the call and the offset after it. -/
def callSite? (e : Entry) : Option CallSite :=
  e.inlining.bind fun i => if i.returnOffset.isSome then i.calledIn else none

/-- The line of the script's own text with the call that the opcode is the first one of. -/
def ownCallLine? (e : Entry) : Option UInt32 :=
  e.callSite?.bind fun site => if site.file.isNone then some site.line else none

/-- The opcode stands for a line of the script's own text. -/
def standsFor (line : UInt32) (e : Entry) : Bool :=
  match e.ownCallLine? with
  | some callLine => callLine == line
  | none => e.line == line && e.path?.isNone

/-- The opcode is written on a line of an inlined file. -/
def writtenOn (path : Path) (line : UInt32) (e : Entry) : Bool :=
  e.line == line && e.path?.any path.same

end Entry

/-! ### Maps -/

namespace SourceMap

/-- The position of an opcode. -/
def at? (m : SourceMap) (offset : UInt32) : Option Entry := m.entries[offset]?

/-- The map with the position of a further opcode. -/
def insert (m : SourceMap) (offset : UInt32) (e : Entry) : SourceMap :=
  ⟨m.entries.insert offset e⟩

/-- The number of opcodes. -/
def size (m : SourceMap) : Nat := m.entries.size

/-- The positions in the order of offsets. -/
def toList (m : SourceMap) : List (UInt32 × Entry) := m.entries.toList

/-- The offsets, in order, of the entries that a test accepts. -/
def offsetsWhere (m : SourceMap) (test : Entry → Bool) : List UInt32 :=
  (m.toList.filter fun (_, e) => test e).map Prod.fst

/-- The opcodes that stand for a line of the script's own text. -/
def offsetsAtLine (m : SourceMap) (line : UInt32) : List UInt32 :=
  m.offsetsWhere (Entry.standsFor line)

/-- The opcodes written on a line of an inlined file. -/
def offsetsAtInlinedLine (m : SourceMap) (path : Path) (line : UInt32) : List UInt32 :=
  m.offsetsWhere (Entry.writtenOn path line)

/-- The inlined files. -/
def inlinedFiles (m : SourceMap) : PathSet :=
  PathSet.collect (m.toList.filterMap fun (_, e) => e.path?)

/-- The opcodes of a map that an entry of another map leads to: those of the call it is the first
opcode of, else those of its line in the file it is written in. -/
def counterparts (m : SourceMap) (e : Entry) : List UInt32 :=
  match e.ownCallLine?, e.path? with
  | some callLine, _ => m.offsetsAtLine callLine
  | none, some path => m.offsetsAtInlinedLine path e.line
  | none, none => m.offsetsAtLine e.line

/-- The offset in another map of the first opcode on the line that an offset stands for here. -/
def carryOne? (m other : SourceMap) (offset : UInt32) : Option UInt32 :=
  (m.at? offset).bind fun e => (other.counterparts e).head?

/-- Offsets taken to another map; those whose line has no opcode there are dropped. -/
def carry (m other : SourceMap) (offsets : Std.ExtTreeSet UInt32) : Std.ExtTreeSet UInt32 :=
  Std.ExtTreeSet.ofList (offsets.toList.filterMap (m.carryOne? other))

end SourceMap

/-! ### Equality up to the spelling of paths -/

/-- Two optional paths name the same place, or both are absent. -/
def Path.sameOption : Option Path → Option Path → Bool
  | none, none => true
  | some p, some q => p.same q
  | _, _ => false

/-- Two calls agree up to the spelling of their file. -/
def CallSite.same (s t : CallSite) : Bool :=
  Path.sameOption s.file t.file && s.line == t.line && s.column == t.column

/-- Two inlinings agree up to the spelling of paths. -/
def Inlining.same (i j : Inlining) : Bool :=
  Path.sameOption i.path j.path
    && (match i.calledIn, j.calledIn with
      | none, none => true
      | some s, some t => s.same t
      | _, _ => false)
    && i.returnOffset == j.returnOffset && i.parameters == j.parameters

/-- Two entries agree up to the spelling of paths. -/
def Entry.same (e f : Entry) : Bool :=
  e.line == f.line && e.column == f.column
    && match e.inlining, f.inlining with
      | none, none => true
      | some i, some j => i.same j
      | _, _ => false

/-- Two maps agree up to the spelling of paths. -/
def SourceMap.same (m n : SourceMap) : Bool :=
  m.size == n.size
    && (m.toList.zip n.toList).all fun ((o, e), (p, f)) => o == p && e.same f

end SceneDebugger
