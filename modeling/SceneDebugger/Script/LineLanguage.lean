import SceneDebugger.Script.Compiler

/-!
# SceneDebugger.Script.LineLanguage — a line-based script language

The language in which the debugger's own scripts are written: one item a line.  `routine KIND N`
starts a routine, `@N` goes on at opcode offset `N`, `call NAME key=value …` puts the lines of a
shared file in place of the call (EXPS texts only), any other line is an opcode with its parameters,
two words long.  Blank lines and lines that start with `//` do not count.

* `LineLanguage.compile` assembles a text, line by line (`Draft`).
* `LineLanguage.decompile` writes a program down; its first line tells the EXPS text apart.
* `LineLanguage.compiler` is the language as a `Compiler`.  Programs are stored as compact JSON.
-/

namespace SceneDebugger.LineLanguage

/-- The names of the opcodes; the id of an opcode is its place. -/
def opcodeNames : List String :=
  ["Null", "Wait", "Move", "End", "debug_Print", "debug_PrintFlag", "PrintScenario"]

/-- How deep calls may stand in called files, the outermost call included. -/
def callDepth : Nat := 5

/-! ### Lines -/

/-- A line that counts: its position and its words. -/
structure Line where
  number : UInt32
  column : UInt32
  word : String
  arguments : List String

/-- A character between words. -/
def isBlank (c : Char) : Bool := c == ' ' || c == '\t' || c == '\r'

/-- The lines of a text, one more than there are line ends. -/
def split : List Char → List (List Char)
  | [] => [[]]
  | c :: rest =>
    if c = '\n' then [] :: split rest
    else
      match split rest with
      | [] => [[c]]
      | l :: ls => (c :: l) :: ls

/-- The words of a line. -/
def words : List Char → List (List Char)
  | [] => []
  | c :: rest =>
    if isBlank c then words rest
    else
      match rest with
      | [] => [[c]]
      | d :: _ =>
        if isBlank d then [c] :: words rest
        else
          match words rest with
          | [] => [[c]]
          | w :: ws => (c :: w) :: ws

/-- A line with its number, if it counts.  Its column is the number of blanks in front. -/
def line? (number : Nat) (cs : List Char) : Option Line :=
  let blanks := cs.takeWhile isBlank
  match cs.drop blanks.length with
  | '/' :: '/' :: _ => none
  | shown =>
    match words shown with
    | [] => none
    | w :: ws =>
      some {
        number := UInt32.ofNat number
        column := UInt32.ofNat blanks.length
        word := String.ofList w
        arguments := ws.map String.ofList }

/-- The lines of a text that count. -/
def lines (text : String) : List Line :=
  (split text.toList).zipIdx.filterMap fun (cs, i) => line? (i + 1) cs

/-- A malformed line. -/
def Line.malformed (l : Line) (text : String) : CompileError :=
  { kind := .parse, text, line := l.number, column := l.column }

/-- A line that asks for something unknown. -/
def Line.unknown (l : Line) (text : String) : CompileError :=
  { kind := .semantic, text, line := l.number, column := l.column }

/-! ### Assembling -/

/-- What the lines so far have assembled. -/
structure Draft extends Compilation where
  /-- The offset of the next opcode. -/
  offset : UInt32 := 0

/-- A parameter of an opcode. -/
def parameter (l : Line) (word : String) : Except CompileError Int32 :=
  match Text.intIn? (-2147483648) 2147483647 word.toList with
  | some i => .ok (Int32.ofInt i)
  | none => .error (l.malformed ("bad parameter " ++ word))

/-- The opcode of a line. -/
def opcode (l : Line) (offset : UInt32) : Except CompileError Opcode :=
  match opcodeNames.idxOf? l.word with
  | none => .error (l.unknown ("unknown opcode " ++ l.word))
  | some id => do
    return { offset, id := UInt16.ofNat id, name := l.word, params := ← l.arguments.mapM (parameter l) }

/-- The draft with the opcode of a line. -/
def Draft.emit (d : Draft) (l : Line) (inlining : Option Inlining) : Except CompileError Draft := do
  let op ← opcode l d.offset
  return { d with
    program := { d.program with opcodes := d.program.opcodes.push op }
    sourceMap := d.sourceMap.insert d.offset { line := l.number, column := l.column, inlining }
    offset := d.offset + 2 }

/-- The draft with the routine that a line starts. -/
def Draft.startRoutine (d : Draft) (l : Line) : Except CompileError Draft :=
  match l.arguments.head?.bind RoutineKind.ofName? with
  | none => .error (l.malformed "bad routine kind")
  | some kind =>
    let linkedTo := (l.arguments[1]?.bind fun w => Text.intIn? (-32768) 32767 w.toList).getD (-1)
    let routine := { kind, linkedTo := Int16.ofInt linkedTo, offset := d.offset }
    .ok { d with program := { d.program with routines := d.program.routines ++ [routine] } }

/-- The draft that goes on at the offset of a line. -/
def Draft.moveTo (d : Draft) (l : Line) : Except CompileError Draft :=
  match Text.natBelow? UInt32.size (l.word.toList.drop 1) with
  | none => .error (l.malformed "bad offset")
  | some n =>
    if UInt32.ofNat n < d.offset then .error (l.malformed "offset goes back")
    else .ok { d with offset := UInt32.ofNat n }

/-- The arguments of a call: its words with an equals sign, split at the first one. -/
def callParameters (l : Line) : Std.ExtTreeMap String String :=
  Std.ExtTreeMap.ofList (l.arguments.filterMap fun w =>
    match w.toList.dropWhile (· ≠ '=') with
    | [] => none
    | _ :: value => some (String.ofList (w.toList.takeWhile (· ≠ '=')), String.ofList value))

/-- The draft with the call noted at the opcode that it starts with. -/
def Draft.noteCall (d : Draft) (first : UInt32) (site : CallSite) : Draft :=
  match d.sourceMap.at? first with
  | none => d
  | some e =>
    let inlining := (e.inlining.getD {})
    let inlining := { inlining with calledIn := some site, returnOffset := some d.offset }
    { d with sourceMap := d.sourceMap.insert first { e with inlining := some inlining } }

/-- The file that a call names, in the first directory that has it. -/
def calledFile? (disk : Disk) (directories : List Path) (l : Line) : Option Path :=
  let name := l.arguments.headD "" ++ ".exps"
  (directories.map fun directory => directory.child name).find? disk.isFile

/-- The draft with the lines of a called file.  `room` bounds how deep calls may go on, `caller` is
the file that the call stands in. -/
def Draft.call (disk : Disk) (directories : List Path) :
    Nat → Option Path → Line → Draft → Except CompileError Draft
  | 0, _, l, _ => .error (l.unknown "macros nested too deep")
  | room + 1, caller, l, d =>
    match calledFile? disk directories l with
    | none => .error (l.unknown ("macro " ++ l.arguments.headD "" ++ " not found"))
    | some path =>
      match disk.read path with
      | .error fault => .error (l.unknown fault.message)
      | .ok text => do
        let inlining := { path := some path, parameters := callParameters l }
        let whole ← (lines text).foldlM (fun d inner =>
          if inner.word = "call" then Draft.call disk directories room (some path) inner d
          else d.emit inner (some inlining)) d
        let noted :=
          if (lines text).head?.any fun inner => inner.word ≠ "call" then
            whole.noteCall d.offset { file := caller, line := l.number, column := l.column }
          else whole
        return { noted with included := noted.included.add path }

/-- Where called files are searched; SSBS texts have no calls. -/
abbrev Search := Option (Disk × List Path)

/-- The draft with a line of the text itself. -/
def Draft.line (search : Search) (d : Draft) (l : Line) : Except CompileError Draft :=
  if l.word = "routine" then d.startRoutine l
  else if l.word.toList.head? = some '@' then d.moveTo l
  else if l.word = "call" then
    match search with
    | none => .error (l.unknown "macros need EXPS")
    | some (disk, directories) => Draft.call disk directories callDepth none l d
  else d.emit l none

/-- A text assembled. -/
def compile (search : Search) (text : String) : Except CompileError Compilation := do
  let d ← (lines text).foldlM (Draft.line search) {}
  return d.toCompilation

/-! ### Writing a program down -/

/-- The lines written so far. -/
structure Listing where
  text : String := ""
  /-- The number of lines. -/
  count : Nat := 0
  /-- The offset that a reader expects for what comes next. -/
  expected : UInt32 := 0
  sourceMap : SourceMap := {}

/-- The listing with a further line. -/
def Listing.add (s : Listing) (line : String) : Listing :=
  { s with text := s.text ++ line ++ "\n", count := s.count + 1 }

/-- The listing with a line that moves to an offset, if a reader expects another one. -/
def Listing.moveTo (s : Listing) (offset : UInt32) : Listing :=
  if s.expected = offset then s
  else { s.add ("@" ++ Text.decimal offset.toNat) with expected := offset }

/-- The listing with an opcode. -/
def Listing.opcode (s : Listing) (op : Opcode) : Listing :=
  let s := s.moveTo op.offset
  let params := op.params.map fun p => " " ++ Text.signedDecimal p.toInt
  let s := s.add ("    " ++ op.name ++ String.join params)
  { s with
    expected := op.offset + 2
    sourceMap := s.sourceMap.insert op.offset { line := UInt32.ofNat s.count, column := 4 } }

/-- The listing with a routine whose opcodes are below `limit`. -/
def Listing.routine (p : Program) (s : Listing) (r : Routine) (limit : UInt32) : Listing :=
  let s := s.moveTo r.offset
  let s := s.add ("routine " ++ r.kind.name ++ " " ++ Text.signedDecimal r.linkedTo.toInt)
  (p.opcodes.toList.filter fun op => r.offset ≤ op.offset && op.offset < limit).foldl
    Listing.opcode s

/-- The listing with routines, each of which ends where the next one starts. -/
def Listing.routines (p : Program) : Listing → List Routine → Listing
  | s, [] => s
  | s, [r] => s.routine p r 4294967295
  | s, r :: next :: rest => Listing.routines p (s.routine p r next.offset) (next :: rest)

/-- A program written down, below a first listing. -/
def decompile (start : Listing) (p : Program) : String × SourceMap :=
  let s := Listing.routines p start p.routines
  (s.text, s.sourceMap)

/-! ### The language as a compiler -/

/-- The parts of the compiler that can be out of order. -/
structure Outages where
  encode : Bool := false
  decode : Bool := false
  decompile : Bool := false

/-- The program that bytes hold. -/
def decode (bytes : ByteArray) : Except String Program :=
  match ((String.fromUTF8? bytes).bind Json.parse?).bind Program.ofJson? with
  | some p => .ok p
  | none => .error "bad ssb data"

/-- The bytes of a program. -/
def encode (p : Program) : ByteArray := p.toJson.compact.toUTF8

/-- The bytes that a text is assembled to. -/
def assemble (text : String) : Except CompileError ByteArray :=
  (compile none text).map fun c => encode c.program

/-- The line language, with some parts out of order. -/
def compiler (outages : Outages) : Compiler where
  decode bytes := if outages.decode then .error "deserialize failed" else decode bytes
  encode p := if outages.encode then .error "serialize failed" else .ok (encode p)
  compileSsbs := compile none
  compileExps disk directories := compile (some (disk, directories))
  decompileSsbs p := if outages.decompile then .error "decompile failed" else .ok (decompile {} p)
  decompileExps p :=
    if outages.decompile then .error "decompile failed"
    else .ok (decompile (Listing.add {} "// exps") p)

end SceneDebugger.LineLanguage
