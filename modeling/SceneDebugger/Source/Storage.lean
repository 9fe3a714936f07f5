import SceneDebugger.Source.SourceMap

/-!
# SceneDebugger.Source.Storage — source maps as JSON

The stored form of a source map is a record with the field `entries`, an object from offsets to
entries.  An entry leaves `macro_info` out when its opcode is not inlined; an inlining writes all of
its parts, `null` for an absent one.  What is written is read back as it was.
-/

namespace SceneDebugger

/-! ### Writing -/

/-- A call in a document. -/
def CallSite.toJson (s : CallSite) : Json :=
  .obj [("file", .ofOption Path.toJson s.file), ("line", .word s.line), ("column", .word s.column)]

/-- An inlining in a document. -/
def Inlining.toJson (i : Inlining) : Json :=
  .obj [("macro_path", .ofOption Path.toJson i.path),
    ("called_in", .ofOption CallSite.toJson i.calledIn),
    ("return_addr", .ofOption Json.word i.returnOffset),
    ("parameters", .ofMap id Json.str i.parameters)]

/-- An entry in a document. -/
def Entry.toJson (e : Entry) : Json :=
  .obj ([("line", .word e.line), ("column", .word e.column)]
    ++ (e.inlining.map fun i => ("macro_info", i.toJson)).toList)

/-- A source map in a document. -/
def SourceMap.toJson (m : SourceMap) : Json :=
  .obj [("entries", .ofMap Json.keyOfWord Entry.toJson m.entries)]

/-! ### Reading -/

/-- The call that a document describes. -/
def CallSite.ofJson? (j : Json) : Option CallSite := do
  match ← j.parts? ["file", "line", "column"] with
  | [file, line, column] =>
    return {
      file := ← Json.part? (Json.asOption? Path.ofJson?) none file
      line := ← Json.needed? Json.asWord? line
      column := ← Json.needed? Json.asWord? column }
  | _ => none

/-- The inlining that a document describes. -/
def Inlining.ofJson? (j : Json) : Option Inlining := do
  match ← j.parts? ["macro_path", "called_in", "return_addr", "parameters"] with
  | [path, calledIn, returnOffset, parameters] =>
    return {
      path := ← Json.part? (Json.asOption? Path.ofJson?) none path
      calledIn := ← Json.part? (Json.asOption? CallSite.ofJson?) none calledIn
      returnOffset := ← Json.part? (Json.asOption? Json.asWord?) none returnOffset
      parameters := ← Json.part? (Json.asMap? some Json.asString?) ∅ parameters }
  | _ => none

/-- The entry that a document describes. -/
def Entry.ofJson? (j : Json) : Option Entry := do
  match ← j.parts? ["line", "column", "macro_info"] with
  | [line, column, inlining] =>
    return {
      line := ← Json.needed? Json.asWord? line
      column := ← Json.needed? Json.asWord? column
      inlining := ← Json.part? (Json.asOption? Inlining.ofJson?) none inlining }
  | _ => none

/-- The source map that a document describes. -/
def SourceMap.ofJson? (j : Json) : Option SourceMap := do
  match ← j.parts? ["entries"] with
  | [entries] =>
    return ⟨← Json.needed? (Json.asWordMap? Entry.ofJson?) entries⟩
  | _ => none

/-- The stored text of a source map. -/
def SourceMap.store (m : SourceMap) : String := m.toJson.compact

/-- The source map that a stored text holds. -/
def SourceMap.restore? (text : String) : Option SourceMap :=
  (Json.parse? text).bind SourceMap.ofJson?

end SceneDebugger
