import SceneDebugger.Breakpoints.Store
import SceneDebugger.Report.Halt
import SceneDebugger.Report.Message
import SceneDebugger.Workspace.Texts

/-!
# SceneDebugger.Report.Files — script files and source maps as a front end sees them

A source map is shown as one short line for each opcode: `offset=line:column`, and for an inlined
opcode the file ` @path`, the call ` <file:line:column`, the offset behind it ` >offset`, and the
parameters ` key=value`.
-/

namespace SceneDebugger

/-! ### Source maps -/

/-- A call in the line of an opcode. -/
def CallSite.summary (s : CallSite) : String :=
  (s.file.map Path.text).getD "" ++ ":" ++ Text.decimal s.line.toNat ++ ":"
    ++ Text.decimal s.column.toNat

/-- The end of the line of an inlined opcode. -/
def Inlining.summary (i : Inlining) : String :=
  ((i.path.map fun p => " @" ++ p.text).getD "")
    ++ ((i.calledIn.map fun s => " <" ++ s.summary).getD "")
    ++ ((i.returnOffset.map fun o => " >" ++ Text.decimal o.toNat).getD "")
    ++ String.join (i.parameters.toList.map fun (key, value) => " " ++ key ++ "=" ++ value)

/-- The line of an opcode. -/
def Entry.summaryAt (offset : UInt32) (e : Entry) : String :=
  Text.decimal offset.toNat ++ "=" ++ Text.decimal e.line.toNat ++ ":"
    ++ Text.decimal e.column.toNat ++ (e.inlining.map Inlining.summary).getD ""

/-- The lines of a source map. -/
def SourceMap.report (m : SourceMap) : Json :=
  .ofStrings (m.toList.map fun (offset, e) => e.summaryAt offset)

/-- The offsets and entries of a source map. -/
def SourceMap.reportEntries (m : SourceMap) : Json :=
  .ofList (fun (offset, e) => .arr [.word offset, e.toJson]) m.toList

/-- The source maps of a compilation. -/
def MapPair.report (p : MapPair) : Json :=
  .obj [("ssbs", .ofOption SourceMap.report p.ssbs), ("exps", .ofOption SourceMap.report p.exps)]

/-- The source maps of a file. -/
def Marks.report (m : Marks) : Json :=
  .obj [("permanent", m.permanent.report), ("temporary", .ofOption MapPair.report m.temporary)]

/-! ### Files -/

/-- What goes on with a file. -/
def FileFlags.report (f : FileFlags) : Json :=
  .obj [("editor", .bool f.inEditor), ("ground", .bool f.inGround),
    ("ram_matches", .bool f.ramMatches), ("disabled", .bool f.breakpointsOff)]

/-- An SSBS text. -/
def SsbsText.report (t : SsbsText) : Json :=
  .obj [("text", .str t.text), ("map", t.sourceMap.report)]

/-- An EXPS text. -/
def ExpsText.report (t : ExpsText) : Json :=
  .obj [("text", .str t.text), ("map", t.sourceMap.report), ("path", t.path.toJson),
    ("hash", .str t.hash)]

/-- A script file in use. -/
def ScriptFile.report (f : ScriptFile) : Json :=
  .obj [("filename", .str f.name), ("flags", f.flags.report), ("hash", .str f.hash),
    ("marks", f.marks.report), ("breakable", .bool f.isBreakable),
    ("opcodes", .nat f.program.opcodes.size), ("ssbs", .bool f.ssbs.isSome),
    ("exps", .bool f.exps.isSome), ("ram_view", .ofOption (fun p => p.1.report) f.ramMap)]

/-- What a save has changed. -/
def SaveOutcome.report (o : SaveOutcome) : Json :=
  .obj [("filename", .str o.file), ("view", o.view.report), ("ready", .bool o.ready),
    ("previous_map", .ofOption SourceMap.report o.previousMap), ("new_map", o.newMap.report),
    ("hash", .str o.hash), ("included", o.included.toJson)]

/-- What became of a script that calls a saved shared file. -/
def MacroOutcome.report : MacroOutcome → Json
  | .recompiled outcome => .obj [("recompiled", outcome.report)]
  | .skippedStale file => .obj [("skipped_stale", .str file)]
  | .failed file error => .obj [("failed", .str file), ("error", .message error)]

/-! ### Breakpoints -/

/-- The offsets of breakpoints. -/
def reportOffsets (offsets : Std.ExtTreeSet UInt32) : Json := .ofList Json.word offsets.toList

/-- A change of the breakpoints of a file. -/
def BreakpointChange.report (file : String) : BreakpointChange → Json
  | .added offset => .arr [.str file, .str "added", .word offset]
  | .removed offset => .arr [.str file, .str "removed", .word offset]
  | .replaced => .arr [.str file, .str "replaced"]

/-! ### The disk -/

/-- The text of a file, `null` if it cannot be read. -/
def Disk.reportFile (d : Disk) (p : Path) : Json :=
  match d.read p with
  | .ok text => .str text
  | .error _ => .null

/-- The files below a directory of the working directory with their texts; a directory that holds
nothing, the given one included, ends in a slash and has none. -/
def Disk.report (d : Disk) (directory : String) : Json :=
  .obj ((d.listing [directory]).map fun (names, content) =>
    let path := "/".intercalate (directory :: names)
    match content with
    | some text => (path, .str text)
    | none => (path ++ "/", .null))

end SceneDebugger
