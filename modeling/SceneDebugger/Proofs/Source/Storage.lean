import SceneDebugger.Proofs.Json.Containers
import SceneDebugger.Source.Storage

/-!
# SceneDebugger.Proofs.Source.Storage — stored source maps are read back

* `SourceMap.restore?_store`: the text that a source map is stored as holds that map.
-/

namespace SceneDebugger

theorem Path.ofJson?_toJson (p : Path) : ofJson? p.toJson = some p := rfl

theorem CallSite.ofJson?_toJson (s : CallSite) : ofJson? s.toJson = some s := by
  have hparts : s.toJson.parts? ["file", "line", "column"] =
      some [some (.ofOption Path.toJson s.file), some (.word s.line), some (.word s.column)] := rfl
  have hfile := Json.asOption?_ofOption Path.ofJson?_toJson rfl s.file
  rw [ofJson?, hparts]
  simp [Json.part?, Json.needed?, hfile, Json.asWord?_word]

theorem CallSite.isPlain_toJson (s : CallSite) : s.toJson.isPlain = true := by
  have hfile : (Json.ofOption Path.toJson s.file).isPlain = true :=
    Json.isPlain_ofOption (fun _ => rfl) s.file
  simp [toJson, Json.isPlain, Json.havePlain, hfile, Json.word, Json.nat]

theorem Inlining.ofJson?_toJson (i : Inlining) : ofJson? i.toJson = some i := by
  have hparts : i.toJson.parts? ["macro_path", "called_in", "return_addr", "parameters"] =
      some [some (.ofOption Path.toJson i.path), some (.ofOption CallSite.toJson i.calledIn),
        some (.ofOption Json.word i.returnOffset), some (.ofMap id Json.str i.parameters)] := rfl
  have hpath := Json.asOption?_ofOption Path.ofJson?_toJson rfl i.path
  have hcall := Json.asOption?_ofOption CallSite.ofJson?_toJson rfl i.calledIn
  have hreturn := Json.asOption?_ofOption Json.asWord?_word rfl i.returnOffset
  have hparameters : (Json.ofMap id Json.str i.parameters).asMap? some Json.asString? =
      some i.parameters :=
    Json.asMap?_ofMap (fun _ => rfl) (fun text => show Json.asString? (.str text) = _ from rfl) _
  rw [ofJson?, hparts]
  simp [Json.part?, hpath, hcall, hreturn, hparameters]

theorem Inlining.isPlain_toJson (i : Inlining) : i.toJson.isPlain = true := by
  have hpath : (Json.ofOption Path.toJson i.path).isPlain = true :=
    Json.isPlain_ofOption (fun _ => rfl) i.path
  have hcall := Json.isPlain_ofOption CallSite.isPlain_toJson i.calledIn
  have hreturn : (Json.ofOption Json.word i.returnOffset).isPlain = true :=
    Json.isPlain_ofOption (fun _ => rfl) i.returnOffset
  have hparameters : (Json.ofMap id Json.str i.parameters).isPlain = true :=
    Json.isPlain_ofMap (fun _ => rfl) i.parameters
  simp [toJson, Json.isPlain, Json.havePlain, hpath, hcall, hreturn, hparameters]

theorem Entry.ofJson?_toJson (e : Entry) : ofJson? e.toJson = some e := by
  have hparts : e.toJson.parts? ["line", "column", "macro_info"] =
      some [some (.word e.line), some (.word e.column), e.inlining.map Inlining.toJson] := by
    unfold toJson
    cases e.inlining <;> rfl
  have hinlining : Json.part? (Json.asOption? Inlining.ofJson?) none
      (e.inlining.map Inlining.toJson) = some e.inlining := by
    cases hi : e.inlining with
    | none => rfl
    | some i => exact Json.asOption?_ofOption Inlining.ofJson?_toJson rfl (some i)
  rw [ofJson?, hparts]
  simp [Json.needed?, Json.asWord?_word, hinlining]

theorem Entry.isPlain_toJson (e : Entry) : e.toJson.isPlain = true := by
  unfold toJson
  cases e.inlining with
  | none => rfl
  | some i => simp [Json.isPlain, Json.havePlain, Json.word, Json.nat, i.isPlain_toJson]

namespace SourceMap

theorem ofJson?_toJson (m : SourceMap) : ofJson? m.toJson = some m := by
  have hparts : m.toJson.parts? ["entries"] =
      some [some (.ofMap Json.keyOfWord Entry.toJson m.entries)] := rfl
  have hentries : (Json.ofMap Json.keyOfWord Entry.toJson m.entries).asWordMap? Entry.ofJson? =
      some m.entries :=
    Json.asMap?_ofMap Json.wordKey?_keyOfWord Entry.ofJson?_toJson m.entries
  rw [ofJson?, hparts]
  simp [Json.needed?, hentries]

theorem isPlain_toJson (m : SourceMap) : m.toJson.isPlain = true := by
  have hentries : (Json.ofMap Json.keyOfWord Entry.toJson m.entries).isPlain = true :=
    Json.isPlain_ofMap Entry.isPlain_toJson m.entries
  simp [toJson, Json.isPlain, Json.havePlain, hentries]

/-- A stored map is read back. -/
theorem restore?_store (m : SourceMap) : restore? m.store = some m := by
  rw [restore?, store, Json.parse?_compact m.isPlain_toJson, Option.bind_some, ofJson?_toJson]

theorem store_injective {m m' : SourceMap} (h : m.store = m'.store) : m = m' := by
  have hrestored := congrArg restore? h
  rw [restore?_store, restore?_store] at hrestored
  exact Option.some.inj hrestored

end SourceMap

end SceneDebugger
