import SceneDebugger.Ground.Tracker
import SceneDebugger.Proofs.Files.Frames
import SceneDebugger.Proofs.Json.Containers

/-!
# SceneDebugger.Proofs.Ground.Documents — what a save state keeps is read back

A place that was announced is a number of 64 bits for the game, and so it is in documents.

* `GroundSnapshot.Fits`: the snapshots that documents can describe, and do.
* `GroundSnapshot.load_of_read`: a written snapshot is loaded as it was.
* `Ground.ofSnapshot_snapshot`: a tracker is given by its snapshot.
-/

namespace SceneDebugger

/-! ### Held scripts -/

namespace LoadedScript

theorem ofJson?_toJson (s : LoadedScript) : ofJson? s.toJson = some s := rfl

theorem isPlain_toJson (s : LoadedScript) : s.toJson.isPlain = true := rfl

theorem ofJson?_null : ofJson? .null = none := rfl

end LoadedScript

/-! ### Snapshots -/

namespace GroundSnapshot

variable {s : GroundSnapshot} {d : Disk} {p : Path} {text : String}

/-- The announced place is a number of 64 bits. -/
def Fits (s : GroundSnapshot) : Prop := ∀ hanger, s.pending = some hanger → hanger < UInt64.size

theorem asOption?_nat {n : Nat} (h : n < UInt64.size) :
    (Json.nat n).asOption? Json.asIndex? = some (some n) := by
  have hread : (Json.nat n).asIndex? = some n := if_pos h
  rw [Json.asOption?.eq_def]
  split
  next heq => cases heq
  next => rw [hread, Option.map_some]

theorem asIndex?_eq_some {j : Json} {n : Nat} (h : j.asIndex? = some n) : n < UInt64.size := by
  unfold Json.asIndex? Json.asNatBelow? at h
  split at h
  · split_ifs at h with hn
    exact Option.some.inj h ▸ hn
  · cases h

/-- An announced place in a document, which may be left out, is a number of 64 bits. -/
theorem lt_of_part? {j? : Option Json} {hanger : Nat}
    (h : Json.part? (Json.asOption? Json.asIndex?) none j? = some (some hanger)) :
    hanger < UInt64.size := by
  cases j? with
  | none => cases h
  | some j =>
    rw [Json.part?, Json.asOption?.eq_def] at h
    split at h
    · cases h
    · obtain ⟨n, hn, heq⟩ := Option.map_eq_some_iff.mp h
      cases heq
      exact asIndex?_eq_some hn

/-- A snapshot that a document describes fits documents. -/
theorem fits_of_ofJson? {j : Json} (h : ofJson? j = some s) : s.Fits := by
  unfold ofJson? at h
  obtain ⟨parts, -, h⟩ := Option.bind_eq_some_iff.mp h
  split at h
  · obtain ⟨running, -, h⟩ := Option.bind_eq_some_iff.mp h
    obtain ⟨scripts, -, h⟩ := Option.bind_eq_some_iff.mp h
    obtain ⟨scenes, -, h⟩ := Option.bind_eq_some_iff.mp h
    obtain ⟨pending, hpending, h⟩ := Option.bind_eq_some_iff.mp h
    cases h
    intro hanger hsome
    have heq : pending = some hanger := hsome
    rw [heq] at hpending
    exact lt_of_part? hpending
  · cases h

theorem fits_of_load (h : load d p = .ok s) : s.Fits := by
  unfold load at h
  split at h
  · cases h
  · split at h
    · next s' hs =>
      cases h
      obtain ⟨j, -, hj⟩ := Option.bind_eq_some_iff.mp hs
      exact fits_of_ofJson? hj
    · cases h

theorem ofJson?_toJson (h : s.Fits) : ofJson? s.toJson = some s := by
  have hparts : s.toJson.parts? ["running", "ssbs", "ssxs", "load_ssb_for"] =
      some [some (.bool s.running),
        some (Json.ofList (Json.ofOption LoadedScript.toJson) s.scripts),
        some (Json.ofList (Json.ofOption Json.str) s.scenes),
        some (Json.ofOption Json.nat s.pending)] := rfl
  have hscripts := Json.asList?_ofList
    (Json.asOption?_ofOption LoadedScript.ofJson?_toJson LoadedScript.ofJson?_null) s.scripts
  have hscenes := Json.asList?_ofList (Json.asOption?_ofOption
    (fun text => show Json.asString? (.str text) = some text from rfl) rfl) s.scenes
  have hpending : (Json.ofOption Json.nat s.pending).asOption? Json.asIndex? = some s.pending := by
    cases hs : s.pending with
    | none => rfl
    | some hanger => exact asOption?_nat (h hanger hs)
  rw [ofJson?, hparts]
  simp [Json.needed?, Json.part?, Json.asBool?, hscripts, hscenes, hpending]

theorem isPlain_toJson (s : GroundSnapshot) : s.toJson.isPlain = true := by
  have hscripts : (Json.ofList (Json.ofOption LoadedScript.toJson) s.scripts).isPlain = true :=
    Json.arePlain_map (Json.isPlain_ofOption LoadedScript.isPlain_toJson) s.scripts
  have hscenes : (Json.ofList (Json.ofOption Json.str) s.scenes).isPlain = true :=
    Json.arePlain_map (Json.isPlain_ofOption fun _ => rfl) s.scenes
  have hpending : (Json.ofOption Json.nat s.pending).isPlain = true :=
    Json.isPlain_ofOption (fun _ => rfl) s.pending
  simp [toJson, Json.isPlain, Json.havePlain, hscripts, hscenes, hpending]

/-- A file with a written snapshot is loaded as that snapshot. -/
theorem load_of_read (h : s.Fits) (hread : d.read p = .ok s.toJson.pretty) : load d p = .ok s := by
  rw [load, hread]
  dsimp only
  rw [Json.parse?_pretty s.isPlain_toJson, Option.bind_some, ofJson?_toJson h]

end GroundSnapshot

/-! ### Trackers -/

namespace Ground

/-- The announced place is a number of 64 bits. -/
def Fits (g : Ground) : Prop := g.snapshot.Fits

theorem fits_of_none {g : Ground} (h : g.pending = none) : g.Fits := fun _ hsome => nomatch h.symm.trans hsome

theorem fits_of_some {g : Ground} {hanger : Nat} (h : g.pending = some hanger)
    (hlt : hanger < UInt64.size) : g.Fits :=
  fun _ hsome => Option.some.inj (h.symm.trans hsome) ▸ hlt

theorem fits_emptied (g : Ground) (keepShared running : Bool) : (g.emptied keepShared running).Fits := by
  refine fits_of_none ?_
  unfold emptied
  dsimp only
  split <;> rfl

theorem fits_loadScene {g : Ground} (h : g.Fits) (w : Workspace) {hanger : Nat}
    (hlt : hanger < UInt64.size) (name : String) : (g.loadScene w hanger name).1.Fits := by
  unfold loadScene
  split
  · exact fits_of_some rfl hlt
  · exact h

theorem fits_loadTalk (g : Ground) (w : Workspace) {hanger : Nat} (hlt : hanger < UInt64.size) :
    (g.loadTalk w hanger).1.Fits := by
  refine fits_of_some rfl ?_
  unfold talkPlace
  split
  · next hscene => exact Nat.lt_of_le_of_lt (Nat.add_le_add_right hscene _) (by decide)
  · exact hlt

theorem fits_loadScript (g : Ground) (w : Workspace) (file : String) : (g.loadScript w file).1.Fits := by
  refine fits_of_none ?_
  unfold loadScript
  dsimp only
  split <;> rfl

theorem fits_restore {s : GroundSnapshot} (h : s.Fits) (g : Ground) (w : Workspace) :
    (g.restore w s).2.1.Fits := fun hanger hsome => h hanger hsome

/-- The list of all places gives the places back. -/
theorem ofFn_join_toList {α : Type} {n : Nat} (v : Vector (Option α) n) :
    Vector.ofFn (fun i : Fin n => v.toList[i.val]?.join) = v :=
  Vector.ext fun i hi => by
    rw [Vector.getElem_ofFn, Vector.getElem?_toList, Vector.getElem?_eq_getElem hi]
    rfl

/-- A tracker is given by its snapshot. -/
theorem ofSnapshot_snapshot (g : Ground) : ofSnapshot g.snapshot = g := by
  have hslots : (ofSnapshot g.snapshot).slots = g.slots := ofFn_join_toList g.slots
  have hscenes : (ofSnapshot g.snapshot).scenes = g.scenes := ofFn_join_toList g.scenes
  calc ofSnapshot g.snapshot
      = { running := g.running, slots := (ofSnapshot g.snapshot).slots
          scenes := (ofSnapshot g.snapshot).scenes, pending := g.pending } := rfl
    _ = g := by rw [hslots, hscenes]

end Ground

end SceneDebugger
