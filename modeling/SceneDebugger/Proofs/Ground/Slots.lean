import Mathlib.Data.Set.Basic
import SceneDebugger.Ground.Tracker

/-!
# SceneDebugger.Proofs.Ground.Slots — the places of the game and the hashes recorded in them

The lists of what the game holds are read off the places: `Ground.loaded`, `Ground.files` and
`Ground.holds` are described by `Ground.scriptIn?`, and each operation by what it puts into a place.

* `Ground.hashes`: the hashes recorded for a file, over all places that hold it.
* `Ground.scriptIn?_put`, `Ground.scriptIn?_emptied`, `Ground.scriptIn?_ofSnapshot`: what is in the
  places after a load, after they were emptied, and after a save state was loaded.
-/

namespace SceneDebugger.Ground

variable {g : Ground} {hanger slot : Nat} {file hash : String} {script : LoadedScript}

/-- The hashes recorded for a file. -/
def hashes (g : Ground) (file : String) : Set String :=
  {hash | ∃ hanger, g.scriptIn? hanger = some { file, hash }}

theorem hashes_congr {g' : Ground} (h : g'.slots = g.slots) : g'.hashes file = g.hashes file := by
  simp only [hashes, scriptIn?, h]

/-! ### The lists of what the game holds -/

theorem scriptIn?_eq_some : g.scriptIn? hanger = some script ↔ g.slots[hanger]? = some (some script) := by
  simp [scriptIn?, Option.join_eq_some_iff]

theorem lt_of_scriptIn? (h : g.scriptIn? hanger = some script) : hanger < hangerCount := by
  by_contra hge
  rw [scriptIn?_eq_some, Vector.getElem?_eq_none (Nat.not_lt.mp hge)] at h
  cases h

theorem mem_loaded : script ∈ g.loaded ↔ ∃ hanger, g.scriptIn? hanger = some script := by
  simp only [loaded, List.mem_filterMap, id, scriptIn?_eq_some, Vector.mem_toList_iff,
    Vector.mem_iff_getElem?]
  constructor
  · rintro ⟨entry, hentry, rfl⟩
    exact hentry
  · intro h
    exact ⟨some script, h, rfl⟩

theorem mem_hashes_iff_mem_loaded : hash ∈ g.hashes file ↔ { file, hash } ∈ g.loaded :=
  mem_loaded.symm

theorem mem_hashes (h : g.scriptIn? hanger = some script) : script.hash ∈ g.hashes script.file :=
  ⟨hanger, h⟩

theorem mem_files : file ∈ g.files ↔ (g.hashes file).Nonempty := by
  simp only [files, List.mem_map]
  constructor
  · rintro ⟨script, hscript, rfl⟩
    exact ⟨script.hash, mem_hashes_iff_mem_loaded.mpr hscript⟩
  · rintro ⟨hash, hhash⟩
    exact ⟨⟨file, hash⟩, mem_hashes_iff_mem_loaded.mp hhash, rfl⟩

theorem holds_iff : g.holds file = true ↔ (g.hashes file).Nonempty := by
  rw [holds, List.contains_iff_mem, mem_files]

theorem holds_eq_false_iff : g.holds file = false ↔ g.hashes file = ∅ := by
  rw [← Bool.not_eq_true, holds_iff, Set.not_nonempty_iff_eq_empty]

/-! ### Places after each operation -/

/-- What is in the places after a script was put into one of them. -/
theorem scriptIn?_put (g : Ground) (hslot : slot < hangerCount) (script : LoadedScript) :
    ({ g with slots := g.slots.setIfInBounds slot (some script) } : Ground).scriptIn? hanger =
      if hanger = slot then some script else g.scriptIn? hanger := by
  simp only [scriptIn?, Vector.getElem?_setIfInBounds]
  by_cases h : slot = hanger
  · subst h
    simp [hslot]
  · rw [if_neg h, if_neg (Ne.symm h)]

/-- The hashes recorded for a file after a script was put into a place. -/
theorem mem_hashes_put (g : Ground) (hslot : slot < hangerCount) (script : LoadedScript) :
    hash ∈ ({ g with slots := g.slots.setIfInBounds slot (some script) } : Ground).hashes file ↔
      script = { file, hash } ∨ ∃ hanger ≠ slot, g.scriptIn? hanger = some { file, hash } := by
  constructor
  · rintro ⟨hanger, h⟩
    rw [scriptIn?_put g hslot] at h
    split_ifs at h with heq
    · exact .inl (Option.some.inj h)
    · exact .inr ⟨hanger, heq, h⟩
  · rintro (rfl | ⟨hanger, hne, h⟩)
    · exact ⟨slot, by rw [scriptIn?_put g hslot, if_pos rfl]⟩
    · exact ⟨hanger, by rw [scriptIn?_put g hslot, if_neg hne, h]⟩

/-- What is in the places after they were emptied: at most the shared script. -/
theorem scriptIn?_emptied (g : Ground) (keepShared running : Bool) :
    (g.emptied keepShared running).scriptIn? hanger =
      if keepShared ∧ hanger = 0 then g.scriptIn? 0 else none := by
  have hnone : (Vector.replicate hangerCount (none : Option LoadedScript))[hanger]?.join = none := by
    rw [Vector.getElem?_replicate]
    split_ifs <;> rfl
  cases keepShared with
  | false => simpa [emptied, scriptIn?] using hnone
  | true =>
    by_cases h : hanger = 0
    · subst h
      have hfirst : g.slots[0]? = some g.slots[0] := Vector.getElem?_eq_getElem (by decide)
      simp only [emptied, if_true, scriptIn?, and_self, hfirst]
      rw [Vector.getElem?_set_self]
    · have h0 : (0 : Nat) ≠ hanger := Ne.symm h
      simpa [emptied, scriptIn?, h, Vector.getElem?_set, h0] using hnone

theorem hashes_emptied_subset (g : Ground) (keepShared running : Bool) :
    (g.emptied keepShared running).hashes file ⊆ g.hashes file := by
  rintro hash ⟨hanger, h⟩
  rw [scriptIn?_emptied] at h
  split_ifs at h
  exact ⟨0, h⟩

/-- A file that was held and is not dropped with the others stays. -/
theorem mem_dropped_of_hashes_emptied (g : Ground) (keepShared running : Bool)
    (h : (g.hashes file).Nonempty) (hempty : (g.emptied keepShared running).hashes file = ∅) :
    file ∈ g.dropped keepShared := by
  obtain ⟨hash, hanger, hs⟩ := h
  cases keepShared with
  | false => exact mem_files.mpr ⟨hash, hanger, hs⟩
  | true =>
    have hne : hanger ≠ 0 := by
      rintro rfl
      have hmem : hash ∈ (g.emptied true running).hashes file := by
        refine ⟨0, ?_⟩
        rw [scriptIn?_emptied, if_pos ⟨rfl, rfl⟩]
        exact hs
      rw [hempty] at hmem
      exact hmem
    have hget : (g.slots.toList.drop 1)[hanger - 1]? = some (some ⟨file, hash⟩) := by
      rw [List.getElem?_drop, show 1 + (hanger - 1) = hanger by omega, Vector.getElem?_toList]
      exact scriptIn?_eq_some.mp hs
    simp only [dropped, if_true, List.mem_map, List.mem_filterMap, id]
    exact ⟨⟨file, hash⟩, ⟨_, List.mem_iff_getElem?.mpr ⟨_, hget⟩, rfl⟩, rfl⟩

/-- What is in the places after a save state was loaded. -/
theorem scriptIn?_ofSnapshot (s : GroundSnapshot) :
    (ofSnapshot s).scriptIn? hanger =
      if hanger < hangerCount then s.scripts[hanger]?.join else none := by
  simp only [scriptIn?, ofSnapshot, Vector.getElem?_ofFn]
  split_ifs <;> rfl

end SceneDebugger.Ground
