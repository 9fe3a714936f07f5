import SceneDebugger.Proofs.Json.Containers
import SceneDebugger.Workspace.Project

/-!
# SceneDebugger.Proofs.Files.PathSets — sets of paths, and values by path

Each place has one spelling in a set or a map, under the key of that spelling.  Whether a path is in a
set, and its value in a map, depends on its key only.

* `PathSet.has_ofPaths`, `PathSet.has_iff`: what is in a set.
* `PathMap.at?_put`, `PathMap.at?_without`: the values of a map after a change.
* `PathMap.ofPairs_pairs`: the spellings and values of a map give the map.
-/

namespace SceneDebugger

namespace PathSet

variable {s t : PathSet} {p q : Path} {paths : List Path}

@[simp] theorem has_empty (p : Path) : has ∅ p = false := rfl

theorem has_add (s : PathSet) (p q : Path) : (s.add p).has q = true ↔ p.key = q.key ∨ s.has q = true := by
  simp [has, add, Std.ExtTreeMap.contains_insertIfNew]

theorem has_foldl_add (s : PathSet) (paths : List Path) (q : Path) :
    (paths.foldl add s).has q = true ↔ (∃ p ∈ paths, p.key = q.key) ∨ s.has q = true := by
  induction paths generalizing s with
  | nil => simp
  | cons p rest ih =>
    rw [List.foldl_cons, ih, has_add]
    simp only [List.mem_cons, exists_eq_or_imp]
    rw [or_left_comm, or_assoc]

theorem has_ofPaths (paths : List Path) (q : Path) :
    (ofPaths paths).has q = true ↔ ∃ p ∈ paths, p.key = q.key := by
  rw [ofPaths, has_foldl_add]
  simp

theorem mem_paths (s : PathSet) (p : Path) : p ∈ s.paths ↔ s.spellings[p.key]? = some p := by
  simp only [paths, List.mem_map, Prod.exists, Std.ExtTreeMap.mem_toList_iff_getElem?_eq_some]
  constructor
  · rintro ⟨k, q, hk, rfl⟩
    rwa [s.keyed k q hk]
  · exact fun h => ⟨p.key, p, h, rfl⟩

/-- A path is in a set if one of the spellings is of its place. -/
theorem has_iff (s : PathSet) (q : Path) : s.has q = true ↔ ∃ p ∈ s.paths, p.key = q.key := by
  simp only [has, Std.ExtTreeMap.contains_eq_isSome_getElem?, Option.isSome_iff_exists, mem_paths]
  constructor
  · rintro ⟨p, hp⟩
    have hkey := s.keyed q.key p hp
    exact ⟨p, hkey ▸ hp, hkey⟩
  · rintro ⟨p, hp, hkey⟩
    exact ⟨p, hkey ▸ hp⟩

theorem has_congr (s : PathSet) (h : p.key = q.key) : s.has p = s.has q := by rw [has, has, h]

/-- The places of a set that another set lacks. -/
theorem exists_mem_minus (s t : PathSet) (q : Path) :
    (∃ p ∈ s.minus t, p.key = q.key) ↔ s.has q = true ∧ t.has q = false := by
  rw [has_iff]
  simp only [minus, List.mem_filter, Bool.not_eq_true']
  constructor
  · rintro ⟨p, ⟨hp, hnot⟩, hkey⟩
    exact ⟨⟨p, hp, hkey⟩, has_congr t hkey ▸ hnot⟩
  · rintro ⟨⟨p, hp, hkey⟩, hnot⟩
    exact ⟨p, ⟨hp, has_congr t hkey ▸ hnot⟩, hkey⟩

theorem has_of_mem_minus (h : q ∈ s.minus t) : s.has q = true ∧ t.has q = false :=
  (exists_mem_minus s t q).mp ⟨q, h, rfl⟩

/-- Sets of which neither has a place that the other lacks have the same places. -/
theorem has_eq_of_minus_nil (h : s.minus t = []) (h' : t.minus s = []) (q : Path) :
    s.has q = t.has q := by
  have hs := exists_mem_minus s t q
  have ht := exists_mem_minus t s q
  rw [h] at hs
  rw [h'] at ht
  cases hone : s.has q <;> cases hother : t.has q <;> simp [hone, hother] at hs ht ⊢

/-! ### Sets in documents -/

theorem isPlain_toJson (s : PathSet) : s.toJson.isPlain = true :=
  Json.arePlain_map (fun _ => rfl) s.paths

/-- The text that a set is written as describes a set of the same places. -/
theorem has_of_pretty (s : PathSet) :
    ∃ t : PathSet, (Json.parse? s.toJson.pretty).bind ofJson? = some t ∧ ∀ q, t.has q = s.has q := by
  refine ⟨ofPaths s.paths, ?_, fun q => ?_⟩
  · have hpaths : s.toJson.asList? Path.ofJson? = some s.paths :=
      Json.asList?_ofList (fun p => (rfl : Path.ofJson? p.toJson = some p)) s.paths
    rw [Json.parse?_pretty s.isPlain_toJson, Option.bind_some, ofJson?, hpaths, Option.map_some]
  · rw [Bool.eq_iff_iff, has_ofPaths, has_iff]

end PathSet

namespace PathMap

variable {α : Type} {m : PathMap α} {p q : Path}

@[simp] theorem at?_empty (p : Path) : (∅ : PathMap α).at? p = none := rfl

theorem at?_congr (m : PathMap α) (h : p.key = q.key) : m.at? p = m.at? q := by rw [at?, at?, h]

/-- The value at a place after it was put there. -/
theorem at?_put (m : PathMap α) (p q : Path) (a : α) :
    (m.put p a).at? q = if q.key = p.key then some a else m.at? q := by
  unfold at? put
  rw [Std.ExtTreeMap.getElem?_insert]
  by_cases h : q.key = p.key
  · simp [h]
  · simp [h, Ne.symm h]

theorem at?_without (m : PathMap α) (p q : Path) :
    (m.without p).at? q = if q.key = p.key then none else m.at? q := by
  unfold at? without
  rw [Std.ExtTreeMap.getElem?_erase]
  by_cases h : q.key = p.key
  · simp [h]
  · simp [h, Ne.symm h]

theorem entries_foldl_put (l : List (List String × Path × α)) (m : PathMap α)
    (hkeys : ∀ e ∈ l, e.2.1.key = e.1) (hfresh : ∀ e ∈ l, m.entries[e.1]? = none)
    (hdistinct : l.Pairwise fun a b => ¬compare a.1 b.1 = .eq) :
    ((l.map Prod.snd).foldl (fun m (p, a) => put m p a) m).entries = m.entries.insertMany l := by
  induction l generalizing m with
  | nil => rfl
  | cons e rest ih =>
    obtain ⟨k, p, a⟩ := e
    obtain ⟨hfirst, hrest⟩ := List.pairwise_cons.mp hdistinct
    obtain rfl : p.key = k := hkeys _ List.mem_cons_self
    have hput : (m.put p a).entries = m.entries.insert p.key (p, a) := by
      show m.entries.insert p.key (m.spelling p, a) = _
      rw [spelling, hfresh _ List.mem_cons_self]
      rfl
    rw [List.map_cons, List.foldl_cons, Std.ExtTreeMap.insertMany_cons, ← hput]
    refine ih _ (fun e he => hkeys e (List.mem_cons_of_mem _ he)) (fun e he => ?_) hrest
    dsimp only
    rw [hput, Std.ExtTreeMap.getElem?_insert, if_neg (hfirst e he)]
    exact hfresh e (List.mem_cons_of_mem _ he)

/-- The spellings and values of a map give the map. -/
theorem ofPairs_pairs (m : PathMap α) : ofPairs m.pairs = m := by
  have hfold := entries_foldl_put m.entries.toList ∅
    (fun e he => m.keyed e.1 e.2.1 e.2.2 (Std.ExtTreeMap.mem_toList_iff_getElem?_eq_some.mp he))
    (fun e _ => Std.ExtTreeMap.getElem?_empty) Std.ExtTreeMap.distinct_keys_toList
  have hempty : (∅ : PathMap α).entries = ∅ := rfl
  refine PathMap.ext ?_
  rw [ofPairs, pairs, hfold, hempty, ← Std.ExtTreeMap.ofList_eq_insertMany_empty, ofList_toList_map]

end PathMap

namespace Project

/-! ### The include index in a document -/

theorem usersOfJson?_ofStrings (users : Std.ExtTreeSet String) :
    usersOfJson? (Json.ofStrings users.toList) = some users := by
  have hlist : (Json.ofStrings users.toList).asList? Json.asString? = some users.toList :=
    Json.asList?_ofList (fun name => (rfl : Json.asString? (.str name) = some name)) users.toList
  rw [usersOfJson?, hlist, Option.map_some, ofList_toList_set]

theorem isPlain_usageJson (usage : PathMap (Std.ExtTreeSet String)) :
    (usageJson usage).isPlain = true := by
  have husers : ∀ p : Path × Std.ExtTreeSet String, (Json.ofStrings p.2.toList).isPlain = true :=
    fun p => Json.arePlain_map (fun name => (rfl : (Json.str name).isPlain = true)) p.2.toList
  simp only [usageJson, Json.isPlain, Json.havePlain, Bool.true_and, Bool.and_true]
  exact Json.havePlain_map husers usage.pairs

theorem usageOfJson?_usageJson (usage : PathMap (Std.ExtTreeSet String)) :
    usageOfJson? (usageJson usage) = some usage := by
  have hfield : ∀ p : Path × Std.ExtTreeSet String,
      (do return (← (some ∘ Path.mk) p.1.text, ← usersOfJson? (Json.ofStrings p.2.toList))) =
        some p := by
    intro p
    rw [usersOfJson?_ofStrings]
    rfl
  have hpairs : (Json.obj (usage.pairs.map fun p =>
      (p.1.text, Json.ofStrings p.2.toList))).asFields? (some ∘ Path.mk) usersOfJson? =
        some usage.pairs :=
    Json.mapM_map_of_inverse hfield usage.pairs
  have hparts : (usageJson usage).parts? ["used_by"] =
      some [some (.obj (usage.pairs.map fun p =>
        (p.1.text, Json.ofStrings p.2.toList)))] := rfl
  rw [usageOfJson?, hparts]
  simp only [Option.bind_eq_bind, Option.bind_some, Json.part?, hpairs, Option.map_some,
    PathMap.ofPairs_pairs]

/-- The text that the include index is written as describes it. -/
theorem usage_of_pretty (usage : PathMap (Std.ExtTreeSet String)) :
    (Json.parse? (usageJson usage).pretty).bind usageOfJson? = some usage := by
  rw [Json.parse?_pretty (isPlain_usageJson usage), Option.bind_some, usageOfJson?_usageJson]

end Project

end SceneDebugger
