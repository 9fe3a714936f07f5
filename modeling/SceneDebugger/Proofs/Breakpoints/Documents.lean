import SceneDebugger.Proofs.Breakpoints.Changes
import SceneDebugger.Proofs.Json.Containers

/-!
# SceneDebugger.Proofs.Breakpoints.Documents — offsets by file, joined and written

* `OffsetMap.lookup_union`: what two maps joined have for a file.
* `OffsetMap.offsets_union`: two maps joined have the offsets of either, for every file.
* `OffsetMap.ofText_pretty`: the text that a map is written as describes that map.
-/

namespace SceneDebugger

namespace OffsetMap

/-! ### Maps joined -/

/-- Joining what a list gives for other files leaves a file as it is. -/
theorem lookup_foldl_of_forall_ne (m : OffsetMap) {l : List (String × Std.ExtTreeSet UInt32)} {k : String}
    (h : ∀ p ∈ l, k ≠ p.1) :
    (l.foldl (fun (m : OffsetMap) p =>
      m.insert p.1 ((m.offsets p.1).insertMany p.2.toList)) m)[k]? = m[k]? := by
  induction l generalizing m with
  | nil => rfl
  | cons p rest ih =>
    rw [List.foldl_cons, ih _ fun q hq => h q (List.mem_cons_of_mem p hq), lookup_insert,
      if_neg (h p List.mem_cons_self)]

/-- What two maps joined have for a file is given by what each has for it. -/
theorem lookup_union (m n : OffsetMap) (k : String) : (m.union n)[k]? =
    match n[k]? with
    | none => m[k]?
    | some more => some ((m.offsets k).insertMany more.toList) := by
  rw [union, Std.ExtTreeMap.foldl_eq_foldl_toList]
  cases hn : n[k]? with
  | none =>
    refine lookup_foldl_of_forall_ne m fun p hp hk => ?_
    rw [hk, Std.ExtTreeMap.mem_toList_iff_getElem?_eq_some.mp hp] at hn
    cases hn
  | some more =>
    -- each file is listed once
    obtain ⟨before, after, hlist⟩ :=
      List.append_of_mem (Std.ExtTreeMap.mem_toList_iff_getElem?_eq_some.mpr hn)
    have hdistinct := n.distinct_keys_toList
    rw [hlist, List.pairwise_append, List.pairwise_cons] at hdistinct
    obtain ⟨-, ⟨hafter, -⟩, hbefore⟩ := hdistinct
    have hne : ∀ p ∈ before, k ≠ p.1 := fun p hp heq =>
      hbefore p hp (k, more) List.mem_cons_self (Std.compare_eq_iff_eq.mpr heq.symm)
    have hne' : ∀ p ∈ after, k ≠ p.1 := fun p hp heq =>
      hafter p hp (Std.compare_eq_iff_eq.mpr heq)
    rw [hlist, List.foldl_append, List.foldl_cons, lookup_foldl_of_forall_ne _ hne', lookup_insert,
      if_pos rfl, OffsetMap.offsets, lookup_foldl_of_forall_ne m hne, OffsetMap.offsets]

theorem mem_offsets_union (m n : OffsetMap) (k : String) (offset : UInt32) :
    offset ∈ (m.union n).offsets k ↔ offset ∈ m.offsets k ∨ offset ∈ n.offsets k := by
  rw [OffsetMap.offsets, lookup_union]
  cases hn : n[k]? with
  | none =>
    have hnone : n.offsets k = ∅ := by rw [OffsetMap.offsets, hn]; rfl
    rw [hnone, or_iff_left Std.ExtTreeSet.not_mem_empty]
    rfl
  | some more =>
    have hsome : n.offsets k = more := by rw [OffsetMap.offsets, hn]; rfl
    rw [hsome, Option.getD_some, Std.ExtTreeSet.mem_insertMany_list, List.contains_iff_mem,
      Std.ExtTreeSet.mem_toList]

/-- Two maps joined have the offsets of either. -/
theorem offsets_union (m n : OffsetMap) (k : String) :
    (m.union n).offsets k = m.offsets k ∪ n.offsets k := by
  refine Std.ExtTreeSet.ext_mem fun offset => ?_
  rw [mem_offsets_union, Std.ExtTreeSet.mem_union_iff]

/-! ### Maps written -/

theorem isPlain_toJson (m : OffsetMap) : m.toJson.isPlain = true := by
  have hoffsets : ∀ s : Std.ExtTreeSet UInt32, (Json.ofList Json.word s.toList).isPlain = true :=
    fun s => Json.arePlain_map (fun _ => rfl) s.toList
  exact Json.isPlain_ofMap hoffsets m

theorem offsetsOfJson?_ofList (s : Std.ExtTreeSet UInt32) :
    offsetsOfJson? (Json.ofList Json.word s.toList) = some s := by
  rw [offsetsOfJson?, Json.asList?_ofList Json.asWord?_word, Option.map_some, ofList_toList_set]

theorem ofJson?_toJson (m : OffsetMap) : ofJson? m.toJson = some m :=
  Json.asMap?_ofMap (fun _ => rfl) offsetsOfJson?_ofList m

/-- The text that a map is written as describes the map. -/
theorem ofText_pretty (m : OffsetMap) : ofText m.toJson.pretty = .ok m := by
  rw [ofText, Json.parse?_pretty m.isPlain_toJson, Option.bind_some, ofJson?_toJson]

end OffsetMap

end SceneDebugger
