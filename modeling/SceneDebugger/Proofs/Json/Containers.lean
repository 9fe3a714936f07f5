import SceneDebugger.Json.Decode
import SceneDebugger.Proofs.Json.RoundTrip

/-!
# SceneDebugger.Proofs.Json.Containers — lists, options and maps in documents

A decoder inverts a writer on containers if it does on what they hold.

* `Json.asList?_ofList`, `Json.asOption?_ofOption`, `Json.asMap?_ofMap`: they are read back.
* `Json.wordKey?_keyOfWord`: so are keys that are numbers.
-/

namespace SceneDebugger

/-! ### Lists of what a collection holds -/

theorem ofList_toList_set {κ : Type} [Ord κ] [Std.TransOrd κ] [Std.LawfulEqOrd κ] [BEq κ]
    [Std.LawfulBEqOrd κ] [LawfulBEq κ] (s : Std.ExtTreeSet κ) :
    Std.ExtTreeSet.ofList s.toList = s := by
  refine Std.ExtTreeSet.ext_mem fun k => ?_
  rw [Std.ExtTreeSet.mem_ofList, List.contains_iff_mem, Std.ExtTreeSet.mem_toList]

theorem ofList_toList_map {κ α : Type} [Ord κ] [Std.TransOrd κ] [Std.LawfulEqOrd κ] [BEq κ]
    [Std.LawfulBEqOrd κ] (m : Std.ExtTreeMap κ α) : Std.ExtTreeMap.ofList m.toList = m := by
  refine Std.ExtTreeMap.ext_getElem? fun k => ?_
  cases hk : m[k]? with
  | some a =>
    exact Std.ExtTreeMap.getElem?_ofList_of_mem Std.ReflCmp.compare_self
      Std.ExtTreeMap.distinct_keys_toList (Std.ExtTreeMap.mem_toList_iff_getElem?_eq_some.mpr hk)
  | none =>
    refine Std.ExtTreeMap.getElem?_ofList_of_contains_eq_false ?_
    rw [Std.ExtTreeMap.map_fst_toList_eq_keys, Std.ExtTreeMap.contains_keys,
      Std.ExtTreeMap.contains_eq_isSome_getElem?, hk]
    rfl

/-! ### Items and fields -/

namespace Json

theorem asWord?_word (w : UInt32) : (word w).asWord? = some w := by
  have hw : w.toNat < UInt32.size := w.toNat_lt_size
  have hread : (word w).asNatBelow? UInt32.size = some w.toNat := if_pos hw
  rw [asWord?, hread, Option.map_some, UInt32.ofNat_toNat]

/-- A list is read back item by item. -/
theorem asList?_ofList {α : Type} {decode : Json → Option α} {write : α → Json}
    (h : ∀ a, decode (write a) = some a) (items : List α) :
    (ofList write items).asList? decode = some items :=
  mapM_map_of_inverse h items

theorem arePlain_map {α : Type} {write : α → Json} (h : ∀ a, (write a).isPlain = true)
    (items : List α) : arePlain (items.map write) = true := by
  induction items with
  | nil => rfl
  | cons a rest ih => rw [List.map_cons, arePlain, h a, ih, Bool.and_self]

theorem havePlain_map {α : Type} {name : α → String} {write : α → Json}
    (h : ∀ a, (write a).isPlain = true) (items : List α) :
    havePlain (items.map fun a => (name a, write a)) = true := by
  induction items with
  | nil => rfl
  | cons a rest ih => rw [List.map_cons, havePlain, h, ih, Bool.and_self]

/-- What is absent is written as `null`, which nothing else is. -/
theorem asOption?_ofOption {α : Type} {decode : Json → Option α} {write : α → Json}
    (h : ∀ a, decode (write a) = some a) (hnull : decode .null = none) (o : Option α) :
    (ofOption write o).asOption? decode = some o := by
  cases o with
  | none => rfl
  | some a =>
    rw [ofOption, asOption?.eq_def]
    split
    next heq => cases hnull.symm.trans (heq ▸ h a)
    next => rw [h, Option.map_some]

theorem isPlain_ofOption {α : Type} {write : α → Json} (h : ∀ a, (write a).isPlain = true)
    (o : Option α) : (ofOption write o).isPlain = true := by
  cases o with
  | none => rfl
  | some a => exact h a

/-- A map is read back key by key. -/
theorem asMap?_ofMap {κ α : Type} [Ord κ] [Std.TransOrd κ] [Std.LawfulEqOrd κ] [BEq κ]
    [Std.LawfulBEqOrd κ] {key : String → Option κ} {name : κ → String} {decode : Json → Option α}
    {write : α → Json} (hkey : ∀ k, key (name k) = some k) (h : ∀ a, decode (write a) = some a)
    (m : Std.ExtTreeMap κ α) : (ofMap name write m).asMap? key decode = some m := by
  have hfield : ∀ field : κ × α,
      (do return (← key (name field.1), ← decode (write field.2))) = some field := by
    intro field
    rw [hkey, h]
    rfl
  have hfields : (ofMap name write m).asFields? key decode = some m.toList :=
    mapM_map_of_inverse hfield m.toList
  rw [asMap?, hfields, Option.map_some, ofList_toList_map]

theorem isPlain_ofMap {κ α : Type} [Ord κ] [Std.TransOrd κ] {name : κ → String} {write : α → Json}
    (h : ∀ a, (write a).isPlain = true) (m : Std.ExtTreeMap κ α) :
    (ofMap name write m).isPlain = true :=
  havePlain_map (fun field : κ × α => h field.2) m.toList

/-- A number is read back from its digits as a key. -/
theorem wordKey?_keyOfWord (w : UInt32) : wordKey? (keyOfWord w) = some w := by
  have hends : EndsNumber [] := fun _ hc => absurd hc (by simp)
  have hread := readUnsigned?_toDigits false w.toNat hends
  rw [List.append_nil, number_toDigits] at hread
  rw [wordKey?, keyOfWord, String.toList_ofList, hread]
  exact asWord?_word w

end Json

end SceneDebugger
