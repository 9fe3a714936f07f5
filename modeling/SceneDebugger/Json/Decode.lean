import SceneDebugger.Json.Reader
import Std.Data.ExtTreeMap.Lemmas
import Std.Data.ExtTreeSet.Lemmas

/-!
# SceneDebugger.Json.Decode — typed values in JSON documents

A decoder is a function `Json → Option α`.  The rules for stored records:

* a record is an object, or an array of its parts in declaration order (`Json.parts?`); unknown
  fields are skipped, a repeated field or a surplus item is refused;
* a missing part takes its default, if it has one (`Json.part?`), else it is refused
  (`Json.needed?`); `null` is a value and not a missing part, except where the value is optional;
* a repeated key of a map keeps the last value (`Json.asMap?`);
* a key that is a number is written in plain digits (`Json.asWordMap?`).
-/

namespace SceneDebugger

namespace Json

/-! ### Scalars -/

/-- A truth value. -/
def asBool? : Json → Option Bool
  | .bool b => some b
  | _ => none

/-- A text. -/
def asString? : Json → Option String
  | .str s => some s
  | _ => none

/-- An integer from `low` to `high`. -/
def asIntIn? (low high : Int) : Json → Option Int
  | .int i => if low ≤ i ∧ i ≤ high then some i else none
  | _ => none

/-- A natural number below `bound`. -/
def asNatBelow? (bound : Nat) : Json → Option Nat
  | .int (.ofNat n) => if n < bound then some n else none
  | _ => none

/-- A byte. -/
def asByte? (j : Json) : Option UInt8 := (j.asNatBelow? UInt8.size).map UInt8.ofNat

/-- A 16-bit word. -/
def asWord16? (j : Json) : Option UInt16 := (j.asNatBelow? UInt16.size).map UInt16.ofNat

/-- A 32-bit word. -/
def asWord? (j : Json) : Option UInt32 := (j.asNatBelow? UInt32.size).map UInt32.ofNat

/-- A 64-bit word. -/
def asWord64? (j : Json) : Option UInt64 := (j.asNatBelow? UInt64.size).map UInt64.ofNat

/-- A natural number that fits 64 bits. -/
def asIndex? (j : Json) : Option Nat := j.asNatBelow? UInt64.size

/-! ### Containers -/

/-- A value or `null`. -/
def asOption? {α : Type} (decode : Json → Option α) : Json → Option (Option α)
  | .null => some none
  | j => (decode j).map some

/-- An array of like items. -/
def asList? {α : Type} (decode : Json → Option α) : Json → Option (List α)
  | .arr items => items.mapM decode
  | _ => none

/-- An array of exactly two items. -/
def asPair? {α β : Type} (first : Json → Option α) (second : Json → Option β) :
    Json → Option (α × β)
  | .arr [a, b] => do return (← first a, ← second b)
  | _ => none

/-- The fields of an object with decoded keys and values, in the order written. -/
def asFields? {κ α : Type} (key : String → Option κ) (decode : Json → Option α) :
    Json → Option (List (κ × α))
  | .obj fields _ => fields.mapM fun (name, item) => do return (← key name, ← decode item)
  | _ => none

/-- An object as a map; the last value of a repeated key stays. -/
def asMap? {κ α : Type} [Ord κ] (key : String → Option κ) (decode : Json → Option α) (j : Json) :
    Option (Std.ExtTreeMap κ α) :=
  (j.asFields? key decode).map fun fields => Std.ExtTreeMap.ofList fields

/-- A key that is a number: written as a JSON integer that fits 32 bits. -/
def wordKey? (name : String) : Option UInt32 :=
  match readUnsigned? false name.toList with
  | some (j, []) => j.asWord?
  | _ => none

/-- An object with numbers for keys as a map. -/
def asWordMap? {α : Type} (decode : Json → Option α) (j : Json) :
    Option (Std.ExtTreeMap UInt32 α) :=
  match j with
  | .obj _ false => none
  | j => j.asMap? wordKey? decode

/-! ### Records -/

/-- The parts found so far with a further field; none where the field was found before. -/
def fillPart? (names : List String) (name : String) (item : Json) (found : List (Option Json)) :
    Option (List (Option Json)) :=
  match names, found with
  | n :: ns, p :: ps =>
    if n = name then
      if p.isSome then none else some (some item :: ps)
    else (fillPart? ns name item ps).map (p :: ·)
  | _, found => some found

/-- The parts that the fields of an object give, those of `found` included. -/
def fieldParts? (names : List String) :
    List (String × Json) → List (Option Json) → Option (List (Option Json))
  | [], found => some found
  | (name, item) :: rest, found => do fieldParts? names rest (← fillPart? names name item found)

/-- The parts of a record, one for each name: the fields of an object by name, the items of an
array by position. -/
def parts? (names : List String) : Json → Option (List (Option Json))
  | .obj fields _ => fieldParts? names fields (names.map fun _ => none)
  | .arr items =>
    if items.length ≤ names.length then
      some (items.map some ++ List.replicate (names.length - items.length) none)
    else none
  | _ => none

/-- A part that has a default. -/
def part? {α : Type} (decode : Json → Option α) (default : α) : Option Json → Option α
  | none => some default
  | some j => decode j

/-- A part that must be given. -/
def needed? {α : Type} (decode : Json → Option α) : Option Json → Option α
  | none => none
  | some j => decode j

/-! ### Writing containers -/

/-- A list as an array. -/
def ofList {α : Type} (write : α → Json) (items : List α) : Json := .arr (items.map write)

/-- A map as an object, in key order. -/
def ofMap {κ α : Type} [Ord κ] [Std.TransOrd κ] (key : κ → String) (write : α → Json)
    (m : Std.ExtTreeMap κ α) : Json :=
  .obj (m.toList.map fun (k, a) => (key k, write a))

/-- A 32-bit word as a key. -/
def keyOfWord (w : UInt32) : String := String.ofList (Nat.toDigits 10 w.toNat)

/-- A 32-bit word. -/
def word (w : UInt32) : Json := nat w.toNat

end Json

end SceneDebugger
