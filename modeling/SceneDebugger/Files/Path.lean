import SceneDebugger.Json.Decode

/-!
# SceneDebugger.Files.Path — paths by spelling and by components

A `Path` keeps its spelling, which is what is printed and stored.  Two spellings name the same place
when their components agree (`Path.same`): repeated and trailing slashes and inner `.` do not
count, `..` does.  Paths are ordered by components, the root first, then `.`, `..` and names
(`Path.key`).

* `Path.parent?`, `Path.fileName?`, `Path.withExtension`, `Path.join` work on the spelling.
* `PathMap` and `PathSet` hold one spelling of each place, under the key of the place.
-/

namespace SceneDebugger

/-- A path as it was spelled. -/
structure Path where
  text : String
  deriving DecidableEq, Repr, Inhabited

/-- A step of a path. -/
inductive Component where
  | root
  | here
  | up
  | name (text : String)
  deriving DecidableEq, Repr

/-- A text whose order is the order of components. -/
def Component.sortKey : Component → String
  | .root => "0"
  | .here => "1"
  | .up => "2"
  | .name text => "3" ++ text

namespace Path

/-! ### Spelling -/

/-- The pieces between slashes; one more than there are slashes. -/
def pieces : List Char → List (List Char)
  | [] => [[]]
  | c :: rest =>
    if c = '/' then [] :: pieces rest
    else
      match pieces rest with
      | [] => [[c]]
      | p :: ps => (c :: p) :: ps

/-- Pieces with slashes between them. -/
def joined : List (List Char) → List Char
  | [] => []
  | [p] => p
  | p :: ps => p ++ '/' :: joined ps

/-- How a path starts, which decides what its first component is. -/
inductive Start where
  /-- A slash. -/
  | root
  /-- A leading `.`. -/
  | here
  /-- Anything else. -/
  | plain
  deriving DecidableEq, Repr

/-- The start of a spelling and the pieces after it. -/
def split (p : Path) : Start × List (List Char) :=
  match p.text.toList with
  | '/' :: rest => (.root, pieces rest)
  | cs =>
    match pieces cs with
    | ['.'] :: rest => (.here, rest)
    | ps => (.plain, ps)

/-- The spelling with the given start and pieces. -/
def unsplit (start : Start) (ps : List (List Char)) : Path :=
  match start, ps with
  | .root, ps => ⟨String.ofList ('/' :: joined ps)⟩
  | .here, [] => ⟨"."⟩
  | .here, ps => ⟨String.ofList ('.' :: '/' :: joined ps)⟩
  | .plain, ps => ⟨String.ofList (joined ps)⟩

/-- A piece that is no component. -/
def isSilent (piece : List Char) : Bool := piece == [] || piece == ['.']

/-- The pieces without the silent ones at the end. -/
def trimEnd (ps : List (List Char)) : List (List Char) := (ps.reverse.dropWhile isSilent).reverse

/-- The last piece that is a component, and the pieces before it. -/
def lastPiece? (ps : List (List Char)) : Option (List (List Char) × List Char) :=
  match ps.reverse.dropWhile isSilent with
  | [] => none
  | last :: before => some (before.reverse, last)

/-- A name without its extension: up to the last dot, unless that dot leads. -/
def stemOf (name : List Char) : List Char :=
  match name.reverse.dropWhile (· ≠ '.') with
  | [] => name
  | _ :: before => if before = [] then name else before.reverse

/-! ### Components -/

/-- The component that a piece stands for. -/
def componentOf (piece : List Char) : Option Component :=
  if isSilent piece then none
  else if piece = ['.', '.'] then some .up
  else some (.name (String.ofList piece))

/-- The components of a path. -/
def components (p : Path) : List Component :=
  match p.split with
  | (.root, ps) => .root :: ps.filterMap componentOf
  | (.here, ps) => .here :: ps.filterMap componentOf
  | (.plain, ps) => ps.filterMap componentOf

/-- What paths are compared and ordered by. -/
def key (p : Path) : List String := p.components.map Component.sortKey

/-- Two spellings of one place. -/
def same (p q : Path) : Bool := p.key == q.key

/-! ### Navigation -/

/-- The path starts at the root. -/
def isAbsolute (p : Path) : Bool := p.split.1 == .root

/-- The directory that holds the last component. -/
def parent? (p : Path) : Option Path :=
  match p.split with
  | (start, ps) =>
    match lastPiece? ps with
    | some (before, _) => some (unsplit start (trimEnd before))
    | none => if start = .here then some ⟨""⟩ else none

/-- The last component, if it is a name. -/
def fileName? (p : Path) : Option (List Char) :=
  match lastPiece? p.split.2 with
  | some (_, last) => if last = ['.', '.'] then none else some last
  | none => none

/-- The path with what follows the stem of its file name replaced by an extension; a path without
a file name stays as it is. -/
def withExtension (extension : String) (p : Path) : Path :=
  match p.split with
  | (start, ps) =>
    match lastPiece? ps with
    | some (before, last) =>
      if last = ['.', '.'] then p
      else ⟨(unsplit start (before ++ [stemOf last])).text ++ "." ++ extension⟩
    | none => p

/-- A path continued by another one; an absolute path replaces what it continues. -/
def join (p q : Path) : Path :=
  if q.isAbsolute then q
  else if p.text = "" ∨ p.text.toList.getLast? = some '/' then ⟨p.text ++ q.text⟩
  else ⟨p.text ++ "/" ++ q.text⟩

/-- The path continued by a name. -/
def child (p : Path) (name : String) : Path := p.join ⟨name⟩

/-- The path with more characters at its end. -/
def suffixed (p : Path) (more : String) : Path := ⟨p.text ++ more⟩

/-- The name of a script without directories and extension. -/
def scriptStem (name : String) : String :=
  String.ofList (stemOf ((pieces name.toList).getLastD []))

/-! ### In documents -/

/-- A path in a document: its spelling. -/
def toJson (p : Path) : Json := .str p.text

/-- The path that a document spells. -/
def ofJson? (j : Json) : Option Path := j.asString?.map Path.mk

end Path

/-! ### Maps and sets of places -/

/-- Values by place; each place keeps one spelling. -/
@[ext]
structure PathMap (α : Type) where
  /-- Spellings and values, each under the key of its place. -/
  entries : Std.ExtTreeMap (List String) (Path × α)
  keyed : ∀ (key : List String) (path : Path) (value : α), entries[key]? = some (path, value) →
    path.key = key

namespace PathMap

variable {α : Type}

instance : EmptyCollection (PathMap α) where
  emptyCollection := { entries := ∅, keyed := fun _ _ _ h => by simp at h }

/-- The value at a place. -/
def at? (m : PathMap α) (p : Path) : Option α := m.entries[p.key]?.map Prod.snd

/-- The spelling that the map has for a place, or else the given one. -/
def spelling (m : PathMap α) (p : Path) : Path := (m.entries[p.key]?.map Prod.fst).getD p

theorem key_spelling (m : PathMap α) (p : Path) : (m.spelling p).key = p.key := by
  unfold spelling
  cases hentry : m.entries[p.key]? with
  | none => rfl
  | some entry => exact m.keyed p.key entry.1 entry.2 hentry

/-- The map with a value at a place, under the spelling that the map has for it. -/
def put (m : PathMap α) (p : Path) (a : α) : PathMap α where
  entries := m.entries.insert p.key (m.spelling p, a)
  keyed key path value h := by
    rw [Std.ExtTreeMap.getElem?_insert] at h
    split at h
    · next heq =>
      cases h
      exact (m.key_spelling p).trans (Std.compare_eq_iff_eq.mp heq)
    · exact m.keyed key path value h

/-- The map without a place. -/
def without (m : PathMap α) (p : Path) : PathMap α where
  entries := m.entries.erase p.key
  keyed key path value h := by
    rw [Std.ExtTreeMap.getElem?_erase] at h
    split at h
    · cases h
    · exact m.keyed key path value h

/-- The map that pairs give, put in one after the other. -/
def ofPairs (pairs : List (Path × α)) : PathMap α :=
  pairs.foldl (fun m (p, a) => put m p a) ∅

/-- The spellings and values in path order. -/
def pairs (m : PathMap α) : List (Path × α) := m.entries.toList.map Prod.snd

end PathMap

/-- A set of places; each place keeps one spelling. -/
structure PathSet where
  /-- Spellings, each under the key of its place. -/
  spellings : Std.ExtTreeMap (List String) Path
  keyed : ∀ (key : List String) (path : Path), spellings[key]? = some path → path.key = key

namespace PathSet

instance : EmptyCollection PathSet where
  emptyCollection := { spellings := ∅, keyed := fun _ _ h => by simp at h }

/-- The set with a place; a spelling that is there stays. -/
def add (s : PathSet) (p : Path) : PathSet where
  spellings := s.spellings.insertIfNew p.key p
  keyed key path h := by
    rw [Std.ExtTreeMap.getElem?_insertIfNew] at h
    split at h
    · next heq =>
      cases h
      exact Std.compare_eq_iff_eq.mp heq.1
    · exact s.keyed key path h

/-- The set with a place, under the given spelling. -/
def respell (s : PathSet) (p : Path) : PathSet where
  spellings := s.spellings.insert p.key p
  keyed key path h := by
    rw [Std.ExtTreeMap.getElem?_insert] at h
    split at h
    · next heq =>
      cases h
      exact Std.compare_eq_iff_eq.mp heq
    · exact s.keyed key path h

/-- The set that paths give, added one after the other: the first spelling of a place stays. -/
def ofPaths (paths : List Path) : PathSet := paths.foldl add ∅

/-- The set that paths give together: the last spelling of a place stays. -/
def collect (paths : List Path) : PathSet := paths.foldl respell ∅

/-- The place is in the set. -/
def has (s : PathSet) (p : Path) : Bool := s.spellings.contains p.key

/-- The spellings in path order. -/
def paths (s : PathSet) : List Path := s.spellings.toList.map Prod.snd

/-- The places of a set that another set lacks, in path order. -/
def minus (s t : PathSet) : List Path := s.paths.filter fun p => !has t p

/-- A set of paths in a document. -/
def toJson (s : PathSet) : Json := Json.ofList Path.toJson s.paths

/-- The set that a document lists. -/
def ofJson? (j : Json) : Option PathSet := (j.asList? Path.ofJson?).map ofPaths

end PathSet

end SceneDebugger
