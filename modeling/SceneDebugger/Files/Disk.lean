import SceneDebugger.Files.Fault
import SceneDebugger.Files.Path

/-!
# SceneDebugger.Files.Disk — directories and files of the host

A `Disk` maps places to files and directories.  A place is the list of names that lead to it from
the working directory; `/` leads a place below the root, and `..` one above the working directory.
What a path denotes is decided step by step, as a host does it: every step but the last has to be a
directory, and neither a name nor a path may be longer than the host allows.

* `Disk.read`, `Disk.write`, `Disk.makeDirectory`, `Disk.rename` are the primitive operations;
  `Disk.remove` removes a file, or a directory with all that is below it.
* `Disk.makeDirectories` makes a directory and the ones above it, `Disk.put` a file and these.
* `Disk.replace` writes a file through a sibling `.tmp`, so that a failure leaves the old content.

The host may refuse any step of a coming `replace`: `Disk.refusals` lists the step refused in each.
-/

namespace SceneDebugger

/-- The names that lead to a place from the working directory. -/
abbrev Place := List String

/-- What is at a place. -/
inductive Node where
  | file (text : String)
  | directory
  deriving DecidableEq, Repr

/-- A step of an atomic write. -/
inductive WriteStep where
  | directories
  | temporary
  | rename
  deriving DecidableEq, Repr

/-- The directories and files of the host. -/
structure Disk where
  nodes : Std.ExtTreeMap Place Node := ∅
  /-- For each coming atomic write, the step that the host refuses. -/
  refusals : List (Option WriteStep) := []

namespace Disk

/-! ### Places -/

/-- The place one directory up. -/
def up (place : Place) : Place :=
  if place = ["/"] then place
  else if place.getLast? = some ".." ∨ place = [] then place ++ [".."]
  else place.dropLast

/-- The place that a name leads to. -/
def step (place : Place) (name : String) : Place :=
  if name = ".." then up place else place ++ [name]

/-- A directory is at the place.  The working directory, those above it and the root always are. -/
def directoryAt (d : Disk) (place : Place) : Bool :=
  place.all (· == "..") || place == ["/"] || d.nodes[place]? == some .directory

/-- The text of the file at the place. -/
def fileAt? (d : Disk) (place : Place) : Option String :=
  match d.nodes[place]? with
  | some (.file text) => some text
  | _ => none

/-- How many bytes of UTF-8 a name may have. -/
def maxNameSize : Nat := 255

/-- How many bytes of UTF-8 a path may have. -/
def maxPathSize : Nat := 4095

/-- The place that names lead to; all but the last have to be directories. -/
def follow (d : Disk) : Place → List String → Except Fault Place
  | place, [] => .ok place
  | place, name :: rest =>
    if d.directoryAt place then
      if name.utf8ByteSize ≤ maxNameSize then d.follow (step place name) rest
      else .error .nameTooLong
    else if (d.fileAt? place).isSome then .error .notDirectory
    else .error .notFound

/-- The names of a path. -/
def names (p : Path) : List String :=
  (p.split.2.filter fun piece => !Path.isSilent piece).map String.ofList

/-- The path can only denote a directory: it ends in a slash or a `.`. -/
def wantsDirectory (p : Path) : Bool :=
  (Path.pieces p.text.toList).getLast?.any Path.isSilent

/-- The path ends in a `.`, slashes aside, so it can only denote a directory that is there. -/
def endsInHere (p : Path) : Bool :=
  ((Path.pieces p.text.toList).reverse.dropWhile (· == [])).head? == some ['.']

/-- The place that a path denotes, whether or not something is there. -/
def locate (d : Disk) (p : Path) : Except Fault Place :=
  if p.text.toList.contains '\x00' then .error .nulInName
  else if p.text = "" then .error .notFound
  else if maxPathSize < p.text.utf8ByteSize then .error .nameTooLong
  else do
    let place ← d.follow (if p.isAbsolute then ["/"] else []) (names p)
    if wantsDirectory p ∧ (d.fileAt? place).isSome then .error .notDirectory else .ok place

/-- The path denotes a directory. -/
def isDirectory (d : Disk) (p : Path) : Bool :=
  match d.locate p with
  | .ok place => d.directoryAt place
  | .error _ => false

/-- The path denotes a file. -/
def isFile (d : Disk) (p : Path) : Bool :=
  match d.locate p with
  | .ok place => !d.directoryAt place && (d.fileAt? place).isSome
  | .error _ => false

/-- Something is where the path leads. -/
def exists? (d : Disk) (p : Path) : Bool := d.isDirectory p || d.isFile p

/-! ### Primitive operations -/

/-- The text of a file. -/
def read (d : Disk) (p : Path) : Except Fault String := do
  let place ← d.locate p
  if d.directoryAt place then .error .isDirectory
  else
    match d.fileAt? place with
    | some text => .ok text
    | none => .error .notFound

/-- The disk with a file's text; the directory has to be there. -/
def write (d : Disk) (p : Path) (text : String) : Except Fault Disk := do
  let place ← d.locate p
  if d.directoryAt place ∨ wantsDirectory p then .error .isDirectory
  else .ok { d with nodes := d.nodes.insert place (.file text) }

/-- The disk with one more directory. -/
def makeDirectory (d : Disk) (p : Path) : Except Fault Disk := do
  let place ← d.locate p
  if d.directoryAt place ∨ (d.fileAt? place).isSome then .error .alreadyExists
  else if endsInHere p then .error .notFound
  else .ok { d with nodes := d.nodes.insert place .directory }

/-- The disk with a file under another name; a file that had it is gone. -/
def rename (d : Disk) (source target : Path) : Except Fault Disk := do
  let old ← d.locate source
  let new ← d.locate target
  match d.fileAt? old with
  | none => .error .notFound
  | some text =>
    if d.directoryAt new then .error .isDirectory
    else if wantsDirectory target then .error .notDirectory
    else .ok { d with nodes := (d.nodes.erase old).insert new (.file text) }

/-- A place is below another one.  The root and the directories above the working directory are not
below it. -/
def isBelow (place other : Place) : Bool :=
  place != other && place.isPrefixOf other
    && (place != [] || !other.head?.any fun name => name == ".." || name == "/")

/-- The disk without what is below a place. -/
def emptied (d : Disk) (place : Place) : Disk :=
  { d with nodes := d.nodes.filter fun other _ => !isBelow place other }

/-- The disk without what is at a place. -/
def without (d : Disk) (place : Place) : Disk := { d with nodes := d.nodes.erase place }

/-- The disk without what a path denotes, and without what is below it.  A directory is emptied
first and then looked up again.  It stays when the path led through what was below it, which counts
as success, and when the path ends in a `.`, which is a failure. -/
def remove (d : Disk) (p : Path) : Except Fault Unit × Disk :=
  match d.locate p with
  | .error fault => (.error fault, d)
  | .ok place =>
    if d.directoryAt place then
      let d := d.emptied place
      match d.locate p with
      | .error .notFound => (.ok (), d)
      | .error fault => (.error fault, d)
      | .ok place => if endsInHere p then (.error .refused, d) else (.ok (), d.without place)
    else if (d.fileAt? place).isSome then (.ok (), d.without place)
    else (.error .notFound, d)

/-! ### Directories above a file -/

/-- A path, its parent, the parent's parent and so on, at most `n` of them. -/
def lineage : Nat → Path → List Path
  | 0, _ => []
  | n + 1, p => p :: (p.parent?.map (lineage n)).getD []

/-- The first directory of a lineage, made after the ones above it.  What is a directory already
stays one; directories made before a failure stay too. -/
def makeLineage (d : Disk) : List Path → Except Fault Unit × Disk
  | [] => (.error .notFound, d)
  | p :: above =>
    if p.components = [] then (.ok (), d)
    else
      match d.makeDirectory p with
      | .ok made => (.ok (), made)
      | .error .notFound =>
        match d.makeLineage above with
        | (.error fault, d) => (.error fault, d)
        | (.ok (), d) =>
          match d.makeDirectory p with
          | .ok made => (.ok (), made)
          | .error fault => if d.isDirectory p then (.ok (), d) else (.error fault, d)
      | .error fault => if d.isDirectory p then (.ok (), d) else (.error fault, d)

/-- A directory, with the ones above it. -/
def makeDirectories (d : Disk) (p : Path) : Except Fault Unit × Disk :=
  d.makeLineage (lineage (p.components.length + 1) p)

/-- The directories above a path. -/
def makeParents (d : Disk) (p : Path) : Except Fault Unit × Disk :=
  (p.parent?.map d.makeDirectories).getD (.ok (), d)

/-- A file written in place, after the directories above it were made. -/
def put (d : Disk) (p : Path) (text : String) : Except Fault Unit × Disk :=
  match d.makeParents p with
  | (.error fault, d) => (.error fault, d)
  | (.ok (), d) =>
    match d.write p text with
    | .error fault => (.error fault, d)
    | .ok d => (.ok (), d)

/-! ### Writing a file whole -/

/-- The sibling that a file is written to first. -/
def temporary (p : Path) : Path := p.suffixed ".tmp"

/-- The refusal for the next atomic write, and the disk that has it behind it. -/
def nextRefusal (d : Disk) : Option WriteStep × Disk :=
  match d.refusals with
  | [] => (none, d)
  | r :: rest => (r, { d with refusals := rest })

/-- A file written through its temporary sibling, after the directories above it were made. -/
def replace (d : Disk) (p : Path) (text : String) : Except Fault Unit × Disk :=
  let (refusal, d) := d.nextRefusal
  if refusal = some .directories then (.error .refused, d)
  else
    match d.makeParents p with
    | (.error fault, d) => (.error fault, d)
    | (.ok (), d) =>
      if refusal = some .temporary then (.error .refused, d)
      else
        match d.write (temporary p) text with
        | .error fault => (.error fault, d)
        | .ok d =>
          if refusal = some .rename then (.error .refused, d)
          else
            match d.rename (temporary p) p with
            | .error fault => (.error fault, d)
            | .ok d => (.ok (), d)

/-! ### Listing -/

/-- What is at and below a place, by the names from there: the files with their texts, and the
directories that hold nothing. -/
def listing (d : Disk) (place : Place) : List (Place × Option String) :=
  d.nodes.toList.filterMap fun (other, node) =>
    if place.isPrefixOf other then
      match node with
      | .file text => some (other.drop place.length, some text)
      | .directory =>
        if d.nodes.toList.any fun (inner, _) => other.isPrefixOf inner && inner != other then none
        else some (other.drop place.length, none)
    else none

end Disk

end SceneDebugger
