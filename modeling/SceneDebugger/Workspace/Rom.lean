import Std.Data.ExtTreeMap.Lemmas

/-!
# SceneDebugger.Workspace.Rom — the files of the game

A ROM holds files by name.  Files are written first and then saved together.  Each of the three
operations can be out of order, in which case it does nothing.
-/

namespace SceneDebugger

/-- The files of the game. -/
structure Rom where
  files : Std.ExtTreeMap String ByteArray := ∅
  /-- How often the files were saved. -/
  saves : Nat := 0
  readFails : Bool := false
  writeFails : Bool := false
  saveFails : Bool := false

namespace Rom

/-- The bytes of a file, none if there is no such file. -/
def read (r : Rom) (file : String) : Except String (Option ByteArray) :=
  if r.readFails then .error "rom_read failed" else .ok r.files[file]?

/-- The ROM with the bytes of a file. -/
def write (r : Rom) (file : String) (bytes : ByteArray) : Except String Rom :=
  if r.writeFails then .error "rom_write failed"
  else .ok { r with files := r.files.insert file bytes }

/-- The ROM with its files saved. -/
def save (r : Rom) : Except String Rom :=
  if r.saveFails then .error "rom_save failed" else .ok { r with saves := r.saves + 1 }

end Rom

end SceneDebugger
