import SceneDebugger.Text.Digits
import SceneDebugger.Text.Encoding

/-!
# SceneDebugger.Machine.Memory — the memory of the emulated machine

A memory of 2^32 bytes that is zero where nothing was written, with ranges that cannot be read.
Addresses wrap around.  A read answers with all of its bytes or fails at the first unreadable one.

* `Memory.word?`, `Memory.halfword?`, `Memory.byte?` read little-endian numbers.
* `Memory.string?` reads a text up to its NUL byte, `Memory.stringLimit` bytes at most, in chunks.
-/

namespace SceneDebugger

/-- The memory of the machine. -/
structure Memory where
  /-- The blocks written, the newest first, each with the address of its first byte. -/
  blocks : List (UInt32 × ByteArray) := []
  /-- The ranges that cannot be read, each with its first address and the one after its last. -/
  unmapped : List (Nat × Nat) := []

namespace Memory

/-! ### Bytes -/

/-- The byte of a block at an address, if the block reaches there. -/
def blockByte? (a : UInt32) (block : UInt32 × ByteArray) : Option UInt8 :=
  block.2[(a - block.1).toNat]?

/-- The byte last written at an address. -/
def byteAt (m : Memory) (a : UInt32) : UInt8 := (m.blocks.findSome? (blockByte? a)).getD 0

/-- An address can be read. -/
def isMapped (m : Memory) (a : UInt32) : Bool :=
  m.unmapped.all fun (first, limit) => !(first ≤ a.toNat && a.toNat < limit)

/-- The memory with bytes written from an address on. -/
def write (m : Memory) (a : UInt32) (bytes : ByteArray) : Memory :=
  { m with blocks := (a, bytes) :: m.blocks }

/-- The memory with a further range that cannot be read. -/
def unmap (m : Memory) (first limit : Nat) : Memory :=
  { m with unmapped := (first, limit) :: m.unmapped }

/-- The two bytes of a halfword, the lower one first. -/
def halfwordBytes (value : UInt16) : ByteArray := ⟨#[value.toUInt8, (value >>> 8).toUInt8]⟩

/-- The four bytes of a word, the lowest one first. -/
def wordBytes (value : UInt32) : ByteArray :=
  ⟨#[value.toUInt8, (value >>> 8).toUInt8, (value >>> 16).toUInt8, (value >>> 24).toUInt8]⟩

/-- The memory with a halfword written. -/
def writeHalfword (m : Memory) (a : UInt32) (value : UInt16) : Memory := m.write a (halfwordBytes value)

/-- The memory with a word written. -/
def writeWord (m : Memory) (a : UInt32) (value : UInt32) : Memory := m.write a (wordBytes value)

/-! ### Reading -/

/-- Bytes from an address on; the error says where memory cannot be read. -/
def bytes? (m : Memory) : UInt32 → Nat → Except String (List UInt8)
  | _, 0 => .ok []
  | a, n + 1 =>
    if m.isMapped a then
      match m.bytes? (a + 1) n with
      | .ok rest => .ok (m.byteAt a :: rest)
      | .error e => .error e
    else .error ("unmapped " ++ Text.address a)

/-- The number whose bytes are given, the lowest one first. -/
def littleEndian (bytes : List UInt8) : Nat := bytes.foldr (fun b n => b.toNat + 256 * n) 0

/-- The number in the bytes from an address on. -/
def number? (m : Memory) (a : UInt32) (size : Nat) : Except String Nat :=
  (m.bytes? a size).map littleEndian

/-- A byte. -/
def byte? (m : Memory) (a : UInt32) : Except String UInt8 := (m.number? a 1).map UInt8.ofNat

/-- A halfword. -/
def halfword? (m : Memory) (a : UInt32) : Except String UInt16 := (m.number? a 2).map UInt16.ofNat

/-- A word. -/
def word? (m : Memory) (a : UInt32) : Except String UInt32 := (m.number? a 4).map UInt32.ofNat

/-! ### Texts -/

/-- The most bytes that a text has. -/
def stringLimit : Nat := 1024

/-- How many bytes of a text are read at once. -/
def chunkSize : Nat := 16

/-- The bytes before the first NUL byte in at most `chunks` chunks from an address on. -/
def stringBytes? (m : Memory) : Nat → UInt32 → Except String (List UInt8)
  | 0, _ => .ok []
  | chunks + 1, a =>
    match m.bytes? a chunkSize with
    | .error e => .error e
    | .ok chunk =>
      if chunk.contains 0 then .ok (chunk.takeWhile (· ≠ 0))
      else
        match m.stringBytes? chunks (a + UInt32.ofNat chunkSize) with
        | .ok rest => .ok (chunk ++ rest)
        | .error e => .error e

/-- The text at an address. -/
def string? (m : Memory) (a : UInt32) (encoding : Text.Encoding) : Except String String :=
  (m.stringBytes? (stringLimit / chunkSize) a).map encoding.decode

end Memory

end SceneDebugger
