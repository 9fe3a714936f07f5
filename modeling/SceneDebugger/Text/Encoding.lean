/-!
# SceneDebugger.Text.Encoding — text in the memory of the game

Two encodings of the strings that the game keeps.  Decoding never fails: in Latin-1 a byte is its
code point, and in UTF-8 every longest run of bytes that starts a character and cannot go on is read
as one replacement character U+FFFD.
-/

namespace SceneDebugger.Text

/-- How a string is stored. -/
inductive Encoding where
  | utf8
  | latin1
  deriving DecidableEq, Repr

/-- What stands for bytes that are no character. -/
def replacement : Char := Char.ofNat 0xFFFD

/-- A character of UTF-8 that has begun: how many bytes it still needs, the range of the next one,
and the bits so far. -/
structure Begun where
  owed : Nat
  low : UInt8
  high : UInt8
  bits : Nat
  deriving DecidableEq, Repr

/-- What a byte begins: a whole character, or one that needs further bytes. -/
def begin? (b : UInt8) : Char ⊕ Begun :=
  if b < 0x80 then .inl (Char.ofNat b.toNat)
  else if 0xC2 ≤ b ∧ b ≤ 0xDF then .inr ⟨1, 0x80, 0xBF, b.toNat % 0x20⟩
  else if b = 0xE0 then .inr ⟨2, 0xA0, 0xBF, 0⟩
  else if b = 0xED then .inr ⟨2, 0x80, 0x9F, 0xD⟩
  else if 0xE1 ≤ b ∧ b ≤ 0xEF then .inr ⟨2, 0x80, 0xBF, b.toNat % 0x10⟩
  else if b = 0xF0 then .inr ⟨3, 0x90, 0xBF, 0⟩
  else if 0xF1 ≤ b ∧ b ≤ 0xF3 then .inr ⟨3, 0x80, 0xBF, b.toNat % 8⟩
  else if b = 0xF4 then .inr ⟨3, 0x80, 0x8F, 4⟩
  else .inl replacement

/-- The character that has begun, with a further byte of it. -/
def Begun.extend (p : Begun) (b : UInt8) : Char ⊕ Begun :=
  let bits := p.bits * 0x40 + b.toNat % 0x40
  if p.owed ≤ 1 then .inl (Char.ofNat bits) else .inr ⟨p.owed - 1, 0x80, 0xBF, bits⟩

/-- The characters of UTF-8 bytes after a character that may have begun. -/
def ofUtf8From : Option Begun → List UInt8 → List Char
  | none, [] => []
  | some _, [] => [replacement]
  | none, b :: rest =>
    match begin? b with
    | .inl c => c :: ofUtf8From none rest
    | .inr p => ofUtf8From (some p) rest
  | some p, b :: rest =>
    if p.low ≤ b ∧ b ≤ p.high then
      match p.extend b with
      | .inl c => c :: ofUtf8From none rest
      | .inr q => ofUtf8From (some q) rest
    -- the byte does not go on with the character: one replacement, and the byte begins anew
    else replacement ::
      match begin? b with
      | .inl c => c :: ofUtf8From none rest
      | .inr q => ofUtf8From (some q) rest

/-- The characters of UTF-8 bytes, with a replacement for each ill-formed run. -/
def ofUtf8 (bytes : List UInt8) : List Char := ofUtf8From none bytes

/-- The characters of Latin-1 bytes. -/
def ofLatin1 (bytes : List UInt8) : List Char := bytes.map fun b => Char.ofNat b.toNat

/-- The Latin-1 bytes of characters, with a question mark for those that it lacks. -/
def toLatin1 (cs : List Char) : List UInt8 :=
  cs.map fun c => UInt8.ofNat (if c.toNat < 256 then c.toNat else '?'.toNat)

/-- The text that bytes stand for. -/
def Encoding.decode (encoding : Encoding) (bytes : List UInt8) : String :=
  match encoding with
  | .utf8 => String.ofList (ofUtf8 bytes)
  | .latin1 => String.ofList (ofLatin1 bytes)

end SceneDebugger.Text
