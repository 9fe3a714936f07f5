import SceneDebugger.Proofs.Machine.Texts
import SceneDebugger.Script.Record

/-!
# SceneDebugger.Proofs.Script.Probing — the records that running scripts have

The debugger reads the engine's record of a running script as it lies in memory.  What it takes from
there is said of the numbers in the bytes, with each byte at its place; which records it refuses is said
of these numbers.

* `ScriptRecord.IsStoredIn`: the numbers that the bytes of a record hold.
* `ScriptRecord.IsValid`: the records that running scripts can have.
* `ScriptContext.Describes`: what is to be known of a running script.
* `ScriptContext.probe_valid`: exactly the valid records are accepted, and described.
-/

namespace SceneDebugger

/-! ### Numbers in bytes -/

namespace Memory

variable {bytes bytes' : List UInt8} {k : Nat}

/-- The byte at a place. -/
def byteOf (bytes : List UInt8) (k : Nat) : Nat := (bytes.getD k 0).toNat

/-- The number in two bytes, the lower one first. -/
def halfwordOf (bytes : List UInt8) (k : Nat) : Nat := byteOf bytes k + 0x100 * byteOf bytes (k + 1)

/-- The number in four bytes, the lowest one first. -/
def wordOf (bytes : List UInt8) (k : Nat) : Nat :=
  byteOf bytes k + 0x100 * byteOf bytes (k + 1) + 0x10000 * byteOf bytes (k + 2)
    + 0x1000000 * byteOf bytes (k + 3)

/-- The number in two bytes, negative from the middle of its range on. -/
def signedOf (bytes : List UInt8) (k : Nat) : Int :=
  if halfwordOf bytes k < 0x8000 then halfwordOf bytes k else halfwordOf bytes k - 0x10000

theorem byteOf_lt (bytes : List UInt8) (k : Nat) : byteOf bytes k < 0x100 := UInt8.toNat_lt _

theorem littleEndian_from (bytes : List UInt8) (k n : Nat) :
    littleEndian ((bytes.drop k).take (n + 1)) =
      byteOf bytes k + 256 * littleEndian ((bytes.drop (k + 1)).take n) := by
  by_cases hk : k < bytes.length
  · rw [List.drop_eq_getElem_cons hk, List.take_succ_cons]
    simp [littleEndian, byteOf, hk]
  · have hnone : bytes.drop k = [] := List.drop_of_length_le (Nat.le_of_not_lt hk)
    have hrest : bytes.drop (k + 1) = [] := List.drop_of_length_le (by omega)
    simp [hnone, hrest, littleEndian, byteOf, Nat.le_of_not_lt hk]

theorem littleEndian_two (bytes : List UInt8) (k : Nat) :
    littleEndian ((bytes.drop k).take 2) = halfwordOf bytes k := by
  rw [littleEndian_from, littleEndian_from, List.take_zero, halfwordOf]
  rfl

theorem littleEndian_four (bytes : List UInt8) (k : Nat) :
    littleEndian ((bytes.drop k).take 4) = wordOf bytes k := by
  rw [littleEndian_from, littleEndian_from, littleEndian_from, littleEndian_from, List.take_zero, wordOf]
  simp only [littleEndian, List.foldr_nil, Nat.add_assoc, Nat.reduceAdd]
  omega

theorem toNat_wordIn (bytes : List UInt8) (k : Nat) :
    (ScriptContext.wordIn bytes k).toNat = wordOf bytes k := by
  rw [ScriptContext.wordIn, littleEndian_four, UInt32.toNat_ofNat']
  have := byteOf_lt bytes k
  have := byteOf_lt bytes (k + 1)
  have := byteOf_lt bytes (k + 2)
  have := byteOf_lt bytes (k + 3)
  unfold wordOf
  omega

theorem toInt_signedIn (bytes : List UInt8) (k : Nat) :
    (ScriptContext.signedIn bytes k).toInt = signedOf bytes k := by
  rw [ScriptContext.signedIn, littleEndian_two, Int16.toInt_ofNat']
  have := byteOf_lt bytes k
  have := byteOf_lt bytes (k + 1)
  unfold signedOf halfwordOf Int16.size
  rw [Int.bmod_def]
  split_ifs <;> omega

theorem wordIn_congr (h : ∀ j, k ≤ j → j < k + 4 → bytes'.getD j 0 = bytes.getD j 0) :
    ScriptContext.wordIn bytes' k = ScriptContext.wordIn bytes k := by
  rw [← UInt32.toNat_inj, toNat_wordIn, toNat_wordIn]
  unfold wordOf byteOf
  rw [h k (by omega) (by omega), h (k + 1) (by omega) (by omega), h (k + 2) (by omega) (by omega),
    h (k + 3) (by omega) (by omega)]

theorem signedIn_congr (h : ∀ j, k ≤ j → j < k + 2 → bytes'.getD j 0 = bytes.getD j 0) :
    ScriptContext.signedIn bytes' k = ScriptContext.signedIn bytes k := by
  rw [ScriptContext.signedIn, ScriptContext.signedIn, littleEndian_two, littleEndian_two]
  unfold halfwordOf byteOf
  rw [h k (by omega) (by omega), h (k + 1) (by omega) (by omega)]

variable {m : Memory} {a : UInt32} {v : UInt16}

/-- A halfword that can be read is the number in its two bytes. -/
theorem halfword?_of_mapped (h : m.MappedFor a 2) :
    ∃ v, m.halfword? a = .ok v ∧ v.toNat = (m.byteAt a).toNat + 0x100 * (m.byteAt (a + 1)).toNat := by
  have hbytes : m.bytesFrom a 2 = [m.byteAt a, m.byteAt (a + 1)] := by
    rw [bytesFrom_succ, bytesFrom_succ]
    rfl
  refine ⟨UInt16.ofNat (littleEndian [m.byteAt a, m.byteAt (a + 1)]), ?_, ?_⟩
  · rw [halfword?, number?, bytes?_of_mapped h, hbytes]
    rfl
  · have := (m.byteAt a).toNat_lt
    have := (m.byteAt (a + 1)).toNat_lt
    simp only [littleEndian, List.foldr_cons, List.foldr_nil, UInt16.toNat_ofNat']
    omega

theorem mapped_of_halfword? (h : m.halfword? a = .ok v) : m.MappedFor a 2 := by
  by_contra hrefused
  obtain ⟨i, -, -, -, hread⟩ := exists_of_not_mapped hrefused
  rw [halfword?, number?, hread] at h
  cases h

end Memory

/-! ### Kinds of targets -/

namespace TargetKind

/-- The number that the engine stores for a kind. -/
def number : TargetKind → UInt32
  | generic => 1
  | actor => 3
  | object => 4
  | performer => 5
  | coroutine => 9

theorem ofNumber?_number (t : TargetKind) : ofNumber? t.number = some t := by
  cases t <;> rfl

theorem number_of_ofNumber? {n : UInt32} {t : TargetKind} (h : ofNumber? n = some t) : t.number = n := by
  unfold ofNumber? at h
  split_ifs at h with h₁ h₃ h₄ h₅ h₉ <;> cases h
  exacts [h₁.symm, h₃.symm, h₄.symm, h₅.symm, h₉.symm]

theorem number_mem (t : TargetKind) : t.number ∈ [1, 3, 4, 5, 9] := by
  cases t <;> decide

theorem exists_number {n : UInt32} (h : n ∈ [1, 3, 4, 5, 9]) : ∃ t : TargetKind, t.number = n := by
  simp only [List.mem_cons, List.not_mem_nil, or_false] at h
  obtain rfl | rfl | rfl | rfl | rfl := h
  exacts [⟨generic, rfl⟩, ⟨actor, rfl⟩, ⟨object, rfl⟩, ⟨performer, rfl⟩, ⟨coroutine, rfl⟩]

theorem hasSlot_iff (t : TargetKind) : t.hasSlot = true ↔ t.number ∈ [3, 4, 5] := by
  cases t <;> decide

end TargetKind

/-! ### Records -/

namespace ScriptRecord

variable {r : ScriptRecord} {m : Memory} {shared : UInt32} {bytes bytes' : List UInt8}

/-- The bytes of a record hold these numbers. -/
structure IsStoredIn (r : ScriptRecord) (bytes : List UInt8) : Prop where
  target : r.target.toNat = Memory.wordOf bytes 0x04
  kind : r.kind.toNat = Memory.wordOf bytes 0x08
  hanger : r.hanger.toInt = Memory.signedOf bytes 0x10
  routineTable : r.routineTable.toNat = Memory.wordOf bytes 0x14
  opcodeTable : r.opcodeTable.toNat = Memory.wordOf bytes 0x18
  address : r.address.toNat = Memory.wordOf bytes 0x1c
  stringTable : r.stringTable.toNat = Memory.wordOf bytes 0x20
  callerTable : r.callerTable.toNat = Memory.wordOf bytes 0x24
  callerAddress : r.callerAddress.toNat = Memory.wordOf bytes 0x2c

/-- The place belongs to one of these numbers. -/
def IsPlace (k : Nat) : Prop :=
  0x04 ≤ k ∧ k < 0x0c ∨ 0x10 ≤ k ∧ k < 0x12 ∨ 0x14 ≤ k ∧ k < 0x28 ∨ 0x2c ≤ k ∧ k < 0x30

/-- The numbers that the bytes of a record hold. -/
def ofBytes (bytes : List UInt8) : ScriptRecord where
  target := ScriptContext.wordIn bytes 0x04
  kind := ScriptContext.wordIn bytes 0x08
  hanger := ScriptContext.signedIn bytes 0x10
  routineTable := ScriptContext.wordIn bytes 0x14
  opcodeTable := ScriptContext.wordIn bytes 0x18
  address := ScriptContext.wordIn bytes 0x1c
  stringTable := ScriptContext.wordIn bytes 0x20
  callerTable := ScriptContext.wordIn bytes 0x24
  callerAddress := ScriptContext.wordIn bytes 0x2c

theorem isStoredIn_ofBytes (bytes : List UInt8) : (ofBytes bytes).IsStoredIn bytes where
  target := Memory.toNat_wordIn bytes 0x04
  kind := Memory.toNat_wordIn bytes 0x08
  hanger := Memory.toInt_signedIn bytes 0x10
  routineTable := Memory.toNat_wordIn bytes 0x14
  opcodeTable := Memory.toNat_wordIn bytes 0x18
  address := Memory.toNat_wordIn bytes 0x1c
  stringTable := Memory.toNat_wordIn bytes 0x20
  callerTable := Memory.toNat_wordIn bytes 0x24
  callerAddress := Memory.toNat_wordIn bytes 0x2c

/-- Bytes at other places do not matter. -/
theorem ofBytes_congr (h : ∀ k, IsPlace k → bytes'.getD k 0 = bytes.getD k 0) :
    ofBytes bytes' = ofBytes bytes := by
  have hword (k : Nat) (hk : ∀ j, k ≤ j → j < k + 4 → IsPlace j) :
      ScriptContext.wordIn bytes' k = ScriptContext.wordIn bytes k :=
    Memory.wordIn_congr fun j hlow hhigh => h j (hk j hlow hhigh)
  have hhanger : ScriptContext.signedIn bytes' 0x10 = ScriptContext.signedIn bytes 0x10 :=
    Memory.signedIn_congr fun j hlow hhigh => h j (by unfold IsPlace; omega)
  unfold ofBytes
  rw [hhanger, hword 0x04 (by unfold IsPlace; omega), hword 0x08 (by unfold IsPlace; omega),
    hword 0x14 (by unfold IsPlace; omega), hword 0x18 (by unfold IsPlace; omega),
    hword 0x1c (by unfold IsPlace; omega), hword 0x20 (by unfold IsPlace; omega),
    hword 0x24 (by unfold IsPlace; omega), hword 0x2c (by unfold IsPlace; omega)]

/-- The script is the one shared by all scenes, which was loaded. -/
def IsShared (r : ScriptRecord) (shared : UInt32) : Prop := shared ≠ 0 ∧ r.routineTable = shared

/-- The script is bound to an entity that has a slot. -/
def HasEntity (r : ScriptRecord) : Prop := r.kind ∈ [3, 4, 5] ∧ r.target ≠ 0

/-- A running script can have the record, as far as its numbers tell. -/
structure IsSound (r : ScriptRecord) (shared : UInt32) : Prop where
  kind : r.kind ∈ [1, 3, 4, 5, 9]
  address : r.routineTable.toNat ≤ r.address.toNat
  hanger : r.IsShared shared ∨ 0 ≤ r.hanger.toInt ∧ r.hanger.toInt ≤ 6

/-- A running script can have the record, and the slot of the entity that it is bound to can be read. -/
structure IsValid (r : ScriptRecord) (m : Memory) (shared : UInt32) : Prop extends IsSound r shared where
  slot : r.HasEntity → m.MappedFor r.target 2

end ScriptRecord

/-! ### Contexts -/

namespace ScriptContext

variable {c : ScriptContext} {m m' : Memory} {pointer shared : UInt32} {r : ScriptRecord}
  {bytes bytes' : List UInt8} {e : Error}

/-- What is to be known of a running script, but for the slot. -/
structure Fits (c : ScriptContext) (pointer shared : UInt32) (r : ScriptRecord) : Prop where
  pointer : c.pointer = pointer
  target : c.target.number = r.kind
  targetAddress : c.targetAddress = r.target
  routineTable : c.routineTable = r.routineTable
  opcodeTable : c.opcodeTable = r.opcodeTable
  stringTable : c.stringTable = r.stringTable
  address : c.address = r.address
  isShared : c.isShared = true ↔ r.IsShared shared
  hanger_shared : r.IsShared shared → c.hanger = 0
  hanger_own : ¬r.IsShared shared → (c.hanger : Int) = r.hanger.toInt
  uncalled : r.callerAddress = 0 → c.caller = none
  called : r.callerAddress ≠ 0 → c.caller = some ⟨r.callerTable, r.callerAddress⟩
  offset : 2 * c.offset.toNat + (r.address.toNat - r.routineTable.toNat) % 2 =
    r.address.toNat - r.routineTable.toNat

/-- What is to be known of a running script. -/
structure Describes (c : ScriptContext) (m : Memory) (pointer shared : UInt32) (r : ScriptRecord) : Prop
    extends Fits c pointer shared r where
  slot : r.HasEntity →
    c.slot.toNat = (m.byteAt r.target).toNat + 0x100 * (m.byteAt (r.target + 1)).toNat
  slotless : ¬r.HasEntity → c.slot = 0

/-- The place of a script is refused exactly if there is no such place. -/
theorem hanger?_of_le {h : Int16} (hlow : 0 ≤ h.toInt) (hhigh : h.toInt ≤ 6) :
    hanger? h = .ok h.toInt.toNat := by
  rw [hanger?, if_pos]
  simp only [hangerCount]
  omega

theorem le_of_hanger? {h : Int16} {n : Nat} (hn : hanger? h = .ok n) :
    (0 ≤ h.toInt ∧ h.toInt ≤ 6) ∧ (n : Int) = h.toInt := by
  unfold hanger? at hn
  split_ifs at hn with hrange
  cases hn
  simp only [hangerCount] at hrange
  omega

theorem isShared_iff (r : ScriptRecord) (shared : UInt32) :
    (shared != 0 && r.routineTable == shared) = true ↔ r.IsShared shared := by
  simp [ScriptRecord.IsShared]

/-- Offsets are counted in words from the routine table. -/
theorem twice_offset {address table : UInt32} (h : table ≤ address) :
    2 * ((address - table) / 2).toNat + (address.toNat - table.toNat) % 2 = address.toNat - table.toNat := by
  rw [UInt32.toNat_div, UInt32.toNat_sub_of_le _ _ h]
  exact Nat.div_add_mod _ 2

/-- A record that is accepted is one that a running script can have. -/
theorem ofRecord?_ok (h : ofRecord? pointer bytes shared = .ok c) :
    (ScriptRecord.ofBytes bytes).IsSound shared ∧ c.Fits pointer shared (.ofBytes bytes) ∧ c.slot = 0 := by
  have hshared := isShared_iff (.ofBytes bytes) shared
  unfold ofRecord? at h
  dsimp only at h
  split at h
  · cases h
  next t hkind =>
  split at h
  · cases h
  next hbefore =>
  split at h
  · cases h
  next n hhanger =>
  cases h
  have hnumber : t.number = (ScriptRecord.ofBytes bytes).kind := TargetKind.number_of_ofNumber? hkind
  have haddress : (ScriptRecord.ofBytes bytes).routineTable ≤ (ScriptRecord.ofBytes bytes).address :=
    UInt32.not_lt.mp hbefore
  have hplace : (ScriptRecord.ofBytes bytes).IsShared shared ∧ n = 0 ∨
      ¬(ScriptRecord.ofBytes bytes).IsShared shared ∧
        (0 ≤ (ScriptRecord.ofBytes bytes).hanger.toInt ∧ (ScriptRecord.ofBytes bytes).hanger.toInt ≤ 6) ∧
        (n : Int) = (ScriptRecord.ofBytes bytes).hanger.toInt := by
    split_ifs at hhanger with hcase
    · cases hhanger
      exact .inl ⟨hshared.mp hcase, rfl⟩
    · exact .inr ⟨fun h => hcase (hshared.mpr h), le_of_hanger? hhanger⟩
  refine ⟨⟨hnumber ▸ t.number_mem, UInt32.le_iff_toNat_le.mp haddress, ?_⟩, ?_, rfl⟩
  · exact hplace.imp And.left fun h => h.2.1
  · exact {
      pointer := rfl
      target := hnumber
      targetAddress := rfl
      routineTable := rfl
      opcodeTable := rfl
      stringTable := rfl
      address := rfl
      isShared := hshared
      hanger_shared := fun h => hplace.elim And.right fun h' => absurd h h'.1
      hanger_own := fun h => hplace.elim (fun h' => absurd h'.1 h) fun h' => h'.2.2
      uncalled := fun h => if_pos h
      called := fun h => if_neg h
      offset := twice_offset haddress }

/-- A record that a running script can have is accepted. -/
theorem exists_ofRecord? (h : (ScriptRecord.ofBytes bytes).IsSound shared) :
    ∃ c, ofRecord? pointer bytes shared = .ok c := by
  obtain ⟨t, ht⟩ := TargetKind.exists_number h.kind
  have hkind : TargetKind.ofNumber? (wordIn bytes 0x08) = some t := by
    rw [← TargetKind.ofNumber?_number t, ht]
    rfl
  have hbefore : ¬wordIn bytes 0x1c < wordIn bytes 0x14 :=
    UInt32.not_lt.mpr (UInt32.le_iff_toNat_le.mpr h.address)
  have hplace : ∃ n, (if (shared != 0 && wordIn bytes 0x14 == shared) = true then .ok 0
      else hanger? (signedIn bytes 0x10)) = .ok n := by
    by_cases hshared : (shared != 0 && wordIn bytes 0x14 == shared) = true
    · exact ⟨0, if_pos hshared⟩
    · obtain hshared' | ⟨hlow, hhigh⟩ := h.hanger
      · exact absurd ((isShared_iff (.ofBytes bytes) shared).mpr hshared') hshared
      · exact ⟨_, (if_neg hshared).trans (hanger?_of_le hlow hhigh)⟩
  obtain ⟨n, hn⟩ := hplace
  unfold ofRecord?
  simp only [hkind, if_neg hbefore, hn]
  exact ⟨_, rfl⟩

theorem ofRecord?_congr (h : ScriptRecord.ofBytes bytes' = .ofBytes bytes) :
    ofRecord? pointer bytes' shared = ofRecord? pointer bytes shared := by
  simp only [ScriptRecord.ofBytes, ScriptRecord.mk.injEq] at h
  obtain ⟨htarget, hkind, hhanger, htable, hopcodes, haddress, hstrings, hcallerTable, hcaller⟩ := h
  unfold ofRecord?
  simp only [htarget, hkind, hhanger, htable, hopcodes, haddress, hstrings, hcallerTable, hcaller]

theorem Fits.needsSlot_iff (h : c.Fits pointer shared r) : c.needsSlot = true ↔ r.HasEntity := by
  simp only [needsSlot, Bool.and_eq_true, TargetKind.hasSlot_iff, h.target, h.targetAddress, bne_iff_ne,
    ScriptRecord.HasEntity]

/-- A context with the slot that is read from the entity, if there is one. -/
def withSlot (m : Memory) (c : ScriptContext) : Except Error ScriptContext :=
  if c.needsSlot then
    match m.halfword? c.targetAddress with
    | .error e => .error (.probe ("read target " ++ Text.address c.targetAddress ++ ": " ++ e))
    | .ok slot => .ok { c with slot }
  else .ok c

theorem probe_eq (hpointer : pointer ≠ 0) (hbytes : m.bytes? pointer recordSize = .ok bytes) :
    probe m pointer shared = (ofRecord? pointer bytes shared).bind (withSlot m) := by
  rw [probe, if_neg hpointer, hbytes]
  dsimp only
  cases ofRecord? pointer bytes shared <;> rfl

theorem probe_ok_iff (hpointer : pointer ≠ 0) (hbytes : m.bytes? pointer recordSize = .ok bytes) :
    probe m pointer shared = .ok c ↔
      ∃ d, ofRecord? pointer bytes shared = .ok d ∧ withSlot m d = .ok c := by
  rw [probe_eq hpointer hbytes]
  cases ofRecord? pointer bytes shared <;> simp [Except.bind]

theorem withSlot_ok {c' : ScriptContext} (h : c.Fits pointer shared r) (hfree : c.slot = 0)
    (hread : withSlot m c = .ok c') :
    c'.Describes m pointer shared r ∧ (r.HasEntity → m.MappedFor r.target 2) := by
  unfold withSlot at hread
  split_ifs at hread with hneeds
  · have hentity : r.HasEntity := h.needsSlot_iff.mp hneeds
    split at hread
    · cases hread
    next slot hslot =>
    cases hread
    rw [h.targetAddress] at hslot
    have hmapped := Memory.mapped_of_halfword? hslot
    obtain ⟨v, hv, hnumber⟩ := Memory.halfword?_of_mapped hmapped
    obtain rfl : slot = v := Except.ok.inj (hslot.symm.trans hv)
    exact ⟨⟨{ h with }, fun _ => hnumber, fun hnot => absurd hentity hnot⟩, fun _ => hmapped⟩
  · have hnone : ¬r.HasEntity := fun hentity => hneeds (h.needsSlot_iff.mpr hentity)
    cases hread
    exact ⟨⟨h, fun hentity => absurd hentity hnone, fun _ => hfree⟩, fun hentity => absurd hentity hnone⟩

theorem exists_withSlot (h : c.Fits pointer shared r) (hslot : r.HasEntity → m.MappedFor r.target 2) :
    ∃ c', withSlot m c = .ok c' := by
  unfold withSlot
  split_ifs with hneeds
  · obtain ⟨v, hv, -⟩ := Memory.halfword?_of_mapped (hslot (h.needsSlot_iff.mp hneeds))
    rw [h.targetAddress, hv]
    exact ⟨_, rfl⟩
  · exact ⟨c, rfl⟩

theorem withSlot_congr (h : c.Fits pointer shared r) (hsame : m'.halfword? r.target = m.halfword? r.target) :
    withSlot m' c = withSlot m c := by
  rw [withSlot, withSlot, h.targetAddress, hsame]

/-- The address of the opcode is found again from its offset, unless it is an odd number of bytes behind the
routine table. -/
theorem Fits.addressOf_offset (h : c.Fits pointer shared r) (hle : r.routineTable.toNat ≤ r.address.toNat)
    (heven : (r.address.toNat - r.routineTable.toNat) % 2 = 0) :
    c.routineTable.toNat + 2 * c.offset.toNat = c.address.toNat ∧ c.addressOf c.offset = c.address := by
  have hoffset := h.offset
  have hnumber : c.routineTable.toNat + 2 * c.offset.toNat = c.address.toNat := by
    rw [h.routineTable, h.address]
    omega
  refine ⟨hnumber, UInt32.toNat_inj.mp ?_⟩
  have hbound := c.address.toNat_lt
  simp only [addressOf, UInt32.toNat_add, UInt32.toNat_mul, UInt32.toNat_ofNat]
  omega

/-- Exactly the records that running scripts can have are accepted, each with what its numbers tell.  The
bytes between the numbers do not matter. -/
theorem probe_valid (hpointer : pointer ≠ 0) (hbytes : m.bytes? pointer recordSize = .ok bytes) :
    ∃ r : ScriptRecord, r.IsStoredIn bytes ∧
      ((∃ c, probe m pointer shared = .ok c) ↔ r.IsValid m shared) ∧
      (∀ c, probe m pointer shared = .ok c → c.Describes m pointer shared r ∧
        ((r.address.toNat - r.routineTable.toNat) % 2 = 0 →
          c.routineTable.toNat + 2 * c.offset.toNat = c.address.toNat ∧ c.addressOf c.offset = c.address)) ∧
      ∀ m' bytes', m'.bytes? pointer recordSize = .ok bytes' →
        (∀ k, ScriptRecord.IsPlace k → bytes'.getD k 0 = bytes.getD k 0) →
        m'.halfword? r.target = m.halfword? r.target → probe m' pointer shared = probe m pointer shared := by
  have hok (c : ScriptContext) (hc : probe m pointer shared = .ok c) :
      (ScriptRecord.ofBytes bytes).IsValid m shared ∧ c.Describes m pointer shared (.ofBytes bytes) := by
    obtain ⟨d, hrecord, hslot⟩ := (probe_ok_iff hpointer hbytes).mp hc
    obtain ⟨hsound, hfits, hfree⟩ := ofRecord?_ok hrecord
    obtain ⟨hdescribes, hmapped⟩ := withSlot_ok hfits hfree hslot
    exact ⟨{ hsound with slot := hmapped }, hdescribes⟩
  refine ⟨.ofBytes bytes, ScriptRecord.isStoredIn_ofBytes bytes, ⟨?_, fun hvalid => ?_⟩, fun c hc => ?_,
    fun m' bytes' hbytes' hplaces hslot => ?_⟩
  · rintro ⟨c, hc⟩
    exact (hok c hc).1
  · obtain ⟨d, hrecord⟩ : ∃ d, ofRecord? pointer bytes shared = .ok d := exists_ofRecord? hvalid.toIsSound
    obtain ⟨c, hc⟩ := exists_withSlot (ofRecord?_ok hrecord).2.1 hvalid.slot
    exact ⟨c, (probe_ok_iff hpointer hbytes).mpr ⟨d, hrecord, hc⟩⟩
  · obtain ⟨hvalid, hdescribes⟩ := hok c hc
    exact ⟨hdescribes, hdescribes.addressOf_offset hvalid.address⟩
  · rw [probe_eq hpointer hbytes', probe_eq hpointer hbytes,
      ofRecord?_congr (ScriptRecord.ofBytes_congr hplaces)]
    cases hrecord : ofRecord? pointer bytes shared with
    | error e => rfl
    | ok d => exact withSlot_congr (ofRecord?_ok hrecord).2.1 hslot

/-- A memory with the record of an actor's script, which another routine has called. -/
def called : Memory :=
  (({} : Memory).write 0x02100000 (ScriptRecord.bytes
    { target := 0x02110000
      kind := 3
      hanger := 2
      routineTable := 0x02200000
      opcodeTable := 0x02200040
      address := 0x02200010
      stringTable := 0x02201000
      callerTable := 0x02200000
      callerAddress := 0x02200004 })).writeHalfword 0x02110000 0x0107

theorem probe_valid_called : ∃ r c, r.IsStoredIn (called.bytesFrom 0x02100000 recordSize) ∧
    r.IsValid called 0 ∧ probe called 0x02100000 0 = .ok c ∧ c.Describes called 0x02100000 0 r ∧
    c.slot = 0x0107 ∧ c.hanger = 2 ∧ c.offset = 8 ∧ c.addressOf c.offset = c.address := by
  have hbytes : called.bytes? 0x02100000 recordSize = .ok (called.bytesFrom 0x02100000 recordSize) :=
    Memory.bytes?_of_mapped (by decide)
  obtain ⟨r, hstored, haccepts, hdescribes, -⟩ := probe_valid (by decide) hbytes
  have hprobe : (probe called 0x02100000 0).toOption.any (fun c =>
      c.slot = 0x0107 ∧ c.hanger = 2 ∧ c.offset = 8 ∧ c.addressOf c.offset = c.address) = true := by
    decide +kernel
  cases hc : probe called 0x02100000 0 with
  | error e =>
    rw [hc] at hprobe
    cases hprobe
  | ok c =>
    rw [hc] at hprobe
    exact ⟨r, c, hstored, haccepts.mp ⟨c, hc⟩, rfl, (hdescribes c hc).1, of_decide_eq_true hprobe⟩

end ScriptContext

end SceneDebugger
