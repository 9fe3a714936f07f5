import Mathlib.Algebra.Order.Group.Nat
import SceneDebugger.Machine.Memory

/-!
# SceneDebugger.Proofs.Machine.Texts — texts in memory that ends

A text is read in chunks, and a chunk can be read only if all of it can.  So a text that ends in the
middle of a chunk is read exactly if the rest of that chunk can be read too, although no byte of the
rest belongs to the text.

* `Memory.EndsAt`: how many bytes a text has.  Every address has a text, and only one
  (`Memory.exists_endsAt`, `Memory.EndsAt.unique`).
* `Memory.stringBytes?_eq`: reading chunks up to the end of a text is reading all of them at once.
* `Memory.readsText_iff`: when a text that can be read is read.
-/

namespace SceneDebugger.Memory

variable {m : Memory} {a : UInt32} {n k l : Nat} {e : String} {bytes : List UInt8}

/-! ### Bytes in a row -/

/-- The address some bytes behind another one. -/
def behind (a : UInt32) (i : Nat) : UInt32 := a + UInt32.ofNat i

/-- The bytes from an address on. -/
def bytesFrom (m : Memory) (a : UInt32) (n : Nat) : List UInt8 :=
  (List.range n).map fun i => m.byteAt (behind a i)

/-- The bytes from an address on can be read. -/
def MappedFor (m : Memory) (a : UInt32) (n : Nat) : Prop := ∀ i < n, m.isMapped (behind a i) = true

instance : Decidable (m.MappedFor a n) := Nat.decidableBallLT n _

theorem behind_zero (a : UInt32) : behind a 0 = a := UInt32.add_zero a

theorem behind_behind (a : UInt32) (i j : Nat) : behind (behind a i) j = behind a (i + j) := by
  rw [behind, behind, behind, UInt32.ofNat_add, UInt32.add_assoc]

theorem behind_succ (a : UInt32) (i : Nat) : behind (a + 1) i = behind a (i + 1) := by
  rw [Nat.add_comm i 1, ← behind_behind]
  rfl

@[simp] theorem length_bytesFrom (m : Memory) (a : UInt32) (n : Nat) : (m.bytesFrom a n).length = n := by
  simp [bytesFrom]

theorem bytesFrom_add (m : Memory) (a : UInt32) (k l : Nat) :
    m.bytesFrom a (k + l) = m.bytesFrom a k ++ m.bytesFrom (behind a k) l := by
  simp [bytesFrom, List.range_add, behind_behind, Function.comp_def]

theorem bytesFrom_succ (m : Memory) (a : UInt32) (n : Nat) :
    m.bytesFrom a (n + 1) = m.byteAt a :: m.bytesFrom (a + 1) n := by
  rw [Nat.add_comm, bytesFrom_add]
  simp [bytesFrom, behind]

theorem mappedFor_succ : m.MappedFor a (n + 1) ↔ m.isMapped a = true ∧ m.MappedFor (a + 1) n := by
  unfold MappedFor
  rw [Nat.forall_lt_succ_left, behind_zero]
  simp only [behind_succ]

theorem bytes?_of_mapped (h : m.MappedFor a n) : m.bytes? a n = .ok (m.bytesFrom a n) := by
  induction n generalizing a with
  | zero => rfl
  | succ n ih =>
    obtain ⟨hfirst, hrest⟩ := mappedFor_succ.mp h
    rw [bytes?, if_pos hfirst, ih hrest, bytesFrom_succ]

/-- Bytes that cannot all be read are refused for the first one that cannot. -/
theorem exists_of_not_mapped (h : ¬m.MappedFor a n) : ∃ i < n, m.isMapped (behind a i) = false ∧
    m.MappedFor a i ∧ m.bytes? a n = .error ("unmapped " ++ Text.address (behind a i)) := by
  induction n generalizing a with
  | zero => exact absurd (fun i hi => absurd hi (Nat.not_lt_zero i)) h
  | succ n ih =>
    cases hfirst : m.isMapped a with
    | false =>
      refine ⟨0, Nat.succ_pos n, ?_, fun i hi => absurd hi (Nat.not_lt_zero i), ?_⟩
      · rw [behind_zero, hfirst]
      · rw [behind_zero, bytes?, hfirst, if_neg Bool.false_ne_true]
    | true =>
      obtain ⟨i, hi, hrefused, hbefore, hread⟩ := ih fun hrest => h (mappedFor_succ.mpr ⟨hfirst, hrest⟩)
      rw [behind_succ] at hrefused hread
      refine ⟨i + 1, Nat.succ_lt_succ hi, hrefused, mappedFor_succ.mpr ⟨hfirst, hbefore⟩, ?_⟩
      rw [bytes?, if_pos hfirst, hread]

/-- Reading bytes is reading the first ones and then the rest. -/
theorem bytes?_add (m : Memory) (a : UInt32) (k l : Nat) :
    m.bytes? a (k + l) = (m.bytes? a k).bind fun first =>
      (m.bytes? (behind a k) l).map fun rest => first ++ rest := by
  induction k generalizing a with
  | zero =>
    rw [Nat.zero_add, behind_zero, bytes?]
    cases m.bytes? a l <;> rfl
  | succ k ih =>
    rw [Nat.succ_add, bytes?, bytes?]
    split_ifs
    · rw [ih, behind_succ]
      cases m.bytes? (a + 1) k with
      | error e => rfl
      | ok first => cases m.bytes? (behind a (k + 1)) l <;> rfl
    · rfl

/-! ### Texts -/

/-- A text of at most `limit` bytes: none of its bytes is NUL, and a NUL byte ends it unless the limit
does. -/
structure EndsAt (m : Memory) (limit : Nat) (a : UInt32) (n : Nat) : Prop where
  le : n ≤ limit
  ne_zero : ∀ i < n, m.byteAt (behind a i) ≠ 0
  eq_zero : n < limit → m.byteAt (behind a n) = 0

/-- Every address has a text. -/
theorem exists_endsAt (m : Memory) (limit : Nat) (a : UInt32) : ∃ n, m.EndsAt limit a n := by
  induction limit with
  | zero => exact ⟨0, le_rfl, fun i hi => absurd hi (Nat.not_lt_zero i), fun h => absurd h (Nat.lt_irrefl 0)⟩
  | succ limit ih =>
    obtain ⟨n, hle, hne, heq⟩ := ih
    by_cases hn : n < limit
    · exact ⟨n, Nat.le_succ_of_le hle, hne, fun _ => heq hn⟩
    · obtain rfl : n = limit := Nat.le_antisymm hle (Nat.le_of_not_lt hn)
      by_cases hzero : m.byteAt (behind a n) = 0
      · exact ⟨n, Nat.le_succ n, hne, fun _ => hzero⟩
      · refine ⟨n + 1, le_rfl, fun i hi => ?_, fun h => absurd h (Nat.lt_irrefl _)⟩
        obtain hi | rfl := Nat.lt_succ_iff_lt_or_eq.mp hi
        · exact hne i hi
        · exact hzero

theorem EndsAt.unique {limit : Nat} (h : m.EndsAt limit a n) (h' : m.EndsAt limit a k) : n = k := by
  obtain hlt | heq | hgt := Nat.lt_trichotomy n k
  · exact absurd (h.eq_zero (Nat.lt_of_lt_of_le hlt h'.le)) (h'.ne_zero n hlt)
  · exact heq
  · exact absurd (h'.eq_zero (Nat.lt_of_lt_of_le hgt h.le)) (h.ne_zero k hgt)

/-- How many bytes a text takes up, with the NUL byte that ends it, if one does. -/
def spanned (limit n : Nat) : Nat := min (n + 1) limit

theorem EndsAt.le_spanned {limit : Nat} (h : m.EndsAt limit a n) : n ≤ spanned limit n :=
  Nat.le_min.mpr ⟨Nat.le_succ n, h.le⟩

/-- How many bytes are read for a text: those of whole chunks, up to the one that holds its end. -/
def fetched (limit n : Nat) : Nat := min (chunkSize * (n / chunkSize + 1)) limit

theorem chunkSize_le_fetched (chunks n : Nat) : chunkSize ≤ fetched (chunkSize * (chunks + 1)) n := by
  unfold fetched chunkSize
  omega

theorem fetched_of_lt {chunks : Nat} (h : n < chunkSize) :
    fetched (chunkSize * (chunks + 1)) n = chunkSize := by
  unfold fetched chunkSize at *
  omega

theorem fetched_add (chunks n : Nat) :
    fetched (chunkSize * (chunks + 1)) (chunkSize + n) = chunkSize + fetched (chunkSize * chunks) n := by
  unfold fetched chunkSize
  omega

theorem spanned_le_fetched {limit : Nat} (h : n ≤ limit) : spanned limit n ≤ fetched limit n := by
  unfold spanned fetched chunkSize
  omega

theorem mem_bytesFrom {b : UInt8} : b ∈ m.bytesFrom a n ↔ ∃ i < n, m.byteAt (behind a i) = b := by
  simp [bytesFrom]

/-- A text that ends in its first chunk. -/
theorem EndsAt.of_lt {limit : Nat} (h : m.EndsAt limit a n) (hn : n < k) (hk : k ≤ limit) :
    (0 : UInt8) ∈ m.bytesFrom a k ∧ (m.bytesFrom a k).takeWhile (· ≠ 0) = m.bytesFrom a n := by
  have hend : m.byteAt (behind a n) = 0 := h.eq_zero (Nat.lt_of_lt_of_le hn hk)
  obtain ⟨l, rfl⟩ : ∃ l, k = n + (l + 1) := ⟨k - n - 1, by omega⟩
  refine ⟨mem_bytesFrom.mpr ⟨n, hn, hend⟩, ?_⟩
  have hbefore : ∀ b ∈ m.bytesFrom a n, decide (b ≠ 0) = true := by
    intro b hb
    obtain ⟨i, hi, rfl⟩ := mem_bytesFrom.mp hb
    exact decide_eq_true (h.ne_zero i hi)
  rw [bytesFrom_add, bytesFrom_succ, hend, List.takeWhile_append_of_pos hbefore]
  simp

/-- The rest of a text behind its first bytes. -/
theorem EndsAt.drop {limit : Nat} (h : m.EndsAt (k + limit) a (k + n)) :
    (0 : UInt8) ∉ m.bytesFrom a k ∧ m.EndsAt limit (behind a k) n where
  left hzero := by
    obtain ⟨i, hi, heq⟩ := mem_bytesFrom.mp hzero
    exact h.ne_zero i (Nat.lt_of_lt_of_le hi (Nat.le_add_right k n)) heq
  right :=
    { le := Nat.le_of_add_le_add_left h.le
      ne_zero := fun i hi => by
        rw [behind_behind]
        exact h.ne_zero (k + i) (Nat.add_lt_add_left hi k)
      eq_zero := fun hn => by
        rw [behind_behind]
        exact h.eq_zero (Nat.add_lt_add_left hn k) }

/-- Reading chunk by chunk up to the end of a text is reading all of these chunks at once. -/
theorem stringBytes?_eq {chunks : Nat} (h : m.EndsAt (chunkSize * chunks) a n) :
    m.stringBytes? chunks a =
      (m.bytes? a (fetched (chunkSize * chunks) n)).map fun bytes => bytes.take n := by
  induction chunks generalizing a n with
  | zero =>
    obtain rfl : n = 0 := Nat.le_zero.mp h.le
    rfl
  | succ chunks ih =>
    obtain ⟨rest, hrest⟩ := Nat.exists_eq_add_of_le (chunkSize_le_fetched chunks n)
    rw [stringBytes?]
    by_cases hmapped : m.MappedFor a chunkSize
    · rw [bytes?_of_mapped hmapped]
      by_cases hn : n < chunkSize
      · -- the text ends in this chunk
        obtain ⟨hzero, htake⟩ := h.of_lt hn (Nat.le_mul_of_pos_right chunkSize (Nat.succ_pos chunks))
        rw [fetched_of_lt hn, bytes?_of_mapped hmapped]
        obtain ⟨l, hl⟩ := Nat.exists_eq_add_of_le hn.le
        simp only [List.contains_iff_mem.mpr hzero, htake, if_true, Except.map]
        rw [hl, bytesFrom_add, List.take_left' (length_bytesFrom m a n)]
      · -- the text goes on behind this chunk
        obtain ⟨n, rfl⟩ := Nat.exists_eq_add_of_le (Nat.le_of_not_lt hn)
        rw [Nat.mul_succ, Nat.add_comm (chunkSize * chunks)] at h
        obtain ⟨hzero, hdrop⟩ := h.drop
        have hnone : (m.bytesFrom a chunkSize).contains 0 = false := by simpa using hzero
        rw [fetched_add, bytes?_add, bytes?_of_mapped hmapped]
        simp only [hnone, Bool.false_eq_true, if_false, Except.bind]
        rw [show a + UInt32.ofNat chunkSize = behind a chunkSize from rfl, ih hdrop]
        cases m.bytes? (behind a chunkSize) (fetched (chunkSize * chunks) n) with
        | error e => rfl
        | ok read =>
          have htake : ((m.bytesFrom a chunkSize) ++ read).take (chunkSize + n) =
              m.bytesFrom a chunkSize ++ read.take n := by
            simp [List.take_append, List.take_of_length_le]
          simp only [Except.map, htake]
    · -- the first chunk is refused, and so are all of them at once
      obtain ⟨i, -, -, -, hrefused⟩ := exists_of_not_mapped hmapped
      rw [hrest, bytes?_add, hrefused]
      rfl

theorem string?_eq (h : m.EndsAt stringLimit a n) (encoding : Text.Encoding) : m.string? a encoding =
    (m.bytes? a (fetched stringLimit n)).map fun bytes => encoding.decode (bytes.take n) := by
  have hlimit : chunkSize * (stringLimit / chunkSize) = stringLimit := rfl
  rw [← hlimit] at h
  rw [string?, stringBytes?_eq h, hlimit]
  cases m.bytes? a (fetched stringLimit n) <;> rfl

/-- A text is read if all chunks up to its end can be. -/
theorem string?_of_mapped (h : m.EndsAt stringLimit a n) (hmapped : m.MappedFor a (fetched stringLimit n))
    (encoding : Text.Encoding) : m.string? a encoding = .ok (encoding.decode (m.bytesFrom a n)) := by
  obtain ⟨l, hl⟩ := Nat.exists_eq_add_of_le (Nat.le_trans h.le_spanned (spanned_le_fetched h.le))
  rw [string?_eq h, bytes?_of_mapped hmapped, hl, bytesFrom_add]
  simp only [Except.map]
  rw [List.take_left' (length_bytesFrom m a n)]

/-- A text that is not read is refused for the first byte of its chunks that cannot be. -/
theorem string?_of_not_mapped (h : m.EndsAt stringLimit a n)
    (hrefused : ¬m.MappedFor a (fetched stringLimit n)) (encoding : Text.Encoding) :
    ∃ i < fetched stringLimit n, m.isMapped (behind a i) = false ∧ m.MappedFor a i ∧
      m.string? a encoding = .error ("unmapped " ++ Text.address (behind a i)) := by
  obtain ⟨i, hi, hfirst, hbefore, hread⟩ := exists_of_not_mapped hrefused
  refine ⟨i, hi, hfirst, hbefore, ?_⟩
  rw [string?_eq h, hread]
  rfl

/-- The text at an address is read if it can be, and refused only if it cannot be. -/
def ReadsText (m : Memory) (a : UInt32) : Prop :=
  ∀ (n : Nat) (encoding : Text.Encoding), m.EndsAt stringLimit a n →
    (m.MappedFor a (spanned stringLimit n) → m.string? a encoding = .ok (encoding.decode (m.bytesFrom a n))) ∧
    ∀ e, m.string? a encoding = .error e → ¬m.MappedFor a (spanned stringLimit n)

/-- A text is read exactly if the chunks up to its end can be, and then all of it is.  So a text that can
be read is read, unless its last chunk cannot be read to the end. -/
theorem readsText_iff (h : m.EndsAt stringLimit a n) :
    (∀ encoding s, m.string? a encoding = .ok s ↔
      m.MappedFor a (fetched stringLimit n) ∧ s = encoding.decode (m.bytesFrom a n)) ∧
    (m.ReadsText a ↔ (m.MappedFor a (spanned stringLimit n) → m.MappedFor a (fetched stringLimit n))) := by
  have hread (encoding : Text.Encoding) (s : String) : m.string? a encoding = .ok s ↔
      m.MappedFor a (fetched stringLimit n) ∧ s = encoding.decode (m.bytesFrom a n) := by
    by_cases hmapped : m.MappedFor a (fetched stringLimit n)
    · rw [string?_of_mapped h hmapped, Except.ok.injEq]
      exact ⟨fun hs => ⟨hmapped, hs.symm⟩, fun hs => hs.2.symm⟩
    · obtain ⟨i, -, -, -, hrefused⟩ := string?_of_not_mapped h hmapped encoding
      simp [hrefused, hmapped]
  refine ⟨hread, fun htext hspan => ?_, fun hspan k encoding hk => ?_⟩
  · exact ((hread .latin1 _).mp ((htext n .latin1 h).1 hspan)).1
  · obtain rfl : n = k := h.unique hk
    refine ⟨fun hmapped => (hread encoding _).mpr ⟨hspan hmapped, rfl⟩, fun e he hmapped => ?_⟩
    rw [(hread encoding _).mpr ⟨hspan hmapped, rfl⟩] at he
    exact nomatch he

/-- A text whose last chunk ends where the memory does, across the end of the addresses. -/
def wrapping : Memory where
  blocks := [(0xFFFFFFFC, ⟨#[65, 66, 67, 68, 69, 70, 0]⟩)]
  unmapped := [(12, 64)]

theorem readsText_wrapping : wrapping.EndsAt stringLimit 0xFFFFFFFC 6 ∧
    wrapping.string? 0xFFFFFFFC .latin1 = .ok "ABCDEF" ∧ wrapping.ReadsText 0xFFFFFFFC :=
  have hends : wrapping.EndsAt stringLimit 0xFFFFFFFC 6 :=
    { le := by decide, ne_zero := by decide, eq_zero := fun _ => by decide }
  have hmapped : wrapping.MappedFor 0xFFFFFFFC (fetched stringLimit 6) := by decide
  have hread := readsText_iff hends
  ⟨hends, (hread.1 .latin1 "ABCDEF").mpr ⟨hmapped, by decide⟩, hread.2.mpr fun _ => hmapped⟩

/-- A text that ends right before memory that cannot be read. -/
def cutOff : Memory where
  blocks := [(0x02000FFD, ⟨#[104, 105, 0]⟩)]
  unmapped := [(0x02001000, 0x02002000)]

theorem readsText_cutOff : cutOff.EndsAt stringLimit 0x02000FFD 2 ∧
    cutOff.MappedFor 0x02000FFD (spanned stringLimit 2) ∧
    cutOff.string? 0x02000FFD .latin1 = .error "unmapped 0x02001000" ∧ ¬cutOff.ReadsText 0x02000FFD := by
  have hends : cutOff.EndsAt stringLimit 0x02000FFD 2 :=
    { le := by decide, ne_zero := by decide, eq_zero := fun _ => by decide }
  have hmapped : cutOff.MappedFor 0x02000FFD (spanned stringLimit 2) := by decide
  have hrefused : cutOff.string? 0x02000FFD .latin1 = .error "unmapped 0x02001000" := by decide
  exact ⟨hends, hmapped, hrefused, fun htext => (htext 2 .latin1 hends).2 _ hrefused hmapped⟩

end SceneDebugger.Memory
