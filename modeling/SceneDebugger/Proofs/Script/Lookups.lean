import Mathlib.Tactic.SplitIfs
import SceneDebugger.Script.Program

/-!
# SceneDebugger.Proofs.Script.Lookups — opcodes by their offsets

Opcodes are looked up by bisection.  Where they stand in the order of their offsets, this finds what
reading the table from its front finds.

* `Program.Ascending`: the opcodes stand in the order of their offsets, each offset once.
* `Program.Within`: the part of a table that an offset has to be in.  Halving the part keeps this
  (`Within.halve`), and so does the whole bisection (`Within.bisect`).
* `Program.lookups_agree`: which opcode is at an offset, and which one follows it in its routine.
-/

namespace SceneDebugger

namespace Program

variable {p : Program} {opcodes : Array Opcode} {offset : UInt32} {op next : Opcode}
  {base size i j : Nat}

/-! ### Tables in order -/

/-- The opcodes stand in the order of their offsets, each offset once. -/
def Ascending (p : Program) : Prop :=
  p.opcodes.toList.Pairwise fun op next => op.offset < next.offset

theorem Ascending.lt (h : p.Ascending) (hop : p.opcodes[i]? = some op)
    (hnext : p.opcodes[j]? = some next) (hij : i < j) : op.offset < next.offset := by
  obtain ⟨hi, rfl⟩ := Array.getElem?_eq_some_iff.mp hop
  obtain ⟨hj, rfl⟩ := Array.getElem?_eq_some_iff.mp hnext
  exact List.pairwise_iff_getElem.mp h i j hi hj hij

theorem Ascending.le (h : p.Ascending) (hop : p.opcodes[i]? = some op)
    (hnext : p.opcodes[j]? = some next) (hij : i ≤ j) : op.offset ≤ next.offset := by
  rcases Nat.lt_or_eq_of_le hij with hij | rfl
  · exact UInt32.le_of_lt (h.lt hop hnext hij)
  · obtain rfl := Option.some_inj.mp (hop.symm.trans hnext)
    exact UInt32.le_refl _

/-- Offsets tell where opcodes stand. -/
theorem Ascending.index_lt (h : p.Ascending) (hop : p.opcodes[i]? = some op)
    (hnext : p.opcodes[j]? = some next) (hlt : op.offset < next.offset) : i < j := by
  refine Nat.lt_of_not_le fun hji => ?_
  exact UInt32.not_lt.mpr (h.le hnext hop hji) hlt

theorem Ascending.index_eq (h : p.Ascending) (hop : p.opcodes[i]? = some op)
    (hnext : p.opcodes[j]? = some next) (heq : op.offset = next.offset) : i = j := by
  rcases Nat.lt_trichotomy i j with hij | hij | hij
  · exact absurd heq (UInt32.ne_of_lt (h.lt hop hnext hij))
  · exact hij
  · exact absurd heq.symm (UInt32.ne_of_lt (h.lt hnext hop hij))

/-! ### Bisection -/

/-- An offset has to be in a part of the table: what stands before the part has smaller offsets, and what
stands behind it has greater ones. -/
structure Within (opcodes : Array Opcode) (offset : UInt32) (base size : Nat) : Prop where
  fits : base + size ≤ opcodes.size
  before : ∀ i op, opcodes[i]? = some op → i < base → op.offset < offset
  behind : ∀ i op, opcodes[i]? = some op → base + size ≤ i → offset < op.offset

theorem within_all (opcodes : Array Opcode) (offset : UInt32) :
    Within opcodes offset 0 opcodes.size where
  fits := by omega
  before i op _ hi := absurd hi (Nat.not_lt_zero i)
  behind i op hop hi := by
    rw [Array.getElem?_eq_none (by omega)] at hop
    cases hop

/-- An offset stays in the half that the opcode in the middle decides for. -/
theorem Within.halve (hp : p.Ascending) (h : Within p.opcodes offset base size) (hsize : 1 < size) :
    Within p.opcodes offset
      (if p.opcodes[base + size / 2]?.any fun op => offset < op.offset then base else base + size / 2)
      (size - size / 2) := by
  have hfits := h.fits
  obtain ⟨middle, hmiddle⟩ : ∃ middle, p.opcodes[base + size / 2]? = some middle :=
    ⟨_, Array.getElem?_eq_getElem (by omega)⟩
  simp only [hmiddle, Option.any_some, decide_eq_true_eq]
  split_ifs with hbeyond
  · refine ⟨by omega, h.before, fun i op hop hi => ?_⟩
    exact UInt32.lt_of_lt_of_le hbeyond (hp.le hmiddle hop (by omega))
  · refine ⟨by omega, fun i op hop hi => ?_, fun i op hop hi => h.behind i op hop (by omega)⟩
    exact UInt32.lt_of_lt_of_le (hp.lt hop hmiddle hi) (UInt32.not_lt.mp hbeyond)

/-- Bisection ends at the one index that an offset can be at. -/
theorem Within.bisect (hp : p.Ascending) (h : Within p.opcodes offset base size) (hsize : 0 < size) :
    Within p.opcodes offset (bisect p.opcodes offset base size) 1 := by
  fun_induction Program.bisect p.opcodes offset base size with
  | case1 base size hlt half base' ih => exact ih (h.halve hp hlt) (by omega)
  | case2 base size hlt =>
    obtain rfl : size = 1 := by omega
    exact h

theorem Within.index_eq (h : Within opcodes offset base 1) (hop : opcodes[i]? = some op)
    (hoffset : op.offset = offset) : i = base := by
  rcases Nat.lt_trichotomy i base with hi | hi | hi
  · exact absurd hoffset (UInt32.ne_of_lt (h.before i op hop hi))
  · exact hi
  · exact absurd hoffset.symm (UInt32.ne_of_lt (h.behind i op hop hi))

/-! ### Opcodes at offsets -/

/-- Whatever order the opcodes are in, an index that is found is that of an opcode with the offset. -/
theorem exists_of_indexOf? (h : p.indexOf? offset = some i) :
    ∃ op, p.opcodes[i]? = some op ∧ op.offset = offset := by
  unfold indexOf? at h
  dsimp only at h
  split_ifs at h with hfound
  obtain rfl := Option.some_inj.mp h
  simpa [Option.any_eq_true] using hfound

theorem indexOf?_eq_some_iff (hp : p.Ascending) :
    p.indexOf? offset = some i ↔ ∃ op, p.opcodes[i]? = some op ∧ op.offset = offset := by
  refine ⟨exists_of_indexOf?, ?_⟩
  rintro ⟨op, hop, hoffset⟩
  obtain ⟨hi, -⟩ := Array.getElem?_eq_some_iff.mp hop
  have hwithin := (within_all p.opcodes offset).bisect hp (by omega)
  obtain rfl := hwithin.index_eq hop hoffset
  simp [indexOf?, hop, hoffset]

/-- An opcode of the script has the offset. -/
def HasOffset (p : Program) (offset : UInt32) : Prop := ∃ op ∈ p.opcodes, op.offset = offset

/-- A routine of the script starts at the offset. -/
def StartsRoutine (p : Program) (offset : UInt32) : Prop := ∃ r ∈ p.routines, r.offset = offset

/-- The opcode is the only one of the script with the offset. -/
structure IsOnlyAt (p : Program) (offset : UInt32) (op : Opcode) : Prop where
  mem : op ∈ p.opcodes
  offset_eq : op.offset = offset
  only : ∀ other ∈ p.opcodes, other.offset = offset → other = op

/-- The opcode has the least offset above the given one. -/
structure IsLeastAbove (p : Program) (offset : UInt32) (next : Opcode) : Prop where
  mem : next ∈ p.opcodes
  above : offset < next.offset
  least : ∀ op ∈ p.opcodes, offset < op.offset → next.offset ≤ op.offset

theorem opcodeAt?_eq_some_iff_index : p.opcodeAt? offset = some op ↔
    ∃ i, p.indexOf? offset = some i ∧ p.opcodes[i]? = some op := by
  rw [opcodeAt?, Option.bind_eq_some_iff]

theorem opcodeAt?_mem (h : p.opcodeAt? offset = some op) : op ∈ p.opcodes ∧ op.offset = offset := by
  obtain ⟨i, hi, hop⟩ := opcodeAt?_eq_some_iff_index.mp h
  obtain ⟨found, hfound, hoffset⟩ := exists_of_indexOf? hi
  obtain rfl := Option.some_inj.mp (hfound.symm.trans hop)
  exact ⟨Array.mem_of_getElem? hop, hoffset⟩

theorem opcodeAt?_eq_some_iff (hp : p.Ascending) :
    p.opcodeAt? offset = some op ↔ op ∈ p.opcodes ∧ op.offset = offset := by
  refine ⟨opcodeAt?_mem, ?_⟩
  rintro ⟨hmem, hoffset⟩
  obtain ⟨i, hi⟩ := Array.mem_iff_getElem?.mp hmem
  exact opcodeAt?_eq_some_iff_index.mpr ⟨i, (indexOf?_eq_some_iff hp).mpr ⟨op, hi, hoffset⟩, hi⟩

theorem opcodeAt?_eq_none_iff (hp : p.Ascending) :
    p.opcodeAt? offset = none ↔ ¬p.HasOffset offset := by
  simp only [Option.eq_none_iff_forall_ne_some, ne_eq, opcodeAt?_eq_some_iff hp, HasOffset, not_exists]

theorem isOnlyAt_iff (hp : p.Ascending) :
    p.IsOnlyAt offset op ↔ op ∈ p.opcodes ∧ op.offset = offset := by
  refine ⟨fun h => ⟨h.mem, h.offset_eq⟩, fun ⟨hmem, hoffset⟩ => ⟨hmem, hoffset, ?_⟩⟩
  intro other hother heq
  obtain ⟨i, hi⟩ := Array.mem_iff_getElem?.mp hmem
  obtain ⟨j, hj⟩ := Array.mem_iff_getElem?.mp hother
  obtain rfl := hp.index_eq hi hj (hoffset.trans heq.symm)
  exact Option.some_inj.mp (hj.symm.trans hi)

/-- The opcode that reading from the front comes to first is the one at the offset. -/
theorem opcodeAt?_eq_find? (hp : p.Ascending) :
    p.opcodeAt? offset = p.opcodes.find? fun op => op.offset == offset := by
  cases hfind : p.opcodes.find? fun op => op.offset == offset with
  | none =>
    rw [opcodeAt?_eq_none_iff hp]
    rintro ⟨op, hmem, hoffset⟩
    exact Array.find?_eq_none.mp hfind op hmem (by simp [hoffset])
  | some op =>
    rw [opcodeAt?_eq_some_iff hp]
    exact ⟨Array.mem_of_find?_eq_some hfind, by simpa using Array.find?_some hfind⟩

/-! ### Opcodes that follow -/

/-- Behind an opcode stands the one with the least offset above. -/
theorem isLeastAbove_iff (hp : p.Ascending) (hop : p.opcodes[i]? = some op) :
    p.IsLeastAbove op.offset next ↔ p.opcodes[i + 1]? = some next := by
  constructor
  · intro h
    obtain ⟨k, hk⟩ := Array.mem_iff_getElem?.mp h.mem
    have hik : i < k := hp.index_lt hop hk h.above
    obtain ⟨hsize, -⟩ := Array.getElem?_eq_some_iff.mp hk
    have hbehind : p.opcodes[i + 1]? = some p.opcodes[i + 1] := Array.getElem?_eq_getElem (by omega)
    -- what stands behind the opcode is above it too, so it is not before the least one
    have hle := h.least _ (Array.mem_of_getElem? hbehind) (hp.lt hop hbehind (by omega))
    have hki : ¬i + 1 < k := fun hlt => UInt32.not_lt.mpr hle (hp.lt hbehind hk hlt)
    rwa [show i + 1 = k by omega]
  · intro h
    refine ⟨Array.mem_of_getElem? h, hp.lt hop h (by omega), fun other hother habove => ?_⟩
    obtain ⟨j, hj⟩ := Array.mem_iff_getElem?.mp hother
    exact hp.le h hj (hp.index_lt hop hj habove)

theorem nextInRoutine?_eq_some_iff (hp : p.Ascending) : p.nextInRoutine? offset = some next ↔
    p.HasOffset offset ∧ p.IsLeastAbove offset next ∧ ¬p.StartsRoutine next.offset := by
  have hstarts : (!p.routines.any fun r => r.offset == next.offset) = true ↔
      ¬p.StartsRoutine next.offset := by
    simp [StartsRoutine]
  rw [nextInRoutine?, Option.bind_eq_some_iff]
  simp only [Option.filter_eq_some_iff, hstarts, indexOf?_eq_some_iff hp]
  constructor
  · rintro ⟨i, ⟨op, hop, rfl⟩, hnext, hroutine⟩
    exact ⟨⟨op, Array.mem_of_getElem? hop, rfl⟩, (isLeastAbove_iff hp hop).mpr hnext, hroutine⟩
  · rintro ⟨⟨op, hmem, rfl⟩, hnext, hroutine⟩
    obtain ⟨i, hop⟩ := Array.mem_iff_getElem?.mp hmem
    exact ⟨i, ⟨op, hop, rfl⟩, (isLeastAbove_iff hp hop).mp hnext, hroutine⟩

/-- What is found at an offset has that offset, in whatever order the opcodes are.  Where they are in the
order of their offsets, it is what reading from the front finds: the only opcode with the offset, or none if
there is none.  What follows it in its routine is the opcode with the least offset above, unless a routine
starts there. -/
theorem lookups_agree (p : Program) (offset : UInt32) :
    (∀ op, p.opcodeAt? offset = some op → op ∈ p.opcodes ∧ op.offset = offset) ∧
      (p.Ascending →
        (p.opcodeAt? offset = p.opcodes.find? fun op => op.offset == offset) ∧
        (∀ op, p.opcodeAt? offset = some op ↔ p.IsOnlyAt offset op) ∧
        (p.opcodeAt? offset = none ↔ ¬p.HasOffset offset) ∧
        ∀ next, p.nextInRoutine? offset = some next ↔
          p.HasOffset offset ∧ p.IsLeastAbove offset next ∧ ¬p.StartsRoutine next.offset) := by
  refine ⟨fun op => opcodeAt?_mem, fun hp => ⟨opcodeAt?_eq_find? hp, fun op => ?_,
    opcodeAt?_eq_none_iff hp, fun next => nextInRoutine?_eq_some_iff hp⟩⟩
  rw [opcodeAt?_eq_some_iff hp, isOnlyAt_iff hp]

/-- Two routines, of three opcodes and of two. -/
def twoRoutines : Program where
  routines := [⟨.generic, -1, 0⟩, ⟨.actor, 1, 6⟩]
  opcodes := #[⟨0, 16, "Wait", [30]⟩, ⟨2, 16, "Wait", [30]⟩, ⟨4, 16, "Wait", [30]⟩,
    ⟨6, 16, "Wait", [30]⟩, ⟨8, 16, "Wait", [30]⟩]

theorem lookups_agree_twoRoutines : twoRoutines.Ascending ∧
    twoRoutines.opcodeAt? 4 = some ⟨4, 16, "Wait", [30]⟩ ∧ twoRoutines.opcodeAt? 5 = none ∧
    twoRoutines.nextInRoutine? 2 = some ⟨4, 16, "Wait", [30]⟩ ∧ twoRoutines.nextInRoutine? 4 = none ∧
    twoRoutines.nextInRoutine? 8 = none := by
  have hascending : twoRoutines.Ascending := by unfold Ascending; decide
  refine ⟨hascending, ?_, ?_, ?_, ?_, ?_⟩
  · exact (((lookups_agree twoRoutines 4).2 hascending).2.1 _).mpr ⟨by simp [twoRoutines], rfl, by decide⟩
  · refine ((lookups_agree twoRoutines 5).2 hascending).2.2.1.mpr ?_
    unfold HasOffset
    decide
  · refine (((lookups_agree twoRoutines 2).2 hascending).2.2.2 _).mpr
      ⟨⟨⟨2, 16, "Wait", [30]⟩, by simp [twoRoutines], rfl⟩,
        ⟨by simp [twoRoutines], by decide, by decide⟩, ?_⟩
    unfold StartsRoutine
    decide
  · refine Option.eq_none_iff_forall_ne_some.mpr fun next hnext => ?_
    obtain ⟨-, hleast, hroutine⟩ :=
      (((lookups_agree twoRoutines 4).2 hascending).2.2.2 next).mp hnext
    have habove : ∀ op ∈ twoRoutines.opcodes, 4 < op.offset → op.offset ≤ 6 → op.offset = 6 := by decide
    have hsix := habove next hleast.mem hleast.above
      (hleast.least ⟨6, 16, "Wait", [30]⟩ (by simp [twoRoutines]) (by decide))
    exact hroutine ⟨⟨.actor, 1, 6⟩, by decide, hsix.symm⟩
  · refine Option.eq_none_iff_forall_ne_some.mpr fun next hnext => ?_
    obtain ⟨-, hleast, -⟩ := (((lookups_agree twoRoutines 8).2 hascending).2.2.2 next).mp hnext
    have hlast : ∀ op ∈ twoRoutines.opcodes, ¬(8 : UInt32) < op.offset := by decide
    exact hlast next hleast.mem hleast.above

end Program

end SceneDebugger
