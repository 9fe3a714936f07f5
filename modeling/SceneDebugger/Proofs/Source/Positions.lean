import Mathlib.Data.Set.Basic
import Std.Data.ExtTreeMap.Lemmas
import Std.Data.ExtTreeSet.Lemmas
import SceneDebugger.Source.SourceMap

/-!
# SceneDebugger.Proofs.Source.Positions — offsets and the lines they stand for

An opcode has one position: the first opcode of a call in the script's own text stands for the line of
the call, any other inlined opcode for its line in the inlined file, and the rest for their own line.
The way back is wider: a line of an inlined file is also that of the first opcode of a call that inlines
it.  So an offset carried to another map along its line may land at another position.

* `Entry.position`, `SourceMap.found`: the position of an opcode, and the opcodes found there.
* `Entry.isFoundAt_iff`: an opcode is found at its position, and the first one of a call also at its line
  in the inlined file.
* `SourceMap.carryOne?_eq`: an offset is carried to the first opcode found at its position.
* `SourceMap.positionsOf_carry`: which positions are kept.
* `SourceMap.carry_self_iff`: which offsets stay when the map does.
-/

namespace SceneDebugger

/-- A line of the script's own text, or of an inlined file, which the components of its path tell. -/
inductive TextPosition where
  | own (line : UInt32)
  | inlined (file : List String) (line : UInt32)
  deriving DecidableEq

namespace Entry

variable {e : Entry} {line : UInt32} {file : List String} {p : TextPosition}

/-- The position that an opcode stands for. -/
def position (e : Entry) : TextPosition :=
  match e.ownCallLine?, e.path? with
  | some callLine, _ => .own callLine
  | none, some path => .inlined path.key e.line
  | none, none => .own e.line

/-- The opcode is one of those at a line. -/
def isFoundAt : TextPosition → Entry → Bool
  | .own line, e => e.standsFor line
  | .inlined file line, e => e.line == line && e.path?.any fun path => file == path.key

theorem position_of_ownCallLine? (h : e.ownCallLine? = some line) : e.position = .own line := by
  rw [position, h]

theorem isFoundAt_own_iff : e.isFoundAt (.own line) = true ↔ e.position = .own line := by
  show e.standsFor line = true ↔ _
  unfold standsFor position
  cases e.ownCallLine? with
  | some callLine => simp
  | none => cases e.path? <;> simp

/-- The first opcode of a call in the script's own text is found at the line of the call, and also where
it is written. -/
theorem isFoundAt_inlined_iff : e.isFoundAt (.inlined file line) = true ↔
    e.position = .inlined file line ∨
      e.ownCallLine?.isSome = true ∧ e.line = line ∧ e.path?.map Path.key = some file := by
  have hfound : e.isFoundAt (.inlined file line) = true ↔
      e.line = line ∧ e.path?.map Path.key = some file := by
    cases hpath : e.path? <;> simp [isFoundAt, hpath, @eq_comm _ file]
  rw [hfound]
  unfold position
  cases e.ownCallLine? with
  | some callLine => simp
  | none => cases e.path? <;> simp [and_comm]

theorem isFoundAt_position (e : Entry) : e.isFoundAt e.position = true := by
  cases h : e.position with
  | own line => exact isFoundAt_own_iff.mpr h
  | inlined file line => exact isFoundAt_inlined_iff.mpr (.inl h)

end Entry

namespace SourceMap

variable {m n : SourceMap} {o k : UInt32} {e : Entry} {p q : TextPosition}
  {offsets : Std.ExtTreeSet UInt32}

/-- The opcodes found at a position, in order. -/
def found (m : SourceMap) (p : TextPosition) : List UInt32 := m.offsetsWhere (Entry.isFoundAt p)

/-- The position of the opcode at an offset. -/
def position? (m : SourceMap) (o : UInt32) : Option TextPosition := (m.at? o).map Entry.position

theorem found_own (m : SourceMap) (line : UInt32) : m.found (.own line) = m.offsetsAtLine line := rfl

theorem found_inlined (m : SourceMap) (path : Path) (line : UInt32) :
    m.found (.inlined path.key line) = m.offsetsAtInlinedLine path line := rfl

theorem mem_offsetsWhere {test : Entry → Bool} :
    o ∈ m.offsetsWhere test ↔ ∃ e, m.at? o = some e ∧ test e = true := by
  simp [offsetsWhere, toList, at?, Std.ExtTreeMap.mem_toList_iff_getElem?_eq_some]

theorem mem_found : o ∈ m.found p ↔ ∃ e, m.at? o = some e ∧ e.isFoundAt p = true := mem_offsetsWhere

theorem counterparts_eq (n : SourceMap) (e : Entry) : n.counterparts e = n.found e.position := by
  unfold counterparts Entry.position
  cases e.ownCallLine? with
  | some callLine => rfl
  | none => cases e.path? <;> rfl

theorem carryOne?_eq (m n : SourceMap) (o : UInt32) :
    m.carryOne? n o = (m.position? o).bind fun p => (n.found p).head? := by
  unfold carryOne? position?
  cases m.at? o with
  | none => rfl
  | some e => exact congrArg List.head? (n.counterparts_eq e)

theorem mem_carry : k ∈ m.carry n offsets ↔ ∃ o ∈ offsets, m.carryOne? n o = some k := by
  simp [carry, Std.ExtTreeSet.mem_ofList]

/-! ### Positions that are kept -/

/-- The positions of some offsets. -/
def positionsOf (m : SourceMap) (offsets : Std.ExtTreeSet UInt32) : Set TextPosition :=
  {p | ∃ o ∈ offsets, m.position? o = some p}

/-- The positions that occur in a map. -/
def positions (m : SourceMap) : Set TextPosition := {p | ∃ o, m.position? o = some p}

/-- The position of the first opcode found at a position. -/
def landing? (n : SourceMap) (p : TextPosition) : Option TextPosition :=
  (n.found p).head?.bind n.position?

/-- What is found at a line of an inlined file first may be the first opcode of a call in the script's
own text. -/
theorem landing?_eq_some (h : n.landing? p = some q) :
    q = p ∨ (∃ file line, p = .inlined file line) ∧ ∃ callLine, q = .own callLine := by
  obtain ⟨o, hhead, hq⟩ := Option.bind_eq_some_iff.mp h
  obtain ⟨e, he, hfound⟩ := mem_found.mp (List.mem_of_head? hhead)
  obtain ⟨e', he', rfl⟩ := Option.map_eq_some_iff.mp hq
  rw [he] at he'
  cases he'
  cases p with
  | own line => exact .inl (Entry.isFoundAt_own_iff.mp hfound)
  | inlined file line =>
    obtain hsame | ⟨hcall, -⟩ := Entry.isFoundAt_inlined_iff.mp hfound
    · exact .inl hsame
    · obtain ⟨callLine, hcall⟩ := Option.isSome_iff_exists.mp hcall
      exact .inr ⟨⟨file, line, rfl⟩, callLine, Entry.position_of_ownCallLine? hcall⟩

theorem mem_positions_of_landing? (h : n.landing? p = some q) : q ∈ n.positions := by
  obtain ⟨o, -, hq⟩ := Option.bind_eq_some_iff.mp h
  exact ⟨o, hq⟩

/-- There is an opcode at a position that occurs. -/
theorem exists_landing? (h : p ∈ n.positions) : ∃ q, n.landing? p = some q := by
  obtain ⟨o, ho⟩ := h
  obtain ⟨e, he, rfl⟩ := Option.map_eq_some_iff.mp ho
  have hmem : o ∈ n.found e.position := mem_found.mpr ⟨e, he, e.isFoundAt_position⟩
  obtain ⟨first, hfirst⟩ := Option.isSome_iff_exists.mp
    (List.isSome_head?.mpr (List.ne_nil_of_mem hmem))
  obtain ⟨e', he', -⟩ := mem_found.mp (List.mem_of_head? hfirst)
  refine ⟨e'.position, ?_⟩
  rw [landing?, hfirst, Option.bind_some, position?, he', Option.map_some]

theorem mem_positionsOf_carry :
    q ∈ n.positionsOf (m.carry n offsets) ↔ ∃ p ∈ m.positionsOf offsets, n.landing? p = some q := by
  constructor
  · rintro ⟨k, hk, hq⟩
    obtain ⟨o, ho, hcarried⟩ := mem_carry.mp hk
    rw [carryOne?_eq] at hcarried
    obtain ⟨p, hp, hhead⟩ := Option.bind_eq_some_iff.mp hcarried
    exact ⟨p, ⟨o, ho, hp⟩, Option.bind_eq_some_iff.mpr ⟨k, hhead, hq⟩⟩
  · rintro ⟨p, ⟨o, ho, hp⟩, hlanding⟩
    obtain ⟨k, hhead, hq⟩ := Option.bind_eq_some_iff.mp hlanding
    refine ⟨k, mem_carry.mpr ⟨o, ho, ?_⟩, hq⟩
    rw [carryOne?_eq, hp, Option.bind_some, hhead]

/-- Offsets carried to another map stand at the landings of their positions.  A position that occurs
there has a landing, which is the position itself, or for a line of an inlined file the line of a call.
The positions are those that occur there exactly if every one that lands elsewhere does not occur, and
the line it lands at is one of the positions anyway. -/
theorem positionsOf_carry (m n : SourceMap) (offsets : Std.ExtTreeSet UInt32) :
    n.positionsOf (m.carry n offsets) = {q | ∃ p ∈ m.positionsOf offsets, n.landing? p = some q} ∧
    (∀ p ∈ n.positions, ∃ q, n.landing? p = some q) ∧
    (∀ p q, n.landing? p = some q →
      q = p ∨ (∃ file line, p = .inlined file line) ∧ ∃ callLine, q = .own callLine) ∧
    (n.positionsOf (m.carry n offsets) = m.positionsOf offsets ∩ n.positions ↔
      ∀ p ∈ m.positionsOf offsets, ∀ q, n.landing? p = some q → q ≠ p →
        q ∈ m.positionsOf offsets ∧ p ∉ n.positions) := by
  refine ⟨Set.ext fun q => mem_positionsOf_carry, fun p => exists_landing?,
    fun p q => landing?_eq_some, fun hkept => ?_, fun hlands => ?_⟩
  · intro p hp q hq hne
    have hcarried : q ∈ n.positionsOf (m.carry n offsets) := mem_positionsOf_carry.mpr ⟨p, hp, hq⟩
    rw [hkept] at hcarried
    refine ⟨hcarried.1, fun hoccurs => ?_⟩
    -- the position would be kept, but nothing else lands at a line of an inlined file
    have hback : p ∈ n.positionsOf (m.carry n offsets) := hkept ▸ ⟨hp, hoccurs⟩
    obtain ⟨p', -, hp'⟩ := mem_positionsOf_carry.mp hback
    obtain ⟨⟨file, line, rfl⟩, -⟩ := (landing?_eq_some hq).resolve_left hne
    obtain rfl | ⟨-, callLine, hown⟩ := landing?_eq_some hp'
    · rw [hq] at hp'
      exact hne (Option.some.inj hp')
    · cases hown
  · ext q
    rw [mem_positionsOf_carry]
    constructor
    · rintro ⟨p, hp, hq⟩
      refine ⟨?_, mem_positions_of_landing? hq⟩
      by_cases hsame : q = p
      · rw [hsame]
        exact hp
      · exact (hlands p hp q hq hsame).1
    · rintro ⟨hq, hoccurs⟩
      obtain ⟨q', hq'⟩ := exists_landing? hoccurs
      by_cases hsame : q' = q
      · rw [hsame] at hq'
        exact ⟨q, hq, hq'⟩
      · exact absurd hoccurs (hlands q hq q' hq' hsame).2

/-- The first opcode of an inlined file, called at a line of a file or of the script's own text. -/
def firstInlined (path : String) (callFile : Option String) (callLine returnOffset : UInt32) : Entry where
  line := 1
  column := 0
  inlining := some {
    path := some ⟨path⟩
    calledIn := some { file := callFile.map Path.mk, line := callLine, column := 0 }
    returnOffset := some returnOffset }

/-- A script that calls `turn` on line 2 and `walk` on line 3; `walk` calls `turn` on its line 2. -/
def callWithinCall : SourceMap :=
  (({} : SourceMap).insert 0 (firstInlined "proj/Macros/turn.exps" none 2 2)
    |>.insert 2 (firstInlined "proj/Macros/walk.exps" none 3 6)
    |>.insert 4 (firstInlined "proj/Macros/turn.exps" (some "proj/Macros/walk.exps") 2 6))

/-- The calls in the script's own text keep their lines. -/
theorem positionsOf_carry_ownCalls : callWithinCall.positionsOf
      (callWithinCall.carry callWithinCall (.ofList [(0 : UInt32), 2])) =
    callWithinCall.positionsOf (.ofList [(0 : UInt32), 2]) ∩ callWithinCall.positions := by
  obtain ⟨-, -, hlanding, hkept⟩ :=
    positionsOf_carry callWithinCall callWithinCall (.ofList [(0 : UInt32), 2])
  have hturn : callWithinCall.position? 0 = some (.own 2) := by decide +kernel
  have hwalk : callWithinCall.position? 2 = some (.own 3) := by decide +kernel
  refine hkept.mpr fun p ⟨o, ho, hp⟩ q hq hne => ?_
  obtain ⟨⟨file, line, rfl⟩, -⟩ := (hlanding p q hq).resolve_left hne
  obtain rfl | rfl : o = 0 ∨ o = 2 := by simpa using ho
  · rw [hturn] at hp
    cases hp
  · rw [hwalk] at hp
    cases hp

/-- The inner call is carried to the outer one of the same file, which stands for its own line. -/
theorem callWithinCall_lands : callWithinCall.positionsOf
      (callWithinCall.carry callWithinCall (.ofList [(4 : UInt32)])) ≠
    callWithinCall.positionsOf (.ofList [(4 : UInt32)]) ∩ callWithinCall.positions := by
  have hcarried : (callWithinCall.carry callWithinCall (.ofList [(4 : UInt32)])).toList = [0] := by
    decide +kernel
  have hbefore : callWithinCall.position? 4 ≠ some (.own 2) := by decide +kernel
  have hafter : callWithinCall.position? 0 = some (.own 2) := by decide +kernel
  have hmem : .own 2 ∈ callWithinCall.positionsOf
      (callWithinCall.carry callWithinCall (.ofList [(4 : UInt32)])) := by
    refine ⟨0, ?_, hafter⟩
    rw [← Std.ExtTreeSet.mem_toList, hcarried]
    exact List.mem_singleton_self 0
  intro hkept
  rw [hkept] at hmem
  obtain ⟨⟨o, ho, hposition⟩, -⟩ := hmem
  obtain rfl : 4 = o := by simpa using ho
  exact hbefore hposition

/-! ### Offsets that stay -/

/-- The offset is the first one at a line, so that a toggle of the line picks it. -/
def Leads (m : SourceMap) (o : UInt32) : Prop :=
  (∃ line, (m.offsetsAtLine line).head? = some o) ∨
    ∃ path line, (m.offsetsAtInlinedLine path line).head? = some o

/-- If the opcode is the first one of a call in the script's own text, it is also the first one at the
line of the call. -/
def LeadsCall (m : SourceMap) (o : UInt32) : Prop :=
  ∀ e line, m.at? o = some e → e.ownCallLine? = some line → (m.offsetsAtLine line).head? = some o

theorem Leads.exists_found (h : m.Leads o) : ∃ p, (m.found p).head? = some o := by
  obtain ⟨line, hhead⟩ | ⟨path, line, hhead⟩ := h
  · refine ⟨.own line, ?_⟩
    rw [found_own, hhead]
  · refine ⟨.inlined path.key line, ?_⟩
    rw [found_inlined, hhead]

theorem carryOne?_of_at? (h : m.at? o = some e) : m.carryOne? n o = (n.found e.position).head? := by
  rw [carryOne?_eq, position?, h, Option.map_some, Option.bind_some]

/-- An opcode found first at its own position stays; so does one that is found first anywhere, unless
it is the first one of a call in the script's own text. -/
theorem carryOne?_self_iff (h : m.Leads o) : m.carryOne? m o = some o ↔ m.LeadsCall o := by
  obtain ⟨p, hhead⟩ := h.exists_found
  obtain ⟨e, he, hfound⟩ := mem_found.mp (List.mem_of_head? hhead)
  rw [carryOne?_of_at? he]
  cases hcall : e.ownCallLine? with
  | some callLine =>
    rw [Entry.position_of_ownCallLine? hcall, found_own]
    constructor
    · intro hfirst e' line he' hline
      rw [he] at he'
      cases he'
      rw [hcall] at hline
      cases hline
      exact hfirst
    · intro hleads
      exact hleads e callLine he hcall
  | none =>
    have hposition : e.position = p := by
      cases p with
      | own line => exact Entry.isFoundAt_own_iff.mp hfound
      | inlined file line =>
        refine (Entry.isFoundAt_inlined_iff.mp hfound).resolve_right ?_
        rw [hcall]
        rintro ⟨⟨⟩, -⟩
    rw [hposition]
    refine iff_of_true hhead fun e' line he' hline => ?_
    rw [he] at he'
    cases he'
    rw [hcall] at hline
    cases hline

theorem carry_self_iff (h : ∀ o ∈ offsets, m.Leads o) :
    m.carry m offsets = offsets ↔ ∀ o ∈ offsets, m.LeadsCall o := by
  constructor
  · intro hkept o ho
    rw [← carryOne?_self_iff (h o ho)]
    obtain ⟨k, hk, hcarried⟩ := mem_carry.mp (hkept.symm ▸ ho)
    by_cases hleads : m.LeadsCall k
    · -- the offset that is carried here stays itself
      have hstays := (carryOne?_self_iff (h k hk)).mpr hleads
      rw [hstays] at hcarried
      cases hcarried
      exact hstays
    · -- it is carried to the first opcode at the line of its call, which stands for that line
      simp only [LeadsCall, not_forall] at hleads
      obtain ⟨e, callLine, he, hcall, -⟩ := hleads
      rw [carryOne?_of_at? he, Entry.position_of_ownCallLine? hcall] at hcarried
      obtain ⟨e', he', hfound⟩ := mem_found.mp (List.mem_of_head? hcarried)
      rw [carryOne?_of_at? he', Entry.isFoundAt_own_iff.mp hfound]
      exact hcarried
  · intro hleads
    refine Std.ExtTreeSet.ext_mem fun k => ?_
    rw [mem_carry]
    constructor
    · rintro ⟨o, ho, hcarried⟩
      rw [(carryOne?_self_iff (h o ho)).mpr (hleads o ho)] at hcarried
      cases hcarried
      exact ho
    · exact fun hk => ⟨k, hk, (carryOne?_self_iff (h k hk)).mpr (hleads k hk)⟩

/-- A script that calls `turn` and `walk` on line 3. -/
def callsOnOneLine : SourceMap :=
  ({} : SourceMap).insert 0 (firstInlined "proj/Macros/turn.exps" none 3 2)
    |>.insert 2 (firstInlined "proj/Macros/walk.exps" none 3 4)

/-- A toggle of line 1 of `walk` picks its call, which is carried to the call before it on the line. -/
theorem callsOnOneLine_moves : callsOnOneLine.Leads 2 ∧
    callsOnOneLine.carry callsOnOneLine (.ofList [(2 : UInt32)]) ≠ .ofList [(2 : UInt32)] := by
  have hfirst : (callsOnOneLine.offsetsAtInlinedLine ⟨"proj/Macros/walk.exps"⟩ 1).head? = some 2 := by
    decide +kernel
  have hcarried : (callsOnOneLine.carry callsOnOneLine (.ofList [(2 : UInt32)])).toList = [0] := by
    decide +kernel
  refine ⟨.inr ⟨_, _, hfirst⟩, fun hkept => ?_⟩
  rw [hkept] at hcarried
  revert hcarried
  decide

end SourceMap

end SceneDebugger
