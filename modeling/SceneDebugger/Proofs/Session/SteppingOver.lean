import SceneDebugger.Proofs.Session.Stepping

/-!
# SceneDebugger.Proofs.Session.SteppingOver — steps over an opcode and over a call

A step over an opcode ends at the next opcode that is run for the same target, in the shared script or
outside of it as before, or where the caller goes on.  The call frame of the opcode does not matter, so
that a routine called from the opcode halts if it is on the same side of the shared script
(`Session.stepOver_ends_iff`, `Session.stepOver_entersRoutine`).

A step over a shown call runs to the offset behind it.  Once the user has descended into the called
file, no call is shown any more, and a step over is one over an opcode (`Session.stepOver_call`).
-/

namespace SceneDebugger

/-! ### Addresses and offsets -/

namespace ScriptContext

variable {c c' : ScriptContext} {o : UInt32}

theorem toNat_addressOf (c : ScriptContext) (o : UInt32) :
    (c.addressOf o).toNat = (c.routineTable.toNat + 2 * o.toNat) % UInt32.size := by
  simp only [addressOf, UInt32.toNat_add, UInt32.toNat_mul, UInt32.toNat_ofNat, UInt32.size]
  omega

/-- The offset of an opcode is counted in words from the routine table. -/
theorem offset_of_ofRecord? {pointer sharedTable : UInt32} {record : List UInt8}
    (h : ofRecord? pointer record sharedTable = .ok c) :
    c.offset = (c.address - c.routineTable) / 2 := by
  unfold ofRecord? at h
  dsimp only at h
  split at h
  · cases h
  · split at h
    · cases h
    · split at h
      · cases h
      · cases h
        rfl

theorem offset_of_probe {m : Memory} {pointer sharedTable : UInt32}
    (h : probe m pointer sharedTable = .ok c) : c.offset = (c.address - c.routineTable) / 2 := by
  unfold probe at h
  split at h
  · cases h
  · split at h
    · cases h
    · split at h
      · cases h
      · next c' hrecord =>
        have hoffset := offset_of_ofRecord? hrecord
        split at h
        · split at h
          · cases h
          · cases h
            exact hoffset
        · cases h
          exact hoffset

/-- Under the same routine table, the address of an offset is the address of no other offset. -/
theorem offset_of_address (ho : 2 * o.toNat < UInt32.size) (htable : c'.routineTable = c.routineTable)
    (haddress : c'.address = c.addressOf o)
    (hoffset : c'.offset = (c'.address - c'.routineTable) / 2) : c'.offset = o := by
  rw [hoffset, htable, haddress, addressOf, UInt32.add_comm, UInt32.add_sub_cancel]
  apply UInt32.toNat_inj.mp
  have hdouble : (o * 2).toNat = 2 * o.toNat := by
    simp only [UInt32.size] at ho
    simp only [UInt32.toNat_mul, UInt32.toNat_ofNat]
    omega
  rw [UInt32.toNat_div, hdouble]
  simp

end ScriptContext

/-! ### Places -/

namespace HaltPlace

variable {p : HaltPlace} {c : ScriptContext} {d : Decision} {o : UInt32}

theorem resolve_of_not_onCall (h : p.onCall = false) : p.resolve c d = d := by
  simp [resolve, h]

theorem resolve_stepOver_of_onCall (h : p.onCall = true) (ho : p.returnOffset? = some o) :
    p.resolve c .stepOver = .stepManual (c.addressOf o) := by
  simp [resolve, h, ho]

/-- To descend changes what is shown and nothing else, and leaves no call to descend into. -/
theorem descend?_eq_some {place : HaltPlace} (h : p.descend? = some place) :
    ∃ shown position, place = { p with shown, position, onCall := false } := by
  unfold descend? at h
  split_ifs at h
  obtain ⟨e, -, h⟩ := Option.bind_eq_some_iff.mp h
  obtain ⟨path, -, h⟩ := Option.map_eq_some_iff.mp h
  exact ⟨path.text, some (e.line, e.column), h.symm⟩

end HaltPlace

namespace Session

variable {first t : Session} {moves more : List HaltMove} {r : HaltRecord}

theorem offset_of_reachedOpcode? {s : Session} {file : String} {c : ScriptContext}
    (h : s.reachedOpcode? = some (file, c)) : c.offset = (c.address - c.routineTable) / 2 := by
  unfold reachedOpcode? at h
  split at h
  · cases h
  · split at h
    · cases h
    · next c' hprobe =>
      split at h
      · obtain ⟨script, -, heq⟩ := Option.map_eq_some_iff.mp h
        cases heq
        exact ScriptContext.offset_of_probe hprobe
      · cases h

theorem decision_of_free (hfree : r.isReleased = false) : r.decision = none := by
  simpa [HaltRecord.isReleased] using hfree

/-! ### Over an opcode -/

/-- A halt that shows no call, released to step over its opcode. -/
theorem bound_stepOver (hfirst : first.controller.halt = none)
    (hr : (first.after moves).controller.halt = some r) (hfree : r.isReleased = false)
    (hplain : r.place.onCall = false) (ht : (first.after moves).Resumes .stepOver t) :
    t.Bound .stepOver r.context := by
  have hcleared : (first.after moves).Cleared := (cleared_of_none hfirst).after moves
  have hbound := hcleared.bound_of_resumes hr (decision_of_free hfree) ht
  rwa [HaltPlace.resolve_of_not_onCall hplain] at hbound

/-- After a step over an opcode the next halt is at the first opcode with a breakpoint, or that is run
for the same target, on the same side of the shared script or where the caller goes on.  It may be of a
routine that the opcode has called. -/
theorem stepOver_ends_iff (hfirst : first.controller.halt = none)
    (hr : (first.after moves).controller.halt = some r) (hfree : r.isReleased = false)
    (hplain : r.place.onCall = false) (ht : (first.after moves).Resumes .stepOver t)
    (hquiet : t.Quiet more) (file : String) (c : ScriptContext) :
    (t.after more).HaltsAt file c ↔
      (t.after more).reachedOpcode? = some (file, c) ∧
        ((t.after more).BreaksAt file c ∨
          r.context.SameTarget c ∧
            (r.context.isShared = c.isShared ∨ r.context.ReturnsTo c)) :=
  (bound_stepOver hfirst hr hfree hplain ht).stepsBy more hquiet file c

/-- An opcode that is run for another target passes. -/
def otherTarget : List HaltMove :=
  [.amid (breaking.facing { kind := 9, hanger := 1, address := 2 }), .opcode, breaking.facingAt 2 8]

/-- A step over the first opcode of a script passes an opcode of another target and ends at the next
one of the script. -/
theorem stepOver_ends_sample :
    breaking.controller.halt = none ∧ ∃ r c, (breaking.halted 8).controller.halt = some r ∧
      r.isReleased = false ∧ r.place.onCall = false ∧
      ((breaking.halted 8).resumed .stepOver).Quiet otherTarget ∧ c.offset = 1 ∧
      (((breaking.halted 8).resumed .stepOver).after otherTarget).HaltsAt "enter.ssb" c := by
  refine ⟨rfl, ?_⟩
  obtain ⟨r, hr, hfree, hplain, htarget, hslot, hside⟩ := exists_currentHalt (breaking.halted 8)
    (fun r => r.isReleased = false ∧ r.place.onCall = false ∧ r.context.target = .generic ∧
      r.context.slot = 0 ∧ r.context.isShared = false) (by decide +kernel)
  have hquiet : ((breaking.halted 8).resumed .stepOver).Quiet otherTarget := by decide +kernel
  have hreach : ((((breaking.halted 8).resumed .stepOver).after otherTarget).reachedOpcode?.any
      fun x => x.1 = "enter.ssb" ∧ x.2.target = .generic ∧ x.2.slot = 0 ∧ x.2.isShared = false ∧
        x.2.offset = 1) = true := by decide +kernel
  obtain ⟨⟨file, c⟩, hreached, hnext⟩ := (Option.any_eq_true _ _).mp hreach
  obtain ⟨rfl, htarget', hslot', hside', hoffset⟩ := of_decide_eq_true hnext
  refine ⟨r, c, hr, hfree, hplain, hquiet, hoffset, ?_⟩
  have hsame : r.context.SameTarget c := ⟨by rw [htarget, htarget'], by rw [hslot, hslot']⟩
  exact (stepOver_ends_iff rfl hr hfree hplain (resumes_resumed _ .stepOver) hquiet "enter.ssb" c).mpr
    ⟨hreached, .inr ⟨hsame, .inl (by rw [hside, hside'])⟩⟩

/-- A step over an opcode does not always stay in the frame of its script: it ends in a routine that
the opcode calls in the same script. -/
theorem stepOver_entersRoutine :
    ¬ ∀ (first t : Session) (moves more : List HaltMove) (r : HaltRecord) (file : String)
        (c : ScriptContext), first.controller.halt = none →
      (first.after moves).controller.halt = some r → r.isReleased = false →
      r.place.onCall = false → (first.after moves).Resumes .stepOver t → t.Quiet more →
      (t.after more).HaltsAt file c → ¬ (t.after more).BreaksAt file c →
      r.context.SameTarget c ∧ (c.caller = r.context.caller ∨ r.context.ReturnsTo c) := by
  intro hclaim
  obtain ⟨r, hr, hfree, hplain, hcaller⟩ := exists_currentHalt (breaking.halted 0)
    (fun r => r.isReleased = false ∧ r.place.onCall = false ∧ r.context.caller = none)
    (by decide +kernel)
  -- the routine at address 20 was called by the opcode before address 2
  let inside : Session := ((breaking.halted 0).resumed .stepOver).after [breaking.facingAt 20 2]
  obtain ⟨c, hhalts, hframe, hpasses⟩ := exists_haltsAt inside "enter.ssb"
    (fun c => c.caller ≠ none ∧ ¬ inside.BreaksAt "enter.ssb" c) (by decide +kernel)
  have hquiet : ((breaking.halted 0).resumed .stepOver).Quiet [breaking.facingAt 20 2] := by
    decide +kernel
  have hends := hclaim breaking _ [breaking.facingAt 0 0, .opcode] _ r "enter.ssb" c rfl hr hfree
    hplain (resumes_resumed _ .stepOver) hquiet hhalts hpasses
  rcases hends.2 with hsame | ⟨f, hf, -⟩
  · rw [hcaller] at hsame
    exact hframe hsame
  · rw [hcaller] at hf
    cases hf

/-! ### Over a call -/

/-- A halt that shows a call, released to step over it. -/
theorem bound_stepOver_call {o : UInt32} (hfirst : first.controller.halt = none)
    (hr : (first.after moves).controller.halt = some r) (hfree : r.isReleased = false)
    (hcall : r.place.onCall = true) (ho : r.place.returnOffset? = some o)
    (ht : (first.after moves).Resumes .stepOver t) :
    t.Bound (.stepManual (r.context.addressOf o)) r.context := by
  have hcleared : (first.after moves).Cleared := (cleared_of_none hfirst).after moves
  have hbound := hcleared.bound_of_resumes hr (decision_of_free hfree) ht
  rwa [HaltPlace.resolve_stepOver_of_onCall hcall ho] at hbound

theorem endsAt_stepManual_iff {c c' : ScriptContext} {o : UInt32} :
    (Decision.stepManual (c.addressOf o)).EndsAt c c' ↔
      c.SameTarget c' ∧ c.isShared = c'.isShared ∧
        c'.address.toNat = (c.routineTable.toNat + 2 * o.toNat) % UInt32.size := by
  rw [← ScriptContext.toNat_addressOf, UInt32.toNat_inj, eq_comm (a := c'.address)]
  rfl

/-- After the user has descended into the called file no call is shown, as long as the halt lasts. -/
theorem holds_descended {s : Session} {place : HaltPlace} {idle : List HaltMove}
    (hr : s.controller.halt = some r) (hplace : r.place.descend? = some place)
    (hidle : ∀ m ∈ idle, m ≠ .wake) :
    ∃ r', ((s.moved .descend).after idle).controller.halt = some r' ∧ r'.context = r.context ∧
      r'.place = place := by
  have hdescended : (s.moved .descend).controller.halt = some { r with place } := by
    rw [moved_descend_of_halt hr]
    simp [changeHalt, HaltRecord.descend, hplace]
  obtain ⟨⟨r', hr', hlater⟩, -, -⟩ := holds_after hdescended hidle
  obtain ⟨shown, position, rfl⟩ := HaltPlace.descend?_eq_some hplace
  exact ⟨r', hr', hlater.context, hlater.place rfl⟩

/-- A step over a shown call puts one target on its way, and the next halt that is at no breakpoint is
at the address behind the call, where the same routine table has the offset behind the call.  After the
user has descended into the called file, which works once, a step over is one over an opcode. -/
theorem stepOver_call (hfirst : first.controller.halt = none)
    (hr : (first.after moves).controller.halt = some r) (hfree : r.isReleased = false) :
    (∀ o t, r.place.onCall = true → r.place.returnOffset? = some o → 2 * o.toNat < UInt32.size →
      (first.after moves).Resumes .stepOver t →
      t.breakpoints.stepTargets.length = 1 ∧
      ∀ more, t.Quiet more → ∀ file c,
        ((t.after more).HaltsAt file c ↔ (t.after more).reachedOpcode? = some (file, c) ∧
          ((t.after more).BreaksAt file c ∨
            r.context.SameTarget c ∧ r.context.isShared = c.isShared ∧
              c.address.toNat = (r.context.routineTable.toNat + 2 * o.toNat) % UInt32.size)) ∧
        ((t.after more).HaltsAt file c → ¬ (t.after more).BreaksAt file c →
          c.routineTable = r.context.routineTable → c.offset = o)) ∧
    (∀ place, r.place.descend? = some place →
      (∃ shown position, place = { r.place with shown, position, onCall := false }) ∧
      (first.after moves).moved .descend = (first.after moves).changeHalt r { r with place } ∧
      ∀ idle, (∀ m ∈ idle, m ≠ .wake) →
        (((first.after moves).moved .descend).after idle).descend.1 = some false ∧
        ∃ r', (((first.after moves).moved .descend).after idle).controller.halt = some r' ∧
          r'.place = place ∧
          (r'.isReleased = false → ∀ t,
            (((first.after moves).moved .descend).after idle).Resumes .stepOver t →
              t.Bound .stepOver r.context ∧ t.StepsBy .stepOver r.context)) ∧
    (r.place.onCall = false → ∀ t, (first.after moves).Resumes .stepOver t →
      t.Bound .stepOver r.context ∧ t.StepsBy .stepOver r.context) := by
  refine ⟨fun o t hcall ho hsmall ht => ?_, fun place hplace => ⟨?_, ?_, fun idle hidle => ?_⟩,
    fun hplain t ht => ?_⟩
  · have hbound := bound_stepOver_call hfirst hr hfree hcall ho ht
    refine ⟨by rw [hbound.targets]; rfl, fun more hquiet file c => ?_⟩
    have hiff := hbound.stepsBy more hquiet file c
    refine ⟨by rw [hiff, endsAt_stepManual_iff], fun hhalts hbreaks htable => ?_⟩
    obtain ⟨hreached, hends⟩ := hiff.mp hhalts
    obtain ⟨-, -, haddress⟩ := hends.resolve_left hbreaks
    exact ScriptContext.offset_of_address hsmall htable haddress.symm
      (offset_of_reachedOpcode? hreached)
  · exact HaltPlace.descend?_eq_some hplace
  · rw [moved_descend_of_halt hr]
    simp [HaltRecord.descend, hplace]
  · obtain ⟨r', hr', hcontext, rfl⟩ := holds_descended hr hplace hidle
    obtain ⟨shown, position, hdescended⟩ := HaltPlace.descend?_eq_some hplace
    have hplain : r'.place.onCall = false := by rw [hdescended]
    refine ⟨?_, r', hr', rfl, fun hfree' t ht => ?_⟩
    · simp [descend, hr', HaltRecord.descend, HaltRecord.descend?_of_not_onCall hplain]
    · have hafter : ((first.after moves).moved .descend).after idle =
          first.after (moves ++ .descend :: idle) := by
        rw [after_append, after_cons]
      rw [hafter] at hr' ht
      have hbound := bound_stepOver hfirst hr' hfree' hplain ht
      rw [hcontext] at hbound
      exact ⟨hbound, hbound.stepsBy⟩
  · have hbound := bound_stepOver hfirst hr hfree hplain ht
    exact ⟨hbound, hbound.stepsBy⟩

/-- A session whose script begins with a call of three opcodes. -/
def calling : Session :=
  let call : Inlining :=
    { path := some ⟨"proj/Macros/walk.exps"⟩
      calledIn := some { line := 3, column := 4 }
      returnOffset := some 3 }
  { breaking with
    workspace := breaking.workspace.put
      { name := "enter.ssb"
        program := {}
        hash := ""
        marks.permanent := .only .exps
          (({} : SourceMap).insert 0 { line := 1, column := 0, inlining := some call }) } }

/-- The other opcodes of the call pass. -/
def throughCall : List HaltMove :=
  [calling.facingAt 2 0, .opcode, calling.facingAt 4 0, .opcode, calling.facingAt 6 0]

/-- A step over a call of three opcodes ends at the fourth opcode. -/
theorem stepOver_call_sample :
    calling.controller.halt = none ∧ ∃ r c, (calling.halted 0).controller.halt = some r ∧
      r.isReleased = false ∧ r.place.onCall = true ∧ r.place.descend?.isSome = true ∧
      ((calling.halted 0).resumed .stepOver).breakpoints.stepTargets.length = 1 ∧
      ((calling.halted 0).resumed .stepOver).Quiet throughCall ∧
      (((calling.halted 0).resumed .stepOver).after throughCall).HaltsAt "enter.ssb" c ∧
      c.offset = 3 := by
  refine ⟨rfl, ?_⟩
  obtain ⟨r, hr, hfree, hcall, hreturn, hdescends, htable⟩ := exists_currentHalt (calling.halted 0)
    (fun r => r.isReleased = false ∧ r.place.onCall = true ∧ r.place.returnOffset? = some 3 ∧
      r.place.descend?.isSome = true ∧ r.context.routineTable = 0) (by decide +kernel)
  let behind : Session := ((calling.halted 0).resumed .stepOver).after throughCall
  obtain ⟨c, hhalts, htable', hpasses⟩ := exists_haltsAt behind "enter.ssb"
    (fun c => c.routineTable = 0 ∧ ¬ behind.BreaksAt "enter.ssb" c) (by decide +kernel)
  have hquiet : ((calling.halted 0).resumed .stepOver).Quiet throughCall := by decide +kernel
  obtain ⟨hone, hsteps⟩ := (stepOver_call rfl hr hfree).1
    3 _ hcall hreturn (by decide) (resumes_resumed _ .stepOver)
  have hoffset := (hsteps throughCall hquiet "enter.ssb" c).2 hhalts hpasses
    (by rw [htable', htable])
  exact ⟨r, c, hr, hfree, hcall, hdescends, hone, hquiet, hhalts, hoffset⟩

end Session

end SceneDebugger
