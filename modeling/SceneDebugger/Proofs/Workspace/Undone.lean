import SceneDebugger.Proofs.Workspace.Changes

/-!
# SceneDebugger.Proofs.Workspace.Undone — what a failed save leaves behind

A save asks for the file, compiles the text, writes the bytes to the ROM and saves the ROM.  Whatever
fails, nothing is different afterwards, except that the file may be in use now, as it is in the ROM.
There is one exception: if the bytes can be written but the ROM cannot be saved then, they stay there
(`Workspace.StrandsSave`).

* `Workspace.Undone`: nothing has changed but the bytes of one file, which may be in use now.
* `Workspace.undone_saveSsbs`, `Workspace.undone_saveExps`, `Workspace.undone_tryRecompile`: failed saves.
* `Workspace.spares_tryRecompile`: a script compiled anew leaves other scripts alone.
-/

namespace SceneDebugger.Workspace

variable {w v u : Workspace} {name k : String} {e : Error}

/-! ### What has not changed -/

/-- Nothing has changed but the log, with two exceptions for one file: it may be in use now, as the ROM
has had it, and the ROM may have other bytes of it. -/
structure Undone (w v : Workspace) (name : String) : Prop where
  compiler : v.compiler = w.compiler
  project : v.project = w.project
  disk : v.host.disk = w.host.disk
  events : v.host.events = w.host.events
  rom : { v.rom with files := w.rom.files } = w.rom
  bytes : ∀ k, k ≠ name → v.rom.files[k]? = w.rom.files[k]?
  others : ∀ k, k ≠ name → v.file? k = w.file? k
  file : v.file? name = w.file? name ∨
    w.file? name = none ∧ ∃ f, w.fetch name = .ok f ∧ v.file? name = some f

/-- A file is in use as before, and the ROM has the same bytes of it. -/
structure Spares (w v : Workspace) (k : String) : Prop where
  file : v.file? k = w.file? k
  bytes : v.rom.files[k]? = w.rom.files[k]?

theorem Undone.refl (w : Workspace) (name : String) : w.Undone w name :=
  ⟨rfl, rfl, rfl, rfl, rfl, fun _ _ => rfl, fun _ _ => rfl, .inl rfl⟩

theorem Spares.refl (w : Workspace) (k : String) : w.Spares w k := ⟨rfl, rfl⟩

theorem Spares.trans (h : w.Spares v k) (h' : v.Spares u k) : w.Spares u k :=
  ⟨h'.file.trans h.file, h'.bytes.trans h.bytes⟩

theorem Undone.spares (h : w.Undone v name) (hk : k ≠ name) : w.Spares v k :=
  ⟨h.others k hk, h.bytes k hk⟩

theorem Outside.spares (h : w.Outside v) (k : String) : w.Spares v k :=
  ⟨h.file? k, by rw [h.bytes]⟩

theorem spares_put (w : Workspace) {f : ScriptFile} (hk : k ≠ f.name) : w.Spares (w.put f) k :=
  ⟨by rw [file?_put, if_neg hk], rfl⟩

/-- More may have happened to the bytes and the log. -/
theorem Undone.rewritten (h : w.Undone v name) (files : Std.ExtTreeMap String ByteArray)
    (log : List LogRecord) (hfiles : ∀ k, k ≠ name → files[k]? = v.rom.files[k]?) :
    w.Undone { v with rom := { v.rom with files }, host := { v.host with log } } name :=
  ⟨h.compiler, h.project, h.disk, h.events, h.rom, fun k hk => (hfiles k hk).trans (h.bytes k hk),
    h.others, h.file⟩

/-- Asking for a file changes nothing else. -/
theorem undone_get (w : Workspace) (name : String) :
    w.Undone (w.get name).2 name ∧ (w.get name).2.rom = w.rom := by
  unfold get
  split
  · exact ⟨.refl w name, rfl⟩
  · next hn =>
    split
    · exact ⟨.refl w name, rfl⟩
    · next f hf =>
      obtain ⟨program, hash, rfl⟩ := eq_of_fetch hf
      dsimp only [insertIfAbsent]
      split_ifs
      · exact ⟨.refl w name, rfl⟩
      · refine ⟨⟨rfl, rfl, rfl, rfl, rfl, fun _ _ => rfl, fun k hk => ?_, .inr ⟨hn, _, hf, ?_⟩⟩, rfl⟩
        · exact (file?_put w _ k).trans (if_neg hk)
        · exact (file?_put w _ name).trans (if_pos rfl)

/-! ### Bytes that stay -/

/-- The bytes of a program are not those of the ROM, to which they can be written, but the ROM cannot be
saved then. -/
def Strands (w : Workspace) (name : String) (p : Program) : Prop :=
  ∃ bytes, w.compiler.encode p = .ok bytes ∧ w.rom.writeFails = false ∧ w.rom.saveFails = true ∧
    w.rom.files[name]? ≠ some bytes

/-- A text of a script compiled. -/
def compileText (w : Workspace) (view : View) (name text : String) : Except CompileError Compilation :=
  match view with
  | .ssbs => w.compiler.compileSsbs text
  | .exps => w.compiler.compileExps w.host.disk (w.project.searchPath name) text

/-- The script is there and the text can be compiled, but the bytes are stranded in the ROM. -/
def StrandsSave (w : Workspace) (view : View) (name text : String) : Prop :=
  (w.seen? name).isSome ∧ ∃ c, w.compileText view name text = .ok c ∧ w.Strands name c.program

/-- The EXPS text of the project can be compiled, but the bytes are stranded in the ROM. -/
def StrandsRecompilation (w : Workspace) (name : String) : Prop :=
  ∃ text map, w.project.loadExps w.host.disk name = .ok (text, map) ∧ w.StrandsSave .exps name text

/-- A write that fails leaves everything as it was, unless only the ROM cannot be saved. -/
theorem writeProgram_error {p : Program} (h : w.writeProgram name p = (.error e, v)) :
    v = w ∧ ¬ w.Strands name p ∨ ∃ bytes, w.compiler.encode p = .ok bytes ∧
      w.rom.writeFails = false ∧ w.rom.saveFails = true ∧
      v = { w with rom := { w.rom with files := w.rom.files.insert name bytes } } := by
  unfold writeProgram at h
  split at h
  · next hencode =>
    refine .inl ⟨(Prod.mk.inj h).2.symm, ?_⟩
    rintro ⟨bytes, hbytes, -⟩
    rw [hencode] at hbytes
    cases hbytes
  · next bytes hencode =>
    cases hwrites : w.rom.writeFails with
    | true =>
      have hwrite : w.rom.write name bytes = .error "rom_write failed" := if_pos hwrites
      simp only [hwrite] at h
      refine .inl ⟨(Prod.mk.inj h).2.symm, ?_⟩
      rintro ⟨-, -, hwrites', -⟩
      rw [hwrites] at hwrites'
      cases hwrites'
    | false =>
      have hwrite : w.rom.write name bytes =
          .ok { w.rom with files := w.rom.files.insert name bytes } := if_neg (by simp [hwrites])
      simp only [hwrite] at h
      split at h
      · next hsave =>
        unfold Rom.save at hsave
        split_ifs at hsave with hfails
        exact .inr ⟨bytes, hencode, rfl, hfails, (Prod.mk.inj h).2.symm⟩
      · cases h

theorem getElem?_insert_of_ne (files : Std.ExtTreeMap String ByteArray) (bytes : ByteArray)
    (hk : k ≠ name) : (files.insert name bytes)[k]? = files[k]? := by
  rw [Std.ExtTreeMap.getElem?_insert, if_neg]
  exact fun heq => hk (Std.compare_eq_iff_eq.mp heq).symm

/-- Writing the bytes that a file has changes nothing. -/
theorem insert_bytes_eq_iff (files : Std.ExtTreeMap String ByteArray) (bytes : ByteArray) :
    files.insert name bytes = files ↔ files[name]? = some bytes := by
  constructor
  · intro hsame
    rw [← hsame, Std.ExtTreeMap.getElem?_insert_self]
  · intro hhad
    refine Std.ExtTreeMap.ext_getElem? fun k => ?_
    rw [Std.ExtTreeMap.getElem?_insert]
    split_ifs with hk
    · rw [← Std.compare_eq_iff_eq.mp hk, hhad]
    · rfl

theorem undone_writeProgram {p : Program} (h : w.Undone v name)
    (hwrite : v.writeProgram name p = (.error e, u)) :
    w.Undone u name ∧ (u.rom.files = v.rom.files ↔ ¬ v.Strands name p) := by
  obtain ⟨rfl, hnot⟩ | ⟨bytes, hencode, hwrites, hsave, rfl⟩ := writeProgram_error hwrite
  · exact ⟨h, iff_of_true rfl hnot⟩
  · refine ⟨h.rewritten _ v.host.log fun k hk => getElem?_insert_of_ne v.rom.files bytes hk,
      (insert_bytes_eq_iff v.rom.files bytes).trans ?_⟩
    constructor
    · rintro hhad ⟨bytes', hbytes', -, -, hnew⟩
      rw [hencode] at hbytes'
      cases hbytes'
      exact hnew hhad
    · intro hnot
      exact Classical.byContradiction fun hnew => hnot ⟨bytes, hencode, hwrites, hsave, hnew⟩

/-! ### Failed saves -/

/-- What a failed save leaves, given what it takes for its bytes to be stranded. -/
def Fails (w v : Workspace) (name : String) (strands : Prop) : Prop :=
  w.Undone v name ∧ (v.rom.files = w.rom.files ↔ ¬ strands)

theorem fails_of_absent (view : View) (text : String) (h : w.seen? name = none) :
    w.Fails w name (w.StrandsSave view name text) := by
  refine ⟨.refl w name, iff_of_true rfl ?_⟩
  rintro ⟨hsome, -⟩
  rw [h] at hsome
  cases hsome

/-- A save fails before it writes if the text cannot be compiled. -/
theorem fails_of_compile {view : View} {text : String} {reason : CompileError}
    (h : w.compileText view name text = .error reason) :
    w.Fails (w.get name).2 name (w.StrandsSave view name text) := by
  obtain ⟨hundone, hrom⟩ := undone_get w name
  refine ⟨hundone, iff_of_true (by rw [hrom]) ?_⟩
  rintro ⟨-, c, hc, -⟩
  rw [h] at hc
  cases hc

theorem fails_of_write {view : View} {text : String} {c : Compilation}
    (hseen : (w.seen? name).isSome) (hc : w.compileText view name text = .ok c)
    (hwrite : (w.get name).2.writeProgram name c.program = (.error e, u)) :
    w.Fails u name (w.StrandsSave view name text) := by
  obtain ⟨hundone, hrom⟩ := undone_get w name
  obtain ⟨hu, hfiles⟩ := undone_writeProgram hundone hwrite
  refine ⟨hu, ?_⟩
  have hstrands : w.StrandsSave view name text ↔ (w.get name).2.Strands name c.program := by
    rw [Strands, hrom, hundone.compiler]
    constructor
    · rintro ⟨-, c', hc', hstrands⟩
      rw [hc] at hc'
      cases hc'
      exact hstrands
    · exact fun hstrands => ⟨hseen, c, hc, hstrands⟩
  rw [hstrands, ← hfiles, hrom]

/-- The text is compiled as if the file had been in use before. -/
theorem compileText_get (w : Workspace) (view : View) (name text : String) :
    (w.get name).2.compileText view name text = w.compileText view name text := by
  obtain ⟨hundone, -⟩ := undone_get w name
  cases view with
  | ssbs => simp only [compileText, hundone.compiler]
  | exps => simp only [compileText, hundone.compiler, hundone.disk, hundone.project]

theorem get_error (h : w.get name = (.error e, v)) : v = w ∧ w.seen? name = none := by
  refine ⟨?_, by rw [seen?, h]; rfl⟩
  unfold get at h
  split at h
  · cases h
  · split at h
    · exact (Prod.mk.inj h).2.symm
    · cases h

theorem seen?_of_get {f : ScriptFile} (h : w.get name = (.ok f, v)) : (w.seen? name).isSome := by
  rw [seen?, h]
  rfl

/-- A save, given what happens once the ROM is saved. -/
def saveWith (w : Workspace) (view : View) (name text : String)
    (finish : ScriptFile → Compilation → String → Workspace → SaveOutcome × Workspace) :
    Except Error SaveOutcome × Workspace :=
  match w.get name with
  | (.error e, w) => (.error e, w)
  | (.ok f, w) =>
    match w.compileText view name text with
    | .error e => (.error (.compile e), w)
    | .ok c =>
      match w.writeProgram name c.program with
      | (.error e, w) => (.error e, w)
      | (.ok hash, w) => (.ok (finish f c hash w).1, (finish f c hash w).2)

theorem saveSsbs_eq (w : Workspace) (name text : String) :
    w.saveSsbs name text = w.saveWith .ssbs name text fun f c hash w =>
      (outcome f .ssbs c hash, w.put { f.recompiled .ssbs c.program c.sourceMap hash with
        ssbs := some { text, sourceMap := c.sourceMap }, exps := none }) := rfl

theorem saveExps_eq (w : Workspace) (name text : String) :
    w.saveExps name text = w.saveWith .exps name text fun f c hash w =>
      (outcome f .exps c hash, (w.tryWriteSidecars name text hash c).put
        { f.recompiled .exps c.program c.sourceMap hash with
          ssbs := none
          exps := some
            { text, sourceMap := c.sourceMap, path := w.project.expsPath name, hash } }) := rfl

theorem fails_saveWith {view : View} {text : String}
    {finish : ScriptFile → Compilation → String → Workspace → SaveOutcome × Workspace}
    (h : w.saveWith view name text finish = (.error e, u)) :
    w.Fails u name (w.StrandsSave view name text) := by
  have hcompile := compileText_get w view name text
  unfold saveWith at h
  split at h
  · next hget =>
    obtain ⟨rfl, habsent⟩ := get_error hget
    cases h
    exact fails_of_absent view text habsent
  · next f v hget =>
    have hv : (w.get name).2 = v := by rw [hget]
    rw [hv] at hcompile
    split at h
    · next hc =>
      cases h
      rw [← hv]
      exact fails_of_compile (hcompile.symm.trans hc)
    · next c hc =>
      split at h
      · next hwrite =>
        cases h
        exact fails_of_write (seen?_of_get hget) (hcompile.symm.trans hc) (by rw [hv]; exact hwrite)
      · cases h

theorem fails_saveSsbs {text : String} (h : w.saveSsbs name text = (.error e, u)) :
    w.Fails u name (w.StrandsSave .ssbs name text) :=
  fails_saveWith ((saveSsbs_eq w name text).symm.trans h)

theorem fails_saveExps {text : String} (h : w.saveExps name text = (.error e, u)) :
    w.Fails u name (w.StrandsSave .exps name text) :=
  fails_saveWith ((saveExps_eq w name text).symm.trans h)

/-! ### Scripts compiled anew -/

/-- A file that someone has asked for is in use. -/
theorem file?_of_get {f : ScriptFile} (h : w.get name = (.ok f, v)) : v.file? name = some f := by
  unfold get at h
  split at h
  · next hf =>
    cases h
    exact hf
  · next hn =>
    split at h
    · cases h
    · next g hfetch =>
      obtain ⟨program, hash, rfl⟩ := eq_of_fetch hfetch
      have habsent : w.files.contains name = false := by
        rw [Std.ExtTreeMap.contains_eq_isSome_getElem?, show w.files[name]? = none from hn]
        rfl
      cases h
      rw [insertIfAbsent, habsent, if_neg Bool.false_ne_true, file?_put, if_pos rfl]

/-- A save asks for the file itself. -/
theorem saveExps_of_get {f : ScriptFile} (h : w.get name = (.ok f, v)) (text : String) :
    v.saveExps name text = w.saveExps name text := by
  have hagain : v.get name = (.ok f, v) := by rw [get, file?_of_get h]
  unfold saveExps
  rw [hagain, h]

theorem strandsRecompilation_iff {text : String} {map : SourceMap}
    (h : w.project.loadExps w.host.disk name = .ok (text, map)) :
    w.StrandsRecompilation name ↔ w.StrandsSave .exps name text := by
  constructor
  · rintro ⟨text', map', hload, hstrands⟩
    rw [h] at hload
    cases hload
    exact hstrands
  · exact fun hstrands => ⟨text, map, h, hstrands⟩

/-- A failed compilation is the failed save of the text in the project, if there is one. -/
theorem fails_recompile {path : Path} (h : w.recompile path name = (.error e, u)) :
    w.Fails u name (w.StrandsRecompilation name) := by
  obtain ⟨hundone, hrom⟩ := undone_get w name
  have hnothing : ¬ w.StrandsRecompilation name → w.Fails (w.get name).2 name
      (w.StrandsRecompilation name) := fun hnot => ⟨hundone, iff_of_true (by rw [hrom]) hnot⟩
  unfold recompile hash ask at h
  cases hget : w.get name with
  | mk answer v =>
    rw [hget] at hundone hnothing
    simp only [hget] at h
    cases answer with
    | error reason =>
      cases h
      refine hnothing ?_
      rintro ⟨text, -, -, hsome, -⟩
      rw [(get_error hget).2] at hsome
      cases hsome
    | ok f =>
      have hsource : v.project.loadExps v.host.disk name = w.project.loadExps w.host.disk name := by
        rw [hundone.project, hundone.disk]
      dsimp only at h
      split_ifs at h with hcompiled
      · split at h
        · next hload =>
          cases h
          refine hnothing ?_
          rintro ⟨text, map, hloaded, -⟩
          rw [← hsource, hload] at hloaded
          cases hloaded
        · next text map hload =>
          rw [saveExps_of_get hget] at h
          split at h
          · next hsave =>
            cases h
            rw [strandsRecompilation_iff (hsource.symm.trans hload)]
            exact fails_saveExps hsave
          · cases h
      · cases h

theorem recompile_ne_failed {path : Path} {file reason : String} :
    w.recompile path name ≠ (.ok (.failed file reason), u) := by
  intro h
  unfold recompile at h
  split at h
  · cases h
  · split_ifs at h
    · split at h
      · cases h
      · split at h <;> cases h
    · cases h

/-- A script that could not be compiled anew is reported under its name. -/
theorem fails_tryRecompile {path : Path} {file reason : String}
    (h : w.tryRecompile path name = (.failed file reason, u)) :
    file = name ∧ w.Fails u name (w.StrandsRecompilation name) := by
  unfold tryRecompile at h
  split at h
  · next hrecompile =>
    cases h
    exact absurd hrecompile recompile_ne_failed
  · next hrecompile =>
    cases h
    obtain ⟨hundone, hfiles⟩ := fails_recompile hrecompile
    exact ⟨rfl, hundone.rewritten _ _ fun _ _ => rfl, hfiles⟩

/-! ### Other scripts -/

theorem spares_writeProgram (w : Workspace) (p : Program) (hk : k ≠ name) :
    w.Spares (w.writeProgram name p).2 k := by
  unfold writeProgram Rom.write Rom.save
  split
  · exact .refl w k
  · next bytes _ =>
    split
    · exact .refl w k
    · next rom hwrite =>
      split_ifs at hwrite
      cases hwrite
      split
      · exact ⟨rfl, getElem?_insert_of_ne w.rom.files bytes hk⟩
      · next hsave =>
        split_ifs at hsave
        cases hsave
        exact ⟨rfl, getElem?_insert_of_ne w.rom.files bytes hk⟩

theorem spares_saveExps (hw : w.Named) (hk : k ≠ name) (text : String) :
    w.Spares (w.saveExps name text).2 k := by
  have hasked := (undone_get w name).1.spares hk
  unfold saveExps
  split
  · next hget =>
    rw [hget] at hasked
    exact hasked
  · next f v hget =>
    rw [hget] at hasked
    have hname : f.name = name := name_of_seen? hw (by rw [seen?, hget]; rfl)
    split
    · exact hasked
    · next c _ =>
      have hwritten := hasked.trans (spares_writeProgram v c.program hk)
      split
      · next hwrite =>
        rw [hwrite] at hwritten
        exact hwritten
      · next hash u hwrite =>
        rw [hwrite] at hwritten
        refine hwritten.trans (((beside_tryWriteSidecars u name text hash c).outside.spares k).trans ?_)
        exact spares_put _ (by simpa [hname] using hk)

/-- The files are kept under their own names, and all but one are as they were. -/
structure Limited (w v : Workspace) (name : String) : Prop where
  named : v.Named
  spares : ∀ k, k ≠ name → w.Spares v k

theorem Beside.limited (h : w.Beside v) (hw : w.Named) : w.Limited v name :=
  ⟨(h.alike hw).named, fun k _ => h.outside.spares k⟩

theorem limited_saveExps (hw : w.Named) (name text : String) :
    w.Limited (w.saveExps name text).2 name := by
  refine ⟨?_, fun k hk => spares_saveExps hw hk text⟩
  have hsaves := saves_saveExps hw name text
  cases hanswer : (w.saveExps name text).1 with
  | error e =>
    rw [hanswer] at hsaves
    exact hsaves.named
  | ok o =>
    rw [hanswer] at hsaves
    obtain ⟨f, c, program, ssbs, exps, -, -, -, -, -, hupdates⟩ := hsaves
    exact hupdates.named

theorem limited_hash (hw : w.Named) (name : String) : w.Limited (w.hash name).2 name := by
  rw [hash, ask_snd]
  exact ⟨(alike_get hw name).named, fun k hk => (undone_get w name).1.spares hk⟩

theorem Limited.trans (h : w.Limited v name) (h' : v.Limited u name) : w.Limited u name :=
  ⟨h'.named, fun k hk => (h.spares k hk).trans (h'.spares k hk)⟩

theorem limited_recompile (hw : w.Named) (path : Path) (name : String) :
    w.Limited (w.recompile path name).2 name := by
  have hasked := limited_hash hw name
  unfold recompile
  split
  · next heq =>
    rw [heq] at hasked
    exact hasked
  · next hash v heq =>
    rw [heq] at hasked
    split_ifs
    · split
      · exact hasked
      · next text _ _ =>
        have hsaved := hasked.trans (limited_saveExps hasked.named name text)
        split <;>
        · next hsave =>
          rw [hsave] at hsaved
          exact hsaved
    · exact hasked.trans ((beside_warn v _).limited hasked.named)

/-- A script compiled anew leaves the other scripts alone. -/
theorem limited_tryRecompile (hw : w.Named) (path : Path) (name : String) :
    w.Limited (w.tryRecompile path name).2 name := by
  have hdone := limited_recompile hw path name
  unfold tryRecompile
  split
  · next heq =>
    rw [heq] at hdone
    exact hdone
  · next v heq =>
    rw [heq] at hdone
    exact hdone.trans ((beside_host v _).limited hdone.named)

theorem spares_recompileAll (path : Path) {names : List String} (hk : k ∉ names) (hw : w.Named) :
    (recompileAll path names w).2.Named ∧ w.Spares (recompileAll path names w).2 k := by
  induction names generalizing w with
  | nil => exact ⟨hw, .refl w k⟩
  | cons name rest ih =>
    have hfirst := limited_tryRecompile hw path name
    obtain ⟨hnamed, hspares⟩ := ih (List.not_mem_of_not_mem_cons hk) hfirst.named
    exact ⟨hnamed, (hfirst.spares k (List.ne_of_not_mem_cons hk)).trans hspares⟩

theorem file_of_recompiled {path : Path} {o : SaveOutcome} (hw : w.Named)
    (h : (w.tryRecompile path name).1 = .recompiled o) : o.file = name := by
  have hasked := (limited_hash hw name).named
  unfold tryRecompile recompile at h
  split at h
  · next hrecompile =>
    split at hrecompile
    · cases hrecompile
    · next v heq =>
      rw [heq] at hasked
      split_ifs at hrecompile
      · split at hrecompile
        · cases hrecompile
        · next text _ _ =>
          have hsaves := saves_saveExps hasked name text
          split at hrecompile
          · cases hrecompile
          · next hsave =>
            cases hrecompile
            cases h
            rw [hsave] at hsaves
            obtain ⟨f, c, program, ssbs, exps, -, -, hfile, -⟩ := hsaves
            exact hfile
      · cases hrecompile
        cases h
  · cases h

/-- Whatever was compiled anew was to be compiled anew. -/
theorem mem_of_recompiled {path : Path} {names : List String} {o : SaveOutcome} (hw : w.Named)
    (h : .recompiled o ∈ (recompileAll path names w).1) : o.file ∈ names := by
  induction names generalizing w with
  | nil => exact absurd h List.not_mem_nil
  | cons name rest ih =>
    obtain hfirst | hlater := List.mem_cons.mp h
    · rw [file_of_recompiled hw hfirst.symm]
      exact List.mem_cons_self
    · exact List.mem_cons_of_mem name (ih (limited_tryRecompile hw path name).named hlater)

/-- A script that could not be compiled anew had its turn, and no other turn concerned it. -/
theorem failed_of_recompileAll {path : Path} {names : List String} {file reason : String}
    (hw : w.Named) (hnodup : names.Nodup) (h : .failed file reason ∈ (recompileAll path names w).1) :
    ∃ before after, names = before ++ file :: after ∧ ∃ v u, v = (recompileAll path before w).2 ∧
      v.tryRecompile path file = (.failed file reason, u) ∧ w.Spares v file ∧
      u.Spares (recompileAll path names w).2 file ∧
      ∀ o, .recompiled o ∈ (recompileAll path names w).1 → o.file ≠ file := by
  induction names generalizing w with
  | nil => exact absurd h List.not_mem_nil
  | cons name rest ih =>
    obtain ⟨hname, hrest⟩ := List.nodup_cons.mp hnodup
    have hfirst := limited_tryRecompile hw path name
    obtain hnow | hlater := List.mem_cons.mp h
    · have hturn : w.tryRecompile path name = (.failed file reason, (w.tryRecompile path name).2) :=
        Prod.ext hnow.symm rfl
      obtain ⟨rfl, -⟩ := fails_tryRecompile hturn
      refine ⟨[], rest, rfl, w, _, rfl, hturn, .refl w file,
        (spares_recompileAll path hname hfirst.named).2, fun o ho => ?_⟩
      obtain ho | ho := List.mem_cons.mp ho
      · cases ho.trans hnow.symm
      · exact fun heq => hname (heq ▸ mem_of_recompiled hfirst.named ho)
    · obtain ⟨before, after, rfl, v, u, hv, hturn, hbefore, hafter, hnone⟩ :=
        ih hfirst.named hrest hlater
      have hne : file ≠ name := fun heq =>
        hname (heq ▸ List.mem_append_right before List.mem_cons_self)
      refine ⟨name :: before, after, rfl, v, u, hv, hturn, (hfirst.spares file hne).trans hbefore,
        hafter, fun o ho => ?_⟩
      obtain ho | ho := List.mem_cons.mp ho
      · rw [file_of_recompiled hw ho.symm]
        exact hne.symm
      · exact hnone o ho

end SceneDebugger.Workspace
