import SceneDebugger.Proofs.Session.SaveStates

/-!
# SceneDebugger.Proofs.Session.Hooking — the hooks that a session has

Switching debugging on registers the hooks on opcodes, and each feature as a whole or not at all.  What
else is done leaves the hooks alone, until debugging is switched off, which drops them all.

* `Machine.refusal?`: why several hooks cannot be registered together.
* `Machine.hookAll_eq`: several hooks are registered together, or none of them.
* `Session.Hooked`: the hooks that a machine has are those of others, and those that the session holds.
* `Session.ArisesOver.hooked`: so it stays, whatever is done.
* `Session.hooked_switching`: what switching debugging on and off registers and reports.
-/

namespace SceneDebugger

/-! ### Several hooks -/

namespace Machine

variable {m : Machine} {requests : List HookRequest} {e : Error}

/-- Why several hooks cannot be registered together: the first address that is refused. -/
def refusal? (m : Machine) (requests : List HookRequest) : Option Error :=
  (requests.find? fun r => m.refused.contains r.trigger.address).map fun r =>
    .hookRegistration r.trigger.address
      ("address " ++ Text.address r.trigger.address ++ " is not mapped")

theorem refusal?_eq_none_iff :
    m.refusal? requests = none ↔ ∀ r ∈ requests, m.refused.contains r.trigger.address = false := by
  simp only [refusal?, Option.map_eq_none_iff, List.find?_eq_none, Bool.not_eq_true]

/-- Hooks with ids from a number on. -/
def numbered : Nat → List HookRequest → List Hook
  | _, [] => []
  | id, request :: rest => { request with id } :: numbered (id + 1) rest

theorem map_numbered (id : Nat) (requests : List HookRequest) :
    (numbered id requests).map Hook.toHookRequest = requests := by
  induction requests generalizing id with
  | nil => rfl
  | cons request rest ih => rw [numbered, List.map_cons, ih]

theorem mem_numbered {id : Nat} {hook : Hook} (h : hook ∈ numbered id requests) :
    id ≤ hook.id ∧ hook.id < id + requests.length := by
  induction requests generalizing id with
  | nil => cases h
  | cons request rest ih =>
    rw [List.length_cons]
    rcases List.mem_cons.mp h with rfl | hrest
    · exact ⟨Nat.le_refl id, by simp⟩
    · obtain ⟨hle, hlt⟩ := ih hrest
      exact ⟨by omega, by omega⟩

/-- The ids of the hooks have been given out. -/
def Numbered (m : Machine) : Prop := ∀ hook ∈ m.hooks, hook.id < m.nextHook

/-- The machine with hooks that were not refused. -/
def withHooks (m : Machine) (requests : List HookRequest) : Machine :=
  { m with
    hooks := m.hooks ++ numbered m.nextHook requests
    nextHook := m.nextHook + requests.length }

theorem withHooks_nil (m : Machine) : m.withHooks [] = m := by
  simp [withHooks, numbered]

theorem withHooks_cons (m : Machine) (request : HookRequest) (rest : List HookRequest) :
    m.withHooks (request :: rest) = (m.withHooks [request]).withHooks rest := by
  simp [withHooks, numbered, Nat.add_comm, Nat.add_left_comm]

theorem numbered_withHooks (h : m.Numbered) (requests : List HookRequest) :
    (m.withHooks requests).Numbered := by
  intro hook hmem
  rcases List.mem_append.mp hmem with hmem | hmem
  · exact Nat.lt_of_lt_of_le (h hook hmem) (Nat.le_add_right _ _)
  · exact (mem_numbered hmem).2

theorem hook_eq (m : Machine) (request : HookRequest) : m.hook request =
    if m.refused.contains request.trigger.address then
      .error ("address " ++ Text.address request.trigger.address ++ " is not mapped")
    else .ok (m.nextHook, m.withHooks [request]) := rfl

/-- Hooks that are not refused are all registered. -/
theorem hookAll_of_accepted (h : m.refusal? requests = none) (done : List Nat) :
    m.hookAll requests done =
      (.ok (done ++ (numbered m.nextHook requests).map (·.id)), m.withHooks requests) := by
  induction requests generalizing m done with
  | nil => rw [hookAll, numbered, List.map_nil, List.append_nil, withHooks_nil]
  | cons request rest ih =>
    have haccepted := refusal?_eq_none_iff.mp h
    have hrest : (m.withHooks [request]).refusal? rest = none :=
      refusal?_eq_none_iff.mpr fun r hr => haccepted r (List.mem_cons_of_mem request hr)
    rw [hookAll, hook_eq, haccepted request List.mem_cons_self, if_neg Bool.false_ne_true]
    dsimp only
    rw [ih hrest, withHooks_cons m request rest, numbered, List.map_cons, List.append_assoc]
    rfl

/-- If a hook is refused, those that were registered before it are dropped again. -/
theorem hookAll_of_refused (hm : m.Numbered) (h : m.refusal? requests = some e) (done : List Nat) :
    ∃ next, m.nextHook ≤ next ∧ m.hookAll requests done =
      (.error e, { m with hooks := m.hooks.filter fun hook => !done.contains hook.id, nextHook := next }) := by
  induction requests generalizing m done with
  | nil => cases h
  | cons request rest ih =>
    rw [hookAll, hook_eq]
    cases hrefused : m.refused.contains request.trigger.address with
    | true =>
      rw [refusal?, List.find?_cons_of_pos (by exact hrefused)] at h
      cases h
      exact ⟨m.nextHook, Nat.le_refl _, rfl⟩
    | false =>
      rw [refusal?, List.find?_cons_of_neg (by simp [hrefused])] at h
      rw [if_neg Bool.false_ne_true]
      obtain ⟨next, hnext, heq⟩ := ih (numbered_withHooks hm [request]) h (done ++ [m.nextHook])
      refine ⟨next, Nat.le_of_succ_le hnext, ?_⟩
      -- the hook that was just registered is the only one with its id
      have hfilter : (m.withHooks [request]).hooks.filter
          (fun hook => !(done ++ [m.nextHook]).contains hook.id) =
          m.hooks.filter fun hook => !done.contains hook.id := by
        have hold : ∀ hook ∈ m.hooks, hook.id ≠ m.nextHook := fun hook hmem => Nat.ne_of_lt (hm hook hmem)
        rw [withHooks, List.filter_append]
        simp only [numbered, List.contains_append]
        rw [List.filter_cons_of_neg (by simp), List.filter_nil, List.append_nil]
        refine List.filter_congr fun hook hmem => ?_
        simp [hold hook hmem]
      dsimp only
      rw [heq, hfilter]
      rfl

/-- Several hooks are registered together, or none of them. -/
theorem hookAll_eq (hm : m.Numbered) (requests : List HookRequest) :
    (m.refusal? requests = none ∧
      m.hookAll requests [] = (.ok ((numbered m.nextHook requests).map (·.id)), m.withHooks requests)) ∨
    ∃ e next, m.refusal? requests = some e ∧ m.nextHook ≤ next ∧
      m.hookAll requests [] = (.error e, { m with nextHook := next }) := by
  cases h : m.refusal? requests with
  | none => exact .inl ⟨rfl, hookAll_of_accepted h []⟩
  | some e =>
    obtain ⟨next, hnext, heq⟩ := hookAll_of_refused hm h []
    have hkept : m.hooks.filter (fun hook => !([] : List Nat).contains hook.id) = m.hooks :=
      List.filter_eq_self.mpr fun _ _ => rfl
    rw [hkept] at heq
    exact .inr ⟨e, next, rfl, hnext, heq⟩

/-- The hooks of those features that can be registered as a whole. -/
def granted (m : Machine) (features : List (String × List HookRequest)) : List HookRequest :=
  features.flatMap fun (_, requests) => if (m.refusal? requests).isNone then requests else []

/-- The reports of those features that are left out. -/
def denials (m : Machine) (features : List (String × List HookRequest)) : List Event :=
  features.filterMap fun (name, requests) =>
    (m.refusal? requests).map fun e => .warning (name ++ " unavailable: " ++ e.message)

theorem granted_append (m : Machine) (features more : List (String × List HookRequest)) :
    m.granted (features ++ more) = m.granted features ++ m.granted more := List.flatMap_append

theorem denials_append (m : Machine) (features more : List (String × List HookRequest)) :
    m.denials (features ++ more) = m.denials features ++ m.denials more := List.filterMap_append

theorem refusal?_congr {m' : Machine} (h : m'.refused = m.refused) : m'.refusal? = m.refusal? := by
  funext requests
  rw [refusal?, h, refusal?]

theorem granted_of_accepted (h : m.refusal? requests = none) (name : String) :
    m.granted [(name, requests)] = requests ∧ m.denials [(name, requests)] = [] := by
  simp [granted, denials, h]

theorem granted_of_refused (h : m.refusal? requests = some e) (name : String) :
    m.granted [(name, requests)] = [] ∧
      m.denials [(name, requests)] = [.warning (name ++ " unavailable: " ++ e.message)] := by
  simp [granted, denials, h]

end Machine

/-! ### The hooks of a session -/

namespace Session

variable {s t u : Session} {machine : Machine} {others : List Hook} {requests more : List HookRequest}
  {slots : UInt32 → Prop} {macros : Path → Prop} {features : List (String × List HookRequest)}

/-- The machine has the hooks of others and, after them, one for each of some requests.  The session
holds these, and only these. -/
def Hooked (others : List Hook) (requests : List HookRequest) (s : Session) : Prop :=
  ∃ own : List Hook, s.machine.hooks = others ++ own ∧ own.map Hook.toHookRequest = requests ∧
    s.hooks = own.map (·.id) ∧ (∀ hook ∈ others, hook.id ∉ s.hooks) ∧ s.machine.Numbered

theorem Hooked.of_hooking (h : s.Hooked others requests) (hsame : t.hooking = s.hooking) :
    t.Hooked others requests := by
  obtain ⟨hhooks, hmachine⟩ := Prod.mk.inj hsame
  obtain ⟨hregistered, hnext⟩ := Prod.mk.inj hmachine
  unfold Hooked Machine.Numbered at h ⊢
  rw [hhooks, hregistered, hnext]
  exact h

/-- A session that holds no hooks has registered none. -/
theorem Hooked.eq_nil (h : s.Hooked others requests) (hs : s.isDebugging = false) : requests = [] := by
  obtain ⟨own, -, hrequests, hids, -⟩ := h
  have hnone : own.map (·.id) = [] := by
    rw [← hids]
    simpa [isDebugging] using hs
  rw [← hrequests, List.map_eq_nil_iff.mp hnone, List.map_nil]

/-- Further hooks that are registered are held. -/
theorem Hooked.withHooks (h : s.Hooked others requests) (more : List HookRequest)
    (hmachine : t.machine = s.machine.withHooks more)
    (hhooks : t.hooks = s.hooks ++ (Machine.numbered s.machine.nextHook more).map (·.id)) :
    t.Hooked others (requests ++ more) := by
  obtain ⟨own, hregistered, hrequests, hids, hapart, hnumbered⟩ := h
  refine ⟨own ++ Machine.numbered s.machine.nextHook more, ?_, ?_, ?_, ?_, ?_⟩
  · rw [hmachine, Machine.withHooks, hregistered, List.append_assoc]
  · rw [List.map_append, hrequests, Machine.map_numbered]
  · rw [hhooks, hids, List.map_append]
  · intro hook hmem hheld
    rw [hhooks] at hheld
    rcases List.mem_append.mp hheld with hheld | hheld
    · exact hapart hook hmem hheld
    · obtain ⟨new, hnew, heq⟩ := List.mem_map.mp hheld
      have hold := hnumbered hook (hregistered ▸ List.mem_append_left own hmem)
      exact absurd (Machine.mem_numbered hnew).1 (by omega)
  · rw [hmachine]
    exact Machine.numbered_withHooks hnumbered more

/-- Ids were used up by hooks that were dropped again. -/
theorem Hooked.withNext (h : s.Hooked others requests) {next : Nat} (hnext : s.machine.nextHook ≤ next)
    (hmachine : t.machine = { s.machine with nextHook := next }) (hhooks : t.hooks = s.hooks) :
    t.Hooked others requests := by
  obtain ⟨own, hregistered, hrequests, hids, hapart, hnumbered⟩ := h
  refine ⟨own, by rw [hmachine, hregistered], hrequests, hhooks.trans hids, hhooks ▸ hapart, ?_⟩
  rw [hmachine]
  exact fun hook hmem => Nat.lt_of_lt_of_le (hnumbered hook hmem) hnext

/-! ### Switching debugging on -/

/-- A feature is registered as a whole, or reported. -/
theorem hooked_addFeature (h : s.Hooked others requests) (name : String) (more : List HookRequest) :
    (s.addFeature name more).Hooked others (requests ++ s.machine.granted [(name, more)]) ∧
      (s.addFeature name more).machine.refused = s.machine.refused ∧
      (s.addFeature name more).workspace.host.events =
        s.workspace.host.events ++ s.machine.denials [(name, more)] := by
  obtain ⟨-, -, -, -, -, hnumbered⟩ := id h
  unfold addFeature
  rcases Machine.hookAll_eq hnumbered more with ⟨hnone, heq⟩ | ⟨e, next, hsome, hnext, heq⟩
  · obtain ⟨hgranted, hdenials⟩ := Machine.granted_of_accepted hnone name
    rw [heq, hgranted, hdenials, List.append_nil]
    exact ⟨h.withHooks more rfl rfl, rfl, rfl⟩
  · obtain ⟨hgranted, hdenials⟩ := Machine.granted_of_refused hsome name
    rw [heq, hgranted, hdenials, List.append_nil]
    exact ⟨h.withNext hnext rfl rfl, rfl, rfl⟩

/-- Several features are added, one after the other. -/
theorem hooked_addFeatures (h : s.Hooked others requests)
    (features : List (String × List HookRequest)) :
    (features.foldl (fun s (name, more) => s.addFeature name more) s).Hooked others
        (requests ++ s.machine.granted features) ∧
      (features.foldl (fun s (name, more) => s.addFeature name more) s).workspace.host.events =
        s.workspace.host.events ++ s.machine.denials features := by
  induction features generalizing s requests with
  | nil =>
    rw [show s.machine.granted [] = [] from rfl, show s.machine.denials [] = [] from rfl,
      List.append_nil, List.append_nil]
    exact ⟨h, rfl⟩
  | cons feature rest ih =>
    obtain ⟨name, more⟩ := feature
    obtain ⟨hfirst, hrefused, hevents⟩ := hooked_addFeature h name more
    have hsame := Machine.refusal?_congr hrefused
    obtain ⟨hrest, htold⟩ := ih hfirst
    rw [hevents] at htold
    unfold Machine.granted at hrest
    unfold Machine.denials at htold
    rw [hsame, List.append_assoc] at hrest htold
    rw [← List.singleton_append, Machine.granted_append, Machine.denials_append]
    exact ⟨hrest, htold⟩

theorem exists_refreshSharedTable (s : Session) :
    ∃ table, s.refreshSharedTable = { s with sharedTable := table } := by
  unfold refreshSharedTable
  split
  · exact ⟨_, rfl⟩
  · exact ⟨s.sharedTable, rfl⟩

/-- The hooks on opcodes are registered, or nothing is. -/
theorem hooked_enable (h : s.Hooked others []) (hs : s.isDebugging = false) :
    (∃ e t, s.machine.refusal? s.layout.addresses.opcodeHooks = some e ∧
      s.enable = (.error e, t) ∧ t.Hooked others []) ∨
    ∃ t, s.machine.refusal? s.layout.addresses.opcodeHooks = none ∧ s.enable = (.ok (), t) ∧
      t.Hooked others
        (s.layout.addresses.opcodeHooks ++ s.machine.granted s.layout.addresses.features) ∧
      t.workspace.host.events =
        s.workspace.host.events ++ s.machine.denials s.layout.addresses.features := by
  obtain ⟨-, -, -, -, -, hnumbered⟩ := id h
  have hnone : s.hooks = [] := by simpa [isDebugging] using hs
  unfold enable
  rw [hs, if_neg Bool.false_ne_true]
  dsimp only
  rcases Machine.hookAll_eq hnumbered s.layout.addresses.opcodeHooks with
    ⟨haccepted, heq⟩ | ⟨e, next, hrefused, hnext, heq⟩
  · rw [heq]
    dsimp only
    generalize hbegun : (if s.layout.addresses.sharedPointer = 0 then _ else _ : Session) = begun
    -- the shared script is looked up in between, which changes nothing else
    obtain ⟨table, hlooked⟩ : ∃ table, begun = { s with
        machine := s.machine.withHooks s.layout.addresses.opcodeHooks
        hooks := (Machine.numbered s.machine.nextHook s.layout.addresses.opcodeHooks).map (·.id)
        switches := s.switches.forgetQuestions
        sharedTable := table } := by
      rw [← hbegun]
      split
      · exact ⟨s.sharedTable, rfl⟩
      · exact exists_refreshSharedTable _
    have hfirst : begun.Hooked others ([] ++ s.layout.addresses.opcodeHooks) :=
      h.withHooks _ (by rw [hlooked]) (by rw [hlooked, hnone, List.nil_append])
    obtain ⟨hall, htold⟩ := hooked_addFeatures hfirst s.layout.addresses.features
    have hsame : begun.machine.refusal? = s.machine.refusal? :=
      Machine.refusal?_congr (by rw [hlooked]; rfl)
    unfold Machine.granted at hall
    unfold Machine.denials at htold
    rw [hsame] at hall htold
    rw [show begun.workspace = s.workspace by rw [hlooked]] at htold
    exact .inr ⟨_, haccepted, rfl, hall, htold⟩
  · rw [heq]
    exact .inl ⟨e, _, hrefused, rfl, h.withNext hnext rfl rfl⟩

theorem enable_of_isDebugging (hs : s.isDebugging = true) : s.enable = (.ok (), s) := by
  rw [enable, if_pos hs]

/-! ### Switching debugging off -/

theorem hooked_dropHooks (h : s.Hooked others requests) : s.dropHooks.Hooked others [] := by
  obtain ⟨own, hregistered, -, hids, hapart, hnumbered⟩ := h
  have hkept : s.dropHooks.machine.hooks = others := by
    have hothers : others.filter (fun hook => !s.hooks.contains hook.id) = others :=
      List.filter_eq_self.mpr fun hook hmem => by simpa using hapart hook hmem
    have hown : own.filter (fun hook => !s.hooks.contains hook.id) = [] :=
      List.filter_eq_nil_iff.mpr fun hook hmem => by
        simpa [hids] using ⟨hook, hmem, rfl⟩
    show s.machine.hooks.filter _ = others
    rw [hregistered, List.filter_append, hothers, hown, List.append_nil]
  refine ⟨[], by rw [hkept, List.append_nil], rfl, rfl, fun _ _ => List.not_mem_nil, fun hook hmem => ?_⟩
  rw [hkept] at hmem
  exact hnumbered hook (hregistered ▸ List.mem_append_left own hmem)

theorem hooked_disable (h : s.Hooked others requests) : s.disable.2.Hooked others [] := by
  have hfailed : Acts (fun _ => False) (fun _ => False) s s.failHalt := acts_failHalt s
  have hgone : Acts (fun _ => False) (fun _ => False) s.failHalt.dropHooks s.disable.2 := acts_goOn _
  exact (hooked_dropHooks (h.of_hooking hfailed.hooking)).of_hooking hgone.hooking

/-! ### Whatever is done -/

theorem hooked_closeEditor {file : String} {confirm : Session → Bool × Session}
    (h : s.Hooked others requests) (hconfirm : (confirm s).2.Hooked others more) :
    ∃ all, (s.closeEditor file confirm).2.Hooked others all := by
  unfold closeEditor
  dsimp only
  split
  · split
    · next heq =>
      rw [heq] at hconfirm
      exact ⟨more, hconfirm.of_hooking rfl⟩
    · next heq =>
      rw [heq] at hconfirm
      exact ⟨more, hconfirm⟩
  · exact ⟨requests, h.of_hooking rfl⟩

/-- The hooks that a machine has are those of others, and those that the session holds. -/
theorem Operates.hooked (hrun : Operates slots macros s t) (hs : s.Housed)
    (h : ∃ requests, s.Hooked others requests) : ∃ requests, t.Hooked others requests := by
  induction hrun with
  | refl s => exact h
  | trans hfirst _ ih ih' => exact ih' (hfirst.housed hs) (ih hs h)
  | operation hoperation => exact h.imp fun _ hhooked => hhooked.of_hooking (hoperation.acts hs).hooking
  | enable s =>
    obtain ⟨requests, hhooked⟩ := h
    cases hdebugging : s.isDebugging with
    | true => exact ⟨requests, by rwa [enable_of_isDebugging hdebugging]⟩
    | false =>
      obtain rfl := hhooked.eq_nil hdebugging
      rcases hooked_enable hhooked hdebugging with ⟨e, t, -, heq, ht⟩ | ⟨t, -, heq, ht, -⟩ <;> rw [heq]
      · exact ⟨[], ht⟩
      · exact ⟨_, ht⟩
  | disable s =>
    obtain ⟨requests, hhooked⟩ := h
    exact ⟨[], hooked_disable hhooked⟩
  | closeEditor s file confirm _ ih =>
    obtain ⟨requests, hhooked⟩ := h
    obtain ⟨more, hconfirm⟩ := ih s hs ⟨requests, hhooked⟩
    exact hooked_closeEditor hhooked hconfirm

theorem hooked_start (settings : Settings) (layout : EngineLayout) {machine : Machine}
    (compiler : Compiler) (rom : Rom) (host : Host) (root : Path) (romName : String)
    (hmachine : machine.Numbered) :
    (start settings layout machine compiler rom host root romName).Hooked machine.hooks [] := by
  have hover : (start settings layout machine compiler rom host root romName).machine = machine := by
    unfold start
    rfl
  have hnone : (start settings layout machine compiler rom host root romName).hooks = [] := by
    unfold start
    rfl
  unfold Hooked
  rw [hover, hnone]
  exact ⟨[], (List.append_nil _).symm, rfl, rfl, fun _ _ => List.not_mem_nil, hmachine⟩

theorem ArisesOver.hooked (hs : s.ArisesOver machine) (hmachine : machine.Numbered) :
    ∃ requests, s.Hooked machine.hooks requests := by
  obtain ⟨settings, layout, compiler, rom, host, root, romName, hrun⟩ := hs
  exact hrun.hooked (housed_start settings layout machine compiler rom host root romName)
    ⟨[], hooked_start settings layout compiler rom host root romName hmachine⟩

/-- A new session over a machine that refuses to hook a printing function. -/
def silent : Session :=
  start {}
    { addresses := { opcode := [0x100], scriptLoad := [0x200], printFirst := [0x304, 0x300], debugMode := [0x400] } }
    { refused := (∅ : Std.ExtTreeSet UInt32).insert 0x300 } (LineLanguage.compiler {}) {} {} ⟨"proj"⟩ "eos_us"

/-- What can be hooked there: the output is left out as a whole. -/
def silentHooks : List HookRequest :=
  [⟨.execution 0x100, .opcode⟩, ⟨.execution 0x200, .scriptLoad⟩, ⟨.execution 0x400, .debugMode⟩]

end Session

end SceneDebugger
