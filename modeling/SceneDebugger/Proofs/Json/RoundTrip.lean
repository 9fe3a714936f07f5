import Mathlib.Tactic.SplitIfs
import SceneDebugger.Json.Reader

/-!
# SceneDebugger.Proofs.Json.RoundTrip — written documents are read back

`Json.parse?` inverts `Json.pretty` and `Json.compact` on plain documents (`Json.parse?_pretty`,
`Json.parse?_compact`): those without numbers that have a fraction or an exponent, without halves of
surrogate pairs, and with field names that are written as they are.  The two written forms differ in
blanks only, so both are layouts of one form (`Json.Layout.chars`).

A part of a document is read back whatever follows it, as long as that makes no number longer
(`Json.EndsNumber`).  The fuel of a reader is compared with the length of what it reads, and the
three readers are treated together, by recursion on the fuel as they are defined
(`Json.readValue?_chars`).
-/

namespace SceneDebugger

namespace Json

/-! ### Numbers -/

/-- No number goes on with the text. -/
def EndsNumber (tail : List Char) : Prop :=
  ∀ c ∈ tail.head?, c.isDigit = false ∧ c ≠ '.' ∧ c ≠ 'e' ∧ c ≠ 'E'

theorem ne_of_isDigit {c d : Char} (hc : c.isDigit = true) (hd : d.isDigit = false) : c ≠ d := by
  rintro rfl
  exact absurd hc (by rw [hd]; decide)

theorem digitsValue_toDigits (n : Nat) : digitsValue (Nat.toDigits 10 n) = n :=
  Nat.ofDigitChars_ten_toDigits

theorem toDigits_eq_cons (n : Nat) :
    ∃ d rest, Nat.toDigits 10 n = d :: rest ∧ d.isDigit = true := by
  obtain ⟨d, rest, hdigits⟩ := List.exists_cons_of_ne_nil (Nat.toDigits_ne_nil (b := 10) (n := n))
  have hmem : d ∈ Nat.toDigits 10 n := by
    rw [hdigits]
    exact List.mem_cons_self
  exact ⟨d, rest, hdigits, Nat.isDigit_of_mem_toDigits (by decide) (by decide) hmem⟩

theorem readDigits?_append {ds tail : List Char} (hne : ds ≠ []) (hds : ∀ d ∈ ds, d.isDigit = true)
    (htail : EndsNumber tail) : readDigits? (ds ++ tail) = some (ds, tail) := by
  have htake : tail.takeWhile Char.isDigit = [] ∧ tail.dropWhile Char.isDigit = tail := by
    cases tail with
    | nil => exact ⟨rfl, rfl⟩
    | cons c rest =>
      have hc : c.isDigit = false := (htail c rfl).1
      exact ⟨by rw [List.takeWhile_cons, hc]; rfl, by rw [List.dropWhile_cons, hc]; rfl⟩
  rw [readDigits?, List.takeWhile_append_of_pos hds, List.dropWhile_append_of_pos hds, htake.1,
    htake.2, List.append_nil]
  cases ds with
  | nil => exact absurd rfl hne
  | cons d rest => rfl

theorem head?_toDigits_ne_zero {n : Nat} (hn : 0 < n) : (Nat.toDigits 10 n).head? ≠ some '0' := by
  induction n using Nat.strongRecOn with
  | ind n ih =>
    by_cases hsmall : n < 10
    · have hdigit : ∀ k < 10, 0 < k → Nat.digitChar k ≠ '0' := by decide
      rw [Nat.toDigits_of_lt_base hsmall]
      exact fun heq => hdigit n hsmall hn (Option.some.inj heq)
    · rw [Nat.toDigits_of_base_le (by decide) (by omega), List.head?_append,
        Option.or_of_isSome (by rw [List.isSome_head?]; simp)]
      exact ih (n / 10) (by omega) (by omega)

theorem readWhole?_toDigits (n : Nat) {tail : List Char} (htail : EndsNumber tail) :
    readWhole? (Nat.toDigits 10 n ++ tail) = some (Nat.toDigits 10 n, tail) := by
  have hread : readDigits? (Nat.toDigits 10 n ++ tail) = some (Nat.toDigits 10 n, tail) :=
    readDigits?_append Nat.toDigits_ne_nil
      (fun d hd => Nat.isDigit_of_mem_toDigits (by decide) (by decide) hd) htail
  rw [readWhole?, hread]
  split
  · rename_i second more rest hdigits
    have heq : Nat.toDigits 10 n = '0' :: second :: more :=
      congrArg Prod.fst (Option.some.inj hdigits)
    cases n with
    | zero => exact absurd heq (by simp)
    | succ n => exact absurd (congrArg List.head? heq) (head?_toDigits_ne_zero n.succ_pos)
  · rfl

theorem readFraction?_of_ends {tail : List Char} (htail : EndsNumber tail) :
    readFraction? tail = some ([], tail) := by
  unfold readFraction?
  split
  · exact absurd rfl (htail '.' rfl).2.1
  · rfl

theorem readExponent?_of_ends {tail : List Char} (htail : EndsNumber tail) :
    readExponent? tail = some ([], tail) := by
  cases tail with
  | nil => rfl
  | cons c rest =>
    have hc := htail c rfl
    simp only [readExponent?, hc.2.2.1, hc.2.2.2, or_self, if_false]

theorem readUnsigned?_toDigits (negative : Bool) (n : Nat) {tail : List Char}
    (htail : EndsNumber tail) :
    readUnsigned? negative (Nat.toDigits 10 n ++ tail) =
      some (number negative (Nat.toDigits 10 n) [], tail) := by
  simp only [readUnsigned?, readWhole?_toDigits n htail, readFraction?_of_ends htail,
    readExponent?_of_ends htail, Option.pure_def, Option.bind_eq_bind, Option.bind_some,
    List.append_nil]

theorem number_toDigits (n : Nat) : number false (Nat.toDigits 10 n) [] = .int n := by
  rw [number, digitsValue_toDigits]

theorem number_toDigits_negative (n : Nat) :
    number true (Nat.toDigits 10 (n + 1)) [] = .int (.negSucc n) := by
  have hvalue : digitsValue (Nat.toDigits 10 (n + 1)) = n + 1 := digitsValue_toDigits (n + 1)
  unfold number
  rw [hvalue]

/-! ### Strings -/

theorem hexQuad?_control {n : Nat} (h : n < 0x20) :
    hexQuad? '0' '0' (hexDigit (n / 16)) (hexDigit (n % 16)) = some n := by
  revert n
  decide

theorem readUnits?_letter {e c : Char} (he : unescape? e = some c) (rest : List Char) :
    readUnits? ('\\' :: e :: rest) =
      (readUnits? rest).map fun (units, after) => (c.toNat :: units, after) := by
  have hu : e ≠ 'u' := by
    rintro rfl
    cases he
  cases hrest : readUnits? rest <;> simp [readUnits?, hu, he, hrest]

theorem readUnits?_control {n : Nat} (h : n < 0x20) (rest : List Char) :
    readUnits? ('\\' :: 'u' :: '0' :: '0' :: hexDigit (n / 16) :: hexDigit (n % 16) :: rest) =
      (readUnits? rest).map fun (units, after) => (n :: units, after) := by
  cases hrest : readUnits? rest <;> simp [readUnits?, hexQuad?_control h, hrest]

theorem readUnits?_self {c : Char} (hquote : c ≠ '"') (hslash : c ≠ '\\')
    (hcontrol : ¬c.toNat < 0x20) (rest : List Char) :
    readUnits? (c :: rest) =
      (readUnits? rest).map fun (units, after) => (c.toNat :: units, after) := by
  cases hrest : readUnits? rest <;> simp [readUnits?, hslash, hcontrol, hrest]

/-- A character is read back from its escape. -/
theorem readUnits?_escape (c : Char) (rest : List Char) :
    readUnits? (escape c ++ rest) =
      (readUnits? rest).map fun (units, after) => (c.toNat :: units, after) := by
  unfold escape
  split_ifs with hquote hslash hb hf hn hr ht hcontrol
  · exact readUnits?_letter (by rw [hquote]; rfl) rest
  · exact readUnits?_letter (by rw [hslash]; rfl) rest
  · exact readUnits?_letter (by rw [hb]; rfl) rest
  · exact readUnits?_letter (by rw [hf]; rfl) rest
  · exact readUnits?_letter (by rw [hn]; rfl) rest
  · exact readUnits?_letter (by rw [hr]; rfl) rest
  · exact readUnits?_letter (by rw [ht]; rfl) rest
  · exact readUnits?_control hcontrol rest
  · exact readUnits?_self hquote hslash hcontrol rest

theorem readUnits?_quotedTail (cs tail : List Char) :
    readUnits? (quotedTail cs ++ tail) = some (cs.map Char.toNat, tail) := by
  induction cs with
  | nil => rw [quotedTail, List.singleton_append, readUnits?, List.map_nil]
  | cons c rest ih =>
    rw [quotedTail, List.append_assoc, readUnits?_escape, ih, Option.map_some, List.map_cons]

/-- No character is half of a surrogate pair. -/
theorem pairUnits?_map_toNat (cs : List Char) : pairUnits? (cs.map Char.toNat) = some cs := by
  induction cs with
  | nil => rfl
  | cons c rest ih =>
    have hvalid : c.toNat < 0xD800 ∨ 0xDFFF < c.toNat ∧ c.toNat < 0x110000 := c.valid
    have hlow : isLowSurrogate c.toNat = false := by simp [isLowSurrogate]; omega
    have hhigh : isHighSurrogate c.toNat = false := by simp [isHighSurrogate]; omega
    rw [List.map_cons, pairUnits?.eq_def]
    simp only [hlow, hhigh, ih, Option.map_some, Char.ofNat_toNat, Bool.false_eq_true, if_false]

theorem readText?_quotedTail (text : String) (tail : List Char) :
    readText? (quotedTail text.toList ++ tail) = some (some text, tail) := by
  simp only [readText?, readUnits?_quotedTail, Option.map_some, pairUnits?_map_toNat,
    String.ofList_toList]

/-! ### Field names -/

/-- Digits are written as themselves. -/
theorem quotedTail_of_digits {cs : List Char} (hcs : ∀ c ∈ cs, c.isDigit = true) :
    quotedTail cs = cs ++ ['"'] := by
  induction cs with
  | nil => rfl
  | cons c rest ih =>
    have hc : c.isDigit = true := hcs c List.mem_cons_self
    have hcontrol : ¬c.toNat < 0x20 := by
      have hlow : 0x30 ≤ c.toNat := (Char.isDigit_iff_toNat.mp hc).1
      omega
    have hself : escape c = [c] := by
      unfold escape
      rw [if_neg (ne_of_isDigit hc rfl), if_neg (ne_of_isDigit hc rfl),
        if_neg (ne_of_isDigit hc rfl), if_neg (ne_of_isDigit hc rfl),
        if_neg (ne_of_isDigit hc rfl), if_neg (ne_of_isDigit hc rfl),
        if_neg (ne_of_isDigit hc rfl), if_neg hcontrol]
    rw [quotedTail, hself, ih fun d hd => hcs d (List.mem_cons_of_mem c hd)]
    rfl

theorem isMasked_quotedTail (text : String) (tail : List Char) :
    isMasked text (quotedTail text.toList ++ tail) = false := by
  unfold isMasked
  cases hdigits : text.toList.all Char.isDigit with
  | false => rfl
  | true =>
    rw [quotedTail_of_digits (List.all_eq_true.mp hdigits)]
    simp

theorem readName?_quotedTail (text : String) (tail : List Char) :
    readName? (quotedTail text.toList ++ tail) = some (⟨some text, false⟩, tail) := by
  simp only [readName?, readText?_quotedTail, Option.map_some, Option.any_some, isMasked_quotedTail]

theorem mapM_map_of_inverse {α β : Type} {decode : β → Option α} {write : α → β}
    (h : ∀ a, decode (write a) = some a) (items : List α) :
    (items.map write).mapM decode = some items := by
  induction items with
  | nil => rfl
  | cons a rest ih =>
    simp only [List.map_cons, List.mapM_cons, h a, ih, Option.pure_def, Option.bind_eq_bind,
      Option.bind_some]

/-- Fields as they are read back. -/
def written (fields : List (String × Json)) : List (FieldName × Json) :=
  fields.map fun (name, item) => (⟨some name, false⟩, item)

theorem mapM_written (fields : List (String × Json)) :
    (written fields).mapM (fun (name, item) => name.text.map fun text => (text, item)) =
      some fields := by
  refine mapM_map_of_inverse ?_ fields
  exact fun _ => rfl

theorem ofFields_written (fields : List (String × Json)) :
    ofFields (written fields) = .obj fields := by
  have hplain : (written fields).all (fun field => !field.1.masked) = true :=
    List.all_eq_true.mpr fun field hfield => by
      obtain ⟨_, -, rfl⟩ := List.mem_map.mp hfield
      rfl
  unfold ofFields
  rw [mapM_written]
  exact congrArg (fun plain => Json.obj fields plain) hplain

/-! ### Blanks -/

/-- The blanks between the parts of a written document. -/
structure Layout where
  /-- What stands in front of an item of a level, and of a closing bracket on it. -/
  gap : Nat → List Char
  /-- What stands behind a colon. -/
  space : List Char
  gap_blank : ∀ level, ∀ c ∈ gap level, isBlank c = true
  space_blank : ∀ c ∈ space, isBlank c = true

/-- One item a line. -/
def indented : Layout where
  gap := newline
  space := [' ']
  gap_blank level c hc := by
    rcases List.mem_cons.mp hc with rfl | hc
    · rfl
    · rw [List.eq_of_mem_replicate hc]
      rfl
  space_blank c hc := by
    rw [List.mem_singleton.mp hc]
    rfl

/-- Without blanks. -/
def tight : Layout where
  gap _ := []
  space := []
  gap_blank _ _ hc := absurd hc List.not_mem_nil
  space_blank _ hc := absurd hc List.not_mem_nil

variable (l : Layout)

theorem skipBlanks_gap (level : Nat) (cs : List Char) :
    skipBlanks (l.gap level ++ cs) = skipBlanks cs :=
  List.dropWhile_append_of_pos (l.gap_blank level)

theorem skipBlanks_of_not_blank {c : Char} (hc : isBlank c = false) (cs : List Char) :
    skipBlanks (c :: cs) = c :: cs := by
  rw [skipBlanks, List.dropWhile_cons, hc]
  rfl

theorem readValue?_congr {cs ds : List Char} (h : skipBlanks cs = skipBlanks ds) (fuel : Nat) :
    readValue? fuel cs = readValue? fuel ds := by
  cases fuel with
  | zero => simp only [readValue?]
  | succ fuel => simp only [readValue?, h]

theorem readValue?_space (fuel : Nat) (cs : List Char) :
    readValue? fuel (l.space ++ cs) = readValue? fuel cs :=
  readValue?_congr (List.dropWhile_append_of_pos l.space_blank) fuel

theorem readItems?_gap (level fuel : Nat) (cs : List Char) :
    readItems? fuel (l.gap level ++ cs) = readItems? fuel cs := by
  cases fuel with
  | zero => simp only [readItems?]
  | succ fuel => simp only [readItems?, readValue?_congr (skipBlanks_gap l level cs)]

theorem readFields?_gap (level fuel : Nat) (cs : List Char) :
    readFields? fuel (l.gap level ++ cs) = readFields? fuel cs := by
  cases fuel with
  | zero => simp only [readFields?]
  | succ fuel => simp only [readFields?, skipBlanks_gap]

/-! ### Written forms -/

namespace Layout

mutual

/-- The characters of a document that is laid out, the first line already indented. -/
def chars (l : Layout) (level : Nat) : Json → List Char
  | .arr [] => ['[', ']']
  | .arr (item :: rest) =>
    '[' :: (l.gap (level + 1) ++ (l.chars (level + 1) item ++ l.items level rest))
  | .obj [] _ => [Char.ofNat 0x7b, Char.ofNat 0x7d]
  | .obj ((name, item) :: rest) _ =>
    Char.ofNat 0x7b :: (l.gap (level + 1) ++ (quoted name ++ ':' :: (l.space ++
      (l.chars (level + 1) item ++ l.fields level rest))))
  | .null => ['n', 'u', 'l', 'l']
  | .bool true => ['t', 'r', 'u', 'e']
  | .bool false => ['f', 'a', 'l', 's', 'e']
  | .int i => intChars i
  | .real text => text.toList
  | .str text => quoted text
  | .unpaired => ['n', 'u', 'l', 'l']

/-- The items after the first, with the closing bracket. -/
def items (l : Layout) (level : Nat) : List Json → List Char
  | [] => l.gap level ++ [']']
  | item :: rest =>
    ',' :: (l.gap (level + 1) ++ (l.chars (level + 1) item ++ l.items level rest))

/-- The fields after the first, with the closing brace. -/
def fields (l : Layout) (level : Nat) : List (String × Json) → List Char
  | [] => l.gap level ++ [Char.ofNat 0x7d]
  | (name, item) :: rest =>
    ',' :: (l.gap (level + 1) ++ (quoted name ++ ':' :: (l.space ++
      (l.chars (level + 1) item ++ l.fields level rest))))

end

end Layout

mutual

theorem prettyChars_eq : ∀ (level : Nat) (j : Json), j.prettyChars level = indented.chars level j
  | _, .null | _, .bool true | _, .bool false | _, .int _ | _, .real _ | _, .str _ | _, .unpaired
  | _, .arr [] | _, .obj [] _ => rfl
  | level, .arr (item :: rest) => by
    rw [prettyChars, Layout.chars, prettyChars_eq (level + 1) item, prettyItems_eq level rest]
    rfl
  | level, .obj ((name, item) :: rest) _ => by
    rw [prettyChars, Layout.chars, prettyChars_eq (level + 1) item, prettyFields_eq level rest]
    rfl

theorem prettyItems_eq : ∀ (level : Nat) (rest : List Json),
    prettyItems level rest = indented.items level rest
  | _, [] => rfl
  | level, item :: rest => by
    rw [prettyItems, Layout.items, prettyChars_eq (level + 1) item, prettyItems_eq level rest]
    rfl

theorem prettyFields_eq : ∀ (level : Nat) (rest : List (String × Json)),
    prettyFields level rest = indented.fields level rest
  | _, [] => rfl
  | level, (name, item) :: rest => by
    rw [prettyFields, Layout.fields, prettyChars_eq (level + 1) item, prettyFields_eq level rest]
    rfl

end

mutual

theorem compactChars_eq : ∀ (level : Nat) (j : Json), j.compactChars = tight.chars level j
  | _, .null | _, .bool true | _, .bool false | _, .int _ | _, .real _ | _, .str _ | _, .unpaired
  | _, .arr [] | _, .obj [] _ => by simp only [compactChars, Layout.chars]
  | level, .arr (item :: rest) => by
    rw [compactChars, Layout.chars, compactChars_eq (level + 1) item, compactItems_eq level rest]
    rfl
  | level, .obj ((name, item) :: rest) _ => by
    rw [compactChars, Layout.chars, compactChars_eq (level + 1) item, compactFields_eq level rest]
    rfl

theorem compactItems_eq : ∀ (level : Nat) (rest : List Json),
    compactItems rest = tight.items level rest
  | _, [] => rfl
  | level, item :: rest => by
    rw [compactItems, Layout.items, compactChars_eq (level + 1) item, compactItems_eq level rest]
    rfl

theorem compactFields_eq : ∀ (level : Nat) (rest : List (String × Json)),
    compactFields rest = tight.fields level rest
  | _, [] => rfl
  | level, (name, item) :: rest => by
    rw [compactFields, Layout.fields, compactChars_eq (level + 1) item, compactFields_eq level rest]
    rfl

end

/-! ### Documents -/

mutual

/-- The document has nothing but integers for numbers, whole characters in its strings, and field
names that are written as they are. -/
def isPlain : Json → Bool
  | .real _ => false
  | .unpaired => false
  | .arr items => arePlain items
  | .obj fields plain => plain && havePlain fields
  | _ => true

/-- The items of an array are plain. -/
def arePlain : List Json → Bool
  | [] => true
  | item :: rest => item.isPlain && arePlain rest

/-- The fields of an object are plain. -/
def havePlain : List (String × Json) → Bool
  | [] => true
  | (_, item) :: rest => item.isPlain && havePlain rest

end

theorem isBlank_of_isDigit {d : Char} (hd : d.isDigit = true) : isBlank d = false := by
  have hspace : d ≠ ' ' := ne_of_isDigit hd rfl
  have hline : d ≠ '\n' := ne_of_isDigit hd rfl
  have hreturn : d ≠ '\r' := ne_of_isDigit hd rfl
  have htab : d ≠ '\t' := ne_of_isDigit hd rfl
  simp [isBlank, hspace, hline, hreturn, htab]

/-- A written document starts with something else than a blank or a closing bracket. -/
theorem chars_head {j : Json} (hj : j.isPlain = true) (level : Nat) :
    ∃ c cs, l.chars level j = c :: cs ∧ isBlank c = false ∧ c ≠ ']' := by
  cases j with
  | null => exact ⟨_, _, rfl, rfl, by decide⟩
  | bool b => cases b <;> exact ⟨_, _, rfl, rfl, by decide⟩
  | int i =>
    cases i with
    | ofNat n =>
      obtain ⟨d, rest, hdigits, hd⟩ := toDigits_eq_cons n
      exact ⟨d, rest, hdigits, isBlank_of_isDigit hd, ne_of_isDigit hd rfl⟩
    | negSucc n => exact ⟨_, _, rfl, rfl, by decide⟩
  | real text => cases hj
  | str text => exact ⟨_, _, rfl, rfl, by decide⟩
  | unpaired => cases hj
  | arr items => cases items <;> exact ⟨_, _, rfl, rfl, by decide⟩
  | obj fields plain => cases fields <;> exact ⟨_, _, rfl, rfl, by decide⟩

theorem readValue?_digits (fuel n : Nat) {tail : List Char} (htail : EndsNumber tail) :
    readValue? (fuel + 1) (Nat.toDigits 10 n ++ tail) = some (.int n, tail) := by
  obtain ⟨d, rest, hdigits, hd⟩ := toDigits_eq_cons n
  have hread : readUnsigned? false (d :: (rest ++ tail)) = some (.int n, tail) := by
    rw [← List.cons_append, ← hdigits, readUnsigned?_toDigits false n htail, number_toDigits]
  have hn : d ≠ 'n' := ne_of_isDigit hd rfl
  have ht : d ≠ 't' := ne_of_isDigit hd rfl
  have hf : d ≠ 'f' := ne_of_isDigit hd rfl
  have hquote : d ≠ '"' := ne_of_isDigit hd rfl
  have hbracket : d ≠ '[' := ne_of_isDigit hd rfl
  have hminus : d ≠ '-' := ne_of_isDigit hd rfl
  have hbrace : d ≠ Char.ofNat 0x7b := ne_of_isDigit hd rfl
  rw [hdigits, List.cons_append]
  simp [readValue?, skipBlanks_of_not_blank (isBlank_of_isDigit hd), hn, ht, hf, hbrace, hread]

theorem readValue?_negative (fuel n : Nat) {tail : List Char} (htail : EndsNumber tail) :
    readValue? (fuel + 1) ('-' :: (Nat.toDigits 10 (n + 1) ++ tail)) =
      some (.int (.negSucc n), tail) := by
  rw [← number_toDigits_negative n, ← readUnsigned?_toDigits true (n + 1) htail]
  simp [readValue?, skipBlanks_of_not_blank, isBlank]

theorem readValue?_quoted (fuel : Nat) (text : String) (tail : List Char) :
    readValue? (fuel + 1) (quoted text ++ tail) = some (.str text, tail) := by
  have hread : readText? (quotedTail text.toList ++ tail) = some (some text, tail) :=
    readText?_quotedTail text tail
  simp [readValue?, quoted, skipBlanks_of_not_blank, isBlank, hread]

/-- The character stands in no number but at its start. -/
def EndsAt (c : Char) : Prop := c.isDigit = false ∧ c ≠ '.' ∧ c ≠ 'e' ∧ c ≠ 'E'

instance (c : Char) : Decidable (EndsAt c) := inferInstanceAs (Decidable (_ ∧ _))

theorem endsNumber_cons {c : Char} (hc : EndsAt c) (cs : List Char) : EndsNumber (c :: cs) :=
  fun _ h => Option.some.inj h ▸ hc

theorem endsNumber_gap (level : Nat) {c : Char} (hc : EndsAt c) (cs : List Char) :
    EndsNumber (l.gap level ++ c :: cs) := by
  cases hgap : l.gap level with
  | nil => exact endsNumber_cons hc cs
  | cons b blanks =>
    have hblank := l.gap_blank level b (hgap ▸ List.mem_cons_self)
    simp only [isBlank, Bool.or_eq_true, beq_iff_eq] at hblank
    refine endsNumber_cons ?_ _
    obtain ((rfl | rfl) | rfl) | rfl := hblank <;> decide

/-! ### Arrays -/

theorem items_length_pos (level : Nat) (rest : List Json) :
    0 < (l.items level rest).length := by
  cases rest <;> simp [Layout.items]

/-- No number goes on with what follows an item. -/
theorem endsNumber_items (level : Nat) (rest : List Json) (tail : List Char) :
    EndsNumber (l.items level rest ++ tail) := by
  cases rest with
  | nil =>
    rw [Layout.items, List.append_assoc]
    exact endsNumber_gap l level (by decide) _
  | cons item rest => exact endsNumber_cons (by decide) _

theorem readValue?_items (fuel level : Nat) {c : Char} (hblank : isBlank c = false) (hc : c ≠ ']')
    (cs : List Char) :
    readValue? (fuel + 1) ('[' :: (l.gap level ++ c :: cs)) =
      (readItems? fuel (c :: cs)).map fun (items, after) => (.arr items, after) := by
  have hskip : skipBlanks (l.gap level ++ c :: cs) = c :: cs := by
    rw [skipBlanks_gap, skipBlanks_of_not_blank hblank]
  have hbracket : isBlank '[' = false := rfl
  simp [readValue?, skipBlanks_of_not_blank hbracket, hskip, hc]

theorem readItems?_last {fuel : Nat} {cs rest after : List Char} {item : Json}
    (hitem : readValue? fuel cs = some (item, rest)) (hrest : skipBlanks rest = ']' :: after) :
    readItems? (fuel + 1) cs = some ([item], after) := by
  simp only [readItems?, hitem, hrest]

theorem readItems?_more {fuel : Nat} {cs rest more : List Char} {item : Json}
    (hitem : readValue? fuel cs = some (item, rest)) (hrest : skipBlanks rest = ',' :: more) :
    readItems? (fuel + 1) cs =
      (readItems? fuel more).map fun (items, after) => (item :: items, after) := by
  simp only [readItems?, hitem, hrest]

/-! ### Objects -/

theorem fields_length_pos (level : Nat) (rest : List (String × Json)) :
    0 < (l.fields level rest).length := by
  cases rest <;> simp [Layout.fields]

theorem endsNumber_fields (level : Nat) (rest : List (String × Json)) (tail : List Char) :
    EndsNumber (l.fields level rest ++ tail) := by
  cases rest with
  | nil =>
    rw [Layout.fields, List.append_assoc]
    exact endsNumber_gap l level (by decide) _
  | cons field rest => exact endsNumber_cons (by decide) _

theorem readValue?_fields (fuel level : Nat) (cs : List Char) :
    readValue? (fuel + 1) (Char.ofNat 0x7b :: (l.gap level ++ '"' :: cs)) =
      (readFields? fuel ('"' :: cs)).map fun (fields, after) => (ofFields fields, after) := by
  have hskip : skipBlanks (l.gap level ++ '"' :: cs) = '"' :: cs := by
    rw [skipBlanks_gap, skipBlanks_of_not_blank rfl]
  have hbrace : isBlank (Char.ofNat 0x7b) = false := rfl
  simp [readValue?, skipBlanks_of_not_blank hbrace, hskip]

theorem readFields?_last {fuel : Nat} {name : String} {cs rest after : List Char} {item : Json}
    (hitem : readValue? fuel cs = some (item, rest))
    (hrest : skipBlanks rest = Char.ofNat 0x7d :: after) :
    readFields? (fuel + 1) (quoted name ++ ':' :: (l.space ++ cs)) =
      some (written [(name, item)], after) := by
  have hname := readName?_quotedTail name (':' :: (l.space ++ cs))
  have hquote : isBlank '"' = false := rfl
  have hcolon : isBlank ':' = false := rfl
  simp only [readFields?, quoted, List.cons_append, skipBlanks_of_not_blank hquote, hname,
    skipBlanks_of_not_blank hcolon, readValue?_space, hitem, hrest]
  rfl

theorem readFields?_more {fuel : Nat} {name : String} {cs rest more : List Char} {item : Json}
    (hitem : readValue? fuel cs = some (item, rest)) (hrest : skipBlanks rest = ',' :: more) :
    readFields? (fuel + 1) (quoted name ++ ':' :: (l.space ++ cs)) =
      (readFields? fuel more).map fun (fields, after) =>
        ((⟨some name, false⟩, item) :: fields, after) := by
  have hname := readName?_quotedTail name (':' :: (l.space ++ cs))
  have hquote : isBlank '"' = false := rfl
  have hcolon : isBlank ':' = false := rfl
  simp only [readFields?, quoted, List.cons_append, skipBlanks_of_not_blank hquote, hname,
    skipBlanks_of_not_blank hcolon, readValue?_space, hitem, hrest]

/-! ### Whole documents -/

mutual

/-- A document is read back from its written form, whatever follows that no number goes on with. -/
theorem readValue?_chars : ∀ (fuel : Nat) {j : Json} (level : Nat) {tail : List Char},
    j.isPlain = true → (l.chars level j).length ≤ fuel → EndsNumber tail →
      readValue? fuel (l.chars level j ++ tail) = some (j, tail)
  | 0, j, level, _, hj, hfuel, _ => by
    obtain ⟨c, cs, hchars, -⟩ := chars_head l hj level
    rw [hchars] at hfuel
    exact absurd hfuel (Nat.not_succ_le_zero _)
  | fuel + 1, .null, _, _, _, _, _ => rfl
  | fuel + 1, .bool true, _, _, _, _, _ => rfl
  | fuel + 1, .bool false, _, _, _, _, _ => rfl
  | fuel + 1, .int (.ofNat n), _, _, _, _, htail => readValue?_digits fuel n htail
  | fuel + 1, .int (.negSucc n), _, _, _, _, htail => readValue?_negative fuel n htail
  | fuel + 1, .str text, _, tail, _, _, _ => readValue?_quoted fuel text tail
  | fuel + 1, .arr [], _, _, _, _, _ => rfl
  | fuel + 1, .arr (item :: rest), level, tail, hj, hfuel, _ => by
    have hplain : item.isPlain = true ∧ arePlain rest = true := Bool.and_eq_true_iff.mp hj
    obtain ⟨c, cs, hchars, hblank, hc⟩ := chars_head l hplain.1 (level + 1)
    have hitems := readItems?_items fuel level tail hplain.1 hplain.2 (by
      simp only [Layout.chars, List.length_cons, List.length_append] at hfuel
      omega)
    rw [hchars] at hitems
    simp only [Layout.chars, hchars, List.cons_append, List.append_assoc] at hitems ⊢
    rw [readValue?_items l fuel (level + 1) hblank hc, hitems]
    rfl
  | fuel + 1, .obj [] plain, _, _, hj, _, _ => by
    have hplain : plain = true := (Bool.and_eq_true_iff.mp hj).1
    rw [hplain]
    rfl
  | fuel + 1, .obj ((name, item) :: rest) plain, level, tail, hj, hfuel, _ => by
    obtain ⟨rfl, hfields⟩ := Bool.and_eq_true_iff.mp hj
    have hplain : item.isPlain = true ∧ havePlain rest = true := Bool.and_eq_true_iff.mp hfields
    have hread := readFields?_fields fuel level name tail hplain.1 hplain.2 (by
      simp only [Layout.chars, List.length_cons, List.length_append] at hfuel ⊢
      omega)
    simp only [Layout.chars, quoted, List.cons_append, List.append_assoc] at hread ⊢
    rw [readValue?_fields l fuel (level + 1), hread, ← ofFields_written]
    rfl

theorem readItems?_items : ∀ (fuel level : Nat) {item : Json} {rest : List Json}
    (tail : List Char), item.isPlain = true → arePlain rest = true →
      (l.chars (level + 1) item).length + (l.items level rest).length ≤ fuel →
      readItems? fuel (l.chars (level + 1) item ++ (l.items level rest ++ tail)) =
        some (item :: rest, tail)
  | 0, level, _, rest, _, _, _, hfuel => by
    have hpos := items_length_pos l level rest
    omega
  | fuel + 1, level, item, rest, tail, hitem, hrest, hfuel => by
    have hpos := items_length_pos l level rest
    have hvalue := readValue?_chars fuel (level + 1) hitem (by omega)
      (endsNumber_items l level rest tail)
    cases rest with
    | nil =>
      refine readItems?_last hvalue ?_
      rw [Layout.items, List.append_assoc, skipBlanks_gap]
      rfl
    | cons next more =>
      have hplain : next.isPlain = true ∧ arePlain more = true := Bool.and_eq_true_iff.mp hrest
      have hmore := readItems?_items fuel level tail hplain.1 hplain.2 (by
        simp only [Layout.items, List.length_cons, List.length_append] at hfuel
        omega)
      have hskip : skipBlanks (l.items level (next :: more) ++ tail) =
          ',' :: (l.gap (level + 1) ++
            (l.chars (level + 1) next ++ (l.items level more ++ tail))) := by
        simp only [Layout.items, List.cons_append, List.append_assoc]
        exact skipBlanks_of_not_blank rfl _
      rw [readItems?_more hvalue hskip, readItems?_gap, hmore]
      rfl

theorem readFields?_fields : ∀ (fuel level : Nat) (name : String) {item : Json}
    {rest : List (String × Json)} (tail : List Char),
      item.isPlain = true → havePlain rest = true →
      (quoted name).length + (l.chars (level + 1) item).length +
        (l.fields level rest).length ≤ fuel →
      readFields? fuel (quoted name ++ ':' :: (l.space ++
        (l.chars (level + 1) item ++ (l.fields level rest ++ tail)))) =
          some (written ((name, item) :: rest), tail)
  | 0, level, _, _, rest, _, _, _, hfuel => by
    have hpos := fields_length_pos l level rest
    omega
  | fuel + 1, level, name, item, rest, tail, hitem, hrest, hfuel => by
    have hpos := fields_length_pos l level rest
    have hvalue := readValue?_chars fuel (level + 1) hitem (by omega)
      (endsNumber_fields l level rest tail)
    cases rest with
    | nil =>
      refine readFields?_last l hvalue ?_
      rw [Layout.fields, List.append_assoc, skipBlanks_gap]
      rfl
    | cons field more =>
      obtain ⟨next, value⟩ := field
      have hplain : value.isPlain = true ∧ havePlain more = true := Bool.and_eq_true_iff.mp hrest
      have hmore := readFields?_fields fuel level next tail hplain.1 hplain.2 (by
        simp only [Layout.fields, List.length_cons, List.length_append] at hfuel
        omega)
      have hskip : skipBlanks (l.fields level ((next, value) :: more) ++ tail) =
          ',' :: (l.gap (level + 1) ++ (quoted next ++ ':' :: (l.space ++
            (l.chars (level + 1) value ++ (l.fields level more ++ tail))))) := by
        simp only [Layout.fields, List.cons_append, List.append_assoc]
        exact skipBlanks_of_not_blank rfl _
      rw [readFields?_more l hvalue hskip, readFields?_gap, hmore]
      rfl

end

/-- A document that is laid out is read back. -/
theorem parse?_chars {j : Json} (hj : j.isPlain = true) :
    parse? (String.ofList (l.chars 0 j)) = some j := by
  have hends : EndsNumber [] := fun _ hc => absurd hc (by simp)
  have hread := readValue?_chars l ((l.chars 0 j).length + 1) 0 hj (Nat.le_succ _) hends
  rw [List.append_nil] at hread
  rw [parse?, String.toList_ofList, ← String.length_toList, String.toList_ofList, hread]
  rfl

/-- Reading inverts writing. -/
theorem parse?_pretty {j : Json} (hj : j.isPlain = true) : parse? j.pretty = some j := by
  rw [pretty, prettyChars_eq]
  exact parse?_chars indented hj

/-- Reading inverts writing without blanks. -/
theorem parse?_compact {j : Json} (hj : j.isPlain = true) : parse? j.compact = some j := by
  rw [compact, compactChars_eq 0]
  exact parse?_chars tight hj

end Json

end SceneDebugger
