import Mathlib.Data.Nat.Digits.Defs
import SceneDebugger.Output.Printf

/-!
# SceneDebugger.Proofs.Output.Formats — formats put together from literals, escapes and specifiers

A specifier has flags, a width, a precision, a length and a conversion, all but the last optional.  An
escape has the same parts and ends in a percent sign.  A format that is put together from these and
from texts without a percent sign is taken apart into the same segments, whatever stands beside them.

* `Printf.Segment`: a part of a format, with what it is written as.
* `Printf.formatM_eq`: filling in any format asks for its arguments in order, each one once.
* `Printf.format_segments`: a format put together from segments is filled in segment by segment.
-/

namespace SceneDebugger.Printf

/-! ### Segments -/

/-- A number in decimal, as it is written. -/
structure Numeral where
  digits : List Char
  nonempty : digits ≠ []
  isDigit : ∀ c ∈ digits, c.isDigit = true

/-- The number that is written. -/
def Numeral.value (n : Numeral) : Nat := Nat.ofDigits 10 (n.digits.reverse.map fun c => c.toNat - '0'.toNat)

/-- The length of an argument, which has no effect. -/
inductive Length where
  | hh
  | h
  | ll
  | l
  | z
  | j
  | t
  deriving DecidableEq, Repr

/-- A length as it is written. -/
def Length.text : Length → List Char
  | hh => ['h', 'h']
  | h => ['h']
  | ll => ['l', 'l']
  | l => ['l']
  | z => ['z']
  | j => ['j']
  | t => ['t']

/-- What may stand between a percent sign and what ends a specifier or an escape.  A width that starts
with a zero would be a flag and a width. -/
structure Parts where
  flags : List Char := []
  width : Option Numeral := none
  precision : Option Numeral := none
  length : Option Length := none
  flags_mem : ∀ c ∈ flags, c ∈ ['-', '+', ' ', '#', '0']
  width_head : ∀ n ∈ width, n.digits.head? ≠ some '0'

/-- The parts as they are written. -/
def Parts.text (p : Parts) : List Char :=
  p.flags ++ p.width.elim [] Numeral.digits ++ p.precision.elim [] (fun n => '.' :: n.digits)
    ++ p.length.elim [] Length.text

/-- How an argument is shown. -/
inductive Conversion where
  | d
  | i
  | o
  | u
  | x
  | X
  | c
  | s
  | p
  deriving DecidableEq, Repr

/-- The letter of a conversion. -/
def Conversion.letter : Conversion → Char
  | d => 'd'
  | i => 'i'
  | o => 'o'
  | u => 'u'
  | x => 'x'
  | X => 'X'
  | c => 'c'
  | s => 's'
  | p => 'p'

/-- A specifier, which stands for an argument. -/
structure Specifier extends Parts where
  conversion : Conversion
  width_lt : ∀ n ∈ width, n.value < 2 ^ 64

/-- A specifier as it is written. -/
def Specifier.text (s : Specifier) : List Char := '%' :: (s.toParts.text ++ [s.conversion.letter])

/-- A part of a format. -/
inductive Segment where
  /-- A text that stands for itself. -/
  | literal (text : List Char) (h : '%' ∉ text)
  /-- A percent sign. -/
  | escape (parts : Parts)
  /-- An argument. -/
  | specifier (s : Specifier)

/-- A segment as it is written. -/
def Segment.text : Segment → List Char
  | literal text _ => text
  | escape parts => '%' :: (parts.text ++ ['%'])
  | specifier s => s.text

/-- Segments as they are written, one after the other. -/
def written (segments : List Segment) : String := String.ofList (segments.flatMap Segment.text)

/-- How many specifiers there are. -/
def specifierCount (segments : List Segment) : Nat :=
  segments.countP fun
    | .specifier _ => true
    | _ => false

/-! ### What segments stand for -/

/-- An argument by its conversion, before it is filled up. -/
def Conversion.plain (string : UInt32 → String) (precision : Option Nat) (value : UInt32) :
    Conversion → List Char
  | d | i =>
    if value.toNat < 2 ^ 31 then Nat.toDigits 10 value.toNat
    else '-' :: Nat.toDigits 10 (2 ^ 32 - value.toNat)
  | u => Nat.toDigits 10 value.toNat
  | o => Nat.toDigits 8 value.toNat
  | x | p => Nat.toDigits 16 value.toNat
  | X => (Nat.toDigits 16 value.toNat).map Char.toUpper
  | c => [Char.ofNat (value.toNat % 256)]
  | s => (string value).toList.take (precision.getD (string value).toList.length)

/-- A text filled up to a width: on the right with blanks, behind its sign with zeros, or on the left
with blanks. -/
def filledUp (flags : List Char) (width : Nat) (text : List Char) : List Char :=
  if '-' ∈ flags then text.rightpad width ' '
  else if '0' ∈ flags then
    if text.head? = some '-' then '-' :: text.tail.leftpad (width - 1) '0' else text.leftpad width '0'
  else text.leftpad width ' '

/-- The number of characters that a specifier fills up to. -/
def Specifier.minimum (s : Specifier) : Nat := s.width.elim 0 Numeral.value

/-- The most characters of a string that a specifier shows, if there is a limit.  A precision of 2^64
or more is none. -/
def Specifier.limit (s : Specifier) : Option Nat :=
  (s.precision.map Numeral.value).filter (· < 2 ^ 64)

/-- What a specifier shows of an argument. -/
def Specifier.rendering (s : Specifier) (string : UInt32 → String) (value : UInt32) : List Char :=
  filledUp s.flags s.minimum (s.conversion.plain string s.limit value)

/-- What segments stand for, the first specifier of which has the number `next`.  Specifiers behind the
ninth stand for themselves. -/
def filled (argument : Nat → UInt32) (string : UInt32 → String) : Nat → List Segment → List Char
  | _, [] => []
  | next, .literal text _ :: rest => text ++ filled argument string next rest
  | next, .escape _ :: rest => '%' :: filled argument string next rest
  | next, .specifier s :: rest =>
    (if next < 9 then s.rendering string (argument next) else s.text)
      ++ filled argument string (next + 1) rest

/-! ### Reading a segment -/

variable {cs rest : List Char} {c : Char}

theorem takeWhile_append_of_stop {α : Type} {p : α → Bool} {xs ys : List α} (hxs : ∀ x ∈ xs, p x = true)
    (hys : ∀ y ∈ ys.head?, p y = false) : (xs ++ ys).takeWhile p = xs := by
  rw [List.takeWhile_append_of_pos hxs]
  cases ys with
  | nil => rw [List.takeWhile_nil, List.append_nil]
  | cons y ys => rw [List.takeWhile_cons_of_neg (by simp [hys y rfl]), List.append_nil]

/-- Characters that end a specifier or an escape. -/
def letters : List Char := ['d', 'i', 'o', 'u', 'x', 'X', 'c', 's', 'p', '%']

/-- Characters that may stand behind the numbers of a specifier: of a length, or at its end. -/
def behindNumbers : List Char := ['h', 'l', 'z', 'j', 't'] ++ letters

theorem isLetter_iff : isLetter c = true ↔ c ∈ letters := by
  rw [isLetter, show "diouxXcsp%".toList = letters from rfl, List.contains_iff_mem]

theorem plain_of_behindNumbers :
    ∀ c ∈ behindNumbers, isFlag c = false ∧ Text.isDecimalDigit c = false ∧ c ≠ '.' := by
  have hall : behindNumbers.all (fun c => !isFlag c && !Text.isDecimalDigit c && c != '.') = true := by
    decide
  simpa [and_assoc] using hall

theorem isFlag_of_mem : ∀ c ∈ ['-', '+', ' ', '#', '0'], isFlag c = true := by
  simp [isFlag]

theorem isDecimalDigit_of_isDigit (h : c.isDigit = true) : Text.isDecimalDigit c = true := by
  obtain ⟨hlow, hhigh⟩ := Char.isDigit_iff_toNat.mp h
  refine List.any_eq_true.mpr ⟨0x30, List.mem_cons_self, ?_⟩
  simpa using And.intro hlow hhigh

theorem isFlag_of_isDigit (h : c.isDigit = true) (hc : c ≠ '0') : isFlag c = false := by
  have hne : ∀ {d : Char}, d.isDigit = false → (c == d) = false := by
    intro d hd
    rw [beq_eq_false_iff_ne]
    rintro rfl
    rw [h] at hd
    cases hd
  simp only [isFlag, Bool.or_eq_false_iff]
  exact ⟨⟨⟨⟨hne rfl, hne rfl⟩, hne rfl⟩, hne rfl⟩, beq_false_of_ne hc⟩

namespace Length

/-- What may follow a length, or stand in its place, does not go on with it. -/
theorem lengthSize_append (hc : c ∈ letters) (l : Option Length) :
    lengthSize (l.elim [] text ++ c :: rest) = (l.elim [] text).length := by
  have hne : c ≠ 'h' ∧ c ≠ 'l' ∧ c ≠ 'z' ∧ c ≠ 'j' ∧ c ≠ 't' := by
    refine ⟨?_, ?_, ?_, ?_, ?_⟩ <;>
    · rintro rfl
      exact absurd hc (by decide)
  obtain ⟨h, l', z, j, t⟩ := hne
  cases l with
  | none => simp [lengthSize, h, l', z, j, t]
  | some length => cases length <;> simp [lengthSize, text, h, l']

end Length

namespace Parts

variable (p : Parts)

/-- The width as it is written. -/
def widthDigits : List Char := p.width.elim [] Numeral.digits

/-- The precision as it is written, without its point. -/
def precisionDigits : List Char := p.precision.elim [] Numeral.digits

/-- The length and what follows it. -/
def fromLength (rest : List Char) : List Char := p.length.elim [] Length.text ++ rest

/-- The precision as it is written, with its point. -/
def pointed : List Char := p.precision.elim [] fun n => '.' :: n.digits

/-- The precision and what follows it. -/
def fromPrecision (rest : List Char) : List Char := p.pointed ++ p.fromLength rest

/-- The width and what follows it. -/
def fromWidth (rest : List Char) : List Char := p.widthDigits ++ p.fromPrecision rest

variable {p}

theorem text_append (rest : List Char) : p.text ++ rest = p.flags ++ p.fromWidth rest := by
  simp [text, fromWidth, fromPrecision, fromLength, widthDigits, pointed]

theorem head?_fromLength (hc : c ∈ letters) :
    ∀ d ∈ (p.fromLength (c :: rest)).head?, d ∈ behindNumbers := by
  intro d hd
  unfold fromLength at hd
  cases hp : p.length with
  | none =>
    obtain rfl : c = d := by simpa [hp] using hd
    exact List.mem_append_right _ hc
  | some length =>
    rw [hp] at hd
    refine List.mem_append_left _ ?_
    cases length <;> cases hd <;> decide

theorem head?_fromPrecision (hc : c ∈ letters) :
    ∀ d ∈ (p.fromPrecision (c :: rest)).head?, isFlag d = false ∧ Text.isDecimalDigit d = false := by
  intro d hd
  unfold fromPrecision pointed at hd
  cases hp : p.precision with
  | none =>
    rw [hp] at hd
    obtain ⟨hflag, hdigit, -⟩ := plain_of_behindNumbers d (head?_fromLength hc d hd)
    exact ⟨hflag, hdigit⟩
  | some n =>
    rw [hp] at hd
    cases hd
    decide

theorem head?_fromWidth (hc : c ∈ letters) :
    ∀ d ∈ (p.fromWidth (c :: rest)).head?, isFlag d = false := by
  intro d hd
  unfold fromWidth widthDigits at hd
  cases hp : p.width with
  | none =>
    rw [hp] at hd
    exact (head?_fromPrecision hc d hd).1
  | some n =>
    rw [hp] at hd
    obtain ⟨digit, digits, hdigits⟩ := List.exists_cons_of_ne_nil n.nonempty
    simp only [Option.elim_some, hdigits, List.cons_append, List.head?_cons, Option.mem_def,
      Option.some_inj] at hd
    subst hd
    refine isFlag_of_isDigit (n.isDigit _ (by simp [hdigits])) ?_
    rintro rfl
    exact p.width_head n hp (by simp [hdigits])

theorem takeWhile_isFlag (hc : c ∈ letters) :
    (p.flags ++ p.fromWidth (c :: rest)).takeWhile isFlag = p.flags :=
  takeWhile_append_of_stop (fun x hx => isFlag_of_mem x (p.flags_mem x hx)) (head?_fromWidth hc)

theorem takeWhile_width (hc : c ∈ letters) :
    (p.fromWidth (c :: rest)).takeWhile Text.isDecimalDigit = p.widthDigits := by
  refine takeWhile_append_of_stop (fun x hx => ?_) fun y hy => (head?_fromPrecision hc y hy).2
  cases hp : p.width with
  | none => simp [widthDigits, hp] at hx
  | some n => exact isDecimalDigit_of_isDigit (n.isDigit x (by simpa [widthDigits, hp] using hx))

theorem fraction_fromPrecision (hc : c ∈ letters) :
    fraction (p.fromPrecision (c :: rest)) = p.precisionDigits := by
  have hlength : ∀ d ∈ (p.fromLength (c :: rest)).head?, d ∈ behindNumbers := head?_fromLength hc
  unfold fromPrecision pointed precisionDigits
  cases hp : p.precision with
  | none =>
    dsimp only [Option.elim_none, List.nil_append]
    unfold fraction
    split
    next hpoint =>
      rw [hpoint] at hlength
      exact absurd rfl (plain_of_behindNumbers '.' (hlength '.' rfl)).2.2
    next => rfl
  | some n =>
    exact takeWhile_append_of_stop (fun x hx => isDecimalDigit_of_isDigit (n.isDigit x hx))
      fun y hy => (plain_of_behindNumbers y (hlength y hy)).2.1

/-- The directive of parts and of the letter that ends them, given the text of the whole. -/
def directive (p : Parts) (letter : Char) : Directive :=
  { flags := p.flags, width := (number? p.widthDigits).getD 0, precision := number? p.precisionDigits, letter }

/-- The precision ends behind its digits, or where its point would be. -/
theorem beforeLength_eq (n : Nat) :
    (if p.precisionDigits = [] then n else n + 1 + p.precisionDigits.length) = n + p.pointed.length := by
  unfold precisionDigits pointed
  cases p.precision with
  | none => rfl
  | some m => simp [m.nonempty, Nat.add_assoc, Nat.add_comm 1]

/-- A directive is read as it was written, and no further. -/
theorem directive?_text (hc : c ∈ letters) (rest : List Char) :
    directive? (p.text ++ c :: rest) =
      some (if c = '%' then .percent else .directive (p.directive c) ('%' :: (p.text ++ [c])),
        p.text.length + 1) := by
  have hflags : (p.text ++ c :: rest).takeWhile isFlag = p.flags := by
    rw [text_append, takeWhile_isFlag hc]
  have hwidth : (p.text ++ c :: rest).drop p.flags.length = p.fromWidth (c :: rest) := by
    rw [text_append, List.drop_left]
  have hpoint : (p.text ++ c :: rest).drop (p.flags.length + p.widthDigits.length) =
      p.fromPrecision (c :: rest) := by
    rw [← List.drop_drop, hwidth, fromWidth, List.drop_left]
  have hlength : (p.text ++ c :: rest).drop
      (p.flags.length + p.widthDigits.length + p.pointed.length) = p.fromLength (c :: rest) := by
    rw [← List.drop_drop, hpoint, fromPrecision, List.drop_left]
  have hsize : p.flags.length + p.widthDigits.length + p.pointed.length +
      lengthSize (p.fromLength (c :: rest)) = p.text.length := by
    rw [fromLength, Length.lengthSize_append hc]
    simp [text, widthDigits, pointed, Nat.add_assoc]
  have htake : (p.text ++ c :: rest).take (p.text.length + 1) = p.text ++ [c] := by
    rw [List.take_length_add_append, List.take_succ_cons, List.take_zero]
  unfold directive?
  simp only [hflags, hwidth, takeWhile_width hc, hpoint, fraction_fromPrecision hc, beforeLength_eq,
    hlength, hsize, List.drop_left, isLetter_iff.mpr hc, htake, if_true]
  split_ifs <;> rfl

end Parts

/-! ### Reading a format -/

/-- The pieces of a segment. -/
def Segment.pieces : Segment → List Piece
  | literal text _ => text.map .char
  | escape _ => [.percent]
  | specifier s => [.directive (s.toParts.directive s.conversion.letter) s.text]

/-- Characters that belong to a directive are passed over. -/
theorem piecesFrom_length (cs rest : List Char) : piecesFrom cs.length (cs ++ rest) = pieces rest := by
  induction cs with
  | nil => rfl
  | cons c cs ih => exact ih

theorem pieces_parts (p : Parts) (hc : c ∈ letters) (rest : List Char) :
    pieces ('%' :: (p.text ++ [c]) ++ rest) =
      (if c = '%' then .percent else .directive (p.directive c) ('%' :: (p.text ++ [c]))) ::
        pieces rest := by
  have hover : piecesFrom (p.text.length + 1) (p.text ++ c :: rest) = pieces rest := by
    simpa using piecesFrom_length (p.text ++ [c]) rest
  rw [List.cons_append, List.append_assoc, List.singleton_append, pieces, piecesFrom, if_pos rfl,
    p.directive?_text hc rest]
  exact congrArg _ hover

theorem pieces_append (segment : Segment) (rest : List Char) :
    pieces (segment.text ++ rest) = segment.pieces ++ pieces rest := by
  cases segment with
  | literal text h =>
    induction text with
    | nil => rfl
    | cons c text ih =>
      have hc : c ≠ '%' := fun heq => h (heq ▸ List.mem_cons_self)
      have hplain : pieces (c :: text ++ rest) = .char c :: pieces (text ++ rest) := if_neg hc
      exact hplain.trans (congrArg _ (ih fun hmem => h (List.mem_cons_of_mem c hmem)))
  | escape p => exact pieces_parts p (by decide) rest
  | specifier s =>
    have hc : s.conversion.letter ∈ letters ∧ s.conversion.letter ≠ '%' := by
      cases s.conversion <;> decide
    exact (pieces_parts s.toParts hc.1 rest).trans (by rw [if_neg hc.2]; rfl)

theorem pieces_flatMap (segments : List Segment) :
    pieces (segments.flatMap Segment.text) = segments.flatMap Segment.pieces := by
  induction segments with
  | nil => rfl
  | cons segment segments ih => rw [List.flatMap_cons, List.flatMap_cons, pieces_append, ih]

/-! ### What a segment stands for -/

theorem natOfDigits?_eq (n : Numeral) : Text.natOfDigits? n.digits = some n.value := by
  have hall : n.digits ≠ [] ∧ n.digits.all Char.isDigit = true :=
    ⟨n.nonempty, List.all_eq_true.mpr n.isDigit⟩
  rw [Text.natOfDigits?, if_pos hall, Numeral.value, Nat.ofDigits_eq_foldr, List.foldr_map,
    List.foldr_reverse]
  simp only [Nat.cast_id, Nat.add_comm]

theorem number?_digits (n : Numeral) : number? n.digits = (some n.value).filter (· < 2 ^ 64) := by
  have hread : ∀ ds : List Char, (∀ c ∈ ds, c.isDigit = true) →
      Text.natBelow? UInt64.size ds = (Text.natOfDigits? ds).filter (· < UInt64.size) := by
    intro ds hds
    unfold Text.natBelow?
    split
    next => exact absurd (hds '+' List.mem_cons_self) (by decide)
    next => rfl
  rw [number?, hread _ n.isDigit, natOfDigits?_eq]
  rfl

theorem pad_eq (flags : List Char) (width : Nat) (body : List Char) :
    pad flags width body = filledUp flags width body := by
  unfold pad filledUp
  dsimp only
  split_ifs with hleft hzero hsign
  · rfl
  · obtain ⟨digits, rfl⟩ := List.head?_eq_some_iff.mp hsign
    simp [List.leftpad, Nat.sub_sub, Nat.add_comm]
  · split
    next => exact absurd rfl hsign
    next => rfl
  · rfl

theorem toInt_toInt32 (value : UInt32) :
    value.toInt32.toInt = if value.toNat < 2 ^ 31 then (value.toNat : Int) else value.toNat - 2 ^ 32 := by
  have hbits : value.toInt32.toInt = value.toBitVec.toInt := rfl
  rw [hbits, BitVec.toInt_eq_toNat_cond]
  change (if 2 * value.toNat < 2 ^ 32 then (value.toNat : Int) else value.toNat - (2 ^ 32 : Nat)) = _
  split_ifs <;> omega

theorem signedDecimal_toInt32 (value : UInt32) :
    (Text.signedDecimal value.toInt32.toInt).toList =
      if value.toNat < 2 ^ 31 then Nat.toDigits 10 value.toNat
      else '-' :: Nat.toDigits 10 (2 ^ 32 - value.toNat) := by
  rw [toInt_toInt32]
  split_ifs with hsign
  · exact String.toList_ofList
  · have hlt := value.toNat_lt
    have hneg : (value.toNat : Int) - 2 ^ 32 = .negSucc (2 ^ 32 - value.toNat - 1) := by omega
    have hsucc : 2 ^ 32 - value.toNat - 1 + 1 = 2 ^ 32 - value.toNat := by omega
    rw [hneg, Text.signedDecimal, Text.decimal, String.toList_append, hsucc]
    exact congrArg (['-'] ++ ·) String.toList_ofList

theorem body_eq (d : Directive) (conversion : Conversion) (hletter : d.letter = conversion.letter)
    (string : UInt32 → String) (value : UInt32) :
    d.body string value = conversion.plain string d.precision value := by
  unfold Directive.body
  rw [hletter]
  cases conversion with
  | d => exact signedDecimal_toInt32 value
  | i => exact signedDecimal_toInt32 value
  | s => cases d.precision <;> simp [Conversion.letter, Conversion.plain]
  | _ => rfl

theorem rendering_eq (s : Specifier) (string : UInt32 → String) (value : UInt32) :
    (s.toParts.directive s.conversion.letter).render string value = s.rendering string value := by
  have hminimum : (number? s.widthDigits).getD 0 = s.minimum := by
    unfold Parts.widthDigits Specifier.minimum
    cases hwidth : s.width with
    | none => rfl
    | some n =>
      rw [Option.elim_some, number?_digits, Option.filter_some_pos (by simpa using s.width_lt n hwidth)]
      rfl
  have hlimit : number? s.precisionDigits = s.limit := by
    unfold Parts.precisionDigits Specifier.limit
    cases s.precision with
    | none => rfl
    | some n => exact number?_digits n
  rw [Directive.render, pad_eq, body_eq _ s.conversion rfl, Parts.directive, hminimum, hlimit]
  rfl

/-! ### Filling in -/

/-- How many pieces take an argument. -/
def directiveCount (ps : List Piece) : Nat :=
  ps.countP fun
    | .directive _ _ => true
    | _ => false

/-- The text of pieces for arguments that are there. -/
def render (argument : Nat → UInt32) (string : UInt32 → String) (next : Nat) (ps : List Piece) :
    List Char :=
  Id.run (renderM (fun i => pure (argument i)) string next ps)

variable {argument argument' : Nat → UInt32} {string : UInt32 → String} {next : Nat} {ps : List Piece}
  {d : Directive} {text : List Char}

@[simp] theorem render_nil : render argument string next [] = [] := rfl

@[simp] theorem render_char : render argument string next (.char c :: ps) =
    c :: render argument string next ps := rfl

@[simp] theorem render_percent : render argument string next (.percent :: ps) =
    '%' :: render argument string next ps := rfl

@[simp] theorem render_directive : render argument string next (.directive d text :: ps) =
    if next < argumentLimit then
      d.render string (argument next) ++ render argument string (next + 1) ps
    else text ++ render argument string next ps := by
  unfold render
  rw [renderM]
  split_ifs <;> rfl

/-- Only the arguments from the next one on are used. -/
theorem render_congr (h : ∀ i, next ≤ i → argument i = argument' i) :
    render argument string next ps = render argument' string next ps := by
  induction ps generalizing next with
  | nil => rfl
  | cons piece ps ih =>
    cases piece with
    | char c => simp [ih h]
    | percent => simp [ih h]
    | directive d text =>
      simp [ih h, ih fun i hi => h i (Nat.le_of_succ_le hi), h next le_rfl]

section Effects

variable {m : Type → Type} [Monad m] [LawfulMonad m]

/-- The arguments that are left to ask for. -/
def asked (next : Nat) (ps : List Piece) : List Nat :=
  List.range' next (min (argumentLimit - next) (directiveCount ps))

theorem asked_directive (hnext : next < argumentLimit) :
    asked next (.directive d text :: ps) = next :: asked (next + 1) ps := by
  have hcount : min (argumentLimit - next) (directiveCount (.directive d text :: ps)) =
      min (argumentLimit - (next + 1)) (directiveCount ps) + 1 := by
    simp [directiveCount]
    omega
  rw [asked, hcount, List.range'_succ]
  rfl

/-- Behind the last argument nothing is asked for. -/
theorem asked_of_limit (hnext : ¬next < argumentLimit) (ps : List Piece) : asked next ps = [] := by
  rw [asked, Nat.sub_eq_zero_of_le (Nat.le_of_not_lt hnext), Nat.zero_min]
  rfl

/-- Filling in pieces is asking for the arguments in order, and then filling in the answers. -/
theorem renderM_eq (ask : Nat → m UInt32) (string : UInt32 → String) (ps : List Piece) (next : Nat) :
    renderM ask string next ps = (asked next ps).mapM ask >>= fun values =>
      pure (render (fun i => values[i - next]?.getD 0) string next ps) := by
  induction ps generalizing next with
  | nil => simp [renderM, asked, directiveCount]
  | cons piece ps ih =>
    cases piece with
    | char c =>
      have hsame : asked next (.char c :: ps) = asked next ps := rfl
      simp [renderM, ih, hsame]
    | percent =>
      have hsame : asked next (.percent :: ps) = asked next ps := rfl
      simp [renderM, ih, hsame]
    | directive d text =>
      by_cases hnext : next < argumentLimit
      · have hlater : ∀ (value : UInt32) (values : List UInt32),
            render (fun i => (value :: values)[i - next]?.getD 0) string (next + 1) ps =
              render (fun i => values[i - (next + 1)]?.getD 0) string (next + 1) ps := by
          refine fun value values => render_congr fun i hi => ?_
          rw [show i - next = (i - (next + 1)) + 1 by omega, List.getElem?_cons_succ]
        simp [renderM, ih, asked_directive hnext, hnext, hlater]
      · simp [renderM, ih, asked_of_limit hnext, hnext]

/-- Filling in a format is asking for its arguments in order, each one once, and then filling in the
answers. -/
theorem formatM_eq (ask : Nat → m UInt32) (string : UInt32 → String) (text : String) :
    formatM ask string text = (List.range (argumentCount text)).mapM ask >>= fun values =>
      pure (format text (fun i => values[i]?.getD 0) string) := by
  have hasked : asked 0 (pieces text.toList) = List.range (argumentCount text) :=
    List.range_eq_range'.symm
  rw [formatM, renderM_eq, hasked]
  simp only [bind_assoc, pure_bind]
  rfl

end Effects

/-! ### Filling in segments -/

theorem directiveCount_pieces (segments : List Segment) :
    directiveCount (segments.flatMap Segment.pieces) = specifierCount segments := by
  induction segments with
  | nil => rfl
  | cons segment segments ih =>
    rw [List.flatMap_cons, directiveCount, List.countP_append, specifierCount, List.countP_cons,
      ← directiveCount, ← directiveCount, ← specifierCount, ih, Nat.add_comm]
    congr 1
    cases segment with
    | literal text h => simp [Segment.pieces, directiveCount, List.countP_map, Function.comp_def]
    | escape p => rfl
    | specifier s => rfl

/-- The pieces of segments are filled in as the segments are.  Specifiers are numbered on behind the
last argument. -/
theorem render_pieces (argument : Nat → UInt32) (string : UInt32 → String) (segments : List Segment)
    (next : Nat) : render argument string (min next argumentLimit) (segments.flatMap Segment.pieces) =
      filled argument string next segments := by
  induction segments generalizing next with
  | nil => rfl
  | cons segment segments ih =>
    rw [List.flatMap_cons]
    cases segment with
    | literal text h =>
      rw [filled, ← ih next, Segment.pieces]
      clear ih h
      induction text with
      | nil => rfl
      | cons c text iht => simp [iht]
    | escape p => simp [Segment.pieces, filled, ih]
    | specifier s =>
      simp only [Segment.pieces, filled, List.singleton_append, render_directive, rendering_eq]
      by_cases hnext : next < 9
      · have hmin : min next argumentLimit = next := Nat.min_eq_left (Nat.le_of_lt hnext)
        have hsucc : min (next + 1) argumentLimit = next + 1 := Nat.min_eq_left hnext
        rw [hmin, if_pos hnext, if_pos (show next < argumentLimit from hnext), ← ih, hsucc]
      · have hmin : min next argumentLimit = argumentLimit := Nat.min_eq_right (Nat.le_of_not_lt hnext)
        have hsucc : min (next + 1) argumentLimit = argumentLimit :=
          Nat.min_eq_right (Nat.le_succ_of_le (Nat.le_of_not_lt hnext))
        rw [hmin, if_neg hnext, if_neg (Nat.lt_irrefl _), ← ih, hsucc]

theorem format_written (segments : List Segment) (argument : Nat → UInt32)
    (string : UInt32 → String) : format (written segments) argument string =
      String.ofList (filled argument string 0 segments) := by
  rw [← render_pieces, ← pieces_flatMap, format, formatM, written, String.toList_ofList]
  rfl

theorem argumentCount_written (segments : List Segment) :
    argumentCount (written segments) = min 9 (specifierCount segments) := by
  rw [← directiveCount_pieces, ← pieces_flatMap, argumentCount, written, String.toList_ofList]
  rfl

/-- A numeral of one digit. -/
def four : Numeral := ⟨['4'], by decide, by simp⟩

/-- Eleven specifiers, with an escape between the first ones. -/
def crowded : List Segment :=
  [.specifier {
      flags := ['-'], width := some four, conversion := .d
      flags_mem := by simp, width_head := by decide, width_lt := by decide },
    .literal ['|'] (by decide),
    .specifier {
      flags := ['0'], width := some four, length := some .hh, conversion := .X
      flags_mem := by simp, width_head := by decide, width_lt := by decide },
    .escape { flags := [' '], precision := some four, flags_mem := by simp, width_head := by decide },
    .specifier {
      precision := some four, conversion := .s
      flags_mem := by simp, width_head := by decide, width_lt := by decide }]
  ++ List.replicate 8 (.specifier {
      conversion := .u, flags_mem := by simp, width_head := by decide, width_lt := by decide })

/-- The number of an argument is noted when it is asked for. -/
def noting (i : Nat) : StateM (List Nat) UInt32 := do
  modify (· ++ [i])
  return UInt32.ofNat (250 + i)

end SceneDebugger.Printf
