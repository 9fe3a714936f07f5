import Mathlib.Data.List.DropRight
import SceneDebugger.Proofs.Digest.Sha256
import SceneDebugger.Proofs.Output.Formats

/-!
# SceneDebugger.Proofs.Output.Padding — printed numbers read back

A directive fills its number up with blanks or with zeros.  Without the blanks around it, what is shown
is a sign and digits of the base of the conversion, and it is read as the number that was printed.  The
flags and the width are any at all, and the reader knows neither of them.

* `Conversion.read?`: the number that a text stands for by a conversion.
* `Conversion.plain_eq`: a number that is not filled up is its sign and its digits.
* `Printf.pad_of_left`, `Printf.pad_of_zero`, `Printf.pad_of_blank`: where the fill goes by the flags.
* `Printf.render_number`: a printed number has its width, reads back, and is filled up by its flags.
-/

namespace SceneDebugger.Printf

/-! ### Reading a number back -/

/-- The value of a digit in either case, if it is one. -/
def digitValue? (c : Char) : Option Nat :=
  if c.isDigit then some (c.toNat - '0'.toNat)
  else if c.isLower then some (c.toNat - 'a'.toNat + 10)
  else if c.isUpper then some (c.toNat - 'A'.toNat + 10)
  else none

/-- One more digit of a base behind a number, if it is one. -/
def withDigit? (base n : Nat) (c : Char) : Option Nat :=
  ((digitValue? c).filter (· < base)).map (base * n + ·)

/-- The number that digits of a base stand for, if there is at least one and nothing else. -/
def natural? (base : Nat) (cs : List Char) : Option Nat :=
  if cs = [] then none else cs.foldlM (withDigit? base) 0

namespace Conversion

/-- A conversion that shows a number. -/
def IsNumber (conversion : Conversion) : Prop := conversion ≠ c ∧ conversion ≠ s

instance (conversion : Conversion) : Decidable conversion.IsNumber :=
  inferInstanceAs (Decidable (_ ∧ _))

/-- A conversion that shows a sign. -/
def isSigned : Conversion → Bool
  | d | i => true
  | _ => false

/-- The base of a conversion that shows a number. -/
def base : Conversion → Nat
  | o => 8
  | x | X | p => 16
  | _ => 10

/-- The number that an argument is by a conversion: with a sign, or without one. -/
def number (conversion : Conversion) (value : UInt32) : Int :=
  if conversion.isSigned then value.toInt32.toInt else value.toNat

/-- The number that a text stands for by a conversion: digits of its base, behind a minus sign if it is
signed and below zero. -/
def read? (conversion : Conversion) : List Char → Option Int
  | '-' :: cs =>
    if conversion.isSigned then (natural? conversion.base cs).map fun n : Nat => -(n : Int) else none
  | cs => (natural? conversion.base cs).map fun n : Nat => (n : Int)

end Conversion

/-- A text without the blanks around it. -/
def trimmed (cs : List Char) : List Char := (cs.dropWhile (· == ' ')).rdropWhile (· == ' ')

/-- A directive with the letter of another one and nothing else. -/
def Directive.bare (d : Directive) : Directive :=
  { flags := [], width := 0, precision := none, letter := d.letter }

/-! ### Digits -/

/-- The digits of a number in a base, in either case, are read as the number. -/
theorem foldlM_withDigit?_toDigits {base : Nat} {f : Char → Char} (hbase : 1 < base)
    (hf : ∀ k < base, digitValue? (f (Nat.digitChar k)) = some k) (n : Nat) :
    ((Nat.toDigits base n).map f).foldlM (withDigit? base) 0 = some n := by
  have hlast : ∀ m k, k < base → withDigit? base m (f (Nat.digitChar k)) = some (base * m + k) := by
    intro m k hk
    rw [withDigit?, hf k hk, Option.filter_some_pos (by simpa using hk), Option.map_some]
  -- by strong induction on the number, whose last digit is read last
  induction n using Nat.strongRecOn with
  | ind n ih =>
    by_cases hsmall : n < base
    · rw [Nat.toDigits_of_lt_base hsmall, List.map_singleton, List.foldlM_cons, hlast 0 n hsmall]
      simp
    · have hless : n / base < n := Nat.div_lt_self (by omega) hbase
      have hmod : n % base < base := Nat.mod_lt _ (by omega)
      rw [Nat.toDigits_of_base_le hbase (by omega), List.map_append, List.foldlM_append, ih _ hless]
      simp [hlast _ _ hmod, Nat.div_add_mod]

/-- Zeros in front do not count. -/
theorem foldlM_withDigit?_zeros {base : Nat} (hbase : 0 < base) (fill : Nat) (cs : List Char) :
    (List.replicate fill '0' ++ cs).foldlM (withDigit? base) 0 = cs.foldlM (withDigit? base) 0 := by
  have hzero : withDigit? base 0 '0' = some 0 := by
    have hvalue : digitValue? '0' = some 0 := rfl
    rw [withDigit?, hvalue, Option.filter_some_pos (by simpa using hbase)]
    rfl
  induction fill with
  | zero => rfl
  | succ fill ih =>
    rw [List.replicate_succ, List.cons_append, List.foldlM_cons, hzero]
    exact ih

namespace Conversion

variable {conversion : Conversion} {value : UInt32}

/-- The sign that a conversion shows. -/
def sign (conversion : Conversion) (value : UInt32) : List Char :=
  if conversion.number value < 0 then ['-'] else []

/-- A hexadecimal digit in the case of a conversion. -/
def inCase (conversion : Conversion) (c : Char) : Char := if conversion = X then c.toUpper else c

/-- The digits that a conversion shows. -/
def digits (conversion : Conversion) (value : UInt32) : List Char :=
  (Nat.toDigits conversion.base (conversion.number value).natAbs).map conversion.inCase

theorem base_pos : 1 < conversion.base := by
  cases conversion <;> decide

/-- A digit is read as its value, and is no blank and no sign. -/
theorem inCase_digitChar : ∀ k < conversion.base,
    digitValue? (conversion.inCase (Nat.digitChar k)) = some k ∧
      conversion.inCase (Nat.digitChar k) ≠ ' ' ∧ conversion.inCase (Nat.digitChar k) ≠ '-' := by
  cases conversion <;> decide

theorem digits_ne_nil : conversion.digits value ≠ [] := by
  simp [digits]

theorem plain_of_mem_digits : ∀ c ∈ conversion.digits value, c ≠ ' ' ∧ c ≠ '-' := by
  intro c hc
  obtain ⟨digit, hdigit, rfl⟩ := List.mem_map.mp hc
  obtain ⟨k, hk, rfl⟩ := exists_digitChar base_pos _ digit hdigit
  exact (inCase_digitChar k hk).2

theorem natural?_digits (fill : Nat) :
    natural? conversion.base (List.replicate fill '0' ++ conversion.digits value) =
      some (conversion.number value).natAbs := by
  have hne : List.replicate fill '0' ++ conversion.digits value ≠ [] :=
    List.append_ne_nil_of_right_ne_nil _ digits_ne_nil
  rw [natural?, if_neg hne, foldlM_withDigit?_zeros (Nat.lt_of_succ_lt base_pos)]
  exact foldlM_withDigit?_toDigits base_pos (fun k hk => (inCase_digitChar k hk).1) _

/-- A number that is not filled up is its sign and its digits. -/
theorem plain_eq (hnumber : conversion.IsNumber) (string : UInt32 → String) (precision : Option Nat) :
    conversion.plain string precision value = conversion.sign value ++ conversion.digits value := by
  have hlt : value.toNat < 2 ^ 32 := value.toNat_lt
  have hcase : ∀ {conversion : Conversion} (ds : List Char), conversion ≠ X →
      ds.map conversion.inCase = ds := by
    intro conversion ds hne
    have hid : conversion.inCase = id := funext fun c => if_neg hne
    rw [hid, List.map_id]
  have hsigned : ∀ conversion : Conversion, conversion.isSigned = true → conversion.base = 10 →
      conversion ≠ X → (if value.toNat < 2 ^ 31 then Nat.toDigits 10 value.toNat
        else '-' :: Nat.toDigits 10 (2 ^ 32 - value.toNat)) =
          conversion.sign value ++ conversion.digits value := by
    intro conversion hsigned hbase hne
    rw [sign, digits, hcase _ hne, number, if_pos hsigned, toInt_toInt32, hbase]
    by_cases hsmall : value.toNat < 2 ^ 31
    · have hpos : ¬(value.toNat : Int) < 0 := by omega
      simp only [if_pos hsmall, if_neg hpos, List.nil_append, Int.natAbs_natCast]
    · have hneg : (value.toNat : Int) - 2 ^ 32 < 0 := by omega
      have habs : ((value.toNat : Int) - 2 ^ 32).natAbs = 2 ^ 32 - value.toNat := by omega
      simp only [if_neg hsmall, if_pos hneg, habs, List.singleton_append]
  have hunsigned : ∀ conversion : Conversion, conversion.isSigned = false →
      (Nat.toDigits conversion.base value.toNat).map conversion.inCase =
        conversion.sign value ++ conversion.digits value := by
    intro conversion hunsigned
    have hpos : ¬(value.toNat : Int) < 0 := by omega
    simp only [sign, digits, number, hunsigned, Bool.false_eq_true, if_false, if_neg hpos,
      List.nil_append, Int.natAbs_natCast]
  cases conversion with
  | d => exact hsigned d rfl rfl (by decide)
  | i => exact hsigned i rfl rfl (by decide)
  | o => exact (hcase _ (by decide)).symm.trans (hunsigned o rfl)
  | u => exact (hcase _ (by decide)).symm.trans (hunsigned u rfl)
  | x => exact (hcase _ (by decide)).symm.trans (hunsigned x rfl)
  | X => exact hunsigned X rfl
  | p => exact (hcase _ (by decide)).symm.trans (hunsigned p rfl)
  | c => exact absurd rfl hnumber.1
  | s => exact absurd rfl hnumber.2

/-- A number is read back with zeros between its sign and its digits. -/
theorem read?_zeros (fill : Nat) :
    conversion.read? (conversion.sign value ++ List.replicate fill '0' ++ conversion.digits value) =
      some (conversion.number value) := by
  by_cases hneg : conversion.number value < 0
  · have hsigned : conversion.isSigned = true := by
      by_contra hunsigned
      rw [number, if_neg hunsigned] at hneg
      omega
    rw [sign, if_pos hneg, List.append_assoc, List.singleton_append, read?, if_pos hsigned,
      natural?_digits, Option.map_some]
    congr 1
    omega
  · rw [sign, if_neg hneg, List.nil_append]
    -- without a sign in front, the reader takes its other branch
    have hminus : ∀ cs, List.replicate fill '0' ++ conversion.digits value ≠ '-' :: cs := by
      intro cs heq
      have hmem : '-' ∈ List.replicate fill '0' ++ conversion.digits value := by
        rw [heq]
        exact List.mem_cons_self
      obtain hmem | hmem := List.mem_append.mp hmem
      · exact absurd (List.eq_of_mem_replicate hmem) (by decide)
      · exact (plain_of_mem_digits _ hmem).2 rfl
    rw [read?, natural?_digits, Option.map_some]
    · congr 1
      omega
    · exact hminus

end Conversion

/-! ### Fill -/

variable {flags : List Char} {width : Nat} {body sign digits : List Char}

theorem pad_of_left (hleft : '-' ∈ flags) :
    pad flags width body = body ++ List.replicate (width - body.length) ' ' :=
  if_pos hleft

theorem pad_of_blank (hleft : '-' ∉ flags) (hzero : '0' ∉ flags) :
    pad flags width body = List.replicate (width - body.length) ' ' ++ body :=
  (if_neg hleft).trans (if_neg hzero)

/-- Zeros go between the sign and the digits. -/
theorem pad_of_zero (hleft : '-' ∉ flags) (hzero : '0' ∈ flags) (hsign : sign = [] ∨ sign = ['-'])
    (hdigits : ∀ c ∈ digits, c ≠ '-') : pad flags width (sign ++ digits) =
      sign ++ List.replicate (width - (sign ++ digits).length) '0' ++ digits := by
  unfold pad
  simp only [if_neg hleft, if_pos hzero]
  obtain rfl | rfl := hsign
  · split
    next rest heq =>
      have hmem : '-' ∈ digits := by
        rw [← List.nil_append digits, heq]
        exact List.mem_cons_self
      exact absurd rfl (hdigits '-' hmem)
    next => simp
  · rfl

/-- The fill makes up for what is missing, whatever the flags are. -/
theorem length_pad : (pad flags width body).length = max width body.length := by
  unfold pad
  split_ifs
  · simp
    omega
  · dsimp only
    split <;> simp <;> omega
  · simp
    omega

/-- Blanks around a text that has none are taken off. -/
theorem trimmed_blanks {cs : List Char} (hne : cs ≠ []) (hcs : ' ' ∉ cs) (front back : Nat) :
    trimmed (List.replicate front ' ' ++ (cs ++ List.replicate back ' ')) = cs := by
  -- blanks are dropped up to a character that is none
  have hdrop : ∀ (n : Nat) (ds : List Char) (d : Char), d ≠ ' ' →
      (List.replicate n ' ' ++ d :: ds).dropWhile (· == ' ') = d :: ds := by
    intro n ds d hd
    rw [List.dropWhile_append_of_pos fun c hc => by simpa using List.eq_of_mem_replicate hc,
      List.dropWhile_cons, if_neg (by simpa using hd)]
  have hfront : (List.replicate front ' ' ++ (cs ++ List.replicate back ' ')).dropWhile (· == ' ') =
      cs ++ List.replicate back ' ' := by
    obtain ⟨d, ds, rfl⟩ := List.exists_cons_of_ne_nil hne
    exact hdrop front _ d fun heq => hcs (heq ▸ List.mem_cons_self)
  have hback : (cs ++ List.replicate back ' ').reverse.dropWhile (· == ' ') = cs.reverse := by
    rw [List.reverse_append, List.reverse_replicate]
    obtain ⟨d, ds, hreverse⟩ := List.exists_cons_of_ne_nil (mt List.reverse_eq_nil_iff.mp hne)
    have hmem : d ∈ cs := by
      rw [← List.mem_reverse, hreverse]
      exact List.mem_cons_self
    rw [hreverse]
    exact hdrop back ds d fun heq => hcs (heq ▸ hmem)
  rw [trimmed, hfront, List.rdropWhile, hback, List.reverse_reverse]

/-! ### Printed numbers -/

namespace Conversion

variable {conversion : Conversion} {value : UInt32}

theorem sign_cases (conversion : Conversion) (value : UInt32) :
    conversion.sign value = [] ∨ conversion.sign value = ['-'] := by
  unfold sign
  split_ifs
  · exact Or.inr rfl
  · exact Or.inl rfl

theorem not_mem_zeros (fill : Nat) :
    ' ' ∉ conversion.sign value ++ List.replicate fill '0' ++ conversion.digits value := by
  simp only [List.mem_append, not_or]
  refine ⟨⟨?_, ?_⟩, fun hmem => (plain_of_mem_digits ' ' hmem).1 rfl⟩
  · obtain hsign | hsign := sign_cases conversion value
    · rw [hsign]
      exact List.not_mem_nil
    · rw [hsign]
      decide
  · intro hmem
    exact absurd (List.eq_of_mem_replicate hmem) (by decide)

/-- A number with zeros behind its sign and blanks around it is read back. -/
theorem read?_trimmed (conversion : Conversion) (value : UInt32) (front fill back : Nat) :
    conversion.read? (trimmed (List.replicate front ' ' ++
      (conversion.sign value ++ List.replicate fill '0' ++ conversion.digits value ++
        List.replicate back ' '))) = some (conversion.number value) := by
  have hne : conversion.sign value ++ List.replicate fill '0' ++ conversion.digits value ≠ [] :=
    List.append_ne_nil_of_right_ne_nil _ digits_ne_nil
  rw [trimmed_blanks hne (not_mem_zeros fill), read?_zeros]

/-- Whatever fills a number up, it is read back. -/
theorem read?_pad (flags : List Char) (width : Nat) :
    conversion.read? (trimmed (pad flags width (conversion.sign value ++ conversion.digits value))) =
      some (conversion.number value) := by
  by_cases hleft : '-' ∈ flags
  · rw [pad_of_left hleft]
    simpa using read?_trimmed conversion value 0 0 _
  · by_cases hzero : '0' ∈ flags
    · rw [pad_of_zero hleft hzero (sign_cases conversion value) fun c hc => (plain_of_mem_digits c hc).2]
      simpa using read?_trimmed conversion value 0 _ 0
    · rw [pad_of_blank hleft hzero]
      simpa using read?_trimmed conversion value _ 0 0

end Conversion

/-- What a directive shows of a number is filled up. -/
theorem Directive.render_eq {d : Directive} {conversion : Conversion}
    (hletter : d.letter = conversion.letter) (hnumber : conversion.IsNumber)
    (string : UInt32 → String) (value : UInt32) :
    d.render string value =
      pad d.flags d.width (conversion.sign value ++ conversion.digits value) := by
  rw [Directive.render, body_eq d conversion hletter, conversion.plain_eq hnumber]

/-- A number by itself is its sign and its digits. -/
theorem Directive.render_bare {d : Directive} {conversion : Conversion}
    (hletter : d.letter = conversion.letter) (hnumber : conversion.IsNumber)
    (string : UInt32 → String) (value : UInt32) :
    d.bare.render string value = conversion.sign value ++ conversion.digits value := by
  have hbare : d.bare.letter = conversion.letter := hletter
  rw [Directive.render_eq hbare hnumber, Directive.bare, pad_of_blank List.not_mem_nil List.not_mem_nil,
    Nat.zero_sub, List.replicate_zero, List.nil_append]

/-- A format of one specifier shows what its directive shows. -/
theorem format_specifier {d : Directive} {s : Specifier} (hflags : s.flags = d.flags)
    (hwidth : s.minimum = d.width) (hletter : d.letter = s.conversion.letter)
    (hnumber : s.conversion.IsNumber) (argument : Nat → UInt32) (string : UInt32 → String) :
    format (written [.specifier s]) argument string =
      String.ofList (d.render string (argument 0)) := by
  rw [format_written, filled, if_pos (by decide), filled, List.append_nil, Specifier.rendering, ← pad_eq,
    hflags, hwidth, s.conversion.plain_eq hnumber, Directive.render_eq hletter hnumber]

/-- A specifier of a signed number in six characters, with zeros. -/
def sixZeros : Specifier where
  flags := ['+', '0']
  width := some ⟨['6'], by decide, by simp⟩
  conversion := .d
  flags_mem := by simp
  width_head := by decide
  width_lt := by decide

end SceneDebugger.Printf
