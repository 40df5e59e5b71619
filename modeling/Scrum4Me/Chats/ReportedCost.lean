import Scrum4Me.Chats.CostReports
import Mathlib.Algebra.Order.Floor.Semifield
import Mathlib.Data.List.TakeWhile
import Mathlib.Data.Rat.Floor
import Mathlib.Tactic.FieldSimp
import Mathlib.Tactic.Linarith
import Mathlib.Tactic.NormNum
import Mathlib.Tactic.Positivity
import Mathlib.Tactic.Ring

/-!
# What an amount denotes

The text of an amount denotes a number, and what is stored of it the least number of
millionths that is not below.
-/

namespace Scrum4Me
namespace Chats

open Foundation Jobs

/-! ## Numbers -/

/-- The text is digits, and possibly a point and more of them. -/
structure Decimal (text integer fraction : List Char) : Prop where
  text : text = if fraction = [] then integer else integer ++ '.' :: fraction
  some' : integer ≠ []
  integer : ∀ digit ∈ integer, digit.isDigit = true
  fraction : ∀ digit ∈ fraction, digit.isDigit = true

/-- The number that these digits denote, before and behind the point. -/
def amountOf (integer fraction : List Char) : ℚ :=
  digitsValue integer + digitsValue fraction / 10 ^ fraction.length

/-- The text is plain decimal notation for the amount. -/
def Denotes (text : String) (amount : ℚ) : Prop :=
  ∃ integer fraction, Decimal text.toList integer fraction ∧ amount = amountOf integer fraction

/-- The amount in whole millionths, rounded up. -/
def roundedUp (amount : ℚ) : ℚ := ⌈amount * 10 ^ scale⌉₊ / 10 ^ scale

/-- No zero leads but one alone, and none ends the digits behind the point. -/
def Normal (text : String) : Prop :=
  ∃ integer fraction, Decimal text.toList integer fraction ∧
    (integer.head? = some '0' → integer.length = 1) ∧ fraction.getLast? ≠ some '0'

variable {count : Nat} {amount : ℚ} {digits : List Char}

/-- Rounded up means: to the least number of millionths that is not below. -/
theorem isLeast_roundedUp :
    IsLeast {step : ℚ | amount ≤ step ∧ ∃ count : ℕ, step = count / 10 ^ scale}
      (roundedUp amount) := by
  have positive : (0 : ℚ) < 10 ^ scale := by positivity
  constructor
  · refine ⟨?_, _, rfl⟩
    rw [roundedUp, le_div_iff₀ positive]
    exact Nat.le_ceil _
  · rintro step ⟨above, count, rfl⟩
    rw [roundedUp, div_le_div_iff_of_pos_right positive]
    rw [le_div_iff₀ positive] at above
    exact_mod_cast Nat.ceil_le.mpr above

theorem roundedUp_mono {first second : ℚ} (ordered : first ≤ second) :
    roundedUp first ≤ roundedUp second := by
  have positive : (0 : ℚ) < 10 ^ scale := by positivity
  rw [roundedUp, roundedUp, div_le_div_iff_of_pos_right positive]
  exact_mod_cast Nat.ceil_mono (by gcongr)

/-! ## Digits -/

theorem digitsValue_eq (digits : List Char) : digitsValue digits = Nat.ofDigitChars 10 digits 0 :=
  rfl

theorem digitsValue_append (first second : List Char) :
    digitsValue (first ++ second) = digitsValue first * 10 ^ second.length + digitsValue second := by
  rw [digitsValue_eq, Nat.ofDigitChars_append, Nat.ofDigitChars_eq_ofDigitChars_zero]
  rw [← digitsValue_eq, ← digitsValue_eq, Nat.mul_comm]

theorem digitsValue_replicate (count : Nat) : digitsValue (List.replicate count '0') = 0 := by
  rw [digitsValue_eq, Nat.ofDigitChars_replicate_zero, Nat.mul_zero]

theorem digitsValue_singleton (digit : Char) : digitsValue [digit] = digit.toNat - '0'.toNat := by
  simp [digitsValue]

theorem digitsValue_cons (digit : Char) (digits : List Char) :
    digitsValue (digit :: digits) =
      (digit.toNat - '0'.toNat) * 10 ^ digits.length + digitsValue digits := by
  rw [← List.singleton_append, digitsValue_append, digitsValue_singleton]

variable {digit : Char} {value : String}

theorem digit_bounds (isDigit : digit.isDigit = true) : 48 ≤ digit.toNat ∧ digit.toNat ≤ 57 := by
  rw [Char.isDigit, Bool.and_eq_true, decide_eq_true_eq, decide_eq_true_eq] at isDigit
  exact ⟨UInt32.le_iff_toNat_le.mp isDigit.1, UInt32.le_iff_toNat_le.mp isDigit.2⟩

theorem digit_eq_zero (isDigit : digit.isDigit = true) :
    digit.toNat - '0'.toNat = 0 ↔ digit = '0' := by
  have bounds := digit_bounds isDigit
  constructor
  · intro zero
    have value : digit.toNat = '0'.toNat := by
      change digit.toNat = 48
      change digit.toNat - 48 = 0 at zero
      omega
    exact Char.toNat_inj.mp value
  · rintro rfl
    rfl

theorem digitsValue_lt (all : ∀ digit ∈ digits, digit.isDigit = true) :
    digitsValue digits < 10 ^ digits.length := by
  induction digits with
  | nil => decide
  | cons digit digits ih =>
    have bounds := digit_bounds (all digit List.mem_cons_self)
    have rest := ih fun next member => all next (List.mem_cons_of_mem _ member)
    have first : digit.toNat - '0'.toNat ≤ 9 := by
      change digit.toNat - 48 ≤ 9
      omega
    rw [digitsValue_cons, List.length_cons, Nat.pow_succ]
    have := Nat.mul_le_mul_right (10 ^ digits.length) first
    omega

theorem digitsValue_eq_zero (all : ∀ digit ∈ digits, digit.isDigit = true) :
    digitsValue digits = 0 ↔ ∀ digit ∈ digits, digit = '0' := by
  induction digits with
  | nil => simp [digitsValue]
  | cons digit digits ih =>
    have first := digit_eq_zero (all digit List.mem_cons_self)
    have rest := ih fun next member => all next (List.mem_cons_of_mem _ member)
    rw [digitsValue_cons, Nat.add_eq_zero_iff, Nat.mul_eq_zero, first, rest,
      or_iff_left (Nat.ne_of_gt (Nat.pow_pos (by decide))), List.forall_mem_cons]

/-! ## Plain decimal notation -/

theorem not_isDigit_point : '.'.isDigit = false := by decide

theorem ne_point (isDigit : digit.isDigit = true) : digit ≠ '.' := by
  rintro rfl
  rw [not_isDigit_point] at isDigit
  cases isDigit

/-- The text is cut at its point. -/
theorem Decimal.parts {text integer fraction : List Char} (decimal : Decimal text integer fraction) :
    text.takeWhile (· ≠ '.') = integer ∧ (text.dropWhile (· ≠ '.')).drop 1 = fraction := by
  have inside : ∀ digit ∈ integer, decide (digit ≠ '.') = true := fun digit member =>
    decide_eq_true (ne_point (decimal.integer digit member))
  have isText := decimal.text
  split at isText
  · rename_i none
    subst isText
    rw [List.takeWhile_eq_self_iff.mpr inside, List.dropWhile_eq_nil_iff.mpr inside, none]
    exact ⟨rfl, rfl⟩
  · subst isText
    rw [List.takeWhile_append_of_pos inside, List.dropWhile_append_of_pos inside]
    simp

theorem plainDecimal_iff {text : List Char} :
    plainDecimal text = true ↔ ∃ integer fraction, Decimal text integer fraction := by
  constructor
  · intro plain
    simp only [plainDecimal, Bool.and_eq_true, Bool.or_eq_true, Bool.not_eq_true',
      List.isEmpty_eq_false_iff, List.isEmpty_iff, List.all_eq_true] at plain
    obtain ⟨⟨some', integer⟩, rest⟩ := plain
    have whole := List.takeWhile_append_dropWhile (p := fun unit => decide (unit ≠ '.')) (l := text)
    refine ⟨_, (text.dropWhile (· ≠ '.')).drop 1, ?_, some', integer, ?_⟩
    · rcases rest with none | ⟨more, -⟩
      · rw [none] at whole ⊢
        rw [List.append_nil] at whole
        rw [List.drop_nil, if_pos rfl, whole]
      · rw [if_neg more]
        cases after : text.dropWhile (· ≠ '.') with
        | nil => rw [after] at more; exact absurd rfl more
        | cons unit rest =>
          have point : unit = '.' := by
            have stops := List.head_dropWhile_not (fun unit => decide (unit ≠ '.'))
              (l := text) (by rw [after]; exact List.cons_ne_nil _ _)
            simp only [after, List.head_cons] at stops
            simpa using stops
          rw [after, point] at whole
          exact whole.symm
    · rcases rest with none | ⟨-, digits⟩
      · rw [none]
        rintro digit ⟨⟩
      · exact digits
  · rintro ⟨integer, fraction, decimal⟩
    obtain ⟨front, back⟩ := decimal.parts
    rw [plainDecimal, front]
    have some' : integer.isEmpty = false := List.isEmpty_eq_false_iff.mpr decimal.some'
    have digits : integer.all Char.isDigit = true := List.all_eq_true.mpr decimal.integer
    rw [back, some', digits]
    cases empty : fraction.isEmpty with
    | false =>
      have digits' : fraction.all Char.isDigit = true := List.all_eq_true.mpr decimal.fraction
      simp [digits']
    | true =>
      have isText := decimal.text
      rw [List.isEmpty_iff.mp empty, if_pos rfl] at isText
      have none : text.dropWhile (· ≠ '.') = [] := by
        rw [isText]
        exact List.dropWhile_eq_nil_iff.mpr fun digit member =>
          decide_eq_true (ne_point (decimal.integer digit member))
      rw [none]
      rfl

/-! ## Millionths -/

theorem digitsValue_padEnd (short : digits.length ≤ scale) :
    digitsValue (padEnd digits) = digitsValue digits * 10 ^ (scale - digits.length) ∧
      (padEnd digits).length = scale := by
  rw [padEnd, digitsValue_append, digitsValue_replicate, List.length_replicate,
    List.length_append, List.length_replicate]
  exact ⟨rfl, by omega⟩

/-- The digits up to the sixth behind the point, and what the rest adds to them. -/
theorem amountOf_scaled (integer fraction : List Char) :
    amountOf integer fraction * 10 ^ scale =
      (digitsValue (integer ++ padEnd (fraction.take scale)) : ℕ) +
        digitsValue (fraction.drop scale) / 10 ^ (fraction.drop scale).length := by
  have short : (fraction.take scale).length ≤ scale := List.length_take_le _ _
  obtain ⟨padded, length⟩ := digitsValue_padEnd short
  have value : digitsValue fraction = digitsValue (fraction.take scale) *
      10 ^ (fraction.drop scale).length + digitsValue (fraction.drop scale) := by
    rw [← digitsValue_append, List.take_append_drop]
  have count : fraction.length = (fraction.take scale).length + (fraction.drop scale).length := by
    rw [← List.length_append, List.take_append_drop]
  rw [digitsValue_append, padded, length, amountOf, value, count]
  push_cast
  by_cases none : fraction.drop scale = []
  · have split : (10 : ℚ) ^ scale =
        10 ^ (scale - (fraction.take scale).length) * 10 ^ (fraction.take scale).length := by
      rw [← pow_add, Nat.sub_add_cancel short]
    have zero : digitsValue [] = 0 := rfl
    have positive : (10 : ℚ) ^ (fraction.take scale).length ≠ 0 := by positivity
    rw [none, zero, List.length_nil, add_mul, split, Nat.cast_zero, zero_div, add_zero, add_zero,
      pow_zero, mul_one, add_zero]
    field_simp
  · have full : (fraction.take scale).length = scale := by
      rw [List.length_take]
      have := List.length_pos_iff.mpr none
      rw [List.length_drop] at this
      omega
    rw [full, Nat.sub_self, pow_zero, mul_one, pow_add]
    have positive : (10 : ℚ) ^ (fraction.drop scale).length ≠ 0 := by positivity
    have positive' : (10 : ℚ) ^ scale ≠ 0 := by positivity
    field_simp
    ring

theorem ceil_add_fraction {whole rest size : Nat} (below : rest < size) :
    ⌈(whole : ℚ) + rest / size⌉₊ = if rest = 0 then whole else whole + 1 := by
  have positive : (0 : ℚ) < size := by exact_mod_cast Nat.zero_lt_of_lt below
  split
  · rename_i zero
    rw [zero, Nat.cast_zero, zero_div, add_zero, Nat.ceil_natCast]
  · rename_i some'
    have rises : (0 : ℚ) < rest / size := by
      have : (0 : ℚ) < rest := by exact_mod_cast Nat.pos_of_ne_zero some'
      positivity
    have stays : (rest : ℚ) / size ≤ 1 := by
      rw [div_le_one positive]
      exact_mod_cast below.le
    apply le_antisymm
    · rw [Nat.ceil_le]
      push_cast
      linarith
    · rw [Nat.add_one_le_iff, Nat.lt_ceil]
      linarith

/-- The millionths of an amount are counted up. -/
theorem micros_eq {text integer fraction : List Char} (decimal : Decimal text integer fraction) :
    micros text = ⌈amountOf integer fraction * 10 ^ scale⌉₊ := by
  obtain ⟨front, back⟩ := decimal.parts
  have digits : ∀ digit ∈ fraction.drop scale, digit.isDigit = true := fun digit member =>
    decimal.fraction digit (List.mem_of_mem_drop member)
  have below := digitsValue_lt digits
  have zero := digitsValue_eq_zero digits
  have counted := @ceil_add_fraction (digitsValue (integer ++ padEnd (fraction.take scale))) _ _
    below
  rw [amountOf_scaled, micros, front, back]
  push_cast at counted
  rw [counted]
  by_cases more : (fraction.drop scale).any (· ≠ '0') = true
  · rw [if_pos more, if_neg]
    rw [zero]
    intro all
    obtain ⟨digit, member, other⟩ := List.any_eq_true.mp more
    exact of_decide_eq_true other (all digit member)
  · rw [if_neg more, if_pos]
    rw [zero]
    intro digit member
    by_contra other
    exact more (List.any_eq_true.mpr ⟨digit, member, decide_eq_true other⟩)

/-! ## The text of a number of millionths -/

/-- The text that is stored, for so many millionths. -/
def formatted (count : Nat) : Option String :=
  let digits := padStart (Nat.toDigits 10 count)
  let whole := digits.take (digits.length - scale)
  if 6 < whole.length then none
  else
    let decimals := ((digits.drop (digits.length - scale)).reverse.dropWhile (· = '0')).reverse
    if decimals.isEmpty then some (String.ofList whole)
    else some (String.ofList (whole ++ '.' :: decimals))

theorem parseReportedCostUsd_eq (value : String) :
    parseReportedCostUsd value =
      if 64 < value.toList.length then none
      else if plainDecimal value.toList = false then none
      else formatted (micros value.toList) := rfl

/-- The digits of a positive number start with none that is zero. -/
theorem head?_toDigits (positive : 0 < count) : (Nat.toDigits 10 count).head? ≠ some '0' := by
  intro zero
  cases digits : Nat.toDigits 10 count with
  | nil => exact Nat.toDigits_ne_nil digits
  | cons first rest =>
    rw [digits, List.head?_cons, Option.some_inj] at zero
    have all : ∀ digit ∈ rest, digit.isDigit = true := fun digit member =>
      Nat.isDigit_of_mem_toDigits (by decide) (by decide)
        (digits ▸ List.mem_cons_of_mem first member)
    have value : count = digitsValue rest := by
      have whole := @Nat.ofDigitChars_ten_toDigits count
      rw [digits, ← digitsValue_eq, digitsValue_cons, zero] at whole
      simpa using whole.symm
    have below := digitsValue_lt all
    rw [← value] at below
    cases rest with
    | nil =>
      rw [List.length_nil, pow_zero] at below
      omega
    | cons next rest =>
      have short := (Nat.length_toDigits_le_iff (n := count) (b := 10) (by decide)
        (Nat.succ_pos rest.length)).mpr below
      rw [digits] at short
      simp at short

/-- The zeros that end a row of digits are cut off. -/
theorem strip_zeros (digits : List Char) :
    ∃ zeros, digits = (digits.reverse.dropWhile (· = '0')).reverse ++ List.replicate zeros '0' := by
  have cut := List.takeWhile_append_dropWhile (p := fun digit => decide (digit = '0'))
    (l := digits.reverse)
  have zeros : digits.reverse.takeWhile (· = '0') =
      List.replicate (digits.reverse.takeWhile (· = '0')).length '0' :=
    List.eq_replicate_iff.mpr ⟨rfl, fun digit member =>
      by simpa using List.mem_takeWhile_imp member⟩
  refine ⟨(digits.reverse.takeWhile (· = '0')).length, ?_⟩
  have back := congrArg List.reverse cut
  rw [List.reverse_reverse, List.reverse_append, zeros, List.reverse_replicate] at back
  exact back.symm

theorem getLast?_stripped (digits : List Char) :
    (digits.reverse.dropWhile (· = '0')).reverse.getLast? ≠ some '0' := by
  rw [List.getLast?_reverse]
  intro zero
  have stops := List.head?_dropWhile_not (fun digit => decide (digit = '0')) digits.reverse
  rw [zero] at stops
  simp at stops

theorem length_padStart (digits : List Char) :
    (padStart digits).length = max (scale + 1) digits.length := by
  rw [padStart, List.length_append, List.length_replicate]
  omega

theorem digitsValue_padStart (digits : List Char) :
    digitsValue (padStart digits) = digitsValue digits := by
  rw [padStart, digitsValue_append, digitsValue_replicate, Nat.zero_mul, Nat.zero_add]

theorem isDigit_padStart : ∀ digit ∈ padStart (Nat.toDigits 10 count), digit.isDigit = true := by
  intro digit member
  rcases List.mem_append.mp member with member | member
  · rw [List.eq_of_mem_replicate member]
    decide
  · exact Nat.isDigit_of_mem_toDigits (by decide) (by decide) member

/-- The first of the digits, where they are more than seven, is not zero. -/
theorem head?_padStart (long : scale + 1 < (padStart (Nat.toDigits 10 count)).length) :
    (padStart (Nat.toDigits 10 count)).head? ≠ some '0' := by
  rw [length_padStart] at long
  have some' : scale + 1 - (Nat.toDigits 10 count).length = 0 := by omega
  have positive : 0 < count := by
    by_contra zero
    rw [Nat.eq_zero_of_not_pos zero, Nat.toDigits_zero, List.length_singleton] at long
    revert long
    decide
  rw [padStart, some', List.replicate_zero, List.nil_append]
  exact head?_toDigits positive

/-- The text of so many millionths denotes them, in normal form. -/
theorem formatted_of_lt (fits : count < 10 ^ 12) :
    ∃ text integer fraction, formatted count = some text ∧
      Decimal text.toList integer fraction ∧ text.toList.length ≤ 64 ∧
        amountOf integer fraction = count / 10 ^ scale ∧
          (integer.head? = some '0' → integer.length = 1) ∧ fraction.getLast? ≠ some '0' := by
  have size := length_padStart (Nat.toDigits 10 count)
  have isDigit := @isDigit_padStart count
  have head := @head?_padStart count
  have value : digitsValue (padStart (Nat.toDigits 10 count)) = count := by
    rw [digitsValue_padStart, digitsValue_eq, Nat.ofDigitChars_ten_toDigits]
  have short : (Nat.toDigits 10 count).length ≤ 12 :=
    (Nat.length_toDigits_le_iff (by decide) (by decide)).mpr fits
  have formed : ∀ digits, padStart (Nat.toDigits 10 count) = digits →
      (digits.take (digits.length - scale)).length ≤ 6 →
        ∀ decimals, ((digits.drop (digits.length - scale)).reverse.dropWhile
          (· = '0')).reverse = decimals →
            formatted count = some (String.ofList (if decimals = [] then
              digits.take (digits.length - scale)
              else digits.take (digits.length - scale) ++ '.' :: decimals)) := by
    rintro digits rfl narrow decimals rfl
    rw [formatted]
    dsimp only
    rw [if_neg (Nat.not_lt.mpr narrow)]
    split
    · rename_i none
      rw [if_pos (List.isEmpty_iff.mp none)]
    · rename_i more
      rw [if_neg fun none => more (List.isEmpty_iff.mpr none)]
  have six : scale = 6 := rfl
  generalize padStart (Nat.toDigits 10 count) = digits at *
  have whole : (digits.take (digits.length - scale)).length = digits.length - scale := by
    rw [List.length_take]
    omega
  obtain ⟨zeros, cut⟩ := strip_zeros (digits.drop (digits.length - scale))
  have last := getLast?_stripped (digits.drop (digits.length - scale))
  have written := formed digits rfl (by omega) _ rfl
  generalize ((digits.drop (digits.length - scale)).reverse.dropWhile (· = '0')).reverse =
    decimals at *
  have behind : decimals.length + zeros = scale := by
    have counted := congrArg List.length cut
    rw [List.length_append, List.length_replicate, List.length_drop] at counted
    omega
  refine ⟨_, digits.take (digits.length - scale), decimals, written,
    ⟨String.toList_ofList, ?_, fun digit member => isDigit digit (List.mem_of_mem_take member),
      fun digit member => isDigit digit (List.mem_of_mem_drop
        (cut ▸ List.mem_append_left _ member))⟩, ?_, ?_, fun zero => ?_, last⟩
  · intro none
    rw [none, List.length_nil] at whole
    omega
  · rw [String.toList_ofList]
    split
    · omega
    · rw [List.length_append, List.length_cons]
      omega
  · -- The digits are those before the point, those behind it, and zeros.
    have sum : digitsValue (digits.take (digits.length - scale)) * 10 ^ scale +
        digitsValue decimals * 10 ^ zeros = count := by
      rw [← value]
      conv_rhs => rw [← List.take_append_drop (digits.length - scale) digits]
      rw [digitsValue_append, cut, digitsValue_append, digitsValue_replicate, List.length_append,
        List.length_replicate, behind, Nat.add_zero]
    have split : (10 : ℚ) ^ scale = 10 ^ decimals.length * 10 ^ zeros := by rw [← pow_add, behind]
    have positive : (10 : ℚ) ^ decimals.length ≠ 0 := by positivity
    have positive' : (10 : ℚ) ^ zeros ≠ 0 := by positivity
    have scaled : ((count : ℕ) : ℚ) = digitsValue (digits.take (digits.length - scale)) *
        (10 ^ decimals.length * 10 ^ zeros) + digitsValue decimals * 10 ^ zeros := by
      rw [← sum, ← split]
      push_cast
      ring
    rw [amountOf, scaled, split]
    field_simp
  · by_contra longer
    have long : scale + 1 < digits.length := by omega
    have first : digits.head? = (digits.take (digits.length - scale)).head? := by
      rw [List.head?_take, if_neg (by omega)]
    exact head long (first.trans zero)

theorem formatted_of_le (above : 10 ^ 12 ≤ count) : formatted count = none := by
  have long : ¬ (Nat.toDigits 10 count).length ≤ 12 := fun short =>
    Nat.not_lt.mpr above ((Nat.length_toDigits_le_iff (by decide) (by decide)).mp short)
  have size := length_padStart (Nat.toDigits 10 count)
  have wide : 6 < ((padStart (Nat.toDigits 10 count)).take
      ((padStart (Nat.toDigits 10 count)).length - scale)).length := by
    rw [List.length_take]
    have : scale = 6 := rfl
    omega
  rw [formatted]
  exact if_pos wide

/-! ## Reported amounts -/

theorem Denotes.unique {text : String} {first second : ℚ}
    (one : Denotes text first) (other : Denotes text second) :
    first = second := by
  obtain ⟨integer, fraction, decimal, rfl⟩ := one
  obtain ⟨integer', fraction', decimal', rfl⟩ := other
  rw [← decimal.parts.1, ← decimal.parts.2, decimal'.parts.1, decimal'.parts.2]

theorem roundedUp_lt : roundedUp amount < 10 ^ 6 ↔ ⌈amount * 10 ^ scale⌉₊ < 10 ^ 12 := by
  have positive : (0 : ℚ) < 10 ^ scale := by positivity
  have split : (10 : ℚ) ^ 6 * 10 ^ scale = ((10 ^ 12 : ℕ) : ℚ) := by norm_num [scale]
  rw [roundedUp, div_lt_iff₀ positive, split, Nat.cast_lt]

theorem le_roundedUp (amount : ℚ) : amount ≤ roundedUp amount := isLeast_roundedUp.1.1

/-- An amount that is plain and short is written in millionths. -/
theorem parseReportedCostUsd_of_denotes
    (denotes : Denotes value amount) (short : value.length ≤ 64) :
    parseReportedCostUsd value = formatted ⌈amount * 10 ^ scale⌉₊ := by
  obtain ⟨integer, fraction, decimal, rfl⟩ := denotes
  have plain := plainDecimal_iff.mpr ⟨integer, fraction, decimal⟩
  rw [parseReportedCostUsd_eq, String.length_toList, if_neg (Nat.not_lt.mpr short), plain,
    if_neg (by decide), micros_eq decimal]

/-- What is written reads as the amount rounded up, and is written again as it is. -/
theorem formatted_denotes (fits : roundedUp amount < 10 ^ 6) :
    ∃ text, formatted ⌈amount * 10 ^ scale⌉₊ = some text ∧ Denotes text (roundedUp amount) ∧
      Normal text ∧ parseReportedCostUsd text = some text := by
  obtain ⟨text, integer, fraction, written, decimal, short, value, leads, ends⟩ :=
    formatted_of_lt (roundedUp_lt.mp fits)
  have denotes : Denotes text (roundedUp amount) := ⟨integer, fraction, decimal, value.symm⟩
  have positive : (10 : ℚ) ^ scale ≠ 0 := by positivity
  have again : ⌈roundedUp amount * 10 ^ scale⌉₊ = ⌈amount * 10 ^ scale⌉₊ := by
    rw [roundedUp, div_mul_cancel₀ _ positive, Nat.ceil_natCast]
  refine ⟨text, written, denotes, ⟨integer, fraction, decimal, leads, ends⟩, ?_⟩
  rw [parseReportedCostUsd_of_denotes denotes (String.length_toList ▸ short), again, written]

theorem parseReportedCostUsd_isSome :
    (parseReportedCostUsd value).isSome ↔
      value.length ≤ 64 ∧ ∃ amount, Denotes value amount ∧ roundedUp amount < 10 ^ 6 := by
  constructor
  · intro accepted
    have short : value.length ≤ 64 := by
      by_contra long
      rw [parseReportedCostUsd_eq, String.length_toList, if_pos (Nat.not_le.mp long)] at accepted
      cases accepted
    have plain : plainDecimal value.toList = true := by
      by_contra other
      rw [parseReportedCostUsd_eq, String.length_toList, if_neg (Nat.not_lt.mpr short),
        if_pos (Bool.eq_false_iff.mpr other)] at accepted
      cases accepted
    obtain ⟨integer, fraction, decimal⟩ := plainDecimal_iff.mp plain
    have denotes : Denotes value (amountOf integer fraction) := ⟨integer, fraction, decimal, rfl⟩
    refine ⟨short, _, denotes, roundedUp_lt.mpr ?_⟩
    by_contra above
    rw [parseReportedCostUsd_of_denotes denotes short, formatted_of_le (Nat.not_lt.mp above)]
      at accepted
    cases accepted
  · rintro ⟨short, amount, denotes, fits⟩
    obtain ⟨text, written, -⟩ := formatted_denotes fits
    rw [parseReportedCostUsd_of_denotes denotes short, written]
    rfl

theorem parseReportedCostUsd_rounds {result : String}
    (parsed : parseReportedCostUsd value = some result) :
    ∃ amount, Denotes value amount ∧ Denotes result (roundedUp amount) ∧
      roundedUp amount < 10 ^ 6 ∧ Normal result ∧ parseReportedCostUsd result = some result := by
  obtain ⟨short, amount, denotes, fits⟩ := parseReportedCostUsd_isSome.mp (by rw [parsed]; rfl)
  obtain ⟨text, written, reads, normal, again⟩ := formatted_denotes fits
  rw [parseReportedCostUsd_of_denotes denotes short, written, Option.some_inj] at parsed
  subst parsed
  exact ⟨amount, denotes, reads, fits, normal, again⟩

/-- A report that is accepted stores the amount it reports, parsed. -/
theorem reportedCostUsd_of_checkCostReport
    {isHarnessJobKind : JobKind → Bool} {job : JobRow} {requestedModel : Option String}
    {status : ReportStatus} {cost : CostReportInput} {report : CostReport}
    (allowed : checkCostReport isHarnessJobKind job requestedModel status cost = .ok report) :
    report.reportedCostUsd = cost.reportedCostUsd.bind parseReportedCostUsd ∧
      (cost.reportedCostUsd = none ∨ report.reportedCostUsd ≠ none) := by
  unfold checkCostReport at allowed
  obtain ⟨_, -, allowed⟩ := (bind_eq_ok _ _ _).1 allowed
  obtain ⟨_, -, allowed⟩ := (bind_eq_ok _ _ _).1 allowed
  obtain ⟨_, checked, allowed⟩ := (bind_eq_ok _ _ _).1 allowed
  have valid := (ensure_eq_ok _ _ _).1 checked
  cases allowed
  refine ⟨rfl, ?_⟩
  unfold CostReportInput.Valid at valid
  cases source : cost.costSource with
  | none => rw [source] at valid; exact .inl valid
  | localRun => rw [source] at valid; exact .inr (by rw [valid]; exact Option.some_ne_none _)
  | _ => rw [source] at valid; exact .inr valid

/-- Reported amounts are rounded up exactly: accepted are the short plain ones below a
million, the result denotes the least number of millionths that is not below, in normal form,
and in the order of the amounts; so no report understates its cost, and each fits. -/
theorem reported_cost_rounded_up (value : String) :
    ((parseReportedCostUsd value).isSome ↔
      value.length ≤ 64 ∧ ∃ amount, Denotes value amount ∧ roundedUp amount < 10 ^ 6) ∧
    (∀ result, parseReportedCostUsd value = some result →
      ∃ amount, Denotes value amount ∧ Denotes result (roundedUp amount) ∧
        IsLeast {step : ℚ | amount ≤ step ∧ ∃ count : ℕ, step = count / 10 ^ 6} (roundedUp amount) ∧
        Normal result ∧ parseReportedCostUsd result = some result) ∧
    (∀ amount other otherAmount, Denotes value amount → Denotes other otherAmount →
      amount ≤ otherAmount → ∀ otherResult, parseReportedCostUsd other = some otherResult →
        (value.length ≤ 64 → (parseReportedCostUsd value).isSome) ∧
        ∀ result, parseReportedCostUsd value = some result →
          ∃ stored otherStored, Denotes result stored ∧ Denotes otherResult otherStored ∧
            stored ≤ otherStored) ∧
    ∀ isHarnessJobKind job requestedModel status cost report,
      checkCostReport isHarnessJobKind job requestedModel status cost = .ok report →
        (cost.reportedCostUsd = none → report.reportedCostUsd = none) ∧
        (cost.reportedCostUsd = some value → ∃ result amount stored,
          report.reportedCostUsd = some result ∧ Denotes value amount ∧ Denotes result stored ∧
            amount ≤ stored ∧ ∃ count : ℕ, count < 10 ^ 12 ∧ stored = count / 10 ^ 6) := by
  refine ⟨parseReportedCostUsd_isSome, fun result parsed => ?_,
    fun amount other otherAmount denotes denotes' ordered otherResult parsed' =>
      ⟨fun short => ?_, fun result parsed => ?_⟩,
    fun _ _ _ _ cost report allowed => ?_⟩
  · obtain ⟨amount, denotes, reads, -, normal, again⟩ := parseReportedCostUsd_rounds parsed
    exact ⟨amount, denotes, reads, isLeast_roundedUp, normal, again⟩
  · obtain ⟨amount', same, -, fits, -⟩ := parseReportedCostUsd_rounds parsed'
    rw [same.unique denotes'] at fits
    exact parseReportedCostUsd_isSome.mpr ⟨short, amount, denotes,
      (roundedUp_mono ordered).trans_lt fits⟩
  · obtain ⟨first, same, reads, -⟩ := parseReportedCostUsd_rounds parsed
    obtain ⟨second, same', reads', -⟩ := parseReportedCostUsd_rounds parsed'
    rw [same.unique denotes] at reads
    rw [same'.unique denotes'] at reads'
    exact ⟨_, _, reads, reads', roundedUp_mono ordered⟩
  · obtain ⟨stored, given⟩ := reportedCostUsd_of_checkCostReport allowed
    refine ⟨fun none => by rw [stored, none]; rfl, fun isSome => ?_⟩
    rw [isSome, Option.bind_some] at stored
    rcases given with none | some'
    · rw [isSome] at none; cases none
    · obtain ⟨result, isResult⟩ := Option.ne_none_iff_exists'.mp some'
      rw [isResult] at stored
      obtain ⟨amount, denotes, reads, fits, -⟩ := parseReportedCostUsd_rounds stored.symm
      exact ⟨result, amount, _, isResult, denotes, reads, le_roundedUp amount, _,
        roundedUp_lt.mp fits, rfl⟩

end Chats
end Scrum4Me
