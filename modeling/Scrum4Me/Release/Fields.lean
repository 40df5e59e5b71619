import Scrum4Me.Release.Archive
import Mathlib.Algebra.Order.Ring.Nat

/-!
# What the fields of a header hold

The readers of numbers, texts and paths, each with what it accepts.
-/

namespace Scrum4Me
namespace Release

/-! ## Steps that throw -/

theorem reject_ok {condition : Prop} [Decidable condition] {error : ArchiveError} {done : Unit} :
    reject condition error = .ok done ↔ ¬ condition := by
  unfold reject
  by_cases holds : condition
  · simp [holds]
  · simp [holds]

theorem bind_ok {first : Except ε α} {next : α → Except ε β} {result : β} :
    (first >>= next) = .ok result ↔ ∃ value, first = .ok value ∧ next value = .ok result := by
  cases first with
  | _ => simp [bind, Except.bind]

/-! ## Numbers -/

/-- A number in a field: what may stand before it, its digits, and what ends it. -/
def Numeral (blank : Nat → Prop) (codes : Codes) (value : Nat) : Prop :=
  ∃ blanks digits ends, codes = blanks ++ (digits ++ ends) ∧
    (∀ code ∈ blanks, blank code) ∧ digits ≠ [] ∧ (∀ code ∈ digits, OctalDigit code) ∧
      (∀ code ∈ ends, Ending code) ∧ value = octalValue digits

/-- Octal digits padded with spaces, and after them with NULs too. -/
def StrictNumber (bytes : Bytes) (value : Nat) : Prop :=
  Numeral (· = 32) (bytes.map UInt8.toNat) value

/-- The same once each byte has lost its highest bit, with any blanks before; only the
first byte may not have had it. -/
def LooseNumber (bytes : Bytes) (value : Nat) : Prop :=
  (∀ first ∈ bytes.head?, first < 128) ∧ Numeral Blank (ascii bytes) value

/-- No byte has its highest bit, and none is a tab or the end of a line. -/
def PlainField (bytes : Bytes) : Prop :=
  ∀ byte ∈ bytes, byte.toNat < 128 ∧ ¬ (9 ≤ byte.toNat ∧ byte.toNat ≤ 13)

theorem OctalDigit.not_blank (digit : OctalDigit code) : ¬ Blank code := by
  unfold OctalDigit at digit
  unfold Blank
  omega

theorem OctalDigit.not_ending (digit : OctalDigit code) : ¬ Ending code := by
  unfold OctalDigit at digit
  unfold Ending
  omega

theorem rdropWhile_append_all
    {drops : Nat → Bool} {front back : Codes} (all : ∀ code ∈ back, drops code = true) :
    (front ++ back).rdropWhile drops = front.rdropWhile drops := by
  induction back using List.reverseRecOn with
  | nil => rw [List.append_nil]
  | append_singleton back code ih =>
    rw [← List.append_assoc, List.rdropWhile_concat_pos _ _ _ (all code (by simp))]
    exact ih fun code member => all code (List.mem_append_left _ member)

theorem rdropWhile_decompose (drops : Nat → Bool) (codes : Codes) :
    ∃ back, codes = codes.rdropWhile drops ++ back ∧ ∀ code ∈ back, drops code = true := by
  induction codes using List.reverseRecOn with
  | nil => exact ⟨[], rfl, List.forall_mem_nil _⟩
  | append_singleton codes code ih =>
    by_cases dropped : drops code = true
    · obtain ⟨back, same, all⟩ := ih
      rw [List.rdropWhile_concat_pos _ _ _ dropped]
      refine ⟨back ++ [code], by rw [← List.append_assoc, ← same], fun other member => ?_⟩
      rcases List.mem_append.mp member with inside | last
      · exact all other inside
      · rw [List.mem_singleton.mp last]
        exact dropped
    · rw [List.rdropWhile_concat_neg _ _ _ dropped]
      exact ⟨[], (List.append_nil _).symm, List.forall_mem_nil _⟩

/-- What is left of a number once blanks and endings are gone. -/
theorem trimmed_iff {codes value : Codes} :
    (codes.rdropWhile (Ending ·)).dropWhile (Blank ·) = value ∧ value ≠ [] ∧
        (∀ code ∈ value, OctalDigit code) ↔
      ∃ blanks ends, codes = blanks ++ (value ++ ends) ∧ (∀ code ∈ blanks, Blank code) ∧
        value ≠ [] ∧ (∀ code ∈ value, OctalDigit code) ∧ ∀ code ∈ ends, Ending code := by
  constructor
  · rintro ⟨trimmed, some, digits⟩
    obtain ⟨ends, same, ending⟩ := rdropWhile_decompose (Ending ·) codes
    refine ⟨(codes.rdropWhile (Ending ·)).takeWhile (Blank ·), ends, ?_, ?_, some, digits, ?_⟩
    · rw [← trimmed, ← List.append_assoc, List.takeWhile_append_dropWhile]
      exact same
    · intro code member
      have held := List.mem_takeWhile_imp (p := fun code => decide (Blank code)) member
      exact of_decide_eq_true held
    · exact fun code member => of_decide_eq_true (ending code member)
  · rintro ⟨blanks, ends, rfl, blank, some, digits, ending⟩
    refine ⟨?_, some, digits⟩
    obtain ⟨first, rest, rfl⟩ := List.exists_cons_of_ne_nil some
    obtain ⟨front, last, shape⟩ := List.eq_nil_or_concat (first :: rest) |>.resolve_left some
    have stays : (blanks ++ (first :: rest)).rdropWhile (Ending ·) = blanks ++ (first :: rest) := by
      rw [List.concat_eq_append] at shape
      have digit := digits last (shape ▸ by simp)
      rw [shape, ← List.append_assoc, List.rdropWhile_concat_neg _ _ _
        (by simpa using digit.not_ending)]
    rw [← List.append_assoc,
      rdropWhile_append_all fun code member => decide_eq_true (ending code member), stays,
      List.dropWhile_append_of_pos fun code member => decide_eq_true (blank code member),
      List.dropWhile_cons_of_neg]
    simpa using (digits first List.mem_cons_self).not_blank

theorem octalValue_lt {digits : Codes} (octal : ∀ code ∈ digits, OctalDigit code) :
    octalValue digits < 8 ^ digits.length := by
  have bounded : ∀ (digits : Codes) (value : Nat), (∀ code ∈ digits, OctalDigit code) →
      digits.foldl (fun value digit => 8 * value + (digit - 48)) value <
        (value + 1) * 8 ^ digits.length := by
    intro digits
    induction digits with
    | nil =>
      intro value _
      simp
    | cons digit digits ih =>
      intro value octal
      have small : digit - 48 ≤ 7 := by
        have := (octal digit List.mem_cons_self).2
        omega
      calc
        _ < (8 * value + (digit - 48) + 1) * 8 ^ digits.length :=
          ih _ fun code member => octal code (List.mem_cons_of_mem _ member)
        _ ≤ ((value + 1) * 8) * 8 ^ digits.length := Nat.mul_le_mul_right _ (by omega)
        _ = (value + 1) * 8 ^ (digit :: digits).length := by
          rw [List.length_cons, Nat.pow_succ, Nat.mul_assoc, Nat.mul_comm 8]
  have := bounded digits 0 octal
  rwa [Nat.zero_add, Nat.one_mul] at this

theorem length_field (header : Bytes) (offset length : Nat) :
    (field header offset length).length ≤ length := by
  rw [field, List.length_take]
  exact Nat.min_le_left _ _

variable {header bytes : Bytes}

/-- A field of up to twelve bytes is read exactly if it holds a number. -/
theorem tarOctal_ok {offset length value : Nat} (short : length ≤ 12) :
    tarOctal header offset length = .ok value ↔ LooseNumber (field header offset length) value := by
  have small := (length_field header offset length).trans short
  unfold tarOctal LooseNumber Numeral
  generalize field header offset length = bytes at small
  dsimp only
  have high : bytes.head?.any (128 ≤ ·) = true ↔ ¬ ∀ first ∈ bytes.head?, first < 128 := by
    cases bytes <;> simp
  constructor
  · intro read
    split at read
    · cases read
    · rename_i first
      split at read
      · cases read
      · rename_i digits
        split at read
        · cases read
        · cases read
          rw [high, not_not] at first
          simp only [not_or, Bool.not_eq_true, List.any_eq_false, decide_eq_true_eq,
            not_not] at digits
          obtain ⟨blanks, ends, shape⟩ := trimmed_iff.mp ⟨rfl, digits⟩
          exact ⟨first, blanks, _, ends, shape.1, shape.2.1, shape.2.2.1, shape.2.2.2.1,
            shape.2.2.2.2, rfl⟩
  · rintro ⟨first, blanks, digits, ends, shape, blank, some, octal, ending, rfl⟩
    obtain ⟨trimmed, -, -⟩ := trimmed_iff.mpr ⟨blanks, ends, shape, blank, some, octal, ending⟩
    have fits : octalValue digits < 8 ^ 12 := by
      refine (octalValue_lt octal).trans_le (Nat.pow_le_pow_right (by decide) ?_)
      have lengths := congrArg List.length shape
      simp only [ascii, List.length_map, List.length_append] at lengths
      omega
    rw [if_neg (by rw [high, not_not]; exact first), trimmed, if_neg, if_neg]
    · unfold maxSafeInteger
      omega
    · simp only [not_or, Bool.not_eq_true, List.any_eq_false, decide_eq_true_eq, not_not]
      exact ⟨some, octal⟩

/-- A strict number is a loose one in plain bytes. -/
theorem strictNumber_iff {value : Nat} :
    StrictNumber bytes value ↔ LooseNumber bytes value ∧ PlainField bytes := by
  have asciiOf : PlainField bytes → ascii bytes = bytes.map UInt8.toNat := by
    intro plain
    refine List.map_congr_left fun byte member => ?_
    exact Nat.mod_eq_of_lt (plain byte member).1
  constructor
  · rintro ⟨blanks, digits, ends, shape, blank, some, octal, ending, rfl⟩
    have plain : PlainField bytes := by
      intro byte member
      have inside : byte.toNat ∈ blanks ++ (digits ++ ends) :=
        shape ▸ List.mem_map.mpr ⟨byte, member, rfl⟩
      rcases List.mem_append.mp inside with before | inside
      · have := blank _ before
        omega
      · rcases List.mem_append.mp inside with digit | after
        · have := octal _ digit
          unfold OctalDigit at this
          omega
        · have := ending _ after
          unfold Ending at this
          omega
    refine ⟨⟨fun first head => ?_, blanks, digits, ends, ?_, ?_, some, octal, ending, rfl⟩, plain⟩
    · exact UInt8.lt_iff_toNat_lt.mpr (plain first (List.mem_of_head? head)).1
    · rw [asciiOf plain, shape]
    · exact fun code member => .inr (blank code member)
  · rintro ⟨⟨-, blanks, digits, ends, shape, blank, some, octal, ending, rfl⟩, plain⟩
    rw [asciiOf plain] at shape
    refine ⟨blanks, digits, ends, shape, fun code member => ?_, some, octal, ending, rfl⟩
    have inside : code ∈ bytes.map UInt8.toNat := shape ▸ List.mem_append_left _ member
    obtain ⟨byte, member', rfl⟩ := List.mem_map.mp inside
    exact (blank _ member).resolve_left (plain byte member').2

theorem exists_strict_iff :
    (∃ value, StrictNumber bytes value) ↔
      (∃ value, LooseNumber bytes value) ∧ PlainField bytes := by
  simp only [strictNumber_iff, exists_and_right]

/-- A field that may be left out. -/
def Optionally (number : Bytes → Nat → Prop) (bytes : Bytes) : Prop :=
  (∀ byte ∈ bytes, byte = 0) ∨ ∃ value, number bytes value

theorem tarOptionalOctal_ok {offset length : Nat} (short : length ≤ 12) :
    (∃ value, tarOptionalOctal header offset length = .ok value) ↔
      Optionally LooseNumber (field header offset length) := by
  unfold tarOptionalOctal Optionally
  by_cases zeros : (field header offset length).all (· = 0)
  · rw [if_pos zeros]
    exact ⟨fun _ => .inl (by simpa using zeros), fun _ => ⟨0, rfl⟩⟩
  · rw [if_neg zeros]
    constructor
    · rintro ⟨value, read⟩
      exact .inr ⟨value, (tarOctal_ok short).mp read⟩
    · rintro (absent | ⟨value, number⟩)
      · exact absurd (by simpa using absent) zeros
      · exact ⟨value, (tarOctal_ok short).mpr number⟩

theorem optionally_strict_iff :
    Optionally StrictNumber bytes ↔ Optionally LooseNumber bytes ∧ PlainField bytes := by
  constructor
  · rintro (absent | ⟨value, number⟩)
    · refine ⟨.inl absent, fun byte member => ?_⟩
      rw [absent byte member]
      decide
    · have loose := strictNumber_iff.mp number
      exact ⟨.inr ⟨value, loose.1⟩, loose.2⟩
  · rintro ⟨absent | ⟨value, number⟩, plain⟩
    · exact .inl absent
    · exact .inr ⟨value, strictNumber_iff.mpr ⟨number, plain⟩⟩

theorem LooseNumber.unique {offset length value value' : Nat} (short : length ≤ 12)
    (first : LooseNumber (field header offset length) value)
    (second : LooseNumber (field header offset length) value') :
    value = value' :=
  Except.ok.inj (((tarOctal_ok short).mpr first).symm.trans ((tarOctal_ok short).mpr second))

/-! ## Texts -/

/-- A printable text, and nothing but NULs after it. -/
def TextField (bytes : Bytes) (text : Codes) : Prop :=
  ∃ zeros, bytes.map UInt8.toNat = text ++ zeros ∧
    (∀ code ∈ text, 0x20 ≤ code ∧ code ≤ 0x7e) ∧ ∀ code ∈ zeros, code = 0

theorem tarString_ok {offset length : Nat} {text : Codes} :
    tarString header offset length = .ok text ↔ TextField (field header offset length) text := by
  unfold tarString TextField
  generalize field header offset length = bytes
  dsimp only
  have printable : ∀ (front : Bytes),
      ((front.any fun byte => decide (byte < 0x20 ∨ byte > 0x7e)) = true) ↔
        ¬ ∀ byte ∈ front, 0x20 ≤ byte.toNat ∧ byte.toNat ≤ 0x7e := by
    intro front
    simp only [List.any_eq_true, decide_eq_true_eq, not_forall, UInt8.lt_iff_toNat_lt,
      GT.gt, not_and_or, not_le, exists_prop]
    rfl
  constructor
  · intro read
    split at read
    · cases read
    · rename_i zeros
      split at read
      · cases read
      · rename_i shown
        rw [printable, not_not] at shown
        cases read
        refine ⟨(bytes.dropWhile (· ≠ 0)).map UInt8.toNat, ?_, ?_, ?_⟩
        · have same : ascii (bytes.takeWhile (· ≠ 0)) =
              (bytes.takeWhile (· ≠ 0)).map UInt8.toNat := by
            refine List.map_congr_left fun byte member => Nat.mod_eq_of_lt ?_
            have := (shown byte member).2
            omega
          rw [same, ← List.map_append, List.takeWhile_append_dropWhile]
        · intro code member
          obtain ⟨byte, inside, rfl⟩ := List.mem_map.mp member
          have := shown byte inside
          rw [Nat.mod_eq_of_lt (by omega)]
          exact this
        · intro code member
          obtain ⟨byte, inside, rfl⟩ := List.mem_map.mp member
          have zero : byte = 0 := by
            by_contra other
            exact zeros (List.any_eq_true.mpr ⟨byte, inside, by simpa using other⟩)
          rw [zero]
          rfl
  · rintro ⟨zeros, shape, shown, zero⟩
    obtain ⟨front, back, rfl, rfl, rfl⟩ := List.map_eq_append_iff.mp shape
    have frontShown : ∀ byte ∈ front, 0x20 ≤ byte.toNat ∧ byte.toNat ≤ 0x7e :=
      fun byte member => shown _ (List.mem_map.mpr ⟨byte, member, rfl⟩)
    have backZero : ∀ byte ∈ back, byte = 0 := fun byte member =>
      UInt8.toNat_inj.mp (zero _ (List.mem_map.mpr ⟨byte, member, rfl⟩))
    have frontSome : ∀ byte ∈ front, decide (byte ≠ 0) = true := by
      intro byte member
      refine decide_eq_true fun none => ?_
      have := (frontShown byte member).1
      rw [none] at this
      exact absurd this (by decide)
    have cut : (front ++ back).takeWhile (· ≠ 0) = front ∧
        (front ++ back).dropWhile (· ≠ 0) = back := by
      rw [List.takeWhile_append_of_pos frontSome, List.dropWhile_append_of_pos frontSome]
      cases back with
      | nil => exact ⟨List.append_nil _, rfl⟩
      | cons byte back =>
        have first := backZero byte List.mem_cons_self
        rw [List.takeWhile_cons_of_neg (by simp [first]),
          List.dropWhile_cons_of_neg (by simp [first])]
        exact ⟨List.append_nil _, rfl⟩
    rw [cut.1, cut.2, if_neg, if_neg]
    · refine congrArg Except.ok (List.map_congr_left fun byte member => ?_)
      have := (frontShown byte member).2
      exact Nat.mod_eq_of_lt (by omega)
    · rw [printable, not_not]
      exact frontShown
    · simpa using backZero

/-! ## Paths -/

/-- `./` as often as said. -/
def dots : Nat → Codes
  | 0 => []
  | count + 1 => dot :: slash :: dots count

/-- A relative path without backslashes of which no segment is empty, `.` or `..`. -/
def CleanPath (path : Codes) : Prop :=
  backslash ∉ path ∧
    ∀ segment ∈ path.splitOn slash, segment ≠ [] ∧ segment ≠ [dot] ∧ segment ≠ [dot, dot]

/-- The path of a member: the root for a directory, else a clean path after any number of
leading `./`; a directory may end with a slash. -/
def MemberPath (rawPath : Codes) (isDirectory : Bool) (path : Codes) : Prop :=
  isDirectory = true ∧ (rawPath = [dot] ∨ rawPath = [dot, slash]) ∧ path = [dot] ∨
    CleanPath path ∧ ∃ count, rawPath = dots count ++ path ∨
      isDirectory = true ∧ rawPath = dots count ++ (path ++ [slash])

namespace CleanPath

variable {path rest : Codes}

theorem ne_nil (clean : CleanPath path) : path ≠ [] := by
  rintro rfl
  exact (clean.2 [] (by simp [List.splitOn_nil])).1 rfl

theorem not_slash_first (clean : CleanPath path) : path ≠ slash :: rest := by
  rintro rfl
  have parts : (slash :: rest).splitOn slash = [] :: rest.splitOn slash := by
    have cut := List.splitOn_append_cons_self (a := slash) [] rest
    rwa [List.splitOn_nil, List.nil_append] at cut
  exact (clean.2 [] (by rw [parts]; exact List.mem_cons_self)).1 rfl

theorem not_slash_last (clean : CleanPath path) : path ≠ rest ++ [slash] := by
  rintro rfl
  have parts := List.splitOn_append_cons_self (a := slash) rest []
  rw [List.splitOn_nil] at parts
  exact (clean.2 [] (by rw [parts]; exact List.mem_append_right _ List.mem_cons_self)).1 rfl

theorem not_dot_first (clean : CleanPath path) : path ≠ dot :: slash :: rest := by
  rintro rfl
  have parts : (dot :: slash :: rest).splitOn slash = [dot] :: rest.splitOn slash := by
    have cut := List.splitOn_append_cons_self (a := slash) [dot] rest
    have single : [dot].splitOn slash = [[dot]] := List.splitOn_eq_singleton (by decide)
    rwa [single] at cut
  exact (clean.2 [dot] (by rw [parts]; exact List.mem_cons_self)).2.1 rfl

theorem ne_dot (clean : CleanPath path) : path ≠ [dot] := by
  rintro rfl
  refine (clean.2 [dot] ?_).2.1 rfl
  rw [List.splitOn_eq_singleton (by decide)]
  exact List.mem_cons_self

end CleanPath

theorem withoutDots_decompose (path : Codes) : ∃ count, path = dots count ++ withoutDots path := by
  fun_induction withoutDots path with
  | case1 first second rest both ih =>
    obtain ⟨count, same⟩ := ih
    refine ⟨count + 1, ?_⟩
    rw [dots, List.cons_append, List.cons_append, ← same, both.1, both.2]
  | case2 => exact ⟨0, rfl⟩
  | case3 => exact ⟨0, rfl⟩

theorem withoutDots_dots (count : Nat) (path : Codes) :
    withoutDots (dots count ++ path) = withoutDots path := by
  induction count with
  | zero => rfl
  | succ count ih =>
    rw [dots, List.cons_append, List.cons_append, withoutDots, if_pos ⟨rfl, rfl⟩, ih]

theorem withoutDots_of_not {path : Codes} (other : ∀ rest, path ≠ dot :: slash :: rest) :
    withoutDots path = path := by
  unfold withoutDots
  split
  · rename_i first second rest
    rw [if_neg fun both => other rest (by rw [both.1, both.2])]
  · rfl

theorem refused_iff (path : Codes) :
    (path = [] ∨ path.head? = some slash ∨ path.contains backslash = true ∨
        (path.splitOn slash).any (fun segment =>
          segment = [] ∨ segment = [dot] ∨ segment = [dot, dot]) = true) ↔ ¬ CleanPath path := by
  constructor
  · rintro (empty | first | inside | bad) clean
    · exact clean.ne_nil empty
    · obtain ⟨rest, same⟩ := List.head?_eq_some_iff.mp first
      exact clean.not_slash_first same
    · exact clean.1 (by simpa using inside)
    · obtain ⟨segment, member, shape⟩ := List.any_eq_true.mp bad
      have allowed := clean.2 segment member
      rcases of_decide_eq_true shape with shape | shape | shape
      · exact allowed.1 shape
      · exact allowed.2.1 shape
      · exact allowed.2.2 shape
  · intro unclean
    by_contra! none
    obtain ⟨-, -, outside, allowed⟩ := none
    refine unclean ⟨by simpa using outside, fun segment member => ?_⟩
    have held : ¬ (segment = [] ∨ segment = [dot] ∨ segment = [dot, dot]) := fun bad =>
      allowed (List.any_eq_true.mpr ⟨segment, member, decide_eq_true bad⟩)
    rw [not_or, not_or] at held
    exact held

variable {isDirectory : Bool}

/-- The path that is read, once the root has been set apart. -/
theorem dotless_iff {rawPath path : Codes} (clean : CleanPath path) :
    (if isDirectory = true ∧ (withoutDots rawPath).getLast? = some slash then
        (withoutDots rawPath).dropLast
      else withoutDots rawPath) = path ↔ ∃ count, rawPath = dots count ++ path ∨
        isDirectory = true ∧ rawPath = dots count ++ (path ++ [slash]) := by
  constructor
  · intro same
    obtain ⟨count, shape⟩ := withoutDots_decompose rawPath
    refine ⟨count, ?_⟩
    split at same
    · rename_i closed
      obtain ⟨front, ends⟩ := List.getLast?_eq_some_iff.mp closed.2
      rw [ends, List.dropLast_concat] at same
      subst same
      exact .inr ⟨closed.1, ends ▸ shape⟩
    · exact .inl (same ▸ shape)
  · rintro ⟨count, rfl | ⟨directory, rfl⟩⟩
    · rw [withoutDots_dots, withoutDots_of_not fun rest => clean.not_dot_first, if_neg]
      rintro ⟨-, last⟩
      obtain ⟨front, ends⟩ := List.getLast?_eq_some_iff.mp last
      exact clean.not_slash_last ends
    · have stays : withoutDots (path ++ [slash]) = path ++ [slash] := by
        refine withoutDots_of_not fun rest same => ?_
        rcases List.append_eq_cons_iff.mp same with ⟨empty, -⟩ | ⟨tail, shape, ends⟩
        · exact clean.ne_nil empty
        · rcases tail with _ | ⟨unit, tail⟩
          · exact clean.ne_dot shape
          · cases ends
            exact clean.not_dot_first shape
      rw [withoutDots_dots, stays, if_pos ⟨directory, List.getLast?_concat⟩, List.dropLast_concat]

theorem CleanPath.raw_ne_root {rawPath path : Codes} {count : Nat} (clean : CleanPath path)
    (shape : rawPath = dots count ++ path ∨ rawPath = dots count ++ (path ++ [slash])) :
    rawPath ≠ [dot] ∧ rawPath ≠ [dot, slash] := by
  have size : 0 < path.length := List.length_pos_iff.mpr clean.ne_nil
  rcases shape with rfl | rfl
  · cases count with
    | zero => exact ⟨clean.ne_dot, clean.not_dot_first⟩
    | succ count =>
      rw [dots, List.cons_append, List.cons_append]
      constructor
      · exact fun same => by cases same
      · intro same
        have lengths := congrArg List.length same
        simp only [List.length_cons, List.length_append, List.length_nil] at lengths
        omega
  · cases count with
    | zero =>
      rw [dots, List.nil_append]
      constructor
      · intro same
        have lengths := congrArg List.length same
        simp only [List.length_cons, List.length_append, List.length_nil] at lengths
        omega
      · intro same
        have front := congrArg List.dropLast same
        rw [List.dropLast_concat] at front
        exact clean.ne_dot front
    | succ count =>
      rw [dots, List.cons_append, List.cons_append]
      constructor
      · exact fun same => by cases same
      · intro same
        have lengths := congrArg List.length same
        simp only [List.length_cons, List.length_append, List.length_nil] at lengths
        omega

theorem memberPath_ok {rawPath path : Codes} :
    normalizedArchiveMemberPath rawPath isDirectory = .ok path ↔
      MemberPath rawPath isDirectory path := by
  unfold normalizedArchiveMemberPath MemberPath
  constructor
  · intro read
    split at read
    · rename_i root
      split at read
      · rename_i directory
        cases read
        exact .inl ⟨directory, root, rfl⟩
      · cases read
    · dsimp only at read
      generalize taken : (if isDirectory = true ∧
          (withoutDots rawPath).getLast? = some slash then (withoutDots rawPath).dropLast
        else withoutDots rawPath) = shown at read
      split at read
      · cases read
      · rename_i allowed
        rw [refused_iff, not_not] at allowed
        cases read
        exact .inr ⟨allowed, (dotless_iff allowed).mp taken⟩
  · rintro (⟨directory, root, rfl⟩ | ⟨clean, count, shape⟩)
    · rw [if_pos root, if_pos directory]
    · have apart := clean.raw_ne_root (shape.imp_right And.right)
      have same := (dotless_iff clean).mpr ⟨count, shape⟩
      rw [if_neg (not_or.mpr apart)]
      dsimp only
      rw [same, if_neg (by rw [refused_iff, not_not]; exact clean)]

end Release
end Scrum4Me
