import Scrum4Me.Foundation.CodeUnits

/-!
# Bytes read as text

UTF-8 decoded with replacement: what starts as a character and does not go on as one gives
the replacement character, and the byte where it breaks off is read anew. Bytes below 128
stand for themselves wherever they are.
-/

namespace Scrum4Me
namespace Foundation

namespace Utf8

/-- Where the decoder stands: between characters, or in one of which so many bytes are owed.
The next byte lies between the bounds. -/
structure State where
  owed : Nat
  point : Nat
  lower : Nat
  upper : Nat
  deriving DecidableEq

def between : State := ⟨0, 0, 128, 191⟩

/-- The code units of a character. -/
def unitsOf (point : Nat) : Text :=
  if point < 65536 then [point]
  else [55296 + (point - 65536) / 1024, 56320 + (point - 65536) % 1024]

def replacement : Nat := 65533

/-- The first byte of a character: what it gives, and where the decoder stands then. -/
def opening (byte : Nat) : Text × State :=
  if byte < 128 then ([byte], between)
  else if 194 ≤ byte ∧ byte ≤ 223 then ([], ⟨1, byte - 192, 128, 191⟩)
  else if 224 ≤ byte ∧ byte ≤ 239 then
    ([], ⟨2, byte - 224, if byte = 224 then 160 else 128, if byte = 237 then 159 else 191⟩)
  else if 240 ≤ byte ∧ byte ≤ 244 then
    ([], ⟨3, byte - 240, if byte = 240 then 144 else 128, if byte = 244 then 143 else 191⟩)
  else ([replacement], between)

/-- What is given for a character that breaks off. -/
def brokenOff (state : State) : Text := if state.owed = 0 then [] else [replacement]

def advance (state : State) (byte : Nat) : Text × State :=
  if 0 < state.owed ∧ state.lower ≤ byte ∧ byte ≤ state.upper then
    let point := 64 * state.point + (byte - 128)
    if state.owed = 1 then (unitsOf point, between) else ([], ⟨state.owed - 1, point, 128, 191⟩)
  else (brokenOff state ++ (opening byte).1, (opening byte).2)

def decodeFrom (state : State) : List Nat → Text
  | [] => brokenOff state
  | byte :: rest => (advance state byte).1 ++ decodeFrom (advance state byte).2 rest

/-- `readFile(path, 'utf8')`: the text of these bytes. -/
def decode (bytes : List Nat) : Text := decodeFrom between bytes

/-! ## Bytes that stand for themselves -/

/-- A character that the decoder is in is none below 128. -/
structure State.Sound (state : State) : Prop where
  lower : 128 ≤ state.lower
  one : state.owed = 1 → 2 ≤ state.point
  two : state.owed = 2 → 1 ≤ state.point ∨ 160 ≤ state.lower
  three : state.owed = 3 → 1 ≤ state.point ∨ 144 ≤ state.lower
  most : state.owed ≤ 3

theorem sound_between : between.Sound := by
  constructor <;> decide

theorem sound_opening (byte : Nat) : (opening byte).2.Sound := by
  unfold opening
  split
  · exact sound_between
  · split
    · constructor <;> simp
      omega
    · split
      · constructor <;> simp <;> split <;> omega
      · split
        · constructor <;> simp <;> split <;> omega
        · exact sound_between

variable {state : State}

theorem sound_advance (sound : state.Sound) (byte : Nat) : (advance state byte).2.Sound := by
  unfold advance
  split
  · rename_i inside
    dsimp only
    split
    · exact sound_between
    · rename_i more
      have most := sound.most
      constructor
      · exact Nat.le_refl 128
      · intro one
        have := sound.two (by simp at one; omega)
        simp
        omega
      · intro two
        have := sound.three (by simp at two; omega)
        simp
        omega
      · intro three
        simp at three
        omega
      · simp
        omega
  · exact sound_opening byte

theorem le_unitsOf {point : Nat} (high : 128 ≤ point) : ∀ unit ∈ unitsOf point, 128 ≤ unit := by
  intro unit member
  unfold unitsOf at member
  split at member
  · rw [List.mem_singleton.mp member]
    exact high
  · simp only [List.mem_cons, List.not_mem_nil, or_false] at member
    omega

variable {byte : Nat}

/-- A byte below 128 ends what came before, and stands for itself. -/
theorem advance_ascii (sound : state.Sound) (ascii : byte < 128) :
    advance state byte = (brokenOff state ++ [byte], between) := by
  have outside : ¬ (0 < state.owed ∧ state.lower ≤ byte ∧ byte ≤ state.upper) := by
    have := sound.lower
    omega
  have plain : opening byte = ([byte], between) := if_pos ascii
  rw [advance, if_neg outside, plain]

theorem le_replacement : 128 ≤ replacement := Nat.le_of_ble_eq_true rfl

theorem le_brokenOff (state : State) : ∀ unit ∈ brokenOff state, 128 ≤ unit := by
  intro unit member
  unfold brokenOff at member
  split at member
  · exact absurd member List.not_mem_nil
  · rw [List.mem_singleton.mp member]
    exact le_replacement

/-- Any other byte gives no unit below 128. -/
theorem le_advance (sound : state.Sound) (high : 128 ≤ byte) :
    ∀ unit ∈ (advance state byte).1, 128 ≤ unit := by
  intro unit member
  unfold advance at member
  split at member
  · rename_i inside
    dsimp only at member
    split at member
    · rename_i one
      have := sound.one one
      dsimp only at member
      exact le_unitsOf (by omega) unit member
    · exact absurd member List.not_mem_nil
  · rcases List.mem_append.mp member with member | member
    · exact le_brokenOff state unit member
    · unfold opening at member
      rw [if_neg (by omega)] at member
      split at member
      · exact absurd member List.not_mem_nil
      · split at member
        · exact absurd member List.not_mem_nil
        · split at member
          · exact absurd member List.not_mem_nil
          · rw [List.mem_singleton.mp member]
            exact le_replacement

theorem decodeFrom_append_ascii (sound : state.Sound) (front : List Nat)
    (ascii : byte < 128) (rest : List Nat) :
    decodeFrom state (front ++ byte :: rest) = decodeFrom state front ++ byte :: decode rest := by
  induction front generalizing state with
  | nil =>
    have passed := advance_ascii sound ascii
    rw [List.nil_append, decodeFrom, decodeFrom, passed, List.append_assoc]
    rfl
  | cons first front ih =>
    rw [List.cons_append, decodeFrom, decodeFrom, ih (sound_advance sound first), List.append_assoc]

theorem decodeFrom_cons_ascii (sound : state.Sound) (ascii : byte < 128) (rest : List Nat) :
    decodeFrom state (byte :: rest) = brokenOff state ++ byte :: decode rest :=
  decodeFrom_append_ascii sound [] ascii rest

/-- The text is cut at each byte below 128. -/
theorem decode_append_ascii (front : List Nat) (ascii : byte < 128) (rest : List Nat) :
    decode (front ++ byte :: rest) = decode front ++ byte :: decode rest :=
  decodeFrom_append_ascii sound_between front ascii rest

@[simp] theorem decode_nil : decode [] = [] := rfl

theorem decode_cons_ascii (ascii : byte < 128) (rest : List Nat) :
    decode (byte :: rest) = byte :: decode rest :=
  decode_append_ascii [] ascii rest

variable {bytes : List Nat}

variable {unit : Nat}

/-- What is below 128 in the text is a byte. -/
theorem mem_of_mem_decodeFrom (sound : state.Sound)
    (ascii : unit < 128) (member : unit ∈ decodeFrom state bytes) :
    unit ∈ bytes := by
  have broken : ∀ state : State, unit ∉ brokenOff state := by
    intro state member
    have := le_brokenOff state unit member
    omega
  induction bytes generalizing state with
  | nil => exact absurd member (broken state)
  | cons byte rest ih =>
    rw [decodeFrom] at member
    rcases List.mem_append.mp member with member | member
    · by_cases low : byte < 128
      · rw [advance_ascii sound low] at member
        rcases List.mem_append.mp member with member | member
        · exact absurd member (broken state)
        · rw [List.mem_singleton.mp member]
          exact List.mem_cons_self
      · have := le_advance sound (Nat.not_lt.mp low) unit member
        omega
    · exact List.mem_cons_of_mem _ (ih (sound_advance sound byte) member)

theorem mem_of_mem_decode (ascii : unit < 128) (member : unit ∈ decode bytes) : unit ∈ bytes :=
  mem_of_mem_decodeFrom sound_between ascii member

theorem mem_decode (ascii : byte < 128) (member : byte ∈ bytes) : byte ∈ decode bytes := by
  obtain ⟨front, rest, rfl⟩ := List.append_of_mem member
  rw [decode_append_ascii front ascii]
  exact List.mem_append_right _ List.mem_cons_self

theorem unitsOf_ne_nil (point : Nat) : unitsOf point ≠ [] := by
  unfold unitsOf
  split <;> exact List.cons_ne_nil _ _

/-- A byte that gives nothing leaves the decoder in a character. -/
theorem owed_of_silent (silent : (advance state byte).1 = []) :
    (advance state byte).2.owed ≠ 0 := by
  unfold advance at silent ⊢
  split
  · rename_i inside
    rw [if_pos inside] at silent
    dsimp only at silent ⊢
    split
    · rename_i one
      rw [if_pos one] at silent
      dsimp only at silent
      exact absurd silent (unitsOf_ne_nil _)
    · dsimp only
      omega
  · rename_i outside
    rw [if_neg outside] at silent
    have opened := (List.append_eq_nil_iff.mp silent).2
    unfold opening at opened ⊢
    split
    · rename_i low
      rw [if_pos low] at opened
      exact absurd opened (List.cons_ne_nil _ _)
    · rename_i high
      rw [if_neg high] at opened
      split
      · exact Nat.one_ne_zero
      · rename_i two
        rw [if_neg two] at opened
        split
        · exact Nat.succ_ne_zero 1
        · rename_i three
          rw [if_neg three] at opened
          split
          · exact Nat.succ_ne_zero 2
          · rename_i four
            rw [if_neg four] at opened
            exact absurd opened (List.cons_ne_nil _ _)

/-- Only what has no bytes left and owes none gives nothing. -/
theorem decodeFrom_eq_nil (silent : decodeFrom state bytes = []) : state.owed = 0 ∧ bytes = [] := by
  induction bytes generalizing state with
  | nil =>
    refine ⟨?_, rfl⟩
    by_contra owing
    rw [decodeFrom, brokenOff, if_neg owing] at silent
    exact List.cons_ne_nil _ _ silent
  | cons byte rest ih =>
    rw [decodeFrom] at silent
    obtain ⟨first, later⟩ := List.append_eq_nil_iff.mp silent
    exact absurd (ih later).1 (owed_of_silent first)

/-- A text that starts below 128 starts with that byte. -/
theorem decode_eq_cons {text : Text} (ascii : unit < 128) (decoded : decode bytes = unit :: text) :
    ∃ rest, bytes = unit :: rest ∧ decode rest = text := by
  have occurs : unit ∈ bytes := mem_of_mem_decode ascii (by rw [decoded]; exact List.mem_cons_self)
  obtain ⟨front, rest, rfl, absent⟩ := List.eq_append_cons_of_mem occurs
  rw [decode_append_ascii front ascii] at decoded
  cases shown : decode front with
  | nil =>
    rw [shown] at decoded
    rw [(decodeFrom_eq_nil shown).2]
    exact ⟨rest, rfl, (List.cons.inj decoded).2⟩
  | cons first others =>
    rw [shown] at decoded
    have same : first = unit := (List.cons.inj decoded).1
    have early : unit ∈ front :=
      mem_of_mem_decode ascii (by rw [shown, same]; exact List.mem_cons_self)
    exact absurd early absent

/-- A text that starts with units below 128 starts with these bytes. -/
theorem decode_eq_append {front text : Text}
    (ascii : ∀ unit ∈ front, unit < 128) (decoded : decode bytes = front ++ text) :
    ∃ rest, bytes = front ++ rest ∧ decode rest = text := by
  induction front generalizing bytes with
  | nil => exact ⟨bytes, rfl, decoded⟩
  | cons unit front ih =>
    obtain ⟨middle, begins, later⟩ := decode_eq_cons (ascii unit List.mem_cons_self) decoded
    obtain ⟨rest, goesOn, ends⟩ := ih
      (fun other member => ascii other (List.mem_cons_of_mem _ member)) later
    refine ⟨rest, ?_, ends⟩
    rw [begins, goesOn, List.cons_append]

theorem decode_append {front : List Nat} (ascii : ∀ byte ∈ front, byte < 128) (rest : List Nat) :
    decode (front ++ rest) = front ++ decode rest := by
  induction front with
  | nil => rfl
  | cons byte front ih =>
    rw [List.cons_append, decode_cons_ascii (ascii byte List.mem_cons_self),
      ih fun other member => ascii other (List.mem_cons_of_mem _ member)]
    rfl

/-- Where a unit below 128 stands in the text for the first time, it stands in the bytes. -/
theorem decode_split {text later : Text} (ascii : unit < 128)
    (first : unit ∉ text) (decoded : decode bytes = text ++ unit :: later) :
    ∃ front back, bytes = front ++ unit :: back ∧ decode front = text ∧ decode back = later := by
  have occurs : unit ∈ bytes :=
    mem_of_mem_decode ascii (by rw [decoded]; exact List.mem_append_right _ List.mem_cons_self)
  obtain ⟨front, back, rfl, absent⟩ := List.eq_append_cons_of_mem occurs
  have early : unit ∉ decode front := fun member => absent (mem_of_mem_decode ascii member)
  rw [decode_append_ascii front ascii] at decoded
  refine ⟨front, back, rfl, ?_⟩
  rcases List.append_eq_append_iff.mp decoded with ⟨gap, longer, rest⟩ | ⟨gap, longer, rest⟩
  · cases gap with
    | nil =>
      rw [List.append_nil] at longer
      exact ⟨longer.symm, (List.cons.inj rest).2⟩
    | cons other gap =>
      have same : unit = other := (List.cons.inj rest).1
      exact absurd (by rw [longer, same]; simp) first
  · cases gap with
    | nil =>
      rw [List.append_nil] at longer
      exact ⟨longer, (List.cons.inj rest).2.symm⟩
    | cons other gap =>
      have same : unit = other := (List.cons.inj rest).1
      exact absurd (by rw [longer, same]; simp) early

end Utf8

end Foundation
end Scrum4Me
