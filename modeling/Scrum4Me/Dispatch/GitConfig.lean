import Scrum4Me.Foundation.Patterns

/-!
# Git's reading of a configuration

The bytes of a `config` file as Git reads them, one after the other: headers, variables with
their values, comments. What a variable is called is kept; its value is not.
-/

namespace Scrum4Me
namespace Dispatch
namespace GitConfig

open Foundation

def lineFeed : Nat := 10

def carriageReturn : Nat := 13

/-- A carriage return before a line feed is not there. -/
def dropReturns : List Nat → List Nat
  | [] => []
  | byte :: rest =>
      if byte = carriageReturn ∧ rest.head? = some lineFeed then dropReturns rest
      else byte :: dropReturns rest

/-- A space, a tab or a carriage return. -/
def Blank (byte : Nat) : Prop := byte = 32 ∨ byte = 9 ∨ byte = carriageReturn

instance : DecidablePred Blank := fun _ => inferInstanceAs (Decidable (_ ∨ _))

/-- `[a-zA-Z]`. -/
def Letter (byte : Nat) : Prop := 65 ≤ byte ∧ byte ≤ 90 ∨ 97 ≤ byte ∧ byte ≤ 122

instance : DecidablePred Letter := fun _ => inferInstanceAs (Decidable (_ ∨ _))

def Digit (byte : Nat) : Prop := 48 ≤ byte ∧ byte ≤ 57

instance : DecidablePred Digit := fun _ => inferInstanceAs (Decidable (_ ∧ _))

/-- What may follow the letter that a variable starts with. -/
def KeyByte (byte : Nat) : Prop := Letter byte ∨ Digit byte ∨ byte = 45

instance : DecidablePred KeyByte := fun _ => inferInstanceAs (Decidable (_ ∨ _))

/-- `#` or `;`. -/
def OpensComment (byte : Nat) : Prop := byte = 35 ∨ byte = 59

instance : DecidablePred OpensComment := fun _ => inferInstanceAs (Decidable (_ ∨ _))

/-- What a backslash may stand before in a value. -/
def Escaped (byte : Nat) : Prop :=
  byte = lineFeed ∨ byte = 116 ∨ byte = 98 ∨ byte = 110 ∨ byte = 92 ∨ byte = 34

instance : DecidablePred Escaped := fun _ => inferInstanceAs (Decidable (_ ∨ _))

/-- A section, as its header names it. -/
structure Header where
  name : Text
  subsection : Option Text
  deriving DecidableEq

structure Variable where
  header : Header
  name : Text
  deriving DecidableEq

inductive Mode
  /-- At the start of a line, and after a header. -/
  | start
  | comment
  | sectionName (name : Text)
  | sectionSpace (name : Text)
  | subsection (name sub : Text)
  | subsectionEscape (name sub : Text)
  | closing (name sub : Text)
  | key (name : Text)
  | afterKey (name : Text)
  | value (name : Text) (quoted : Bool)
  | escape (name : Text) (quoted : Bool)
  | valueComment (name : Text)
  deriving DecidableEq

structure Reading where
  header : Header
  mode : Mode
  /-- The variables read so far. -/
  given : List Variable

namespace Reading

def turned (reading : Reading) (mode : Mode) : Reading := { reading with mode := mode }

/-- A variable is complete. -/
def give (reading : Reading) (name : Text) : Reading :=
  { reading with mode := .start, given := reading.given ++ [⟨reading.header, name⟩] }

def enter (reading : Reading) (header : Header) : Reading :=
  { reading with mode := .start, header := header }

/-- The next byte; no answer is an error. -/
def step (reading : Reading) (byte : Nat) : Option Reading :=
  match reading.mode with
  | .start =>
      if byte = lineFeed ∨ Blank byte then some reading
      else if OpensComment byte then some (reading.turned .comment)
      else if byte = 91 then some (reading.turned (.sectionName []))
      else if Letter byte then some (reading.turned (.key [Pattern.lower byte]))
      else none
  | .comment => some (if byte = lineFeed then reading.turned .start else reading)
  | .sectionName name =>
      if byte = 93 then some (reading.enter ⟨name, none⟩)
      else if Blank byte then some (reading.turned (.sectionSpace name))
      else if KeyByte byte ∨ byte = 46 then
        some (reading.turned (.sectionName (name ++ [Pattern.lower byte])))
      else none
  | .sectionSpace name =>
      if Blank byte then some reading
      else if byte = 34 then some (reading.turned (.subsection name []))
      else none
  | .subsection name sub =>
      if byte = lineFeed then none
      else if byte = 34 then some (reading.turned (.closing name sub))
      else if byte = 92 then some (reading.turned (.subsectionEscape name sub))
      else some (reading.turned (.subsection name (sub ++ [byte])))
  | .subsectionEscape name sub =>
      if byte = lineFeed then none
      else some (reading.turned (.subsection name (sub ++ [byte])))
  | .closing name sub =>
      if byte = 93 then some (reading.enter ⟨name, some sub⟩) else none
  | .key name =>
      if KeyByte byte then some (reading.turned (.key (name ++ [Pattern.lower byte])))
      else if byte = lineFeed then some (reading.give name)
      else if Blank byte then some (reading.turned (.afterKey name))
      else if byte = 61 then some (reading.turned (.value name false))
      else if OpensComment byte then some (reading.turned (.valueComment name))
      else none
  | .afterKey name =>
      if byte = lineFeed then some (reading.give name)
      else if Blank byte then some reading
      else if byte = 61 then some (reading.turned (.value name false))
      else if OpensComment byte then some (reading.turned (.valueComment name))
      else none
  | .value name quoted =>
      if byte = lineFeed then if quoted then none else some (reading.give name)
      else if byte = 92 then some (reading.turned (.escape name quoted))
      else if byte = 34 then some (reading.turned (.value name (!quoted)))
      else if OpensComment byte ∧ quoted = false then some (reading.turned (.valueComment name))
      else some reading
  | .escape name quoted =>
      if Escaped byte then some (reading.turned (.value name quoted)) else none
  | .valueComment name =>
      if byte = lineFeed then some (reading.give name) else some reading

def run (reading : Reading) : List Nat → Option Reading
  | [] => some reading
  | byte :: rest => (reading.step byte).bind fun later => later.run rest

@[simp] theorem run_nil (reading : Reading) : reading.run [] = some reading := rfl

theorem run_cons (reading : Reading) (byte : Nat) (rest : List Nat) :
    reading.run (byte :: rest) = (reading.step byte).bind fun later => later.run rest := rfl

theorem run_append (reading : Reading) (front back : List Nat) :
    reading.run (front ++ back) = (reading.run front).bind fun later => later.run back := by
  induction front generalizing reading with
  | nil => rfl
  | cons byte front ih =>
    rw [List.cons_append, run_cons, run_cons, Option.bind_assoc]
    congr
    funext later
    exact ih later

/-- Reading two parts succeeds through what the first one leaves. -/
theorem run_append_eq_some {reading last : Reading} {front back : List Nat} :
    reading.run (front ++ back) = some last ↔
      ∃ later, reading.run front = some later ∧ later.run back = some last := by
  rw [run_append, Option.bind_eq_some_iff]

theorem run_cons_eq_some {reading last : Reading} {byte : Nat} {rest : List Nat} :
    reading.run (byte :: rest) = some last ↔
      ∃ later, reading.step byte = some later ∧ later.run rest = some last := by
  rw [run_cons, Option.bind_eq_some_iff]

/-- What each byte keeps, all of them keep. -/
theorem run_keeps (holds : Reading → Prop) {bytes : List Nat} {reading last : Reading}
    (each : ∀ byte ∈ bytes, ∀ before after, holds before →
      before.step byte = some after → holds after)
    (start : holds reading) (read : reading.run bytes = some last) :
    holds last := by
  induction bytes generalizing reading with
  | nil =>
    cases read
    exact start
  | cons byte rest ih =>
    obtain ⟨later, stepped, followed⟩ := run_cons_eq_some.mp read
    apply ih _ (each byte List.mem_cons_self reading later start stepped) followed
    intro other member
    exact each other (List.mem_cons_of_mem _ member)

def initial : Reading := ⟨⟨[], none⟩, .start, []⟩

end Reading

/-- The variables Git reads from these bytes. The end of the file ends the last line, and the
value that a backslash there would carry on. -/
def gitVariables (bytes : List Nat) : Option (List Variable) :=
  (Reading.initial.run (dropReturns bytes ++ [lineFeed, lineFeed])).map Reading.given

end GitConfig
end Dispatch
end Scrum4Me
