import Mathlib.Logic.Basic

/-!
# Three-valued conditions

A condition of a query holds, fails or is unknown, and a query selects the rows
for which it holds. A column that may be null is an `Option`: comparing with
null is unknown, and only `isNull` tells it apart. The lemmas say when each
operator holds, so that a condition can be read as an ordinary proposition.
-/

namespace Scrum4Me
namespace Foundation

/-- The value of a condition. -/
inductive Truth
  | fails | unknown | holds
  deriving DecidableEq

namespace Truth

/-- A condition that is never unknown. -/
def of (condition : Prop) [Decidable condition] : Truth :=
  if condition then .holds else .fails

def and : Truth → Truth → Truth
  | .holds, second => second
  | .fails, _ => .fails
  | .unknown, .fails => .fails
  | .unknown, _ => .unknown

def or : Truth → Truth → Truth
  | .holds, _ => .holds
  | .fails, second => second
  | .unknown, .holds => .holds
  | .unknown, _ => .unknown

def not : Truth → Truth
  | .holds => .fails
  | .fails => .holds
  | .unknown => .unknown

/-- Lift a comparison of values to columns that may be null. -/
def compare (relation : α → β → Prop) [∀ first second, Decidable (relation first second)] :
    Option α → Option β → Truth
  | some first, some second => of (relation first second)
  | _, _ => .unknown

def isNull (column : Option α) : Truth := of (column = none)

/-- `column = ANY(values)`, also written `column IN values`. -/
def within [DecidableEq α] (column : Option α) (values : List α) : Truth :=
  match column with
  | some value => of (value ∈ values)
  | none => if values = [] then .fails else .unknown

/-- `EXISTS (SELECT 1 FROM rows WHERE condition)`. -/
def someRow (rows : List ρ) (condition : ρ → Truth) : Truth :=
  of (∃ row ∈ rows, condition row = .holds)

/-- Conditions joined by `AND`. -/
def all : List Truth → Truth
  | [] => .holds
  | first :: rest => first.and (all rest)

/-- Conditions joined by `OR`. -/
def any : List Truth → Truth
  | [] => .fails
  | first :: rest => first.or (any rest)

variable {p q : Truth} {condition : Prop} [Decidable condition]

@[simp] theorem of_holds : of condition = .holds ↔ condition := by
  unfold of
  split <;> simp_all

@[simp] theorem of_fails : of condition = .fails ↔ ¬ condition := by
  unfold of
  split <;> simp_all

@[simp] theorem and_holds : p.and q = .holds ↔ p = .holds ∧ q = .holds := by
  cases p <;> cases q <;> simp [and]

@[simp] theorem or_holds : p.or q = .holds ↔ p = .holds ∨ q = .holds := by
  cases p <;> cases q <;> simp [or]

@[simp] theorem not_holds : p.not = .holds ↔ p = .fails := by
  cases p <;> simp [not]

@[simp] theorem all_nil : all [] = .holds := rfl

@[simp] theorem all_cons (first : Truth) (rest : List Truth) :
    all (first :: rest) = first.and (all rest) := rfl

@[simp] theorem any_nil : any [] = .fails := rfl

@[simp] theorem any_cons (first : Truth) (rest : List Truth) :
    any (first :: rest) = first.or (any rest) := rfl

theorem all_holds {conditions : List Truth} :
    all conditions = .holds ↔ ∀ p ∈ conditions, p = .holds := by
  induction conditions with
  | nil => simp
  | cons first rest ih => simp [ih]

theorem all_append_holds {conditions others : List Truth} :
    all (conditions ++ others) = .holds ↔ all conditions = .holds ∧ all others = .holds := by
  simp only [all_holds, List.forall_mem_append]

/-- A comparison holds only between values. -/
@[simp] theorem compare_holds {relation : α → β → Prop}
    [∀ first second, Decidable (relation first second)] {first : Option α} {second : Option β} :
    compare relation first second = .holds ↔ ∃ x ∈ first, ∃ y ∈ second, relation x y := by
  cases first <;> cases second <;> simp [compare]

variable {column : Option α} {rows : List ρ}

@[simp] theorem isNull_holds : isNull column = .holds ↔ column = none := by
  unfold isNull of
  split <;> simp_all

@[simp] theorem isNull_fails : isNull column = .fails ↔ column ≠ none := by
  unfold isNull of
  split <;> simp_all

@[simp] theorem within_holds [DecidableEq α] {values : List α} :
    within column values = .holds ↔ ∃ value ∈ column, value ∈ values := by
  cases column with
  | none => by_cases empty : values = [] <;> simp [within, empty]
  | some value => simp [within]

@[simp] theorem someRow_holds {condition : ρ → Truth} :
    someRow rows condition = .holds ↔ ∃ row ∈ rows, condition row = .holds :=
  of_holds

@[simp] theorem someRow_fails {condition : ρ → Truth} :
    someRow rows condition = .fails ↔ ∀ row ∈ rows, condition row ≠ .holds := by
  rw [someRow, of_fails, not_exists]
  exact forall_congr' fun row => not_and

end Truth

end Foundation
end Scrum4Me
