import Scrum4Me.Jobs.Machine

/-!
# Reports of cost

A job of the harness reports what it cost together with its final status. The
amount is a text in plain decimal notation; it is rounded up to millionths, so
what is stored is never less than what was reported.
-/

namespace Scrum4Me
namespace Chats

open Foundation Jobs

/-! ## Amounts -/

/-- `PLAIN_DECIMAL`: digits, and possibly a point and digits. -/
def plainDecimal (value : List Char) : Bool :=
  let integer := value.takeWhile (· ≠ '.')
  let rest := value.dropWhile (· ≠ '.')
  !integer.isEmpty && integer.all Char.isDigit &&
    (rest.isEmpty || !(rest.drop 1).isEmpty && (rest.drop 1).all Char.isDigit)

/-- The number that a row of digits denotes. -/
def digitsValue (digits : List Char) : Nat :=
  digits.foldl (fun value digit => 10 * value + (digit.toNat - '0'.toNat)) 0

/-- `SCALE`. -/
def scale : Nat := 6

/-- `padEnd(SCALE, '0')`. -/
def padEnd (digits : List Char) : List Char :=
  digits ++ List.replicate (scale - digits.length) '0'

/-- `padStart(SCALE + 1, '0')`. -/
def padStart (digits : List Char) : List Char :=
  List.replicate (scale + 1 - digits.length) '0' ++ digits

/-- The reported amount in millionths, any rest counted as one more. -/
def micros (value : List Char) : Nat :=
  let integer := value.takeWhile (· ≠ '.')
  let fraction := (value.dropWhile (· ≠ '.')).drop 1
  let whole := digitsValue (integer ++ padEnd (fraction.take scale))
  if (fraction.drop scale).any (· ≠ '0') then whole + 1 else whole

/-- `parseReportedCostUsd`. -/
def parseReportedCostUsd (value : String) : Option String :=
  let chars := value.toList
  if 64 < chars.length then none
  else if plainDecimal chars = false then none
  else
    let digits := padStart (Nat.toDigits 10 (micros chars))
    let whole := digits.take (digits.length - scale)
    if 6 < whole.length then none
    else
      let decimals := ((digits.drop (digits.length - scale)).reverse.dropWhile (· = '0')).reverse
      if decimals.isEmpty then some (String.ofList whole)
      else some (String.ofList (whole ++ '.' :: decimals))

example : parseReportedCostUsd "0.00031200000000000005" = some "0.000313" := by
  decide +kernel

/-! ## Reports -/

/-- `HarnessCostSource`. -/
inductive CostSource
  | providerReported | litellmComputed | localRun | none
  deriving DecidableEq

/-- The `cost` of `update_job_status`. -/
structure CostReportInput where
  reportedCostUsd : Option String
  costSource : CostSource
  provider : Option String
  deriving DecidableEq

/-- `CostReportRow`. -/
structure CostReport where
  reportedCostUsd : Option String
  costSource : CostSource
  provider : Option String
  configuration : String
  deriving DecidableEq

/-- The amount that goes with the source of a report. -/
def CostReportInput.Valid (cost : CostReportInput) : Prop :=
  match cost.costSource with
  | .none => cost.reportedCostUsd = none
  | .localRun => cost.reportedCostUsd.bind parseReportedCostUsd = some "0"
  | .providerReported | .litellmComputed =>
      cost.reportedCostUsd.bind parseReportedCostUsd ≠ none

instance (cost : CostReportInput) : Decidable cost.Valid := by
  unfold CostReportInput.Valid
  cases cost.costSource <;> infer_instance

/-- `checkCostReport`. Which kinds run on the harness is decided by the shared
configuration. -/
def checkCostReport
    (isHarnessJobKind : JobKind → Bool) (job : JobRow) (requestedModel : Option String)
    (status : ReportStatus) (cost : CostReportInput) :
    Except String CostReport := do
  ensure (job.runtime = .harness ∧ (isHarnessJobKind job.kind = true ∨ job.kind = .agentChat) ∧
      status ≠ .running)
    "VALIDATION_ERROR: COST_REPORT_NOT_ALLOWED"
  ensure (¬ Falsy requestedModel) "VALIDATION_ERROR: COST_REPORT_INVALID"
  ensure cost.Valid "VALIDATION_ERROR: COST_REPORT_INVALID"
  return {
    reportedCostUsd := cost.reportedCostUsd.bind parseReportedCostUsd
    costSource := cost.costSource
    provider := cost.provider
    configuration := requestedModel.getD "" }

/-- No cost comes with a report that a job runs. -/
theorem status_ne_running_of_checkCostReport {isHarnessJobKind : JobKind → Bool} {job : JobRow}
    {requestedModel : Option String} {status : ReportStatus} {cost : CostReportInput}
    {report : CostReport}
    (allowed : checkCostReport isHarnessJobKind job requestedModel status cost = .ok report) :
    status ≠ .running := by
  unfold checkCostReport at allowed
  obtain ⟨_, checked, _⟩ := (bind_eq_ok _ _ _).1 allowed
  exact ((ensure_eq_ok _ _ _).1 checked).2.2

end Chats
end Scrum4Me
