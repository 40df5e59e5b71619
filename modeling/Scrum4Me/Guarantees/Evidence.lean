import Scrum4Me.Guarantees.WholeMachine

/-!
# Stored artifacts

`insertArtifact` is the only statement that writes artifacts. What it stores never
changes, each class of keys of an attempt stays within its own limit, and the outputs
leave room for the evidence of a stop.
-/

namespace Scrum4Me
namespace Dispatch

open Foundation

/-! ## Steps -/

/-- Two transactions of one deployment. -/
structure SameLimits (base env : Env) : Prop where
  byteLength : env.byteLength = base.byteLength
  artifact : env.artifactMaxBytes = base.artifactMaxBytes
  attempt : env.attemptMaxBytes = base.attemptMaxBytes
  output : env.attemptOutputMaxBytes = base.attemptOutputMaxBytes
  evidence : env.stopEvidenceMaxBytes = base.stopEvidenceMaxBytes

theorem SameLimits.refl (base : Env) : SameLimits base base :=
  ⟨rfl, rfl, rfl, rfl, rfl⟩

/-- What happens to a request under its lock, as far as its artifacts go. -/
inductive StorageStep
  | insert (env : Env) (input : ArtifactInput)
  /-- Statements on other tables. -/
  | other (change : RequestRows → RequestRows)

/-- The inserts meet the limits of the deployment. -/
def StorageStep.Under (base : Env) : StorageStep → Prop
  | .insert env _ => SameLimits base env
  | .other _ => True

def RequestRows.storing (rows : RequestRows) : StorageStep → RequestRows
  | .insert env input => commit (insertArtifact env rows input) rows
  | .other change => { change rows with artifacts := rows.artifacts }

/-- The bytes under the ordinary keys of an attempt. -/
def RequestRows.outputBytes (rows : RequestRows) (attemptId : Uuid) : Nat :=
  rows.storedBytes (some attemptId) fun key => !controlKeys.contains key

/-- The bytes under the control keys of an attempt. -/
def RequestRows.evidenceBytes (rows : RequestRows) (attemptId : Uuid) : Nat :=
  rows.storedBytes (some attemptId) controlKeys.contains

theorem outputBytes_eq (rows : RequestRows) (attemptId : Uuid) :
    rows.outputBytes attemptId =
      rows.storedBytes (some attemptId) fun key => controlKeys.contains key == false := by
  simp only [beq_false, RequestRows.outputBytes]

theorem evidenceBytes_eq (rows : RequestRows) (attemptId : Uuid) :
    rows.evidenceBytes attemptId =
      rows.storedBytes (some attemptId) fun key => controlKeys.contains key == true := by
  simp only [beq_true, RequestRows.evidenceBytes]

section Storage

variable {base env : Env} {rows : RequestRows} {input : ArtifactInput}
  {stored : RequestRows × Uuid} {attemptId : Uuid}

/-! ## Sums -/

theorem storedBytes_appendArtifact
    (env : Env) (rows : RequestRows) (input : ArtifactInput) (attemptId : Option Uuid)
    (counted : String → Bool) :
    (rows.appendArtifact env input).storedBytes attemptId counted =
      rows.storedBytes attemptId counted +
        if input.attemptId = attemptId ∧ counted input.key = true then
          env.byteLength input.bytes
        else
          0 := by
  rw [RequestRows.storedBytes, RequestRows.appendArtifact]
  simp only [RequestRows.insertEvent, List.filter_append, List.map_append,
    List.sum_append, RequestRows.storedBytes]
  congr 1
  by_cases counts : input.attemptId = attemptId ∧ counted input.key = true
  · rw [if_pos counts]
    simp [counts]
  · rw [if_neg counts]
    simp [counts]

/-- The total of an attempt splits into its two classes. -/
theorem storedBytes_total (rows : RequestRows) (attemptId : Uuid) :
    rows.storedBytes (some attemptId) (fun _ => true) =
      rows.outputBytes attemptId + rows.evidenceBytes attemptId := by
  have classes := List.filter_append_perm
    (fun artifact : ArtifactRow => controlKeys.contains artifact.key)
    (rows.artifacts.filter fun artifact => artifact.attemptId = some attemptId)
  have sums := (classes.map ArtifactRow.byteSize).sum_nat
  rw [List.map_append, List.sum_append, List.filter_filter, List.filter_filter] at sums
  rw [RequestRows.outputBytes, RequestRows.evidenceBytes, RequestRows.storedBytes,
    RequestRows.storedBytes, RequestRows.storedBytes, Nat.add_comm]
  simpa only [Bool.decide_and, Bool.decide_eq_true, decide_true, Bool.true_and,
    Bool.and_comm] using sums.symm

theorem evidenceBytes_eq_zero (none : ∀ artifact ∈ rows.artifacts,
      artifact.attemptId = some attemptId → artifact.key ∉ controlKeys) :
    rows.evidenceBytes attemptId = 0 := by
  rw [RequestRows.evidenceBytes, RequestRows.storedBytes,
    List.filter_eq_nil_iff.mpr, List.map_nil, List.sum_nil]
  intro artifact member counted
  obtain ⟨own, control⟩ := of_decide_eq_true counted
  exact none artifact member own (List.contains_iff_mem.mp control)

/-! ## One insert -/

/-- What an insert that succeeds has done. -/
theorem insertArtifact_cases (inserted : insertArtifact env rows input = .ok stored) :
    env.byteLength input.bytes ≤ env.artifactMaxBytes ∧ artifactHash input.bytes = input.sha256 ∧
      ((∃ old ∈ rows.artifacts, old.attemptId = input.attemptId ∧ old.key = input.key ∧
          old.bytes = input.bytes ∧ stored = (rows, old.id)) ∨
        (∀ old ∈ rows.artifacts, ¬ (old.attemptId = input.attemptId ∧ old.key = input.key)) ∧
          (∀ attemptId, input.attemptId = some attemptId →
            rows.storedBytes (some attemptId) (fun key =>
                controlKeys.contains key == controlKeys.contains input.key) +
              env.byteLength input.bytes ≤
                if controlKeys.contains input.key then env.stopEvidenceMaxBytes
                else env.attemptOutputMaxBytes) ∧ stored = (rows.appendArtifact env input,
            env.uuid .artifact rows.artifacts.length)) := by
  simp only [insertArtifact, bind_eq_ok, ensure_eq_ok] at inserted
  obtain ⟨_, small, _, hashed, written⟩ := inserted
  refine ⟨small, hashed, ?_⟩
  cases found : rows.artifacts.find? fun artifact =>
      artifact.attemptId = input.attemptId ∧ artifact.key = input.key with
  | some old =>
    rw [found] at written
    simp only [bind_eq_ok, ensure_eq_ok, pure_eq_ok] at written
    obtain ⟨_, same, rfl⟩ := written
    have own := List.find?_some found
    obtain ⟨sameAttempt, sameKey⟩ := of_decide_eq_true own
    exact .inl ⟨old, List.mem_of_find?_eq_some found, sameAttempt, sameKey, same.2.2, rfl⟩
  | none =>
    rw [found] at written
    simp only [bind_eq_ok, ensure_eq_ok, pure_eq_ok] at written
    obtain ⟨_, _, _, fits, rfl⟩ := written
    refine .inr ⟨fun old member => ?_, fun attemptId own => ?_, rfl⟩
    · have apart := List.find?_eq_none.mp found old member
      simpa using apart
    · rcases fits with none | fits
      · exact absurd (none.symm.trans own) (by simp)
      · rw [own] at fits
        exact fits

/-! ## What the artifacts satisfy -/

/-- The artifacts of a request meet the limits, one under each key. -/
structure RequestRows.Stored (base : Env) (rows : RequestRows) : Prop where
  unique : rows.artifacts.Pairwise fun first second =>
    ¬ (first.attemptId = second.attemptId ∧ first.key = second.key)
  hashed : ∀ artifact ∈ rows.artifacts, artifact.sha256 = artifactHash artifact.bytes
  sized : ∀ artifact ∈ rows.artifacts, artifact.byteSize = base.byteLength artifact.bytes
  small : ∀ artifact ∈ rows.artifacts, artifact.byteSize ≤ base.artifactMaxBytes
  outputs : ∀ attemptId, rows.outputBytes attemptId ≤ base.attemptOutputMaxBytes
  evidence : ∀ attemptId, rows.evidenceBytes attemptId ≤ base.stopEvidenceMaxBytes

theorem stored_start (base : Env) (fresh : rows.artifacts = []) : rows.Stored base where
  unique := by simp [fresh]
  hashed := by simp [fresh]
  sized := by simp [fresh]
  small := by simp [fresh]
  outputs _ := by simp [RequestRows.outputBytes, RequestRows.storedBytes, fresh]
  evidence _ := by simp [RequestRows.evidenceBytes, RequestRows.storedBytes, fresh]

/-- A row under the same key is the same row. -/
theorem RequestRows.Stored.eq {first second : ArtifactRow} (sound : rows.Stored base)
    (isFirst : first ∈ rows.artifacts) (isSecond : second ∈ rows.artifacts)
    (sameAttempt : first.attemptId = second.attemptId) (sameKey : first.key = second.key) :
    first = second := by
  rcases pairwise_cases sound.unique isFirst isSecond with same | apart | apart
  · exact same
  · exact absurd ⟨sameAttempt, sameKey⟩ apart
  · exact absurd ⟨sameAttempt.symm, sameKey.symm⟩ apart

/-- A step keeps every artifact. -/
theorem storing_kept (rows : RequestRows) (step : StorageStep) {artifact : ArtifactRow}
    (member : artifact ∈ rows.artifacts) :
    artifact ∈ (rows.storing step).artifacts := by
  cases step with
  | other change => exact member
  | insert env input =>
    rw [RequestRows.storing]
    cases inserted : insertArtifact env rows input with
    | error failure => exact member
    | ok stored =>
      rcases (insertArtifact_cases inserted).2.2 with
        ⟨_, _, _, _, _, rfl⟩ | ⟨_, _, rfl⟩
      · exact member
      · exact List.mem_append_left _ member

/-- The limit that an insert has checked is that of the class it adds to. -/
theorem fits_of_inserted {limit : Nat} {control : Bool} (before : rows.storedBytes (some attemptId)
      (fun key => controlKeys.contains key == control) ≤ limit)
    (fits : ∀ attemptId, input.attemptId = some attemptId →
      rows.storedBytes (some attemptId) (fun key =>
          controlKeys.contains key == controlKeys.contains input.key) + env.byteLength input.bytes ≤
          if controlKeys.contains input.key then env.stopEvidenceMaxBytes
          else env.attemptOutputMaxBytes)
    (isLimit : limit = if control then env.stopEvidenceMaxBytes
      else env.attemptOutputMaxBytes) :
    (rows.appendArtifact env input).storedBytes (some attemptId)
      (fun key => controlKeys.contains key == control) ≤ limit := by
  rw [storedBytes_appendArtifact]
  by_cases counts : input.attemptId = some attemptId ∧
      (controlKeys.contains input.key == control) = true
  · obtain ⟨own, sameClass⟩ := counts
    have checked := fits attemptId own
    rw [eq_of_beq sameClass, ← isLimit] at checked
    rw [if_pos ⟨own, sameClass⟩]
    exact checked
  · rw [if_neg counts]
    exact before

theorem RequestRows.Stored.step
    {step : StorageStep} (sound : rows.Stored base) (under : step.Under base) :
    (rows.storing step).Stored base := by
  cases step with
  | other change =>
    exact
      { unique := sound.unique
        hashed := sound.hashed
        sized := sound.sized
        small := sound.small
        outputs := sound.outputs
        evidence := sound.evidence }
  | insert env input =>
    refine commit_induction sound fun next id inserted => ?_
    obtain ⟨small, hashed, written⟩ := insertArtifact_cases inserted
    rcases written with ⟨_, _, _, _, _, same⟩ | ⟨apart, fits, same⟩
    · obtain ⟨rfl, _⟩ := Prod.mk.inj same
      exact sound
    · obtain ⟨rfl, _⟩ := Prod.mk.inj same
      exact
        { unique := List.pairwise_append.mpr ⟨sound.unique, List.pairwise_singleton _ _,
            fun first member second isNew => by
              rw [List.mem_singleton.mp isNew]
              exact apart first member⟩
          hashed := fun artifact member => by
            rcases mem_inserted.mp member with member | rfl
            · exact sound.hashed artifact member
            · exact hashed.symm
          sized := fun artifact member => by
            rcases mem_inserted.mp member with member | rfl
            · exact sound.sized artifact member
            · exact congrFun under.byteLength _
          small := fun artifact member => by
            rcases List.mem_append.mp member with member | isNew
            · exact sound.small artifact member
            · rw [List.mem_singleton.mp isNew, ← under.artifact]
              exact small
          outputs := fun attemptId => by
            have before := sound.outputs attemptId
            rw [outputBytes_eq] at before ⊢
            exact fits_of_inserted before fits under.output.symm
          evidence := fun attemptId => by
            have before := sound.evidence attemptId
            rw [evidenceBytes_eq] at before ⊢
            exact fits_of_inserted before fits under.evidence.symm }

/-! ## Inserts into stored artifacts -/

variable {old : ArtifactRow}

/-- A repeated insert finds its row and writes nothing. -/
theorem insertArtifact_repeated (sound : rows.Stored base) (limits : SameLimits base env)
    (member : old ∈ rows.artifacts) (sameAttempt : old.attemptId = input.attemptId)
    (sameKey : old.key = input.key) (hashed : input.sha256 = artifactHash input.bytes)
    (sameBytes : old.bytes = input.bytes) :
    insertArtifact env rows input = .ok (rows, old.id) := by
  have found : rows.artifacts.find? (fun artifact =>
      artifact.attemptId = input.attemptId ∧ artifact.key = input.key) = some old := by
    apply find?_eq_some_of_unique member (decide_eq_true ⟨sameAttempt, sameKey⟩)
    intro other isOther matching
    obtain ⟨otherAttempt, otherKey⟩ := of_decide_eq_true matching
    exact sound.eq isOther member (otherAttempt.trans sameAttempt.symm)
      (otherKey.trans sameKey.symm)
  have size : old.byteSize = env.byteLength input.bytes := by
    rw [sound.sized old member, sameBytes, limits.byteLength]
  have small : env.byteLength input.bytes ≤ env.artifactMaxBytes := by
    rw [← size, limits.artifact]
    exact sound.small old member
  have sameHash : old.sha256 = input.sha256 := by rw [sound.hashed old member, sameBytes, hashed]
  simp only [insertArtifact, bind_eq_ok, ensure_eq_ok]
  refine ⟨(), small, (), hashed.symm, ?_⟩
  rw [found]
  simp only [bind_eq_ok, ensure_eq_ok, pure_eq_ok]
  exact ⟨(), ⟨sameHash, size, sameBytes⟩, trivial⟩

/-- Other bytes are refused. -/
theorem insertArtifact_conflicting (sound : rows.Stored base) (member : old ∈ rows.artifacts)
    (sameAttempt : old.attemptId = input.attemptId) (sameKey : old.key = input.key)
    (differ : old.bytes ≠ input.bytes) :
    ∃ failure, insertArtifact env rows input = .error failure := by
  cases inserted : insertArtifact env rows input with
  | error failure => exact ⟨failure, rfl⟩
  | ok stored =>
    rcases (insertArtifact_cases inserted).2.2 with
      ⟨other, isOther, otherAttempt, otherKey, sameBytes, _⟩ | ⟨apart, _, _⟩
    · obtain rfl := sound.eq isOther member (otherAttempt.trans sameAttempt.symm)
        (otherKey.trans sameKey.symm)
      exact absurd sameBytes differ
    · exact absurd ⟨sameAttempt, sameKey⟩ (apart old member)

/-- An insert answers with the id of a row that holds its bytes. -/
theorem insertArtifact_answer (inserted : insertArtifact env rows input = .ok stored) :
    ∃ artifact ∈ stored.1.artifacts, artifact.id = stored.2 ∧
      artifact.attemptId = input.attemptId ∧ artifact.key = input.key ∧
      artifact.bytes = input.bytes := by
  rcases (insertArtifact_cases inserted).2.2 with
    ⟨old, member, sameAttempt, sameKey, sameBytes, rfl⟩ | ⟨_, _, rfl⟩
  · exact ⟨old, member, rfl, sameAttempt, sameKey, sameBytes⟩
  · exact ⟨_, List.mem_append_right _ (List.mem_singleton_self _), rfl, rfl, rfl, rfl⟩

/-- The reserve of the deployment: the outputs and the evidence of an attempt fit
together, and the evidence fits in one artifact. -/
structure Env.Reserved (base : Env) : Prop where
  attempt : base.attemptOutputMaxBytes + base.stopEvidenceMaxBytes ≤ base.attemptMaxBytes
  artifact : base.stopEvidenceMaxBytes ≤ base.artifactMaxBytes

/-- The first evidence of a stop fits, whatever outputs were stored. -/
theorem insertArtifact_evidence
    (sound : rows.Stored base) (limits : SameLimits base env) (reserved : base.Reserved)
    (own : input.attemptId = some attemptId) (control : input.key ∈ controlKeys)
    (hashed : input.sha256 = artifactHash input.bytes)
    (small : env.byteLength input.bytes ≤ env.stopEvidenceMaxBytes)
    (none : ∀ artifact ∈ rows.artifacts,
      artifact.attemptId = some attemptId → artifact.key ∉ controlKeys) :
    ∃ stored, insertArtifact env rows input = .ok stored := by
  have missing : rows.artifacts.find? (fun artifact =>
      artifact.attemptId = input.attemptId ∧ artifact.key = input.key) = .none := by
    rw [List.find?_eq_none]
    intro artifact member matching
    obtain ⟨sameAttempt, sameKey⟩ := of_decide_eq_true matching
    exact none artifact member (sameAttempt.trans own) (sameKey ▸ control)
  have noEvidence := evidenceBytes_eq_zero none
  have total := storedBytes_total rows attemptId
  have outputs := sound.outputs attemptId
  have contained : controlKeys.contains input.key = true := List.contains_iff_mem.mpr control
  rw [limits.evidence] at small
  obtain ⟨fitsAttempt, fitsArtifact⟩ := reserved
  refine ⟨(rows.appendArtifact env input, env.uuid .artifact rows.artifacts.length), ?_⟩
  simp only [insertArtifact, bind_eq_ok, ensure_eq_ok]
  refine ⟨(), ?_, (), hashed.symm, ?_⟩
  · rw [limits.artifact]
    omega
  · rw [missing]
    simp only [bind_eq_ok, ensure_eq_ok, pure_eq_ok]
    refine ⟨(), ?_, (), .inr ?_, trivial⟩
    · rw [own, total, limits.attempt]
      omega
    · rw [own, contained, ← evidenceBytes_eq, noEvidence, limits.evidence, if_pos rfl]
      omega

end Storage

/-! ## The callers -/

section Callers

variable {env : Env} {registry : Registry} {rows : RequestRows} {actor : Actor}

end Callers

/-! ## Every sequence of inserts -/

/-- What the artifacts of a request promise. -/
structure ArtifactsSafe (base : Env) (rows : RequestRows) : Prop where
  outputs : ∀ attemptId, rows.outputBytes attemptId ≤ base.attemptOutputMaxBytes
  evidence : ∀ attemptId, rows.evidenceBytes attemptId ≤ base.stopEvidenceMaxBytes
  /-- One artifact under each key. -/
  unique : ∀ first ∈ rows.artifacts, ∀ second ∈ rows.artifacts,
    first.attemptId = second.attemptId → first.key = second.key → first = second
  /-- Nothing is taken away or changed later. -/
  kept : ∀ later : List StorageStep,
    ∀ artifact ∈ rows.artifacts, artifact ∈ (run RequestRows.storing rows later).artifacts
  answered : ∀ env input stored, insertArtifact env rows input = .ok stored →
    ∃ artifact ∈ stored.1.artifacts, artifact.id = stored.2 ∧
      artifact.attemptId = input.attemptId ∧ artifact.key = input.key ∧
      artifact.bytes = input.bytes
  repeated : ∀ env input, SameLimits base env → ∀ old ∈ rows.artifacts,
    old.attemptId = input.attemptId → old.key = input.key →
    input.sha256 = artifactHash input.bytes → old.bytes = input.bytes →
    insertArtifact env rows input = .ok (rows, old.id)
  conflicting : ∀ env input, ∀ old ∈ rows.artifacts,
    old.attemptId = input.attemptId → old.key = input.key → old.bytes ≠ input.bytes →
    ∃ failure, insertArtifact env rows input = .error failure
  stoppable : base.Reserved → ∀ env input attemptId, SameLimits base env →
    input.attemptId = some attemptId → input.key ∈ controlKeys →
    input.sha256 = artifactHash input.bytes →
    env.byteLength input.bytes ≤ env.stopEvidenceMaxBytes →
    (∀ artifact ∈ rows.artifacts,
      artifact.attemptId = some attemptId → artifact.key ∉ controlKeys) →
    ∃ stored, insertArtifact env rows input = .ok stored

theorem RequestRows.Stored.safe {base : Env} {rows : RequestRows} (sound : rows.Stored base) :
    ArtifactsSafe base rows where
  outputs := sound.outputs
  evidence := sound.evidence
  unique _ isFirst _ isSecond := sound.eq isFirst isSecond
  kept later artifact member :=
    @run_invariant_always _ _ RequestRows.storing (fun rows => artifact ∈ rows.artifacts)
      (fun rows step kept => storing_kept rows step kept) rows member later
  answered _ _ _ := insertArtifact_answer
  repeated _ _ limits _ member := insertArtifact_repeated sound limits member
  conflicting _ _ _ member := insertArtifact_conflicting sound member
  stoppable reserved _ _ _ limits := insertArtifact_evidence sound limits reserved

/-- In every sequence of inserts the artifacts of a request are immutable and within
their limits, and its outputs leave room for the evidence of a stop. -/
theorem artifacts_safe (base : Env) (rows : RequestRows) (fresh : rows.artifacts = [])
    (steps : List StorageStep) (under : ∀ step ∈ steps, step.Under base) :
    ArtifactsSafe base (run RequestRows.storing rows steps) := by
  have sound : (run RequestRows.storing rows steps).Stored base :=
    run_invariant (fun _ _ sound under => sound.step under) (stored_start base fresh)
      (everyStep_of_forall (fun _ => under) rows)
  exact sound.safe

namespace Deployment

/-- Room for two outputs of one byte and for one byte of evidence. -/
def narrow : Env :=
  { env 0 with
    artifactMaxBytes := 1
    attemptMaxBytes := 3
    attemptOutputMaxBytes := 2
    stopEvidenceMaxBytes := 1 }

def untouched : RequestRows where
  request := submittedRequest narrow owner freeTask "first"
  candidates := []
  reservations := []
  attempts := []
  jobs := []
  events := []
  results := []
  artifacts := []
  publications := []
  outbox := []

/-- Something that the attempt hands in. -/
def handedIn (key : String) : ArtifactInput where
  attemptId := some 1
  key := key
  bytes := .text key
  sha256 := artifactHash (.text key)
  actor := .service none
  binding := .none

/-- Three outputs, of which two fit. -/
def outputs : List StorageStep :=
  ["report", "checks", "code"].map fun key => .insert narrow (handedIn key)

end Deployment

open Deployment in
/-- The outputs are full and the evidence still fits. -/
theorem artifacts_safe_full :
    (run RequestRows.storing untouched outputs).artifacts.length = 2 ∧
      ∃ stored, insertArtifact narrow (run RequestRows.storing untouched outputs)
        (handedIn supervisorStopKey) = .ok stored := by
  have safe := artifacts_safe narrow untouched rfl outputs (by
    intro step member
    obtain ⟨key, _, rfl⟩ := List.mem_map.mp member
    exact .refl narrow)
  refine ⟨by decide, safe.stoppable ⟨by decide, by decide⟩ narrow
    (handedIn supervisorStopKey) 1 (.refl narrow) rfl (by decide) rfl (by decide) (by decide)⟩

end Dispatch
end Scrum4Me
