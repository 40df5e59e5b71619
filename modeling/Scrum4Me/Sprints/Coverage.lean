import Scrum4Me.Sprints.Verification

/-!
# What the gate of a sprint lets through

The head that an execution records is the base of the next one. While a repeated call
finds HEAD where the execution left it, every range joins the one before it.
-/

namespace Scrum4Me
namespace Sprints

open Foundation Jobs

variable {classify : String → String → VerifyResult} {world : World}

/-! ## Coverage -/

/-- The execution was ended as done. -/
def World.DoneFor (world : World) (executionId : String) : Prop :=
  ∃ call ∈ world.updates, call.executionId = executionId ∧ call.status = .done

instance (world : World) (executionId : String) :
    Decidable (world.DoneFor executionId) :=
  inferInstanceAs (Decidable (∃ _ ∈ _, _))

/-- The commit lies in a diff that was made for a done execution. -/
def World.Covers (world : World) (commit : Sha) : Prop :=
  ∃ verification ∈ world.verifications,
    world.DoneFor verification.executionId ∧ verification.Holds commit

instance (world : World) (commit : Sha) : Decidable (world.Covers commit) :=
  inferInstanceAs (Decidable (∃ _ ∈ _, _))

/-- Every commit from the claim to the last verification is covered. -/
def World.Covered (world : World) : Prop :=
  ∀ last, world.verifications.getLast? = some last →
    ∀ commit, world.job.baseSha < commit → commit ≤ last.head → world.Covers commit

/-- No commit is newer than the verifications of done executions, up to the last
verification. -/
def World.Closed (world : World) : Prop :=
  ∀ last, world.verifications.getLast? = some last →
    last.head ≤ world.job.baseSha ∨
      ∃ verification ∈ world.verifications,
        world.DoneFor verification.executionId ∧ last.head ≤ verification.head

/-- What an execution is or was verified against. -/
def Rows.baseOf (rows : Rows) (executionId : String) : Option Sha :=
  (rows.execution? executionId).bind rows.verifyBase

/-- A repeated done changes no head, and nothing that any execution is verified
against. -/
def Step.Repeats (world : World) : Step → Prop
  | .again call resolves now =>
      call.status = .done → (world.update call resolves now).executions.map (·.headSha) =
            world.executions.map (·.headSha) ∧
          ∀ executionId, (world.update call resolves now).baseOf executionId =
            world.baseOf executionId
  | _ => True

/-- A repeated done cannot resolve HEAD, or finds it where the execution recorded it. -/
def Step.Unmoved (world : World) : Step → Prop
  | .again call resolves _ =>
      call.status = .done → resolves = true →
        ∀ execution ∈ world.executions, execution.id = call.executionId →
          execution.headSha = some world.head
  | _ => True

theorem World.Covered.closed (covered : world.Covered) : world.Closed := by
  intro last isLast
  by_cases beyond : world.job.baseSha < last.head
  · obtain ⟨verification, made, done, holds⟩ := covered last isLast last.head beyond (Nat.le_refl _)
    exact .inr ⟨verification, made, done, holds.2⟩
  · exact .inl (Nat.le_of_not_lt beyond)

/-! ## The gate -/

variable {execution row : TaskExecution} {rows : Rows} {tasks : List TaskSnapshot}
  {executionId tokenId : String}

/-- The job is allowed only if nothing blocks it. -/
theorem blocker_of_allowed (allowed : rows.checkSprintVerifyGate = .ok ())
    (member : execution ∈ rows.executions) :
    execution.blocker = none := by
  unfold Rows.checkSprintVerifyGate at allowed
  split at allowed
  · cases allowed
  · simp only at allowed
    split at allowed
    · rename_i empty
      have listed := List.filterMap_eq_nil_iff.mp empty
      exact listed execution ((List.mem_insertionSort _).mpr member)
    · cases allowed

/-- A done execution without a result blocks. -/
theorem blocker_of_unverified (done : execution.status = .done)
    (unverified : execution.verifyResult = none) :
    execution.blocker ≠ none := by
  unfold TaskExecution.blocker
  rw [done, unverified]
  exact Option.some_ne_none _

/-! ## What every state satisfies -/

/-- What the order of the calls ensures. -/
structure Sound (world : World) : Prop where
  managed : world.job.managed = false
  kind : world.job.kind = .sprintImplementation
  owned : world.job.claimedByTokenId = some world.tokenId
  active : world.job.status = .claimed
  ids : (world.executions.map (·.id)).Nodup
  orders : (world.executions.map (·.order)).Nodup
  bare : ∀ call ∈ world.updates, call.baseSha = none ∧ call.headSha = none
  ended : ∀ call ∈ world.updates, ∃ execution ∈ world.executions,
    execution.id = call.executionId ∧ execution.order < world.working ∧
      execution.status = call.status
  fresh : ∀ execution ∈ world.executions, world.working ≤ execution.order →
    (execution.order = world.working → world.verified = false) →
      execution.verifyResult = none
  seen : world.verified = true → ∀ execution ∈ world.executions,
    execution.order = world.working → execution.verifyResult ≠ none →
      ∃ verification ∈ world.verifications,
        verification.executionId = execution.id ∧ verification.head = world.head

/-- Every commit up to here is covered. -/
def World.Reaches (world : World) (sha : Sha) : Prop :=
  ∀ commit, world.job.baseSha < commit → commit ≤ sha → world.Covers commit

/-- An execution ended as done that was never verified. -/
def World.Unverified (world : World) : Prop :=
  ∃ execution ∈ world.executions,
    world.DoneFor execution.id ∧ execution.verifyResult = none

/-- Everything up to a base is covered. -/
structure Chained (world : World) : Prop where
  heads : ∀ execution ∈ world.executions, ∀ sha, execution.headSha = some sha →
    world.Reaches sha
  bases : ∀ execution ∈ world.executions, ∀ sha, execution.baseSha = some sha →
    world.Reaches sha
  diffs : ∀ verification ∈ world.verifications, world.Reaches verification.base

theorem Sound.row_unique (sound : Sound world) {first second : TaskExecution}
    (firstMember : first ∈ world.executions) (secondMember : second ∈ world.executions)
    (same : first.id = second.id) :
    first = second :=
  List.inj_on_of_nodup_map sound.ids firstMember secondMember same

/-- The gate lets no execution through that was never verified. -/
theorem Sound.verified_of_allowed
    (sound : Sound world) (allowed : world.checkSprintVerifyGate = .ok ()) :
    ¬ world.Unverified := by
  rintro ⟨execution, member, ⟨call, made, own, isDone⟩, unverified⟩
  obtain ⟨row, inTable, named, -, status⟩ := sound.ended call made
  obtain rfl := sound.row_unique inTable member (named.trans own)
  exact blocker_of_unverified (status.trans isDone) unverified (blocker_of_allowed allowed member)

/-- If every base is covered, then so is all that verifications of done executions
saw. -/
theorem Chained.covered (chained : Chained world) (closed : world.Closed) : world.Covered := by
  intro last isLast commit newer upTo
  rcases closed last isLast with old | ⟨verification, made, done, reached⟩
  · exact absurd (Nat.lt_of_lt_of_le newer (Nat.le_trans upTo old)) (Nat.lt_irrefl _)
  · by_cases before : commit ≤ verification.base
    · exact chained.diffs verification made commit newer before
    · exact ⟨verification, made, done, Nat.lt_of_not_le before, Nat.le_trans upTo reached⟩

/-! ## The tools -/

theorem Sound.execution? (sound : Sound world) (member : execution ∈ world.executions) :
    world.execution? execution.id = some execution :=
  find?_eq_some_of_unique member (decide_eq_true rfl) fun _ inTable found =>
    sound.row_unique inTable member (of_decide_eq_true found)

variable {call : Update}

/-- A call of the owner is not refused. -/
theorem Sound.update_eq (sound : Sound world)
    (member : execution ∈ world.executions) (own : execution.id = call.executionId)
    (resolves : Bool) (now : String) :
    world.update call resolves now =
      { world with
        executions := updateWhere (·.id = call.executionId)
          (·.update call (world.effectiveHead call resolves) now) world.executions } := by
  have found := sound.execution? member
  rw [own] at found
  have accepted : world.updateTaskExecution world.tokenId call resolves now =
      .ok ({ world.toRows with
        executions := updateWhere (·.id = execution.id)
          (·.update call (world.effectiveHead call resolves) now) world.executions }, ()) := by
    simp only [Rows.updateTaskExecution, bind_eq_ok, require_eq_ok, ensure_eq_ok, pure_eq_ok]
    exact ⟨execution, found, (), sound.managed, (), sound.kind, (), sound.owned, (),
      .inl sound.active, rfl⟩
  unfold World.update
  rw [accepted, own]
  rfl

/-- The row after its base is stored, and after a result is. -/
def TaskExecution.filled (base : Sha) (execution : TaskExecution) : TaskExecution :=
  { execution with baseSha := some base }

def TaskExecution.compared (base : Sha) (result : VerifyResult) (summary : Option String)
    (execution : TaskExecution) : TaskExecution :=
  { execution with
    baseSha := some base
    verifyResult := some result
    verifySummary := summary.or execution.verifySummary }

/-- What a verification leaves: nothing, a base, or a base and a result. -/
inductive Verifies (world : World) (execution : TaskExecution) : World → Prop
  | refused : Verifies world execution { world with verified := true }
  | filled (base : Sha) (against : world.verifyBase execution = some base) :
      Verifies world execution
        { world with
          executions := updateWhere (·.id = execution.id) (.filled base) world.executions
          verified := true }
  | compared (base : Sha) (result : VerifyResult) (summary : Option String)
      (against : world.verifyBase execution = some base) :
      Verifies world execution
        { world with
          executions := updateWhere (·.id = execution.id) (.compared base result summary)
            world.executions
          verified := true
          verifications := world.verifications ++ [⟨execution.id, base, world.head⟩] }

theorem Sound.verify_cases (sound : Sound world)
    (member : execution ∈ world.executions) (summary diff : Option String) :
    Verifies world execution (world.verify classify execution.id summary diff) := by
  have found := sound.execution? member
  have owner : ¬ world.job.claimedByTokenId ≠ some world.tokenId := fun apart => apart sound.owned
  have sprint : ¬ world.job.kind ≠ .sprintImplementation := fun apart => apart sound.kind
  unfold World.verify Rows.verifySprintTask
  rw [found]
  simp only [if_neg owner, if_neg sprint]
  cases against : world.verifyBase execution with
  | none =>
    have same : world.verifications ++ [] = world.verifications := List.append_nil _
    exact same.symm ▸ .refused
  | some base =>
    cases diff with
    | none =>
      have same : world.verifications ++ [] = world.verifications := List.append_nil _
      exact same.symm ▸ .filled base against
    | some diff =>
      have twice : ((world.storeBase execution.id base).storeResult execution.id
            (classify diff execution.planSnapshot) summary).executions =
            updateWhere (·.id = execution.id)
              (.compared base (classify diff execution.planSnapshot) summary)
              world.executions := by
        dsimp only [Rows.storeBase, Rows.storeResult]
        rw [updateWhere_updateWhere]
        · rfl
        · exact fun _ => rfl
      have compared := Verifies.compared base (classify diff execution.planSnapshot) summary against
      rw [← twice] at compared
      exact compared

/-! ## The order of the calls -/

theorem sound_claimed {head : Sha} (distinct : (tasks.map (·.executionId)).Nodup) :
    Sound (.claimed tokenId tasks head) where
  managed := rfl
  kind := rfl
  owned := rfl
  active := rfl
  ids := by
    have same : (World.claimed tokenId tasks head).executions.map (·.id) =
        tasks.map (·.executionId) := by
      have column : (tasks.zipIdx.map fun pair => pair.1.executionId) =
          tasks.map (·.executionId) := by
        rw [← Function.comp_def, ← List.map_map, List.zipIdx_map_fst]
      simp only [World.claimed, List.mapIdx_eq_zipIdx_map, List.map_map]
      exact column
    rw [same]
    exact distinct
  orders := by
    have same : (World.claimed tokenId tasks head).executions.map (·.order) =
        List.range' 0 tasks.length := by
      simp only [World.claimed, List.mapIdx_eq_zipIdx_map, List.map_map]
      exact List.zipIdx_map_snd 0 tasks
    rw [same]
    exact List.nodup_range'
  bare := List.forall_mem_nil _
  ended := List.forall_mem_nil _
  fresh := by
    intro execution member _ _
    obtain ⟨index, inRange, rfl⟩ := List.mem_mapIdx.mp member
    rfl
  seen := fun verified => by cases verified

/-- The execution that a call names is the one that the worker is at. -/
theorem Sound.order_unique (sound : Sound world) {first second : TaskExecution}
    (firstMember : first ∈ world.executions) (secondMember : second ∈ world.executions)
    (same : first.order = second.order) :
    first = second :=
  List.inj_on_of_nodup_map sound.orders firstMember secondMember same

theorem Sound.commit (sound : Sound world) (follows : Step.Follows world .commit) :
    Sound { world with head := world.head + 1 } :=
  { sound with
    seen := fun verified => absurd (follows.symm.trans verified) Bool.false_ne_true }

theorem Sound.finish (sound : Sound world) (resolves : Bool) (now : String)
    (follows : Step.Follows world (.finish call resolves now)) :
    Sound (execute classify world (.finish call resolves now)) := by
  obtain ⟨⟨execution, member, own, here⟩, -, noBase, noHead⟩ := follows
  dsimp only [execute]
  rw [sound.update_eq member own resolves now]
  constructor
  · exact sound.managed
  · exact sound.kind
  · exact sound.owned
  · exact sound.active
  · exact nodup_updateWhere (fun _ => rfl) sound.ids
  · exact nodup_updateWhere (fun _ => rfl) sound.orders
  · intro other made
    rcases mem_inserted.mp made with before | rfl
    · exact sound.bare other before
    · exact ⟨noBase, noHead⟩
  · intro other made
    rcases mem_inserted.mp made with before | rfl
    · obtain ⟨row, inTable, named, earlier, status⟩ := sound.ended other before
      refine ⟨row, mem_updateWhere.mpr (.inr ⟨inTable, ?_⟩), named,
        Nat.lt_succ_of_lt earlier, status⟩
      refine decide_eq_false fun same => ?_
      obtain rfl := sound.row_unique inTable member (same.trans own.symm)
      exact absurd earlier (here ▸ Nat.lt_irrefl _)
    · refine ⟨_, mem_updateWhere.mpr (.inl ⟨execution, member, decide_eq_true own, rfl⟩),
        own, ?_, rfl⟩
      exact here ▸ Nat.lt_succ_self _
  · intro row inTable later _
    rcases mem_updateWhere.mp inTable with ⟨old, inside, matched, rfl⟩ | ⟨kept, -⟩
    · obtain rfl := sound.row_unique inside member ((of_decide_eq_true matched).trans own.symm)
      exact absurd (here ▸ later : world.working + 1 ≤ world.working) (Nat.not_succ_le_self _)
    · refine sound.fresh row kept (Nat.le_of_succ_le later) fun same => ?_
      exact absurd (same ▸ later : world.working + 1 ≤ world.working) (Nat.not_succ_le_self _)
  · exact fun verified => by cases verified

theorem Sound.again (sound : Sound world) (resolves : Bool) (now : String)
    (made : call ∈ world.updates) :
    Sound (world.update call resolves now) := by
  obtain ⟨execution, member, own, earlier, status⟩ := sound.ended call made
  rw [sound.update_eq member own resolves now]
  constructor
  · exact sound.managed
  · exact sound.kind
  · exact sound.owned
  · exact sound.active
  · exact nodup_updateWhere (fun _ => rfl) sound.ids
  · exact nodup_updateWhere (fun _ => rfl) sound.orders
  · exact sound.bare
  · intro other before
    obtain ⟨row, inTable, named, placed, ends⟩ := sound.ended other before
    by_cases same : row.id = call.executionId
    · obtain rfl := sound.row_unique inTable member (same.trans own.symm)
      refine ⟨_, mem_updateWhere.mpr (.inl ⟨row, inTable, decide_eq_true same, rfl⟩), named,
        placed, ?_⟩
      exact status.symm.trans ends
    · exact ⟨row, mem_updateWhere.mpr (.inr ⟨inTable, decide_eq_false same⟩), named, placed, ends⟩
  · intro row inTable later fresh
    rcases mem_updateWhere.mp inTable with ⟨old, inside, -, rfl⟩ | ⟨kept, -⟩
    · exact sound.fresh old inside later fresh
    · exact sound.fresh row kept later fresh
  · intro verified row inTable here result
    rcases mem_updateWhere.mp inTable with ⟨old, inside, -, rfl⟩ | ⟨kept, -⟩
    · exact sound.seen verified old inside here result
    · exact sound.seen verified row kept here result

variable {change : TaskExecution → TaskExecution} {step : Step} {resolves : Bool}

/-- A verification of the execution that the worker is at, as far as the order of the
calls sees it. -/
theorem Sound.marked (sound : Sound world) {verifications : List Verification}
    (member : execution ∈ world.executions) (here : execution.order = world.working)
    (id : ∀ row, (change row).id = row.id) (order : ∀ row, (change row).order = row.order)
    (status : ∀ row, (change row).status = row.status)
    (seen : (change execution).verifyResult ≠ none → ∃ verification ∈ verifications,
        verification.executionId = execution.id ∧ verification.head = world.head) :
    Sound
      { world with
        executions := updateWhere (·.id = execution.id) change world.executions
        verified := true
        verifications := verifications } := by
  have changed : ∀ row ∈ updateWhere (fun row => decide (row.id = execution.id)) change
      world.executions, row = change execution ∨
        row ∈ world.executions ∧ row.order ≠ world.working := by
    intro row inTable
    rcases mem_updateWhere.mp inTable with ⟨old, inside, matched, rfl⟩ | ⟨kept, missed⟩
    · obtain rfl := sound.row_unique inside member (of_decide_eq_true matched)
      exact .inl rfl
    · refine .inr ⟨kept, fun same => ?_⟩
      obtain rfl := sound.order_unique kept member (same.trans here.symm)
      exact of_decide_eq_false missed rfl
  refine ⟨sound.managed, sound.kind, sound.owned, sound.active,
    nodup_updateWhere id sound.ids, nodup_updateWhere order sound.orders, sound.bare, ?_, ?_,
    ?_⟩
  · intro call made
    obtain ⟨row, inTable, named, earlier, ends⟩ := sound.ended call made
    by_cases same : row.id = execution.id
    · obtain rfl := sound.row_unique inTable member same
      refine ⟨change row, mem_updateWhere.mpr (.inl ⟨row, inTable, decide_eq_true rfl, rfl⟩),
        (id row).trans named, ?_, (status row).trans ends⟩
      rw [order row]
      exact earlier
    · exact ⟨row, mem_updateWhere.mpr (.inr ⟨inTable, decide_eq_false same⟩), named, earlier, ends⟩
  · intro row inTable later fresh
    rcases changed row inTable with rfl | ⟨kept, apart⟩
    · cases fresh ((order execution).trans here)
    · exact sound.fresh row kept later fun same => absurd same apart
  · intro _ row inTable same result
    rcases changed row inTable with rfl | ⟨-, apart⟩
    · obtain ⟨verification, recorded, named, head⟩ := seen result
      exact ⟨verification, recorded, named.trans (id execution).symm, head⟩
    · exact absurd same apart

theorem Sound.verify (sound : Sound world) (summary diff : Option String)
    (follows : Step.Follows world (.verify executionId summary diff)) :
    Sound (world.verify classify executionId summary diff) := by
  obtain ⟨⟨execution, member, rfl, here⟩, before⟩ := follows
  have unverified : execution.verifyResult = none :=
    sound.fresh execution member (Nat.le_of_eq here.symm) fun _ => before
  have verifies : Verifies world execution (world.verify classify execution.id summary diff) :=
    sound.verify_cases member summary diff
  generalize world.verify classify execution.id summary diff = after at verifies
  cases verifies with
  | refused =>
    refine { sound with fresh := ?_, seen := ?_ }
    · exact fun row inTable later _ => sound.fresh row inTable later fun _ => before
    · intro _ row inTable same result
      exact absurd (sound.fresh row inTable (Nat.le_of_eq same.symm) fun _ => before) result
  | filled base =>
    exact sound.marked member here (fun _ => rfl) (fun _ => rfl) (fun _ => rfl)
      fun result => absurd unverified result
  | compared base result summary =>
    exact sound.marked member here (fun _ => rfl) (fun _ => rfl) (fun _ => rfl)
      fun _ => ⟨_, List.mem_append_right _ (List.mem_singleton_self _), rfl, rfl⟩

theorem sound_execute (sound : Sound world) (follows : step.Follows world) :
    Sound (execute classify world step) := by
  cases step with
  | commit => exact sound.commit follows
  | verify executionId summary diff => exact sound.verify summary diff follows
  | finish call resolves now => exact sound.finish resolves now follows
  | again call resolves now => exact sound.again resolves now follows

/-! ## The chain of ranges -/

/-- More calls were made, for the same claim. -/
structure Grows (world after : World) : Prop where
  base : after.job.baseSha = world.job.baseSha
  updates : world.updates ⊆ after.updates
  verifications : world.verifications ⊆ after.verifications

theorem Grows.doneFor {after : World} (grows : Grows world after)
    (done : world.DoneFor executionId) :
    after.DoneFor executionId := by
  obtain ⟨call, made, ends⟩ := done
  exact ⟨call, grows.updates made, ends⟩

theorem Grows.reaches {after : World} {sha : Sha} (grows : Grows world after)
    (reaches : world.Reaches sha) :
    after.Reaches sha := by
  intro commit newer upTo
  rw [grows.base] at newer
  obtain ⟨verification, made, done, holds⟩ := reaches commit newer upTo
  exact ⟨verification, grows.verifications made, grows.doneFor done, holds⟩

/-- What an execution is verified against is a base or the head of another. -/
theorem Chained.verifyBase (chained : Chained world) {base : Sha}
    (member : execution ∈ world.executions) (against : world.verifyBase execution = some base) :
    world.Reaches base := by
  unfold Rows.verifyBase at against
  rcases Option.or_eq_some_iff.mp against with own | ⟨-, previous⟩
  · exact chained.bases execution member base own
  · obtain ⟨other, first, head⟩ := Option.bind_eq_some_iff.mp previous
    have inTable := (head?_newestFirst first).1
    exact chained.heads other (List.mem_filter.mp inTable).1 base head

/-- The head that a call writes, if the caller passes none. -/
theorem effectiveHead_eq_some {sha : Sha}
    (bare : call.headSha = none) (written : rows.effectiveHead call resolves = some sha) :
    call.status = .done ∧ resolves = true ∧ sha = rows.head := by
  unfold Rows.effectiveHead Rows.resolveWorktreeHead at written
  split at written
  · rename_i done
    split at written
    · rename_i resolved
      exact ⟨done.1, resolved, (Option.some.inj written).symm⟩
    · cases written
  · rw [bare] at written
    cases written

theorem Chained.finish (sound : Sound world) (chained : Chained world) (resolves : Bool)
    (now : String) (follows : Step.Follows world (.finish call resolves now)) :
    (execute classify world (.finish call resolves now)).Unverified ∨
      Chained (execute classify world (.finish call resolves now)) := by
  obtain ⟨⟨execution, member, own, here⟩, ends, noBase, noHead⟩ := follows
  dsimp only [execute]
  rw [sound.update_eq member own resolves now]
  have grows : Grows world
      { world with
        executions := updateWhere (fun row => decide (row.id = call.executionId))
          (·.update call (world.effectiveHead call resolves) now) world.executions
        working := world.working + 1
        verified := false
        updates := world.updates ++ [call] } :=
    ⟨rfl, List.subset_append_left _ _, List.Subset.refl _⟩
  have made : call ∈ world.updates ++ [call] := List.mem_append_right _ (List.mem_singleton_self _)
  by_cases unverified : call.status = .done ∧ execution.verifyResult = none
  · refine .inl ⟨_, mem_updateWhere.mpr (.inl ⟨execution, member, decide_eq_true own, rfl⟩),
      ⟨call, made, own.symm, unverified.1⟩, unverified.2⟩
  · refine .inr ⟨?_, ?_, ?_⟩
    · intro row inTable sha head
      rcases mem_updateWhere.mp inTable with ⟨old, inside, matched, rfl⟩ | ⟨kept, -⟩
      · obtain rfl := sound.row_unique inside member ((of_decide_eq_true matched).trans own.symm)
        rcases Option.or_eq_some_iff.mp head with written | ⟨-, before⟩
        · -- HEAD is where the verification of this execution saw it.
          obtain ⟨done, -, rfl⟩ := effectiveHead_eq_some noHead written
          have result : old.verifyResult ≠ none := fun none => unverified ⟨done, none⟩
          have verified : world.verified = true := by
            rcases ends with ⟨-, verified⟩ | failed | skipped
            · exact verified
            · cases done.symm.trans failed
            · cases done.symm.trans skipped
          obtain ⟨verification, recorded, named, seen⟩ := sound.seen verified old member here result
          intro commit newer upTo
          by_cases before : commit ≤ verification.base
          · exact grows.reaches (chained.diffs verification recorded) commit newer before
          · refine ⟨verification, recorded, ⟨call, made, ?_, done⟩, Nat.lt_of_not_le before, ?_⟩
            · exact own.symm.trans named.symm
            · rw [seen]
              exact upTo
        · exact grows.reaches (chained.heads old member sha before)
      · exact grows.reaches (chained.heads row kept sha head)
    · intro row inTable sha base
      rcases mem_updateWhere.mp inTable with ⟨old, inside, -, rfl⟩ | ⟨kept, -⟩
      · rcases Option.or_eq_some_iff.mp base with written | ⟨-, before⟩
        · cases noBase.symm.trans written
        · exact grows.reaches (chained.bases old inside sha before)
      · exact grows.reaches (chained.bases row kept sha base)
    · exact fun verification recorded => grows.reaches (chained.diffs verification recorded)

theorem Chained.again (sound : Sound world) (chained : Chained world)
    {now : String} (made : call ∈ world.updates)
    (unmoved : Step.Unmoved world (.again call resolves now)) :
    Chained (world.update call resolves now) := by
  obtain ⟨execution, member, own, -⟩ := sound.ended call made
  rw [sound.update_eq member own resolves now]
  obtain ⟨noBase, noHead⟩ := sound.bare call made
  refine ⟨?_, ?_, chained.diffs⟩
  · intro row inTable sha head
    rcases mem_updateWhere.mp inTable with ⟨old, inside, matched, rfl⟩ | ⟨kept, -⟩
    · rcases Option.or_eq_some_iff.mp head with written | ⟨-, before⟩
      · obtain ⟨done, resolved, rfl⟩ := effectiveHead_eq_some noHead written
        exact chained.heads old inside world.head
          (unmoved done resolved old inside (of_decide_eq_true matched))
      · exact chained.heads old inside sha before
    · exact chained.heads row kept sha head
  · intro row inTable sha base
    rcases mem_updateWhere.mp inTable with ⟨old, inside, -, rfl⟩ | ⟨kept, -⟩
    · rcases Option.or_eq_some_iff.mp base with written | ⟨-, before⟩
      · cases noBase.symm.trans written
      · exact chained.bases old inside sha before
    · exact chained.bases row kept sha base

theorem Chained.verify (sound : Sound world) (chained : Chained world)
    (member : execution ∈ world.executions) (summary diff : Option String) :
    Chained (world.verify classify execution.id summary diff) := by
  have verifies : Verifies world execution (world.verify classify execution.id summary diff) :=
    sound.verify_cases member summary diff
  generalize world.verify classify execution.id summary diff = after at verifies
  cases verifies with
  | refused => exact { chained with }
  | filled base against =>
    refine ⟨?_, ?_, chained.diffs⟩
    · intro row inTable sha head
      rcases mem_updateWhere.mp inTable with ⟨old, inside, -, rfl⟩ | ⟨kept, -⟩
      · exact chained.heads old inside sha head
      · exact chained.heads row kept sha head
    · intro row inTable sha here
      rcases mem_updateWhere.mp inTable with ⟨old, -, -, rfl⟩ | ⟨kept, -⟩
      · obtain rfl := Option.some.inj here
        exact chained.verifyBase member against
      · exact chained.bases row kept sha here
  | compared base result summary against =>
    have grows : Grows world
        { world with
          executions := updateWhere (fun row => decide (row.id = execution.id))
            (.compared base result summary) world.executions
          verified := true
          verifications := world.verifications ++ [⟨execution.id, base, world.head⟩] } :=
      ⟨rfl, List.Subset.refl _, List.subset_append_left _ _⟩
    refine ⟨?_, ?_, ?_⟩
    · intro row inTable sha head
      rcases mem_updateWhere.mp inTable with ⟨old, inside, -, rfl⟩ | ⟨kept, -⟩
      · exact grows.reaches (chained.heads old inside sha head)
      · exact grows.reaches (chained.heads row kept sha head)
    · intro row inTable sha here
      rcases mem_updateWhere.mp inTable with ⟨old, -, -, rfl⟩ | ⟨kept, -⟩
      · obtain rfl := Option.some.inj here
        exact grows.reaches (chained.verifyBase member against)
      · exact grows.reaches (chained.bases row kept sha here)
    · intro verification recorded
      rcases mem_inserted.mp recorded with before | rfl
      · exact grows.reaches (chained.diffs verification before)
      · exact grows.reaches (chained.verifyBase member against)

/-- An update writes no result. -/
theorem Sound.result_kept (sound : Sound world)
    (member : execution ∈ world.executions) (own : execution.id = call.executionId)
    (resolves : Bool) (now : String) (inTable : row ∈ world.executions) :
    ∃ after ∈ (world.update call resolves now).executions,
      after.id = row.id ∧ after.verifyResult = row.verifyResult := by
  rw [sound.update_eq member own resolves now]
  by_cases matched : row.id = call.executionId
  · exact ⟨_, mem_updateWhere.mpr (.inl ⟨row, inTable, decide_eq_true matched, rfl⟩), rfl, rfl⟩
  · exact ⟨row, mem_updateWhere.mpr (.inr ⟨inTable, decide_eq_false matched⟩), rfl, rfl⟩

/-- An execution that was ended without a result never gets one. -/
theorem Sound.unverified (sound : Sound world) (follows : step.Follows world)
    (unverified : world.Unverified) :
    (execute classify world step).Unverified := by
  obtain ⟨row, inTable, ⟨call, made, own, done⟩, without⟩ := unverified
  cases step with
  | commit => exact ⟨row, inTable, ⟨call, made, own, done⟩, without⟩
  | verify executionId summary diff =>
    obtain ⟨⟨execution, member, rfl, here⟩, -⟩ := follows
    have apart : row.id ≠ execution.id := by
      intro same
      obtain ⟨other, inside, named, earlier, -⟩ := sound.ended call made
      obtain rfl := sound.row_unique inside member (named.trans (own.trans same))
      exact absurd earlier (here ▸ Nat.lt_irrefl _)
    have verifies : Verifies world execution (world.verify classify execution.id summary diff) :=
      sound.verify_cases member summary diff
    dsimp only [execute]
    generalize world.verify classify execution.id summary diff = after at verifies
    cases verifies with
    | refused => exact ⟨row, inTable, ⟨call, made, own, done⟩, without⟩
    | _ =>
      exact ⟨row, mem_updateWhere.mpr (.inr ⟨inTable, decide_eq_false apart⟩),
        ⟨call, made, own, done⟩, without⟩
  | finish other resolves now =>
    obtain ⟨⟨execution, member, named, -⟩, -⟩ := follows
    obtain ⟨after, inside, same, result⟩ := sound.result_kept member named resolves now inTable
    exact ⟨after, inside, ⟨call, List.mem_append_left _ made, own.trans same.symm, done⟩,
      result.trans without⟩
  | again other resolves now =>
    obtain ⟨execution, member, named, -⟩ := sound.ended other follows
    obtain ⟨after, inside, same, result⟩ := sound.result_kept member named resolves now inTable
    refine ⟨after, inside, ⟨call, ?_, own.trans same.symm, done⟩, result.trans without⟩
    dsimp only [execute]
    rw [sound.update_eq member named resolves now]
    exact made

/-- The invariant of a run in which every repeated done finds HEAD unmoved. -/
structure Joined (world : World) : Prop where
  sound : Sound world
  chained : world.Unverified ∨ Chained world

theorem joined_execute (joined : Joined world) (follows : step.Follows world)
    (unmoved : step.Unmoved world) :
    Joined (execute classify world step) := by
  refine ⟨sound_execute joined.sound follows, ?_⟩
  rcases joined.chained with unverified | chained
  · exact .inl (joined.sound.unverified follows unverified)
  · cases step with
    | commit => exact .inr { chained with }
    | verify executionId summary diff =>
      obtain ⟨⟨execution, member, rfl, -⟩, -⟩ := follows
      exact .inr (chained.verify joined.sound member summary diff)
    | finish call resolves now => exact chained.finish joined.sound resolves now follows
    | again call resolves now => exact .inr (chained.again joined.sound follows unmoved)

theorem joined_claimed {head : Sha} (distinct : (tasks.map (·.executionId)).Nodup) :
    Joined (.claimed tokenId tasks head) := by
  refine ⟨sound_claimed distinct, .inr ⟨?_, ?_, ?_⟩⟩
  · intro execution member sha recorded
    obtain ⟨index, inRange, rfl⟩ := List.mem_mapIdx.mp member
    cases recorded
  · intro execution member sha recorded commit newer upTo
    obtain ⟨index, inRange, rfl⟩ := List.mem_mapIdx.mp member
    dsimp only [TaskSnapshot.execution] at recorded
    split at recorded
    · obtain rfl := Option.some.inj recorded
      exact absurd (Nat.lt_of_lt_of_le newer upTo) (Nat.lt_irrefl _)
    · cases recorded
  · exact List.forall_mem_nil _

/-! ## Repeated calls -/

/-- What an execution is verified against is read from these columns. -/
structure Linked (execution after : TaskExecution) : Prop where
  id : after.id = execution.id
  order : after.order = execution.order
  status : after.status = execution.status
  baseSha : after.baseSha = execution.baseSha
  headSha : after.headSha = execution.headSha

theorem baseOf_map (linked : ∀ execution ∈ rows.executions, Linked execution (change execution))
    (executionId : String) :
    Rows.baseOf { rows with executions := rows.executions.map change } executionId =
      rows.baseOf executionId := by
  have found : (rows.executions.map change).find? (·.id = executionId) =
      (rows.executions.find? (·.id = executionId)).map change := by
    rw [← List.head?_filter, ← List.head?_filter, List.filter_map, List.head?_map]
    congr 2
    exact List.filter_congr fun execution member => by
      simp only [Function.comp_apply, (linked execution member).id]
  have against : ∀ execution ∈ rows.executions,
      Rows.verifyBase { rows with executions := rows.executions.map change } (change execution) =
        rows.verifyBase execution := by
    intro execution member
    have earlier : (rows.executions.map change).filter (fun other =>
        other.order < (change execution).order ∧ other.status = .done ∧ other.headSha ≠ none) =
        (rows.executions.filter fun other =>
          other.order < execution.order ∧ other.status = .done ∧
            other.headSha ≠ none).map change := by
      rw [List.filter_map]
      congr 1
      exact List.filter_congr fun other inTable => by
        simp only [Function.comp_apply, (linked execution member).order,
          (linked other inTable).order, (linked other inTable).status,
          (linked other inTable).headSha]
    unfold Rows.verifyBase Rows.previousDone
    rw [(linked execution member).baseSha]
    dsimp only
    rw [earlier, newestFirst_map]
    · cases first : (newestFirst TaskExecution.order (rows.executions.filter fun other =>
            other.order < execution.order ∧ other.status = .done ∧ other.headSha ≠ none)).head? with
      | none =>
        rw [List.head?_map, first]
        rfl
      | some other =>
        rw [List.head?_map, first]
        have inTable := (List.mem_filter.mp (head?_newestFirst first).1).1
        exact congrArg _ (linked other inTable).headSha
    · exact fun other inTable => (linked other (List.mem_filter.mp inTable).1).order
  unfold Rows.baseOf Rows.execution?
  dsimp only
  rw [found]
  cases first : rows.executions.find? (·.id = executionId) with
  | none => rfl
  | some execution => exact against execution (List.mem_of_find?_eq_some first)

/-- A repeated done that finds HEAD unmoved writes the head that is there. -/
theorem Sound.linked (sound : Sound world) {now : String}
    (made : call ∈ world.updates) (isDone : call.status = .done)
    (unmoved : Step.Unmoved world (.again call resolves now))
    (inTable : row ∈ world.executions) (named : row.id = call.executionId) :
    Linked row (row.update call (world.effectiveHead call resolves) now) := by
  obtain ⟨execution, member, own, -, status⟩ := sound.ended call made
  obtain ⟨noBase, noHead⟩ := sound.bare call made
  obtain rfl := sound.row_unique inTable member (named.trans own.symm)
  refine ⟨rfl, rfl, status.symm, ?_, ?_⟩
  · dsimp only [TaskExecution.update]
    rw [noBase, Option.none_or]
  · dsimp only [TaskExecution.update]
    cases written : world.effectiveHead call resolves with
    | none => exact Option.none_or
    | some sha =>
      obtain ⟨-, resolved, rfl⟩ := effectiveHead_eq_some noHead written
      rw [Option.some_or, unmoved isDone resolved row inTable named]

theorem repeats_iff_unmoved (sound : Sound world) (follows : step.Follows world) :
    step.Repeats world ↔ step.Unmoved world := by
  cases step with
  | again call resolves now =>
    obtain ⟨execution, member, own, -⟩ := sound.ended call follows
    dsimp only [Step.Repeats]
    rw [sound.update_eq member own resolves now]
    constructor
    · intro repeats isDone resolved row inTable named
      have heads := List.map_inj_left.mp
        ((List.map_map ..).symm.trans (repeats isDone).1) row inTable
      have written : world.effectiveHead call resolves = some world.head := by
        have bare := (sound.bare call follows).2
        rw [Rows.effectiveHead, if_pos ⟨isDone, bare⟩, Rows.resolveWorktreeHead, if_pos resolved]
      rw [Function.comp_apply, if_pos (decide_eq_true named)] at heads
      dsimp only [TaskExecution.update] at heads
      rw [written, Option.some_or] at heads
      exact heads.symm
    · intro unmoved isDone
      have linked : ∀ row ∈ world.executions, Linked row
          (if decide (row.id = call.executionId) = true then
            row.update call (world.effectiveHead call resolves) now
          else row) := by
        intro row inTable
        split
        · rename_i named
          exact sound.linked follows isDone unmoved inTable (of_decide_eq_true named)
        · exact ⟨rfl, rfl, rfl, rfl, rfl⟩
      refine ⟨?_, baseOf_map linked⟩
      refine (List.map_map ..).trans (List.map_inj_left.mpr ?_)
      exact fun row inTable => (linked row inTable).headSha
  | _ => exact Iff.rfl

/-! ## The claim of a sprint -/

/-- A worker that follows the order of the calls: repeated dones change nothing, and
whenever the gate allows the job every commit up to the last verification is covered,
if and only if every repeated done finds HEAD where it was recorded, and whenever the
gate allows the job the last verification saw no commit that those of done executions
did not see. -/
theorem sprint_covered (classify : String → String → VerifyResult) (tokenId : String)
    (tasks : List TaskSnapshot) (head : Sha) (steps : List Step)
    (distinct : (tasks.map (·.executionId)).Nodup)
    (follows : EveryStep (execute classify) (fun world step => step.Follows world)
      (.claimed tokenId tasks head) steps) :
    (EveryStep (execute classify) (fun world step => step.Repeats world)
        (.claimed tokenId tasks head) steps ∧
      ∀ earlier, earlier <+: steps → (run (execute classify) (.claimed tokenId tasks head)
          earlier).checkSprintVerifyGate = .ok () →
          (run (execute classify) (.claimed tokenId tasks head) earlier).Covered) ↔
      EveryStep (execute classify) (fun world step => step.Unmoved world)
          (.claimed tokenId tasks head) steps ∧
        ∀ earlier, earlier <+: steps → (run (execute classify) (.claimed tokenId tasks head)
            earlier).checkSprintVerifyGate = .ok () →
            (run (execute classify) (.claimed tokenId tasks head) earlier).Closed := by
  have initially : Joined (.claimed tokenId tasks head) := joined_claimed distinct
  have repeats : EveryStep (execute classify) (fun world step => step.Repeats world)
      (.claimed tokenId tasks head) steps ↔
        EveryStep (execute classify) (fun world step => step.Unmoved world)
          (.claimed tokenId tasks head) steps := by
    constructor
    · intro every
      exact EveryStep.of_invariant (fun _ _ sound admitted => sound_execute sound admitted.1)
        (fun _ _ sound admitted => (repeats_iff_unmoved sound admitted.1).mp admitted.2)
        initially.sound (everyStep_and.mpr ⟨follows, every⟩)
    · intro every
      exact EveryStep.of_invariant (fun _ _ sound admitted => sound_execute sound admitted.1)
        (fun _ _ sound admitted => (repeats_iff_unmoved sound admitted.1).mpr admitted.2)
        initially.sound (everyStep_and.mpr ⟨follows, every⟩)
  rw [repeats]
  refine and_congr_right fun unmoved => ?_
  refine forall_congr' fun earlier => imp_congr_right fun isPrefix =>
    imp_congr_right fun allowed => ?_
  have joined : Joined (run (execute classify) (.claimed tokenId tasks head) earlier) :=
    @run_invariant _ _ (execute classify)
      (fun world step => step.Follows world ∧ step.Unmoved world) Joined
      (fun _ _ joined admitted => joined_execute joined admitted.1 admitted.2) _ _ initially
      (EveryStep.of_prefix (everyStep_and.mpr ⟨follows, unmoved⟩) isPrefix)
  constructor
  · exact World.Covered.closed
  · intro closed
    rcases joined.chained with unverified | chained
    · exact absurd unverified (joined.sound.verified_of_allowed allowed)
    · exact chained.covered closed

/-! ## Two executions -/

section Two

def task (executionId : String) : TaskSnapshot where
  executionId := executionId
  code := "T"
  title := "title"
  implementationPlan := some "plan"
  verifyRequired := .any
  verifyOnly := false

def doneCall (executionId : String) : Update :=
  ⟨executionId, .done, none, none, none⟩

/-- Commits, verification and end of one execution. -/
def worked (executionId : String) : List Step :=
  [.commit, .verify executionId none (some "diff"), .finish (doneCall executionId) true "now"]

/-- The first done again, before the second execution commits. -/
def atOnce : List Step :=
  worked "first" ++ .again (doneCall "first") true "now" :: worked "second"

/-- The first done again, after the second execution made a commit. -/
def late : List Step :=
  worked "first" ++ .commit :: .again (doneCall "first") true "later" :: worked "second"

theorem sprint_covered_at_once :
    (EveryStep (execute fun _ _ => .aligned) (fun world step => step.Repeats world)
        (.claimed "token" [task "first", task "second"] 5) atOnce ∧
      ∀ earlier, earlier <+: atOnce → (run (execute fun _ _ => .aligned)
          (.claimed "token" [task "first", task "second"] 5)
          earlier).checkSprintVerifyGate = .ok () →
          (run (execute fun _ _ => .aligned)
            (.claimed "token" [task "first", task "second"] 5) earlier).Covered) ↔
      EveryStep (execute fun _ _ => .aligned) (fun world step => step.Unmoved world)
          (.claimed "token" [task "first", task "second"] 5) atOnce ∧
        ∀ earlier, earlier <+: atOnce → (run (execute fun _ _ => .aligned)
            (.claimed "token" [task "first", task "second"] 5)
            earlier).checkSprintVerifyGate = .ok () →
            (run (execute fun _ _ => .aligned)
              (.claimed "token" [task "first", task "second"] 5) earlier).Closed :=
  sprint_covered _ "token" [task "first", task "second"] 5 atOnce (by decide) (by decide +kernel)

/-- The repeated done takes over the head of the second execution, whose first commit no
verification sees; and the gate allows the job. -/
theorem commit_left_out :
    EveryStep (execute fun _ _ => .aligned) (fun world step => step.Follows world)
        (.claimed "token" [task "first", task "second"] 5) late ∧
      (run (execute fun _ _ => .aligned) (.claimed "token" [task "first", task "second"] 5)
        late).checkSprintVerifyGate = .ok () ∧
      ¬ (run (execute fun _ _ => .aligned)
        (.claimed "token" [task "first", task "second"] 5) late).Covered := by
  refine ⟨by decide +kernel, by decide +kernel, ?_⟩
  intro covered
  have missing : ¬ (run (execute fun _ _ => .aligned)
      (.claimed "token" [task "first", task "second"] 5) late).Covers 7 := by
    decide +kernel
  exact missing (covered ⟨"second", 7, 8⟩ (by decide +kernel) 7 (by decide +kernel)
    (by decide +kernel))

end Two

end Sprints
end Scrum4Me
