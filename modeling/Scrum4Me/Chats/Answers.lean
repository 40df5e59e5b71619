import Scrum4Me.Chats.Conversations

/-!
# One answer to a question

A job that has ended is written no more: every statement that may select its row
asks for a status that it has left. So the transaction that makes the job
`DONE` is the only one to answer, and the one that ends it the only one to report
its cost. That it answers exactly when the chat exists rests on the lock that it
takes on the chat.
-/

namespace Scrum4Me
namespace Chats

open Foundation Jobs

variable {world : World} {step : Step} {opened : Opened}

/-! ## What each step writes -/

/-- The step writes an answer to the job. -/
def Writes (world : World) (step : Step) (jobId : String) : Prop :=
  (world.answers jobId).length < ((execute world step).answers jobId).length

instance (world : World) (step : Step) (jobId : String) :
    Decidable (Writes world step jobId) :=
  inferInstanceAs (Decidable (_ < _))

/-- The step commits this transaction. -/
def Commits (world : World) (step : Step) (opened : Opened) : Prop :=
  step = .commit opened ∧ step.Enabled world

variable (sound : Sound world)

include sound

/-- Only a commit with an answer writes one. -/
theorem Sound.writes_iff (jobId : String) :
    Writes world step jobId ↔
      ∃ opened, Commits world step opened ∧ opened.transition.jobId = jobId ∧
        opened.answer.isSome := by
  unfold Writes execute
  split
  · rename_i enabled
    cases step with
    | ask job chatId content => simp [perform, World.answers, List.filter_append, Commits]
    | deleteChat id =>
      have fewer : ((world.withoutChat id).answers jobId).length ≤ (world.answers jobId).length :=
        (List.filter_sublist.filter _).length_le
      simp [perform, Commits, fewer]
    | updateMany transition =>
      by_cases found : ∃ job ∈ world.jobs, transition.statement.Selects job
      · simp [perform, found, World.answers, Commits]
      · simp [perform, found, World.answers, Commits]
    | readLink opened => simp [perform, World.advance, World.answers, Commits]
    | keyShare opened => simp [perform, World.advance, World.answers, Commits]
    | commit opened =>
      have messages : ((perform world (.commit opened)).answers jobId).length =
          (world.answers jobId).length + (opened.answer.toList.filter fun message =>
              message.role = .assistant ∧ message.jobId = some jobId).length := by
        simp [perform, World.committed, World.answers, List.filter_append]
      rw [messages]
      cases answer : opened.answer with
      | none => simp [Commits, answer]
      | some message =>
        obtain ⟨_, _, chatId, _, rfl⟩ := (sound.answer_eq_some enabled.1).1 answer
        by_cases same : opened.transition.jobId = jobId
        · simp [Commits, answer, same, enabled]
        · simp [Commits, answer, same]
    | _ => simp [perform, World.answers, Commits]
  · rename_i refused
    simp [Commits, refused]

variable {cost : JobCostReportRow}

omit sound in
/-- Statements on jobs write no cost; a commit writes its own. -/
theorem costs_execute (member : cost ∈ (execute world step).costs) :
    cost ∈ world.costs ∨ ∃ opened, Commits world step opened ∧ opened.cost = some cost := by
  unfold execute at member
  split at member
  · rename_i enabled
    cases step with
    | commit opened =>
      change cost ∈ opened.cost.elim world.costs (upsert world.costs) at member
      cases written : opened.cost with
      | none =>
        rw [written] at member
        exact .inl member
      | some row =>
        rw [written] at member
        change cost ∈ upsert world.costs row at member
        unfold upsert at member
        split at member
        · rcases mem_updateWhere.1 member with ⟨_, _, _, rfl⟩ | ⟨known, _⟩
          · exact .inr ⟨opened, ⟨rfl, enabled⟩, written⟩
          · exact .inl known
        · rcases mem_inserted.1 member with known | rfl
          · exact .inl known
          · exact .inr ⟨opened, ⟨rfl, enabled⟩, written⟩
    | updateMany transition =>
      simp only [perform] at member
      split at member <;> exact .inl member
    | _ => exact .inl member
  · exact .inl member

/-- A commit adds one row of cost, at most. -/
theorem Sound.upsert_costs (member : opened ∈ world.opened) (written : opened.cost = some cost) :
    upsert world.costs cost = world.costs ++ [cost] := by
  refine if_neg ?_
  intro among
  obtain ⟨other, known, same⟩ := List.mem_map.1 among
  obtain ⟨job, found, named, held, _⟩ := sound.committed_job member
  obtain ⟨report, _, rfl⟩ := Option.map_eq_some_iff.1 written
  have none := sound.costsOf_eq_nil found held.active
  have paid : other ∈ world.costsOf job.id :=
    List.mem_filter.2 ⟨known, decide_eq_true (same.trans named.symm)⟩
  rw [none] at paid
  cases paid

/-- A job that has ended stays as it is. -/
theorem Sound.job_of_terminal
    {job : JobRow} (member : job ∈ world.jobs) (terminal : job.status.Terminal) :
    job ∈ (execute world step).jobs := by
  unfold execute
  split
  · rename_i enabled
    cases step with
    | ask => exact List.mem_append_left _ member
    | cancel cancelled =>
      obtain ⟨_, _, other, known, named, active⟩ := enabled
      refine mem_updateWhere.2 (.inr ⟨member, decide_eq_false ?_⟩)
      intro same
      have equal := List.inj_on_of_nodup_map sound.ids member known (same.trans named.symm)
      rw [equal] at terminal
      exact terminal active
    | plain statement =>
      refine List.mem_map.2 ⟨job, member, ?_⟩
      exact Statement.apply_of_not_selects fun selected => terminal (enabled.1.active selected)
    | commit opened =>
      exact List.mem_map.2 ⟨job, member, opened.transition.apply_of_terminal terminal⟩
    | updateMany transition =>
      simp only [perform]
      split <;> exact member
    | _ => exact member
  · exact member

/-- A job that has ended keeps its cost, or its lack of one. -/
theorem Sound.costsOf_of_terminal
    {job : JobRow} (member : job ∈ world.jobs) (terminal : job.status.Terminal) :
    (execute world step).costsOf job.id = world.costsOf job.id := by
  unfold execute
  split
  · rename_i enabled
    cases step with
    | updateMany transition =>
      simp only [perform]
      split <;> rfl
    | commit opened =>
      show List.filter _ (opened.cost.elim world.costs (upsert world.costs)) = _
      cases written : opened.cost with
      | none => rfl
      | some cost =>
        obtain ⟨other, found, named, held, _⟩ := sound.committed_job enabled.1
        obtain ⟨report, _, rfl⟩ := Option.map_eq_some_iff.1 written
        have different : opened.transition.jobId ≠ job.id := by
          intro same
          have equal := List.inj_on_of_nodup_map sound.ids found member (named.trans same)
          exact terminal (equal ▸ held.active)
        rw [Option.elim_some, sound.upsert_costs enabled.1 written, List.filter_append]
        simp [World.costsOf, different]
    | _ => rfl
  · rfl

/-- A job that has ended is answered no more. -/
theorem Sound.not_writes_of_terminal
    {job : JobRow} (member : job ∈ world.jobs) (terminal : job.status.Terminal) :
    ¬ Writes world step job.id := by
  rw [sound.writes_iff]
  rintro ⟨opened, ⟨rfl, enabled⟩, same, _⟩
  obtain ⟨other, found, named, held, _⟩ := sound.committed_job enabled.1
  have equal := List.inj_on_of_nodup_map sound.ids found member (named.trans same)
  exact terminal (equal ▸ held.active)

/-- A job becomes `DONE` by the commit of a report only. -/
theorem Sound.commits_of_done
    {job after : JobRow} (member : job ∈ world.jobs) (unfinished : job.status ≠ .done)
    (afterwards : after ∈ (execute world step).jobs) (same : after.id = job.id)
    (done : after.status = .done) :
    ∃ opened, Commits world step opened ∧
      opened.transition.jobId = job.id ∧ opened.transition.status = .done := by
  -- A row that was there already is the row of the job.
  have kept : after ∉ world.jobs := by
    intro known
    have equal := List.inj_on_of_nodup_map sound.ids known member same
    exact unfinished (equal ▸ done)
  unfold execute at afterwards
  split at afterwards
  · rename_i enabled
    cases step with
    | ask new chatId content =>
      rcases List.mem_append.1 afterwards with known | new
      · exact absurd known kept
      · rw [List.mem_singleton.1 new, enabled.1] at done
        cases done
    | cancel cancelled =>
      rcases mem_updateWhere.1 afterwards with ⟨_, _, _, rfl⟩ | ⟨known, _⟩
      · rw [enabled.1] at done
        cases done
      · exact absurd known kept
    | plain statement =>
      obtain ⟨old, known, rfl⟩ := List.mem_map.1 afterwards
      have equal := List.inj_on_of_nodup_map sound.ids known member
        (Statement.apply_id.symm.trans same)
      rw [equal] at done
      unfold Statement.apply at done
      split at done
      · exact absurd done (enabled.1.status_ne_done unfinished)
      · exact absurd done unfinished
    | commit opened =>
      obtain ⟨old, known, rfl⟩ := List.mem_map.1 afterwards
      have equal := List.inj_on_of_nodup_map sound.ids known member
        (Statement.apply_id.symm.trans same)
      rw [equal] at done
      unfold Statement.apply at done
      split at done
      · rename_i selected
        rw [Transition.status_set] at done
        refine ⟨opened, ⟨rfl, enabled⟩, (Transition.selects_id selected).symm, ?_⟩
        cases status : opened.transition.status <;> rw [status] at done <;>
          first
          | rfl
          | cases done
      · exact absurd done unfinished
    | updateMany transition =>
      simp only [perform] at afterwards
      split at afterwards <;> exact absurd afterwards kept
    | _ => exact absurd afterwards kept
  · exact absurd afterwards kept

/-- A job that runs is not started again, and the answer says so. -/
theorem Sound.execute_repeated
    {transition : Transition} {job : JobRow} (starts : transition.status = .running)
    (member : job ∈ world.jobs) (named : job.id = transition.jobId)
    (running : job.status = .running) :
    execute world (.updateMany transition) = world ∧
      (job.claimedByTokenId = some transition.tokenId →
        reread world transition = .ok job false) := by
  constructor
  · have missed : ¬ ∃ other ∈ world.jobs, transition.statement.Selects other := by
      rintro ⟨other, known, selected⟩
      have equal := List.inj_on_of_nodup_map sound.ids known member
        ((Transition.selects_id selected).trans named.symm)
      exact Transition.not_selects_running starts (equal ▸ running) selected
    unfold execute
    split
    · exact if_neg missed
    · rfl
  · intro owned
    have found : world.job? transition.jobId = some job := by
      cases search : world.job? transition.jobId with
      | none =>
        have absent := List.find?_eq_none.1 search job member
        exact absurd (decide_eq_true named) absent
      | some other =>
        have matched := @List.find?_some _ _ other world.jobs search
        have same : other.id = transition.jobId := of_decide_eq_true matched
        rw [List.inj_on_of_nodup_map sound.ids
          (List.mem_of_find?_eq_some search) member (same.trans named.symm)]
    unfold reread
    rw [found]
    simp [owned, running, starts]

omit sound

/-! ## Whole runs -/

/-- What the step may do to answers, states and costs. -/
structure Lawful (world : World) (step : Step) : Prop where
  /-- An answer is written by the commit of `DONE`, exactly when the chat of the
  job exists at that moment and the summary is not empty. -/
  answer : ∀ jobId, Writes world step jobId ↔
    ∃ opened, Commits world step opened ∧
      opened.transition.jobId = jobId ∧
      opened.transition.status = .done ∧ ¬ Falsy opened.transition.summary ∧
      ∃ chatId ∈ world.chatIds, world.chatId? jobId = some chatId
  /-- A commit takes its job from a held state to the reported one. -/
  commit : ∀ opened, Commits world step opened →
    ∃ job ∈ world.jobs, job.id = opened.transition.jobId ∧ job.status.Held ∧
      ∃ after ∈ (execute world step).jobs, after.id = job.id ∧
        after.status = opened.transition.status.jobStatus
  /-- Nothing else makes a job `DONE`. -/
  done : ∀ job ∈ world.jobs, job.status ≠ .done →
    ∀ after ∈ (execute world step).jobs, after.id = job.id →
      after.status = .done →
        ∃ opened, Commits world step opened ∧
          opened.transition.jobId = job.id ∧ opened.transition.status = .done
  /-- After the end of a job its row, its cost and its answers are written no
  more. -/
  ended : ∀ job ∈ world.jobs, job.status.Terminal →
    job ∈ (execute world step).jobs ∧ (execute world step).costsOf job.id = world.costsOf job.id ∧
      ¬ Writes world step job.id
  /-- A repeated `running` writes nothing. -/
  repeated : ∀ transition, step = .updateMany transition →
    transition.status = .running →
      ∀ job ∈ world.jobs, job.id = transition.jobId → job.status = .running →
        execute world step = world ∧ (job.claimedByTokenId = some transition.tokenId →
            reread world transition = .ok job false)

theorem Sound.lawful (sound : Sound world) (step : Step) : Lawful world step where
  answer := by
    intro jobId
    rw [sound.writes_iff]
    constructor
    · rintro ⟨opened, commits, rfl, answers⟩
      have enabled := commits.2
      rw [commits.1] at enabled
      obtain ⟨message, answer⟩ := Option.isSome_iff_exists.1 answers
      obtain ⟨_, ⟨done, said⟩, chatId, found, _⟩ := (sound.answer_eq_some enabled.1).1 answer
      exact ⟨opened, commits, rfl, done, said, chatId, sound.chatId?_exists found, found⟩
    · rintro ⟨opened, commits, rfl, done, said, chatId, _, found⟩
      have enabled := commits.2
      rw [commits.1] at enabled
      have answer := (sound.answer_eq_some enabled.1).2
        ⟨enabled.2, ⟨done, said⟩, chatId, found, rfl⟩
      exact ⟨opened, commits, rfl, Option.isSome_iff_exists.2 ⟨_, answer⟩⟩
  commit := by
    rintro opened ⟨rfl, enabled⟩
    obtain ⟨job, member, named, held, written⟩ := sound.committed_job enabled.1
    refine ⟨job, member, named, held, opened.transition.statement.set job, ?_,
      rfl, opened.transition.status_set job⟩
    rw [execute, if_pos enabled]
    exact written
  done := fun job member unfinished after afterwards same done =>
    sound.commits_of_done member unfinished afterwards same done
  ended := fun job member terminal =>
    ⟨sound.job_of_terminal member terminal, sound.costsOf_of_terminal member terminal,
      sound.not_writes_of_terminal member terminal⟩
  repeated := by
    rintro transition rfl starts job member named running
    exact sound.execute_repeated starts member named running

theorem sound_run (steps : List Step) : Sound (run execute World.empty steps) :=
  @run_invariant_always _ _ execute Sound
    (fun _ step sound => sound_execute sound step) _ sound_empty steps

/-- A job that has ended is the same at the end of any run. -/
theorem Sound.job_of_run (sound : Sound world) {job : JobRow} (member : job ∈ world.jobs)
    (terminal : job.status.Terminal) (steps : List Step) :
    job ∈ (run execute world steps).jobs := by
  have both := @run_invariant_always _ _ execute (fun world => Sound world ∧ job ∈ world.jobs)
    (fun _ step both => ⟨sound_execute both.1 step, both.1.job_of_terminal both.2 terminal⟩)
    _ ⟨sound, member⟩ steps
  exact both.2

/-- The step ends a job with this report of cost. -/
def EndsWith (world : World) (step : Step) (cost : JobCostReportRow) : Prop :=
  ∃ opened, Commits world step opened ∧
    opened.transition.jobId = cost.jobId ∧
    opened.transition.costReport = some cost.report ∧
    ∃ job ∈ world.jobs, job.id = cost.jobId ∧ job.status.Held ∧
      ∃ after ∈ (execute world step).jobs, after.id = cost.jobId ∧
        after.status.Terminal

theorem Sound.endsWith (sound : Sound world) (commits : Commits world step opened)
    (written : opened.cost = some cost) :
    EndsWith world step cost := by
  obtain ⟨report, reported, rfl⟩ := Option.map_eq_some_iff.1 written
  obtain ⟨job, member, named, held, after, afterwards, same, status⟩ :=
    (sound.lawful step).commit opened commits
  have ends := opened.transition.settled (by simp [reported])
  refine ⟨opened, commits, rfl, reported, job, member, named, held, after,
    afterwards, same.trans named, ?_⟩
  rw [status]
  cases reports : opened.transition.status <;> rw [reports] at ends <;>
    first
    | exact absurd rfl ends
    | decide

/-- Every row of cost was written by the step that ended its job. -/
theorem Sound.costs_run (sound : Sound world) (steps : List Step)
    (member : cost ∈ (run execute world steps).costs) :
    cost ∈ world.costs ∨ ∃ earlier step later, steps = earlier ++ step :: later ∧
        EndsWith (run execute world earlier) step cost := by
  induction steps generalizing world with
  | nil => exact .inl member
  | cons step rest ih =>
    rcases ih (sound_execute sound step) member with
      known | ⟨earlier, other, later, rfl, ends⟩
    · rcases costs_execute known with old | ⟨opened, commits, written⟩
      · exact .inl old
      · exact .inr ⟨[], step, rest, rfl, sound.endsWith commits written⟩
    · exact .inr ⟨step :: earlier, other, later, rfl, ends⟩

/-- After an answer its job is done. -/
theorem Sound.done_of_writes
    (sound : Sound world) {jobId : String} (writes : Writes world step jobId) :
    ∃ job ∈ (execute world step).jobs, job.id = jobId ∧ job.status = .done := by
  have some : 0 < ((execute world step).answers jobId).length :=
    Nat.lt_of_le_of_lt (Nat.zero_le _) writes
  obtain ⟨message, member⟩ := List.exists_mem_of_length_pos some
  obtain ⟨among, answers⟩ := List.mem_filter.1 member
  obtain ⟨role, named⟩ := of_decide_eq_true answers
  exact (sound_execute sound step).answered message among role jobId named

/-- An agent answers once. In every run a job has at most one answer, and at most
one step writes one; every step keeps the law of answers, states and costs; and
every cost was reported by the call that ended its job. -/
theorem answers_once (steps : List Step) :
    (∀ jobId, ((run execute World.empty steps).answers jobId).length ≤ 1) ∧
      (∀ jobId earlier first between second later,
        steps = earlier ++ first :: (between ++ second :: later) →
          Writes (run execute World.empty earlier) first jobId →
            ¬ Writes (run execute World.empty (earlier ++ first :: between))
              second jobId) ∧
      EveryStep execute Lawful World.empty steps ∧
      ∀ cost ∈ (run execute World.empty steps).costs,
        ∃ earlier step later, steps = earlier ++ step :: later ∧
          EndsWith (run execute World.empty earlier) step cost := by
  refine ⟨(sound_run steps).once, ?_, ?_, ?_⟩
  · rintro jobId earlier first between second later - writes
    have sound := sound_run earlier
    obtain ⟨job, member, rfl, done⟩ := sound.done_of_writes writes
    have terminal : job.status.Terminal := by
      rw [done]
      decide
    have kept :=
      (sound_execute sound first).job_of_run member terminal between
    rw [run_append, run_cons]
    refine Sound.not_writes_of_terminal ?_ kept terminal
    rw [← run_cons, ← run_append]
    exact sound_run _
  · exact @EveryStep.of_invariant _ _ execute (fun _ _ => True) Lawful Sound
      (fun _ step sound _ => sound_execute sound step)
      (fun _ step sound _ => sound.lawful step) _ _ sound_empty
      (everyStep_of_forall (fun _ _ _ => trivial) _)
  · intro cost member
    rcases sound_empty.costs_run steps member with none | found
    · cases none
    · exact found

/-! ## A run -/

namespace ChatRuns

def harness : WorkerRow where
  userId := "owner"
  tokenId := "harness"
  instanceId := "harness"
  productId := none
  runtime := .harness
  capabilities := []
  lastSeenAt := 0
  lastQuotaPct := none
  tier := none

def job : JobRow where
  id := "job"
  userId := "owner"
  productId := "product"
  taskId := none
  ideaId := none
  sprintRunId := none
  sprintSequence := none
  kind := .agentChat
  status := .queued
  runtime := .harness
  source := .manual
  requiredCapability := none
  workerInstanceId := none
  dispatchRequestId := none
  dispatchCandidateId := none
  createdAt := 0

def tables : WorkerTables where
  jobs := [job]
  incarnations := []
  profiles := []
  workers := []
  users := []
  now := 0

/-- The job is reported as done, with its cost. -/
def reported : Transition where
  jobId := "job"
  tokenId := "harness"
  status := .done
  summary := some "answer"
  error := none
  read := job
  costReport := some ⟨some "0", .localRun, none, "configuration"⟩
  now := 1
  settled := by decide

/-- A question, its claim and its answer; while it is answered the chat is
deleted, if it may be. -/
def steps (deletion : List Step) : List Step :=
  [.createChat ⟨"chat", 0⟩, .ask job "chat" "question",
    .plain (.tryClaimJob "job" harness tables none "" none 0),
    .updateMany reported, .readLink ⟨reported, .updated⟩] ++ deletion ++
  [.keyShare ⟨reported, .linked (some "chat")⟩,
    .deleteChat "chat", .commit ⟨reported, .shared (some "chat")⟩,
    .commit ⟨reported, .shared none⟩]

-- Once the chat is locked, its deletion has to wait.
example :
    ((run execute World.empty (steps [])).answers "job").map (·.content) =
      ["answer"] := by decide +kernel

example :
    (run execute World.empty (steps [.deleteChat "chat"])).answers "job" = [] ∧
      (run execute World.empty (steps [.deleteChat "chat"])).jobs.map (·.status) =
        [.done] := by decide +kernel

end ChatRuns

end Chats
end Scrum4Me
