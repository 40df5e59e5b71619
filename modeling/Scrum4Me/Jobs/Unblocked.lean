import Scrum4Me.Jobs.ClaimTurns

/-!
# A queue that is not blocked

The claimable jobs are a line that is served at its head. A job is reached if and only if
nothing before it comes back for ever.
-/

namespace Scrum4Me
namespace Jobs

open Foundation

variable {backlog backlog' : Backlog} {worker : WorkerRow} {now now' : Moment}
  {around : Surroundings} {job job' other : JobRow}

/-! ## The jobs after a turn -/

theorem Backlog.Sound.eq_of_id
    (sound : backlog.Sound) (member : job ∈ backlog.jobs) (member' : other ∈ backlog.jobs)
    (same : job.id = other.id) :
    job = other :=
  List.inj_on_of_nodup_map sound.distinct member member' same

theorem mem_claimable :
    job ∈ backlog.claimable worker now ↔ job ∈ backlog.jobs ∧ backlog.Claimable worker now job := by
  rw [Backlog.claimable, List.mem_filter, mem_oldestFirst, decide_eq_true_iff]

/-- Each job after the turn is alike to one before it. -/
theorem Turned.alike (turned : Turned around backlog worker job backlog' job')
    (found : other ∈ backlog'.jobs) :
    other = job' ∨ other ∈ backlog.jobs ∧ other.id ≠ job.id := by
  rw [turned.jobs, rewritten] at found
  obtain ⟨row, among, rfl⟩ := List.mem_map.mp found
  split
  · exact .inl rfl
  · rename_i differs
    exact .inr ⟨among, fun same => differs (same.trans (still_id turned.still).symm)⟩

theorem Turned.mem_other (turned : Turned around backlog worker job backlog' job')
    (member : other ∈ backlog.jobs) (differs : other.id ≠ job.id) :
    other ∈ backlog'.jobs := by
  rw [turned.jobs, rewritten]
  refine List.mem_map.mpr ⟨other, member, if_neg fun same => ?_⟩
  exact differs (same.trans (still_id turned.still))

theorem Turned.mem_own (turned : Turned around backlog worker job backlog' job')
    (member : job ∈ backlog.jobs) :
    job' ∈ backlog'.jobs := by
  rw [turned.jobs, rewritten]
  exact List.mem_map.mpr ⟨job, member, if_pos (still_id turned.still).symm⟩

/-- What every job after the turn keeps of a job before it. -/
theorem Turned.exists_still (member : job ∈ backlog.jobs)
    (turned : Turned around backlog worker job backlog' job') (found : other ∈ backlog'.jobs) :
    ∃ row ∈ backlog.jobs, other.still = row.still := by
  obtain rfl | ⟨among, _⟩ := turned.alike found
  · exact ⟨job, member, turned.still⟩
  · exact ⟨other, among, rfl⟩

theorem Turned.sound (sound : backlog.Sound) (member : job ∈ backlog.jobs)
    (turned : Turned around backlog worker job backlog' job') :
    backlog'.Sound where
  distinct := by
    have ids : backlog'.jobs.map (·.id) = backlog.jobs.map (·.id) := by
      rw [turned.jobs, rewritten, List.map_map]
      refine List.map_congr_left fun row _ => ?_
      simp only [Function.comp_apply]
      split
      · rename_i same
        exact same.symm
      · rfl
    rw [ids]
    exact sound.distinct
  runner := by
    intro sprint among kind other found ofRun same
    obtain ⟨row, member', still⟩ := turned.exists_still member among
    obtain ⟨row', member'', still'⟩ := turned.exists_still member found
    have own := sound.runner row member' ((still_kind still).symm.trans kind) row' member''
      (still_sprintRunId still' ▸ ofRun)
      ((still_sprintRunId still').symm.trans (same.trans (still_sprintRunId still)))
    exact (still_id still').trans (own.trans (still_id still).symm)

/-- The turn unblocks and blocks no task of a sprint. -/
theorem Turned.earlierSibling
    (sound : backlog.Sound) (member : job ∈ backlog.jobs) (queued : job.status = .queued)
    (turned : Turned around backlog worker job backlog' job') {row row' : JobRow}
    (still : row'.still = row.still) :
    EarlierSibling backlog'.jobs row' ↔ EarlierSibling backlog.jobs row := by
  have run := still_sprintRunId still
  have sequence := still_sprintSequence still
  constructor
  · rintro ⟨earlier, found, ⟨id, own, same⟩, kind, ⟨before, first, after, second, less⟩, active⟩
    rw [run] at own
    rw [sequence] at second
    obtain rfl | ⟨among, _⟩ := turned.alike found
    · exact ⟨job, member, ⟨id, own, still_sprintRunId turned.still ▸ same⟩,
        still_kind turned.still ▸ kind,
        ⟨before, still_sprintSequence turned.still ▸ first, after, second, less⟩,
        .inl queued⟩
    · exact ⟨earlier, among, ⟨id, own, same⟩, kind, ⟨before, first, after, second, less⟩, active⟩
  · rintro ⟨earlier, among, ⟨id, own, same⟩, kind, ⟨before, first, after, second, less⟩, active⟩
    rw [← run] at own
    rw [← sequence] at second
    by_cases self : earlier.id = job.id
    · obtain rfl := sound.eq_of_id among member self
      exact ⟨job', turned.mem_own member, ⟨id, own, still_sprintRunId turned.still ▸ same⟩,
        still_kind turned.still ▸ kind,
        ⟨before, still_sprintSequence turned.still ▸ first, after, second, less⟩,
        turned.active kind (by simp [same])⟩
    · exact ⟨earlier, turned.mem_other among self, ⟨id, own, same⟩, kind,
        ⟨before, first, after, second, less⟩, active⟩

theorem Turned.claimable_congr
    (sound : backlog.Sound) (member : job ∈ backlog.jobs) (queued : job.status = .queued)
    (turned : Turned around backlog worker job backlog' job') {row row' : JobRow}
    (still : row'.still = row.still) (status : row'.status = row.status)
    (apart : row.sprintRunId = none ∨ row.sprintRunId ≠ job.sprintRunId ∨
      job.kind ≠ .sprintImplementation ∨ job'.status = .queued) :
    backlog'.Claimable worker now' row' ↔ backlog.Claimable worker now row := by
  have runOpen : RunOpen backlog' row' ↔ RunOpen backlog row := by
    have same : backlog'.runOf row' = backlog'.runOf row := by
      unfold Backlog.runOf
      rw [still_sprintRunId still]
    unfold RunOpen
    rw [same]
    exact turned.runOpen row apart
  rw [claimable_iff, claimable_iff, whereFragment_congr still status, whereFragment_iff,
    whereFragment_iff, sprintClause_holds, sprintClause_holds, still_kind still,
    still_sprintRunId still, turned.earlierSibling sound member queued still,
    ordinaryKind_congr runOpen]
  exact Iff.rfl

/-! ## The line after a turn -/

theorem claimable_now (now now' : Moment) :
    backlog.claimable worker now = backlog.claimable worker now' := by
  unfold Backlog.claimable
  refine List.filter_congr fun row _ => ?_
  rw [decide_eq_decide, claimable_iff, claimable_iff]

theorem pairwise_claimable (sound : backlog.Sound) :
    (backlog.claimable worker now).Pairwise fun first second =>
      first.claimKey < second.claimKey := by
  have keys : (backlog.jobs.map JobRow.claimKey).Nodup := by
    refine (List.Nodup.of_map (fun key : Moment ×ₗ Int ×ₗ String => (ofLex (ofLex key).2).2) ?_)
    rw [List.map_map]
    exact sound.distinct
  exact (pairwise_lt_oldestFirst keys).filter _

theorem nodup_claimable_ids (sound : backlog.Sound) :
    ((backlog.claimable worker now).map (·.id)).Nodup :=
  ((perm_oldestFirst.map JobRow.id).nodup_iff.mpr sound.distinct).sublist
    (List.filter_sublist.map _)

/-- The head is claimed; it is the head again, or it is gone. -/
theorem Turned.claimable_eq
    (sound : backlog.Sound) (turned : Turned around backlog worker job backlog' job')
    {rest : List JobRow} (line : backlog.claimable worker now = job :: rest) :
    backlog'.claimable worker now' = if job'.status = .queued then job' :: rest else rest := by
  have ids := @nodup_claimable_ids backlog worker now sound
  obtain ⟨member, claimable⟩ := mem_claimable.mp (line ▸ List.mem_cons_self)
  have queued := claimable.queued
  have sameId := still_id turned.still
  unfold Backlog.claimable at line
  obtain ⟨before, after, sorted, none, _, rfl⟩ := List.filter_eq_cons_iff.mp line
  have sortedIds : ((before ++ job :: after).map (·.id)).Nodup := by
    rw [← sorted]
    exact (perm_oldestFirst.map JobRow.id).nodup_iff.mpr sound.distinct
  -- The other jobs are as they were, and claimable if they were.
  have other : ∀ row ∈ before ++ after, row.id ≠ job.id := by
    intro row among same
    have apart := List.perm_middle.map JobRow.id |>.nodup_iff.mp sortedIds
    exact (List.nodup_cons.mp apart).1 (same ▸ List.mem_map_of_mem among)
  have inTable : ∀ row ∈ before ++ after, row ∈ backlog.jobs := by
    intro row among
    rw [← @mem_oldestFirst _ _ _ JobRow.claimKey backlog.jobs, sorted]
    rcases List.mem_append.mp among with among | among
    · exact List.mem_append_left _ among
    · exact List.mem_append_right _ (List.mem_cons_of_mem _ among)
  have same : ∀ row ∈ before ++ after,
      (backlog'.Claimable worker now' row ↔ backlog.Claimable worker now row) := by
    intro row among
    refine turned.claimable_congr sound member queued rfl rfl ?_
    by_cases absent : row.sprintRunId = .none
    · exact .inl absent
    · by_cases sprint : job.kind = .sprintImplementation
      · refine .inr (.inl fun sameRun => other row among ?_)
        exact sound.runner job member sprint row (inTable row among) absent sameRun
      · exact .inr (.inr (.inl sprint))
  have jobs : oldestFirst JobRow.claimKey backlog'.jobs = before ++ job' :: after := by
    rw [turned.jobs, rewritten, oldestFirst_map, sorted, List.map_append, List.map_cons,
      if_pos sameId.symm]
    · have unchanged : ∀ rows : List JobRow, (∀ row ∈ rows, row.id ≠ job.id) →
          rows.map (fun other => if other.id = job'.id then job' else other) = rows := by
        intro rows apart
        refine (List.map_congr_left fun row among => ?_).trans (List.map_id rows)
        exact if_neg fun own => apart row among (own.trans sameId)
      rw [unchanged before fun row among => other row (List.mem_append_left _ among),
        unchanged after fun row among => other row (List.mem_append_right _ among)]
    · intro row among
      split
      · rename_i own
        rw [sound.eq_of_id among member (own.trans sameId)]
        exact still_claimKey turned.still
      · rfl
  have filtered : ∀ rows : List JobRow, (∀ row ∈ rows, row ∈ before ++ after) →
      (rows.filter fun row => backlog'.Claimable worker now' row) =
        rows.filter fun row => backlog.Claimable worker now row := by
    intro rows among
    exact List.filter_congr fun row member => decide_eq_decide.mpr (same row (among row member))
  unfold Backlog.claimable
  rw [jobs, List.filter_append, filtered before fun row => List.mem_append_left _,
    List.filter_eq_nil_iff.mpr none, List.nil_append, List.filter_cons,
    filtered after fun row => List.mem_append_right _]
  by_cases requeued : job'.status = .queued
  · have back : backlog'.Claimable worker now' job' :=
      (turned.claimable_congr sound member queued turned.still (requeued.trans queued.symm)
        (.inr (.inr (.inr requeued)))).mpr claimable
    rw [if_pos (decide_eq_true back), if_pos requeued]
  · have gone : ¬ backlog'.Claimable worker now' job' := fun back => requeued back.queued
    rw [if_neg (by simpa using gone), if_neg requeued]

/-! ## How often a job comes back -/

open Classical in
/-- For ever, once, or not at all. -/
noncomputable def returnsOf
    (around : Surroundings) (runtime : AgentRuntime) (runs : List SprintRunRow)
    (job : JobRow) :
    Option Nat :=
  if ComesBack around job runtime runs then none
  else if Unreachable around job runtime ∧ job.retryCount = 0 then some 1
  else some 0

variable {runtime : AgentRuntime} {runs : List SprintRunRow}

theorem returnsOf_eq_none :
    returnsOf around runtime runs job = none ↔ ComesBack around job runtime runs := by
  unfold returnsOf
  split_ifs <;> simp_all

theorem returnsOf_le : (returnsOf around runtime runs job).getD 0 + 1 ≤ 2 := by
  unfold returnsOf
  split_ifs <;> simp

theorem returnsOf_congr {runs' : List SprintRunRow}
    (sameRuns : runs'.map (·.id) = runs.map (·.id)) :
    returnsOf around runtime runs' = returnsOf around runtime runs := by
  funext job
  unfold returnsOf
  rw [comesBack_congr rfl sameRuns]

theorem Turned.taken
    (sound : backlog.Sound) (turned : Turned around backlog worker job backlog' job')
    {rest : List JobRow} (line : backlog.claimable worker now = job :: rest) :
    Taken (returnsOf around worker.runtime backlog.runs) (backlog.claimable worker now)
      (backlog'.claimable worker now') := by
  have next := @Turned.claimable_eq backlog backlog' worker now now' around job job' sound
    turned rest line
  have comes : ComesBack around job' worker.runtime backlog.runs ↔
      ComesBack around job worker.runtime backlog.runs := comesBack_congr turned.still rfl
  rw [next, line]
  rcases turned.outcome with ⟨back, queued⟩ | ⟨leaves, waits, first, queued, counted⟩ |
    ⟨leaves, last, gone⟩
  · rw [if_pos queued]
    exact .blocks (returnsOf_eq_none.mpr back) (returnsOf_eq_none.mpr (comes.mpr back))
  · rw [if_pos queued]
    have own : returnsOf around worker.runtime backlog.runs job = some (0 + 1) := by
      rw [returnsOf, if_neg leaves, if_pos ⟨waits, first⟩]
    refine .comesBack own ?_
    rw [returnsOf, if_neg fun back => leaves (comes.mp back), if_neg]
    rintro ⟨_, zero⟩
    exact absurd (counted.symm.trans zero) (by decide)
  · rw [if_neg gone]
    refine .leaves ?_
    rw [returnsOf, if_neg leaves, if_neg]
    rintro ⟨waits, zero⟩
    exact absurd zero (last waits).ne'

/-! ## Turn after turn -/

/-- A turn takes the head of the line, if there is one. -/
theorem claimTurn_taken (sound : backlog.Sound) :
    (claimTurn around worker backlog now).1.Sound ∧
      (claimTurn around worker backlog now).1.runs.map (·.id) = backlog.runs.map (·.id) ∧
      Taken (returnsOf around worker.runtime backlog.runs) (backlog.claimable worker now')
        ((claimTurn around worker backlog now).1.claimable worker now') := by
  cases line : backlog.claimable worker now with
  | nil =>
    have idle : claimTurn around worker backlog now = (backlog, none) := by
      unfold claimTurn tryClaimJob
      rw [line]
      rfl
    rw [idle, claimable_now now' now, line]
    exact ⟨sound, rfl, .nobody⟩
  | cons job rest =>
    obtain ⟨member, claimable⟩ := mem_claimable.mp (line ▸ List.mem_cons_self)
    obtain ⟨⟨job', turned⟩, _⟩ := @claimTurn_turned backlog worker now around job claimable
      (by rw [line]; rfl)
    rw [claimable_now now' now]
    exact ⟨turned.sound sound member, turned.runIds, turned.taken sound line⟩

theorem claimTurns_taken (sound : backlog.Sound) (moments : List Moment) :
    (claimTurns around worker backlog moments).Sound ∧
      (claimTurns around worker backlog moments).runs.map (·.id) = backlog.runs.map (·.id) ∧
      TakenTimes (returnsOf around worker.runtime backlog.runs) moments.length
        (backlog.claimable worker now)
        ((claimTurns around worker backlog moments).claimable worker now) := by
  induction moments generalizing backlog with
  | nil => exact ⟨sound, rfl, .zero⟩
  | cons moment moments ih =>
    obtain ⟨sound', runs, taken⟩ := @claimTurn_taken backlog worker moment now around sound
    obtain ⟨sound'', runs', more⟩ := ih sound'
    rw [returnsOf_congr runs] at more
    exact ⟨sound'', runs'.trans runs, .succ taken more⟩

theorem claims_append (first second : List Moment) :
    claims around worker backlog (first ++ second) = claims around worker backlog first ++
        claims around worker (claimTurns around worker backlog first) second := by
  induction first generalizing backlog with
  | nil => rfl
  | cons moment first ih => rw [List.cons_append, claims, claims, claimTurns, ih, List.append_assoc]

/-- Behind a job that comes back for ever nothing is claimed. -/
theorem not_claimed_of_blocked (sound : backlog.Sound) {before rest : List JobRow} {poison : JobRow}
    (line : backlog.claimable worker now = before ++ poison :: rest)
    (forever : ComesBack around poison worker.runtime backlog.runs) (behind : job ∈ rest)
    (moments : List Moment) (answer : Answer) :
    (job.id, answer) ∉ claims around worker backlog moments := by
  induction moments generalizing backlog before poison with
  | nil => exact List.not_mem_nil
  | cons moment moments ih =>
    obtain ⟨sound', runs, taken⟩ := @claimTurn_taken backlog worker moment now around sound
    rw [line] at taken
    obtain ⟨before', poison', next, still⟩ := taken.blocked (returnsOf_eq_none.mpr forever)
    intro claimed
    rw [claims] at claimed
    rcases List.mem_append.mp claimed with here | later
    · -- The head is the blocking job, or stands before it.
      have ids := @nodup_claimable_ids backlog worker now sound
      rw [line] at ids
      cases head : backlog.claimable worker moment with
      | nil =>
        rw [claimable_now moment now, line] at head
        cases before <;> cases head
      | cons first others =>
        have claimable := (mem_claimable.mp (head ▸ List.mem_cons_self)).2
        obtain ⟨_, given⟩ := @claimTurn_turned backlog worker moment around first claimable
          (by rw [head]; rfl)
        rw [given] at here
        have same : job.id = first.id := (Prod.mk.inj (List.mem_singleton.mp here)).1
        rw [claimable_now moment now, line] at head
        cases before with
        | nil =>
          obtain ⟨rfl, _⟩ := List.cons.inj head
          exact (List.nodup_cons.mp ids).1 (List.mem_map.mpr ⟨job, behind, same⟩)
        | cons early before =>
          obtain ⟨rfl, _⟩ := List.cons.inj head
          exact (List.nodup_cons.mp ids).1 (List.mem_map.mpr ⟨job,
            List.mem_append_right _ (List.mem_cons_of_mem _ behind), same⟩)
    · exact ih sound' next ((comesBack_congr rfl runs).mpr (returnsOf_eq_none.mp still)) later

/-! ## The jobs that can be served -/

/-- Every job that can be served is claimed, with its context, within so many turns. -/
def ServedWithin (around : Surroundings) (worker : WorkerRow) (backlog : Backlog) (bound : Nat) :
    Prop :=
  ∀ moments : List Moment, bound ≤ moments.length →
    ∀ now, ∀ job ∈ backlog.claimable worker now, Serviceable around backlog worker job →
      (job.id, Answer.context) ∈ claims around worker backlog moments

/-- No job whose claim is rolled back each time stands before a job that can be served. -/
def Unblocked (around : Surroundings) (worker : WorkerRow) (backlog : Backlog) : Prop :=
  ∀ now, ∀ job ∈ backlog.claimable worker now, Serviceable around backlog worker job →
    ∀ other ∈ backlog.claimable worker now, other.claimKey < job.claimKey →
      ¬ ComesBack around other worker.runtime backlog.runs

/-- The job at the head gets its context. -/
theorem claims_of_head
    {first : Backlog} (sameRuns : first.runs.map (·.id) = backlog.runs.map (·.id))
    (claimable : backlog.Claimable worker now job)
    (serviceable : Serviceable around backlog worker job) {rest : List JobRow}
    (line : first.claimable worker now' = job :: rest) (moments : List Moment) :
    (job.id, Answer.context) ∈ claims around worker first (now' :: moments) := by
  have own := (mem_claimable.mp (line ▸ List.mem_cons_self)).2
  obtain ⟨_, given⟩ := @claimTurn_turned first worker now' around job own (by rw [line]; rfl)
  have sameRow : claimedRow around worker first now' job =
      claimedRow around worker backlog now' job := by
    have elsewhere : backlog.Claimable worker now' job := by
      rw [claimable_iff] at claimable ⊢
      exact claimable
    rw [claimedRow_eq own, claimedRow_eq elsewhere]
    rfl
  rw [claims, given, sameRow, getFullJobContext_congr sameRuns, serviceable now']
  exact List.mem_append_left _ (by simp)

/-- Every job that can be served is served, within two turns for each job of the line, if
and only if no job that comes back for ever stands before one. -/
theorem servedWithin_iff_unblocked (sound : backlog.Sound) :
    (Unblocked around worker backlog →
      ServedWithin around worker backlog (2 * (backlog.claimable worker now).length)) ∧
    (∀ bound, ServedWithin around worker backlog bound → Unblocked around worker backlog) := by
  constructor
  · intro unblocked moments enough now' job member serviceable
    obtain ⟨before, after, line⟩ := List.append_of_mem member
    have sorted := @pairwise_claimable backlog worker now' sound
    rw [line] at sorted
    have finite : ∀ other ∈ before,
        returnsOf around worker.runtime backlog.runs other ≠ none := by
      intro other early forever
      refine unblocked now' job member serviceable other ?_ ?_ (returnsOf_eq_none.mp forever)
      · rw [line]
        exact List.mem_append_left _ early
      · exact (List.pairwise_append.mp sorted).2.2 other early job List.mem_cons_self
    -- The turns that the jobs before it take leave one for the job itself.
    have few : turnsOf (returnsOf around worker.runtime backlog.runs) before <
        moments.length := by
      have most := @turnsOf_le _ (returnsOf around worker.runtime backlog.runs) before 2
        fun other _ => returnsOf_le
      rw [claimable_now now now', line, List.length_append, List.length_cons] at enough
      omega
    obtain ⟨first, moment, others, rfl, count⟩ : ∃ first moment others,
        moments = first ++ moment :: others ∧
          first.length = turnsOf (returnsOf around worker.runtime backlog.runs) before := by
      generalize turnsOf (returnsOf around worker.runtime backlog.runs) before = count at few
      refine ⟨moments.take count, moments[count], moments.drop (count + 1), ?_,
        List.length_take_of_le few.le⟩
      rw [List.cons_getElem_drop_succ, List.take_append_drop]
    obtain ⟨sound', runs, taken⟩ :=
      @claimTurns_taken backlog worker moment around sound first
    rw [claimable_now moment now', line, count] at taken
    have head := taken.leave finite rfl
    rw [claims_append]
    exact List.mem_append_right _
      (claims_of_head runs (mem_claimable.mp member).2 serviceable head others)
  · intro bound served now' job member serviceable other among earlier comes
    obtain ⟨before, after, line⟩ := List.append_of_mem among
    have sorted := @pairwise_claimable backlog worker now' sound
    rw [line] at sorted member
    have behind : job ∈ after := by
      rcases List.mem_append.mp member with early | late
      · exact absurd ((List.pairwise_append.mp sorted).2.2 job early other
          List.mem_cons_self) (lt_asymm earlier)
      · exact (List.mem_cons.mp late).resolve_left fun same =>
          absurd earlier (same ▸ lt_irrefl _)
    refine not_claimed_of_blocked sound line comes behind (List.replicate bound 0) .context ?_
    refine served _ (by simp) now' job ?_ serviceable
    rw [line]
    exact member

/-! ## A review without a pull request -/

def nothingFound : Findings where
  outOfScope := false
  chatSkip := none
  docId := none
  doc := none
  task := none
  impl := ⟨none, none, none⟩
  repoUrl := none
  compareDiff := .error "404"
  prDiff := .error "404"
  deployFlow := none
  draft := false
  idea := none
  productWorktrees := fun _ => true
  repoRoot := .resolved
  sprintWorktree := true
  scopeSaved := true

def oneHost : Surroundings where
  resolver := ⟨fun _ _ _ => none, fun _ _ _ _ _ => rfl⟩
  hosts := ["forge"]
  found := fun _ => nothingFound
  plan := fun _ => ""
  cutoff := fun _ => none

def reviewer : WorkerRow where
  userId := "user"
  tokenId := "token"
  instanceId := "worker"
  productId := none
  runtime := .claude
  capabilities := ["review"]
  lastSeenAt := 0
  lastQuotaPct := none
  tier := none

/-- A review that waits since then. -/
def queuedReview (id : String) (since : Moment) (prUrl : Option String) : JobRow where
  id := id
  userId := "user"
  productId := "product"
  taskId := none
  ideaId := none
  sprintRunId := none
  sprintSequence := none
  kind := .prReview
  status := .queued
  runtime := .claude
  source := .manual
  requiredCapability := none
  workerInstanceId := none
  dispatchRequestId := none
  dispatchCandidateId := none
  createdAt := since
  prUrl := prUrl

/-- The older review has no pull request. -/
def twoReviews : Backlog where
  jobs := [queuedReview "old" 1 none,
    queuedReview "new" 2 (some "https://forge/owner/repo/pulls/7")]
  runs := []

theorem sound_twoReviews : twoReviews.Sound where
  distinct := by decide
  runner := by
    intro sprint member kind
    rcases List.mem_pair.mp member with rfl | rfl <;> cases kind

theorem claimable_twoReviews (now : Moment) :
    twoReviews.claimable reviewer now = twoReviews.jobs := by
  rw [claimable_now now 0]
  decide +kernel

theorem servedWithin_iff_unblocked_twoReviews :
    twoReviews.Sound ∧
    (Unblocked oneHost reviewer twoReviews → ServedWithin oneHost reviewer twoReviews
      (2 * (twoReviews.claimable reviewer 0).length)) ∧
    (∀ bound, ServedWithin oneHost reviewer twoReviews bound →
      Unblocked oneHost reviewer twoReviews) :=
  ⟨sound_twoReviews, servedWithin_iff_unblocked sound_twoReviews⟩

/-- The newer review can be served, and is claimed in no number of turns. -/
theorem twoReviews_blocked :
    (twoReviews.Sound ∧
      ∃ job ∈ twoReviews.claimable reviewer 0, Serviceable oneHost twoReviews reviewer job ∧
        ∀ moments : List Moment, ∀ answer : Answer,
          (job.id, answer) ∉ claims oneHost reviewer twoReviews moments) ∧
    ∀ bound, ¬ ServedWithin oneHost reviewer twoReviews bound := by
  have line := claimable_twoReviews 0
  have member : queuedReview "new" 2 (some "https://forge/owner/repo/pulls/7") ∈
      twoReviews.claimable reviewer 0 := by
    rw [line]
    exact List.mem_cons_of_mem _ List.mem_cons_self
  have serviceable : Serviceable oneHost twoReviews reviewer
      (queuedReview "new" 2 (some "https://forge/owner/repo/pulls/7")) := by
    intro now
    have parses : ForgejoPrUrl oneHost.hosts "https://forge/owner/repo/pulls/7" := by
      decide +kernel
    rw [claimable_now 0 now] at member
    rw [claimedRow_eq (mem_claimable.mp member).2]
    simp [getFullJobContext, contextByKind, Statement.set, queuedReview, JobRow.Unmanaged,
      reviewer, oneHost] at parses ⊢
    exact if_pos parses ▸ rfl
  have comes : ComesBack oneHost (queuedReview "old" 1 none) reviewer.runtime
      twoReviews.runs :=
    ⟨by decide +kernel, .inl ⟨rfl, by decide +kernel⟩⟩
  have never := fun moments answer => @not_claimed_of_blocked _ _ _ _ _ sound_twoReviews []
    _ _ line comes List.mem_cons_self moments answer
  refine ⟨⟨sound_twoReviews, _, member, serviceable, never⟩, fun bound served => ?_⟩
  exact never (List.replicate bound 0) .context (served _ (by simp) 0 _ member serviceable)

end Jobs
end Scrum4Me
