import Scrum4Me.Chats.AgentChat

/-!
# The invariant of conversations

An open transaction holds the row of its job, so the row stays as it was when the
guarded update selected it, and from the moment that it locks the chat on, what
it knows of the chat is so. A job with an answer is done, and a job with a cost
has ended.
-/

namespace Scrum4Me
namespace Chats

open Foundation Jobs

variable {world : World} {step : Step} {opened : Opened}

/-! ## What statements select -/

variable {transition : Transition} {job : JobRow}

theorem Transition.held (selected : transition.statement.Selects job) : job.status.Held := by
  have status := selected.2.2
  split at status
  · exact .inl status
  · exact status

theorem Transition.selects_id (selected : transition.statement.Selects job) :
    job.id = transition.jobId :=
  selected.1

/-- A job that is running is not started again. -/
theorem Transition.not_selects_running (starts : transition.status = .running)
    (running : job.status = .running) :
    ¬ transition.statement.Selects job := by
  intro selected
  have sameStatus : transition.report.status = .running := starts
  have status := selected.2.2
  rw [if_pos sameStatus, running] at status
  cases status

theorem Transition.status_set (transition : Transition) (job : JobRow) :
    (transition.statement.set job).status = transition.status.jobStatus := rfl

variable {statement : Statement}

/-- The statements of workers select active jobs. -/
theorem Plain.active (plain : Plain statement) (selected : statement.Selects job) :
    job.status.Active := by
  cases statement with
  | tryClaimJob => exact .inl (Statement.claimQuery_holds selected.2).1
  | staleFailed => exact selected.2.2.1.active
  | staleRequeued => exact selected.2.2.1.active
  | refreshOwnership => exact selected.2.2.2.active
  | rollbackClaim => exact selected.2.2.2.active
  | releaseMismatchedClaim => exact .inr (.inl selected.2.1)
  | skipAgentChatJob => exact .inr (.inl selected.2.1)
  | _ => exact plain.elim

/-- They neither finish a job nor answer it. -/
theorem Plain.status_ne_done (plain : Plain statement) (unfinished : job.status ≠ .done) :
    (statement.set job).status ≠ .done := by
  cases statement with
  | refreshOwnership => exact unfinished
  | tryClaimJob => exact nofun
  | staleFailed => exact nofun
  | staleRequeued => exact nofun
  | rollbackClaim => exact nofun
  | releaseMismatchedClaim => exact nofun
  | skipAgentChatJob => exact nofun
  | _ => exact plain.elim

/-! ## The invariant -/

/-- What a transaction knows of the chat of its job is so, up to chats that were
deleted since it read the link and before it locked the chat. -/
def Opened.Knows (opened : Opened) (world : World) : Prop :=
  match opened.stage with
  | .updated => True
  | .linked chatId =>
      opened.transition.Answers ∧
        world.chatId? opened.transition.jobId =
          chatId.filter (· ∈ world.chatIds)
  | .shared chatId =>
      opened.transition.Answers ∧
        world.chatId? opened.transition.jobId = chatId

/-- What every reachable state satisfies. -/
structure Sound (world : World) : Prop where
  ids : (world.jobs.map (·.id)).Nodup
  linked : ∀ link ∈ world.links, ∀ chatId ∈ link.chatId, chatId ∈ world.chatIds
  locks : world.locked.Nodup
  held : ∀ opened ∈ world.opened,
    ∃ job ∈ world.jobs, opened.transition.statement.Selects job
  knows : ∀ opened ∈ world.opened, opened.Knows world
  answered : ∀ message ∈ world.messages, message.role = .assistant →
    ∀ jobId ∈ message.jobId, ∃ job ∈ world.jobs, job.id = jobId ∧ job.status = .done
  once : ∀ jobId, (world.answers jobId).length ≤ 1
  paid : ∀ cost ∈ world.costs,
    ∃ job ∈ world.jobs, job.id = cost.jobId ∧ job.status.Terminal

theorem sound_empty : Sound World.empty where
  ids := List.nodup_nil
  linked := List.forall_mem_nil _
  locks := List.nodup_nil
  held := List.forall_mem_nil _
  knows := List.forall_mem_nil _
  answered := List.forall_mem_nil _
  once := fun _ => Nat.zero_le 1
  paid := List.forall_mem_nil _

variable (sound : Sound world)

include sound

/-- The linked chat exists. -/
theorem Sound.chatId?_exists {jobId chatId : String} (found : world.chatId? jobId = some chatId) :
    chatId ∈ world.chatIds := by
  obtain ⟨link, search, column⟩ := Option.bind_eq_some_iff.1 found
  exact sound.linked link (List.mem_of_find?_eq_some search) chatId column

theorem Sound.filter_chatId? (jobId : String) :
    (world.chatId? jobId).filter (· ∈ world.chatIds) = world.chatId? jobId := by
  cases found : world.chatId? jobId with
  | none => rfl
  | some chatId => simp [sound.chatId?_exists found]

/-- A job that goes on has no answer. -/
theorem Sound.answers_eq_nil (member : job ∈ world.jobs) (unfinished : job.status ≠ .done) :
    world.answers job.id = [] := by
  rw [World.answers, List.filter_eq_nil_iff]
  intro message among answers
  obtain ⟨role, jobId⟩ := of_decide_eq_true answers
  obtain ⟨other, known, same, done⟩ := sound.answered message among role _ jobId
  have equal := List.inj_on_of_nodup_map sound.ids known member same
  exact unfinished (equal ▸ done)

/-- A job that goes on has no cost. -/
theorem Sound.costsOf_eq_nil (member : job ∈ world.jobs) (active : job.status.Active) :
    world.costsOf job.id = [] := by
  rw [World.costsOf, List.filter_eq_nil_iff]
  intro cost among same
  obtain ⟨other, known, named, terminal⟩ := sound.paid cost among
  have equal := List.inj_on_of_nodup_map sound.ids known member
    (named.trans (of_decide_eq_true same))
  exact terminal (equal ▸ active)

/-! ## What each step preserves -/

/-- Rows of jobs change that no transaction holds and that have not ended. -/
theorem Sound.withJobs {change : JobRow → JobRow} (sameId : ∀ job, (change job).id = job.id)
    (ended : ∀ job ∈ world.jobs, job.status.Terminal → change job = job)
    (unlocked : ∀ job ∈ world.jobs, job.id ∈ world.locked → change job = job) :
    Sound { world with jobs := world.jobs.map change } :=
  { sound with
    ids := by
      have ids : (world.jobs.map change).map (·.id) = world.jobs.map (·.id) := by
        rw [List.map_map]
        exact List.map_congr_left fun job _ => sameId job
      show ((world.jobs.map change).map (·.id)).Nodup
      rw [ids]
      exact sound.ids
    held := by
      intro opened member
      obtain ⟨job, known, selected⟩ := sound.held opened member
      have locked : job.id ∈ world.locked :=
        List.mem_map.2 ⟨opened, member, (Transition.selects_id selected).symm⟩
      exact ⟨job, List.mem_map.2 ⟨job, known, unlocked job known locked⟩, selected⟩
    answered := by
      intro message member role jobId named
      obtain ⟨job, known, same, done⟩ := sound.answered message member role jobId named
      have terminal : job.status.Terminal := by
        rw [done]
        decide
      exact ⟨job, List.mem_map.2 ⟨job, known, ended job known terminal⟩, same, done⟩
    paid := by
      intro cost member
      obtain ⟨job, known, same, terminal⟩ := sound.paid cost member
      exact ⟨job, List.mem_map.2 ⟨job, known, ended job known terminal⟩, same,
        terminal⟩ }

/-- A transaction ends without a trace, or before its writes appear. -/
theorem Sound.withoutOpened (opened : Opened) :
    Sound { world with opened := world.opened.erase opened } :=
  { sound with
    locks := sound.locks.sublist (List.erase_sublist.map _)
    held := fun other member => sound.held other (List.mem_of_mem_erase member)
    knows := fun other member => sound.knows other (List.mem_of_mem_erase member) }

/-- The other transactions hold other jobs. -/
theorem Sound.not_locked_erase (member : opened ∈ world.opened) :
    opened.transition.jobId ∉ (world.opened.erase opened).map (·.transition.jobId) := by
  intro locked
  obtain ⟨other, rest, same⟩ := List.mem_map.1 locked
  have distinct : world.opened.Nodup := List.Nodup.of_map _ sound.locks
  obtain ⟨different, known⟩ := distinct.mem_erase_iff.1 rest
  exact different (List.inj_on_of_nodup_map sound.locks known member same)

/-- A transaction joins those that hold a job. -/
theorem Sound.withOpened (unlocked : opened.transition.jobId ∉ world.locked)
    (held : ∃ job ∈ world.jobs, opened.transition.statement.Selects job)
    (knows : opened.Knows world) :
    Sound { world with opened := world.opened ++ [opened] } :=
  { sound with
    locks := by
      show ((world.opened ++ [opened]).map (·.transition.jobId)).Nodup
      rw [List.map_append, List.nodup_append]
      refine ⟨sound.locks, List.nodup_singleton _, ?_⟩
      rintro jobId known _ new rfl
      rw [List.mem_singleton.1 new] at known
      exact unlocked known
    held := by
      intro other member
      rcases mem_inserted.1 member with old | rfl
      · exact sound.held other old
      · exact held
    knows := by
      intro other member
      rcases mem_inserted.1 member with old | rfl
      · exact sound.knows other old
      · exact knows }

/-- A transaction goes on to a stage at which it knows what is so. -/
theorem Sound.advance {stage : Stage} (member : opened ∈ world.opened)
    (knows : ({ opened with stage := stage } : Opened).Knows world) :
    Sound (world.advance opened stage) :=
  Sound.withOpened (sound.withoutOpened opened) (sound.not_locked_erase member)
    (sound.held opened member) knows

omit sound in
/-- The statement of an open transaction changes no row but that of its job. -/
theorem apply_of_locked {locks : List String}
    (unlocked : transition.jobId ∉ locks) (locked : job.id ∈ locks) :
    transition.statement.apply job = job := by
  apply Statement.apply_of_not_selects
  intro selected
  rw [Transition.selects_id selected] at locked
  exact unlocked locked

omit sound in
theorem Transition.apply_of_terminal (transition : Transition) (terminal : job.status.Terminal) :
    transition.statement.apply job = job :=
  Statement.apply_of_not_selects fun selected => terminal (Transition.held selected).active

/-- A job that has ended is given its cost. -/
theorem Sound.withCost {cost : JobCostReportRow}
    (ended : ∃ job ∈ world.jobs, job.id = cost.jobId ∧ job.status.Terminal) :
    Sound { world with costs := upsert world.costs cost } :=
  { sound with
    paid := by
      intro other member
      change other ∈ upsert world.costs cost at member
      unfold upsert at member
      split at member
      · rcases mem_updateWhere.1 member with ⟨_, _, _, rfl⟩ | ⟨known, _⟩
        · exact ended
        · exact sound.paid other known
      · rcases mem_inserted.1 member with known | rfl
        · exact sound.paid other known
        · exact ended }

/-- A finished job is answered. -/
theorem Sound.withAnswer {jobId chatId content : String}
    (finished : ∃ job ∈ world.jobs, job.id = jobId ∧ job.status = .done)
    (unanswered : world.answers jobId = []) :
    Sound { world with
      messages := world.messages ++ [⟨chatId, .assistant, content, some jobId⟩] } :=
  { sound with
    answered := by
      intro message member role other named
      rcases List.mem_append.1 member with known | new
      · exact sound.answered message known role other named
      · rw [List.mem_singleton.1 new] at named
        cases Option.some.inj named
        exact finished
    once := by
      intro other
      show (List.filter _ (world.messages ++ _)).length ≤ 1
      rw [List.filter_append]
      by_cases same : jobId = other
      · subst same
        have none : world.messages.filter (fun message =>
            message.role = .assistant ∧ message.jobId = some jobId) = [] :=
          unanswered
        rw [none]
        exact List.length_filter_le _ _
      · have missed : [(⟨chatId, .assistant, content, some jobId⟩ :
            ChatMessageRow)].filter (fun message =>
              message.role = .assistant ∧ message.jobId = some other) = [] := by
          simp [same]
        rw [missed, List.append_nil]
        exact sound.once other }

/-- A question is no answer. -/
theorem Sound.withQuestion {jobId chatId content : String} :
    Sound { world with
      messages := world.messages ++ [⟨chatId, .user, content, some jobId⟩] } :=
  { sound with
    answered := by
      intro message member role other named
      rcases List.mem_append.1 member with known | new
      · exact sound.answered message known role other named
      · rw [List.mem_singleton.1 new] at role
        cases role
    once := by
      intro other
      show (List.filter _ (world.messages ++ _)).length ≤ 1
      rw [List.filter_append]
      have missed : [(⟨chatId, .user, content, some jobId⟩ :
          ChatMessageRow)].filter (fun message =>
            message.role = .assistant ∧ message.jobId = some other) = [] := by
        simp
      rw [missed, List.append_nil]
      exact sound.once other }

/-! ## What happens to chats -/

omit sound in
theorem World.chatIds_touch (matching : ChatRow → Bool) (now : Moment) :
    (updateWhere matching (fun chat => { chat with updatedAt := now })
      world.chats).map (·.id) = world.chatIds :=
  @map_updateWhere_of_unchanged _ _ ChatRow.id matching
    (fun chat => { chat with updatedAt := now }) (fun _ => rfl) world.chats

/-- The same chats exist, whatever their rows say. -/
theorem Sound.withChats {chats : List ChatRow} (same : chats.map (·.id) = world.chatIds) :
    Sound { world with chats := chats } :=
  { sound with
    linked := by
      intro link member chatId named
      show chatId ∈ chats.map (·.id)
      rw [same]
      exact sound.linked link member chatId named
    knows := by
      intro opened member
      have knows := sound.knows opened member
      unfold Opened.Knows at knows ⊢
      have ids : ({ world with chats := chats } : World).chatIds = world.chatIds := same
      rw [ids]
      exact knows }

/-- A chat that nothing knows appears. -/
theorem Sound.withChat {row : ChatRow} (fresh : row.id ∉ world.knownChats) :
    Sound { world with chats := world.chats ++ [row] } := by
  have ids : ({ world with chats := world.chats ++ [row] } : World).chatIds =
      world.chatIds ++ [row.id] := by
    simp [World.chatIds]
  exact
    { sound with
      linked := by
        intro link member chatId named
        rw [ids]
        exact List.mem_append_left _ (sound.linked link member chatId named)
      knows := by
        intro opened member
        have knows := sound.knows opened member
        unfold Opened.Knows at knows ⊢
        cases stage : opened.stage with
        | updated => trivial
        | shared chatId =>
          rw [stage] at knows
          exact knows
        | linked chatId =>
          rw [stage] at knows
          refine ⟨knows.1, knows.2.trans ?_⟩
          rw [ids]
          cases chatId with
          | none => rfl
          | some chatId =>
            have different : chatId ≠ row.id := by
              rintro rfl
              refine fresh (List.mem_append_right _ ?_)
              exact List.mem_filterMap.2 ⟨opened, member, by rw [stage]; rfl⟩
            simp [Option.filter, different] }

omit sound in
/-- A deleted chat is the chat of no job. -/
theorem World.chatId?_withoutChat (jobId id : String) :
    (world.withoutChat id).chatId? jobId = (world.chatId? jobId).filter (· ≠ id) := by
  unfold World.chatId? World.withoutChat
  induction world.links with
  | nil => rfl
  | cons link rest ih =>
    rw [updateWhere_cons]
    by_cases named : link.jobId = jobId
    · by_cases deleted : link.chatId = some id
      · simp [named, deleted, Option.filter]
      · cases chat : link.chatId with
        | none => simp [named, chat]
        | some chatId =>
          have different : chatId ≠ id := by
            rintro rfl
            exact deleted chat
          simp [named, chat, different, Option.filter]
    · have search : (if decide (link.chatId = some id) = true then
          { link with chatId := none } else link).jobId ≠ jobId := by
        split <;> exact named
      rw [List.find?_cons_of_neg (by simpa using search),
        List.find?_cons_of_neg (by simpa using named)]
      exact ih

omit sound in
theorem World.mem_chatIds_withoutChat (chatId id : String) :
    chatId ∈ (world.withoutChat id).chatIds ↔ chatId ∈ world.chatIds ∧ chatId ≠ id := by
  simp only [World.chatIds, World.withoutChat, List.mem_map, List.mem_filter, decide_eq_true_eq]
  constructor
  · rintro ⟨chat, ⟨member, different⟩, rfl⟩
    exact ⟨⟨chat, member, rfl⟩, different⟩
  · rintro ⟨⟨chat, member, rfl⟩, different⟩
    exact ⟨chat, ⟨member, different⟩, rfl⟩

/-- A chat that no transaction has locked is deleted. -/
theorem Sound.withoutChat {id : String} (unlocked : id ∉ world.sharedChats) :
    Sound (world.withoutChat id) :=
  { sound with
    linked := by
      intro link member chatId named
      rw [World.mem_chatIds_withoutChat]
      rcases mem_updateWhere.1 member with ⟨_, _, _, rfl⟩ | ⟨known, other⟩
      · cases named
      · refine ⟨sound.linked link known chatId named, ?_⟩
        rintro rfl
        exact of_decide_eq_false other named
    knows := by
      intro opened member
      have knows := sound.knows opened member
      unfold Opened.Knows at knows ⊢
      cases stage : opened.stage with
      | updated => trivial
      | linked chatId =>
        rw [stage] at knows
        refine ⟨knows.1, ?_⟩
        rw [World.chatId?_withoutChat, knows.2]
        cases chatId with
        | none => rfl
        | some chatId =>
          simp only [Option.filter, World.mem_chatIds_withoutChat]
          by_cases exists_ : chatId ∈ world.chatIds
          · simp [exists_]
          · simp [exists_]
      | shared chatId =>
        rw [stage] at knows
        refine ⟨knows.1, ?_⟩
        rw [World.chatId?_withoutChat, knows.2]
        cases chatId with
        | none => rfl
        | some chatId =>
          have different : chatId ≠ id := by
            rintro rfl
            exact unlocked (List.mem_filterMap.2 ⟨opened, member, by rw [stage]; rfl⟩)
          simp [Option.filter, different]
    answered := fun message member => sound.answered message (List.mem_filter.1 member).1
    once := by
      intro jobId
      refine Nat.le_trans ?_ (sound.once jobId)
      exact (List.filter_sublist.filter _).length_le }

/-- A user asks: a job appears, with its link. -/
theorem Sound.withJob {chatId : String} (fresh : job.id ∉ world.knownJobs)
    (known : chatId ∈ world.chatIds) :
    Sound { world with
      jobs := world.jobs ++ [job]
      links := world.links ++ [⟨job.id, some chatId⟩] } := by
  have newJob : job.id ∉ world.jobs.map (·.id) := fun member =>
    fresh (List.mem_append_left _ (List.mem_append_left _ (List.mem_append_left _ member)))
  have among : ∀ other ∈ world.jobs, other ∈ world.jobs ++ [job] :=
    fun other member => List.mem_append_left _ member
  exact
    { sound with
      ids := by
        rw [List.map_append, List.nodup_append]
        refine ⟨sound.ids, List.nodup_singleton _, ?_⟩
        rintro id known _ new rfl
        rw [List.mem_singleton.1 new] at known
        exact newJob known
      linked := by
        intro link member other named
        rcases List.mem_append.1 member with old | new
        · exact sound.linked link old other named
        · rw [List.mem_singleton.1 new] at named
          cases Option.some.inj named
          exact known
      held := by
        intro opened member
        obtain ⟨other, found, selected⟩ := sound.held opened member
        exact ⟨other, among other found, selected⟩
      knows := by
        intro opened member
        have knows := sound.knows opened member
        obtain ⟨other, found, selected⟩ := sound.held opened member
        have different : job.id ≠ opened.transition.jobId := by
          intro same
          refine newJob (List.mem_map.2 ⟨other, found, ?_⟩)
          exact (Transition.selects_id selected).trans same.symm
        have unchanged : ({ world with
            jobs := world.jobs ++ [job]
            links := world.links ++ [⟨job.id, some chatId⟩] } : World).chatId?
              opened.transition.jobId =
            world.chatId? opened.transition.jobId := by
          simp [World.chatId?, List.find?_append, different]
        unfold Opened.Knows at knows ⊢
        rw [unchanged]
        exact knows
      answered := by
        intro message member role jobId named
        obtain ⟨other, found, rest⟩ := sound.answered message member role jobId named
        exact ⟨other, among other found, rest⟩
      paid := by
        intro cost member
        obtain ⟨other, found, rest⟩ := sound.paid cost member
        exact ⟨other, among other found, rest⟩ }

/-! ## The commit -/

/-- What an answer says. -/
theorem Sound.answer_eq_some {message : ChatMessageRow} (member : opened ∈ world.opened) :
    opened.answer = some message ↔ opened.Finished ∧ opened.transition.Answers ∧
        ∃ chatId, world.chatId? opened.transition.jobId = some chatId ∧
          message = ⟨chatId, .assistant, opened.transition.summary.getD "",
              some opened.transition.jobId⟩ := by
  have knows := sound.knows opened member
  unfold Opened.Knows at knows
  unfold Opened.answer Opened.Finished
  cases stage : opened.stage with
  | updated => by_cases answers : opened.transition.Answers <;>
      simp [answers, Stage.sharedChat?]
  | linked chatId => simp [Stage.sharedChat?]
  | shared chatId =>
    rw [stage] at knows
    rw [if_pos knows.1, knows.2]
    simp [Stage.sharedChat?, knows.1, eq_comm]

/-- The job of a transaction is held until the commit, and then as reported. -/
theorem Sound.committed_job (member : opened ∈ world.opened) :
    ∃ job ∈ world.jobs, job.id = opened.transition.jobId ∧ job.status.Held ∧
      opened.transition.statement.set job ∈ (world.committed opened).jobs := by
  obtain ⟨job, known, selected⟩ := sound.held opened member
  refine ⟨job, known, Transition.selects_id selected, Transition.held selected, ?_⟩
  exact List.mem_map.2 ⟨job, known, Statement.apply_of_selects selected⟩

theorem Sound.committed (member : opened ∈ world.opened) : Sound (world.committed opened) := by
  obtain ⟨job, known, named, held, written⟩ := sound.committed_job member
  have rewritten : Sound { world with
      opened := world.opened.erase opened
      jobs := world.jobs.map opened.transition.statement.apply } :=
    (sound.withoutOpened opened).withJobs (fun _ => Statement.apply_id)
      (fun _ _ terminal => opened.transition.apply_of_terminal terminal)
      (fun _ _ locked => apply_of_locked (sound.not_locked_erase member) locked)
  have paid : Sound { world with
      opened := world.opened.erase opened
      jobs := world.jobs.map opened.transition.statement.apply
      costs := opened.cost.elim world.costs (upsert world.costs) } := by
    cases cost : opened.transition.costReport with
    | none => simpa [Opened.cost, cost] using rewritten
    | some report =>
      have ended := opened.transition.settled (by simp [cost])
      have terminal : opened.transition.status.jobStatus.Terminal := by
        cases status : opened.transition.status <;> rw [status] at ended <;>
          first
          | exact absurd rfl ended
          | decide
      simpa [Opened.cost, cost] using @Sound.withCost _ rewritten
        ⟨opened.transition.jobId, report, opened.transition.now⟩
        ⟨_, written, named, terminal⟩
  have touched := paid.withChats (World.chatIds_touch
    (fun chat => some chat.id ∈ opened.answer.map (·.chatId))
    opened.transition.now)
  cases answer : opened.answer with
  | none => simpa [World.committed, answer] using touched
  | some message =>
    obtain ⟨_, answers, chatId, _, rfl⟩ := (sound.answer_eq_some member).1 answer
    have unanswered : world.answers opened.transition.jobId = [] := by
      rw [← named]
      refine sound.answers_eq_nil known ?_
      intro done
      rw [done] at held
      exact absurd held (by decide)
    have done : (opened.transition.statement.set job).status = .done := by
      rw [Transition.status_set, answers.1]
      rfl
    simpa [World.committed, answer] using @Sound.withAnswer _ touched _ chatId
      (opened.transition.summary.getD "") ⟨_, written, named, done⟩ unanswered

/-! ## Every step -/

theorem sound_execute (step : Step) : Sound (execute world step) := by
  unfold execute
  split
  · rename_i enabled
    cases step with
    | createChat row => exact sound.withChat enabled
    | ask job chatId content => exact (sound.withJob enabled.2.1 enabled.2.2).withQuestion
    | deleteChat id => exact sound.withoutChat enabled
    | cancel cancelled =>
      obtain ⟨_, unlocked, job, known, named, active⟩ := enabled
      have only : ∀ other ∈ world.jobs, other.id = cancelled.id →
          other = job := fun other member same =>
        List.inj_on_of_nodup_map sound.ids member known (same.trans named.symm)
      refine sound.withJobs ?_ ?_ ?_
      · intro other
        split
        · rename_i same
          exact (of_decide_eq_true same).symm
        · rfl
      · intro other member terminal
        refine if_neg ?_
        intro same
        rw [only other member (of_decide_eq_true same)] at terminal
        exact terminal active
      · intro other member locked
        refine if_neg ?_
        intro same
        rw [of_decide_eq_true same] at locked
        exact unlocked locked
    | plain statement =>
      refine sound.withJobs (fun _ => Statement.apply_id) ?_ ?_
      · intro job _ terminal
        exact Statement.apply_of_not_selects fun selected => terminal (enabled.1.active selected)
      · intro job member locked
        exact Statement.apply_of_not_selects fun selected => enabled.2 job member selected locked
    | updateMany transition =>
      simp only [perform]
      split
      · rename_i found
        obtain ⟨job, known, selected⟩ := found
        have unlocked : transition.jobId ∉ world.locked := by
          rw [← Transition.selects_id selected]
          exact enabled job known selected
        exact @Sound.withOpened _ ⟨transition, .updated⟩ sound unlocked
          ⟨job, known, selected⟩ trivial
      · exact sound
    | readLink opened => exact sound.advance enabled.1 ⟨enabled.2.2, (sound.filter_chatId? _).symm⟩
    | keyShare opened =>
      have knows := sound.knows opened enabled.1
      unfold Opened.Knows at knows
      rw [enabled.2] at knows
      exact sound.advance enabled.1 knows
    | commit opened => exact sound.committed enabled.1
    | rollback opened => exact sound.withoutOpened opened
  · exact sound

end Chats
end Scrum4Me
