import Scrum4Me.IdeaChats.Turns

/-!
# The steps on a channel

Each step rewrites turns as the order of turns allows: the sweep and the like
leave the cutoff and never finish a turn, a claim takes the last message as its
cutoff, a payload names what came after the last finished turn, and the end of a
turn is later than every message.
-/

namespace Scrum4Me
namespace IdeaChats

open Foundation Jobs

variable {world : World} {turn : Turn} {statement : Statement}

/-! ## One turn -/

theorem ne_queued_of_held {status : JobStatus} (held : status.Held) : status ≠ .queued := by
  rintro rfl
  exact absurd held (by decide)

variable {messages : List IdeaChatMessageRow}

/-- A turn that the step does not touch. -/
theorem Sound.rewritten_self (sound : Sound world)
    (more : ∀ message ∈ world.messages, message ∈ messages) (member : turn ∈ world.turns) :
    Rewritten world messages turn turn where
  id := rfl
  ideaId := rfl
  ended := fun _ => rfl
  sound := (sound.turns turn member).mono more
  climbs := fun claimed => .inl ⟨claimed, rfl⟩
  later := .inl
  beyond := fun claimed _ payload => .inl ⟨claimed, payload⟩

theorem Turn.apply_of_not_selects (missed : ¬ statement.Selects turn.row) :
    turn.apply statement = turn := by
  unfold Turn.apply
  rw [Statement.apply_of_not_selects missed, if_neg (fun both => missed both.2)]

theorem Turn.payload_of_not_claims (sameClaim : ¬ statement.Claims) :
    (turn.apply statement).payload = turn.payload :=
  if_neg fun both => sameClaim both.1

/-- What a routine statement leaves. -/
structure Kept (row row' : JobRow) : Prop where
  kind : row'.kind = row.kind
  ideaId : row'.ideaId = row.ideaId
  cutoffMoment : row'.chatCutoffAt = row.chatCutoffAt
  cutoffMessage : row'.chatCutoffMessageId = row.chatCutoffMessageId
  createdAt : row'.createdAt = row.createdAt

theorem Routine.kept (routine : Routine statement) (row : JobRow) :
    Kept row (statement.set row) := by
  cases statement with
  | staleFailed => exact ⟨rfl, rfl, rfl, rfl, rfl⟩
  | staleRequeued => exact ⟨rfl, rfl, rfl, rfl, rfl⟩
  | refreshOwnership => exact ⟨rfl, rfl, rfl, rfl, rfl⟩
  | rollbackClaim => exact ⟨rfl, rfl, rfl, rfl, rfl⟩
  | releaseMismatchedClaim => exact ⟨rfl, rfl, rfl, rfl, rfl⟩
  | markJobTerminallyFailed => exact ⟨rfl, rfl, rfl, rfl, rfl⟩
  | updateJobStatus => exact ⟨rfl, rfl, rfl, rfl, rfl⟩
  | _ => exact routine.elim

theorem Routine.not_claims (routine : Routine statement) : ¬ statement.Claims := by
  cases statement with
  | tryClaimJob => exact routine.elim
  | _ => exact id

variable {row : JobRow}

/-- A routine statement finishes no turn. -/
theorem Routine.not_done (routine : Routine statement) (held : row.status.Held) :
    (statement.set row).status ≠ .done := by
  cases statement with
  | refreshOwnership =>
    intro done
    have status : row.status = .done := done
    rw [status] at held
    exact absurd held (by decide)
  | updateJobStatus jobId report read now =>
    intro done
    have status : report.status.jobStatus = .done := done
    have running : report.status = .running := routine
    rw [running] at status
    cases status
  | staleFailed => exact nofun
  | staleRequeued => exact nofun
  | rollbackClaim => exact nofun
  | releaseMismatchedClaim => exact nofun
  | markJobTerminallyFailed => exact nofun
  | _ => exact routine.elim

theorem Kept.cutoff {row' : JobRow} (kept : Kept row row') : cutoffAt row' = cutoffAt row := by
  unfold cutoffAt
  rw [kept.cutoffMoment, kept.createdAt]

/-- A turn whose state changes without being finished. -/
theorem TurnSound.of_kept {turn' : Turn} (sound : TurnSound messages turn)
    (claimed : turn.row.status ≠ .queued) (kept : Kept turn.row turn'.row)
    (payload : turn'.payload = turn.payload) (unfinished : turn'.row.status ≠ .done) :
    TurnSound messages turn' where
  kind := kept.kind.trans sound.kind
  named := by
    rw [kept.ideaId]
    exact sound.named
  spoken := by
    rw [kept.ideaId]
    exact sound.spoken
  placed := by
    intro _
    rw [kept.ideaId, kept.cutoffMoment, kept.cutoffMessage]
    exact sound.placed claimed
  finished := fun done => absurd done unfinished
  within := by
    intro _
    rw [payload, kept.ideaId, kept.cutoff]
    exact sound.within claimed

theorem Sound.rewritten_routine
    (sound : Sound world) (member : turn ∈ world.turns) (routine : Routine statement)
    (held : statement.Selects turn.row → turn.row.status.Held) :
    Rewritten world world.messages turn (turn.apply statement) := by
  by_cases selected : statement.Selects turn.row
  · have claimed := ne_queued_of_held (held selected)
    have applied : (turn.apply statement).row = statement.set turn.row :=
      Statement.apply_of_selects selected
    have payload : (turn.apply statement).payload = turn.payload :=
      Turn.payload_of_not_claims routine.not_claims
    have kept : Kept turn.row (turn.apply statement).row := by
      rw [applied]
      exact routine.kept turn.row
    have unfinished : (turn.apply statement).row.status ≠ .done := by
      rw [applied]
      exact routine.not_done (held selected)
    exact
      { id := Statement.apply_id
        ideaId := kept.ideaId
        ended := fun terminal => absurd (held selected).active terminal
        sound := (sound.turns turn member).of_kept claimed kept payload unfinished
        climbs := fun _ => .inl ⟨claimed, kept.cutoff⟩
        later := fun done => absurd done unfinished
        beyond := fun _ ids among => .inl ⟨claimed, payload ▸ among⟩ }
  · rw [Turn.apply_of_not_selects selected]
    exact sound.rewritten_self (fun _ known => known) member

/-! ## A claim -/

/-- A channel with a message has a last one. -/
theorem World.lastMessage_exists
    {ideaId : String} (spoken : ∃ message ∈ world.messages, message.ideaId = ideaId) :
    ∃ last ∈ world.messages, last.ideaId = ideaId ∧ world.lastMessage ideaId = some last ∧
      ∀ message ∈ world.messages, message.ideaId = ideaId → message.createdAt ≤ last.createdAt := by
  obtain ⟨message, member, named⟩ := spoken
  have among : message ∈ world.messages.filter fun message =>
      message.ideaId = ideaId :=
    List.mem_filter.2 ⟨member, decide_eq_true named⟩
  cases search : world.lastMessage ideaId with
  | none =>
    rw [head?_newestFirst_eq_none.1 search] at among
    cases among
  | some last =>
    obtain ⟨found, newest⟩ := head?_newestFirst search
    obtain ⟨known, same⟩ := List.mem_filter.1 found
    refine ⟨last, known, of_decide_eq_true same, rfl, ?_⟩
    intro other otherMember otherNamed
    have before := newest other (List.mem_filter.2 ⟨otherMember, decide_eq_true otherNamed⟩)
    exact Prod.Lex.monotone_fst _ _ before

theorem Sound.rewritten_claim
    (sound : Sound world) {worker : WorkerRow} {tables : WorkerTables} {claimed : Turn}
    {planSnapshot : String} {now : Moment} (member : turn ∈ world.turns)
    (claimedMember : claimed ∈ world.turns) :
    Rewritten world world.messages turn (turn.apply
      (Step.claimStatement world worker tables claimed planSnapshot now)) := by
  let statement := Step.claimStatement world worker tables claimed planSnapshot now
  show Rewritten world world.messages turn (turn.apply statement)
  by_cases selected : statement.Selects turn.row
  · have same : turn = claimed := sound.turn_of_id member claimedMember selected.1
    subst same
    have turnSound := sound.turns turn member
    have claims : statement.Claims := trivial
    have queued := claims.queued selected
    obtain ⟨ideaId, named⟩ : ∃ ideaId, turn.row.ideaId = some ideaId := by
      cases idea : turn.row.ideaId with
      | none => exact absurd (.inl idea) turnSound.named
      | some ideaId => exact ⟨ideaId, rfl⟩
    obtain ⟨last, lastMember, lastNamed, search, newest⟩ :=
      @World.lastMessage_exists world ideaId (by
        obtain ⟨message, member, spoken⟩ := turnSound.spoken
        exact ⟨message, member, Option.some.inj (spoken.trans named)⟩)
    have cutoff : world.cutoff turn.row.ideaId = some (last.id, last.createdAt) := by
      rw [World.cutoff, named, Option.bind_some, search]
      rfl
    have applied : (turn.apply statement).row = statement.set turn.row :=
      Statement.apply_of_selects selected
    have payload : (turn.apply statement).payload = none := if_pos ⟨trivial, selected⟩
    have chat : turn.row.kind = .ideaChat ∧ ¬ Falsy turn.row.ideaId :=
      ⟨turnSound.kind, turnSound.named⟩
    have moment : (statement.set turn.row).chatCutoffAt = some last.createdAt := by
      show (((if turn.row.kind = .ideaChat ∧ ¬ Falsy turn.row.ideaId then
        world.cutoff turn.row.ideaId else none).map (·.2)).or _) = _
      rw [if_pos chat, cutoff]
      rfl
    have id : (statement.set turn.row).chatCutoffMessageId = some last.id := by
      show (((if turn.row.kind = .ideaChat ∧ ¬ Falsy turn.row.ideaId then
        world.cutoff turn.row.ideaId else none).map (·.1)).or _) = _
      rw [if_pos chat, cutoff]
      rfl
    have at_ : cutoffAt (turn.apply statement).row = last.createdAt := by
      rw [applied, cutoffAt, moment]
      rfl
    have unfinished : (turn.apply statement).row.status ≠ .done := by
      rw [applied]
      exact fun same => by cases same
    exact
      { id := Statement.apply_id
        ideaId := by rw [applied]; rfl
        ended := fun terminal => absurd (.inl queued) terminal
        sound :=
          { kind := by rw [applied]; exact turnSound.kind
            named := by rw [applied]; exact turnSound.named
            spoken := by rw [applied]; exact turnSound.spoken
            placed := fun _ => ⟨last, lastMember,
              by rw [applied, lastNamed]; exact named.symm,
              by rw [applied]; exact moment, by rw [applied]; exact id⟩
            finished := fun done => absurd done unfinished
            within := fun _ ids among => by rw [payload] at among; cases among }
        climbs := by
          refine fun _ => .inr ?_
          intro message known sameIdea
          rw [at_]
          exact newest message known (Option.some.inj (sameIdea.trans named))
        later := fun done => absurd done unfinished
        beyond := fun _ ids among => by rw [payload] at among; cases among }
  · rw [Turn.apply_of_not_selects selected]
    exact sound.rewritten_self (fun _ known => known) member

/-! ## A payload -/

/-- What the payload names. -/
theorem World.mem_pendingUserMessageIds
    {id : String} (among : id ∈ world.pendingUserMessageIds row) :
    ∃ message ∈ world.messages, message.id = id ∧
      some message.ideaId = row.ideaId ∧ message.AtOrBefore row ∧ world.Open row message := by
  obtain ⟨message, member, rfl⟩ := List.mem_map.1 among
  obtain ⟨pending, isOpen⟩ := List.mem_filter.1 (List.mem_reverse.1 member)
  have found := List.mem_of_mem_take (List.mem_filter.1 pending).1
  obtain ⟨known, matched⟩ := List.mem_filter.1 (mem_newestFirst.1 found)
  obtain ⟨named, before⟩ := of_decide_eq_true matched
  exact ⟨message, known, rfl, named, before, of_decide_eq_true isOpen⟩

/-- No finished turn has a later cutoff than the last one. -/
theorem Sound.lastDone_greatest (sound : Sound world) {first : Turn} (member : first ∈ world.turns)
    (sameIdea : first.row.ideaId = turn.row.ideaId) (done : first.row.status = .done)
    (different : first.row.id ≠ turn.row.id) :
    ∃ last ∈ world.turns, world.lastDone turn.row = some last ∧
      last.row.status = .done ∧ last.row.ideaId = turn.row.ideaId ∧
      cutoffAt first.row ≤ cutoffAt last.row := by
  have among : first ∈ world.turns.filter fun other =>
      other.row.kind = .ideaChat ∧ other.row.ideaId = turn.row.ideaId ∧
        other.row.status = .done ∧ other.row.id ≠ turn.row.id :=
    List.mem_filter.2 ⟨member, decide_eq_true
      ⟨(sound.turns first member).kind, sameIdea, done, different⟩⟩
  cases search : world.lastDone turn.row with
  | none =>
    rw [head?_newestFirst_eq_none.1 search] at among
    cases among
  | some last =>
    obtain ⟨found, newest⟩ := head?_newestFirst search
    obtain ⟨lastMember, matched⟩ := List.mem_filter.1 found
    obtain ⟨_, lastNamed, lastDone, _⟩ := of_decide_eq_true matched
    refine ⟨last, lastMember, rfl, lastDone, lastNamed, ?_⟩
    rcases pairwise_cases sound.follows member lastMember with
      rfl | before | after
    · exact le_refl _
    · refine (before (sameIdea.trans lastNamed.symm)).climbs ?_
      rw [lastDone]
      decide
    · obtain ⟨early, earlyKnown, late, lateKnown, strictly⟩ :=
        (after (lastNamed.trans sameIdea.symm)).later lastDone done
      have order : @LE.le (WithTop Moment) _ first.row.finishedAt last.row.finishedAt :=
        Prod.Lex.monotone_fst _ _ (newest first among)
      rw [Option.mem_def.1 earlyKnown, Option.mem_def.1 lateKnown] at order
      exact absurd (WithTop.coe_le_coe.1 order) (not_le.2 strictly)

theorem Sound.rewritten_payload
    (sound : Sound world) (member : turn ∈ world.turns) (held : turn.row.status.Held) :
    Rewritten world world.messages turn
      { turn with payload := some (world.pendingUserMessageIds turn.row) } where
  id := rfl
  ideaId := rfl
  ended := fun terminal => absurd held.active terminal
  sound :=
    { kind := (sound.turns turn member).kind
      named := (sound.turns turn member).named
      spoken := (sound.turns turn member).spoken
      placed := (sound.turns turn member).placed
      finished := fun done => by rw [done] at held; exact absurd held (by decide)
      within := by
        rintro claimed _ ⟨⟩ id among
        obtain ⟨message, known, same, named, before, _⟩ := World.mem_pendingUserMessageIds among
        exact ⟨message, known, same, named,
          (sound.atOrBefore_iff member claimed known named).1 before⟩ }
  climbs := fun claimed => .inl ⟨claimed, rfl⟩
  later := .inl
  beyond := by
    rintro claimed _ ⟨⟩
    refine .inr ?_
    intro first firstMember sameIdea done different id among
    obtain ⟨message, known, same, named, _, isOpen⟩ := World.mem_pendingUserMessageIds among
    obtain ⟨last, lastMember, search, lastDone, lastNamed, climbs⟩ :=
      sound.lastDone_greatest firstMember sameIdea done fun sameId =>
        different (sound.turn_of_id firstMember member sameId)
    have after := (sound.after_iff lastMember (by rw [lastDone]; decide) known
      (named.trans lastNamed.symm)).1 (isOpen last search)
    exact ⟨message, known, same, lt_of_le_of_lt climbs after⟩

/-! ## The end of a turn -/

variable {completion : Completion}

/-- A turn that is reported as done or failed is finished now. -/
theorem Completion.set_finishedAt (reported : completion.report.status = .done ∨
      completion.report.status = .failed) (row : JobRow) :
    ((completion.statement turn).set row).finishedAt = some completion.now := by
  refine if_neg ?_
  intro running
  rcases reported with done | failed
  · rw [done] at running
    cases running
  · rw [failed] at running
    cases running

theorem Sound.rewritten_complete (sound : Sound world) {ended : Turn} (member : turn ∈ world.turns)
    (endedMember : ended ∈ world.turns)
    (more : ∀ message ∈ world.messages, message ∈ messages) (held : ended.row.status.Held)
    (reported : completion.report.status = .done ∨ completion.report.status = .failed)
    (answered : completion.report.status = .done → ended.payload ≠ none ∧
        ∃ message ∈ messages, some message.ideaId = ended.row.ideaId ∧
          message.createdAt = completion.now)
    (later : Later world ended.row.ideaId completion.now) :
    Rewritten world messages turn (turn.apply (completion.statement ended)) := by
  by_cases selected : (completion.statement ended).Selects turn.row
  · have same : turn = ended := sound.turn_of_id member endedMember selected
    subst same
    have applied : (turn.apply (completion.statement turn)).row =
        (completion.statement turn).set turn.row :=
      Statement.apply_of_selects selected
    have payload : (turn.apply (completion.statement turn)).payload = turn.payload :=
      Turn.payload_of_not_claims id
    have claimed := ne_queued_of_held held
    have turnSound := (sound.turns turn member).mono more
    have kept : Kept turn.row (turn.apply (completion.statement turn)).row := by
      rw [applied]
      exact ⟨rfl, rfl, rfl, rfl, rfl⟩
    have finishedAt : (turn.apply (completion.statement turn)).row.finishedAt =
        some completion.now := by
      rw [applied]
      exact Completion.set_finishedAt reported turn.row
    have done_iff : (turn.apply (completion.statement turn)).row.status = .done →
        completion.report.status = .done := by
      rw [applied]
      intro done
      have status : completion.report.status.jobStatus = .done := done
      cases report : completion.report.status <;> rw [report] at status <;>
        first
        | rfl
        | cases status
    exact
      { id := Statement.apply_id
        ideaId := kept.ideaId
        ended := fun terminal => absurd held.active terminal
        sound :=
          { kind := kept.kind.trans turnSound.kind
            named := by rw [kept.ideaId]; exact turnSound.named
            spoken := by rw [kept.ideaId]; exact turnSound.spoken
            placed := by
              intro _
              rw [kept.ideaId, kept.cutoffMoment, kept.cutoffMessage]
              exact turnSound.placed claimed
            finished := by
              intro done
              obtain ⟨told, message, known, named, now⟩ := answered (done_iff done)
              rw [payload, kept.ideaId, finishedAt]
              exact ⟨told, message, known, named, congrArg some now.symm⟩
            within := by
              intro _
              rw [payload, kept.ideaId, kept.cutoff]
              exact turnSound.within claimed }
        climbs := fun _ => .inl ⟨claimed, kept.cutoff⟩
        later := by
          refine fun _ => .inr ?_
          intro message known named
          exact ⟨completion.now, finishedAt, later message known named⟩
        beyond := fun _ ids among => .inl ⟨claimed, payload ▸ among⟩ }
  · rw [Turn.apply_of_not_selects selected]
    exact sound.rewritten_self more member

/-! ## Every step -/

/-- The invariant is about messages and turns. -/
theorem Sound.of_tables
    {world' : World} (sound : Sound world) (messages : world'.messages = world.messages)
    (turns : world'.turns = world.turns) :
    Sound world' := by
  obtain ⟨ideas, messages', turns', logs⟩ := world'
  cases messages
  cases turns
  exact
    { turnIds := sound.turnIds
      messageIds := sound.messageIds
      ordered := sound.ordered
      turns := sound.turns
      follows := sound.follows }

/-- The message that a user sends. -/
def sentMessage (input : SendInput) (values : SendValues) : IdeaChatMessageRow :=
  ⟨values.messageId, input.ideaId, .user, input.content, none, values.now⟩

/-- A message of a user joins the channel, and a turn is queued unless one is
active. -/
theorem perform_send {input : SendInput} {values : SendValues}
    (enabled : (Step.send input values).Enabled world) :
    (perform world (.send input values)).messages = world.messages ++ [sentMessage input values] ∧
      (perform world (.send input values)).turns = world.turns ++ if world.Busy input.ideaId then []
          else [⟨queuedTurn input values, none⟩] := by
  obtain ⟨enqueue, _, linked, _⟩ := enabled
  obtain ⟨idea, search, product⟩ := Option.bind_eq_some_iff.1 linked
  by_cases busy : world.Busy input.ideaId
  · simp [perform, sendIdeaChatMessage, search, product, enqueue, busy,
      require, ensure, bind, Except.bind, pure, Except.pure, sentMessage]
  · simp [perform, sendIdeaChatMessage, search, product, enqueue, busy,
      require, ensure, bind, Except.bind, pure, Except.pure, sentMessage]

/-- The answers and the turn that the end of a turn adds. -/
def Completion.answers (completion : Completion) (turn : Turn) :
    List IdeaChatMessageRow :=
  if completion.report.status = .done then
    [⟨completion.answerId, turn.row.ideaId.getD "", .assistant, completion.answer,
      some turn.row.id, completion.now⟩]
  else []

def Completion.followUp (completion : Completion) (turn : Turn) : Turn :=
  ⟨{ Jobs.Step.followUp turn.row completion.followUpId completion.now with
      runtime := completion.runtime }, none⟩

theorem perform_complete :
    (perform world (.complete completion turn)).messages =
        world.messages ++ completion.answers turn ∧
      (perform world (.complete completion turn)).turns =
        world.turns.map (·.apply (completion.statement turn)) ++
          if world.Newer turn.row then [completion.followUp turn] else [] :=
  ⟨rfl, rfl⟩

/-- The messages of a channel after the end of a turn. -/
theorem Sound.answers (sound : Sound world)
    (enabled : (Step.complete completion turn).Enabled world) :
    ((world.messages ++ completion.answers turn).map (·.id)).Nodup ∧
      (world.messages ++ completion.answers turn).Pairwise (fun first second =>
        first.ideaId = second.ideaId → first.createdAt < second.createdAt) ∧
      ∀ ideaId, turn.row.ideaId = some ideaId → completion.report.status = .done →
          ∃ message ∈ world.messages ++ completion.answers turn,
            message.ideaId = ideaId ∧ message.createdAt = completion.now := by
  obtain ⟨member, _, _, _, fresh, _, later⟩ := enabled
  unfold Completion.answers
  split
  · obtain ⟨ideaId, named⟩ : ∃ ideaId, turn.row.ideaId = some ideaId := by
      obtain ⟨message, _, spoken⟩ := (sound.turns turn member).spoken
      exact ⟨_, spoken.symm⟩
    rw [named] at later ⊢
    have added := @Sound.withMessage world
      ⟨completion.answerId, ideaId, .assistant, completion.answer,
        some turn.row.id, completion.now⟩ sound fresh later
    refine ⟨added.messageIds, added.ordered, ?_⟩
    rintro _ ⟨⟩ _
    exact ⟨_, List.mem_append_right _ List.mem_cons_self, rfl, rfl⟩
  · rename_i failed
    rw [List.append_nil]
    exact ⟨sound.messageIds, sound.ordered, fun _ _ done => absurd done failed⟩

theorem Sound.completed (sound : Sound world)
    (enabled : (Step.complete completion turn).Enabled world) :
    Sound { world with
      messages := world.messages ++ completion.answers turn
      turns := world.turns.map (·.apply (completion.statement turn)) } := by
  obtain ⟨messageIds, ordered, answered⟩ := sound.answers enabled
  obtain ⟨member, held, _, reported, _, _, later⟩ := enabled
  have more : ∀ message ∈ world.messages,
      message ∈ world.messages ++ completion.answers turn := fun message known =>
    List.mem_append_left _ known
  refine sound.rewrite more messageIds ordered fun other otherMember =>
    sound.rewritten_complete otherMember member more held (reported.imp (·.1) id) ?_ later
  intro done
  constructor
  · rcases reported with ⟨_, _, told⟩ | failed
    · exact told
    · rw [failed] at done
      cases done
  · obtain ⟨message, _, spoken⟩ := (sound.turns turn member).spoken
    obtain ⟨answer, known, named, now⟩ := answered _ spoken.symm done
    exact ⟨answer, known, by rw [named]; exact spoken, now⟩

/-- After its report the turn has ended, and so have all on its idea. -/
theorem Sound.idle_of_complete (sound : Sound world)
    (enabled : (Step.complete completion turn).Enabled world) {other : Turn}
    (member : other ∈ world.turns.map (·.apply (completion.statement turn)))
    (sameIdea : other.row.ideaId = turn.row.ideaId) :
    other.row.status.Terminal := by
  obtain ⟨turnMember, held, _, reported, _⟩ := enabled
  obtain ⟨old, known, rfl⟩ := List.mem_map.1 member
  by_cases selected : (completion.statement turn).Selects old.row
  · have applied : (old.apply (completion.statement turn)).row =
        (completion.statement turn).set old.row :=
      Statement.apply_of_selects selected
    have status : (old.apply (completion.statement turn)).row.status =
        completion.report.status.jobStatus := by
      rw [applied]
      rfl
    rw [status]
    rcases reported with ⟨done, _⟩ | failed
    · rw [done]
      decide
    · rw [failed]
      decide
  · rw [Turn.apply_of_not_selects selected] at sameIdea ⊢
    rcases sound.follows_active known turnMember sameIdea held.active with
      rfl | follows
    · exact absurd rfl selected
    · exact follows.ended

theorem sound_execute (sound : Sound world) (step : Step) : Sound (execute world step) := by
  unfold execute
  split
  · rename_i enabled
    cases step with
    | send input values =>
      obtain ⟨messages, turns⟩ := perform_send enabled
      obtain ⟨_, named, _, freshMessage, freshTurn, later⟩ := enabled
      have spoken := @Sound.withMessage world (sentMessage input values) sound freshMessage later
      split at turns
      · exact spoken.of_tables messages (by rw [turns, List.append_nil])
      · rename_i idle
        refine (@Sound.withTurn _ ⟨queuedTurn input values, none⟩ spoken
          freshTurn rfl rfl ?_ ?_ ?_).of_tables messages turns
        · rintro (absent | empty)
          · cases absent
          · exact named (Option.some.inj empty)
        · exact ⟨_, List.mem_append_right _ List.mem_cons_self, rfl⟩
        · intro other member sameIdea active
          exact idle ⟨other, member, ⟨(sound.turns other member).kind, sameIdea⟩, active⟩
    | claim worker tables claimed planSnapshot now =>
      exact sound.rewrite (fun _ known => known) sound.messageIds sound.ordered
        fun turn member => sound.rewritten_claim member enabled
    | payload chosen =>
      obtain ⟨chosenMember, held⟩ := enabled
      refine sound.rewrite (fun _ known => known) sound.messageIds sound.ordered
        fun turn member => ?_
      split
      · rename_i same
        have equal := sound.turn_of_id member chosenMember (of_decide_eq_true same)
        rw [equal]
        exact sound.rewritten_payload chosenMember held
      · exact sound.rewritten_self (fun _ known => known) member
    | complete completion turn =>
      have completed := sound.completed enabled
      obtain ⟨messages, turns⟩ := @perform_complete world turn completion
      split at turns
      · rename_i newer
        refine (@Sound.withTurn _ (completion.followUp turn) completed
          ?_ rfl rfl (sound.turns turn enabled.1).named ?_
          fun other member sameIdea =>
            sound.idle_of_complete enabled member sameIdea).of_tables
            messages turns
        · have ids : (world.turns.map (·.apply (completion.statement turn))).map
              (·.row.id) = world.turnIds := by
            rw [List.map_map]
            exact List.map_congr_left fun _ _ => Statement.apply_id
          show completion.followUpId ∉ List.map _ _
          rw [ids]
          exact enabled.2.2.2.2.2.1
        · obtain ⟨message, member, spoken⟩ := (sound.turns turn enabled.1).spoken
          exact ⟨message, List.mem_append_left _ member, spoken⟩
      · exact completed.of_tables messages (by rw [turns, List.append_nil])
    | routine statement =>
      exact sound.rewrite (fun _ known => known) sound.messageIds sound.ordered fun turn member =>
          sound.rewritten_routine member enabled.1 (enabled.2 turn member)
  · exact sound

end IdeaChats
end Scrum4Me
