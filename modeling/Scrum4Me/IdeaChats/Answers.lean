import Scrum4Me.IdeaChats.Steps

/-!
# No message is lost, none is answered twice

A turn that is failed by the sweep queues no turn after it, and a payload has
room for fifty messages. Where neither matters, every message of a user is known
to the last turn once the channel is quiet, and every message that a finished
turn knew was named in its payload or in that of an earlier one. That no message
is named in two needs no condition.
-/

namespace Scrum4Me
namespace IdeaChats

open Foundation Jobs

variable {world : World} {turn : Turn} {step : Step}

/-! ## What is kept when nothing goes wrong -/

/-- The message is named in the payload of a turn that was finished before. -/
def ToldBefore (world : World) (turn : Turn) (message : IdeaChatMessageRow) :
    Prop :=
  ∃ other ∈ world.turns, other.row.status = .done ∧
    other.row.ideaId = turn.row.ideaId ∧
    (turn.row.status = .done →
      ∃ before ∈ other.row.finishedAt, ∃ after ∈ turn.row.finishedAt,
        before < after) ∧
    ∃ ids ∈ other.payload, message.id ∈ ids

structure Attentive (world : World) : Prop where
  /-- What a payload leaves out was named before. -/
  covered : ∀ turn ∈ world.turns, turn.row.status ≠ .queued →
    ∀ ids ∈ turn.payload, ∀ message ∈ world.messages,
      some message.ideaId = turn.row.ideaId → message.role = .user →
        message.createdAt ≤ cutoffAt turn.row →
          message.id ∈ ids ∨ ToldBefore world turn message
  /-- A message waits for an active turn, or was known to one. -/
  awake : ∀ message ∈ world.messages, message.role = .user →
    ∃ turn ∈ world.turns, turn.row.ideaId = some message.ideaId ∧
      (turn.row.status.Active ∨ message.createdAt ≤ cutoffAt turn.row)

theorem attentive_silent (ideas : List IdeaRow) : Attentive (World.silent ideas) where
  covered := List.forall_mem_nil _
  awake := List.forall_mem_nil _

/-- The step does no harm: when it fails a turn without the follow-up of a
report, no message of a user is after the cutoff, and when it names the messages
that no finished turn knew, fifty rows hold all of them. -/
def Sheltered (world : World) : Step → Prop
  | .routine statement =>
      statement.target = some .failed →
        ∀ turn ∈ world.turns, statement.Selects turn.row →
          ¬ world.Newer turn.row
  | .payload turn =>
      ∀ message ∈ world.messages, some message.ideaId = turn.row.ideaId →
        message.role = .user → message.AtOrBefore turn.row →
          (∀ other ∈ world.turns, other.row.ideaId = turn.row.ideaId →
            other.row.status = .done → message.After other.row) →
            world.messages.countP (fun other =>
              some other.ideaId = turn.row.ideaId ∧ other.AtOrBefore turn.row ∧
                message.key ≤ other.key) ≤ 50
  | _ => True

/-- Whether a payload is sheltered, without implications to decide. -/
def decidableSheltered (world : World) (turn : Turn) :
    Decidable (Sheltered world (.payload turn)) :=
  decidable_of_iff (∀ message ∈ world.messages, ¬ (some message.ideaId = turn.row.ideaId ∧
      message.role = .user ∧ message.AtOrBefore turn.row ∧
        (∀ other ∈ world.turns, ¬ (other.row.ideaId = turn.row.ideaId ∧
          other.row.status = .done ∧ ¬ message.After other.row)) ∧
          ¬ world.messages.countP (fun other =>
            some other.ideaId = turn.row.ideaId ∧ other.AtOrBefore turn.row ∧
              message.key ≤ other.key) ≤ 50))
    (by
      dsimp only [Sheltered]
      refine forall_congr' fun message => imp_congr_right fun _ => ?_
      simp only [not_and, not_not])

instance (world : World) (step : Step) : Decidable (Sheltered world step) := by
  apply @Step.casesOn (fun step => Decidable (Sheltered world step)) step <;> intros <;>
    first
    | exact decidableSheltered world _
    | dsimp only [Sheltered]; infer_instance

/-! ## Coverage -/

/-- A message that comes after all others is beyond every cutoff. -/
theorem Sound.cutoff_lt (sound : Sound world) {now : Moment} (member : turn ∈ world.turns)
    (claimed : turn.row.status ≠ .queued) (later : Later world turn.row.ideaId now) :
    cutoffAt turn.row < now := by
  obtain ⟨last, lastMember, named, moment, _⟩ := (sound.turns turn member).placed claimed
  rw [cutoffAt, moment]
  exact later last lastMember named

/-- Turns are rewritten and queued, and messages appear that no cutoff reaches or
that are no messages of users. -/
theorem Attentive.covered_change
    {change : Turn → Turn} {extra : List Turn} {messages : List IdeaChatMessageRow}
    {world' : World} (messages' : world'.messages = world.messages ++ messages)
    (turns' : world'.turns = world.turns.map change ++ extra)
    (queued : ∀ turn ∈ extra, turn.row.status = .queued)
    (beyond : ∀ message ∈ messages, message.role = .user →
      ∀ turn ∈ world.turns, (change turn).row.status ≠ .queued →
        some message.ideaId = (change turn).row.ideaId →
          cutoffAt (change turn).row < message.createdAt)
    (kept : ∀ turn ∈ world.turns, turn.row.status = .done → change turn = turn)
    (each : ∀ turn ∈ world.turns, (change turn).row.status ≠ .queued →
      ∀ ids ∈ (change turn).payload, ∀ message ∈ world.messages,
        some message.ideaId = (change turn).row.ideaId → message.role = .user →
          message.createdAt ≤ cutoffAt (change turn).row →
            message.id ∈ ids ∨ ToldBefore world (change turn) message) :
    ∀ turn ∈ world'.turns, turn.row.status ≠ .queued →
      ∀ ids ∈ turn.payload, ∀ message ∈ world'.messages,
        some message.ideaId = turn.row.ideaId → message.role = .user →
          message.createdAt ≤ cutoffAt turn.row →
            message.id ∈ ids ∨ ToldBefore world' turn message := by
  intro turn member claimed ids payload message known named user before
  rw [turns'] at member
  rcases List.mem_append.1 member with rewritten | new
  · obtain ⟨turn, old, rfl⟩ := List.mem_map.1 rewritten
    rw [messages'] at known
    rcases List.mem_append.1 known with known | added
    · rcases each turn old claimed ids payload message known named user before with
        told | ⟨other, otherMember, done, rest⟩
      · exact .inl told
      · refine .inr ⟨other, ?_, done, rest⟩
        rw [turns']
        refine List.mem_append_left _ (List.mem_map.2 ⟨other, otherMember, ?_⟩)
        exact kept other otherMember done
    · have after := beyond message added user turn old claimed named
      exact absurd before (not_le.2 after)
  · exact absurd (queued turn new) claimed

variable {statement : Statement}

/-- A statement on active jobs leaves a finished turn. -/
theorem Turn.apply_of_done (held : statement.Selects turn.row → turn.row.status.Active)
    (done : turn.row.status = .done) :
    turn.apply statement = turn := by
  refine Turn.apply_of_not_selects fun selected => ?_
  have active := held selected
  rw [done] at active
  exact absurd active (by decide)

/-- A turn that stays unfinished, with its payload and its cutoff. -/
theorem Attentive.covered_kept
    (attentive : Attentive world) {turn' : Turn} (member : turn ∈ world.turns)
    (claimed : turn.row.status ≠ .queued) (kept : Kept turn.row turn'.row)
    (payload : turn'.payload = turn.payload)
    (order : turn'.row.status = .done → ∀ other ∈ world.turns,
      other.row.status = .done → other.row.ideaId = turn.row.ideaId →
        ∃ before ∈ other.row.finishedAt, ∃ after ∈ turn'.row.finishedAt, before < after) :
    ∀ ids ∈ turn'.payload, ∀ message ∈ world.messages,
      some message.ideaId = turn'.row.ideaId → message.role = .user →
        message.createdAt ≤ cutoffAt turn'.row →
          message.id ∈ ids ∨ ToldBefore world turn' message := by
  rw [payload, kept.ideaId, kept.cutoff]
  intro ids named message known sameIdea user before
  rcases attentive.covered turn member claimed ids named message known sameIdea user
    before with told | ⟨other, otherMember, done, otherIdea, _, told⟩
  · exact .inl told
  · refine .inr ⟨other, otherMember, done, ?_, ?_, told⟩
    · rw [kept.ideaId]
      exact otherIdea
    · exact fun finished => order finished other otherMember done otherIdea

variable {message : IdeaChatMessageRow}

/-- What the payload leaves out was named before, when fifty rows are enough. -/
theorem Attentive.covered_payload
    (attentive : Attentive world) (sound : Sound world) (member : turn ∈ world.turns)
    (held : turn.row.status.Held) (sheltered : Sheltered world (.payload turn))
    (known : message ∈ world.messages)
    (sameIdea : some message.ideaId = turn.row.ideaId) (user : message.role = .user)
    (before : message.createdAt ≤ cutoffAt turn.row) {turn' : Turn} (row : turn'.row = turn.row) :
    message.id ∈ world.pendingUserMessageIds turn.row ∨ ToldBefore world turn' message := by
  have claimed := ne_queued_of_held held
  have upTo := (sound.atOrBefore_iff member claimed known sameIdea).2 before
  by_cases open_ : ∀ other ∈ world.turns, other.row.ideaId = turn.row.ideaId →
      other.row.status = .done → message.After other.row
  · left
    have few := sheltered message known sameIdea user upTo open_
    have history : message ∈ world.history turn.row := by
      refine mem_take_newestFirst (List.mem_filter.2 ⟨known, decide_eq_true ⟨sameIdea, upTo⟩⟩) ?_
      rw [List.countP_filter]
      refine le_trans (Nat.le_of_eq (List.countP_congr ?_)) few
      intro other _
      simp only [Bool.and_eq_true, decide_eq_true_eq]
      tauto
    have isOpen : world.Open turn.row message := by
      intro last search
      obtain ⟨found, _⟩ := head?_newestFirst search
      obtain ⟨lastMember, matched⟩ := List.mem_filter.1 found
      obtain ⟨_, lastNamed, lastDone, _⟩ := of_decide_eq_true matched
      exact open_ last lastMember lastNamed lastDone
    refine List.mem_map.2 ⟨message, List.mem_reverse.2 ?_, rfl⟩
    exact List.mem_filter.2 ⟨List.mem_filter.2 ⟨history, decide_eq_true user⟩,
      decide_eq_true isOpen⟩
  · -- A finished turn knew the message, so it was named then or before.
    right
    push Not at open_
    obtain ⟨other, otherMember, otherIdea, done, reached⟩ := open_
    have otherClaimed : other.row.status ≠ .queued := by
      rw [done]
      decide
    have otherNamed := sameIdea.trans otherIdea.symm
    rw [sound.after_iff otherMember otherClaimed known otherNamed, not_lt]
      at reached
    obtain ⟨told, _⟩ := (sound.turns other otherMember).finished done
    obtain ⟨ids, payload⟩ := Option.ne_none_iff_exists'.1 told
    have unfinished : turn'.row.status ≠ .done := by
      intro finished
      rw [row] at finished
      rw [finished] at held
      exact absurd held (by decide)
    rcases attentive.covered other otherMember otherClaimed ids payload message known
      otherNamed user reached with told | ⟨earlier, earlierMember, earlierDone,
        earlierIdea, _, told⟩
    · exact ⟨other, otherMember, done, by rw [row]; exact otherIdea,
        fun finished => absurd finished unfinished, ids, payload, told⟩
    · exact ⟨earlier, earlierMember, earlierDone, by rw [row]; exact earlierIdea.trans otherIdea,
        fun finished => absurd finished unfinished, told⟩

theorem Attentive.covered_execute
    (attentive : Attentive world) (sound : Sound world) (enabled : step.Enabled world)
    (sheltered : Sheltered world step) :
    ∀ turn ∈ (perform world step).turns, turn.row.status ≠ .queued →
      ∀ ids ∈ turn.payload, ∀ message ∈ (perform world step).messages,
        some message.ideaId = turn.row.ideaId → message.role = .user →
          message.createdAt ≤ cutoffAt turn.row →
            message.id ∈ ids ∨ ToldBefore (perform world step) turn message := by
  cases step with
  | send input values =>
    obtain ⟨messages, turns⟩ := perform_send enabled
    obtain ⟨_, _, _, _, _, later⟩ := enabled
    refine @Attentive.covered_change world id _ _ _ messages
      (by rw [List.map_id]; exact turns) ?_ ?_ (fun _ _ _ => rfl)
      attentive.covered
    · intro turn member
      split at member
      · cases member
      · rw [List.mem_singleton.1 member]
        rfl
    · intro message member _ turn known claimed named
      rw [List.mem_singleton.1 member] at named ⊢
      exact sound.cutoff_lt known claimed (named ▸ later)
  | claim worker tables chosen planSnapshot now =>
    refine @Attentive.covered_change world _ [] [] _ (List.append_nil _).symm
      (List.append_nil _).symm (List.forall_mem_nil _)
      (List.forall_mem_nil _) ?_ ?_
    · intro turn member done
      exact Turn.apply_of_done (fun selected =>
        .inl (@Statement.Claims.queued (Step.claimStatement world worker tables
          chosen planSnapshot now) _ trivial selected)) done
    · intro turn member claimed ids payload
      by_cases selected : (Step.claimStatement world worker tables chosen
          planSnapshot now).Selects turn.row
      · have none : (turn.apply (Step.claimStatement world worker tables chosen
            planSnapshot now)).payload = none :=
          if_pos ⟨trivial, selected⟩
        rw [none] at payload
        cases payload
      · rw [Turn.apply_of_not_selects selected] at claimed payload ⊢
        exact attentive.covered turn member claimed ids payload
  | payload chosen =>
    obtain ⟨chosenMember, held⟩ := enabled
    refine @Attentive.covered_change world _ [] [] _ (List.append_nil _).symm
      (List.append_nil _).symm (List.forall_mem_nil _)
      (List.forall_mem_nil _) ?_ ?_
    · intro turn member done
      refine if_neg ?_
      intro same
      rw [sound.turn_of_id member chosenMember (of_decide_eq_true same)] at done
      rw [done] at held
      exact absurd held (by decide)
    · intro turn member claimed ids payload
      by_cases same : turn.row.id = chosen.row.id
      · have equal := sound.turn_of_id member chosenMember same
        subst equal
        rw [if_pos (decide_eq_true rfl)] at payload ⊢
        cases payload
        intro message known named user before
        exact attentive.covered_payload sound member held sheltered known named user before rfl
      · rw [if_neg (by simpa using same)] at claimed payload ⊢
        exact attentive.covered turn member claimed ids payload
  | complete completion chosen =>
    obtain ⟨messages, turns⟩ := @perform_complete world chosen completion
    have held := enabled.2.1
    refine Attentive.covered_change messages turns ?_ ?_ ?_ ?_
    · intro turn member
      split at member
      · rw [List.mem_singleton.1 member]
        rfl
      · cases member
    · intro message member user
      unfold Completion.answers at member
      split at member
      · rw [List.mem_singleton.1 member] at user
        cases user
      · cases member
    · intro turn member done
      refine Turn.apply_of_done (fun selected => ?_) done
      rw [sound.turn_of_id member enabled.1 selected]
      exact held.active
    · intro turn member claimed
      by_cases selected : (completion.statement chosen).Selects turn.row
      · have equal := sound.turn_of_id member enabled.1 selected
        subst equal
        have applied : (turn.apply (completion.statement turn)).row =
            (completion.statement turn).set turn.row :=
          Statement.apply_of_selects selected
        refine attentive.covered_kept member (ne_queued_of_held held) ?_
          (Turn.payload_of_not_claims id) ?_
        · rw [applied]
          exact ⟨rfl, rfl, rfl, rfl, rfl⟩
        · intro _ other otherMember done sameIdea
          obtain ⟨_, answer, answerMember, named, finished⟩ :=
            (sound.turns other otherMember).finished done
          have before := enabled.2.2.2.2.2.2 answer answerMember (named.trans sameIdea)
          refine ⟨_, finished, completion.now, ?_, before⟩
          rw [applied]
          exact Completion.set_finishedAt (enabled.2.2.2.1.imp (·.1) fun failed => failed) turn.row
      · rw [Turn.apply_of_not_selects selected] at claimed ⊢
        exact attentive.covered turn member claimed
  | routine statement =>
    refine @Attentive.covered_change world _ [] [] _ (List.append_nil _).symm
      (List.append_nil _).symm (List.forall_mem_nil _)
      (List.forall_mem_nil _) ?_ ?_
    · intro turn member done
      exact Turn.apply_of_done (fun selected => (enabled.2 turn member selected).active) done
    · intro turn member claimed
      by_cases selected : statement.Selects turn.row
      · have held := enabled.2 turn member selected
        have applied : (turn.apply statement).row = statement.set turn.row :=
          Statement.apply_of_selects selected
        refine attentive.covered_kept member (ne_queued_of_held held) ?_
          (Turn.payload_of_not_claims enabled.1.not_claims) ?_
        · rw [applied]
          exact enabled.1.kept turn.row
        · intro done
          rw [applied] at done
          exact absurd done (enabled.1.not_done held)
      · rw [Turn.apply_of_not_selects selected] at claimed ⊢
        exact attentive.covered turn member claimed

/-! ## Waking up -/

/-- Where no newer message is, the cutoff is after every message. -/
theorem Sound.le_cutoff_of_not_newer (sound : Sound world) (member : turn ∈ world.turns)
    (claimed : turn.row.status ≠ .queued) (none : ¬ world.Newer turn.row)
    (known : message ∈ world.messages) (named : some message.ideaId = turn.row.ideaId)
    (user : message.role = .user) :
    message.createdAt ≤ cutoffAt turn.row := by
  refine not_lt.1 fun after => none ⟨message, known, named, user, ?_⟩
  exact (sound.after_iff member claimed known named).2 after

/-- The state after a routine statement that does not fail the turn. -/
theorem Routine.active (routine : Routine statement) {row : JobRow}
    (held : row.status.Held) (survives : statement.target ≠ some .failed) :
    (statement.set row).status.Active := by
  cases statement with
  | staleFailed => exact absurd rfl survives
  | markJobTerminallyFailed => exact absurd rfl survives
  | refreshOwnership => exact held.active
  | staleRequeued => exact .inl rfl
  | rollbackClaim => exact .inl rfl
  | releaseMismatchedClaim => exact .inl rfl
  | updateJobStatus jobId report read now =>
    refine .inr (.inr ?_)
    show report.status.jobStatus = .running
    have running : report.status = .running := routine
    rw [running]
    rfl
  | _ => exact routine.elim

theorem Attentive.awake_execute
    (attentive : Attentive world) (sound : Sound world) (enabled : step.Enabled world)
    (sheltered : Sheltered world step) :
    ∀ message ∈ (perform world step).messages, message.role = .user →
      ∃ turn ∈ (perform world step).turns, turn.row.ideaId = some message.ideaId ∧
          (turn.row.status.Active ∨ message.createdAt ≤ cutoffAt turn.row) := by
  cases step with
  | send input values =>
    obtain ⟨messages, turns⟩ := perform_send enabled
    rw [messages, turns]
    intro message member user
    rcases mem_inserted.1 member with known | rfl
    · obtain ⟨turn, turnMember, rest⟩ := attentive.awake message known user
      exact ⟨turn, List.mem_append_left _ turnMember, rest⟩
    · split
      · rename_i busy
        obtain ⟨turn, turnMember, on, active⟩ := busy
        exact ⟨turn, List.mem_append_left _ turnMember, on.2, .inl active⟩
      · exact ⟨_, List.mem_append_right _ List.mem_cons_self, rfl, .inl (.inl rfl)⟩
  | claim worker tables chosen planSnapshot now =>
    intro message known user
    obtain ⟨turn, member, named, state⟩ := attentive.awake message known user
    refine ⟨_, List.mem_map.2 ⟨turn, member, rfl⟩, ?_, ?_⟩
    · rw [(sound.rewritten_claim member enabled).ideaId]
      exact named
    · by_cases selected : (Step.claimStatement world worker tables chosen
          planSnapshot now).Selects turn.row
      · have applied : (turn.apply (Step.claimStatement world worker tables
            chosen planSnapshot now)).row = _ :=
          Statement.apply_of_selects selected
        rw [applied]
        exact .inl (.inr (.inl rfl))
      · rw [Turn.apply_of_not_selects selected]
        exact state
  | payload chosen =>
    intro message known user
    obtain ⟨turn, member, named, state⟩ := attentive.awake message known user
    refine ⟨_, List.mem_map.2 ⟨turn, member, rfl⟩, ?_⟩
    split
    · exact ⟨named, state⟩
    · exact ⟨named, state⟩
  | complete completion chosen =>
    obtain ⟨messages, turns⟩ := @perform_complete world chosen completion
    rw [messages, turns]
    intro message member user
    have known : message ∈ world.messages := by
      rcases List.mem_append.1 member with known | new
      · exact known
      · unfold Completion.answers at new
        split at new
        · rw [List.mem_singleton.1 new] at user
          cases user
        · cases new
    obtain ⟨turn, turnMember, named, state⟩ := attentive.awake message known user
    by_cases selected : (completion.statement chosen).Selects turn.row
    · have equal := sound.turn_of_id turnMember enabled.1 selected
      subst equal
      by_cases newer : world.Newer turn.row
      · rw [if_pos newer]
        exact ⟨_, List.mem_append_right _ List.mem_cons_self, named, .inl (.inl rfl)⟩
      · refine ⟨_, List.mem_append_left _ (List.mem_map.2 ⟨turn, turnMember, rfl⟩), ?_⟩
        have applied : (turn.apply (completion.statement turn)).row =
            (completion.statement turn).set turn.row :=
          Statement.apply_of_selects selected
        rw [applied]
        exact ⟨named, .inr (sound.le_cutoff_of_not_newer turnMember
          (ne_queued_of_held enabled.2.1) newer known named.symm user)⟩
    · refine ⟨_, List.mem_append_left _ (List.mem_map.2 ⟨turn, turnMember, rfl⟩), ?_⟩
      rw [Turn.apply_of_not_selects selected]
      exact ⟨named, state⟩
  | routine statement =>
    intro message known user
    obtain ⟨turn, member, named, state⟩ := attentive.awake message known user
    refine ⟨_, List.mem_map.2 ⟨turn, member, rfl⟩, ?_⟩
    by_cases selected : statement.Selects turn.row
    · have held := enabled.2 turn member selected
      have applied : (turn.apply statement).row = statement.set turn.row :=
        Statement.apply_of_selects selected
      have kept := enabled.1.kept turn.row
      rw [applied, kept.ideaId, kept.cutoff]
      refine ⟨named, ?_⟩
      by_cases fails : statement.target = some .failed
      · exact .inr (sound.le_cutoff_of_not_newer member (ne_queued_of_held held)
          (sheltered fails turn member selected) known named.symm user)
      · exact .inl (enabled.1.active held fails)
    · rw [Turn.apply_of_not_selects selected]
      exact ⟨named, state⟩

theorem Attentive.execute (attentive : Attentive world) (sound : Sound world)
    (sheltered : Sheltered world step) :
    Attentive (execute world step) := by
  unfold IdeaChats.execute
  split
  · rename_i enabled
    exact
      { covered := attentive.covered_execute sound enabled sheltered
        awake := attentive.awake_execute sound enabled sheltered }
  · exact attentive

/-! ## Runs -/

/-- The turns on an idea, in the order in which they were queued. -/
def World.turnsOn (world : World) (ideaId : String) : List Turn :=
  world.turns.filter fun turn => turn.On ideaId

/-- No message is lost and none is answered twice. The turns on an idea end in
the order in which they were queued, so the last of a quiet channel is the one
that finished last. -/
structure Answered (world : World) : Prop where
  inOrder : world.turns.Pairwise fun first second =>
    first.row.ideaId = second.row.ideaId → first.row.status.Terminal
  /-- In a quiet channel every message is known to the last finished turn. -/
  known : ∀ message ∈ world.messages, message.role = .user →
    ¬ world.Busy message.ideaId →
      ∃ last ∈ (world.turnsOn message.ideaId).getLast?,
        last.row.status.Terminal ∧ message.AtOrBefore last.row
  /-- What a finished turn knew was named in its payload or in an earlier one. -/
  named : ∀ turn ∈ world.turns, turn.row.status = .done →
    ∀ message ∈ world.messages, some message.ideaId = turn.row.ideaId →
      message.role = .user → message.AtOrBefore turn.row →
        ∃ other ∈ world.turns, other.row.status = .done ∧
          other.row.ideaId = turn.row.ideaId ∧
          (other = turn ∨
            ∃ before ∈ other.row.finishedAt, ∃ after ∈ turn.row.finishedAt,
              before < after) ∧
          ∃ ids ∈ other.payload, message.id ∈ ids
  /-- No message is named in the payloads of two finished turns. -/
  once : ∀ first ∈ world.turns, first.row.status = .done →
    ∀ second ∈ world.turns, second.row.status = .done → first ≠ second →
      ∀ ids ∈ first.payload, ∀ ids' ∈ second.payload, ∀ id ∈ ids, id ∉ ids'

theorem Sound.message_of_id (sound : Sound world) {first second : IdeaChatMessageRow}
    (firstMember : first ∈ world.messages) (secondMember : second ∈ world.messages)
    (same : first.id = second.id) :
    first = second :=
  List.inj_on_of_nodup_map sound.messageIds firstMember secondMember same

/-- A later turn names nothing that a finished one has named. -/
theorem Sound.apart (sound : Sound world) {first second : Turn} (member : first ∈ world.turns)
    (done : first.row.status = .done) (claimed : second.row.status ≠ .queued)
    (follows : Follows world.messages first second) {ids ids' : List String}
    (payload : ids ∈ first.payload) (payload' : ids' ∈ second.payload) {id : String}
    (told : id ∈ ids) :
    id ∉ ids' := by
  intro again
  have firstClaimed : first.row.status ≠ .queued := by
    rw [done]
    decide
  obtain ⟨message, known, same, _, before⟩ :=
    (sound.turns first member).within firstClaimed ids payload id told
  obtain ⟨other, otherKnown, otherSame, after⟩ := follows.beyond done claimed ids' payload' id again
  have equal := sound.message_of_id known otherKnown (same.trans otherSame.symm)
  rw [equal] at before
  exact absurd after (not_lt.2 before)

theorem Sound.once (sound : Sound world) {first second : Turn} (firstMember : first ∈ world.turns)
    (firstDone : first.row.status = .done) (secondMember : second ∈ world.turns)
    (secondDone : second.row.status = .done) (different : first ≠ second)
    {ids ids' : List String} (payload : ids ∈ first.payload)
    (payload' : ids' ∈ second.payload) {id : String} (told : id ∈ ids) :
    id ∉ ids' := by
  have claimed : ∀ turn : Turn, turn.row.status = .done → turn.row.status ≠ .queued := by
    intro turn done
    rw [done]
    decide
  intro again
  -- Payloads on different ideas name different messages.
  obtain ⟨message, known, same, named, _⟩ := (sound.turns first firstMember).within
    (claimed first firstDone) ids payload id told
  obtain ⟨other, otherKnown, otherSame, otherNamed, _⟩ :=
    (sound.turns second secondMember).within (claimed second secondDone) ids' payload' id again
  have equal := sound.message_of_id known otherKnown (same.trans otherSame.symm)
  have sameIdea : first.row.ideaId = second.row.ideaId :=
    named.symm.trans ((congrArg (some ·.ideaId) equal).trans otherNamed)
  rcases pairwise_cases sound.follows firstMember secondMember with
    rfl | before | after
  · exact different rfl
  · exact sound.apart firstMember firstDone (claimed second secondDone)
      (before sameIdea) payload payload' told again
  · exact sound.apart secondMember secondDone (claimed first firstDone)
      (after sameIdea.symm) payload' payload again told

/-- The last turn on an idea has the greatest cutoff. -/
theorem Sound.getLast?_turnsOn (sound : Sound world) {ideaId : String} (member : turn ∈ world.turns)
    (named : turn.row.ideaId = some ideaId) (quiet : ¬ world.Busy ideaId) :
    ∃ last ∈ (world.turnsOn ideaId).getLast?, last ∈ world.turns ∧
      last.row.ideaId = some ideaId ∧ last.row.status.Terminal ∧
      cutoffAt turn.row ≤ cutoffAt last.row := by
  have among : turn ∈ world.turnsOn ideaId :=
    List.mem_filter.2 ⟨member, decide_eq_true ⟨(sound.turns turn member).kind, named⟩⟩
  have ended : ∀ other ∈ world.turnsOn ideaId, other.row.status.Terminal := by
    intro other otherMember active
    obtain ⟨known, on⟩ := List.mem_filter.1 otherMember
    exact quiet ⟨other, known, of_decide_eq_true on, active⟩
  obtain ⟨rest, last, split⟩ :=
    List.eq_nil_or_concat' (world.turnsOn ideaId) |>.resolve_left (List.ne_nil_of_mem among)
  have lastAmong : last ∈ world.turnsOn ideaId := by
    rw [split]
    exact List.mem_append_right _ List.mem_cons_self
  obtain ⟨lastMember, lastOn⟩ := List.mem_filter.1 lastAmong
  have lastNamed := (of_decide_eq_true lastOn).2
  have lastClaimed : last.row.status ≠ .queued := fun queued => ended last lastAmong (.inl queued)
  refine ⟨last, ?_, lastMember, lastNamed, ended last lastAmong, ?_⟩
  · rw [split, List.getLast?_append]
    rfl
  · have pairwise := sound.follows.filter fun other => decide (other.On ideaId)
    change (world.turnsOn ideaId).Pairwise _ at pairwise
    rw [split] at among pairwise
    rcases List.mem_append.1 among with earlier | same
    · have follows := (List.pairwise_append.1 pairwise).2.2 turn earlier last
        List.mem_cons_self (named.trans lastNamed.symm)
      exact follows.climbs lastClaimed
    · rw [List.mem_singleton.1 same]

theorem Attentive.answered (attentive : Attentive world) (sound : Sound world) :
    Answered world where
  inOrder := sound.follows.imp fun follows same => (follows same).ended
  known := by
    intro message member user quiet
    obtain ⟨turn, turnMember, named, state⟩ := attentive.awake message member user
    obtain ⟨last, search, lastMember, lastNamed, ended, climbs⟩ :=
      sound.getLast?_turnsOn turnMember named quiet
    refine ⟨last, search, ended, ?_⟩
    have claimed : last.row.status ≠ .queued := fun queued => ended (.inl queued)
    refine (sound.atOrBefore_iff lastMember claimed member lastNamed.symm).2 ?_
    rcases state with active | before
    · exact absurd ⟨turn, turnMember, ⟨(sound.turns turn turnMember).kind, named⟩, active⟩ quiet
    · exact le_trans before climbs
  named := by
    intro turn member done message known named user before
    have claimed : turn.row.status ≠ .queued := by
      rw [done]
      decide
    obtain ⟨told, _⟩ := (sound.turns turn member).finished done
    obtain ⟨ids, payload⟩ := Option.ne_none_iff_exists'.1 told
    rcases attentive.covered turn member claimed ids payload message known named
      user ((sound.atOrBefore_iff member claimed known named).1 before) with
      among | ⟨other, otherMember, otherDone, sameIdea, order, among⟩
    · exact ⟨turn, member, done, rfl, .inl rfl, ids, payload, among⟩
    · exact ⟨other, otherMember, otherDone, sameIdea, .inr (order done), among⟩
  once := fun _ firstMember firstDone _ secondMember secondDone different _ payload
      _ payload' _ told =>
    sound.once firstMember firstDone secondMember secondDone different payload payload' told

namespace ChannelRuns

def ideas : List IdeaRow := [⟨"idea", some "product"⟩]

def worker : WorkerRow where
  userId := "owner"
  tokenId := "token"
  instanceId := "instance"
  productId := none
  runtime := .claude
  capabilities := []
  lastSeenAt := 0
  lastQuotaPct := none
  tier := none

def tables : WorkerTables where
  jobs := []
  incarnations := []
  profiles := []
  workers := []
  users := []
  now := 0

def send (message job : String) (now : Moment) : Step :=
  .send ⟨"product", "idea", message, true⟩ ⟨message, job, "owner", .claude, now⟩

/-- A step on the last turn. -/
def lastly (step : Turn → Step) (world : World) : Step :=
  step (world.turns.getLast?.getD
    ⟨queuedTurn ⟨"product", "idea", "", true⟩ ⟨"", "", "", .claude, 0⟩, none⟩)

def claim (now : Moment) : World → Step :=
  lastly fun turn => .claim worker tables turn "" now

def done (followUpId : String) (now : Moment) : World → Step :=
  lastly fun turn => .complete
    ⟨"token", { status := .done, summary := some "answer" }, "to " ++ turn.row.id,
      followUpId, .claude, now⟩ turn

/-- The steps of a run that looks at the state. -/
def scripted : World → List (World → Step) → List Step
  | _, [] => []
  | world, next :: rest =>
      next world :: scripted (execute world (next world)) rest

/-- The second message comes while the first turn is answered. -/
def coalesced : List Step :=
  scripted (.silent ideas) [fun _ => send "first" "one" 1, claim 2, lastly .payload,
      fun _ => send "second" "none" 3, done "two" 4, claim 5, lastly .payload,
      done "three" 6]

/-- The sweep takes the turn back twice and fails it the third time, after
another message has come. -/
def swept : List Step :=
  scripted (.silent ideas) [fun _ => send "first" "one" 1, claim 2,
      fun _ => .routine (.staleRequeued "owner" 400000), claim 400001,
      fun _ => .routine (.staleRequeued "owner" 800000), claim 800001,
      fun _ => send "second" "none" 800002,
      fun _ => .routine (.staleFailed "owner" 1200000)]

/-- Fifty-one messages wait for one turn. -/
def crowded : List Step :=
  scripted (.silent ideas) (((List.range 51).map fun place : Nat => fun _ : World =>
        send (toString place) ("job" ++ toString place) (place + 1)) ++
      [claim 60, lastly .payload, done "two" 61])

end ChannelRuns

/-- A message that a finished turn knew is in no payload. -/
def Unnamed (world : World) : Prop :=
  ∃ turn ∈ world.turns, turn.row.status = .done ∧
    ∃ message ∈ world.messages, some message.ideaId = turn.row.ideaId ∧
      message.role = .user ∧ message.AtOrBefore turn.row ∧
      ∀ other ∈ world.turns, ∀ ids ∈ other.payload, message.id ∉ ids

instance (world : World) : Decidable (Unnamed world) :=
  inferInstanceAs (Decidable (∃ _ ∈ _, _))

theorem Unnamed.not_answered (unnamed : Unnamed world) : ¬ Answered world := by
  rintro answered
  obtain ⟨turn, member, done, message, known, named, user, before, silent⟩ := unnamed
  obtain ⟨other, otherMember, _, _, _, ids, payload, told⟩ :=
    answered.named turn member done message known named user before
  exact silent other otherMember ids payload told

end IdeaChats
end Scrum4Me
