import Scrum4Me.IdeaChats.Channel

/-!
# The turns on an idea

The turns on one idea follow each other: a turn begins when all before it have
ended, its cutoff is not before theirs, and what its payload names came after the
cutoff of every finished turn.
-/

namespace Scrum4Me
namespace IdeaChats

open Foundation Jobs

/-! ## The invariant -/

/-- What a turn is, and what it knows of the channel. -/
structure TurnSound (messages : List IdeaChatMessageRow) (turn : Turn) : Prop where
  kind : turn.row.kind = .ideaChat
  named : ¬ Falsy turn.row.ideaId
  spoken : ∃ message ∈ messages, some message.ideaId = turn.row.ideaId
  /-- A claim puts the cutoff on a message. -/
  placed : turn.row.status ≠ .queued →
    ∃ message ∈ messages, some message.ideaId = turn.row.ideaId ∧
      turn.row.chatCutoffAt = some message.createdAt ∧
      turn.row.chatCutoffMessageId = some message.id
  /-- A turn is finished with an answer. -/
  finished : turn.row.status = .done →
    turn.payload ≠ none ∧
      ∃ message ∈ messages, some message.ideaId = turn.row.ideaId ∧
        turn.row.finishedAt = some message.createdAt
  /-- The payload names messages up to the cutoff. -/
  within : turn.row.status ≠ .queued → ∀ ids ∈ turn.payload, ∀ id ∈ ids,
    ∃ message ∈ messages, message.id = id ∧
      some message.ideaId = turn.row.ideaId ∧
      message.createdAt ≤ cutoffAt turn.row

/-- A turn begins after another on the same idea. -/
structure Follows
    (messages : List IdeaChatMessageRow) (first second : Turn) :
    Prop where
  ended : first.row.status.Terminal
  climbs : second.row.status ≠ .queued → cutoffAt first.row ≤ cutoffAt second.row
  later : first.row.status = .done → second.row.status = .done →
    ∃ before ∈ first.row.finishedAt, ∃ after ∈ second.row.finishedAt,
      before < after
  beyond : first.row.status = .done → second.row.status ≠ .queued →
    ∀ ids ∈ second.payload, ∀ id ∈ ids,
      ∃ message ∈ messages, message.id = id ∧
        cutoffAt first.row < message.createdAt

/-- What every reachable state satisfies. -/
structure Sound (world : World) : Prop where
  turnIds : world.turnIds.Nodup
  messageIds : world.messageIds.Nodup
  ordered : world.messages.Pairwise fun first second =>
    first.ideaId = second.ideaId → first.createdAt < second.createdAt
  turns : ∀ turn ∈ world.turns, TurnSound world.messages turn
  follows : world.turns.Pairwise fun first second =>
    first.row.ideaId = second.row.ideaId → Follows world.messages first second

theorem sound_silent (ideas : List IdeaRow) : Sound (World.silent ideas) where
  turnIds := List.nodup_nil
  messageIds := List.nodup_nil
  ordered := List.Pairwise.nil
  turns := List.forall_mem_nil _
  follows := List.Pairwise.nil

variable {world : World} {turn : Turn} {message other : IdeaChatMessageRow}

/-- A message appears in the channel, or none does. -/
theorem TurnSound.mono
    {messages messages' : List IdeaChatMessageRow} (sound : TurnSound messages turn)
    (more : ∀ message ∈ messages, message ∈ messages') :
    TurnSound messages' turn :=
  { sound with
    spoken := by
      obtain ⟨message, member, named⟩ := sound.spoken
      exact ⟨message, more message member, named⟩
    placed := by
      intro claimed
      obtain ⟨message, member, rest⟩ := sound.placed claimed
      exact ⟨message, more message member, rest⟩
    finished := by
      intro done
      obtain ⟨told, message, member, rest⟩ := sound.finished done
      exact ⟨told, message, more message member, rest⟩
    within := by
      intro claimed ids payload id among
      obtain ⟨message, member, rest⟩ := sound.within claimed ids payload id among
      exact ⟨message, more message member, rest⟩ }

theorem Follows.mono {messages messages' : List IdeaChatMessageRow} {first second : Turn}
    (follows : Follows messages first second) (more : ∀ message ∈ messages, message ∈ messages') :
    Follows messages' first second :=
  { follows with
    beyond := by
      intro done claimed ids payload id among
      obtain ⟨message, member, rest⟩ := follows.beyond done claimed ids payload id among
      exact ⟨message, more message member, rest⟩ }

/-! ## Messages and cutoffs -/

section Sound

variable (sound : Sound world)

include sound

/-- Two messages of an idea of one moment are one. -/
theorem Sound.message_of_createdAt
    (member : message ∈ world.messages) (otherMember : other ∈ world.messages)
    (sameIdea : message.ideaId = other.ideaId) (sameMoment : message.createdAt = other.createdAt) :
    message = other := by
  rcases pairwise_cases sound.ordered member otherMember with
    same | before | after
  · exact same
  · exact absurd sameMoment (before sameIdea).ne
  · exact absurd sameMoment (after sameIdea.symm).ne'

/-- With the cutoff on a message, the moment decides. -/
theorem Sound.atOrBefore_iff (turnMember : turn ∈ world.turns) (claimed : turn.row.status ≠ .queued)
    (member : message ∈ world.messages) (named : some message.ideaId = turn.row.ideaId) :
    message.AtOrBefore turn.row ↔ message.createdAt ≤ cutoffAt turn.row := by
  obtain ⟨last, lastMember, lastNamed, moment, id⟩ := (sound.turns turn turnMember).placed claimed
  have at_ : cutoffAt turn.row = last.createdAt := by rw [cutoffAt, moment]; rfl
  have id_ : cutoffId turn.row = last.id := by rw [cutoffId, id]; rfl
  unfold IdeaChatMessageRow.AtOrBefore
  rw [at_, id_]
  constructor
  · rintro (before | ⟨same, -⟩)
    · exact before.le
    · exact same.le
  · intro before
    rcases before.lt_or_eq with strictly | same
    · exact .inl strictly
    · have sameIdea := Option.some.inj (named.trans lastNamed.symm)
      have equal := sound.message_of_createdAt member lastMember sameIdea same
      exact .inr ⟨same, (congrArg _ equal).le⟩

theorem Sound.after_iff (turnMember : turn ∈ world.turns) (claimed : turn.row.status ≠ .queued)
    (member : message ∈ world.messages) (named : some message.ideaId = turn.row.ideaId) :
    message.After turn.row ↔ cutoffAt turn.row < message.createdAt := by
  rw [IdeaChatMessageRow.after_iff, sound.atOrBefore_iff turnMember claimed member named, not_le]

theorem Sound.turn_of_id {first second : Turn} (firstMember : first ∈ world.turns)
    (secondMember : second ∈ world.turns) (same : first.row.id = second.row.id) :
    first = second :=
  List.inj_on_of_nodup_map sound.turnIds firstMember secondMember same

/-- A turn that is active ends the list of turns on its idea. -/
theorem Sound.follows_active {first second : Turn} (firstMember : first ∈ world.turns)
    (secondMember : second ∈ world.turns) (sameIdea : first.row.ideaId = second.row.ideaId)
    (active : second.row.status.Active) :
    first = second ∨ Follows world.messages first second := by
  rcases pairwise_cases sound.follows firstMember secondMember with
    same | before | after
  · exact .inl same
  · exact .inr (before sameIdea)
  · exact absurd active (after sameIdea.symm).ended

/-! ## Additions -/

/-- A message appears after those of its idea. -/
theorem Sound.withMessage (fresh : message.id ∉ world.messageIds)
    (later : Later world (some message.ideaId) message.createdAt) :
    Sound { world with messages := world.messages ++ [message] } where
  turnIds := sound.turnIds
  messageIds := by
    show ((world.messages ++ [message]).map (·.id)).Nodup
    rw [List.map_append, List.nodup_append]
    refine ⟨sound.messageIds, List.nodup_singleton _, ?_⟩
    rintro id known _ new rfl
    rw [List.mem_singleton.1 new] at known
    exact fresh known
  ordered := by
    rw [List.pairwise_append]
    refine ⟨sound.ordered, List.pairwise_singleton _ _, ?_⟩
    intro first member second new sameIdea
    rw [List.mem_singleton.1 new] at sameIdea ⊢
    exact later first member (congrArg some sameIdea)
  turns := fun turn member =>
    (sound.turns turn member).mono fun _ known => List.mem_append_left _ known
  follows := sound.follows.imp fun follows sameIdea =>
    (follows sameIdea).mono fun _ known => List.mem_append_left _ known

/-- A turn is queued on an idea on which no other is active. -/
theorem Sound.withTurn (fresh : turn.row.id ∉ world.turnIds) (queued : turn.row.status = .queued)
    (kind : turn.row.kind = .ideaChat) (named : ¬ Falsy turn.row.ideaId)
    (spoken : ∃ message ∈ world.messages, some message.ideaId = turn.row.ideaId)
    (idle : ∀ other ∈ world.turns, other.row.ideaId = turn.row.ideaId → other.row.status.Terminal) :
    Sound { world with turns := world.turns ++ [turn] } where
  turnIds := by
    show ((world.turns ++ [turn]).map (·.row.id)).Nodup
    rw [List.map_append, List.nodup_append]
    refine ⟨sound.turnIds, List.nodup_singleton _, ?_⟩
    rintro id known _ new rfl
    rw [List.mem_singleton.1 new] at known
    exact fresh known
  messageIds := sound.messageIds
  ordered := sound.ordered
  turns := by
    intro other member
    rcases mem_inserted.1 member with known | rfl
    · exact sound.turns other known
    · exact
        { kind := kind
          named := named
          spoken := spoken
          placed := fun claimed => absurd queued claimed
          finished := fun done => by rw [queued] at done; cases done
          within := fun claimed => absurd queued claimed }
  follows := by
    rw [List.pairwise_append]
    refine ⟨sound.follows, List.pairwise_singleton _ _, ?_⟩
    intro first member second new sameIdea
    rw [List.mem_singleton.1 new] at sameIdea ⊢
    exact
      { ended := idle first member sameIdea
        climbs := fun claimed => absurd queued claimed
        later := fun _ done => by rw [queued] at done; cases done
        beyond := fun _ claimed => absurd queued claimed }

end Sound

/-! ## Rewritten turns -/

/-- How a statement may rewrite a turn: one that has ended stays, a cutoff does
not go back, a turn is finished after every message before it, and a new payload
names what came after the other finished turns. -/
structure Rewritten
    (world : World) (messages : List IdeaChatMessageRow) (turn turn' : Turn) :
    Prop where
  id : turn'.row.id = turn.row.id
  ideaId : turn'.row.ideaId = turn.row.ideaId
  ended : turn.row.status.Terminal → turn' = turn
  sound : TurnSound messages turn'
  climbs : turn'.row.status ≠ .queued →
    turn.row.status ≠ .queued ∧ cutoffAt turn'.row = cutoffAt turn.row ∨
      ∀ message ∈ world.messages, some message.ideaId = turn.row.ideaId →
        message.createdAt ≤ cutoffAt turn'.row
  later : turn'.row.status = .done →
    turn.row.status = .done ∨
      ∀ message ∈ world.messages, some message.ideaId = turn.row.ideaId →
        ∃ after ∈ turn'.row.finishedAt, message.createdAt < after
  beyond : turn'.row.status ≠ .queued → ∀ ids ∈ turn'.payload,
    turn.row.status ≠ .queued ∧ ids ∈ turn.payload ∨
      ∀ first ∈ world.turns, first.row.ideaId = turn.row.ideaId →
        first.row.status = .done → first ≠ turn → ∀ id ∈ ids,
          ∃ message ∈ messages, message.id = id ∧
            cutoffAt first.row < message.createdAt

theorem Sound.rewrite
    (sound : Sound world) {messages : List IdeaChatMessageRow} {change : Turn → Turn}
    (more : ∀ message ∈ world.messages, message ∈ messages)
    (messageIds : (messages.map (·.id)).Nodup) (ordered : messages.Pairwise fun first second =>
      first.ideaId = second.ideaId → first.createdAt < second.createdAt)
    (rewritten : ∀ turn ∈ world.turns, Rewritten world messages turn (change turn)) :
    Sound { world with
      messages := messages
      turns := world.turns.map change } where
  turnIds := by
    have ids : (world.turns.map change).map (·.row.id) = world.turnIds := by
      rw [List.map_map]
      exact List.map_congr_left fun turn member => (rewritten turn member).id
    show ((world.turns.map change).map (·.row.id)).Nodup
    rw [ids]
    exact sound.turnIds
  messageIds := messageIds
  ordered := ordered
  turns := by
    intro turn member
    obtain ⟨old, known, rfl⟩ := List.mem_map.1 member
    exact (rewritten old known).sound
  follows := by
    rw [List.pairwise_map]
    refine List.Pairwise.imp_of_mem ?_
      (List.Pairwise.and_mem.1 (sound.follows.and (List.Nodup.of_map _ sound.turnIds)))
    rintro first second firstKnown secondKnown ⟨firstMember, secondMember, pair⟩ sameIdea
    obtain ⟨follows, different⟩ := pair
    have rewrittenSecond := rewritten second secondMember
    have before : first.row.ideaId = second.row.ideaId :=
      (rewritten first firstMember).ideaId.symm.trans (sameIdea.trans rewrittenSecond.ideaId)
    have follows := follows before
    rw [(rewritten first firstMember).ended follows.ended]
    have firstClaimed : first.row.status ≠ .queued := by
      intro queued
      exact follows.ended (.inl queued)
    obtain ⟨last, lastMember, lastNamed, moment, _⟩ :=
      (sound.turns first firstMember).placed firstClaimed
    exact
      { ended := follows.ended
        climbs := by
          intro claimed
          rcases rewrittenSecond.climbs claimed with ⟨wasClaimed, same⟩ | last_
          · rw [same]
            exact follows.climbs wasClaimed
          · have cutoff : cutoffAt first.row = last.createdAt := by
              rw [cutoffAt, moment]
              rfl
            rw [cutoff]
            exact last_ last lastMember (lastNamed.trans before)
        later := by
          intro firstDone secondDone
          rcases rewrittenSecond.later secondDone with wasDone | after
          · rw [rewrittenSecond.ended (by rw [wasDone]; decide)]
            exact follows.later firstDone wasDone
          · obtain ⟨-, answer, answerMember, answerNamed, finished⟩ :=
              (sound.turns first firstMember).finished firstDone
            obtain ⟨moment, known, strictly⟩ := after answer answerMember (answerNamed.trans before)
            exact ⟨_, finished, moment, known, strictly⟩
        beyond := by
          intro firstDone claimed ids payload id among
          rcases rewrittenSecond.beyond claimed ids payload with
            ⟨wasClaimed, old⟩ | new
          · obtain ⟨message, member, rest⟩ := follows.beyond firstDone wasClaimed ids old id among
            exact ⟨message, more message member, rest⟩
          · exact new first firstMember before firstDone different id among }

end IdeaChats
end Scrum4Me
