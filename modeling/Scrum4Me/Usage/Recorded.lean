import Scrum4Me.Usage.Effects

/-!
# A segment is recorded once

Races decide which messages take effect. What is stored depends on the first closing
among them only, and every step stores all of a message or nothing.
-/

namespace Scrum4Me
namespace Usage

open Foundation

variable {directory : Directory} {world : World}

/-! ## What a step may do -/

/-- A message of the owner, who has access to the product, creates a segment or closes
an open one; all of it at once. -/
inductive Moves (directory : Directory) (call : Call) :
    Option (SegmentRow × List Line) → Option (SegmentRow × List Line) → Prop
  | created (scope : Scope) (placed : directory.scope call.input.toHeader call.auth = .ok scope)
      (accessible : directory.userCanAccessProduct scope.productId call.auth = true) :
      Moves directory call none (some ((call.input.row call.auth.userId scope).settled
          (directory.closing call.input)))
  | closed (row : SegmentRow) (close : Close) (isOpen : row.endedAt = none)
      (own : row.userId = call.auth.userId)
      (accessible : directory.userCanAccessProduct row.productId call.auth = true)
      (closing : directory.closing call.input = some close) :
      Moves directory call (some (row, [])) (some (row.settled (some close)))

/-- A step changes one segment in such a way, or none. -/
def Step.Orderly (directory : Directory) (world : World) (step : Step) : Prop :=
  (∀ id, (execute directory world step).stored id = world.stored id) ∨
    ∃ call, step = .advance call ∧
      Moves directory call (world.stored call.input.id)
          ((execute directory world step).stored call.input.id) ∧
        ∀ id, id ≠ call.input.id → (execute directory world step).stored id = world.stored id

/-! ## Statements -/

theorem stored_of_parts {row : SegmentRow} {lines : List Line} {id : String}
    (there : world.segment? id = some row) (listed : world.linesOf id = lines) :
    world.stored id = some (row, lines) := by
  unfold World.stored
  rw [there, listed]
  rfl

variable {call : Call} {scope : Scope} {auth : Auth} {retried : Bool}

/-- A scope is a product that the user has access to. -/
theorem accessible_of_scope {header : Header} (placed : directory.scope header auth = .ok scope) :
    directory.userCanAccessProduct scope.productId auth = true := by
  unfold Directory.scope at placed
  cases issue : header.issueId with
  | some issueId =>
    rw [issue] at placed
    simp only [Option.elim, Directory.issueScope, bind_eq_ok, require_eq_ok, ensure_eq_ok,
      pure_eq_ok] at placed
    obtain ⟨row, -, -, accessible, rfl⟩ := placed
    exact accessible
  | none =>
    rw [issue] at placed
    cases idea : header.ideaId with
    | some ideaId =>
      rw [idea] at placed
      simp only [Option.elim, Directory.ideaScope, bind_eq_ok, require_eq_ok,
        ensure_eq_ok, pure_eq_ok] at placed
      obtain ⟨row, -, productId, -, -, accessible, rfl⟩ := placed
      exact accessible
    | none =>
      rw [idea] at placed
      cases anchor : header.anchorTaskId with
      | some anchorTaskId =>
        rw [anchor] at placed
        simp only [Option.elim, Directory.anchorScope, bind_eq_ok, require_eq_ok,
          ensure_eq_ok, pure_eq_ok] at placed
        obtain ⟨row, -, -, accessible, sprintId, -, rfl⟩ := placed
        exact accessible
      | none =>
        rw [anchor] at placed
        simp only [Option.elim, Directory.productScope, bind_eq_ok, require_eq_ok,
          ensure_eq_ok, pure_eq_ok] at placed
        obtain ⟨productId, -, -, accessible, rfl⟩ := placed
        exact accessible

/-- What the next statement of a call leaves. -/
structure Advances (directory : Directory) (world after : World) (call : Call) : Prop where
  sound : Sound directory after
  orderly : (∀ id, after.stored id = world.stored id) ∨
    Moves directory call (world.stored call.input.id) (after.stored call.input.id) ∧
      ∀ id, id ≠ call.input.id → after.stored id = world.stored id

theorem Sound.reading (sound : Sound directory world) (stage : call.stage = .reading retried) :
    Advances directory world (world.advance directory call) call := by
  unfold World.advance
  rw [stage]
  dsimp only
  split
  · exact ⟨sound.goOn trivial, .inl fun _ => rfl⟩
  · rename_i existing found
    have member := List.mem_of_find?_eq_some found
    have criteria := List.find?_some found
    have named : existing.id = call.input.id := of_decide_eq_true criteria
    split
    · refine ⟨sound.answer rfl ?_, .inl fun _ => rfl⟩
      exact fun _ _ replied => by cases replied
    · rename_i licensed
      obtain ⟨own, accessible⟩ := not_or.mp licensed
      split
      · rename_i settled
        refine ⟨sound.answer rfl ?_, .inl fun _ => rfl⟩
        intro isClosed effect replied
        cases replied
        constructor
        · intro closes
          rcases settled with ended | header
          · exact decide_eq_true ended
          · exact absurd header closes
        · exact ⟨existing, member, named, of_decide_eq_true⟩
      · rename_i unsettled
        obtain ⟨-, closes⟩ := not_or.mp unsettled
        split
        · refine ⟨sound.answer rfl ?_, .inl fun _ => rfl⟩
          exact fun _ _ replied => by cases replied
        · refine ⟨sound.goOn ⟨⟨existing, member, named, ?_, ?_⟩, closes⟩, .inl fun _ => rfl⟩
          · exact Decidable.not_not.mp own
          · exact Bool.of_not_eq_false accessible

theorem Sound.creating (sound : Sound directory world)
    (stage : call.stage = .creating scope retried)
    (placed : directory.scope call.input.toHeader call.auth = .ok scope) :
    Advances directory world (world.advance directory call) call := by
  unfold World.advance
  rw [stage]
  dsimp only
  split
  · rename_i free
    obtain ⟨-, empty⟩ := sound.missing free
    refine ⟨sound.create placed free, .inr ⟨?_, ?_⟩⟩
    · have before : world.stored call.input.id = none := by
        unfold World.stored
        rw [free]
        rfl
      have there : (world.insert (call.input.row call.auth.userId scope)
          (directory.closing call.input)).segment? call.input.id = _ :=
        segment?_insert_own free
      have lines : (world.insert (call.input.row call.auth.userId scope)
          (directory.closing call.input)).linesOf call.input.id = _ :=
        linesOf_insert_own empty
      rw [before, stored_answer, stored_of_parts there lines]
      exact .created scope placed (accessible_of_scope placed)
    · intro id apart
      have there : (world.insert (call.input.row call.auth.userId scope)
          (directory.closing call.input)).segment? id = world.segment? id :=
        segment?_insert_other apart
      have lines : (world.insert (call.input.row call.auth.userId scope)
          (directory.closing call.input)).linesOf id = world.linesOf id :=
        linesOf_insert_other apart
      rw [stored_answer]
      unfold World.stored
      rw [there, lines]
  · split
    · refine ⟨sound.answer rfl ?_, .inl fun _ => rfl⟩
      exact fun _ _ replied => by cases replied
    · exact ⟨sound.goOn trivial, .inl fun _ => rfl⟩

theorem Sound.closing (sound : Sound directory world) (stage : call.stage = .closing)
    (licensed : call.Licensed directory world) :
    Advances directory world (world.advance directory call) call := by
  unfold Call.Licensed at licensed
  rw [stage] at licensed
  obtain ⟨⟨row, member, named, own, accessible⟩, closes⟩ := licensed
  unfold World.advance
  rw [stage]
  dsimp only
  cases closing : directory.closing call.input with
  | none => exact absurd closing closes
  | some close =>
    dsimp only
    by_cases isOpen : row.endedAt = none
    · rw [if_pos ⟨row, member, named, isOpen⟩]
      refine ⟨sound.closeOpen member named isOpen own closing, .inr ⟨?_, ?_⟩⟩
      · obtain ⟨answer, scope, -, -, -, -, -, empty⟩ := sound.opened member isOpen
        have found := sound.segment? member
        have there : (world.closeOpen row.id close).segment? row.id = _ :=
          segment?_closeOpen_own sound member isOpen
        rw [named] at empty found there
        rw [stored_answer, stored_of_parts found empty,
          stored_of_parts there (linesOf_closeOpen_own _ _)]
        exact .closed row close isOpen own accessible closing
      · intro id apart
        rw [stored_answer]
        unfold World.stored
        rw [segment?_closeOpen_other apart, linesOf_closeOpen_other apart]
    · have none' : ¬ ∃ other ∈ world.segments, other.id = call.input.id ∧ other.endedAt = none := by
        rintro ⟨other, inTable, same, free⟩
        obtain rfl := sound.row_unique inTable member (same.trans named.symm)
        exact isOpen free
      rw [if_neg none']
      refine ⟨sound.answer rfl ?_, .inl fun _ => rfl⟩
      intro isClosed effect replied
      cases replied
      exact ⟨fun _ => rfl, row, member, named, fun _ => isOpen⟩

theorem Sound.scoping (sound : Sound directory world) (stage : call.stage = .scoping retried) :
    Advances directory world (world.advance directory call) call := by
  unfold World.advance
  rw [stage]
  dsimp only
  cases placed : directory.scope call.input.toHeader call.auth with
  | error message =>
    refine ⟨sound.answer rfl ?_, .inl fun _ => rfl⟩
    exact fun _ _ replied => by cases replied
  | ok scope => exact ⟨sound.goOn placed, .inl fun _ => rfl⟩

theorem Sound.advance (sound : Sound directory world) (licensed : call.Licensed directory world) :
    Advances directory world (world.advance directory call) call := by
  cases stage : call.stage with
  | reading retried => exact sound.reading stage
  | scoping retried => exact sound.scoping stage
  | creating scope retried =>
    unfold Call.Licensed at licensed
    rw [stage] at licensed
    exact sound.creating stage licensed
  | closing => exact sound.closing stage licensed

theorem sound_execute (sound : Sound directory world) (step : Step) :
    Sound directory (execute directory world step) ∧ step.Orderly directory world := by
  cases step with
  | receive input auth =>
    dsimp only [Step.Orderly, execute]
    cases validate input with
    | none =>
      dsimp only [Option.elim]
      refine ⟨⟨sound.ids, sound.history, ?_, sound.holds⟩, .inl fun _ => rfl⟩
      intro call member
      rcases mem_inserted.mp member with before | rfl
      · exact sound.licensed call before
      · trivial
    | some message =>
      refine ⟨sound.answer rfl ?_, .inl fun _ => rfl⟩
      exact fun _ _ replied => by cases replied
  | advance call =>
    dsimp only [Step.Orderly, execute]
    by_cases member : call ∈ world.calls
    · have advances := (sound.erase call).advance (sound.licensed call member)
      rw [if_pos member]
      refine ⟨advances.sound, ?_⟩
      rcases advances.orderly with same | ⟨moves, others⟩
      · exact .inl same
      · exact .inr ⟨call, rfl, moves, others⟩
    · rw [if_neg member]
      exact ⟨sound, .inl fun _ => rfl⟩
  | lose call => exact ⟨sound.erase call, .inl fun _ => rfl⟩

/-! ## One owner -/

/-- The call is about to create. -/
def Stage.Creating : Stage → Prop
  | .creating _ _ => True
  | _ => False

instance (stage : Stage) : Decidable stage.Creating := by
  apply @Stage.casesOn (fun stage => Decidable stage.Creating) stage <;>
    intros <;> dsimp only [Stage.Creating] <;> infer_instance

/-- All messages of the user for the segment have this header, and nobody else creates
it. -/
def Step.Owned (header : Header) (userId : String) (world : World) : Step → Prop
  | .receive input auth =>
      input.id = header.id → auth.userId = userId → input.toHeader = header
  | .advance call =>
      call.input.id = header.id → call.auth.userId ≠ userId →
        world.segment? header.id = none →
          ¬ call.stage.Creating
  | .lose _ => True

instance (header : Header) (userId : String) (world : World) (step : Step) :
    Decidable (step.Owned header userId world) := by
  apply @Step.casesOn (fun step => Decidable (step.Owned header userId world)) step <;>
    intros <;> dsimp only [Step.Owned] <;> infer_instance

/-- What is stored depends on the first closing message that took effect; at most one
message created the segment and at most one more closed it; and what was accepted
holds. -/
structure World.Settled
    (directory : Directory) (header : Header) (userId : String)
    (world : World) : Prop where
  stored : world.stored header.id =
    if world.effects header.id = [] then none
    else directory.outcome header userId (world.firstClosing directory header.id)
  created : (world.effects header.id).countP (·.effect = .created) ≤ 1
  closed : (world.effects header.id).countP (·.effect = .closed) ≤ 1
  holds : ∀ answer ∈ world.answers, answer.Holds directory world

/-- The calls of the user, and the one that created the segment. -/
structure Theirs (header : Header) (userId : String) (world : World) : Prop where
  calls : ∀ call ∈ world.calls, call.input.id = header.id → call.auth.userId = userId →
    call.input.toHeader = header
  creator : ∀ answer ∈ world.answers, answer.input.id = header.id →
    answer.effect = .created →
      answer.auth.userId = userId ∧ answer.input.toHeader = header

/-- The call is about to create a segment that is not there. -/
def Call.Creates (world : World) (call : Call) : Prop :=
  world.segment? call.input.id = none ∧ call.stage.Creating

/-- A call answers or goes on for its own message, and creates only what is not there. -/
structure Logs (world after : World) (call : Call) : Prop where
  calls : ∀ other ∈ after.calls, other ∈ world.calls ∨
    other.input = call.input ∧ other.auth = call.auth
  answers : ∀ answer ∈ after.answers, answer ∈ world.answers ∨
    answer.input = call.input ∧ answer.auth = call.auth ∧
      (answer.effect = .created → call.Creates world)

theorem logs_goOn (call : Call) (stage : Stage) : Logs world (world.goOn call stage) call where
  calls := by
    intro other member
    rcases mem_inserted.mp member with before | rfl
    · exact .inl before
    · exact .inr ⟨rfl, rfl⟩
  answers := fun _ member => .inl member

theorem logs_answer {after : World} {reply : Reply} (calls : after.calls = world.calls)
    (answers : after.answers = world.answers)
    (creates : Answer.effect ⟨call.input, call.auth, reply⟩ = .created → call.Creates world) :
    Logs world (after.answer call reply) call where
  calls := by
    intro other member
    exact .inl (calls ▸ member)
  answers := by
    intro answer member
    rcases mem_inserted.mp member with before | rfl
    · exact .inl (answers ▸ before)
    · exact .inr ⟨rfl, rfl, creates⟩

theorem logs_advance (directory : Directory) (world : World) (call : Call) :
    Logs world (world.advance directory call) call := by
  unfold World.advance
  cases stage : call.stage with
  | reading retried =>
    dsimp only
    split
    · exact logs_goOn call _
    · split
      · exact logs_answer rfl rfl Effect.noConfusion
      · split
        · exact logs_answer rfl rfl Effect.noConfusion
        · split
          · exact logs_answer rfl rfl Effect.noConfusion
          · exact logs_goOn call _
  | scoping retried =>
    dsimp only
    split
    · exact logs_answer rfl rfl Effect.noConfusion
    · exact logs_goOn call _
  | creating scope retried =>
    dsimp only
    split
    · rename_i free
      exact logs_answer rfl rfl fun _ => ⟨free, stage ▸ trivial⟩
    · split
      · exact logs_answer rfl rfl Effect.noConfusion
      · exact logs_goOn call _
  | closing =>
    dsimp only
    split
    · exact ⟨fun _ member => .inl member, fun _ member => .inl member⟩
    · split
      · exact logs_answer rfl rfl Effect.noConfusion
      · exact logs_answer rfl rfl Effect.noConfusion

theorem theirs_execute {header : Header} {userId : String} {step : Step}
    (theirs : Theirs header userId world) (owned : step.Owned header userId world) :
    Theirs header userId (execute directory world step) := by
  cases step with
  | receive input auth =>
    dsimp only [execute]
    cases validate input with
    | none =>
      refine ⟨?_, theirs.creator⟩
      intro call member
      rcases mem_inserted.mp member with before | rfl
      · exact theirs.calls call before
      · exact owned
    | some message =>
      refine ⟨theirs.calls, ?_⟩
      intro answer member named created
      rcases mem_inserted.mp member with before | rfl
      · exact theirs.creator answer before named created
      · cases created
  | advance call =>
    dsimp only [execute]
    by_cases member : call ∈ world.calls
    · rw [if_pos member]
      obtain ⟨calls, answers⟩ :=
        logs_advance directory { world with calls := world.calls.erase call } call
      constructor
      · intro other inCalls named own
        rcases calls other inCalls with before | ⟨input, auth⟩
        · exact theirs.calls other (List.mem_of_mem_erase before) named own
        · rw [input] at named ⊢
          rw [auth] at own
          exact theirs.calls call member named own
      · intro answer inAnswers named created
        rcases answers answer inAnswers with before | ⟨input, auth, creates⟩
        · exact theirs.creator answer before named created
        · obtain ⟨free, creating⟩ := creates created
          rw [input] at named ⊢
          rw [auth]
          have own : call.auth.userId = userId := by
            by_contra other
            exact owned named other (named ▸ free) creating
          exact ⟨own, theirs.calls call member named own⟩
    · rw [if_neg member]
      exact theirs
  | lose call =>
    exact ⟨fun other member => theirs.calls other (List.mem_of_mem_erase member), theirs.creator⟩

/-! ## The segment of a user -/

/-- A token that is not limited reaches what a limited one of the user does. -/
theorem userCanAccessProduct_unlimited {productId : String}
    (accessible : directory.userCanAccessProduct productId auth = true) :
    directory.userCanAccessProduct productId ⟨auth.userId, []⟩ = true :=
  decide_eq_true ⟨.inl rfl, (of_decide_eq_true accessible).2⟩

/-- Where a segment belongs depends on the user, not on the token. -/
theorem scope_unlimited {header : Header} (placed : directory.scope header auth = .ok scope) :
    directory.scope header ⟨auth.userId, []⟩ = .ok scope := by
  unfold Directory.scope at placed ⊢
  cases issue : header.issueId with
  | some issueId =>
    rw [issue] at placed
    simp only [Option.elim, Directory.issueScope, bind_eq_ok, require_eq_ok, ensure_eq_ok,
      pure_eq_ok] at placed ⊢
    obtain ⟨row, found, -, accessible, same⟩ := placed
    exact ⟨row, found, (), userCanAccessProduct_unlimited accessible, same⟩
  | none =>
    rw [issue] at placed
    cases idea : header.ideaId with
    | some ideaId =>
      rw [idea] at placed
      simp only [Option.elim, Directory.ideaScope, bind_eq_ok, require_eq_ok,
        ensure_eq_ok, pure_eq_ok] at placed ⊢
      obtain ⟨row, found, productId, inIdea, -, accessible, same⟩ := placed
      exact ⟨row, found, productId, inIdea, (), userCanAccessProduct_unlimited accessible, same⟩
    | none =>
      rw [idea] at placed
      cases anchor : header.anchorTaskId with
      | some anchorTaskId =>
        rw [anchor] at placed
        simp only [Option.elim, Directory.anchorScope, bind_eq_ok, require_eq_ok,
          ensure_eq_ok, pure_eq_ok] at placed ⊢
        obtain ⟨row, found, -, accessible, sprintId, inSprint, same⟩ := placed
        exact ⟨row, found, (), userCanAccessProduct_unlimited accessible, sprintId, inSprint, same⟩
      | none =>
        rw [anchor] at placed
        simp only [Option.elim, Directory.productScope, bind_eq_ok, require_eq_ok,
          ensure_eq_ok, pure_eq_ok] at placed ⊢
        obtain ⟨productId, found, -, accessible, same⟩ := placed
        exact ⟨productId, found, (), userCanAccessProduct_unlimited accessible, same⟩

theorem outcome_of_scope {header : Header}
    (placed : directory.scope header auth = .ok scope) (close : Option Close) :
    directory.outcome header auth.userId close =
      some ((header.row auth.userId scope).settled close) := by
  unfold Directory.outcome
  rw [scope_unlimited placed]
  rfl

/-- A message that took effect was answered. -/
theorem mem_answers {id : String} {answer : Answer} (member : answer ∈ world.effects id) :
    answer ∈ world.answers ∧ answer.input.id = id := by
  obtain ⟨answered, found⟩ := List.mem_filter.mp member
  exact ⟨answered, (of_decide_eq_true found).1⟩

theorem Sound.settled {header : Header} {userId : String} (sound : Sound directory world)
    (theirs : Theirs header userId world) :
    world.Settled directory header userId := by
  have history := sound.history header.id
  have stored : ∀ row lines, world.segment? header.id = some row →
      world.linesOf header.id = lines → world.stored header.id = some (row, lines) :=
    fun _ _ => stored_of_parts
  have absent : world.segment? header.id = none → world.stored header.id = none := by
    intro none'
    unfold World.stored
    rw [none']
    rfl
  have creator : ∀ answer ∈ world.effects header.id, answer.effect = .created →
      answer.auth.userId = userId ∧ answer.input.toHeader = header := fun answer member =>
    theirs.creator answer (mem_answers member).1 (mem_answers member).2
  have closing : world.firstClosing directory header.id =
      (world.effects header.id).findSome? fun answer => directory.closing answer.input := rfl
  refine ⟨?_, ?_, ?_, sound.holds⟩
  · rw [closing]
    generalize world.effects header.id = effects at history creator ⊢
    generalize row : world.segment? header.id = row, lines : world.linesOf header.id = lines
      at history
    cases history with
    | missing => exact absent row
    | created answer scope effect placed =>
      obtain ⟨rfl, rfl⟩ := creator answer List.mem_cons_self effect
      rw [stored _ _ row lines, if_neg (List.cons_ne_nil _ _), outcome_of_scope placed]
      cases first : directory.closing answer.input with
      | _ => simp [first]
    | closed first second scope close effects placed header' closes own =>
      obtain ⟨rfl, rfl⟩ := creator first List.mem_cons_self effects.1
      rw [stored _ _ row lines, if_neg (List.cons_ne_nil _ _), outcome_of_scope placed]
      simp [header', closes]
  · generalize world.effects header.id = effects, world.segment? header.id = row,
      world.linesOf header.id = lines at history ⊢
    cases history with
    | missing => simp
    | created answer scope effect => simp [effect]
    | closed first second scope close effects => simp [effects.1, effects.2]
  · generalize world.effects header.id = effects, world.segment? header.id = row,
      world.linesOf header.id = lines at history ⊢
    cases history with
    | missing => simp
    | created answer scope effect => simp [effect]
    | closed first second scope close effects => simp [effects.1, effects.2]

section Race

def catalogue : Directory where
  products := [⟨"product", none, "user", []⟩]
  tasks := [⟨"task", "product", some "sprint"⟩]
  ideas := []
  issues := []
  difference := fun _ finish => finish

def header : Header where
  id := "segment"
  taskId := some "task"
  anchorTaskId := some "task"
  productId := none
  ideaId := none
  ideaPhase := none
  issueId := none
  issuePhase := none
  sessionId := "session"
  startedAt := 5
  modVersion := "1"

def opening : Input where
  toHeader := header
  endedAt := none
  endedReason := none
  activeMs := none
  costStartUsd := none
  costEndUsd := none
  lines := none

def ending : Input where
  toHeader := header
  endedAt := some 9
  endedReason := some .done
  activeMs := some 4
  costStartUsd := some "0"
  costEndUsd := some "1"
  lines := some [⟨"main", "main", "model", 1, 2, 3, 4, 1⟩]

def user : Auth := ⟨"user", []⟩

/-- A header and a closing message find no segment; the closing message creates it, and
the header starts again. -/
def race : List Step :=
  [.receive opening user, .receive ending user,
    .advance ⟨opening, user, .reading false⟩, .advance ⟨ending, user, .reading false⟩,
    .advance ⟨opening, user, .scoping false⟩, .advance ⟨ending, user, .scoping false⟩,
    .advance ⟨ending, user, .creating ⟨"product", some "sprint"⟩ false⟩,
    .advance ⟨opening, user, .creating ⟨"product", some "sprint"⟩ false⟩,
    .advance ⟨opening, user, .reading true⟩]

example :
    (run (execute catalogue) World.empty race).stored "segment" =
      catalogue.outcome header "user" (catalogue.closing ending) := by
  decide +kernel

end Race

end Usage
end Scrum4Me
