import Scrum4Me.Usage.Segments

/-!
# The messages that took effect

The messages that took effect tell what is stored: the first creates the segment, and at
most one more closes it.
-/

namespace Scrum4Me
namespace Usage

open Foundation

variable {directory : Directory} {world : World}

/-! ## What is stored -/

def Answer.effect (answer : Answer) : Effect :=
  match answer.reply with
  | .recorded _ effect => effect
  | .error _ => .none

namespace World

variable (world : World)

/-- The lines of a segment. -/
def linesOf (id : String) : List Line :=
  (world.lines.filter (·.segmentId = id)).map (·.line)

/-- A segment with its lines. -/
def stored (id : String) : Option (SegmentRow × List Line) :=
  (world.segment? id).map fun row => (row, world.linesOf id)

/-- The messages that took effect on a segment, in their order. -/
def effects (id : String) : List Answer :=
  world.answers.filter fun answer => answer.input.id = id ∧ answer.effect ≠ .none

/-- The first closing message that took effect. -/
def firstClosing (directory : Directory) (id : String) : Option Close :=
  (world.effects id).findSome? fun answer => directory.closing answer.input

end World

/-- A segment that was created, and perhaps closed. -/
def SegmentRow.settled (row : SegmentRow) (close : Option Close) : SegmentRow × List Line :=
  (close.elim row row.close, (close.map (·.lines)).getD [])

/-- What is stored of a segment depends on the user and the first closing only. -/
def Directory.outcome (directory : Directory) (header : Header) (userId : String)
    (close : Option Close) : Option (SegmentRow × List Line) :=
  (directory.scope header ⟨userId, []⟩).toOption.map fun scope =>
    (header.row userId scope).settled close

/-! ## What every state satisfies -/

/-- The messages that took effect, and what is stored. -/
inductive History (directory : Directory) :
    List Answer → Option SegmentRow → List Line → Prop
  | missing : History directory [] none []
  | created (answer : Answer) (scope : Scope) (effect : answer.effect = .created)
      (placed : directory.scope answer.input.toHeader answer.auth = .ok scope) :
      History directory [answer] (some ((answer.input.row answer.auth.userId scope).settled
          (directory.closing answer.input)).1)
        ((answer.input.row answer.auth.userId scope).settled (directory.closing answer.input)).2
  | closed (first second : Answer) (scope : Scope) (close : Close)
      (effects : first.effect = .created ∧ second.effect = .closed)
      (placed : directory.scope first.input.toHeader first.auth = .ok scope)
      (header : directory.closing first.input = none)
      (closing : directory.closing second.input = some close)
      (own : second.auth.userId = first.auth.userId) :
      History directory [first, second]
        (some ((first.input.row first.auth.userId scope).settled (some close)).1)
        ((first.input.row first.auth.userId scope).settled (some close)).2

/-- The user owns the segment and has access to its product. -/
def World.Owns (directory : Directory) (world : World) (id : String) (auth : Auth) : Prop :=
  ∃ row ∈ world.segments, row.id = id ∧ row.userId = auth.userId ∧
    directory.userCanAccessProduct row.productId auth = true

/-- What a call learnt before its next statement. -/
def Call.Licensed (directory : Directory) (world : World) (call : Call) : Prop :=
  match call.stage with
  | .creating scope _ => directory.scope call.input.toHeader call.auth = .ok scope
  | .closing =>
      world.Owns directory call.input.id call.auth ∧ directory.closing call.input ≠ none
  | _ => True

/-- A message that was accepted is stored: closed, if it closes. -/
def Answer.Holds (directory : Directory) (world : World) (answer : Answer) : Prop :=
  ∀ isClosed effect, answer.reply = .recorded isClosed effect →
    (directory.closing answer.input ≠ none → isClosed = true) ∧
      ∃ row ∈ world.segments, row.id = answer.input.id ∧ (isClosed = true → row.endedAt ≠ none)

structure Sound (directory : Directory) (world : World) : Prop where
  ids : (world.segments.map (·.id)).Nodup
  history : ∀ id, History directory (world.effects id) (world.segment? id) (world.linesOf id)
  licensed : ∀ call ∈ world.calls, call.Licensed directory world
  holds : ∀ answer ∈ world.answers, answer.Holds directory world

theorem Sound.row_unique (sound : Sound directory world) {first second : SegmentRow}
    (firstMember : first ∈ world.segments) (secondMember : second ∈ world.segments)
    (same : first.id = second.id) :
    first = second :=
  List.inj_on_of_nodup_map sound.ids firstMember secondMember same

variable {row : SegmentRow}

theorem Sound.segment? (sound : Sound directory world) (member : row ∈ world.segments) :
    world.segment? row.id = some row :=
  find?_eq_some_of_unique member (decide_eq_true rfl) fun _ inTable found =>
    sound.row_unique inTable member (of_decide_eq_true found)

theorem sound_empty : Sound directory World.empty where
  ids := List.nodup_nil
  history := fun _ => .missing
  licensed := List.forall_mem_nil _
  holds := List.forall_mem_nil _

/-! ## Answers without effect -/

@[simp] theorem stored_answer (call : Call) (reply : Reply) (id : String) :
    (world.answer call reply).stored id = world.stored id := rfl

@[simp] theorem segment?_answer (call : Call) (reply : Reply) (id : String) :
    (world.answer call reply).segment? id = world.segment? id := rfl

@[simp] theorem linesOf_answer (call : Call) (reply : Reply) (id : String) :
    (world.answer call reply).linesOf id = world.linesOf id := rfl

@[simp] theorem effects_insert (row : SegmentRow) (close : Option Close) (id : String) :
    (world.insert row close).effects id = world.effects id := rfl

variable {call : Call}

@[simp] theorem stored_goOn (call : Call) (stage : Stage) (id : String) :
    (world.goOn call stage).stored id = world.stored id := rfl

variable {close : Option Close} {reply : Reply} {after : World}

theorem effects_answer_none
    (without : Answer.effect ⟨call.input, call.auth, reply⟩ = .none) (id : String) :
    (world.answer call reply).effects id = world.effects id := by
  unfold World.effects World.answer
  rw [List.filter_append, List.filter_cons_of_neg, List.filter_nil, List.append_nil]
  exact fun found => (of_decide_eq_true found).2 without

variable {id : String}

theorem effects_answer_other (apart : id ≠ call.input.id) :
    (world.answer call reply).effects id = world.effects id := by
  unfold World.effects World.answer
  rw [List.filter_append, List.filter_cons_of_neg, List.filter_nil, List.append_nil]
  exact fun found => apart (of_decide_eq_true found).1.symm

theorem effects_answer_own (with' : Answer.effect ⟨call.input, call.auth, reply⟩ ≠ .none) :
    (world.answer call reply).effects call.input.id =
      world.effects call.input.id ++ [⟨call.input, call.auth, reply⟩] := by
  unfold World.effects World.answer
  rw [List.filter_append, List.filter_cons_of_pos, List.filter_nil]
  exact decide_eq_true ⟨rfl, with'⟩

/-- The call answers that nothing changed. -/
theorem Sound.answer (sound : Sound directory world)
    (without : Answer.effect ⟨call.input, call.auth, reply⟩ = .none)
    (holds : Answer.Holds directory world ⟨call.input, call.auth, reply⟩) :
    Sound directory (world.answer call reply) where
  ids := sound.ids
  history := by
    intro id
    rw [effects_answer_none without]
    exact sound.history id
  licensed := sound.licensed
  holds := by
    intro answer member
    rcases mem_inserted.mp member with before | rfl
    · exact sound.holds answer before
    · exact holds

/-- The call goes on with what it learnt. -/
theorem Sound.goOn (sound : Sound directory world) {stage : Stage}
    (licensed : Call.Licensed directory world { call with stage }) :
    Sound directory (world.goOn call stage) where
  ids := sound.ids
  history := sound.history
  licensed := by
    intro other member
    rcases mem_inserted.mp member with before | rfl
    · exact sound.licensed other before
    · exact licensed
  holds := sound.holds

theorem Sound.erase (sound : Sound directory world) (call : Call) :
    Sound directory { world with calls := world.calls.erase call } where
  ids := sound.ids
  history := sound.history
  licensed := fun other member => sound.licensed other (List.mem_of_mem_erase member)
  holds := sound.holds

/-! ## Creating -/

/-- The rows live on: they keep their owner and product, and stay closed. -/
def Lasts (world after : World) : Prop :=
  ∀ row ∈ world.segments, ∃ later ∈ after.segments,
    later.id = row.id ∧ later.userId = row.userId ∧ later.productId = row.productId ∧
      (row.endedAt ≠ none → later.endedAt ≠ none)

theorem Lasts.owns {auth : Auth} (lasts : Lasts world after) (owns : world.Owns directory id auth) :
    after.Owns directory id auth := by
  obtain ⟨row, member, named, own, accessible⟩ := owns
  obtain ⟨later, inTable, sameId, sameUser, sameProduct, -⟩ := lasts row member
  exact ⟨later, inTable, sameId.trans named, sameUser.trans own, sameProduct ▸ accessible⟩

theorem Lasts.licensed (lasts : Lasts world after) (licensed : call.Licensed directory world) :
    call.Licensed directory after := by
  unfold Call.Licensed at licensed ⊢
  split
  · rename_i stage
    rw [stage] at licensed
    exact licensed
  · rename_i stage
    rw [stage] at licensed
    exact ⟨lasts.owns licensed.1, licensed.2⟩
  · trivial

theorem Lasts.holds {answer : Answer} (lasts : Lasts world after)
    (holds : answer.Holds directory world) :
    answer.Holds directory after := by
  intro isClosed effect replied
  obtain ⟨closes, row, member, named, ended⟩ := holds isClosed effect replied
  obtain ⟨later, inTable, sameId, -, -, sameEnd⟩ := lasts row member
  exact ⟨closes, later, inTable, sameId.trans named, fun closed => sameEnd (ended closed)⟩

/-- Nothing took effect on a segment that is not there. -/
theorem Sound.missing (sound : Sound directory world) (free : world.segment? id = none) :
    world.effects id = [] ∧ world.linesOf id = [] := by
  have history := sound.history id
  rw [free] at history
  generalize world.effects id = effects, world.linesOf id = lines at history
  cases history
  exact ⟨rfl, rfl⟩

@[simp] theorem settled_id (row : SegmentRow) (close : Option Close) :
    (row.settled close).1.id = row.id := by
  cases close with
  | none => rfl
  | some close => rfl

theorem segment?_insert_own (free : world.segment? row.id = none) :
    (world.insert row close).segment? row.id = some (row.settled close).1 := by
  unfold World.segment? at free
  unfold World.segment? World.insert
  rw [List.find?_append, free, Option.none_or]
  exact List.find?_cons_of_pos (decide_eq_true (settled_id row close))

theorem segment?_insert_other (apart : id ≠ row.id) :
    (world.insert row close).segment? id = world.segment? id := by
  unfold World.segment? World.insert
  rw [List.find?_append]
  have missed : ([close.elim row row.close].find? fun row => row.id = id) = none := by
    refine List.find?_cons_of_neg fun found => ?_
    exact apart ((of_decide_eq_true found).symm.trans (settled_id row close))
  rw [missed, Option.or_none]

theorem linesOf_insert_own (empty : world.linesOf row.id = []) :
    (world.insert row close).linesOf row.id = (row.settled close).2 := by
  unfold World.linesOf at empty ⊢
  unfold World.insert SegmentRow.settled
  rw [List.filter_append, List.map_append, empty, List.nil_append]
  cases close with
  | none => rfl
  | some close =>
    have own : ((close.rows row.id).filter fun line => line.segmentId = row.id) =
        close.rows row.id := by
      refine List.filter_eq_self.mpr fun line member => ?_
      obtain ⟨content, -, rfl⟩ := List.mem_map.mp member
      exact decide_eq_true rfl
    have back : (close.rows row.id).map (·.line) = close.lines :=
      (List.map_map ..).trans (List.map_id close.lines)
    exact (congrArg (List.map (·.line)) own).trans back

theorem linesOf_insert_other (apart : id ≠ row.id) :
    (world.insert row close).linesOf id = world.linesOf id := by
  unfold World.linesOf World.insert
  rw [List.filter_append]
  have missed : (((close.map (·.rows row.id)).getD []).filter fun line =>
      line.segmentId = id) = [] := by
    refine List.filter_eq_nil_iff.mpr fun line member found => ?_
    cases close with
    | none => exact absurd member List.not_mem_nil
    | some close =>
      obtain ⟨content, -, rfl⟩ := List.mem_map.mp member
      exact apart (of_decide_eq_true found).symm
  rw [missed, List.append_nil]

theorem lasts_insert (row : SegmentRow) (close : Option Close) :
    Lasts world (world.insert row close) :=
  fun other member => ⟨other, List.mem_append_left _ member, rfl, rfl, rfl, id⟩

theorem Sound.create (sound : Sound directory world) {scope : Scope}
    (placed : directory.scope call.input.toHeader call.auth = .ok scope)
    (free : world.segment? call.input.id = none) :
    Sound directory ((world.insert (call.input.row call.auth.userId scope)
        (directory.closing call.input)).answer call
          (.recorded (directory.closing call.input ≠ none) .created)) := by
  obtain ⟨fresh, empty⟩ := sound.missing free
  refine ⟨?_, ?_, ?_, ?_⟩
  · have appended : (world.segments.map (·.id) ++ [call.input.id]).Nodup := by
      refine sound.ids.append (List.nodup_singleton _) ?_
      intro id member same
      obtain ⟨row, inTable, rfl⟩ := List.mem_map.mp member
      have missed := List.find?_eq_none.mp free row inTable
      exact missed (decide_eq_true (List.mem_singleton.mp same))
    have named : (world.insert (call.input.row call.auth.userId scope)
        (directory.closing call.input)).segments.map (·.id) =
          world.segments.map (·.id) ++ [call.input.id] :=
      (List.map_append ..).trans
        (congrArg (fun id => world.segments.map (·.id) ++ [id]) (settled_id _ _))
    exact named ▸ appended
  · intro id
    by_cases own : id = call.input.id
    · subst own
      have history := History.created
        ⟨call.input, call.auth, .recorded (directory.closing call.input ≠ none) .created⟩
        scope rfl placed
      have there : (world.insert (call.input.row call.auth.userId scope)
          (directory.closing call.input)).segment? call.input.id = _ :=
        segment?_insert_own free
      have lines : (world.insert (call.input.row call.auth.userId scope)
          (directory.closing call.input)).linesOf call.input.id = _ :=
        linesOf_insert_own empty
      rw [effects_answer_own Effect.noConfusion, effects_insert, fresh, segment?_answer,
        linesOf_answer, there, lines]
      exact history
    · have there : (world.insert (call.input.row call.auth.userId scope)
          (directory.closing call.input)).segment? id = world.segment? id :=
        segment?_insert_other own
      have lines : (world.insert (call.input.row call.auth.userId scope)
          (directory.closing call.input)).linesOf id = world.linesOf id :=
        linesOf_insert_other own
      rw [effects_answer_other own, effects_insert, segment?_answer, linesOf_answer, there, lines]
      exact sound.history id
  · exact fun other member => (lasts_insert _ _).licensed (sound.licensed other member)
  · intro answer member
    rcases mem_inserted.mp member with before | rfl
    · exact (lasts_insert _ _).holds (sound.holds answer before)
    · intro isClosed effect replied
      cases replied
      refine ⟨fun closes => decide_eq_true closes, _,
        List.mem_append_right _ (List.mem_singleton_self _), settled_id _ _, ?_⟩
      intro closes
      have closing := of_decide_eq_true closes
      cases made : directory.closing call.input with
      | none => exact absurd made closing
      | some close => exact Option.some_ne_none _

/-! ## Closing -/

/-- An open segment was created by a header, and has no lines. -/
theorem Sound.opened (sound : Sound directory world) (member : row ∈ world.segments)
    (isOpen : row.endedAt = none) :
    ∃ answer scope, world.effects row.id = [answer] ∧ answer.effect = .created ∧
      directory.scope answer.input.toHeader answer.auth = .ok scope ∧
        directory.closing answer.input = none ∧
          row = answer.input.row answer.auth.userId scope ∧ world.linesOf row.id = [] := by
  have history := sound.history row.id
  rw [sound.segment? member] at history
  generalize effects : world.effects row.id = effects, lines : world.linesOf row.id = lines,
    stored : some row = stored at history
  cases history with
  | missing => cases stored
  | created answer scope effect placed =>
    have same := Option.some.inj stored
    cases header : directory.closing answer.input with
    | none =>
      rw [header] at same
      exact ⟨answer, scope, rfl, effect, placed, header, same, rfl⟩
    | some close =>
      rw [header] at same
      cases (congrArg SegmentRow.endedAt same).symm.trans isOpen
  | closed first second scope close =>
    cases (congrArg SegmentRow.endedAt (Option.some.inj stored)).symm.trans isOpen

theorem segment?_closeOpen_own (sound : Sound directory world) {close : Close}
    (member : row ∈ world.segments) (isOpen : row.endedAt = none) :
    (world.closeOpen row.id close).segment? row.id = some (row.close close) := by
  have inside : row.close close ∈ (world.closeOpen row.id close).segments :=
    mem_updateWhere.mpr (.inl ⟨row, member, decide_eq_true ⟨rfl, isOpen⟩, rfl⟩)
  refine find?_eq_some_of_unique inside (decide_eq_true rfl) ?_
  intro other inTable found
  have named : other.id = row.id := of_decide_eq_true found
  rcases mem_updateWhere.mp inTable with ⟨old, before, -, rfl⟩ | ⟨kept, missed⟩
  · obtain rfl := sound.row_unique before member named
    rfl
  · obtain rfl := sound.row_unique kept member named
    exact absurd ⟨rfl, isOpen⟩ (of_decide_eq_false missed)

theorem segment?_closeOpen_other {other : String} {close : Close} (apart : other ≠ id) :
    (world.closeOpen id close).segment? other = world.segment? other := by
  refine find?_updateWhere_apart fun row matched => ?_
  have named : row.id = id := (of_decide_eq_true matched).1
  have missed : row.id ≠ other := fun same => apart (same.symm.trans named)
  exact ⟨decide_eq_false missed, decide_eq_false missed⟩

theorem linesOf_closeOpen_own (id : String) (close : Close) :
    (world.closeOpen id close).linesOf id = close.lines := by
  unfold World.linesOf World.closeOpen
  rw [List.filter_append]
  have before : ((world.lines.filter fun line => line.segmentId ≠ id).filter fun line =>
      line.segmentId = id) = [] := by
    refine List.filter_eq_nil_iff.mpr fun line member found => ?_
    exact of_decide_eq_true (List.mem_filter.mp member).2 (of_decide_eq_true found)
  have own : ((close.rows id).filter fun line => line.segmentId = id) = close.rows id := by
    refine List.filter_eq_self.mpr fun line member => ?_
    obtain ⟨content, -, rfl⟩ := List.mem_map.mp member
    exact decide_eq_true rfl
  rw [before, own, List.nil_append]
  exact (List.map_map ..).trans (List.map_id close.lines)

theorem linesOf_closeOpen_other {other : String} {close : Close} (apart : other ≠ id) :
    (world.closeOpen id close).linesOf other = world.linesOf other := by
  unfold World.linesOf World.closeOpen
  rw [List.filter_append, List.filter_filter]
  have missed : ((close.rows id).filter fun line => line.segmentId = other) = [] := by
    refine List.filter_eq_nil_iff.mpr fun line member found => ?_
    obtain ⟨content, -, rfl⟩ := List.mem_map.mp member
    exact apart (of_decide_eq_true found).symm
  rw [missed, List.append_nil]
  congr 1
  refine List.filter_congr fun line _ => ?_
  by_cases own : line.segmentId = other
  · simp [own, apart]
  · simp [own]

@[simp] theorem effects_closeOpen (close : Close) (id other : String) :
    (world.closeOpen id close).effects other = world.effects other := rfl

theorem lasts_closeOpen (id : String) (close : Close) : Lasts world (world.closeOpen id close) := by
  intro row member
  by_cases matched : row.id = id ∧ row.endedAt = none
  · exact ⟨row.close close,
      mem_updateWhere.mpr (.inl ⟨row, member, decide_eq_true matched, rfl⟩), rfl, rfl, rfl,
      fun _ => Option.some_ne_none _⟩
  · exact ⟨row, mem_updateWhere.mpr (.inr ⟨member, decide_eq_false matched⟩), rfl, rfl, rfl,
      fun ended => ended⟩

theorem Sound.closeOpen (sound : Sound directory world) {close : Close}
    (member : row ∈ world.segments) (named : row.id = call.input.id)
    (isOpen : row.endedAt = none) (own : row.userId = call.auth.userId)
    (closing : directory.closing call.input = some close) :
    Sound directory
      ((world.closeOpen call.input.id close).answer call (.recorded true .closed)) := by
  refine ⟨?_, ?_, ?_, ?_⟩
  · exact nodup_updateWhere (fun _ => rfl) sound.ids
  · intro id
    by_cases here : id = call.input.id
    · subst here
      obtain ⟨answer, scope, effects, effect, placed, header, rfl, -⟩ := sound.opened member isOpen
      have there : (world.closeOpen (Header.row _ _ _).id close).segment? _ = _ :=
        segment?_closeOpen_own sound member isOpen
      have history := History.closed answer
        ⟨call.input, call.auth, .recorded true .closed⟩ scope close ⟨effect, rfl⟩ placed header
        closing own.symm
      rw [named] at there effects
      rw [effects_answer_own Effect.noConfusion, effects_closeOpen, effects, segment?_answer,
        linesOf_answer, there, linesOf_closeOpen_own]
      exact history
    · rw [effects_answer_other here, effects_closeOpen, segment?_answer, linesOf_answer,
        segment?_closeOpen_other here, linesOf_closeOpen_other here]
      exact sound.history id
  · exact fun other inCalls => (lasts_closeOpen _ _).licensed (sound.licensed other inCalls)
  · intro answer inAnswers
    rcases mem_inserted.mp inAnswers with before | rfl
    · exact (lasts_closeOpen _ _).holds (sound.holds answer before)
    · intro isClosed effect replied
      cases replied
      refine ⟨fun _ => rfl, row.close close, ?_, named, fun _ => Option.some_ne_none _⟩
      exact mem_updateWhere.mpr (.inl ⟨row, member, decide_eq_true ⟨named, isOpen⟩, rfl⟩)

end Usage
end Scrum4Me
