import Mathlib.Data.List.Flatten
import Scrum4Me.Queue.Archive

/-!
# Threads are archived whole

Links between messages never change, and a new message answers one that exists, so
the thread that a statement found stays the thread of the messages that its snapshot
had. The rows that a transaction has locked stay as it read them.
-/

namespace Scrum4Me
namespace Queue
namespace Threads

open Foundation
open Jobs (Moment)

/-! ## Threads -/

def Replies (messages : List MessageRow) (parent child : String) : Prop :=
  ∃ row ∈ messages, row.id = child ∧ row.inReplyTo = some parent

/-- The message is the root or answers one of the thread. -/
def InThread (messages : List MessageRow) (root messageId : String) : Prop :=
  root ∈ messages.map (·.id) ∧ Relation.ReflTransGen (Replies messages) root messageId

variable {messages : List MessageRow}

theorem mem_replies {parent child : String} :
    child ∈ replies messages parent ↔ Replies messages parent child := by
  unfold replies Replies
  simp only [List.mem_map, List.mem_filter, decide_eq_true_iff]
  constructor
  · rintro ⟨row, ⟨member, asked⟩, named⟩
    exact ⟨row, member, named, asked⟩
  · rintro ⟨row, member, named, asked⟩
    exact ⟨row, ⟨member, asked⟩, named⟩

theorem mem_root {root first : String} :
    first ∈ (messages.filter (·.id = root)).map (·.id) ↔
      first = root ∧ root ∈ messages.map (·.id) := by
  simp only [List.mem_map, List.mem_filter, decide_eq_true_iff]
  constructor
  · rintro ⟨row, ⟨member, rfl⟩, rfl⟩
    exact ⟨rfl, row, member, rfl⟩
  · rintro ⟨rfl, row, member, named⟩
    exact ⟨row, ⟨member, named⟩, named⟩

/-- The recursive query ends, whatever the links. -/
theorem subtree_ends (messages : List MessageRow) (root : String) :
    (subtree messages root).working = [] := by
  have known : ∀ {list : List String} (columns : List MessageRow),
      columns ⊆ messages → list = columns.map (·.id) → ∀ id ∈ list, id ∈ messages.map (·.id) := by
    rintro _ columns inside rfl id member
    exact List.map_subset _ inside member
  have size : messages.length = (messages.map (·.id)).length := by rw [List.length_map]
  unfold subtree
  rw [size]
  exact Recursion.rounds_end (known _ (List.filter_subset_self _) rfl) fun _ =>
    known _ (List.filter_subset_self _) rfl

variable {messageId : String} {call : Call} {row : MessageRow}

theorem mem_thread {root : String} :
    messageId ∈ thread messages root ↔ InThread messages root messageId := by
  unfold thread InThread subtree
  rw [(Recursion.sound_rounds _).mem_iff (subtree_ends messages root)]
  simp only [mem_replies, mem_root]
  constructor
  · rintro ⟨_, ⟨rfl, exists'⟩, path⟩
    exact ⟨exists', path⟩
  · rintro ⟨exists', path⟩
    exact ⟨root, ⟨rfl, exists'⟩, path⟩

/-- The members of a thread are messages. -/
theorem InThread.mem {root : String} (inside : InThread messages root messageId) :
    messageId ∈ messages.map (·.id) := by
  obtain ⟨known, path⟩ := inside
  cases path with
  | refl => exact known
  | tail _ last =>
    obtain ⟨row, member, named, -⟩ := last
    exact List.mem_map.mpr ⟨row, member, named⟩

/-! ## The invariant -/

variable {world : World} {step : Step}

/-- What a transaction in flight knows: the thread, as far as its snapshot went. -/
def Call.Knows (world : World) : Call → Prop
  | .reading _ messageId known found =>
      (∀ id ∈ known, id ∈ world.ids) ∧
        ∀ id, id ∈ found ↔ id ∈ known ∧ InThread world.messages messageId id
  | .locked _ messageId known rows =>
      (∀ id ∈ known, id ∈ world.ids) ∧
        (∀ id, id ∈ rows.map (·.id) ↔ id ∈ known ∧ InThread world.messages messageId id) ∧
          ∀ row ∈ rows, row ∈ world.messages
  | .finishing _ => True

/-- What every reachable state satisfies. -/
structure Sound (world : World) : Prop where
  ids : world.ids.Nodup
  parents : ∀ row ∈ world.messages, ∀ parent ∈ row.inReplyTo, parent ∈ world.ids
  locks : (world.calls.flatMap Call.locks).Nodup
  calls : ∀ call ∈ world.calls, call.Knows world

theorem Sound.row_unique (sound : Sound world) {first second : MessageRow}
    (firstMember : first ∈ world.messages) (secondMember : second ∈ world.messages)
    (same : first.id = second.id) :
    first = second :=
  List.inj_on_of_nodup_map sound.ids firstMember secondMember same

/-- No other transaction has locked what a call has locked. -/
theorem Sound.alone (sound : Sound world) {other : Call} (member : call ∈ world.calls)
    (otherMember : other ∈ world.calls.erase call) (locked : messageId ∈ call.locks) :
    messageId ∉ other.locks := by
  have order := (List.perm_cons_erase member).flatMap_right Call.locks
  have distinct := order.nodup_iff.mp sound.locks
  rw [List.flatMap_cons] at distinct
  intro also
  exact (List.nodup_append.mp distinct).2.2 messageId locked messageId
    (List.mem_flatMap.mpr ⟨other, otherMember, also⟩) rfl

/-- The rows that a step rewrites, what it makes of them, and the rows it adds. -/
structure Touch where
  matching : MessageRow → Bool := fun _ => false
  change : MessageRow → MessageRow := id
  added : List MessageRow := []

def Step.touch (world : World) : Step → Touch
  | commitSubtree direction messageId _ rows now =>
      match verdict direction messageId rows with
      | .ok () =>
          { matching := fun row => direction.Writes (rows.map (·.id)) row
            change := fun row => { row with archivedAt := direction.value now } }
      | .error _ => {}
  | commitDone messageId reply now =>
      { matching := fun row => row.id = messageId ∧ row.Legacy
        change := (Outcome.done none).apply now
        added := world.answersOf messageId reply now }
  | changeStatus messageId status =>
      { matching := (·.id = messageId), change := fun row => { row with status := status } }
  | push row => { added := [row] }
  | _ => {}

theorem perform_messages (world : World) (step : Step) :
    (perform world step).messages =
      updateWhere (step.touch world).matching (step.touch world).change world.messages ++
        (step.touch world).added := by
  have same : updateWhere (fun _ => false) id world.messages = world.messages :=
    updateWhere_eq_self fun _ _ _ => rfl
  have idle : world.messages = updateWhere (fun _ => false) id world.messages ++ [] := by
    rw [same, List.append_nil]
  cases step with
  | commitSubtree direction messageId known rows now =>
    show (world.committed direction messageId known rows now).messages = _
    unfold World.committed Step.touch
    dsimp only
    cases verdict direction messageId rows with
    | ok => exact (List.append_nil _).symm
    | error => exact idle
  | commitDone => rfl
  | changeStatus => exact (List.append_nil _).symm
  | push row =>
    show world.messages ++ [row] = updateWhere (fun _ => false) id world.messages ++ [row]
    rw [same]
  | _ => exact idle

theorem touch_same (step : Step) (row : MessageRow) :
    ((step.touch world).change row).id = row.id ∧
      ((step.touch world).change row).inReplyTo = row.inReplyTo := by
  cases step with
  | commitSubtree direction messageId known rows now =>
    unfold Step.touch
    dsimp only
    split <;> exact ⟨rfl, rfl⟩
  | _ => exact ⟨rfl, rfl⟩

/-- An added row is new, and answers a message that exists. -/
theorem touch_added (enabled : step.Enabled world) (member : row ∈ (step.touch world).added) :
    row.id ∉ world.ids ∧ ∀ parent ∈ row.inReplyTo, parent ∈ world.ids := by
  cases step with
  | commitSubtree direction messageId known rows now =>
    unfold Step.touch at member
    dsimp only at member
    split at member <;> cases member
  | commitDone messageId reply now =>
    change row ∈ world.answersOf messageId reply now at member
    unfold World.answersOf at member
    split at member
    · rename_i replyId body request found
      rw [List.mem_singleton.mp member]
      refine ⟨enabled.2.2 _ rfl, ?_⟩
      rintro parent ⟨⟩
      exact List.mem_map_of_mem (List.mem_of_find?_eq_some found)
    · cases member
  | push new =>
    rw [List.mem_singleton.mp member]
    exact ⟨enabled.1, fun parent asked => (enabled.2 parent asked).1⟩
  | _ => cases member

theorem touch_added_ids (step : Step) : ((step.touch world).added.map (·.id)).Nodup := by
  cases step with
  | commitSubtree direction messageId known rows now =>
    unfold Step.touch
    dsimp only
    split <;> exact List.nodup_nil
  | commitDone messageId reply now =>
    show ((world.answersOf messageId reply now).map _).Nodup
    unfold World.answersOf
    split
    · exact List.nodup_singleton _
    · exact List.nodup_nil
  | push row => exact List.nodup_singleton _
  | _ => exact List.nodup_nil

/-- A step rewrites no row that a transaction holds which goes on. -/
theorem touch_unlocked (sound : Sound world) (enabled : step.Enabled world)
    (before : call ∈ world.calls) (after : call ∈ (perform world step).calls)
    (locked : row.id ∈ call.locks) :
    (step.touch world).matching row = false := by
  refine Bool.eq_false_iff.mpr fun matched => ?_
  cases step with
  | commitSubtree direction messageId known rows now =>
    have others : call ∈ world.calls.erase (.locked direction messageId known rows) := by
      change call ∈ (world.committed direction messageId known rows now).calls at after
      unfold World.committed at after
      split at after <;> exact after
    unfold Step.touch at matched
    dsimp only at matched
    split at matched
    · have writes : direction.Writes (rows.map (·.id)) row := of_decide_eq_true matched
      exact sound.alone enabled others writes.1 locked
    · cases matched
  | commitDone messageId reply now =>
    have here : row.id = messageId ∧ _ := of_decide_eq_true matched
    rw [here.1] at locked
    exact sound.alone enabled.1 after (List.mem_singleton_self _) locked
  | changeStatus messageId status =>
    have here : row.id = messageId := of_decide_eq_true matched
    exact enabled ⟨call, before, here ▸ locked⟩
  | _ => cases matched

/-! ## Threads grow at their ends only -/

theorem replies_perform
    (enabled : step.Enabled world) {parent child : String} (known : child ∈ world.ids) :
    Replies (perform world step).messages parent child ↔ Replies world.messages parent child := by
  have same := @touch_same world step
  unfold Replies
  rw [perform_messages]
  constructor
  · rintro ⟨row, member, rfl, asked⟩
    rcases List.mem_append.mp member with kept | new
    · rcases mem_updateWhere.mp kept with ⟨old, inside, -, rfl⟩ | ⟨inside, -⟩
      · exact ⟨old, inside, (same old).1.symm, (same old).2.symm.trans asked⟩
      · exact ⟨row, inside, rfl, asked⟩
    · exact absurd known (touch_added enabled new).1
  · rintro ⟨row, member, named, asked⟩
    cases matched : (step.touch world).matching row with
    | true =>
      exact ⟨_, List.mem_append_left _ (mem_updateWhere.mpr
        (.inl ⟨row, member, matched, rfl⟩)), (same row).1.trans named,
        (same row).2.trans asked⟩
    | false =>
      exact ⟨row, List.mem_append_left _ (mem_updateWhere.mpr
        (.inr ⟨member, matched⟩)), named, asked⟩

theorem perform_ids (world : World) (step : Step) :
    (perform world step).ids = world.ids ++ (step.touch world).added.map (·.id) := by
  unfold World.ids
  rw [perform_messages, List.map_append,
    map_updateWhere_of_unchanged fun row => (touch_same step row).1]

theorem Sound.parent_known (sound : Sound world) {parent child : String}
    (link : Replies world.messages parent child) :
    parent ∈ world.ids := by
  obtain ⟨row, member, -, asked⟩ := link
  exact sound.parents row member parent asked

/-- A message that exists stays in the threads that it is in, and gets into no
other. -/
theorem inThread_perform (sound : Sound world) (enabled : step.Enabled world) {root : String}
    (known : messageId ∈ world.ids) :
    InThread (perform world step).messages root messageId ↔
      InThread world.messages root messageId := by
  constructor
  · rintro ⟨-, path⟩
    induction path with
    | refl => exact ⟨known, .refl⟩
    | @tail before after _ link ih =>
      have old := (replies_perform enabled known).mp link
      obtain ⟨rootKnown, path⟩ := ih (sound.parent_known old)
      exact ⟨rootKnown, path.tail old⟩
  · rintro ⟨rootKnown, path⟩
    refine ⟨?_, ?_⟩
    · show root ∈ (perform world step).ids
      rw [perform_ids]
      exact List.mem_append_left _ rootKnown
    · clear rootKnown
      induction path with
      | refl => exact .refl
      | tail _ link ih =>
        exact (ih (sound.parent_known link)).tail ((replies_perform enabled known).mpr link)

/-! ## Every step -/

theorem perform_locks (sound : Sound world) (enabled : step.Enabled world) :
    ((perform world step).calls.flatMap Call.locks).Nodup := by
  have locks := sound.locks
  have fewer : ∀ {calls : List Call}, calls.Sublist world.calls →
      (calls.flatMap Call.locks).Nodup := fun less => locks.sublist (less.flatMap _)
  have appended : ∀ {calls : List Call} {call : Call}, calls.Sublist world.calls →
      call.locks.Nodup → (∀ id ∈ call.locks, ¬ world.Locked id) →
        ((calls ++ [call]).flatMap Call.locks).Nodup := by
    intro calls call less distinct free
    rw [List.flatMap_append, List.flatMap_singleton]
    refine List.nodup_append.mpr ⟨fewer less, distinct, ?_⟩
    rintro id held _ own rfl
    obtain ⟨holder, inside, holds⟩ := List.mem_flatMap.mp held
    exact free id own ⟨holder, less.subset inside, holds⟩
  cases step with
  | readSubtree =>
    exact appended (List.Sublist.refl _) List.nodup_nil fun _ own => absurd own List.not_mem_nil
  | lockSubtree direction messageId known found =>
    refine appended List.erase_sublist ?_ ?_
    · exact sound.ids.sublist (List.filter_sublist.map _)
    · intro id own
      obtain ⟨row, member, rfl⟩ := List.mem_map.mp own
      exact enabled.2 row.id (of_decide_eq_true (List.mem_filter.mp member).2)
  | commitSubtree direction messageId known rows now =>
    show ((world.committed direction messageId known rows now).calls.flatMap _).Nodup
    unfold World.committed
    dsimp only
    split <;> exact fewer List.erase_sublist
  | lockForDone messageId =>
    refine appended (List.Sublist.refl _) (List.nodup_singleton _) ?_
    rintro id own
    rw [List.mem_singleton.mp own]
    exact enabled
  | commitDone => exact fewer List.erase_sublist
  | changeStatus => exact locks
  | push => exact locks
  | abort => exact fewer List.erase_sublist

/-- What a call that goes on knows stays true. -/
theorem knows_kept (sound : Sound world) (enabled : step.Enabled world)
    (before : call ∈ world.calls) (after : call ∈ (perform world step).calls) :
    call.Knows (perform world step) := by
  have knows := sound.calls call before
  have ids : ∀ id ∈ world.ids, id ∈ (perform world step).ids := by
    intro id member
    rw [perform_ids]
    exact List.mem_append_left _ member
  cases call with
  | reading direction messageId known found =>
    obtain ⟨exist, members⟩ := knows
    refine ⟨fun id member => ids id (exist id member), fun id => ?_⟩
    rw [members id]
    exact and_congr_right fun member => (inThread_perform sound enabled (exist id member)).symm
  | locked direction messageId known rows =>
    obtain ⟨exist, members, read⟩ := knows
    refine ⟨fun id member => ids id (exist id member), fun id => ?_, fun row member => ?_⟩
    · rw [members id]
      exact and_congr_right fun member => (inThread_perform sound enabled (exist id member)).symm
    · rw [perform_messages]
      refine List.mem_append_left _ (mem_updateWhere.mpr (.inr ⟨read row member, ?_⟩))
      exact touch_unlocked sound enabled before after (List.mem_map_of_mem member)
  | finishing => trivial

theorem perform_calls (sound : Sound world) (enabled : step.Enabled world) :
    ∀ call ∈ (perform world step).calls, call.Knows (perform world step) := by
  intro call member
  by_cases before : call ∈ world.calls
  · exact knows_kept sound enabled before member
  -- A call that was not there is the one that the step adds.
  cases step with
  | readSubtree direction messageId =>
    rcases mem_inserted.mp member with old | rfl
    · exact absurd old before
    · refine ⟨fun id known => known, fun id => ?_⟩
      rw [mem_thread]
      exact ⟨fun inside => ⟨inside.mem, inside⟩, And.right⟩
  | lockSubtree direction messageId known found =>
    rcases mem_inserted.mp member with old | rfl
    · exact absurd (List.mem_of_mem_erase old) before
    · obtain ⟨exist, members⟩ := sound.calls _ enabled.1
      refine ⟨exist, fun id => ?_, fun row inside => (List.mem_filter.mp inside).1⟩
      show id ∈ (world.rows found).map (·.id) ↔ id ∈ known ∧ InThread world.messages messageId id
      rw [← members id]
      constructor
      · intro inside
        obtain ⟨row, found, rfl⟩ := List.mem_map.mp inside
        exact of_decide_eq_true (List.mem_filter.mp found).2
      · intro inside
        obtain ⟨row, found, rfl⟩ := List.mem_map.mp (exist id ((members id).mp inside).1)
        exact List.mem_map_of_mem (List.mem_filter.mpr ⟨found, decide_eq_true inside⟩)
  | commitSubtree direction messageId known rows now =>
    change call ∈ (world.committed direction messageId known rows now).calls at member
    unfold World.committed at member
    dsimp only at member
    split at member <;> exact absurd (List.mem_of_mem_erase member) before
  | lockForDone messageId =>
    rcases mem_inserted.mp member with old | rfl
    · exact absurd old before
    · trivial
  | commitDone => exact absurd (List.mem_of_mem_erase member) before
  | changeStatus => exact absurd member before
  | push => exact absurd member before
  | abort => exact absurd (List.mem_of_mem_erase member) before

theorem sound_execute (world : World) (step : Step) (sound : Sound world) :
    Sound (execute world step) := by
  unfold execute
  split
  case isFalse => exact sound
  case isTrue enabled =>
  refine ⟨?_, ?_, perform_locks sound enabled, perform_calls sound enabled⟩
  · rw [perform_ids]
    refine List.nodup_append.mpr ⟨sound.ids, touch_added_ids step, ?_⟩
    rintro id old _ new rfl
    obtain ⟨row, member, rfl⟩ := List.mem_map.mp new
    exact (touch_added enabled member).1 old
  · intro row member parent asked
    rw [perform_ids]
    refine List.mem_append_left _ ?_
    rw [perform_messages] at member
    rcases List.mem_append.mp member with kept | new
    · rcases mem_updateWhere.mp kept with ⟨old, inside, -, rfl⟩ | ⟨inside, -⟩
      · rw [(touch_same step old).2] at asked
        exact sound.parents old inside parent asked
      · exact sound.parents row inside parent asked
    · exact (touch_added enabled new).2 parent asked

theorem sound_initial (ids : (messages.map (·.id)).Nodup)
    (parents : ∀ row ∈ messages, ∀ parent ∈ row.inReplyTo, parent ∈ messages.map (·.id)) :
    Sound (World.initial messages) where
  ids := ids
  parents := parents
  locks := List.nodup_nil
  calls := List.forall_mem_nil _

end Threads
end Queue
end Scrum4Me
