import Scrum4Me.Queue.Threads

/-!
# Archived as a whole or not at all

A successful archive leaves the messages of the thread that its snapshot had terminal
and archived, and a refused one leaves everything as it was. Alone, either call does
nothing when it is repeated, and an unarchive clears what an archive set.
-/

namespace Scrum4Me
namespace Queue
namespace Threads

open Foundation
open Jobs (Moment)

/-- What an archive or unarchive does to the messages. -/
structure Whole (world : World) (step : Step) : Prop where
  /-- The thread among the messages of the snapshot is terminal and archived. -/
  archived : ∀ messageId known rows now,
    step = .commitSubtree .archive messageId known rows now → step.Enabled world →
      verdict .archive messageId rows = .ok () →
        ∀ row ∈ (execute world step).messages, row.id ∈ known →
          InThread (execute world step).messages messageId row.id →
            row.status.Terminal ∧ row.archivedAt ≠ none
  /-- What was archived keeps its timestamp. -/
  kept : ∀ messageId known rows now,
    step = .commitSubtree .archive messageId known rows now →
      ∀ row ∈ world.messages, row.archivedAt ≠ none → row ∈ (execute world step).messages
  /-- The thread among the messages of the snapshot is active again. -/
  unarchived : ∀ messageId known rows now,
    step = .commitSubtree .unarchive messageId known rows now → step.Enabled world →
      verdict .unarchive messageId rows = .ok () →
        ∀ row ∈ (execute world step).messages, row.id ∈ known →
          InThread (execute world step).messages messageId row.id → row.archivedAt = none
  /-- Messages outside of the thread are left alone. -/
  outside : ∀ direction messageId known rows now,
    step = .commitSubtree direction messageId known rows now → step.Enabled world →
      ∀ row ∈ world.messages, ¬ InThread world.messages messageId row.id →
        row ∈ (execute world step).messages
  /-- A call that is refused writes no message in any of its steps. -/
  refused : ∀ direction messageId known rows now error,
    step = .commitSubtree direction messageId known rows now →
      verdict direction messageId rows = .error error →
        (execute world step).messages = world.messages
  waiting : ∀ direction messageId known found,
    step = .readSubtree direction messageId ∨
        step = .lockSubtree direction messageId known found →
      (execute world step).messages = world.messages

variable {world : World} {step : Step}

/-! ## Commits -/

variable {direction : Direction} {messages : List MessageRow} {ids : List String} {row : MessageRow}

theorem mem_write {now : Moment} :
    row ∈ write direction ids now messages ↔ (∃ old ∈ messages, direction.Writes ids old ∧
        { old with archivedAt := direction.value now } = row) ∨
          row ∈ messages ∧ ¬ direction.Writes ids row := by
  unfold write
  rw [mem_updateWhere]
  simp only [decide_eq_true_iff, decide_eq_false_iff_not]

/-- After a write the rows of the thread are as the direction has it. -/
theorem write_done {now : Moment}
    (member : row ∈ write direction ids now messages) (inside : row.id ∈ ids) :
    ¬ direction.Writes ids row := by
  rcases mem_write.mp member with ⟨old, -, -, rfl⟩ | ⟨-, missed⟩
  · cases direction with
    | archive => exact fun writes => nomatch writes.2
    | unarchive => exact fun writes => writes.2 rfl
  · exact missed

variable {rows : List MessageRow} {known : List String}

theorem execute_commit {messageId : String} {now : Moment}
    (enabled : Step.Enabled world (.commitSubtree direction messageId known rows now))
    (passed : verdict direction messageId rows = .ok ()) :
    (execute world (.commitSubtree direction messageId known rows now)).messages =
      write direction (rows.map (·.id)) now world.messages := by
  rw [execute, if_pos enabled]
  show (world.committed direction messageId known rows now).messages = _
  unfold World.committed
  rw [passed]

theorem execute_refused {messageId : String} {now : Moment} {error : String}
    (refused : verdict direction messageId rows = .error error) :
    (execute world (.commitSubtree direction messageId known rows now)).messages =
      world.messages := by
  unfold execute
  split
  · show (world.committed direction messageId known rows now).messages = _
    unfold World.committed
    rw [refused]
  · rfl

/-- An archive passes its checks on terminal rows only. -/
theorem verdict_archive {messageId : String} (passed : verdict .archive messageId rows = .ok ()) :
    ∀ row ∈ rows, row.status.Terminal := by
  intro row member
  by_contra active
  unfold verdict at passed
  rw [bind_eq_ok] at passed
  obtain ⟨-, -, passed⟩ := passed
  split at passed
  · cases passed
  · cases found : rows.find? fun row => ¬ row.status.Terminal with
    | none => exact List.find?_eq_none.mp found row member (decide_eq_true active)
    | some blocking =>
      rw [found] at passed
      cases passed

/-- The thread after a commit, among the messages of the snapshot, is the rows that
the transaction has locked. -/
theorem committed_thread (sound : Sound world) {messageId : String} {now : Moment}
    (enabled : Step.Enabled world (.commitSubtree direction messageId known rows now))
    {id : String} (snapshot : id ∈ known)
    (inside : InThread (execute world (.commitSubtree direction messageId known rows now)).messages
      messageId id) :
    id ∈ rows.map (·.id) := by
  obtain ⟨exist, members, -⟩ := sound.calls _ enabled
  rw [execute, if_pos enabled] at inside
  exact (members id).mpr ⟨snapshot, (inThread_perform sound enabled (exist id snapshot)).mp inside⟩

theorem whole (sound : Sound world) (step : Step) : Whole world step where
  archived := by
    rintro messageId known rows now rfl enabled passed row member snapshot inside
    have among := committed_thread sound enabled snapshot inside
    rw [execute_commit enabled passed] at member
    constructor
    · obtain ⟨-, -, read⟩ := sound.calls _ enabled
      obtain ⟨locked, lockedMember, same⟩ := List.mem_map.mp among
      have terminal := verdict_archive passed locked lockedMember
      rcases mem_write.mp member with ⟨old, oldMember, -, rfl⟩ | ⟨oldMember, -⟩
      · exact sound.row_unique (read locked lockedMember) oldMember same ▸ terminal
      · exact sound.row_unique (read locked lockedMember) oldMember same ▸ terminal
    · exact fun missing => write_done member among ⟨among, missing⟩
  kept := by
    rintro messageId known rows now rfl row member archived
    by_cases enabled : Step.Enabled world (.commitSubtree .archive messageId known rows now)
    · cases passed : verdict .archive messageId rows with
      | ok =>
        rw [execute_commit enabled passed]
        exact mem_write.mpr (.inr ⟨member, fun writes => archived writes.2⟩)
      | error error =>
        rw [execute_refused passed]
        exact member
    · rw [execute, if_neg enabled]
      exact member
  unarchived := by
    rintro messageId known rows now rfl enabled passed row member snapshot inside
    have among := committed_thread sound enabled snapshot inside
    rw [execute_commit enabled passed] at member
    by_contra archived
    exact write_done member among ⟨among, archived⟩
  outside := by
    rintro direction messageId known rows now rfl enabled row member apart
    cases passed : verdict direction messageId rows with
    | ok =>
      rw [execute_commit enabled passed]
      refine mem_write.mpr (.inr ⟨member, fun writes => apart ?_⟩)
      exact (((sound.calls _ enabled).2.1 row.id).mp writes.1).2
    | error error =>
      rw [execute_refused passed]
      exact member
  refused := by
    rintro direction messageId known rows now error rfl failed
    exact execute_refused failed
  waiting := by
    rintro direction messageId known found (rfl | rfl) <;> (unfold execute; split <;> rfl)

/-! ## Calls with nothing in between -/

/-- No transaction has locked a message of the thread. -/
def World.Free (world : World) (messageId : String) : Prop :=
  ∀ id ∈ thread world.messages messageId, ¬ world.Locked id

/-- The state after a call alone. -/
def World.after (world : World) (direction : Direction) (messageId : String) (now : Moment) :
    World :=
  run execute world (direction.steps world messageId now)

/-- A call alone does nothing when it is repeated; an unarchive after an archive
clears the whole thread, which undoes the archive if nothing was archived before. -/
structure World.Repeats (world : World) : Prop where
  again : ∀ direction messageId now later, world.Free messageId →
    ((world.after direction messageId now).after direction messageId later).messages =
      (world.after direction messageId now).messages
  restored : ∀ messageId now later, world.Free messageId →
    verdict .archive messageId (world.rows (thread world.messages messageId)) = .ok () →
      ((world.after .archive messageId now).after .unarchive messageId later).messages =
        updateWhere (·.id ∈ thread world.messages messageId)
          (fun row => { row with archivedAt := none }) world.messages
  undone : ∀ messageId now later, world.Free messageId →
    verdict .archive messageId (world.rows (thread world.messages messageId)) = .ok () →
      (∀ row ∈ world.messages, row.id ∈ thread world.messages messageId →
        row.archivedAt = none) →
          ((world.after .archive messageId now).after .unarchive messageId later).messages =
            world.messages

section Alone

variable {direction : Direction} {messageId : String} {now later : Moment}

/-- The transaction between its two statements. -/
theorem locked_alone (free : world.Free messageId) :
    (run execute world [ .readSubtree direction messageId,
          .lockSubtree direction messageId world.ids
            (thread world.messages messageId) ]).messages = world.messages ∧
      (run execute world [ .readSubtree direction messageId,
          .lockSubtree direction messageId world.ids (thread world.messages messageId) ]).calls.Perm
        (world.calls ++ [.locked direction messageId world.ids
          (world.rows (thread world.messages messageId))]) := by
  let reading : Call := .reading direction messageId world.ids (thread world.messages messageId)
  have begun : execute world (.readSubtree direction messageId) =
      { world with calls := world.calls ++ [reading] } := rfl
  have enabled : Step.Enabled (execute world (.readSubtree direction messageId))
      (.lockSubtree direction messageId world.ids (thread world.messages messageId)) := by
    refine ⟨List.mem_append_right _ (List.mem_singleton_self _), ?_⟩
    rintro id inside ⟨call, member, locked⟩
    rcases List.mem_append.mp member with old | new
    · exact free id inside ⟨call, old, locked⟩
    · rw [List.mem_singleton.mp new] at locked
      cases locked
  rw [run_cons, run_cons, run_nil]
  conv => enter [1, 1]; rw [execute, if_pos enabled]
  conv => enter [2, 1]; rw [execute, if_pos enabled]
  refine ⟨rfl, List.Perm.append_right _ ?_⟩
  have moved := (List.perm_append_singleton reading world.calls).erase reading
  rwa [List.erase_cons_head] at moved

/-- What a call alone does. -/
theorem after_eq (free : world.Free messageId) :
    (world.after direction messageId now).messages = (match verdict direction messageId
            (world.rows (thread world.messages messageId)) with
          | .ok () => write direction
              ((world.rows (thread world.messages messageId)).map (·.id)) now world.messages
          | .error _ => world.messages) ∧
      (world.after direction messageId now).calls.Perm world.calls := by
  obtain ⟨messages, calls⟩ := @locked_alone world direction messageId free
  let commits : Step := .commitSubtree direction messageId world.ids
    (world.rows (thread world.messages messageId)) now
  let locked : Call := .locked direction messageId world.ids
    (world.rows (thread world.messages messageId))
  have last : world.after direction messageId now =
      execute (run execute world [ .readSubtree direction messageId,
          .lockSubtree direction messageId world.ids
            (thread world.messages messageId) ]) commits := rfl
  rw [last]
  generalize run execute world _ = between at messages calls
  have enabled : commits.Enabled between :=
    calls.mem_iff.mpr (List.mem_append_right _ (List.mem_singleton_self _))
  have rest : (between.calls.erase locked).Perm world.calls := by
    have moved := (calls.trans (List.perm_append_singleton locked world.calls)).erase locked
    rwa [List.erase_cons_head] at moved
  constructor
  · cases passed : verdict direction messageId (world.rows (thread world.messages messageId)) with
    | ok => rw [execute_commit enabled passed, messages]
    | error error => rw [execute_refused passed, messages]
  · rw [execute, if_pos enabled]
    show (between.committed direction messageId _ _ now).calls.Perm _
    unfold World.committed
    dsimp only
    split <;> exact rest

/-! ## Links and archive times -/

theorem thread_write (ids : List String) (messages : List MessageRow) (root : String) :
    thread (write direction ids now messages) root = thread messages root := by
  have columns : ∀ search : MessageRow → Bool,
      (∀ row at', search { row with archivedAt := at' } = search row) →
        ((write direction ids now messages).filter search).map (·.id) =
          (messages.filter search).map (·.id) := by
    intro search same
    unfold write
    rw [filter_updateWhere fun row => same row _]
    refine map_updateWhere_of_unchanged ?_ _
    exact fun _ => rfl
  unfold thread subtree
  have links : replies (write direction ids now messages) = replies messages :=
    funext fun parent => columns _ fun _ _ => rfl
  rw [links, columns _ fun _ _ => rfl, write, length_updateWhere]

theorem rows_write (ids found : List String) (next : World)
    (written : next.messages = write direction ids now world.messages) :
    next.rows found = write direction ids now (world.rows found) := by
  unfold World.rows
  rw [written]
  refine filter_updateWhere ?_ _
  exact fun _ => rfl

/-- A second write in the same direction finds nothing to do. -/
theorem write_again (ids : List String) (messages : List MessageRow) :
    write direction ids later (write direction ids now messages) =
      write direction ids now messages := by
  refine updateWhere_eq_self fun row member matched => ?_
  have writes : direction.Writes ids row := of_decide_eq_true matched
  exact absurd writes (write_done member writes.1)

/-- Clearing the archive times that were just set clears all. -/
theorem write_back (ids : List String) (messages : List MessageRow) :
    write .unarchive ids later (write .archive ids now messages) =
      updateWhere (·.id ∈ ids) (fun row => { row with archivedAt := none }) messages := by
  unfold write updateWhere
  rw [List.map_map]
  refine List.map_congr_left fun row _ => ?_
  by_cases inside : row.id ∈ ids
  · cases archived : row.archivedAt with
    | _ => simp [Direction.Writes, Direction.value, inside, archived]
  · simp [Direction.Writes, inside]

/-- Terminal rows may be unarchived. -/
theorem verdict_unarchive (filled : rows ≠ []) (terminal : ∀ row ∈ rows, row.status.Terminal) :
    verdict .unarchive messageId rows = .ok () := by
  have quiet : rows.find? (fun row => ¬ row.status.Terminal) = none :=
    List.find?_eq_none.mpr fun row member active => of_decide_eq_true active (terminal row member)
  unfold verdict managedBlock
  rw [bind_eq_ok]
  refine ⟨(), (ensure_eq_ok _ _ _).mpr filled, ?_⟩
  rw [quiet]
  split
  · rename_i managed
    split at managed <;> cases managed
  · rfl

theorem verdict_nonempty (passed : verdict direction messageId rows = .ok ()) : rows ≠ [] := by
  unfold verdict at passed
  rw [bind_eq_ok] at passed
  obtain ⟨_, filled, -⟩ := passed
  exact (ensure_eq_ok _ _ _).mp filled

/-- The identifiers of the rows of a thread. -/
theorem mem_rows_ids {found : List String} {row : MessageRow} (member : row ∈ world.messages) :
    row.id ∈ (world.rows found).map (·.id) ↔ row.id ∈ found := by
  unfold World.rows
  constructor
  · intro inside
    obtain ⟨other, among, same⟩ := List.mem_map.mp inside
    rw [← same]
    exact of_decide_eq_true (List.mem_filter.mp among).2
  · intro inside
    exact List.mem_map_of_mem (List.mem_filter.mpr ⟨member, decide_eq_true inside⟩)

/-- A call alone leaves the thread and its locks as they are. -/
theorem free_after (free : world.Free messageId) :
    thread (world.after direction messageId now).messages messageId =
        thread world.messages messageId ∧ (world.after direction messageId now).Free messageId := by
  obtain ⟨messages, calls⟩ := @after_eq world direction messageId now free
  have same : thread (world.after direction messageId now).messages messageId =
      thread world.messages messageId := by
    rw [messages]
    split
    · exact thread_write _ _ _
    · rfl
  refine ⟨same, fun id inside locked => ?_⟩
  obtain ⟨call, member, holds⟩ := locked
  exact free id (same ▸ inside) ⟨call, calls.mem_iff.mp member, holds⟩

theorem ids_write (ids : List String) (rows : List MessageRow) :
    (write direction ids now rows).map (·.id) = rows.map (·.id) := by
  refine map_updateWhere_of_unchanged ?_ rows
  exact fun _ => rfl

theorem after_again (free : world.Free messageId) :
    ((world.after direction messageId now).after direction messageId later).messages =
      (world.after direction messageId now).messages := by
  obtain ⟨same, stillFree⟩ := @free_after world direction messageId now free
  obtain ⟨first, -⟩ := @after_eq world direction messageId now free
  obtain ⟨second, -⟩ := @after_eq _ direction messageId later stillFree
  rw [same] at second
  cases passed : verdict direction messageId (world.rows (thread world.messages messageId)) with
  | error error =>
    rw [passed] at first
    have rows : (world.after direction messageId now).rows (thread world.messages messageId) =
          world.rows (thread world.messages messageId) := by
      unfold World.rows
      rw [first]
    rw [rows, passed] at second
    exact second
  | ok =>
    rw [passed] at first
    rw [rows_write _ _ _ first, ids_write] at second
    split at second
    · rw [second, first]
      exact write_again _ _
    · exact second

theorem after_back (free : world.Free messageId)
    (passed : verdict .archive messageId (world.rows (thread world.messages messageId)) = .ok ()) :
    ((world.after .archive messageId now).after .unarchive messageId later).messages =
      updateWhere (·.id ∈ thread world.messages messageId)
        (fun row => { row with archivedAt := none }) world.messages := by
  obtain ⟨same, stillFree⟩ := @free_after world .archive messageId now free
  obtain ⟨first, -⟩ := @after_eq world .archive messageId now free
  obtain ⟨second, -⟩ := @after_eq _ .unarchive messageId later stillFree
  rw [passed] at first
  have rows := rows_write _ (thread world.messages messageId) _ first
  have allowed : verdict .unarchive messageId ((world.after .archive messageId now).rows
      (thread world.messages messageId)) = .ok () := by
    refine verdict_unarchive ?_ ?_
    · rw [rows]
      intro empty
      have size := congrArg List.length empty
      rw [write, length_updateWhere] at size
      exact verdict_nonempty passed (List.length_eq_zero_iff.mp size)
    · intro row member
      rw [rows] at member
      rcases mem_write.mp member with ⟨old, inside, -, rfl⟩ | ⟨inside, -⟩
      · exact verdict_archive passed old inside
      · exact verdict_archive passed row inside
  rw [same, allowed, rows, ids_write, first] at second
  rw [second]
  show write .unarchive _ later (write .archive _ now world.messages) = _
  rw [write_back]
  refine List.map_congr_left fun row member => ?_
  simp only [mem_rows_ids member]

theorem repeats (world : World) : world.Repeats where
  again := fun _ _ _ _ free => after_again free
  restored := fun _ _ _ free passed => after_back free passed
  undone := by
    intro messageId now later free passed active
    rw [after_back free passed]
    refine updateWhere_eq_self fun row member matched => ?_
    rw [← active row member (of_decide_eq_true matched)]

end Alone

/-! ## Runs -/

/-- From any messages whose links exist, and through any steps: archives and
unarchives are whole in the snapshot that they read, calls repeat and undo as they
should in every state, and the recursive query always ends. -/
theorem threads_archived (messages : List MessageRow) (ids : (messages.map (·.id)).Nodup)
    (parents : ∀ row ∈ messages, ∀ parent ∈ row.inReplyTo,
      parent ∈ messages.map (·.id))
    (steps : List Step) :
    EveryStep execute Whole (World.initial messages) steps ∧ (∀ earlier, earlier <+: steps →
        (run execute (World.initial messages) earlier).Repeats) ∧
        ∀ table root, (subtree table root).working = [] := by
  have always : EveryStep execute (fun _ _ => True) (World.initial messages) steps :=
    everyStep_of_forall (fun _ _ _ => trivial) _
  refine ⟨?_, fun earlier _ => repeats _, subtree_ends⟩
  exact EveryStep.of_invariant (fun world step before _ => sound_execute world step before)
    (fun world step before _ => whole before step) (sound_initial ids parents) always

section Runs

private def message (id : String) (inReplyTo : Option String) (status : MessageStatus)
    (archivedAt : Option Moment) : MessageRow where
  id := id
  type := .task
  fromServer := "mac"
  fromModel := "opus"
  toServer := "nas"
  toModel := "codex"
  body := "build it"
  source := "mcp"
  status := status
  inReplyTo := inReplyTo
  createdAt := 1
  archivedAt := archivedAt

/-- Two messages that answer each other, and a reply to one of them. -/
private def cycle : List MessageRow :=
  [message "m1" (some "m2") .done none, message "m2" (some "m1") .failed none,
    message "m3" (some "m2") .done none]

theorem threads_archived_cycle :
    (((World.initial cycle).after .archive "m1" 5).messages.map (·.archivedAt) =
        [some 5, some 5, some 5]) ∧
      EveryStep execute Whole (World.initial cycle)
          (Direction.archive.steps (World.initial cycle) "m1" 5) ∧
        (run execute (World.initial cycle) []).Repeats := by
  have whole := threads_archived cycle (by decide) (by decide)
    (Direction.archive.steps (World.initial cycle) "m1" 5)
  exact ⟨by decide +kernel, whole.1, whole.2.1 [] List.nil_prefix⟩

/-- A message with a reply that was archived before. -/
private def mixed : World :=
  .initial [message "m1" none .done none, message "m2" (some "m1") .done (some 1)]

/-- A claimed message that a finish answers while an archive waits for its lock. -/
private def claimed : World := .initial [message "m1" none .claimed none]

private def raced : List Step :=
  [ .lockForDone "m1", .readSubtree .archive "m1", .commitDone "m1" (some ("m2", "built")) 4,
    .lockSubtree .archive "m1" ["m1"] ["m1"],
    .commitSubtree .archive "m1" ["m1"]
      [{ message "m1" none .done none with finishedAt := some 4 }] 5 ]

/-- The archive changes the first message, the unarchive both. And an archive that
succeeds may leave a pending reply outside. -/
theorem archive_not_undone :
    ((mixed.after .archive "m1" 5).messages.map (·.archivedAt) = [some 5, some 1] ∧
        ((mixed.after .archive "m1" 5).after .unarchive "m1" 6).messages.map
          (·.archivedAt) = [none, none]) ∧
      (run execute claimed raced).answers = [.changed .archive "m1" 1 1] ∧
        (run execute claimed raced).messages.map (fun row => (row.status, row.archivedAt)) =
          [(.done, some 5), (.pending, none)] ∧
          thread (run execute claimed raced).messages "m1" = ["m1", "m2"] := by
  decide +kernel

end Runs

end Threads
end Queue
end Scrum4Me
