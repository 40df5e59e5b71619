import Scrum4Me.Projector.Messages

/-!
# Retention over passes

A pass archives the threads of the oldest due requests, up to its limit. A request stays
due when its thread is in the archive, so every pass looks at the same requests.
-/

namespace Scrum4Me
namespace Projector

open Foundation
open Dispatch (Uuid Timestamp Store RequestRows EventBody)

/-! ## The pass -/

/-- `RECOVERY_EVENTS`. -/
def OfRecovery : EventBody → Prop
  | .recoveryAction .. => True
  | .retryAuthorized .. => True
  | .publicationResolved .. => True
  | _ => False

instance (body : EventBody) : Decidable (OfRecovery body) := by
  apply @EventBody.casesOn (fun body => Decidable (OfRecovery body)) body <;>
    intros <;> dsimp only [OfRecovery] <;> infer_instance

/-- The `WHERE` of the list of due requests. -/
def Due (cutoff : Timestamp) (rows : RequestRows) : Prop :=
  (rows.request.state = .succeeded ∨ rows.request.state = .failed ∨
      rows.request.state = .cancelled) ∧
    rows.request.updatedAt < cutoff ∧
    ¬ (∃ event ∈ rows.events, OfRecovery event.body) ∧
    ¬ ∃ row ∈ rows.outbox, row.publishedAt = none

instance (cutoff : Timestamp) (rows : RequestRows) : Decidable (Due cutoff rows) :=
  inferInstanceAs (Decidable (_ ∧ _ ∧ _ ∧ _))

/-- `ORDER BY r.updated_at, r.id`. -/
def Older (first second : RequestRows) : Prop :=
  first.request.updatedAt < second.request.updatedAt ∨
    first.request.updatedAt = second.request.updatedAt ∧
      first.request.id ≤ second.request.id

instance (first second : RequestRows) : Decidable (Older first second) :=
  inferInstanceAs (Decidable (_ ∨ _ ∧ _))

/-- The due requests, oldest first. -/
def dueRequests (store : Store) (cutoff : Timestamp) : List Uuid :=
  ((store.requests.filter fun rows => Due cutoff rows).insertionSort Older).map (·.request.id)

/-- A limit that the pass accepts. -/
structure Limit where
  value : Nat
  positive : 1 ≤ value
  bounded : value ≤ 100

structure Pass where
  tables : Tables
  archived : Nat
  refused : Nat

def Pass.next (pass : Pass) (requestId : Uuid) : Pass :=
  match pass.tables.retainThread requestId with
  | .skipped => pass
  | .refused => { pass with refused := pass.refused + 1 }
  | .archived tables => { pass with tables, archived := pass.archived + 1 }

/-- One pass; nothing else moves the messages meanwhile. -/
def retainTerminalDispatchThreads
    (store : Store) (cutoff : Timestamp) (limit : Limit) (tables : Tables) :
    Pass :=
  ((dueRequests store cutoff).take limit.value).foldl Pass.next ⟨tables, 0, 0⟩

/-- The tables after this many passes over an unchanged store. -/
def passes (store : Store) (cutoff : Timestamp) (limit : Limit) : Nat → Tables → Tables
  | 0, tables => tables
  | calls + 1, tables =>
      passes store cutoff limit calls
        (retainTerminalDispatchThreads store cutoff limit tables).tables

/-! ## Archivable threads -/

namespace Tables

/-- A thread in the hot table whose messages are all finished, and of which the archive
holds nothing else. -/
structure Archivable (tables : Tables) (requestId : Uuid) : Prop where
  hot : tables.thread requestId ≠ []
  finished : ∀ row ∈ tables.thread requestId, row.status.Terminal
  apart : ∀ row ∈ tables.thread requestId, ∀ old ∈ tables.archive,
    old.id = row.id → old = row

/-- The thread went from the hot table into the archive. -/
structure Archived (before : Tables) (requestId : Uuid) (after : Tables) : Prop where
  gone : after.thread requestId = []
  kept : ∀ row ∈ before.thread requestId, row ∈ after.archive

variable {tables : Tables} {requestId other : Uuid}

theorem eq_of_id {rows : List Message} (keys : (rows.map (·.id)).Nodup)
    {first second : Message} (memberFirst : first ∈ rows) (memberSecond : second ∈ rows)
    (same : first.id = second.id) : first = second :=
  List.inj_on_of_nodup_map keys memberFirst memberSecond same

/-- Every row of the thread reaches the archive when the thread is archivable. -/
theorem mem_archived_iff {row : Message} (member : row ∈ tables.thread requestId) :
    row ∈ tables.archived requestId ↔ ∀ old ∈ tables.archive, old.id = row.id → old = row := by
  constructor
  · intro reached old stored same
    rcases List.mem_append.mp reached with before | new
    · exact eq_of_id tables.archiveKeys stored before same
    · have absent := of_decide_eq_true (List.mem_filter.mp new).2
      exact absurd (List.mem_map.mpr ⟨old, stored, same⟩) absent
  · intro apart
    by_cases present : row.id ∈ tables.archive.map (·.id)
    · obtain ⟨old, stored, same⟩ := List.mem_map.mp present
      exact List.mem_append_left _ (apart old stored same ▸ stored)
    · exact List.mem_append_right _ (List.mem_filter.mpr ⟨member, decide_eq_true present⟩)

/-- A thread is archivable when it does not wait and can be copied. -/
theorem archivable_iff :
    tables.Archivable requestId ↔ ¬ tables.Waits requestId ∧ tables.Copied requestId := by
  constructor
  · intro archivable
    refine ⟨?_, ?_⟩
    · rintro (empty | ⟨row, member, unread⟩)
      · exact archivable.hot empty
      · exact unread (archivable.finished row member)
    · unfold Copied
      rw [List.filter_eq_self.mpr fun row member =>
        decide_eq_true ((mem_archived_iff member).2 (archivable.apart row member))]
  · rintro ⟨ready, copied⟩
    have all := List.length_filter_eq_length_iff.mp copied
    refine ⟨fun empty => ready (.inl empty), fun row member => ?_, fun row member => ?_⟩
    · by_contra unread
      exact ready (.inr ⟨row, member, unread⟩)
    · exact (mem_archived_iff member).1 (of_decide_eq_true (all row member))

end Tables

/-! ## One request of the pass -/

section

variable {pass : Pass} {requestId other : Uuid}

/-- An archivable thread moves, any other stays. -/
theorem next_tables (pass : Pass) (requestId : Uuid) :
    (pass.next requestId).tables = pass.tables.moved requestId ∧ pass.tables.Archivable requestId ∨
      (pass.next requestId).tables = pass.tables ∧ ¬ pass.tables.Archivable requestId := by
  unfold Pass.next Tables.retainThread
  rw [Tables.archivable_iff]
  by_cases waits : pass.tables.Waits requestId
  · rw [if_pos waits]
    exact .inr ⟨rfl, fun ready => ready.1 waits⟩
  · rw [if_neg waits]
    by_cases copied : pass.tables.Copied requestId
    · rw [if_pos copied]
      exact .inl ⟨rfl, waits, copied⟩
    · rw [if_neg copied]
      exact .inr ⟨rfl, fun ready => copied ready.2⟩

theorem moved_thread_self (tables : Tables) : (tables.moved requestId).thread requestId = [] := by
  refine List.filter_eq_nil_iff.mpr fun row member found => ?_
  have kept := List.mem_filter.mp member
  have hot := List.mem_filter.mp kept.1
  rcases (row.of_iff).1 (of_decide_eq_true found) with reply | root
  · exact of_decide_eq_true hot.2 reply
  · exact of_decide_eq_true kept.2 root

theorem moved_thread_other (tables : Tables) (differ : other ≠ requestId) :
    (tables.moved requestId).thread other = tables.thread other := by
  unfold Tables.thread Tables.moved Tables.removed
  rw [List.filter_filter, List.filter_filter]
  refine List.filter_congr fun row _ => ?_
  by_cases of : row.Of other
  · have elsewhere : ¬ row.Of requestId := fun also => differ (Message.Of.unique row of also)
    have notRoot : ¬ row.Has requestId .root := fun root => elsewhere ((row.of_iff).2 (.inr root))
    have notReply : ¬ row.Has requestId .reply := fun reply =>
      elsewhere ((row.of_iff).2 (.inl reply))
    simp [of, notRoot, notReply]
  · simp [of]

theorem mem_moved_archive {tables : Tables} {row : Message}
    (stored : row ∈ (tables.moved requestId).archive) :
    row ∈ tables.archive ∨ row ∈ tables.thread requestId := by
  rcases List.mem_append.mp stored with before | new
  · exact .inl before
  · exact .inr (List.mem_filter.mp new).1

/-- Moving one thread changes nothing for another. -/
theorem moved_archivable_other (tables : Tables) (differ : other ≠ requestId) :
    (tables.moved requestId).Archivable other ↔ tables.Archivable other := by
  have same := moved_thread_other tables differ
  constructor
  · intro archivable
    refine ⟨same ▸ archivable.hot, same ▸ archivable.finished, fun row member old stored => ?_⟩
    exact archivable.apart row (same ▸ member) old (List.mem_append_left _ stored)
  · intro archivable
    refine ⟨same ▸ archivable.hot, same ▸ archivable.finished, fun row member old stored key => ?_⟩
    rw [same] at member
    rcases mem_moved_archive stored with before | hot
    · exact archivable.apart row member old before key
    · exact Tables.eq_of_id tables.hotKeys (List.mem_filter.mp hot).1
        (List.mem_filter.mp member).1 key

/-- After its turn a thread is not archivable; the others are as before. -/
theorem next_archivable :
    (pass.next requestId).tables.Archivable other ↔
      pass.tables.Archivable other ∧ other ≠ requestId := by
  rcases next_tables pass requestId with ⟨same, _⟩ | ⟨same, never⟩
  · rw [same]
    by_cases own : other = requestId
    · subst own
      exact ⟨fun archivable => absurd (moved_thread_self pass.tables) archivable.hot,
        fun archivable => absurd rfl archivable.2⟩
    · rw [moved_archivable_other pass.tables own]
      exact ⟨fun archivable => ⟨archivable, own⟩, And.left⟩
  · rw [same]
    refine ⟨fun archivable => ⟨archivable, ?_⟩, And.left⟩
    rintro rfl
    exact never archivable

/-- An archivable thread is in the archive, or as it was. -/
def Tables.Settles (before : Tables) (other : Uuid) (after : Tables) : Prop :=
  before.Archived other after ∨
    after.thread other = before.thread other ∧ after.Archivable other

theorem next_settles {before : Tables} (settles : before.Settles other pass.tables) :
    before.Settles other (pass.next requestId).tables := by
  rcases next_tables pass requestId with ⟨same, archivable⟩ | ⟨same, _⟩
  · rw [same]
    by_cases own : other = requestId
    · subst own
      rcases settles with archived | ⟨hot, _⟩
      · exact absurd archived.gone archivable.hot
      · refine .inl ⟨moved_thread_self pass.tables, fun row member => ?_⟩
        rw [← hot] at member
        exact (Tables.mem_archived_iff member).2 (archivable.apart row member)
    · have kept := moved_thread_other pass.tables own
      rcases settles with ⟨gone, stored⟩ | ⟨hot, still⟩
      · exact .inl ⟨kept.trans gone, fun row member => List.mem_append_left _ (stored row member)⟩
      · exact .inr ⟨kept.trans hot, (moved_archivable_other pass.tables own).2 still⟩
  · rw [same]
    exact settles

end

/-! ## A pass, and all passes -/

theorem foldl_archivable (requestIds : List Uuid) (pass : Pass) (other : Uuid) :
    (requestIds.foldl Pass.next pass).tables.Archivable other ↔
      pass.tables.Archivable other ∧ other ∉ requestIds := by
  induction requestIds generalizing pass with
  | nil => simp
  | cons requestId rest ih =>
    rw [List.foldl_cons, ih, next_archivable, List.mem_cons, not_or, and_assoc]

theorem foldl_settles (requestIds : List Uuid) (pass : Pass) {before : Tables} {other : Uuid}
    (settles : before.Settles other pass.tables) :
    before.Settles other (requestIds.foldl Pass.next pass).tables := by
  induction requestIds generalizing pass with
  | nil => exact settles
  | cons requestId rest ih => exact ih _ (next_settles settles)

section

variable {store : Store} {cutoff : Timestamp} {limit : Limit} {tables : Tables} {requestId : Uuid}

/-- The requests that every pass looks at. -/
def considered (store : Store) (cutoff : Timestamp) (limit : Limit) : List Uuid :=
  (dueRequests store cutoff).take limit.value

theorem retain_archivable :
    (retainTerminalDispatchThreads store cutoff limit tables).tables.Archivable requestId ↔
      tables.Archivable requestId ∧ requestId ∉ considered store cutoff limit :=
  foldl_archivable _ _ requestId

/-- What no pass looks at stays archivable; the rest is done after the first. -/
theorem passes_archivable (calls : Nat) :
    (passes store cutoff limit calls tables).Archivable requestId ↔
      tables.Archivable requestId ∧ (calls = 0 ∨ requestId ∉ considered store cutoff limit) := by
  induction calls generalizing tables with
  | zero => simp [passes]
  | succ calls ih =>
    rw [passes, ih, retain_archivable]
    constructor
    · rintro ⟨⟨archivable, apart⟩, -⟩
      exact ⟨archivable, .inr apart⟩
    · rintro ⟨archivable, impossible | apart⟩
      · exact absurd impossible (Nat.succ_ne_zero calls)
      · exact ⟨⟨archivable, apart⟩, .inr apart⟩

theorem retain_archived (archivable : tables.Archivable requestId)
    (member : requestId ∈ considered store cutoff limit) :
    tables.Archived requestId (retainTerminalDispatchThreads store cutoff limit tables).tables := by
  rcases foldl_settles (considered store cutoff limit) ⟨tables, 0, 0⟩
    (.inr ⟨rfl, archivable⟩) with archived | ⟨_, still⟩
  · exact archived
  · exact absurd member (retain_archivable.1 still).2

end

/-- Every archivable thread of a due request is archived after finitely many passes, and
a pass that leaves one has archived another. -/
structure Progresses (store : Store) (cutoff : Timestamp) (limit : Limit)
    (tables : Tables) : Prop where
  finishes : ∃ calls, ∀ requestId ∈ dueRequests store cutoff, tables.Archivable requestId →
    tables.Archived requestId (passes store cutoff limit calls tables)
  moves : ∀ calls,
    (∃ requestId ∈ dueRequests store cutoff,
      (passes store cutoff limit (calls + 1) tables).Archivable requestId) →
    1 ≤ (retainTerminalDispatchThreads store cutoff limit
      (passes store cutoff limit calls tables)).archived

/-- Retention makes progress exactly when no due request with an archivable thread has as
many older due requests as the limit. -/
theorem retention_progresses
    (store : Store) (cutoff : Timestamp) (limit : Limit) (tables : Tables) :
    Progresses store cutoff limit tables ↔
      ∀ requestId ∈ dueRequests store cutoff, tables.Archivable requestId →
        requestId ∈ (dueRequests store cutoff).take limit.value := by
  constructor
  · intro progresses requestId due archivable
    obtain ⟨calls, finishes⟩ := progresses.finishes
    by_contra apart
    have still : (passes store cutoff limit calls tables).Archivable requestId :=
      (passes_archivable calls).2 ⟨archivable, .inr apart⟩
    exact still.hot (finishes requestId due archivable).gone
  · intro first
    constructor
    · exact ⟨1, fun requestId due archivable =>
        retain_archived archivable (first requestId due archivable)⟩
    · rintro calls ⟨requestId, due, still⟩
      obtain ⟨archivable, never | apart⟩ := (passes_archivable (calls + 1)).1 still
      · exact absurd never (Nat.succ_ne_zero calls)
      · exact absurd (first requestId due archivable) apart

namespace RetentionRuns

/-- A request that succeeded, with its thread acknowledged by the reader. -/
def finished (requestId : Uuid) : RequestRows where
  request :=
    { id := requestId
      principalKey := "bearer:owner:token"
      idempotencyKey := ""
      userId := "owner"
      productId := "product"
      authSource := ⟨.bearer, some "token"⟩
      input := Dispatch.productInput "product"
      inputHash := Dispatch.artifactHash (.text "")
      sourcesReadyAt := none
      state := .succeeded
      version := 5
      generation := 1
      firstClaimedAt := none
      retryAuthorizationEventId := none
      rootMessageId := 10 * requestId
      replyMessageId := 10 * requestId + 1
      resultId := none
      createdAt := 0
      updatedAt := requestId }
  candidates := []
  reservations := []
  attempts := []
  jobs := []
  events := []
  results := []
  artifacts := []
  publications := []
  outbox := []

def store : Store := { Store.empty with requests := [finished 1, finished 2] }

def message (requestId : Uuid) (role : Role) (id : Uuid) (inReplyTo : Option Uuid) : Message where
  id := id
  identity := ⟨"task", "dispatch", "dispatch", "mac", "jp", inReplyTo⟩
  body := ""
  metaText := ""
  status := .done
  claimedBy := none
  claimedAt := none
  startedAt := none
  finishedAt := none
  createdAt := 0
  managed := some ⟨requestId, role, 5⟩

def tables : Tables where
  hot := [message 1 .root 10 none, message 1 .reply 11 (some 10),
    message 2 .root 20 none, message 2 .reply 21 (some 20)]
  archive := []
  hotKeys := by decide
  archiveKeys := by decide

end RetentionRuns

open RetentionRuns in
/-- Under the limit one, the second of two finished threads is never archived: every pass
stops at the first, which is in the archive already. -/
theorem retention_stuck :
    ¬ Progresses store 3 ⟨1, by decide, by decide⟩ tables ∧
      (passes store 3 ⟨1, by decide, by decide⟩ 1 tables).thread 1 = [] ∧
      ∀ calls, (passes store 3 ⟨1, by decide, by decide⟩ calls tables).Archivable 2 := by
  have archivable : tables.Archivable 2 :=
    Tables.archivable_iff.2 ⟨by decide +kernel, by decide +kernel⟩
  have apart : 2 ∉ considered store 3 ⟨1, by decide, by decide⟩ := by decide +kernel
  have still : ∀ calls,
      (passes store 3 ⟨1, by decide, by decide⟩ calls tables).Archivable 2 :=
    fun calls => (passes_archivable calls).2 ⟨archivable, .inr apart⟩
  refine ⟨fun progresses => ?_, by decide +kernel, still⟩
  obtain ⟨calls, finishes⟩ := progresses.finishes
  exact (still calls).hot (finishes 2 (by decide +kernel) archivable).gone

end Projector
end Scrum4Me
