import Scrum4Me.Dispatch.Reconciliation
import Scrum4Me.Guarantees.WholeMachine
import Mathlib.Data.Finset.Max

/-!
# Rotation of the incomplete publications

A stored receipt bumps `updated_at` and sends its operation to the end of the queue;
an operation that cannot be reconciled stores none and keeps its place. The calls
come round in time exactly when those that keep their places leave enough room.
-/

namespace Scrum4Me
namespace Dispatch

open Foundation

variable {call : Reconciler} {store store' : Store} {id : Uuid}

/-! ## What holds an operation back -/

/-- The operation can be reconciled: its intent loads, and it was never sent or the
port answers. -/
def Reconciler.answers (call : Reconciler) (store : Store) (operationId : Uuid) : Bool :=
  (store.requestOfPublication? operationId).any fun rows =>
    (publicationIntent rows operationId).toOption.any fun x =>
      (rows.publication? operationId).any fun row =>
        decide (row.state = .prepared) || (call.port x).isSome

/-- The operations at the head of the queue that cannot be reconciled. -/
def Reconciler.heldBack (call : Reconciler) (store : Store) : Nat :=
  store.batch.countP fun row => !call.answers store row.id

/-- How often an operation at the head could not be reconciled, over repeated calls. -/
def heldBackIn (store : Store) : List Reconciler → Nat
  | [] => 0
  | call :: rest =>
      call.heldBack store +
        heldBackIn (reconcileIncompletePublications call store).store rest

/-! ## One operation -/

/-- Requests and operations have keys. -/
structure Store.Keyed (store : Store) : Prop where
  requests : (store.requests.map fun rows => rows.request.id).Nodup
  publications : (store.allPublications.map PublicationRow.id).Nodup

theorem Store.KeysUnique.keyed (keys : store.KeysUnique) : store.Keyed where
  requests := keys.requests
  publications := by
    rw [Store.allPublications, List.map_flatMap]
    exact keys.publications

/-- What a receipt makes of its operation. -/
def settle (now : Timestamp) (value : PublicationReceipt) (row : PublicationRow) :
    PublicationRow :=
  if row.state = .confirmed ∨ row.state = .failed then row
  else
    { row with
      state := value.status.state
      remoteReceipt := some value
      updatedAt := now }

@[simp] theorem settle_id (now : Timestamp) (value : PublicationReceipt) (row : PublicationRow) :
    (settle now value row).id = row.id := by
  rw [settle]
  split <;> rfl

variable {value : PublicationReceipt}

theorem settle_updatedAt {now : Timestamp} {row : PublicationRow}
    (unresolved : row.state.Unresolved) :
    (settle now value row).updatedAt = now := by
  rw [settle, if_neg]
  rintro (done | done) <;> rw [done] at unresolved <;> revert unresolved <;> decide

theorem storeReceipt_publications (env : Env) (rows : RequestRows) (value : PublicationReceipt) :
    (storeReceipt env rows value).publications = rows.publications.map fun row =>
        if row.id = value.operationId then settle env.now value row else row := by
  rw [storeReceipt, RequestRows.updatePublication, updateWhere]
  simp [settle]

variable {rows : RequestRows}

theorem storeReceipt_publication? {env : Env} (apart : id ≠ value.operationId) :
    (storeReceipt env rows value).publication? id = rows.publication? id := by
  rw [RequestRows.publication?, storeReceipt_publications, RequestRows.publication?]
  induction rows.publications with
  | nil => rfl
  | cons row rest ih =>
    rw [List.map_cons, List.find?_cons, List.find?_cons, ih]
    by_cases own : row.id = value.operationId
    · have other : row.id ≠ id := fun same => apart (same.symm.trans own)
      simp [own, settle_id, Ne.symm apart]
    · rw [if_neg own]

theorem storeReceipt_publication?_isSome
    (env : Env) (rows : RequestRows) (value : PublicationReceipt) (id : Uuid) :
    ((storeReceipt env rows value).publication? id).isSome = (rows.publication? id).isSome := by
  rw [RequestRows.publication?, storeReceipt_publications, RequestRows.publication?,
    List.find?_map, Option.isSome_map]
  congr 2
  funext row
  rw [Function.comp_apply]
  split <;> simp

/-- The intent of another operation loads as before. -/
theorem storeReceipt_intent {env : Env} (apart : id ≠ value.operationId) :
    publicationIntent (storeReceipt env rows value) id = publicationIntent rows id := by
  rw [publicationIntent, storeReceipt_publication? apart]
  rfl

theorem RequestRows.mem_of_publication? {row : PublicationRow}
    (found : rows.publication? id = some row) :
    row ∈ rows.publications ∧ row.id = id := by
  have own := List.find?_some found
  exact ⟨List.mem_of_find?_eq_some found, of_decide_eq_true own⟩

theorem publicationIntent_operationId {x : PublicationIntent}
    (loaded : publicationIntent rows id = .ok x) :
    x.operationId = id := by
  rw [publicationIntent] at loaded
  simp only [bind_eq_ok, require_eq_ok, pure_eq_ok] at loaded
  obtain ⟨row, found, _, _, _, _, rfl⟩ := loaded
  exact (RequestRows.mem_of_publication? found).2

/-- A receipt goes to the operation that was asked about. -/
theorem reconcileUnlocked_operationId (answered : reconcileUnlocked call rows id = .ok value) :
    value.operationId = id := by
  rw [reconcileUnlocked] at answered
  simp only [bind_eq_ok, require_eq_ok] at answered
  obtain ⟨x, loaded, row, found, answered⟩ := answered
  rw [← publicationIntent_operationId loaded]
  split at answered
  · rw [pure_eq_ok] at answered
    rw [← answered]
    rfl
  · simp only [bind_eq_ok, require_eq_ok, pure_eq_ok] at answered
    obtain ⟨answer, _, rfl⟩ := answered
    rfl

theorem reconcilePublication_eq_ok :
    (∃ next, reconcilePublication call store id = .ok next) ↔ call.answers store id = true := by
  rw [Reconciler.answers, reconcilePublication]
  cases holder : store.requestOfPublication? id with
  | none => simp
  | some rows =>
    rw [Option.any_some]
    cases loaded : publicationIntent rows id with
    | error failure => simp [reconcileUnlocked, loaded, Except.toOption]
    | ok x =>
      cases found : rows.publication? id with
      | none => simp [reconcileUnlocked, loaded, found, Except.toOption]
      | some row =>
        by_cases prepared : row.state = .prepared
        · simp [reconcileUnlocked, loaded, found, prepared, Except.toOption]
        · simp [reconcileUnlocked, loaded, found, prepared, Except.toOption,
            Option.isSome_iff_exists]

/-! ## Replacing the rows of a request -/

section Put

variable {rows : RequestRows} {env : Env} {value : PublicationReceipt}

theorem answers_put (keyed : store.Keyed) (found : store.requestOfPublication? id = some rows)
    (own : value.operationId = id) {other : Uuid} (apart : other ≠ id) :
    call.answers (store.put (storeReceipt env rows value)) other = call.answers store other := by
  obtain ⟨before, later, split⟩ := List.append_of_mem (List.mem_of_find?_eq_some found)
  have differs : other ≠ value.operationId := fun same => apart (same.trans own)
  have requests : (store.put (storeReceipt env rows value)).requests =
      before ++ storeReceipt env rows value :: later :=
    put_split keyed.requests split rfl
  rw [Reconciler.answers, Reconciler.answers, Store.requestOfPublication?,
    Store.requestOfPublication?, requests, split,
    List.find?_append, List.find?_append, List.find?_cons, List.find?_cons,
    storeReceipt_publication?_isSome]
  cases (before.find? fun rows => (rows.publication? other).isSome) with
  | some earlier => rfl
  | none =>
    rw [Option.none_or, Option.none_or]
    cases (rows.publication? other).isSome with
    | false => rfl
    | true =>
      dsimp only
      rw [Option.any_some, Option.any_some, storeReceipt_intent differs,
        storeReceipt_publication? differs]

theorem allPublications_put
    (keyed : store.Keyed) (found : store.requestOfPublication? id = some rows)
    (own : value.operationId = id) :
    (store.put (storeReceipt env rows value)).allPublications = store.allPublications.map fun row =>
        if row.id = id then settle env.now value row else row := by
  obtain ⟨before, later, split⟩ := List.append_of_mem (List.mem_of_find?_eq_some found)
  have holds := List.find?_some found
  obtain ⟨row, isRow⟩ := Option.isSome_iff_exists.mp holds
  obtain ⟨member, rfl⟩ := RequestRows.mem_of_publication? isRow
  have keys := keyed.publications
  rw [Store.allPublications, split, List.flatMap_append, List.flatMap_cons,
    List.map_append, List.map_append, List.nodup_append, List.nodup_append] at keys
  obtain ⟨_, ⟨_, _, apartLater⟩, apartBefore⟩ := keys
  have here : row.id ∈ rows.publications.map PublicationRow.id := List.mem_map_of_mem member
  -- no other request has the operation
  have untouched : ∀ table : List PublicationRow, (∀ other ∈ table, other.id ≠ row.id) →
      (table.map fun other =>
        if other.id = row.id then settle env.now value other else other) = table := by
    intro table others
    conv_rhs => rw [← List.map_id table]
    exact List.map_congr_left fun other isOther => if_neg (others other isOther)
  have requests : (store.put (storeReceipt env rows value)).requests =
      before ++ storeReceipt env rows value :: later :=
    put_split keyed.requests split rfl
  rw [Store.allPublications, requests, Store.allPublications, split, List.flatMap_append, List.flatMap_append,
    List.flatMap_cons, List.flatMap_cons, List.map_append, List.map_append,
    storeReceipt_publications, own]
  congr 1
  · exact (untouched _ fun other isOther same =>
      apartBefore _ (List.mem_map_of_mem isOther) _ (List.mem_append_left _ here) same).symm
  · congr 1
    exact (untouched _ fun other isOther same =>
      apartLater _ here _ (List.mem_map_of_mem isOther) same.symm).symm

theorem keyed_put (keyed : store.Keyed) (found : store.requestOfPublication? id = some rows)
    (own : value.operationId = id) :
    (store.put (storeReceipt env rows value)).Keyed where
  requests := by
    obtain ⟨before, later, split⟩ := List.append_of_mem (List.mem_of_find?_eq_some found)
    have requests : (store.put (storeReceipt env rows value)).requests =
        before ++ storeReceipt env rows value :: later :=
      put_split keyed.requests split rfl
    have keys := keyed.requests
    rw [split, List.map_append, List.map_cons] at keys
    rw [requests, List.map_append, List.map_cons]
    exact keys
  publications := by
    rw [allPublications_put keyed found own, List.map_map]
    have same : (store.allPublications.map (PublicationRow.id ∘ fun row =>
        if row.id = id then settle env.now value row else row)) =
        store.allPublications.map PublicationRow.id := by
      apply List.map_congr_left
      intro row _
      rw [Function.comp_apply]
      split
      · exact settle_id _ _ _
      · rfl
    rw [same]
    exact keyed.publications

end Put

/-! ## One call -/

/-- The operations of the list that can be reconciled have been bumped, and nothing
else has changed. -/
structure Bumped (call : Reconciler) (ids : List Uuid) (store store' : Store) : Prop where
  keyed : store'.Keyed
  clock : store'.clock = store.clock
  answers : ∀ id, id ∉ ids → call.answers store' id = call.answers store id
  rows : ∃ change : PublicationRow → PublicationRow,
    (∀ row, (change row).id = row.id) ∧
    (∀ row : PublicationRow, row.state.Unresolved →
      (change row).updatedAt = (call.env row.id).now) ∧
    store'.allPublications = store.allPublications.map fun row =>
      if row.id ∈ ids ∧ call.answers store row.id = true then change row else row

theorem Bumped.refl (keyed : store.Keyed) : Bumped call [] store store where
  keyed := keyed
  clock := rfl
  answers _ _ := rfl
  rows := by
    refine ⟨fun row => { row with updatedAt := (call.env row.id).now },
      fun _ => rfl, fun _ _ => rfl, ?_⟩
    simp

/-- The store after one operation. -/
theorem next_bumped (keyed : store.Keyed) {done : Reconciled} (here : done.store = store) :
    Bumped call [id] store (done.next call id).store := by
  subst here
  by_cases answers : call.answers done.store id = true
  · obtain ⟨next, reconciled⟩ := reconcilePublication_eq_ok.mpr answers
    have result : (done.next call id).store = next := by rw [Reconciled.next, reconciled]
    rw [reconcilePublication] at reconciled
    simp only [bind_eq_ok, require_eq_ok, pure_eq_ok] at reconciled
    obtain ⟨rows, found, value, answered, rfl⟩ := reconciled
    have own := reconcileUnlocked_operationId answered
    rw [result]
    exact
      { keyed := keyed_put keyed found own
        clock := rfl
        answers := fun other apart => answers_put keyed found own
          fun same => apart (List.mem_singleton.mpr same)
        rows := by
          refine ⟨fun row => settle (call.env row.id).now value row,
            fun row => settle_id _ _ row, fun row unresolved => settle_updatedAt unresolved, ?_⟩
          rw [allPublications_put keyed found own]
          apply List.map_congr_left
          intro row _
          by_cases same : row.id = id
          · subst same
            rw [if_pos rfl, if_pos ⟨List.mem_singleton_self row.id, answers⟩]
          · rw [if_neg same, if_neg fun both => same (List.mem_singleton.mp both.1)] }
  · have result : (done.next call id).store = done.store := by
      rw [Reconciled.next]
      cases reconciled : reconcilePublication call done.store id with
      | ok next => exact absurd (reconcilePublication_eq_ok.mp ⟨next, reconciled⟩) answers
      | error failure => rfl
    rw [result]
    exact
      { keyed := keyed
        clock := rfl
        answers := fun _ _ => rfl
        rows := by
          refine ⟨fun row => { row with updatedAt := (call.env row.id).now },
            fun _ => rfl, fun _ _ => rfl, ?_⟩
          conv_lhs => rw [← List.map_id done.store.allPublications]
          apply List.map_congr_left
          intro row _
          rw [if_neg]
          · rfl
          · rintro ⟨same, answer⟩
            rw [List.mem_singleton.mp same] at answer
            exact answers answer }

/-- Two operations one after the other. -/
theorem Bumped.cons {middle : Store} {ids : List Uuid} (first : Bumped call [id] store middle)
    (later : Bumped call ids middle store') (apart : id ∉ ids) :
    Bumped call (id :: ids) store store' where
  keyed := later.keyed
  clock := later.clock.trans first.clock
  answers other absent := by
    obtain ⟨differs, absent⟩ := not_or.mp (mt List.mem_cons.mpr absent)
    rw [later.answers other absent, first.answers other fun same =>
      differs (List.mem_singleton.mp same)]
  rows := by
    obtain ⟨change, keeps, bumps, rows⟩ := first.rows
    obtain ⟨change', keeps', bumps', rows'⟩ := later.rows
    refine ⟨fun row => if row.id = id then change row else change' row, ?_, ?_, ?_⟩
    · intro row
      dsimp only
      split
      · exact keeps row
      · exact keeps' row
    · intro row unresolved
      dsimp only
      split
      · exact bumps row unresolved
      · exact bumps' row unresolved
    · rw [rows', rows, List.map_map]
      apply List.map_congr_left
      intro row _
      rw [Function.comp_apply]
      dsimp only
      by_cases same : row.id = id
      · -- the operation is not in the rest of the list
        have absent : row.id ∉ ids := same ▸ apart
        have settled : ∀ other : PublicationRow, other.id = row.id →
            (if other.id ∈ ids ∧ call.answers middle other.id = true
              then change' other else other) = other :=
          fun other own => if_neg fun both => absent (own ▸ both.1)
        rw [if_pos same, settled _ (by split <;> simp [keeps])]
        simp [same]
      · have untouched : (if row.id ∈ [id] ∧ call.answers store row.id = true
            then change row else row) = row :=
          if_neg fun both => same (List.mem_singleton.mp both.1)
        rw [untouched, if_neg same, first.answers row.id fun found =>
          same (List.mem_singleton.mp found)]
        simp [same]

theorem foldl_bumped (ids : List Uuid) (distinct : ids.Nodup) (done : Reconciled)
    (keyed : done.store.Keyed) :
    Bumped call ids done.store (ids.foldl (Reconciled.next call) done).store ∧
      (ids.foldl (Reconciled.next call) done).attempted = done.attempted ++ ids := by
  induction ids generalizing done with
  | nil => exact ⟨.refl keyed, (List.append_nil _).symm⟩
  | cons id rest ih =>
    obtain ⟨apart, distinct⟩ := List.nodup_cons.mp distinct
    have first : Bumped call [id] done.store (done.next call id).store := next_bumped keyed rfl
    obtain ⟨later, attempted⟩ := ih distinct _ first.keyed
    refine ⟨first.cons later apart, ?_⟩
    have here : (done.next call id).attempted = done.attempted ++ [id] := by
      rw [Reconciled.next]
      split <;> rfl
    rw [List.foldl_cons, attempted, here, List.append_assoc]
    rfl

/-! ## The queue -/

section Queue

variable {moment : Timestamp} {row last : PublicationRow}

theorem mem_incomplete :
    row ∈ store.incomplete ↔ row ∈ store.allPublications ∧ row.state.Unresolved := by
  rw [Store.incomplete, List.mem_filter, decide_eq_true_iff]

theorem mem_incomplete_of_mem_batch (member : row ∈ store.batch) : row ∈ store.incomplete :=
  mem_oldestFirst.mp (List.mem_of_mem_take member)

theorem Store.Keyed.eq_of_id
    (keyed : store.Keyed) {other : PublicationRow} (member : row ∈ store.allPublications)
    (memberOther : other ∈ store.allPublications) (same : row.id = other.id) :
    row = other :=
  List.inj_on_of_nodup_map keyed.publications member memberOther same

theorem Store.Keyed.incomplete (keyed : store.Keyed) :
    (store.incomplete.map PublicationRow.id).Nodup :=
  keyed.publications.sublist (List.filter_sublist.map _)

theorem Store.Keyed.ages (keyed : store.Keyed) :
    (store.incomplete.map PublicationRow.age).Nodup := by
  apply List.Nodup.of_map fun age => (ofLex age).2
  rw [List.map_map]
  exact keyed.incomplete

theorem Store.Keyed.batch (keyed : store.Keyed) : (store.batch.map PublicationRow.id).Nodup := by
  have sorted : ((oldestFirst PublicationRow.age store.incomplete).map PublicationRow.id).Nodup :=
    (perm_oldestFirst.map _).nodup_iff.mpr keyed.incomplete
  exact sorted.sublist ((List.take_sublist _ _).map _)

/-- The operation of a row is in the batch when the row is. -/
theorem Store.Keyed.mem_batch (keyed : store.Keyed) (member : row ∈ store.allPublications) :
    row.id ∈ store.batch.map PublicationRow.id ↔ row ∈ store.batch := by
  constructor
  · intro found
    obtain ⟨other, taken, same⟩ := List.mem_map.mp found
    have known := (mem_incomplete.mp (mem_incomplete_of_mem_batch taken)).1
    rw [← keyed.eq_of_id known member same]
    exact taken
  · exact fun taken => List.mem_map_of_mem taken

theorem reconcile_bumped (keyed : store.Keyed) (call : Reconciler) :
    Bumped call (store.batch.map PublicationRow.id) store
        (reconcileIncompletePublications call store).store ∧
      (reconcileIncompletePublications call store).attempted = store.batch.map PublicationRow.id :=
  foldl_bumped _ keyed.batch ⟨store, 0, 0, []⟩ keyed

/-- The row is incomplete and was not updated after the moment. -/
def PublicationRow.Waits (moment : Timestamp) (row : PublicationRow) : Prop :=
  row.state.Unresolved ∧ row.updatedAt ≤ moment

instance (moment : Timestamp) (row : PublicationRow) : Decidable (row.Waits moment) :=
  inferInstanceAs (Decidable (_ ∧ _))

def Store.waiting (store : Store) (moment : Timestamp) : Nat :=
  store.allPublications.countP fun row => row.Waits moment

theorem waiting_eq (store : Store) (moment : Timestamp) :
    store.waiting moment = store.incomplete.countP fun row => row.updatedAt ≤ moment := by
  rw [Store.waiting, Store.incomplete, List.countP_filter]
  congr 1
  funext row
  simp [PublicationRow.Waits, and_comm]

/-- What is older than a waiting row was not updated after the moment either. -/
theorem updatedAt_le_of_age (older : row.age ≤ last.age) (waits : last.updatedAt ≤ moment) :
    row.updatedAt ≤ moment := by
  rcases Prod.Lex.toLex_le_toLex.mp older with less | ⟨same, _⟩
  · exact Nat.le_trans (Nat.le_of_lt less) waits
  · exact Nat.le_trans (Nat.le_of_eq same) waits

theorem age_lt_of_updatedAt (waits : row.updatedAt ≤ moment) (late : ¬ last.updatedAt ≤ moment) :
    row.age < last.age :=
  Prod.Lex.toLex_lt_toLex.mpr (.inl (Nat.lt_of_le_of_lt waits (Nat.lt_of_not_le late)))

/-- With enough waiting rows the batch consists of them. -/
theorem batch_waits (keyed : store.Keyed) (enough : reconcileLimit ≤ store.waiting moment)
    (member : row ∈ store.batch) :
    row.Waits moment := by
  have listed := mem_incomplete_of_mem_batch member
  refine ⟨(mem_incomplete.mp listed).2, ?_⟩
  by_contra late
  have few := (mem_take_oldestFirst_iff keyed.ages listed).mp member
  rw [waiting_eq] at enough
  have all : store.incomplete.countP (fun other => other.updatedAt ≤ moment) ≤
      store.incomplete.countP fun other => other.age < row.age :=
    List.countP_mono_left fun other _ waits =>
      decide_eq_true (age_lt_of_updatedAt (of_decide_eq_true waits) late)
  omega

theorem batch_length (enough : reconcileLimit ≤ store.waiting moment) :
    store.batch.length = reconcileLimit := by
  rw [waiting_eq] at enough
  have some := List.countP_le_length
    (p := fun row : PublicationRow => decide (row.updatedAt ≤ moment))
    (l := store.incomplete)
  rw [Store.batch, List.length_take, perm_oldestFirst.length_eq]
  omega

/-- A row that waits after the call waited before it and was not bumped. -/
theorem Bumped.waits_iff (keyed : store.Keyed) {change : PublicationRow → PublicationRow}
    (bumps : ∀ row : PublicationRow, row.state.Unresolved →
      (change row).updatedAt = (call.env row.id).now)
    (later : ∀ id, moment < (call.env id).now) (member : row ∈ store.allPublications) :
    (if row.id ∈ store.batch.map PublicationRow.id ∧ call.answers store row.id = true
      then change row else row).Waits moment ↔
      row.Waits moment ∧ ¬ (row.id ∈ store.batch.map PublicationRow.id ∧
        call.answers store row.id = true) := by
  split
  case isTrue moved =>
    have listed := mem_incomplete_of_mem_batch ((keyed.mem_batch member).mp moved.1)
    have time := bumps row (mem_incomplete.mp listed).2
    constructor
    · intro waits
      have early := waits.2
      rw [time] at early
      exact absurd (later row.id) (Nat.not_lt_of_le early)
    · exact fun both => absurd moved both.2
  case isFalse stays => exact ⟨fun waits => ⟨waits, stays⟩, And.left⟩

/-- A call on a long queue lets 25 operations go, less those that are held back. -/
theorem waiting_after (keyed : store.Keyed) (later : ∀ id, moment < (call.env id).now)
    (enough : reconcileLimit ≤ store.waiting moment) :
    (reconcileIncompletePublications call store).store.waiting moment + reconcileLimit =
      store.waiting moment + call.heldBack store := by
  obtain ⟨change, _, bumps, rows⟩ := (reconcile_bumped keyed call).1.rows
  have moved : store.allPublications.countP (fun row => row.Waits moment ∧
        (row.id ∈ store.batch.map PublicationRow.id ∧ call.answers store row.id = true)) =
      store.batch.countP fun row => call.answers store row.id := by
    rw [Store.batch, ← countP_take_oldestFirst keyed.incomplete.of_map, ← Store.batch,
      Store.incomplete, List.countP_filter]
    apply List.countP_congr
    intro row member
    simp only [decide_eq_true_iff, Bool.and_eq_true]
    constructor
    · rintro ⟨waits, found, answers⟩
      exact ⟨⟨(keyed.mem_batch member).mp found, answers⟩, waits.1⟩
    · rintro ⟨⟨taken, answers⟩, _⟩
      exact ⟨batch_waits keyed enough taken, (keyed.mem_batch member).mpr taken, answers⟩
  have stays : (reconcileIncompletePublications call store).store.waiting moment =
      store.allPublications.countP fun row => row.Waits moment ∧
        ¬ (row.id ∈ store.batch.map PublicationRow.id ∧ call.answers store row.id = true) := by
    rw [Store.waiting, rows, List.countP_map]
    apply List.countP_congr
    intro row member
    rw [Function.comp_apply, decide_eq_true_iff, decide_eq_true_iff]
    exact Bumped.waits_iff keyed bumps later member
  have whole := countP_by_cases (fun row : PublicationRow => row.Waits moment)
    (fun row => row.id ∈ store.batch.map PublicationRow.id ∧
      call.answers store row.id = true) store.allPublications
  have batch := List.length_eq_countP_add_countP
    (fun row : PublicationRow => call.answers store row.id) (l := store.batch)
  rw [batch_length enough] at batch
  rw [stays, show store.waiting moment = _ from whole, moved, Reconciler.heldBack]
  simp only [Bool.not_eq_true, Bool.decide_eq_false] at batch
  omega

/-- The last of the waiting rows. -/
structure Newest (store : Store) (moment : Timestamp) (last : PublicationRow) : Prop where
  member : last ∈ store.allPublications
  waits : last.Waits moment
  greatest : ∀ row ∈ store.allPublications, row.Waits moment → row.age ≤ last.age

theorem Newest.waiting (newest : Newest store moment last) (keyed : store.Keyed) :
    store.waiting moment = store.incomplete.countP (fun row => row.age < last.age) + 1 := by
  have listed : last ∈ store.incomplete := mem_incomplete.mpr ⟨newest.member, newest.waits.1⟩
  have perm := List.perm_cons_erase listed
  have nodup : store.incomplete.Nodup := keyed.incomplete.of_map
  rw [waiting_eq, perm.countP_eq, perm.countP_eq, List.countP_cons, List.countP_cons,
    if_pos (decide_eq_true newest.waits.2), if_neg (by simp)]
  congr 1
  apply List.countP_congr
  intro row member
  obtain ⟨apart, here⟩ := (nodup.mem_erase_iff).mp member
  obtain ⟨known, unresolved⟩ := mem_incomplete.mp here
  rw [decide_eq_true_iff, decide_eq_true_iff]
  constructor
  · intro early
    refine lt_of_le_of_ne (newest.greatest row known ⟨unresolved, early⟩) fun same => ?_
    exact apart (keyed.eq_of_id known newest.member (congrArg (fun age => (ofLex age).2) same))
  · exact fun older => updatedAt_le_of_age older.le newest.waits.2

/-- The last row is in the batch when the waiting rows fit into it. -/
theorem Newest.mem_batch (newest : Newest store moment last) (keyed : store.Keyed) :
    last ∈ store.batch ↔ store.waiting moment ≤ reconcileLimit := by
  have listed : last ∈ store.incomplete := mem_incomplete.mpr ⟨newest.member, newest.waits.1⟩
  rw [Store.batch, mem_take_oldestFirst_iff keyed.ages listed, newest.waiting keyed]
  omega

/-- Every waiting row goes with or before the last one. -/
theorem Newest.batch
    (newest : Newest store moment last) (keyed : store.Keyed) (taken : last ∈ store.batch)
    (member : row ∈ store.allPublications) (waits : row.Waits moment) :
    row ∈ store.batch := by
  have listed : row ∈ store.incomplete := mem_incomplete.mpr ⟨member, waits.1⟩
  have few := (mem_take_oldestFirst_iff keyed.ages (mem_incomplete_of_mem_batch taken)).mp taken
  refine (mem_take_oldestFirst_iff keyed.ages listed).mpr (lt_of_le_of_lt ?_ few)
  exact List.countP_mono_left fun other _ older =>
    decide_eq_true (lt_of_lt_of_le (of_decide_eq_true older) (newest.greatest row member waits))

/-- The last row stays the last one while it waits. -/
theorem Newest.after (newest : Newest store moment last) (keyed : store.Keyed)
    (later : ∀ id, moment < (call.env id).now) (left : last ∉ store.batch) :
    Newest (reconcileIncompletePublications call store).store moment last := by
  obtain ⟨change, _, bumps, rows⟩ := (reconcile_bumped keyed call).1.rows
  constructor
  · rw [rows]
    refine List.mem_map.mpr ⟨last, newest.member, if_neg fun moved => left ?_⟩
    exact (keyed.mem_batch newest.member).mp moved.1
  · exact newest.waits
  · rw [rows]
    intro row member waits
    obtain ⟨before, known, rfl⟩ := List.mem_map.mp member
    obtain ⟨waited, stays⟩ := (Bumped.waits_iff keyed bumps later known).mp waits
    rw [if_neg stays]
    exact newest.greatest before known waited

end Queue

/-! ## Repeated calls -/

section Calls

variable {moment : Timestamp} {row last : PublicationRow} {calls : List Reconciler}

/-- The last row is attempted in time exactly when those held back leave room. -/
theorem Newest.attempted_iff
    (newest : Newest store moment last) (keyed : store.Keyed) (rest : List Reconciler)
    (later : ∀ other ∈ call :: rest, ∀ id, moment < (other.env id).now)
    (long : reconcileLimit * rest.length < store.waiting moment) :
    last.id ∈ attemptedIn store (call :: rest) ↔
      heldBackIn store (call :: rest).dropLast + store.waiting moment ≤
        reconcileLimit * (rest.length + 1) := by
  have attempted := (reconcile_bumped keyed call).2
  induction rest generalizing store call with
  | nil =>
    rw [attemptedIn, attempted, attemptedIn, List.append_nil,
      keyed.mem_batch newest.member, newest.mem_batch keyed]
    simp [heldBackIn]
  | cons next rest ih =>
    rw [List.length_cons] at long ⊢
    have now := later call List.mem_cons_self
    have enough : reconcileLimit < store.waiting moment := by
      have room : reconcileLimit ≤ reconcileLimit * (rest.length + 1) :=
        Nat.le_mul_of_pos_right reconcileLimit (Nat.succ_pos rest.length)
      omega
    have left : last ∉ store.batch := fun taken =>
      Nat.not_le_of_lt enough ((newest.mem_batch keyed).mp taken)
    have shorter := waiting_after keyed now (Nat.le_of_lt enough)
    have keyed' := (reconcile_bumped keyed call).1.keyed
    have later' : ∀ other ∈ next :: rest, ∀ id, moment < (other.env id).now :=
      fun other member => later other (List.mem_cons_of_mem _ member)
    have turn := ih (newest.after keyed now left) keyed' later'
      (by rw [Nat.mul_succ] at long; omega) (reconcile_bumped keyed' next).2
    rw [attemptedIn, attempted, List.mem_append,
      or_iff_right (mt (keyed.mem_batch newest.member).mp left)]
    refine turn.trans ?_
    rw [List.dropLast_cons_of_ne_nil (List.cons_ne_nil _ _), heldBackIn,
      Nat.mul_succ reconcileLimit (rest.length + 1)]
    omega

/-- Every waiting row is attempted when the last one is. -/
theorem Newest.attempted (newest : Newest store moment last) (keyed : store.Keyed)
    (later : ∀ call ∈ calls, ∀ id, moment < (call.env id).now)
    (attempted : last.id ∈ attemptedIn store calls) (member : row ∈ store.allPublications)
    (waits : row.Waits moment) :
    row.id ∈ attemptedIn store calls := by
  induction calls generalizing store with
  | nil => exact absurd attempted List.not_mem_nil
  | cons call rest ih =>
    have ids := (reconcile_bumped keyed call).2
    have now := later call List.mem_cons_self
    rw [attemptedIn, ids, List.mem_append] at attempted ⊢
    by_cases taken : last ∈ store.batch
    · exact .inl ((keyed.mem_batch member).mpr (newest.batch keyed taken member waits))
    · by_cases own : row.id ∈ store.batch.map PublicationRow.id
      · exact .inl own
      · obtain ⟨change, _, _, rows⟩ := (reconcile_bumped keyed call).1.rows
        refine .inr (ih (newest.after keyed now taken) (reconcile_bumped keyed call).1.keyed
          (fun other found => later other (List.mem_cons_of_mem _ found)) ?_ ?_)
        · exact attempted.resolve_left (mt (keyed.mem_batch newest.member).mp taken)
        · rw [rows]
          exact List.mem_map.mpr ⟨row, member, if_neg fun moved => own moved.1⟩

theorem exists_newest (some : 0 < store.waiting moment) : ∃ last, Newest store moment last := by
  obtain ⟨row, member, waits⟩ := List.countP_pos_iff.mp some
  have listed : row ∈ (store.allPublications.filter fun row =>
      row.Waits moment).toFinset :=
    List.mem_toFinset.mpr (List.mem_filter.mpr ⟨member, waits⟩)
  obtain ⟨last, isLast, greatest⟩ := Finset.exists_max_image _ PublicationRow.age ⟨row, listed⟩
  obtain ⟨known, lastWaits⟩ := List.mem_filter.mp (List.mem_toFinset.mp isLast)
  refine ⟨last, known, of_decide_eq_true lastWaits, fun other found otherWaits => ?_⟩
  exact greatest other (List.mem_toFinset.mpr
    (List.mem_filter.mpr ⟨found, decide_eq_true otherWaits⟩))

/-- Twenty-five at a time, every incomplete publication is attempted in as many
calls as that takes, exactly when the operations at the head that could not be
reconciled in all calls but the last leave room for the rest. -/
theorem publications_rotate (store : Store) (keys : store.KeysUnique)
    (past : ∀ row ∈ store.incomplete, row.updatedAt ≤ store.clock)
    (calls : List Reconciler)
    (later : ∀ call ∈ calls, ∀ id, store.clock < (call.env id).now)
    (number : calls.length = (store.incomplete.length + 24) / 25) :
    (∀ row ∈ store.incomplete, row.id ∈ attemptedIn store calls) ↔
      heldBackIn store calls.dropLast + store.incomplete.length ≤
        25 * calls.length := by
  have keyed := keys.keyed
  have all : store.waiting store.clock = store.incomplete.length := by
    rw [waiting_eq]
    exact List.countP_eq_length.mpr fun row member => decide_eq_true (past row member)
  cases calls with
  | nil =>
      have none : store.incomplete = [] := by
        apply List.eq_nil_of_length_eq_zero
        rw [List.length_nil] at number
        omega
      simp [none, heldBackIn]
  | cons call rest =>
      rw [List.length_cons] at number
      have some : 0 < store.waiting store.clock := by omega
      obtain ⟨last, newest⟩ := exists_newest some
      have long : reconcileLimit * rest.length < store.waiting store.clock := by
        rw [all, reconcileLimit]
        omega
      have turn := newest.attempted_iff keyed rest later long
      rw [all] at turn
      refine Iff.trans ⟨fun every => ?_, fun attempted row member => ?_⟩ turn
      · exact every last (mem_incomplete.mpr ⟨newest.member, newest.waits.1⟩)
      · obtain ⟨known, unresolved⟩ := mem_incomplete.mp member
        exact newest.attempted keyed later attempted known ⟨unresolved, past row member⟩

end Calls

/-! ## A queue with lost artifacts -/

namespace Deployment

/-- A request whose code was sent at the moment of its number. -/
def sentRequest (artifacts : List ArtifactRow) (id : Uuid) : RequestRows where
  request :=
    { id := id
      principalKey := owner.principalKey
      idempotencyKey := "publish"
      userId := "owner"
      productId := "product"
      authSource := ⟨.bearer, some "token"⟩
      input := freeTask
      inputHash := artifactHash (.text "input")
      sourcesReadyAt := some 0
      state := .running
      version := 4
      generation := 1
      firstClaimedAt := some 0
      retryAuthorizationEventId := none
      rootMessageId := id
      replyMessageId := id
      resultId := none
      createdAt := 0
      updatedAt := id }
  candidates := []
  reservations := []
  attempts := []
  jobs := []
  events := [
    { id := id
      attemptId := none
      actor := .service none
      body := .publicationPrepared id 1 2 "repository" "main" []
      createdAt := id }]
  results := []
  artifacts := artifacts
  publications := [
    { id := id
      attemptId := id
      actionKey := ⟨id, id, 1⟩
      inputHash := artifactHash (.text "input")
      baseSha := "base"
      headSha := "head"
      branchOf := id
      mode := .branch
      expectedRemoteHead := none
      state := .sent
      remoteReceipt := none
      createdAt := id
      updatedAt := id }]
  outbox := []

def artifact (id : Uuid) : ArtifactRow where
  id := id
  attemptId := none
  key := "code"
  sha256 := artifactHash (.text "code")
  bytes := .text "code"
  byteSize := 4

/-- The artifacts of the first operations are lost; those of the last are there. -/
def queue (lost : Nat) : Store where
  requests := (List.range lost).map (sentRequest []) ++ [sentRequest [artifact 1, artifact 2] lost]
  registry := Store.empty.registry
  clock := lost

/-- A port that confirms everything. -/
def confirming (moment : Timestamp) : Reconciler where
  env _ := env moment
  port _ := some (.confirmed, none)

end Deployment

open Deployment in
/-- One lost operation leaves room for the other. -/
theorem publications_rotate_lost :
    (queue 1).incomplete.length = 2 ∧
      ∀ row ∈ (queue 1).incomplete, row.id ∈ attemptedIn (queue 1) [confirming 2] :=
  ⟨by decide, (publications_rotate (queue 1) (by decide) (by decide) [confirming 2]
    (fun _ member _ => by
      rw [List.mem_singleton.mp member]
      exact Nat.lt_succ_self 1)
    (by decide)).mpr (by decide)⟩

open Deployment in
/-- Twenty-five lost operations keep the next one, which could be confirmed, out of
every call. -/
theorem lost_operations_starve :
    ∃ row ∈ (queue 25).incomplete,
      (confirming 26).answers (queue 25) row.id = true ∧
        ∀ calls, row.id ∉ attemptedIn (queue 25) (List.replicate calls (confirming 26)) := by
  have stuck : (reconcileIncompletePublications (confirming 26) (queue 25)).store =
      queue 25 := by decide +kernel
  have ready : ∃ row ∈ (queue 25).incomplete,
      (confirming 26).answers (queue 25) row.id = true ∧
        row.id ∉ (reconcileIncompletePublications (confirming 26)
          (queue 25)).attempted := by decide +kernel
  obtain ⟨row, member, answers, left⟩ := ready
  refine ⟨row, member, answers, fun calls => ?_⟩
  induction calls with
  | zero => exact List.not_mem_nil
  | succ calls ih =>
      rw [List.replicate_succ, attemptedIn, stuck, List.mem_append]
      exact not_or.mpr ⟨left, ih⟩

end Dispatch
end Scrum4Me
