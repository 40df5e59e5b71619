import Scrum4Me.Ppe.Lane

/-!
# Generations fence the marked lane

A message is claimed while it has a current lease, which is the newest of its leases
and the one whose generation the message carries. The consumers of a lane have
consecutive generations, and all but the last are retired.
-/

namespace Scrum4Me
namespace Ppe

open Foundation
open Jobs (Moment)
open Queue (MessageRow)

/-! ## What holds in every state -/

/-- A later lease of the same message has a greater generation, and the earlier one
is over. -/
def Superseded (earlier later : LeaseRow) : Prop :=
  earlier.messageId = later.messageId →
    earlier.leaseGeneration < later.leaseGeneration ∧ earlier.status ≠ .current

/-- The consumers of a lane of a run, in the order of their registration. -/
def World.lane (world : World) (runId : String) (lane : Lane) : List ConsumerRow :=
  world.consumers.filter fun row => row.runId = runId ∧ row.lane = lane

/-- The generations are `1..k`, for a `k` up to three, and all but the last are
retired. -/
def Succession (lane : List ConsumerRow) : Prop :=
  (∃ k ≤ 3, lane.map (·.generation) = (List.range k).map (· + 1)) ∧
    lane.Pairwise fun earlier _ => earlier.status = .retired

/-- What identifies a lease, with the digest of its token. -/
def LeaseRow.key (row : LeaseRow) : String × Nat × String :=
  (row.messageId, row.leaseGeneration, row.tokenSha256)

def Grant.key (sha256 : String → String) (grant : Grant) : String × Nat × String :=
  (grant.messageId, grant.leaseGeneration, sha256 grant.claimToken)

/-- The message is claimed just when it has a current lease, and carries the
generation of that lease. -/
structure Agrees (leases : List LeaseRow) (row : MessageRow) : Prop where
  claimed : row.status = .claimed ↔
    ∃ lease ∈ leases, lease.messageId = row.id ∧ lease.status = .current
  generation : ∀ lease ∈ leases, lease.messageId = row.id →
    lease.status = .current → row.marker.leaseGeneration = some lease.leaseGeneration

/-- Claims and leases agree, tokens are those of the leases, and lanes are in
order. -/
structure Fenced (sha256 : String → String) (world : World) : Prop where
  ids : (world.messages.map (·.id)).Nodup
  agrees : ∀ row ∈ world.messages, Marked row → Agrees world.leases row
  owned : ∀ lease ∈ world.leases, lease.messageId ∈ world.messages.map (·.id)
  superseded : world.leases.Pairwise Superseded
  tokens : world.leases.map LeaseRow.key = world.grants.map (Grant.key sha256)
  keys : (world.consumers.map (·.operationKey)).Nodup
  lanes : ∀ runId lane, Succession (world.lane runId lane)

variable {sha256 : String → String} {world next : World}

/-- A message has one current lease at most. -/
theorem Fenced.one_current (fenced : Fenced sha256 world) (messageId : String) :
    world.leases.countP
      (fun lease => lease.messageId = messageId ∧ lease.status = .current) ≤ 1 := by
  refine countP_le_one (fenced.superseded.imp fun newer both => ?_)
  have first : _ ∧ _ := of_decide_eq_true both.1
  have second : _ ∧ _ := of_decide_eq_true both.2
  exact (newer (first.1.trans second.1.symm)).2 first.2

variable {lane : List ConsumerRow} {input : RegisterInput} {consumerId : String}

/-- A lane has one consumer at most that is not retired. -/
theorem Succession.one_live (succession : Succession lane) :
    lane.countP (·.status ≠ .retired) ≤ 1 := by
  refine countP_le_one (succession.2.imp fun retired both => ?_)
  have live : _ ≠ ConsumerStatus.retired := of_decide_eq_true both.1
  exact live retired

/-! ## Authority -/

/-- The stored run, orchestrator and consumer are those that the input names. -/
def World.Authorizes (world : World) (input : ConsumerAuthority) (now : Moment) : Prop :=
  (∃ run ∈ world.runs, run.runId = input.runId ∧ run.state = .active ∧
      run.generation = input.runGeneration ∧
        ∃ orchestrator ∈ world.orchestrators, orchestrator.runId = input.runId ∧
          orchestrator.status = .current ∧
            orchestrator.generation = input.orchestratorGeneration ∧
              orchestrator.fenceSha256 = input.fenceSha256 ∧
                orchestrator.ownerPrincipal = run.principal ∧
                  now < orchestrator.leaseExpiresAt) ∧
    ∃ consumer ∈ world.consumers, consumer.runId = input.runId ∧
      consumer.consumerId = input.consumerId ∧
        consumer.generation = input.consumerGeneration ∧ consumer.status = .readyAck

theorem authority?_mem
    {runId : String} {row : AuthorityRow} (found : world.authority? runId = some row) :
    row.run ∈ world.runs ∧ row.run.runId = runId ∧
      row.orchestrator ∈ world.orchestrators ∧ row.orchestrator.runId = runId ∧
        row.orchestrator.status = .current := by
  unfold World.authority? at found
  split at found
  · rename_i run orchestrator runFound orchestratorFound
    cases found
    have named := List.find?_some runFound
    have current := List.find?_some orchestratorFound
    have both : orchestrator.runId = runId ∧ _ := of_decide_eq_true current
    exact ⟨List.mem_of_find?_eq_some runFound, of_decide_eq_true named,
      List.mem_of_find?_eq_some orchestratorFound, both.1, both.2⟩
  · cases found

variable {now : Moment}

theorem lockConsumerAuthority_ok {input : ConsumerAuthority}
    (locked : lockConsumerAuthority world input now = .ok ()) :
    world.Authorizes input now := by
  simp only [lockConsumerAuthority, assertRunAuthority, bind_eq_ok, require_eq_ok,
    ensure_eq_ok] at locked
  obtain ⟨-, ⟨row, found, -, active, -, owner, fence⟩, consumer, known, ready⟩ := locked
  rw [known, Option.bind_some] at found
  obtain ⟨run, runNamed, orchestrator, named, current⟩ := authority?_mem found
  have criteria := List.find?_some known
  have both : consumer.runId = input.runId ∧ _ := of_decide_eq_true criteria
  exact ⟨⟨row.run, run, runNamed, active.1, active.2, row.orchestrator, orchestrator,
    named, current, owner.1, fence, owner.2.1, owner.2.2.2⟩,
    consumer, List.mem_of_find?_eq_some known, both.1, both.2, ready.1, ready.2⟩

/-! ## Messages and leases -/

theorem Fenced.row_unique (fenced : Fenced sha256 world) {first second : MessageRow}
    (firstMember : first ∈ world.messages) (secondMember : second ∈ world.messages)
    (same : first.id = second.id) :
    first = second :=
  List.inj_on_of_nodup_map fenced.ids firstMember secondMember same

/-- A change to one message and to its leases leaves the others in agreement. -/
theorem Fenced.agrees_of_one (fenced : Fenced sha256 world) (messageId : String)
    (rows : ∀ row ∈ next.messages, row.id ≠ messageId → row ∈ world.messages)
    (leases : ∀ lease, lease.messageId ≠ messageId → (lease ∈ next.leases ↔ lease ∈ world.leases))
    (here : ∀ row ∈ next.messages, row.id = messageId → Marked row → Agrees next.leases row) :
    ∀ row ∈ next.messages, Marked row → Agrees next.leases row := by
  intro row member marked
  by_cases same : row.id = messageId
  · exact here row member same marked
  · have before := fenced.agrees row (rows row member same) marked
    have other : ∀ {lease : LeaseRow}, lease.messageId = row.id →
        lease.messageId ≠ messageId := fun own => own ▸ same
    constructor
    · rw [before.claimed]
      constructor
      · rintro ⟨lease, inside, own, current⟩
        exact ⟨lease, (leases lease (other own)).mpr inside, own, current⟩
      · rintro ⟨lease, inside, own, current⟩
        exact ⟨lease, (leases lease (other own)).mp inside, own, current⟩
    · intro lease inside own
      exact before.generation lease ((leases lease (other own)).mp inside) own

section Identifiers

variable {matching : MessageRow → Bool} {change : MessageRow → MessageRow}
  {messages : List MessageRow}

theorem distinct_ids
    (same : ∀ row, (change row).id = row.id) (distinct : (messages.map (·.id)).Nodup) :
    ((updateWhere matching change messages).map (·.id)).Nodup := by
  rw [map_updateWhere_of_unchanged same]
  exact distinct

theorem known_id (same : ∀ row, (change row).id = row.id) {messageId : String}
    (known : messageId ∈ messages.map (·.id)) :
    messageId ∈ (updateWhere matching change messages).map (·.id) := by
  rw [map_updateWhere_of_unchanged same]
  exact known

end Identifiers

/-- Leases may change, but not their keys, and those that are over stay so. -/
theorem superseded_updateWhere
    {matching : LeaseRow → Bool} {change : LeaseRow → LeaseRow} {leases : List LeaseRow}
    (superseded : leases.Pairwise Superseded) (key : ∀ lease, (change lease).key = lease.key)
    (ended : ∀ lease, lease.status ≠ .current → (change lease).status ≠ .current) :
    (updateWhere matching change leases).Pairwise Superseded := by
  have kept : ∀ lease : LeaseRow,
      (if matching lease then change lease else lease).key = lease.key := by
    intro lease
    split
    · exact key lease
    · rfl
  refine List.pairwise_map.mpr (superseded.imp ?_)
  intro earlier later newer same
  have first := kept earlier
  have second := kept later
  simp only [LeaseRow.key, Prod.mk.injEq] at first second
  obtain ⟨less, closed⟩ := newer (first.1.symm.trans (same.trans second.1))
  refine ⟨by rw [first.2.1, second.2.1]; exact less, ?_⟩
  split
  · exact ended earlier closed
  · exact closed

theorem le_foldr_max {generations : List Nat} {generation : Nat}
    (member : generation ∈ generations) :
    generation ≤ generations.foldr max 0 := by
  induction generations with
  | nil => cases member
  | cons first rest ih =>
    rcases List.mem_cons.mp member with rfl | later
    · exact Nat.le_max_left _ _
    · exact (ih later).trans (Nat.le_max_right _ _)

theorem lt_nextLeaseGeneration {lease : LeaseRow} (member : lease ∈ world.leases) :
    lease.leaseGeneration < world.nextLeaseGeneration lease.messageId := by
  refine Nat.lt_succ_of_le (le_foldr_max (List.mem_map_of_mem ?_))
  exact List.mem_filter.mpr ⟨member, decide_eq_true rfl⟩

/-- A claim gives the message its next generation. -/
theorem fenced_claim (fenced : Fenced sha256 world) {input : ClaimInput} {token : String}
    {skipped : List String} {answer : Option Claimed}
    (done : claimMarkedMessage sha256 world input token skipped now = .ok (next, answer)) :
    Fenced sha256 next := by
  unfold claimMarkedMessage at done
  simp only [bind_eq_ok] at done
  obtain ⟨-, -, done⟩ := done
  split at done
  · cases done
    exact fenced
  rename_i message found
  simp only [insertLease, bind_eq_ok, ensure_eq_ok, pure_eq_ok] at done
  obtain ⟨_, ⟨-, unique, rfl⟩, -, -, done⟩ := done
  cases done
  have inside := List.mem_of_head? found
  rw [Queue.mem_oldestFirst, List.mem_filter] at inside
  obtain ⟨member, selected⟩ := inside
  have selects : input.Selects message ∧ _ := of_decide_eq_true selected
  have own : ∀ {row : MessageRow}, row ∈ world.messages → row.id = message.id →
      row = message := fun rowMember same => fenced.row_unique rowMember member same
  constructor
  · exact distinct_ids (fun _ => rfl) fenced.ids
  · refine fenced.agrees_of_one message.id ?_ ?_ ?_
    · intro row inside other
      rcases mem_updateWhere.mp inside with ⟨old, -, matched, rfl⟩ | ⟨kept, -⟩
      · have here : old.id = message.id ∧ _ := of_decide_eq_true matched
        exact absurd here.1 other
      · exact kept
    · intro lease other
      refine ⟨fun inside => ?_, List.mem_append_left _⟩
      rcases List.mem_append.mp inside with kept | new
      · exact kept
      · rw [List.mem_singleton.mp new] at other
        exact absurd rfl other
    · intro row inside same marked
      have claims : row.status = .claimed ∧ row.marker.leaseGeneration =
          some (world.nextLeaseGeneration message.id) := by
        rcases mem_updateWhere.mp inside with ⟨old, -, -, rfl⟩ | ⟨kept, missed⟩
        · exact ⟨rfl, rfl⟩
        · -- The message itself is matched.
          cases own kept same
          obtain ⟨-, run, -, -, consumer, generation, -, -, none, -, pending⟩ := selects.1
          exact absurd ⟨rfl, pending, run, consumer, generation, none⟩ (of_decide_eq_false missed)
      constructor
      · refine ⟨fun _ => ?_, fun _ => claims.1⟩
        exact ⟨_, List.mem_append_right _ (List.mem_singleton_self _), same.symm, rfl⟩
      · intro lease found here current
        rcases mem_inserted.mp found with old | rfl
        · exact absurd current (unique lease old (here.trans same)).2
        · exact claims.2
  · intro lease inside
    refine known_id ?_ ?_
    · exact fun _ => rfl
    · rcases mem_inserted.mp inside with old | rfl
      · exact fenced.owned lease old
      · exact List.mem_map_of_mem member
  · refine List.pairwise_append.mpr ⟨fenced.superseded, List.pairwise_singleton _ _, ?_⟩
    intro earlier old later new same
    rw [List.mem_singleton.mp new] at same ⊢
    refine ⟨?_, (unique earlier old same).2⟩
    have less := lt_nextLeaseGeneration old
    rwa [show earlier.messageId = message.id from same] at less
  · show (world.leases ++ _).map _ = (world.grants ++ _).map _
    rw [List.map_append, List.map_append, fenced.tokens]
    rfl
  · exact fenced.keys
  · exact fenced.lanes

theorem lockMarkedLease_ok {input : LeaseInput}
    (locked : lockMarkedLease sha256 world input now = .ok ()) :
    world.Authorizes input.toConsumerAuthority now ∧
      (∃ row ∈ world.messages, row.id = input.messageId ∧ row.status = .claimed ∧
        row.marker.leaseGeneration = some input.leaseGeneration) ∧
        ∃ lease ∈ world.leases, input.Leases lease ∧
          lease.tokenSha256 = sha256 input.claimToken := by
  simp only [lockMarkedLease, bind_eq_ok, ensure_eq_ok] at locked
  obtain ⟨_, authority, _, ⟨row, inside, named, status, -, -, -, generation⟩, digest⟩ := locked
  obtain ⟨lease, found, token⟩ := Option.map_eq_some_iff.mp digest
  have criteria := List.find?_some found
  have both : input.Leases lease ∧ _ := of_decide_eq_true criteria
  exact ⟨lockConsumerAuthority_ok authority, ⟨row, inside, named, status, generation⟩,
    lease, List.mem_of_find?_eq_some found, both.1, token⟩

/-- A renewal changes a time of the lease. -/
theorem fenced_renew (fenced : Fenced sha256 world) {input : LeaseInput} {answer : Bool}
    (done : renewMarkedMessage sha256 world input now = .ok (next, answer)) :
    Fenced sha256 next := by
  simp only [renewMarkedMessage, bind_eq_ok, ensure_eq_ok, pure_eq_ok] at done
  obtain ⟨-, -, -, -, done⟩ := done
  cases done
  have before : ∀ {lease : LeaseRow}, lease ∈ updateWhere (fun row => decide (input.Leases row))
      (fun row => { row with renewedAt := some now }) world.leases →
        ∃ old ∈ world.leases, old.key = lease.key ∧ old.status = lease.status := by
    intro lease inside
    rcases mem_updateWhere.mp inside with ⟨old, member, -, rfl⟩ | ⟨member, -⟩
    · exact ⟨old, member, rfl, rfl⟩
    · exact ⟨lease, member, rfl, rfl⟩
  constructor
  · exact fenced.ids
  · intro row member marked
    obtain ⟨claimed, generation⟩ := fenced.agrees row member marked
    constructor
    · rw [claimed]
      constructor
      · rintro ⟨lease, inside, own, current⟩
        by_cases matched : input.Leases lease
        · exact ⟨_, mem_updateWhere.mpr
            (.inl ⟨lease, inside, decide_eq_true matched, rfl⟩), own, current⟩
        · exact ⟨lease, mem_updateWhere.mpr (.inr ⟨inside, decide_eq_false matched⟩), own, current⟩
      · rintro ⟨lease, inside, own, current⟩
        obtain ⟨old, known, key, status⟩ := before inside
        simp only [LeaseRow.key, Prod.mk.injEq] at key
        exact ⟨old, known, key.1.trans own, status.trans current⟩
    · intro lease inside own current
      obtain ⟨old, known, key, status⟩ := before inside
      simp only [LeaseRow.key, Prod.mk.injEq] at key
      rw [← key.2.1]
      exact generation old known (key.1.trans own) (status.trans current)
  · intro lease inside
    obtain ⟨old, known, key, -⟩ := before inside
    simp only [LeaseRow.key, Prod.mk.injEq] at key
    exact key.1 ▸ fenced.owned old known
  · exact superseded_updateWhere fenced.superseded (fun _ => rfl) fun _ => id
  · refine Eq.trans (map_updateWhere_of_unchanged ?_ world.leases) fenced.tokens
    exact fun _ => rfl
  · exact fenced.keys
  · exact fenced.lanes

/-- A cancellation ends the claim and its lease together. -/
theorem fenced_cancel (fenced : Fenced sha256 world) {input : CancelInput} {answer : Bool}
    (done : cancelMarkedMessage sha256 world input now = .ok (next, answer)) :
    Fenced sha256 next := by
  unfold cancelMarkedMessage at done
  simp only [bind_eq_ok, require_eq_ok, ensure_eq_ok] at done
  obtain ⟨-, -, row, found, -, ⟨expected, -⟩, done⟩ := done
  have inside := List.mem_of_find?_eq_some found
  have criteria := List.find?_some found
  have both : row.id = input.messageId ∧ Marked row := of_decide_eq_true criteria
  obtain ⟨named, marked⟩ := both
  have agrees := fenced.agrees row inside marked
  cases input with
  | pending authority messageId =>
    simp only [bind_eq_ok, ensure_eq_ok, pure_eq_ok] at done
    obtain ⟨-, unclaimed, -, -, done⟩ := done
    cases done
    have free : ∀ lease ∈ world.leases, lease.messageId = messageId → lease.status ≠ .current := by
      intro lease member own current
      have claimed := agrees.claimed.mpr ⟨lease, member, own.trans named.symm, current⟩
      cases expected.symm.trans claimed
    constructor
    · exact distinct_ids (fun _ => rfl) fenced.ids
    · refine fenced.agrees_of_one messageId ?_ (fun _ _ => Iff.rfl) ?_
      · intro other member apart
        rcases mem_updateWhere.mp member with ⟨old, -, matched, rfl⟩ | ⟨kept, -⟩
        · have here : old.id = messageId ∧ _ := of_decide_eq_true matched
          exact absurd here.1 apart
        · exact kept
      · intro other member own _
        have status : other.status ≠ .claimed := by
          rcases mem_updateWhere.mp member with ⟨old, -, -, rfl⟩ | ⟨kept, -⟩
          · exact fun same => by cases same
          · rw [fenced.row_unique kept inside (own.trans named.symm), expected]
            exact fun same => by cases same
        constructor
        · refine ⟨fun claimed => absurd claimed status, ?_⟩
          rintro ⟨lease, found, same, current⟩
          exact absurd current (free lease found (same.trans own))
        · intro lease found same current
          exact absurd current (free lease found (same.trans own))
    · intro lease member
      refine known_id ?_ (fenced.owned lease member)
      exact fun _ => rfl
    · exact fenced.superseded
    · exact fenced.tokens
    · exact fenced.keys
    · exact fenced.lanes
  | claimed lease =>
    simp only [bind_eq_ok, ensure_eq_ok, pure_eq_ok] at done
    obtain ⟨-, carried, -, -, -, -, done⟩ := done
    cases done
    -- The current lease of the message is the one that the input names.
    have ended : ∀ row ∈ updateWhere (fun row => decide (lease.Leases row))
        (fun row => { row with status := .cancelled, finishedAt := some now })
        world.leases, row.messageId = lease.messageId → row.status ≠ .current := by
      intro other member own current
      rcases mem_updateWhere.mp member with ⟨old, -, -, rfl⟩ | ⟨kept, missed⟩
      · cases current
      · have generation := agrees.generation other kept (own.trans named.symm) current
        have same := Option.some.inj (generation.symm.trans carried)
        exact of_decide_eq_false missed ⟨own, same, current⟩
    constructor
    · exact distinct_ids (fun _ => rfl) fenced.ids
    · refine fenced.agrees_of_one lease.messageId ?_ ?_ ?_
      · intro other member apart
        rcases mem_updateWhere.mp member with ⟨old, -, matched, rfl⟩ | ⟨kept, -⟩
        · have here : old.id = lease.messageId ∧ _ := of_decide_eq_true matched
          exact absurd here.1 apart
        · exact kept
      · intro other apart
        refine mem_updateWhere_apart ?_ ?_
        · exact decide_eq_false fun matched => apart matched.1
        · rintro old - matched rfl
          have here : lease.Leases old := of_decide_eq_true matched
          exact apart here.1
      · intro other member own _
        have status : other.status ≠ .claimed := by
          rcases mem_updateWhere.mp member with ⟨old, -, -, rfl⟩ | ⟨kept, missed⟩
          · exact fun same => by cases same
          · have same := fenced.row_unique kept inside (own.trans named.symm)
            exact fun claimed => of_decide_eq_false missed ⟨own, claimed, same ▸ carried⟩
        constructor
        · refine ⟨fun claimed => absurd claimed status, ?_⟩
          rintro ⟨other', found, same, current⟩
          exact absurd current (ended other' found (same.trans own))
        · intro other' found same current
          exact absurd current (ended other' found (same.trans own))
    · intro other member
      refine known_id ?_ ?_
      · exact fun _ => rfl
      · rcases mem_updateWhere.mp member with ⟨old, kept, -, rfl⟩ | ⟨kept, -⟩
        · exact fenced.owned old kept
        · exact fenced.owned other kept
    · exact superseded_updateWhere fenced.superseded (fun _ => rfl) fun _ _ same => by cases same
    · refine Eq.trans (map_updateWhere_of_unchanged ?_ world.leases) fenced.tokens
      exact fun _ => rfl
    · exact fenced.keys
    · exact fenced.lanes

/-! ## Consumers -/

variable {answer : ConsumerRow}

/-- A registration returns the row of its key, or appends one of the next
generation. -/
theorem registerMarkedConsumer_ok
    (done : registerMarkedConsumer world input consumerId now = .ok (next, answer)) :
    (answer ∈ world.consumers ∧ answer.operationKey = input.operationKey ∧
        next = world) ∨ input.operationKey ∉ world.consumers.map (·.operationKey) ∧
        input.generation ≠ 4 ∧
          checkGeneration (world.prior? input.runId input.lane) input.generation = .ok () ∧
            next = { world with consumers := world.consumers ++ [answer] } ∧
              answer.runId = input.runId ∧ answer.lane = input.lane ∧
                answer.generation = input.generation ∧
                  answer.operationKey = input.operationKey := by
  unfold registerMarkedConsumer at done
  simp only [bind_eq_ok, ensure_eq_ok] at done
  obtain ⟨_, few, _, -, done⟩ := done
  split at done
  · rename_i row found
    simp only [bind_eq_ok, ensure_eq_ok, pure_eq_ok] at done
    obtain ⟨-, -, done⟩ := done
    cases done
    have criteria := List.find?_some found
    exact .inl ⟨List.mem_of_find?_eq_some found, of_decide_eq_true criteria, rfl⟩
  · rename_i missing
    simp only [insertConsumer, bind_eq_ok, ensure_eq_ok, pure_eq_ok] at done
    obtain ⟨_, rule, _, ⟨_, unique, rfl⟩, _, -, done⟩ := done
    cases done
    refine .inr ⟨?_, few, rule, ?_, rfl, rfl, rfl, rfl⟩
    · intro known
      obtain ⟨other, member, same⟩ := List.mem_map.mp known
      exact List.find?_eq_none.mp missing other member (decide_eq_true same)
    · -- Only the inserted row has this identifier.
      have others : ∀ row ∈ world.consumers,
          decide (row.consumerId = consumerId ∧ row.status = .registerIntent) = true →
            { row with status := .readyAck, heartbeatAt := some now } = row := by
        intro row member matched
        have both : row.consumerId = consumerId ∧ _ := of_decide_eq_true matched
        exact absurd both.1 (unique row member).1
      rw [updateWhere_append, updateWhere_eq_self others, updateWhere_cons, if_pos]
      · rfl
      · exact decide_eq_true ⟨rfl, rfl⟩

/-- The newest consumer of a lane in order has its last generation. -/
theorem Succession.append (succession : Succession lane) (few : answer.generation ≠ 4)
    (rule : checkGeneration (newestFirst (·.generation) lane).head? answer.generation = .ok ()) :
    Succession (lane ++ [answer]) := by
  obtain ⟨⟨k, bound, generations⟩, retired⟩ := succession
  have size : lane.length = k := by
    have lengths := congrArg List.length generations
    simpa using lengths
  unfold checkGeneration at rule
  split at rule
  · rename_i first
    rw [ensure_eq_ok] at rule
    rw [head?_newestFirst_eq_none] at first
    subst first
    exact ⟨⟨1, by decide, by rw [List.nil_append, List.map_singleton, rule]; rfl⟩,
      List.pairwise_singleton _ _⟩
  · rename_i prior first
    rw [ensure_eq_ok] at rule
    obtain ⟨member, newest⟩ := head?_newestFirst first
    -- Its generation is the greatest of `1..k`.
    have last : prior.generation = k := by
      have among : prior.generation ∈ (List.range k).map (· + 1) :=
        generations ▸ List.mem_map_of_mem member
      obtain ⟨before, inRange, same⟩ := List.mem_map.mp among
      have less := List.mem_range.mp inRange
      have greatest : k ∈ lane.map (·.generation) := by
        rw [generations]
        refine List.mem_map.mpr ⟨k - 1, List.mem_range.mpr ?_, ?_⟩ <;> omega
      obtain ⟨other, otherMember, equal⟩ := List.mem_map.mp greatest
      have above := newest other otherMember
      omega
    refine ⟨⟨k + 1, ?_, ?_⟩, ?_⟩
    · omega
    · rw [List.map_append, generations, List.range_succ, List.map_append,
        List.map_singleton, List.map_singleton, ← rule.1, last]
    · have increasing : lane.Pairwise fun first second =>
          first.generation < second.generation := by
        rw [← List.pairwise_map, generations]
        exact List.pairwise_map.mpr (List.pairwise_lt_range.imp Nat.succ_lt_succ)
      refine List.pairwise_append.mpr ⟨retired, List.pairwise_singleton _ _, ?_⟩
      intro earlier inside _ _
      rcases pairwise_cases (retired.and increasing) inside member with
        rfl | before | after
      · exact rule.2
      · exact before.1
      · have above := newest earlier inside
        omega

theorem fenced_register (fenced : Fenced sha256 world)
    (done : registerMarkedConsumer world input consumerId now = .ok (next, answer)) :
    Fenced sha256 next := by
  rcases registerMarkedConsumer_ok done with ⟨-, -, rfl⟩ |
    ⟨fresh, few, rule, rfl, run, lane, generation, key⟩
  · exact fenced
  · refine { fenced with keys := ?_, lanes := fun runId other => ?_ }
    · show ((world.consumers ++ [answer]).map _).Nodup
      rw [List.map_append]
      refine List.nodup_append.mpr ⟨fenced.keys, List.nodup_singleton _, ?_⟩
      intro known member _ new same
      rw [List.mem_singleton.mp new] at same
      subst same
      exact fresh (key ▸ member)
    · have before := fenced.lanes runId other
      show Succession ((world.consumers ++ [answer]).filter _)
      rw [List.filter_append, List.filter_cons, List.filter_nil]
      split
      · rename_i found
        have both : answer.runId = runId ∧ answer.lane = other := of_decide_eq_true found
        obtain ⟨rfl, rfl⟩ := both
        rw [← run, ← lane, ← generation] at rule
        exact before.append (generation ▸ few) rule
      · rw [List.append_nil]
        exact before

theorem fenced_changeConsumer
    (fenced : Fenced sha256 world) (consumerId : String) (status : ConsumerStatus) (now : Moment) :
    Fenced sha256 (execute sha256 world (.changeConsumer consumerId status now)) := by
  refine { fenced with keys := ?_, lanes := fun runId lane => ?_ }
  · show ((updateWhere _ _ world.consumers).map _).Nodup
    rw [map_updateWhere_of_unchanged]
    · exact fenced.keys
    · exact fun _ => rfl
  · obtain ⟨⟨k, bound, generations⟩, retired⟩ := fenced.lanes runId lane
    show Succession ((updateWhere _ _ world.consumers).filter _)
    rw [filter_updateWhere]
    · refine ⟨⟨k, bound, ?_⟩, List.pairwise_map.mpr (retired.imp ?_)⟩
      · rw [map_updateWhere_of_unchanged]
        · exact generations
        · exact fun _ => rfl
      · intro earlier later gone
        rw [if_neg]
        · exact gone
        · exact fun matched => (of_decide_eq_true matched).2 gone
    · exact fun _ => rfl

theorem fenced_push (fenced : Fenced sha256 world) (row : MessageRow) :
    Fenced sha256 (execute sha256 world (.push row)) := by
  unfold execute
  dsimp only
  split
  case isFalse => exact fenced
  case isTrue fresh =>
  obtain ⟨unknown, pending, unclaimed⟩ := fresh
  have unowned : ∀ lease ∈ world.leases, lease.messageId ≠ row.id := by
    rintro lease member same
    exact unknown (same ▸ fenced.owned lease member)
  refine { fenced with ids := ?_, agrees := ?_, owned := ?_ }
  · rw [List.map_append]
    refine List.nodup_append.mpr ⟨fenced.ids, List.nodup_singleton _, ?_⟩
    intro known member _ new same
    rw [List.mem_singleton.mp new] at same
    subst same
    exact unknown member
  · intro other member marked
    rcases mem_inserted.mp member with old | rfl
    · exact fenced.agrees other old marked
    · constructor
      · rw [pending]
        refine ⟨nofun, ?_⟩
        rintro ⟨lease, found, same, -⟩
        exact absurd same (unowned lease found)
      · exact fun lease found same => absurd same (unowned lease found)
  · intro lease member
    rw [List.map_append]
    exact List.mem_append_left _ (fenced.owned lease member)

/-! ## Every step -/

theorem fenced_execute (world : World) (step : Step) (fenced : Fenced sha256 world) :
    Fenced sha256 (execute sha256 world step) := by
  cases step with
  | registerMarkedConsumer input consumerId now =>
    exact commit_induction fenced fun _ _ => fenced_register fenced
  | claimMarkedMessage input token skipped now =>
    exact commit_induction fenced fun _ _ => fenced_claim fenced
  | renewMarkedMessage input now => exact commit_induction fenced fun _ _ => fenced_renew fenced
  | cancelMarkedMessage input now => exact commit_induction fenced fun _ _ => fenced_cancel fenced
  | changeRuns => exact { fenced with }
  | changeConsumer consumerId status now => exact fenced_changeConsumer fenced consumerId status now
  | push row => exact fenced_push fenced row

end Ppe
end Scrum4Me
