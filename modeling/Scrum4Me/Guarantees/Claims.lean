import Scrum4Me.Guarantees.Announcements

/-!
# One attempt per claim key, one scope per attempt

A lost response is answered again: a claim key always leads back to the attempt
that it created, and every permit of an attempt names the scope that was
recorded when it first started.
-/

namespace Scrum4Me
namespace Dispatch

open Foundation

/-! ## Claim keys -/

/-- The claim keys that a change uses up. -/
def Change.claims : Change → List ClaimKey
  | .claim _ _ _ key => [key]
  | _ => []

/-- The claim keys that an action uses up, where it makes a change. -/
def Action.claims : Action → List ClaimKey
  | .claim _ incarnationId claimKey _ =>
      [{ incarnationId := incarnationId, key := claimKey }]
  | _ => []

/-- The claim keys that the attempts of a request were created under. -/
def Life.claims (life : Life) : List ClaimKey :=
  life.attempts.map AttemptLife.claim

section Lives

variable {life life' : Life}

theorem Life.claims_setAttempt (id : Uuid) (change : AttemptLife → AttemptLife)
    (attempts : life'.attempts = (life.setAttempt id change).attempts)
    (same : ∀ row, (change row).claim = row.claim) :
    life'.claims = life.claims := by
  rw [claims, attempts]
  exact map_updateWhere_of_unchanged same life.attempts

/-- Attempts keep the keys they were created under. -/
theorem Change.claims_apply (change : Change) (life : Life) :
    (change.apply life).claims = life.claims ++ change.claims := by
  have kept : ∀ {life' : Life} (id : Uuid) (update : AttemptLife → AttemptLife),
      life'.attempts = (life.setAttempt id update).attempts →
      (∀ row, (update row).claim = row.claim) →
      life'.claims = life.claims ++ [] := by
    intro life' id update attempts same
    rw [List.append_nil]
    exact Life.claims_setAttempt id update attempts same
  cases change with
  | claim =>
    show (life.attempts ++ [_]).map AttemptLife.claim = _
    rw [List.map_append]
    rfl
  | abandon candidate =>
    refine Eq.trans ?_ (List.append_nil _).symm
    cases candidate <;> rfl
  | start x => exact kept x.attempt.id _ rfl fun _ => rfl
  | resume x => exact kept x.attempt.id _ rfl fun _ => rfl
  | lapse x => exact kept x.attempt.id _ rfl fun _ => rfl
  | requestStop x => exact kept x.attempt.id _ rfl fun _ => rfl
  | stop x => exact kept x.attempt.id _ rfl fun _ => rfl
  | finish x => exact kept x.attempt.id _ rfl fun _ => rfl
  | recover x => exact kept x.attempt.id _ rfl fun _ => rfl
  | retry x => exact kept x.attempt.id _ rfl fun _ => rfl
  | _ => exact (List.append_nil _).symm

theorem Life.claims_applyAll (life : Life) (changes : List Change) :
    (life.applyAll changes).claims = life.claims ++ changes.flatMap Change.claims := by
  induction changes generalizing life with
  | nil => exact (List.append_nil _).symm
  | cons change rest ih =>
    rw [Life.applyAll_cons, ih, change.claims_apply, List.append_assoc, List.flatMap_cons]

end Lives

theorem Change.claims_of_not_begins {change : Change} (silent : ¬ change.Begins) :
    change.claims = [] := by
  cases change with
  | claim => exact (silent trivial).elim
  | _ => rfl

/-- Only a claim uses up a key, the one it was called with. -/
theorem Action.Makes.claims
    {action : Action} {changes : List Change} (makes : action.Makes changes) :
    changes.flatMap Change.claims = action.claims := by
  have silent : (∀ change ∈ changes, ¬ change.Begins) → changes.flatMap Change.claims = [] := by
    intro silent
    rw [List.flatMap_eq_nil_iff]
    exact fun change member => Change.claims_of_not_begins (silent change member)
  cases action with
  | claim =>
    obtain ⟨candidate, slotId, attemptId, rfl⟩ := makes
    rfl
  | reserve =>
    rcases makes with rfl | ⟨candidate, result, rfl⟩ | ⟨reason, rfl⟩ |
      ⟨candidateId, slotId, route, jobId, rfl⟩ <;> rfl
  | cancel =>
    rcases Action.Makes.begins makes with begins | ⟨change, begins, rfl⟩
    · exact silent begins
    · rcases makes with none' | ⟨earlier, key, digest, path, same⟩
      · cases none'
      · have last : Change.recordCancel key digest ∈ [change] := by
          rw [same]
          exact List.mem_append_right _ (List.mem_singleton_self _)
        obtain rfl := List.mem_singleton.mp last
        exact begins.elim
  | recover => exact silent (RecoveryPath.not_begins makes)
  | submitStop => exact silent (StopPath.not_begins makes)
  | submitHistoricalStop => exact silent (StopPath.not_begins makes)
  | submitClaimBoundStop => exact silent (StopPath.not_begins makes)
  | closeSignedOff => exact silent (StopPath.not_begins makes)
  | _ =>
    refine silent ?_
    simp only [Action.Makes] at makes
    grind [Change.Begins]

section Keys

variable {env : Env} {store store' : Store} {input : Input} {answer : Answer}
  {rows rows' : RequestRows} {actor : Actor} {incarnationId : Uuid}
  {claimKey : String} {sessionCredential : Credential}

def AttemptRow.claim (a : AttemptRow) : ClaimKey :=
  { incarnationId := a.incarnationId, key := a.claimKey }

/-- The claim keys that the attempts of the store were created under. -/
def Store.claims (store : Store) : List ClaimKey :=
  store.requests.flatMap fun rows => (lifeOf rows).claims

theorem Store.mem_claims {key : ClaimKey} :
    key ∈ store.claims ↔ ∃ rows ∈ store.requests, ∃ a ∈ rows.attempts, a.claim = key := by
  simp only [Store.claims, List.mem_flatMap, Life.claims, lifeOf, List.map_map, List.mem_map]
  rfl

/-- The candidate of an attempt is in its request. -/
theorem Life.Consistent.candidate_of_attempt
    (consistent : (lifeOf rows).Consistent) {a : AttemptRow} (own : a ∈ rows.attempts) :
    (rows.candidate? a.candidateId).isSome := by
  obtain ⟨past, current, consistent⟩ := consistent
  have flat := consistent.history.flat
  obtain ⟨e, episode, attempt⟩ := flat.mem_attempts.mp (List.mem_map_of_mem own : a.life ∈ _)
  have linked := (flat.linked e episode).attempt a.life attempt
  have candidate := flat.mem_candidates.mpr ⟨e, episode, rfl⟩
  obtain ⟨c, member, same⟩ := List.mem_map.mp candidate
  rw [RequestRows.candidate?, List.find?_isSome]
  refine ⟨c, member, decide_eq_true ?_⟩
  exact (congrArg CandidateLife.id same).trans linked.symm

/-- A claim key that was used leads to its attempt. -/
theorem priorClaim?_eq_some
    {a : AttemptRow} (found : priorClaim? store incarnationId claimKey = some (rows, a)) :
    rows ∈ store.requests ∧ a ∈ rows.attempts ∧
      a.claim = { incarnationId := incarnationId, key := claimKey } := by
  obtain ⟨before, own, after, split, attempt, -⟩ := List.findSome?_eq_some_iff.mp found
  obtain ⟨b, matched, same⟩ := Option.map_eq_some_iff.mp attempt
  obtain ⟨rfl, rfl⟩ := Prod.mk.inj same
  have same := List.find?_some matched
  obtain ⟨incarnation, key, -⟩ := of_decide_eq_true same
  refine ⟨by rw [split]; simp, List.mem_of_find?_eq_some matched, ?_⟩
  rw [AttemptRow.claim, incarnation, key]

theorem priorClaim?_eq_none (consistent : ∀ rows ∈ store.requests, (lifeOf rows).Consistent)
    (missing : priorClaim? store incarnationId claimKey = none) :
    { incarnationId := incarnationId, key := claimKey } ∉ store.claims := by
  rw [Store.mem_claims]
  rintro ⟨rows, member, a, own, same⟩
  have missed := List.findSome?_eq_none_iff.mp missing rows member
  rw [Option.map_eq_none_iff, List.find?_eq_none] at missed
  obtain ⟨incarnation, key⟩ := ClaimKey.mk.inj same
  exact missed a own (decide_eq_true ⟨incarnation, key,
    (consistent rows member).candidate_of_attempt own⟩)

/-- A claim that creates an attempt was the first under its key. -/
theorem claim_fresh {receipt : Option ClaimReceipt}
    (claimed : claimDispatchAttempt env store actor incarnationId claimKey
      sessionCredential = .ok (some rows', receipt)) :
    priorClaim? store incarnationId claimKey = none := by
  simp only [claimDispatchAttempt, bind_eq_ok] at claimed
  obtain ⟨-, -, session, -, claimed⟩ := claimed
  split at claimed
  · simp only [bind_eq_ok, pure_eq_ok, Prod.mk.injEq] at claimed
    obtain ⟨-, -, -, -, noRows, -⟩ := claimed
    cases noRows
  · assumption

/-- A step uses up the key of its claim, if it had not been used. -/
theorem StoreStep.claims (step : StoreStep store input store'.requests) :
    store'.claims = store.claims ∨ store'.claims.Perm (store.claims ++ input.action.claims) := by
  have flat : ∀ requests : List RequestRows, (requests.flatMap fun rows => (lifeOf rows).claims) =
        (requests.map lifeOf).flatMap Life.claims := by
    intro requests
    rw [List.flatMap_map]
  cases step with
  | kept lives =>
    left
    rw [Store.claims, Store.claims, flat, flat, lives]
  | submitted rows life appended =>
    left
    rw [Store.claims, appended, List.flatMap_append, List.flatMap_singleton, life]
    exact List.append_nil _
  | changed before later rows rows' changes split split' sameId evolves =>
    right
    have grown : (lifeOf rows').claims = (lifeOf rows).claims ++ input.action.claims := by
      rw [evolves.refines.life, Life.claims_applyAll, evolves.makes.claims]
    rw [Store.claims, Store.claims, split, split', List.flatMap_append,
      List.flatMap_append, List.flatMap_cons, List.flatMap_cons, grown]
    grind

/-- No key is used up twice. -/
theorem Store.Sound.claims_execute
    (sound : store.Sound) (distinct : store.claims.Nodup) (input : Input) :
    (execute store input).claims.Nodup := by
  rcases sound.execute_cases input with ⟨⟨answer, committed⟩, performs⟩ | same
  · rcases performs.step.claims with same | grown
    · rw [same]
      exact distinct
    · obtain ⟨env, action⟩ := input
      cases action with
      | claim actor incarnationId claimKey sessionCredential =>
        obtain ⟨changed, transacted, -, -, same⟩ := perform_eq_ok committed
        simp only [transact, bind_eq_ok] at transacted
        obtain ⟨⟨rows?, receipt⟩, claimed, transacted⟩ := transacted
        cases rows? with
        | none =>
          obtain ⟨rfl, -⟩ := Prod.mk.inj (Except.ok.inj transacted)
          rw [same]
          exact distinct
        | some rows' =>
          rw [grown.nodup_iff, List.nodup_append]
          refine ⟨distinct, List.nodup_singleton _, ?_⟩
          rintro used member key its rfl
          obtain rfl := List.mem_singleton.mp its
          exact priorClaim?_eq_none sound.consistent (claim_fresh claimed) member
      | _ =>
        rw [grown.nodup_iff]
        exact (List.append_nil store.claims).symm ▸ distinct
  · rw [same]
    exact distinct

theorem claims_after (inputs : List Input) : (after inputs).claims.Nodup := by
  have kept := run_invariant_always (fun (state : Store) (input : Input)
        (earlier : state.Sound ∧ state.claims.Nodup) =>
      (⟨earlier.1.next input, earlier.1.claims_execute earlier.2 input⟩ :
        (execute state input).Sound ∧ (execute state input).claims.Nodup))
    (⟨Store.sound_empty, List.nodup_nil⟩ : Store.empty.Sound ∧ Store.empty.claims.Nodup) inputs
  exact kept.2

/-- The attempts of a store are told apart by their claim keys. -/
theorem attempt_of_claim
    (sound : store.Sound) (distinct : store.claims.Nodup) (member : rows ∈ store.requests)
    (member' : rows' ∈ store.requests) {a a' : AttemptRow} (own : a ∈ rows.attempts)
    (own' : a' ∈ rows'.attempts) (same : a'.claim = a.claim) :
    rows' = rows ∧ a' = a := by
  have columns : store.claims =
      (store.requests.flatMap RequestRows.attempts).map AttemptRow.claim := by
    rw [List.map_flatMap]
    simp only [Store.claims, Life.claims, lifeOf, List.map_map]
    rfl
  rw [columns] at distinct
  have inside := List.mem_flatMap.mpr ⟨rows, member, own⟩
  have inside' := List.mem_flatMap.mpr ⟨rows', member', own'⟩
  obtain rfl := List.inj_on_of_nodup_map distinct inside' inside same
  exact ⟨sound.request_of_attempt member' member own' own rfl, rfl⟩

end Keys

/-! ## Receipts -/

section Receipts

variable {env : Env} {store store' : Store} {rows rows' : RequestRows}
  {actor : Actor} {incarnationId : Uuid} {claimKey : String}
  {sessionCredential : Credential} {x : Locked} {answer : ClaimReceipt}

/-- What a receipt says, and what each authority in it rests on. -/
theorem receipt_spec (answered : receipt env store rows actor x = .ok answer) :
    answer.requestId = x.r.id ∧ answer.attemptId = x.a.id ∧
      (answer.authority ≠ .none → x.Active ∧ x.r.state.Live) ∧
      (answer.authority = .prepare → x.a.scopeId = none) ∧
      (answer.authority = .existingScope → x.a.scopeId ≠ none) := by
  simp only [receipt] at answered
  split at answered
  · rename_i authorized
    obtain ⟨-, -, active, state, -⟩ := authorized
    split at answered
    · obtain rfl := Except.ok.inj answered
      simp
    · split at answered
      · rename_i prepared
        simp only [bind_eq_ok, pure_eq_ok] at answered
        obtain ⟨-, -, rfl⟩ := answered
        exact ⟨rfl, rfl, fun _ => ⟨active, state⟩, fun _ => prepared.2.2, fun same => by cases same⟩
      · split at answered
        · rename_i started
          simp only [bind_eq_ok, pure_eq_ok] at answered
          obtain ⟨-, -, rfl⟩ := answered
          exact ⟨rfl, rfl, fun _ => ⟨active, state⟩, (fun same => by cases same), fun _ => started.1⟩
        · obtain rfl := Except.ok.inj answered
          simp
  · obtain rfl := Except.ok.inj answered
    simp

theorem writeClaim_attempts (env : Env) (rows : RequestRows) (c : CandidateRow) (i : IncarnationRow)
    (claimKey : String) :
    (writeClaim env rows c i claimKey).attempts =
      rows.attempts ++ [claimedAttempt env rows c i claimKey] := by
  unfold writeClaim
  generalize claimedAttempt env rows c i claimKey = a
  cases c.jobId <;>
    · simp only [state, RequestRows.announce, RequestRows.writeDispatchOutbox,
        consumeRetryAuthorization]
      split <;> rfl

/-- A claim that found a candidate answers for the attempt that it wrote. -/
structure FreshClaim
    (rows' : RequestRows) (x : Locked) (i : IncarnationRow) (claimKey : String) :
    Prop where
  request : x.r = rows'.request
  own : x.a ∈ rows'.attempts
  claim : x.a.claim = { incarnationId := i.id, key := claimKey }
  unscoped : x.a.scopeId = none
  incarnation : x.i = i

variable {session : IncarnationRow × SlotRow}

theorem claimCandidate_fresh {candidateId : Uuid}
    (claimed : claimCandidate env store actor session claimKey rows
      candidateId = .ok (some (rows', x))) :
    FreshClaim rows' x session.1 claimKey := by
  unfold claimCandidate at claimed
  extract_lets r i retryRefused at claimed
  split at claimed
  · cases claimed
  · simp only [bind_eq_ok] at claimed
    obtain ⟨-, -, claimed⟩ := claimed
    split at claimed
    · cases claimed
    · split at claimed
      · cases claimed
      · simp only [bind_eq_ok] at claimed
        obtain ⟨-, -, -, -, claimed⟩ := claimed
        split at claimed
        · simp only [bind_eq_ok, pure_eq_ok, Option.some.injEq, Prod.mk.injEq] at claimed
          obtain ⟨-, -, rfl, rfl⟩ := claimed
          exact
            { request := rfl
              own := by
                rw [writeClaim_attempts]
                exact List.mem_append_right _ (List.mem_singleton_self _)
              claim := rfl
              unscoped := rfl
              incarnation := rfl }
        · cases claimed

theorem claimFirst_fresh {candidates : List (RequestRows × Uuid)}
    (claimed : claimFirst env store actor session claimKey candidates = .ok (some (rows', x))) :
    FreshClaim rows' x session.1 claimKey := by
  induction candidates with
  | nil => cases claimed
  | cons candidate rest ih =>
    simp only [claimFirst, bind_eq_ok] at claimed
    obtain ⟨outcome, attempted, claimed⟩ := claimed
    cases outcome with
    | none => exact ih claimed
    | some value =>
      obtain rfl := Option.some.inj (Except.ok.inj claimed)
      exact claimCandidate_fresh attempted

/-- The rows that a claim is answered from, in the store that it leaves. -/
structure ClaimAnswered
    (store store' : Store) (key : ClaimKey) (answer : ClaimReceipt)
    (rows : RequestRows) (x : Locked) : Prop where
  member : rows ∈ store'.requests
  request : x.r = rows.request
  own : x.a ∈ rows.attempts
  claim : x.a.claim = key
  incarnation : store'.registry.incarnation? x.a.incarnationId = some x.i
  kept : store'.requests = store.requests ∨ x.a.scopeId = none
  answered : ∃ env store actor, receipt env store rows actor x = .ok answer

theorem authenticateExecutorSession_incarnation {registry : Registry}
    (authenticated : authenticateExecutorSession env registry actor
      incarnationId sessionCredential = .ok session) :
    registry.incarnation? incarnationId = some session.1 := by
  simp only [authenticateExecutorSession, bind_eq_ok, require_eq_ok, pure_eq_ok] at authenticated
  obtain ⟨-, -, i, found, s, -, -, -, rfl⟩ := authenticated
  exact found

/-- Every receipt is answered from an attempt with the claim's key. -/
theorem Store.Sound.claim_answered (sound : store.Sound) (committed : perform store
        { env := env
          action := .claim actor incarnationId claimKey sessionCredential } =
      .ok (store', .claim (some answer))) :
    ∃ rows x, ClaimAnswered store store'
      { incarnationId := incarnationId, key := claimKey } answer rows x := by
  obtain ⟨changed, transacted, -, keys, rfl⟩ := perform_eq_ok committed
  simp only [transact, bind_eq_ok] at transacted
  obtain ⟨⟨rows?, receipt⟩, claimed, transacted⟩ := transacted
  have whole := claimed
  simp only [claimDispatchAttempt, bind_eq_ok, ensure_eq_ok] at claimed
  obtain ⟨-, -, session, authenticated, claimed⟩ := claimed
  split at claimed
  · rename_i rows a prior
    simp only [bind_eq_ok, pure_eq_ok, Prod.mk.injEq] at claimed
    obtain ⟨x, locked, answer', answered, rfl, rfl⟩ := claimed
    obtain ⟨rfl, same⟩ := Prod.mk.inj (Except.ok.inj transacted)
    obtain rfl := Option.some.inj (Answer.claim.inj same)
    obtain ⟨member, own, key⟩ := priorClaim?_eq_some prior
    obtain ⟨lockedIn, named⟩ := lock_spec locked
    obtain rfl : x.a = a :=
      List.inj_on_of_nodup_map
        (RequestRows.KeysUnique.of_store sound.keys member).attempts lockedIn.a
        own named
    exact ⟨rows, x,
      { member := member
        request := lockedIn.r
        own := own
        claim := key
        incarnation := lock_incarnation locked
        kept := .inl rfl
        answered := ⟨env, _, actor, answered⟩ }⟩
  · split at claimed
    · obtain ⟨rfl, rfl⟩ := Prod.mk.inj (Except.ok.inj claimed)
      cases transacted
    · simp only [bind_eq_ok] at claimed
      obtain ⟨outcome, first, claimed⟩ := claimed
      cases outcome with
      | none =>
        obtain ⟨rfl, rfl⟩ := Prod.mk.inj (Except.ok.inj claimed)
        cases transacted
      | some value =>
        obtain ⟨rows', x⟩ := value
        simp only [bind_eq_ok, pure_eq_ok, Prod.mk.injEq] at claimed
        obtain ⟨answer', answered, rfl, rfl⟩ := claimed
        obtain ⟨rfl, same⟩ := Prod.mk.inj (Except.ok.inj transacted)
        obtain rfl := Option.some.inj (Answer.claim.inj same)
        have fresh := claimFirst_fresh first
        obtain ⟨rows, member, c, slotId, attemptId, refines⟩ :=
          claim_refines whole fun rows => keepsKeys sound.keys keys
        obtain ⟨before, later, split⟩ := List.append_of_mem member
        have incarnation := authenticateExecutorSession_incarnation authenticated
        have key := fresh.claim
        rw [authenticateExecutorSession_id authenticated] at key
        refine ⟨rows', x,
          { member := ?_
            request := fresh.request
            own := fresh.own
            claim := key
            incarnation := ?_
            kept := .inr fresh.unscoped
            answered := ⟨env, _, actor, answered⟩ }⟩
        · show rows' ∈ (store.put rows').requests
          rw [put_split sound.keys.requests split refines.sameId]
          simp
        · rw [(ClaimKey.mk.inj key).1, fresh.incarnation]
          exact incarnation

end Receipts

/-! ## Permits -/

/-- The rows of an attempt agree with what a permit for it binds. -/
structure RequestRows.Records (rows : RequestRows) (binding : StartBinding) :
    Prop where
  request : rows.request.id = binding.requestId
  candidate : ∃ c ∈ rows.candidates, c.id = binding.candidateId ∧
    c.generation = binding.generation
  attempt : ∃ a ∈ rows.attempts, a.id = binding.attemptId ∧
    a.candidateId = binding.candidateId ∧
    a.incarnationId = binding.incarnationId ∧
    a.scopeId = some binding.scope.scopeId
  scope : rows.scopesOf binding.attemptId = [binding.scope]

/-- Binding as the life of a request sees it. -/
structure Life.Binds (life : Life) (binding : StartBinding) : Prop where
  candidate : ∃ c ∈ life.candidates, c.id = binding.candidateId ∧
    c.generation = binding.generation
  attempt : ∃ a ∈ life.attempts, a.id = binding.attemptId ∧
    a.candidateId = binding.candidateId ∧
    a.claim.incarnationId = binding.incarnationId
  scope : (binding.attemptId, binding.scope) ∈ life.scopes

section Permits

variable {env : Env} {store store' : Store} {rows rows' : RequestRows}
  {input : Input} {binding binding' : StartBinding} {attemptId : Uuid}

/-- What is bound stays bound. -/
theorem Life.Later.binds
    {life life' : Life} (later : life.Later life') (binds : life.Binds binding) :
    life'.Binds binding where
  candidate := by
    obtain ⟨c, member, id, generation⟩ := binds.candidate
    obtain ⟨c', member', same⟩ := later.candidates c member
    exact ⟨c', member', same.id.trans id, same.generation.trans generation⟩
  attempt := by
    obtain ⟨a, member, id, candidateId, incarnation⟩ := binds.attempt
    obtain ⟨a', member', same⟩ := later.attempts a member
    exact ⟨a', member', same.id.trans id, same.candidateId.trans candidateId,
      (congrArg ClaimKey.incarnationId same.claim).trans incarnation⟩
  scope := later.scopes.subset binds.scope

theorem scopesOf_lifeOf (rows : RequestRows) (attemptId : Uuid) :
    (lifeOf rows).scopesOf attemptId = rows.scopesOf attemptId := rfl

/-- What the life binds, the rows record. -/
theorem Life.Binds.records
    (binds : (lifeOf rows).Binds binding) (consistent : (lifeOf rows).Consistent)
    (request : rows.request.id = binding.requestId) :
    rows.Records binding := by
  obtain ⟨past, current, consistent⟩ := consistent
  obtain ⟨c, cMember, cId, generation⟩ := binds.candidate
  obtain ⟨cRow, cOwn, rfl⟩ := List.mem_map.mp cMember
  obtain ⟨a, aMember, aId, candidateId, incarnation⟩ := binds.attempt
  obtain ⟨aRow, aOwn, rfl⟩ := List.mem_map.mp aMember
  have recorded := Life.mem_scopesOf.mpr binds.scope
  rw [← aId] at recorded
  have scoped' := consistent.scopes.recorded _ aMember
  cases scoped' with
  | unstarted _ _ events =>
    rw [events] at recorded
    cases recorded
  | started scope _ column events =>
    rw [events] at recorded
    obtain rfl := List.mem_singleton.mp recorded
    exact
      { request := request
        candidate := ⟨cRow, cOwn, cId, generation⟩
        attempt := ⟨aRow, aOwn, aId, candidateId, incarnation, column⟩
        scope := by rw [← scopesOf_lifeOf, ← aId, events] }

/-- The rows of a store record one binding for an attempt. -/
theorem Store.Sound.records_unique (sound : store.Sound) (member : rows ∈ store.requests)
    (member' : rows' ∈ store.requests) (records : rows.Records binding)
    (records' : rows'.Records binding') (same : binding'.attemptId = binding.attemptId) :
    binding' = binding := by
  obtain ⟨a, own, id, candidateId, incarnation, -⟩ := records.attempt
  obtain ⟨a', own', id', candidateId', incarnation', -⟩ := records'.attempt
  have sameId : a'.id = a.id := id'.trans (same.trans id.symm)
  obtain rfl := sound.request_of_attempt member' member own' own sameId
  have keys := RequestRows.KeysUnique.of_store sound.keys member
  obtain rfl := List.inj_on_of_nodup_map keys.attempts own' own sameId
  obtain ⟨c, cOwn, cId, generation⟩ := records.candidate
  obtain ⟨c', cOwn', cId', generation'⟩ := records'.candidate
  have sameCandidate : c'.id = c.id :=
    cId'.trans (candidateId'.symm.trans (candidateId.trans cId.symm))
  obtain rfl := List.inj_on_of_nodup_map keys.candidates cOwn' cOwn sameCandidate
  have request := records'.request.symm.trans records.request
  have scope := records.scope
  rw [← same, records'.scope, List.singleton_inj] at scope
  obtain ⟨⟨_, _, _, _, _⟩, _⟩ := binding
  obtain ⟨⟨_, _, _, _, _⟩, _⟩ := binding'
  simp_all

/-- The attempt may execute: it was not revoked, its incarnation has not signed
off, and its request is live. -/
def Store.Authorizes (store : Store) (attemptId : Uuid) : Prop :=
  ∃ rows ∈ store.requests, rows.request.state.Live ∧
    ∃ a ∈ rows.attempts, a.id = attemptId ∧ a.revokedAt = none ∧
      ∃ i ∈ store.registry.incarnation? a.incarnationId, i.signedOffAt = none

theorem Store.Authorizes.of_active
    {x : Locked} (member : rows ∈ store.requests) (request : x.r = rows.request)
    (own : x.a ∈ rows.attempts)
    (incarnation : store.registry.incarnation? x.a.incarnationId = some x.i)
    (active : x.Active) (state : x.r.state.Live) :
    store.Authorizes x.a.id := by
  obtain ⟨-, -, -, notRevoked, present, -⟩ := active
  rw [request] at state
  exact ⟨rows, member, state, x.a, own, rfl, notRevoked, x.i, incarnation, present⟩

/-- A permit binds what its transaction leaves on record, and is handed out for
an attempt that may execute, before the transaction and after it. -/
theorem Store.Sound.permit_binds {permit : StartPermit} (sound : store.Sound)
    (committed : perform store input = .ok (store', .permit permit)) :
    (∃ rows ∈ store'.requests, rows.request.id = permit.binding.requestId ∧
        (lifeOf rows).Binds permit.binding) ∧ store.Authorizes permit.binding.attemptId ∧
      store'.Authorizes permit.binding.attemptId := by
  obtain ⟨rows, rows', actor, proof, scope, member, -, started, rfl⟩ := permit_of_perform committed
  obtain ⟨x, lockedIn, -, incarnation, active, state, bound, outcome⟩ := start_spec started
  have live : x.r.state.Live := state.imp_right .inl
  have authorized : store.Authorizes x.a.id :=
    .of_active member lockedIn.r lockedIn.a incarnation active live
  have candidate : x.c.life ∈ (lifeOf rows).candidates := List.mem_map_of_mem lockedIn.c
  have attempt : x.a.life ∈ (lifeOf rows).attempts := List.mem_map_of_mem lockedIn.a
  rw [bound]
  rcases outcome with ⟨rfl, -, recorded⟩ | rfl
  · obtain ⟨before, later, split⟩ := List.append_of_mem member
    have unchanged : (store.put rows').requests = store.requests := by
      rw [put_split sound.keys.requests split rfl, split]
    refine ⟨⟨rows', ?_, ?_, ?_⟩, authorized, ?_⟩
    · exact unchanged ▸ member
    · rw [← lockedIn.r]
      rfl
    · refine ⟨⟨_, candidate, rfl, rfl⟩, ⟨_, attempt, rfl, lockedIn.linked, rfl⟩, ?_⟩
      rw [← Life.mem_scopesOf, scopesOf_lifeOf]
      exact recorded ▸ List.mem_singleton_self scope
    · exact .of_active (unchanged ▸ member) lockedIn.r lockedIn.a incarnation active live
  · have life := writeStart_life input.env rows x scope
    have sameId := sameId_of_life life rfl
    obtain ⟨before, later, split⟩ := List.append_of_mem member
    have member' : writeStart input.env rows x scope ∈
        (store.put (writeStart input.env rows x scope)).requests := by
      rw [put_split sound.keys.requests split sameId]
      simp
    refine ⟨⟨_, member', ?_, ?_⟩, authorized, _, member', ?_, ?_⟩
    · rw [sameId, ← lockedIn.r]
      rfl
    · rw [life]
      have later := (Change.start x.execution scope).later (lifeOf rows)
      obtain ⟨c, cMember, same⟩ := later.candidates _ candidate
      obtain ⟨a, aMember, same'⟩ := later.attempts _ attempt
      exact ⟨⟨c, cMember, same.id, same.generation⟩,
        ⟨a, aMember, same'.id, same'.candidateId.trans lockedIn.linked,
          congrArg ClaimKey.incarnationId same'.claim⟩,
        List.mem_append_right _ (List.mem_singleton_self _)⟩
    · have running := congrArg Life.state life
      exact .inr (.inl running)
    · exact ⟨_, mem_writeStart lockedIn.a, rfl, active.2.2.2.1, x.i, incarnation, active.2.2.2.2.1⟩

end Permits

/-! ## Scopes -/

/-- No scope is on record for the attempt. -/
def Store.Unscoped (store : Store) (attemptId : Uuid) : Prop :=
  ∀ rows ∈ store.requests, rows.scopesOf attemptId = [] ∧
    ∀ a ∈ rows.attempts, a.id = attemptId → a.scopeId = none

section Scopes

variable {store store' : Store} {rows : RequestRows} {a : AttemptRow}
  {earlier inputs : List Input} {attemptId : Uuid}

/-- The column of an attempt tells whether a scope is on record. -/
theorem Store.Sound.unscoped_iff
    (sound : store.Sound) (member : rows ∈ store.requests) (own : a ∈ rows.attempts) :
    store.Unscoped a.id ↔ a.scopeId = none := by
  refine ⟨fun unscoped => (unscoped rows member).2 a own rfl, ?_⟩
  intro column other inStore
  have only : ∀ b ∈ other.attempts, b.id = a.id → other = rows ∧ b = a := by
    intro b inside sameId
    obtain rfl := sound.request_of_attempt inStore member inside own sameId
    exact ⟨rfl, List.inj_on_of_nodup_map
      (RequestRows.KeysUnique.of_store sound.keys member).attempts inside own
      sameId⟩
  constructor
  · rw [List.eq_nil_iff_forall_not_mem]
    intro scope recorded
    obtain ⟨past, current, consistent⟩ := sound.consistent other inStore
    have entry : (a.id, scope) ∈ (lifeOf other).scopes := Life.mem_scopesOf.mp recorded
    obtain ⟨b, inside, named⟩ := List.mem_map.mp (consistent.scopes.known _ entry)
    obtain ⟨row, rowOwn, rfl⟩ := List.mem_map.mp inside
    obtain ⟨rfl, rfl⟩ := only row rowOwn named
    cases consistent.scopes.recorded _ inside with
    | unstarted _ _ events =>
      have none' : other.scopesOf row.id = [] := events
      rw [none'] at recorded
      cases recorded
    | started scope _ named =>
      have some' : row.scopeId = some scope.scopeId := named
      rw [column] at some'
      cases some'
  · intro b inside sameId
    rw [(only b inside sameId).2]
    exact column

/-- A scope that is on record stays there. -/
theorem unscoped_earlier
    (isPrefix : earlier <+: inputs) (unscoped : (after inputs).Unscoped attemptId)
    (member : rows ∈ (after earlier).requests) (own : a ∈ rows.attempts)
    (named : a.id = attemptId) :
    a.scopeId = none := by
  obtain ⟨rest, same⟩ := run_of_prefix isPrefix
  obtain ⟨rows', member', -, later⟩ := (sound_after earlier).exists_later rest member
  rw [← same] at member'
  have none' := (unscoped rows' member').1
  obtain ⟨past, current, consistent⟩ := (sound_after earlier).consistent rows member
  have attempt : a.life ∈ (lifeOf rows).attempts := List.mem_map_of_mem own
  cases consistent.scopes.recorded _ attempt with
  | unstarted _ column => exact column
  | started scope _ _ events =>
    have recorded : scope ∈ (lifeOf rows).scopesOf a.life.id := by
      rw [events]
      exact List.mem_singleton_self scope
    have kept : scope ∈ rows'.scopesOf a.id :=
      Life.mem_scopesOf.mpr (later.scopes.subset (Life.mem_scopesOf.mp recorded))
    rw [named, none'] at kept
    cases kept

end Scopes

/-! ## Along a run -/

/-- A claim with a key that was used is answered for the attempt that the key
created, and changes nothing. -/
theorem Store.Sound.claim_again
    {store store' : Store} {rows : RequestRows} {a : AttemptRow} {env : Env}
    {actor : Actor} {sessionCredential : Credential} {answer : Answer}
    (sound : store.Sound) (distinct : store.claims.Nodup) (member : rows ∈ store.requests)
    (own : a ∈ rows.attempts) (committed : perform store
        { env := env
          action :=
            .claim actor a.incarnationId a.claimKey sessionCredential } =
      .ok (store', answer)) :
    store'.requests = store.requests ∧ ∃ receipt : ClaimReceipt, answer = .claim (some receipt) ∧
        receipt.requestId = rows.request.id ∧ receipt.attemptId = a.id := by
  obtain ⟨changed, transacted, -, -, rfl⟩ := perform_eq_ok committed
  simp only [transact, bind_eq_ok] at transacted
  obtain ⟨⟨rows?, receipt⟩, claimed, transacted⟩ := transacted
  simp only [claimDispatchAttempt, bind_eq_ok, ensure_eq_ok] at claimed
  obtain ⟨-, -, session, -, claimed⟩ := claimed
  split at claimed
  · rename_i found b prior
    simp only [bind_eq_ok, pure_eq_ok, Prod.mk.injEq] at claimed
    obtain ⟨x, locked, answer', answered, rfl, rfl⟩ := claimed
    obtain ⟨rfl, rfl⟩ := Prod.mk.inj (Except.ok.inj transacted)
    obtain ⟨member', own', key⟩ := priorClaim?_eq_some prior
    obtain ⟨rfl, rfl⟩ := attempt_of_claim sound distinct member member' own own' key
    obtain ⟨lockedIn, named⟩ := lock_spec locked
    obtain ⟨request, attempt, -⟩ := receipt_spec answered
    rw [lockedIn.r] at request
    exact ⟨rfl, answer', rfl, request, attempt.trans named⟩
  · rename_i unused
    exact (priorClaim?_eq_none sound.consistent unused
      (Store.mem_claims.mpr ⟨rows, member, a, own, rfl⟩)).elim

/-- What a run shows of its claims, its scopes and what it hands out. -/
structure ClaimsBounded (inputs : List Input) : Prop where
  /-- A claim key creates one attempt. -/
  single : ∀ rows ∈ (after inputs).requests, ∀ a ∈ rows.attempts,
    ∀ rows' ∈ (after inputs).requests, ∀ a' ∈ rows'.attempts,
      a'.incarnationId = a.incarnationId → a'.claimKey = a.claimKey →
        rows' = rows ∧ a' = a
  /-- A claim with a used key is answered for the attempt of the key. -/
  replayed : ∀ rows ∈ (after inputs).requests, ∀ a ∈ rows.attempts,
    ∀ env actor sessionCredential store answer,
      perform (after inputs)
          { env := env
            action :=
              .claim actor a.incarnationId a.claimKey sessionCredential } =
        .ok (store, answer) →
      store.requests = (after inputs).requests ∧
        ∃ receipt : ClaimReceipt, answer = .claim (some receipt) ∧
          receipt.requestId = rows.request.id ∧ receipt.attemptId = a.id
  /-- Every permit that was signed names what is on record for its attempt. -/
  recorded : ∀ earlier input store permit, earlier ++ [input] <+: inputs →
    perform (after earlier) input = .ok (store, .permit permit) →
      ∃ rows ∈ (after inputs).requests, rows.Records permit.binding
  /-- All permits of an attempt bind the same. -/
  oneScope : ∀ earlier input store permit, earlier ++ [input] <+: inputs →
    perform (after earlier) input = .ok (store, .permit permit) →
    ∀ earlier' input' store' permit', earlier' ++ [input'] <+: inputs →
      perform (after earlier') input' = .ok (store', .permit permit') →
        permit'.binding.attemptId = permit.binding.attemptId →
          permit'.binding = permit.binding
  /-- To prepare is answered only while no scope is on record. -/
  prepared : ∀ input store receipt,
    perform (after inputs) input = .ok (store, .claim (some receipt)) →
      receipt.authority = .prepare → store.Unscoped receipt.attemptId
  /-- Once a claim could be answered with a scope, none is told to prepare. -/
  committed : ∀ earlier, earlier <+: inputs →
    ∀ input store receipt,
      perform (after earlier) input = .ok (store, .claim (some receipt)) →
        receipt.authority = .existingScope →
    ∀ input' store' receipt',
      perform (after inputs) input' = .ok (store', .claim (some receipt')) →
        receipt'.attemptId = receipt.attemptId →
          receipt'.authority ≠ .prepare
  /-- A context is handed out for an attempt that may execute. -/
  context : ∀ input store receipt,
    perform (after inputs) input = .ok (store, .claim (some receipt)) →
      receipt.authority ≠ .none → store.Authorizes receipt.attemptId
  /-- So is a permit, before its transaction and after it. -/
  permit : ∀ input store permit,
    perform (after inputs) input = .ok (store, .permit permit) →
      (after inputs).Authorizes permit.binding.attemptId ∧
        store.Authorizes permit.binding.attemptId

section Runs

variable {earlier inputs : List Input} {input : Input} {store : Store}
  {receipt : ClaimReceipt} {permit : StartPermit}

/-- The rows that any receipt was answered from. -/
theorem Store.Sound.receipt_answered {store store' : Store} (sound : store.Sound)
    (committed : perform store input = .ok (store', .claim (some receipt))) :
    ∃ key rows x, ClaimAnswered store store' key receipt rows x := by
  obtain ⟨actor, incarnationId, claimKey, sessionCredential, action⟩ := claim_of_perform committed
  obtain ⟨env, _⟩ := input
  obtain rfl := action
  exact ⟨_, sound.claim_answered committed⟩

theorem sound_of_perform
    {answer : Answer} (committed : perform (after inputs) input = .ok (store, answer)) :
    store.Sound := by
  rw [← after_next committed]
  exact sound_after _

/-- A permit that was signed is on record ever after. -/
theorem recorded_later (signed : perform (after earlier) input = .ok (store, .permit permit))
    (isPrefix : earlier ++ [input] <+: inputs) :
    ∃ rows ∈ (after inputs).requests, rows.Records permit.binding := by
  obtain ⟨⟨rows, member, request, binds⟩, -⟩ := (sound_after earlier).permit_binds signed
  rw [← after_next signed] at member
  obtain ⟨rest, same⟩ := run_of_prefix isPrefix
  obtain ⟨rows', member', sameId, later⟩ :=
    (sound_after (earlier ++ [input])).exists_later rest member
  rw [← same] at member'
  exact ⟨rows', member', (later.binds binds).records
    ((sound_after inputs).consistent rows' member') (sameId.trans request)⟩

/-- To prepare is answered while no scope is on record. -/
theorem unscoped_of_prepare (committed : perform (after inputs) input =
      .ok (store, .claim (some receipt))) (prepare : receipt.authority = .prepare) :
    store.Unscoped receipt.attemptId := by
  obtain ⟨key, rows, x, claimed⟩ := (sound_after inputs).receipt_answered committed
  obtain ⟨env, _, actor, answered⟩ := claimed.answered
  obtain ⟨-, attempt, -, unscoped, -⟩ := receipt_spec answered
  rw [attempt]
  exact ((sound_of_perform committed).unscoped_iff claimed.member
    claimed.own).mpr (unscoped prepare)

/-- A claim answered with a scope is of an attempt that had one before. -/
theorem scope_of_existing (committed : perform (after inputs) input =
      .ok (store, .claim (some receipt))) (existing : receipt.authority = .existingScope) :
    ∃ rows ∈ (after inputs).requests, ∃ a ∈ rows.attempts,
      a.id = receipt.attemptId ∧ a.scopeId ≠ none := by
  obtain ⟨key, rows, x, claimed⟩ := (sound_after inputs).receipt_answered committed
  obtain ⟨env, _, actor, answered⟩ := claimed.answered
  obtain ⟨-, attempt, -, -, scope⟩ := receipt_spec answered
  rcases claimed.kept with same | unscoped
  · exact ⟨rows, same ▸ claimed.member, x.a, claimed.own, attempt.symm, scope existing⟩
  · exact (scope existing unscoped).elim

theorem claims_bounded (inputs : List Input) : ClaimsBounded inputs where
  single := by
    intro rows member a own rows' member' a' own' incarnation key
    refine attempt_of_claim (sound_after inputs) (claims_after inputs) member
      member' own own' ?_
    rw [AttemptRow.claim, AttemptRow.claim, incarnation, key]
  replayed := by
    intro rows member a own env actor sessionCredential store answer committed
    exact (sound_after inputs).claim_again (claims_after inputs) member own
      committed
  recorded := by
    intro earlier input store permit isPrefix signed
    exact recorded_later signed isPrefix
  oneScope := by
    intro earlier input store permit isPrefix signed earlier' input' store'
      permit' isPrefix' signed' same
    obtain ⟨rows, member, records⟩ := recorded_later signed isPrefix
    obtain ⟨rows', member', records'⟩ := recorded_later signed' isPrefix'
    exact (sound_after inputs).records_unique member member' records records'
      same
  prepared := by
    intro input store receipt committed prepare
    exact unscoped_of_prepare committed prepare
  committed := by
    intro earlier isPrefix input store receipt committed existing input' store'
      receipt' committed' same prepare
    obtain ⟨rows, member, a, own, named, scope⟩ :=
      scope_of_existing committed existing
    have unscoped := unscoped_of_prepare committed' prepare
    rw [← after_next committed', same] at unscoped
    exact scope (unscoped_earlier (isPrefix.trans (List.prefix_append _ _))
      unscoped member own named)
  context := by
    intro input store receipt committed authority
    obtain ⟨key, rows, x, claimed⟩ :=
      (sound_after inputs).receipt_answered committed
    obtain ⟨env, _, actor, answered⟩ := claimed.answered
    obtain ⟨-, attempt, active, -⟩ := receipt_spec answered
    obtain ⟨active, state⟩ := active authority
    rw [attempt]
    exact .of_active claimed.member claimed.request claimed.own
      claimed.incarnation active state
  permit := by
    intro input store permit committed
    exact ((sound_after inputs).permit_binds committed).2

/-- The running attempt is claimed again: its supervisor gets the attempt that
the key created, and is not told to prepare. -/
theorem claims_deployment :
    ∃ store receipt,
      perform (after Deployment.running) (Deployment.input 9
            (.claim Deployment.owner 300 "first" Deployment.session)) =
        .ok (store, .claim (some receipt)) ∧
      receipt.attemptId = 700 ∧ receipt.authority = .existingScope ∧
        store.Authorizes 700 := by
  have answered : ∃ receipt : ClaimReceipt,
      ((perform (after Deployment.running) (Deployment.input 9 (.claim Deployment.owner 300 "first"
          Deployment.session))).toOption.map Prod.snd) =
            some (.claim (some receipt)) ∧
        receipt.attemptId = 700 ∧ receipt.authority = .existingScope :=
    ⟨{ requestId := 400
       attemptId := 700
       requestState := .running
       attemptState := .running
       authority := .existingScope
       scopeId := some "scope" }, by decide +kernel, rfl, rfl⟩
  obtain ⟨receipt, replied, attempt, authority⟩ := answered
  cases committed : perform (after Deployment.running)
      (Deployment.input 9 (.claim Deployment.owner 300 "first"
        Deployment.session)) with
  | error =>
      rw [committed] at replied
      cases replied
  | ok value =>
      obtain ⟨store, answer⟩ := value
      rw [committed] at replied
      obtain rfl : answer = .claim (some receipt) := Option.some.inj replied
      have authorized := (claims_bounded Deployment.running).context _ _ _
        committed (by rw [authority]; decide)
      exact ⟨store, receipt, rfl, attempt, authority, attempt ▸ authorized⟩

end Runs

end Dispatch
end Scrum4Me
