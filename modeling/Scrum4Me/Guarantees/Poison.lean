import Scrum4Me.Guarantees.Timeouts

/-!
# Poisoned candidates

A claim looks through the candidates of its owner, oldest request first. Most checks pass
a candidate over; the task lock and the two authorizations end the whole call instead. So
a claim succeeds exactly when it may take a candidate before which no other ends it.
-/

namespace Scrum4Me
namespace Dispatch

open Foundation

variable {env : Env} {store : Store} {actor : Actor} {session : IncarnationRow × SlotRow}
  {claimKey : String} {rows : RequestRows} {c : CandidateRow}

/-! ## One candidate -/

/-- The request is passed over before anything can end the call. -/
def PassedOver (env : Env) (rows : RequestRows) : Prop :=
  rows.request.state ≠ .reserved ∨ env.requestLocked rows.request.id = true ∨
    rows.request.firstClaimedAt ≠ none ∧ (assertRetryAuthorization rows).isOk = false

/-- The candidate is still the reservation of its request, and for this executor. -/
def Standing (i : IncarnationRow) (rows : RequestRows) (c : CandidateRow) : Prop :=
  ¬ (c.state ≠ .reserved ∨ c.generation ≠ rows.request.generation ∨ c.firstClaimedAt ≠ none ∨
    c.route = .host ∧ (c.incarnationId ≠ some i.id ∨ c.reservedSlotId ≠ i.slotId))

/-- The supervisor and the requester may still claim for the request. -/
def Authorized (env : Env) (actor : Actor) (rows : RequestRows) : Prop :=
  env.authorizeDispatch actor rows.request.input .claim = .ok () ∧
    env.authorizeDispatch (requestActor rows.request) rows.request.input .claim = .ok ()

/-- The service can sign an attempt of the candidate. -/
def Signed (env : Env) (c : CandidateRow) : Prop :=
  env.hasKey env.keyVersion = true ∧ 1 ≤ c.generation

/-- The event of the reservation, from which the context of the attempt is made. -/
def Recorded (rows : RequestRows) (c : CandidateRow) : Prop :=
  ∃ event ∈ rows.events, ∃ profileRevisionId slotId route jobId,
    event.body = .reserved c.id profileRevisionId slotId route jobId

/-- The answer can be made: where it carries a context, that was recorded. -/
def Answerable
    (env : Env) (store : Store) (actor : Actor) (session : IncarnationRow × SlotRow)
    (claimKey : String) (rows : RequestRows) (c : CandidateRow) : Prop :=
  let claimed := claimOf env rows c session claimKey
  (authorize env (store.put claimed.1) actor claimed.2 .claim).isOk = true → Recorded rows c

/-- The incarnation may claim the candidate. -/
structure MayClaim
    (env : Env) (store : Store) (actor : Actor) (session : IncarnationRow × SlotRow)
    (claimKey : String) (rows : RequestRows) (c : CandidateRow) : Prop where
  considered : ¬ PassedOver env rows
  task : env.lockManagedTask rows.request = .ok ()
  standing : Standing session.1 rows c
  authorized : Authorized env actor rows
  claimable : ClaimableBy env store actor session.1 rows c
  signed : Signed env c
  answerable : Answerable env store actor session claimKey rows c

/-- The candidate ends the call. -/
def Poisoned
    (env : Env) (store : Store) (actor : Actor) (session : IncarnationRow × SlotRow)
    (claimKey : String) (rows : RequestRows) (c : CandidateRow) : Prop :=
  ¬ PassedOver env rows ∧
    (env.lockManagedTask rows.request ≠ .ok () ∨
      Standing session.1 rows c ∧
        (¬ Authorized env actor rows ∨
          ClaimableBy env store actor session.1 rows c ∧
            (¬ Signed env c ∨ ¬ Answerable env store actor session claimKey rows c)))

/-- What the loop does with one candidate. -/
inductive Visit
    (env : Env) (store : Store) (actor : Actor) (session : IncarnationRow × SlotRow)
    (claimKey : String) (rows : RequestRows) (c : CandidateRow) (id : Uuid) : Prop
  | skips
      (visited : claimCandidate env store actor session claimKey rows id = .ok none)
      (clean : ¬ Poisoned env store actor session claimKey rows c)
      (refused : ¬ MayClaim env store actor session claimKey rows c)
  | ends (failure : Failure)
      (visited : claimCandidate env store actor session claimKey rows id = .error failure)
      (poisoned : Poisoned env store actor session claimKey rows c)
      (refused : ¬ MayClaim env store actor session claimKey rows c)
  | takes
      (visited : claimCandidate env store actor session claimKey rows id =
        .ok (some (claimOf env rows c session claimKey)))
      (standing : Standing session.1 rows c)
      (signed : Signed env c)
      (may : MayClaim env store actor session claimKey rows c ↔
        Answerable env store actor session claimKey rows c)
      (poisoned : Poisoned env store actor session claimKey rows c ↔
        ¬ Answerable env store actor session claimKey rows c)

theorem error_of_not_ok {answer : Except DispatchErrorCode Unit} (refused : answer ≠ .ok ()) :
    ∃ code, answer = .error code := by
  cases answer with
  | ok => exact absurd rfl refused
  | error code => exact ⟨code, rfl⟩

theorem visit {id : Uuid} (found : rows.candidate? id = some c) :
    Visit env store actor session claimKey rows c id := by
  have unfolded : claimCandidate env store actor session claimKey rows id =
      claimCandidate env store actor session claimKey rows id := rfl
  conv_rhs at unfolded => unfold claimCandidate
  extract_lets r i retryRefused at unfolded
  have refusal : retryRefused = true ↔ (assertRetryAuthorization rows).isOk = false := by
    simp only [retryRefused]
    cases assertRetryAuthorization rows <;> simp [Except.isOk, Except.toBool]
  by_cases passed : r.state ≠ .reserved ∨ env.requestLocked r.id = true ∨
      r.firstClaimedAt ≠ none ∧ retryRefused = true
  · rw [if_pos passed] at unfolded
    have over' : PassedOver env rows := by
      rcases passed with other | locked | ⟨claimed, refused⟩
      · exact .inl other
      · exact .inr (.inl locked)
      · exact .inr (.inr ⟨claimed, refusal.1 refused⟩)
    exact .skips unfolded (fun poisoned => poisoned.1 over') fun may => may.considered over'
  rw [if_neg passed] at unfolded
  have considered : ¬ PassedOver env rows := by
    rintro (other | locked | ⟨claimed, refused⟩)
    · exact passed (.inl other)
    · exact passed (.inr (.inl locked))
    · exact passed (.inr (.inr ⟨claimed, refusal.2 refused⟩))
  by_cases task : env.lockManagedTask rows.request = .ok ()
  case neg =>
    obtain ⟨code, failed⟩ := error_of_not_ok task
    refine .ends (.dispatch code) ?_ ⟨considered, .inl task⟩ fun may => task may.task
    rw [unfolded, failed]
    rfl
  rw [task, found] at unfolded
  dsimp only [answered, bind, Except.bind] at unfolded
  by_cases apart : c.state ≠ .reserved ∨ c.generation ≠ r.generation ∨ c.firstClaimedAt ≠ none ∨
      c.route = .host ∧ (c.incarnationId ≠ some i.id ∨ c.reservedSlotId ≠ i.slotId)
  · rw [if_pos apart] at unfolded
    refine .skips unfolded ?_ fun may => may.standing apart
    rintro ⟨-, locked | ⟨standing, -⟩⟩
    · exact locked task
    · exact standing apart
  rw [if_neg apart] at unfolded
  by_cases supervisor : env.authorizeDispatch actor rows.request.input .claim = .ok ()
  case neg =>
    obtain ⟨code, failed⟩ := error_of_not_ok supervisor
    have revoked : ¬ Authorized env actor rows := fun authorized => supervisor authorized.1
    refine .ends (.dispatch code) ?_ ⟨considered, .inr ⟨apart, .inl revoked⟩⟩
      fun may => revoked may.authorized
    rw [unfolded, failed]
  rw [supervisor] at unfolded
  by_cases requester :
      env.authorizeDispatch (requestActor rows.request) rows.request.input .claim = .ok ()
  case neg =>
    obtain ⟨code, failed⟩ := error_of_not_ok requester
    have revoked : ¬ Authorized env actor rows := fun authorized => requester authorized.2
    refine .ends (.dispatch code) ?_ ⟨considered, .inr ⟨apart, .inl revoked⟩⟩
      fun may => revoked may.authorized
    rw [unfolded, failed]
  rw [requester] at unfolded
  dsimp only at unfolded
  have authorized : Authorized env actor rows := ⟨supervisor, requester⟩
  by_cases claimable : ClaimableBy env store actor session.1 rows c
  case neg =>
    rw [if_neg claimable] at unfolded
    refine .skips unfolded ?_ fun may => claimable may.claimable
    rintro ⟨-, locked | ⟨-, revoked | ⟨taken, -⟩⟩⟩
    · exact locked task
    · exact revoked authorized
    · exact claimable taken
  rw [if_pos claimable] at unfolded
  by_cases signed : env.hasKey env.keyVersion = true ∧ 1 ≤ c.generation
  case neg =>
    refine .ends forbidden ?_ ⟨considered, .inr ⟨apart, .inr ⟨claimable, .inl signed⟩⟩⟩
      fun may => signed may.signed
    rw [unfolded, ensure, if_neg signed]
  rw [ensure, if_pos signed] at unfolded
  refine .takes unfolded apart signed ⟨MayClaim.answerable, fun answerable =>
    ⟨considered, task, apart, authorized, claimable, signed, answerable⟩⟩ ⟨?_, ?_⟩
  · rintro ⟨-, locked | ⟨-, revoked | ⟨-, unsigned | withheld⟩⟩⟩
    · exact absurd task locked
    · exact absurd authorized revoked
    · exact absurd signed unsigned
    · exact withheld
  · exact fun withheld => ⟨considered, .inr ⟨apart, .inr ⟨claimable, .inr withheld⟩⟩⟩

/-! ## The answer -/

/-- The session that the call has authenticated. -/
structure Opened (session : IncarnationRow × SlotRow) : Prop where
  present : session.1.signedOffAt = none
  enabled : session.2.enabled = true

variable {sessionCredential : Credential} {incarnationId : Uuid} {registry : Registry}

theorem opened_of_authenticated
    (authenticated : authenticateExecutorSession env registry actor incarnationId
      sessionCredential = .ok session) : Opened session := by
  simp only [authenticateExecutorSession, bind_eq_ok, require_eq_ok, ensure_eq_ok,
    pure_eq_ok] at authenticated
  obtain ⟨-, -, i, -, s, -, -, checked, rfl⟩ := authenticated
  exact ⟨checked.2.2.2.2.1, checked.2.2.2.2.2.1⟩

theorem updateJobOf_keeps (rows : RequestRows) (jobId : Option Uuid) (change : JobRow → JobRow) :
    (rows.updateJobOf jobId change).events = rows.events ∧
      (rows.updateJobOf jobId change).request = rows.request ∧
      (rows.updateJobOf jobId change).attempts = rows.attempts := by
  cases jobId <;> exact ⟨rfl, rfl, rfl⟩

theorem consumeRetryAuthorization_events (env : Env) (rows : RequestRows) (attemptId : Uuid)
    (event : EventRow) (member : event ∈ (consumeRetryAuthorization env rows attemptId).events) :
    event ∈ rows.events ∨ ∃ authorization, event.body = .retryConsumed authorization attemptId := by
  unfold consumeRetryAuthorization at member
  split at member
  · exact .inl member
  · rcases mem_inserted.mp member with old | rfl
    · exact .inl old
    · exact .inr ⟨_, rfl⟩

theorem mem_consumeRetryAuthorization (env : Env) (rows : RequestRows) (attemptId : Uuid)
    (event : EventRow) (member : event ∈ rows.events) :
    event ∈ (consumeRetryAuthorization env rows attemptId).events := by
  unfold consumeRetryAuthorization
  split
  · exact member
  · exact List.mem_append_left _ member

/-- A claim records nothing about a reservation. -/
theorem recorded_writeClaim (env : Env) (i : IncarnationRow) (claimKey : String) :
    Recorded (writeClaim env rows c i claimKey) c ↔ Recorded rows c := by
  constructor
  · rintro ⟨event, member, recorded⟩
    refine ⟨event, ?_, recorded⟩
    obtain ⟨profileRevisionId, slotId, route, jobId, body⟩ := recorded
    rcases consumeRetryAuthorization_events _ _ _ event member with before | ⟨_, consumed⟩
    · rcases List.mem_append.mp before with old | new
      · rw [(updateJobOf_keeps _ _ _).1] at old
        exact old
      · rw [List.mem_singleton.mp new] at body
        cases body
    · rw [consumed] at body
      cases body
  · rintro ⟨event, member, recorded⟩
    refine ⟨event, ?_, recorded⟩
    refine mem_consumeRetryAuthorization _ _ _ event (List.mem_append_left _ ?_)
    dsimp only
    rw [(updateJobOf_keeps _ _ _).1]
    exact member

/-- The context of the new attempt is there when the reservation was recorded. -/
theorem context_claimOf (signed : Signed env c) :
    context env (claimOf env rows c session claimKey).1
      (claimOf env rows c session claimKey).2 = .ok () ↔ Recorded rows c := by
  rw [← recorded_writeClaim env session.1 claimKey]
  simp only [context, bind_eq_ok, ensure_eq_ok, List.any_eq_true]
  constructor
  · rintro ⟨-, ⟨event, member, reserved⟩, -⟩
    refine ⟨event, member, ?_⟩
    cases body : event.body with
    | reserved candidateId profileRevisionId slotId route jobId =>
      rw [body] at reserved
      have same : candidateId = c.id := of_decide_eq_true reserved
      exact ⟨profileRevisionId, slotId, route, jobId, by rw [same]⟩
    | _ =>
      rw [body] at reserved
      exact absurd reserved Bool.false_ne_true
  · rintro ⟨event, member, profileRevisionId, slotId, route, jobId, body⟩
    refine ⟨(), ⟨event, member, ?_⟩, signed⟩
    rw [body]
    exact decide_eq_true rfl

theorem writeClaim_keeps {i : IncarnationRow} :
    (writeClaim env rows c i claimKey).request.generation = rows.request.generation ∧
      (writeClaim env rows c i claimKey).request.productId = rows.request.productId ∧
      (writeClaim env rows c i claimKey).attempts =
        rows.attempts ++ [claimedAttempt env rows c i claimKey] := by
  unfold writeClaim state consumeRetryAuthorization
  refine ⟨?_, ?_, ?_⟩
  all_goals
    dsimp only
    split
    all_goals
      dsimp only [RequestRows.announce, RequestRows.writeDispatchOutbox,
        RequestRows.insertEvent, RequestRows.setRequest]
      simp only [updateJobOf_keeps]
      rfl

/-- The new attempt is active. -/
theorem active_claimOf (opened : Opened session) (standing : Standing session.1 rows c) :
    (claimOf env rows c session claimKey).2.Active := by
  have generation : rows.request.generation = c.generation := by
    by_contra other
    exact standing (.inr (.inl fun same => other same.symm))
  exact ⟨writeClaim_keeps.1.trans generation, rfl, rfl, rfl, opened.present, opened.enabled,
    .inl rfl⟩

/-- The answer to a claim carries the new attempt, or its context cannot be made. -/
theorem receipt_claimOf (store : Store) (actor : Actor) (claimKey : String)
    (opened : Opened session) (enabled : env.enabled = true)
    (listed : rows.request.productId ∈ env.productAllowlist)
    (standing : Standing session.1 rows c) (signed : Signed env c) :
    (Answerable env store actor session claimKey rows c →
      ∃ answer, receipt env (store.put (claimOf env rows c session claimKey).1)
          (claimOf env rows c session claimKey).1 actor
          (claimOf env rows c session claimKey).2 = .ok answer ∧
        answer.attemptId = env.uuid .attempt rows.attempts.length) ∧
    (¬ Answerable env store actor session claimKey rows c →
      ∃ failure, receipt env (store.put (claimOf env rows c session claimKey).1)
          (claimOf env rows c session claimKey).1 actor
          (claimOf env rows c session claimKey).2 = .error failure) := by
  have product : (claimOf env rows c session claimKey).2.r.productId =
      rows.request.productId := writeClaim_keeps.2.1
  have live : env.enabled = true ∧
      (claimOf env rows c session claimKey).2.r.productId ∈ env.productAllowlist ∧
      (claimOf env rows c session claimKey).2.Active ∧
      (claimOf env rows c session claimKey).2.r.state.Live ∧
      (claimOf env rows c session claimKey).2.a.state.Live :=
    ⟨enabled, product ▸ listed, active_claimOf opened standing, .inl rfl, .inl rfl⟩
  have fresh : (claimOf env rows c session claimKey).2.a.state = .claimed ∧
      (claimOf env rows c session claimKey).2.r.state = .claimed ∧
      (claimOf env rows c session claimKey).2.a.scopeId = none := ⟨rfl, rfl, rfl⟩
  unfold receipt Answerable
  simp only [if_pos live, if_pos fresh]
  generalize authorize env (store.put (claimOf env rows c session claimKey).1) actor
    (claimOf env rows c session claimKey).2 .claim = granted
  cases granted with
  | error => exact ⟨fun _ => ⟨_, rfl, rfl⟩, fun withheld => absurd (fun ok => by cases ok) withheld⟩
  | ok =>
    dsimp only
    constructor
    · intro answerable
      have made : context env (claimOf env rows c session claimKey).1
          (claimOf env rows c session claimKey).2 = .ok () :=
        (context_claimOf signed).2 (answerable rfl)
      rw [made]
      exact ⟨_, rfl, rfl⟩
    · intro withheld
      cases made : context env (claimOf env rows c session claimKey).1
          (claimOf env rows c session claimKey).2 with
      | error failure => exact ⟨failure, rfl⟩
      | ok => exact absurd (fun _ => (context_claimOf signed).1 made) withheld

/-! ## The loop -/

/-- The candidates that the loop visits, each with the rows of its request. -/
abbrev Listed := List (RequestRows × Uuid)

/-- A candidate that may be claimed comes before every one that ends the call. -/
def Reaches
    (env : Env) (store : Store) (actor : Actor) (session : IncarnationRow × SlotRow)
    (claimKey : String) (listed : Listed) : Prop :=
  ∃ before pair later, listed = before ++ pair :: later ∧
    (∀ earlier ∈ before, ∀ c ∈ earlier.1.candidate? earlier.2,
      ¬ Poisoned env store actor session claimKey earlier.1 c) ∧
    ∃ c ∈ pair.1.candidate? pair.2, MayClaim env store actor session claimKey pair.1 c

variable {pair : RequestRows × Uuid} {rest listed : Listed}

theorem reaches_cons (found : pair.1.candidate? pair.2 = some c) :
    Reaches env store actor session claimKey (pair :: rest) ↔
      MayClaim env store actor session claimKey pair.1 c ∨
        ¬ Poisoned env store actor session claimKey pair.1 c ∧
          Reaches env store actor session claimKey rest := by
  constructor
  · rintro ⟨before, taken, later, split, clean, may⟩
    cases before with
    | nil =>
      obtain ⟨rfl, -⟩ := List.cons.inj split
      obtain ⟨own, same, may⟩ := may
      obtain rfl := Option.some.inj (found.symm.trans same)
      exact .inl may
    | cons first others =>
      obtain ⟨rfl, rfl⟩ := List.cons.inj split
      exact .inr ⟨clean _ List.mem_cons_self c found, others, taken, later, rfl,
        fun earlier member => clean earlier (List.mem_cons_of_mem _ member), may⟩
  · rintro (may | ⟨clean, before, taken, later, rfl, others, may⟩)
    · exact ⟨[], pair, rest, rfl, List.forall_mem_nil _, c, found, may⟩
    · refine ⟨pair :: before, taken, later, rfl, ?_, may⟩
      intro earlier member own same
      rcases List.mem_cons.mp member with rfl | inside
      · obtain rfl := Option.some.inj (found.symm.trans same)
        exact clean
      · exact others earlier inside own same

/-- The loop claims one of its candidates. -/
structure LoopClaims
    (env : Env) (store : Store) (actor : Actor) (session : IncarnationRow × SlotRow)
    (claimKey : String) (listed : Listed) (pair : RequestRows × Uuid) (c : CandidateRow) :
    Prop where
  member : pair ∈ listed
  found : pair.1.candidate? pair.2 = some c
  standing : Standing session.1 pair.1 c
  signed : Signed env c
  claimed : claimFirst env store actor session claimKey listed =
    .ok (some (claimOf env pair.1 c session claimKey))

/-- What the loop claims can be answered exactly when it reaches a candidate that may be
claimed. -/
theorem claimFirst_claims
    (env : Env) (store : Store) (actor : Actor) (session : IncarnationRow × SlotRow)
    (claimKey : String) (known : ∀ pair ∈ listed, ∃ c, pair.1.candidate? pair.2 = some c) :
    (∃ pair c, LoopClaims env store actor session claimKey listed pair c ∧
        (Answerable env store actor session claimKey pair.1 c ↔
          Reaches env store actor session claimKey listed)) ∨
      (∀ claimed, claimFirst env store actor session claimKey listed ≠ .ok (some claimed)) ∧
        ¬ Reaches env store actor session claimKey listed := by
  induction listed with
  | nil =>
    refine .inr ⟨fun claimed same => ?_, ?_⟩
    · cases same
    · rintro ⟨before, pair, later, split, -⟩
      cases before <;> cases split
  | cons pair rest ih =>
    obtain ⟨c, found⟩ := known pair List.mem_cons_self
    have later := ih fun other member => known other (List.mem_cons_of_mem _ member)
    rw [reaches_cons found]
    cases (visit found : Visit env store actor session claimKey pair.1 c pair.2) with
    | skips visited clean refused =>
      have next : claimFirst env store actor session claimKey (pair :: rest) =
          claimFirst env store actor session claimKey rest := by
        simp only [claimFirst, visited]
        rfl
      have same : MayClaim env store actor session claimKey pair.1 c ∨
          ¬ Poisoned env store actor session claimKey pair.1 c ∧
            Reaches env store actor session claimKey rest ↔
          Reaches env store actor session claimKey rest :=
        ⟨fun either => either.elim (fun may => absurd may refused) And.right,
          fun reaches => .inr ⟨clean, reaches⟩⟩
      rw [same]
      rcases later with ⟨taken, own, claims, iff⟩ | ⟨never, unreached⟩
      · exact .inl ⟨taken, own,
          { claims with
            member := List.mem_cons_of_mem _ claims.member
            claimed := next.trans claims.claimed }, iff⟩
      · exact .inr ⟨fun claimed => next ▸ never claimed, unreached⟩
    | ends failure visited poisoned refused =>
      have stops : claimFirst env store actor session claimKey (pair :: rest) = .error failure := by
        simp only [claimFirst, visited]
        rfl
      refine .inr ⟨fun claimed same => ?_, ?_⟩
      · cases stops.symm.trans same
      · rintro (may | ⟨clean, _⟩)
        · exact refused may
        · exact clean poisoned
    | takes visited standing signed may poisoned =>
      have taken : claimFirst env store actor session claimKey (pair :: rest) =
          .ok (some (claimOf env pair.1 c session claimKey)) := by
        simp only [claimFirst, visited]
        rfl
      refine .inl ⟨pair, c, ⟨List.mem_cons_self, found, standing, signed, taken⟩, ?_⟩
      rw [may, poisoned, not_not]
      exact ⟨.inl, fun either => either.elim id And.left⟩

theorem listed_known {userId : String} (member : pair ∈ claimableCandidates env store userId) :
    pair.1 ∈ store.requests ∧ pair.1.request.productId ∈ env.productAllowlist ∧
      ∃ c, pair.1.candidate? pair.2 = some c := by
  have sorted := List.mem_of_mem_take member
  rw [List.mem_insertionSort, List.mem_flatMap] at sorted
  obtain ⟨rows, inStore, inRows⟩ := sorted
  obtain ⟨c, filtered, rfl⟩ := List.mem_map.mp inRows
  obtain ⟨own, criteria⟩ := List.mem_filter.mp filtered
  have matched := of_decide_eq_true criteria
  refine ⟨inStore, matched.2.2.2.2, ?_⟩
  cases search : rows.candidate? c.id with
  | none =>
    have missed := List.find?_eq_none.mp search c own
    exact absurd (decide_eq_true rfl) missed
  | some other => exact ⟨other, rfl⟩

/-! ## The call -/

/-- The call gets as far as the candidates. -/
structure Asks
    (env : Env) (store : Store) (actor : Actor) (incarnationId : Uuid) (claimKey : String)
    (sessionCredential : Credential) (session : IncarnationRow × SlotRow) : Prop where
  key : keyValid claimKey = true
  authenticated : authenticateExecutorSession env store.registry actor incarnationId
    sessionCredential = .ok session
  fresh : priorClaim? store incarnationId claimKey = none
  enabled : env.enabled = true

/-- The call answers with a new attempt under its key. -/
def Succeeds (store : Store) (incarnationId : Uuid) (claimKey : String)
    (call : Except Failure (Option RequestRows × Option ClaimReceipt)) : Prop :=
  ∃ rows ∈ store.requests, ∃ claimed answer attempt,
    call = .ok (some claimed, some answer) ∧
      claimed.attempts = rows.attempts ++ [attempt] ∧
      attempt.id = answer.attemptId ∧ attempt.incarnationId = incarnationId ∧
      attempt.claimKey = claimKey

/-- A claim succeeds exactly when, among the listed candidates, one that the incarnation
may claim comes before every poisoned one. -/
theorem claim_succeeds_iff {incarnationId : Uuid} {sessionCredential : Credential}
    (asks : Asks env store actor incarnationId claimKey sessionCredential session) :
    Succeeds store incarnationId claimKey
        (claimDispatchAttempt env store actor incarnationId claimKey sessionCredential) ↔
      Reaches env store actor session claimKey
        (claimableCandidates env store actor.userId) := by
  have called : claimDispatchAttempt env store actor incarnationId claimKey sessionCredential =
      claimDispatchAttempt env store actor incarnationId claimKey sessionCredential := rfl
  conv_rhs at called => unfold claimDispatchAttempt
  simp only [ensure, if_pos asks.key, asks.authenticated, asks.fresh, asks.enabled,
    Bool.true_eq_false, if_false, bind, Except.bind] at called
  rcases claimFirst_claims env store actor session claimKey
      (fun pair member => (listed_known member).2.2) with
    ⟨pair, c, claims, iff⟩ | ⟨never, unreached⟩
  · obtain ⟨inStore, listed, -⟩ := listed_known claims.member
    obtain ⟨answered', withheld'⟩ := receipt_claimOf store actor claimKey
      (opened_of_authenticated asks.authenticated) asks.enabled listed
      claims.standing claims.signed
    rw [claims.claimed] at called
    dsimp only at called
    rw [← iff]
    constructor
    · intro succeeds
      by_contra withheld
      obtain ⟨failure, failed⟩ := withheld' withheld
      rw [failed] at called
      obtain ⟨_, _, _, _, _, same, _⟩ := succeeds
      cases called.symm.trans same
    · intro answerable
      obtain ⟨answer, made, named⟩ := answered' answerable
      rw [made] at called
      exact ⟨pair.1, inStore, _, answer, claimedAttempt env pair.1 c session.1 claimKey, called,
        writeClaim_keeps.2.2, named.symm,
        authenticateExecutorSession_id asks.authenticated, rfl⟩
  · refine ⟨fun succeeds => ?_, fun reaches => absurd reaches unreached⟩
    obtain ⟨_, _, _, _, _, same, _⟩ := succeeds
    cases visited : claimFirst env store actor session claimKey
        (claimableCandidates env store actor.userId) with
    | error failure =>
        rw [visited] at called
        cases called.symm.trans same
    | ok result =>
        cases result with
        | some claimed => exact absurd visited (never claimed)
        | none =>
            rw [visited] at called
            cases called.symm.trans same

namespace Deployment

/-- A profile for tasks as well. -/
def taskProfile : ProfileConfig := { profile with actions := [.freeTask, .taskImplementation] }

def task : DispatchInput :=
  { freeTask with action := .taskImplementation, taskId := some "task" }

def slot (actionId : String) : SlotInput :=
  { actionId := actionId
    ownerUserId := "owner"
    tokenId := "token"
    productId := "product"
    kind := .host
    capacityKey := actionId
    profileRevisionIds := [100] }

def executor (slotId : Uuid) (key : String) : RegisterInput :=
  { slotId := slotId
    bootId := "boot"
    runtime := .codex
    imageDigest := "image"
    profileSha256 := "profile"
    registrationKey := key }

def sources (id : Uuid) : Action :=
  .prepareSources id
    [{ key := repositorySourceKey
       bytes := .text "base"
       sha256 := artifactHash (.text "base") }] (some "repository")

/-- Two slots; the first is reserved for a task, the second for a free request. -/
def twoReserved : List Input :=
  [input 1 (.createProfile owner "codex" "product" "profile" "profile" taskProfile),
    input 2 (.createSlot owner (slot "first")),
    input 3 (.register owner (executor 200 "first")),
    input 4 (.createSlot owner (slot "second")),
    input 5 (.register owner (executor 401 "second")),
    input 6 (.submit owner task "task"),
    input 7 (sources 600),
    input 8 (.reserve 600),
    input 9 (.submit owner freeTask "free"),
    input 10 (sources 900),
    input 11 (.reserve 900)]

/-- The task is no longer dispatchable. -/
def taskTaken : Env :=
  { Deployment.env 12 with
    lockManagedTask := fun r =>
      if r.input.action = .taskImplementation then .error .stateConflict else .ok () }

end Deployment

theorem authenticated_of_toOption
    (found : (authenticateExecutorSession env registry actor incarnationId
      sessionCredential).toOption = some session) :
    authenticateExecutorSession env registry actor incarnationId sessionCredential =
      .ok session := by
  cases result : authenticateExecutorSession env registry actor incarnationId sessionCredential with
  | error =>
    rw [result] at found
    cases found
  | ok value =>
    rw [result] at found
    exact congrArg _ (Option.some.inj found)

/-- A reservation that stands, of a request that was never claimed, may be claimed. -/
theorem MayClaim.of_standing
    (reserved : rows.request.state = .reserved ∧ rows.request.firstClaimedAt = none ∧
      env.requestLocked rows.request.id = false)
    (waits : c.state = .reserved ∧ c.generation = rows.request.generation ∧
      c.firstClaimedAt = none ∧ c.incarnationId = some session.1.id ∧
      c.reservedSlotId = session.1.slotId) (task : env.lockManagedTask rows.request = .ok ())
    (authorized : Authorized env actor rows)
    (claimable : ClaimableBy env store actor session.1 rows c) (signed : Signed env c)
    (recorded : Recorded rows c) :
    MayClaim env store actor session claimKey rows c where
  considered := by
    rintro (other | locked | ⟨claimed, -⟩)
    · exact other reserved.1
    · exact Bool.false_ne_true (reserved.2.2.symm.trans locked)
    · exact claimed reserved.2.1
  task := task
  standing := by
    rintro (other | other | other | ⟨-, other | other⟩)
    · exact other waits.1
    · exact other waits.2.1
    · exact other waits.2.2.1
    · exact other waits.2.2.2.1
    · exact other waits.2.2.2.2
  authorized := authorized
  claimable := claimable
  signed := signed
  answerable := fun _ => recorded

set_option synthInstance.maxSize 400 in
open Deployment in
/-- While the task is free, the second executor claims the other request. -/
theorem claim_succeeds_second :
    Succeeds (after twoReserved) 501 "key"
      (claimDispatchAttempt (Deployment.env 12) (after twoReserved) owner 501 "key"
        (.session 501 401 "token" 1)) := by
  have ready : ∃ i ∈ (after twoReserved).registry.incarnations,
      ∃ s ∈ (after twoReserved).registry.slots,
      (authenticateExecutorSession (Deployment.env 12) (after twoReserved).registry owner 501
          (.session 501 401 "token" 1)).toOption = some (i, s) ∧
        priorClaim? (after twoReserved) 501 "key" = none ∧
        ∃ first ∈ claimableCandidates (Deployment.env 12) (after twoReserved) owner.userId,
        ∃ second ∈ claimableCandidates (Deployment.env 12) (after twoReserved) owner.userId,
        claimableCandidates (Deployment.env 12) (after twoReserved) owner.userId =
            [first, second] ∧
          (∀ c ∈ first.1.candidate? first.2, c.route = .host ∧ c.incarnationId ≠ some i.id) ∧
          ∃ c ∈ second.1.candidate? second.2,
            (second.1.request.state = .reserved ∧ second.1.request.firstClaimedAt = none) ∧
            (c.state = .reserved ∧ c.generation = second.1.request.generation ∧
              c.firstClaimedAt = none ∧ c.incarnationId = some i.id ∧
              c.reservedSlotId = i.slotId) ∧
            1 ≤ c.generation ∧
            ClaimableBy (Deployment.env 12) (after twoReserved) owner i second.1 c ∧
            ∃ event ∈ second.1.events, event.body = .reserved c.id 100 401 .host none := by
    decide +kernel
  obtain ⟨i, -, s, -, session, fresh, first, -, second, -, listed, elsewhere, c, found, reserved,
    waits, positive, claimable, event, member, body⟩ := ready
  have authenticated := authenticated_of_toOption session
  refine (claim_succeeds_iff ⟨by decide, authenticated, fresh, rfl⟩).2
    ⟨[first], second, [], listed, ?_, c, found,
      .of_standing ⟨reserved.1, reserved.2, rfl⟩ waits rfl ⟨rfl, rfl⟩ claimable
        ⟨rfl, positive⟩ ⟨event, member, _, _, _, _, body⟩⟩
  intro earlier inside own same
  rw [List.mem_singleton] at inside
  rintro ⟨-, locked | ⟨standing, -⟩⟩
  · exact locked rfl
  · obtain ⟨host, other⟩ := elsewhere own (inside ▸ same)
    exact standing (.inr (.inr (.inr ⟨host, .inl other⟩)))

open Deployment in
/-- Once the task is taken, the second executor may still claim the other request, but
its call fails on the first candidate. -/
theorem poisoned_task_blocks :
    ∃ session, Asks taskTaken (after twoReserved) owner 501 "key" (.session 501 401 "token" 1)
        session ∧
      (∃ pair ∈ claimableCandidates taskTaken (after twoReserved) owner.userId,
        ∃ c ∈ pair.1.candidate? pair.2,
          MayClaim taskTaken (after twoReserved) owner session "key" pair.1 c) ∧
      ¬ Succeeds (after twoReserved) 501 "key"
        (claimDispatchAttempt taskTaken (after twoReserved) owner 501 "key"
          (.session 501 401 "token" 1)) := by
  have ready : ∃ i ∈ (after twoReserved).registry.incarnations,
      ∃ s ∈ (after twoReserved).registry.slots,
      (authenticateExecutorSession taskTaken (after twoReserved).registry owner 501
          (.session 501 401 "token" 1)).toOption = some (i, s) ∧
        priorClaim? (after twoReserved) 501 "key" = none ∧
        ∃ pair ∈ claimableCandidates taskTaken (after twoReserved) owner.userId,
          ∃ c ∈ pair.1.candidate? pair.2,
            (pair.1.request.state = .reserved ∧ pair.1.request.firstClaimedAt = none) ∧
            (c.state = .reserved ∧ c.generation = pair.1.request.generation ∧
              c.firstClaimedAt = none ∧ c.incarnationId = some i.id ∧
              c.reservedSlotId = i.slotId) ∧
            1 ≤ c.generation ∧ pair.1.request.input.action = .freeTask ∧
            ClaimableBy taskTaken (after twoReserved) owner i pair.1 c ∧
            ∃ event ∈ pair.1.events, event.body = .reserved c.id 100 401 .host none := by
    decide +kernel
  have fails : (claimDispatchAttempt taskTaken (after twoReserved) owner 501 "key"
      (.session 501 401 "token" 1)).isOk = false := by
    decide +kernel
  obtain ⟨i, -, s, -, session, fresh, pair, listed, c, found, reserved, waits, positive, free,
    claimable, event, member, body⟩ := ready
  have task : taskTaken.lockManagedTask pair.1.request = .ok () :=
    if_neg (by rw [free]; decide)
  refine ⟨(i, s), ⟨by decide, authenticated_of_toOption session, fresh, rfl⟩,
    ⟨pair, listed, c, found, .of_standing ⟨reserved.1, reserved.2, rfl⟩ waits task ⟨rfl, rfl⟩
      claimable ⟨rfl, positive⟩ ⟨event, member, _, _, _, _, body⟩⟩, ?_⟩
  rintro ⟨_, _, _, _, _, same, _⟩
  rw [same] at fails
  exact Bool.false_ne_true fails.symm

end Dispatch
end Scrum4Me
