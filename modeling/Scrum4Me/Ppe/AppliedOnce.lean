import Scrum4Me.Ppe.Operations

/-!
# A fenced mutation is applied at most once

Nothing in the product database records the operation key, so all depends on the
receipt: while every mutation that commits goes on to commit its receipt, no key is
applied twice, and a repeated call is answered from the receipt.
-/

namespace Scrum4Me
namespace Ppe
namespace Operations

open Foundation

/-! ## The condition -/

/-- A mutation commits only while its call is connected to the controller, and while
its result can be stored; and a call whose mutation is committed neither ends nor
loses its connection before its receipt is committed. -/
def Step.Recorded (world : World) : Step → Prop
  | mutate id generated =>
      ∀ call ∈ world.calls, call.id = id → call.stage.isLocked = true →
        (call.request.mutate generated world.product).isOk = true →
          call.connected = true ∧ world.product.Representable
  | disconnect id =>
      ∀ call ∈ world.calls, call.id = id → call.stage.isMutated = false
  | fail id => ∀ call ∈ world.calls, call.id = id → call.stage.isMutated = false
  | _ => True

instance (world : World) (step : Step) : Decidable (step.Recorded world) := by
  apply @Step.casesOn (fun step => Decidable (step.Recorded world)) step <;>
    intros <;> dsimp only [Step.Recorded] <;> infer_instance

/-! ## What is promised -/

/-- The commit is one of this run and this key. -/
def Commit.Under (runId operationKey : String) (commit : Commit) : Prop :=
  commit.ppe.runId = runId ∧ commit.ppe.operationKey = operationKey

instance (runId operationKey : String) (commit : Commit) :
    Decidable (commit.Under runId operationKey) :=
  inferInstanceAs (Decidable (_ ∧ _))

/-- The same key with the same payload. -/
structure Commit.Repeats
    (commit : Commit) (ppe : PpeMutationInput) (request : Request) :
    Prop where
  under : commit.Under ppe.runId ppe.operationKey
  payload : commit.ppe.payloadHash = ppe.payloadHash
  kind : commit.request.operationKind = request.operationKind

/-- The same principal names the same receipts as its authority. -/
structure PpeMutationInput.SameAuthority (first second : PpeMutationInput) : Prop where
  run : first.runId = second.runId
  principal : first.orchestratorId = second.orchestratorId
  plan : first.planAuthorityOperationKey = second.planAuthorityOperationKey
  start : first.jpStartOperationKey = second.jpStartOperationKey

/-- The same key with another payload. -/
def Commit.Clashes (commit : Commit) (ppe : PpeMutationInput) (request : Request) :
    Prop :=
  commit.Under ppe.runId ppe.operationKey ∧
    ¬ (commit.ppe.payloadHash = ppe.payloadHash ∧
      commit.request.operationKind = request.operationKind)

/-- The call is about to take the locks. -/
structure World.Enters (world : World) (call : Call) : Prop where
  member : call ∈ world.calls
  waiting : call.stage = .waiting
  connected : call.connected = true
  free : world.Free call.ppe

/-- Every receipt of a mutation is that of a commit, and passes the check. -/
def World.Receipted (sha256 : String → String) (world : World) : Prop :=
  ∀ row ∈ world.receipts, row.kind ∈ operationKinds →
    ∃ commit ∈ world.commits, commit.Under row.runId row.operationKey ∧
      commit.ppe.payloadHash = row.payloadSha256 ∧
        commit.request.operationKind = row.kind ∧
          validateReceipt sha256 row = .ok
            { payloadSha256 := row.payloadSha256
              kind := row.kind
              result := commit.result }

/-- Mutations are applied at most once: a repeated call is answered with the result of
the commit, as long as its fence is current, and a call with another payload leaves
nothing but its error. -/
structure World.AppliedOnce (sha256 : String → String) (world : World) : Prop where
  once : ∀ runId operationKey,
    world.commits.countP (fun commit => commit.Under runId operationKey) ≤ 1
  repeated : ∀ call, world.Enters call → ∀ commit ∈ world.commits,
    commit.Repeats call.ppe call.request →
      assertFence world.runs world.orchestrators call.ppe = .ok () →
        commit.ppe.SameAuthority call.ppe ∨
            assertAuthority sha256 world.receipts call.ppe call.request.authority =
              .ok () →
          execute sha256 world (.lock call.id) = world.finished call (.ok commit.result)
  clashed : ∀ call, world.Enters call → ∀ commit ∈ world.commits,
    commit.Clashes call.ppe call.request →
      ∃ error, execute sha256 world (.lock call.id) = world.finished call (.error error)
  answered : ∀ answer ∈ world.answers, ∀ result, answer.outcome = .ok result →
    ∃ commit ∈ world.commits, commit.Repeats answer.ppe answer.request ∧
      commit.result = result
  receipted : world.Receipted sha256

/-! ## What every state satisfies -/

/-- The row of a commit. -/
def Commit.row (sha256 : String → String) (commit : Commit) : ReceiptRow where
  runId := commit.ppe.runId
  operationKey := commit.ppe.operationKey
  payloadSha256 := commit.ppe.payloadHash
  kind := commit.request.operationKind
  status := "COMMITTED"
  receiptJson := receiptOf commit.ppe commit.request commit.result
  receiptSha256 := sha256 (receiptOf commit.ppe commit.request commit.result).render

/-- The payload of a commit has its digest, and its receipt a canonical form. -/
structure Commit.Valid (sha256 : String → String) (commit : Commit) : Prop where
  hashed : sha256PpeJcs sha256 (payloadOf commit.ppe commit.request) =
    .ok commit.ppe.payloadHash
  storable : (receiptOf commit.ppe commit.request commit.result).Safe

/-- The mutation of a call. -/
def Call.commit (call : Call) (result : Json) : Commit :=
  ⟨call.ppe, call.request, result⟩

/-- What a call knows: under the locks there is no receipt of its key yet, and before
its mutation no commit either. -/
structure Call.Sound
    (sha256 : String → String) (receipts : List ReceiptRow) (commits : List Commit)
    (call : Call) :
    Prop where
  hashed : sha256PpeJcs sha256 (payloadOf call.ppe call.request) =
    .ok call.ppe.payloadHash
  connected : call.stage.isMutated = true → call.connected = true
  authorized : (call.stage.isLocked || call.stage.isMutated) = true →
    assertAuthority sha256 receipts call.ppe call.request.authority = .ok ()
  unrecorded : call.Holds →
    ∀ row ∈ receipts, ¬ row.Under call.ppe.runId call.ppe.operationKey
  uncommitted : call.Holds → call.stage.isLocked = true →
    ∀ commit ∈ commits, ¬ commit.Under call.ppe.runId call.ppe.operationKey
  pending : ∀ result, call.stage = .mutated result → call.commit result ∈ commits

/-- A commit has its receipt, or its call is still under way. -/
def World.Settles (sha256 : String → String) (world : World) (commit : Commit) : Prop :=
  commit.row sha256 ∈ world.receipts ∨
    ∃ call ∈ world.calls, ∃ result, call.stage = .mutated result ∧
      call.commit result = commit

structure Sound (sha256 : String → String) (world : World) : Prop where
  ids : (world.calls.map (·.id)).Nodup
  apart : ∀ first ∈ world.calls, ∀ second ∈ world.calls, first.id ≠ second.id →
    first.Holds → second.Holds → first.ppe.runId ≠ second.ppe.runId
  calls : ∀ call ∈ world.calls, call.Sound sha256 world.receipts world.commits
  settled : ∀ commit ∈ world.commits, world.Settles sha256 commit
  valid : ∀ commit ∈ world.commits, commit.Valid sha256
  authorized : ∀ commit ∈ world.commits,
    assertAuthority sha256 world.receipts commit.ppe commit.request.authority = .ok ()
  once : world.commits.Pairwise fun first second =>
    ¬ second.Under first.ppe.runId first.ppe.operationKey
  keys : world.receipts.Pairwise fun first second =>
    ¬ second.Under first.runId first.operationKey
  rows : ∀ row ∈ world.receipts, row.kind ∈ operationKinds →
    ∃ commit ∈ world.commits, row = commit.row sha256
  answered : ∀ answer ∈ world.answers, ∀ result, answer.outcome = .ok result →
    ∃ commit ∈ world.commits, commit.Repeats answer.ppe answer.request ∧
      commit.result = result

variable {sha256 : String → String} {world : World}

theorem sound_initial
    (runs : List RunRow) (orchestrators : List OrchestratorRow) (product : Product) :
    Sound sha256 (World.initial runs orchestrators product) where
  ids := List.nodup_nil
  apart := List.forall_mem_nil _
  calls := List.forall_mem_nil _
  settled := List.forall_mem_nil _
  valid := List.forall_mem_nil _
  authorized := List.forall_mem_nil _
  once := List.Pairwise.nil
  keys := List.Pairwise.nil
  rows := List.forall_mem_nil _
  answered := List.forall_mem_nil _

/-! ## Single facts -/

variable {call : Call} {id : Nat} {receipts : List ReceiptRow} {change : Call → Call}
  {commit : Commit} {result : Json}

theorem validateReceipt_row (valid : commit.Valid sha256) :
    validateReceipt sha256 (commit.row sha256) = .ok
      { payloadSha256 := commit.ppe.payloadHash
        kind := commit.request.operationKind
        result := commit.result } :=
  @validateReceipt_of_stored _ (commit.row sha256) _ _ valid.hashed rfl
    (sha256PpeJcs_ok.mpr ⟨valid.storable, rfl⟩) rfl

theorem operationKind_mem (request : Request) : request.operationKind ∈ operationKinds := by
  cases request <;> simp [Request.operationKind, operationKinds]

/-- The receipt that is found under the key of a commit is that of the commit. -/
theorem Sound.lookup (sound : Sound sha256 world) (member : commit ∈ world.commits)
    (recorded : commit.row sha256 ∈ world.receipts) {ppe : PpeMutationInput}
    (under : commit.Under ppe.runId ppe.operationKey) :
    lookupReceipt sha256 world.receipts ppe.runId ppe.operationKey = .ok (some
      { payloadSha256 := commit.ppe.payloadHash
        kind := commit.request.operationKind
        result := commit.result }) := by
  have found : world.receipts.find? (fun row => row.Under ppe.runId ppe.operationKey) =
      some (commit.row sha256) := by
    refine find?_eq_some_of_unique recorded (decide_eq_true under) ?_
    intro other inside found
    have same := of_decide_eq_true found
    rcases pairwise_cases sound.keys inside recorded with equal | before | after
    · exact equal
    · exact absurd ⟨under.1.trans same.1.symm, under.2.trans same.2.symm⟩ before
    · exact absurd ⟨same.1.trans under.1.symm, same.2.trans under.2.symm⟩ after
  rw [lookupReceipt, found]
  show some <$> validateReceipt sha256 _ = _
  rw [validateReceipt_row (sound.valid commit member)]
  rfl

/-- While nobody holds the run, every commit under it has its receipt. -/
theorem Sound.recorded_of_free
    (sound : Sound sha256 world) {ppe : PpeMutationInput} (free : world.Free ppe)
    (member : commit ∈ world.commits) (run : commit.ppe.runId = ppe.runId) :
    commit.row sha256 ∈ world.receipts := by
  rcases sound.settled commit member with recorded | ⟨call, inside, result, stage, rfl⟩
  · exact recorded
  · have mutated : call.stage.isMutated = true := by rw [stage]; rfl
    have holds : call.Holds :=
      ⟨(sound.calls call inside).connected mutated, by rw [mutated, Bool.or_true]⟩
    exact absurd run (free call inside holds).2

/-! ## Changing a call -/

theorem call?_eq_some (found : world.call? id = some call) : call ∈ world.calls ∧ call.id = id :=
  ⟨List.mem_of_find?_eq_some found, by simpa using List.find?_some found⟩

theorem Sound.mem_changed (sound : Sound sha256 world) {other : Call}
    (found : world.call? id = some call)
    (member : other ∈ updateWhere (·.id = id) change world.calls) :
    other = change call ∨ other ∈ world.calls ∧ other.id ≠ id := by
  obtain ⟨known, own⟩ := call?_eq_some found
  rcases mem_updateWhere.mp member with ⟨old, inside, same, rfl⟩ | ⟨inside, missed⟩
  · have equal : old = call := List.inj_on_of_nodup_map sound.ids inside known
      ((of_decide_eq_true same).trans own.symm)
    exact .inl (equal ▸ rfl)
  · exact .inr ⟨inside, of_decide_eq_false missed⟩

/-- A call keeps its locks, or takes them when they are free. -/
theorem Sound.apart_changed (sound : Sound sha256 world)
    (found : world.call? id = some call) (ppe : (change call).ppe = call.ppe)
    (holds : (change call).Holds → call.Holds ∨ world.Free call.ppe) :
    ∀ first ∈ updateWhere (·.id = id) change world.calls,
      ∀ second ∈ updateWhere (·.id = id) change world.calls, first.id ≠ second.id →
        first.Holds → second.Holds → first.ppe.runId ≠ second.ppe.runId := by
  obtain ⟨known, own⟩ := call?_eq_some found
  have different : ∀ other ∈ world.calls, other.id ≠ id → other.Holds →
      (change call).Holds → other.ppe.runId ≠ call.ppe.runId := by
    intro other inside apart held changed
    rcases holds changed with before | free
    · exact sound.apart other inside call known (own ▸ apart) held before
    · exact (free other inside held).2
  intro first firstMember second secondMember apart firstHolds secondHolds
  rcases sound.mem_changed found firstMember with rfl | ⟨firstInside, firstApart⟩ <;>
    rcases sound.mem_changed found secondMember with rfl | ⟨secondInside, secondApart⟩
  · exact absurd rfl apart
  · rw [ppe]
    exact (different second secondInside secondApart secondHolds firstHolds).symm
  · rw [ppe]
    exact different first firstInside firstApart firstHolds secondHolds
  · exact sound.apart first firstInside second secondInside apart firstHolds secondHolds

theorem Sound.ids_changed (sound : Sound sha256 world) {matching : Call → Bool}
    (same : ∀ call, (change call).id = call.id) :
    ((updateWhere matching change world.calls).map (·.id)).Nodup := by
  rw [map_updateWhere_of_unchanged same]
  exact sound.ids

variable {answers : List Answer} {row : ReceiptRow}

/-- A call that is not in the middle of its mutation leaves. -/
theorem Sound.dropped (sound : Sound sha256 world)
    (unneeded : ∀ call ∈ world.calls, call.id = id → call.stage.isMutated = false)
    (answered : ∀ answer ∈ answers, ∀ result, answer.outcome = .ok result →
      ∃ commit ∈ world.commits, commit.Repeats answer.ppe answer.request ∧ commit.result = result) :
    Sound sha256 { world with calls := world.calls.filter (·.id ≠ id), answers := answers } where
  ids := sound.ids.sublist (List.filter_sublist.map _)
  apart := fun first firstMember second secondMember =>
    sound.apart first (List.mem_filter.mp firstMember).1 second (List.mem_filter.mp secondMember).1
  calls := fun call member => sound.calls call (List.mem_filter.mp member).1
  settled := by
    intro commit member
    rcases sound.settled commit member with recorded | ⟨call, inside, result, stage, own⟩
    · exact .inl recorded
    · refine .inr ⟨call, List.mem_filter.mpr ⟨inside, decide_eq_true ?_⟩, result, stage, own⟩
      intro same
      have idle := unneeded call inside same
      rw [stage] at idle
      cases idle
  valid := sound.valid
  authorized := sound.authorized
  once := sound.once
  keys := sound.keys
  rows := sound.rows
  answered := answered

/-! ## Under the locks -/

theorem lookupReceipt_none {runId operationKey : String}
    (absent : lookupReceipt sha256 receipts runId operationKey = .ok none) :
    ∀ row ∈ receipts, ¬ row.Under runId operationKey := by
  unfold lookupReceipt at absent
  cases found : receipts.find? fun row => row.Under runId operationKey with
  | none =>
    intro row member under
    exact List.find?_eq_none.mp found row member (decide_eq_true under)
  | some row =>
    rw [found] at absent
    obtain ⟨_, -, wrong⟩ := (map_eq_ok _ _ _).mp absent
    cases wrong

/-- A replayed receipt of a mutation is that of a commit. -/
theorem Sound.replayed
    (sound : Sound sha256 world) {runId operationKey : String} {receipt : Receipt}
    (found : lookupReceipt sha256 world.receipts runId operationKey = .ok (some receipt))
    (kind : receipt.kind ∈ operationKinds) :
    ∃ commit ∈ world.commits, commit.Under runId operationKey ∧
      commit.ppe.payloadHash = receipt.payloadSha256 ∧
        commit.request.operationKind = receipt.kind ∧ commit.result = receipt.result := by
  unfold lookupReceipt at found
  cases search : world.receipts.find? fun row => row.Under runId operationKey with
  | none => rw [search] at found; cases found
  | some row =>
    rw [search] at found
    obtain ⟨read, validated, same⟩ := (map_eq_ok _ _ _).mp found
    obtain rfl := Option.some.inj same
    have criteria := List.find?_some search
    have under : row.Under runId operationKey := of_decide_eq_true criteria
    have member := List.mem_of_find?_eq_some search
    have kinds : read.kind = row.kind := by
      simp only [validateReceipt, bind_eq_ok, pure_eq_ok] at validated
      obtain ⟨_, -, _, -, _, -, _, -, _, -, _, -, _, -, rfl⟩ := validated
      rfl
    obtain ⟨commit, inside, rfl⟩ := sound.rows row member (kinds ▸ kind)
    rw [validateReceipt_row (sound.valid commit inside)] at validated
    obtain rfl := Except.ok.inj validated
    exact ⟨commit, inside, under, rfl, rfl, rfl⟩

/-- What the checks under the locks have found. -/
theorem enter_ok {ppe : PpeMutationInput} {request : Request} {answer : Option Json}
    (entered : world.enter sha256 ppe request = .ok answer) :
    assertAuthority sha256 world.receipts ppe request.authority = .ok () ∧ ((answer = none ∧
          lookupReceipt sha256 world.receipts ppe.runId ppe.operationKey = .ok none) ∨ ∃ receipt,
          lookupReceipt sha256 world.receipts ppe.runId ppe.operationKey = .ok (some receipt) ∧
            receipt.payloadSha256 = ppe.payloadHash ∧
              receipt.kind = request.operationKind ∧ answer = some receipt.result) := by
  simp only [World.enter, bind_eq_ok] at entered
  obtain ⟨_, -, _, authority, replay, lookup, entered⟩ := entered
  refine ⟨authority, ?_⟩
  cases replay with
  | none => exact .inl ⟨((pure_eq_ok _ _).mp entered).symm, lookup⟩
  | some receipt =>
    simp only [bind_eq_ok, ensure_eq_ok, pure_eq_ok] at entered
    obtain ⟨_, ⟨payload, kind⟩, rfl⟩ := entered
    exact .inr ⟨receipt, lookup, payload, kind, rfl⟩

/-- A call in the middle of its mutation can store its receipt. -/
theorem Sound.record (sound : Sound sha256 world) (member : call ∈ world.calls)
    (stage : call.stage = .mutated result) :
    world.record sha256 call result =
      .ok (world.receipts ++ [(call.commit result).row sha256]) := by
  have mutated : call.stage.isMutated = true := by rw [stage]; rfl
  have own := sound.calls call member
  have connected := own.connected mutated
  have holds : call.Holds := ⟨connected, by rw [mutated, Bool.or_true]⟩
  have storable := (sound.valid _ (own.pending result stage)).storable
  simp only [World.record, bind_eq_ok, ensure_eq_ok, pure_eq_ok, sha256PpeJcs_ok]
  exact ⟨_, ⟨storable, rfl⟩, (), connected, (), own.unrecorded holds, rfl⟩

/-! ## One step -/

theorem Sound.begin (sound : Sound sha256 world) (unused : world.call? id = none)
    {ppe : PpeMutationInput} {request : Request}
    (hashed : sha256PpeJcs sha256 (payloadOf ppe request) = .ok ppe.payloadHash) :
    Sound sha256
      { world with
        calls := world.calls ++ [{ id, ppe, request, connected := true, stage := .waiting }] } where
  ids := by
    have apart : ∀ known ∈ world.calls.map (·.id), known ≠ id := by
      intro known inside same
      obtain ⟨call, member, rfl⟩ := List.mem_map.mp inside
      exact List.find?_eq_none.mp unused call member (decide_eq_true same)
    rw [List.map_append]
    exact List.nodup_append.mpr ⟨sound.ids, List.nodup_singleton _,
      fun known inside own equal => List.mem_singleton.mp equal ▸ apart known inside⟩
  apart := by
    intro first firstMember second secondMember apart firstHolds secondHolds
    rcases mem_inserted.mp firstMember with firstInside | rfl
    · rcases mem_inserted.mp secondMember with secondInside | rfl
      · exact sound.apart first firstInside second secondInside apart firstHolds secondHolds
      · cases secondHolds.2
    · cases firstHolds.2
  calls := by
    intro call member
    rcases mem_inserted.mp member with inside | rfl
    · exact sound.calls call inside
    · exact
        { hashed := hashed
          connected := fun _ => rfl
          authorized := fun locked => absurd locked Bool.false_ne_true
          unrecorded := fun holds => absurd holds.2 Bool.false_ne_true
          uncommitted := fun holds => absurd holds.2 Bool.false_ne_true
          pending := fun _ stage => by cases stage }
  settled := by
    intro commit member
    refine (sound.settled commit member).imp_right ?_
    rintro ⟨call, inside, rest⟩
    exact ⟨call, List.mem_append_left _ inside, rest⟩
  valid := sound.valid
  authorized := sound.authorized
  once := sound.once
  keys := sound.keys
  rows := sound.rows
  answered := sound.answered

/-- Under free locks there is neither a receipt nor a commit of the key. -/
theorem Sound.locked (sound : Sound sha256 world)
    (found : world.call? id = some call) (waiting : call.stage = .waiting)
    (free : world.Free call.ppe)
    (authority : assertAuthority sha256 world.receipts call.ppe call.request.authority = .ok ())
    (absent : lookupReceipt sha256 world.receipts call.ppe.runId call.ppe.operationKey = .ok none) :
    Sound sha256
      { world with
        calls := updateWhere (·.id = id) (fun call => { call with stage := .locked })
          world.calls } where
  ids := sound.ids_changed fun _ => rfl
  apart := sound.apart_changed found rfl fun _ => .inr free
  calls := by
    intro other member
    rcases sound.mem_changed found member with rfl | ⟨inside, -⟩
    · have own := sound.calls call (call?_eq_some found).1
      have unrecorded := lookupReceipt_none absent
      exact
        { hashed := own.hashed
          connected := fun mutated => absurd mutated Bool.false_ne_true
          authorized := fun _ => authority
          unrecorded := fun _ => unrecorded
          uncommitted := fun _ _ commit known under =>
            unrecorded _ (sound.recorded_of_free free known under.1) under
          pending := fun _ stage => by cases stage }
    · exact sound.calls other inside
  settled := by
    intro commit member
    refine (sound.settled commit member).imp_right ?_
    rintro ⟨other, inside, result, stage, own⟩
    refine ⟨other, mem_updateWhere.mpr (.inr ⟨inside, decide_eq_false ?_⟩), result, stage, own⟩
    intro same
    obtain ⟨known, named⟩ := call?_eq_some found
    have equal : other = call :=
      List.inj_on_of_nodup_map sound.ids inside known (same.trans named.symm)
    rw [equal, waiting] at stage
    cases stage
  valid := sound.valid
  authorized := sound.authorized
  once := sound.once
  keys := sound.keys
  rows := sound.rows
  answered := sound.answered

/-- The mutation of a call that holds its locks commits. -/
theorem Sound.mutated (sound : Sound sha256 world)
    (found : world.call? id = some call) (locked : call.stage = .locked)
    (connected : call.connected = true) (safe : result.Safe) (product : Product) :
    Sound sha256
      { world with
        product := product
        calls := updateWhere (·.id = id)
          (fun call => { call with stage := .mutated result }) world.calls
        commits := world.commits ++ [call.commit result] } := by
  obtain ⟨known, named⟩ := call?_eq_some found
  have own := sound.calls call known
  have isLocked : call.stage.isLocked = true := by rw [locked]; rfl
  have holds : call.Holds := ⟨connected, by rw [isLocked, Bool.true_or]⟩
  have fresh := own.uncommitted holds isLocked
  have safePayload := (sha256PpeJcs_ok.mp own.hashed).1
  have changed : { call with stage := .mutated result } ∈
      updateWhere (fun call : Call => call.id = id)
        (fun call => { call with stage := .mutated result }) world.calls :=
    mem_updateWhere.mpr (.inl ⟨call, known, decide_eq_true named, rfl⟩)
  exact
    { ids := sound.ids_changed fun _ => rfl
      apart := sound.apart_changed found rfl fun _ => .inl holds
      calls := by
        intro other member
        rcases sound.mem_changed found member with rfl | ⟨inside, apart⟩
        · exact
            { hashed := own.hashed
              connected := fun _ => connected
              authorized := fun _ => own.authorized (by rw [isLocked, Bool.true_or])
              unrecorded := fun _ => own.unrecorded holds
              uncommitted := fun _ locked => absurd locked Bool.false_ne_true
              pending := fun later stage =>
                Stage.mutated.inj stage ▸ List.mem_append_right _ (List.mem_singleton_self _) }
        · have others := sound.calls other inside
          refine { others with uncommitted := ?_, pending := ?_ }
          · intro otherHolds otherLocked commit member under
            rcases mem_inserted.mp member with old | rfl
            · exact others.uncommitted otherHolds otherLocked commit old under
            · exact sound.apart call known other inside (fun same =>
                apart (same.symm.trans named)) holds otherHolds under.1
          · exact fun later stage => List.mem_append_left _ (others.pending later stage)
      settled := by
        intro commit member
        rcases mem_inserted.mp member with old | rfl
        · refine (sound.settled commit old).imp_right ?_
          rintro ⟨other, inside, later, stage, rfl⟩
          refine ⟨other, mem_updateWhere.mpr (.inr ⟨inside, decide_eq_false ?_⟩), later,
            stage, rfl⟩
          intro same
          have equal : other = call :=
            List.inj_on_of_nodup_map sound.ids inside known (same.trans named.symm)
          rw [equal, locked] at stage
          cases stage
        · exact .inr ⟨_, changed, result, rfl, rfl⟩
      valid := List.forall_mem_append.mpr ⟨sound.valid, by
        intro commit member
        obtain rfl := List.mem_singleton.mp member
        exact ⟨own.hashed, (safe_operationReceipt _ _ _ _ _ _).mpr ⟨safePayload, safe⟩⟩⟩
      authorized := List.forall_mem_append.mpr ⟨sound.authorized, by
        intro commit member
        obtain rfl := List.mem_singleton.mp member
        exact own.authorized (by rw [isLocked, Bool.true_or])⟩
      once := List.pairwise_append.mpr ⟨sound.once, List.pairwise_singleton _ _, by
        intro commit member other new under
        obtain rfl := List.mem_singleton.mp new
        exact fresh commit member ⟨under.1.symm, under.2.symm⟩⟩
      keys := sound.keys
      rows := fun row member kind => by
        obtain ⟨commit, inside, same⟩ := sound.rows row member kind
        exact ⟨commit, List.mem_append_left _ inside, same⟩
      answered := fun answer member later outcome => by
        obtain ⟨commit, inside, rest⟩ := sound.answered answer member later outcome
        exact ⟨commit, List.mem_append_left _ inside, rest⟩ }

/-- A row that is stored while nobody else holds its run. -/
theorem Call.Sound.append {commits : List Commit} (sound : call.Sound sha256 receipts commits)
    (apart : call.Holds → call.ppe.runId ≠ row.runId) :
    call.Sound sha256 (receipts ++ [row]) commits :=
  { sound with
    authorized := fun locked => assertAuthority_append (sound.authorized locked) _
    unrecorded := fun holds => List.forall_mem_append.mpr ⟨sound.unrecorded holds, by
      intro stored member under
      obtain rfl := List.mem_singleton.mp member
      exact apart holds under.1.symm⟩ }

/-- The receipt of a call is stored, and the call ends. -/
theorem Sound.recorded (sound : Sound sha256 world) (member : call ∈ world.calls)
    (stage : call.stage = .mutated result)
    (answered : ∀ answer ∈ answers, ∀ result, answer.outcome = .ok result →
      ∃ commit ∈ world.commits, commit.Repeats answer.ppe answer.request ∧ commit.result = result) :
    Sound sha256
      { world with
        receipts := world.receipts ++ [(call.commit result).row sha256]
        calls := world.calls.filter (·.id ≠ call.id)
        answers := answers } := by
  have mutated : call.stage.isMutated = true := by rw [stage]; rfl
  have own := sound.calls call member
  have holds : call.Holds := ⟨own.connected mutated, by rw [mutated, Bool.or_true]⟩
  have remaining : ∀ other ∈ world.calls.filter (·.id ≠ call.id),
      other ∈ world.calls ∧ other.id ≠ call.id := fun other inside =>
    ⟨(List.mem_filter.mp inside).1, of_decide_eq_true (List.mem_filter.mp inside).2⟩
  exact
    { ids := sound.ids.sublist (List.filter_sublist.map _)
      apart := fun first firstMember second secondMember =>
        sound.apart first (remaining first firstMember).1 second (remaining second secondMember).1
      calls := fun other inside =>
        (sound.calls other (remaining other inside).1).append fun otherHolds =>
          sound.apart other (remaining other inside).1 call member
            (remaining other inside).2 otherHolds holds
      settled := by
        intro commit inside
        rcases sound.settled commit inside with old | ⟨other, known, later, pending, rfl⟩
        · exact .inl (List.mem_append_left _ old)
        · by_cases same : other.id = call.id
          · have equal : other = call := List.inj_on_of_nodup_map sound.ids known member same
            obtain rfl := equal
            obtain rfl := Stage.mutated.inj (pending.symm.trans stage)
            exact .inl (List.mem_append_right _ (List.mem_singleton_self _))
          · exact .inr ⟨other, List.mem_filter.mpr ⟨known, decide_eq_true same⟩, later,
              pending, rfl⟩
      valid := sound.valid
      authorized := fun commit inside => assertAuthority_append (sound.authorized commit inside) _
      once := sound.once
      keys := List.pairwise_append.mpr ⟨sound.keys, List.pairwise_singleton _ _, by
        intro row inside stored new under
        obtain rfl := List.mem_singleton.mp new
        exact own.unrecorded holds row inside ⟨under.1.symm, under.2.symm⟩⟩
      rows := List.forall_mem_append.mpr ⟨sound.rows, by
        intro row new _
        obtain rfl := List.mem_singleton.mp new
        exact ⟨_, own.pending result stage, rfl⟩⟩
      answered := answered }

/-- Others store a receipt of another kind. -/
theorem Sound.inserted (sound : Sound sha256 world) (other : row.kind ∉ operationKinds)
    (unused : ∀ known ∈ world.receipts, ¬ known.Under row.runId row.operationKey)
    (free : ∀ call ∈ world.calls, call.Holds → call.ppe.runId ≠ row.runId) :
    Sound sha256 { world with receipts := world.receipts ++ [row] } :=
  { sound with
    calls := fun call member => (sound.calls call member).append (free call member)
    settled := fun commit member => (sound.settled commit member).imp_left (List.mem_append_left _)
    authorized := fun commit member => assertAuthority_append (sound.authorized commit member) _
    keys := List.pairwise_append.mpr ⟨sound.keys, List.pairwise_singleton _ _, by
      intro known inside stored new under
      obtain rfl := List.mem_singleton.mp new
      exact unused known inside ⟨under.1.symm, under.2.symm⟩⟩
    rows := List.forall_mem_append.mpr ⟨sound.rows, by
      intro stored new kind
      obtain rfl := List.mem_singleton.mp new
      exact absurd kind other⟩ }

/-- The connection of a call goes that is not in the middle of its mutation. -/
theorem Sound.disconnected (sound : Sound sha256 world)
    (idle : ∀ call ∈ world.calls, call.id = id → call.stage.isMutated = false) :
    Sound sha256
      { world with
        calls := updateWhere (·.id = id) (fun call => { call with connected := false })
          world.calls } := by
  have origin : ∀ call ∈ updateWhere (·.id = id)
      (fun call => { call with connected := false }) world.calls,
      call ∈ world.calls ∨ ∃ old ∈ world.calls, old.stage.isMutated = false ∧
        call = { old with connected := false } := by
    intro call member
    rcases mem_updateWhere.mp member with ⟨old, inside, same, rfl⟩ | ⟨inside, -⟩
    · exact .inr ⟨old, inside, idle old inside (of_decide_eq_true same), rfl⟩
    · exact .inl inside
  have holding : ∀ call ∈ updateWhere (·.id = id)
      (fun call => { call with connected := false }) world.calls,
      call.Holds → call ∈ world.calls := by
    intro call member holds
    rcases origin call member with inside | ⟨old, -, -, rfl⟩
    · exact inside
    · exact absurd holds.1 Bool.false_ne_true
  exact
    { sound with
      ids := sound.ids_changed fun _ => rfl
      apart := fun first firstMember second secondMember apart firstHolds secondHolds =>
        sound.apart first (holding first firstMember firstHolds) second
          (holding second secondMember secondHolds) apart firstHolds secondHolds
      calls := by
        intro call member
        rcases origin call member with inside | ⟨old, inside, unmutated, rfl⟩
        · exact sound.calls call inside
        · have own := sound.calls old inside
          exact
            { hashed := own.hashed
              connected := fun mutated => absurd (unmutated.symm.trans mutated)
                Bool.false_ne_true
              authorized := own.authorized
              unrecorded := fun holds => absurd holds.1 Bool.false_ne_true
              uncommitted := fun holds => absurd holds.1 Bool.false_ne_true
              pending := own.pending }
      settled := by
        intro commit member
        refine (sound.settled commit member).imp_right ?_
        rintro ⟨call, inside, result, stage, own⟩
        refine ⟨call, mem_updateWhere.mpr (.inr ⟨inside, decide_eq_false ?_⟩), result,
          stage, own⟩
        intro same
        have unmutated := idle call inside same
        rw [stage] at unmutated
        cases unmutated }

theorem sound_execute (sound : Sound sha256 world) (step : Step) (recorded : step.Recorded world) :
    Sound sha256 (execute sha256 world step) := by
  cases step with
  | executePpeMutation id ppe request =>
    simp only [execute]
    split
    · rename_i unused
      have none : world.call? id = none := Option.isNone_iff_eq_none.mp unused
      cases checked : assertPayload sha256 ppe request with
      | ok _ =>
        simp only [assertPayload, bind_eq_ok, ensure_eq_ok] at checked
        obtain ⟨_, -, _, hashed, rfl⟩ := checked
        exact sound.begin none hashed
      | error error =>
        refine sound.dropped ?_ ?_
        · intro call member same
          exact absurd (decide_eq_true same) (List.find?_eq_none.mp none call member)
        · exact List.forall_mem_append.mpr ⟨sound.answered, by simp⟩
    · exact sound
  | lock id =>
    simp only [execute]
    split
    · rename_i call found
      obtain ⟨member, rfl⟩ := call?_eq_some found
      split
      · rename_i waiting
        split
        · rename_i enters
          have idle : ∀ other ∈ world.calls, other.id = call.id →
              other.stage.isMutated = false := by
            intro other inside same
            rw [List.inj_on_of_nodup_map sound.ids inside member same, waiting]
            rfl
          split
          · rename_i entered
            obtain ⟨authority, ⟨-, absent⟩ | ⟨_, -, -, -, wrong⟩⟩ := enter_ok entered
            · exact sound.locked found waiting enters.2 authority absent
            · cases wrong
          · rename_i result entered
            obtain ⟨-, ⟨wrong, -⟩ | ⟨receipt, lookup, payload, kind, same⟩⟩ := enter_ok entered
            · cases wrong
            · refine sound.dropped idle ?_
              refine List.forall_mem_append.mpr ⟨sound.answered, ?_⟩
              intro answer new later outcome
              obtain rfl := List.mem_singleton.mp new
              obtain rfl := Except.ok.inj outcome
              obtain rfl := Option.some.inj same
              obtain ⟨commit, inside, under, hash, kinds, stored⟩ :=
                sound.replayed lookup (kind ▸ operationKind_mem call.request)
              exact ⟨commit, inside, ⟨under, hash.trans payload, kinds.trans kind⟩, stored⟩
          · exact sound.dropped idle (List.forall_mem_append.mpr ⟨sound.answered, by simp⟩)
        · exact sound
      · exact sound
    · exact sound
  | mutate id generated =>
    simp only [execute]
    split
    · rename_i call found
      obtain ⟨member, rfl⟩ := call?_eq_some found
      split
      · rename_i locked
        split
        · rename_i product result mutated
          obtain ⟨connected, representable⟩ := recorded call member rfl
            (by rw [locked]; rfl) (by rw [mutated]; rfl)
          have payload := (sha256PpeJcs_ok.mp (sound.calls call member).hashed).1
          have safe := safe_mutate representable ((safe_payload _ _ _ _).mp payload) mutated
          exact sound.mutated found locked connected safe product
        · refine sound.dropped ?_ (List.forall_mem_append.mpr ⟨sound.answered, by simp⟩)
          intro other inside same
          rw [List.inj_on_of_nodup_map sound.ids inside member same, locked]
          rfl
      · exact sound
    · exact sound
  | record id answerLost =>
    simp only [execute]
    split
    · rename_i call found
      obtain ⟨member, rfl⟩ := call?_eq_some found
      split
      · rename_i result stage
        rw [sound.record member stage]
        refine sound.recorded member stage ?_
        refine List.forall_mem_append.mpr ⟨sound.answered, ?_⟩
        intro answer new later outcome
        obtain rfl := List.mem_singleton.mp new
        have own := (sound.calls call member).pending result stage
        cases answerLost with
        | true => cases outcome
        | false =>
          obtain rfl := Except.ok.inj outcome
          exact ⟨_, own, ⟨⟨rfl, rfl⟩, rfl, rfl⟩, rfl⟩
      · exact sound
    · exact sound
  | disconnect id => exact sound.disconnected recorded
  | fail id => exact sound.dropped recorded sound.answered
  | changeRuns runs orchestrators => exact { sound with }
  | changeProduct product => exact { sound with }
  | insertReceipt row =>
    simp only [execute]
    split
    · rename_i enabled
      exact sound.inserted enabled.1 enabled.2.1 enabled.2.2
    · exact sound

/-! ## Applied once -/

theorem assertAuthority_of_same {first second : PpeMutationInput}
    (same : first.SameAuthority second) {requirement : AuthorityRequirement}
    (authorized : assertAuthority sha256 receipts first requirement = .ok ()) :
    assertAuthority sha256 receipts second requirement = .ok () := by
  unfold assertAuthority assertPlan at authorized ⊢
  rw [← same.run, ← same.principal, ← same.plan, ← same.start]
  exact authorized

/-- How a call enters a state in which its key has been used. -/
theorem Sound.lock (sound : Sound sha256 world) (enters : world.Enters call) :
    execute sha256 world (.lock call.id) =
      match world.enter sha256 call.ppe call.request with
      | .ok none =>
        { world with
          calls := updateWhere (·.id = call.id)
            (fun call => { call with stage := .locked }) world.calls }
      | .ok (some result) => world.finished call (.ok result)
      | .error error => world.finished call (.error error) := by
  have found : world.call? call.id = some call :=
    find?_eq_some_of_unique enters.member (decide_eq_true rfl) fun other inside same =>
      List.inj_on_of_nodup_map sound.ids inside enters.member (of_decide_eq_true same)
  simp only [execute, found, enters.waiting]
  exact if_pos ⟨enters.connected, enters.free⟩

theorem Sound.appliedOnce (sound : Sound sha256 world) : world.AppliedOnce sha256 where
  once := by
    intro runId operationKey
    refine countP_le_one (sound.once.imp ?_)
    rintro first second apart ⟨firstUnder, secondUnder⟩
    have one := of_decide_eq_true firstUnder
    have other := of_decide_eq_true secondUnder
    exact apart ⟨other.1.trans one.1.symm, other.2.trans one.2.symm⟩
  repeated := by
    intro call enters commit member repeats fence authority
    have kinds : commit.request.authority = call.request.authority :=
      authority_of_operationKind repeats.kind
    have authorized : assertAuthority sha256 world.receipts call.ppe
        call.request.authority = .ok () := by
      rcases authority with same | own
      · exact kinds ▸ assertAuthority_of_same same (sound.authorized commit member)
      · exact own
    have lookup := sound.lookup member
      (sound.recorded_of_free enters.free member repeats.under.1) repeats.under
    have entered : world.enter sha256 call.ppe call.request = .ok (some commit.result) := by
      simp only [World.enter, bind_eq_ok]
      exact ⟨(), fence, (), authorized, _, lookup,
        (bind_eq_ok _ _ _).mpr ⟨(), (ensure_eq_ok _ _ _).mpr ⟨repeats.payload, repeats.kind⟩, rfl⟩⟩
    rw [sound.lock enters, entered]
  clashed := by
    intro call enters commit member clashes
    have lookup := sound.lookup member
      (sound.recorded_of_free enters.free member clashes.1.1) clashes.1
    rw [sound.lock enters]
    cases entered : world.enter sha256 call.ppe call.request with
    | error error => exact ⟨error, rfl⟩
    | ok answer =>
      obtain ⟨-, ⟨-, absent⟩ | ⟨receipt, found, payload, kind, -⟩⟩ := enter_ok entered
      · rw [lookup] at absent
        cases absent
      · rw [lookup] at found
        obtain rfl := Option.some.inj (Except.ok.inj found)
        exact absurd ⟨payload, kind⟩ clashes.2
  answered := sound.answered
  receipted := by
    intro row member kind
    obtain ⟨commit, inside, rfl⟩ := sound.rows row member kind
    exact ⟨commit, inside, ⟨rfl, rfl⟩, rfl, rfl, validateReceipt_row (sound.valid commit inside)⟩

/-- From two databases without a call, while every mutation that commits goes on to
commit its receipt. -/
theorem mutations_applied_once
    (sha256 : String → String) (runs : List RunRow) (orchestrators : List OrchestratorRow)
    (product : Product) (steps : List Step)
    (recorded : EveryStep (execute sha256) (fun world step => step.Recorded world)
      (World.initial runs orchestrators product) steps) :
    (run (execute sha256) (World.initial runs orchestrators product)
      steps).AppliedOnce sha256 :=
  have sound := @run_invariant _ _ (execute sha256) (fun world step => step.Recorded world)
    (Sound sha256) (fun _ step sound recorded => sound_execute sound step recorded) _
    steps (sound_initial runs orchestrators product) recorded
  sound.appliedOnce

/-! ## A crash between the commits -/

namespace CrashRuns

/-- The runs hash equal texts only, so that any digest will do. -/
def digest (_ : String) : String := "digest"

def principal : String := orchestratorOf "run"

def activeRun : RunRow where
  runId := "run"
  principal := principal
  state := .active
  generation := 1

def lease : OrchestratorRow where
  runId := "run"
  generation := 1
  ownerPrincipal := principal
  leaseExpiresAt := 100
  fenceSha256 := "fence"
  status := .current

def product : Product where
  pbis := []
  docRevisions := []
  pbiDocs := []
  ideas := []
  board := { tasks := [], stories := [], pbis := [], sprints := [] }
  implementationPlans := []

/-- The reviewed plan. -/
def planResult : Json :=
  .object [("runId", .string "run"), ("principal", .string principal)]

def planReceipt : Json :=
  operationReceipt "run" "plan" (digest (Json.render .null)) "COMPOSITION_BOOTSTRAP"
    .null planResult

def planRow : ReceiptRow where
  runId := "run"
  operationKey := "plan"
  payloadSha256 := digest (Json.render .null)
  kind := "COMPOSITION_BOOTSTRAP"
  status := "COMMITTED"
  receiptJson := planReceipt
  receiptSha256 := digest planReceipt.render

def request : Request :=
  .createPbi
    { productId := "product"
      title := "Title"
      description := none
      priority := 1
      sourceDocs := none
      ceremonyObjectKey := "object"
      ideaId := none
      resolvedLinks := []
      userId := "user" }

def unhashed : PpeMutationInput where
  runId := "run"
  orchestratorId := principal
  orchestratorGeneration := 1
  operationKey := ceremonyOperationKey digest "run" "pbi" "object"
  payloadHash := ""
  planAuthorityOperationKey := "plan"

def ppe : PpeMutationInput :=
  { unhashed with payloadHash := digest (payloadOf unhashed request).render }

def generated (id : String) : Generated where
  id := id
  createdAt := "2026-08-11T00:00:00.000Z"
  sprintRunStatus := none

def idle : World := World.initial [activeRun] [lease] product

/-- A call up to its mutation. -/
def applies (id : Nat) (pbiId : String) : List Step :=
  [.executePpeMutation id ppe request, .lock id, .mutate id (generated pbiId)]

/-- The call is made again after it has stored its receipt. -/
def replayed : List Step :=
  .insertReceipt planRow :: applies 0 "first" ++ [.record 0 false] ++ applies 1 "second"

/-- The call is made again after its process died without a receipt. -/
def crashed : List Step :=
  .insertReceipt planRow :: applies 0 "first" ++ [.fail 0] ++ applies 1 "second" ++
    [.record 1 false]

end CrashRuns

open CrashRuns in
/-- A call that is made again is answered from the receipt. -/
theorem mutations_applied_once_replayed :
    (run (execute digest) idle replayed).AppliedOnce digest ∧
      (run (execute digest) idle replayed).product.pbis.map (·.id) = ["first"] ∧
        (run (execute digest) idle replayed).answers.length = 2 :=
  ⟨mutations_applied_once digest [activeRun] [lease] product replayed (by decide +kernel),
    by decide +kernel, by decide +kernel⟩

open CrashRuns in
/-- Without a receipt the same call creates a second backlog item. -/
theorem mutation_applied_twice :
    ¬ (run (execute digest) idle crashed).AppliedOnce digest ∧
      (run (execute digest) idle crashed).product.pbis.map (·.id) = ["first", "second"] := by
  refine ⟨fun applied => ?_, by decide +kernel⟩
  have once := applied.once "run" ppe.operationKey
  have twice : (run (execute digest) idle crashed).commits.countP
      (fun commit => commit.Under "run" ppe.operationKey) = 2 := by decide +kernel
  rw [twice] at once
  exact absurd once (by decide)

end Operations
end Ppe
end Scrum4Me
