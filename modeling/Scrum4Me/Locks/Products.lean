import Scrum4Me.Jobs.Schema
import Scrum4Me.Foundation.Execution
import Scrum4Me.Foundation.Custody
import Mathlib.Data.List.Sort
import Mathlib.Data.String.Basic

/-!
# Product worktrees and their locks

An idea job is prepared in the worktrees of its products, which the process that
claimed the job resets and cleans under one file lock for each product. The locks
are files, their release functions live in the memory of the process, by job, and
the claim lives in the database. Tool calls of many processes take their steps in
any order; other actors cancel jobs, leases lapse and processes die.
-/

namespace Scrum4Me
namespace Locks

open Foundation Jobs

abbrev ProcessId := Nat

abbrev JobId := String

abbrev ProductId := String

abbrev Path := String

/-- What the environment gives each process: the worktree root, and the token and
the instance it claims as. -/
structure Fleet where
  worktreeRoot : ProcessId → Path
  tokenId : ProcessId → String
  instanceId : ProcessId → String

/-- `getProductWorktreeLockPath`. -/
def Fleet.lockPath (fleet : Fleet) (process : ProcessId) (product : ProductId) : Path :=
  fleet.worktreeRoot process ++ "/_products/" ++ (product ++ ".lock")

/-- One claim of a job: the first, the second and so on, and who made it. -/
structure Claim where
  process : ProcessId
  job : JobId
  number : Nat
  deriving DecidableEq

/-- `claude_jobs`: what the claim reads and writes, with the number of claims so
far. -/
structure Row where
  status : JobStatus
  claimedByTokenId : Option String
  workerInstanceId : Option String
  claims : Nat
  deriving DecidableEq

/-- An entry of `jobReleases`: the releases of one `releaseAll`, in the order in
which it runs them. -/
structure Entry where
  process : ProcessId
  job : JobId
  releases : List (Grip Path Claim)
  deriving DecidableEq

/-- What a call does once it has released the locks of a job. -/
inductive After
  | answer
  | rollback (claim : Claim)
  | sweep (rest : List JobId)
  deriving DecidableEq

/-- How far a tool call has come. -/
inductive Doing
  /-- `tryClaimJob` has claimed the job, the context is being built. -/
  | claimed (claim : Claim) (products : List ProductId)
  /-- `acquireFileLocksOrdered`: the locks taken, latest first, and those left. -/
  | acquiring (claim : Claim) (products : List ProductId)
      (taken : List (Grip Path Claim)) (left : List Path)
  /-- Its `catch`. -/
  | undoing (claim : Claim) (taken : List (Grip Path Claim))
  /-- The loop that creates, resets and cleans the worktrees. -/
  | syncing (claim : Claim) (left : List ProductId)
  /-- The setup is done, the rest of the context is being built. -/
  | building (claim : Claim)
  /-- `releaseLocksOnTerminal` is called. -/
  | releasing (job : JobId) (after : After)
  /-- It runs the releases that it took from the register. -/
  | freeing (releases : List (Grip Path Claim)) (after : After)
  /-- `rollbackClaim`, up to its last update. -/
  | rollingBack (claim : Claim)
  /-- `update_job_status` has read the row and accepted the report. -/
  | reporting (job : JobId) (number : Nat) (status : JobStatus)
  /-- It has written a terminal status. -/
  | reported (job : JobId)
  /-- `resetStaleClaimedJobs` has failed these jobs. -/
  | swept (failed : List JobId)
  deriving DecidableEq

structure Call where
  process : ProcessId
  doing : Doing
  deriving DecidableEq

/-- The rows, the lock files, the registers of the processes, and the calls in
progress. -/
structure World where
  rows : JobId → Row
  locks : Path → Option Claim
  register : List Entry
  calls : List Call
  dead : List ProcessId
  /-- The claims whose failed setup has been handled. -/
  handled : List Claim

/-- Every job is queued and no call is in progress. -/
def start : World where
  rows _ := ⟨.queued, none, none, 0⟩
  locks _ := none
  register := []
  calls := []
  dead := []
  handled := []

/-! ## Parts of the world -/

/-- The job is `CLAIMED` or `RUNNING` under this claim. -/
def World.Live (world : World) (claim : Claim) : Prop :=
  (world.rows claim.job).status.Held ∧ (world.rows claim.job).claims = claim.number

instance (world : World) (claim : Claim) : Decidable (world.Live claim) :=
  inferInstanceAs (Decidable (_ ∧ _))

/-- The release functions that a call keeps. -/
def Doing.grips : Doing → List (Grip Path Claim)
  | .acquiring _ _ taken _ => taken
  | .undoing _ taken => taken
  | .freeing releases _ => releases
  | _ => []

def Call.grips (call : Call) : List (Grip Path Claim) := call.doing.grips

/-- Every release function that a process keeps. -/
def World.grips (world : World) : List (Grip Path Claim) :=
  world.register.flatMap Entry.releases ++ world.calls.flatMap Call.grips

/-- The jobs whose locks are still to be released. -/
def After.jobs : After → List JobId
  | .sweep rest => rest
  | _ => []

/-- The jobs for which the call is still to run `releaseLocksOnTerminal`. -/
def Doing.releases : Doing → List JobId
  | .undoing claim _ => [claim.job]
  | .releasing job after => job :: after.jobs
  | .freeing _ after => after.jobs
  | .reported job => [job]
  | .swept failed => failed
  | _ => []

def Call.releases (call : Call) : List JobId := call.doing.releases

/-- The claim that is given back once the locks are released. -/
def After.failing? : After → Option Claim
  | .rollback claim => some claim
  | _ => none

/-- The claim whose setup has failed and whose locks are being released. -/
def Doing.failing? : Doing → Option Claim
  | .undoing claim _ => some claim
  | .releasing _ after => after.failing?
  | .freeing _ after => after.failing?
  | _ => none

/-- The claim whose setup is in progress: it may still take locks, or its failure
has not released them yet. -/
def Doing.preparing? : Doing → Option Claim
  | .claimed claim _ => some claim
  | .acquiring claim _ _ _ => some claim
  | .syncing claim _ => some claim
  | doing => doing.failing?

def Call.preparing? (call : Call) : Option Claim := call.doing.preparing?

/-! ## Steps -/

/-- The call goes on. -/
def World.goOn (world : World) (call : Call) (doing : Doing) : World :=
  { world with calls := ⟨call.process, doing⟩ :: world.calls.erase call }

/-- The call has returned. -/
def World.leave (world : World) (call : Call) : World :=
  { world with calls := world.calls.erase call }

def World.write (world : World) (job : JobId) (row : Row) : World :=
  { world with rows := Function.update world.rows job row }

/-- `status = 'QUEUED'` with the columns of the claim cleared. -/
def Row.requeued (row : Row) : Row :=
  { row with status := .queued, claimedByTokenId := none, workerInstanceId := none }

/-- `status = 'FAILED'`. -/
def Row.failed (row : Row) : Row := { row with status := .failed }

theorem Row.failed_not_held (row : Row) : ¬ row.failed.status.Held := by
  show ¬ JobStatus.failed.Held
  decide

theorem Row.requeued_not_held (row : Row) : ¬ row.requeued.status.Held := by
  show ¬ JobStatus.queued.Held
  decide

/-- The rows of a list of jobs are rewritten. -/
def World.writeAll (world : World) (jobs : List JobId) (update : Row → Row) : World :=
  { world with
      rows := fun job =>
        if job ∈ jobs then update (world.rows job) else world.rows job }

/-- The guard of the updates of `rollbackClaim`. -/
def Fleet.Owns (fleet : Fleet) (process : ProcessId) (row : Row) : Prop :=
  row.claimedByTokenId = some (fleet.tokenId process) ∧
    row.workerInstanceId = some (fleet.instanceId process) ∧ row.status.Held

instance (fleet : Fleet) (process : ProcessId) (row : Row) :
    Decidable (fleet.Owns process row) :=
  inferInstanceAs (Decidable (_ ∧ _))

/-- The order in which `acquireFileLocksOrdered` takes the locks of the products. -/
def Fleet.lockOrder (fleet : Fleet) (process : ProcessId) (products : List ProductId) : List Path :=
  (products.map (fleet.lockPath process)).insertionSort (· ≤ ·)

/-- The entries that `jobReleases` of the process has for the job. -/
def World.entries (world : World) (process : ProcessId) (job : JobId) : List Entry :=
  world.register.filter fun entry =>
    decide (entry.process = process ∧ entry.job = job)

/-- `jobReleases.delete`. -/
def World.unregister (world : World) (process : ProcessId) (job : JobId) : World :=
  { world with
      register := world.register.filter fun entry =>
        decide (¬ (entry.process = process ∧ entry.job = job)) }

/-- `registerJobLockReleases`. -/
def World.registerReleases (world : World) (entry : Entry) : World :=
  { world with register := world.register ++ [entry] }

/-- What the call does after the locks of a job are released. -/
def World.afterwards (world : World) (call : Call) : After → World
  | .answer => world.leave call
  | .rollback claim => world.goOn call (.rollingBack claim)
  | .sweep [] => world.leave call
  | .sweep (job :: rest) => world.goOn call (.releasing job (.sweep rest))

/-- The next statement of the call succeeds. -/
def Fleet.next (fleet : Fleet) (world : World) (call : Call) : World :=
  match call.doing with
  | .claimed claim products =>
      if products = [] then world.goOn call (.building claim)
      else world.goOn call (.acquiring claim products [] (fleet.lockOrder call.process products))
  | .acquiring claim products taken (path :: rest) =>
      -- a lock that another holder has is retried
      if world.locks path = none then
        { world with locks := takeLock world.locks path claim }.goOn call
          (.acquiring claim products (⟨path, claim⟩ :: taken) rest)
      else world
  | .acquiring claim products taken [] =>
      (world.registerReleases ⟨call.process, claim.job, taken⟩).goOn call (.syncing claim products)
  | .undoing claim (grip :: rest) =>
      { world with locks := freeLock world.locks grip.path }.goOn call (.undoing claim rest)
  | .undoing claim [] =>
      world.goOn call (.releasing claim.job (.rollback claim))
  | .syncing claim (_ :: rest) => world.goOn call (.syncing claim rest)
  | .syncing claim [] => world.goOn call (.building claim)
  | .building _ => world.leave call
  | .releasing job after =>
      (world.unregister call.process job).goOn call
        (.freeing ((world.entries call.process job).flatMap Entry.releases) after)
  | .freeing (grip :: rest) after =>
      { world with locks := freeLock world.locks grip.path }.goOn call (.freeing rest after)
  | .freeing [] after => world.afterwards call after
  | .rollingBack claim =>
      let handled := { world with handled := claim :: world.handled }
      if fleet.Owns call.process (world.rows claim.job) then
        (handled.write claim.job (world.rows claim.job).requeued).leave call
      else handled.leave call
  | .reporting job _ status =>
      -- the update is by id only
      let written := world.write job { world.rows job with status := status }
      if status.Terminal then written.goOn call (.reported job)
      else written.leave call
  | .reported job => world.goOn call (.releasing job .answer)
  -- the second update is a step of its own
  | .swept _ => world

/-- The next statement of the call throws, or a check of `rollbackClaim` stops it. -/
def World.fails (world : World) (call : Call) : World :=
  match call.doing with
  | .acquiring claim _ taken _ => world.goOn call (.undoing claim taken)
  | .syncing claim _ =>
      world.goOn call (.releasing claim.job (.rollback claim))
  | .rollingBack claim =>
      { world with handled := claim :: world.handled }.leave call
  | .claimed _ _ => world.leave call
  | .building _ => world.leave call
  | .reporting _ _ _ => world.leave call
  | .reported _ => world.leave call
  | .swept _ => world.leave call
  -- the releases themselves do not throw
  | .undoing _ _ => world
  | .releasing _ _ => world
  | .freeing _ _ => world

inductive Step
  /-- `tryClaimJob`, for an idea job with these products. -/
  | claim (process : ProcessId) (job : JobId) (products : List ProductId)
  /-- `markJobTerminallyFailed` before the setup. -/
  | refuse (call : Call)
  /-- `update_job_status` up to its checks. -/
  | report (process : ProcessId) (job : JobId) (status : JobStatus)
  /-- The first update of `resetStaleClaimedJobs`, over the lapsed rows. -/
  | sweep (process : ProcessId) (lapsed : List JobId)
  /-- Its second update. -/
  | requeue (call : Call) (lapsed : List JobId)
  /-- The next statement of a call. -/
  | next (call : Call)
  /-- It throws. -/
  | fails (call : Call)
  /-- Another actor cancels the job. -/
  | cancel (job : JobId)
  /-- The process dies. -/
  | die (process : ProcessId)
  deriving DecidableEq

/-- What `tryClaimJob` leaves in the row. -/
def Fleet.claimedRow (fleet : Fleet) (process : ProcessId) (row : Row) : Row where
  status := .claimed
  claimedByTokenId := some (fleet.tokenId process)
  workerInstanceId := some (fleet.instanceId process)
  claims := row.claims + 1

/-- The statuses that a report of an idea job writes. -/
def Reportable (status : JobStatus) : Prop :=
  status = .running ∨ status = .done ∨ status = .failed

instance (status : JobStatus) : Decidable (Reportable status) :=
  inferInstanceAs (Decidable (_ ∨ _))

/-- The process is dead: its calls and its register are gone, its locks free. -/
def World.without (world : World) (process : ProcessId) : World :=
  { world with
      locks := keepLocks world.locks fun claim => decide (claim.process ≠ process)
      register := world.register.filter fun entry => decide (entry.process ≠ process)
      calls := world.calls.filter fun call => decide (call.process ≠ process)
      dead := process :: world.dead }

/-- The jobs are all `CLAIMED` or `RUNNING`. -/
def World.AllHeld (world : World) (jobs : List JobId) : Prop :=
  ∀ job ∈ jobs, (world.rows job).status.Held

instance (world : World) (jobs : List JobId) : Decidable (world.AllHeld jobs) :=
  inferInstanceAs (Decidable (∀ _ ∈ _, _))

def execute (fleet : Fleet) (world : World) : Step → World
  | .claim process job products =>
      if process ∉ world.dead ∧ (world.rows job).status = .queued ∧
          products.Nodup then
        { world.write job (fleet.claimedRow process (world.rows job)) with
            calls :=
              ⟨process, .claimed ⟨process, job, (world.rows job).claims + 1⟩ products⟩ ::
                world.calls }
      else world
  | .refuse call =>
      if call ∈ world.calls then
        match call.doing with
        | .claimed claim _ =>
            (world.write claim.job (world.rows claim.job).failed).goOn call
              (.releasing claim.job .answer)
        | _ => world
      else world
  | .report process job status =>
      if process ∉ world.dead ∧ Reportable status ∧
          (world.rows job).claimedByTokenId = some (fleet.tokenId process) ∧
          (world.rows job).status.Held then
        { world with
            calls :=
              ⟨process, .reporting job (world.rows job).claims status⟩ ::
                world.calls }
      else world
  | .sweep process lapsed =>
      if process ∉ world.dead ∧ world.AllHeld lapsed then
        { world.writeAll lapsed Row.failed with
            calls := ⟨process, .swept lapsed⟩ :: world.calls }
      else world
  | .requeue call lapsed =>
      if call ∈ world.calls ∧ world.AllHeld lapsed then
        match call.doing with
        | .swept failed =>
            (world.writeAll lapsed Row.requeued).afterwards call (.sweep (failed ++ lapsed))
        | _ => world
      else world
  | .next call => if call ∈ world.calls then fleet.next world call else world
  | .fails call => if call ∈ world.calls then world.fails call else world
  | .cancel job =>
      if (world.rows job).status.Active then
        world.write job { world.rows job with status := .cancelled }
      else world
  | .die process => world.without process

end Locks
end Scrum4Me
