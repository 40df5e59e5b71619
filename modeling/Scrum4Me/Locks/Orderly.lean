import Scrum4Me.Locks.Register

/-!
# Claims that end where their locks can be released

The register of a process is reached by that process only, and it knows jobs, not
claims. The locks follow the claims in the runs in which a claim ends after its
setup, by a call of the process that holds the locks and that gets as far as the
release, and in which no process claims a job again while it still has to release
the locks of an earlier claim of it.
-/

namespace Scrum4Me
namespace Locks

open Foundation Jobs

/-! ## The condition -/

/-- A setup of the job is in progress. -/
def World.Preparing (world : World) (job : JobId) : Prop :=
  ∃ call ∈ world.calls, call.preparing?.map Claim.job = some job

instance (world : World) (job : JobId) : Decidable (world.Preparing job) :=
  inferInstanceAs (Decidable (∃ _ ∈ _, _))

/-- The locks registered for the current claim of the job are in this process. -/
def World.HeldIn (world : World) (process : ProcessId) (job : JobId) : Prop :=
  ∀ entry ∈ world.register, ∀ grip ∈ entry.releases,
    ¬ (grip.holder.job = job ∧ world.Live grip.holder ∧
      grip.holder.process ≠ process)

instance (world : World) (process : ProcessId) (job : JobId) :
    Decidable (world.HeldIn process job) :=
  inferInstanceAs (Decidable (∀ _ ∈ _, ∀ _ ∈ _, _))

/-- A call of the process may end the claim of the job. -/
def World.EndsIn (world : World) (process : ProcessId) (job : JobId) : Prop :=
  ¬ world.Preparing job ∧ world.HeldIn process job

instance (world : World) (process : ProcessId) (job : JobId) :
    Decidable (world.EndsIn process job) :=
  inferInstanceAs (Decidable (_ ∧ _))

/-- No lock is registered for the current claim of the job. -/
def World.Unlocked (world : World) (job : JobId) : Prop :=
  ∀ entry ∈ world.register, ∀ grip ∈ entry.releases,
    ¬ (grip.holder.job = job ∧ world.Live grip.holder)

instance (world : World) (job : JobId) : Decidable (world.Unlocked job) :=
  inferInstanceAs (Decidable (∀ _ ∈ _, ∀ _ ∈ _, _))

/-- The call still has to release the locks of the job, in the process. -/
def Call.WillRelease (call : Call) (process : ProcessId) (job : JobId) : Prop :=
  call.process = process ∧ job ∈ call.releases

instance (call : Call) (process : ProcessId) (job : JobId) :
    Decidable (call.WillRelease process job) :=
  inferInstanceAs (Decidable (_ ∧ _))

/-- The claim ends after its setup and where its locks are released. -/
def Orderly (fleet : Fleet) (world : World) : Step → Prop
  | .claim process job _ => ∀ call ∈ world.calls, ¬ call.WillRelease process job
  | .refuse _ => True
  | .report _ _ _ => True
  | .sweep process lapsed => ∀ job ∈ lapsed, world.EndsIn process job
  | .requeue call lapsed => ∀ job ∈ lapsed, world.EndsIn call.process job
  | .next call =>
      match call.doing with
      | .reporting job number status =>
          ((world.rows job).status.Held ∧ (world.rows job).claims = number) ∧
            ¬ (status.Terminal ∧ ¬ world.EndsIn call.process job)
      | .rollingBack claim =>
          ¬ (fleet.Owns call.process (world.rows claim.job) ∧
            (world.rows claim.job).claims ≠ claim.number)
      | _ => True
  | .fails call =>
      match call.doing with
      | .reported job => world.entries call.process job = []
      | .swept failed => ∀ job ∈ failed, world.entries call.process job = []
      | _ => True
  | .cancel job => ¬ world.Preparing job ∧ world.Unlocked job
  | .die _ => True

instance (fleet : Fleet) (world : World) (step : Step) :
    Decidable (Orderly fleet world step) := by
  apply @Step.casesOn (fun step => Decidable (Orderly fleet world step)) step
  case next =>
    intro call
    obtain ⟨process, doing⟩ := call
    cases doing <;> dsimp only [Orderly] <;> infer_instance
  case fails =>
    intro call
    obtain ⟨process, doing⟩ := call
    cases doing <;> dsimp only [Orderly] <;> infer_instance
  all_goals intros
  all_goals dsimp only [Orderly]
  all_goals infer_instance

/-! ## What holds under the condition -/

/-- The locks of the job are still to be released in the process. -/
def World.Pending (world : World) (process : ProcessId) (job : JobId) : Prop :=
  ∃ call ∈ world.calls, call.WillRelease process job

/-- The claim given back once the call has freed its locks. -/
def Doing.late? : Doing → Option Claim
  | .freeing _ after => after.failing?
  | .rollingBack claim => some claim
  | _ => none

structure Call.Sound (fleet : Fleet) (world : World) (call : Call) : Prop where
  live : ∀ claim, call.preparing? = some claim → world.Live claim
  alone : ∀ claim, call.preparing? = some claim → ∀ other ∈ world.calls,
    other.WillRelease call.process claim.job → other.doing.failing? = some claim
  pending : ∀ entry ∈ world.register, call.WillRelease entry.process entry.job →
    ∀ grip ∈ entry.releases, world.Live grip.holder →
      call.doing.failing? = some grip.holder
  freed : ∀ releases after, call.doing = .freeing releases after →
    ∀ grip ∈ releases, world.Live grip.holder →
      after.failing? = some grip.holder
  covered : ∀ claim left, call.doing = .syncing claim left → ∀ product ∈ left,
    ∃ entry ∈ world.register, entry.process = call.process ∧
      entry.job = claim.job ∧
      ⟨fleet.lockPath call.process product, claim⟩ ∈ entry.releases
  sole : ∀ claim, call.doing.late? = some claim → ∀ grip ∈ world.grips,
    grip.holder = claim → grip ∈ call.grips

structure Sound (fleet : Fleet) (world : World) : Prop where
  calls : ∀ call ∈ world.calls, call.Sound fleet world
  entries : ∀ entry ∈ world.register, ∀ grip ∈ entry.releases,
    world.Live grip.holder ∨ world.Pending entry.process entry.job
  handled : ∀ claim ∈ world.handled, ∀ grip ∈ world.grips, grip.holder ≠ claim

theorem start_sound (fleet : Fleet) : Sound fleet start where
  calls _ member := absurd member List.not_mem_nil
  entries _ member := absurd member List.not_mem_nil
  handled _ member := absurd member List.not_mem_nil

variable {claim : Claim}

theorem Doing.claim?_of_late {doing : Doing} (late : doing.late? = some claim) :
    doing.claim? = some claim := by
  cases doing <;> first | exact late | cases late

theorem Doing.preparing?_of_failing {doing : Doing} (failing : doing.failing? = some claim) :
    doing.preparing? = some claim := by
  cases doing <;> first | exact failing | cases failing

theorem World.live_congr {world after : World} (row : after.rows claim.job = world.rows claim.job) :
    after.Live claim ↔ world.Live claim := by
  rw [World.Live, World.Live, row]

/-- Two live claims of one job have the same key. -/
theorem World.Live.key_eq {world : World} {first second : Claim} (live : world.Live first)
    (liveSecond : world.Live second) (job : first.job = second.job) :
    first.key = second.key := by
  have number : first.number = second.number := by rw [← live.2, ← liveSecond.2, job]
  exact Prod.ext job number

theorem Claim.eq_of_key {first second : Claim} (process : first.process = second.process)
    (key : first.key = second.key) :
    first = second := by
  obtain ⟨job, number⟩ := Prod.mk.inj key
  cases first
  cases second
  cases process
  cases job
  cases number
  rfl

section Replacing

variable {fleet : Fleet} {world after : World} {old new rest : List Call}

theorem Kept.handled_key_ne
    (kept : Kept fleet world) {other : Claim} (isHandled : claim ∈ world.handled)
    (member : other ∈ world.calls.filterMap Call.claim?) :
    other.key ≠ claim.key := by
  have keys := kept.distinct
  rw [List.map_append] at keys
  exact (List.nodup_append.mp keys).2.2 _ (List.mem_map_of_mem member) _
    (List.mem_map_of_mem isHandled)

/-- Different setups are of different jobs. -/
theorem Sound.job_ne (sound : Sound fleet world) (kept : Kept fleet world)
    (before : world.calls.Perm (old ++ rest)) {first second : Call}
    (memberFirst : first ∈ old) (memberSecond : second ∈ rest) {other : Claim}
    (preparing : first.preparing? = some claim) (preparingSecond : second.preparing? = some other) :
    claim.job ≠ other.job := by
  intro job
  have known : first ∈ world.calls := before.mem_iff.mpr (List.mem_append_left _ memberFirst)
  have knownSecond : second ∈ world.calls :=
    before.mem_iff.mpr (List.mem_append_right _ memberSecond)
  have live := (sound.calls first known).live claim preparing
  have liveSecond := (sound.calls second knownSecond).live other preparingSecond
  exact kept.key_ne before (mem_claims memberFirst (Doing.claim?_of_preparing preparing))
    (mem_claims memberSecond (Doing.claim?_of_preparing preparingSecond))
    (live.key_eq liveSecond job)

/-- Some calls are replaced by others: what is to be shown of the new calls, of
the register and of the rows. -/
theorem Sound.replace (sound : Sound fleet world) (kept : Kept fleet world)
    (before : world.calls.Perm (old ++ rest)) (calls : after.calls.Perm (new ++ rest))
    (alive : ∀ call ∈ rest, ∀ claim, call.preparing? = some claim →
      world.Live claim → after.Live claim) (ended : ∀ grip ∈ after.grips, after.Live grip.holder →
      world.Live grip.holder) (register : ∀ entry ∈ after.register, entry ∈ world.register ∨
      (∀ call ∈ rest, ¬ call.WillRelease entry.process entry.job) ∧
        ∀ grip ∈ entry.releases, after.Live grip.holder)
    (syncing : ∀ call ∈ rest, ∀ claim, call.preparing? = some claim →
      ∀ entry ∈ world.register, entry.process = call.process →
        entry.job = claim.job → entry ∈ after.register) (grips : ∀ grip ∈ after.grips,
      grip ∈ world.grips ∨ grip.holder ∈ old.filterMap Call.claim?)
    (handled : ∀ claim ∈ after.handled, claim ∈ world.handled ∨
      ∀ grip ∈ after.grips, grip.holder ≠ claim)
    (releasing : ∀ call ∈ rest, ∀ claim, call.preparing? = some claim →
      ∀ other ∈ new, other.WillRelease call.process claim.job →
        ∃ earlier ∈ old, earlier.WillRelease call.process claim.job)
    (pending : ∀ entry ∈ after.register, entry ∈ world.register → ∀ grip ∈ entry.releases,
        (world.Live grip.holder ∨ ∃ call ∈ old, call.WillRelease entry.process entry.job) →
        after.Live grip.holder ∨ ∃ call ∈ new, call.WillRelease entry.process entry.job)
    (fresh : ∀ call ∈ new, call.Sound fleet after) :
    Sound fleet after := by
  have known : ∀ call ∈ rest, call ∈ world.calls := fun call member =>
    before.mem_iff.mpr (List.mem_append_right _ member)
  have mine : ∀ call ∈ rest, ∀ grip ∈ call.grips, grip ∈ after.grips :=
    fun call member grip isGrip => mem_grips.mpr (.inr
      ⟨call, calls.mem_iff.mpr (List.mem_append_right _ member), isGrip⟩)
  refine ⟨?_, ?_, ?_⟩
  · intro call member
    rcases List.mem_append.mp (calls.mem_iff.mp member) with isNew | isRest
    · exact fresh call isNew
    have was := sound.calls call (known call isRest)
    refine ⟨?_, ?_, ?_, ?_, ?_, ?_⟩
    · exact fun claim preparing => alive call isRest claim preparing (was.live claim preparing)
    · intro claim preparing other memberOther will
      rcases List.mem_append.mp (calls.mem_iff.mp memberOther) with isNew | isRest'
      · obtain ⟨earlier, isOld, willEarlier⟩ :=
          releasing call isRest claim preparing other isNew will
        have failing := was.alone claim preparing earlier
          (before.mem_iff.mpr (List.mem_append_left _ isOld)) willEarlier
        exact absurd rfl (kept.key_ne before (mem_claims isOld (Doing.claim?_of_preparing
            (Doing.preparing?_of_failing failing)))
          (mem_claims isRest (Doing.claim?_of_preparing preparing)))
      · exact was.alone claim preparing other (known other isRest') will
    · intro entry isEntry will grip isRelease live
      have isGrip : grip ∈ after.grips := mem_grips.mpr (.inl ⟨entry, isEntry, isRelease⟩)
      rcases register entry isEntry with old | ⟨never, -⟩
      · exact was.pending entry old will grip isRelease (ended grip isGrip live)
      · exact absurd will (never call isRest)
    · intro releases next doing grip isRelease live
      have isGrip : grip ∈ call.grips := by
        rw [Call.grips, doing]
        exact isRelease
      exact was.freed releases next doing grip isRelease
        (ended grip (mine call isRest grip isGrip) live)
    · intro claim left doing product isLeft
      obtain ⟨entry, isEntry, process, job, isRelease⟩ :=
        was.covered claim left doing product isLeft
      have preparing : call.preparing? = some claim := by
        rw [Call.preparing?, doing]
        rfl
      exact ⟨entry, syncing call isRest claim preparing entry isEntry process job,
        process, job, isRelease⟩
    · intro claim late grip isGrip holder
      rcases grips grip isGrip with old | isOld
      · exact was.sole claim late grip old holder
      · exact absurd (congrArg Claim.key holder) (kept.key_ne before isOld
          (mem_claims isRest (Doing.claim?_of_late late)))
  · intro entry isEntry grip isRelease
    have pended : (∃ call ∈ new, call.WillRelease entry.process entry.job) →
        after.Pending entry.process entry.job := by
      rintro ⟨call, isNew, will⟩
      exact ⟨call, calls.mem_iff.mpr (List.mem_append_left _ isNew), will⟩
    rcases register entry isEntry with isOld | ⟨-, live⟩
    · rcases sound.entries entry isOld grip isRelease with live | ⟨call, member, will⟩
      · exact (pending entry isEntry isOld grip isRelease (.inl live)).imp_right pended
      · rcases List.mem_append.mp (before.mem_iff.mp member) with wasOld | isRest
        · exact (pending entry isEntry isOld grip isRelease
            (.inr ⟨call, wasOld, will⟩)).imp_right pended
        · exact .inr ⟨call, calls.mem_iff.mpr (List.mem_append_right _ isRest), will⟩
    · exact .inl (live grip isRelease)
  · intro claim isHandled grip isGrip
    rcases handled claim isHandled with wasHandled | never
    · rcases grips grip isGrip with wasGrip | isOld
      · exact sound.handled claim wasHandled grip wasGrip
      · intro holder
        refine kept.handled_key_ne wasHandled ?_ (congrArg Claim.key holder)
        rw [(before.filterMap Call.claim?).mem_iff, List.filterMap_append]
        exact List.mem_append_left _ isOld
    · exact never grip isGrip

/-- The claims of these jobs are over, the others are as before. -/
structure EndsJobs (world after : World) (jobs : List JobId) : Prop where
  ended : ∀ claim : Claim, claim.job ∈ jobs → ¬ after.Live claim
  others : ∀ claim : Claim, claim.job ∉ jobs → (after.Live claim ↔ world.Live claim)

variable {jobs : List JobId}

theorem EndsJobs.live (ends : EndsJobs world after jobs) (live : after.Live claim) :
    claim.job ∉ jobs ∧ world.Live claim := by
  have apart : claim.job ∉ jobs := fun member => ends.ended claim member live
  exact ⟨apart, (ends.others claim apart).mp live⟩

theorem endsJobs_nil (rows : after.rows = world.rows) : EndsJobs world after [] where
  ended _ member := absurd member List.not_mem_nil
  others claim _ := World.live_congr (by rw [rows])

theorem endsJobs_write {job : JobId} {row : Row} (free : ¬ row.status.Held)
    (rows : after.rows = Function.update world.rows job row) :
    EndsJobs world after [job] where
  ended claim member := by
    rw [World.Live, rows, List.mem_singleton.mp member, Function.update_self]
    exact fun live => free live.1
  others claim apart := World.live_congr (by
    rw [rows, Function.update_of_ne fun same => apart (List.mem_singleton.mpr same)])

theorem endsJobs_writeAll {update : Row → Row} (free : ∀ row, ¬ (update row).status.Held)
    (rows : after.rows = (world.writeAll jobs update).rows) :
    EndsJobs world after jobs where
  ended claim member := by
    have row : after.rows claim.job = update (world.rows claim.job) := by
      rw [rows]
      exact if_pos member
    rw [World.Live, row]
    exact fun live => free _ live.1
  others claim apart := World.live_congr (by
    rw [rows]
    exact if_neg apart)

/-- Claims end, by calls that are to release their locks. -/
theorem Sound.ends (sound : Sound fleet world) (kept : Kept fleet world)
    (before : world.calls.Perm (old ++ rest)) (calls : after.calls.Perm (new ++ rest))
    (ends : EndsJobs world after jobs)
    (register : after.register = world.register) (grips : ∀ grip ∈ after.grips, grip ∈ world.grips)
    (handled : ∀ claim ∈ after.handled, claim ∈ world.handled ∨
      ∀ grip ∈ world.grips, grip.holder ≠ claim)
    (prepared : ∀ call ∈ rest, ∀ claim, call.preparing? = some claim → claim.job ∉ jobs)
    (released : ∀ entry ∈ world.register, ∀ grip ∈ entry.releases,
      world.Live grip.holder → grip.holder.job ∈ jobs →
        ∃ call ∈ new, call.WillRelease entry.process entry.job)
    (still : ∀ call ∈ old, ∀ process job, call.WillRelease process job →
      ∃ other ∈ new, other.WillRelease process job)
    (fresh : ∀ call ∈ new, call.claim? = none ∧ call.grips = [] ∧
      ∀ process job, call.WillRelease process job → job ∈ jobs ∨
        ∃ earlier ∈ old, earlier.WillRelease process job ∧ earlier.doing.failing? = none) :
    Sound fleet after := by
  have known : ∀ call ∈ old, call ∈ world.calls := fun call member =>
    before.mem_iff.mpr (List.mem_append_left _ member)
  refine sound.replace kept before calls ?_ (fun grip _ live => (ends.live live).2)
    (fun entry isEntry => .inl (register ▸ isEntry)) ?_ (fun grip isGrip =>
      .inl (grips grip isGrip)) ?_ ?_ ?_ ?_
  · intro call member claim preparing live
    exact (ends.others claim (prepared call member claim preparing)).mpr live
  · exact fun _ _ _ _ entry isEntry _ _ => register.symm ▸ isEntry
  · exact fun claim isHandled => (handled claim isHandled).imp_right
      fun never grip isGrip => never grip (grips grip isGrip)
  · intro call member claim preparing other isNew will
    rcases (fresh other isNew).2.2 _ _ will with isEnded | ⟨earlier, isOld, wills, -⟩
    · exact absurd isEnded (prepared call member claim preparing)
    · exact ⟨earlier, isOld, wills⟩
  · intro entry _ isEntry grip isRelease which
    rcases which with live | ⟨call, isOld, will⟩
    · by_cases isEnded : grip.holder.job ∈ jobs
      · exact .inr (released entry isEntry grip isRelease live isEnded)
      · exact .inl ((ends.others _ isEnded).mpr live)
    · exact .inr (still call isOld _ _ will)
  · intro call isNew
    obtain ⟨noClaim, noGrips, wills⟩ := fresh call isNew
    have notPreparing : ∀ claim, call.preparing? ≠ some claim := by
      intro claim preparing
      have claims : call.claim? = some claim := Doing.claim?_of_preparing preparing
      rw [noClaim] at claims
      cases claims
    refine ⟨fun claim preparing => absurd preparing (notPreparing claim),
      fun claim preparing => absurd preparing (notPreparing claim), ?_, ?_, ?_, ?_⟩
    · intro entry isEntry will grip isRelease live
      have wasEntry : entry ∈ world.register := register ▸ isEntry
      obtain ⟨apart, wasLive⟩ := ends.live live
      rcases wills _ _ will with isEnded | ⟨earlier, isOld, willEarlier, none⟩
      · rw [(kept.filed entry wasEntry grip isRelease).2] at apart
        exact absurd isEnded apart
      · have failing := (sound.calls earlier (known earlier isOld)).pending entry
          wasEntry willEarlier grip isRelease wasLive
        rw [none] at failing
        cases failing
    · intro releases next doing grip isRelease
      rw [Call.grips, doing] at noGrips
      have empty : releases = [] := noGrips
      rw [empty] at isRelease
      exact absurd isRelease List.not_mem_nil
    · intro claim left doing
      refine absurd ?_ (notPreparing claim)
      rw [Call.preparing?, doing]
      rfl
    · intro claim late
      have claims : call.claim? = some claim := Doing.claim?_of_late late
      rw [noClaim] at claims
      cases claims

end Replacing

section Moving

variable {fleet : Fleet} {world middle : World} {call : Call}

/-- A call may go on with this while rows and register stay. -/
structure Call.Leads (call : Call) (doing : Doing) : Prop where
  grips : ∀ grip ∈ doing.grips, grip ∈ call.grips ∨ call.claim? = some grip.holder := by
    simp [Doing.grips, Call.grips]
  claims : ∀ claim, doing.preparing? = some claim → call.preparing? = some claim := by
    simp [Doing.preparing?, Call.preparing?, Doing.failing?, After.failing?]
  self : ∀ claim, doing.preparing? = some claim →
      claim.job ∈ doing.releases → doing.failing? = some claim := by
    simp [Doing.preparing?, Doing.releases, Doing.failing?, After.failing?, After.jobs]
  releases : ∀ job ∈ doing.releases,
      (job ∈ call.releases ∧ doing.failing? = call.doing.failing?) ∨
        ∃ claim, call.preparing? = some claim ∧ claim.job = job ∧
          claim.process = call.process ∧ doing.failing? = some claim := by
    simp [Doing.releases, Call.releases, Doing.failing?, After.failing?, After.jobs]
  pending : ∀ job ∈ call.releases, job ∈ doing.releases := by
    simp [Doing.releases, Call.releases, After.jobs]
  freed : ∀ releases after, doing = .freeing releases after →
      ∃ earlier, call.doing = .freeing earlier after ∧
        ∀ grip ∈ releases, grip ∈ earlier := by
    simp
  covered : ∀ claim left, doing = .syncing claim left →
      ∃ earlier, call.doing = .syncing claim earlier ∧
        ∀ product ∈ left, product ∈ earlier := by
    simp
  sole : ∀ claim, doing.late? = some claim → call.doing.late? = some claim := by
    simp [Doing.late?, After.failing?]

/-- The call goes on; rows and register stay. -/
theorem Sound.proceed
    (sound : Sound fleet world) (kept : Kept fleet world) (member : call ∈ world.calls)
    {doing : Doing} (leads : call.Leads doing) (calls : middle.calls = world.calls)
    (rows : middle.rows = world.rows) (register : middle.register = world.register)
    (handled : middle.handled = world.handled) :
    Sound fleet (middle.goOn call doing) := by
  have before := calls_perm member
  have after := @goOn_calls_perm _ _ call doing calls
  have split := goOn_grips_perm middle call doing
  have others : middle.otherGrips call = world.otherGrips call := by
    rw [World.otherGrips, World.otherGrips, register, calls]
  rw [others] at split
  have was := sound.calls call member
  have live : ∀ claim, (middle.goOn call doing).Live claim ↔ world.Live claim :=
    fun claim => World.live_congr (congrFun rows claim.job)
  have held : ∀ grip ∈ (middle.goOn call doing).grips,
      grip ∈ world.grips ∨ grip.holder ∈ [call].filterMap Call.claim? := by
    intro grip isGrip
    rcases List.mem_append.mp (split.mem_iff.mp isGrip) with isMine | isOther
    · rcases leads.grips grip isMine with wasMine | claims
      · exact .inl ((grips_perm member).mem_iff.mpr (List.mem_append_left _ wasMine))
      · exact .inr (mem_claims List.mem_cons_self claims)
    · exact .inl ((grips_perm member).mem_iff.mpr (List.mem_append_right _ isOther))
  refine sound.replace kept before after (fun _ _ claim _ isLive => (live claim).mpr isLive)
    (fun grip _ isLive => (live grip.holder).mp isLive)
    (fun entry isEntry => .inl (register ▸ isEntry))
    (fun _ _ _ _ entry isEntry _ _ => register.symm ▸ isEntry) held
    (fun claim isHandled => .inl (handled ▸ isHandled)) ?_ ?_ ?_
  · intro other isRest claim preparing new isNew will
    obtain rfl := List.mem_singleton.mp isNew
    rcases leads.releases _ will.2 with ⟨earlier, -⟩ | ⟨mine, preparingMine, job, -, -⟩
    · exact ⟨call, List.mem_cons_self, will.1, earlier⟩
    · exact absurd job (sound.job_ne kept before List.mem_cons_self isRest preparingMine preparing)
  · intro entry _ isEntry grip isRelease which
    rcases which with isLive | ⟨earlier, isOld, will⟩
    · exact .inl ((live _).mpr isLive)
    · obtain rfl := List.mem_singleton.mp isOld
      exact .inr ⟨_, List.mem_cons_self, will.1, leads.pending _ will.2⟩
  · intro new isNew
    obtain rfl := List.mem_singleton.mp isNew
    refine ⟨?_, ?_, ?_, ?_, ?_, ?_⟩
    · exact fun claim preparing => (live claim).mpr (was.live claim (leads.claims claim preparing))
    · intro claim preparing other isOther will
      rcases List.mem_cons.mp (after.mem_iff.mp isOther) with rfl | isRest
      · exact leads.self claim preparing will.2
      · exact was.alone claim (leads.claims claim preparing) other (List.mem_of_mem_erase isRest) will
    · intro entry isEntry will grip isRelease isLive
      have wasEntry : entry ∈ world.register := register ▸ isEntry
      have wasLive := (live _).mp isLive
      rcases leads.releases _ will.2 with
        ⟨earlier, same⟩ | ⟨claim, preparing, job, process, failing⟩
      · rw [same]
        exact was.pending entry wasEntry ⟨will.1, earlier⟩ grip isRelease wasLive
      · have filed := kept.filed entry wasEntry grip isRelease
        have key := (was.live claim preparing).key_eq wasLive (job.trans filed.2.symm)
        have same : claim = grip.holder :=
          Claim.eq_of_key (process.trans (will.1.trans filed.1.symm)) key
        rw [failing, same]
    · intro list next same grip isRelease isLive
      obtain ⟨earlier, doingWas, subset⟩ := leads.freed list next same
      exact was.freed earlier next doingWas grip (subset grip isRelease) ((live _).mp isLive)
    · intro claim left same product isLeft
      obtain ⟨earlier, doingWas, subset⟩ := leads.covered claim left same
      obtain ⟨entry, isEntry, found⟩ :=
        was.covered claim earlier doingWas product (subset product isLeft)
      exact ⟨entry, register.symm ▸ isEntry, found⟩
    · intro claim late grip isGrip holder
      have lateWas := leads.sole claim late
      rcases List.mem_append.mp (split.mem_iff.mp isGrip) with isMine | isOther
      · exact isMine
      · have paths := (kept.custody.perm (grips_perm member)).once
        have known : grip ∈ world.grips :=
          (grips_perm member).mem_iff.mpr (List.mem_append_right _ isOther)
        have mine := was.sole claim lateWas grip known holder
        rw [List.map_append] at paths
        exact absurd rfl ((List.nodup_append.mp paths).2.2 _
          (List.mem_map_of_mem mine) _ (List.mem_map_of_mem isOther))

/-- The call returns, with nothing left to release. -/
theorem Sound.leave
    (sound : Sound fleet world) (kept : Kept fleet world) (member : call ∈ world.calls)
    (calls : middle.calls = world.calls) {jobs : List JobId}
    (ends : EndsJobs world middle jobs) (register : middle.register = world.register)
    (handled : ∀ claim ∈ middle.handled, claim ∈ world.handled ∨
      ∀ grip ∈ world.grips, grip.holder ≠ claim)
    (prepared : ∀ other ∈ world.calls.erase call, ∀ claim,
      other.preparing? = some claim → claim.job ∉ jobs)
    (released : ∀ entry ∈ world.register, ∀ grip ∈ entry.releases,
      world.Live grip.holder → grip.holder.job ∉ jobs)
    (still : ∀ entry ∈ world.register, ¬ call.WillRelease entry.process entry.job) :
    Sound fleet (middle.leave call) := by
  have before := calls_perm member
  have after := @leave_calls_perm _ _ call calls
  have grips : ∀ grip ∈ (middle.leave call).grips, grip ∈ world.grips := by
    intro grip isGrip
    rw [leave_grips, World.otherGrips, register, calls] at isGrip
    exact (grips_perm member).mem_iff.mpr (List.mem_append_right _ isGrip)
  refine sound.replace kept before after ?_ (fun grip _ live => (ends.live live).2)
    (fun entry isEntry => .inl (register ▸ isEntry))
    (fun _ _ _ _ entry isEntry _ _ => register.symm ▸ isEntry)
    (fun grip isGrip => .inl (grips grip isGrip))
    (fun claim isHandled => (handled claim isHandled).imp_right
      fun never grip isGrip => never grip (grips grip isGrip))
    (fun _ _ _ _ _ isNew => absurd isNew List.not_mem_nil) ?_
    (List.forall_mem_nil _)
  · intro other isRest claim preparing live
    exact (ends.others claim (prepared other isRest claim preparing)).mpr live
  · intro entry _ isEntry grip isRelease which
    rcases which with live | ⟨earlier, isOld, will⟩
    · exact .inl ((ends.others _ (released entry isEntry grip isRelease live)).mpr live)
    · obtain rfl := List.mem_singleton.mp isOld
      exact absurd will (still entry isEntry)

end Moving

end Locks
end Scrum4Me
