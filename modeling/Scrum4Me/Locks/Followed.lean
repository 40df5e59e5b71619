import Scrum4Me.Locks.Orderly

/-!
# Product worktree locks follow the claim

In every run whose steps are orderly a product worktree is reset under its lock
only, a setup whose failure has been handled has left no lock, no lock of a live
claim is freed but by the failure of its own setup or the death of its process,
and between calls every lock belongs to a live claim.
-/

namespace Scrum4Me
namespace Locks

open Foundation Jobs

section Steps

variable {fleet : Fleet} {world : World} {call : Call}

/-- A call without pending releases returns. -/
theorem Sound.returned
    (sound : Sound fleet world) (kept : Kept fleet world) (member : call ∈ world.calls)
    (still : ∀ entry ∈ world.register, ¬ call.WillRelease entry.process entry.job) :
    Sound fleet (world.leave call) :=
  @Sound.leave fleet world world call sound kept member rfl [] (endsJobs_nil rfl) rfl
    (fun _ isHandled => .inl isHandled) (fun _ _ _ _ => List.not_mem_nil)
    (fun _ _ _ _ _ => List.not_mem_nil) still

variable {job : JobId}

theorem nothing_pending (none : call.releases = []) {process : ProcessId} :
    ¬ call.WillRelease process job := by
  intro will
  rw [Call.WillRelease, none] at will
  exact absurd will.2 List.not_mem_nil

theorem Sound.afterwards {process : ProcessId} {after : After} (sound : Sound fleet world)
    (kept : Kept fleet world) (member : ⟨process, .freeing [] after⟩ ∈ world.calls) :
    Sound fleet (world.afterwards ⟨process, .freeing [] after⟩ after) := by
  cases after with
  | answer => exact sound.returned kept member fun _ _ => nothing_pending rfl
  | rollback claim => exact sound.proceed kept member {} rfl rfl rfl rfl
  | sweep jobs =>
    cases jobs with
    | nil => exact sound.returned kept member fun _ _ => nothing_pending rfl
    | cons job rest => exact sound.proceed kept member {} rfl rfl rfl rfl

variable {products : List ProductId}

/-- The last lock is taken: the releases go into the register. -/
theorem Sound.registers {process : ProcessId} {claim : Claim}
    {taken : List (Grip Path Claim)} (sound : Sound fleet world) (kept : Kept fleet world)
    (member : ⟨process, .acquiring claim products taken []⟩ ∈ world.calls) :
    Sound fleet ((world.registerReleases ⟨process, claim.job, taken⟩).goOn
      ⟨process, .acquiring claim products taken []⟩ (.syncing claim products)) := by
  have fits := kept.fits _ member
  have was := sound.calls _ member
  have split := grips_perm member
  have before : world.calls.Perm ([⟨process, .acquiring claim products taken []⟩] ++
      world.calls.erase ⟨process, .acquiring claim products taken []⟩) :=
    List.perm_cons_erase member
  have known : ∀ grip ∈ ((world.registerReleases ⟨process, claim.job, taken⟩).goOn
      ⟨process, .acquiring claim products taken []⟩
      (.syncing claim products)).grips, grip ∈ world.grips := by
    intro grip isGrip
    rcases mem_grips.mp isGrip with ⟨entry, isEntry, isRelease⟩ | ⟨call, isCall, mine⟩
    · rcases mem_inserted.mp isEntry with isOld | rfl
      · exact mem_grips.mpr (.inl ⟨entry, isOld, isRelease⟩)
      · exact split.mem_iff.mpr (List.mem_append_left _ isRelease)
    · rcases List.mem_cons.mp isCall with rfl | isRest
      · exact absurd mine List.not_mem_nil
      · exact mem_grips.mpr (.inr ⟨call, List.mem_of_mem_erase isRest, mine⟩)
  have apart : ∀ call ∈ world.calls.erase ⟨process, .acquiring claim products taken []⟩,
      ¬ call.WillRelease process claim.job := by
    intro call isRest will
    have failing := was.alone claim rfl call (List.mem_of_mem_erase isRest) will
    exact absurd rfl (kept.key_ne before (mem_claims List.mem_cons_self rfl)
      (mem_claims isRest (Doing.claim?_of_preparing (Doing.preparing?_of_failing failing))))
  refine @Sound.replace fleet world _ _ [_] _ sound kept before (List.Perm.refl _)
    (fun _ _ _ _ live => live) (fun _ _ live => live) ?_
    (fun _ _ _ _ entry isEntry _ _ => List.mem_append_left _ isEntry)
    (fun grip isGrip => .inl (known grip isGrip))
    (fun _ isHandled => .inl isHandled) ?_ ?_ ?_
  · intro entry isEntry
    rcases mem_inserted.mp isEntry with isOld | rfl
    · exact .inl isOld
    · refine .inr ⟨apart, fun grip isTaken => ?_⟩
      rw [fits.2.2.2 grip isTaken]
      exact was.live claim rfl
  · intro call _ other _ new isNew will
    obtain rfl := List.mem_singleton.mp isNew
    exact absurd will.2 List.not_mem_nil
  · intro entry _ isEntry grip isRelease which
    rcases which with live | ⟨earlier, isOld, will⟩
    · exact .inl live
    · obtain rfl := List.mem_singleton.mp isOld
      exact absurd will.2 List.not_mem_nil
  · intro new isNew
    obtain rfl := List.mem_singleton.mp isNew
    refine ⟨fun other preparing => was.live other preparing, ?_, ?_,
      fun _ _ other => Doing.noConfusion other, ?_, fun _ none => absent none⟩
    · intro other preparing call isCall will
      obtain rfl := Option.some.inj preparing
      rcases List.mem_cons.mp isCall with rfl | isRest
      · exact absurd will.2 List.not_mem_nil
      · exact absurd will (apart call isRest)
    · exact fun _ _ will => absurd will.2 List.not_mem_nil
    · intro other left same product isLeft
      obtain ⟨rfl, rfl⟩ := Doing.syncing.inj same
      refine ⟨⟨process, claim.job, taken⟩, List.mem_append_right _ List.mem_cons_self, rfl, rfl, ?_⟩
      have order : taken.reverse.map Grip.path = fleet.lockOrder process products := by
        have whole := fits.2.2.1
        rw [List.append_nil] at whole
        exact whole
      have inOrder : fleet.lockPath process product ∈ taken.reverse.map Grip.path := by
        rw [order]
        exact (fleet.lockOrder_perm process products).mem_iff.mpr (List.mem_map_of_mem isLeft)
      obtain ⟨grip, isTaken, path⟩ := List.mem_map.mp inOrder
      have isTaken := List.mem_reverse.mp isTaken
      have holder := fits.2.2.2 grip isTaken
      rw [← path, ← holder]
      exact isTaken

/-- The releases of the job leave the register. -/
theorem Sound.unregisters {process : ProcessId} {next : After} (sound : Sound fleet world)
    (kept : Kept fleet world) (member : ⟨process, .releasing job next⟩ ∈ world.calls) :
    Sound fleet ((world.unregister process job).goOn ⟨process, .releasing job next⟩
      (.freeing ((world.entries process job).flatMap Entry.releases) next)) := by
  have fits := kept.fits _ member
  have was := sound.calls _ member
  have before := calls_perm member
  have listed : ∀ grip ∈ (world.entries process job).flatMap Entry.releases,
      ∃ entry ∈ world.register, (entry.process = process ∧ entry.job = job) ∧
        grip ∈ entry.releases := by
    intro grip isGrip
    obtain ⟨entry, isEntry, isRelease⟩ := List.mem_flatMap.mp isGrip
    obtain ⟨isOld, mine⟩ := List.mem_filter.mp isEntry
    exact ⟨entry, isOld, of_decide_eq_true mine, isRelease⟩
  have known : ∀ grip ∈ ((world.unregister process job).goOn ⟨process, .releasing job next⟩
      (.freeing ((world.entries process job).flatMap Entry.releases) next)).grips,
      grip ∈ world.grips := by
    intro grip isGrip
    rcases mem_grips.mp isGrip with ⟨entry, isEntry, isRelease⟩ | ⟨call, isCall, mine⟩
    · exact mem_grips.mpr (.inl ⟨entry, List.mem_of_mem_filter isEntry, isRelease⟩)
    · rcases List.mem_cons.mp isCall with rfl | isRest
      · obtain ⟨entry, isOld, -, isRelease⟩ := listed grip mine
        exact mem_grips.mpr (.inl ⟨entry, isOld, isRelease⟩)
      · exact mem_grips.mpr (.inr ⟨call, List.mem_of_mem_erase isRest, mine⟩)
  have willNow : Call.WillRelease ⟨process, .releasing job next⟩ process job :=
    ⟨rfl, List.mem_cons_self⟩
  refine @Sound.replace fleet world _ _ [_] _ sound kept before (List.Perm.refl _)
    (fun _ _ _ _ live => live) (fun _ _ live => live)
    (fun entry isEntry => .inl (List.mem_of_mem_filter isEntry)) ?_
    (fun grip isGrip => .inl (known grip isGrip))
    (fun _ isHandled => .inl isHandled) ?_ ?_ ?_
  · intro call isRest claim preparing entry isEntry sameProcess sameJob
    refine List.mem_filter.mpr ⟨isEntry, decide_eq_true fun mine => ?_⟩
    -- the locks of a setup in progress are released by nobody else
    have failing := (sound.calls call (List.mem_of_mem_erase isRest)).alone claim
      preparing _ member ⟨(mine.1.symm.trans sameProcess), by
        rw [← sameJob, mine.2]
        exact List.mem_cons_self⟩
    exact absurd rfl (kept.key_ne before (mem_claims List.mem_cons_self (Doing.claim?_of_preparing
        (Doing.preparing?_of_failing failing)))
      (mem_claims isRest (Doing.claim?_of_preparing preparing)))
  · intro call _ claim _ new isNew will
    obtain rfl := List.mem_singleton.mp isNew
    exact ⟨_, List.mem_cons_self, will.1, List.mem_cons_of_mem job will.2⟩
  · intro entry isEntry _ grip isRelease which
    rcases which with live | ⟨earlier, isOld, will⟩
    · exact .inl live
    · obtain rfl := List.mem_singleton.mp isOld
      refine .inr ⟨_, List.mem_cons_self, will.1, ?_⟩
      have apart := of_decide_eq_true (List.mem_filter.mp isEntry).2
      rcases List.mem_cons.mp will.2 with same | later
      · exact absurd ⟨will.1.symm, same⟩ apart
      · exact later
  · intro new isNew
    obtain rfl := List.mem_singleton.mp isNew
    refine ⟨fun claim preparing => was.live claim preparing, ?_, ?_, ?_,
      fun _ _ other => Doing.noConfusion other, ?_⟩
    · intro claim preparing call isCall will
      rcases List.mem_cons.mp isCall with rfl | isRest
      · exact preparing
      · exact was.alone claim preparing call (List.mem_of_mem_erase isRest) will
    · intro entry isEntry will grip isRelease live
      exact was.pending entry (List.mem_of_mem_filter isEntry)
        ⟨will.1, List.mem_cons_of_mem job will.2⟩ grip isRelease live
    · intro releases after same grip isRelease live
      obtain ⟨rfl, rfl⟩ := Doing.freeing.inj same
      obtain ⟨entry, isOld, mine, inEntry⟩ := listed grip isRelease
      exact was.pending entry isOld ⟨mine.1.symm, by
        rw [mine.2]
        exact List.mem_cons_self⟩ grip inEntry live
    · intro claim late grip isGrip holder
      obtain ⟨sameProcess, sameJob⟩ := fits claim late
      have live := was.live claim late
      rcases mem_grips.mp isGrip with ⟨entry, isEntry, isRelease⟩ | ⟨call, isCall, mine⟩
      · obtain ⟨isOld, apart⟩ := List.mem_filter.mp isEntry
        have filed := kept.filed entry isOld grip isRelease
        rw [holder] at filed
        exact absurd ⟨filed.1.symm.trans sameProcess, filed.2.symm.trans sameJob⟩
          (of_decide_eq_true apart)
      · rcases List.mem_cons.mp isCall with rfl | isRest
        · exact mine
        · -- no other call keeps locks of this claim
          have isCall := List.mem_of_mem_erase isRest
          have other : call.claim? = some claim := by
            obtain ⟨owner, doing⟩ := call
            have fitsOther := kept.fits _ isCall
            cases doing with
            | acquiring otherClaim products taken left =>
              rw [← holder, fitsOther.2.2.2 grip mine]
              rfl
            | undoing otherClaim taken =>
              rw [← holder, fitsOther.2 grip mine]
              rfl
            | freeing releases after =>
              have failing := (sound.calls _ isCall).freed releases after rfl grip
                mine (holder ▸ live)
              rw [holder] at failing
              exact failing
            | _ => exact absurd mine List.not_mem_nil
          exact absurd rfl (kept.key_ne before
            (mem_claims List.mem_cons_self (Doing.claim?_of_preparing late))
            (mem_claims isRest other))

/-- `rollbackClaim` is done with: no lock of the claim is left. -/
theorem Sound.rolledBack
    {process : ProcessId} {claim : Claim} {middle : World} (sound : Sound fleet world)
    (kept : Kept fleet world) (member : ⟨process, .rollingBack claim⟩ ∈ world.calls)
    (calls : middle.calls = world.calls) {jobs : List JobId}
    (ends : EndsJobs world middle jobs) (register : middle.register = world.register)
    (handled : middle.handled = claim :: world.handled)
    (current : ∀ job ∈ jobs, job = claim.job ∧ world.Live claim) :
    Sound fleet (middle.leave ⟨process, .rollingBack claim⟩) := by
  have before := calls_perm member
  have none : ∀ grip ∈ world.grips, grip.holder ≠ claim := fun grip isGrip holder =>
    absurd ((sound.calls _ member).sole claim rfl grip isGrip holder) List.not_mem_nil
  refine sound.leave kept member calls ends register ?_ ?_ ?_ fun _ _ => nothing_pending rfl
  · intro other isHandled
    rw [handled] at isHandled
    rcases List.mem_cons.mp isHandled with rfl | wasHandled
    · exact .inr none
    · exact .inl wasHandled
  · intro other isRest claimed preparing isEnded
    obtain ⟨job, live⟩ := current _ isEnded
    have liveOther := (sound.calls other (List.mem_of_mem_erase isRest)).live claimed preparing
    exact kept.key_ne before (mem_claims List.mem_cons_self rfl)
      (mem_claims isRest (Doing.claim?_of_preparing preparing))
      (live.key_eq liveOther job.symm)
  · intro entry isEntry grip isRelease liveGrip isEnded
    obtain ⟨job, live⟩ := current _ isEnded
    have isGrip : grip ∈ world.grips := mem_grips.mpr (.inl ⟨entry, isEntry, isRelease⟩)
    exact none grip isGrip (kept.named grip isGrip claim
      (List.mem_append_left _ (mem_claims member rfl)) (liveGrip.key_eq live job))

/-- A report of the claim that the row is still under. -/
theorem Sound.reports {process : ProcessId} {number : Nat} {status : JobStatus}
    (sound : Sound fleet world) (kept : Kept fleet world)
    (member : ⟨process, .reporting job number status⟩ ∈ world.calls)
    (current : (world.rows job).status.Held ∧ (world.rows job).claims = number)
    (ending : ¬ (status.Terminal ∧ ¬ world.EndsIn process job)) :
    Sound fleet (fleet.next world ⟨process, .reporting job number status⟩) := by
  have before := calls_perm member
  show Sound fleet (if status.Terminal then _ else _)
  split
  case isTrue terminal =>
    have ends : world.EndsIn process job :=
      Decidable.not_not.mp fun never => ending ⟨terminal, never⟩
    refine @Sound.ends fleet world _ _ [_] _ [job] sound kept before (List.Perm.refl _)
      (endsJobs_write (fun held => terminal held.active) rfl) rfl ?_
      (fun _ isHandled => .inl isHandled) ?_ ?_ ?_ ?_
    · intro grip isGrip
      exact (grips_perm member).mem_iff.mpr ((goOn_grips_perm _ _ _).mem_iff.mp isGrip)
    · intro call isRest claim preparing isEnded
      refine ends.1 ⟨call, List.mem_of_mem_erase isRest, ?_⟩
      rw [preparing, Option.map_some, List.mem_singleton.mp isEnded]
    · intro entry isEntry grip isRelease live isEnded
      have filed := kept.filed entry isEntry grip isRelease
      have sameJob := List.mem_singleton.mp isEnded
      refine ⟨_, List.mem_cons_self, ?_, ?_⟩
      · rw [← filed.1]
        exact (Decidable.not_not.mp fun apart =>
          ends.2 entry isEntry grip isRelease ⟨sameJob, live, apart⟩).symm
      · rw [← filed.2, sameJob]
        exact List.mem_cons_self
    · intro earlier isOld other otherJob will
      obtain rfl := List.mem_singleton.mp isOld
      exact absurd will (nothing_pending rfl)
    · intro new isNew
      obtain rfl := List.mem_singleton.mp isNew
      exact ⟨rfl, rfl, fun _ _ will => .inl will.2⟩
  case isFalse running =>
    have status_eq : status = .running := by
      rcases kept.fits _ member with same | rfl | rfl
      · exact same
      · exact absurd (by decide) running
      · exact absurd (by decide) running
    refine sound.leave kept member rfl ⟨?_, fun claim _ => ?_⟩ rfl
      (fun _ isHandled => .inl isHandled) (fun _ _ _ _ => List.not_mem_nil)
      (fun _ _ _ _ _ => List.not_mem_nil) fun _ _ => nothing_pending rfl
    · exact fun _ isJob => absurd isJob List.not_mem_nil
    · subst status_eq
      by_cases same : claim.job = job
      · subst same
        have row : (world.write claim.job
            { world.rows claim.job with status := .running }).rows claim.job =
            { world.rows claim.job with status := .running } := Function.update_self ..
        rw [World.Live, World.Live, row]
        exact ⟨fun live => ⟨current.1, live.2⟩, fun live => ⟨.inr rfl, live.2⟩⟩
      · exact World.live_congr (Function.update_of_ne same ..)

/-- Every statement of a call keeps the locks with their claims. -/
theorem next_sound
    (sound : Sound fleet world) (kept : Kept fleet world) (member : call ∈ world.calls)
    (orderly : Orderly fleet world (.next call)) :
    Sound fleet (fleet.next world call) := by
  obtain ⟨process, doing⟩ := call
  have fits := kept.fits _ member
  cases doing with
  | claimed claim products =>
    show Sound fleet (if products = [] then _ else _)
    split
    · exact sound.proceed kept member {} rfl rfl rfl rfl
    · exact sound.proceed kept member {} rfl rfl rfl rfl
  | acquiring claim products taken left =>
    cases left with
    | nil => exact sound.registers kept member
    | cons path rest =>
      show Sound fleet (if world.locks path = none then _ else _)
      split
      · refine sound.proceed kept member { grips := ?_ } rfl rfl rfl rfl
        intro grip isGrip
        rcases List.mem_cons.mp isGrip with rfl | known
        · exact .inr rfl
        · exact .inl known
      · exact sound
  | undoing claim taken =>
    cases taken with
    | nil => exact sound.proceed kept member {} rfl rfl rfl rfl
    | cons grip rest =>
      exact sound.proceed kept member
        { grips := fun _ isGrip => .inl (List.mem_cons_of_mem _ isGrip) } rfl rfl rfl rfl
  | syncing claim left =>
    cases left with
    | nil => exact sound.proceed kept member {} rfl rfl rfl rfl
    | cons product rest =>
      refine sound.proceed kept member { covered := ?_ } rfl rfl rfl rfl
      intro other left same
      obtain ⟨rfl, rfl⟩ := Doing.syncing.inj same
      exact ⟨_, rfl, fun _ isLeft => List.mem_cons_of_mem _ isLeft⟩
  | building claim => exact sound.returned kept member fun _ _ => nothing_pending rfl
  | releasing job after => exact sound.unregisters kept member
  | freeing releases after =>
    cases releases with
    | nil => exact sound.afterwards kept member
    | cons grip rest =>
      refine sound.proceed kept member
        { grips := fun _ isGrip => .inl (List.mem_cons_of_mem _ isGrip)
          self := fun _ found _ => found
          releases := fun _ isJob => .inl ⟨isJob, rfl⟩
          freed := ?_ } rfl rfl rfl rfl
      intro others next same
      obtain ⟨rfl, rfl⟩ := Doing.freeing.inj same
      exact ⟨_, rfl, fun _ isGrip => List.mem_cons_of_mem _ isGrip⟩
  | rollingBack claim =>
    show Sound fleet (if fleet.Owns process (world.rows claim.job) then _ else _)
    split
    case isTrue owns =>
      have current : (world.rows claim.job).claims = claim.number :=
        Decidable.not_not.mp fun apart => orderly ⟨owns, apart⟩
      refine sound.rolledBack kept member rfl
        (endsJobs_write (Row.requeued_not_held _) rfl) rfl rfl ?_
      intro job isJob
      exact ⟨List.mem_singleton.mp isJob, owns.2.2, current⟩
    case isFalse =>
      exact sound.rolledBack kept member rfl (endsJobs_nil rfl) rfl rfl
        fun _ isJob => absurd isJob List.not_mem_nil
  | reporting job number status => exact sound.reports kept member orderly.1 orderly.2
  | reported job => exact sound.proceed kept member {} rfl rfl rfl rfl
  | swept failed => exact sound

/-- So does every failure but that of a call that has ended claims. -/
theorem fails_sound
    (sound : Sound fleet world) (kept : Kept fleet world) (member : call ∈ world.calls)
    (orderly : Orderly fleet world (.fails call)) :
    Sound fleet (world.fails call) := by
  obtain ⟨process, doing⟩ := call
  have fits := kept.fits _ member
  have unregistered : ∀ job, world.entries process job = [] →
      ∀ entry ∈ world.register, ¬ (process = entry.process ∧ entry.job = job) := by
    intro job none entry isEntry mine
    have isMine : entry ∈ world.entries process job :=
      List.mem_filter.mpr ⟨isEntry, decide_eq_true ⟨mine.1.symm, mine.2⟩⟩
    rw [none] at isMine
    exact absurd isMine List.not_mem_nil
  cases doing with
  | acquiring claim products taken left =>
    refine sound.proceed kept member { grips := fun _ isGrip => .inl isGrip, releases := ?_ } rfl rfl rfl rfl
    exact fun _ isJob => .inr ⟨claim, rfl, (List.mem_singleton.mp isJob).symm, fits.1, rfl⟩
  | syncing claim left =>
    refine sound.proceed kept member { releases := ?_ } rfl rfl rfl rfl
    exact fun _ isJob => .inr ⟨claim, rfl, (List.mem_singleton.mp isJob).symm, fits, rfl⟩
  | rollingBack claim =>
    exact sound.rolledBack kept member rfl (endsJobs_nil rfl) rfl rfl
      fun _ isJob => absurd isJob List.not_mem_nil
  | reported job =>
    refine sound.returned kept member fun entry isEntry will => ?_
    exact unregistered job orderly entry isEntry ⟨will.1, List.mem_singleton.mp will.2⟩
  | swept failed =>
    refine sound.returned kept member fun entry isEntry will => ?_
    exact unregistered _ (orderly _ will.2) entry isEntry ⟨will.1, rfl⟩
  | undoing claim taken => exact sound
  | releasing job after => exact sound
  | freeing releases after => exact sound
  | _ => exact sound.returned kept member fun _ _ => nothing_pending rfl

/-- A claim of a job whose earlier locks the process has released. -/
theorem Sound.claims (sound : Sound fleet world) (kept : Kept fleet world) {process : ProcessId}
    (queued : (world.rows job).status = .queued)
    (orderly : ∀ call ∈ world.calls, ¬ call.WillRelease process job) :
    Sound fleet
      { world.write job (fleet.claimedRow process (world.rows job)) with
          calls :=
            ⟨process, .claimed ⟨process, job, (world.rows job).claims + 1⟩ products⟩ ::
              world.calls } := by
  have mine : ∀ claim : Claim, claim.job = job → ((Function.update world.rows job
        (fleet.claimedRow process (world.rows job))) claim.job) =
          fleet.claimedRow process (world.rows job) := by
    rintro claim rfl
    exact Function.update_self ..
  have others : ∀ claim : Claim, claim.job ≠ job → ((Function.update world.rows job
        (fleet.claimedRow process (world.rows job))) claim.job) =
          world.rows claim.job := fun claim apart => Function.update_of_ne apart ..
  have notLive : ∀ claim : Claim, claim.job = job → ¬ world.Live claim := by
    rintro claim rfl live
    have held := live.1
    rw [queued] at held
    exact absurd held (by decide)
  refine @Sound.replace fleet world _ [] [_] _ sound kept (List.Perm.refl _)
    (List.Perm.refl _) ?_ ?_ (fun _ isEntry => .inl isEntry)
    (fun _ _ _ _ _ isEntry _ _ => isEntry) (fun _ isGrip => .inl isGrip)
    (fun _ isHandled => .inl isHandled) ?_ ?_ ?_
  · intro call _ claim _ live
    have apart : claim.job ≠ job := fun same => notLive claim same live
    exact (World.live_congr (others claim apart)).mpr live
  · intro grip isGrip live
    by_cases same : grip.holder.job = job
    · have number := live.2
      have row := mine grip.holder same
      have small := kept.bounded grip isGrip
      change (Function.update world.rows job _ grip.holder.job).claims = _ at number
      rw [row] at number
      rw [same, ← number] at small
      exact absurd small (Nat.not_succ_le_self _)
    · exact (World.live_congr (others grip.holder same)).mp live
  · intro call _ claim _ new isNew will
    obtain rfl := List.mem_singleton.mp isNew
    exact absurd will.2 List.not_mem_nil
  · intro entry _ isEntry grip isRelease which
    rcases which with live | ⟨call, isOld, -⟩
    · have apart : grip.holder.job ≠ job := fun same => notLive grip.holder same live
      exact .inl ((World.live_congr (others grip.holder apart)).mpr live)
    · exact absurd isOld List.not_mem_nil
  · intro new isNew
    obtain rfl := List.mem_singleton.mp isNew
    refine ⟨?_, ?_, fun _ _ will => absurd will.2 List.not_mem_nil,
      fun _ _ other => Doing.noConfusion other,
      fun _ _ other => Doing.noConfusion other, fun _ none => absent none⟩
    · intro claim preparing
      obtain rfl := Option.some.inj preparing
      show (Function.update world.rows job _ job).status.Held ∧
        (Function.update world.rows job _ job).claims = _
      rw [Function.update_self]
      exact ⟨.inl rfl, rfl⟩
    · intro claim preparing call isCall will
      obtain rfl := Option.some.inj preparing
      rcases List.mem_cons.mp isCall with rfl | known
      · exact absurd will.2 List.not_mem_nil
      · exact absurd will (orderly call known)

/-- A process dies with all it has still to release. -/
theorem Sound.without (sound : Sound fleet world) (kept : Kept fleet world) (process : ProcessId) :
    Sound fleet (world.without process) := by
  have before : world.calls.Perm
      ((world.calls.filter fun call => !decide (call.process ≠ process)) ++
        (world.without process).calls) :=
    ((List.filter_append_perm (fun call : Call => decide (call.process ≠ process))
      world.calls).symm).trans List.perm_append_comm
  have known : ∀ grip ∈ (world.without process).grips, grip ∈ world.grips := by
    intro grip isGrip
    rcases mem_grips.mp isGrip with ⟨entry, isEntry, isRelease⟩ | ⟨call, isCall, mine⟩
    · exact mem_grips.mpr (.inl ⟨entry, List.mem_of_mem_filter isEntry, isRelease⟩)
    · exact mem_grips.mpr (.inr ⟨call, List.mem_of_mem_filter isCall, mine⟩)
  refine @Sound.replace fleet world _ _ [] _ sound kept before (List.Perm.refl _)
    (fun _ _ _ _ live => live) (fun _ _ live => live)
    (fun _ isEntry => .inl (List.mem_of_mem_filter isEntry)) ?_
    (fun grip isGrip => .inl (known grip isGrip)) (fun _ isHandled => .inl isHandled)
    (fun _ _ _ _ _ isNew => absurd isNew List.not_mem_nil) ?_
    (List.forall_mem_nil _)
  · intro call isRest claim _ entry isEntry sameProcess _
    have alive := of_decide_eq_true (List.mem_filter.mp isRest).2
    exact List.mem_filter.mpr ⟨isEntry, decide_eq_true (sameProcess ▸ alive)⟩
  · intro entry isEntry _ grip isRelease which
    rcases which with live | ⟨call, isOld, will⟩
    · exact .inl live
    · have alive := of_decide_eq_true (List.mem_filter.mp isEntry).2
      have gone : ¬ call.process ≠ process := by
        have := (List.mem_filter.mp isOld).2
        simpa using this
      exact absurd (will.1.symm.trans (Decidable.not_not.mp gone)) alive

/-- The claims of the lapsed jobs end, by a call that is to release their locks. -/
theorem Sound.sweeps {after : World} {old new rest : List Call} (sound : Sound fleet world)
    (kept : Kept fleet world) (before : world.calls.Perm (old ++ rest))
    (calls : after.calls.Perm (new ++ rest)) {process : ProcessId} {lapsed : List JobId}
    (orderly : ∀ job ∈ lapsed, world.EndsIn process job)
    (ends : EndsJobs world after lapsed) (register : after.register = world.register)
    (grips : ∀ grip ∈ after.grips, grip ∈ world.grips) (handled : after.handled = world.handled)
    (released : ∀ job ∈ lapsed, ∃ call ∈ new, call.WillRelease process job)
    (still : ∀ call ∈ old, ∀ process job, call.WillRelease process job →
      ∃ other ∈ new, other.WillRelease process job)
    (fresh : ∀ call ∈ new, call.claim? = none ∧ call.grips = [] ∧
      ∀ process job, call.WillRelease process job → job ∈ lapsed ∨
        ∃ earlier ∈ old, earlier.WillRelease process job ∧ earlier.doing.failing? = none) :
    Sound fleet after := by
  refine sound.ends kept before calls ends register grips
    (fun _ isHandled => .inl (handled ▸ isHandled)) ?_ ?_ still fresh
  · intro call isRest claim preparing isEnded
    refine (orderly _ isEnded).1 ⟨call, before.mem_iff.mpr (List.mem_append_right _ isRest), ?_⟩
    rw [preparing, Option.map_some]
  · intro entry isEntry grip isRelease live isEnded
    have filed := kept.filed entry isEntry grip isRelease
    have here : grip.holder.process = process := Decidable.not_not.mp fun apart =>
      (orderly _ isEnded).2 entry isEntry grip isRelease ⟨rfl, live, apart⟩
    rw [← filed.1, ← filed.2, here]
    exact released _ isEnded

/-- Every orderly step keeps the locks with their claims. -/
theorem execute_sound (step : Step) (sound : Sound fleet world) (kept : Kept fleet world)
    (orderly : Orderly fleet world step) :
    Sound fleet (execute fleet world step) := by
  cases step with
  | claim process job products =>
    simp only [execute]
    split
    case isTrue allowed => exact sound.claims kept allowed.2.1 orderly
    case isFalse => exact sound
  | refuse call =>
    obtain ⟨process, doing⟩ := call
    simp only [execute]
    split
    case isTrue member =>
      cases doing with
      | claimed claim products =>
        have before := List.perm_cons_erase member
        refine @Sound.ends fleet world _ [_] [_] _ [claim.job] sound kept before
          (List.Perm.refl _) (endsJobs_write (Row.failed_not_held _) rfl)
          rfl ?_ (fun _ isHandled => .inl isHandled) ?_ ?_ ?_ ?_
        · exact fun grip isGrip => (grips_perm member).mem_iff.mpr
            ((goOn_grips_perm _ _ _).mem_iff.mp isGrip)
        · intro other isRest claimed preparing isEnded
          refine absurd (List.mem_singleton.mp isEnded).symm ?_
          exact @Sound.job_ne claim fleet world [_] _ sound kept before _ _
            List.mem_cons_self isRest _ rfl preparing
        · -- the setup has not taken a lock yet
          intro entry isEntry grip isRelease live isEnded
          have liveMine := (sound.calls _ member).live claim rfl
          have isGrip : grip ∈ world.grips := mem_grips.mpr (.inl ⟨entry, isEntry, isRelease⟩)
          exact absurd (kept.own _ member claim rfl grip isGrip
            (live.key_eq liveMine (List.mem_singleton.mp isEnded))) List.not_mem_nil
        · intro earlier isOld other job will
          obtain rfl := List.mem_singleton.mp isOld
          exact absurd will (nothing_pending rfl)
        · intro new isNew
          obtain rfl := List.mem_singleton.mp isNew
          exact ⟨rfl, rfl, fun _ _ will => .inl will.2⟩
      | _ => exact sound
    case isFalse => exact sound
  | report process job status =>
    simp only [execute]
    split
    · refine @Sound.ends fleet world _ [] [_] _ [] sound kept (List.Perm.refl _)
        (List.Perm.refl _) (endsJobs_nil rfl) rfl (fun _ isGrip => isGrip)
        (fun _ isHandled => .inl isHandled) (fun _ _ _ _ => List.not_mem_nil)
        (fun _ _ _ _ _ isJob => absurd isJob List.not_mem_nil)
        (List.forall_mem_nil _) ?_
      intro new isNew
      obtain rfl := List.mem_singleton.mp isNew
      exact ⟨rfl, rfl, fun _ _ will => absurd will (nothing_pending rfl)⟩
    · exact sound
  | sweep process lapsed =>
    simp only [execute]
    split
    · refine @Sound.sweeps fleet world _ [] [_] _ sound kept (List.Perm.refl _)
        (List.Perm.refl _) process lapsed orderly
        (endsJobs_writeAll Row.failed_not_held rfl) rfl
        (fun _ isGrip => isGrip) rfl
        (fun job isJob => ⟨_, List.mem_cons_self, rfl, isJob⟩)
        (List.forall_mem_nil _) ?_
      intro new isNew
      obtain rfl := List.mem_singleton.mp isNew
      exact ⟨rfl, rfl, fun _ _ will => .inl will.2⟩
    · exact sound
  | requeue call lapsed =>
    obtain ⟨process, doing⟩ := call
    simp only [execute]
    split
    case isTrue allowed =>
      obtain ⟨member, -⟩ := allowed
      cases doing with
      | swept failed =>
        have ends : EndsJobs world (world.writeAll lapsed Row.requeued) lapsed :=
          endsJobs_writeAll Row.requeued_not_held rfl
        show Sound fleet ((world.writeAll lapsed Row.requeued).afterwards _
          (.sweep (failed ++ lapsed)))
        cases whole : failed ++ lapsed with
        | nil =>
          obtain ⟨rfl, rfl⟩ := List.append_eq_nil_iff.mp whole
          exact sound.leave kept member rfl ends rfl
            (fun _ isHandled => .inl isHandled) (fun _ _ _ _ => List.not_mem_nil)
            (fun _ _ _ _ _ => List.not_mem_nil) fun _ _ => nothing_pending rfl
        | cons job rest =>
          have listed : ∀ other, other ∈ failed ∨ other ∈ lapsed ↔ other ∈ job :: rest := by
            intro other
            rw [← whole, List.mem_append]
          refine @Sound.sweeps fleet world _ [_] [_] _ sound kept
            (List.perm_cons_erase member) (List.Perm.refl _) process lapsed
            orderly ⟨ends.ended, ends.others⟩ rfl ?_ rfl ?_ ?_ ?_
          · exact fun grip isGrip => (grips_perm member).mem_iff.mpr
              ((goOn_grips_perm _ _ _).mem_iff.mp isGrip)
          · exact fun other isJob => ⟨_, List.mem_cons_self, rfl, (listed other).mp (.inr isJob)⟩
          · intro earlier isOld owner other will
            obtain rfl := List.mem_singleton.mp isOld
            exact ⟨_, List.mem_cons_self, will.1, (listed other).mp (.inl will.2)⟩
          · intro new isNew
            obtain rfl := List.mem_singleton.mp isNew
            refine ⟨rfl, rfl, fun owner other will => ?_⟩
            rcases (listed other).mpr will.2 with isFailed | isLapsed
            · exact .inr ⟨_, List.mem_cons_self, ⟨will.1, isFailed⟩, rfl⟩
            · exact .inl isLapsed
      | _ => exact sound
    case isFalse => exact sound
  | next call =>
    simp only [execute]
    split
    case isTrue member => exact next_sound sound kept member orderly
    case isFalse => exact sound
  | fails call =>
    simp only [execute]
    split
    case isTrue member => exact fails_sound sound kept member orderly
    case isFalse => exact sound
  | cancel job =>
    simp only [execute]
    split
    · refine @Sound.ends fleet world _ [] [] _ [job] sound kept (List.Perm.refl _)
        (List.Perm.refl _)
        (endsJobs_write (by show ¬ JobStatus.cancelled.Held; decide) rfl) rfl
        (fun _ isGrip => isGrip) (fun _ isHandled => .inl isHandled) ?_ ?_
        (List.forall_mem_nil _)
        (List.forall_mem_nil _)
      · intro call isRest claim preparing isEnded
        refine orderly.1 ⟨call, isRest, ?_⟩
        rw [preparing, Option.map_some, List.mem_singleton.mp isEnded]
      · intro entry isEntry grip isRelease live isEnded
        exact absurd ⟨List.mem_singleton.mp isEnded, live⟩ (orderly.2 entry isEntry grip isRelease)
    · exact sound
  | die process => exact sound.without kept process

end Steps

/-! ## The guarantee -/

/-- Of two release functions for one lock both are of one claim, the one that the
lock file is held for. -/
structure Exclusive (world : World) : Prop where
  held : ∀ grip ∈ world.grips, world.locks grip.path = some grip.holder
  once : ∀ first ∈ world.grips, ∀ second ∈ world.grips,
    first.path = second.path → first.holder = second.holder
  acyclic : ∀ claim, ¬ Relation.TransGen world.WaitsFor claim claim

/-- The locks follow the claims. -/
structure Follows (fleet : Fleet) (world : World) : Prop where
  reset : ∀ call ∈ world.calls, ∀ claim product rest,
    call.doing = .syncing claim (product :: rest) →
      world.locks (fleet.lockPath call.process product) = some claim ∧
        claim.process = call.process
  handled : ∀ claim ∈ world.handled, ∀ path, world.locks path ≠ some claim
  belongs : world.calls = [] → ∀ path claim, world.locks path = some claim →
    world.Live claim

/-- The step frees no lock of a live claim, but when the setup of the claim has
failed or its process dies. -/
def KeepsLocks (fleet : Fleet) (world : World) (step : Step) : Prop :=
  ∀ path claim, world.locks path = some claim → world.Live claim →
    (execute fleet world step).locks path ≠ some claim →
      step = .die claim.process ∨
        ∃ call ∈ world.calls, call.doing.failing? = some claim ∧ step = .next call

/-- The step frees no lock of a live claim, but when its process dies. -/
def KeepsEveryLock (fleet : Fleet) (world : World) (step : Step) : Prop :=
  ∀ path claim, world.locks path = some claim → world.Live claim →
    (execute fleet world step).locks path ≠ some claim → step = .die claim.process

/-- The step is not the failure of a setup. -/
def SetupSucceeds (_ : World) : Step → Prop
  | .fails call =>
      match call.doing with
      | .acquiring _ _ _ _ => False
      | .syncing _ _ => False
      | _ => True
  | _ => True

section Guarantee

variable {fleet : Fleet} {world : World}

theorem Kept.exclusive (kept : Kept fleet world) : Exclusive world where
  held := kept.custody.held
  once _ memberFirst _ memberSecond same := kept.custody.unique memberFirst memberSecond same
  acyclic := kept.never_cyclic

theorem Sound.follows (sound : Sound fleet world) (kept : Kept fleet world) :
    Follows fleet world where
  reset call member claim product rest doing := by
    obtain ⟨entry, isEntry, -, -, isRelease⟩ := (sound.calls call member).covered claim
      _ doing product List.mem_cons_self
    have fits := kept.fits call member
    rw [Call.Fits, doing] at fits
    exact ⟨kept.custody.held _ (mem_grips.mpr (.inl ⟨entry, isEntry, isRelease⟩)), fits⟩
  handled claim isHandled path held :=
    sound.handled claim isHandled _ (kept.custody.kept path claim held) rfl
  belongs none path claim held := by
    have isGrip := kept.custody.kept path claim held
    rcases mem_grips.mp isGrip with ⟨entry, isEntry, isRelease⟩ | ⟨call, isCall, -⟩
    · rcases sound.entries entry isEntry _ isRelease with live | ⟨call, isCall, -⟩
      · exact live
      · rw [none] at isCall
        exact absurd isCall List.not_mem_nil
    · rw [none] at isCall
      exact absurd isCall List.not_mem_nil

theorem afterwards_locks (world : World) (call : Call) (next : After) :
    (world.afterwards call next).locks = world.locks := by
  cases next with
  | answer => rfl
  | rollback claim => rfl
  | sweep jobs => cases jobs <;> rfl

theorem fails_locks (world : World) (call : Call) : (world.fails call).locks = world.locks := by
  obtain ⟨process, doing⟩ := call
  cases doing <;> rfl

/-- A statement of a call frees a lock by one of the releases that the call is
running. -/
theorem next_frees
    {path : Path} {claim : Claim} (held : world.locks path = some claim) {call : Call}
    (frees : (fleet.next world call).locks path ≠ some claim) :
    ∃ grip rest, grip.path = path ∧ ((∃ failed, call.doing = .undoing failed (grip :: rest)) ∨
        ∃ after, call.doing = .freeing (grip :: rest) after) := by
  obtain ⟨process, doing⟩ := call
  have freed : ∀ grip : Grip Path Claim,
      freeLock world.locks grip.path path ≠ some claim → grip.path = path := by
    intro grip changed
    by_contra apart
    rw [freeLock_apart (Ne.symm apart)] at changed
    exact changed held
  cases doing with
  | claimed failed products =>
    refine absurd held ?_
    have same : (fleet.next world ⟨process, .claimed failed products⟩).locks = world.locks := by
      show (if products = [] then _ else _ : World).locks = _
      split <;> rfl
    rwa [same] at frees
  | acquiring taker products taken left =>
    cases left with
    | nil => exact absurd held frees
    | cons next rest =>
      change (if world.locks next = none then _ else _ : World).locks path ≠ _ at frees
      split at frees
      case isTrue free =>
        have apart : path ≠ next := by
          rintro rfl
          rw [held] at free
          cases free
        change takeLock world.locks next taker path ≠ _ at frees
        rw [takeLock_apart apart] at frees
        exact absurd held frees
      case isFalse => exact absurd held frees
  | undoing failed taken =>
    cases taken with
    | nil => exact absurd held frees
    | cons grip rest => exact ⟨grip, rest, freed grip frees, .inl ⟨failed, rfl⟩⟩
  | freeing releases after =>
    cases releases with
    | nil =>
      change (world.afterwards _ after).locks path ≠ _ at frees
      rw [afterwards_locks] at frees
      exact absurd held frees
    | cons grip rest => exact ⟨grip, rest, freed grip frees, .inr ⟨after, rfl⟩⟩
  | syncing taker left => cases left <;> exact absurd held frees
  | rollingBack failed =>
    change (if fleet.Owns process (world.rows failed.job) then _ else _ : World).locks
      path ≠ _ at frees
    split at frees <;> exact absurd held frees
  | reporting job number status =>
    change (if status.Terminal then _ else _ : World).locks path ≠ _ at frees
    split at frees <;> exact absurd held frees
  | _ => exact absurd held frees

/-- What a call frees of a live claim it frees as the failure of its setup. -/
theorem Sound.keepsLocks (sound : Sound fleet world) (kept : Kept fleet world) (step : Step) :
    KeepsLocks fleet world step := by
  intro path claim held live frees
  cases step with
  | next call =>
    simp only [execute] at frees
    split at frees
    case isFalse => exact absurd held frees
    case isTrue member =>
      refine .inr ⟨call, member, ?_, rfl⟩
      obtain ⟨grip, rest, rfl, which⟩ := next_frees held frees
      have fits := kept.fits call member
      have isGrip : grip ∈ call.grips := by
        rw [Call.grips]
        rcases which with ⟨failed, doing⟩ | ⟨after, doing⟩ <;> rw [doing] <;>
          exact List.mem_cons_self
      have holder := kept.custody.held grip (mem_grips.mpr (.inr ⟨call, member, isGrip⟩))
      rw [held] at holder
      have same : claim = grip.holder := Option.some.inj holder
      rcases which with ⟨failed, doing⟩ | ⟨after, doing⟩
      · rw [Call.Fits, doing] at fits
        rw [doing, same, fits.2 grip List.mem_cons_self]
        rfl
      · rw [doing, same]
        exact (sound.calls call member).freed _ after doing grip List.mem_cons_self (same ▸ live)
  | die process =>
    left
    by_contra apart
    refine frees (keepLocks_eq_some.mpr ⟨held, decide_eq_true fun same => ?_⟩)
    exact apart (by rw [same])
  | fails call =>
    simp only [execute] at frees
    split at frees
    · rw [fails_locks] at frees
      exact absurd held frees
    · exact absurd held frees
  | requeue call lapsed =>
    obtain ⟨process, doing⟩ := call
    simp only [execute] at frees
    split at frees
    · cases doing with
      | swept failed =>
        change (World.afterwards _ _ (.sweep (failed ++ lapsed))).locks path ≠ _ at frees
        rw [afterwards_locks] at frees
        exact absurd held frees
      | _ => exact absurd held frees
    · exact absurd held frees
  | refuse call =>
    obtain ⟨process, doing⟩ := call
    simp only [execute] at frees
    split at frees
    · cases doing <;> exact absurd held frees
    · exact absurd held frees
  | _ =>
    simp only [execute] at frees
    split at frees <;> exact absurd held frees

/-! ### Runs in which no setup fails -/

/-- No call is handling the failure of a setup. -/
def NoneFailing (world : World) : Prop :=
  ∀ call ∈ world.calls, call.doing.failing? = none

theorem NoneFailing.goOn
    (none : NoneFailing world) {middle : World} (calls : middle.calls = world.calls)
    {call : Call} {doing : Doing} (failing : doing.failing? = Option.none) :
    NoneFailing (middle.goOn call doing) := by
  intro other member
  rcases List.mem_cons.mp member with rfl | isRest
  · exact failing
  · rw [calls] at isRest
    exact none other (List.mem_of_mem_erase isRest)

theorem NoneFailing.leave
    (none : NoneFailing world) {middle : World} (calls : middle.calls = world.calls) {call : Call} :
    NoneFailing (middle.leave call) := by
  intro other member
  have known : other ∈ middle.calls := List.mem_of_mem_erase member
  rw [calls] at known
  exact none other known

theorem NoneFailing.afterwards
    (none : NoneFailing world) {middle : World} (calls : middle.calls = world.calls)
    {call : Call} (next : After) :
    NoneFailing (middle.afterwards call next) := by
  cases next with
  | answer => exact none.leave calls
  | rollback claim => exact none.goOn calls rfl
  | sweep jobs =>
    cases jobs with
    | nil => exact none.leave calls
    | cons job rest => exact none.goOn calls rfl

theorem execute_noneFailing (world : World) (step : Step) (none : NoneFailing world)
    (succeeds : SetupSucceeds world step) :
    NoneFailing (execute fleet world step) := by
  have begins : ∀ {middle : World} (call : Call), middle.calls = call :: world.calls →
      call.doing.failing? = Option.none → NoneFailing middle := by
    intro middle call calls failing other member
    rw [calls] at member
    rcases List.mem_cons.mp member with rfl | known
    · exact failing
    · exact none other known
  cases step with
  | next call =>
    simp only [execute]
    split
    case isFalse => exact none
    case isTrue member =>
      obtain ⟨process, doing⟩ := call
      have failing := none _ member
      cases doing with
      | claimed claim products =>
        show NoneFailing (if products = [] then _ else _)
        split <;> exact none.goOn rfl rfl
      | acquiring claim products taken left =>
        cases left with
        | nil => exact none.goOn rfl rfl
        | cons path rest =>
          show NoneFailing (if world.locks path = Option.none then _ else _)
          split
          · exact none.goOn rfl rfl
          · exact none
      | undoing claim taken => cases failing
      | syncing claim left => cases left <;> exact none.goOn rfl rfl
      | building claim => exact none.leave rfl
      | releasing job after => exact none.goOn rfl failing
      | freeing releases after =>
        cases releases with
        | nil => exact none.afterwards rfl after
        | cons grip rest => exact none.goOn rfl failing
      | rollingBack claim =>
        show NoneFailing (if fleet.Owns process (world.rows claim.job) then _ else _)
        split <;> exact none.leave rfl
      | reporting job number status =>
        show NoneFailing (if status.Terminal then _ else _)
        split
        · exact none.goOn rfl rfl
        · exact none.leave rfl
      | reported job => exact none.goOn rfl rfl
      | swept failed => exact none
  | fails call =>
    obtain ⟨process, doing⟩ := call
    simp only [execute]
    split
    · cases doing with
      | acquiring claim products taken left => exact succeeds.elim
      | syncing claim left => exact succeeds.elim
      | undoing claim taken => exact none
      | releasing job after => exact none
      | freeing releases after => exact none
      | _ => exact none.leave rfl
    · exact none
  | refuse call =>
    obtain ⟨process, doing⟩ := call
    simp only [execute]
    split
    · cases doing with
      | claimed claim products => exact none.goOn rfl rfl
      | _ => exact none
    · exact none
  | requeue call lapsed =>
    obtain ⟨process, doing⟩ := call
    simp only [execute]
    split
    · cases doing with
      | swept failed =>
        exact @NoneFailing.afterwards world none (world.writeAll lapsed Row.requeued) rfl _ _
      | _ => exact none
    · exact none
  | cancel job =>
    simp only [execute]
    split <;> exact none
  | die process => exact fun call member => none call (List.mem_of_mem_filter member)
  | _ =>
    simp only [execute]
    split
    · exact begins _ rfl rfl
    · exact none

end Guarantee

section Runs

variable (fleet : Fleet)

/-- In every run release functions and lock files agree and no setups wait for each
other in a cycle. When the claims end where their locks can be released, the locks
follow them: a worktree is reset under its lock, a failed setup leaves none, no lock
of a live claim is freed but by the failure of its own setup, or not at all where no
setup fails, and between calls every lock belongs to a live claim. -/
theorem locks_follow_claims (steps : List Step) :
    Exclusive (run (execute fleet) start steps) ∧
      (EveryStep (execute fleet) (Orderly fleet) start steps →
        Follows fleet (run (execute fleet) start steps) ∧
          EveryStep (execute fleet) (KeepsLocks fleet) start steps ∧
          (EveryStep (execute fleet) SetupSucceeds start steps →
            EveryStep (execute fleet) (KeepsEveryLock fleet) start steps)) := by
  refine ⟨(run_kept fleet steps).exclusive, fun orderly => ?_⟩
  have preserved : ∀ world step,
      Kept fleet world ∧ Sound fleet world → Orderly fleet world step →
        Kept fleet (execute fleet world step) ∧
          Sound fleet (execute fleet world step) :=
    fun world step both admitted =>
      ⟨execute_kept world step both.1, execute_sound step both.2 both.1 admitted⟩
  have initially : Kept fleet start ∧ Sound fleet start :=
    ⟨start_kept fleet, start_sound fleet⟩
  have reached := run_invariant preserved initially orderly
  refine ⟨reached.2.follows reached.1, orderly.of_invariant preserved
    (fun _ step both _ => both.2.keepsLocks both.1 step) initially, fun succeeds => ?_⟩
  have together := everyStep_and.mpr ⟨orderly, succeeds⟩
  refine @EveryStep.of_invariant _ _ _ _ _
    (fun world => (Kept fleet world ∧ Sound fleet world) ∧ NoneFailing world) ?_ ?_ _ _
    ⟨initially, List.forall_mem_nil _⟩ together
  · intro world step both admitted
    exact ⟨preserved world step both.1 admitted.1,
      execute_noneFailing world step both.2 admitted.2⟩
  · intro world step both _ path claim held live frees
    rcases both.1.2.keepsLocks both.1.1 step path claim held live frees with
      died | ⟨call, member, failing, -⟩
    · exact died
    · rw [both.2 call member] at failing
      cases failing

end Runs

/-! ## Runs with one job -/

/-- Every process has one root, one token and its own instance. -/
def oneHost : Fleet where
  worktreeRoot _ := "/w"
  tokenId _ := "t"
  instanceId process := if process = 1 then "a" else "b"

/-- Process 1 claims the job and sets up its product. -/
def setupRun : List Step :=
  let claim : Claim := ⟨1, "j", 1⟩
  let path := oneHost.lockPath 1 "p"
  [.claim 1 "j" ["p"], .next ⟨1, .claimed claim ["p"]⟩,
    .next ⟨1, .acquiring claim ["p"] [] [path]⟩,
    .next ⟨1, .acquiring claim ["p"] [⟨path, claim⟩] []⟩,
    .next ⟨1, .syncing claim ["p"]⟩, .next ⟨1, .syncing claim []⟩,
    .next ⟨1, .building claim⟩]

/-- It reports the job done and releases the lock. -/
def reportRun : List Step :=
  let grip : Grip Path Claim := ⟨oneHost.lockPath 1 "p", ⟨1, "j", 1⟩⟩
  [.report 1 "j" .done, .next ⟨1, .reporting "j" 1 .done⟩,
    .next ⟨1, .reported "j"⟩, .next ⟨1, .releasing "j" .answer⟩,
    .next ⟨1, .freeing [grip] .answer⟩, .next ⟨1, .freeing [] .answer⟩]

theorem locks_follow_claims_reported :
    EveryStep (execute oneHost) (Orderly oneHost) start (setupRun ++ reportRun) ∧
      Follows oneHost (run (execute oneHost) start (setupRun ++ reportRun)) := by
  have orderly : EveryStep (execute oneHost) (Orderly oneHost) start (setupRun ++ reportRun) := by
    decide +kernel
  exact ⟨orderly, ((locks_follow_claims oneHost (setupRun ++ reportRun)).2 orderly).1⟩

/-- The job is cancelled while the agent works on it: the report that would release
the lock returns early, and the lock stays with the process. -/
theorem cancelled_keeps_lock :
    ¬ ∀ (fleet : Fleet) (steps : List Step),
      Follows fleet (run (execute fleet) start steps) := by
  intro always
  have follows := always oneHost (setupRun ++ [.cancel "j", .report 1 "j" .failed])
  have idle : (run (execute oneHost) start
      (setupRun ++ [.cancel "j", .report 1 "j" .failed])).calls = [] := by
    decide +kernel
  have held : (run (execute oneHost) start (setupRun ++ [.cancel "j", .report 1 "j" .failed])).locks
        (oneHost.lockPath 1 "p") = some ⟨1, "j", 1⟩ := by
    decide +kernel
  have ended : ¬ (run (execute oneHost) start
      (setupRun ++ [.cancel "j", .report 1 "j" .failed])).Live ⟨1, "j", 1⟩ := by
    decide +kernel
  exact ended (follows.belongs idle _ _ held)

end Locks
end Scrum4Me
