import Scrum4Me.Locks.Products

/-!
# Locks, registers and the calls that keep them

Whatever the order of the steps, the release functions that the processes keep
agree with the lock files, a setup that is still taking its locks keeps all of
them itself, and it takes them in ascending order. Setups therefore never wait
for each other in a cycle.
-/

namespace Scrum4Me
namespace Locks

open Foundation Jobs

/-! ## Grips -/

theorem mem_grips {world : World} {grip : Grip Path Claim} :
    grip ∈ world.grips ↔ (∃ entry ∈ world.register, grip ∈ entry.releases) ∨
        ∃ call ∈ world.calls, grip ∈ call.grips := by
  simp only [World.grips, List.mem_append, List.mem_flatMap]

/-- The grips that the call does not keep. -/
def World.otherGrips (world : World) (call : Call) : List (Grip Path Claim) :=
  world.register.flatMap Entry.releases ++ (world.calls.erase call).flatMap Call.grips

theorem calls_perm {world : World} {call : Call} (member : call ∈ world.calls) :
    world.calls.Perm ([call] ++ world.calls.erase call) :=
  List.perm_cons_erase member

/-- The calls once a call goes on. -/
theorem goOn_calls_perm {world middle : World} {call : Call} {doing : Doing}
    (calls : middle.calls = world.calls) :
    (middle.goOn call doing).calls.Perm ([⟨call.process, doing⟩] ++ world.calls.erase call) := by
  rw [← calls]
  exact List.Perm.refl _

theorem leave_calls_perm {world middle : World} {call : Call} (calls : middle.calls = world.calls) :
    (middle.leave call).calls.Perm ([] ++ world.calls.erase call) := by
  rw [← calls]
  exact List.Perm.refl _

theorem grips_perm {world : World} {call : Call} (member : call ∈ world.calls) :
    world.grips.Perm (call.grips ++ world.otherGrips call) := by
  have split := (List.perm_cons_erase member).flatMap_right Call.grips
  refine (List.Perm.append_left _ split).trans ?_
  rw [List.flatMap_cons, ← List.append_assoc]
  exact (List.perm_append_comm.append_right _).trans
    (by rw [List.append_assoc]; exact List.Perm.refl _)

theorem goOn_grips_perm (world : World) (call : Call) (doing : Doing) :
    (world.goOn call doing).grips.Perm (doing.grips ++ world.otherGrips call) := by
  show (world.register.flatMap Entry.releases ++ (Call.grips ⟨call.process, doing⟩ ++
      (world.calls.erase call).flatMap Call.grips)).Perm _
  rw [← List.append_assoc]
  exact (List.perm_append_comm.append_right _).trans
    (by rw [List.append_assoc]; exact List.Perm.refl _)

theorem leave_grips (world : World) (call : Call) :
    (world.leave call).grips = world.otherGrips call := rfl

variable {claim : Claim}

theorem absent {conclusion : Prop} (found : (none : Option Claim) = some claim) : conclusion := by
  cases found

/-! ## What holds of a call whatever the others do -/

/-- The key of a claim: no two claims have the same. -/
def Claim.key (claim : Claim) : JobId × Nat := (claim.job, claim.number)

/-- The claim that the call sets up, from the claim to the end of the setup or of
its rollback. -/
def Doing.claim? : Doing → Option Claim
  | .rollingBack claim => some claim
  | doing => doing.preparing?

def Call.claim? (call : Call) : Option Claim := call.doing.claim?

/-- The claim whose locks the call still keeps itself. -/
def Doing.early? : Doing → Option Claim
  | .claimed claim _ => some claim
  | .acquiring claim _ _ _ => some claim
  | .undoing claim _ => some claim
  | _ => none

theorem Doing.claim?_of_early {doing : Doing} (early : doing.early? = some claim) :
    doing.claim? = some claim := by
  cases doing <;> first | exact early | cases early

theorem Doing.claim?_of_preparing {doing : Doing} (preparing : doing.preparing? = some claim) :
    doing.claim? = some claim := by
  cases doing <;> first | exact preparing | cases preparing

/-- The call works for its own process, on the locks of the products in order. -/
def Call.Fits (fleet : Fleet) (call : Call) : Prop :=
  match call.doing with
  | .claimed claim products =>
      claim.process = call.process ∧ products.Nodup
  | .acquiring claim products taken left =>
      claim.process = call.process ∧ products.Nodup ∧
        taken.reverse.map Grip.path ++ left =
          fleet.lockOrder call.process products ∧
        ∀ grip ∈ taken, grip.holder = claim
  | .undoing claim taken =>
      claim.process = call.process ∧ ∀ grip ∈ taken, grip.holder = claim
  | .syncing claim _ => claim.process = call.process
  | .releasing job after =>
      ∀ claim, after.failing? = some claim →
        claim.process = call.process ∧ claim.job = job
  | .freeing releases after =>
      (∀ grip ∈ releases, grip.holder.process = call.process) ∧
        ∀ claim, after.failing? = some claim → claim.process = call.process
  | .reporting _ _ status => Reportable status
  | _ => True

/-- The entry keeps locks of claims of its own job, made by its own process. -/
def Entry.Fits (entry : Entry) : Prop :=
  ∀ grip ∈ entry.releases,
    grip.holder.process = entry.process ∧ grip.holder.job = entry.job

/-- What holds in every reachable world. -/
structure Kept (fleet : Fleet) (world : World) : Prop where
  custody : Custody world.locks world.grips
  distinct :
    ((world.calls.filterMap Call.claim? ++ world.handled).map Claim.key).Nodup
  numbered : ∀ claim ∈ world.calls.filterMap Call.claim? ++ world.handled,
    claim.number ≤ (world.rows claim.job).claims
  bounded : ∀ grip ∈ world.grips,
    grip.holder.number ≤ (world.rows grip.holder.job).claims
  named : ∀ grip ∈ world.grips,
    ∀ claim ∈ world.calls.filterMap Call.claim? ++ world.handled,
      grip.holder.key = claim.key → grip.holder = claim
  fits : ∀ call ∈ world.calls, call.Fits fleet
  filed : ∀ entry ∈ world.register, entry.Fits
  own : ∀ call ∈ world.calls, ∀ claim, call.doing.early? = some claim →
    ∀ grip ∈ world.grips, grip.holder.key = claim.key → grip ∈ call.grips

theorem start_kept (fleet : Fleet) : Kept fleet start where
  custody := Custody.start
  distinct := List.nodup_nil
  numbered _ member := absurd member List.not_mem_nil
  bounded _ member := absurd member List.not_mem_nil
  named _ member := absurd member List.not_mem_nil
  fits _ member := absurd member List.not_mem_nil
  filed _ member := absurd member List.not_mem_nil
  own _ member := absurd member List.not_mem_nil

section Replacing

variable {fleet : Fleet} {world after : World} {old new rest : List Call}

/-- The claims of two calls have different keys. -/
theorem Kept.key_ne (kept : Kept fleet world) (before : world.calls.Perm (old ++ rest))
    {first second : Claim} (memberFirst : first ∈ old.filterMap Call.claim?)
    (memberSecond : second ∈ rest.filterMap Call.claim?) :
    first.key ≠ second.key := by
  have keys := (((before.filterMap Call.claim?).append_right world.handled).map
    Claim.key).nodup_iff.mp kept.distinct
  rw [List.filterMap_append, List.append_assoc, List.map_append, List.map_append]
    at keys
  have disjoint := (List.nodup_append.mp keys).2.2
  exact disjoint _ (List.mem_map_of_mem memberFirst) _
    (List.mem_append_left _ (List.mem_map_of_mem memberSecond))

theorem mem_claims {calls : List Call} {call : Call} (member : call ∈ calls)
    (claims : call.claim? = some claim) :
    claim ∈ calls.filterMap Call.claim? :=
  List.mem_filterMap.mpr ⟨call, member, claims⟩

theorem mem_claims_of_old (before : world.calls.Perm (old ++ rest))
    (member : claim ∈ old.filterMap Call.claim?) :
    claim ∈ world.calls.filterMap Call.claim? := by
  rw [(before.filterMap Call.claim?).mem_iff, List.filterMap_append]
  exact List.mem_append_left _ member

theorem claims_subperm
    (before : world.calls.Perm (old ++ rest)) (calls : after.calls.Perm (new ++ rest))
    (claims : List.Subperm (new.filterMap Call.claim? ++ after.handled)
      (old.filterMap Call.claim? ++ world.handled)) :
    List.Subperm (after.calls.filterMap Call.claim? ++ after.handled)
      (world.calls.filterMap Call.claim? ++ world.handled) := by
  have first := (calls.filterMap Call.claim?).append_right after.handled
  have second := (before.filterMap Call.claim?).append_right world.handled
  rw [List.filterMap_append] at first second
  refine (first.trans ?_).subperm.trans
    (((List.subperm_append_right (rest.filterMap Call.claim?)).mpr claims).trans
      (List.Perm.subperm (List.Perm.trans ?_ second.symm)))
  · rw [List.append_assoc, List.append_assoc]
    exact List.perm_append_comm.append_left _
  · rw [List.append_assoc, List.append_assoc]
    exact List.perm_append_comm.append_left _

/-- Some calls are replaced by others that bring no new claims and, but for those
of the claims they had, no new grips. -/
theorem Kept.replace (kept : Kept fleet world) (before : world.calls.Perm (old ++ rest))
    (calls : after.calls.Perm (new ++ rest)) (custody : Custody after.locks after.grips)
    (claims : List.Subperm (new.filterMap Call.claim? ++ after.handled)
      (old.filterMap Call.claim? ++ world.handled))
    (rows : ∀ job, (world.rows job).claims ≤ (after.rows job).claims) (grips : ∀ grip ∈ after.grips,
      grip ∈ world.grips ∨ grip.holder ∈ old.filterMap Call.claim?)
    (fits : ∀ call ∈ new, call.Fits fleet)
    (filed : ∀ entry ∈ after.register, entry ∈ world.register ∨ entry.Fits)
    (own : ∀ call ∈ new, ∀ claim, call.doing.early? = some claim →
      ∀ grip ∈ after.grips, grip.holder.key = claim.key → grip ∈ call.grips) :
    Kept fleet after where
  custody := custody
  distinct := by
    obtain ⟨same, perm, sublist⟩ := claims_subperm before calls claims
    exact (perm.map Claim.key).nodup_iff.mp (kept.distinct.sublist (sublist.map Claim.key))
  numbered claim member :=
    (kept.numbered claim ((claims_subperm before calls claims).subset member)).trans
      (rows claim.job)
  bounded grip member := by
    rcases grips grip member with known | isOld
    · exact (kept.bounded grip known).trans (rows _)
    · exact (kept.numbered grip.holder
        (List.mem_append_left _ (mem_claims_of_old before isOld))).trans (rows _)
  named grip member claim isClaim same := by
    have known := (claims_subperm before calls claims).subset isClaim
    rcases grips grip member with wasGrip | isOld
    · exact kept.named grip wasGrip claim known same
    · exact List.inj_on_of_nodup_map kept.distinct
        (List.mem_append_left _ (mem_claims_of_old before isOld)) known same
  fits call member := by
    rcases List.mem_append.mp (calls.mem_iff.mp member) with isNew | isRest
    · exact fits call isNew
    · exact kept.fits call (before.mem_iff.mpr (List.mem_append_right _ isRest))
  filed entry member := by
    rcases filed entry member with known | fitting
    · exact kept.filed entry known
    · exact fitting
  own call member claim early grip memberGrip same := by
    rcases List.mem_append.mp (calls.mem_iff.mp member) with isNew | isRest
    · exact own call isNew claim early grip memberGrip same
    · rcases grips grip memberGrip with known | isOld
      · exact kept.own call (before.mem_iff.mpr (List.mem_append_right _ isRest))
          claim early grip known same
      · exact absurd same (kept.key_ne before isOld
          (mem_claims isRest (Doing.claim?_of_early early)))

end Replacing

section Moving

variable {fleet : Fleet} {world middle : World} {call : Call}

/-- While a call keeps the locks of its claim itself, nobody else keeps one. -/
theorem Kept.otherGrips_key_ne (kept : Kept fleet world) (member : call ∈ world.calls)
    (early : call.doing.early? = some claim) {grip : Grip Path Claim}
    (other : grip ∈ world.otherGrips call) :
    grip.holder.key ≠ claim.key := by
  intro same
  have split := grips_perm member
  have mine := kept.own call member claim early grip
    (split.mem_iff.mpr (List.mem_append_right _ other)) same
  have paths := (kept.custody.perm split).once
  rw [List.map_append] at paths
  exact (List.nodup_append.mp paths).2.2 _ (List.mem_map_of_mem mine) _
    (List.mem_map_of_mem other) rfl

/-- The call goes on, in a world of which other parts may have changed too. -/
theorem Kept.goOn (kept : Kept fleet world) (member : call ∈ world.calls) {doing : Doing}
    (calls : middle.calls = world.calls) (handled : middle.handled = world.handled)
    (custody : Custody middle.locks (doing.grips ++ middle.otherGrips call))
    (claims : ∀ claim, doing.claim? = some claim → call.claim? = some claim)
    (rows : ∀ job, (world.rows job).claims ≤ (middle.rows job).claims)
    (grips : ∀ grip ∈ doing.grips ++ middle.otherGrips call,
      grip ∈ world.grips ∨ call.claim? = some grip.holder)
    (fits : Call.Fits fleet ⟨call.process, doing⟩)
    (filed : ∀ entry ∈ middle.register, entry ∈ world.register ∨ entry.Fits)
    (own : ∀ claim, doing.early? = some claim →
      call.doing.early? = some claim ∧ middle.register = world.register) :
    Kept fleet (middle.goOn call doing) := by
  have split := goOn_grips_perm middle call doing
  have before := calls_perm member
  have after := @goOn_calls_perm _ _ call doing calls
  refine kept.replace before after (custody.perm split.symm) ?_ rows ?_ ?_ filed ?_
  · show List.Subperm ([Call.mk call.process doing].filterMap Call.claim? ++ middle.handled) _
    rw [handled]
    refine (List.subperm_append_right _).mpr ?_
    cases claim : doing.claim? with
    | none =>
      have nothing : [Call.mk call.process doing].filterMap Call.claim? = [] :=
        List.filterMap_cons_none claim
      rw [nothing]
      exact (List.nil_sublist _).subperm
    | some found =>
      have one : [Call.mk call.process doing].filterMap Call.claim? = [found] :=
        List.filterMap_cons_some claim
      have same : [call].filterMap Call.claim? = [found] :=
        List.filterMap_cons_some (claims found claim)
      rw [one, same]
  · intro grip isGrip
    rcases grips grip (split.mem_iff.mp isGrip) with known | mine
    · exact .inl known
    · exact .inr (mem_claims List.mem_cons_self mine)
  · intro new isNew
    rw [List.mem_singleton.mp isNew]
    exact fits
  · intro new isNew claim early grip isGrip same
    obtain rfl := List.mem_singleton.mp isNew
    obtain ⟨wasEarly, register⟩ := own claim early
    rcases List.mem_append.mp (split.mem_iff.mp isGrip) with mine | other
    · exact mine
    · refine absurd same (kept.otherGrips_key_ne member wasEarly ?_)
      rw [World.otherGrips, register, calls] at other
      exact other

/-- The call returns. -/
theorem Kept.leave (kept : Kept fleet world) (member : call ∈ world.calls)
    (calls : middle.calls = world.calls) (handled : middle.handled = world.handled ∨
      ∃ claim, call.claim? = some claim ∧ middle.handled = claim :: world.handled)
    (locks : middle.locks = world.locks) (register : middle.register = world.register)
    (rows : ∀ job, (world.rows job).claims ≤ (middle.rows job).claims) (empty : call.grips = []) :
    Kept fleet (middle.leave call) := by
  have before := calls_perm member
  have after := @leave_calls_perm _ _ call calls
  have others : (middle.leave call).grips = world.otherGrips call := by
    rw [leave_grips, World.otherGrips, World.otherGrips, register, calls]
  have split := grips_perm member
  rw [empty, List.nil_append] at split
  refine kept.replace before after ?_ ?_ rows ?_ (List.forall_mem_nil _) ?_ (List.forall_mem_nil _)
  · show Custody middle.locks (middle.leave call).grips
    rw [others, locks]
    exact kept.custody.perm split
  · show List.Subperm ([] ++ middle.handled) _
    rcases handled with same | ⟨claim, claims, more⟩
    · rw [same, List.nil_append]
      exact (List.sublist_append_right _ _).subperm
    · have one : [call].filterMap Call.claim? = [claim] := List.filterMap_cons_some claims
      rw [more, one]
      exact (List.Perm.refl _).subperm
  · intro grip isGrip
    rw [others] at isGrip
    exact .inl (split.mem_iff.mpr isGrip)
  · intro entry isEntry
    exact .inl (register ▸ isEntry)

/-- The call goes on with the grips it had, and nothing else changes but rows. -/
theorem Kept.proceed (kept : Kept fleet world) (member : call ∈ world.calls) {doing : Doing}
    (calls : middle.calls = world.calls) (handled : middle.handled = world.handled)
    (locks : middle.locks = world.locks) (register : middle.register = world.register)
    (rows : ∀ job, (world.rows job).claims ≤ (middle.rows job).claims)
    (grips : doing.grips = call.grips)
    (claims : ∀ claim, doing.claim? = some claim → call.claim? = some claim)
    (early : ∀ claim, doing.early? = some claim → call.doing.early? = some claim)
    (fits : Call.Fits fleet ⟨call.process, doing⟩) :
    Kept fleet (middle.goOn call doing) := by
  have others : middle.otherGrips call = world.otherGrips call := by
    rw [World.otherGrips, World.otherGrips, register, calls]
  refine kept.goOn member calls handled ?_ claims rows ?_ fits
    (fun entry isEntry => .inl (register ▸ isEntry))
    fun claim isEarly => ⟨early claim isEarly, register⟩
  · rw [others, locks, grips]
    exact kept.custody.perm (grips_perm member)
  · intro grip isGrip
    rw [others, grips] at isGrip
    exact .inl ((grips_perm member).mem_iff.mpr isGrip)

/-- A call without grips turns to what follows the release of the locks. -/
theorem Kept.afterwards (kept : Kept fleet world) (member : call ∈ world.calls) {next : After}
    (calls : middle.calls = world.calls) (handled : middle.handled = world.handled)
    (locks : middle.locks = world.locks) (register : middle.register = world.register)
    (rows : ∀ job, (world.rows job).claims ≤ (middle.rows job).claims) (empty : call.grips = [])
    (claims : ∀ claim, next.failing? = some claim → call.claim? = some claim) :
    Kept fleet (middle.afterwards call next) := by
  cases next with
  | answer => exact kept.leave member calls (.inl handled) locks register rows empty
  | rollback claim =>
    exact kept.proceed member calls handled locks register rows empty.symm
      (fun other same => claims other same) (fun _ early => absent early)
      trivial
  | sweep jobs =>
    cases jobs with
    | nil => exact kept.leave member calls (.inl handled) locks register rows empty
    | cons job rest =>
      exact kept.proceed member calls handled locks register rows empty.symm
        (fun _ none => absent none)
        (fun _ early => absent early)
        fun _ none => absent none

end Moving

section Steps

variable {fleet : Fleet} {world : World} {call : Call}

theorem unregister_perm (world : World) (process : ProcessId) (job : JobId) :
    (world.register.flatMap Entry.releases).Perm
      ((world.entries process job).flatMap Entry.releases ++
        (world.unregister process job).register.flatMap Entry.releases) := by
  have split := List.filter_append_perm
    (fun entry : Entry => decide (entry.process = process ∧ entry.job = job))
    world.register
  have parts := split.symm.flatMap_right Entry.releases
  rw [List.flatMap_append] at parts
  simp only [World.entries, World.unregister, decide_not]
  exact parts

/-- A row that is written counts no fewer claims. -/
theorem write_claims {job : JobId} {row : Row} (claims : (world.rows job).claims ≤ row.claims)
    (other : JobId) :
    (world.rows other).claims ≤ ((world.write job row).rows other).claims := by
  show _ ≤ (Function.update world.rows job row other).claims
  by_cases same : other = job
  · subst same
    rw [Function.update_self]
    exact claims
  · rw [Function.update_of_ne same]

/-- Every statement of a call keeps the bookkeeping. -/
theorem next_kept (kept : Kept fleet world) (member : call ∈ world.calls) :
    Kept fleet (fleet.next world call) := by
  obtain ⟨process, doing⟩ := call
  have fits := kept.fits _ member
  have split := grips_perm member
  have same : ∀ job, (world.rows job).claims ≤ (world.rows job).claims := fun _ => Nat.le_refl _
  cases doing with
  | claimed claim products =>
    show Kept fleet (if products = [] then _ else _)
    split
    · exact kept.proceed member rfl rfl rfl rfl same rfl (fun _ none => absent none)
        (fun _ none => absent none) trivial
    · refine kept.proceed member rfl rfl rfl rfl same rfl (fun _ found => found)
        (fun _ found => found) ⟨fits.1, fits.2, rfl, ?_⟩
      exact List.forall_mem_nil _
  | acquiring claim products taken left =>
    cases left with
    | nil =>
      refine kept.goOn member rfl rfl ?_ (fun _ found => found) same ?_ fits.1 ?_
        (fun _ none => absent none)
      · refine kept.custody.perm (split.trans ?_)
        simp only [World.otherGrips, World.registerReleases, Doing.grips,
          Call.grips, List.flatMap_append, List.flatMap_cons, List.flatMap_nil,
          List.append_nil, List.nil_append]
        rw [← List.append_assoc]
        exact List.perm_append_comm.append_right _
      · intro grip isGrip
        refine .inl (split.mem_iff.mpr ?_)
        simp only [World.otherGrips, World.registerReleases, Doing.grips,
          List.flatMap_append, List.flatMap_cons, List.flatMap_nil,
          List.append_nil, List.nil_append, List.mem_append] at isGrip
        simp only [World.otherGrips, Call.grips, Doing.grips, List.mem_append]
        tauto
      · intro entry isEntry
        rcases mem_inserted.mp isEntry with known | rfl
        · exact .inl known
        · refine .inr fun grip isTaken => ?_
          rw [fits.2.2.2 grip isTaken]
          exact ⟨fits.1, rfl⟩
    | cons path rest =>
      show Kept fleet (if world.locks path = none then _ else _)
      split
      case isTrue free =>
        refine kept.goOn member rfl rfl ?_ (fun _ found => found) same ?_
          ⟨fits.1, fits.2.1, ?_, ?_⟩ (fun _ isEntry => .inl isEntry)
          (fun _ found => ⟨found, rfl⟩)
        · exact (kept.custody.take free claim).perm (split.cons _)
        · intro grip isGrip
          rcases List.mem_cons.mp isGrip with rfl | known
          · exact .inr rfl
          · exact .inl (split.mem_iff.mpr known)
        · rw [← fits.2.2.1, List.reverse_cons, List.map_append, List.append_assoc]
          rfl
        · intro grip isTaken
          rcases List.mem_cons.mp isTaken with rfl | known
          · rfl
          · exact fits.2.2.2 grip known
      case isFalse => exact kept
  | undoing claim taken =>
    cases taken with
    | nil =>
      refine kept.proceed member rfl rfl rfl rfl same rfl (fun _ found => found)
        (fun _ none => absent none) ?_
      intro other found
      obtain rfl := Option.some.inj found
      exact ⟨fits.1, rfl⟩
    | cons grip rest =>
      refine kept.goOn member rfl rfl ?_ (fun _ found => found) same ?_
        ⟨fits.1, fun other isTaken => fits.2 other (List.mem_cons_of_mem _ isTaken)⟩
        (fun _ isEntry => .inl isEntry) (fun _ found => ⟨found, rfl⟩)
      · exact (kept.custody.perm split).free
      · intro other isGrip
        exact .inl (split.mem_iff.mpr (List.mem_cons_of_mem grip isGrip))
  | syncing claim left =>
    cases left with
    | nil =>
      exact kept.proceed member rfl rfl rfl rfl same rfl (fun _ none => absent none)
        (fun _ none => absent none) trivial
    | cons product rest =>
      exact kept.proceed member rfl rfl rfl rfl same rfl (fun _ found => found)
        (fun _ none => absent none) fits
  | building claim => exact kept.leave member rfl (.inl rfl) rfl rfl same rfl
  | releasing job after =>
    have moved := (unregister_perm world process job).append_right
      ((world.calls.erase ⟨process, .releasing job after⟩).flatMap Call.grips)
    rw [List.append_assoc] at moved
    refine kept.goOn member rfl rfl ?_ (fun _ found => found) same ?_
      ⟨?_, fun claim found => (fits claim found).1⟩ ?_
      (fun _ none => absent none)
    · exact kept.custody.perm (split.trans moved)
    · exact fun grip isGrip => .inl (split.mem_iff.mpr (moved.mem_iff.mpr isGrip))
    · intro grip isGrip
      obtain ⟨entry, isEntry, isRelease⟩ := List.mem_flatMap.mp isGrip
      obtain ⟨known, mine⟩ := List.mem_filter.mp isEntry
      rw [(kept.filed entry known grip isRelease).1]
      exact (of_decide_eq_true mine).1
    · exact fun entry isEntry => .inl (List.mem_of_mem_filter isEntry)
  | freeing releases after =>
    cases releases with
    | nil => exact kept.afterwards member rfl rfl rfl rfl same rfl (fun _ found => found)
    | cons grip rest =>
      refine kept.goOn member rfl rfl ?_ (fun _ found => found) same ?_
        ⟨fun other isRelease => fits.1 other (List.mem_cons_of_mem _ isRelease), fits.2⟩
        (fun _ isEntry => .inl isEntry) (fun _ none => absent none)
      · exact (kept.custody.perm split).free
      · intro other isGrip
        exact .inl (split.mem_iff.mpr (List.mem_cons_of_mem grip isGrip))
  | rollingBack claim =>
    show Kept fleet (if fleet.Owns process (world.rows claim.job) then _ else _)
    split
    · exact kept.leave member rfl (.inr ⟨claim, rfl, rfl⟩) rfl rfl (write_claims (Nat.le_refl _)) rfl
    · exact kept.leave member rfl (.inr ⟨claim, rfl, rfl⟩) rfl rfl same rfl
  | reporting job number status =>
    have rows : ∀ other, (world.rows other).claims ≤
        ((world.write job { world.rows job with status := status }).rows other).claims :=
      write_claims (Nat.le_refl _)
    show Kept fleet (if status.Terminal then _ else _)
    split
    · exact kept.proceed member rfl rfl rfl rfl rows rfl (fun _ none => absent none)
        (fun _ none => absent none) trivial
    · exact kept.leave member rfl (.inl rfl) rfl rfl rows rfl
  | reported job =>
    exact kept.proceed member rfl rfl rfl rfl same rfl (fun _ none => absent none)
      (fun _ none => absent none)
      (fun _ none => absent none)
  | swept failed => exact kept

/-- So does every failure. -/
theorem fails_kept (kept : Kept fleet world) (member : call ∈ world.calls) :
    Kept fleet (world.fails call) := by
  obtain ⟨process, doing⟩ := call
  have fits := kept.fits _ member
  have same : ∀ job, (world.rows job).claims ≤ (world.rows job).claims := fun _ => Nat.le_refl _
  cases doing with
  | acquiring claim products taken left =>
    exact kept.proceed member rfl rfl rfl rfl same rfl (fun _ found => found)
      (fun _ found => found) ⟨fits.1, fits.2.2.2⟩
  | syncing claim left =>
    refine kept.proceed member rfl rfl rfl rfl same rfl (fun _ found => found)
      (fun _ none => absent none) ?_
    intro other found
    obtain rfl := Option.some.inj found
    exact ⟨fits, rfl⟩
  | rollingBack claim => exact kept.leave member rfl (.inr ⟨claim, rfl, rfl⟩) rfl rfl same rfl
  | undoing claim taken => exact kept
  | releasing job after => exact kept
  | freeing releases after => exact kept
  | _ => exact kept.leave member rfl (.inl rfl) rfl rfl same rfl

end Steps

section Worlds

variable {fleet : Fleet} {world middle : World}

/-- Rows are rewritten, and a call without a claim of its own may begin. -/
theorem Kept.begins (kept : Kept fleet world) {new : List Call}
    (calls : middle.calls = new ++ world.calls) (handled : middle.handled = world.handled)
    (locks : middle.locks = world.locks) (register : middle.register = world.register)
    (rows : ∀ job, (world.rows job).claims ≤ (middle.rows job).claims)
    (fresh : ∀ call ∈ new, call.claim? = none ∧ call.grips = [] ∧ call.Fits fleet) :
    Kept fleet middle := by
  have grips : middle.grips.Perm world.grips := by
    have none : new.flatMap Call.grips = [] :=
      List.flatMap_eq_nil_iff.mpr fun call isNew => (fresh call isNew).2.1
    rw [World.grips, World.grips, calls, register, List.flatMap_append, none]
    exact List.Perm.refl _
  refine @Kept.replace fleet world middle [] new world.calls kept (List.Perm.refl _)
    (List.Perm.of_eq calls) ?_ ?_ rows ?_ (fun call isNew => (fresh call isNew).2.2)
    (fun _ isEntry => .inl (register ▸ isEntry)) ?_
  · rw [locks]
    exact kept.custody.perm grips.symm
  · have none : new.filterMap Call.claim? = [] :=
      List.filterMap_eq_nil_iff.mpr fun call isNew => (fresh call isNew).1
    rw [none, handled]
    exact (List.Perm.refl _).subperm
  · exact fun grip isGrip => .inl (grips.mem_iff.mp isGrip)
  · intro call isNew claim early
    have none : call.doing.claim? = none := (fresh call isNew).1
    rw [Doing.claim?_of_early early] at none
    cases none

theorem Kept.write (kept : Kept fleet world) (job : JobId) {row : Row}
    (claims : (world.rows job).claims ≤ row.claims) :
    Kept fleet (world.write job row) := by
  exact kept.begins (List.nil_append _).symm rfl rfl rfl (write_claims claims)
    fun _ isNew => absurd isNew List.not_mem_nil

theorem writeAll_claims (jobs : List JobId) (update : Row → Row)
    (same : ∀ row, (update row).claims = row.claims) (job : JobId) :
    (world.rows job).claims ≤ ((world.writeAll jobs update).rows job).claims := by
  show _ ≤ (if job ∈ jobs then update (world.rows job) else world.rows job).claims
  split
  · exact (same _).ge
  · exact Nat.le_refl _

/-- A claim numbers the row higher than every claim and lock there is. -/
theorem Kept.claimed (kept : Kept fleet world) (process : ProcessId) (job : JobId)
    {products : List ProductId} (distinct : products.Nodup) :
    Kept fleet
      { world.write job (fleet.claimedRow process (world.rows job)) with
          calls :=
            ⟨process, .claimed ⟨process, job, (world.rows job).claims + 1⟩ products⟩ ::
              world.calls } := by
  have rows : ∀ other, (world.rows other).claims ≤
      ((world.write job (fleet.claimedRow process (world.rows job))).rows other).claims :=
    write_claims (Nat.le_succ _)
  have fresh : ∀ grip ∈ world.grips, grip.holder.key ≠
      Claim.key ⟨process, job, (world.rows job).claims + 1⟩ := by
    intro grip isGrip same
    have small := kept.bounded grip isGrip
    obtain ⟨sameJob, sameNumber⟩ := Prod.mk.inj same
    rw [sameJob, sameNumber] at small
    exact Nat.not_succ_le_self _ small
  refine ⟨kept.custody, ?_, ?_, ?_, ?_, ?_, kept.filed, ?_⟩
  · show (Claim.key ⟨process, job, (world.rows job).claims + 1⟩ ::
      (world.calls.filterMap Call.claim? ++ world.handled).map Claim.key).Nodup
    refine List.nodup_cons.mpr ⟨?_, kept.distinct⟩
    intro member
    obtain ⟨claim, known, same⟩ := List.mem_map.mp member
    have small := kept.numbered claim known
    obtain ⟨sameJob, sameNumber⟩ := Prod.mk.inj same
    rw [sameJob, sameNumber] at small
    exact Nat.not_succ_le_self _ small
  · intro claim member
    rcases List.mem_cons.mp member with rfl | known
    · show _ ≤ (Function.update world.rows job _ job).claims
      rw [Function.update_self]
      exact Nat.le_refl _
    · exact (kept.numbered claim known).trans (rows claim.job)
  · exact fun grip isGrip => (kept.bounded grip isGrip).trans (rows _)
  · intro grip isGrip claim member same
    rcases List.mem_cons.mp member with rfl | known
    · exact absurd same (fresh grip isGrip)
    · exact kept.named grip isGrip claim known same
  · intro call member
    rcases List.mem_cons.mp member with rfl | known
    · exact ⟨rfl, distinct⟩
    · exact kept.fits call known
  · intro call member claim early grip isGrip same
    rcases List.mem_cons.mp member with rfl | known
    · obtain rfl := Option.some.inj early
      exact absurd same (fresh grip isGrip)
    · exact kept.own call known claim early grip isGrip same

/-- The grips of a call are of its process. -/
theorem Kept.grip_process (kept : Kept fleet world) {call : Call} (member : call ∈ world.calls)
    {grip : Grip Path Claim} (isGrip : grip ∈ call.grips) :
    grip.holder.process = call.process := by
  obtain ⟨process, doing⟩ := call
  have fits := kept.fits _ member
  cases doing with
  | acquiring claim products taken left =>
    rw [fits.2.2.2 grip isGrip]
    exact fits.1
  | undoing claim taken =>
    rw [fits.2 grip isGrip]
    exact fits.1
  | freeing releases after => exact fits.1 grip isGrip
  | _ => exact absurd isGrip List.not_mem_nil

/-- A process dies with all it keeps. -/
theorem Kept.without (kept : Kept fleet world) (process : ProcessId) :
    Kept fleet (world.without process) := by
  have grips : (world.without process).grips =
      world.grips.filter fun grip => decide (grip.holder.process ≠ process) := by
    rw [World.grips, World.grips, List.filter_append]
    refine (congrArg₂ (· ++ ·) (filter_flatMap_of_agree ?_) (filter_flatMap_of_agree ?_)).symm
    · intro entry isEntry grip isGrip
      rw [(kept.filed entry isEntry grip isGrip).1]
    · intro call isCall grip isGrip
      rw [kept.grip_process isCall isGrip]
  have fewer : ((world.without process).calls.filterMap Call.claim?).Sublist
      (world.calls.filterMap Call.claim?) :=
    List.filter_sublist.filterMap _
  have claims := fewer.append (List.Sublist.refl world.handled)
  refine ⟨?_, kept.distinct.sublist (claims.map Claim.key),
    fun claim member => kept.numbered claim (claims.subset member), ?_, ?_, ?_, ?_, ?_⟩
  · rw [grips]
    exact kept.custody.filter fun claim => decide (claim.process ≠ process)
  · intro grip isGrip
    rw [grips] at isGrip
    exact kept.bounded grip (List.mem_of_mem_filter isGrip)
  · intro grip isGrip claim member same
    rw [grips] at isGrip
    exact kept.named grip (List.mem_of_mem_filter isGrip) claim (claims.subset member) same
  · exact fun call member => kept.fits call (List.mem_of_mem_filter member)
  · exact fun entry isEntry => kept.filed entry (List.mem_of_mem_filter isEntry)
  · intro call member claim early grip isGrip same
    rw [grips] at isGrip
    exact kept.own call (List.mem_of_mem_filter member) claim early grip
      (List.mem_of_mem_filter isGrip) same

/-- Every step keeps the bookkeeping. -/
theorem execute_kept (world : World) (step : Step) (kept : Kept fleet world) :
    Kept fleet (execute fleet world step) := by
  cases step with
  | claim process job products =>
    simp only [execute]
    split
    case isTrue allowed => exact kept.claimed process job allowed.2.2
    case isFalse => exact kept
  | refuse call =>
    obtain ⟨process, doing⟩ := call
    simp only [execute]
    split
    case isTrue member =>
      cases doing with
      | claimed claim products =>
        exact kept.proceed member rfl rfl rfl rfl (write_claims (Nat.le_refl _)) rfl
          (fun _ none => absent none) (fun _ none => absent none) (fun _ none => absent none)
      | _ => exact kept
    case isFalse => exact kept
  | report process job status =>
    simp only [execute]
    split
    case isTrue allowed =>
      refine @Kept.begins fleet world _ kept [_] rfl rfl rfl rfl (fun _ => Nat.le_refl _) ?_
      intro call isNew
      obtain rfl := List.mem_singleton.mp isNew
      exact ⟨rfl, rfl, allowed.2.1⟩
    case isFalse => exact kept
  | sweep process lapsed =>
    simp only [execute]
    split
    · refine @Kept.begins fleet world _ kept [_] rfl rfl rfl rfl
        (writeAll_claims lapsed Row.failed fun _ => rfl) ?_
      intro call isNew
      obtain rfl := List.mem_singleton.mp isNew
      exact ⟨rfl, rfl, trivial⟩
    · exact kept
  | requeue call lapsed =>
    obtain ⟨process, doing⟩ := call
    simp only [execute]
    split
    case isTrue allowed =>
      cases doing with
      | swept failed =>
        exact kept.afterwards allowed.1 rfl rfl rfl rfl
          (writeAll_claims lapsed Row.requeued fun _ => rfl) rfl (fun _ none => absent none)
      | _ => exact kept
    case isFalse => exact kept
  | next call =>
    simp only [execute]
    split
    case isTrue member => exact next_kept kept member
    case isFalse => exact kept
  | fails call =>
    simp only [execute]
    split
    case isTrue member => exact fails_kept kept member
    case isFalse => exact kept
  | cancel job =>
    simp only [execute]
    split
    · exact kept.write job (Nat.le_refl _)
    · exact kept
  | die process => exact kept.without process

theorem run_kept (fleet : Fleet) (steps : List Step) :
    Kept fleet (run (execute fleet) start steps) :=
  @run_invariant_always _ _ (execute fleet) (Kept fleet) execute_kept _ (start_kept fleet) steps

end Worlds

/-! ## Waiting -/

/-- The setup of the claim is about to take the lock. -/
def World.Wants (world : World) (claim : Claim) (path : Path) : Prop :=
  ∃ call ∈ world.calls, ∃ products taken rest,
    call.doing = .acquiring claim products taken (path :: rest)

/-- The setup of one claim waits for a lock that was taken for another. -/
def World.WaitsFor (world : World) (first second : Claim) : Prop :=
  ∃ path, world.Wants first path ∧ world.locks path = some second

theorem Fleet.lockPath_injective (fleet : Fleet) (process : ProcessId) :
    Function.Injective (fleet.lockPath process) := by
  intro first second same
  simpa [Fleet.lockPath] using same

theorem Fleet.lockOrder_perm (fleet : Fleet) (process : ProcessId) (products : List ProductId) :
    (fleet.lockOrder process products).Perm (products.map (fleet.lockPath process)) :=
  List.perm_insertionSort ..

theorem Fleet.lockOrder_ascending (fleet : Fleet) (process : ProcessId) {products : List ProductId}
    (distinct : products.Nodup) :
    (fleet.lockOrder process products).Pairwise (· < ·) := by
  have sorted : (fleet.lockOrder process products).Pairwise (· ≤ ·) :=
    List.pairwise_insertionSort ..
  have nodup : (fleet.lockOrder process products).Pairwise (· ≠ ·) :=
    (fleet.lockOrder_perm process products).nodup_iff.mpr
      (distinct.map (fleet.lockPath_injective process))
  exact (sorted.and nodup).imp fun both => lt_of_le_of_ne both.1 both.2

section Waiting

variable {fleet : Fleet} {world : World}

/-- A claim is set up by one call. -/
theorem Kept.call_unique
    (kept : Kept fleet world) {first second : Call} (memberFirst : first ∈ world.calls)
    (memberSecond : second ∈ world.calls) {other : Claim}
    (claimsFirst : first.claim? = some claim) (claimsSecond : second.claim? = some other)
    (same : claim.key = other.key) :
    first = second := by
  have before := calls_perm memberFirst
  rcases List.mem_cons.mp (before.mem_iff.mp memberSecond) with equal | rest
  · exact equal.symm
  · exact absurd same (kept.key_ne before
      (mem_claims List.mem_cons_self claimsFirst) (mem_claims rest claimsSecond))

/-- A setup waits for a smaller lock than the setup that holds it waits for. -/
theorem Kept.waits_ascending (kept : Kept fleet world) {first second : Claim} {path other : Path}
    (waits : world.WaitsFor first second) (wants : world.Wants first path)
    (wantsOther : world.Wants second other) :
    path < other := by
  obtain ⟨waited, ⟨call, member, products, taken, rest, doing⟩, held⟩ := waits
  obtain ⟨same, memberSame, productsSame, takenSame, restSame, doingSame⟩ := wants
  have claims : call.claim? = some first := by rw [Call.claim?, doing]; rfl
  have claimsSame : same.claim? = some first := by rw [Call.claim?, doingSame]; rfl
  obtain rfl := kept.call_unique member memberSame claims claimsSame rfl
  rw [doing] at doingSame
  obtain ⟨-, -, -, waitedSame⟩ := Doing.acquiring.inj doingSame
  obtain ⟨rfl, -⟩ := List.cons.inj waitedSame
  obtain ⟨holder, memberHolder, products', taken', rest', doing'⟩ := wantsOther
  have early : holder.doing.early? = some second := by rw [doing']; rfl
  have mine := kept.own holder memberHolder second early ⟨waited, second⟩
    (kept.custody.kept waited second held) rfl
  rw [Call.grips, doing'] at mine
  have fits := kept.fits holder memberHolder
  rw [Call.Fits, doing'] at fits
  obtain ⟨-, distinct, order, -⟩ := fits
  have ascending := fleet.lockOrder_ascending holder.process distinct
  rw [← order] at ascending
  refine (List.pairwise_append.mp ascending).2.2 waited ?_ other List.mem_cons_self
  exact List.mem_map.mpr ⟨_, List.mem_reverse.mpr mine, rfl⟩

/-- No setup waits for itself, however many others lie between. -/
theorem Kept.never_cyclic (kept : Kept fleet world) (claim : Claim) :
    ¬ Relation.TransGen world.WaitsFor claim claim := by
  refine @acyclic_of_ascending Path Claim _ world.WaitsFor world.Wants
    (fun first second waits => ?_)
    (fun first second path other waits wants wantsOther =>
      kept.waits_ascending waits wants wantsOther) claim
  obtain ⟨path, wants, -⟩ := waits
  exact ⟨path, wants⟩

end Waiting

end Locks
end Scrum4Me
