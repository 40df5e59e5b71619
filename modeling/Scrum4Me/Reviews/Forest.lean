import Scrum4Me.Foundation.Lineage
import Scrum4Me.Reviews.Loop

/-!
# The forest of loop jobs

Jobs grow from jobs: a maker gets a review of its own round, a verdict of one
loop the next maker of that loop, and an approved spec the first maker of a plan.
Seen by the columns that no step writes, the jobs form a forest of lines, of
which each rises at most once through the rounds of both loops.
-/

namespace Scrum4Me
namespace Reviews

open Foundation Jobs Relation

/-- The columns of a job that no step writes. -/
structure Origin where
  id : String
  ideaId : IdeaId
  kind : JobKind
  createdByJobId : Option String
  orchestrationKey : Option String
  deriving DecidableEq

def LoopJob.origin (job : LoopJob) : Origin where
  id := job.id
  ideaId := job.ideaId
  kind := job.kind
  createdByJobId := job.createdByJobId
  orchestrationKey := job.orchestrationKey

namespace Origin

def round (origin : Origin) : Nat :=
  max (parseLoopRound origin.orchestrationKey) 1

/-- A job that a user started. -/
def Root (origin : Origin) : Prop :=
  origin.createdByJobId = none ∧ origin.orchestrationKey = none ∧
    ideaKindRule origin.kind ≠ none

/-- The maker that answers to a request for changes. -/
def revisor : Loop → JobKind
  | .plan => .ideaMakePlan
  | .spec => .ideaReviseSpec

/-- What a job may grow from a parent: kind and key. -/
inductive Grows (parent child : Origin) : Prop
  | review (loop : Loop) (maker : parent.kind ∈ loop.makers) (kind : child.kind = loop.reviewer)
      (key : child.orchestrationKey =
        some (loop.key parent.ideaId parent.round))
  | revision (loop : Loop) (review : parent.kind = loop.reviewer) (kind : child.kind = revisor loop)
      (key : child.orchestrationKey =
        some (loop.key parent.ideaId (parent.round + 1)))
      (bounded : parent.round < MAX_LOOP_ROUNDS)
  | plan (review : parent.kind = .specReview) (kind : child.kind = .ideaMakePlan)
      (key : child.orchestrationKey = some (Loop.plan.key parent.ideaId 1))

/-- `child` was created by `parent`. -/
structure Follows (parent child : Origin) : Prop where
  createdBy : child.createdByJobId = some parent.id
  ideaId : child.ideaId = parent.ideaId
  grows : Grows parent child

/-- Where a job of this kind and round stands in its line. -/
def rank (origin : Origin) : Nat :=
  match origin.kind with
  | .ideaMakeSpec => 2 * (origin.round - 1)
  | .ideaReviseSpec => 2 * (origin.round - 1)
  | .specReview => 2 * (origin.round - 1) + 1
  | .ideaMakePlan => 2 * MAX_LOOP_ROUNDS + 2 * (origin.round - 1)
  | .ideaReviewPlan => 2 * MAX_LOOP_ROUNDS + 2 * (origin.round - 1) + 1
  | _ => 0

variable {origin parent child : Origin}

theorem one_le_round (origin : Origin) : 1 ≤ origin.round :=
  Nat.le_max_right _ _

variable {loop : Loop}

theorem round_of_key {ideaId : IdeaId} {round : Nat}
    (key : origin.orchestrationKey = some (loop.key ideaId round)) (positive : 1 ≤ round) :
    origin.round = round := by
  rw [Origin.round, key, parseLoopRound_key]
  exact Nat.max_eq_left positive

theorem Root.round (root : origin.Root) : origin.round = 1 := by
  rw [Origin.round, root.2.1]
  rfl

theorem Grows.round_le (grows : Grows parent child) (bounded : parent.round ≤ MAX_LOOP_ROUNDS) :
    child.round ≤ MAX_LOOP_ROUNDS := by
  cases grows with
  | review loop maker kind key => rwa [round_of_key key parent.one_le_round]
  | revision loop review kind key below =>
    rw [round_of_key key (Nat.le_add_left _ _)]
    exact below
  | plan review kind key =>
    rw [round_of_key key (Nat.le_refl 1)]
    decide

/-- A review carries the round of its maker. -/
theorem Grows.round_of_maker (grows : Grows parent child) (maker : parent.kind ∈ loop.makers) :
    child.kind = loop.reviewer ∧ child.round = parent.round := by
  cases grows with
  | review other maker' kind key =>
    refine ⟨?_, round_of_key key parent.one_le_round⟩
    rw [kind]
    cases loop <;> cases other <;> simp_all [Loop.makers, Loop.reviewer]
  | revision other review =>
    rw [review] at maker
    cases loop <;> cases other <;> cases maker <;> contradiction
  | plan review =>
    rw [review] at maker
    cases loop <;> simp [Loop.makers] at maker

/-- A revision carries the round after that of its review. -/
theorem Grows.round_of_revisor (grows : Grows parent child) (review : parent.kind = loop.reviewer)
    (revises : child.kind = revisor loop) :
    child.round = parent.round + 1 := by
  cases grows with
  | review other maker =>
    rw [review] at maker
    cases loop <;> cases other <;> simp [Loop.makers, Loop.reviewer] at maker
  | revision other review' kind key => exact round_of_key key (Nat.le_add_left _ _)
  | plan review' kind =>
    rw [review] at review'
    cases loop with
    | plan => cases review'
    | spec =>
      rw [kind] at revises
      cases revises

theorem Grows.rank_lt (grows : Grows parent child) (bounded : parent.round ≤ MAX_LOOP_ROUNDS) :
    parent.rank < child.rank := by
  have positive := parent.one_le_round
  cases grows with
  | review loop maker kind key =>
    have round := round_of_key key positive
    cases loop with
    | plan =>
      have makerKind : parent.kind = .ideaMakePlan := by simpa [Loop.makers] using maker
      simp [rank, makerKind, kind, Loop.reviewer, round]
    | spec =>
      have makerKind : parent.kind = .ideaMakeSpec ∨ parent.kind = .ideaReviseSpec := by
        simpa [Loop.makers] using maker
      rcases makerKind with makerKind | makerKind <;>
        simp [rank, makerKind, kind, Loop.reviewer, round]
  | revision loop review kind key =>
    have round := round_of_key key (Nat.le_add_left _ _)
    cases loop <;>
      simp only [rank, review, kind, Loop.reviewer, revisor, round] <;>
      omega
  | plan review kind key =>
    have round := round_of_key key (Nat.le_refl 1)
    simp only [rank, review, kind, round]
    unfold MAX_LOOP_ROUNDS at *
    omega

theorem rank_lt (bounded : origin.round ≤ MAX_LOOP_ROUNDS) : origin.rank < 4 * MAX_LOOP_ROUNDS := by
  have positive := origin.one_le_round
  unfold rank
  unfold MAX_LOOP_ROUNDS at *
  split <;> omega

end Origin

open Origin

/-- The forest of jobs, and the reviews that have a verdict. -/
structure Forest (origins : List Origin) (reviewed : List String) : Prop where
  ids : (origins.map (·.id)).Nodup
  grown : ∀ origin ∈ origins,
    origin.Root ∨ ∃ parent ∈ origins, Follows parent origin
  rounds : ∀ origin ∈ origins, origin.round ≤ MAX_LOOP_ROUNDS
  single : ∀ first ∈ origins, ∀ second ∈ origins,
    first.createdByJobId ≠ none →
      first.createdByJobId = second.createdByJobId → first = second
  reviewedOnce : reviewed.Nodup
  verdict : ∀ parent ∈ origins, reviewLoop? parent.kind ≠ none →
    ∀ child ∈ origins, child.createdByJobId = some parent.id →
      parent.id ∈ reviewed

namespace Forest

variable {origins : List Origin} {reviewed : List String}
  {origin parent child : Origin}

theorem eq_of_id (forest : Forest origins reviewed) (originMember : origin ∈ origins)
    (childMember : child ∈ origins) (same : origin.id = child.id) :
    origin = child :=
  List.inj_on_of_nodup_map forest.ids originMember childMember same

/-- A job that names its creator grew from it. -/
theorem follows (forest : Forest origins reviewed) (parentMember : parent ∈ origins)
    (childMember : child ∈ origins) (createdBy : child.createdByJobId = some parent.id) :
    Follows parent child := by
  rcases forest.grown child childMember with root | ⟨other, member, follows⟩
  · rw [root.1] at createdBy
    cases createdBy
  · have same : some other.id = some parent.id := follows.createdBy.symm.trans createdBy
    rwa [forest.eq_of_id member parentMember (Option.some.inj same)] at follows

/-- No child exists yet of a maker whose review is not there, nor of a review
without a verdict. -/
def Childless (origins : List Origin) (parent : Origin) : Prop :=
  ∀ child ∈ origins, child.createdByJobId ≠ some parent.id

theorem empty : Forest [] [] where
  ids := List.nodup_nil
  grown := nofun
  rounds := nofun
  single := nofun
  reviewedOnce := List.nodup_nil
  verdict := nofun

/-- A new job that is a root, or the only child of a parent that has its verdict if it is a
review, joins the forest. -/
theorem joins (forest : Forest origins reviewed) (fresh : child.id ∉ origins.map (·.id))
    (origin : child.Root ∨ ∃ parent ∈ origins, Follows parent child ∧
      Childless origins parent ∧ (reviewLoop? parent.kind ≠ none → parent.id ∈ reviewed)) :
    Forest (origins ++ [child]) reviewed := by
  have alone : ∀ other ∈ origins, child.createdByJobId ≠ none →
      other.createdByJobId ≠ child.createdByJobId := by
    intro other member created
    rcases origin with root | ⟨parent, -, follows, childless, -⟩
    · exact absurd root.1 created
    · rw [follows.createdBy]
      exact childless other member
  refine ⟨?_, ?_, ?_, ?_, forest.reviewedOnce, ?_⟩
  · rw [List.map_append]
    exact List.nodup_append.mpr ⟨forest.ids, by simp, by
      intro id member other found
      simp only [List.map_cons, List.map_nil, List.mem_singleton] at found
      rintro rfl
      exact fresh (found ▸ member)⟩
  · intro other member
    rcases mem_inserted.mp member with old | rfl
    · rcases forest.grown other old with isRoot | ⟨elder, inside, grew⟩
      · exact .inl isRoot
      · exact .inr ⟨elder, List.mem_append_left _ inside, grew⟩
    · rcases origin with root | ⟨parent, inside, follows, -⟩
      · exact .inl root
      · exact .inr ⟨parent, List.mem_append_left _ inside, follows⟩
  · intro other member
    rcases mem_inserted.mp member with old | rfl
    · exact forest.rounds other old
    · rcases origin with root | ⟨parent, inside, follows, -⟩
      · rw [root.round]
        decide
      · exact follows.grows.round_le (forest.rounds parent inside)
  · intro first firstMember second secondMember created same
    rcases mem_inserted.mp firstMember with firstOld | rfl
    · rcases mem_inserted.mp secondMember with secondOld | rfl
      · exact forest.single first firstOld second secondOld created same
      · exact absurd same (alone first firstOld (same ▸ created))
    · rcases mem_inserted.mp secondMember with secondOld | rfl
      · exact absurd same.symm (alone second secondOld created)
      · rfl
  · intro elder elderMember review younger youngerMember createdBy
    rcases mem_inserted.mp youngerMember with youngerOld | rfl
    · rcases mem_inserted.mp elderMember with elderOld | rfl
      · exact forest.verdict elder elderOld review younger youngerOld createdBy
      · -- The creator of an older job is in the forest already.
        rcases forest.grown younger youngerOld with isRoot | ⟨other, inside, grew⟩
        · rw [isRoot.1] at createdBy
          cases createdBy
        · have same : some other.id = some elder.id := grew.createdBy.symm.trans createdBy
          rw [← Option.some.inj same] at fresh
          exact absurd (List.mem_map_of_mem inside) fresh
    · rcases origin with root | ⟨parent, parentMember, follows, -, settled⟩
      · rw [root.1] at createdBy
        cases createdBy
      · rw [follows.createdBy] at createdBy
        have same : parent.id = elder.id := Option.some.inj createdBy
        rcases mem_inserted.mp elderMember with elderOld | rfl
        · rw [← forest.eq_of_id parentMember elderOld same] at review ⊢
          exact settled review
        · exact absurd (same ▸ List.mem_map_of_mem parentMember) fresh

/-- A root joins the forest. -/
theorem plant (forest : Forest origins reviewed) (root : origin.Root)
    (fresh : origin.id ∉ origins.map (·.id)) :
    Forest (origins ++ [origin]) reviewed :=
  forest.joins fresh (.inl root)

/-- A child of a childless parent joins the forest; the parent, if it is a
review, has its verdict. -/
theorem grow (forest : Forest origins reviewed) (parentMember : parent ∈ origins)
    (follows : Follows parent child) (fresh : child.id ∉ origins.map (·.id))
    (childless : Childless origins parent)
    (settled : reviewLoop? parent.kind ≠ none → parent.id ∈ reviewed) :
    Forest (origins ++ [child]) reviewed :=
  forest.joins fresh (.inr ⟨parent, parentMember, follows, childless, settled⟩)

/-- A verdict is recorded. -/
theorem judge (forest : Forest origins reviewed) {id : String} (unreviewed : id ∉ reviewed) :
    Forest origins (reviewed ++ [id]) :=
  { forest with
    reviewedOnce := List.nodup_append.mpr ⟨forest.reviewedOnce, by simp, by
      intro other member last found
      rw [List.mem_singleton] at found
      rintro rfl
      exact unreviewed (found ▸ member)⟩
    verdict := fun parent member review child inside createdBy =>
      List.mem_append_left _ (forest.verdict parent member review child inside createdBy) }

end Forest

end Reviews
end Scrum4Me
