import Scrum4Me.Issues.Mirror

/-!
# A clean issue is a mirrored issue

The run that holds the lock works from one snapshot. While the mark is cleared no
change came after that snapshot, and the mirror that the issue names was last written
from snapshots of the sequence number that it still has.
-/

namespace Scrum4Me
namespace Issues
namespace Mirror

open Foundation

section Mirrored

variable (rendering : Rendering)

/-- Title, body and state are rendered from a snapshot of this number. -/
def RemoteIssue.Shows (snapshots : List Snapshot) (seq : Nat) (remote : RemoteIssue) :
    Prop :=
  ∃ snapshot ∈ snapshots, snapshot.row.forgejoSyncSeq = seq ∧
    remote.title = snapshot.title rendering ∧ remote.body = snapshot.body rendering ∧
      remote.closed = snapshot.closed rendering

/-- The labels are rendered from a snapshot of this number. -/
def RemoteIssue.Labelled (snapshots : List Snapshot) (seq : Nat) (remote : RemoteIssue) :
    Prop :=
  ∃ snapshot ∈ snapshots, snapshot.row.forgejoSyncSeq = seq ∧
    remote.labels = snapshot.labels rendering

/-- The mirror under this repository and number is written from snapshots of this
sequence number. -/
def World.Mirrors (world : World) (repo : String) (number seq : Nat) : Prop :=
  ∃ remote ∈ world.remotes, remote.Named repo number ∧
    remote.Shows rendering world.snapshots seq ∧
      remote.Labelled rendering world.snapshots seq

/-- A clean issue names a mirror that shows it; and a repository has one mirror at
most. -/
structure World.Mirrored (world : World) : Prop where
  clean : world.row.forgejoDirty = false →
    ∃ repo number, world.row.forgejoRepo = some repo ∧
      world.row.forgejoNumber = some number ∧
        world.Mirrors rendering repo number world.row.forgejoSyncSeq
  once : ∀ repo, world.remotes.countP (fun remote => remote.repo = repo) ≤ 1

end Mirrored

/-! ## What every state satisfies -/

/-- What the run holds was read, and is older only than a mark. -/
structure Snapshot.Held (world : World) (snapshot : Snapshot) : Prop where
  read : snapshot ∈ world.snapshots
  current : world.row.forgejoDirty = false →
    snapshot.row.forgejoSyncSeq = world.row.forgejoSyncSeq

/-- The mirror under this repository and number shows the snapshot. -/
def World.Written
    (rendering : Rendering) (world : World) (repo : String) (number seq : Nat) :
    Prop :=
  ∃ remote ∈ world.remotes, remote.Named repo number ∧
    remote.Shows rendering world.snapshots seq

/-- What the run knows at each stage. -/
def World.Knows (rendering : Rendering) (world : World) : Stage → Prop
  | .reading => True
  | .listingLabels snapshot _ => snapshot.Held world
  | .creatingLabels snapshot _ _ => snapshot.Held world
  | .searching snapshot _ => snapshot.Held world
  | .creating snapshot repoPath =>
      snapshot.Held world ∧ ∀ remote ∈ world.remotes, remote.repo ≠ repoPath
  | .editing snapshot _ _ => snapshot.Held world
  | .settingLabels snapshot repoPath number =>
      snapshot.Held world ∧
        world.Written rendering repoPath number snapshot.row.forgejoSyncSeq
  | .storing snapshot repoPath number =>
      snapshot.Held world ∧
        world.Mirrors rendering repoPath number snapshot.row.forgejoSyncSeq
  | .marking snapshot =>
      snapshot.Held world ∧ ∃ repo number, world.row.forgejoRepo = some repo ∧
        world.row.forgejoNumber = some number ∧
          world.Mirrors rendering repo number snapshot.row.forgejoSyncSeq

/-- What holds whenever a statement ends. -/
structure Sound (rendering : Rendering) (world : World) : Prop where
  clean : world.row.forgejoDirty = false →
    ∃ repo number, world.row.forgejoRepo = some repo ∧
      world.row.forgejoNumber = some number ∧
        world.Mirrors rendering repo number world.row.forgejoSyncSeq
  apart : (world.remotes.map RemoteIssue.repo).Nodup
  knows : ∀ stage, world.running = some stage → world.Knows rendering stage

variable {rendering : Rendering} {world after : World}

theorem Sound.mirrored (sound : Sound rendering world) : world.Mirrored rendering where
  clean := sound.clean
  once := by
    intro repo
    have counted := List.nodup_iff_count_le_one.mp sound.apart repo
    rw [List.count_eq_countP, List.countP_map] at counted
    refine Nat.le_trans (List.countP_mono_left ?_) counted
    intro remote _ found
    exact beq_iff_eq.mpr (of_decide_eq_true found)

theorem sound_initial (row : MirroredRow) (surroundings : Surroundings) :
    Sound rendering (World.initial row surroundings) where
  clean := fun clean => by cases clean
  apart := List.nodup_nil
  knows := fun _ running => by cases running

/-! ## What lasts -/

variable {seq : Nat} {remote : RemoteIssue} {repo : String}

/-- More was read. -/
theorem RemoteIssue.Shows.later {snapshots later : List Snapshot}
    (shows : remote.Shows rendering snapshots seq) (grown : snapshots ⊆ later) :
    remote.Shows rendering later seq := by
  obtain ⟨snapshot, read, rendered⟩ := shows
  exact ⟨snapshot, grown read, rendered⟩

theorem RemoteIssue.Labelled.later {snapshots later : List Snapshot}
    (labelled : remote.Labelled rendering snapshots seq) (grown : snapshots ⊆ later) :
    remote.Labelled rendering later seq := by
  obtain ⟨snapshot, read, rendered⟩ := labelled
  exact ⟨snapshot, grown read, rendered⟩

/-- A step that the mirrors do not see: what was read stays read, and the row keeps the
name of its mirror and becomes dirty or keeps its number. -/
structure Unseen (world after : World) : Prop where
  remotes : after.remotes = world.remotes
  grown : world.snapshots ⊆ after.snapshots
  repo : after.row.forgejoRepo = world.row.forgejoRepo
  number : after.row.forgejoNumber = world.row.forgejoNumber
  clean : after.row.forgejoDirty = false →
    world.row.forgejoDirty = false ∧
      after.row.forgejoSyncSeq = world.row.forgejoSyncSeq

theorem Unseen.mirrors {number : Nat} (unseen : Unseen world after)
    (mirrors : world.Mirrors rendering repo number seq) :
    after.Mirrors rendering repo number seq := by
  obtain ⟨remote, member, named, shows, labelled⟩ := mirrors
  refine ⟨remote, ?_, named, shows.later unseen.grown, labelled.later unseen.grown⟩
  rw [unseen.remotes]
  exact member

theorem Unseen.written {number : Nat} (unseen : Unseen world after)
    (written : world.Written rendering repo number seq) :
    after.Written rendering repo number seq := by
  obtain ⟨remote, member, named, shows⟩ := written
  refine ⟨remote, ?_, named, shows.later unseen.grown⟩
  rw [unseen.remotes]
  exact member

theorem Unseen.held
    {snapshot : Snapshot} (unseen : Unseen world after) (held : snapshot.Held world) :
    snapshot.Held after where
  read := unseen.grown held.read
  current := by
    intro clean
    obtain ⟨before, same⟩ := unseen.clean clean
    rw [held.current before, same]

theorem Unseen.knows
    {stage : Stage} (unseen : Unseen world after) (knows : world.Knows rendering stage) :
    after.Knows rendering stage := by
  cases stage with
  | reading => trivial
  | creating snapshot repoPath =>
    refine ⟨unseen.held knows.1, ?_⟩
    rw [unseen.remotes]
    exact knows.2
  | settingLabels snapshot repoPath number => exact ⟨unseen.held knows.1, unseen.written knows.2⟩
  | storing snapshot repoPath number => exact ⟨unseen.held knows.1, unseen.mirrors knows.2⟩
  | marking snapshot =>
    obtain ⟨held, repo, number, inRepo, numbered, mirrors⟩ := knows
    refine ⟨unseen.held held, repo, number, ?_, ?_, unseen.mirrors mirrors⟩
    · rw [unseen.repo, inRepo]
    · rw [unseen.number, numbered]
  | _ => exact unseen.held knows

/-- Such a step keeps the invariant if the run goes on as it knows. -/
theorem Sound.unseen (sound : Sound rendering world) (unseen : Unseen world after)
    (knows : ∀ stage, after.running = some stage → after.Knows rendering stage) :
    Sound rendering after where
  clean := by
    intro clean
    obtain ⟨before, same⟩ := unseen.clean clean
    obtain ⟨repo, number, inRepo, numbered, mirrors⟩ := sound.clean before
    refine ⟨repo, number, ?_, ?_, ?_⟩
    · rw [unseen.repo, inRepo]
    · rw [unseen.number, numbered]
    · rw [same]
      exact unseen.mirrors mirrors
  apart := by
    rw [unseen.remotes]
    exact sound.apart
  knows := knows

/-- The run goes on with what it knows. -/
theorem Sound.goOn (sound : Sound rendering world) (stage : Stage)
    (knows : world.Knows rendering stage) :
    Sound rendering (world.goOn stage) := by
  have unseen : Unseen world (world.goOn stage) :=
    ⟨rfl, List.Subset.refl _, rfl, rfl, fun clean => ⟨clean, rfl⟩⟩
  refine sound.unseen unseen ?_
  intro other running
  cases running
  exact unseen.knows knows

theorem Sound.ended (sound : Sound rendering world) : Sound rendering world.ended := by
  refine sound.unseen ⟨rfl, List.Subset.refl _, rfl, rfl, fun clean => ⟨clean, rfl⟩⟩ ?_
  intro stage running
  cases running

theorem Sound.writeFailure (sound : Sound rendering world) (message : String) :
    Sound rendering (world.writeFailure message) := by
  have unseen : Unseen world (world.writeFailure message) :=
    ⟨rfl, List.Subset.refl _, rfl, rfl, fun clean => ⟨clean, rfl⟩⟩
  exact sound.unseen unseen fun stage running => unseen.knows (sound.knows stage running)

theorem Sound.failed (sound : Sound rendering world) (message : String) :
    Sound rendering (world.failed message) :=
  (sound.writeFailure message).ended

/-! ## Writing to a mirror -/

/-- A mirror that mirrors still does after a change that keeps its name and what it
shows. -/
theorem World.Mirrors.patched {patchedRepo : String} {number patchedNumber : Nat}
    {change : RemoteIssue → RemoteIssue} (mirrors : world.Mirrors rendering repo number seq)
    (named : ∀ remote, RemoteIssue.Named repo number remote →
      RemoteIssue.Named repo number (change remote))
    (shows : ∀ remote, RemoteIssue.Shows rendering world.snapshots seq remote →
      RemoteIssue.Shows rendering world.snapshots seq (change remote))
    (labelled : ∀ remote, RemoteIssue.Labelled rendering world.snapshots seq remote →
      RemoteIssue.Labelled rendering world.snapshots seq (change remote)) :
    (world.patch patchedRepo patchedNumber change).Mirrors rendering repo number seq := by
  obtain ⟨remote, member, isNamed, isShown, isLabelled⟩ := mirrors
  by_cases matched : remote.Named patchedRepo patchedNumber
  · have patched : change remote ∈ (world.patch patchedRepo patchedNumber change).remotes :=
      mem_updateWhere.mpr (.inl ⟨remote, member, decide_eq_true matched, rfl⟩)
    exact ⟨change remote, patched, named remote isNamed, shows remote isShown,
      labelled remote isLabelled⟩
  · have kept : remote ∈ (world.patch patchedRepo patchedNumber change).remotes :=
      mem_updateWhere.mpr (.inr ⟨member, decide_eq_false matched⟩)
    exact ⟨remote, kept, isNamed, isShown, isLabelled⟩

/-- A mirror changes without moving, and the one that a clean issue names still mirrors
it. -/
theorem Sound.patched (sound : Sound rendering world) (repo : String) (number : Nat)
    (change : RemoteIssue → RemoteIssue) (inRepo : ∀ remote, (change remote).repo = remote.repo)
    (mirrors : world.row.forgejoDirty = false → ∀ repo' number',
      world.Mirrors rendering repo' number' world.row.forgejoSyncSeq →
        (world.patch repo number change).Mirrors rendering repo' number' world.row.forgejoSyncSeq) :
    Sound rendering (world.patch repo number change).ended where
  clean := by
    intro clean
    obtain ⟨repo', number', named, numbered, before⟩ := sound.clean clean
    exact ⟨repo', number', named, numbered, mirrors clean repo' number' before⟩
  apart := by
    have same : (world.patch repo number change).remotes.map RemoteIssue.repo =
        world.remotes.map RemoteIssue.repo :=
      map_updateWhere_of_unchanged inRepo world.remotes
    exact same ▸ sound.apart
  knows := fun _ running => by cases running

/-! ## Statements -/

section Statements

variable (sound : Sound rendering world)
include sound

theorem Sound.read (number : Nat) : Sound rendering (world.advance rendering number .reading) := by
  have unseen : Unseen world (World.ended
        { world with snapshots := world.snapshots ++ [⟨world.row, world.surroundings⟩] }) :=
    ⟨rfl, List.subset_append_left _ _, rfl, rfl, fun clean => ⟨clean, rfl⟩⟩
  have read : Sound rendering (World.ended
        { world with
          snapshots := world.snapshots ++ [⟨world.row, world.surroundings⟩] }) :=
    sound.unseen unseen fun _ running => by cases running
  dsimp only [World.advance]
  cases world.surroundings.repoUrl with
  | none => exact read
  | some repoUrl =>
    dsimp only [Option.elim]
    cases parseForgejoRepoPath rendering repoUrl with
    | none => exact (read.writeFailure _).ended
    | some repoPath =>
      refine read.goOn (.listingLabels _ _) ⟨?_, ?_⟩
      · exact List.mem_append_right _ (List.mem_singleton_self _)
      · exact fun _ => rfl

theorem Sound.labelled
    (number : Nat) (snapshot : Snapshot) (repoPath : String) (missing : List String)
    (held : snapshot.Held world) :
    Sound rendering
      (world.advance rendering number (.creatingLabels snapshot repoPath missing)) := by
  cases missing with
  | cons name missing =>
    have unseen : Unseen world
        (World.ended { world with labels := world.labels ++ [(repoPath, name)] }) :=
      ⟨rfl, List.Subset.refl _, rfl, rfl, fun clean => ⟨clean, rfl⟩⟩
    have created := sound.unseen unseen fun _ running => by cases running
    exact created.goOn (.creatingLabels snapshot repoPath missing) (unseen.held held)
  | nil =>
    have unseen : Unseen world (world.logged snapshot repoPath).ended :=
      ⟨rfl, List.Subset.refl _, rfl, rfl, fun clean => ⟨clean, rfl⟩⟩
    have logged := sound.unseen unseen fun _ running => by cases running
    dsimp only [World.advance]
    cases snapshot.knownNumber repoPath with
    | none => exact logged.goOn (.searching snapshot repoPath) (unseen.held held)
    | some index => exact logged.goOn (.editing snapshot repoPath index) (unseen.held held)

theorem Sound.searched (number : Nat) (snapshot : Snapshot) (repoPath : String)
    (held : snapshot.Held world) :
    Sound rendering (world.advance rendering number (.searching snapshot repoPath)) := by
  dsimp only [World.advance]
  split
  · rename_i found
    refine sound.goOn _ ⟨held, ?_⟩
    intro remote member inRepo
    exact absurd (decide_eq_true inRepo) (List.find?_eq_none.mp found remote member)
  · exact sound.goOn _ held

theorem Sound.created (number : Nat) (snapshot : Snapshot) (repoPath : String)
    (knows : world.Knows rendering (.creating snapshot repoPath)) :
    Sound rendering (world.advance rendering number (.creating snapshot repoPath)) := by
  obtain ⟨held, free⟩ := knows
  dsimp only [World.advance]
  split
  · have created : Sound rendering (World.ended
          { world with
            remotes := world.remotes ++
              [{ repo := repoPath
                 number := number
                 title := snapshot.title rendering
                 body := snapshot.body rendering
                 closed := snapshot.closed rendering
                 labels := [] }] }) := by
      refine ⟨?_, ?_, fun _ running => by cases running⟩
      · intro clean
        obtain ⟨repo, named, inRepo, numbered, remote, member, mirrors⟩ := sound.clean clean
        exact ⟨repo, named, inRepo, numbered, remote, List.mem_append_left _ member, mirrors⟩
      · have apart : (world.remotes.map RemoteIssue.repo ++ [repoPath]).Nodup := by
          refine sound.apart.append (List.nodup_singleton _) ?_
          intro repo member same
          obtain ⟨remote, inTable, rfl⟩ := List.mem_map.mp member
          exact free remote inTable (List.mem_singleton.mp same)
        simpa [World.ended] using apart
    refine created.goOn (.settingLabels snapshot repoPath number) ⟨⟨held.read, held.current⟩, _,
        List.mem_append_right _ (List.mem_singleton_self _), ⟨rfl, rfl⟩, ?_⟩
    exact ⟨snapshot, held.read, rfl, rfl, rfl, rfl⟩
  · exact sound

theorem Sound.edited (number : Nat) (snapshot : Snapshot) (repoPath : String) (index : Nat)
    (held : snapshot.Held world) :
    Sound rendering (world.advance rendering number (.editing snapshot repoPath index)) := by
  dsimp only [World.advance]
  split
  · rename_i there
    obtain ⟨remote, member, named⟩ := there
    have shown : ∀ remote : RemoteIssue, RemoteIssue.Shows rendering world.snapshots
        snapshot.row.forgejoSyncSeq
        { remote with
          title := snapshot.title rendering
          body := snapshot.body rendering
          closed := snapshot.closed rendering } :=
      fun _ => ⟨snapshot, held.read, rfl, rfl, rfl, rfl⟩
    have edited := sound.patched repoPath index (fun remote =>
        { remote with
          title := snapshot.title rendering
          body := snapshot.body rendering
          closed := snapshot.closed rendering })
      (fun _ => rfl)
      (by
        intro clean repo' number' mirrors
        refine mirrors.patched (fun _ named => named) ?_ (fun _ labelled => labelled)
        intro other _
        rw [← held.current clean]
        exact shown other)
    refine edited.goOn (.settingLabels snapshot repoPath index)
      ⟨⟨held.read, held.current⟩, _, ?_, ?_, shown remote⟩
    · exact mem_updateWhere.mpr (.inl ⟨remote, member, decide_eq_true named, rfl⟩)
    · exact named
  · exact sound.failed _

theorem Sound.labelsSet (number : Nat) (snapshot : Snapshot) (repoPath : String) (index : Nat)
    (knows : world.Knows rendering (.settingLabels snapshot repoPath index)) :
    Sound rendering (world.advance rendering number (.settingLabels snapshot repoPath index)) := by
  obtain ⟨held, remote, member, named, shows⟩ := knows
  have labelled : ∀ remote : RemoteIssue, RemoteIssue.Labelled rendering world.snapshots
      snapshot.row.forgejoSyncSeq { remote with labels := snapshot.labels rendering } :=
    fun _ => ⟨snapshot, held.read, rfl, rfl⟩
  have set := sound.patched repoPath index
    (fun remote => { remote with labels := snapshot.labels rendering })
    (fun _ => rfl)
    (by
      intro clean repo' number' mirrors
      refine mirrors.patched (fun _ named => named) (fun _ shows => shows) ?_
      intro other _
      rw [← held.current clean]
      exact labelled other)
  refine set.goOn (.storing snapshot repoPath index)
    ⟨⟨held.read, held.current⟩, { remote with labels := snapshot.labels rendering }, ?_,
      named, shows, labelled remote⟩
  exact mem_updateWhere.mpr (.inl ⟨remote, member, decide_eq_true named, rfl⟩)

theorem Sound.stored (number : Nat) (snapshot : Snapshot) (repoPath : String) (index : Nat)
    (knows : world.Knows rendering (.storing snapshot repoPath index)) :
    Sound rendering (world.advance rendering number (.storing snapshot repoPath index)) := by
  obtain ⟨held, mirrors⟩ := knows
  have stored : Sound rendering (World.ended
        { world with
          row := { world.row with
            forgejoRepo := some repoPath
            forgejoNumber := some index } }) := by
    refine ⟨?_, sound.apart, fun _ running => by cases running⟩
    intro clean
    have same : snapshot.row.forgejoSyncSeq = world.row.forgejoSyncSeq := held.current clean
    exact ⟨repoPath, index, rfl, rfl, same ▸ mirrors⟩
  exact stored.goOn (.marking snapshot)
    ⟨⟨held.read, held.current⟩, repoPath, index, rfl, rfl, mirrors⟩

theorem Sound.marked (number : Nat) (snapshot : Snapshot)
    (knows : world.Knows rendering (.marking snapshot)) :
    Sound rendering (world.advance rendering number (.marking snapshot)) := by
  obtain ⟨held, repo, index, inRepo, numbered, mirrors⟩ := knows
  dsimp only [World.advance]
  split
  · rename_i same
    refine ⟨?_, sound.apart, fun _ running => by cases running⟩
    intro _
    exact ⟨repo, index, inRepo, numbered, same ▸ mirrors⟩
  · exact sound.ended

theorem sound_execute (step : Step) : Sound rendering (execute rendering world step) := by
  cases step with
  | mutate changed =>
    have unseen : Unseen world { world with row := world.row.mutated changed } :=
      ⟨rfl, List.Subset.refl _, rfl, rfl, fun clean => by cases clean⟩
    exact sound.unseen unseen fun stage running => unseen.knows (sound.knows stage running)
  | changeSurroundings surroundings =>
    have unseen : Unseen world { world with surroundings } :=
      ⟨rfl, List.Subset.refl _, rfl, rfl, fun clean => ⟨clean, rfl⟩⟩
    exact sound.unseen unseen fun stage running => unseen.knows (sound.knows stage running)
  | lock =>
    dsimp only [execute]
    split
    · exact sound.goOn .reading trivial
    · exact sound
  | advance number =>
    dsimp only [execute]
    split
    · exact sound
    · rename_i stage running
      have knows := sound.knows stage running
      cases stage with
      | reading => exact sound.read number
      | listingLabels snapshot repoPath => exact sound.goOn _ knows
      | creatingLabels snapshot repoPath missing =>
        exact sound.labelled number snapshot repoPath missing knows
      | searching snapshot repoPath => exact sound.searched number snapshot repoPath knows
      | creating snapshot repoPath => exact sound.created number snapshot repoPath knows
      | editing snapshot repoPath index => exact sound.edited number snapshot repoPath index knows
      | settingLabels snapshot repoPath index =>
        exact sound.labelsSet number snapshot repoPath index knows
      | storing snapshot repoPath index => exact sound.stored number snapshot repoPath index knows
      | marking snapshot => exact sound.marked number snapshot knows
  | fail message =>
    dsimp only [execute]
    split
    · exact sound.ended
    · split
      · exact sound
      · exact sound.failed _
  | writeFailure message => exact sound.writeFailure message

end Statements

/-- Titles, texts and states as they are, on a host of which every address is a path. -/
def Rendering.plain : Rendering where
  renderIssueTitle := fun issue _ => issue.title
  renderIssueBody := fun issue _ _ => issue.description
  renderIssueLabels := fun _ product => [product.kind]
  renderIssueState := fun issue => decide (issue.status = .closed)
  appBaseUrl := "https://app"
  forgejoHost := "git"
  parseUrl := fun repoUrl => some ⟨"git", repoUrl⟩

def MirroredRow.plain : MirroredRow where
  id := "issue"
  productId := "product"
  title := "title"
  researchMd := none
  resolutionMd := none
  status := .new
  resolution := none
  closedAt := none
  severity := .s4Minor
  linkedPbiId := none
  linkedIdeaId := none
  forgejoDirty := true
  forgejoSyncSeq := 0
  code := "ISS-1"
  description := "description"
  reportedBy := none
  occurrenceCount := 1
  lastSeenAt := "now"
  createdAt := "now"
  archived := false
  forgejoRepo := none
  forgejoNumber := none
  forgejoError := none

def Surroundings.plain : Surroundings where
  linkedPbiCode := none
  linkedIdeaCode := none
  productName := "product"
  productKind := "SOFTWARE"
  repoUrl := some "/owner/repo.git/"

/-- A run that is lost after it created the mirror, and one that finds it again. -/
example :
    let world := run (execute .plain) (.initial .plain .plain)
      (.lock :: List.replicate 6 (.advance 7) ++ .fail none :: .lock ::
        List.replicate 8 (.advance 8))
    world.row.forgejoDirty = false ∧ world.row.forgejoRepo = some "owner/repo" ∧
      world.row.forgejoNumber = some 7 ∧ world.remotes.length = 1 := by
  decide +kernel

end Mirror
end Issues
end Scrum4Me
