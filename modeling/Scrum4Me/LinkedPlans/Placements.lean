import Scrum4Me.LinkedPlans.Outcome

/-!
# What stands in a plan

The stories that are placed, each with its tasks, and the documents, each with the text
with which it is placed.
-/

namespace Scrum4Me
namespace LinkedPlans

open Foundation

/-- An item with the text with which it is placed. -/
structure Placement where
  item : Item
  text : Option Text

namespace Placement

/-- The task of a story. -/
def task? (storyKey : Text) : Placement → Option LinkedPlanTask
  | ⟨.task key row, text⟩ => if key = storyKey then some ⟨row.code, row.title, text⟩ else none
  | _ => none

/-- The story with its key, and with the tasks among the placements. -/
def entry? (placements : List Placement) : Placement → Option (Text × LinkedPlanStory)
  | ⟨.story row, text⟩ => some (row.key,
      { code := row.code
        title := row.title
        product := row.product.filter (· ≠ [])
        acceptanceCriteria := text
        tasks := placements.filterMap (task? row.key) })
  | _ => none

def doc? : Placement → Option LinkedPlanDoc
  | ⟨.doc row, text⟩ => some
      { ref := row.ref
        contentMd := text.getD []
        truncated := fieldMax < (row.content.getD []).length ∨
          text.getD [] ≠ docBase (row.content.getD []) }
  | _ => none

end Placement

/-- The stories of a plan in which these items are placed. -/
def storiesOf (placements : List Placement) : List LinkedPlanStory :=
  (placements.filterMap (Placement.entry? placements)).map Prod.snd

def docsOf (placements : List Placement) : List LinkedPlanDoc :=
  placements.filterMap Placement.doc?

/-- Items are placed with their texts, the last as far as it is cut. -/
def placements (before : List Item) (cut : Option Cut) : List Placement :=
  (filled before).map (fun item => ⟨item, item.text?⟩) ++
    cut.toList.map fun cut => ⟨cut.item, some cut.text⟩

/-- Only stories stand before a story. -/
def StoriesLead (items : List Item) : Prop :=
  items.Pairwise fun before item =>
    (∃ row, item = .story row) → ∃ row, before = .story row

def contentsWith (placements : List Placement) : Contents :=
  placements.foldl (fun contents placement => contents.put placement.item placement.text) ⟨[], []⟩

theorem contentsWith_append (placements : List Placement) (placement : Placement) :
    contentsWith (placements ++ [placement]) =
      (contentsWith placements).put placement.item placement.text := by
  rw [contentsWith, List.foldl_append]
  rfl

variable {before : List Item} {cut : Option Cut}

theorem contentsWith_placements :
    contentsWith (placements before cut) = cutContents (filled before) cut := by
  have whole : contentsWith ((filled before).map fun item => ⟨item, item.text?⟩) =
      contentsOf (filled before) := by
    rw [contentsWith, List.foldl_map]
    rfl
  cases cut with
  | none => rw [placements, Option.toList_none, List.map_nil, List.append_nil, whole]; rfl
  | some cut =>
    rw [placements, Option.toList_some, List.map_singleton, contentsWith_append, whole]
    rfl

theorem placements_items :
    (placements before cut).map Placement.item = placedItems (filled before) cut := by
  rw [placements, placedItems, List.map_append, List.map_map]
  congr 1
  · exact List.map_id _
  · cases cut <;> rfl

variable {placements : List Placement}

/-- A placement that is not of a task of a story leaves the story as it is. -/
theorem entry?_append {placement : Placement}
    (noTask : ∀ storyKey, placement.task? storyKey = none) (other : Placement) :
    Placement.entry? (placements ++ [placement]) other = Placement.entry? placements other := by
  obtain ⟨item, text⟩ := other
  cases item with
  | story row =>
    have tasks : (placements ++ [placement]).filterMap (Placement.task? row.key) =
        placements.filterMap (Placement.task? row.key) := by
      rw [List.filterMap_append, List.filterMap_cons_none (noTask row.key), List.filterMap_nil,
        List.append_nil]
    rw [Placement.entry?, Placement.entry?, tasks]
  | _ => rfl

theorem contentsWith_entries (lead : StoriesLead (placements.map Placement.item)) :
    (contentsWith placements).entries = placements.filterMap (Placement.entry? placements) := by
  induction placements using List.reverseRecOn with
  | nil => rfl
  | append_singleton placements placement ih =>
    rw [List.map_append] at lead
    have before := ih (List.pairwise_append.mp lead).1
    rw [contentsWith_append, List.filterMap_append]
    obtain ⟨item, text⟩ := placement
    cases item with
    | story row =>
      have noTasks : placements.filterMap (Placement.task? row.key) = [] := by
        refine List.filterMap_eq_nil_iff.mpr fun other member => ?_
        obtain ⟨story, isStory⟩ := (List.pairwise_append.mp lead).2.2 other.item
          (List.mem_map_of_mem member) (.story row) (List.mem_singleton_self _) ⟨row, rfl⟩
        obtain ⟨item, text⟩ := other
        obtain rfl : item = .story story := isStory
        rfl
      have same := @entry?_append placements ⟨.story row, text⟩ fun _ => rfl
      rw [List.filterMap_congr fun other _ => same other,
        List.filterMap_congr fun other _ => same other, ← before, List.filterMap_cons,
        Placement.entry?, noTasks]
      rfl
    | task storyKey row =>
      change (contentsWith placements).entries.map _ = _ ++ []
      rw [before, List.map_filterMap, List.append_nil]
      refine List.filterMap_congr fun other _ => ?_
      obtain ⟨item, otherText⟩ := other
      cases item with
      | story other =>
        rw [Placement.entry?, Placement.entry?, List.filterMap_append, Option.map_some]
        by_cases same : storyKey = other.key
        · rw [if_pos same.symm, List.filterMap_cons, Placement.task?, if_pos same]
          rfl
        · rw [if_neg (Ne.symm same), List.filterMap_cons, Placement.task?, if_neg same,
            List.filterMap_nil, List.append_nil]
      | _ => rfl
    | doc row =>
      have same := @entry?_append placements ⟨.doc row, text⟩ fun _ => rfl
      rw [List.filterMap_congr fun other _ => same other, ← before]
      exact (List.append_nil _).symm

theorem storiesLead_items (collected : Collected) : StoriesLead collected.items := by
  have notStory : ∀ item ∈ collected.tasks true ++ (collected.docs.map .doc ++
      collected.tasks false), ¬ ∃ row, item = .story row := by
    rintro item member ⟨row, rfl⟩
    simp only [List.mem_append, List.mem_map, reduceCtorEq, and_false, exists_false,
      false_or] at member
    obtain ⟨story, -, task, -, same⟩ : ∃ story ∈ collected.stories, ∃ task ∈ story.tasks,
        Item.story row = .task story.key task := member.elim mem_tasks mem_tasks
    cases same
  refine List.pairwise_append.mpr ⟨?_, ?_, ?_⟩
  · exact List.pairwise_map.mpr (List.pairwise_of_forall fun story _ _ => ⟨story, rfl⟩)
  · exact List.Pairwise.imp_of_mem (fun _ member _ isStory => absurd isStory (notStory _ member))
      (List.pairwise_of_forall fun _ _ => trivial)
  · exact fun _ _ item member isStory => absurd isStory (notStory item member)

/-- What is placed stands in the order of the items. -/
theorem placedItems_sublist : (placedItems (filled before) cut).Sublist
    (before ++ (cut.map Cut.item).toList) :=
  List.Sublist.append List.filter_sublist (List.Sublist.refl _)

theorem contentsWith_docs (placements : List Placement) :
    (contentsWith placements).docs = docsOf placements := by
  induction placements using List.reverseRecOn with
  | nil => rfl
  | append_singleton placements placement ih =>
    rw [contentsWith_append, docsOf, List.filterMap_append]
    rw [docsOf] at ih
    rw [← ih]
    obtain ⟨item, text⟩ := placement
    cases item with
    | doc row => rfl
    | _ => exact (List.append_nil _).symm

end LinkedPlans
end Scrum4Me
