import Scrum4Me.Foundation.SortedKeys
import Scrum4Me.Foundation.Table
import Scrum4Me.LinkedPlans.Placements
import Scrum4Me.LinkedPlans.Sizes

/-!
# References and what is left out

A plan names what it holds and what is left out of it, each once. The room that is kept
for all labels is enough for both lists.
-/

namespace Scrum4Me
namespace LinkedPlans

open Foundation

def Item.key? : Item → Option Text
  | .story row => some row.key
  | .task _ row => some row.key
  | .doc _ => none

/-- The placed items that are named, then the documents, those with a path last. -/
def referencesOf (refKeys : List Text) (placed : List Item) : List Text :=
  (refKeys.filterMap fun key => placed.find? (·.key? = some key)).map Item.label ++
    ((placed.filterMap Item.docRef?).filter (!·.contains 47) ++
      (placed.filterMap Item.docRef?).filter (·.contains 47))

/-- No two stories or tasks have a key in common, and no key is named twice. -/
structure Distinct (collected : Collected) : Prop where
  keys : (collected.stories.flatMap fun story => story.key :: story.tasks.map TaskRow.key).Nodup
  refKeys : collected.refKeys.Nodup

namespace Collected

variable (collected : Collected)

/-- The items as they are collected. -/
def listed : List Item :=
  (collected.stories.flatMap fun story => .story story :: story.tasks.map (.task story.key)) ++
    collected.docs.map .doc

theorem items_perm : collected.items.Perm collected.listed := by
  have each : ∀ story : StoryRow,
      ((story.tasks.filter fun task => collected.explicitTasks.contains task.key == true).map
          (Item.task story.key) ++
        (story.tasks.filter fun task => collected.explicitTasks.contains task.key == false).map
          (Item.task story.key)).Perm (story.tasks.map (.task story.key)) := by
    intro story
    rw [← List.map_append]
    refine List.Perm.map _ ?_
    have others : (story.tasks.filter fun task =>
        collected.explicitTasks.contains task.key == false) =
          story.tasks.filter fun task => !(collected.explicitTasks.contains task.key == true) :=
      List.filter_congr fun task _ => by cases collected.explicitTasks.contains task.key <;> rfl
    rw [others]
    exact List.filter_append_perm _ _
  have tasks : (collected.tasks true ++ collected.tasks false).Perm
      (collected.stories.flatMap fun story => story.tasks.map (.task story.key)) :=
    (List.flatMap_append_perm _ _ _).trans (List.Perm.flatMap_left _ fun story _ => each story)
  have order : (collected.tasks true ++ (collected.docs.map Item.doc ++ collected.tasks false)).Perm
      ((collected.tasks true ++ collected.tasks false) ++ collected.docs.map Item.doc) := by
    rw [List.append_assoc]
    exact List.Perm.append_left _ List.perm_append_comm
  rw [items, listed]
  refine (List.Perm.append_left _ (order.trans (tasks.append_right _))).trans ?_
  rw [← List.append_assoc]
  exact (List.map_append_flatMap_perm _ _ _).append_right _

theorem listed_labels : collected.listed.map Item.label = collected.candidates := by
  rw [listed, candidates, List.map_append, List.map_flatMap, List.map_map]
  congr 1
  refine congrArg (List.flatMap · collected.stories) (funext fun story => ?_)
  rw [List.map_cons, List.map_map]
  rfl

theorem listed_keys :
    (collected.listed.filterMap fun item => item.key?.map fun key => (key, item.label)) =
      collected.labels := by
  rw [listed, labels, List.filterMap_append, List.filterMap_flatMap, List.filterMap_map]
  have docs : collected.docs.filterMap
      ((fun item : Item => item.key?.map fun key => (key, item.label)) ∘ .doc) = [] :=
    List.filterMap_eq_nil_iff.mpr fun _ _ => rfl
  rw [docs, List.append_nil]
  refine congrArg (List.flatMap · collected.stories) (funext fun story => ?_)
  rw [List.filterMap_cons, List.filterMap_map]
  exact congrArg _ (congrFun List.filterMap_eq_map story.tasks)

theorem labels_keys : collected.labels.map Prod.fst =
    collected.stories.flatMap fun story => story.key :: story.tasks.map TaskRow.key := by
  rw [labels, List.map_flatMap]
  refine congrArg (List.flatMap · collected.stories) (funext fun story => ?_)
  rw [List.map_cons, List.map_map]
  rfl

variable {collected}

/-- The label that a key stands for. -/
theorem lookup_label {item : Item} {key : Text}
    (distinct : Distinct collected) (member : item ∈ collected.items)
    (known : item.key? = some key) :
    collected.labels.reverse.lookup key = some item.label := by
  rw [lookup_iff_mem, List.mem_reverse, ← listed_keys]
  · exact List.mem_filterMap.mpr ⟨item, (items_perm collected).mem_iff.mp member, by
      rw [known]; rfl⟩
  · rw [List.map_reverse, List.nodup_reverse, labels_keys]
    exact distinct.keys

end Collected

section Placed

variable {source : PlanSource} {collected : Collected} {before left : List Item}
  {cut : Option Cut} {full : Bool}

theorem placed_sublist (split : collected.items = before ++ ((cut.map Cut.item).toList ++ left)) :
    (placedItems (filled before) cut ++ left).Sublist collected.items := by
  rw [split, ← List.append_assoc]
  exact placedItems_sublist.append_right left

theorem storiesLead_placed
    (split : collected.items = before ++ ((cut.map Cut.item).toList ++ left)) :
    StoriesLead ((placements before cut).map Placement.item) := by
  rw [placements_items]
  exact (storiesLead_items collected).sublist
    ((List.sublist_append_left _ left).trans (placed_sublist split))

theorem placedItems_storyKeys (lead : StoriesLead ((placements before cut).map Placement.item)) :
    (cutContents (filled before) cut).entries.map Prod.fst =
      (placedItems (filled before) cut).filterMap Item.storyKey? := by
  rw [← contentsWith_placements, contentsWith_entries lead, ← placements_items,
    List.map_filterMap, List.filterMap_map]
  refine List.filterMap_congr fun placement _ => ?_
  obtain ⟨item, text⟩ := placement
  cases item <;> rfl

/-- The keys that count as placed are those of the items. -/
theorem placed_iff (left : List Item)
    (lead : StoriesLead ((placements before cut).map Placement.item)) (key : Text) :
    (((fullDraft (filled before) cut left).contents.entries.map Prod.fst).contains key ||
        (fullDraft (filled before) cut left).placedTasks.contains key) = true ↔
      ∃ item ∈ placedItems (filled before) cut, item.key? = some key := by
  rw [Bool.or_eq_true, List.contains_iff_mem, List.contains_iff_mem, fullDraft,
    placedItems_storyKeys lead, List.mem_filterMap, List.mem_filterMap]
  constructor
  · rintro (⟨item, member, known⟩ | ⟨item, member, known⟩)
    all_goals
      refine ⟨item, member, ?_⟩
      cases item <;> first | exact known | cases known
  · rintro ⟨item, member, known⟩
    cases item with
    | story row => exact .inl ⟨_, member, known⟩
    | task storyKey row => exact .inr ⟨_, member, known⟩
    | doc row => cases known

/-- What is named is what is placed, each with the label that it has. -/
theorem references_eq (distinct : Distinct collected)
    (outcome : Filled source collected before cut left) :
    references collected { fullDraft (filled before) cut left with full := full } =
      referencesOf collected.refKeys (placedItems (filled before) cut) := by
  rw [references, referencesOf]
  refine congrArg (· ++ _) ?_
  rw [← List.filterMap_eq_filter, List.map_filterMap, List.map_filterMap]
  refine List.filterMap_congr fun key _ => ?_
  cases found : (placedItems (filled before) cut).find? (·.key? = some key) with
  | none =>
    have absent := mt (placed_iff left (storiesLead_placed outcome.split) key).mp (by
      rintro ⟨item, member, known⟩
      exact List.find?_eq_none.mp found item member (decide_eq_true known))
    rw [Option.guard, if_neg absent]
    rfl
  | some item =>
    have member := List.mem_of_find?_eq_some found
    have known : item.key? = some key := by simpa using List.find?_some found
    have present := (placed_iff left (storiesLead_placed outcome.split) key).mpr ⟨item, member, known⟩
    have inItems := (placed_sublist outcome.split).subset (List.mem_append_left left member)
    rw [Option.guard, if_pos present, Option.map_some,
      Collected.lookup_label distinct inItems known]
    rfl

/-- What is named and what is left out has room in the list of all labels. -/
theorem listed_subperm (distinct : Distinct collected)
    (outcome : Filled source collected before cut left) :
    (referencesOf collected.refKeys (placedItems (filled before) cut) ++
      left.map Item.label).Subperm collected.candidates := by
  let placed := placedItems (filled before) cut
  let named := collected.refKeys.filterMap fun key => placed.find? (·.key? = some key)
  have itemKey : ∀ {key item}, placed.find? (·.key? = some key) = some item →
      item.key? = some key := by
    intro key item found
    simpa using List.find?_some found
  have namedOnce : named.Nodup := by
    refine distinct.refKeys.filterMap fun key key' item found found' => ?_
    exact Option.some.inj ((itemKey found).symm.trans (itemKey found'))
  have namedPlaced : named ⊆ placed.filter (!·.isDoc) := by
    intro item member
    obtain ⟨key, -, found⟩ := List.mem_filterMap.mp member
    have known := itemKey found
    refine List.mem_filter.mpr ⟨List.mem_of_find?_eq_some found, ?_⟩
    cases item with
    | doc row => cases known
    | _ => rfl
  have docs : placed.filterMap Item.docRef? = (placed.filter (·.isDoc)).map Item.label := by
    rw [← List.filterMap_eq_filter, List.map_filterMap]
    exact List.filterMap_congr fun item _ => by cases item <;> rfl
  have parts : ((placed.filterMap Item.docRef?).filter (!·.contains 47) ++
      (placed.filterMap Item.docRef?).filter (·.contains 47)).Perm
        ((placed.filter (·.isDoc)).map Item.label) := by
    rw [← docs]
    exact List.perm_append_comm.trans (List.filter_append_perm _ _)
  have items : (named ++ placed.filter (·.isDoc)).Subperm placed :=
    ((List.subperm_append_right _).mpr (List.subperm_of_subset namedOnce namedPlaced)).trans
      (List.perm_append_comm.trans (List.filter_append_perm _ _)).subperm
  have references : (referencesOf collected.refKeys placed).Subperm (placed.map Item.label) := by
    obtain ⟨listed, same, sublist⟩ := items
    have mapped := same.map Item.label
    rw [List.map_append] at mapped
    exact ⟨listed.map Item.label, mapped.trans (List.Perm.append_left _ parts.symm),
      sublist.map Item.label⟩
  have whole : ((placed ++ left).map Item.label).Subperm collected.candidates := by
    rw [← collected.listed_labels]
    exact ((placed_sublist outcome.split).map _).subperm.trans (collected.items_perm.map _).subperm
  rw [List.map_append] at whole
  exact ((List.subperm_append_right _).mpr references).trans whole

/-- What is returned fits in the budget. -/
theorem size_within_budget (distinct : Distinct collected)
    (outcome : Filled source collected before cut left)
    (placed : placedItems (filled before) cut ≠ []) :
    (LinkedPlan.mk source (referencesOf collected.refKeys (placedItems (filled before) cut))
      ((cutContents (filled before) cut).entries.map Prod.snd) (cutContents (filled before) cut).docs
      (left.map Item.label)).size ≤ linkedPlanBudget := by
  have fitting := outcome.fits placed
  have lists := size_texts_le (listed_subperm distinct outcome)
  have listed : (LinkedPlan.mk source
      (referencesOf collected.refKeys (placedItems (filled before) cut))
      ((cutContents (filled before) cut).entries.map Prod.snd) (cutContents (filled before) cut).docs
      (left.map Item.label)).size + 4 = size source (cutContents (filled before) cut) +
        ((texts (referencesOf collected.refKeys (placedItems (filled before) cut))).size +
          (texts (left.map Item.label)).size) :=
    size_listed ((cutContents (filled before) cut).plan source) _ _
  have room : (size source (cutContents (filled before) cut) : Int) ≤
      linkedPlanBudget - ((texts collected.candidates).size : Int) := of_decide_eq_true fitting
  omega

end Placed

end LinkedPlans
end Scrum4Me
