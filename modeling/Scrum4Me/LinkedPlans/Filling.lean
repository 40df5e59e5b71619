import Scrum4Me.LinkedPlans.Assemble

/-!
# How a plan is filled

Items are placed as a whole as long as they fit. The first that does not is cut or left
out, and everything after it is left out.
-/

namespace Scrum4Me
namespace LinkedPlans

open Foundation

/-! ## Items -/

namespace Item

def label : Item → Text
  | .story row => row.label
  | .task _ row => row.label
  | .doc row => row.ref

/-- The text of an item; some have none. -/
def text? : Item → Option Text
  | .story row => (row.acceptanceCriteria.filter (· ≠ [])).map capField
  | .task _ row => (row.implementationPlan.filter (· ≠ [])).map capField
  | .doc row => (row.content.filter (· ≠ [])).map docBase

/-- What follows the text of an item that is cut. -/
def ending : Item → Text
  | .doc _ => []
  | _ => marker

/-- A document without content. -/
def empty : Item → Bool
  | .doc row => (row.content.filter (· ≠ [])).isNone
  | _ => false

def isDoc : Item → Bool
  | .doc _ => true
  | _ => false

def storyKey? : Item → Option Text
  | .story row => some row.key
  | _ => none

def taskKey? : Item → Option Text
  | .task _ row => some row.key
  | _ => none

def docRef? : Item → Option Text
  | .doc row => some row.ref
  | _ => none

end Item

/-- The contents with an item placed, with this text. -/
def Contents.put (contents : Contents) : Item → Option Text → Contents
  | .story row, text => contents.putStory row text
  | .task storyKey row, text => contents.putTask storyKey row text
  | .doc row, text => contents.putDoc row.ref (row.content.getD []) (text.getD [])

/-- The items that are placed as a whole. -/
def contentsOf (items : List Item) : Contents :=
  items.foldl (fun contents item => contents.put item item.text?) ⟨[], []⟩

theorem contentsOf_append (items : List Item) (item : Item) :
    contentsOf (items ++ [item]) = (contentsOf items).put item item.text? := by
  rw [contentsOf, List.foldl_append]
  rfl

/-- The items without the documents that have no content. -/
def filled (items : List Item) : List Item := items.filter (!·.empty)

/-! ## Drafts -/

/-- The draft in which items are placed as a whole. -/
def draftOf (items : List Item) : Draft :=
  ⟨contentsOf items, false, [], items.filterMap Item.docRef?, items.filterMap Item.taskKey?⟩

/-- An item and the text to which it is cut. -/
structure Cut where
  item : Item
  text : Text

/-- The contents of whole items and one that is cut. -/
def cutContents (whole : List Item) (cut : Option Cut) : Contents :=
  cut.elim (contentsOf whole) fun cut => (contentsOf whole).put cut.item (some cut.text)

/-- The items that are placed. -/
def placedItems (whole : List Item) (cut : Option Cut) : List Item :=
  whole ++ (cut.map Cut.item).toList

/-- The draft in which the other items are left out. -/
def fullDraft (whole : List Item) (cut : Option Cut) (left : List Item) : Draft :=
  ⟨cutContents whole cut, true, left.map Item.label,
    (placedItems whole cut).filterMap Item.docRef?,
    (placedItems whole cut).filterMap Item.taskKey?⟩

section Filling

variable (source : PlanSource) (limit : Int)

/-- There is room for an item to be tried. -/
def Room (whole : List Item) (item : Item) : Prop :=
  item.isDoc = true → minUseful ≤ limit - size source (contentsOf whole)

/-- The item is placed as a whole, or there is nothing of it. -/
def Whole (whole : List Item) (item : Item) : Prop :=
  Room source limit whole item ∧
    (item.empty = true ∨ fits source limit ((contentsOf whole).put item item.text?) = true)

/-- All items are placed as a whole after those that are. -/
def AllWhole : List Item → List Item → Prop
  | _, [] => True
  | whole, item :: rest => Whole source limit whole item ∧ AllWhole (whole ++ filled [item]) rest

/-- A beginning of the text, with its ending, fits. -/
def cutFits (whole : List Item) (item : Item) (text : Text) (length : Nat) : Bool :=
  fits source limit ((contentsOf whole).put item (some (text.take length ++ item.ending)))

/-- The item does not fit as a whole, but its useful beginning does. -/
structure CutHere (whole : List Item) (item : Item) (text : Text) : Prop where
  room : Room source limit whole item
  known : item.text? = some text
  large : fits source limit ((contentsOf whole).put item (some text)) = false
  long : minUseful < text.length
  useful : cutFits source limit whole item text minUseful = true

/-- The text that is left of an item. -/
def cutText (whole : List Item) (item : Item) (text : Text) : Text :=
  text.take (bisect (cutFits source limit whole item text) minUseful (text.length - 1)) ++
    item.ending

variable {source limit} {whole left : List Item} {cut : Option Cut} {item : Item} {text : Text}

/-! ## A single item -/

theorem fit_full (set : Text → Contents) (text : Text) (unset : Contents) (ending : Text) :
    fit source limit true set text unset ending = ⟨unset, true, false⟩ := rfl

theorem fitBare_full (set unset : Contents) :
    fitBare source limit true set unset = ⟨unset, true, false⟩ := rfl

/-- When the plan is full, an item is left out. -/
theorem add_full (item : Item) :
    add source limit (fullDraft whole cut left) item = fullDraft whole cut (left ++ [item]) := by
  cases item with
  | story story =>
    rw [add, addStory]
    cases story.acceptanceCriteria.filter (· ≠ []) <;>
      simp [fullDraft, fit_full, fitBare_full, Item.label]
  | task storyKey task =>
    rw [add, addTask]
    split
    · simp [fullDraft, Item.label]
    · cases task.implementationPlan.filter (· ≠ []) <;>
        simp [fullDraft, fit_full, fitBare_full, Item.label]
  | doc doc =>
    rw [add, addDoc, if_pos (.inl rfl)]
    simp [fullDraft, Item.label]

theorem foldl_full (items : List Item) :
    items.foldl (add source limit) (fullDraft whole cut left) =
      fullDraft whole cut (left ++ items) := by
  induction items generalizing left with
  | nil => rw [List.foldl_nil, List.append_nil]
  | cons item items ih =>
    rw [List.foldl_cons, add_full, ih, List.append_assoc]
    rfl

/-- What trying an item in a plan that is not full comes to. -/
def tryItem (source : PlanSource) (limit : Int) (contents : Contents) (item : Item) : Fitted :=
  item.text?.elim (fitBare source limit false (contents.put item none) contents) fun text =>
    fit source limit false (fun text => contents.put item (some text)) text contents item.ending

/-- The story of a task is in the plan. -/
def StoryPlaced (whole : List Item) (item : Item) : Prop :=
  ∀ storyKey row, item = .task storyKey row → storyKey ∈ whole.filterMap Item.storyKey?

theorem entries_keys (items : List Item) :
    (contentsOf items).entries.map Prod.fst = items.filterMap Item.storyKey? := by
  induction items using List.reverseRecOn with
  | nil => rfl
  | append_singleton items item ih =>
    rw [contentsOf_append, List.filterMap_append, ← ih]
    cases item with
    | story row =>
      change ((contentsOf items).entries ++ [_]).map Prod.fst = _
      rw [List.map_append]
      rfl
    | task storyKey row =>
      change ((contentsOf items).entries.map _).map Prod.fst = _
      rw [List.map_map]
      refine Eq.trans (List.map_congr_left fun entry _ => ?_) (List.append_nil _).symm
      rw [Function.comp]
      split <;> rfl
    | doc row => exact (List.append_nil _).symm

/-- An item that there is room for is tried. -/
theorem add_draftOf (placed : StoryPlaced whole item) (room : Room source limit whole item)
    (filledItem : item.empty = false) :
    add source limit (draftOf whole) item =
      { contents := (tryItem source limit (contentsOf whole) item).contents
        full := (tryItem source limit (contentsOf whole) item).full
        omitted := if (tryItem source limit (contentsOf whole) item).placed then []
          else [item.label]
        docRefs := whole.filterMap Item.docRef? ++
          if (tryItem source limit (contentsOf whole) item).placed then item.docRef?.toList
          else []
        placedTasks := whole.filterMap Item.taskKey? ++
          if (tryItem source limit (contentsOf whole) item).placed then item.taskKey?.toList
          else [] } := by
  cases item with
  | story row =>
    have tried : (row.acceptanceCriteria.filter (· ≠ [])).elim
        (fitBare source limit false ((contentsOf whole).putStory row none) (contentsOf whole))
        (fun text => fit source limit false
          (fun text => (contentsOf whole).putStory row (some text)) (capField text)
          (contentsOf whole) marker) = tryItem source limit (contentsOf whole) (.story row) := by
      rw [tryItem, Item.text?, Option.elim_map]
      rfl
    rw [add, addStory]
    simp only [draftOf, tried, Item.docRef?, Item.taskKey?, Item.label, Option.toList_none,
      ite_self, List.append_nil, List.nil_append]
  | task storyKey row =>
    have tried : (row.implementationPlan.filter (· ≠ [])).elim
        (fitBare source limit false ((contentsOf whole).putTask storyKey row none)
          (contentsOf whole))
        (fun text => fit source limit false
          (fun text => (contentsOf whole).putTask storyKey row (some text)) (capField text)
          (contentsOf whole) marker) =
            tryItem source limit (contentsOf whole) (.task storyKey row) := by
      rw [tryItem, Item.text?, Option.elim_map]
      rfl
    have known : storyKey ∈ (draftOf whole).contents.entries.map Prod.fst :=
      (entries_keys whole).symm ▸ placed storyKey row rfl
    rw [add, addTask, if_neg (not_not.mpr (List.contains_iff_mem.mpr known))]
    simp only [draftOf, tried, Item.docRef?, Item.taskKey?, Item.label, Option.toList_none,
      ite_self, List.append_nil, List.nil_append, Option.toList_some]
    split <;> simp
  | doc row =>
    rw [add, addDoc, if_neg]
    · rw [Item.empty, Option.isNone_eq_false_iff, Option.isSome_iff_exists] at filledItem
      obtain ⟨content, known⟩ := filledItem
      have content' : row.content = some content := (Option.filter_eq_some_iff.mp known).1
      have tried : fit source limit false
          (fun text => (contentsOf whole).putDoc row.ref content text) (docBase content)
          (contentsOf whole) [] = tryItem source limit (contentsOf whole) (.doc row) := by
        rw [tryItem, Item.text?, known]
        simp only [Option.map_some, Option.elim_some, Contents.put, content', Option.getD_some,
          Item.ending]
      rw [known, Option.elim_some]
      simp only [draftOf, tried, Item.docRef?, Item.taskKey?, Item.label, Option.toList_none,
        ite_self, List.append_nil, List.nil_append, Option.toList_some]
      split <;> simp
    · rintro (full | small)
      · cases full
      · exact absurd (room rfl) (Int.not_le.mpr small)

/-! ## What comes of an item -/

theorem tryItem_whole
    (fitting : fits source limit ((contentsOf whole).put item item.text?) = true) :
    tryItem source limit (contentsOf whole) item =
      ⟨(contentsOf whole).put item item.text?, false, true⟩ := by
  unfold tryItem
  cases known : item.text? with
  | none =>
    rw [known] at fitting
    simp [fitBare, fitting]
  | some text =>
    rw [known] at fitting
    simp [fit, fitting]

theorem tryItem_cut (cutHere : CutHere source limit whole item text) :
    tryItem source limit (contentsOf whole) item =
      ⟨(contentsOf whole).put item (some (cutText source limit whole item text)), true, true⟩ := by
  have useful := cutHere.useful
  have long := cutHere.long
  unfold cutFits at useful
  unfold tryItem fit cutText cutFits
  rw [cutHere.known, Option.elim_some]
  simp only [Bool.false_eq_true, if_false, cutHere.large, useful, not_true_eq_false, or_false,
    Nat.not_le.mpr long]

theorem tryItem_left (room : Room source limit whole item)
    (unfit : fits source limit ((contentsOf whole).put item item.text?) = false)
    (uncut : ¬ ∃ text, CutHere source limit whole item text) :
    tryItem source limit (contentsOf whole) item = ⟨contentsOf whole, true, false⟩ := by
  unfold tryItem
  cases known : item.text? with
  | none =>
    rw [known] at unfit
    simp [fitBare, unfit]
  | some text =>
    rw [known] at unfit
    have short : text.length ≤ minUseful ∨ ¬ fits source limit ((contentsOf whole).put item
          (some (text.take minUseful ++ item.ending))) = true := by
      by_contra! both
      exact uncut ⟨text, room, known, unfit, both.1, both.2⟩
    rw [Option.elim_some, fit]
    simp only [Bool.false_eq_true, if_false, unfit, if_pos short]

theorem add_whole (placed : StoryPlaced whole item) (holds : Whole source limit whole item) :
    add source limit (draftOf whole) item = draftOf (whole ++ filled [item]) := by
  cases nothing : item.empty with
  | true =>
    cases item with
    | doc row =>
      rw [add, addDoc, if_neg]
      · have none' : filled [Item.doc row] = [] := by simp [filled, nothing]
        rw [Item.empty, Option.isNone_iff_eq_none] at nothing
        rw [nothing, none', List.append_nil]
        rfl
      · rintro (full | small)
        · cases full
        · exact absurd (holds.1 rfl) (Int.not_le.mpr small)
    | _ => cases nothing
  | false =>
    have fitting := holds.2.resolve_left (by simp [nothing])
    have single : filled [item] = [item] := by simp [filled, nothing]
    rw [add_draftOf placed holds.1 nothing, tryItem_whole fitting, single]
    simp only [draftOf, contentsOf_append, List.filterMap_append, if_true]
    congr 1

theorem CutHere.filled (cutHere : CutHere source limit whole item text) : item.empty = false := by
  have known := cutHere.known
  cases item with
  | doc row =>
    rw [Item.text?, Option.map_eq_some_iff] at known
    obtain ⟨content, found, -⟩ := known
    rw [Item.empty, found]
    rfl
  | _ => rfl

theorem add_cut (placed : StoryPlaced whole item) (cutHere : CutHere source limit whole item text) :
    add source limit (draftOf whole) item =
      fullDraft whole (some ⟨item, cutText source limit whole item text⟩) [] := by
  rw [add_draftOf placed cutHere.room cutHere.filled, tryItem_cut cutHere]
  simp only [fullDraft, cutContents, placedItems, Option.elim_some, Option.map_some,
    Option.toList_some, List.filterMap_append, List.map_nil, if_true]
  congr 1

theorem add_left (placed : StoryPlaced whole item) (unfit : ¬ Whole source limit whole item)
    (uncut : ¬ ∃ text, CutHere source limit whole item text) :
    add source limit (draftOf whole) item = fullDraft whole none [item] := by
  by_cases room : Room source limit whole item
  · have nothing : item.empty = false := by
      by_contra empty
      exact unfit ⟨room, .inl (by simpa using empty)⟩
    have large : fits source limit ((contentsOf whole).put item item.text?) = false := by
      by_contra fitting
      exact unfit ⟨room, .inr (by simpa using fitting)⟩
    rw [add_draftOf placed room nothing, tryItem_left room large uncut]
    simp [fullDraft, cutContents, placedItems]
  · cases item with
    | doc row =>
      have small : limit - size source (contentsOf whole) < minUseful := by
        by_contra large
        exact room fun _ => Int.not_lt.mp large
      rw [add, addDoc, if_pos (.inr small)]
      simp [fullDraft, cutContents, placedItems, draftOf, Item.label]
    | _ => exact absurd (fun isDoc => by cases isDoc) room

/-! ## The whole run -/

theorem filled_storyKeys (items : List Item) :
    (filled items).filterMap Item.storyKey? = items.filterMap Item.storyKey? := by
  rw [filled, List.filterMap_filter]
  refine List.filterMap_congr fun item _ => ?_
  cases item with
  | doc row => exact ite_self _
  | _ => rfl

theorem filled_append (items others : List Item) :
    filled (items ++ others) = filled items ++ filled others :=
  List.filter_append _ _

/-- Every task stands after its story. -/
def StoriesFirst (items : List Item) : Prop :=
  ∀ before item rest, items = before ++ item :: rest → StoryPlaced before item

theorem StoriesFirst.filled {items before rest : List Item}
    (first : StoriesFirst items) (split : items = before ++ item :: rest) :
    StoryPlaced (filled before) item := by
  intro storyKey row task
  rw [filled_storyKeys]
  exact first before item rest split storyKey row task

/-- Items that are all placed as a whole. -/
theorem foldl_whole {before items rest : List Item} (first : StoriesFirst (before ++ items ++ rest))
    (allWhole : AllWhole source limit (filled before) items) :
    items.foldl (add source limit) (draftOf (filled before)) =
      draftOf (filled (before ++ items)) := by
  induction items generalizing before with
  | nil => rw [List.foldl_nil, List.append_nil]
  | cons item items ih =>
    have split : before ++ item :: items ++ rest = before ++ item :: (items ++ rest) :=
      List.append_assoc before _ rest
    have placed := first.filled split
    rw [List.foldl_cons, add_whole placed allWhole.1, ← filled_append,
      @ih (before ++ [item]) (by simpa using first)
        (by rw [filled_append]; exact allWhole.2),
      List.append_assoc]
    rfl

theorem exists_first (source : PlanSource) (limit : Int) (whole items : List Item) :
    AllWhole source limit whole items ∨ ∃ before item rest, items = before ++ item :: rest ∧
      AllWhole source limit whole before ∧ ¬ Whole source limit (whole ++ filled before) item := by
  induction items generalizing whole with
  | nil => exact .inl trivial
  | cons item items ih =>
    by_cases holds : Whole source limit whole item
    · rcases ih (whole ++ filled [item]) with
        allWhole | ⟨before, next, rest, rfl, allWhole, unfit⟩
      · exact .inl ⟨holds, allWhole⟩
      · refine .inr ⟨item :: before, next, rest, rfl, ⟨holds, allWhole⟩, ?_⟩
        rw [List.append_assoc, ← filled_append] at unfit
        exact unfit
    · exact .inr ⟨[], item, items, rfl, trivial, by rwa [filled, List.filter_nil, List.append_nil]⟩

end Filling

end LinkedPlans
end Scrum4Me
