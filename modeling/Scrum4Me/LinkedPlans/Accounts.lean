import Scrum4Me.LinkedPlans.References

/-!
# The plan accounts for everything

A plan fits in its budget, holds or names everything that is collected, in the order of
the items, and cuts at most one item. The cut is the longest that fits exactly if no
shorter beginning that is tried before ends inside a pair and does not fit for that.
-/

namespace Scrum4Me
namespace LinkedPlans

open Foundation

section Accounts

variable (source : PlanSource) (collected : Collected)

/-- An item is cut to its longest beginning that fits in the room beside all labels. -/
def LongestCut (whole : List Item) (cut : Cut) : Prop :=
  ∃ text length, cut.item.text? = some text ∧ cut.text = text.take length ++ cut.item.ending ∧
    length < text.length ∧
    cutFits source collected.limit whole cut.item text length = true ∧
    ∀ other, length < other → other < text.length →
      cutFits source collected.limit whole cut.item text other = false

/-- The items before are in the plan as a whole, the next may be cut, all others are left
out; documents without content are passed over. -/
structure Account (plan : LinkedPlan) (before : List Item) (cut : Option Cut) (left : List Item) :
    Prop where
  split : collected.items = before ++ ((cut.map Cut.item).toList ++ left)
  stories : plan.stories = storiesOf (placements before cut)
  docs : plan.planDocs = docsOf (placements before cut)
  omitted : plan.omitted = left.map Item.label
  references : plan.references =
    referencesOf collected.refKeys (placedItems (filled before) cut)
  longest : ∀ last ∈ cut, LongestCut source collected (filled before) last

/-- The plan is within its budget and accounts for what is collected. -/
def Accounts (plan : LinkedPlan) : Prop :=
  plan.size ≤ linkedPlanBudget ∧ ∃ before cut left, Account source collected plan before cut left

/-- Halving the interval towards the longest beginning that fits, no shorter one is tried
that splits a pair and does not fit. -/
def Unbroken : Prop :=
  ∀ before item rest text target, collected.items = before ++ item :: rest →
    AllWhole source collected.limit [] before →
    CutHere source collected.limit (filled before) item text →
    Greatest (cutFits source collected.limit (filled before) item text) minUseful
      (text.length - 1) target →
    ∀ probe ∈ probes target minUseful (text.length - 1), probe ≤ target → Text.Splits text probe →
      cutFits source collected.limit (filled before) item text probe = true

variable {source collected} {plan : LinkedPlan} {before left : List Item} {cut : Option Cut}

/-- What is returned, from what becomes of the items. -/
theorem exists_result (distinct : Distinct collected)
    (result : assembleWithinBudget source collected = some plan) :
    ∃ before cut left, Filled source collected before cut left ∧
      placedItems (filled before) cut ≠ [] ∧
      plan = ⟨source, referencesOf collected.refKeys (placedItems (filled before) cut),
        (cutContents (filled before) cut).entries.map Prod.snd,
        (cutContents (filled before) cut).docs, left.map Item.label⟩ := by
  obtain ⟨before, cut, left, full, outcome, run⟩ := exists_filled source collected
  rw [assembleWithinBudget, run] at result
  split at result
  · rename_i content
    refine ⟨before, cut, left, outcome, ?_, ?_⟩
    · intro nothing
      rw [placedItems, List.append_eq_nil_iff] at nothing
      obtain ⟨noItem, noCut⟩ := nothing
      cases cut with
      | none =>
        rw [noItem] at content
        exact absurd content (show ¬ hasContent ⟨[], []⟩ = true by decide)
      | some cut => cases noCut
    · rw [← Option.some.inj result, references_eq distinct outcome]
      rfl
  · cases result

theorem contents_eq (split : collected.items = before ++ ((cut.map Cut.item).toList ++ left)) :
    (cutContents (filled before) cut).entries.map Prod.snd = storiesOf (placements before cut) ∧
      (cutContents (filled before) cut).docs = docsOf (placements before cut) := by
  rw [← contentsWith_placements, contentsWith_entries (storiesLead_placed split), contentsWith_docs]
  exact ⟨rfl, rfl⟩

variable {item : Item} {text : Text}

/-- The beginning that is left fits, and the search for it was not turned away. -/
theorem longestCut_iff {target : Nat}
    (cutHere : CutHere source collected.limit (filled before) item text)
    (greatest : Greatest (cutFits source collected.limit (filled before) item text) minUseful
      (text.length - 1) target) :
    LongestCut source collected (filled before)
        ⟨item, cutText source collected.limit (filled before) item text⟩ ↔
      ∀ probe ∈ probes target minUseful (text.length - 1), probe ≤ target → Text.Splits text probe →
        cutFits source collected.limit (filled before) item text probe = true := by
  have long := cutHere.long
  obtain ⟨found, above, below⟩ := @bisect_fits _ _ (text.length - 1) (by omega) cutHere.useful
  have split : (∀ probe ∈ probes target minUseful (text.length - 1), probe ≤ target →
      Text.Splits text probe →
      cutFits source collected.limit (filled before) item text probe = true) ↔
        bisect (cutFits source collected.limit (filled before) item text) minUseful
          (text.length - 1) = target := by
    rw [bisect_eq_iff greatest]
    constructor
    · intro splitFits probe tried small
      by_contra unfit
      have unfit' := Bool.eq_false_iff.mpr unfit
      have within := greatest.within.2
      exact unfit (splitFits probe tried small
        (splits_of_unfit cutHere.known small (by omega) greatest.holds unfit'))
    · exact fun allFit probe tried small _ => allFit probe tried small
  rw [split]
  constructor
  · rintro ⟨text', length, known, same, less, fitting, last⟩
    obtain rfl : text = text' := Option.some.inj (cutHere.known.symm.trans known)
    have lengths := congrArg List.length (List.append_cancel_right same)
    rw [List.length_take, List.length_take, Nat.min_eq_left (by omega),
      Nat.min_eq_left (by omega)] at lengths
    rw [lengths] at above below ⊢
    have greatest' : Greatest (cutFits source collected.limit (filled before) item text) minUseful
        (text.length - 1) length :=
      ⟨⟨above, below⟩, fitting, fun other more small => last other more (by omega)⟩
    exact greatest'.unique greatest
  · intro reached
    rw [reached] at found below
    refine ⟨text, target, cutHere.known, ?_, by omega, found,
      fun other more small => greatest.last other more (by omega)⟩
    rw [cutText, reached]

theorem allWhole_append {limit : Int} {whole items others : List Item} :
    AllWhole source limit whole (items ++ others) ↔ AllWhole source limit whole items ∧
        AllWhole source limit (whole ++ filled items) others := by
  induction items generalizing whole with
  | nil => rw [filled, List.filter_nil, List.append_nil]; exact (and_iff_right trivial).symm
  | cons item items ih =>
    have split : filled (item :: items) = filled [item] ++ filled items :=
      filled_append [item] items
    rw [List.cons_append, AllWhole, AllWhole, ih, split, List.append_assoc, and_assoc]

/-- Only one item is the first that is not placed as a whole. -/
theorem before_unique {limit : Int} {before' rest rest' : List Item} {item' : Item}
    (split : before ++ item :: rest = before' ++ item' :: rest')
    (allWhole : AllWhole source limit [] before) (unfit : ¬ Whole source limit (filled before) item)
    (allWhole' : AllWhole source limit [] before')
    (unfit' : ¬ Whole source limit (filled before') item') :
    before = before' ∧ item = item' ∧ rest = rest' := by
  rcases List.append_eq_append_iff.mp split with ⟨more, rfl, tail⟩ | ⟨more, rfl, tail⟩
  · cases more with
    | nil =>
      obtain ⟨rfl, rfl⟩ := List.cons.inj tail
      exact ⟨(List.append_nil _).symm, rfl, rfl⟩
    | cons next more =>
      obtain ⟨rfl, -⟩ := List.cons.inj tail
      exact absurd (allWhole_append.mp allWhole').2.1 unfit
  · cases more with
    | nil =>
      obtain ⟨rfl, rfl⟩ := List.cons.inj tail
      exact ⟨List.append_nil _, rfl, rfl⟩
    | cons next more =>
      obtain ⟨rfl, -⟩ := List.cons.inj tail
      exact absurd (allWhole_append.mp allWhole).2.1 unfit'

/-- The item at which the plan is cut is the one that is cut. -/
theorem Filled.eq_cut {before' rest : List Item} (outcome : Filled source collected before cut left)
    (split : collected.items = before' ++ item :: rest)
    (allWhole : AllWhole source collected.limit [] before')
    (cutHere : CutHere source collected.limit (filled before') item text) :
    before = before' ∧
      cut = some ⟨item, cutText source collected.limit (filled before') item text⟩ ∧
      left = rest := by
  cases outcome with
  | all all =>
    rw [split, allWhole_append] at all
    exact absurd all.2.1 cutHere.not_whole
  | cut split' allWhole' cutHere' =>
    obtain ⟨rfl, rfl, rfl⟩ := before_unique (split'.symm.trans split) allWhole'
      cutHere'.not_whole allWhole cutHere.not_whole
    obtain rfl := Option.some.inj (cutHere'.known.symm.trans cutHere.known)
    exact ⟨rfl, rfl, rfl⟩
  | left split' allWhole' unfit uncut =>
    obtain ⟨rfl, rfl, rfl⟩ := before_unique (split'.symm.trans split) allWhole' unfit allWhole
      cutHere.not_whole
    exact absurd ⟨text, cutHere⟩ uncut

theorem size_congr {contents contents' : Contents}
    (stories : contents.entries.map Prod.snd = contents'.entries.map Prod.snd)
    (docs : contents.docs = contents'.docs) :
    size source contents = size source contents' := by
  rw [size, size, Contents.plan, Contents.plan, stories, docs]

/-- The plan shows the text with which the item is placed last. -/
theorem put_injective {contents : Contents} {text' : Text}
    (placed : ∀ storyKey row, item = .task storyKey row → storyKey ∈ contents.entries.map Prod.fst)
    (stories : (contents.put item (some text)).entries.map Prod.snd =
      (contents.put item (some text')).entries.map Prod.snd)
    (docs : (contents.put item (some text)).docs = (contents.put item (some text')).docs) :
    text = text' := by
  cases item with
  | story row =>
    have last : [_] = [_] := List.append_cancel_left
      ((List.map_append.symm.trans stories).trans List.map_append)
    have criteria := congrArg LinkedPlanStory.acceptanceCriteria (List.cons.inj last).1
    exact Option.some.inj criteria
  | task storyKey row =>
    obtain ⟨entry, member, key⟩ := List.mem_map.mp (placed storyKey row rfl)
    have each := List.map_inj_left.mp
      ((List.map_map.symm.trans stories).trans List.map_map) entry member
    rw [Function.comp, Function.comp, if_pos key, if_pos key] at each
    have last := List.append_cancel_left (congrArg LinkedPlanStory.tasks each)
    exact Option.some.inj (congrArg LinkedPlanTask.implementationPlan (List.cons.inj last).1)
  | doc row =>
    have last := List.append_cancel_left docs
    exact congrArg LinkedPlanDoc.contentMd (List.cons.inj last).1

theorem unbroken_of_accounts (distinct : Distinct collected)
    (result : assembleWithinBudget source collected = some plan)
    (accounts : Accounts source collected plan) :
    Unbroken source collected := by
  obtain ⟨before, cut, left, outcome, placed, rfl⟩ := exists_result distinct result
  obtain ⟨-, before', cut', left', account⟩ := accounts
  intro _ item rest text target split allWhole cutHere greatest
  obtain ⟨rfl, rfl, rfl⟩ := outcome.eq_cut split allWhole cutHere
  have lengths := congrArg List.length account.omitted
  rw [List.length_map, List.length_map] at lengths
  have both := outcome.split.symm.trans account.split
  rw [← List.append_assoc, ← List.append_assoc] at both
  obtain ⟨same, rfl⟩ := List.append_inj' both lengths
  have stories := account.stories
  have docs := account.docs
  cases cut' with
  | none =>
    -- The whole item is in a plan of the same size, but it does not fit.
    rw [Option.map_none, Option.map_some, Option.toList_none, Option.toList_some,
      List.append_nil] at same
    have filledItem : filled [item] = [item] := by simp [filled, cutHere.filled]
    have contents : cutContents (filled before') none =
        (contentsOf (filled before)).put item (some text) := by
      rw [← same, filled_append, filledItem, ← cutHere.known]
      exact contentsOf_append _ _
    have other := contents_eq account.split
    rw [contents] at other
    have large := cutHere.large
    rw [fits, size_congr (other.1.trans stories.symm) (other.2.trans docs.symm)] at large
    exact Bool.noConfusion (large.symm.trans (outcome.fits placed))
  | some last =>
    obtain ⟨rfl, sameItem⟩ := List.append_inj' same rfl
    obtain rfl : item = last.item := (List.cons.inj sameItem).1
    have other := contents_eq account.split
    have inPlan : ∀ storyKey row, last.item = .task storyKey row →
        storyKey ∈ (contentsOf (filled before)).entries.map Prod.fst := by
      rw [entries_keys]
      exact (storiesFirst_items collected).filled split
    have texts := put_injective inPlan (stories.trans other.1.symm) (docs.trans other.2.symm)
    have longest := account.longest last rfl
    rw [show last = ⟨last.item, last.text⟩ from rfl, ← texts] at longest
    exact (longestCut_iff cutHere greatest).mp longest

theorem accounts_of_unbroken (distinct : Distinct collected)
    (result : assembleWithinBudget source collected = some plan)
    (unbroken : Unbroken source collected) :
    Accounts source collected plan := by
  obtain ⟨before, cut, left, outcome, placed, rfl⟩ := exists_result distinct result
  refine ⟨size_within_budget distinct outcome placed, before, cut, left, outcome.split,
    (contents_eq outcome.split).1,
    (contents_eq outcome.split).2, rfl, rfl, ?_⟩
  cases outcome with
  | @cut _ _ item text split allWhole cutHere =>
    intro last member
    obtain rfl := Option.some.inj member
    have long := cutHere.long
    obtain ⟨target, greatest⟩ := @exists_greatest _ _ (text.length - 1) (by omega) cutHere.useful
    exact (longestCut_iff cutHere greatest).mpr (unbroken _ _ _ _ _ split allWhole cutHere greatest)
  | _ => exact fun _ none' => absurd none' (Option.not_mem_none _)

/-- A story with criteria only. -/
def described (code title criteria : Text) : StoryRow :=
  ⟨code, code, code, title, none, some criteria, []⟩

end Accounts

def pairs : Text := (List.replicate 151 [55357, 56832]).flatten

/-- One story fills the plan, the criteria of the next are pairs. -/
def splitPair (escapes : Text) : Collected :=
  ⟨[described [65] [84] escapes, described [66] [] pairs], [], [], []⟩

def storyPut (code title criteria : Text) : Text × LinkedPlanStory :=
  (code, ⟨code, title, none, some criteria, []⟩)

theorem size_described (first second : Text) :
    size .prRefs ⟨[storyPut [65] [84] first], []⟩ = 137 + (Text.quoteUnits first).length ∧
    size .prRefs ⟨[storyPut [65] [84] first, storyPut [66] [] second], []⟩ =
      197 + (Text.quoteUnits first).length + (Text.quoteUnits second).length := by
  have alone : size .prRefs ⟨[storyPut [65] [84] []], []⟩ = 137 := by decide +kernel
  have both : size .prRefs ⟨[storyPut [65] [84] [], storyPut [66] [] []], []⟩ = 197 := by decide +kernel
  have sizes : ∀ plan : LinkedPlan, plan.size = plan.json.size := fun _ => rfl
  have empty : (Text.quoteUnits []).length = 0 := rfl
  rw [← alone, ← both]
  simp only [size, sizes, Contents.plan, storyPut, LinkedPlan.json, LinkedPlanStory.json,
    JsonTree.size_object, JsonTree.size_array, JsonTree.size_string, text?, Option.elim_some,
    List.map_append, List.map_cons, List.map_nil, List.sum_append, List.sum_cons, List.sum_nil,
    List.length_append, List.length_cons, List.length_nil, empty]
  omega

theorem quoteUnits_escapes (count : Nat) :
    (Text.quoteUnits (List.replicate count 27)).length = 6 * count := by
  induction count with
  | zero => rfl
  | succ count ih =>
    have quoted := @Text.quoteUnits_append [27] (List.replicate count 27) (by
        intro high last low _ both
        obtain rfl : 27 = high := Option.some.inj last
        exact absurd both.1.1 (by decide))
    rw [List.replicate_succ, ← List.singleton_append, quoted, List.length_append, ih]
    change 6 + _ = _
    omega

/-- The pairs, and what a cut makes of them. -/
theorem quoteUnits_pairs :
    (Text.quoteUnits pairs).length = 302 ∧
    (∀ length ∈ [200, 254], (Text.quoteUnits (pairs.take length ++ marker)).length ≤ 265) ∧
    ∀ length ∈ [251, 255, 256], 266 < (Text.quoteUnits (pairs.take length ++ marker)).length := by
  decide +kernel

theorem described_text {code title criteria : Text}
    (stated : criteria ≠ []) (short : criteria.length ≤ fieldMax) :
    (Item.story (described code title criteria)).text? = some criteria := by
  rw [Item.text?, described, Option.filter_some, if_pos (by simpa using stated), Option.map_some,
    capField, if_neg (by omega)]

theorem hasText_of_mem {text : Text} {unit : Nat} (member : unit ∈ text)
    (visible : ¬ Text.Space unit) :
    hasText (some text) = true :=
  decide_eq_true fun blank => visible (Text.space_of_trim blank unit member)

theorem split_pair_of {escapes : Text} (quoted : (Text.quoteUnits escapes).length = 99528)
    (short : escapes.length ≤ fieldMax) (visible : 27 ∈ escapes) :
    ∃ plan, assembleWithinBudget .prRefs (splitPair escapes) = some plan ∧
      ¬ Accounts .prRefs (splitPair escapes) plan := by
  obtain ⟨quotedPairs, fitting, unfit⟩ := quoteUnits_pairs
  have split : (splitPair escapes).items = [.story (described [65] [84] escapes)] ++
      .story (described [66] [] pairs) :: [] := rfl
  have known : (splitPair []).limit = 99991 := by decide +kernel
  have limit : (splitPair escapes).limit = 99991 := known
  have keys : ([[65], [66]] : List Text).Nodup := by decide
  have distinct : Distinct (splitPair escapes) := ⟨keys, .nil⟩
  have firstText := @described_text [65] [84] escapes (List.ne_nil_of_mem visible) short
  have secondText : (Item.story (described [66] [] pairs)).text? = some pairs :=
    described_text (by decide +kernel) (by decide +kernel)
  have start : contentsOf [.story (described [65] [84] escapes)] =
      ⟨[storyPut [65] [84] escapes], []⟩ := by
    rw [contentsOf, List.foldl_cons, List.foldl_nil, firstText]
    rfl
  have cutSize : ∀ text, size .prRefs ((contentsOf [.story (described [65] [84] escapes)]).put
      (.story (described [66] [] pairs)) (some text)) = 99725 + (Text.quoteUnits text).length := by
    intro text
    rw [start]
    change size .prRefs ⟨[storyPut [65] [84] escapes, storyPut [66] [] text], []⟩ = _
    rw [(size_described escapes text).2, quoted]
  have cutFits_iff : ∀ length, cutFits .prRefs (splitPair escapes).limit
      [.story (described [65] [84] escapes)] (.story (described [66] [] pairs)) pairs length =
        decide ((Text.quoteUnits (pairs.take length ++ marker)).length ≤ 266) := by
    intro length
    have sized := cutSize (pairs.take length ++ marker)
    have ending : (Item.story (described [66] [] pairs)).ending = marker := rfl
    rw [cutFits, fits, limit, ending]
    exact decide_eq_decide.mpr (by omega)
  have allWhole : AllWhole .prRefs (splitPair escapes).limit []
      [.story (described [65] [84] escapes)] := by
    refine ⟨⟨fun isDoc => (by cases isDoc), .inr ?_⟩, trivial⟩
    have alone : (contentsOf []).put (.story (described [65] [84] escapes))
        (Item.story (described [65] [84] escapes)).text? = ⟨[storyPut [65] [84] escapes], []⟩ := by
      rw [← start]
      rfl
    rw [alone, fits, (size_described escapes []).1, quoted, limit]
    rfl
  have cutHere : CutHere .prRefs (splitPair escapes).limit
      (filled [.story (described [65] [84] escapes)]) (.story (described [66] [] pairs)) pairs :=
    { room := fun isDoc => by cases isDoc
      known := secondText
      large := by
        change fits _ _ ((contentsOf [_]).put _ _) = _
        rw [fits, cutSize, quotedPairs, limit]
        rfl
      long := by decide +kernel
      useful := (cutFits_iff 200).trans (decide_eq_true (by have := fitting 200 (by simp); omega)) }
  have greatest : Greatest (cutFits .prRefs (splitPair escapes).limit
      (filled [.story (described [65] [84] escapes)]) (.story (described [66] [] pairs)) pairs)
      minUseful (pairs.length - 1) 254 := by
    have length : pairs.length = 302 := by decide +kernel
    refine ⟨⟨by decide, by omega⟩, ?_, fun other more small => ?_⟩
    · exact (cutFits_iff 254).trans (decide_eq_true (by have := fitting 254 (by simp); omega))
    · refine (cutFits_iff other).trans (decide_eq_false ?_)
      rcases Nat.lt_or_eq_of_le (show 255 ≤ other from more) with above | rfl
      · have apart : ¬ Text.Splits pairs 256 := by
          rintro ⟨high, last, -, -, isHigh, -⟩
          have end' : (pairs.take 256).getLast? = some 56832 := by decide +kernel
          rw [end'] at last
          obtain rfl := Option.some.inj last
          exact absurd isHigh (by decide)
        have least := unfit 256 (by simp)
        have longer := @Text.quoteUnits_take_le pairs marker 256 other above apart (by decide)
        omega
      · have large := unfit 255 (by simp)
        omega
  have broken : ¬ Unbroken .prRefs (splitPair escapes) := by
    intro unbroken
    have tried : 251 ∈ probes 254 minUseful (pairs.length - 1) := by
      rw [show pairs.length = 302 by decide +kernel, probes.eq_def, if_pos (by decide)]
      exact List.mem_cons_self
    have splits : Text.Splits pairs 251 :=
      ⟨55357, by decide +kernel, 56832, by decide +kernel, by decide, by decide⟩
    have holds := unbroken _ _ _ _ _ split allWhole cutHere greatest 251 tried (by decide) splits
    have large := unfit 251 List.mem_cons_self
    have small := of_decide_eq_true ((cutFits_iff 251).symm.trans holds)
    omega
  cases result : assembleWithinBudget .prRefs (splitPair escapes) with
  | some plan =>
    exact ⟨plan, rfl, fun accounts => broken (unbroken_of_accounts distinct result accounts)⟩
  | none =>
    obtain ⟨before, cut, left, full, outcome, run⟩ := exists_filled .prRefs (splitPair escapes)
    obtain ⟨rfl, rfl, rfl⟩ := outcome.eq_cut split allWhole cutHere
    have content : ∀ text, hasContent ((contentsOf [.story (described [65] [84] escapes)]).put
        (.story (described [66] [] pairs)) (some text)) = true := by
      intro text
      rw [start]
      refine decide_eq_true (.inr ?_)
      change (hasText (some escapes) || _ || _) = true
      rw [hasText_of_mem visible (by decide)]
      rfl
    have shown : hasContent (finished .prRefs (splitPair escapes)).contents = true := by
      rw [run]
      exact content _
    rw [assembleWithinBudget, if_pos shown] at result
    cases result

end LinkedPlans
end Scrum4Me
