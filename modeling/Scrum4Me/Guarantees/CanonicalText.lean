import Scrum4Me.Guarantees.CanonicalForm
import Mathlib.Data.List.Lex
import Mathlib.Data.Nat.Digits.Lemmas

/-!
# Equal texts, equal values

A form means what its value means, so equal texts come from values that mean the same.
Values that mean the same have one form as long as no object has two keys that
`localeCompare` takes for equal; two such keys are written in the order in which they
were inserted.
-/

namespace Scrum4Me
namespace Dispatch
namespace Canonical

open Foundation

/-! ## What a form means -/

section Meanings

variable {ν : Type} {collation : Collation}

theorem lookup_eq_some_iff_mem
    {entries : List (Text × β)} (distinct : (entries.map Prod.fst).Nodup) {key : Text} {value : β} :
    entries.lookup key = some value ↔ (key, value) ∈ entries := by
  induction entries with
  | nil => simp
  | cons entry entries ih =>
    obtain ⟨fresh, rest⟩ := List.nodup_cons.mp distinct
    obtain ⟨own, content⟩ := entry
    by_cases same : key = own
    · subst same
      have absent : (key, value) ∉ entries := fun member =>
        fresh (List.mem_map.mpr ⟨(key, value), member, rfl⟩)
      simp [absent, eq_comm]
    · rw [List.lookup_cons, beq_false_of_ne same]
      simp [ih rest, same]

theorem lookup_eq_of_perm {entries others : List (Text × β)} (same : entries.Perm others)
    (distinct : (entries.map Prod.fst).Nodup) (key : Text) :
    entries.lookup key = others.lookup key := by
  refine Option.ext fun value => ?_
  rw [lookup_eq_some_iff_mem distinct, same.mem_iff,
    lookup_eq_some_iff_mem ((same.map Prod.fst).nodup_iff.mp distinct)]

theorem meaningItems_eq (items : List (Form ν)) :
    Form.meaningItems items = items.map Form.meaning := by
  induction items with
  | nil => rfl
  | cons item items ih => rw [Form.meaningItems, List.map_cons, ih]

theorem meaningFields_eq (fields : List (Text × Form ν)) :
    Form.meaningFields fields = fields.map fun entry => (entry.1, entry.2.meaning) := by
  induction fields with
  | nil => rfl
  | cons field fields ih => rw [Form.meaningFields, List.map_cons, ih]

theorem keys_map (content : Text × β → γ) (entries : List (Text × β)) :
    (entries.map fun entry => (entry.1, content entry)).map Prod.fst = entries.map Prod.fst := by
  rw [List.map_map]
  rfl

theorem Value.Proper.distinct
    {fields : List (Text × Option (Value ν))} (proper : (Value.object fields).Proper) :
    ((present fields).map Prod.fst).Nodup :=
  proper.1.sublist (keys_present_sublist fields)

/-- The form means what the value means. -/
theorem Value.meaning_form (value : Value ν) (proper : value.Proper) :
    (value.form collation).meaning = value.meaning := by
  induction value using Value.inductionOn with
  | array items ih =>
    have each := properItems_iff.mp proper
    rw [Value.form, Form.meaning, Value.meaning, meaningItems_eq, itemForms_eq,
      itemMeanings_eq, List.map_map]
    exact congrArg Meaning.array (List.map_congr_left fun item member =>
      ih item member (each item member))
  | object fields ih =>
    have each := properFields_iff.mp proper.2
    rw [Value.form, Form.meaning, Value.meaning, meaningFields_eq, fieldMeanings_eq,
      fieldForms_eq, localeSort_map, List.map_map]
    refine congrArg Meaning.object (funext fun key => ?_)
    have meanings : (localeSort collation (ownOrder (present fields))).map
        (fun entry => (entry.1, (entry.2.form collation).meaning)) =
        (localeSort collation (ownOrder (present fields))).map
          fun entry => (entry.1, entry.2.meaning) := by
      refine List.map_congr_left fun entry member => ?_
      have member := mem_localeSort.mp member
      rw [ih entry.1 entry.2 (mem_present.mp member) (each entry member)]
    refine (congrArg (List.lookup key) meanings).trans ?_
    refine (lookup_eq_of_perm ((perm_localeSort (present fields)).symm.map _) ?_ key).symm
    rw [keys_map]
    exact proper.distinct
  | _ => rfl

/-- Values that mean the same have one form, if no keys of the first are tied. -/
theorem Value.form_eq_of_meaning_eq
    (value : Value ν) (untied : value.Untied collation) (proper : value.Proper)
    (other : Value ν) (proper' : other.Proper) (same : value.meaning = other.meaning) :
    value.form collation = other.form collation := by
  induction value using Value.inductionOn generalizing other with
  | bool value =>
    cases other with
    | bool value' => rw [Meaning.bool.inj same]
    | _ => simp [Value.meaning] at same
  | number value =>
    cases other with
    | number value' => rw [Meaning.number.inj same]
    | _ => simp [Value.meaning] at same
  | string value =>
    cases other with
    | string value' => rw [Meaning.string.inj same]
    | _ => simp [Value.meaning] at same
  | array items ih =>
    cases other with
    | array items' =>
      have each := properItems_iff.mp proper
      have each' := properItems_iff.mp proper'
      have loose := untiedItems_iff.mp untied
      simp only [Value.meaning, itemMeanings_eq, Meaning.array.injEq] at same
      rw [Value.form, Value.form, itemForms_eq, itemForms_eq]
      refine congrArg Form.array (List.ext_getElem ?_ fun index small small' => ?_)
      · rw [List.length_map, List.length_map]
        have lengths := congrArg List.length same
        rwa [List.length_map, List.length_map] at lengths
      · rw [List.length_map] at small small'
        have here := congrArg (·[index]?) same
        simp only [List.getElem?_map, List.getElem?_eq_getElem small,
          List.getElem?_eq_getElem small', Option.map_some, Option.some.injEq] at here
        rw [List.getElem_map, List.getElem_map]
        have member := List.getElem_mem small
        exact ih _ member (loose _ member) (each _ member) _
          (each' _ (List.getElem_mem small')) here
    | _ => simp [Value.meaning] at same
  | object fields ih =>
    cases other with
    | object fields' =>
      have each := properFields_iff.mp proper.2
      have each' := properFields_iff.mp proper'.2
      have loose := untiedFields_iff.mp untied.2
      simp only [Value.meaning, fieldMeanings_eq, Meaning.object.injEq] at same
      have looked : ∀ key meaning,
          (key, meaning) ∈ (present fields).map (fun entry => (entry.1, entry.2.meaning)) ↔
          (key, meaning) ∈ (present fields').map fun entry => (entry.1, entry.2.meaning) := by
        intro key meaning
        rw [← lookup_eq_some_iff_mem (by rw [keys_map]; exact proper.distinct),
          ← lookup_eq_some_iff_mem (by rw [keys_map]; exact proper'.distinct),
          congrFun same key]
      have forms : ((present fields).map fun entry =>
            (entry.1, entry.2.form collation)).Perm
          ((present fields').map fun entry => (entry.1, entry.2.form collation)) := by
        refine (List.perm_ext_iff_of_nodup ?_ ?_).mpr ?_
        · exact List.Nodup.of_map Prod.fst (by rw [keys_map]; exact proper.distinct)
        · exact List.Nodup.of_map Prod.fst (by rw [keys_map]; exact proper'.distinct)
        · rintro ⟨key, form⟩
          constructor
          · intro member
            obtain ⟨entry, member, written⟩ := List.mem_map.mp member
            obtain ⟨entry', member', meant⟩ := List.mem_map.mp
              ((looked _ _).mp (List.mem_map_of_mem member))
            obtain ⟨sameKey, sameMeaning⟩ := Prod.mk.inj meant
            refine List.mem_map.mpr ⟨entry', member', ?_⟩
            rw [← written, sameKey, ih entry.1 entry.2
              (mem_present.mp member) (loose entry member) (each entry member) entry'.2
              (each' entry' member') sameMeaning.symm]
          · intro member
            obtain ⟨entry', member', written⟩ := List.mem_map.mp member
            obtain ⟨entry, member, meant⟩ := List.mem_map.mp
              ((looked _ _).mpr (List.mem_map_of_mem member'))
            obtain ⟨sameKey, sameMeaning⟩ := Prod.mk.inj meant
            refine List.mem_map.mpr ⟨entry, member, ?_⟩
            rw [← written, sameKey, ih entry.1 entry.2
              (mem_present.mp member) (loose entry member) (each entry member) entry'.2
              (each' entry' member') sameMeaning]
      rw [Value.form, Value.form, fieldForms_eq, fieldForms_eq]
      refine congrArg Form.object (localeSort_eq_of_perm forms ?_ ?_)
      · rw [keys_map]
        exact proper.distinct
      · intro first member second member' tied
        obtain ⟨entry, own, rfl⟩ := List.mem_map.mp member
        obtain ⟨entry', own', rfl⟩ := List.mem_map.mp member'
        exact untied.1 (tiedFields_iff.mpr ⟨entry, own, entry', own', tied⟩)
    | _ => simp [Value.meaning] at same
  | _ =>
    cases other with
    | null => rfl
    | nonFinite => rfl
    | _ => simp [Value.meaning] at same

end Meanings

/-! ## Where the text is canonical -/

section Exactness

variable {ν : Type} {numerals : Numerals ν} {collation : Collation}

/-- An object with these fields. -/
def objectOf (entries : List (Text × Value ν)) : Value ν :=
  .object (entries.map fun entry => (entry.1, some entry.2))

@[simp] theorem present_objectOf (entries : List (Text × Value ν)) :
    present (entries.map fun entry => (entry.1, some entry.2)) = entries := by
  induction entries with
  | nil => rfl
  | cons entry entries ih => rw [List.map_cons, present, ih]

theorem form_objectOf (entries : List (Text × Value ν)) :
    (objectOf entries).form collation = .object ((localeSort collation
      (ownOrder entries)).map fun entry => (entry.1, entry.2.form collation)) := by
  rw [objectOf, Value.form, fieldForms_eq, present_objectOf, localeSort_map]

variable {fields : List (Text × Option (Value ν))} {entries : List (Text × Value ν)}

theorem proper_objectOf (distinct : (entries.map Prod.fst).Nodup)
    (each : ∀ entry ∈ entries, entry.2.Proper) :
    (objectOf entries).Proper := by
  refine ⟨?_, properFields_iff.mpr ?_⟩
  · rw [keys_map]
    exact distinct
  · rw [present_objectOf]
    exact each

/-- An object means what its fields mean, in any order. -/
theorem meaning_objectOf (distinct : ((present fields).map Prod.fst).Nodup)
    (same : ((present fields).map fun entry => (entry.1, entry.2.meaning)).Perm
      (entries.map fun entry => (entry.1, entry.2.meaning))) :
    (objectOf entries).meaning = (Value.object fields).meaning := by
  rw [objectOf, Value.meaning, Value.meaning, fieldMeanings_eq, fieldMeanings_eq, present_objectOf]
  refine congrArg Meaning.object (funext fun key => (lookup_eq_of_perm same ?_ key).symm)
  rw [keys_map]
  exact distinct

/-- Two fields that come first in one order of the fields. -/
theorem exists_perm_of_mem {entries : List β} {first second : β} (member : first ∈ entries)
    (member' : second ∈ entries) (distinct : first ≠ second) :
    ∃ rest, entries.Perm (first :: second :: rest) := by
  obtain ⟨before, after, rfl⟩ := List.append_of_mem member
  have others : second ∈ before ++ after := by
    rcases List.mem_append.mp member' with member' | member'
    · exact List.mem_append_left after member'
    · exact List.mem_append_right before
        ((List.mem_cons.mp member').resolve_left (Ne.symm distinct))
  obtain ⟨before', after', split⟩ := List.append_of_mem others
  have rest : (before ++ after).Perm (second :: (before' ++ after')) := by
    rw [split]
    exact List.perm_middle
  exact ⟨before' ++ after', List.perm_middle.trans (rest.cons first)⟩

/-- An object with tied keys has a twin with another text. -/
theorem exists_twin_of_tied (proper : (Value.object fields).Proper)
    (tied : Value.TiedFields collation fields) :
    ∃ other : Value ν, other.Proper ∧ (Value.object fields).meaning = other.meaning ∧
      (Value.object fields).form collation ≠ other.form collation := by
  obtain ⟨first, member, second, member', tie⟩ := tiedFields_iff.mp tied
  have differs : first ≠ second := fun same => tie.1 (congrArg Prod.fst same)
  obtain ⟨rest, same⟩ := exists_perm_of_mem member member' differs
  have same' := same.trans (List.Perm.swap second first rest)
  have distinct := proper.distinct
  have distinct' := (same.map Prod.fst).nodup_iff.mp distinct
  have each := properFields_iff.mp proper.2
  have twin : ∀ entries, (present fields).Perm entries → (objectOf entries).Proper ∧
        (Value.object fields).meaning = (objectOf entries).meaning := by
    intro entries same
    refine ⟨proper_objectOf ((same.map Prod.fst).nodup_iff.mp distinct) ?_,
      (meaning_objectOf distinct (same.map _)).symm⟩
    exact fun entry member => each entry (same.mem_iff.mpr member)
  have apart : (objectOf (first :: second :: rest)).form collation ≠
      (objectOf (second :: first :: rest)).form collation := by
    rw [form_objectOf, form_objectOf, ← localeSort_map, ← localeSort_map]
    intro forms
    let written := fun entry : Text × Value ν => (entry.1, entry.2.form collation)
    refine @localeSort_ne_of_tie _ collation (rest.map written) (written first)
      (written second) tie ?_ (Form.object.inj forms)
    have keys := keys_map (fun entry : Text × Value ν => entry.2.form collation)
      (first :: second :: rest)
    exact keys.symm ▸ distinct'
  by_cases own : (Value.object fields).form collation =
      (objectOf (first :: second :: rest)).form collation
  · exact ⟨_, (twin _ same').1, (twin _ same').2, own ▸ apart⟩
  · exact ⟨_, (twin _ same).1, (twin _ same).2, own⟩

/-- A value with tied keys has a twin with another text. -/
theorem exists_twin (value : Value ν) (proper : value.Proper) (tied : ¬ value.Untied collation) :
    ∃ other : Value ν, other.Proper ∧ value.meaning = other.meaning ∧
      value.form collation ≠ other.form collation := by
  induction value using Value.inductionOn with
  | array items ih =>
    have each := properItems_iff.mp proper
    have inside : ∃ item ∈ items, ¬ item.Untied collation := by
      by_contra none
      exact tied (untiedItems_iff.mpr fun item member => by_contra fun loose =>
        none ⟨item, member, loose⟩)
    obtain ⟨item, member, loose⟩ := inside
    obtain ⟨other, proper', means, differs⟩ := ih item member (each item member) loose
    obtain ⟨before, after, rfl⟩ := List.append_of_mem member
    refine ⟨.array (before ++ other :: after), properItems_iff.mpr ?_, ?_, ?_⟩
    · intro entry member
      rcases List.mem_append.mp member with member | member
      · exact each entry (List.mem_append_left _ member)
      · rcases List.mem_cons.mp member with rfl | member
        · exact proper'
        · exact each entry (List.mem_append_right _ (List.mem_cons_of_mem _ member))
    · rw [Value.meaning, Value.meaning, itemMeanings_eq, itemMeanings_eq, List.map_append,
        List.map_append, List.map_cons, List.map_cons, means]
    · intro same
      rw [Value.form, Value.form, itemForms_eq, itemForms_eq, List.map_append,
        List.map_append, List.map_cons, List.map_cons] at same
      exact differs (List.cons.inj (List.append_cancel_left (Form.array.inj same))).1
  | object fields ih =>
    by_cases here : Value.TiedFields collation fields
    · exact exists_twin_of_tied proper here
    · have each := properFields_iff.mp proper.2
      have distinct := proper.distinct
      have inside : ∃ entry ∈ present fields, ¬ entry.2.Untied collation := by
        by_contra none
        exact tied ⟨here, untiedFields_iff.mpr fun entry member =>
          by_contra fun loose => none ⟨entry, member, loose⟩⟩
      obtain ⟨entry, member, loose⟩ := inside
      obtain ⟨other, proper', means, differs⟩ := ih entry.1 entry.2
        (mem_present.mp member) (each entry member) loose
      obtain ⟨before, after, split⟩ := List.append_of_mem member
      have same : (present fields).Perm (entry :: (before ++ after)) := split ▸ List.perm_middle
      have distinct' := (same.map Prod.fst).nodup_iff.mp distinct
      refine ⟨objectOf ((entry.1, other) :: (before ++ after)),
        proper_objectOf distinct' ?_, (meaning_objectOf distinct ?_).symm, ?_⟩
      · intro field member
        rcases List.mem_cons.mp member with rfl | member
        · exact proper'
        · exact each field (same.mem_iff.mpr (List.mem_cons_of_mem _ member))
      · have meanings := same.map fun entry => (entry.1, entry.2.meaning)
        rw [List.map_cons, means] at meanings
        exact meanings
      · intro forms
        rw [form_objectOf, Value.form, fieldForms_eq, localeSort_map] at forms
        have written := List.mem_map_of_mem
          (f := fun entry : Text × Value ν => (entry.1, entry.2.form collation))
          ((@mem_localeSort _ collation _ _).mpr member)
        rw [Form.object.inj forms] at written
        obtain ⟨field, member, same⟩ := List.mem_map.mp written
        obtain ⟨sameKey, sameForm⟩ := Prod.mk.inj same
        rcases List.mem_cons.mp (mem_localeSort.mp member) with rfl | member
        · exact differs sameForm.symm
        · exact (List.nodup_cons.mp distinct').1
            (sameKey ▸ List.mem_map_of_mem (f := Prod.fst) member)
  | _ => exact absurd trivial tied

/-- Equal texts always come from values that mean the same. Values that mean the same
always get the text of `value` if and only if no object inside it has tied keys. -/
theorem canonicalResult_canonical_iff
    (numerals : Numerals ν) (collation : Collation) (value : Value ν)
    (proper : value.Proper) :
    (∀ other : Value ν, other.Proper →
      canonicalResult numerals collation value = canonicalResult numerals collation other →
      value.meaning = other.meaning) ∧
    ((∀ other : Value ν, other.Proper →
      (canonicalResult numerals collation value = canonicalResult numerals collation other ↔
        value.meaning = other.meaning)) ↔
      value.Untied collation) := by
  have sound : ∀ other : Value ν, other.Proper →
      canonicalResult numerals collation value = canonicalResult numerals collation other →
      value.meaning = other.meaning := by
    intro other proper' same
    rw [← @Value.meaning_form ν collation value proper,
      ← @Value.meaning_form ν collation other proper', canonicalResult_eq_iff.mp same]
  refine ⟨sound, fun canonical => ?_, fun untied other proper' => ⟨sound other proper', ?_⟩⟩
  · by_contra tied
    obtain ⟨other, proper', means, differs⟩ := exists_twin value proper tied
    exact differs (canonicalResult_eq_iff.mp ((canonical other proper').mpr means))
  · exact fun means => canonicalResult_eq_iff.mpr
      (value.form_eq_of_meaning_eq untied proper other proper' means)

end Exactness

/-! ## Two keys that compare equal -/

/-- The natural numbers in decimal digits. -/
def decimal : Numerals Nat where
  text number := if number = 0 then [48] else ((Nat.digits 10 number).map (48 + ·)).reverse
  injective := by
    have zero : ∀ number, number ≠ 0 → [48] ≠ ((Nat.digits 10 number).map (48 + ·)).reverse := by
      intro number positive same
      have digits := congrArg List.reverse same
      rw [List.reverse_reverse] at digits
      have alone : Nat.digits 10 number = [0] :=
        List.map_injective_iff.mpr (add_right_injective 48) digits.symm
      have value := Nat.ofDigits_digits 10 number
      rw [alone] at value
      exact positive value.symm
    intro first second same
    by_cases first0 : first = 0 <;> by_cases second0 : second = 0
    · rw [first0, second0]
    · simp only [if_pos first0, if_neg second0] at same
      exact absurd same (zero second second0)
    · simp only [if_neg first0, if_pos second0] at same
      exact absurd same.symm (zero first first0)
    · simp only [if_neg first0, if_neg second0] at same
      exact Nat.digits_inj_iff.mp
        (List.map_injective_iff.mpr (add_right_injective 48) (List.reverse_injective same))
  nonempty number := by
    by_cases zero : number = 0
    · simp [zero]
    · simp [zero, Nat.digits_ne_nil_iff_ne_zero]
  plain number unit member := by
    by_cases zero : number = 0
    · simp only [if_pos zero, List.mem_singleton] at member
      exact .inl (by omega)
    · simp only [if_neg zero, List.mem_reverse, List.mem_map] at member
      obtain ⟨digit, member, rfl⟩ := member
      have small := Nat.digits_lt_base (by omega) member
      exact .inl (by omega)

/-- The code units in order, without the soft hyphens, which an ICU collation ignores. -/
def hyphenless : Collation where
  le first second := decide (first.filter (· ≠ 173) ≤ second.filter (· ≠ 173))
  total first second := by
    simpa only [decide_eq_true_iff] using le_total _ _
  trans first second third := by
    simpa only [decide_eq_true_iff] using le_trans

def inserted : Value Nat :=
  .object [([97], some (.number 1)), ([97, 173], some (.number 2))]

def reinserted : Value Nat :=
  .object [([97, 173], some (.number 2)), ([97], some (.number 1))]

theorem proper_inserted : inserted.Proper :=
  ⟨by decide, trivial, trivial, trivial⟩

theorem proper_reinserted : reinserted.Proper :=
  ⟨by decide, trivial, trivial, trivial⟩

theorem canonicalResult_canonical_iff_inserted :
    inserted.Proper ∧
    (∀ other : Value Nat, other.Proper →
      canonicalResult decimal hyphenless inserted = canonicalResult decimal hyphenless other →
      inserted.meaning = other.meaning) ∧
    ((∀ other : Value Nat, other.Proper → (canonicalResult decimal hyphenless inserted =
          canonicalResult decimal hyphenless other ↔
        inserted.meaning = other.meaning)) ↔
      inserted.Untied hyphenless) :=
  ⟨proper_inserted, canonicalResult_canonical_iff decimal hyphenless inserted proper_inserted⟩

/-- The same fields, inserted the other way round, get another text. -/
theorem canonicalResult_reinserted :
    (inserted.Proper ∧ reinserted.Proper ∧ inserted.meaning = reinserted.meaning) ∧
      canonicalResult decimal hyphenless inserted ≠
        canonicalResult decimal hyphenless reinserted := by
  refine ⟨⟨proper_inserted, proper_reinserted, ?_⟩, by decide +kernel⟩
  refine congrArg Meaning.object (funext fun key => ?_)
  refine lookup_eq_of_perm (List.Perm.swap _ _ []) ?_ key
  decide

end Canonical
end Dispatch
end Scrum4Me
