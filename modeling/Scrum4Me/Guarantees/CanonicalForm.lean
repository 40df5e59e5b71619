import Scrum4Me.Dispatch.Canonical
import Scrum4Me.Foundation.Stable

/-!
# The form of a text

The text of a value is the print of a form: the value with its fields in the order in
which they are written. A print can be read back, so equal texts come from equal forms.
-/

namespace Scrum4Me
namespace Dispatch
namespace Canonical

open Foundation

/-- A value with the fields of its objects in the order in which they are written. -/
inductive Form (ν : Type)
  | null
  | bool (value : Bool)
  | number (value : ν)
  | string (value : Text)
  | array (items : List (Form ν))
  | object (fields : List (Text × Form ν))

section Induction

variable {ν : Type}

theorem Value.inductionOn {motive : Value ν → Prop} (value : Value ν) (null : motive .null)
    (bool : ∀ value, motive (.bool value)) (number : ∀ value, motive (.number value))
    (nonFinite : motive .nonFinite) (string : ∀ value, motive (.string value))
    (array : ∀ items, (∀ item ∈ items, motive item) → motive (.array items))
    (object : ∀ fields, (∀ key value, (key, some value) ∈ fields → motive value) →
      motive (.object fields)) :
    motive value := by
  refine @Value.rec ν motive (fun items => ∀ item ∈ items, motive item)
    (fun fields => ∀ key value, (key, some value) ∈ fields → motive value)
    (fun entry => ∀ value, entry.2 = some value → motive value)
    (fun content => ∀ value, content = some value → motive value)
    null bool number nonFinite string array object ?_ ?_ ?_ ?_ ?_ ?_ ?_ value
  · exact List.forall_mem_nil _
  · exact fun _ _ first rest => List.forall_mem_cons.mpr ⟨first, rest⟩
  · exact fun _ _ member => absurd member List.not_mem_nil
  · intro entry fields first rest key value member
    rcases List.mem_cons.mp member with rfl | member
    · exact first value rfl
    · exact rest key value member
  · exact fun _ _ content => content
  · exact fun _ absent => absurd absent (by simp)
  · intro content holds value same
    exact Option.some.inj same ▸ holds

theorem Form.inductionOn {motive : Form ν → Prop} (form : Form ν) (null : motive .null)
    (bool : ∀ value, motive (.bool value)) (number : ∀ value, motive (.number value))
    (string : ∀ value, motive (.string value))
    (array : ∀ items, (∀ item ∈ items, motive item) → motive (.array items))
    (object : ∀ fields, (∀ entry ∈ fields, motive entry.2) → motive (.object fields)) :
    motive form := by
  refine @Form.rec ν motive (fun items => ∀ item ∈ items, motive item)
    (fun fields => ∀ entry ∈ fields, motive entry.2) (fun entry => motive entry.2)
    null bool number string array object ?_ ?_ ?_ ?_ ?_ form
  · exact List.forall_mem_nil _
  · exact fun _ _ first rest => List.forall_mem_cons.mpr ⟨first, rest⟩
  · exact List.forall_mem_nil _
  · exact fun _ _ first rest => List.forall_mem_cons.mpr ⟨first, rest⟩
  · exact fun _ _ content => content

end Induction

/-! ## Forms -/

section Forms

variable {ν : Type} (collation : Collation)

mutual

/-- The form in which a value is written. -/
def Value.form : Value ν → Form ν
  | .null => .null
  | .bool value => .bool value
  | .number value => .number value
  | .nonFinite => .null
  | .string value => .string value
  | .array items => .array (itemForms items)
  | .object fields => .object (localeSort collation (ownOrder (fieldForms fields)))

def Value.itemForms : List (Value ν) → List (Form ν)
  | [] => []
  | item :: items => Value.form item :: itemForms items

def Value.fieldForms : List (Text × Option (Value ν)) → List (Text × Form ν)
  | [] => []
  | (_, none) :: fields => fieldForms fields
  | (key, some value) :: fields => (key, Value.form value) :: fieldForms fields

end

mutual

/-- The text of a form. -/
def Form.print (numerals : Numerals ν) : Form ν → Text
  | .null => ascii "null"
  | .bool true => ascii "true"
  | .bool false => ascii "false"
  | .number value => numerals.text value
  | .string value => Text.quote value
  | .array items => 91 :: joined 44 (printItems numerals items) ++ [93]
  | .object fields => 123 :: joined 44 (printFields numerals fields) ++ [125]

def Form.printItems (numerals : Numerals ν) : List (Form ν) → List Text
  | [] => []
  | item :: items => Form.print numerals item :: printItems numerals items

def Form.printFields (numerals : Numerals ν) : List (Text × Form ν) → List Text
  | [] => []
  | (key, value) :: fields =>
      (Text.quote key ++ 58 :: Form.print numerals value) :: printFields numerals fields

end

mutual

def Form.meaning : Form ν → Meaning ν
  | .null => .null
  | .bool value => .bool value
  | .number value => .number value
  | .string value => .string value
  | .array items => .array (meaningItems items)
  | .object fields => .object fun key => (meaningFields fields).lookup key

def Form.meaningItems : List (Form ν) → List (Meaning ν)
  | [] => []
  | item :: items => Form.meaning item :: meaningItems items

def Form.meaningFields : List (Text × Form ν) → List (Text × Meaning ν)
  | [] => []
  | (key, value) :: fields => (key, Form.meaning value) :: meaningFields fields

end

end Forms

/-! ## Fields -/

section Fields

variable {ν : Type} {collation : Collation}

/-- The fields that have a value. -/
def present : List (Text × Option (Value ν)) → List (Text × Value ν)
  | [] => []
  | (_, none) :: fields => present fields
  | (key, some value) :: fields => (key, value) :: present fields

variable {fields : List (Text × Option (Value ν))}

theorem mem_present {entry : Text × Value ν} :
    entry ∈ present fields ↔ (entry.1, some entry.2) ∈ fields := by
  induction fields with
  | nil => simp [present]
  | cons field fields ih =>
    obtain ⟨key, content⟩ := field
    cases content with
    | none => simp [present, ih]
    | some value => simp [present, ih, Prod.ext_iff]

theorem keys_present_sublist (fields : List (Text × Option (Value ν))) :
    ((present fields).map Prod.fst).Sublist (fields.map Prod.fst) := by
  induction fields with
  | nil => exact List.Sublist.refl []
  | cons field fields ih =>
    obtain ⟨key, content⟩ := field
    cases content with
    | none => exact ih.cons key
    | some value => exact ih.cons_cons key

theorem itemForms_eq (items : List (Value ν)) :
    Value.itemForms collation items = items.map (Value.form collation) := by
  induction items with
  | nil => rfl
  | cons item items ih => rw [Value.itemForms, List.map_cons, ih]

theorem fieldForms_eq (fields : List (Text × Option (Value ν))) :
    Value.fieldForms collation fields =
      (present fields).map fun entry => (entry.1, entry.2.form collation) := by
  induction fields with
  | nil => rfl
  | cons field fields ih =>
    obtain ⟨key, content⟩ := field
    cases content with
    | none => exact ih
    | some value => rw [Value.fieldForms, present, List.map_cons, ih]

theorem itemMeanings_eq (items : List (Value ν)) :
    Value.itemMeanings items = items.map Value.meaning := by
  induction items with
  | nil => rfl
  | cons item items ih => rw [Value.itemMeanings, List.map_cons, ih]

theorem fieldMeanings_eq (fields : List (Text × Option (Value ν))) :
    Value.fieldMeanings fields = (present fields).map fun entry => (entry.1, entry.2.meaning) := by
  induction fields with
  | nil => rfl
  | cons field fields ih =>
    obtain ⟨key, content⟩ := field
    cases content with
    | none => exact ih
    | some value => rw [Value.fieldMeanings, present, List.map_cons, ih]

variable {items : List (Value ν)}

theorem properItems_iff : Value.ProperItems items ↔ ∀ item ∈ items, item.Proper := by
  induction items with
  | nil => simp [Value.ProperItems]
  | cons item items ih => rw [Value.ProperItems, ih, List.forall_mem_cons]

theorem properFields_iff :
    Value.ProperFields fields ↔ ∀ entry ∈ present fields, entry.2.Proper := by
  induction fields with
  | nil => simp [Value.ProperFields, present]
  | cons field fields ih =>
    obtain ⟨key, content⟩ := field
    cases content with
    | none => exact ih
    | some value => rw [Value.ProperFields, ih, present, List.forall_mem_cons]

theorem untiedItems_iff :
    Value.UntiedItems collation items ↔ ∀ item ∈ items, item.Untied collation := by
  induction items with
  | nil => simp [Value.UntiedItems]
  | cons item items ih => rw [Value.UntiedItems, ih, List.forall_mem_cons]

theorem untiedFields_iff :
    Value.UntiedFields collation fields ↔ ∀ entry ∈ present fields, entry.2.Untied collation := by
  induction fields with
  | nil => simp [Value.UntiedFields, present]
  | cons field fields ih =>
    obtain ⟨key, content⟩ := field
    cases content with
    | none => exact ih
    | some value => rw [Value.UntiedFields, ih, present, List.forall_mem_cons]

theorem tiedFields_iff :
    Value.TiedFields collation fields ↔ ∃ first ∈ present fields, ∃ second ∈ present fields,
        Value.TiedKeys collation first.1 second.1 := by
  constructor
  · rintro ⟨⟨key, content⟩, member, ⟨key', content'⟩, member', given, given', tied⟩
    obtain ⟨value, rfl⟩ := Option.isSome_iff_exists.mp given
    obtain ⟨value', rfl⟩ := Option.isSome_iff_exists.mp given'
    exact ⟨(key, value), mem_present.mpr member, (key', value'), mem_present.mpr member', tied⟩
  · rintro ⟨first, member, second, member', tied⟩
    exact ⟨_, mem_present.mp member, _, mem_present.mp member', rfl, rfl, tied⟩

end Fields

/-! ## The order of the fields -/

section Order

variable {collation : Collation}

theorem perm_ownOrder (entries : List (Text × β)) : (ownOrder entries).Perm entries := by
  have split := List.filter_append_perm
    (fun entry : Text × β => (arrayIndex? entry.1).isSome) entries
  simp only [Option.not_isSome] at split
  exact ((List.perm_insertionSort _ _).append_right _).trans split

theorem perm_localeSort (entries : List (Text × β)) :
    (localeSort collation (ownOrder entries)).Perm entries :=
  (List.perm_insertionSort _ _).trans (perm_ownOrder entries)

variable {entries : List (Text × β)}

theorem mem_localeSort {entry : Text × β} :
    entry ∈ localeSort collation (ownOrder entries) ↔ entry ∈ entries :=
  (perm_localeSort entries).mem_iff

/-- The order of the fields is that of their keys. -/
theorem localeSort_map (content : Text × β → γ) (entries : List (Text × β)) :
    localeSort collation (ownOrder (entries.map fun entry => (entry.1, content entry))) =
      (localeSort collation (ownOrder entries)).map fun entry =>
        (entry.1, content entry) := by
  have own : ownOrder (entries.map fun entry => (entry.1, content entry)) =
      (ownOrder entries).map fun entry => (entry.1, content entry) := by
    unfold ownOrder
    rw [List.filter_map, List.filter_map, List.map_append]
    refine congrArg (· ++ _) (List.map_insertionSort _ _ _ _ ?_).symm
    exact fun _ _ _ _ => Iff.rfl
  rw [own]
  refine (List.map_insertionSort _ _ _ _ ?_).symm
  exact fun _ _ _ _ => Iff.rfl

/-- The first key is an array index, and no later one than the second. -/
def IndexFirst (first second : Text) : Prop :=
  ∃ index, arrayIndex? first = some index ∧
    ∀ other, arrayIndex? second = some other → index < other

theorem pairwise_ownOrder (entries : List (Text × β)) :
    (ownOrder entries).Pairwise fun first second => ¬ IndexFirst second.1 first.1 := by
  have total : Std.Total fun first second : Text × β =>
      (arrayIndex? first.1).getD 0 ≤ (arrayIndex? second.1).getD 0 :=
    ⟨fun first second => Nat.le_total _ _⟩
  have transitive : IsTrans (Text × β) fun first second =>
      (arrayIndex? first.1).getD 0 ≤ (arrayIndex? second.1).getD 0 :=
    ⟨fun _ _ _ => Nat.le_trans⟩
  have unindexed : ∀ entry ∈ entries.filter fun entry => (arrayIndex? entry.1).isNone,
      ∀ other : Text, ¬ IndexFirst entry.1 other := by
    rintro entry member other ⟨index, indexed, _⟩
    have absent := (List.mem_filter.mp member).2
    rw [indexed] at absent
    exact absurd absent (by simp)
  refine List.pairwise_append.mpr ⟨?_, ?_, ?_⟩
  · refine List.Pairwise.imp_of_mem ?_ (List.pairwise_insertionSort _ _)
    rintro first second member member' ordered ⟨index, indexed, least⟩
    have given := (List.mem_filter.mp ((List.mem_insertionSort _).mp member)).2
    obtain ⟨own, indexed'⟩ := Option.isSome_iff_exists.mp given
    rw [indexed, indexed'] at ordered
    exact absurd (least own indexed') (Nat.not_lt.mpr ordered)
  · exact List.pairwise_of_forall_mem_list fun first _ second member =>
      unindexed second member first.1
  · exact fun first _ second member => unindexed second member first.1

theorem arrayIndex?_injective
    {first second : Text} {index : Nat} (indexed : arrayIndex? first = some index)
    (indexed' : arrayIndex? second = some index) :
    first = second := by
  unfold arrayIndex? at indexed indexed'
  simp only at indexed indexed'
  split_ifs at indexed indexed' with written written'
  rw [written.1, written'.1, Option.some.inj indexed, Option.some.inj indexed']

theorem arrayIndex?_eq_none
    {first second : Text} (differs : first ≠ second) (apart : ¬ IndexFirst first second)
    (apart' : ¬ IndexFirst second first) :
    arrayIndex? first = none := by
  refine Option.eq_none_iff_forall_not_mem.mpr fun index indexed => ?_
  refine apart ⟨index, indexed, fun other indexed' => ?_⟩
  refine Nat.lt_of_le_of_ne (Nat.not_lt.mp fun earlier => ?_) fun equal => ?_
  · refine apart' ⟨other, indexed', fun own own' => ?_⟩
    rw [Option.some.inj (indexed.symm.trans own')] at earlier
    exact earlier
  · exact differs (arrayIndex?_injective indexed (equal ▸ indexed'))

/-- Keys that the order does not tell apart. -/
theorem eq_or_tied {first second : Text} (least : collation.le first second = true)
    (least' : collation.le second first = true) (apart : ¬ IndexFirst first second)
    (apart' : ¬ IndexFirst second first) :
    first = second ∨ Value.TiedKeys collation first second := by
  by_cases same : first = second
  · exact .inl same
  · exact .inr ⟨same, least, least', arrayIndex?_eq_none same apart apart',
      arrayIndex?_eq_none (Ne.symm same) apart' apart⟩

instance (collation : Collation) :
    Std.Total fun first second : Text × β => collation.le first.1 second.1 = true :=
  ⟨fun first second => collation.total first.1 second.1⟩

instance (collation : Collation) :
    IsTrans (Text × β) fun first second => collation.le first.1 second.1 = true :=
  ⟨fun first second third => collation.trans first.1 second.1 third.1⟩

/-- The same fields are written in one order if no keys are tied. -/
theorem localeSort_eq_of_perm {others : List (Text × β)} (same : entries.Perm others)
    (distinct : (entries.map Prod.fst).Nodup) (untied : ∀ first ∈ entries, ∀ second ∈ entries,
      ¬ Value.TiedKeys collation first.1 second.1) :
    localeSort collation (ownOrder entries) = localeSort collation (ownOrder others) := by
  refine insertionSort_eq_of_perm
    ((perm_ownOrder entries).trans (same.trans (perm_ownOrder others).symm))
    (pairwise_ownOrder entries) (pairwise_ownOrder others) ?_
  intro first member second member' least least' apart apart'
  have member := (perm_ownOrder entries).mem_iff.mp member
  have member' := (perm_ownOrder entries).mem_iff.mp member'
  obtain same | tied := eq_or_tied least least' apart' apart
  · exact List.inj_on_of_nodup_map distinct member member' same
  · exact absurd tied (untied first member second member')

/-- Tied keys are written in the order in which they were inserted. -/
theorem localeSort_ne_of_tie {first second : Text × β}
    (tied : Value.TiedKeys collation first.1 second.1)
    (distinct : ((first :: second :: entries).map Prod.fst).Nodup) :
    localeSort collation (ownOrder (first :: second :: entries)) ≠
      localeSort collation (ownOrder (second :: first :: entries)) := by
  obtain ⟨differs, least, least', plain, plain'⟩ := tied
  have once := List.Nodup.of_map _ distinct
  obtain ⟨fresh, once'⟩ := List.nodup_cons.mp once
  obtain ⟨fresh', _⟩ := List.nodup_cons.mp once'
  have own : ∀ one other : Text × β, arrayIndex? one.1 = none → arrayIndex? other.1 = none →
      one ≠ other → one ∉ entries → other ∉ entries →
      (ownOrder (one :: other :: entries)).Pairwise fun value later =>
        ¬ (value = other ∧ later = one) := by
    intro one other plain plain' different fresh fresh'
    unfold ownOrder
    simp only [List.filter_cons, plain, plain', Option.isSome_none, Option.isNone_none,
      Bool.false_eq_true, if_false, if_true]
    refine List.pairwise_append.mpr ⟨?_, ?_, ?_⟩
    · refine List.pairwise_of_forall_mem_list fun value member later _ pair => ?_
      rw [pair.1] at member
      exact fresh' (List.mem_filter.mp ((List.mem_insertionSort _).mp member)).1
    · refine List.pairwise_cons.mpr ⟨fun later _ pair => different pair.1, ?_⟩
      refine List.pairwise_cons.mpr ⟨fun later member pair => ?_, ?_⟩
      · rw [pair.2] at member
        exact fresh (List.mem_filter.mp member).1
      · refine List.pairwise_of_forall_mem_list fun value member later _ pair => ?_
        rw [pair.1] at member
        exact fresh' (List.mem_filter.mp member).1
    · intro value member later _ pair
      rw [pair.1] at member
      exact fresh' (List.mem_filter.mp ((List.mem_insertionSort _).mp member)).1
  have different : first ≠ second := fun same => differs (congrArg Prod.fst same)
  have outside : first ∉ entries := fun member => fresh (List.mem_cons_of_mem _ member)
  have member : ∀ {entry}, entry ∈ ownOrder (first :: second :: entries) ↔
      entry ∈ first :: second :: entries := (perm_ownOrder _).mem_iff
  exact insertionSort_ne_of_tie different least least' (member.mpr (by simp))
    (member.mpr (by simp)) (own first second plain plain' different outside fresh')
    (own second first plain' plain different.symm fresh' outside)

end Order

/-! ## Reading a text back -/

section Reading

variable {ν : Type} {numerals : Numerals ν} {collation : Collation}

theorem printItems_eq (items : List (Form ν)) :
    Form.printItems numerals items = items.map (Form.print numerals) := by
  induction items with
  | nil => rfl
  | cons item items ih => rw [Form.printItems, List.map_cons, ih]

/-- The text of a field. -/
def printField (numerals : Numerals ν) (entry : Text × Form ν) : Text :=
  Text.quote entry.1 ++ 58 :: entry.2.print numerals

theorem printFields_eq (fields : List (Text × Form ν)) :
    Form.printFields numerals fields = fields.map (printField numerals) := by
  induction fields with
  | nil => rfl
  | cons field fields ih => rw [Form.printFields, List.map_cons, ih, printField]

theorem itemTexts_eq (items : List (Value ν)) :
    itemTexts numerals collation items = items.map (canonicalResult numerals collation) := by
  induction items with
  | nil => rfl
  | cons item items ih => rw [itemTexts, List.map_cons, ih]

theorem entryTexts_eq (fields : List (Text × Option (Value ν))) :
    entryTexts numerals collation fields = (present fields).map fun entry =>
      (entry.1, Text.quote entry.1 ++ 58 :: canonicalResult numerals collation entry.2) := by
  induction fields with
  | nil => rfl
  | cons field fields ih =>
    obtain ⟨key, content⟩ := field
    cases content with
    | none => exact ih
    | some value => rw [entryTexts, present, List.map_cons, ih]

/-- The text is the print of the form. -/
theorem canonicalResult_eq_print (value : Value ν) :
    canonicalResult numerals collation value = (value.form collation).print numerals := by
  induction value using Value.inductionOn with
  | bool value => cases value <;> rfl
  | array items ih =>
    rw [canonicalResult, Value.form, Form.print, printItems_eq, itemTexts_eq,
      itemForms_eq, List.map_map]
    rw [List.map_congr_left ih]
    rfl
  | object fields ih =>
    rw [canonicalResult, Value.form, Form.print, printFields_eq, entryTexts_eq,
      fieldForms_eq, localeSort_map, localeSort_map, List.map_map, List.map_map]
    have texts := List.map_congr_left (l := localeSort collation (ownOrder (present fields)))
      fun entry member => congrArg (Text.quote entry.1 ++ 58 :: ·)
        (ih entry.1 entry.2 (mem_present.mp (mem_localeSort.mp member)))
    exact congrArg (fun parts => 123 :: joined 44 parts ++ [125]) texts
  | _ => rfl

/-- The units that end a part. -/
def Mark (unit : Nat) : Prop := unit = 44 ∨ unit = 93 ∨ unit = 125

instance : DecidablePred NumeralUnit := fun _ =>
  inferInstanceAs (Decidable (_ ∧ _ ∨ _))

/-- What the first unit of a text tells. -/
def lead (unit : Nat) : Nat :=
  if NumeralUnit unit then 48 else unit

/-- The first unit that a form is written with. -/
def Form.lead : Form ν → Nat
  | .null => 110
  | .bool true => 116
  | .bool false => 102
  | .number _ => 48
  | .string _ => 34
  | .array _ => 91
  | .object _ => 123

theorem Form.print_head (form : Form ν) :
    ∃ first rest, form.print numerals = first :: rest ∧ Canonical.lead first = form.lead := by
  have others : ∀ {unit : Nat}, ¬ NumeralUnit unit → Canonical.lead unit = unit :=
    fun plain => if_neg plain
  cases form with
  | null => exact ⟨110, [117, 108, 108], by rw [Form.print]; decide, others (by decide)⟩
  | bool value =>
    cases value with
    | true => exact ⟨116, [114, 117, 101], by rw [Form.print]; decide, others (by decide)⟩
    | false => exact ⟨102, [97, 108, 115, 101], by rw [Form.print]; decide, others (by decide)⟩
  | number value =>
    obtain ⟨first, rest, text⟩ := List.exists_cons_of_ne_nil (numerals.nonempty value)
    have plain := numerals.plain value first (text ▸ List.mem_cons_self)
    exact ⟨first, rest, text, if_pos plain⟩
  | string value => exact ⟨34, _, rfl, others (by decide)⟩
  | array items => exact ⟨91, _, rfl, others (by decide)⟩
  | object fields => exact ⟨123, _, rfl, others (by decide)⟩

/-- Texts that start alike are written for forms of one kind. -/
theorem Form.lead_eq {form other : Form ν} {rest rest' : Text}
    (same : form.print numerals ++ rest = other.print numerals ++ rest') :
    form.lead = other.lead := by
  obtain ⟨first, tail, text, leads⟩ := @Form.print_head _ numerals form
  obtain ⟨first', tail', text', leads'⟩ := @Form.print_head _ numerals other
  rw [text, text'] at same
  rw [← leads, ← leads', (List.cons.inj same).1]

theorem numeral_ne_mark {unit : Nat} (plain : NumeralUnit unit) : ¬ Mark unit := by
  unfold NumeralUnit at plain
  unfold Mark
  omega

theorem print_startsInside : StartsInside Mark (Form.print numerals) := by
  intro form
  obtain ⟨first, rest, text, leads⟩ := @Form.print_head _ numerals form
  refine ⟨first, rest, text, fun mark => ?_⟩
  have plain : ¬ NumeralUnit first := fun plain => numeral_ne_mark plain mark
  rw [Canonical.lead, if_neg plain] at leads
  rw [leads] at mark
  cases form with
  | bool value => cases value <;> simp [Mark, Form.lead] at mark
  | _ => simp [Mark, Form.lead] at mark

theorem printField_readsBack
    {entry : Text × Form ν} (reads : ReadsBack Mark (Form.print numerals) entry.2) :
    ReadsBack Mark (printField numerals) entry := by
  intro other rest rest' ends ends' same
  simp only [printField, List.append_assoc, List.cons_append] at same
  obtain ⟨sameKey, sameRest⟩ := Text.quote_readsBack same
  obtain ⟨sameValue, done⟩ := reads other.2 rest rest' ends ends' (List.cons.inj sameRest).2
  exact ⟨Prod.ext sameKey sameValue, done⟩

/-- A form is known from the start of a text. -/
theorem print_readsBack (form : Form ν) : ReadsBack Mark (Form.print numerals) form := by
  have separates : Mark 44 := .inl rfl
  induction form using Form.inductionOn with
  | null =>
    intro other rest rest' _ _ same
    have leads := Form.lead_eq same
    cases other with
    | null => exact ⟨rfl, List.append_cancel_left same⟩
    | bool value => cases value <;> simp [Form.lead] at leads
    | _ => simp [Form.lead] at leads
  | bool value =>
    intro other rest rest' _ _ same
    have leads := Form.lead_eq same
    cases value <;> cases other with
    | bool value =>
      cases value <;> simp only [Form.lead, Nat.reduceEqDiff] at leads
      exact ⟨rfl, List.append_cancel_left same⟩
    | _ => simp [Form.lead] at leads
  | number value =>
    intro other rest rest' ends ends' same
    have leads := Form.lead_eq same
    cases other with
    | number value' =>
      obtain ⟨sameValue, done⟩ := readsBack_of_plain
        (fun number unit member => numeral_ne_mark (numerals.plain number unit member))
        numerals.injective value value' rest rest' ends ends' same
      exact ⟨by rw [sameValue], done⟩
    | bool value => cases value <;> simp [Form.lead] at leads
    | _ => simp [Form.lead] at leads
  | string value =>
    intro other rest rest' _ _ same
    have leads := Form.lead_eq same
    cases other with
    | string value' =>
      obtain ⟨sameValue, done⟩ := Text.quote_readsBack same
      exact ⟨by rw [sameValue], done⟩
    | bool value => cases value <;> simp [Form.lead] at leads
    | _ => simp [Form.lead] at leads
  | array items ih =>
    intro other rest rest' _ _ same
    have leads := Form.lead_eq same
    cases other with
    | array items' =>
      simp only [Form.print, printItems_eq, List.cons_append, List.append_assoc,
        List.nil_append, List.cons.injEq, true_and] at same
      obtain ⟨sameItems, done⟩ := joined_readsBack separates (.inr (.inl rfl))
        (by decide) print_startsInside items ih items' rest rest' same
      exact ⟨by rw [sameItems], done⟩
    | bool value => cases value <;> simp [Form.lead] at leads
    | _ => simp [Form.lead] at leads
  | object fields ih =>
    intro other rest rest' _ _ same
    have leads := Form.lead_eq same
    cases other with
    | object fields' =>
      simp only [Form.print, printFields_eq, List.cons_append, List.append_assoc,
        List.nil_append, List.cons.injEq, true_and] at same
      have inside : StartsInside Mark (printField numerals) := fun entry =>
        ⟨34, _, rfl, by unfold Mark; decide⟩
      obtain ⟨sameFields, done⟩ := joined_readsBack separates (.inr (.inr rfl))
        (by decide) inside fields
        (fun entry member => printField_readsBack (ih entry member))
        fields' rest rest' same
      exact ⟨by rw [sameFields], done⟩
    | bool value => cases value <;> simp [Form.lead] at leads
    | _ => simp [Form.lead] at leads

/-- Texts are equal if and only if forms are. -/
theorem canonicalResult_eq_iff {value other : Value ν} :
    canonicalResult numerals collation value = canonicalResult numerals collation other ↔
      value.form collation = other.form collation := by
  rw [canonicalResult_eq_print, canonicalResult_eq_print]
  refine ⟨fun same => ?_, fun same => by rw [same]⟩
  exact (print_readsBack _ _ [] [] ended_nil ended_nil
    (by rw [List.append_nil, List.append_nil, same])).1

end Reading

end Canonical
end Dispatch
end Scrum4Me
