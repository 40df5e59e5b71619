import Scrum4Me.Ppe.CanonicalJson
import Mathlib.Data.List.Forall2
import Mathlib.Data.List.TakeWhile
import Mathlib.Data.Nat.Digits.Lemmas

/-!
# The tree that is written

The canonical text is the text of a tree: the value with its fields sorted and its
numbers as tokens. The tree is the same for values that are equal up to the order of
keys, and what is read back from the text is one of them.
-/

namespace Scrum4Me
namespace Ppe
namespace Jcs

open Foundation

variable {ν : Type}

theorem Value.inductionOn {motive : Value ν → Prop} (value : Value ν) (null : motive .null)
    (bool : ∀ value, motive (.bool value)) (number : ∀ value, motive (.number value))
    (string : ∀ value, motive (.string value))
    (array : ∀ items, (∀ item ∈ items, motive item) → motive (.array items))
    (object : ∀ fields, (∀ entry ∈ fields, motive entry.2) → motive (.object fields))
    (nonPlain : motive .nonPlain) (undefined : motive .undefined) :
    motive value := by
  refine @Value.rec ν motive (fun items => ∀ item ∈ items, motive item)
    (fun fields => ∀ entry ∈ fields, motive entry.2) (fun entry => motive entry.2)
    null bool number string array object nonPlain undefined ?_ ?_ ?_ ?_ ?_ value
  · exact List.forall_mem_nil _
  · exact fun _ _ first rest => List.forall_mem_cons.mpr ⟨first, rest⟩
  · exact List.forall_mem_nil _
  · exact fun _ _ first rest => List.forall_mem_cons.mpr ⟨first, rest⟩
  · exact fun _ _ content => content

/-! ## Calls one after another -/

theorem forall₂_imp_of_mem {related implied : α → β → Prop} {first : List α} {second : List β}
    (all : List.Forall₂ related first second)
    (imp : ∀ one ∈ first, ∀ other ∈ second, related one other → implied one other) :
    List.Forall₂ implied first second := by
  induction all with
  | nil => exact .nil
  | cons head _ ih =>
    refine .cons (imp _ List.mem_cons_self _ List.mem_cons_self head)
      (ih fun one member other member' => ?_)
    exact imp one (List.mem_cons_of_mem _ member) other (List.mem_cons_of_mem _ member')

theorem exists_of_forall₂ {related : α → β → Prop} {first : List α} {second : List β} {other : β}
    (all : List.Forall₂ related first second) (member : other ∈ second) :
    ∃ one ∈ first, related one other := by
  induction all with
  | nil => exact absurd member List.not_mem_nil
  | cons head _ ih =>
    rcases List.mem_cons.mp member with rfl | later
    · exact ⟨_, List.mem_cons_self, head⟩
    · obtain ⟨one, inside, holds⟩ := ih later
      exact ⟨one, List.mem_cons_of_mem _ inside, holds⟩

@[simp] theorem collect_nil : collect ([] : List (Except ε α)) = .ok [] := rfl

@[simp] theorem collect_ok (value : α) (rest : List (Except ε α)) :
    collect (.ok value :: rest) = (collect rest).map (value :: ·) := rfl

@[simp] theorem collect_error (error : ε) (rest : List (Except ε α)) :
    collect (.error error :: rest) = .error error := rfl

theorem map_eq_ok {change : α → β} {result : Except ε α} {value : β} :
    result.map change = .ok value ↔ ∃ inner, result = .ok inner ∧ change inner = value := by
  cases result with
  | _ => simp [Except.map]

theorem map_map (first : α → β) (second : β → γ) (result : Except ε α) :
    (result.map first).map second = result.map fun value => second (first value) := by
  cases result <;> rfl

theorem collect_eq_ok {results : List (Except ε α)} {values : List α} :
    collect results = .ok values ↔ results = values.map .ok := by
  induction results generalizing values with
  | nil => simp [eq_comm]
  | cons result results ih =>
    cases result with
    | error error =>
      rw [collect_error]
      cases values <;> simp
    | ok value =>
      rw [collect_ok, map_eq_ok]
      constructor
      · rintro ⟨rest, collected, rfl⟩
        rw [ih.mp collected, List.map_cons]
      · intro same
        cases values with
        | nil => cases same
        | cons first rest =>
          obtain ⟨head, tail⟩ := List.cons.inj same
          cases head
          exact ⟨rest, ih.mpr tail, rfl⟩

theorem collect_map (change : α → β) (results : List (Except ε α)) :
    collect (results.map (Except.map change)) = (collect results).map (List.map change) := by
  induction results with
  | nil => rfl
  | cons result results ih =>
    cases result with
    | error error => rfl
    | ok value =>
      rw [List.map_cons, Except.map, collect_ok, collect_ok, ih, map_map, map_map]
      rfl

variable {call : α → Except ε β} {arguments : List α}

/-- Calls that succeed one by one. -/
theorem collect_map_eq_ok {values : List β} :
    collect (arguments.map call) = .ok values ↔
      List.Forall₂ (fun argument value => call argument = .ok value) arguments values := by
  rw [collect_eq_ok, ← List.forall₂_eq_eq_eq, List.forall₂_map_left_iff, List.forall₂_map_right_iff]

/-! ## Trees -/

section Trees

variable (fractions : Fractions ν)

mutual

/-- The tree of a value, or why there is none. -/
def tree? : Value ν → Except JcsError JsonTree
  | .null => .ok .null
  | .bool value => .ok (.bool value)
  | .string value =>
      if UnicodeScalar value then .ok (.string value) else .error .invalidUnicode
  | .number value => (numberText fractions value).map .number
  | .array items => (collect (itemTrees items)).map .array
  | .object fields => (collect ((sortByKey (entryTrees fields)).map Prod.snd)).map .object
  | .nonPlain => .error .unsupportedValue
  | .undefined => .error .unsupportedValue

def itemTrees : List (Value ν) → List (Except JcsError JsonTree)
  | [] => []
  | item :: items => tree? item :: itemTrees items

def entryTrees : List (Text × Value ν) → List (Text × Except JcsError (Text × JsonTree))
  | [] => []
  | (key, value) :: fields =>
      (key,
        if UnicodeScalar key then (tree? value).map fun tree => (key, tree)
        else .error .invalidUnicode) :: entryTrees fields

end

/-- What an entry comes to. -/
def entryResult (entry : Text × Value ν) : Except JcsError Text :=
  if UnicodeScalar entry.1 then
    (canonicalizePpeJcs fractions entry.2).map fun text => Text.quote entry.1 ++ 58 :: text
  else .error .invalidUnicode

def entryTree (entry : Text × Value ν) : Except JcsError (Text × JsonTree) :=
  if UnicodeScalar entry.1 then (tree? fractions entry.2).map fun tree => (entry.1, tree)
  else .error .invalidUnicode

variable {fractions}

theorem itemResults_eq (items : List (Value ν)) :
    itemResults fractions items = items.map (canonicalizePpeJcs fractions) := by
  induction items with
  | nil => rfl
  | cons item items ih => rw [itemResults, List.map_cons, ih]

theorem entryResults_eq (fields : List (Text × Value ν)) :
    entryResults fractions fields =
      fields.map fun entry => (entry.1, entryResult fractions entry) := by
  induction fields with
  | nil => rfl
  | cons field fields ih =>
    rw [entryResults, List.map_cons, ih]
    rfl

theorem itemTrees_eq (items : List (Value ν)) :
    itemTrees fractions items = items.map (tree? fractions) := by
  induction items with
  | nil => rfl
  | cons item items ih => rw [itemTrees, List.map_cons, ih]

theorem entryTrees_eq (fields : List (Text × Value ν)) :
    entryTrees fractions fields = fields.map fun entry => (entry.1, entryTree fractions entry) := by
  induction fields with
  | nil => rfl
  | cons field fields ih =>
    rw [entryTrees, List.map_cons, ih]
    rfl

theorem tree?_array (items : List (Value ν)) :
    tree? fractions (.array items) = (collect (items.map (tree? fractions))).map .array := by
  rw [tree?, itemTrees_eq]

theorem tree?_object (fields : List (Text × Value ν)) :
    tree? fractions (.object fields) =
      (collect ((sortByKey fields).map (entryTree fractions))).map .object := by
  rw [tree?, entryTrees_eq, sortByKey_map, List.map_map]
  rfl

/-- The canonical text is that of the tree. -/
theorem canonicalizePpeJcs_eq (value : Value ν) :
    canonicalizePpeJcs fractions value = (tree? fractions value).map JsonTree.print := by
  induction value using Value.inductionOn with
  | bool value => cases value <;> rfl
  | number value =>
    rw [canonicalizePpeJcs, tree?]
    cases numberText fractions value <;> rfl
  | string value =>
    rw [canonicalizePpeJcs, tree?]
    split <;> rfl
  | array items ih =>
    have texts : items.map (canonicalizePpeJcs fractions) =
        (items.map (tree? fractions)).map (Except.map JsonTree.print) := by
      rw [List.map_map]
      exact List.map_congr_left ih
    rw [canonicalizePpeJcs, tree?_array, itemResults_eq, texts, collect_map, map_map, map_map]
    simp only [JsonTree.print, JsonTree.printItems_eq]
  | object fields ih =>
    have texts : (sortByKey fields).map (entryResult fractions) =
        ((sortByKey fields).map (entryTree fractions)).map (Except.map JsonTree.printField) := by
      rw [List.map_map]
      refine List.map_congr_left fun entry member => ?_
      have inner := ih entry (mem_sortByKey.mp member)
      rw [entryResult, inner, Function.comp, entryTree]
      split
      · rw [map_map, map_map]
        rfl
      · rfl
    rw [canonicalizePpeJcs, tree?_object, entryResults_eq, sortByKey_map, List.map_map]
    change (collect ((sortByKey fields).map (entryResult fractions))).map _ = _
    rw [texts, collect_map, map_map, map_map]
    simp only [JsonTree.print, JsonTree.printFields_eq]
  | _ => rfl

/-! ## Values with one meaning -/

theorem itemMeanings_eq (items : List (Value ν)) :
    Value.itemMeanings items = items.map Value.meaning := by
  induction items with
  | nil => rfl
  | cons item items ih => rw [Value.itemMeanings, List.map_cons, ih]

theorem fieldMeanings_eq (fields : List (Text × Value ν)) :
    Value.fieldMeanings fields = fields.map fun entry => (entry.1, entry.2.meaning) := by
  induction fields with
  | nil => rfl
  | cons field fields ih => rw [Value.fieldMeanings, List.map_cons, ih]

namespace Value.Proper

variable {items : List (Value ν)} {fields : List (Text × Value ν)}

theorem item {item : Value ν} (proper : (array items).Proper) (member : item ∈ items) :
    item.Proper :=
  fun fields within => proper fields (.item member within)

theorem keys (proper : (object fields).Proper) : (fields.map Prod.fst).Nodup :=
  proper fields (.self _)

theorem field {entry : Text × Value ν} (proper : (object fields).Proper) (member : entry ∈ fields) :
    entry.2.Proper :=
  fun inner within => proper inner (.field member within)

end Value.Proper

theorem keys_map (content : Text × Value ν → β) (fields : List (Text × Value ν)) :
    (fields.map fun entry => (entry.1, content entry)).map Prod.fst = fields.map Prod.fst := by
  rw [List.map_map]
  rfl

/-- The fields of objects with one meaning, sorted, agree one by one. -/
theorem fields_agree {fields others : List (Text × Value ν)} (proper : (Value.object fields).Proper)
    (proper' : (Value.object others).Proper)
    (same : (Value.object fields).meaning = (Value.object others).meaning) :
    List.Forall₂ (fun first second => first.1 = second.1 ∧
      first.2.meaning = second.2.meaning) (sortByKey fields) (sortByKey others) := by
  rw [Value.meaning, Value.meaning, Meaning.object.injEq, fieldMeanings_eq,
    fieldMeanings_eq] at same
  have sorted := @sortByKey_eq_of_lookup _ _ _ (fields.map fun entry => (entry.1, entry.2.meaning))
    (others.map fun entry => (entry.1, entry.2.meaning)) _ _
    ((keys_map _ fields).symm ▸ proper.keys) ((keys_map _ others).symm ▸ proper'.keys)
    (congrFun same)
  rw [sortByKey_map, sortByKey_map, ← List.forall₂_eq_eq_eq, List.forall₂_map_left_iff,
    List.forall₂_map_right_iff] at sorted
  exact sorted.imp fun first second agree => Prod.mk.inj agree

theorem numberText_plain (value : Number ν) :
    numberText fractions value.plain = numberText fractions value := by
  cases value with
  | negativeZero => rfl
  | _ => rfl

/-- Values that are equal up to the order of keys have one tree. -/
theorem tree?_eq_of_meaning (value other : Value ν) (proper : value.Proper) (proper' : other.Proper)
    (same : value.meaning = other.meaning) :
    tree? fractions value = tree? fractions other := by
  induction value using Value.inductionOn generalizing other with
  | null =>
    cases other with
    | null => rfl
    | _ => cases same
  | bool value =>
    cases other with
    | bool value' => rw [Meaning.bool.inj same]
    | _ => cases same
  | number value =>
    cases other with
    | number value' =>
      have plain : value.plain = value'.plain := Meaning.number.inj same
      rw [tree?, tree?, ← numberText_plain, plain, numberText_plain]
    | _ => cases same
  | string value =>
    cases other with
    | string value' => rw [Meaning.string.inj same]
    | _ => cases same
  | array items ih =>
    cases other with
    | array others =>
      have meanings := Meaning.array.inj same
      rw [itemMeanings_eq, itemMeanings_eq, ← List.forall₂_eq_eq_eq,
        List.forall₂_map_left_iff, List.forall₂_map_right_iff] at meanings
      have trees : items.map (tree? fractions) = others.map (tree? fractions) := by
        rw [← List.forall₂_eq_eq_eq, List.forall₂_map_left_iff, List.forall₂_map_right_iff]
        exact forall₂_imp_of_mem meanings fun item member item' member' same =>
          ih item member item' (proper.item member) (proper'.item member') same
      rw [tree?_array, tree?_array, trees]
    | _ => cases same
  | object fields ih =>
    cases other with
    | object others =>
      have agree := fields_agree proper proper' same
      have trees : (sortByKey fields).map (entryTree fractions) =
          (sortByKey others).map (entryTree fractions) := by
        rw [← List.forall₂_eq_eq_eq, List.forall₂_map_left_iff, List.forall₂_map_right_iff]
        refine forall₂_imp_of_mem agree fun entry member entry' member' both => ?_
        have inside := mem_sortByKey.mp member
        have inner := ih entry inside entry'.2 (proper.field inside)
          (proper'.field (mem_sortByKey.mp member')) both.2
        rw [entryTree, entryTree, both.1, inner]
      rw [tree?_object, tree?_object, trees]
    | _ => cases same
  | nonPlain =>
    cases other with
    | nonPlain => rfl
    | _ => cases same
  | undefined =>
    cases other with
    | undefined => rfl
    | _ => cases same

/-! ## Numbers -/

theorem digit_of_natText {size unit : Nat} (member : unit ∈ natText size) :
    JsonTree.Digit unit := by
  unfold natText at member
  unfold JsonTree.Digit
  split at member
  · rw [List.mem_singleton.mp member]
    omega
  · obtain ⟨digit, inside, rfl⟩ := List.mem_map.mp (List.mem_reverse.mp member)
    have small := Nat.digits_lt_base (by omega) inside
    omega

/-- The digits tell the number. -/
theorem foldl_natText (size : Nat) :
    (natText size).foldl (fun value digit => 10 * value + (digit - 48)) 0 = size := by
  unfold natText
  split
  · rename_i zero
    rw [zero]
    rfl
  · rw [List.foldl_reverse, List.foldr_map]
    have digits := Nat.ofDigits_digits 10 size
    rw [Nat.ofDigits_eq_foldr] at digits
    have step : (fun digit value : Nat => 10 * value + (48 + digit - 48)) =
        fun digit value => (digit : Nat) + 10 * value := by
      funext digit value
      omega
    rw [step]
    exact digits

/-- A zero leads no other digit. -/
theorem natText_head (size : Nat) :
    ∃ first rest, natText size = first :: rest ∧ JsonTree.Digit first ∧
      (first = 48 → rest = []) := by
  by_cases zero : size = 0
  · exact ⟨48, [], if_pos zero, by decide, fun _ => rfl⟩
  · have some : Nat.digits 10 size ≠ [] := Nat.digits_ne_nil_iff_ne_zero.mpr zero
    have leading := Nat.getLast_digit_ne_zero 10 zero
    have text : natText size = ((Nat.digits 10 size).map (48 + ·)).reverse := if_neg zero
    have split : natText size = (48 + (Nat.digits 10 size).getLast some) ::
        ((Nat.digits 10 size).dropLast.map (48 + ·)).reverse := by
      rw [text]
      conv_lhs => rw [← List.dropLast_append_getLast some]
      rw [List.map_append, List.reverse_append]
      rfl
    refine ⟨_, _, split, @digit_of_natText size _ ?_, fun same => ?_⟩
    · rw [split]
      exact List.mem_cons_self
    · exact absurd (by omega) leading

theorem natText_head_ne (size : Nat) : (natText size).head? ≠ some 45 := by
  obtain ⟨first, rest, starts, digit, -⟩ := natText_head size
  rw [starts, List.head?_cons, ne_eq, Option.some_inj]
  unfold JsonTree.Digit at digit
  omega

/-- A safe integer is known from its text. -/
theorem integer?_intText {value : Int} (safe : SafeInteger value) :
    integer? (intText value) = some value := by
  by_cases negative : value < 0
  · have text : intText value = 45 :: natText value.natAbs := if_pos negative
    have same : -(value.natAbs : Int) = value := by omega
    unfold integer?
    rw [text, List.head?_cons, if_pos rfl, List.tail_cons]
    dsimp only
    rw [if_pos rfl, foldl_natText, same, if_pos ⟨text.symm, safe⟩]
  · have text : intText value = natText value.natAbs := if_neg negative
    have same : (value.natAbs : Int) = value := by omega
    unfold integer?
    rw [text, if_neg (natText_head_ne _)]
    dsimp only
    rw [if_neg (natText_head_ne _), foldl_natText, same, if_pos ⟨text.symm, safe⟩]

theorem numberToken_natText (size : Nat) :
    ((natText size).takeWhile (JsonTree.Digit ·) = [48] ∨
        (natText size).takeWhile (JsonTree.Digit ·) ≠ [] ∧
          ((natText size).takeWhile (JsonTree.Digit ·)).head? ≠ some 48) ∧
      JsonTree.FractionToken ((natText size).dropWhile (JsonTree.Digit ·)) := by
  have digits : ∀ unit ∈ natText size, decide (JsonTree.Digit unit) = true :=
    fun unit member => decide_eq_true (digit_of_natText member)
  rw [List.takeWhile_eq_self_iff.mpr digits, List.dropWhile_eq_nil_iff.mpr digits]
  obtain ⟨first, rest, starts, -, alone⟩ := natText_head size
  refine ⟨?_, trivial⟩
  by_cases zero : first = 48
  · rw [starts, zero, alone zero]
    exact .inl rfl
  · rw [starts, List.head?_cons]
    exact .inr ⟨List.cons_ne_nil _ _, fun same => zero (Option.some.inj same)⟩

/-- The text of an integer is a number by the grammar. -/
theorem numberToken_intText (value : Int) :
    JsonTree.NumberToken (intText value) ∧ ∀ unit ∈ intText value, JsonTree.NumberUnit unit := by
  have units : ∀ unit ∈ natText value.natAbs, JsonTree.NumberUnit unit :=
    fun unit member => .inl (digit_of_natText member)
  unfold JsonTree.NumberToken intText
  split
  · rw [List.head?_cons, if_pos rfl, List.tail_cons]
    refine ⟨numberToken_natText _, fun unit member => ?_⟩
    rcases List.mem_cons.mp member with rfl | member
    · decide
    · exact units unit member
  · rw [if_neg (natText_head_ne _)]
    exact ⟨numberToken_natText _, units⟩

/-! ## What stands in a tree -/

theorem tree?_array_ok {items : List (Value ν)} {tree : JsonTree} :
    tree? fractions (.array items) = .ok tree ↔ ∃ trees, tree = .array trees ∧
        List.Forall₂ (fun item tree => tree? fractions item = .ok tree) items trees := by
  rw [tree?_array, map_eq_ok]
  simp only [collect_map_eq_ok]
  exact exists_congr fun trees => and_comm.trans (and_congr_left fun _ => eq_comm)

theorem entryTree_ok {entry : Text × Value ν} {written : Text × JsonTree} :
    entryTree fractions entry = .ok written ↔ UnicodeScalar entry.1 ∧ written.1 = entry.1 ∧
        tree? fractions entry.2 = .ok written.2 := by
  unfold entryTree
  split
  · rename_i scalar
    rw [map_eq_ok]
    constructor
    · rintro ⟨tree, same, rfl⟩
      exact ⟨scalar, rfl, same⟩
    · rintro ⟨-, same, inner⟩
      exact ⟨written.2, inner, Prod.ext same.symm rfl⟩
  · rename_i broken
    constructor
    · intro same
      cases same
    · exact fun all => absurd all.1 broken

theorem tree?_object_ok {fields : List (Text × Value ν)} {tree : JsonTree} :
    tree? fractions (.object fields) = .ok tree ↔ ∃ written, tree = .object written ∧
        List.Forall₂ (fun entry written => entryTree fractions entry = .ok written)
          (sortByKey fields) written := by
  rw [tree?_object, map_eq_ok]
  simp only [collect_map_eq_ok]
  exact exists_congr fun written => and_comm.trans (and_congr_left fun _ => eq_comm)

/-- The keys that are written are the sorted ones. -/
theorem keys_written {entries : List (Text × Value ν)} {written : List (Text × JsonTree)}
    (all : List.Forall₂ (fun entry written => entryTree fractions entry = .ok written)
      entries written) :
    written.map Prod.fst = entries.map Prod.fst := by
  have keys : List.Forall₂ (fun written entry => written = entry) (written.map Prod.fst)
      (entries.map Prod.fst) := by
    rw [List.forall₂_map_left_iff, List.forall₂_map_right_iff]
    exact (List.Forall₂.flip (all.imp fun entry written same => (entryTree_ok.mp same).2.1))
  rwa [List.forall₂_eq_eq_eq] at keys

theorem ascending_of_keys {first : List (Text × β)} {second : List (Text × γ)}
    (same : second.map Prod.fst = first.map Prod.fst) (ascending : Ascending first) :
    Ascending second := by
  unfold Ascending at ascending ⊢
  rw [← List.pairwise_map (f := Prod.fst) (R := fun first second : Text => first < second)]
    at ascending ⊢
  rwa [same]

/-- In every object of the tree the keys ascend. -/
def SortedKeys (tree : JsonTree) : Prop :=
  ∀ fields, JsonTree.Within (.object fields) tree → Ascending fields

variable {value : Number ν}

theorem numberText_token {token : Text} (written : numberText fractions value = .ok token) :
    JsonTree.NumberToken token ∧ ∀ unit ∈ token, JsonTree.NumberUnit unit := by
  cases value with
  | integer value =>
    rw [numberText] at written
    split at written
    · cases written
      exact numberToken_intText value
    · cases written
  | negativeZero =>
    cases written
    exact numberToken_intText 0
  | fraction value =>
    cases written
    exact ⟨fractions.token value, fractions.units value⟩
  | nonFinite => cases written

/-- The tree can be printed, and its keys are sorted. -/
theorem tree?_sound (value : Value ν) (proper : value.Proper) (tree : JsonTree)
    (written : tree? fractions value = .ok tree) :
    tree.Printable ∧ SortedKeys tree := by
  induction value using Value.inductionOn generalizing tree with
  | number value =>
    rw [tree?, map_eq_ok] at written
    obtain ⟨token, text, rfl⟩ := written
    constructor
    · intro other within
      cases within
      exact numberText_token text
    · intro fields within
      cases within
  | string value =>
    rw [tree?] at written
    split at written
    · cases written
      constructor
      · intro token within
        cases within
      · intro fields within
        cases within
    · cases written
  | array items ih =>
    obtain ⟨trees, rfl, all⟩ := tree?_array_ok.mp written
    have each : ∀ tree ∈ trees, tree.Printable ∧ SortedKeys tree := by
      intro tree member
      obtain ⟨item, inside, same⟩ := exists_of_forall₂ all member
      exact ih item inside (proper.item inside) tree same
    constructor
    · intro token within
      cases within with
      | item member inside => exact (each _ member).1 token inside
    · intro fields within
      cases within with
      | item member inside => exact (each _ member).2 fields inside
  | object fields ih =>
    obtain ⟨entries, rfl, all⟩ := tree?_object_ok.mp written
    have each : ∀ entry ∈ entries, entry.2.Printable ∧ SortedKeys entry.2 := by
      intro entry member
      obtain ⟨field, inside, same⟩ := exists_of_forall₂ all member
      have known := mem_sortByKey.mp inside
      exact ih field known (proper.field known) entry.2 (entryTree_ok.mp same).2.2
    constructor
    · intro token within
      cases within with
      | field member inside => exact (each _ member).1 token inside
    · intro inner within
      cases within with
      | self => exact ascending_of_keys (keys_written all) (ascending_sortByKey proper.keys)
      | field member inside => exact (each _ member).2 inner inside
  | nonPlain => cases written
  | undefined => cases written
  | _ =>
    cases written
    constructor
    · intro token within
      cases within
    · intro fields within
      cases within

/-! ## What is read back -/

/-- Fields with keys of their own are read as they stand. -/
theorem foldl_setField (fields known : List (Text × Value ν))
    (distinct : ((known ++ fields).map Prod.fst).Nodup) :
    fields.foldl setField known = known ++ fields := by
  induction fields generalizing known with
  | nil => rw [List.foldl_nil, List.append_nil]
  | cons field fields ih =>
    have fresh : (known.map Prod.fst).contains field.1 = false := by
      rw [List.map_append, List.map_cons, List.nodup_append] at distinct
      rw [List.contains_eq_mem, decide_eq_false_iff_not]
      exact fun member => distinct.2.2 _ member _ List.mem_cons_self rfl
    have step : setField known field = known ++ [field] := by
      rw [setField, fresh]
      rfl
    rw [List.foldl_cons, step, ih (known ++ [field]) (by
      rwa [List.append_assoc, List.singleton_append]), List.append_assoc,
      List.singleton_append]

theorem ofItems_eq (items : List JsonTree) :
    ofItems fractions items = items.map (ofJson fractions) := by
  induction items with
  | nil => rfl
  | cons item items ih => rw [ofItems, List.map_cons, ih]

theorem ofFields_eq (fields : List (Text × JsonTree)) :
    ofFields fractions fields = fields.map fun entry => (entry.1, ofJson fractions entry.2) := by
  induction fields with
  | nil => rfl
  | cons field fields ih => rw [ofFields, List.map_cons, ih]

theorem keys_ofFields (fields : List (Text × JsonTree)) :
    (fields.map fun entry => (entry.1, ofJson fractions entry.2)).map Prod.fst =
      fields.map Prod.fst := by
  rw [List.map_map]
  rfl

theorem ofJson_object {fields : List (Text × JsonTree)} (ascending : Ascending fields) :
    ofJson fractions (.object fields) =
      .object (fields.map fun entry => (entry.1, ofJson fractions entry.2)) := by
  rw [ofJson, ofFields_eq, foldl_setField]
  · rw [List.nil_append]
  · rw [List.nil_append, keys_ofFields]
    exact ascending.nodup

/-- A number is read as the one that was written; zero has lost its sign. -/
theorem ofJson_number {token : Text} (written : numberText fractions value = .ok token) :
    ofJson fractions (.number token) = .number value.plain := by
  cases value with
  | integer value =>
    rw [numberText] at written
    split at written
    · rename_i safe
      cases written
      rw [ofJson, integer?_intText safe]
      rfl
    · cases written
  | negativeZero =>
    cases written
    rw [ofJson]
    rfl
  | fraction value =>
    cases written
    rw [ofJson, fractions.apart, Option.elim_none, fractions.read]
    rfl
  | nonFinite => cases written

/-- What is read from a tree: a value with this tree, equal to the first up to the order
of keys. -/
structure ReadBack (fractions : Fractions ν) (value : Value ν) (tree : JsonTree) : Prop where
  same : tree? fractions (ofJson fractions tree) = .ok tree
  meaning : (ofJson fractions tree).meaning = value.meaning
  proper : (ofJson fractions tree).Proper

theorem readBack (value : Value ν) (proper : value.Proper) (tree : JsonTree)
    (written : tree? fractions value = .ok tree) :
    ReadBack fractions value tree := by
  induction value using Value.inductionOn generalizing tree with
  | number value =>
    have text := written
    rw [tree?, map_eq_ok] at text
    obtain ⟨token, text, rfl⟩ := text
    have read := ofJson_number text
    refine ⟨?_, ?_, ?_⟩
    · rw [read, tree?, numberText_plain, text]
      rfl
    · rw [read, Value.meaning, Value.meaning]
      cases value <;> rfl
    · rw [read]
      intro fields within
      cases within
  | string value =>
    have scalar := written
    rw [tree?] at scalar
    split at scalar
    · cases scalar
      exact ⟨written, rfl, fun fields within => by cases within⟩
    · cases scalar
  | array items ih =>
    obtain ⟨trees, rfl, all⟩ := tree?_array_ok.mp written
    have each : List.Forall₂ (ReadBack fractions) items trees :=
      forall₂_imp_of_mem all fun item member tree _ => ih item member (proper.item member) tree
    have every : ∀ tree ∈ trees, ∃ item, ReadBack fractions item tree := by
      intro tree member
      obtain ⟨item, -, read⟩ := exists_of_forall₂ each member
      exact ⟨item, read⟩
    refine ⟨?_, ?_, ?_⟩
    · rw [ofJson, ofItems_eq, tree?_array_ok]
      refine ⟨trees, rfl, ?_⟩
      rw [List.forall₂_map_left_iff, List.forall₂_same]
      intro tree member
      obtain ⟨item, read⟩ := every tree member
      exact read.same
    · rw [ofJson, ofItems_eq, Value.meaning, Value.meaning, itemMeanings_eq,
        itemMeanings_eq, List.map_map]
      refine congrArg Meaning.array ?_
      rw [← List.forall₂_eq_eq_eq, List.forall₂_map_left_iff, List.forall₂_map_right_iff]
      exact List.Forall₂.flip (each.imp fun item tree read => read.meaning)
    · rw [ofJson, ofItems_eq]
      intro fields within
      cases within with
      | item member inside =>
        obtain ⟨tree, known, rfl⟩ := List.mem_map.mp member
        obtain ⟨item, read⟩ := every tree known
        exact read.proper fields inside
  | object fields ih =>
    obtain ⟨entries, rfl, all⟩ := tree?_object_ok.mp written
    have ascending : Ascending entries :=
      ascending_of_keys (keys_written all) (ascending_sortByKey proper.keys)
    have each : List.Forall₂ (fun field entry => UnicodeScalar field.1 ∧
        entry.1 = field.1 ∧ ReadBack fractions field.2 entry.2)
        (sortByKey fields) entries := by
      refine forall₂_imp_of_mem all fun field member entry _ same => ?_
      obtain ⟨scalar, named, inner⟩ := entryTree_ok.mp same
      have known := mem_sortByKey.mp member
      exact ⟨scalar, named, ih field known (proper.field known) entry.2 inner⟩
    have every : ∀ entry ∈ entries, UnicodeScalar entry.1 ∧
        ∃ value, ReadBack fractions value entry.2 := by
      intro entry member
      obtain ⟨field, -, scalar, named, read⟩ := exists_of_forall₂ each member
      exact ⟨named ▸ scalar, field.2, read⟩
    have sorted : Ascending (entries.map fun entry => (entry.1, ofJson fractions entry.2)) :=
      ascending_of_keys (keys_ofFields entries) ascending
    have read := @ofJson_object _ fractions entries ascending
    refine ⟨?_, ?_, ?_⟩
    · rw [read, tree?_object_ok]
      refine ⟨entries, rfl, ?_⟩
      rw [sorted.sortByKey_eq, List.forall₂_map_left_iff, List.forall₂_same]
      intro entry member
      obtain ⟨scalar, value, read⟩ := every entry member
      exact entryTree_ok.mpr ⟨scalar, rfl, read.same⟩
    · have same : (entries.map fun entry =>
          (entry.1, (ofJson fractions entry.2).meaning)) =
          (sortByKey fields).map fun field => (field.1, field.2.meaning) := by
        rw [← List.forall₂_eq_eq_eq, List.forall₂_map_left_iff, List.forall₂_map_right_iff]
        exact List.Forall₂.flip (each.imp fun field entry all => Prod.ext all.2.1 all.2.2.meaning)
      rw [read, Value.meaning, Value.meaning, fieldMeanings_eq, fieldMeanings_eq, List.map_map]
      refine congrArg Meaning.object (funext fun key => ?_)
      change (entries.map fun entry => (entry.1, (ofJson fractions entry.2).meaning)).lookup key = _
      rw [same]
      refine lookup_of_perm ((sortByKey_perm fields).map _) ?_ key
      rw [keys_map]
      exact (ascending_sortByKey proper.keys).nodup
    · rw [read]
      intro inner within
      cases within with
      | self => exact sorted.nodup
      | field member inside =>
        obtain ⟨entry, known, rfl⟩ := List.mem_map.mp member
        obtain ⟨-, value, read⟩ := every entry known
        exact read.proper inner inside
  | nonPlain => cases written
  | undefined => cases written
  | _ =>
    cases written
    exact ⟨rfl, rfl, fun fields within => by cases within⟩

/-! ## What is refused -/

theorem numberText_ok :
    (∃ token, numberText fractions value = .ok token) ↔ ¬ (Value.number value).Offending := by
  cases value with
  | integer value =>
    unfold Value.Offending
    rw [numberText, not_not]
    split
    · rename_i safe
      exact ⟨fun _ => safe, fun _ => ⟨_, rfl⟩⟩
    · rename_i broken
      constructor
      · rintro ⟨token, same⟩
        cases same
      · exact fun safe => absurd safe broken
  | negativeZero => exact ⟨fun _ => id, fun _ => ⟨_, rfl⟩⟩
  | fraction value => exact ⟨fun _ => id, fun _ => ⟨_, rfl⟩⟩
  | nonFinite =>
    constructor
    · rintro ⟨token, same⟩
      cases same
    · exact fun fine => absurd trivial fine

theorem exists_collect (each : ∀ argument ∈ arguments, ∃ value, call argument = .ok value) :
    ∃ values, collect (arguments.map call) = .ok values := by
  induction arguments with
  | nil => exact ⟨[], rfl⟩
  | cons argument arguments ih =>
    obtain ⟨value, same⟩ := each argument List.mem_cons_self
    obtain ⟨values, rest⟩ := ih fun other member => each other (List.mem_cons_of_mem _ member)
    exact ⟨value :: values, by rw [List.map_cons, same, collect_ok, rest]; rfl⟩

theorem each_of_collect {values : List β} (collected : collect (arguments.map call) = .ok values) :
    ∀ argument ∈ arguments, ∃ value, call argument = .ok value := by
  intro argument member
  have all := List.Forall₂.flip (collect_map_eq_ok.mp collected)
  obtain ⟨value, -, same⟩ := exists_of_forall₂ all member
  exact ⟨value, same⟩

/-- A value has a tree exactly if nothing in it, at any depth, has no place in JSON. -/
theorem exists_tree_iff (value : Value ν) :
    (∃ tree, tree? fractions value = .ok tree) ↔
      ∀ part, Value.Within part value → ¬ part.Offending := by
  induction value using Value.inductionOn with
  | null =>
    refine ⟨fun _ part within => ?_, fun _ => ⟨_, rfl⟩⟩
    cases within
    exact id
  | bool value =>
    refine ⟨fun _ part within => ?_, fun _ => ⟨_, rfl⟩⟩
    cases within
    exact id
  | number value =>
    rw [tree?]
    constructor
    · rintro ⟨tree, same⟩ part within
      obtain ⟨token, text, -⟩ := map_eq_ok.mp same
      cases within
      exact numberText_ok.mp ⟨token, text⟩
    · intro fine
      obtain ⟨token, text⟩ := (@numberText_ok _ fractions value).mpr (fine _ (.self _))
      exact ⟨.number token, by rw [text]; rfl⟩
  | string value =>
    rw [tree?]
    constructor
    · rintro ⟨tree, same⟩ part within
      split at same
      · rename_i scalar
        cases within
        exact fun broken => broken scalar
      · cases same
    · intro fine
      have scalar : UnicodeScalar value := not_not.mp (fine _ (.self _))
      exact ⟨.string value, if_pos scalar⟩
  | array items ih =>
    rw [tree?_array]
    constructor
    · rintro ⟨tree, same⟩ part within
      obtain ⟨trees, collected, -⟩ := map_eq_ok.mp same
      cases within with
      | self => exact id
      | item member inside =>
        exact (ih _ member).mp (each_of_collect collected _ member) part inside
    · intro fine
      obtain ⟨trees, collected⟩ := @exists_collect _ _ _ (tree? fractions) items
        fun item member => (ih item member).mpr fun part inside => fine part (.item member inside)
      exact ⟨.array trees, by rw [collected]; rfl⟩
  | object fields ih =>
    rw [tree?_object]
    constructor
    · rintro ⟨tree, same⟩ part within
      obtain ⟨entries, collected, -⟩ := map_eq_ok.mp same
      have each := each_of_collect collected
      cases within with
      | self =>
        rintro ⟨entry, member, broken⟩
        obtain ⟨written, same⟩ := each entry (mem_sortByKey.mpr member)
        exact broken (entryTree_ok.mp same).1
      | field member inside =>
        obtain ⟨written, same⟩ := each _ (mem_sortByKey.mpr member)
        exact (ih _ member).mp ⟨written.2, (entryTree_ok.mp same).2.2⟩ part inside
    · intro fine
      obtain ⟨entries, collected⟩ := @exists_collect _ _ _ (entryTree fractions)
        (sortByKey fields) fun entry sorted => by
          have member := mem_sortByKey.mp sorted
          have scalar : UnicodeScalar entry.1 := by
            by_contra broken
            exact fine _ (.self _) ⟨entry, member, broken⟩
          obtain ⟨tree, same⟩ := (ih entry member).mpr
            fun part inside => fine part (.field member inside)
          exact ⟨(entry.1, tree), entryTree_ok.mpr ⟨scalar, rfl, same⟩⟩
      exact ⟨.object entries, by rw [collected]; rfl⟩
  | _ =>
    constructor
    · rintro ⟨tree, same⟩
      cases same
    · exact fun fine => absurd trivial (fine _ (.self _))

end Trees

end Jcs
end Ppe
end Scrum4Me
