import Scrum4Me.Ppe.CanonicalTrees

/-!
# Receipts that are stored

A receipt is stored with the hash of its canonical text. It is checked when it is read
back, whatever order the database gives its keys.
-/

namespace Scrum4Me
namespace Ppe
namespace Jcs

open Foundation

variable {ν : Type}

/-- The code units of a plain text. -/
def plainText (text : String) : Text := text.toList.map Char.toNat

/-! ## Receipts -/

namespace Value

/-- `value[key]`. -/
def get : Value ν → Text → Value ν
  | .object fields, key => (fields.lookup key).getD .undefined
  | _, _ => .undefined

def text? : Value ν → Option Text
  | .string text => some text
  | _ => none

def isRecord : Value ν → Bool
  | .object _ => true
  | .nonPlain => true
  | _ => false

end Value

/-- `OperationReceiptRow`. -/
structure ReceiptRow (ν : Type) where
  runId : Text
  operationKey : Text
  payloadSha256 : Text
  kind : Text
  status : Text
  receiptJson : Value ν
  receiptSha256 : Text

/-- `OperationReceiptV1`. -/
def operationReceipt (runId operationKey payloadSha256 kind : Text) (payload result : Value ν) :
    Value ν :=
  .object [(plainText "version", .string (plainText "operation-receipt-v1")),
      (plainText "run_id", .string runId),
      (plainText "operation_key", .string operationKey),
      (plainText "payload_sha256", .string payloadSha256),
      (plainText "kind", .string kind),
      (plainText "status", .string (plainText "COMMITTED")),
      (plainText "payload", payload),
      (plainText "result", result)]

def corrupt : String := "PPE_OPERATION_RECEIPT_CORRUPT"

/-- The texts in a receipt are those of its row. -/
def ReceiptRow.Matches (row : ReceiptRow ν) : Prop :=
  (row.receiptJson.get (plainText "version")).text? =
      some (plainText "operation-receipt-v1") ∧
    (row.receiptJson.get (plainText "run_id")).text? = some row.runId ∧
      (row.receiptJson.get (plainText "operation_key")).text? = some row.operationKey ∧
        (row.receiptJson.get (plainText "payload_sha256")).text? =
            some row.payloadSha256 ∧
          (row.receiptJson.get (plainText "kind")).text? = some row.kind ∧
            (row.receiptJson.get (plainText "status")).text? =
                some (plainText "COMMITTED") ∧
              row.status = plainText "COMMITTED"

instance (row : ReceiptRow ν) : Decidable row.Matches :=
  inferInstanceAs (Decidable (_ ∧ _))

section Hashing

variable (fractions : Fractions ν) (sha256 : Text → Text)

def sha256PpeJcs (value : Value ν) : Except JcsError Text :=
  (canonicalizePpeJcs fractions value).map sha256

/-- The receipt, or the message of the error that is thrown. -/
def validateReceipt (row : ReceiptRow ν) : Except String (Value ν) :=
  if row.receiptJson.isRecord = false then .error corrupt
  else if ¬ row.Matches then .error corrupt
  else
    ((sha256PpeJcs fractions sha256 (row.receiptJson.get (plainText "payload"))).mapError
      JcsError.text).bind fun payloadHash =>
        if payloadHash ≠ row.payloadSha256 then .error corrupt
        else
          ((sha256PpeJcs fractions sha256 row.receiptJson).mapError JcsError.text).bind
            fun receiptHash =>
              if receiptHash ≠ row.receiptSha256 then .error corrupt
              else .ok row.receiptJson

/-- The row that a mutation with this payload and this result stores. -/
def storeReceipt (runId operationKey kind : Text) (payload result : Value ν) :
    Except JcsError (ReceiptRow ν) := do
  let payloadSha256 ← sha256PpeJcs fractions sha256 payload
  let receipt := operationReceipt runId operationKey payloadSha256 kind payload result
  let receiptSha256 ← sha256PpeJcs fractions sha256 receipt
  return {
    runId
    operationKey
    payloadSha256
    kind
    status := plainText "COMMITTED"
    receiptJson := receipt
    receiptSha256 }

variable {fractions sha256}

/-! ## The canonical text -/

/-- A value of which every part has a place in JSON: null, a boolean, a finite number
that is no unsafe integer, a well-formed string, an array or a plain object with
well-formed keys. -/
def Value.Sound (value : Value ν) : Prop :=
  ∀ part, Value.Within part value → ¬ part.Offending

variable {value other : Value ν}

/-- Nothing with an offending part has a text. -/
theorem canonical_refuses
    {part : Value ν} (within : Value.Within part value) (offending : part.Offending) (text : Text) :
    canonicalizePpeJcs fractions value ≠ .ok text := by
  intro written
  rw [canonicalizePpeJcs_eq, map_eq_ok] at written
  obtain ⟨tree, written, -⟩ := written
  exact (exists_tree_iff value).mp ⟨tree, written⟩ part within offending

/-- The text of a sound value is that of a tree, and `JSON.parse` reads the tree. -/
theorem canonical_of_sound (proper : value.Proper) (sound : value.Sound) :
    ∃ tree : JsonTree, canonicalizePpeJcs fractions value = .ok tree.print ∧
      JsonTree.parse tree.print = some tree ∧ SortedKeys tree ∧
        (ofJson fractions tree).meaning = value.meaning ∧
          canonicalizePpeJcs fractions (ofJson fractions tree) = .ok tree.print := by
  obtain ⟨tree, written⟩ := (@exists_tree_iff _ fractions value).mpr sound
  obtain ⟨printable, sorted⟩ := tree?_sound value proper tree written
  have read := readBack value proper tree written
  refine ⟨tree, ?_, JsonTree.parse_print printable, sorted, read.meaning, ?_⟩
  · rw [canonicalizePpeJcs_eq, written]
    rfl
  · rw [canonicalizePpeJcs_eq, read.same]
    rfl

/-- Values with one canonical text are equal up to the order of keys. -/
theorem meaning_of_text {text : Text} (proper : value.Proper) (proper' : other.Proper)
    (first : canonicalizePpeJcs fractions value = .ok text)
    (second : canonicalizePpeJcs fractions other = .ok text) :
    value.meaning = other.meaning := by
  rw [canonicalizePpeJcs_eq, map_eq_ok] at first second
  obtain ⟨tree, written, rfl⟩ := first
  obtain ⟨tree', written', same⟩ := second
  have trees : tree = tree' := by
    have read := JsonTree.parse_print (tree?_sound value proper tree written).1
    have read' := JsonTree.parse_print (tree?_sound other proper' tree' written').1
    rw [← same, read'] at read
    exact (Option.some.inj read).symm
  subst trees
  rw [← (readBack value proper tree written).meaning,
    ← (readBack other proper' tree written').meaning]

theorem canonical_of_meaning (proper : value.Proper) (proper' : other.Proper)
    (same : value.meaning = other.meaning) :
    canonicalizePpeJcs fractions value = canonicalizePpeJcs fractions other := by
  rw [canonicalizePpeJcs_eq, canonicalizePpeJcs_eq,
    tree?_eq_of_meaning value other proper proper' same]

theorem canonical_eq_iff (proper : value.Proper) (proper' : other.Proper) (sound : value.Sound) :
    canonicalizePpeJcs fractions value = canonicalizePpeJcs fractions other ↔
      value.meaning = other.meaning := by
  constructor
  · intro same
    obtain ⟨tree, written, -⟩ := @canonical_of_sound _ fractions value proper sound
    exact meaning_of_text proper proper' written (same ▸ written)
  · exact canonical_of_meaning proper proper'

/-! ## What is read of a value -/

theorem lookup_map (change : α → β) (fields : List (Text × α)) (key : Text) :
    (fields.map fun entry => (entry.1, change entry.2)).lookup key =
      (fields.lookup key).map change := by
  induction fields with
  | nil => rfl
  | cons field fields ih =>
    rw [List.map_cons, List.lookup_cons, List.lookup_cons, ih]
    split <;> rfl

/-- What stands under a key of values with one meaning has one meaning. -/
theorem meaning_get (same : value.meaning = other.meaning) (key : Text) :
    (value.get key).meaning = (other.get key).meaning := by
  cases value with
  | object fields =>
    cases other with
    | object others =>
      rw [Value.meaning, Value.meaning, Meaning.object.injEq, fieldMeanings_eq,
        fieldMeanings_eq] at same
      have found := congrFun same key
      rw [lookup_map, lookup_map] at found
      rw [Value.get, Value.get]
      cases first : fields.lookup key with
      | none =>
        rw [first, Option.map_none, eq_comm, Option.map_eq_none_iff] at found
        rw [found]
      | some value =>
        rw [first, Option.map_some, eq_comm, Option.map_eq_some_iff] at found
        obtain ⟨value', second, inner⟩ := found
        rw [second]
        exact inner.symm
    | _ => cases same
  | _ =>
    cases other with
    | object others => cases same
    | _ => rfl

theorem text?_of_meaning (same : value.meaning = other.meaning) : value.text? = other.text? := by
  cases value with
  | string text =>
    cases other with
    | string text' => rw [Meaning.string.inj same]
    | _ => cases same
  | _ =>
    cases other with
    | string text' => cases same
    | _ => rfl

theorem isRecord_of_meaning (same : value.meaning = other.meaning) :
    value.isRecord = other.isRecord := by
  cases value <;> cases other <;> first | rfl | cases same

theorem matches_of_meaning {row : ReceiptRow ν} (same : other.meaning = row.receiptJson.meaning) :
    ({ row with receiptJson := other } : ReceiptRow ν).Matches ↔ row.Matches := by
  have texts : ∀ key, (other.get key).text? = (row.receiptJson.get key).text? :=
    fun key => text?_of_meaning (meaning_get same key)
  unfold ReceiptRow.Matches
  dsimp only
  simp only [texts]

theorem get_proper (proper : value.Proper) (key : Text) : (value.get key).Proper := by
  cases value with
  | object fields =>
    rw [Value.get]
    cases found : fields.lookup key with
    | none => exact fun _ within => by cases within
    | some value =>
      exact @Value.Proper.field _ _ (key, value) proper ((lookup_iff_mem proper.keys).mp found)
  | _ => exact fun _ within => by cases within

/-! ## What passes -/

theorem sha256PpeJcs_ok {hash : Text} :
    sha256PpeJcs fractions sha256 value = .ok hash ↔
      ∃ text, canonicalizePpeJcs fractions value = .ok text ∧ sha256 text = hash := by
  rw [sha256PpeJcs, map_eq_ok]

theorem mapError_eq_ok {result : Except ε α} {change : ε → δ} {value : α} :
    result.mapError change = .ok value ↔ result = .ok value := by
  cases result with
  | _ => simp [Except.mapError]

theorem bind_eq_ok {result : Except ε α} {next : α → Except ε β} {value : β} :
    result.bind next = .ok value ↔ ∃ inner, result = .ok inner ∧ next inner = .ok value := by
  cases result with
  | _ => simp [Except.bind]

/-- A row passes exactly if its receipt is a record with its texts, and both hashes are
those of the row. -/
theorem validateReceipt_ok {row : ReceiptRow ν} {receipt : Value ν} :
    validateReceipt fractions sha256 row = .ok receipt ↔
      (row.receiptJson.isRecord = true ∧ row.Matches ∧
        sha256PpeJcs fractions sha256 (row.receiptJson.get (plainText "payload")) =
            .ok row.payloadSha256 ∧
          sha256PpeJcs fractions sha256 row.receiptJson = .ok row.receiptSha256) ∧
        row.receiptJson = receipt := by
  unfold validateReceipt
  constructor
  · intro passed
    split at passed
    · cases passed
    · rename_i isRecord
      split at passed
      · cases passed
      · rename_i matched
        obtain ⟨payloadHash, payloadHashed, passed⟩ := bind_eq_ok.mp passed
        split at passed
        · cases passed
        · rename_i samePayload
          obtain ⟨receiptHash, receiptHashed, passed⟩ := bind_eq_ok.mp passed
          split at passed
          · cases passed
          · rename_i sameReceipt
            rw [not_not] at matched samePayload sameReceipt
            subst samePayload sameReceipt
            exact ⟨⟨by simpa using isRecord, matched, mapError_eq_ok.mp payloadHashed,
              mapError_eq_ok.mp receiptHashed⟩, Except.ok.inj passed⟩
  · rintro ⟨⟨isRecord, matched, payloadHashed, receiptHashed⟩, rfl⟩
    rw [if_neg (by simp [isRecord]), if_neg (not_not.mpr matched)]
    refine bind_eq_ok.mpr ⟨_, mapError_eq_ok.mpr payloadHashed, ?_⟩
    rw [if_neg (not_not.mpr rfl)]
    refine bind_eq_ok.mpr ⟨_, mapError_eq_ok.mpr receiptHashed, ?_⟩
    rw [if_neg (not_not.mpr rfl)]

/-- What is known of a row that a mutation stored. -/
structure Stored
    (fractions : Fractions ν) (sha256 : Text → Text) (payload result : Value ν)
    (row : ReceiptRow ν) :
    Prop where
  receipt : row.receiptJson = operationReceipt row.runId row.operationKey
    row.payloadSha256 row.kind payload result
  status : row.status = plainText "COMMITTED"
  payloadHash : sha256PpeJcs fractions sha256 payload = .ok row.payloadSha256
  receiptHash : sha256PpeJcs fractions sha256 row.receiptJson = .ok row.receiptSha256

theorem stored_of_storeReceipt
    {runId operationKey kind : Text} {payload result : Value ν} {row : ReceiptRow ν}
    (stores : storeReceipt fractions sha256 runId operationKey kind payload result = .ok row) :
    Stored fractions sha256 payload result row := by
  unfold storeReceipt at stores
  obtain ⟨payloadSha256, payloadHash, stores⟩ := bind_eq_ok.mp stores
  obtain ⟨receiptSha256, receiptHash, stores⟩ := bind_eq_ok.mp stores
  cases stores
  exact ⟨rfl, rfl, payloadHash, receiptHash⟩

theorem Stored.passes {payload result : Value ν} {row : ReceiptRow ν}
    (stored : Stored fractions sha256 payload result row) :
    row.receiptJson.isRecord = true ∧ row.Matches ∧
      row.receiptJson.get (plainText "payload") = payload := by
  obtain ⟨receipt, status, -, -⟩ := stored
  unfold ReceiptRow.Matches
  rw [receipt, status]
  refine ⟨rfl, ⟨?_, ?_, ?_, ?_, ?_, ?_, rfl⟩, ?_⟩
  all_goals rfl

/-! ## What is altered and what is not -/

theorem proper_string (text : Text) : (Value.string text : Value ν).Proper := by
  intro fields within
  cases within

theorem proper_object {fields : List (Text × Value ν)} (keys : (fields.map Prod.fst).Nodup)
    (inner : ∀ entry ∈ fields, entry.2.Proper) :
    (Value.object fields).Proper := by
  intro others within
  cases within with
  | self => exact keys
  | field member inside => exact inner _ member others inside

theorem operationReceipt_proper {payload result : Value ν} (payloadProper : payload.Proper)
    (resultProper : result.Proper) (runId operationKey payloadSha256 kind : Text) :
    (operationReceipt runId operationKey payloadSha256 kind payload result).Proper := by
  refine proper_object (by simp only [List.map_cons, List.map_nil]; decide) ?_
  simp only [List.forall_mem_cons]
  exact ⟨proper_string _, proper_string _, proper_string _, proper_string _, proper_string _,
    proper_string _, payloadProper, resultProper, List.forall_mem_nil _⟩

/-- Two texts have one hash. -/
def Collision (sha256 : Text → Text) : Prop :=
  ∃ text text', text ≠ text' ∧ sha256 text = sha256 text'

/-- The receipt is what it was up to the order of keys, and so is what its row says of
it. -/
structure Unaltered (row later : ReceiptRow ν) : Prop where
  receipt : later.receiptJson.meaning = row.receiptJson.meaning
  runId : later.runId = row.runId
  operationKey : later.operationKey = row.operationKey
  payloadSha256 : later.payloadSha256 = row.payloadSha256
  kind : later.kind = row.kind
  status : later.status = row.status

/-- A hash that is the same is that of the same text, or there is a collision. -/
theorem meaning_of_hash {hash : Text} (proper : value.Proper) (proper' : other.Proper)
    (first : sha256PpeJcs fractions sha256 value = .ok hash)
    (second : sha256PpeJcs fractions sha256 other = .ok hash) :
    Collision sha256 ∨ value.meaning = other.meaning := by
  obtain ⟨text, written, hashed⟩ := sha256PpeJcs_ok.mp first
  obtain ⟨text', written', hashed'⟩ := sha256PpeJcs_ok.mp second
  by_cases same : text = text'
  · subst same
    exact .inr (meaning_of_text proper proper' written written')
  · exact .inl ⟨text, text', same, hashed.trans hashed'.symm⟩

theorem sha256PpeJcs_of_meaning (proper : value.Proper) (proper' : other.Proper)
    (same : value.meaning = other.meaning) :
    sha256PpeJcs fractions sha256 value = sha256PpeJcs fractions sha256 other := by
  rw [sha256PpeJcs, canonical_of_meaning proper proper' same, sha256PpeJcs]

section Rows

variable {payload result : Value ν} {row : ReceiptRow ν} (payloadProper : payload.Proper)
  (resultProper : result.Proper)
  (stored : Stored fractions sha256 payload result row)

include payloadProper resultProper stored

theorem Stored.proper : row.receiptJson.Proper :=
  stored.receipt ▸ operationReceipt_proper payloadProper resultProper _ _ _ _

/-- A receipt that is read back in another order passes. -/
theorem Stored.reordered {read : Value ν} (proper : read.Proper)
    (same : read.meaning = row.receiptJson.meaning) :
    validateReceipt fractions sha256 { row with receiptJson := read } = .ok read := by
  obtain ⟨isRecord, matched, payloadOf⟩ := stored.passes
  have inner : (read.get (plainText "payload")).meaning = payload.meaning := by
    rw [meaning_get same, payloadOf]
  refine validateReceipt_ok.mpr ⟨⟨?_, (matches_of_meaning same).mpr matched, ?_, ?_⟩, rfl⟩
  · exact (isRecord_of_meaning same).trans isRecord
  · exact (sha256PpeJcs_of_meaning (get_proper proper _) payloadProper inner).trans
      stored.payloadHash
  · exact (sha256PpeJcs_of_meaning proper (stored.proper payloadProper resultProper)
      same).trans stored.receiptHash

/-- A receipt that passes under the stored hash is the stored one. -/
theorem Stored.unaltered
    {later : ReceiptRow ν} {receipt : Value ν} (proper : later.receiptJson.Proper)
    (hash : later.receiptSha256 = row.receiptSha256)
    (passes : validateReceipt fractions sha256 later = .ok receipt) :
    Collision sha256 ∨ Unaltered row later := by
  obtain ⟨⟨-, matched, -, hashed⟩, -⟩ := validateReceipt_ok.mp passes
  rw [hash] at hashed
  refine (meaning_of_hash proper (stored.proper payloadProper resultProper) hashed
    stored.receiptHash).imp_right fun same => ?_
  have texts : ∀ key, (later.receiptJson.get key).text? = (row.receiptJson.get key).text? :=
    fun key => text?_of_meaning (meaning_get same key)
  obtain ⟨-, runId, operationKey, payloadSha256, kind, -, status⟩ := matched
  obtain ⟨-, ⟨-, runId', operationKey', payloadSha256', kind', -, status'⟩, -⟩ := stored.passes
  rw [texts] at runId operationKey payloadSha256 kind
  exact {
    receipt := same
    runId := Option.some.inj (runId.symm.trans runId')
    operationKey := Option.some.inj (operationKey.symm.trans operationKey')
    payloadSha256 := Option.some.inj (payloadSha256.symm.trans payloadSha256')
    kind := Option.some.inj (kind.symm.trans kind')
    status := status.trans status'.symm }

end Rows

end Hashing

/-- The number one half. -/
def half : Fractions Unit where
  text _ := plainText "0.5"
  ofToken token := if token = plainText "0.5" then .fraction () else .nonFinite
  token := fun _ => by decide
  units := fun _ => by decide
  apart := fun _ => by decide
  read := fun _ => if_pos rfl

def halves (first second : Text × Value Unit) : Value Unit := .object [first, second]

theorem sound_halves {first second : Text × Value Unit}
    (keys : UnicodeScalar first.1 ∧ UnicodeScalar second.1) (one : first.2.Sound)
    (other : second.2.Sound) :
    (halves first second).Sound := by
  intro part within
  cases within with
  | self =>
    rintro ⟨entry, member, bad⟩
    rcases List.mem_pair.mp member with rfl | rfl
    · exact bad keys.1
    · exact bad keys.2
  | field member inside =>
    rcases List.mem_pair.mp member with rfl | rfl
    · exact one part inside
    · exact other part inside

theorem proper_halves
    {first second : Text × Value Unit} (apart : first.1 ≠ second.1) (one : first.2.Proper)
    (other : second.2.Proper) :
    (halves first second).Proper := by
  refine proper_object (by simpa using apart) fun entry member => ?_
  rcases List.mem_pair.mp member with rfl | rfl
  · exact one
  · exact other

end Jcs
end Ppe
end Scrum4Me
