import Scrum4Me.Foundation.Utf8
import Scrum4Me.Dispatch.GitConfig

/-!
# The configuration preflight

What the collector checks in the repository of an agent before it starts Git there, and that
Git reads no variable from a configuration that passes but the ones it allows.
-/

namespace Scrum4Me
namespace Dispatch
namespace GitConfig

open Foundation

/-! ## The line loop -/

def remoteOrigin : Text := Text.units "remote \"origin\""

/-- The sections that have variables. -/
def headings : List Text :=
  [Text.units "core", Text.units "user", Text.units "protocol", remoteOrigin]

def coreNames : List Text :=
  ["repositoryformatversion", "filemode", "bare", "logallrefupdates", "hookspath", "ignorecase",
    "precomposeunicode", "symlinks"].map Text.units

def userNames : List Text := ["name", "email"].map Text.units

def protocolNames : List Text := ["allow"].map Text.units

def originNames : List Text := ["url", "fetch"].map Text.units

/-- `allowed`. -/
def allowed : List (Text × List Text) :=
  [(Text.units "core", coreNames), (Text.units "user", userNames),
    (Text.units "protocol", protocolNames), (remoteOrigin, originNames)]

/-- `/^\[(core|user|protocol|remote "origin")\]$/.exec(text)`. -/
def heading (text : Text) : Option Text :=
  headings.find? fun name => text == 91 :: name ++ [93]

structure Field where
  name : Text
  value : Text

/-- `/^([a-zA-Z]+)\s*=([^\r\n]*)$/.exec(text)`. -/
def field (text : Text) : Option Field :=
  let name := text.takeWhile (Letter ·)
  let rest := (text.dropWhile (Letter ·)).dropWhile (Text.Space ·)
  let whole := rest.tail.all fun unit => unit ≠ carriageReturn ∧ unit ≠ lineFeed
  if name ≠ [] ∧ rest.head? = some 61 ∧ whole = true then some ⟨name, rest.tail⟩ else none

/-- A field is taken: there is a section, its value has no backslash, and the section allows
its name. -/
def takes (current : Text) (found : Field) : Bool :=
  current ≠ [] && !found.value.contains 92 &&
    ((allowed.lookup current).getD []).contains (found.name.map Pattern.lower)

/-- One line in a section: the section after it, or a denial. -/
def inspectLine (current line : Text) : Option Text :=
  let text := Text.trim line
  if text = [] ∨ text.head?.any (OpensComment ·) then some current
  else (heading text).elim
    ((field text).elim none fun found => if takes current found then some current else none)
    some

def inspectLines (current : Text) : List Text → Option Text
  | [] => some current
  | line :: rest => (inspectLine current line).bind fun later => inspectLines later rest

/-- `raw.split(/\r?\n/)`. -/
def splitLines (raw : Text) : List Text := (dropReturns raw).splitOn lineFeed

def configLimit : Nat := 65536

/-- `assertCollectableRepository` of a `config` with these bytes, up to where it starts Git. -/
def preflight (bytes : List Nat) : Bool :=
  bytes.length ≤ configLimit && (inspectLines [] (splitLines (Utf8.decode bytes))).isSome

/-! ## What may be set -/

/-- The section of Git's that a heading stands for. -/
def headerOf (name : Text) : Header :=
  if name = remoteOrigin then ⟨Text.units "remote", some (Text.units "origin")⟩ else ⟨name, none⟩

/-- One of the variables of `core`, `user`, `protocol` and `remote "origin"`. -/
def Variable.Allowed (read : Variable) : Prop :=
  read.header = ⟨Text.units "core", none⟩ ∧ read.name ∈ coreNames ∨
    read.header = ⟨Text.units "user", none⟩ ∧ read.name ∈ userNames ∨
    read.header = ⟨Text.units "protocol", none⟩ ∧ read.name ∈ protocolNames ∨
    read.header = ⟨Text.units "remote", some (Text.units "origin")⟩ ∧ read.name ∈ originNames

/-- A setting with which Git reads elsewhere or starts a program. -/
def Variable.Foreign (read : Variable) : Prop :=
  read.header.name ∈ ["include", "includeif", "extensions", "filter", "alias"].map Text.units ∨
    read.name ∈ ["worktree", "fsmonitor"].map Text.units

theorem Variable.Allowed.not_foreign {read : Variable} (allowed : read.Allowed) :
    ¬ read.Foreign := by
  have sections : ∀ name ∈ ["core", "user", "protocol", "remote"].map Text.units,
      name ∉ ["include", "includeif", "extensions", "filter", "alias"].map Text.units := by decide
  have names : ∀ name ∈ coreNames ++ userNames ++ protocolNames ++ originNames,
      name ∉ ["worktree", "fsmonitor"].map Text.units := by decide
  have placed : read.header.name ∈ ["core", "user", "protocol", "remote"].map Text.units ∧
      read.name ∈ coreNames ++ userNames ++ protocolNames ++ originNames := by
    rcases allowed with allowed | allowed | allowed | allowed
    · exact ⟨by rw [allowed.1]; decide, by simp [allowed.2]⟩
    · exact ⟨by rw [allowed.1]; decide, by simp [allowed.2]⟩
    · exact ⟨by rw [allowed.1]; decide, by simp [allowed.2]⟩
    · exact ⟨by rw [allowed.1]; decide, by simp [allowed.2]⟩
  rintro (foreign | foreign)
  · exact sections _ placed.1 foreign
  · exact names _ placed.2 foreign

variable {current : Text}

/-- What the section of a heading allows, Git reads as an allowed variable. -/
theorem allowed_of_takes {found : Field} (taken : takes current found = true) :
    (⟨headerOf current, found.name.map Pattern.lower⟩ : Variable).Allowed ∧ current ≠ [] ∧
      92 ∉ found.value := by
  simp only [takes, Bool.and_eq_true, Bool.not_eq_true', List.contains_eq_mem,
    decide_eq_true_eq, decide_eq_false_iff_not] at taken
  obtain ⟨⟨chosen, plain⟩, member⟩ := taken
  refine ⟨?_, chosen, plain⟩
  have tabled : ∀ entry ∈ allowed, ∀ name ∈ entry.2,
      (⟨headerOf entry.1, name⟩ : Variable).Allowed := by
    intro entry entryOf name named
    simp only [allowed, List.mem_cons, List.not_mem_nil, or_false] at entryOf
    rcases entryOf with rfl | rfl | rfl | rfl
    · exact .inl ⟨show headerOf (Text.units "core") = _ by decide, named⟩
    · exact .inr (.inl ⟨show headerOf (Text.units "user") = _ by decide, named⟩)
    · exact .inr (.inr (.inl ⟨show headerOf (Text.units "protocol") = _ by decide, named⟩))
    · exact .inr (.inr (.inr ⟨show headerOf remoteOrigin = _ by decide, named⟩))
  cases looked : allowed.lookup current with
  | none =>
    rw [looked] at member
    exact absurd member List.not_mem_nil
  | some names =>
    rw [looked] at member
    obtain ⟨front, back, split, _⟩ := List.lookup_eq_some_iff.mp looked
    exact tabled (current, names) (by rw [split]; simp) _ member

/-! ## Trimmed lines -/

theorem trim_blanks {front : Text} (blank : ∀ unit ∈ front, Text.Space unit) (text : Text) :
    Text.trim (front ++ text) = Text.trim text := by
  have none : front.dropWhile (fun unit => decide (Text.Space unit)) = [] :=
    List.dropWhile_eq_nil_iff.mpr fun unit member => decide_eq_true (blank unit member)
  rw [Text.trim, Text.trim, List.dropWhile_append, none]
  rfl

/-- A line that does not start with white space is its trimmed text, and white space after it. -/
theorem trim_parts {unit : Nat} (solid : ¬ Text.Space unit) (rest : Text) :
    ∃ inner blanks, Text.trim (unit :: rest) = unit :: inner ∧ rest = inner ++ blanks ∧
      ∀ other ∈ blanks, Text.Space other := by
  have kept : (unit :: rest).dropWhile (fun unit => decide (Text.Space unit)) = unit :: rest :=
    List.dropWhile_cons_of_neg (by simpa using solid)
  have whole := List.rdropWhile_append_rtakeWhile
    (p := fun unit => decide (Text.Space unit)) (l := unit :: rest)
  have blank : ∀ other ∈ (unit :: rest).rtakeWhile (fun unit => decide (Text.Space unit)),
      Text.Space other := by
    intro other member
    have held := List.mem_rtakeWhile_imp (p := fun unit => decide (Text.Space unit)) member
    exact of_decide_eq_true held
  rw [Text.trim, kept]
  generalize (unit :: rest).rtakeWhile (fun unit => decide (Text.Space unit)) = blanks
    at whole blank
  cases trimmed : (unit :: rest).rdropWhile (fun unit => decide (Text.Space unit)) with
  | nil =>
    have := List.rdropWhile_eq_nil_iff.mp trimmed unit List.mem_cons_self
    exact absurd (of_decide_eq_true this) solid
  | cons first inner =>
    rw [trimmed] at whole
    obtain ⟨rfl, same⟩ := List.cons.inj whole
    exact ⟨inner, blanks, rfl, same.symm, blank⟩

/-- What Git passes over, `trim` removes. -/
theorem space_of_blank {byte : Nat} (blank : Blank byte) : Text.Space byte := by
  unfold Blank carriageReturn at blank
  unfold Text.Space
  omega

/-! ## Git over one line -/

namespace Reading

variable {reading last : Reading} {bytes : List Nat}

theorem run_blanks (started : reading.mode = .start) (blank : ∀ byte ∈ bytes, Blank byte) :
    reading.run bytes = some reading := by
  induction bytes with
  | nil => rfl
  | cons byte rest ih =>
    have stays : reading.step byte = some reading := by
      rw [step, started]
      exact if_pos (.inr (blank byte List.mem_cons_self))
    rw [run_cons, stays]
    exact ih fun other member => blank other (List.mem_cons_of_mem _ member)

theorem run_comment (plain : lineFeed ∉ bytes) :
    (reading.turned .comment).run bytes = some (reading.turned .comment) := by
  induction bytes with
  | nil => rfl
  | cons byte rest ih =>
    obtain ⟨other, later⟩ := not_or.mp fun either => plain (List.mem_cons.mpr either)
    have stays : (reading.turned .comment).step byte = some (reading.turned .comment) :=
      congrArg some (if_neg (Ne.symm other))
    rw [run_cons, stays]
    exact ih later

/-- White space of any kind, where a line may start: Git passes over it or gives up. -/
theorem run_spaces (started : reading.mode = .start)
    (space : ∀ byte ∈ bytes, byte < 128 → Text.Space byte) (read : reading.run bytes = some last) :
    last = reading := by
  apply run_keeps (fun later => later = reading) _ rfl read
  rintro byte member before after rfl stepped
  have narrow := space byte member
  rw [step, started] at stepped
  dsimp only at stepped
  unfold Text.Space at narrow
  split at stepped
  · exact (Option.some.inj stepped).symm
  · split at stepped
    · rename_i opens
      unfold OpensComment at opens
      omega
    · split at stepped
      · omega
      · split at stepped
        · rename_i letter
          unfold Letter at letter
          omega
        · cases stepped

theorem run_letters (name letters : List Nat) (lettered : ∀ byte ∈ letters, Letter byte) :
    (reading.turned (.key name)).run letters =
      some (reading.turned (.key (name ++ letters.map Pattern.lower))) := by
  induction letters generalizing name with
  | nil => simp
  | cons byte rest ih =>
    have stays : (reading.turned (.key name)).step byte =
        some (reading.turned (.key (name ++ [Pattern.lower byte]))) :=
      if_pos (.inl (lettered byte List.mem_cons_self))
    rw [run_cons, stays, Option.bind_some, ih _ fun other member =>
      lettered other (List.mem_cons_of_mem _ member), List.append_assoc]
    rfl

variable {name : Text}

/-- After a name, white space changes nothing Git goes on with. -/
theorem run_afterName (plain : lineFeed ∉ bytes)
    (space : ∀ byte ∈ bytes, byte < 128 → Text.Space byte)
    (read : (reading.turned (.key name)).run bytes = some last) :
    last = reading.turned (.key name) ∨ last = reading.turned (.afterKey name) := by
  apply run_keeps (fun later => later = reading.turned (.key name) ∨
    later = reading.turned (.afterKey name)) _ (.inl rfl) read
  intro byte member before after holds stepped
  have narrow := space byte member
  have other : byte ≠ lineFeed := fun same => plain (same ▸ member)
  unfold Text.Space at narrow
  have outside : ¬ KeyByte byte ∧ byte ≠ 61 ∧ ¬ OpensComment byte := by
    unfold KeyByte Letter Digit OpensComment
    omega
  rcases holds with rfl | rfl
  · simp only [step, turned, if_neg outside.1, if_neg other, if_neg outside.2.1,
      if_neg outside.2.2] at stepped
    split at stepped
    · cases stepped
      exact .inr rfl
    · cases stepped
  · simp only [step, turned, if_neg other, if_neg outside.2.1, if_neg outside.2.2] at stepped
    split at stepped
    · cases stepped
      exact .inr rfl
    · cases stepped

/-- In a value without a backslash and without the end of its line. -/
def InValue (reading : Reading) (name : Text) (later : Reading) : Prop :=
  (∃ quoted, later = reading.turned (.value name quoted)) ∨
    later = reading.turned (.valueComment name)

theorem run_value (plain : lineFeed ∉ bytes) (unescaped : 92 ∉ bytes)
    (read : (reading.turned (.value name false)).run bytes = some last) :
    InValue reading name last := by
  apply run_keeps (InValue reading name) _ (.inl ⟨false, rfl⟩) read
  intro byte member before after holds stepped
  have other : byte ≠ lineFeed := fun same => plain (same ▸ member)
  have literal : byte ≠ 92 := fun same => unescaped (same ▸ member)
  rcases holds with ⟨quoted, rfl⟩ | rfl
  · simp only [step, turned, if_neg other, if_neg literal] at stepped
    split at stepped
    · cases stepped
      exact .inl ⟨_, rfl⟩
    · split at stepped
      · cases stepped
        exact .inr rfl
      · cases stepped
        exact .inl ⟨quoted, rfl⟩
  · simp only [step, turned, if_neg other] at stepped
    cases stepped
    exact .inr rfl

/-- The end of the line completes the variable. -/
theorem InValue.ends {later : Reading} (inside : InValue reading name later)
    (stepped : later.step lineFeed = some last) :
    last = reading.give name := by
  rcases inside with ⟨quoted, rfl⟩ | rfl
  · simp only [step, turned, if_true] at stepped
    split at stepped
    · cases stepped
    · cases stepped
      rfl
  · simp only [step, turned, if_true] at stepped
    cases stepped
    rfl

end Reading

/-! ## The two readings of one line -/

/-- The preflight, in a section, and Git, between two lines. -/
structure Agrees (current : Text) (reading : Reading) : Prop where
  started : reading.mode = .start
  section_ : current = [] ∨ reading.header = headerOf current
  allowed : ∀ read ∈ reading.given, read.Allowed

/-- What `decode` leaves of a byte below 128 is white space. -/
theorem space_of_decode {bytes : List Nat} (blank : ∀ unit ∈ Utf8.decode bytes, Text.Space unit) :
    ∀ byte ∈ bytes, byte < 128 → Text.Space byte :=
  fun byte member ascii => blank byte (Utf8.mem_decode ascii member)

variable {reading last : Reading}

/-- The header of a section, with white space after it. -/
theorem header_read {name : Text} (known : name ∈ headings)
    {blanks : List Nat} (started : reading.mode = .start)
    (space : ∀ byte ∈ blanks, byte < 128 → Text.Space byte)
    (read : reading.run ((91 :: name ++ [93]) ++ blanks ++ [lineFeed]) = some last) :
    last = reading.enter (headerOf name) := by
  obtain ⟨header, mode, given⟩ := reading
  cases started
  have opened : (⟨header, .start, given⟩ : Reading).run (91 :: name ++ [93]) =
      some (⟨headerOf name, .start, given⟩ : Reading) := by
    simp only [headings, List.mem_cons, List.not_mem_nil, or_false] at known
    rcases known with rfl | rfl | rfl | rfl
    · rfl
    · rfl
    · rfl
    · rfl
  obtain ⟨middle, before, ends⟩ := Reading.run_append_eq_some.mp read
  obtain ⟨entered, opens, spaces⟩ := Reading.run_append_eq_some.mp before
  rw [opened] at opens
  cases opens
  cases Reading.run_spaces rfl space spaces
  have closes : (⟨headerOf name, .start, given⟩ : Reading).run [lineFeed] =
      some ⟨headerOf name, .start, given⟩ := rfl
  rw [closes] at ends
  exact (Option.some.inj ends).symm

variable {first : Nat}

/-- A field, with white space after it. -/
theorem field_read {letters front back : List Nat}
    (started : reading.mode = .start) (lettered : ∀ byte ∈ first :: letters, Letter byte)
    (space : ∀ byte ∈ front, byte < 128 → Text.Space byte)
    (plain : lineFeed ∉ front) (whole : lineFeed ∉ back) (unescaped : 92 ∉ back)
    (read : reading.run ((first :: letters) ++ (front ++ 61 :: back) ++ [lineFeed]) = some last) :
    last = reading.give ((first :: letters).map Pattern.lower) := by
  have letter := lettered first List.mem_cons_self
  have opened : reading.step first = some (reading.turned (.key [Pattern.lower first])) := by
    unfold Letter at letter
    have other : ¬ (first = lineFeed ∨ Blank first) := by
      unfold Blank lineFeed carriageReturn
      omega
    have code : ¬ OpensComment first := by
      unfold OpensComment
      omega
    rw [Reading.step, started]
    dsimp only
    rw [if_neg other, if_neg code, if_neg (by omega), if_pos (by unfold Letter; omega)]
  obtain ⟨middle, before, ends⟩ := Reading.run_append_eq_some.mp read
  obtain ⟨named, names, values⟩ := Reading.run_append_eq_some.mp before
  rw [Reading.run_cons, opened, Option.bind_some,
    Reading.run_letters _ _ fun byte member => lettered byte (List.mem_cons_of_mem _ member)]
    at names
  cases names
  obtain ⟨equals, spaces, rest⟩ := Reading.run_append_eq_some.mp values
  obtain ⟨valued, stepped, inside⟩ := Reading.run_cons_eq_some.mp rest
  have begins : valued = reading.turned (.value ([Pattern.lower first] ++ letters.map Pattern.lower) false) := by
    rcases Reading.run_afterName plain space spaces with rfl | rfl
    · exact (Option.some.inj stepped).symm
    · exact (Option.some.inj stepped).symm
  subst begins
  obtain ⟨done, last', nothing⟩ := Reading.run_cons_eq_some.mp ends
  cases nothing
  exact (Reading.run_value whole unescaped inside).ends last'

theorem of_heading {text name : Text} (found : heading text = some name) :
    name ∈ headings ∧ text = 91 :: name ++ [93] := by
  have same := List.find?_some (p := fun name => text == 91 :: name ++ [93]) found
  exact ⟨List.mem_of_find?_eq_some found, eq_of_beq same⟩

/-- What a field was made of. -/
theorem of_field {text : Text} {found : Field} (matched : field text = some found) :
    ∃ spaces, text = found.name ++ (spaces ++ 61 :: found.value) ∧
      found.name ≠ [] ∧ (∀ unit ∈ found.name, Letter unit) ∧
      (∀ unit ∈ spaces, Text.Space unit) ∧ lineFeed ∉ found.value := by
  have lettered : ∀ unit ∈ text.takeWhile (fun unit => decide (Letter unit)), Letter unit := by
    intro unit member
    have held := List.mem_takeWhile_imp (p := fun unit => decide (Letter unit)) member
    exact of_decide_eq_true held
  have names := List.takeWhile_append_dropWhile (p := fun unit => decide (Letter unit)) (l := text)
  unfold field at matched
  dsimp only at matched
  generalize text.takeWhile (fun unit => decide (Letter unit)) = name at matched lettered names
  generalize text.dropWhile (fun unit => decide (Letter unit)) = later at matched names
  have spaced : ∀ unit ∈ later.takeWhile (fun unit => decide (Text.Space unit)),
      Text.Space unit := by
    intro unit member
    have held := List.mem_takeWhile_imp (p := fun unit => decide (Text.Space unit)) member
    exact of_decide_eq_true held
  have spaces :=
    List.takeWhile_append_dropWhile (p := fun unit => decide (Text.Space unit)) (l := later)
  generalize later.takeWhile (fun unit => decide (Text.Space unit)) = blanks at spaced spaces
  generalize later.dropWhile (fun unit => decide (Text.Space unit)) = rest at matched spaces
  split at matched
  · rename_i shape
    cases matched
    cases rest with
    | nil => cases shape.2.1
    | cons unit value =>
      cases shape.2.1
      refine ⟨blanks, ?_, shape.1, lettered, spaced, ?_⟩
      · rw [List.tail_cons, spaces, names]
      · intro member
        have := List.all_eq_true.mp shape.2.2 lineFeed member
        simp at this
  · cases matched

/-- What is below 128 in a heading is all of it. -/
theorem ascii_of_headings :
    ∀ name ∈ headings, ∀ unit ∈ 91 :: name ++ [93], unit < 128 := by decide

theorem field_of_bracket {rest : Text} : field (91 :: rest) = none := by
  unfold field
  have none : (91 :: rest).takeWhile (fun unit => decide (Letter unit)) = [] :=
    List.takeWhile_cons_of_neg (by decide)
  simp [none]

variable {later : Text} {tail : List Nat}

theorem agrees_of_header (agrees : Agrees current reading)
    (taken : inspectLine current (91 :: Utf8.decode tail) = some later)
    (read : reading.run ((91 :: tail) ++ [lineFeed]) = some last) :
    Agrees later last := by
  obtain ⟨inner, blanks, trimmed, rest, space⟩ :=
    trim_parts (show ¬ Text.Space 91 by decide) (Utf8.decode tail)
  have shown : heading (91 :: inner) = some later := by
    unfold inspectLine at taken
    dsimp only at taken
    rw [trimmed, field_of_bracket, if_neg (by simp; decide)] at taken
    cases found : heading (91 :: inner) with
    | none =>
      rw [found] at taken
      cases taken
    | some name =>
      rw [found] at taken
      exact taken
  obtain ⟨known, text⟩ := of_heading shown
  have decoded : Utf8.decode (91 :: tail) = (91 :: later ++ [93]) ++ blanks := by
    rw [Utf8.decode_cons_ascii (by decide), rest, ← text]
    rfl
  obtain ⟨spaces, bytes, white⟩ := Utf8.decode_eq_append (ascii_of_headings later known) decoded
  rw [bytes] at read
  rw [header_read known agrees.started (space_of_decode (white ▸ space)) read]
  exact ⟨rfl, .inr rfl, agrees.allowed⟩

theorem agrees_of_field
    (agrees : Agrees current reading) (letter : Letter first) (plain : lineFeed ∉ tail)
    (taken : inspectLine current (first :: Utf8.decode tail) = some later)
    (read : reading.run ((first :: tail) ++ [lineFeed]) = some last) :
    Agrees later last := by
  have range := letter
  unfold Letter at range
  have solid : ¬ Text.Space first := by
    unfold Text.Space
    omega
  have code : ¬ OpensComment first := by
    unfold OpensComment
    omega
  obtain ⟨inner, blanks, trimmed, rest, space⟩ := trim_parts solid (Utf8.decode tail)
  have headless : heading (first :: inner) = none := by
    cases found : heading (first :: inner) with
    | none => rfl
    | some name =>
      have same : first = 91 := (List.cons.inj (of_heading found).2).1
      omega
  unfold inspectLine at taken
  dsimp only at taken
  rw [trimmed, headless, if_neg (by simpa using code), Option.elim_none] at taken
  cases matched : field (first :: inner) with
  | none =>
    rw [matched] at taken
    cases taken
  | some found =>
    rw [matched, Option.elim_some] at taken
    split at taken
    · rename_i takesIt
      cases taken
      obtain ⟨spaces, text, named, lettered, spaced, whole⟩ := of_field matched
      obtain ⟨allowed, chosen, unescaped⟩ := allowed_of_takes takesIt
      have ascii : ∀ unit ∈ found.name, unit < 128 := by
        intro unit member
        have := lettered unit member
        unfold Letter at this
        omega
      have decoded : Utf8.decode (first :: tail) =
          found.name ++ (spaces ++ 61 :: (found.value ++ blanks)) := by
        rw [Utf8.decode_cons_ascii (by omega), rest, ← List.cons_append, text]
        simp
      obtain ⟨after, bytes, shown⟩ := Utf8.decode_eq_append ascii decoded
      have equals : 61 ∉ spaces := fun member => absurd (spaced 61 member) (by decide)
      obtain ⟨front, back, rfl, before, behind⟩ := Utf8.decode_split (by decide) equals shown
      have lineless : lineFeed ∉ first :: tail := by
        have other : lineFeed ≠ first := by
          unfold lineFeed
          omega
        exact fun member => (List.mem_cons.mp member).elim other plain
      rw [bytes] at lineless read
      have plainFront : lineFeed ∉ front := fun member => lineless (by simp [member])
      have plainBack : lineFeed ∉ back := fun member => lineless (by simp [member])
      have literal : 92 ∉ back := by
        intro member
        have inside := Utf8.mem_decode (by decide) member
        rw [behind] at inside
        rcases List.mem_append.mp inside with inside | inside
        · exact unescaped inside
        · exact absurd (space 92 inside) (by decide)
      cases spelled : found.name with
      | nil => exact absurd spelled named
      | cons letter letters =>
        rw [spelled] at lettered read
        have given := field_read agrees.started lettered
          (space_of_decode (before ▸ spaced)) plainFront plainBack literal read
        rw [given]
        refine ⟨rfl, agrees.section_, ?_⟩
        intro variable' member
        rcases List.mem_append.mp member with member | member
        · exact agrees.allowed variable' member
        · rw [List.mem_singleton.mp member, ← spelled, agrees.section_.resolve_left chosen]
          exact allowed
    · cases taken

theorem agrees_of_comment
    (agrees : Agrees current reading) (opens : OpensComment first) (plain : lineFeed ∉ tail)
    (taken : inspectLine current (Utf8.decode (first :: tail)) = some later)
    (read : (reading.turned .comment).run (tail ++ [lineFeed]) = some last) :
    Agrees later last := by
  have range := opens
  unfold OpensComment at range
  have solid : ¬ Text.Space first := by
    unfold Text.Space
    omega
  obtain ⟨inner, blanks, trimmed, _, _⟩ := trim_parts solid (Utf8.decode tail)
  have skipped : inspectLine current (Utf8.decode (first :: tail)) = some current := by
    unfold inspectLine
    dsimp only
    rw [Utf8.decode_cons_ascii (by omega), trimmed, if_pos (by simpa using opens)]
  rw [skipped] at taken
  cases taken
  rw [Reading.run_append, Reading.run_comment plain, Option.bind_some] at read
  have ended : last = (reading.turned .comment).turned .start := (Option.some.inj read).symm
  rw [ended]
  exact ⟨rfl, agrees.section_, agrees.allowed⟩

/-- What the preflight takes of a line, Git reads as it does. -/
theorem agrees_of_line {line : List Nat} (agrees : Agrees current reading) (plain : lineFeed ∉ line)
    (taken : inspectLine current (Utf8.decode line) = some later)
    (read : reading.run (line ++ [lineFeed]) = some last) :
    Agrees later last := by
  have parted := List.takeWhile_append_dropWhile (p := fun byte => decide (Blank byte)) (l := line)
  have blank : ∀ byte ∈ line.takeWhile (fun byte => decide (Blank byte)), Blank byte := by
    intro byte member
    have held := List.mem_takeWhile_imp (p := fun byte => decide (Blank byte)) member
    exact of_decide_eq_true held
  have stops := List.head?_dropWhile_not (fun byte => decide (Blank byte)) line
  generalize line.takeWhile (fun byte => decide (Blank byte)) = blanks at parted blank
  generalize line.dropWhile (fun byte => decide (Blank byte)) = rest at parted stops
  subst parted
  have narrow : ∀ byte ∈ blanks, byte < 128 := by
    intro byte member
    have := blank byte member
    unfold Blank carriageReturn at this
    omega
  have trimmed : inspectLine current (Utf8.decode rest) = some later := by
    unfold inspectLine at taken ⊢
    rwa [Utf8.decode_append narrow,
      trim_blanks fun byte member => space_of_blank (blank byte member)] at taken
  rw [List.append_assoc, Reading.run_append, Reading.run_blanks agrees.started blank,
    Option.bind_some] at read
  have plainRest : lineFeed ∉ rest := fun member => plain (List.mem_append_right _ member)
  cases rest with
  | nil =>
    cases (show some current = some later from trimmed)
    have same := Reading.run_spaces agrees.started (by decide) read
    rw [same]
    exact agrees
  | cons first tail =>
    have solid : ¬ Blank first := by simpa using stops
    have other : first ≠ lineFeed := fun same => plainRest (same ▸ List.mem_cons_self)
    have plainTail : lineFeed ∉ tail := fun member => plainRest (List.mem_cons_of_mem _ member)
    obtain ⟨opened, stepped, followed⟩ := Reading.run_cons_eq_some.mp read
    rw [Reading.step, agrees.started] at stepped
    dsimp only at stepped
    rw [if_neg (not_or.mpr ⟨other, solid⟩)] at stepped
    split at stepped
    · rename_i opens
      cases stepped
      exact agrees_of_comment agrees opens plainTail trimmed followed
    · split at stepped
      · rename_i bracket
        subst bracket
        rw [Utf8.decode_cons_ascii (by decide)] at trimmed
        exact agrees_of_header agrees trimmed read
      · split at stepped
        · rename_i letter
          have ascii : first < 128 := by
            unfold Letter at letter
            omega
          rw [Utf8.decode_cons_ascii ascii] at trimmed
          exact agrees_of_field agrees letter plainTail trimmed read
        · cases stepped

/-! ## The whole file -/

theorem dropReturns_append {front : List Nat} (high : ∀ unit ∈ front, 128 ≤ unit)
    (rest : List Nat) :
    dropReturns (front ++ rest) = front ++ dropReturns rest := by
  induction front with
  | nil => rfl
  | cons unit front ih =>
    have other : ¬ (unit = carriageReturn ∧ (front ++ rest).head? = some lineFeed) := by
      have := high unit List.mem_cons_self
      unfold carriageReturn
      omega
    rw [List.cons_append, dropReturns, if_neg other,
      ih fun unit member => high unit (List.mem_cons_of_mem _ member)]
    rfl

theorem dropReturns_decodeFrom {state : Utf8.State} (sound : state.Sound) (bytes : List Nat) :
    dropReturns (Utf8.decodeFrom state bytes) = Utf8.decodeFrom state (dropReturns bytes) := by
  induction bytes generalizing state with
  | nil =>
    have whole := dropReturns_append (Utf8.le_brokenOff state) []
    rw [List.append_nil] at whole
    exact whole.trans (List.append_nil _)
  | cons byte rest ih =>
    have later := ih Utf8.sound_between
    by_cases ascii : byte < 128
    · rw [Utf8.decodeFrom_cons_ascii sound ascii, dropReturns_append (Utf8.le_brokenOff state)]
      by_cases dropped : byte = carriageReturn ∧ rest.head? = some lineFeed
      · obtain ⟨tail, rfl⟩ := List.head?_eq_some_iff.mp dropped.2
        have ended : (Utf8.decode (lineFeed :: tail)).head? = some lineFeed := by
          rw [Utf8.decode_cons_ascii (by decide)]
          rfl
        rw [dropReturns, if_pos ⟨dropped.1, ended⟩, dropReturns, if_pos dropped]
        rw [Utf8.decode, later, dropReturns, if_neg (by simp [lineFeed, carriageReturn]),
          Utf8.decodeFrom_cons_ascii sound (by decide),
          Utf8.decodeFrom_cons_ascii Utf8.sound_between (by decide)]
        rfl
      · have kept : ¬ (byte = carriageReturn ∧ (Utf8.decode rest).head? = some lineFeed) := by
          rintro ⟨same, ended⟩
          obtain ⟨text, decoded⟩ := List.head?_eq_some_iff.mp ended
          obtain ⟨tail, rfl, _⟩ := Utf8.decode_eq_cons (by decide) decoded
          exact dropped ⟨same, rfl⟩
        rw [dropReturns, if_neg kept, dropReturns, if_neg dropped,
          Utf8.decodeFrom_cons_ascii sound ascii, Utf8.decode, later]
        rfl
    · have high : 128 ≤ byte := Nat.not_lt.mp ascii
      have other : ¬ (byte = carriageReturn ∧ rest.head? = some lineFeed) := by
        unfold carriageReturn
        omega
      rw [dropReturns, if_neg other, Utf8.decodeFrom, Utf8.decodeFrom,
        dropReturns_append (Utf8.le_advance sound high),
        ih (Utf8.sound_advance sound byte)]

/-- Bytes without the carriage returns that end lines are decoded to the text without them. -/
theorem dropReturns_decode (bytes : List Nat) :
    dropReturns (Utf8.decode bytes) = Utf8.decode (dropReturns bytes) :=
  dropReturns_decodeFrom Utf8.sound_between bytes

/-- What the preflight takes, Git reads as it does. -/
theorem agrees_of_lines {bytes : List Nat} (agrees : Agrees current reading)
    (taken : (inspectLines current ((Utf8.decode bytes).splitOn lineFeed)).isSome)
    (read : reading.run (bytes ++ [lineFeed]) = some last) :
    ∃ later, Agrees later last := by
  induction size : bytes.length using Nat.strongRecOn generalizing bytes current reading with
  | ind size ih =>
    by_cases ends : lineFeed ∈ bytes
    · obtain ⟨front, rest, rfl, plain⟩ := List.eq_append_cons_of_mem ends
      have whole : lineFeed ∉ Utf8.decode front := fun member =>
        plain (Utf8.mem_of_mem_decode (by decide) member)
      rw [Utf8.decode_append_ascii front (by decide), List.splitOn_append_cons_self,
        List.splitOn_eq_singleton whole, List.singleton_append, inspectLines] at taken
      rw [List.append_assoc, ← List.singleton_append, List.append_assoc,
        ← List.append_assoc] at read
      obtain ⟨middle, first, others⟩ := Reading.run_append_eq_some.mp read
      cases inspected : inspectLine current (Utf8.decode front) with
      | none =>
        rw [inspected] at taken
        cases taken
      | some later =>
        rw [inspected, Option.bind_some] at taken
        refine ih rest.length ?_ (agrees_of_line agrees plain inspected first) taken others rfl
        rw [← size, List.length_append, List.length_cons]
        omega
    · have whole : lineFeed ∉ Utf8.decode bytes := fun member =>
        ends (Utf8.mem_of_mem_decode (by decide) member)
      rw [List.splitOn_eq_singleton whole, inspectLines] at taken
      cases inspected : inspectLine current (Utf8.decode bytes) with
      | none =>
        rw [inspected] at taken
        cases taken
      | some later => exact ⟨later, agrees_of_line agrees ends inspected read⟩

/-- Whatever Git reads from a configuration that the preflight takes, it is allowed to set. -/
theorem preflight_admits_allowed {bytes : List Nat} {read : List Variable}
    (accepted : preflight bytes = true) (parsed : gitVariables bytes = some read) :
    ∀ setting ∈ read, setting.Allowed ∧ ¬ setting.Foreign := by
  obtain ⟨last, ran, given⟩ := Option.map_eq_some_iff.mp parsed
  have taken := (Bool.and_eq_true_iff.mp accepted).2
  rw [splitLines, dropReturns_decode] at taken
  have begun : Agrees [] Reading.initial :=
    ⟨rfl, .inl rfl, fun setting member => absurd member List.not_mem_nil⟩
  rw [← List.singleton_append, ← List.append_assoc] at ran
  obtain ⟨middle, lines, ends⟩ := Reading.run_append_eq_some.mp ran
  obtain ⟨later, agrees⟩ := agrees_of_lines begun taken lines
  have same := Reading.run_spaces agrees.started (by decide) ends
  subst same
  intro setting member
  have allowed := agrees.allowed setting (given ▸ member)
  exact ⟨allowed, allowed.not_foreign⟩

/-- A header, a comment and three variables, with both ends of a line. -/
def ordinaryConfig : List Nat :=
  Text.units "[core]\r\n\tbare = false\n; kept\n[remote \"origin\"]\n\turl = \"a;b\" # c\n\tfetch =x"

theorem preflight_admits_ordinary :
    (⟨⟨Text.units "remote", some (Text.units "origin")⟩, Text.units "url"⟩ : Variable).Allowed ∧
      ¬ (⟨⟨Text.units "core", none⟩, Text.units "bare"⟩ : Variable).Foreign :=
  have read : gitVariables ordinaryConfig = some [⟨⟨Text.units "core", none⟩, Text.units "bare"⟩,
        ⟨⟨Text.units "remote", some (Text.units "origin")⟩, Text.units "url"⟩,
        ⟨⟨Text.units "remote", some (Text.units "origin")⟩, Text.units "fetch"⟩] := by decide
  have admitted := preflight_admits_allowed (show preflight ordinaryConfig = true by decide) read
  ⟨(admitted _ (by simp)).1, (admitted _ (by simp)).2⟩

example : preflight (Text.units "[core]\n[include]\n\tpath = x") = false := by decide

end GitConfig
end Dispatch
end Scrum4Me
