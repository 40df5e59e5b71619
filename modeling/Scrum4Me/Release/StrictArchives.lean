import Scrum4Me.Release.Fields

/-!
# Strict archives

What an archive is made of, for a given way to read numbers. The check accepts exactly
the archives whose numbers it can read; those that are strict besides have nothing but
plain bytes in their numbers.
-/

namespace Scrum4Me
namespace Release

/-! ## Members -/

/-- A header of ustar. -/
structure HeaderOf
    (number : Bytes → Nat → Prop) (header : Bytes) (path : Codes) (isDirectory : Bool) :
    Prop where
  magic : field header 257 6 = [117, 115, 116, 97, 114, 0]
  version : field header 263 2 = [48, 48]
  checksum : number (field header 148 8) (checksum header)
  mode : ∃ value, number (field header 100 8) value
  owner : ∃ value, number (field header 108 8) value
  group : ∃ value, number (field header 116 8) value
  modified : ∃ value, number (field header 136 12) value
  ownerName : ∃ text, TextField (field header 265 32) text
  groupName : ∃ text, TextField (field header 297 32) text
  major : Optionally number (field header 329 8)
  minor : Optionally number (field header 337 8)
  reserved : ∀ byte ∈ field header 500 12, byte = 0
  type : header.getD 156 0 = 0 ∨ header.getD 156 0 = 0x30 ∨ header.getD 156 0 = 0x35
  directory : isDirectory = decide (header.getD 156 0 = 0x35)
  linkTarget : TextField (field header 157 100) []
  path : ∃ leading name, TextField (field header 345 155) leading ∧
    TextField (field header 0 100) name ∧
      MemberPath (if leading = [] then name else leading ++ slash :: name) isDirectory path

structure Member where
  header : Bytes
  path : Codes
  data : Bytes
  padding : Bytes

def Member.bytes (member : Member) : Bytes :=
  member.header ++ (member.data ++ member.padding)

structure Member.Valid (number : Bytes → Nat → Prop) (member : Member) : Prop where
  whole : member.header.length = blockBytes
  header : ∃ isDirectory, HeaderOf number member.header member.path isDirectory ∧
    (isDirectory = true → member.data = [])
  size : number (field member.header 124 12) member.data.length
  padded : member.data.length + member.padding.length = paddedSize member.data.length
  zeros : ∀ byte ∈ member.padding, byte = 0

/-- The archive is these members, none twice, and at least two blocks of zeros. -/
def Consists (number : Bytes → Nat → Prop) (archive : Bytes) (members : List Member) :
    Prop :=
  (∀ member ∈ members, member.Valid number) ∧ (members.map Member.path).Nodup ∧
    ∃ blocks, 2 ≤ blocks ∧
      archive = members.flatMap Member.bytes ++ List.replicate (blocks * blockBytes) 0

/-! ## What the check reads -/

variable {path : Codes} {header : Bytes}

theorem readHeader_ok {read : ReadHeader} :
    readHeader header = .ok read ↔ HeaderOf LooseNumber header read.path read.isDirectory := by
  unfold readHeader
  simp only [bind_ok, reject_ok, exists_const, not_or, not_not, tarOctal_ok (show 8 ≤ 12 by decide),
    tarOctal_ok (show 12 ≤ 12 by decide), tarString_ok]
  constructor
  · rintro ⟨⟨magic, version⟩, expected, checksumField, same, mode, modeField, owner, ownerField,
      group, groupField, modified, modifiedField, ownerName, ownerNameField, groupName,
      groupNameField, major, majorField, minor, minorField, reserved, type, linkTarget,
      linkField, empty, leading, leadingField, name, nameField, path, pathRead, returned⟩
    cases returned
    subst same empty
    exact {
      magic
      version
      checksum := checksumField
      mode := ⟨mode, modeField⟩
      owner := ⟨owner, ownerField⟩
      group := ⟨group, groupField⟩
      modified := ⟨modified, modifiedField⟩
      ownerName := ⟨ownerName, ownerNameField⟩
      groupName := ⟨groupName, groupNameField⟩
      major := (tarOptionalOctal_ok (by decide)).mp ⟨major, majorField⟩
      minor := (tarOptionalOctal_ok (by decide)).mp ⟨minor, minorField⟩
      reserved := by simpa using reserved
      type := by
        by_contra! other
        exact type ⟨⟨other.1, other.2.1⟩, by simpa using other.2.2⟩
      directory := rfl
      linkTarget := linkField
      path := ⟨leading, name, leadingField, nameField, memberPath_ok.mp pathRead⟩ }
  · intro shape
    obtain ⟨mode, modeField⟩ := shape.mode
    obtain ⟨owner, ownerField⟩ := shape.owner
    obtain ⟨group, groupField⟩ := shape.group
    obtain ⟨modified, modifiedField⟩ := shape.modified
    obtain ⟨ownerName, ownerNameField⟩ := shape.ownerName
    obtain ⟨groupName, groupNameField⟩ := shape.groupName
    obtain ⟨major, majorField⟩ := (tarOptionalOctal_ok (by decide)).mpr shape.major
    obtain ⟨minor, minorField⟩ := (tarOptionalOctal_ok (by decide)).mpr shape.minor
    obtain ⟨leading, name, leadingField, nameField, pathRead⟩ := shape.path
    refine ⟨⟨shape.magic, shape.version⟩, _, shape.checksum, rfl, mode, modeField, owner,
      ownerField, group, groupField, modified, modifiedField, ownerName, ownerNameField,
      groupName, groupNameField, major, majorField, minor, minorField,
      by simpa using shape.reserved, ?_, [], shape.linkTarget, rfl, leading, leadingField, name,
      nameField, read.path, memberPath_ok.mpr (shape.directory ▸ pathRead), ?_⟩
    · rintro ⟨notRegular, notDirectory⟩
      rcases shape.type with old | regular | directory
      · exact notRegular.1 old
      · exact notRegular.2 regular
      · exact notDirectory (decide_eq_true directory)
    · rw [← shape.directory]
      rfl

variable {seen : List Codes}

theorem readMember_ok {data : Bytes} {taken : Nat} :
    readMember header data seen = .ok (path, taken) ↔
      ∃ isDirectory size, HeaderOf LooseNumber header path isDirectory ∧ path ∉ seen ∧
        LooseNumber (field header 124 12) size ∧ (isDirectory = true → size = 0) ∧
          taken = paddedSize size ∧ taken ≤ data.length ∧
            ∀ byte ∈ (data.take taken).drop size, byte = 0 := by
  unfold readMember
  simp only [bind_ok, reject_ok, exists_const, readHeader_ok, tarOctal_ok (show 12 ≤ 12 by decide)]
  constructor
  · rintro ⟨read, shape, fresh, size, sizeField, directory, fits, zeros, returned⟩
    cases returned
    exact ⟨read.isDirectory, size, shape, fresh, sizeField, by simpa using directory, rfl,
      by simpa using fits, by simpa using zeros⟩
  · rintro ⟨isDirectory, size, shape, fresh, sizeField, directory, rfl, fits, zeros⟩
    exact ⟨⟨path, isDirectory⟩, shape, fresh, size, sizeField, by simpa using directory,
      by simpa using fits, by simpa using zeros, rfl⟩

variable {number : Bytes → Nat → Prop} {archive : Bytes} {member : Member}

theorem HeaderOf.not_zero {isDirectory : Bool} (shape : HeaderOf number header path isDirectory) :
    isZeroTarBlock header = false := by
  by_contra zeros
  rw [Bool.not_eq_false, isZeroTarBlock, List.all_eq_true] at zeros
  have inside : (117 : UInt8) ∈ field header 257 6 := by
    rw [shape.magic]
    exact List.mem_cons_self
  have zero := zeros _ (List.mem_of_mem_drop (List.mem_of_mem_take inside))
  exact absurd zero (by decide)

theorem paddedSize_mod (size : Nat) : paddedSize size % blockBytes = 0 := Nat.mul_mod_left _ _

theorem le_paddedSize (size : Nat) : size ≤ paddedSize size := by
  unfold paddedSize blockBytes
  omega

variable {rest : Bytes}

/-- What follows a member that was read, and the member. -/
theorem exists_member {taken : Nat} (whole : blockBytes ≤ rest.length)
    (read : readMember (rest.take blockBytes) (rest.drop blockBytes) seen = .ok (path, taken)) :
    ∃ member : Member, member.Valid LooseNumber ∧ member.path = path ∧ path ∉ seen ∧
      rest = member.bytes ++ (rest.drop blockBytes).drop taken := by
  obtain ⟨isDirectory, size, shape, fresh, sizeField, directory, rfl, fits, zeros⟩ :=
    readMember_ok.mp read
  have small := le_paddedSize size
  have length : ((rest.drop blockBytes).take size).length = size := by
    rw [List.length_take]
    omega
  have joined : (rest.drop blockBytes).take size ++
      ((rest.drop blockBytes).take (paddedSize size)).drop size =
        (rest.drop blockBytes).take (paddedSize size) := by
    conv_rhs => rw [← List.take_append_drop size ((rest.drop blockBytes).take (paddedSize size))]
    rw [List.take_take, Nat.min_eq_left small]
  refine ⟨⟨rest.take blockBytes, path, (rest.drop blockBytes).take size,
    ((rest.drop blockBytes).take (paddedSize size)).drop size⟩, ?_, rfl, fresh, ?_⟩
  · exact {
      whole := by rw [List.length_take, Nat.min_eq_left whole]
      header := ⟨isDirectory, shape, fun isOne => by
        rw [directory isOne]
        rfl⟩
      size := by rw [length]; exact sizeField
      padded := by
        rw [← List.length_append, joined, List.length_take, length]
        exact Nat.min_eq_left fits
      zeros }
  · rw [Member.bytes, joined, List.append_assoc, List.take_append_drop, List.take_append_drop]

/-- The rest of an archive, after members with these paths. -/
def Continues (number : Bytes → Nat → Prop) (rest : Bytes) (seen : List Codes)
    (members : List Member) :
    Prop :=
  Consists number rest members ∧ ∀ member ∈ members, member.path ∉ seen

variable {members : List Member}

theorem Continues.cons (valid : member.Valid number) (fresh : member.path ∉ seen)
    (later : Continues number rest (member.path :: seen) members) :
    Continues number (member.bytes ++ rest) seen (member :: members) := by
  obtain ⟨⟨each, apart, blocks, two, shape⟩, unseen⟩ := later
  refine ⟨⟨?_, ?_, blocks, two, ?_⟩, ?_⟩
  · exact List.forall_mem_cons.mpr ⟨valid, each⟩
  · rw [List.map_cons, List.nodup_cons]
    refine ⟨fun again => ?_, apart⟩
    obtain ⟨other, inside, same⟩ := List.mem_map.mp again
    exact unseen other inside (same ▸ List.mem_cons_self)
  · rw [shape, List.flatMap_cons, List.append_assoc]
  · exact List.forall_mem_cons.mpr ⟨fresh, fun other inside again =>
      unseen other inside (List.mem_cons_of_mem _ again)⟩

theorem zeros_of_end (aligned : rest.length % blockBytes = 0)
    (first : isZeroTarBlock (rest.take blockBytes) = true)
    (ends : ¬ (((rest.drop blockBytes).take blockBytes).length ≠ blockBytes ∨
      ¬ isZeroTarBlock ((rest.drop blockBytes).take blockBytes) = true ∨
        ¬ ((rest.drop blockBytes).drop blockBytes).all (· = 0) = true)) :
    ∃ blocks, 2 ≤ blocks ∧ rest = List.replicate (blocks * blockBytes) 0 := by
  simp only [not_or, not_not] at ends
  obtain ⟨two, second, zeros⟩ := ends
  have length : rest.length / blockBytes * blockBytes = rest.length :=
    Nat.div_mul_cancel (Nat.dvd_of_mod_eq_zero aligned)
  refine ⟨rest.length / blockBytes, ?_, ?_⟩
  · rw [List.length_take, List.length_drop] at two
    unfold blockBytes at two length ⊢
    omega
  · rw [length, List.eq_replicate_iff]
    refine ⟨rfl, fun byte member => ?_⟩
    rw [← List.take_append_drop blockBytes rest, ← List.take_append_drop blockBytes
      (rest.drop blockBytes)] at member
    rcases List.mem_append.mp member with front | member
    · exact of_decide_eq_true (List.all_eq_true.mp first byte front)
    · rcases List.mem_append.mp member with middle | back
      · exact of_decide_eq_true (List.all_eq_true.mp second byte middle)
      · exact of_decide_eq_true (List.all_eq_true.mp zeros byte back)

theorem continues_of_scan (aligned : rest.length % blockBytes = 0)
    (accepted : scan rest seen = .ok ()) :
    ∃ members, Continues LooseNumber rest seen members := by
  fun_induction scan rest seen with
  | case1 => cases accepted
  | case2 rest seen nonempty header data zero =>
    obtain ⟨blocks, two, shape⟩ := zeros_of_end aligned zero (reject_ok.mp accepted)
    refine ⟨[], ⟨?_, List.nodup_nil, blocks, two, by rw [shape]; rfl⟩, ?_⟩
    · exact List.forall_mem_nil _
    · exact List.forall_mem_nil _
  | case3 rest seen nonempty header data some ih =>
    obtain ⟨⟨path, taken⟩, read, accepted⟩ := bind_ok.mp accepted
    have whole : blockBytes ≤ rest.length :=
      Nat.le_of_dvd (List.length_pos_iff.mpr nonempty) (Nat.dvd_of_mod_eq_zero aligned)
    obtain ⟨member, valid, rfl, fresh, shape⟩ := exists_member whole read
    obtain ⟨isDirectory, size, -, -, -, -, block, fits, -⟩ := readMember_ok.mp read
    have later : (data.drop taken).length % blockBytes = 0 := by
      have padded := paddedSize_mod size
      rw [← block] at padded
      change taken ≤ (rest.drop blockBytes).length at fits
      change ((rest.drop blockBytes).drop taken).length % blockBytes = 0
      rw [List.length_drop] at fits
      rw [List.length_drop, List.length_drop]
      unfold blockBytes at *
      omega
    obtain ⟨members, continues⟩ := ih _ later accepted
    exact ⟨member :: members, shape ▸ continues.cons valid fresh⟩

theorem isZeroTarBlock_replicate (count : Nat) :
    isZeroTarBlock (List.replicate count 0) = true := by
  simp [isZeroTarBlock]

theorem scan_zeros {blocks : Nat} (two : 2 ≤ blocks) (seen : List Codes) :
    scan (List.replicate (blocks * blockBytes) 0) seen = .ok () := by
  have long : blockBytes + blockBytes ≤ blocks * blockBytes := by
    rw [← Nat.two_mul]
    exact Nat.mul_le_mul_right _ two
  have some : 0 < blockBytes := by decide
  rw [scan.eq_def, dif_neg, if_pos, reject_ok]
  · simp only [List.take_replicate, List.drop_replicate, List.length_replicate, not_or, not_not,
      isZeroTarBlock_replicate, List.all_replicate]
    refine ⟨?_, trivial, by simp⟩
    omega
  · rw [List.take_replicate]
    exact isZeroTarBlock_replicate _
  · rw [List.replicate_eq_nil_iff]
    omega

theorem scan_of_continues (continues : Continues LooseNumber rest seen members) :
    scan rest seen = .ok () := by
  induction members generalizing rest seen with
  | nil =>
    obtain ⟨⟨-, -, blocks, two, rfl⟩, -⟩ := continues
    exact scan_zeros two seen
  | cons member members ih =>
    obtain ⟨⟨each, apart, blocks, two, rfl⟩, unseen⟩ := continues
    obtain ⟨valid, each⟩ := List.forall_mem_cons.mp each
    obtain ⟨fresh, unseen⟩ := List.forall_mem_cons.mp unseen
    rw [List.map_cons, List.nodup_cons] at apart
    obtain ⟨isDirectory, shape, directory⟩ := valid.header
    rw [List.flatMap_cons, Member.bytes, List.append_assoc, List.append_assoc, List.append_assoc]
    generalize later : members.flatMap Member.bytes ++ List.replicate (blocks * blockBytes) 0 = tail
    have front : (member.header ++ (member.data ++ (member.padding ++ tail))).take blockBytes =
        member.header := by
      rw [← valid.whole, List.take_left]
    have back : (member.header ++ (member.data ++ (member.padding ++ tail))).drop blockBytes =
        member.data ++ (member.padding ++ tail) := by
      rw [← valid.whole, List.drop_left]
    have taken : (member.data ++ (member.padding ++ tail)).take
        (paddedSize member.data.length) = member.data ++ member.padding := by
      rw [← List.append_assoc, ← valid.padded, ← List.length_append, List.take_left]
    have left : (member.data ++ (member.padding ++ tail)).drop
        (paddedSize member.data.length) = tail := by
      rw [← List.append_assoc, ← valid.padded, ← List.length_append, List.drop_left]
    have read : readMember member.header (member.data ++ (member.padding ++ tail)) seen =
        .ok (member.path, paddedSize member.data.length) := by
      refine readMember_ok.mpr ⟨isDirectory, member.data.length, shape, fresh, valid.size,
        fun isOne => ?_, rfl, ?_, ?_⟩
      · rw [directory isOne]
        rfl
      · rw [← valid.padded, List.length_append, List.length_append]
        omega
      · rw [taken, List.drop_left]
        exact valid.zeros
    rw [scan.eq_def, dif_neg, front, back, if_neg (by simp [shape.not_zero]), read]
    · change scan ((member.data ++ (member.padding ++ tail)).drop
        (paddedSize member.data.length)) (member.path :: seen) = _
      rw [left]
      refine ih ⟨⟨each, apart.2, blocks, two, later.symm⟩, ?_⟩
      intro other inside again
      rcases List.mem_cons.mp again with same | again
      · exact apart.1 (same ▸ List.mem_map.mpr ⟨other, inside, rfl⟩)
      · exact unseen other inside again
    · intro none
      have size := congrArg List.length none
      rw [List.length_append, valid.whole] at size
      exact absurd size (by unfold blockBytes; simp)

/-- The archive that is made of members is a sequence of blocks. -/
theorem Consists.aligned (consists : Consists number archive members) :
    archive.length % blockBytes = 0 := by
  obtain ⟨each, -, blocks, -, rfl⟩ := consists
  have whole : (members.flatMap Member.bytes).length % blockBytes = 0 := by
    induction members with
    | nil => rfl
    | cons member members ih =>
      obtain ⟨valid, each⟩ := List.forall_mem_cons.mp each
      have later := ih each
      have padded := paddedSize_mod member.data.length
      rw [← valid.padded] at padded
      have header := valid.whole
      rw [List.flatMap_cons, List.length_append, Member.bytes, List.length_append,
        List.length_append]
      unfold blockBytes at *
      omega
  rw [List.length_append, List.length_replicate, Nat.add_mul_mod_self_right, whole]

/-- The check accepts exactly what consists of members with numbers it can read. -/
theorem preflight_ok :
    preflightReleaseArchive (some archive) = .ok () ↔
      ∃ members, Consists LooseNumber archive members := by
  unfold preflightReleaseArchive
  rw [Option.elim_some]
  constructor
  · intro accepted
    split at accepted
    · cases accepted
    · rename_i aligned
      obtain ⟨members, consists, -⟩ := continues_of_scan (not_not.mp aligned) accepted
      exact ⟨members, consists⟩
  · rintro ⟨members, consists⟩
    rw [if_neg (not_not.mpr consists.aligned)]
    exact scan_of_continues ⟨consists, fun _ _ => List.not_mem_nil⟩

/-! ## Strict archives -/

/-- Where the numbers of a header stand. -/
def numberFields : List (Nat × Nat) :=
  [(100, 8), (108, 8), (116, 8), (124, 12), (136, 12), (148, 8), (329, 8), (337, 8)]

def PlainNumbers (header : Bytes) : Prop :=
  ∀ place ∈ numberFields, PlainField (field header place.1 place.2)

theorem Member.valid_strict_iff :
    member.Valid StrictNumber ↔ member.Valid LooseNumber ∧ PlainNumbers member.header := by
  unfold PlainNumbers numberFields
  simp only [List.forall_mem_cons, List.not_mem_nil, false_implies, implies_true, and_true]
  constructor
  · rintro ⟨whole, ⟨isDirectory, shape, directory⟩, size, padded, zeros⟩
    obtain ⟨mode, modePlain⟩ := exists_strict_iff.mp shape.mode
    obtain ⟨owner, ownerPlain⟩ := exists_strict_iff.mp shape.owner
    obtain ⟨group, groupPlain⟩ := exists_strict_iff.mp shape.group
    obtain ⟨modified, modifiedPlain⟩ := exists_strict_iff.mp shape.modified
    obtain ⟨major, majorPlain⟩ := optionally_strict_iff.mp shape.major
    obtain ⟨minor, minorPlain⟩ := optionally_strict_iff.mp shape.minor
    obtain ⟨checksum, checksumPlain⟩ := strictNumber_iff.mp shape.checksum
    obtain ⟨size, sizePlain⟩ := strictNumber_iff.mp size
    have loose : HeaderOf LooseNumber member.header member.path isDirectory :=
      { shape with
        mode := mode
        owner := owner
        group := group
        modified := modified
        major := major
        minor := minor
        checksum := checksum }
    exact ⟨⟨whole, ⟨isDirectory, loose, directory⟩, size, padded, zeros⟩, modePlain, ownerPlain,
      groupPlain, sizePlain, modifiedPlain, checksumPlain, majorPlain, minorPlain⟩
  · rintro ⟨⟨whole, ⟨isDirectory, shape, directory⟩, size, padded, zeros⟩, modePlain, ownerPlain,
      groupPlain, sizePlain, modifiedPlain, checksumPlain, majorPlain, minorPlain⟩
    have strict : HeaderOf StrictNumber member.header member.path isDirectory :=
      { shape with
        mode := exists_strict_iff.mpr ⟨shape.mode, modePlain⟩
        owner := exists_strict_iff.mpr ⟨shape.owner, ownerPlain⟩
        group := exists_strict_iff.mpr ⟨shape.group, groupPlain⟩
        modified := exists_strict_iff.mpr ⟨shape.modified, modifiedPlain⟩
        major := optionally_strict_iff.mpr ⟨shape.major, majorPlain⟩
        minor := optionally_strict_iff.mpr ⟨shape.minor, minorPlain⟩
        checksum := strictNumber_iff.mpr ⟨shape.checksum, checksumPlain⟩ }
    exact ⟨whole, ⟨isDirectory, strict, directory⟩, strictNumber_iff.mpr ⟨size, sizePlain⟩,
      padded, zeros⟩

theorem consists_strict_iff :
    Consists StrictNumber archive members ↔ Consists LooseNumber archive members ∧
        ∀ member ∈ members, PlainNumbers member.header := by
  unfold Consists
  simp only [Member.valid_strict_iff]
  constructor
  · rintro ⟨each, rest⟩
    exact ⟨⟨fun member inside => (each member inside).1, rest⟩,
      fun member inside => (each member inside).2⟩
  · rintro ⟨⟨each, rest⟩, plain⟩
    exact ⟨fun member inside => ⟨each member inside, plain member inside⟩, rest⟩

/-! ## One reading -/

/-- Members that start the same bytes are the same. -/
theorem Member.Valid.unique
    {first second : Member} {rest' : Bytes} (valid : first.Valid LooseNumber)
    (valid' : second.Valid LooseNumber) (same : first.bytes ++ rest = second.bytes ++ rest') :
    first = second ∧ rest = rest' := by
  obtain ⟨header, path, data, padding⟩ := first
  obtain ⟨header', path', data', padding'⟩ := second
  simp only [Member.bytes, List.append_assoc] at same
  obtain ⟨rfl, afterHeader⟩ := List.append_inj same (valid.whole.trans valid'.whole.symm)
  obtain ⟨isDirectory, shape, -⟩ := valid.header
  obtain ⟨isDirectory', shape', -⟩ := valid'.header
  have read := (@readHeader_ok header ⟨path, isDirectory⟩).mpr shape
  rw [(@readHeader_ok header ⟨path', isDirectory'⟩).mpr shape'] at read
  obtain ⟨rfl, rfl⟩ := ReadHeader.mk.inj (Except.ok.inj read)
  have length : data.length = data'.length := valid.size.unique (by decide) valid'.size
  obtain ⟨rfl, afterData⟩ := List.append_inj afterHeader length
  have padded := valid.padded.trans valid'.padded.symm
  obtain ⟨rfl, rfl⟩ := List.append_inj afterData (Nat.add_left_cancel padded)
  exact ⟨rfl, rfl⟩

theorem Member.Valid.not_zeros {count : Nat} (valid : member.Valid number) :
    member.bytes ++ rest ≠ List.replicate count 0 := by
  intro same
  obtain ⟨isDirectory, shape, -⟩ := valid.header
  have zero : isZeroTarBlock member.header = true := by
    refine List.all_eq_true.mpr fun byte inside => decide_eq_true ?_
    have member' : byte ∈ List.replicate count (0 : UInt8) := by
      rw [← same, Member.bytes, List.append_assoc]
      exact List.mem_append_left _ inside
    exact List.eq_of_mem_replicate member'
  rw [shape.not_zero] at zero
  cases zero

/-- An archive consists of its members in one way only. -/
theorem Consists.unique {members' : List Member} (first : Consists LooseNumber archive members)
    (second : Consists LooseNumber archive members') :
    members = members' := by
  obtain ⟨each, -, blocks, -, rfl⟩ := first
  obtain ⟨each', -, blocks', -, same⟩ := second
  induction members generalizing members' with
  | nil =>
    cases members' with
    | nil => rfl
    | cons member' members' =>
      rw [List.flatMap_cons, List.append_assoc] at same
      exact absurd same.symm (each' member' List.mem_cons_self).not_zeros
  | cons member members ih =>
    obtain ⟨valid, each⟩ := List.forall_mem_cons.mp each
    cases members' with
    | nil =>
      rw [List.flatMap_cons, List.append_assoc] at same
      exact absurd same valid.not_zeros
    | cons member' members' =>
      obtain ⟨valid', others⟩ := List.forall_mem_cons.mp each'
      rw [List.flatMap_cons, List.flatMap_cons, List.append_assoc, List.append_assoc] at same
      obtain ⟨rfl, later⟩ := valid.unique valid' same
      rw [ih each others later]

def zeroBytes (count : Nat) : Bytes := List.replicate count 0

/-- The header of an empty file `a`; the last digit of its mode is `4` with the highest
bit. -/
def maskedHeader : Bytes :=
  [97] ++ zeroBytes 99 ++ [48, 48, 48, 48, 54, 52, 180, 0] ++ List.replicate 7 48 ++ zeroBytes 1 ++
    List.replicate 7 48 ++ zeroBytes 1 ++ List.replicate 11 48 ++ zeroBytes 1 ++
      List.replicate 11 48 ++ zeroBytes 1 ++ [48, 48, 54, 50, 55, 54, 0, 32] ++ [48] ++
        zeroBytes 100 ++ [117, 115, 116, 97, 114, 0, 48, 48] ++ zeroBytes 247

def maskedArchive : Bytes := maskedHeader ++ List.replicate (2 * blockBytes) 0

def maskedMember : Member := ⟨maskedHeader, [97], [], []⟩

theorem consists_masked : Consists LooseNumber maskedArchive [maskedMember] := by
  have read : readHeader maskedHeader = .ok ⟨[97], false⟩ := by decide +kernel
  have size : tarOctal maskedHeader 124 12 = .ok 0 := by decide +kernel
  refine ⟨fun member inside => ?_, by simp, 2, le_rfl,
    by simp [maskedArchive, maskedMember, Member.bytes]⟩
  rw [List.mem_singleton.mp inside]
  exact {
    whole := by decide +kernel
    header := ⟨false, readHeader_ok.mp read, fun isOne => by cases isOne⟩
    size := (tarOctal_ok (by decide)).mp size
    padded := by decide
    zeros := List.forall_mem_nil _ }

end Release
end Scrum4Me
