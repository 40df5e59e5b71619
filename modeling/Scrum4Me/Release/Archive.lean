import Mathlib.Algebra.Order.Ring.Nat
import Mathlib.Data.List.DropRight

/-!
# The archive of a release

`preflightReleaseArchive` walks the blocks of the decompressed archive before anything
is extracted from it.
-/

namespace Scrum4Me
namespace Release

abbrev Bytes := List UInt8

/-- The codes of the characters of a text. -/
abbrev Codes := List Nat

inductive ArchiveError
  | encodingUnsupported
  | truncated
  | endMarkerInvalid
  | headerInvalid
  | checksumMismatch
  | memberTypeInvalid (type : UInt8)
  | linkTarget
  | rootNoDirectory
  | memberPathInvalid (rawPath : Codes)
  | memberDuplicate (path : Codes)
  deriving DecidableEq

def codesText (codes : Codes) : String := String.ofList (codes.map Char.ofNat)

def ArchiveError.text : ArchiveError → String
  | .encodingUnsupported => "PACKAGE_ARCHIVE_ENCODING_UNSUPPORTED"
  | .truncated => "PACKAGE_ARCHIVE_TRUNCATED"
  | .endMarkerInvalid => "PACKAGE_ARCHIVE_END_MARKER_INVALID"
  | .headerInvalid => "PACKAGE_ARCHIVE_HEADER_INVALID"
  | .checksumMismatch => "PACKAGE_ARCHIVE_CHECKSUM_MISMATCH"
  | .memberTypeInvalid type =>
      "PACKAGE_ARCHIVE_MEMBER_TYPE_INVALID:" ++ codesText [type.toNat]
  | .linkTarget => "PACKAGE_ARCHIVE_MEMBER_TYPE_INVALID:link-target"
  | .rootNoDirectory => "PACKAGE_ARCHIVE_MEMBER_PATH_INVALID"
  | .memberPathInvalid rawPath =>
      "PACKAGE_ARCHIVE_MEMBER_PATH_INVALID:" ++ codesText rawPath
  | .memberDuplicate path => "PACKAGE_ARCHIVE_MEMBER_DUPLICATE:" ++ codesText path

/-- `TAR_BLOCK_BYTES` -/
def blockBytes : Nat := 512

/-- `header.subarray(offset, offset + length)` -/
def field (header : Bytes) (offset length : Nat) : Bytes := (header.drop offset).take length

/-! ## Fields -/

/-- `toString('ascii')`, which unsets the highest bit of each byte. -/
def ascii (bytes : Bytes) : Codes := bytes.map fun byte => byte.toNat % 128

def tarString (header : Bytes) (offset length : Nat) : Except ArchiveError Codes :=
  let text := (field header offset length).takeWhile (· ≠ 0)
  let zeros := (field header offset length).dropWhile (· ≠ 0)
  if zeros.any (· ≠ 0) then .error .encodingUnsupported
  else if text.any fun byte => byte < 0x20 ∨ byte > 0x7e then .error .encodingUnsupported
  else .ok (ascii text)

/-- What `trimStart` removes, among the characters of ASCII. -/
def Blank (code : Nat) : Prop := 9 ≤ code ∧ code ≤ 13 ∨ code = 32

instance : DecidablePred Blank := fun _ => inferInstanceAs (Decidable (_ ∨ _))

/-- What may end a number: NUL or a space. -/
def Ending (code : Nat) : Prop := code = 0 ∨ code = 32

instance : DecidablePred Ending := fun _ => inferInstanceAs (Decidable (_ ∨ _))

def OctalDigit (code : Nat) : Prop := 48 ≤ code ∧ code ≤ 55

instance : DecidablePred OctalDigit := fun _ => inferInstanceAs (Decidable (_ ∧ _))

/-- `Number.parseInt(value, 8)` -/
def octalValue (digits : Codes) : Nat :=
  digits.foldl (fun value digit => 8 * value + (digit - 48)) 0

def maxSafeInteger : Nat := 9007199254740991

def tarOctal (header : Bytes) (offset length : Nat) : Except ArchiveError Nat :=
  let bytes := field header offset length
  if bytes.head?.any (128 ≤ ·) then .error .encodingUnsupported
  else
    let value := ((ascii bytes).rdropWhile (Ending ·)).dropWhile (Blank ·)
    if value = [] ∨ value.any (¬ OctalDigit ·) then .error .headerInvalid
    else if maxSafeInteger < octalValue value then .error .headerInvalid
    else .ok (octalValue value)

def tarOptionalOctal (header : Bytes) (offset length : Nat) : Except ArchiveError Nat :=
  if (field header offset length).all (· = 0) then .ok 0 else tarOctal header offset length

/-! ## Paths -/

def dot : Nat := 46

def slash : Nat := 47

def backslash : Nat := 92

/-- `while (path.startsWith('./')) path = path.slice(2)` -/
def withoutDots : Codes → Codes
  | first :: second :: rest =>
      if first = dot ∧ second = slash then withoutDots rest else first :: second :: rest
  | path => path

def normalizedArchiveMemberPath (rawPath : Codes) (isDirectory : Bool) :
    Except ArchiveError Codes :=
  if rawPath = [dot] ∨ rawPath = [dot, slash] then
    if isDirectory then .ok [dot] else .error .rootNoDirectory
  else
    let dotless := withoutDots rawPath
    let path :=
      if isDirectory ∧ dotless.getLast? = some slash then dotless.dropLast else dotless
    if path = [] ∨ path.head? = some slash ∨ path.contains backslash ∨
        (path.splitOn slash).any fun segment =>
          segment = [] ∨ segment = [dot] ∨ segment = [dot, dot] then
      .error (.memberPathInvalid rawPath)
    else .ok path

/-! ## Headers -/

/-- The bytes of the header summed, with blanks for those of the checksum. -/
def checksum (header : Bytes) : Nat :=
  ((header.take 148).map UInt8.toNat).sum + 8 * 0x20 + ((header.drop 156).map UInt8.toNat).sum

structure ReadHeader where
  path : Codes
  isDirectory : Bool
  deriving DecidableEq

/-- `if (condition) throw error` -/
def reject (condition : Prop) [Decidable condition] (error : ArchiveError) :
    Except ArchiveError Unit :=
  if condition then .error error else .ok ()

/-- What is read of a header before the path is looked up among the members. -/
def readHeader (header : Bytes) : Except ArchiveError ReadHeader := do
  reject (field header 257 6 ≠ [117, 115, 116, 97, 114, 0] ∨ field header 263 2 ≠ [48, 48])
    .encodingUnsupported
  let expectedChecksum ← tarOctal header 148 8
  reject (checksum header ≠ expectedChecksum) .checksumMismatch
  let _mode ← tarOctal header 100 8
  let _owner ← tarOctal header 108 8
  let _group ← tarOctal header 116 8
  let _modified ← tarOctal header 136 12
  let _ownerName ← tarString header 265 32
  let _groupName ← tarString header 297 32
  let _major ← tarOptionalOctal header 329 8
  let _minor ← tarOptionalOctal header 337 8
  reject ((field header 500 12).any (· ≠ 0)) .encodingUnsupported
  let typeByte := header.getD 156 0
  let isDirectory : Bool := typeByte = 0x35
  reject (¬ (typeByte = 0 ∨ typeByte = 0x30) ∧ ¬ isDirectory) (.memberTypeInvalid typeByte)
  let linkTarget ← tarString header 157 100
  reject (linkTarget ≠ []) .linkTarget
  let leading ← tarString header 345 155
  let name ← tarString header 0 100
  let rawPath := if leading = [] then name else leading ++ slash :: name
  let path ← normalizedArchiveMemberPath rawPath isDirectory
  return { path, isDirectory }

/-! ## Members -/

def isZeroTarBlock (block : Bytes) : Bool := block.all (· = 0)

/-- The size of a member's data rounded up to blocks. -/
def paddedSize (size : Nat) : Nat := (size + (blockBytes - 1)) / blockBytes * blockBytes

/-- The path of a member and the bytes that its data takes; `data` is the archive after
its header. -/
def readMember (header data : Bytes) (members : List Codes) :
    Except ArchiveError (Codes × Nat) := do
  let member ← readHeader header
  reject (member.path ∈ members) (.memberDuplicate member.path)
  let size ← tarOctal header 124 12
  reject (member.isDirectory ∧ size ≠ 0) .headerInvalid
  reject (data.length < paddedSize size) .truncated
  reject (((data.take (paddedSize size)).drop size).any (· ≠ 0)) .encodingUnsupported
  return (member.path, paddedSize size)

/-- The loop over the members; `rest` is the archive from a header on. -/
def scan (rest : Bytes) (members : List Codes) : Except ArchiveError Unit :=
  if _nonempty : rest = [] then .error .endMarkerInvalid
  else
    let header := rest.take blockBytes
    let data := rest.drop blockBytes
    if isZeroTarBlock header then
      reject ((data.take blockBytes).length ≠ blockBytes ∨
        ¬ isZeroTarBlock (data.take blockBytes) ∨ ¬ (data.drop blockBytes).all (· = 0))
        .endMarkerInvalid
    else do
      let member ← readMember header data members
      scan (data.drop member.2) (member.1 :: members)
termination_by rest.length
decreasing_by
  have remains := List.length_pos_iff.mpr _nonempty
  rw [List.length_drop, List.length_drop]
  unfold blockBytes
  omega

/-- `archive?` is what `gunzipSync` gives: nothing for what is no gzip stream or is larger
than the limit. -/
def preflightReleaseArchive (archive? : Option Bytes) : Except ArchiveError Unit :=
  archive?.elim (.error .encodingUnsupported) fun archive =>
    if archive.length % blockBytes ≠ 0 then .error .truncated else scan archive []

end Release
end Scrum4Me
