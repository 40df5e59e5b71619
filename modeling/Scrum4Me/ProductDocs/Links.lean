import Scrum4Me.Foundation.Utf8
import Scrum4Me.Foundation.Patterns

/-!
# Links between product documents

The Markdown links of a document, what they resolve to, and the documents that a document
names and is named by.
-/

namespace Scrum4Me
namespace ProductDocs

open Foundation

def lineFeed : Nat := 10

def hash : Nat := 35

def slash : Nat := 47

def question : Nat := 63

/-! ## Documents -/

inductive ProductDocFolder
  | adr
  | architecture
  | grills
  | patterns
  | plans
  | runbooks
  | specs
  | manual
  | api
  deriving DecidableEq

namespace ProductDocFolder

def all : List ProductDocFolder :=
  [adr, architecture, grills, patterns, plans, runbooks, specs, manual, api]

def name : ProductDocFolder → Text
  | adr => Text.units "ADR"
  | architecture => Text.units "ARCHITECTURE"
  | grills => Text.units "GRILLS"
  | patterns => Text.units "PATTERNS"
  | plans => Text.units "PLANS"
  | runbooks => Text.units "RUNBOOKS"
  | specs => Text.units "SPECS"
  | manual => Text.units "MANUAL"
  | api => Text.units "API"

end ProductDocFolder

structure ProductDoc where
  folder : ProductDocFolder
  slug : Text
  title : Text
  contentMd : Text
  deriving DecidableEq

/-- The lower case of a text, and the names of the folders in paths. -/
structure Site where
  toLowerCase : Text → Text
  productDocFolderToApi : ProductDocFolder → Text

/-! ## `LINK_RE` -/

structure Link where
  href : Text
  rest : Text

/-- `\[([^\]\n]+)\]\(([^)\n]+)\)` at this place. -/
def linkAt (place : Text) : Option Link :=
  let inText := fun unit : Nat => unit ≠ 93 && unit ≠ lineFeed
  let inHref := fun unit : Nat => unit ≠ 41 && unit ≠ lineFeed
  let text := place.tail.takeWhile inText
  let after := place.tail.dropWhile inText
  let href := (after.drop 2).takeWhile inHref
  let ends := (after.drop 2).dropWhile inHref
  if place.head? = some 91 ∧ text ≠ [] ∧ after.take 2 = [93, 40] ∧ href ≠ [] ∧
      ends.head? = some 41 then
    some ⟨href, ends.tail⟩
  else none

def hrefsFrom : Nat → Option Nat → Text → List Text
  | 0, _, _ => []
  | fuel + 1, previous, place =>
      if place = [] then []
      -- `(?<!!)`: what an exclamation mark stands before is an image.
      else (if previous = some 33 then none else linkAt place).elim
        (hrefsFrom fuel place.head? place.tail)
        fun link => link.href :: hrefsFrom fuel (some 41) link.rest

/-- `content_md.matchAll(LINK_RE)`, the second group of each match. -/
def hrefs (contentMd : Text) : List Text := hrefsFrom contentMd.length none contentMd

/-! ## `isMarkdownLink` -/

def codePathHints : List Text :=
  ["/lib/", "/app/", "/components/", "/scripts/", "/prisma/", "/__tests__/", "/public/"].map
    Text.units

def codeExtensions : List Text :=
  [".ts", ".tsx", ".js", ".jsx", ".mjs", ".cjs", ".json", ".sql", ".yml", ".yaml", ".css", ".htm",
    ".html", ".png", ".jpg", ".svg"].map Text.units

/-- `CODE_EXTENSIONS.test(href)`. -/
def hasCodeExtension (href : Text) : Bool :=
  (href.map Pattern.lower).tails.any fun place => codeExtensions.any fun extension =>
    extension.isPrefixOf place &&
      ((place.drop extension.length).head?.all fun unit => unit = hash || unit = question)

/-- `EXTERNAL_PROTOCOL.test(href)`. -/
def isExternal (href : Text) : Bool :=
  let lower := href.map Pattern.lower
  let letter := fun unit : Nat => 97 ≤ unit && unit ≤ 122
  (lower.takeWhile letter ≠ [] && (Text.units "://").isPrefixOf (lower.dropWhile letter)) ||
    (Text.units "mailto:").isPrefixOf lower || (Text.units "tel:").isPrefixOf lower

def mdExtension : Text := Text.units ".md"

/-- `/\.md$/i.test(path)`. -/
def endsInMd (path : Text) : Bool := mdExtension.isSuffixOf (path.map Pattern.lower)

def beforeSeparator (href : Text) : Text :=
  href.takeWhile fun unit => unit ≠ hash && unit ≠ question

def isMarkdownLink (href : Text) : Bool :=
  !isExternal href && !hasCodeExtension href &&
    !(codePathHints.any fun hint => href.tails.any fun place => hint.isPrefixOf place) &&
    endsInMd (beforeSeparator href)

/-- What `splitAnchor` gives as the anchor, where it is not empty. -/
def anchorOf (href : Text) : Option Text :=
  let separated := href.drop (beforeSeparator href).length
  if separated.head? = some hash ∧ separated.tail ≠ [] then some separated.tail else none

/-! ## `resolveLink` -/

def hexValue (unit : Nat) : Option Nat :=
  if 48 ≤ unit ∧ unit ≤ 57 then some (unit - 48)
  else if 65 ≤ unit ∧ unit ≤ 70 then some (unit - 55)
  else if 97 ≤ unit ∧ unit ≤ 102 then some (unit - 87)
  else none

/-- The next octet of an escaped character, where it may stand. -/
def takesOctet (state : Utf8.State) (octet : Nat) : Bool :=
  if 0 < state.owed then state.lower ≤ octet && octet ≤ state.upper
  else octet < 128 || (194 ≤ octet && octet ≤ 244)

def decodeUnits (state : Utf8.State) : Text → Option Text
  | [] => if state.owed = 0 then some [] else none
  | unit :: rest =>
      if unit = 37 then
        match rest with
        | high :: low :: later =>
            (hexValue high).bind fun high => (hexValue low).bind fun low =>
              let octet := 16 * high + low
              if takesOctet state octet then
                (decodeUnits (Utf8.advance state octet).2 later).map
                  ((Utf8.advance state octet).1 ++ ·)
              else none
        | _ => none
      else if state.owed = 0 then (decodeUnits state rest).map (unit :: ·) else none

/-- `decodeURIComponent`; nothing where it throws. -/
def decodeURIComponent (text : Text) : Option Text := decodeUnits Utf8.between text

/-- The segments that are left of a path from the root. -/
def normalize (segments : List Text) : List Text :=
  segments.foldl (fun left segment =>
    if segment = [] ∨ segment = [46] then left
    else if segment = [46, 46] then left.dropLast
    else left ++ [segment]) []

/-- `path.posix.resolve(path.posix.dirname(sourcePath), path)`, without its first slash. -/
def resolvedPath (sourcePath path : Text) : Text :=
  let base := if path.head? = some slash then [] else (sourcePath.splitOn slash).dropLast
  [slash].intercalate (normalize (base ++ path.splitOn slash))

structure Resolved where
  folder : ProductDocFolder
  slug : Text
  anchor : Option Text
  deriving DecidableEq

namespace Site

variable (site : Site)

/-- The folder whose name in paths this is: its upper case is the folder. -/
def apiToFolderEnum (api : Text) : Option ProductDocFolder :=
  ProductDocFolder.all.find? fun folder =>
    site.productDocFolderToApi folder = site.toLowerCase api

/-- The folder and slug that a link leads to from a document: `resolveLink` before it leaves out
links without a slug and links to the document itself. -/
def place (sourceFolder : ProductDocFolder) (sourceSlug linkPath : Text) : Option Resolved :=
  if isMarkdownLink linkPath = false then none
  else (decodeURIComponent (beforeSeparator linkPath)).bind fun decoded =>
    let sourcePath := slash :: site.productDocFolderToApi sourceFolder ++ slash :: sourceSlug ++
      mdExtension
    let resolved := resolvedPath sourcePath decoded
    let trimmed := if endsInMd resolved then resolved.take (resolved.length - 3) else resolved
    match trimmed.splitOn slash with
    | [folderApi, slugRaw] =>
        (site.apiToFolderEnum folderApi).map fun folder =>
          ⟨folder, site.toLowerCase slugRaw, anchorOf linkPath⟩
    | _ => none

def resolveLink (sourceFolder : ProductDocFolder) (sourceSlug linkPath : Text) :
    Option Resolved :=
  (site.place sourceFolder sourceSlug linkPath).filter fun resolved =>
    resolved.slug ≠ [] &&
      !(resolved.folder = sourceFolder && resolved.slug = site.toLowerCase sourceSlug)

/-! ## `findRelated` -/

def keyText (folder : ProductDocFolder) (slug : Text) : Text := folder.name ++ slash :: slug

def key (doc : ProductDoc) : Text := keyText doc.folder (site.toLowerCase doc.slug)

/-- `byKey.get(key)`: the last document set under a key is the one that is kept. -/
def byKey (allDocs : List ProductDoc) (key : Text) : Option ProductDoc :=
  allDocs.reverse.find? fun doc => site.key doc = key

end Site

def Resolved.key (resolved : Resolved) : Text := Site.keyText resolved.folder resolved.slug

def Resolved.dedupKey (resolved : Resolved) : Text :=
  resolved.anchor.elim resolved.key fun anchor => resolved.key ++ hash :: anchor

structure RelatedDocRef where
  folder : ProductDocFolder
  slug : Text
  title : Text
  anchor : Option Text
  deriving DecidableEq

def ProductDoc.ref (doc : ProductDoc) (anchor : Option Text) : RelatedDocRef :=
  ⟨doc.folder, doc.slug, doc.title, anchor⟩

structure Outgoing where
  forward : List RelatedDocRef
  brokenLinks : List Text

structure RelatedResult extends Outgoing where
  backward : List RelatedDocRef

namespace Site

variable (site : Site) (allDocs : List ProductDoc) (sourceFolder : ProductDocFolder)
  (sourceSlug : Text)

/-- The first loop, over the links of the document, with `seenForward`. -/
def outgoing (seenForward : List Text) : List Text → Outgoing
  | [] => ⟨[], []⟩
  | href :: rest =>
      if isMarkdownLink href = false then outgoing seenForward rest
      else
        let broken : Outgoing :=
          { outgoing seenForward rest with
            brokenLinks := href :: (outgoing seenForward rest).brokenLinks }
        (site.resolveLink sourceFolder sourceSlug href).elim broken fun resolved =>
          (site.byKey allDocs resolved.key).elim broken fun target =>
            if seenForward.contains resolved.dedupKey then outgoing seenForward rest
            else
              let later := outgoing (resolved.dedupKey :: seenForward) rest
              { later with forward := target.ref resolved.anchor :: later.forward }

/-- The document is the one asked for. -/
def isSource (doc : ProductDoc) : Bool :=
  doc.folder = sourceFolder && site.toLowerCase doc.slug = site.toLowerCase sourceSlug

/-- A link of the document resolves to the one asked for. -/
def leadsBack (doc : ProductDoc) : Bool :=
  (hrefs doc.contentMd).any fun href => isMarkdownLink href &&
    (site.resolveLink doc.folder doc.slug href).any fun resolved =>
      resolved.folder = sourceFolder && resolved.slug = site.toLowerCase sourceSlug

/-- The second loop, over all documents, with `seenBackward`. -/
def backward (seenBackward : List Text) : List ProductDoc → List RelatedDocRef
  | [] => []
  | doc :: rest =>
      if site.isSource sourceFolder sourceSlug doc then backward seenBackward rest
      else if site.leadsBack sourceFolder sourceSlug doc then
        if seenBackward.contains (site.key doc) then backward seenBackward rest
        else doc.ref none :: backward (site.key doc :: seenBackward) rest
      else backward seenBackward rest

def findRelated : RelatedResult where
  toOutgoing := (allDocs.find? (site.isSource sourceFolder sourceSlug)).elim ⟨[], []⟩ fun source =>
    site.outgoing allDocs sourceFolder sourceSlug [] (hrefs source.contentMd)
  backward := site.backward sourceFolder sourceSlug [] allDocs

end Site

end ProductDocs
end Scrum4Me
