import Scrum4Me.ProductDocs.Links
import Mathlib.Data.List.Nodup

/-!
# The graph of links

What the two loops of `findRelated` list, and exactly when the graph they give is symmetric and
its broken links are the dead ones.
-/

namespace Scrum4Me
namespace ProductDocs

open Foundation

/-! ## Keys -/

theorem ProductDocFolder.name_injective {folder other : ProductDocFolder}
    (same : folder.name = other.name) :
    folder = other := by
  have listed : ∀ folder : ProductDocFolder, folder ∈ all := by
    intro folder
    cases folder <;> decide
  have table : ∀ folder ∈ all, ∀ other ∈ all, folder.name = other.name → folder = other := by decide
  exact table folder (listed folder) other (listed other) same

theorem Site.keyText_inj {folder other : ProductDocFolder} {slug slug' : Text}
    (same : Site.keyText folder slug = Site.keyText other slug') :
    folder = other ∧ slug = slug' := by
  have plain : ∀ folder : ProductDocFolder, slash ∉ folder.name := by
    intro folder
    cases folder <;> decide
  have names := congrArg (fun text => (text.splitOn slash).head?) same
  simp only [Site.keyText, List.splitOn_append_cons_self, List.splitOn_eq_singleton (plain _),
    List.singleton_append, List.head?_cons, Option.some.injEq] at names
  obtain rfl := ProductDocFolder.name_injective names
  exact ⟨rfl, (List.cons.inj (List.append_cancel_left same)).2⟩

/-- A document in the folder and with the slug that a link resolves to. -/
def Site.At (site : Site) (doc : ProductDoc) (resolved : Resolved) : Prop :=
  doc.folder = resolved.folder ∧ site.toLowerCase doc.slug = resolved.slug

variable {site : Site} {docs : List ProductDoc} {doc : ProductDoc}

theorem at_iff {resolved : Resolved} : site.At doc resolved ↔ site.key doc = resolved.key := by
  constructor
  · rintro ⟨folder, slug⟩
    rw [Site.key, Resolved.key, folder, slug]
  · intro same
    exact Site.keyText_inj same

/-- The documents differ in their folder or in the lower case of their slug. -/
def Site.Distinct (site : Site) (docs : List ProductDoc) : Prop := (docs.map site.key).Nodup

variable {other : ProductDoc}

theorem eq_of_key (distinct : site.Distinct docs)
    (member : doc ∈ docs) (member' : other ∈ docs) (same : site.key doc = site.key other) :
    doc = other :=
  List.inj_on_of_nodup_map distinct member member' same

theorem byKey_eq_some (distinct : site.Distinct docs) {key : Text} :
    site.byKey docs key = some doc ↔ doc ∈ docs ∧ site.key doc = key := by
  constructor
  · intro found
    have same := List.find?_some (p := fun doc => decide (site.key doc = key)) found
    exact ⟨List.mem_reverse.mp (List.mem_of_find?_eq_some found), of_decide_eq_true same⟩
  · rintro ⟨member, rfl⟩
    cases found : site.byKey docs (site.key doc) with
    | none =>
      have := List.find?_eq_none.mp found doc (List.mem_reverse.mpr member)
      exact absurd (decide_eq_true rfl) this
    | some other =>
      have inside := List.mem_reverse.mp (List.mem_of_find?_eq_some found)
      have same := List.find?_some (p := fun other => decide (site.key other = site.key doc)) found
      rw [eq_of_key distinct inside member (of_decide_eq_true same)]

/-! ## The first loop -/

/-- A link of a document that resolves to another document of the product. -/
def Site.Leads (site : Site) (docs : List ProductDoc) (source : ProductDoc) (href : Text)
    (resolved : Resolved) (target : ProductDoc) : Prop :=
  site.resolveLink source.folder source.slug href = some resolved ∧ target ∈ docs ∧
    site.At target resolved

variable {source target : ProductDoc} {href : Text} {resolved : Resolved}

theorem isMarkdownLink_of_resolveLink
    (resolves : site.resolveLink source.folder source.slug href = some resolved) :
    isMarkdownLink href = true := by
  by_contra other
  rw [Site.resolveLink, Site.place, if_pos (Bool.eq_false_iff.mpr other)] at resolves
  cases resolves

theorem leads_unique (distinct : site.Distinct docs) {resolved' : Resolved} {target' : ProductDoc}
    (leads : site.Leads docs source href resolved target)
    (leads' : site.Leads docs source href resolved' target') :
    resolved' = resolved ∧ target' = target := by
  obtain ⟨resolves, member, located⟩ := leads
  obtain ⟨resolves', member', located'⟩ := leads'
  obtain rfl := Option.some.inj (resolves'.symm.trans resolves)
  exact ⟨rfl, eq_of_key distinct member' member
    ((at_iff.mp located').trans (at_iff.mp located).symm)⟩

theorem outgoing_cons_of_leads (distinct : site.Distinct docs)
    (leads : site.Leads docs source href resolved target) (seen rest : List Text) :
    site.outgoing docs source.folder source.slug seen (href :: rest) =
      if seen.contains resolved.dedupKey then
        site.outgoing docs source.folder source.slug seen rest
      else
        { site.outgoing docs source.folder source.slug (resolved.dedupKey :: seen) rest with
          forward := target.ref resolved.anchor ::
            (site.outgoing docs source.folder source.slug (resolved.dedupKey :: seen)
              rest).forward } := by
  have markdown := isMarkdownLink_of_resolveLink leads.1
  have found : site.byKey docs resolved.key = some target :=
    (byKey_eq_some distinct).mpr ⟨leads.2.1, at_iff.mp leads.2.2⟩
  rw [Site.outgoing, if_neg (by simp [markdown]), leads.1, Option.elim_some, found,
    Option.elim_some]

theorem outgoing_cons_of_not (distinct : site.Distinct docs)
    (dead : ¬ ∃ resolved target, site.Leads docs source href resolved target)
    (seen rest : List Text) :
    site.outgoing docs source.folder source.slug seen (href :: rest) =
      { site.outgoing docs source.folder source.slug seen rest with
        brokenLinks := (if isMarkdownLink href then [href] else []) ++
          (site.outgoing docs source.folder source.slug seen rest).brokenLinks } := by
  rw [Site.outgoing]
  cases markdown : isMarkdownLink href with
  | false => rfl
  | true =>
    rw [if_neg (by simp)]
    cases resolves : site.resolveLink source.folder source.slug href with
    | none => rfl
    | some resolved =>
      rw [Option.elim_some]
      cases found : site.byKey docs resolved.key with
      | none => rfl
      | some target =>
        obtain ⟨member, same⟩ := (byKey_eq_some distinct).mp found
        exact absurd ⟨resolved, target, resolves, member, at_iff.mpr same⟩ dead

theorem mem_brokenLinks (distinct : site.Distinct docs) (seen links : List Text) :
    href ∈ (site.outgoing docs source.folder source.slug seen links).brokenLinks ↔
      href ∈ links ∧ isMarkdownLink href = true ∧
        ¬ ∃ resolved target, site.Leads docs source href resolved target := by
  induction links generalizing seen with
  | nil => simp [Site.outgoing]
  | cons link rest ih =>
    by_cases leading : ∃ resolved target, site.Leads docs source link resolved target
    · obtain ⟨resolved, target, leads⟩ := leading
      have passed : ∀ seen, href ∈
          (site.outgoing docs source.folder source.slug seen rest).brokenLinks ↔
            href ∈ link :: rest ∧ isMarkdownLink href = true ∧
              ¬ ∃ resolved target, site.Leads docs source href resolved target := by
        intro seen
        rw [ih, List.mem_cons]
        constructor
        · exact fun found => ⟨.inr found.1, found.2⟩
        · rintro ⟨rfl | member, found⟩
          · exact absurd ⟨resolved, target, leads⟩ found.2
          · exact ⟨member, found⟩
      rw [outgoing_cons_of_leads distinct leads]
      split
      · exact passed _
      · exact passed _
    · rw [outgoing_cons_of_not distinct leading]
      by_cases markdown : isMarkdownLink link = true
      · simp only [markdown, if_true, List.singleton_append, List.mem_cons, ih]
        constructor
        · rintro (rfl | ⟨member, found⟩)
          · exact ⟨.inl rfl, markdown, leading⟩
          · exact ⟨.inr member, found⟩
        · rintro ⟨rfl | member, found⟩
          · exact .inl rfl
          · exact .inr ⟨member, found⟩
      · rw [if_neg markdown, List.nil_append, ih, List.mem_cons]
        constructor
        · exact fun found => ⟨.inr found.1, found.2⟩
        · rintro ⟨rfl | member, found⟩
          · exact absurd found.1 markdown
          · exact ⟨member, found⟩

/-- The document is among these. -/
def Lists (refs : List RelatedDocRef) (doc : ProductDoc) : Prop :=
  ∃ ref ∈ refs, ref.folder = doc.folder ∧ ref.slug = doc.slug

theorem lists_cons {ref : RelatedDocRef} {refs : List RelatedDocRef} :
    Lists (ref :: refs) doc ↔ ref.folder = doc.folder ∧ ref.slug = doc.slug ∨ Lists refs doc :=
  List.exists_mem_cons_iff _ _ _

theorem eq_of_names (distinct : site.Distinct docs) (member : doc ∈ docs) (member' : other ∈ docs)
    (same : doc.folder = other.folder ∧ doc.slug = other.slug) :
    doc = other :=
  eq_of_key distinct member member' (by rw [Site.key, Site.key, same.1, same.2])

/-- Some link leads to the document with a text that `seenForward` does not have, and every link
before it with that text leads there too. -/
def Site.Named (site : Site) (docs : List ProductDoc) (source : ProductDoc)
    (seen links : List Text) (target : ProductDoc) : Prop :=
  ∃ front href rest resolved, links = front ++ href :: rest ∧
    site.Leads docs source href resolved target ∧ resolved.dedupKey ∉ seen ∧
    ∀ earlier ∈ front, ∀ other target', site.Leads docs source earlier other target' →
      other.dedupKey = resolved.dedupKey → target' = target

/-- A link that leads elsewhere is passed over. -/
theorem named_cons {seen rest : List Text} {link : Text}
    (passes : ∀ other target', site.Leads docs source link other target' → target' ≠ target →
      ∀ href resolved, site.Leads docs source href resolved target → resolved.dedupKey ∉ seen →
        other.dedupKey ≠ resolved.dedupKey) (named : site.Named docs source seen rest target) :
    site.Named docs source seen (link :: rest) target := by
  obtain ⟨front, href, later, resolved, rfl, leads, unseen, first⟩ := named
  refine ⟨link :: front, href, later, resolved, rfl, leads, unseen, ?_⟩
  intro earlier member other target' leads' same
  rcases List.mem_cons.mp member with rfl | member
  · by_contra apart
    exact passes other target' leads' apart href resolved leads unseen same
  · exact first earlier member other target' leads' same

/-- What the first link does not name, the links after it name, with a text that is not among the
ones seen before nor the one of a first link that leads elsewhere. -/
theorem named_of_cons {seen seen' rest : List Text} {link : Text}
    (named : site.Named docs source seen (link :: rest) target)
    (elsewhere : ∀ resolved, site.Leads docs source link resolved target → resolved.dedupKey ∈ seen)
    (grown : ∀ key ∈ seen', key ∈ seen ∨ ∃ other target',
      site.Leads docs source link other target' ∧ target' ≠ target ∧ other.dedupKey = key) :
    site.Named docs source seen' rest target := by
  obtain ⟨front, href, later, resolved, split, leads, unseen, first⟩ := named
  cases front with
  | nil =>
    obtain ⟨rfl, rfl⟩ := List.cons.inj split
    exact absurd (elsewhere resolved leads) unseen
  | cons earlier front =>
    obtain ⟨rfl, rfl⟩ := List.cons.inj split
    refine ⟨front, href, later, resolved, rfl, leads, ?_, fun before inside =>
      first before (List.mem_cons_of_mem _ inside)⟩
    intro inside
    rcases grown _ inside with old | ⟨other, target', leads', apart, same⟩
    · exact unseen old
    · exact apart (first _ List.mem_cons_self other target' leads' same)

/-- The first loop lists what is named. -/
theorem lists_forward (distinct : site.Distinct docs) (seen links : List Text)
    (member : target ∈ docs) :
    Lists (site.outgoing docs source.folder source.slug seen links).forward target ↔
      site.Named docs source seen links target := by
  induction links generalizing seen with
  | nil =>
    constructor
    · rintro ⟨ref, inside, _⟩
      exact absurd inside List.not_mem_nil
    · rintro ⟨front, href, rest, resolved, split, _⟩
      exact absurd split.symm (List.append_ne_nil_of_right_ne_nil _ (List.cons_ne_nil _ _))
  | cons link rest ih =>
    by_cases leading : ∃ resolved target, site.Leads docs source link resolved target
    · obtain ⟨first, other, leads⟩ := leading
      rw [outgoing_cons_of_leads distinct leads]
      split
      · rename_i repeated
        have inside : first.dedupKey ∈ seen := by simpa using repeated
        rw [ih]
        constructor
        · apply named_cons
          intro again target' leads' _ href resolved _ unseen same
          obtain ⟨rfl, _⟩ := leads_unique distinct leads leads'
          exact unseen (same ▸ inside)
        · intro named
          refine named_of_cons named ?_ fun key old => .inl old
          intro resolved leads'
          rw [(leads_unique distinct leads leads').1]
          exact inside
      · rename_i fresh
        have unseen : first.dedupKey ∉ seen := by simpa using fresh
        dsimp only
        rw [lists_cons, ih]
        constructor
        · rintro (named | ⟨front, href, last, resolved, rfl, leads', apart, earlier⟩)
          · obtain rfl := eq_of_names distinct leads.2.1 member named
            exact ⟨[], link, rest, first, rfl, leads, unseen,
              fun earlier inside => absurd inside List.not_mem_nil⟩
          · obtain ⟨differs, notSeen⟩ := not_or.mp fun either => apart (List.mem_cons.mpr either)
            refine ⟨link :: front, href, last, resolved, rfl, leads', notSeen, ?_⟩
            intro before inside other' target' leads'' same
            rcases List.mem_cons.mp inside with rfl | inside
            · obtain ⟨rfl, _⟩ := leads_unique distinct leads leads''
              exact absurd same.symm differs
            · exact earlier before inside other' target' leads'' same
        · intro named
          by_cases here : other = target
          · exact .inl (here ▸ ⟨rfl, rfl⟩)
          · refine .inr (named_of_cons named ?_ ?_)
            · intro resolved leads'
              exact absurd (leads_unique distinct leads leads').2.symm here
            · intro key inside
              rcases List.mem_cons.mp inside with rfl | old
              · exact .inr ⟨first, other, leads, here, rfl⟩
              · exact .inl old
    · rw [outgoing_cons_of_not distinct leading, ih]
      constructor
      · apply named_cons
        intro other target' leads
        exact absurd ⟨other, target', leads⟩ leading
      · intro named
        refine named_of_cons named ?_ fun key old => .inl old
        intro resolved leads
        exact absurd ⟨resolved, target, leads⟩ leading

/-! ## Each entry once -/

/-- What the first loop remembers of an entry. -/
def Site.seenText (site : Site) (ref : RelatedDocRef) : Text :=
  (⟨ref.folder, site.toLowerCase ref.slug, ref.anchor⟩ : Resolved).dedupKey

theorem forward_once (distinct : site.Distinct docs) (seen links : List Text) :
    ((site.outgoing docs source.folder source.slug seen links).forward.map site.seenText).Nodup ∧
      ∀ key ∈ (site.outgoing docs source.folder source.slug seen links).forward.map site.seenText,
        key ∉ seen := by
  induction links generalizing seen with
  | nil => exact ⟨List.nodup_nil, fun key inside => absurd inside List.not_mem_nil⟩
  | cons link rest ih =>
    by_cases leading : ∃ resolved target, site.Leads docs source link resolved target
    · obtain ⟨first, other, leads⟩ := leading
      rw [outgoing_cons_of_leads distinct leads]
      split
      · exact ih seen
      · rename_i fresh
        have text : site.seenText (other.ref first.anchor) = first.dedupKey := by
          rw [Site.seenText, ProductDoc.ref]
          dsimp only
          rw [leads.2.2.1, leads.2.2.2]
        obtain ⟨once, unseen⟩ := ih (first.dedupKey :: seen)
        dsimp only
        rw [List.map_cons, text]
        refine ⟨List.nodup_cons.mpr ⟨fun inside => unseen _ inside List.mem_cons_self, once⟩, ?_⟩
        intro key inside
        rcases List.mem_cons.mp inside with rfl | inside
        · simpa using fresh
        · exact fun old => unseen key inside (List.mem_cons_of_mem _ old)
    · rw [outgoing_cons_of_not distinct leading]
      exact ih seen

/-! ## The second loop -/

variable {sourceFolder : ProductDocFolder} {sourceSlug : Text}

/-- The second loop lists the other documents that lead to the one asked for. -/
theorem backward_eq {seen : List Text} {others : List ProductDoc}
    (distinct : site.Distinct others) (unseen : ∀ doc ∈ others, site.key doc ∉ seen) :
    site.backward sourceFolder sourceSlug seen others =
      (others.filter fun doc => !site.isSource sourceFolder sourceSlug doc &&
        site.leadsBack sourceFolder sourceSlug doc).map fun doc => doc.ref none := by
  induction others generalizing seen with
  | nil => rfl
  | cons doc rest ih =>
    obtain ⟨apart, later⟩ := List.nodup_cons.mp distinct
    have old : ∀ other ∈ rest, site.key other ∉ seen := fun other inside =>
      unseen other (List.mem_cons_of_mem _ inside)
    have new : ∀ other ∈ rest, site.key other ∉ site.key doc :: seen := by
      intro other inside
      refine List.not_mem_cons_of_ne_of_not_mem ?_ (old other inside)
      exact fun same => apart (same ▸ List.mem_map_of_mem inside)
    have fresh : seen.contains (site.key doc) = false := by
      simpa using unseen doc List.mem_cons_self
    rw [Site.backward]
    cases itself : site.isSource sourceFolder sourceSlug doc with
    | true => simp [itself, ih later old]
    | false =>
      cases back : site.leadsBack sourceFolder sourceSlug doc with
      | true =>
        simp only [itself, back, fresh, List.filter_cons]
        simp [ih later new]
      | false => simp [itself, back, ih later old]

/-! ## Symmetry and dead links -/

/-- No document of the product is where the link leads. -/
def Site.Dead (site : Site) (docs : List ProductDoc) (source : ProductDoc) (href : Text) : Prop :=
  ∀ resolved, site.place source.folder source.slug href = some resolved →
    ∀ doc ∈ docs, ¬ site.At doc resolved

/-- What the graph promises of a document. -/
structure Site.Lawful (site : Site) (docs : List ProductDoc) (source : ProductDoc) : Prop where
  symmetric : ∀ other ∈ docs, other ≠ source →
    (Lists (site.findRelated docs source.folder source.slug).forward other ↔
      Lists (site.findRelated docs other.folder other.slug).backward source)
  forwardOnce : ((site.findRelated docs source.folder source.slug).forward.map
    fun ref => (ref.folder, ref.slug, ref.anchor)).Nodup
  backwardOnce : ((site.findRelated docs source.folder source.slug).backward.map
    fun ref => (ref.folder, ref.slug)).Nodup
  broken : ∀ href ∈ hrefs source.contentMd, isMarkdownLink href = true →
    (href ∈ (site.findRelated docs source.folder source.slug).brokenLinks ↔
      site.Dead docs source href)

/-- No link leads to the document itself or to one without a slug, and a document that is linked
is so before its text in `seenForward` is taken by another one. -/
structure Site.Clear (site : Site) (docs : List ProductDoc) (source : ProductDoc) : Prop where
  elsewhere : ∀ href ∈ hrefs source.contentMd, ∀ resolved,
    site.place source.folder source.slug href = some resolved →
      ¬ site.At source resolved ∧ (resolved.slug = [] → ∀ doc ∈ docs, ¬ site.At doc resolved)
  named : ∀ other ∈ docs, other ≠ source → ∀ href ∈ hrefs source.contentMd, ∀ resolved,
    site.Leads docs source href resolved other →
      site.Named docs source [] (hrefs source.contentMd) other

theorem leadsBack_iff (inside : other ∈ docs) :
    site.leadsBack other.folder other.slug source = true ↔
      ∃ href ∈ hrefs source.contentMd, ∃ resolved, site.Leads docs source href resolved other := by
  simp only [Site.leadsBack, List.any_eq_true, Bool.and_eq_true, Option.any_eq_true,
    decide_eq_true_eq]
  constructor
  · rintro ⟨href, link, _, resolved, resolves, folder, slug⟩
    exact ⟨href, link, resolved, resolves, inside, folder.symm, slug.symm⟩
  · rintro ⟨href, link, resolved, resolves, _, folder, slug⟩
    exact ⟨href, link, isMarkdownLink_of_resolveLink resolves, resolved, resolves, folder.symm,
      slug.symm⟩

theorem resolveLink_eq_some :
    site.resolveLink source.folder source.slug href = some resolved ↔
      site.place source.folder source.slug href = some resolved ∧ resolved.slug ≠ [] ∧
        ¬ site.At source resolved := by
  rw [Site.resolveLink, Option.filter_eq_some_iff]
  simp only [Site.At, ne_eq, decide_not, Bool.and_eq_true, Bool.not_eq_true', decide_eq_false_iff_not,
    Bool.and_eq_false_iff, not_and_or]
  constructor
  · rintro ⟨placed, named, apart⟩
    exact ⟨placed, named, apart.imp Ne.symm Ne.symm⟩
  · rintro ⟨placed, named, apart⟩
    exact ⟨placed, named, apart.imp Ne.symm Ne.symm⟩

section Asked

variable (distinct : site.Distinct docs) (member : source ∈ docs)

include distinct member

theorem findRelated_outgoing :
    (site.findRelated docs source.folder source.slug).toOutgoing =
      site.outgoing docs source.folder source.slug [] (hrefs source.contentMd) := by
  have found : docs.find? (site.isSource source.folder source.slug) = some source := by
    cases found : docs.find? (site.isSource source.folder source.slug) with
    | none =>
      have := List.find?_eq_none.mp found source member
      simp [Site.isSource] at this
    | some doc =>
      have same := List.find?_some found
      simp only [Site.isSource, Bool.and_eq_true, decide_eq_true_eq] at same
      have key : site.key doc = site.key source := by rw [Site.key, Site.key, same.1, same.2]
      rw [eq_of_key distinct (List.mem_of_find?_eq_some found) member key]
  rw [Site.findRelated, found]
  rfl

theorem lists_backward (inside : other ∈ docs) (apart : other ≠ source) :
    Lists (site.findRelated docs other.folder other.slug).backward source ↔
      ∃ href ∈ hrefs source.contentMd, ∃ resolved, site.Leads docs source href resolved other := by
  have itself : site.isSource other.folder other.slug source = false := by
    by_contra same
    simp only [Site.isSource, Bool.not_eq_false, Bool.and_eq_true, decide_eq_true_eq] at same
    exact apart (eq_of_key distinct inside member (by rw [Site.key, Site.key, same.1, same.2]))
  rw [← leadsBack_iff inside]
  unfold Site.findRelated Lists
  rw [backward_eq distinct fun doc _ => List.not_mem_nil]
  constructor
  · rintro ⟨ref, listed, names⟩
    obtain ⟨doc, kept, rfl⟩ := List.mem_map.mp listed
    obtain ⟨known, leads⟩ := List.mem_filter.mp kept
    obtain rfl := eq_of_names distinct known member names
    exact (Bool.and_eq_true_iff.mp leads).2
  · intro leads
    refine ⟨source.ref none, List.mem_map_of_mem (List.mem_filter.mpr ⟨member, ?_⟩), rfl, rfl⟩
    rw [itself, leads]
    rfl

theorem lists_findRelated (inside : other ∈ docs) :
    Lists (site.findRelated docs source.folder source.slug).forward other ↔
      site.Named docs source [] (hrefs source.contentMd) other := by
  rw [findRelated_outgoing distinct member]
  exact lists_forward distinct [] _ inside

theorem forward_findRelated_once :
    ((site.findRelated docs source.folder source.slug).forward.map
      fun ref => (ref.folder, ref.slug, ref.anchor)).Nodup := by
  rw [findRelated_outgoing distinct member]
  have once : ((site.outgoing docs source.folder source.slug []
      (hrefs source.contentMd)).forward.map site.seenText).Nodup := (forward_once distinct [] _).1
  rw [show site.seenText = (fun parts : ProductDocFolder × Text × Option Text =>
    (⟨parts.1, site.toLowerCase parts.2.1, parts.2.2⟩ : Resolved).dedupKey) ∘
      fun ref => (ref.folder, ref.slug, ref.anchor) from rfl, ← List.map_map] at once
  exact once.of_map _

omit member in
theorem backward_findRelated_once :
    ((site.findRelated docs source.folder source.slug).backward.map
      fun ref => (ref.folder, ref.slug)).Nodup := by
  unfold Site.findRelated
  rw [backward_eq distinct fun doc _ => List.not_mem_nil, List.map_map]
  have once : ((docs.filter fun doc => !site.isSource source.folder source.slug doc &&
      site.leadsBack source.folder source.slug doc).map site.key).Nodup :=
    distinct.sublist (List.filter_sublist.map _)
  rw [show site.key = (fun parts : ProductDocFolder × Text =>
    Site.keyText parts.1 (site.toLowerCase parts.2)) ∘ fun doc => (doc.folder, doc.slug) from rfl,
    ← List.map_map] at once
  exact once.of_map _

/-- The graph is symmetric at a document, and its broken links are the dead ones, exactly if no
link leads to the document itself or to one without a slug, and no text in `seenForward` stands
for two documents where the later one would only be named with it. -/
theorem lawful_iff_clear : site.Lawful docs source ↔ site.Clear docs source := by
  have broken : ∀ href ∈ hrefs source.contentMd, isMarkdownLink href = true →
      (href ∈ (site.findRelated docs source.folder source.slug).brokenLinks ↔
        ¬ ∃ resolved target, site.Leads docs source href resolved target) := by
    intro href link markdown
    rw [findRelated_outgoing distinct member, mem_brokenLinks distinct]
    exact ⟨fun listed => listed.2.2, fun dead => ⟨link, markdown, dead⟩⟩
  constructor
  · intro lawful
    constructor
    · intro href link resolved placed
      have markdown : isMarkdownLink href = true := by
        by_contra other
        rw [Site.place, if_pos (Bool.eq_false_iff.mpr other)] at placed
        cases placed
      have leads : ∀ doc ∈ docs, site.At doc resolved → resolved.slug ≠ [] ∧
          ¬ site.At source resolved := by
        intro doc inside located
        by_contra left
        have silent : ¬ ∃ resolved target, site.Leads docs source href resolved target := by
          rintro ⟨again, target, resolves, _⟩
          obtain ⟨placed', kept⟩ := resolveLink_eq_some.mp resolves
          obtain rfl := Option.some.inj (placed.symm.trans placed')
          exact left kept
        have dead := (lawful.broken href link markdown).mp ((broken href link markdown).mpr silent)
        exact dead resolved placed doc inside located
      exact ⟨fun located => (leads source member located).2 located,
        fun empty doc inside located => (leads doc inside located).1 empty⟩
    · intro other inside apart href link resolved leads
      rw [← lists_findRelated distinct member inside, lawful.symmetric other inside apart,
        lists_backward distinct member inside apart]
      exact ⟨href, link, resolved, leads⟩
  · intro clear
    constructor
    · intro other inside apart
      rw [lists_findRelated distinct member inside, lists_backward distinct member inside apart]
      constructor
      · rintro ⟨front, href, rest, resolved, split, leads, _⟩
        exact ⟨href, by rw [split]; simp, resolved, leads⟩
      · rintro ⟨href, link, resolved, leads⟩
        exact clear.named other inside apart href link resolved leads
    · exact forward_findRelated_once distinct member
    · exact backward_findRelated_once distinct
    · intro href link markdown
      rw [broken href link markdown]
      constructor
      · intro silent resolved placed doc inside located
        obtain ⟨apart, named⟩ := clear.elsewhere href link resolved placed
        have resolves := resolveLink_eq_some.mpr
          ⟨placed, fun empty => named empty doc inside located, apart⟩
        exact silent ⟨resolved, doc, resolves, inside, located⟩
      · rintro dead ⟨resolved, target, resolves, inside, located⟩
        exact dead resolved (resolveLink_eq_some.mp resolves).1 target inside located

end Asked

/-! ## A document that links to itself -/

/-- Letters below 128 have their lower case, and a folder is its name in lower case. -/
def plainSite : Site where
  toLowerCase text := text.map Pattern.lower
  productDocFolderToApi folder := folder.name.map Pattern.lower

def selfLinked : ProductDoc where
  folder := .plans
  slug := Text.units "a"
  title := Text.units "A"
  contentMd := Text.units "see [above](a.md#top) and [b](../Specs/B.md)"

def named : ProductDoc where
  folder := .specs
  slug := Text.units "b"
  title := Text.units "B"
  contentMd := Text.units "see ![c](c.md)"

/-- The link of a document to itself is listed as broken. -/
theorem self_link_listed : ¬ plainSite.Lawful [selfLinked, named] selfLinked := by
  intro lawful
  have dead := (lawful.broken (Text.units "a.md#top") (by decide +kernel) (by decide +kernel)).mp
    (by decide +kernel)
  exact dead ⟨.plans, Text.units "a", some (Text.units "top")⟩ (by decide +kernel) selfLinked
    List.mem_cons_self ⟨rfl, by decide⟩

theorem lawful_iff_clear_named :
    plainSite.Lawful [selfLinked, named] named ↔ plainSite.Clear [selfLinked, named] named :=
  lawful_iff_clear (show ([selfLinked, named].map plainSite.key).Nodup by decide +kernel) (by simp)

end ProductDocs
end Scrum4Me
