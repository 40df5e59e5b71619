import Scrum4Me.Foundation.Bisection
import Scrum4Me.Foundation.JsonTree
import Scrum4Me.Foundation.Patterns

/-!
# The linked plan of a review

`assembleWithinBudget` fills the plan in a fixed order: stories with their criteria, the
tasks that the description names, documents, other tasks. The size is that of the
serialised form. From the first item that does not fit as a whole on, everything is left
out.
-/

namespace Scrum4Me
namespace LinkedPlans

open Foundation

/-! ## Plans -/

structure LinkedPlanTask where
  code : Text
  title : Text
  implementationPlan : Option Text

structure LinkedPlanStory where
  code : Text
  title : Text
  product : Option Text
  acceptanceCriteria : Option Text
  tasks : List LinkedPlanTask

structure LinkedPlanDoc where
  ref : Text
  contentMd : Text
  truncated : Bool

inductive PlanSource
  | prRefs | commits
  deriving DecidableEq

structure LinkedPlan where
  source : PlanSource
  references : List Text
  stories : List LinkedPlanStory
  planDocs : List LinkedPlanDoc
  omitted : List Text

def text? (text : Option Text) : JsonTree := text.elim .null .string

def texts (texts : List Text) : JsonTree := .array (texts.map .string)

def LinkedPlanTask.json (task : LinkedPlanTask) : JsonTree :=
  .object [(Text.units "code", .string task.code), (Text.units "title", .string task.title),
    (Text.units "implementation_plan", text? task.implementationPlan)]

def LinkedPlanStory.json (story : LinkedPlanStory) : JsonTree :=
  .object ([(Text.units "code", .string story.code), (Text.units "title", .string story.title)] ++
    story.product.toList.map (fun name => (Text.units "product", .string name)) ++
    [(Text.units "acceptance_criteria", text? story.acceptanceCriteria),
      (Text.units "tasks", .array (story.tasks.map LinkedPlanTask.json))])

def LinkedPlanDoc.json (doc : LinkedPlanDoc) : JsonTree :=
  .object [(Text.units "ref", .string doc.ref), (Text.units "content_md", .string doc.contentMd),
    (Text.units "truncated", .bool doc.truncated)]

def PlanSource.text : PlanSource → Text
  | .prRefs => Text.units "pr_refs"
  | .commits => Text.units "commits"

def LinkedPlan.json (plan : LinkedPlan) : JsonTree :=
  .object [(Text.units "source", .string plan.source.text),
    (Text.units "references", texts plan.references),
    (Text.units "stories", .array (plan.stories.map LinkedPlanStory.json)),
    (Text.units "plan_docs", .array (plan.planDocs.map LinkedPlanDoc.json)),
    (Text.units "omitted", texts plan.omitted)]

/-- `JSON.stringify(plan).length` -/
def LinkedPlan.size (plan : LinkedPlan) : Nat := plan.json.print.length

/-! ## What is collected -/

structure TaskRow where
  key : Text
  label : Text
  code : Text
  title : Text
  implementationPlan : Option Text
  deriving DecidableEq

structure StoryRow where
  key : Text
  label : Text
  code : Text
  title : Text
  product : Option Text
  acceptanceCriteria : Option Text
  tasks : List TaskRow
  deriving DecidableEq

/-- A document, and what loading it gives. -/
structure DocSource where
  ref : Text
  content : Option Text
  deriving DecidableEq

structure Collected where
  stories : List StoryRow
  explicitTasks : List Text
  docs : List DocSource
  refKeys : List Text

/-! ## Filling -/

/-- `LINKED_PLAN_BUDGET` -/
def linkedPlanBudget : Nat := 100000

/-- `FIELD_MAX` -/
def fieldMax : Nat := 20000

/-- `MARKER` -/
def marker : Text := 8230 :: Text.units "[afgekapt]"

/-- `MIN_USEFUL` -/
def minUseful : Nat := 200

def capField (text : Text) : Text :=
  if fieldMax < text.length then text.take fieldMax ++ marker else text

/-- What is in the plan so far: each story with its key, and the documents. -/
structure Contents where
  entries : List (Text × LinkedPlanStory)
  docs : List LinkedPlanDoc

/-- The plan before `references` and `omitted` are filled in. -/
def Contents.plan (source : PlanSource) (contents : Contents) : LinkedPlan :=
  ⟨source, [], contents.entries.map Prod.snd, contents.docs, []⟩

def Contents.putStory (contents : Contents) (story : StoryRow) (criteria : Option Text) :
    Contents :=
  { contents with
    entries := contents.entries ++ [(story.key,
      { code := story.code
        title := story.title
        product := story.product.filter (· ≠ [])
        acceptanceCriteria := criteria
        tasks := [] })] }

def Contents.putTask (contents : Contents) (storyKey : Text) (task : TaskRow) (plan : Option Text) :
    Contents :=
  { contents with
    entries := contents.entries.map fun entry =>
      if entry.1 = storyKey then
        (entry.1,
          { entry.2 with tasks := entry.2.tasks ++ [⟨task.code, task.title, plan⟩] })
      else entry }

def docBase (content : Text) : Text :=
  if fieldMax < content.length then content.take fieldMax else content

def Contents.putDoc (contents : Contents) (ref content text : Text) : Contents :=
  { contents with
    docs := contents.docs ++ [⟨ref, text, fieldMax < content.length ∨ text ≠ docBase content⟩] }

structure Draft where
  contents : Contents
  full : Bool
  omitted : List Text
  docRefs : List Text
  placedTasks : List Text

/-- What trying an item comes to. -/
structure Fitted where
  contents : Contents
  full : Bool
  placed : Bool

section Filling

variable (source : PlanSource) (limit : Int)

def size (contents : Contents) : Nat := (contents.plan source).size

def fits (contents : Contents) : Bool := (size source contents : Int) ≤ limit

def fit (full : Bool) (set : Text → Contents) (text : Text) (unset : Contents) (marker : Text) :
    Fitted :=
  if full then ⟨unset, true, false⟩
  else if fits source limit (set text) then ⟨set text, false, true⟩
  else if text.length ≤ minUseful ∨
      ¬ fits source limit (set (text.take minUseful ++ marker)) then
    ⟨unset, true, false⟩
  else
    let length := bisect (fun length => fits source limit (set (text.take length ++ marker)))
      minUseful (text.length - 1)
    ⟨set (text.take length ++ marker), true, true⟩

/-- An item without text. -/
def fitBare (full : Bool) (set unset : Contents) : Fitted :=
  if ¬ full ∧ fits source limit set then ⟨set, false, true⟩ else ⟨unset, true, false⟩

def addStory (draft : Draft) (story : StoryRow) : Draft :=
  let fitted := (story.acceptanceCriteria.filter (· ≠ [])).elim
    (fitBare source limit draft.full (draft.contents.putStory story none) draft.contents)
    fun text => fit source limit draft.full
      (fun text => draft.contents.putStory story (some text)) (capField text) draft.contents marker
  { draft with
    contents := fitted.contents
    full := fitted.full
    omitted := if fitted.placed then draft.omitted else draft.omitted ++ [story.label] }

def addTask (draft : Draft) (storyKey : Text) (task : TaskRow) : Draft :=
  if ¬ (draft.contents.entries.map Prod.fst).contains storyKey then
    { draft with omitted := draft.omitted ++ [task.label] }
  else
    let fitted := (task.implementationPlan.filter (· ≠ [])).elim
      (fitBare source limit draft.full (draft.contents.putTask storyKey task none) draft.contents)
      fun text => fit source limit draft.full
        (fun text => draft.contents.putTask storyKey task (some text)) (capField text)
        draft.contents marker
    { draft with
      contents := fitted.contents
      full := fitted.full
      omitted := if fitted.placed then draft.omitted else draft.omitted ++ [task.label]
      placedTasks := if fitted.placed then draft.placedTasks ++ [task.key]
        else draft.placedTasks }

def addDoc (draft : Draft) (doc : DocSource) : Draft :=
  if draft.full ∨ limit - size source draft.contents < minUseful then
    { draft with full := true, omitted := draft.omitted ++ [doc.ref] }
  else
    (doc.content.filter (· ≠ [])).elim draft fun content =>
      let fitted := fit source limit draft.full
        (fun text => draft.contents.putDoc doc.ref content text) (docBase content)
        draft.contents []
      { draft with
        contents := fitted.contents
        full := fitted.full
        omitted := if fitted.placed then draft.omitted else draft.omitted ++ [doc.ref]
        docRefs := if fitted.placed then draft.docRefs ++ [doc.ref] else draft.docRefs }

/-- What is placed one after the other. -/
inductive Item
  | story (story : StoryRow)
  | task (storyKey : Text) (task : TaskRow)
  | doc (doc : DocSource)
  deriving DecidableEq

def add (draft : Draft) : Item → Draft
  | .story story => addStory source limit draft story
  | .task storyKey task => addTask source limit draft storyKey task
  | .doc doc => addDoc source limit draft doc

end Filling

namespace Collected

/-- The tasks that the description names, or the others. -/
def tasks (collected : Collected) (explicitly : Bool) : List Item :=
  collected.stories.flatMap fun story =>
    (story.tasks.filter fun task =>
      collected.explicitTasks.contains task.key == explicitly).map (.task story.key)

/-- The items in the order in which they are placed. -/
def items (collected : Collected) : List Item :=
  collected.stories.map .story ++ (collected.tasks true ++
    (collected.docs.map .doc ++ collected.tasks false))

def candidates (collected : Collected) : List Text :=
  (collected.stories.flatMap fun story => story.label :: story.tasks.map TaskRow.label) ++
    collected.docs.map DocSource.ref

/-- The room that is left beside `references` and `omitted`. -/
def limit (collected : Collected) : Int :=
  linkedPlanBudget - ((texts collected.candidates).print.length : Int)

/-- The label of each key. -/
def labels (collected : Collected) : List (Text × Text) :=
  collected.stories.flatMap fun story =>
    (story.key, story.label) :: story.tasks.map fun task => (task.key, task.label)

end Collected

def Draft.start : Draft := ⟨⟨[], []⟩, false, [], [], []⟩

def hasText (text : Option Text) : Bool := text.any fun text => Text.trim text ≠ []

def hasContent (contents : Contents) : Bool :=
  contents.docs ≠ [] ∨ (contents.entries.map Prod.snd).any fun story =>
    hasText story.acceptanceCriteria ||
      story.tasks.any fun task => hasText task.implementationPlan

def references (collected : Collected) (draft : Draft) : List Text :=
  (collected.refKeys.filter fun key =>
      (draft.contents.entries.map Prod.fst).contains key || draft.placedTasks.contains key).map
    (fun key => (collected.labels.reverse.lookup key).getD key) ++
  (draft.docRefs.filter (!·.contains 47) ++ draft.docRefs.filter (·.contains 47))

def finished (source : PlanSource) (collected : Collected) : Draft :=
  collected.items.foldl (add source collected.limit) Draft.start

def assembleWithinBudget (source : PlanSource) (collected : Collected) : Option LinkedPlan :=
  let draft := finished source collected
  if hasContent draft.contents then
    some { draft.contents.plan source with
      references := references collected draft
      omitted := draft.omitted }
  else none

end LinkedPlans
end Scrum4Me
