import Scrum4Me.Foundation.FirstOccurrences
import Mathlib.Data.List.DropRight

/-!
# Usage read from transcripts

After a job `persistJobUsage` adds up the tokens that its session has used: those of the
main transcript since the job was claimed, and those of the transcripts of sub-agents.
Of a file each message counts once, by its uuid.
-/

namespace Scrum4Me
namespace Usage

open Foundation

/-! ## Lines -/

/-- `Usage`. -/
structure TokenUsage where
  inputTokens : Option Nat
  outputTokens : Option Nat
  cacheCreationInputTokens : Option Nat
  cacheReadInputTokens : Option Nat
  deriving DecidableEq

structure ContentBlock where
  type : Option String
  name : Option String
  deriving DecidableEq

/-- The message of a line; no `content` is one that is not an array. -/
structure TranscriptMessage where
  role : Option String
  model : Option String
  content : Option (List ContentBlock)
  usage : Option TokenUsage
  deriving DecidableEq

structure TranscriptLine where
  type : Option String
  uuid : Option String
  isSidechain : Option Bool
  message : Option TranscriptMessage
  deriving DecidableEq

namespace TranscriptLine

variable (line : TranscriptLine)

/-- The uuid, if it is truthy. -/
def key : Option String := line.uuid.filter (· ≠ "")

def hasToolUse (toolName : String) : Bool :=
  (line.message.bind (·.content)).elim false fun content =>
    content.any fun block => block.type = some "tool_use" ∧ block.name = some toolName

/-- `message?.usage`. -/
def usage : Option TokenUsage := line.message.bind (·.usage)

/-- The lines that the loop over the main transcript does not leave out. -/
def IsAssistant : Prop :=
  line.type = some "assistant" ∧ line.message.bind (·.role) = some "assistant"

instance : Decidable line.IsAssistant := inferInstanceAs (Decidable (_ ∧ _))

/-- The usage that counts in the main transcript. -/
def mainUsage : Option TokenUsage := if line.IsAssistant then line.usage else none

/-- The usage that counts in the transcript of a sub-agent. -/
def subagentUsage : Option TokenUsage :=
  if line.type = some "assistant" then line.usage else none

/-- `msg.model`, if it is truthy. -/
def model : Option String :=
  if line.IsAssistant then (line.message.bind (·.model)).filter (· ≠ "") else none

end TranscriptLine

/-! ## Transcripts -/

section Reading

-- `JSON.parse`: none for a line that it rejects.
variable (parse : String → Option TranscriptLine)

/-- The text is given as its lines. Malformed ones are skipped, as a transcript may be
partially written; of the messages with one uuid the first is kept. -/
def parseTranscript (raw : List String) : List TranscriptLine :=
  firstOccurrences TranscriptLine.key ((raw.filter (· ≠ "")).filterMap parse)

/-- `UsageTotals`. -/
structure UsageTotals where
  input : Nat
  output : Nat
  cacheRead : Nat
  cacheWrite : Nat
  deriving DecidableEq

namespace UsageTotals

def zero : UsageTotals := ⟨0, 0, 0, 0⟩

def add (first second : UsageTotals) : UsageTotals where
  input := first.input + second.input
  output := first.output + second.output
  cacheRead := first.cacheRead + second.cacheRead
  cacheWrite := first.cacheWrite + second.cacheWrite

/-- The totals with the usage of one more message. -/
def count (totals : UsageTotals) (usage : TokenUsage) : UsageTotals where
  input := totals.input + usage.inputTokens.getD 0
  output := totals.output + usage.outputTokens.getD 0
  cacheRead := totals.cacheRead + usage.cacheReadInputTokens.getD 0
  cacheWrite := totals.cacheWrite + usage.cacheCreationInputTokens.getD 0

end UsageTotals

/-- `ComputedUsage`. -/
structure ComputedUsage where
  modelId : Option String
  totals : UsageTotals
  deriving DecidableEq

def waitToolName : String := "mcp__scrum4me__wait_for_job"

def updateToolName : String := "mcp__scrum4me__update_job_status"

/-- The lines of the main agent after the last that called `wait_for_job`, all of them
if none did. -/
def mainWindow (lines : List TranscriptLine) : List TranscriptLine :=
  let main := lines.filter fun line => ¬ line.isSidechain.getD false
  main.drop (main.length - main.reverse.findIdx (·.hasToolUse waitToolName))

-- What `.` matches in a regular expression.
def dotMatches (char : Char) : Bool :=
  char ≠ '\n' ∧ char ≠ '\r' ∧ char ≠ '\u2028' ∧ char ≠ '\u2029'

/-- `replace(/\[(.*?)\]/g, '-$1')`, with the text read since a bracket was opened. -/
def unbracket (opened : Bool) (pending : List Char) : List Char → List Char
  | [] => if opened then '[' :: pending else []
  | char :: rest =>
      if opened then
        if char = ']' then '-' :: pending ++ unbracket false [] rest
        else if dotMatches char then unbracket true (pending ++ [char]) rest
        else '[' :: pending ++ char :: unbracket false [] rest
      else if char = '[' then unbracket true [] rest
      else char :: unbracket false [] rest

def normalizeModelId (raw : String) : String :=
  String.ofList (unbracket false [] raw.toList)

def computeUsageFromTranscript (lines : List TranscriptLine) : ComputedUsage where
  modelId := ((mainWindow lines).filterMap (·.model)).getLast?.map normalizeModelId
  totals := ((mainWindow lines).filterMap (·.mainUsage)).foldl UsageTotals.count .zero

/-! ## Sessions -/

/-- A file in the directory of sub-agents; no text is one that cannot be read. -/
structure SubagentFile where
  name : String
  raw : Option (List String)
  deriving DecidableEq

/-- The files of a session; no directory is one that cannot be listed. -/
structure Session where
  transcript : Option (List String)
  subagents : Option (List SubagentFile)
  deriving DecidableEq

/-- The lines of the sub-agents, file by file. -/
def Session.subagentLines (session : Session) : List (List TranscriptLine) :=
  (((session.subagents.getD []).filter fun file =>
    ".jsonl".toList <:+ file.name.toList).filterMap (·.raw)).map (parseTranscript parse)

def sumSubagentUsage (session : Session) : UsageTotals :=
  (session.subagentLines parse).foldl
    (fun totals lines => (lines.filterMap (·.subagentUsage)).foldl UsageTotals.count totals)
    .zero

/-! ## The hook -/

structure HookInput where
  transcriptPath : Option String
  toolName : Option String
  status : Option String
  jobId : Option String
  deriving DecidableEq

/-- What comes of it; what is written is the snapshot. -/
inductive PersistJobUsageResult
  | skipped
  | noop
  | written (jobId : String) (usage : ComputedUsage)
  deriving DecidableEq

def persistJobUsage (input : HookInput) (session : Session) : PersistJobUsageResult :=
  if input.toolName ≠ some updateToolName then .skipped
  else if input.status ≠ some "done" ∧ input.status ≠ some "failed" then .skipped
  else
    (input.jobId.filter (· ≠ "")).elim .skipped fun jobId =>
      (input.transcriptPath.filter (· ≠ "")).elim .skipped fun _ =>
        session.transcript.elim .skipped fun raw =>
          let main := computeUsageFromTranscript (parseTranscript parse raw)
          let usage := { main with totals := main.totals.add (sumSubagentUsage parse session) }
          -- Neither a model nor usage: nothing to persist.
          if usage.modelId = none ∧ usage.totals = .zero then .noop
          else .written jobId usage

end Reading

end Usage
end Scrum4Me
