import Scrum4Me.Usage.Transcripts

/-!
# Each message once

What is stored after a job adds up the files of its session one by one. It is the usage
of the distinct messages exactly if no message with usage is in two of the files.
-/

namespace Scrum4Me
namespace Usage

open Foundation

/-! ## Messages -/

def TokenUsage.spent (usage : TokenUsage) : Nat :=
  usage.inputTokens.getD 0 + usage.outputTokens.getD 0 +
    usage.cacheReadInputTokens.getD 0 + usage.cacheCreationInputTokens.getD 0

/-- All tokens of a line. -/
def TranscriptLine.spent (line : TranscriptLine) : Nat :=
  line.usage.elim 0 TokenUsage.spent

/-- The lines of the main agent after which `wait_for_job` has not been called. -/
def afterLastWait (lines : List TranscriptLine) : List TranscriptLine :=
  (lines.filter fun line => ¬ line.isSidechain.getD false).rtakeWhile fun line =>
    ¬ line.hasToolUse waitToolName

/-- The sum of what the lines carry. -/
def usageOf (lines : List TranscriptLine) : UsageTotals :=
  (lines.filterMap (·.usage)).foldl UsageTotals.count .zero

section Reading

variable (parse : String → Option TranscriptLine)

namespace Session

variable (session : Session)

def mainLines : List TranscriptLine :=
  session.transcript.elim [] fun raw => afterLastWait (parseTranscript parse raw)

/-- The messages of the main transcript, and the lines of the sub-agents that claim to
be of the assistant. -/
def counted : List TranscriptLine :=
  (session.mainLines parse).filter (·.IsAssistant) ++
    (session.subagentLines parse).flatten.filter (·.type = some "assistant")

/-- The messages of the assistant that have a uuid. -/
def messages : List TranscriptLine :=
  (session.mainLines parse ++ (session.subagentLines parse).flatten).filter fun line =>
    line.IsAssistant ∧ line.key ≠ none

/-- The distinct uuids, each with the message that has it first. -/
def distinctMessages : List TranscriptLine :=
  firstOccurrences TranscriptLine.key (session.messages parse)

/-- What is counted is a message with a uuid, unless it carries nothing, and no uuid
carries anything a second time. -/
def CountedOnce : Prop :=
  (∀ line ∈ session.counted parse,
    (line.IsAssistant ∧ line.key ≠ none) ∨ line.spent = 0) ∧
      WeightlessRepeats TranscriptLine.key TranscriptLine.spent (session.messages parse)

instance : Decidable (session.CountedOnce parse) :=
  inferInstanceAs (Decidable (_ ∧ _))

end Session

/-! ## What is added up -/

/-- The tokens of one kind that a line carries. -/
def TranscriptLine.tokens (kind : TokenUsage → Option Nat) (line : TranscriptLine) :
    Nat :=
  line.usage.elim 0 fun usage => (kind usage).getD 0

theorem spent_eq (line : TranscriptLine) :
    line.spent = line.tokens (·.inputTokens) + line.tokens (·.outputTokens) +
      line.tokens (·.cacheReadInputTokens) + line.tokens (·.cacheCreationInputTokens) := by
  unfold TranscriptLine.spent TranscriptLine.tokens TokenUsage.spent
  cases line.usage <;> rfl

theorem foldl_count (totals : UsageTotals) (usages : List TokenUsage) :
    usages.foldl UsageTotals.count totals = totals.add
        { input := (usages.map fun usage => usage.inputTokens.getD 0).sum
          output := (usages.map fun usage => usage.outputTokens.getD 0).sum
          cacheRead := (usages.map fun usage => usage.cacheReadInputTokens.getD 0).sum
          cacheWrite :=
            (usages.map fun usage => usage.cacheCreationInputTokens.getD 0).sum } := by
  induction usages generalizing totals with
  | nil => rfl
  | cons usage rest ih =>
    rw [List.foldl_cons, ih]
    simp only [UsageTotals.add, UsageTotals.count, List.map_cons, List.sum_cons, Nat.add_assoc]

theorem sum_filterMap_usage (kind : TokenUsage → Option Nat) (lines : List TranscriptLine) :
    ((lines.filterMap (·.usage)).map fun usage =>
      (kind usage).getD 0).sum = (lines.map (·.tokens kind)).sum := by
  induction lines with
  | nil => rfl
  | cons line rest ih =>
    rw [List.map_cons, List.sum_cons, ← ih, TranscriptLine.tokens]
    cases usage : line.usage with
    | none => rw [List.filterMap_cons_none usage, Option.elim_none, Nat.zero_add]
    | some carried =>
      rw [List.filterMap_cons_some usage, List.map_cons, List.sum_cons, Option.elim_some]

theorem usageOf_eq (lines : List TranscriptLine) :
    usageOf lines =
      { input := (lines.map (·.tokens (·.inputTokens))).sum
        output := (lines.map (·.tokens (·.outputTokens))).sum
        cacheRead := (lines.map (·.tokens (·.cacheReadInputTokens))).sum
        cacheWrite := (lines.map (·.tokens (·.cacheCreationInputTokens))).sum } := by
  rw [usageOf, foldl_count]
  simp only [sum_filterMap_usage, UsageTotals.add, UsageTotals.zero, Nat.zero_add]

theorem sum_spent (lines : List TranscriptLine) :
    (lines.map TranscriptLine.spent).sum = (usageOf lines).input + (usageOf lines).output +
      (usageOf lines).cacheRead + (usageOf lines).cacheWrite := by
  rw [usageOf_eq]
  induction lines with
  | nil => rfl
  | cons line rest ih =>
    simp only [List.map_cons, List.sum_cons] at ih ⊢
    rw [ih, spent_eq]
    omega

/-- A part of the lines carries as much as all of them exactly if it does so over all
four kinds together. -/
theorem usageOf_eq_iff {part lines : List TranscriptLine} (sublist : part.Sublist lines) :
    usageOf lines = usageOf part ↔
      (part.map TranscriptLine.spent).sum = (lines.map TranscriptLine.spent).sum := by
  have bound : ∀ kind : TokenUsage → Option Nat,
      (part.map (·.tokens kind)).sum ≤ (lines.map (·.tokens kind)).sum := fun kind =>
    (sublist.map (·.tokens kind)).sum_le_sum fun _ _ => Nat.zero_le _
  have input := bound (·.inputTokens)
  have output := bound (·.outputTokens)
  have cacheRead := bound (·.cacheReadInputTokens)
  have cacheWrite := bound (·.cacheCreationInputTokens)
  rw [sum_spent, sum_spent, usageOf_eq, usageOf_eq]
  dsimp only
  rw [UsageTotals.mk.injEq]
  omega

/-! ## The window -/

theorem drop_findIdx_reverse (matching : α → Bool) (elements : List α) :
    elements.drop (elements.length - elements.reverse.findIdx matching) =
      elements.rtakeWhile fun element => ¬ matching element := by
  rw [List.rtakeWhile, List.takeWhile_eq_take_findIdx_not, List.reverse_take,
    List.reverse_reverse, List.length_reverse]
  simp

theorem mainWindow_eq (lines : List TranscriptLine) : mainWindow lines = afterLastWait lines := by
  unfold mainWindow afterLastWait
  exact drop_findIdx_reverse _ _

/-! ## What is stored -/

variable {parse : String → Option TranscriptLine} {session : Session}

theorem filterMap_mainUsage (lines : List TranscriptLine) :
    lines.filterMap (·.mainUsage) = (lines.filter (·.IsAssistant)).filterMap (·.usage) := by
  rw [List.filterMap_filter]
  refine List.filterMap_congr fun line _ => ?_
  unfold TranscriptLine.mainUsage
  by_cases spoken : line.IsAssistant <;> simp [spoken]

theorem filterMap_subagentUsage (lines : List TranscriptLine) :
    lines.filterMap (·.subagentUsage) =
      (lines.filter (·.type = some "assistant")).filterMap (·.usage) := by
  rw [List.filterMap_filter]
  refine List.filterMap_congr fun line _ => ?_
  unfold TranscriptLine.subagentUsage
  by_cases typed : line.type = some "assistant" <;> simp [typed]

theorem sumSubagentUsage_eq :
    sumSubagentUsage parse session =
      usageOf ((session.subagentLines parse).flatten.filter (·.type = some "assistant")) := by
  unfold sumSubagentUsage usageOf
  rw [← filterMap_subagentUsage]
  generalize UsageTotals.zero = totals
  induction session.subagentLines parse generalizing totals with
  | nil => rfl
  | cons lines rest ih =>
    rw [List.foldl_cons, ih, List.flatten_cons, List.filterMap_append, List.foldl_append]

theorem usageOf_append (first second : List TranscriptLine) :
    usageOf (first ++ second) = (usageOf first).add (usageOf second) := by
  simp only [usageOf_eq, UsageTotals.add, List.map_append, List.sum_append]

theorem exists_of_elim {found : Option α} {missing result : β} {build : α → β}
    (built : found.elim missing build = result) (apart : missing ≠ result) :
    ∃ value, found = some value ∧ build value = result := by
  cases found with
  | none => exact absurd built apart
  | some value => exact ⟨value, rfl, built⟩

/-- The snapshot adds up what is counted. -/
theorem totals_of_written {input : HookInput} {jobId : String} {usage : ComputedUsage}
    (stored : persistJobUsage parse input session = .written jobId usage) :
    usage.totals = usageOf (session.counted parse) := by
  have skipped : PersistJobUsageResult.skipped ≠ .written jobId usage := by
    intro same
    cases same
  unfold persistJobUsage at stored
  split at stored
  · exact absurd stored skipped
  · split at stored
    · exact absurd stored skipped
    · obtain ⟨id, -, stored⟩ := exists_of_elim stored skipped
      obtain ⟨path, -, stored⟩ := exists_of_elim stored skipped
      obtain ⟨raw, found, stored⟩ := exists_of_elim stored skipped
      dsimp only at stored
      split at stored
      · cases stored
      · injection stored with _ same
        have mainLines : session.mainLines parse = afterLastWait (parseTranscript parse raw) := by
          rw [Session.mainLines, found, Option.elim_some]
        rw [← same, Session.counted, mainLines, usageOf_append, ← sumSubagentUsage_eq,
          usageOf, ← filterMap_mainUsage, ← mainWindow_eq]
        rfl

/-! ## The messages -/

theorem messages_eq :
    session.messages parse =
      (session.counted parse).filter fun line => line.IsAssistant ∧ line.key ≠ none := by
  unfold Session.messages Session.counted
  rw [List.filter_append, List.filter_append, List.filter_filter, List.filter_filter]
  congr 1
  · refine List.filter_congr fun line _ => ?_
    by_cases spoken : line.IsAssistant <;> simp [spoken]
  · refine List.filter_congr fun line _ => ?_
    by_cases spoken : line.IsAssistant
    · simp [spoken, spoken.1]
    · simp [spoken]

/-- The distinct messages carry what is counted exactly if each counts once. -/
theorem usageOf_counted_iff :
    usageOf (session.counted parse) = usageOf (session.distinctMessages parse) ↔
      session.CountedOnce parse := by
  have kept : (session.messages parse).Sublist (session.counted parse) := by
    rw [messages_eq]
    exact List.filter_sublist
  have firsts : (session.distinctMessages parse).Sublist (session.messages parse) :=
    firstOccurrences_sublist _
  have firstBound := (firsts.map TranscriptLine.spent).sum_le_sum fun _ _ => Nat.zero_le _
  have keptBound := (kept.map TranscriptLine.spent).sum_le_sum fun _ _ => Nat.zero_le _
  have repeats : ((session.distinctMessages parse).map TranscriptLine.spent).sum =
      ((session.messages parse).map TranscriptLine.spent).sum ↔
        WeightlessRepeats TranscriptLine.key TranscriptLine.spent (session.messages parse) :=
    sum_firstOccurrences_iff TranscriptLine.spent (session.messages parse)
  have others : ((session.messages parse).map TranscriptLine.spent).sum =
      ((session.counted parse).map TranscriptLine.spent).sum ↔ ∀ line ∈ session.counted parse,
          (line.IsAssistant ∧ line.key ≠ none) ∨ line.spent = 0 := by
    rw [messages_eq, sum_filter_iff]
    simp only [decide_eq_true_eq]
  rw [usageOf_eq_iff (firsts.trans kept), Session.CountedOnce, ← repeats, ← others]
  omega

/-- No uuid carries anything twice. -/
theorem nodup_of_countedOnce (once : session.CountedOnce parse) :
    (((session.counted parse).filter (·.spent ≠ 0)).filterMap TranscriptLine.key).Nodup := by
  obtain ⟨spoken, repeats⟩ := once
  rw [messages_eq, WeightlessRepeats, List.pairwise_filter] at repeats
  rw [List.nodup_iff_pairwise_ne, List.pairwise_filterMap, List.pairwise_filter]
  refine repeats.imp_of_mem fun {first second} firstMember secondMember apart earlier later
    name named other othersName same => ?_
  have firstSpoken := (spoken first firstMember).resolve_right (of_decide_eq_true earlier)
  have secondSpoken := (spoken second secondMember).resolve_right (of_decide_eq_true later)
  rcases apart (decide_eq_true firstSpoken) (decide_eq_true secondSpoken) with
    missing | differs | weightless
  · exact firstSpoken.2 missing
  · exact differs (named.trans ((congrArg some same).trans othersName.symm))
  · exact of_decide_eq_true later weightless

end Reading

/-! ## A message in two files -/

namespace TwoFiles

/-- A line with a message of the assistant. -/
def text (uuid input : String) : String :=
  "\x7b\"type\":\"assistant\",\"uuid\":\"" ++ uuid ++
    "\",\"message\":\x7b\"role\":\"assistant\",\"usage\":\x7b\"input_tokens\":" ++ input ++
      "\x7d\x7d\x7d"

def message (uuid : String) (input : Nat) : TranscriptLine where
  type := some "assistant"
  uuid := some uuid
  isSidechain := none
  message :=
    some
      { role := some "assistant"
        model := none
        content := none
        usage := some ⟨some input, none, none, none⟩ }

def parse (line : String) : Option TranscriptLine :=
  if line = text "u1" "10" then some (message "u1" 10)
  else if line = text "u2" "7" then some (message "u2" 7)
  else none

def input : HookInput where
  transcriptPath := some "/sessions/s.jsonl"
  toolName := some updateToolName
  status := some "done"
  jobId := some "job"

/-- The main transcript ends in a line that is cut off. -/
def session (subagent : List String) : Session where
  transcript := some [text "u1" "10", "\x7b\"type\":"]
  subagents := some [{ name := "agent-1.jsonl", raw := some subagent }]

/-- The sub-agent has a message of its own. -/
def apart : Session := session [text "u2" "7"]

/-- The message of the main transcript is written into that of the sub-agent too. -/
def rewritten : Session := session [text "u1" "10", text "u2" "7"]

end TwoFiles

end Usage
end Scrum4Me
