import ZkLlmGateway.Client.Mapping
import ZkLlmGateway.Client.Prompt

/-!
# The rolling summary

After every answer the last two messages are added to the summary: by a local
summarizer, or else as two lines behind what is there already.  The fallback
counts what is too much in bytes and removes as many characters.
-/

namespace ZkLlmGateway.Client

open ZkLlmGateway.Encoding ZkLlmGateway.Common

/-- The messages of the most recent turn. -/
def lastTurn (messages : List ChatMessage) : List ChatMessage :=
  (messages.reverse.take 2).reverse

/-- The line of a message: at most three hundred characters of it. -/
def summaryLine (m : ChatMessage) : Text :=
  let snippet := m.content.take 300
  text "- " ++ m.role ++ text ": " ++ snippet ++ text "\n"

def summaryLines (turn : List ChatMessage) : Text :=
  turn.flatMap summaryLine

/-- The fallback: append the turn and keep the end. -/
def naiveSummary (summary : Text) (turn : List ChatMessage) : Text :=
  let summary := summary ++ summaryLines turn
  if byteLen summary > 4000 then
    let keep := byteLen summary - 4000
    summary.drop keep
  else summary

/-- A local summarizer answers with a summary, or fails. -/
abbrev LocalAiClient := Text → List ChatMessage → Option Text

namespace AgentRuntime

/-- The redacted representation of the most recent turn, and the redactor afterwards. -/
def turnRedacted (engine : Engine) (agent : AgentRuntime) : List ChatMessage × Redactor :=
  redactMessages engine agent.redactMode agent.extraTerms agent.redactor
    (lastTurn agent.session.messages)

def updateSummary (engine : Engine) (localAi : Option LocalAiClient) (agent : AgentRuntime) :
    AgentRuntime :=
  let (turn, redactor) := agent.turnRedacted engine
  let summary :=
    match localAi.bind fun client => client agent.session.summary turn with
    | some summary => summary
    | none => naiveSummary agent.session.summary turn
  { agent with
    redactor := redactor
    session := { agent.session with summary := summary } }

/-- The naive fallback runs: there is no local summarizer, or it fails. -/
def FallsBack (engine : Engine) (localAi : Option LocalAiClient) (agent : AgentRuntime) : Prop :=
  ∀ client ∈ localAi, client agent.session.summary (agent.turnRedacted engine).1 = none

end AgentRuntime

/-- A summary that keeps the end of what was there, and all of the lines that were appended. -/
structure KeepsNewest (old lines new : Text) : Prop where
  isSuffix : new <:+ old ++ lines
  short : byteLen new ≤ 4000
  newest : lines <:+: new

/-! ## The most recent turn -/

theorem length_lastTurn_le (messages : List ChatMessage) : (lastTurn messages).length ≤ 2 := by
  rw [lastTurn, List.length_reverse]
  exact List.length_take_le 2 _

/-- Redaction keeps who said it. -/
theorem map_role_redactMessages (engine : Engine) (mode : RedactMode) (extraTerms : List Text)
    (red : Redactor) (messages : List ChatMessage) :
    (redactMessages engine mode extraTerms red messages).1.map ChatMessage.role =
      messages.map ChatMessage.role := by
  induction messages generalizing red with
  | nil => rfl
  | cons message messages inductionHypothesis =>
      rw [redactMessages, List.map_cons, List.map_cons, inductionHypothesis]

/-! ## Bytes and characters -/

/-- Characters that are dropped take a byte each, at least. -/
theorem byteLen_drop_le (content : Text) (count : Nat) :
    byteLen (content.drop count) ≤ byteLen content - count := by
  rcases Nat.le_total count content.length with fits | beyond
  · have split := byteLen_append (content.take count) (content.drop count)
    rw [List.take_append_drop] at split
    have taken := length_le_byteLen (content.take count)
    rw [List.length_take_of_le fits] at taken
    omega
  · rw [List.drop_eq_nil_of_le beyond, byteLen_nil]
    exact Nat.zero_le _

theorem byteLen_le_four (content : Text) : byteLen content ≤ 4 * content.length := by
  induction content with
  | nil => exact le_rfl
  | cons char content inductionHypothesis =>
      have size := char.utf8Size_le_four
      rw [byteLen_cons, List.length_cons]
      omega

/-- The end of a text has all of its last part when no more than the first part is dropped. -/
theorem infix_drop_append_iff {front back : Text} (nonempty : back ≠ []) (count : Nat) :
    back <:+: (front ++ back).drop count ↔ count ≤ front.length := by
  constructor
  · intro isInfix
    have long := isInfix.length_le
    rw [List.length_drop, List.length_append] at long
    have positive := List.length_pos_iff.mpr nonempty
    omega
  · intro fits
    rw [List.drop_append_of_le_length fits]
    exact (List.suffix_append _ back).isInfix

section Fallback

variable {summary : Text} {turn : List ChatMessage}

theorem naiveSummary_suffix (summary : Text) (turn : List ChatMessage) :
    naiveSummary summary turn <:+ summary ++ summaryLines turn := by
  unfold naiveSummary
  simp only
  split
  · exact List.drop_suffix _ _
  · exact List.suffix_rfl

theorem byteLen_naiveSummary_le (summary : Text) (turn : List ChatMessage) :
    byteLen (naiveSummary summary turn) ≤ 4000 := by
  unfold naiveSummary
  simp only
  split
  next long =>
    have dropped := byteLen_drop_le (summary ++ summaryLines turn)
      (byteLen (summary ++ summaryLines turn) - 4000)
    omega
  next short => exact not_lt.mp short

/-- The lines stay as long as the excess in bytes is at most the old summary in characters. -/
theorem infix_naiveSummary_iff (short : byteLen summary ≤ 4000) :
    summaryLines turn <:+: naiveSummary summary turn ↔
      byteLen (summary ++ summaryLines turn) ≤ 4000 + summary.length := by
  unfold naiveSummary
  simp only
  split
  next long =>
    have nonempty : summaryLines turn ≠ [] := by
      intro isNil
      rw [isNil, List.append_nil] at long
      omega
    rw [infix_drop_append_iff nonempty]
    omega
  next fits =>
    apply iff_of_true (List.suffix_append summary _).isInfix
    omega

theorem keepsNewest_iff (short : byteLen summary ≤ 4000) :
    KeepsNewest summary (summaryLines turn) (naiveSummary summary turn) ↔
      byteLen (summary ++ summaryLines turn) ≤ 4000 + summary.length := by
  rw [← infix_naiveSummary_iff short]
  exact ⟨KeepsNewest.newest, fun newest =>
    ⟨naiveSummary_suffix summary turn, byteLen_naiveSummary_le summary turn, newest⟩⟩

end Fallback

/-! ## Lines of a turn -/

theorem byteLen_summaryLine_le (m : ChatMessage) :
    byteLen (summaryLine m) ≤ byteLen m.role + 1205 := by
  have cut := byteLen_le_four (m.content.take 300)
  have short := List.length_take_le 300 m.content
  have dash : byteLen (text "- ") = 2 := rfl
  have colon : byteLen (text ": ") = 2 := rfl
  have newline : byteLen (text "\n") = 1 := rfl
  rw [summaryLine, byteLen_append, byteLen_append, byteLen_append, byteLen_append, dash, colon,
    newline]
  omega

theorem byteLen_summaryLines_le {turn : List ChatMessage}
    (roles : ∀ message ∈ turn, message.role = text "user" ∨ message.role = text "assistant") :
    byteLen (summaryLines turn) ≤ turn.length * 1214 := by
  induction turn with
  | nil => exact le_rfl
  | cons message turn inductionHypothesis =>
      have line := byteLen_summaryLine_le message
      have role : byteLen message.role ≤ 9 := by
        rcases roles message List.mem_cons_self with isUser | isAssistant
        · rw [isUser]
          decide
        · rw [isAssistant]
          decide
      have rest := inductionHypothesis fun other member =>
        roles other (List.mem_cons_of_mem message member)
      rw [summaryLines, List.flatMap_cons, byteLen_append, ← summaryLines, List.length_cons]
      omega

namespace AgentRuntime

theorem mem_turnRedacted_role {engine : Engine} {agent : AgentRuntime} {message : ChatMessage}
    (member : message ∈ (agent.turnRedacted engine).1) :
    message.role ∈ (lastTurn agent.session.messages).map ChatMessage.role := by
  rw [← map_role_redactMessages engine agent.redactMode agent.extraTerms agent.redactor]
  exact List.mem_map_of_mem member

theorem length_turnRedacted_le (engine : Engine) (agent : AgentRuntime) :
    (agent.turnRedacted engine).1.length ≤ 2 := by
  have same := congrArg List.length (map_role_redactMessages engine agent.redactMode
    agent.extraTerms agent.redactor (lastTurn agent.session.messages))
  rw [List.length_map, List.length_map] at same
  exact same.le.trans (length_lastTurn_le agent.session.messages)

theorem summary_updateSummary {engine : Engine} {localAi : Option LocalAiClient}
    {agent : AgentRuntime} (fallsBack : agent.FallsBack engine localAi) :
    (agent.updateSummary engine localAi).session.summary =
      naiveSummary agent.session.summary (agent.turnRedacted engine).1 := by
  cases localAi with
  | none => rfl
  | some client =>
      simp only [updateSummary, Option.bind_some, fallsBack client rfl]

/-- **The naive summary keeps the newest turn exactly when** it exceeds 4000 bytes by no more
than the old summary has characters; it is a suffix and short in any case. -/
theorem updateSummary_keepsNewest_iff {engine : Engine} {localAi : Option LocalAiClient}
    {agent : AgentRuntime} (short : byteLen agent.session.summary ≤ 4000)
    (fallsBack : agent.FallsBack engine localAi) :
    let old := agent.session.summary
    let lines := summaryLines (agent.turnRedacted engine).1
    let new := (agent.updateSummary engine localAi).session.summary
    (KeepsNewest old lines new ↔ byteLen (old ++ lines) ≤ 4000 + old.length) ∧
      new <:+ old ++ lines ∧ byteLen new ≤ 4000 ∧
      ((∀ role ∈ (lastTurn agent.session.messages).map ChatMessage.role,
          role = text "user" ∨ role = text "assistant") →
        (∀ char ∈ old, char.utf8Size = 1) → KeepsNewest old lines new) := by
  intro old lines new
  have isNaive : new = naiveSummary old (agent.turnRedacted engine).1 :=
    summary_updateSummary fallsBack
  rw [isNaive]
  refine ⟨keepsNewest_iff short, naiveSummary_suffix _ _, byteLen_naiveSummary_le _ _,
    fun roles ascii => (keepsNewest_iff short).mpr ?_⟩
  have rolesRedacted : ∀ message ∈ (agent.turnRedacted engine).1,
      message.role = text "user" ∨ message.role = text "assistant" := fun message member =>
    roles message.role (mem_turnRedacted_role member)
  have few := byteLen_summaryLines_le rolesRedacted
  have two := length_turnRedacted_le engine agent
  have oneByte : byteLen agent.session.summary = agent.session.summary.length :=
    byteLen_eq_length ascii
  rw [byteLen_append]
  omega

end AgentRuntime

/-- An agent that redacts nothing, in the middle of a conversation. -/
def summarizingAgent (summary : Text) (user assistant : Text) : AgentRuntime where
  endpointUrl := text "http://127.0.0.1:8080/infer"
  gatewayPublicBytes := Block.replicate 32 0
  model := text "gpt"
  tokenClass := .c1024
  redactMode := .none
  extraTerms := []
  sessionPath := utf8 (text "session.json")
  session := { Session.new [] 0 (Block.replicate 32 0) with
    messages := [⟨text "user", user, []⟩, ⟨text "assistant", assistant, []⟩]
    summary := summary }
  redactor := .new (Block.replicate 32 0)

/-- A turn that is cut into its old summary, which has two bytes a character. -/
theorem updateSummary_keepsNewest_cut :
    let agent := summarizingAgent (List.replicate 1990 'é') (text "Hi") (text "Hello")
    KeepsNewest agent.session.summary (summaryLines (agent.turnRedacted (.ofTable [])).1)
        (agent.updateSummary (.ofTable []) none).session.summary ∧
      (agent.updateSummary (.ofTable []) none).session.summary ≠
        agent.session.summary ++ summaryLines (agent.turnRedacted (.ofTable [])).1 := by
  intro agent
  have fallsBack : agent.FallsBack (.ofTable []) none := nofun
  have within : byteLen agent.session.summary ≤ 4000 := by decide +kernel
  have keeps := AgentRuntime.updateSummary_keepsNewest_iff within fallsBack
  refine ⟨keeps.1.mpr (by decide +kernel), fun same => ?_⟩
  -- The whole would be too long.
  have short := keeps.2.2.1
  rw [same] at short
  exact absurd short (by decide +kernel)

/-- Four bytes a character, before and in a turn of six hundred characters. -/
theorem updateSummary_not_keepsNewest : ¬∀ (engine : Engine) (localAi : Option LocalAiClient)
    (agent : AgentRuntime), byteLen agent.session.summary ≤ 4000 →
    agent.FallsBack engine localAi →
    (∀ role ∈ (lastTurn agent.session.messages).map ChatMessage.role,
      role = text "user" ∨ role = text "assistant") →
    KeepsNewest agent.session.summary (summaryLines (agent.turnRedacted engine).1)
      (agent.updateSummary engine localAi).session.summary := by
  intro claim
  have keeps := claim (.ofTable []) none (summarizingAgent (List.replicate 1000 '😀')
    (List.replicate 300 '😀') (List.replicate 300 '😀')) (by decide +kernel) nofun
    (by decide +kernel)
  exact absurd keeps.newest.length_le (by decide +kernel)

end ZkLlmGateway.Client
