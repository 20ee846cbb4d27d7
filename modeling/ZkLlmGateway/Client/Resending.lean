import ZkLlmGateway.Client.Agreement
import ZkLlmGateway.Client.Recall

/-!
# A message that is sent again

A message is stored and indexed before anything is built or sent, and nothing
takes it out when a later step fails: the next prompt has it, and to send it
again stores it again.
-/

namespace ZkLlmGateway.Client

open ZkLlmGateway.Encoding ZkLlmGateway.Common ZkLlmGateway.Gateway

/-- What a call that sends a message draws and meets. -/
structure SendEnvironment (F : Type) where
  orders : IndexedAgent.RetrievalOrders F
  draws : Nat → Fin 12
  random : SendRandomness
  source : FileTicketSource
  write : FileWrite
  answer : HttpAnswer
  /-- The order in which placeholders are rehydrated. -/
  order : List Text
  localAi : Option LocalAiClient

/-- What a call returns once its prompt is built; the ticket source is shared and left out. -/
def AgentRuntime.outcomeOf {F : Type} (replies : ReplyLibrary) (state : AppState)
    (agent : AgentRuntime) (environment : SendEnvironment F) (remoteMessages : List ChatMessage) :
    Except SendError Text :=
  match agent.postRequest state environment.random remoteMessages environment.source
      environment.write with
  | (.error e, _) => .error e
  | (.ok posted, _) =>
      agent.receiveResponse replies state posted environment.order environment.answer

namespace IndexedAgent

variable {F : Type} [Field F] [LinearOrder F]

/-- The agent with the redactor as it is when the prompt is built. -/
def prompted (engine : Engine) (agent : IndexedAgent F) (retrieved : RetrievedBundle) :
    AgentRuntime :=
  { agent.toAgentRuntime with
    redactor := ((agent.promptSource retrieved).assembled engine agent.redactor).2 }

/-- `send_user_message` can return `outcome`, and leave the agent as `next`. -/
def Sends (engine : Engine) (library : IndexLibrary F) (replies : ReplyLibrary) (state : AppState)
    (agent : IndexedAgent F) (userMsg : Text) (environment : SendEnvironment F)
    (outcome : Except SendError Text) (next : IndexedAgent F) : Prop :=
  ∃ retrieved remoteMessages,
    (agent.pushUser library.unicode userMsg).retrieve library environment.orders userMsg =
      some retrieved ∧
    BuildsRemoteMessages engine environment.draws
      ((agent.pushUser library.unicode userMsg).promptSource retrieved)
      (agent.pushUser library.unicode userMsg).redactor remoteMessages ∧
    ((agent.pushUser library.unicode userMsg).prompted engine retrieved).outcomeOf replies state
      environment remoteMessages = outcome ∧
    agent.sendUserMessage engine library environment.localAi environment.orders userMsg outcome =
      next

/-- The message as it is stored. -/
def userMessage (userMsg : Text) : ChatMessage :=
  ⟨text "user", userMsg, []⟩

/-- How often the message is in the history. -/
def timesRecorded (userMsg : Text) (agent : IndexedAgent F) : Nat :=
  agent.session.messages.countP fun message =>
    message.role = text "user" && message.content = userMsg

/-- The history, the summary and the documents in the index are the same. -/
structure WithoutTrace (agent next : IndexedAgent F) : Prop where
  messages : next.session.messages = agent.session.messages
  summary : next.session.summary = agent.session.summary
  docs : ∀ doc, doc ∈ next.memoryStore.docs ↔ doc ∈ agent.memoryStore.docs

/-- The message is stored and indexed, and nothing else of the history, the summary and the
index has changed. -/
structure LeavesMessage (userMsg : Text) (agent next : IndexedAgent F) : Prop where
  messages : next.session.messages = agent.session.messages ++ [userMessage userMsg]
  summary : next.session.summary = agent.session.summary
  docs : next.memoryStore.docs = agent.memoryStore.docs ++
    [messageDoc agent.session.messages.length (userMessage userMsg)]

section Sends

variable {engine : Engine} {library : IndexLibrary F} {replies : ReplyLibrary} {state : AppState}
  {agent next final : IndexedAgent F} {userMsg : Text} {environment : SendEnvironment F}

/-- Wherever a call fails, it leaves its message. -/
theorem Sends.leavesMessage {problem : SendError}
    (fails : Sends engine library replies state agent userMsg environment (.error problem) next) :
    LeavesMessage userMsg agent next := by
  obtain ⟨retrieved, _, isRetrieved, _, _, rfl⟩ := fails
  simp only [sendUserMessage, isRetrieved]
  constructor
  · rfl
  · rfl
  · exact MemoryStore.docs_addDoc _ _

/-- A call that succeeds stores its message and the answer. -/
theorem Sends.messages_of_ok {out : Text}
    (succeeds : Sends engine library replies state agent userMsg environment (.ok out) next) :
    next.session.messages =
      agent.session.messages ++ [userMessage userMsg, ⟨text "assistant", out, []⟩] := by
  obtain ⟨retrieved, _, isRetrieved, _, _, rfl⟩ := succeeds
  simp only [sendUserMessage, isRetrieved]
  exact List.append_assoc agent.session.messages [_] [_]

omit [Field F] [LinearOrder F] in
theorem timesRecorded_of_append {more : List ChatMessage}
    (same : next.session.messages = agent.session.messages ++ more) :
    timesRecorded userMsg next = timesRecorded userMsg agent +
      more.countP fun message => message.role = text "user" && message.content = userMsg := by
  rw [timesRecorded, same, List.countP_append, timesRecorded]

/-- **A call that fails leaves its message**, so that it is recorded twice when it is sent again
and answered. -/
theorem recordedTwice_of_failed {problem : SendError}
    (fails : Sends engine library replies state agent userMsg environment (.error problem) next) :
    LeavesMessage userMsg agent next ∧
      ∀ (replies : ReplyLibrary) (state : AppState) (environment : SendEnvironment F) (out : Text)
        (final : IndexedAgent F),
        Sends engine library replies state next userMsg environment (.ok out) final →
          final.session.messages = agent.session.messages ++
              [userMessage userMsg, userMessage userMsg, ⟨text "assistant", out, []⟩] ∧
            timesRecorded userMsg final = timesRecorded userMsg agent + 2 := by
  have leaves := fails.leavesMessage
  refine ⟨leaves, fun replies state environment out final succeeds => ?_⟩
  have messages : final.session.messages = agent.session.messages ++
      [userMessage userMsg, userMessage userMsg, ⟨text "assistant", out, []⟩] := by
    rw [succeeds.messages_of_ok, leaves.messages, List.append_assoc]
    rfl
  refine ⟨messages, ?_⟩
  rw [timesRecorded_of_append messages]
  have notUser : text "assistant" ≠ text "user" := by decide
  simp [userMessage, notUser]

end Sends

end IndexedAgent

/-! ## No ticket -/

/-- The context block has nothing of a session. -/
def bareConfig : PromptBuildConfig where
  maxRecentMessages := 8
  maxMemoryItems := 0
  includeSummary := false
  normalizeContextBlocks := true
  padSystemPrompt := false
  maxPaddingBytes := 0
  maxRecallSnippets := 0

noncomputable def bareAgent : IndexedAgent ℝ :=
  .new realLibrary.unicode quietSettings bareConfig [] (.new [] 0 (Block.replicate 32 0))
    (.new (Block.replicate 32 0)) true 8

/-- There is no ticket in the source. -/
def withoutTickets : SendEnvironment ℝ where
  orders := storedOrders
  draws _ := 0
  random := ⟨Block.replicate 16 0, Block.replicate 32 0, Block.replicate 32 0, Block.replicate 12 0⟩
  source := ⟨some [], []⟩
  write := .written
  answer := .sendFailed
  order := []
  localAi := none

/-- The first prompt of the agent, whatever is retrieved. -/
def bareSource (retrieved : RetrievedContext) : PromptSource where
  session := { Session.new [] 0 (Block.replicate 32 0) with
    messages := [IndexedAgent.userMessage (text "Hi there")] }
  retrieved := retrieved
  tokenClass := quietSettings.tokenClass
  redactMode := quietSettings.redactMode
  extraRedactionTerms := quietSettings.extraTerms
  cfg := bareConfig

theorem within_bareSource (retrieved : RetrievedContext) :
    approxPromptBytes ((bareSource retrieved).assembled (.ofTable [])
      (.new (Block.replicate 32 0))).1 ≤ (bareSource retrieved).tokenClass.maxPromptBytes := by
  have same : (bareSource retrieved).assembled (.ofTable []) (.new (Block.replicate 32 0)) =
      (bareSource ⟨[], []⟩).assembled (.ofTable []) (.new (Block.replicate 32 0)) := rfl
  rw [same]
  change _ ≤ (bareSource ⟨[], []⟩).tokenClass.maxPromptBytes
  decide +kernel

theorem exists_sends_withoutTickets : ∃ next, IndexedAgent.Sends (.ofTable []) realLibrary
    ClientState.plainReplies plainState bareAgent (text "Hi there") withoutTickets
      (.error (.ticket .empty)) next := by
  have indexed : IndexedAgent.Indexed realLibrary.unicode (IndexedAgent.firstIndexed 0 true 8)
      (bareAgent.pushUser realLibrary.unicode (text "Hi there")) :=
    (IndexedAgent.indexed_new realLibrary.unicode quietSettings bareConfig []
      (.new [] 0 (Block.replicate 32 0)) (.new (Block.replicate 32 0)) true 8).pushMessage _ _
  obtain ⟨retrieved, isRetrieved⟩ := indexed.exists_retrieve storedOrders (text "Hi there")
  obtain ⟨remoteMessages, built⟩ := exists_buildsRemoteMessages (.ofTable []) (fun _ => 0)
    ((bareAgent.pushUser realLibrary.unicode (text "Hi there")).promptSource retrieved)
    (bareAgent.pushUser realLibrary.unicode (text "Hi there")).redactor
    (within_bareSource retrieved.context)
  refine ⟨_, retrieved, remoteMessages, isRetrieved, built, ?_, rfl⟩
  rw [AgentRuntime.outcomeOf, AgentRuntime.postRequest, FileTicketSource.nextTicket_of_none rfl]

/-- The question is recorded although it could not be sent. -/
theorem recordedTwice_withoutTickets :
    ∃ next, IndexedAgent.LeavesMessage (text "Hi there") bareAgent next ∧
      ∀ (replies : ReplyLibrary) (state : AppState) (environment : SendEnvironment ℝ) (out : Text)
        (final : IndexedAgent ℝ), IndexedAgent.Sends (.ofTable []) realLibrary replies state next
          (text "Hi there") environment (.ok out) final →
        final.timesRecorded (text "Hi there") = 2 := by
  obtain ⟨next, fails⟩ := exists_sends_withoutTickets
  obtain ⟨leaves, again⟩ := IndexedAgent.recordedTwice_of_failed fails
  exact ⟨next, leaves, fun replies state environment out final succeeds =>
    (again replies state environment out final succeeds).2⟩

/-- A call that finds no ticket has left its question. -/
theorem not_withoutTrace_withoutTickets : ¬∀ (engine : Engine) (library : IndexLibrary ℝ)
    (replies : ReplyLibrary) (state : AppState) (agent next : IndexedAgent ℝ) (userMsg : Text)
    (environment : SendEnvironment ℝ) (problem : SendError),
    IndexedAgent.Sends engine library replies state agent userMsg environment (.error problem)
      next → IndexedAgent.WithoutTrace agent next := by
  intro claim
  obtain ⟨next, fails⟩ := exists_sends_withoutTickets
  have same := (claim _ _ _ _ _ _ _ _ _ fails).messages
  have length := congrArg List.length fails.leavesMessage.messages
  rw [same, List.length_append] at length
  exact absurd length (by simp)

end ZkLlmGateway.Client
