import ZkLlmGateway.Client.Persisting
import ZkLlmGateway.Client.Resending
import ZkLlmGateway.Transition.Mutex

/-!
# Operations on an agent

The handlers of the local HTTP API work on an agent with its lock taken.  Most do so
in one go.  A chat waits for the reply of the gateway, for the local summarizer if
there is one, and until its reply is streamed if it is to be; whatever it has done so
far is done when it is given up while it waits.
-/

namespace ZkLlmGateway.Client

open ZkLlmGateway.Encoding ZkLlmGateway.Common ZkLlmGateway.Gateway ZkLlmGateway.Transition

/-! ## Building a prompt with fuel -/

def fillerForPrivacy (fuel : Nat) (draws : Nat → Fin 12) (len : Nat) : Option Text :=
  (loop (fillerRound draws len) fuel (0, [])).map fun (_, out) => out.take len

def enforceBudget (fuel : Nat) (tokenClass : TokenClass) (messages : List ChatMessage) :
    Option (List ChatMessage) :=
  loop (enforceRound tokenClass) fuel messages

def padSystemMessage (fuel : Nat) (tokenClass : TokenClass) (maxPadding : Nat)
    (draws : Nat → Fin 12) (messages : List ChatMessage) : Option (List ChatMessage) :=
  match paddingNeed tokenClass maxPadding messages with
  | none => some messages
  | some need => (fillerForPrivacy fuel draws need).bind fun filler =>
      loop (trimRound tokenClass) fuel (messages.modify 0 (appendContent (padBlock filler)))

def buildRemoteMessages (fuel : Nat) (engine : Engine) (draws : Nat → Fin 12)
    (source : PromptSource) (redactor : Redactor) : Option (List ChatMessage) :=
  (enforceBudget fuel source.tokenClass (source.assembled engine redactor).1).bind fun messages =>
    if source.cfg.padSystemPrompt then
      (padSystemMessage fuel source.tokenClass source.cfg.maxPaddingBytes draws messages).bind
        (enforceBudget fuel source.tokenClass)
    else some messages

/-- What is built is what the loops leave when they end. -/
theorem buildsRemoteMessages_of_eq {fuel : Nat} {engine : Engine} {draws : Nat → Fin 12}
    {source : PromptSource} {redactor : Redactor} {final : List ChatMessage}
    (built : buildRemoteMessages fuel engine draws source redactor = some final) :
    BuildsRemoteMessages engine draws source redactor final := by
  obtain ⟨within, isWithin, rest⟩ := Option.bind_eq_some_iff.mp built
  refine ⟨within, ⟨fuel, isWithin⟩, ?_⟩
  split at rest
  next pads =>
    rw [if_pos pads]
    obtain ⟨padded, isPadded, again⟩ := Option.bind_eq_some_iff.mp rest
    refine ⟨padded, ?_, ⟨fuel, again⟩⟩
    rw [padSystemMessage] at isPadded
    rw [PadsSystemMessage]
    cases needs : paddingNeed source.tokenClass source.cfg.maxPaddingBytes within with
    | none =>
        rw [needs] at isPadded
        exact (Option.some.inj isPadded).symm
    | some need =>
        rw [needs] at isPadded
        obtain ⟨filler, isFiller, trimmed⟩ := Option.bind_eq_some_iff.mp isPadded
        obtain ⟨⟨drawn, out⟩, ended, rfl⟩ := Option.map_eq_some_iff.mp isFiller
        exact ⟨_, ⟨drawn, out, ⟨fuel, ended⟩, rfl⟩, ⟨fuel, trimmed⟩⟩
  next unpadded =>
    rw [if_neg unpadded]
    exact (Option.some.inj rest).symm

/-- A padding that ends does so with enough fuel. -/
theorem exists_padSystemMessage {tokenClass : TokenClass} {maxPadding : Nat}
    {draws : Nat → Fin 12} {messages padded : List ChatMessage}
    (pads : PadsSystemMessage tokenClass maxPadding draws messages padded) :
    ∃ enough, ∀ fuel, enough ≤ fuel →
      padSystemMessage fuel tokenClass maxPadding draws messages = some padded := by
  rw [PadsSystemMessage] at pads
  cases needs : paddingNeed tokenClass maxPadding messages with
  | none =>
      rw [needs] at pads
      refine ⟨0, fun fuel _ => ?_⟩
      rw [padSystemMessage, needs, pads]
  | some need =>
      rw [needs] at pads
      obtain ⟨_, ⟨drawn, out, ⟨first, filled⟩, rfl⟩, second, trimmed⟩ := pads
      refine ⟨max first second, fun fuel enough => ?_⟩
      have fills := loop_mono ((Nat.le_max_left first second).trans enough) filled
      rw [padSystemMessage, needs]
      simp only [fillerForPrivacy, fills, Option.map_some, Option.bind_some]
      exact loop_mono ((Nat.le_max_right first second).trans enough) trimmed

/-- A prompt that is built is built with enough fuel. -/
theorem exists_buildRemoteMessages {engine : Engine} {draws : Nat → Fin 12}
    {source : PromptSource} {redactor : Redactor} {final : List ChatMessage}
    (builds : BuildsRemoteMessages engine draws source redactor final) :
    ∃ fuel, buildRemoteMessages fuel engine draws source redactor = some final := by
  obtain ⟨within, ⟨first, isWithin⟩, rest⟩ := builds
  split at rest
  next pads =>
    obtain ⟨padded, isPadded, last, again⟩ := rest
    obtain ⟨second, pad⟩ := exists_padSystemMessage isPadded
    refine ⟨max first (max second last), ?_⟩
    have enforced := loop_mono (Nat.le_max_left first (max second last)) isWithin
    have isPad := pad (max first (max second last))
      ((Nat.le_max_left second last).trans (Nat.le_max_right first _))
    rw [buildRemoteMessages, enforceBudget, enforced, Option.bind_some, if_pos pads, isPad,
      Option.bind_some]
    exact loop_mono ((Nat.le_max_right second last).trans (Nat.le_max_right first _)) again
  next unpadded =>
    refine ⟨first, ?_⟩
    rw [buildRemoteMessages, enforceBudget, isWithin, Option.bind_some, if_neg unpadded, rest]

/-! ## Operations -/

/-- What the HTTP API does with an agent. -/
inductive AgentOp
  | view (sessionId : Text)
  | messages (limit : Nat)
  | chat (message : Text) (streamed : Bool)
  | memory
  | remember (content : Text) (tags : List Text)
  | search (query : Text) (k : Nat)
  | redactionTerm (term : Text)
  | system (system : Text)
  | save

structure SessionView where
  sessionId : Text
  systemPrompt : Text
  summary : Text
  messageCount : Nat
  memoryCount : Nat
  tokenClass : TokenClass
  model : Text
  sessionPath : Path

inductive AgentReply
  | view (view : SessionView)
  | messages (messages : List ChatMessage)
  | chat (outcome : Except SendError Text)
  | memory (items : List MemoryItem)
  | search (found : RetrievedBundle)
  | ok

/-- What a chat waits for. -/
inductive AgentWait
  | reply (posted : Posted) (streamed : Bool)
  | summary (turn : List ChatMessage) (out : Text) (streamed : Bool)
  | streamed (outcome : Except SendError Text)

/-- What the building and the sending of a prompt draw and meet. -/
structure PromptDraw (F : Type) where
  orders : IndexedAgent.RetrievalOrders F
  fuel : Nat
  draws : Nat → Fin 12
  random : SendRandomness
  source : FileTicketSource
  write : FileWrite

/-- What an operation draws and meets up to where it stops. -/
inductive AgentInput (F : Type)
  | nothing
  | saved (write : SessionWrite)
  | remembered (id : Uuid) (nowMs : Int) (write : SessionWrite)
  | searched (orders : IndexedAgent.RetrievalOrders F)
  | prompted (draw : PromptDraw F)
  | replied (order : List Text) (answer : HttpAnswer) (write : SessionWrite)
  | summarized (summary : Option Text) (write : SessionWrite)
  | sent

/-- What all agents of a client share.  `localAi` tells whether there is a local summarizer. -/
structure AgentContext (F : Type) [Field F] [LinearOrder F] where
  engine : Engine
  library : IndexLibrary F
  replies : ReplyLibrary
  state : AppState
  localAi : Bool

/-- A chat has its outcome, which is streamed with the lock still taken. -/
def Pause.deliver (streamed : Bool) (outcome : Except SendError Text) :
    Pause AgentWait AgentReply :=
  if streamed then .waits (.streamed outcome) else .returns (.chat outcome)

def AgentRuntime.messages (agent : AgentRuntime) (limit : Nat) : List ChatMessage :=
  let n := min limit agent.session.messages.length
  agent.session.messages.drop (agent.session.messages.length - n)

def AgentRuntime.listMemory (agent : AgentRuntime) : List MemoryItem :=
  agent.session.memory

def AgentRuntime.view (agent : AgentRuntime) (sessionId : Text) : SessionView where
  sessionId := sessionId
  systemPrompt := agent.session.systemPrompt
  summary := agent.session.summary
  messageCount := agent.session.messages.length
  memoryCount := agent.session.memory.length
  tokenClass := agent.tokenClass
  model := agent.model
  sessionPath := agent.sessionPath

namespace PersistedAgent

variable {F : Type} [Field F] [LinearOrder F] (context : AgentContext F)

def searchMemory (agent : PersistedAgent F) (orders : IndexedAgent.RetrievalOrders F)
    (query : Text) (k : Nat) : Option RetrievedBundle :=
  agent.memoryStore.retrieveContext context.library orders.memory orders.recalled query k k
    (some agent.excludeCutoff)

/-- The question is stored and the prompt is built. -/
def ask (agent : PersistedAgent F) (message : Text) (retrieved : RetrievedBundle) :
    PersistedAgent F :=
  let pushed := agent.toIndexedAgent.pushUser context.library.unicode message
  { agent with
    toIndexedAgent := { pushed with
      toAgentRuntime := pushed.prompted context.engine retrieved }
    prompted := agent.prompted ++
      ((pushed.promptSource retrieved).records context.engine pushed.redactor).map
        RedactionEntry.placeholder }

/-- The answer is stored. -/
def hear (agent : PersistedAgent F) (out : Text) : PersistedAgent F :=
  { agent with
    toIndexedAgent := agent.toIndexedAgent.pushMessage context.library.unicode
      (text "assistant") out }

/-- The last turn is redacted for the summary. -/
def redactTurn (agent : PersistedAgent F) : PersistedAgent F :=
  { agent with redactor := (agent.turnRedacted context.engine).2 }

/-- The summary and the state of the redactor are kept, and the session is saved. -/
def conclude (agent : PersistedAgent F) (summary : Text) (write : SessionWrite) :
    PersistedAgent F :=
  persist
    { agent with session := { agent.session with
        summary := summary
        redaction := agent.redactor.state } }
    write

/-- `send_user_message` up to the post. -/
def post (agent : PersistedAgent F) (message : Text) (streamed : Bool) (draw : PromptDraw F) :
    Option (PersistedAgent F × Pause AgentWait AgentReply) :=
  let pushed := agent.toIndexedAgent.pushUser context.library.unicode message
  (pushed.retrieve context.library draw.orders message).bind fun retrieved =>
    (buildRemoteMessages draw.fuel context.engine draw.draws (pushed.promptSource retrieved)
      pushed.redactor).map fun remoteMessages =>
        let agent := agent.ask context message retrieved
        match agent.postRequest context.state draw.random remoteMessages draw.source draw.write with
        | (.error e, _) => (agent, Pause.deliver streamed (.error e))
        | (.ok posted, _) => (agent, .waits (.reply posted streamed))

/-- `send_user_message` from the reply up to the summary. -/
def receive (agent : PersistedAgent F) (posted : Posted) (streamed : Bool) (order : List Text)
    (answer : HttpAnswer) (write : SessionWrite) :
    PersistedAgent F × Pause AgentWait AgentReply :=
  match agent.receiveResponse context.replies context.state posted order answer with
  | .error e => (agent, Pause.deliver streamed (.error e))
  | .ok out =>
      let agent := agent.hear context out
      let turn := (agent.turnRedacted context.engine).1
      let agent := agent.redactTurn context
      if context.localAi then (agent, .waits (.summary turn out streamed))
      else (agent.conclude (naiveSummary agent.session.summary turn) write,
        Pause.deliver streamed (.ok out))

def enter (agent : PersistedAgent F) : AgentOp → AgentInput F →
    Option (PersistedAgent F × Pause AgentWait AgentReply)
  | .view sessionId, .nothing => some (agent, .returns (.view (agent.view sessionId)))
  | .messages limit, .nothing => some (agent, .returns (.messages (agent.messages limit)))
  | .memory, .nothing => some (agent, .returns (.memory agent.listMemory))
  | .search query k, .searched orders =>
      (agent.searchMemory context orders query k).map fun found =>
        (agent, .returns (.search found))
  | .remember content tags, .remembered id nowMs write =>
      some (agent.call context.engine context.library
        (.call (.remember id nowMs content tags) write), .returns .ok)
  | .redactionTerm term, .saved write =>
      some (agent.call context.engine context.library (.call (.addRedactionTerm term) write),
        .returns .ok)
  | .system system, .saved write =>
      some (agent.call context.engine context.library (.call (.setSystemPrompt system) write),
        .returns .ok)
  | .save, .saved write => some (agent.persist write, .returns .ok)
  | .chat message streamed, .prompted draw => agent.post context message streamed draw
  | _, _ => none

def resume (agent : PersistedAgent F) : AgentWait → AgentInput F →
    Option (PersistedAgent F × Pause AgentWait AgentReply)
  | .reply posted streamed, .replied order answer write =>
      some (agent.receive context posted streamed order answer write)
  | .summary turn out streamed, .summarized summary write =>
      let summary := summary.getD (naiveSummary agent.session.summary turn)
      some (agent.conclude summary write, Pause.deliver streamed (.ok out))
  | .streamed outcome, .sent => some (agent, .returns (.chat outcome))
  | _, _ => none

def sections : Sections (PersistedAgent F) AgentOp (AgentInput F) AgentWait AgentReply where
  enter := enter context
  resume := resume context

end PersistedAgent

/-! ## What an operation does on its own -/

section Alone

variable {F : Type} [Field F] [LinearOrder F]

/-- What an operation makes of an agent that it has for itself, and what it replies. -/
inductive Performs (context : AgentContext F) (agent : PersistedAgent F) :
    AgentOp → PersistedAgent F → AgentReply → Prop
  | view {sessionId : Text} :
      Performs context agent (.view sessionId) agent (.view (agent.view sessionId))
  | messages {limit : Nat} :
      Performs context agent (.messages limit) agent (.messages (agent.messages limit))
  | memory : Performs context agent .memory agent (.memory agent.listMemory)
  | search {query : Text} {k : Nat} {orders : IndexedAgent.RetrievalOrders F}
      {found : RetrievedBundle} (isFound : agent.searchMemory context orders query k = some found) :
      Performs context agent (.search query k) agent (.search found)
  | remember {content : Text} {tags : List Text} (id : Uuid) (nowMs : Int) (write : SessionWrite) :
      Performs context agent (.remember content tags)
        (agent.call context.engine context.library (.call (.remember id nowMs content tags) write))
        .ok
  | redactionTerm {term : Text} (write : SessionWrite) :
      Performs context agent (.redactionTerm term)
        (agent.call context.engine context.library (.call (.addRedactionTerm term) write)) .ok
  | system {system : Text} (write : SessionWrite) :
      Performs context agent (.system system)
        (agent.call context.engine context.library (.call (.setSystemPrompt system) write)) .ok
  | save (write : SessionWrite) :
      Performs context agent .save
        (agent.call context.engine context.library (.persist write)) .ok
  | chat {message : Text} {streamed : Bool} {environment : SendEnvironment F}
      {outcome : Except SendError Text} {next : IndexedAgent F}
      (localAi : environment.localAi.isSome = context.localAi)
      (sends : IndexedAgent.Sends context.engine context.library context.replies context.state
        agent.toIndexedAgent message environment outcome next) (write : SessionWrite) :
      Performs context agent (.chat message streamed)
        (agent.call context.engine context.library
          (.call (.sendUserMessage environment.localAi environment.orders message outcome) write))
        (.chat outcome)

/-- What is left of an operation that is given up while it waits: as much as if the message
could not be sent, or the question with its answer and neither a summary nor a save. -/
inductive GivesUp (context : AgentContext F) (agent : PersistedAgent F) :
    AgentOp → PersistedAgent F → Prop
  | unanswered {message : Text} (localAi : Option LocalAiClient)
      {orders : IndexedAgent.RetrievalOrders F} {retrieved : RetrievedBundle}
      (isRetrieved : (agent.toIndexedAgent.pushUser context.library.unicode message).retrieve
        context.library orders message = some retrieved)
      (problem : SendError) (write : SessionWrite) :
      GivesUp context agent (.chat message false)
        (agent.call context.engine context.library
          (.call (.sendUserMessage localAi orders message (.error problem)) write))
  | unsummarized {message : Text} {next : PersistedAgent F} {out : Text}
      (performs : Performs context agent (.chat message false) next (.chat (.ok out))) :
      GivesUp context agent (.chat message false)
        { next with
          session := { next.session with
            summary := agent.session.summary
            redaction := agent.session.redaction }
          file := agent.file }

/-! ## How far a chat has come -/

/-- The prompt of a chat is built and sent. -/
structure Asks (context : AgentContext F) (agent : PersistedAgent F) (message : Text)
    (draw : PromptDraw F) (retrieved : RetrievedBundle) (remoteMessages : List ChatMessage)
    (posted : Posted) : Prop where
  isRetrieved : (agent.toIndexedAgent.pushUser context.library.unicode message).retrieve
    context.library draw.orders message = some retrieved
  built : BuildsRemoteMessages context.engine draw.draws
    ((agent.toIndexedAgent.pushUser context.library.unicode message).promptSource retrieved)
    (agent.toIndexedAgent.pushUser context.library.unicode message).redactor remoteMessages
  isPosted : ((agent.ask context message retrieved).postRequest context.state draw.random
    remoteMessages draw.source draw.write).1 = .ok posted

/-- How a chat has left the agent where it waits. -/
inductive Waits (context : AgentContext F) (agent : PersistedAgent F) (message : Text)
    (streamed : Bool) : PersistedAgent F → AgentWait → Prop
  | reply {draw : PromptDraw F} {retrieved : RetrievedBundle} {remoteMessages : List ChatMessage}
      {posted : Posted} (asks : Asks context agent message draw retrieved remoteMessages posted) :
      Waits context agent message streamed (agent.ask context message retrieved)
        (.reply posted streamed)
  | summary {draw : PromptDraw F} {retrieved : RetrievedBundle}
      {remoteMessages : List ChatMessage} {posted : Posted} {order : List Text}
      {answer : HttpAnswer} {out : Text}
      (asks : Asks context agent message draw retrieved remoteMessages posted)
      (received : (agent.ask context message retrieved).receiveResponse context.replies
        context.state posted order answer = .ok out)
      (localAi : context.localAi = true) :
      Waits context agent message streamed
        (((agent.ask context message retrieved).hear context out).redactTurn context)
        (.summary (((agent.ask context message retrieved).hear context out).turnRedacted
          context.engine).1 out streamed)
  | streamed (isStreamed : streamed = true) {next : PersistedAgent F}
      {outcome : Except SendError Text}
      (performs : Performs context agent (.chat message streamed) next (.chat outcome)) :
      Waits context agent message streamed next (.streamed outcome)

/-- What an operation has done where it stops. -/
def Stops (context : AgentContext F) (agent : PersistedAgent F) (op : AgentOp)
    (next : PersistedAgent F) : Pause AgentWait AgentReply → Prop
  | .returns reply => Performs context agent op next reply
  | .waits wait => ∃ message streamed, op = .chat message streamed ∧
      Waits context agent message streamed next wait

section Stops

variable {context : AgentContext F} {agent next : PersistedAgent F} {message : Text}
  {streamed : Bool} {draw : PromptDraw F} {retrieved : RetrievedBundle}
  {remoteMessages : List ChatMessage} {posted : Posted}

/-- The agent with the question is the one that a failed call leaves. -/
theorem ask_eq_call {orders : IndexedAgent.RetrievalOrders F}
    (isRetrieved : (agent.toIndexedAgent.pushUser context.library.unicode message).retrieve
      context.library orders message = some retrieved)
    (localAi : Option LocalAiClient) (problem : SendError) (write : SessionWrite) :
    agent.ask context message retrieved = agent.call context.engine context.library
      (.call (.sendUserMessage localAi orders message (.error problem)) write) := by
  simp only [PersistedAgent.call, IndexedAgent.call, IndexedAgent.sendUserMessage,
    IndexedAgent.prompts, AgentCall.persists, isRetrieved, Option.elim_some, Bool.false_eq_true,
    if_false]
  rfl

/-- The agent with question, answer and summary is the one that a call leaves. -/
theorem conclude_eq_call {orders : IndexedAgent.RetrievalOrders F}
    (isRetrieved : (agent.toIndexedAgent.pushUser context.library.unicode message).retrieve
      context.library orders message = some retrieved)
    (localAi : Option LocalAiClient) (out : Text) (write : SessionWrite) :
    (((agent.ask context message retrieved).hear context out).redactTurn context).conclude
        (((agent.ask context message retrieved).hear context out).updateSummary context.engine
          localAi).session.summary write =
      agent.call context.engine context.library
        (.call (.sendUserMessage localAi orders message (.ok out)) write) := by
  simp only [PersistedAgent.call, IndexedAgent.call, IndexedAgent.sendUserMessage,
    IndexedAgent.prompts, AgentCall.persists, isRetrieved, Option.elim_some, if_true]
  rfl

/-- A summarizer that is there or not, with its answer. -/
def summarizer (localAi : Bool) (summary : Option Text) : Option LocalAiClient :=
  if localAi then some fun _ _ => summary else none

theorem isSome_summarizer (localAi : Bool) (summary : Option Text) :
    (summarizer localAi summary).isSome = localAi := by
  cases localAi <;> rfl

theorem stops_deliver {outcome : Except SendError Text}
    (performs : Performs context agent (.chat message streamed) next (.chat outcome)) :
    Stops context agent (.chat message streamed) next (Pause.deliver streamed outcome) := by
  cases streamed with
  | false => exact performs
  | true => exact ⟨message, true, rfl, .streamed rfl performs⟩

/-- The environment of a chat from what it has drawn and met. -/
def PromptDraw.environment (draw : PromptDraw F) (order : List Text) (answer : HttpAnswer)
    (localAi : Option LocalAiClient) : SendEnvironment F where
  orders := draw.orders
  draws := draw.draws
  random := draw.random
  source := draw.source
  write := draw.write
  answer := answer
  order := order
  localAi := localAi

/-- A chat that fails is performed by a call that fails. -/
theorem performs_of_error {problem : SendError} {order : List Text} {answer : HttpAnswer}
    (isRetrieved : (agent.toIndexedAgent.pushUser context.library.unicode message).retrieve
      context.library draw.orders message = some retrieved)
    (built : BuildsRemoteMessages context.engine draw.draws
      ((agent.toIndexedAgent.pushUser context.library.unicode message).promptSource retrieved)
      (agent.toIndexedAgent.pushUser context.library.unicode message).redactor remoteMessages)
    (fails : (agent.ask context message retrieved).outcomeOf context.replies context.state
      (draw.environment order answer (summarizer context.localAi none)) remoteMessages =
        .error problem) :
    Performs context agent (.chat message streamed) (agent.ask context message retrieved)
      (.chat (.error problem)) := by
  have performs : Performs context agent (.chat message streamed) _ _ :=
    .chat (isSome_summarizer context.localAi none)
      ⟨retrieved, remoteMessages, isRetrieved, built, fails, rfl⟩ .written
  rw [ask_eq_call isRetrieved (summarizer context.localAi none) problem .written]
  exact performs

/-- Once the request is posted, the outcome is in the reply. -/
theorem Asks.outcomeOf_eq
    (asks : Asks context agent message draw retrieved remoteMessages posted) {order : List Text}
    {answer : HttpAnswer} {localAi : Option LocalAiClient} :
    (agent.ask context message retrieved).outcomeOf context.replies context.state
        (draw.environment order answer localAi) remoteMessages =
      (agent.ask context message retrieved).receiveResponse context.replies context.state posted
        order answer := by
  have isPosted := asks.isPosted
  unfold AgentRuntime.outcomeOf
  simp only [PromptDraw.environment]
  split
  next problem source failed =>
    rw [failed] at isPosted
    contradiction
  next request source posts =>
    rw [posts] at isPosted
    rw [Except.ok.inj isPosted]

theorem Asks.sends {out : Text} {order : List Text} {answer : HttpAnswer}
    (asks : Asks context agent message draw retrieved remoteMessages posted)
    (received : (agent.ask context message retrieved).receiveResponse context.replies
      context.state posted order answer = .ok out) (localAi : Option LocalAiClient) :
    IndexedAgent.Sends context.engine context.library context.replies context.state
      agent.toIndexedAgent message (draw.environment order answer localAi) (.ok out)
      (agent.toIndexedAgent.sendUserMessage context.engine context.library localAi draw.orders
        message (.ok out)) := by
  refine ⟨retrieved, remoteMessages, asks.isRetrieved, asks.built, ?_, rfl⟩
  change (agent.ask context message retrieved).outcomeOf context.replies context.state
    (draw.environment order answer localAi) remoteMessages = .ok out
  rw [asks.outcomeOf_eq]
  exact received

/-- A chat that is answered is performed by a call that is answered. -/
theorem performs_of_ok {out : Text} {order : List Text} {answer : HttpAnswer}
    (asks : Asks context agent message draw retrieved remoteMessages posted)
    (received : (agent.ask context message retrieved).receiveResponse context.replies
      context.state posted order answer = .ok out)
    (summary : Option Text) (write : SessionWrite) :
    Performs context agent (.chat message streamed)
      ((((agent.ask context message retrieved).hear context out).redactTurn context).conclude
        (((agent.ask context message retrieved).hear context out).updateSummary context.engine
          (summarizer context.localAi summary)).session.summary write)
      (.chat (.ok out)) := by
  have performs : Performs context agent (.chat message streamed) _ _ :=
    .chat (isSome_summarizer context.localAi summary) (asks.sends received _) write
  rw [conclude_eq_call asks.isRetrieved]
  exact performs

/-- Where a chat stops first. -/
theorem stops_of_post {pause : Pause AgentWait AgentReply}
    (posts : agent.post context message streamed draw = some (next, pause)) :
    Stops context agent (.chat message streamed) next pause := by
  obtain ⟨retrieved, isRetrieved, rest⟩ := Option.bind_eq_some_iff.mp posts
  obtain ⟨remoteMessages, isBuilt, stopped⟩ := Option.map_eq_some_iff.mp rest
  have built := buildsRemoteMessages_of_eq isBuilt
  simp only at stopped
  split at stopped
  next problem source failed =>
    cases stopped
    apply stops_deliver
    have fails : (agent.ask context message retrieved).outcomeOf context.replies context.state
        (draw.environment [] .sendFailed (summarizer context.localAi none)) remoteMessages =
          .error problem := by
      unfold AgentRuntime.outcomeOf
      simp only [PromptDraw.environment, failed]
    exact performs_of_error isRetrieved built fails
  next posted source isPosted =>
    cases stopped
    exact ⟨message, streamed, rfl, .reply ⟨isRetrieved, built, by rw [isPosted]⟩⟩

/-- Where a chat stops with its reply. -/
theorem stops_of_receive {order : List Text} {answer : HttpAnswer} {write : SessionWrite}
    {pause : Pause AgentWait AgentReply}
    (asks : Asks context agent message draw retrieved remoteMessages posted)
    (receives : (agent.ask context message retrieved).receive context posted streamed order answer
      write = (next, pause)) :
    Stops context agent (.chat message streamed) next pause := by
  rw [PersistedAgent.receive] at receives
  split at receives
  next problem failed =>
    cases receives
    apply stops_deliver
    apply performs_of_error asks.isRetrieved asks.built
    rw [asks.outcomeOf_eq]
    exact failed
  next out received =>
    simp only at receives
    split at receives
    next localAi =>
      cases receives
      exact ⟨message, streamed, rfl, .summary asks received localAi⟩
    next localAi =>
      cases receives
      apply stops_deliver
      have performs : Performs context agent (.chat message streamed) _ _ :=
        performs_of_ok asks received none write
      rw [Bool.not_eq_true] at localAi
      rw [localAi] at performs
      exact performs

theorem stops_of_resume {wait : AgentWait} {middle : PersistedAgent F} {input : AgentInput F}
    {pause : Pause AgentWait AgentReply}
    (waits : Waits context agent message streamed middle wait)
    (resumed : middle.resume context wait input = some (next, pause)) :
    Stops context agent (.chat message streamed) next pause := by
  cases waits with
  | reply asks =>
      cases input with
      | replied order answer write => exact stops_of_receive asks (Option.some.inj resumed)
      | _ => contradiction
  | summary asks received localAi =>
      cases input with
      | summarized summary write =>
          cases resumed
          apply stops_deliver
          have performs : Performs context agent (.chat message streamed) _ _ :=
            performs_of_ok asks received summary write
          rw [localAi] at performs
          cases summary <;> exact performs
      | _ => contradiction
  | streamed isStreamed performs =>
      cases input with
      | sent =>
          cases resumed
          exact performs
      | _ => contradiction

/-- Where an operation stops first. -/
theorem stops_of_enter {op : AgentOp} {input : AgentInput F} {pause : Pause AgentWait AgentReply}
    (entered : agent.enter context op input = some (next, pause)) :
    Stops context agent op next pause := by
  unfold PersistedAgent.enter at entered
  split at entered
  next =>
    cases entered
    exact .view
  next =>
    cases entered
    exact .messages
  next =>
    cases entered
    exact .memory
  next =>
    obtain ⟨found, isFound, stopped⟩ := Option.map_eq_some_iff.mp entered
    cases stopped
    exact .search isFound
  next id nowMs write =>
    cases entered
    exact .remember id nowMs write
  next write =>
    cases entered
    exact .redactionTerm write
  next write =>
    cases entered
    exact .system write
  next write =>
    cases entered
    exact .save write
  next => exact stops_of_post entered
  next => contradiction

/-- **What an operation has done** where it stops is what it does on its own. -/
theorem stops_of_executes {op : AgentOp} {inputs : List (AgentInput F)}
    {pause : Pause AgentWait AgentReply}
    (executes : (PersistedAgent.sections context).Executes agent op inputs next pause) :
    Stops context agent op next pause := by
  induction executes with
  | enter entered => exact stops_of_enter entered
  | resume before resumed inductionHypothesis =>
      obtain ⟨message, streamed, rfl, waits⟩ := inductionHypothesis
      exact stops_of_resume waits resumed

/-- What is left where a chat that is not streamed waits. -/
theorem givesUp_of_waits {wait : AgentWait}
    (waits : Waits context agent message false next wait) :
    GivesUp context agent (.chat message false) next := by
  cases waits with
  | reply asks =>
      rw [ask_eq_call asks.isRetrieved none .sendRequest .notOpened]
      exact .unanswered none asks.isRetrieved .sendRequest .notOpened
  | summary asks received localAi =>
      have performs : Performs context agent (.chat message false) _ _ :=
        performs_of_ok asks received none .written
      exact .unsummarized performs
  | streamed isStreamed performs => contradiction

end Stops

end Alone

end ZkLlmGateway.Client
