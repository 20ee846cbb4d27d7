import ZkLlmGateway.Client.Api
import ZkLlmGateway.Client.Exchange

/-!
# What the requests leave in a session

Every chat adds its question to the session, with the answer directly behind it if there
is one, and every note is added to the memory.  Both stand in the order in which the
requests came to the lock, and nothing else is added by them.
-/

namespace ZkLlmGateway.Client

open ZkLlmGateway.Encoding ZkLlmGateway.Common ZkLlmGateway.Gateway ZkLlmGateway.Transition

/-! ## Exchanges and notes -/

/-- A question with its answer, if it has one. -/
structure Exchange where
  n : Nat
  question : Text
  answer : Option Text

def assistantMessage (out : Text) : ChatMessage :=
  ⟨text "assistant", out, []⟩

/-- An exchange as it is stored. -/
def Exchange.messages (exchange : Exchange) : List ChatMessage :=
  IndexedAgent.userMessage exchange.question :: (exchange.answer.map assistantMessage).toList

structure Note where
  n : Nat
  content : Text
  tags : List Text

/-- A memory item without what is drawn for it. -/
def MemoryItem.noted (item : MemoryItem) : Text × List Text :=
  (item.text, item.tags)

def Note.items (note : Note) : List (Text × List Text) :=
  [(note.content, note.tags)]

/-- The question of a chat. -/
def questionOf : Nat × AgentOp → Option (Nat × Text)
  | (n, .chat message _) => some (n, message)
  | _ => none

/-- What is to be remembered. -/
def noteOf : Nat × AgentOp → Option Note
  | (n, .remember content tags) => some ⟨n, content, tags⟩
  | _ => none

/-- The session has what it had at first and what the requests have added: every question once at
most, in their order, with the answer that was replied, and every note likewise. -/
structure Recorded {F : Type} (lock : AgentLock F) : Prop where
  conversation : ∃ exchanges : List Exchange,
    lock.object.session.messages =
      lock.initial.session.messages ++ exchanges.flatMap Exchange.messages ∧
    (exchanges.map fun exchange => (exchange.n, exchange.question)).Sublist
      (lock.arrivals.filterMap questionOf) ∧
    ∀ n outcome, lock.results n = some (.chat outcome) →
      ∃ exchange ∈ exchanges, exchange.n = n ∧ exchange.answer = outcome.toOption
  memory : ∃ notes : List Note,
    lock.object.session.memory.map MemoryItem.noted =
      lock.initial.session.memory.map MemoryItem.noted ++ notes.flatMap Note.items ∧
    notes.Sublist (lock.arrivals.filterMap noteOf) ∧
    ∀ n content tags, (n, .remember content tags) ∈ lock.arrivals →
      lock.results n = some .ok → ⟨n, content, tags⟩ ∈ notes

/-! ## What a request adds -/

section Adds

variable {F : Type} [Field F] [LinearOrder F] {context : AgentContext F}
  {agent next : PersistedAgent F} {op : AgentOp}

theorem session_call (engine : Engine) (library : IndexLibrary F) (agent : PersistedAgent F)
    (agentCall : AgentCall F) (write : SessionWrite) :
    (agent.call engine library (.call agentCall write)).session =
      (agent.toIndexedAgent.call engine library agentCall).session := by
  unfold PersistedAgent.call
  simp only
  split <;> rfl

/-- A request that has been performed adds these exchanges. -/
structure AddsExchanges (performed : Performed) (exchanges : List Exchange) : Prop where
  questions : (exchanges.map fun exchange => (exchange.n, exchange.question)) =
    (questionOf (performed.n, performed.op)).toList
  answers : ∀ outcome, performed.reply = some (.chat outcome) →
    ∃ exchange ∈ exchanges, exchange.n = performed.n ∧ exchange.answer = outcome.toOption

/-- A request that has been performed adds these notes. -/
def AddsNotes (performed : Performed) (notes : List Note) : Prop :=
  notes = (noteOf (performed.n, performed.op)).toList

theorem addsExchanges_chat (n : Nat) (message : Text) (streamed : Bool)
    (outcome : Except SendError Text) :
    AddsExchanges ⟨n, .chat message streamed, some (.chat outcome)⟩
      [⟨n, message, outcome.toOption⟩] where
  questions := rfl
  answers := by
    rintro _ ⟨⟩
    exact ⟨_, List.mem_singleton_self _, rfl, rfl⟩

theorem addsExchanges_cut (n : Nat) (message : Text) (answer : Option Text) :
    AddsExchanges ⟨n, .chat message false, none⟩ [⟨n, message, answer⟩] where
  questions := rfl
  answers := by rintro _ ⟨⟩

/-- A chat leaves its question and its answer. -/
theorem messages_of_sends {replies : ReplyLibrary} {state : AppState} {engine : Engine}
    {library : IndexLibrary F} {agent next : IndexedAgent F} {message : Text}
    {environment : SendEnvironment F} {outcome : Except SendError Text} (n : Nat)
    (sends : IndexedAgent.Sends engine library replies state agent message environment outcome
      next) :
    next.session.messages =
      agent.session.messages ++ Exchange.messages ⟨n, message, outcome.toOption⟩ := by
  cases outcome with
  | error problem => exact sends.leavesMessage.messages
  | ok out => exact sends.messages_of_ok

theorem memory_sendUserMessage (engine : Engine) (library : IndexLibrary F)
    (agent : IndexedAgent F) (localAi : Option LocalAiClient)
    (orders : IndexedAgent.RetrievalOrders F) (message : Text)
    (outcome : Except SendError Text) :
    (agent.sendUserMessage engine library localAi orders message outcome).session.memory =
      agent.session.memory := by
  unfold IndexedAgent.sendUserMessage
  simp only
  split
  next => rfl
  next => cases outcome <;> rfl

theorem Performs.exchanges {reply : AgentReply} (n : Nat)
    (performs : Performs context agent op next reply) :
    ∃ exchanges, AddsExchanges ⟨n, op, some reply⟩ exchanges ∧
      next.session.messages = agent.session.messages ++ exchanges.flatMap Exchange.messages := by
  cases performs with
  | chat localAi sends write =>
      obtain ⟨_, _, _, _, _, same⟩ := id sends
      refine ⟨_, addsExchanges_chat n _ _ _, ?_⟩
      rw [session_call, IndexedAgent.call, same, messages_of_sends n sends, List.flatMap_singleton]
  | _ => exact ⟨[], ⟨rfl, by rintro _ ⟨⟩⟩, (List.append_nil _).symm⟩

theorem Performs.notes {reply : AgentReply} (n : Nat)
    (performs : Performs context agent op next reply) :
    ∃ notes, AddsNotes ⟨n, op, some reply⟩ notes ∧
      next.session.memory.map MemoryItem.noted =
        agent.session.memory.map MemoryItem.noted ++ notes.flatMap Note.items := by
  cases performs with
  | remember id nowMs write => exact ⟨_, rfl, List.map_append ..⟩
  | chat localAi sends write =>
      refine ⟨[], rfl, ?_⟩
      rw [session_call, IndexedAgent.call, memory_sendUserMessage, List.flatMap_nil,
        List.append_nil]
  | _ => exact ⟨[], rfl, (List.append_nil _).symm⟩

theorem GivesUp.exchanges (n : Nat) (givesUp : GivesUp context agent op next) :
    ∃ exchanges, AddsExchanges ⟨n, op, none⟩ exchanges ∧
      next.session.messages = agent.session.messages ++ exchanges.flatMap Exchange.messages := by
  cases givesUp with
  | unanswered localAi isRetrieved problem write =>
      refine ⟨_, addsExchanges_cut n _ none, ?_⟩
      rw [session_call, IndexedAgent.call]
      simp only [IndexedAgent.sendUserMessage, isRetrieved, List.flatMap_singleton]
      rfl
  | @unsummarized message next out performs =>
      obtain ⟨exchanges, adds, same⟩ := performs.exchanges n
      exact ⟨exchanges, ⟨adds.questions, by rintro _ ⟨⟩⟩, same⟩

theorem GivesUp.notes (n : Nat) (givesUp : GivesUp context agent op next) :
    ∃ notes, AddsNotes ⟨n, op, none⟩ notes ∧
      next.session.memory.map MemoryItem.noted =
        agent.session.memory.map MemoryItem.noted ++ notes.flatMap Note.items := by
  cases givesUp with
  | unanswered localAi isRetrieved problem write =>
      refine ⟨[], rfl, ?_⟩
      rw [session_call, IndexedAgent.call, memory_sendUserMessage, List.flatMap_nil,
        List.append_nil]
  | unsummarized performs => exact performs.notes n

/-- A chat that waits has added its question, and the answer if there is one already. -/
theorem Waits.exchanges {message : Text} {streamed : Bool} {wait : AgentWait} (n : Nat)
    (waits : Waits context agent message streamed next wait) :
    ∃ exchange : Exchange, (exchange.n, exchange.question) = (n, message) ∧
      next.session.messages = agent.session.messages ++ exchange.messages := by
  cases waits with
  | reply asks => exact ⟨⟨n, message, none⟩, rfl, rfl⟩
  | @summary _ _ _ _ _ _ out asks received localAi =>
      exact ⟨⟨n, message, some out⟩, rfl, List.append_assoc agent.session.messages [_] [_]⟩
  | streamed isStreamed performs =>
      cases performs with
      | chat localAi sends write =>
          have added := messages_of_sends n sends
          obtain ⟨_, _, _, _, _, same⟩ := sends
          rw [← same] at added
          rw [session_call]
          exact ⟨⟨n, message, _⟩, rfl, added⟩

theorem Waits.memory {message : Text} {streamed : Bool} {wait : AgentWait}
    (waits : Waits context agent message streamed next wait) :
    next.session.memory = agent.session.memory := by
  cases waits with
  | reply asks => rfl
  | summary asks received localAi => rfl
  | streamed isStreamed performs =>
      cases performs with
      | chat localAi sends write =>
          rw [session_call, IndexedAgent.call, memory_sendUserMessage]

/-! ## What all requests add -/

/-- When every request adds to a part of the agent, so do all of them. -/
theorem Sequential.adds {α β : Type} {start final : PersistedAgent F} {history : List Performed}
    {part : PersistedAgent F → List β} {shown : α → List β} {adds : Performed → List α → Prop}
    (performs : ∀ {agent next : PersistedAgent F} {op : AgentOp} {reply : AgentReply} (n : Nat),
      Performs context agent op next reply →
        ∃ added, adds ⟨n, op, some reply⟩ added ∧ part next = part agent ++ added.flatMap shown)
    (givesUp : ∀ {agent next : PersistedAgent F} {op : AgentOp} (n : Nat),
      GivesUp context agent op next →
        ∃ added, adds ⟨n, op, none⟩ added ∧ part next = part agent ++ added.flatMap shown)
    (sequential : Sequential context start history final) :
    ∃ added : List (List α), List.Forall₂ adds history added ∧
      part final = part start ++ added.flatten.flatMap shown := by
  induction sequential with
  | nil => exact ⟨[], .nil, (List.append_nil _).symm⟩
  | @perform history middle next n op reply before performed inductionHypothesis =>
      obtain ⟨earlier, each, same⟩ := inductionHypothesis
      obtain ⟨added, isAdded, rest⟩ := performs n performed
      refine ⟨earlier ++ [added], List.rel_append each (.cons isAdded .nil), ?_⟩
      rw [rest, same, List.flatten_append, List.flatten_singleton, List.flatMap_append,
        List.append_assoc]
  | @giveUp history middle next n op before given inductionHypothesis =>
      obtain ⟨earlier, each, same⟩ := inductionHypothesis
      obtain ⟨added, isAdded, rest⟩ := givesUp n given
      refine ⟨earlier ++ [added], List.rel_append each (.cons isAdded .nil), ?_⟩
      rw [rest, same, List.flatten_append, List.flatten_singleton, List.flatMap_append,
        List.append_assoc]

/-- What is added for the requests one by one is added for all of them. -/
theorem map_flatten_of_forall {α β γ : Type} {key : α → γ} {keyOf : β → Option γ}
    {history : List β} {added : List (List α)}
    (each : List.Forall₂ (fun performed items => items.map key = (keyOf performed).toList) history
      added) : added.flatten.map key = history.filterMap keyOf := by
  induction each with
  | nil => rfl
  | @cons performed items history added first rest inductionHypothesis =>
      rw [List.flatten_cons, List.map_append, first, inductionHypothesis, List.filterMap_cons]
      cases keyOf performed <;> rfl

/-- What is added for one of the requests. -/
theorem exists_added {α β : Type} {adds : β → List α → Prop} {history : List β}
    {added : List (List α)} (each : List.Forall₂ adds history added) {performed : β}
    (member : performed ∈ history) :
    ∃ items, adds performed items ∧ ∀ item ∈ items, item ∈ added.flatten := by
  induction each with
  | nil => exact absurd member List.not_mem_nil
  | @cons first items history added isFirst _ inductionHypothesis =>
      rcases List.mem_cons.mp member with rfl | later
      · exact ⟨items, isFirst, fun item within => List.mem_append_left _ within⟩
      · obtain ⟨others, isAdded, kept⟩ := inductionHypothesis later
        exact ⟨others, isAdded, fun item within => List.mem_append_right _ (kept item within)⟩

end Adds

/-! ## What a session has -/

section Recorded

variable {F : Type} [Field F] [LinearOrder F] {state : ApiState} {context : AgentContext F}
  {server : ApiServer F} {sessionId : Text} {lock : AgentLock F}

/-- The requests that have had the lock, with the one that has it. -/
def startedOf (history : List Performed)
    (holder : Option (Holder Nat AgentOp (AgentInput F) AgentWait)) : List (Nat × AgentOp) :=
  (history.map fun performed => (performed.n, performed.op)) ++
    (holder.map fun holder => (holder.task, holder.op)).toList

theorem exists_exchanges {history : List Performed} {start middle object : PersistedAgent F}
    {holder : Option (Holder Nat AgentOp (AgentInput F) AgentWait)}
    (sequential : Sequential context start history middle)
    (inProgress : InProgress context middle object holder) :
    ∃ exchanges : List Exchange,
      object.session.messages = start.session.messages ++ exchanges.flatMap Exchange.messages ∧
      (exchanges.map fun exchange => (exchange.n, exchange.question)) =
        (startedOf history holder).filterMap questionOf ∧
      ∀ n op outcome, ⟨n, op, some (.chat outcome)⟩ ∈ history →
        ∃ exchange ∈ exchanges, exchange.n = n ∧ exchange.answer = outcome.toOption := by
  obtain ⟨added, each, same⟩ := sequential.adds Performs.exchanges GivesUp.exchanges
  have keys : (added.flatten.map fun exchange => (exchange.n, exchange.question)) =
      (history.map fun performed => (performed.n, performed.op)).filterMap questionOf := by
    rw [List.filterMap_map]
    exact map_flatten_of_forall (each.imp fun _ _ adds => adds.questions)
  have answered : ∀ n op outcome, (⟨n, op, some (.chat outcome)⟩ : Performed) ∈ history →
      ∃ exchange ∈ added.flatten, exchange.n = n ∧ exchange.answer = outcome.toOption := by
    intro n op outcome member
    obtain ⟨items, adds, kept⟩ := exists_added each member
    obtain ⟨exchange, within, isAnswer⟩ := adds.answers outcome rfl
    exact ⟨exchange, kept exchange within, isAnswer⟩
  cases holder with
  | none =>
      rw [inProgress]
      refine ⟨added.flatten, same, ?_, answered⟩
      rw [keys, startedOf, Option.map_none, Option.toList_none, List.append_nil]
  | some holder =>
      obtain ⟨message, streamed, isOp, waits⟩ := inProgress
      obtain ⟨exchange, isExchange, more⟩ := waits.exchanges holder.task
      refine ⟨added.flatten ++ [exchange], ?_, ?_, fun n op outcome member => ?_⟩
      · rw [more, same, List.flatMap_append, List.flatMap_singleton, List.append_assoc]
      · rw [List.map_append, keys, startedOf, List.filterMap_append, List.map_singleton, isExchange,
          Option.map_some, isOp]
        rfl
      · obtain ⟨other, within, isAnswer⟩ := answered n op outcome member
        exact ⟨other, List.mem_append_left _ within, isAnswer⟩

theorem exists_notes {history : List Performed} {start middle object : PersistedAgent F}
    {holder : Option (Holder Nat AgentOp (AgentInput F) AgentWait)}
    (sequential : Sequential context start history middle)
    (inProgress : InProgress context middle object holder) :
    ∃ notes : List Note,
      object.session.memory.map MemoryItem.noted =
        start.session.memory.map MemoryItem.noted ++ notes.flatMap Note.items ∧
      notes = (startedOf history holder).filterMap noteOf := by
  obtain ⟨added, each, same⟩ := sequential.adds Performs.notes GivesUp.notes
  have keys : added.flatten =
      (history.map fun performed => (performed.n, performed.op)).filterMap noteOf := by
    rw [List.filterMap_map, ← List.map_id added.flatten]
    apply map_flatten_of_forall
    exact each.imp fun _ _ adds => (List.map_id _).trans adds
  refine ⟨added.flatten, ?_, ?_⟩
  · cases holder with
    | none =>
        rw [inProgress]
        exact same
    | some holder =>
        obtain ⟨message, streamed, _, waits⟩ := inProgress
        rw [waits.memory]
        exact same
  · rw [keys, startedOf, List.filterMap_append]
    cases holder with
    | none => exact (List.append_nil _).symm
    | some holder =>
        obtain ⟨message, streamed, isOp, _⟩ := inProgress
        rw [Option.map_some, isOp]
        exact (List.append_nil _).symm

theorem Linearized.recorded (linearized : Linearized state context server sessionId lock) :
    Recorded lock := by
  obtain ⟨history, middle, sequential, inProgress, inOrder, results⟩ := linearized.sequential
  have started : (startedOf history lock.holder).Sublist lock.arrivals :=
    (List.sublist_append_left _ _).trans inOrder
  constructor
  · obtain ⟨exchanges, same, keys, answered⟩ := exists_exchanges sequential inProgress
    refine ⟨exchanges, same, ?_, fun n outcome replied => ?_⟩
    · rw [keys]
      exact started.filterMap questionOf
    · obtain ⟨op, member⟩ := (results n _).mp replied
      exact answered n op outcome member
  · obtain ⟨notes, same, keys⟩ := exists_notes sequential inProgress
    refine ⟨notes, same, ?_, fun n content tags arrived replied => ?_⟩
    · rw [keys]
      exact started.filterMap noteOf
    · obtain ⟨op, member⟩ := (results n _).mp replied
      have isStarted : (n, op) ∈ startedOf history lock.holder :=
        List.mem_append_left _ (List.mem_map.mpr ⟨_, member, rfl⟩)
      have equal : (n, op) = (n, .remember content tags) :=
        List.inj_on_of_nodup_map linearized.distinct (started.mem isStarted) arrived rfl
      rw [keys]
      rw [equal] at isStarted
      exact List.mem_filterMap.mpr ⟨_, isStarted, rfl⟩

/-- **Sessions record their requests in order**, in every run of the API: no exchange or note is
lost, doubled or mixed with another, and none comes from a request for another session. -/
theorem recorded_of_reachable
    (reachable : (ApiServer.system state context).Reachable (fun _ _ => True) server)
    (isLoaded : server.agents sessionId = some lock) :
    Recorded lock ∧ ∀ n op, (n, op) ∈ lock.arrivals → ∃ request, server.requests n = some request ∧
      state.letIn request = .ok sessionId ∧ request.call.op sessionId = op := by
  have linearized := ((ApiServer.sound_of_reachable reachable).1 sessionId lock isLoaded).linearized
  exact ⟨linearized.recorded, linearized.admitted⟩

end Recorded

/-! ## A chat that is answered -/

/-- Agents of the gateway that reads with the standard codec. -/
noncomputable def standardContext : AgentContext ℝ where
  engine := .ofTable []
  library := realLibrary
  replies := replyLibrary .standard decimal fun _ => []
  state := standardLink.state
  localAi := false

/-- An agent that redacts nothing. -/
def chatter : AgentRuntime :=
  { ClientState.plainAgent with redactMode := .none }

noncomputable def indexedChatter : IndexedAgent ℝ :=
  .new realLibrary.unicode chatter.toAgentSettings bareConfig []
    (.new [] 0 (Block.replicate 32 0)) (.new (Block.replicate 32 0)) true 8

noncomputable def persistedChatter : PersistedAgent ℝ :=
  { indexedChatter with
    file := none
    prompted := [] }

/-- The source of its first prompt. -/
def chattingSource (retrieved : RetrievedContext) : PromptSource :=
  { bareSource retrieved with
    tokenClass := chatter.tokenClass
    redactMode := chatter.redactMode
    extraRedactionTerms := chatter.extraTerms }

/-- The first prompt, whatever is retrieved. -/
def chattingMessages : List ChatMessage :=
  ((chattingSource ⟨[], []⟩).assembled (.ofTable []) (.new (Block.replicate 32 0))).1

theorem builds_chattingMessages (retrieved : RetrievedContext) :
    BuildsRemoteMessages (.ofTable []) (fun _ => 0) (chattingSource retrieved)
      (.new (Block.replicate 32 0)) chattingMessages := by
  have same : (chattingSource retrieved).assembled (.ofTable []) (.new (Block.replicate 32 0)) =
      (chattingSource ⟨[], []⟩).assembled (.ofTable []) (.new (Block.replicate 32 0)) := rfl
  have within : approxPromptBytes chattingMessages ≤ TokenClass.c256.maxPromptBytes := by
    decide +kernel
  refine ⟨chattingMessages, ?_, rfl⟩
  rw [same]
  exact enforcesBudget_of_le within

theorem exists_posted_chatting : ∃ posted after,
    chatter.postRequest standardLink.state ClientState.plainCall.random chattingMessages soleSource
      .written = (.ok posted, after) :=
  exists_posted_of_short rfl rfl (by decide +kernel)

/-- What is posted depends on the settings alone. -/
theorem postRequest_congr {agent other : AgentRuntime}
    (same : agent.toAgentSettings = other.toAgentSettings) (state : AppState)
    (random : SendRandomness) (remoteMessages : List ChatMessage) (source : FileTicketSource)
    (write : FileWrite) : agent.postRequest state random remoteMessages source write =
      other.postRequest state random remoteMessages source write := by
  simp only [AgentRuntime.postRequest, AgentRuntime.requestFor, same]

/-- The chat is posted. -/
theorem exists_asked (streamed : Bool) : ∃ draw posted after asked,
    persistedChatter.enter standardContext (.chat (text "Hi there") streamed) (.prompted draw) =
        some (asked, .waits (.reply posted streamed)) ∧
      asked.toAgentSettings = chatter.toAgentSettings ∧
      asked.postRequest standardLink.state ClientState.plainCall.random chattingMessages soleSource
        .written = (.ok posted, after) := by
  have indexed : IndexedAgent.Indexed realLibrary.unicode (IndexedAgent.firstIndexed 0 true 8)
      (indexedChatter.pushUser realLibrary.unicode (text "Hi there")) :=
    (IndexedAgent.indexed_new realLibrary.unicode chatter.toAgentSettings bareConfig []
      (.new [] 0 (Block.replicate 32 0)) (.new (Block.replicate 32 0)) true 8).pushMessage _ _
  obtain ⟨retrieved, isRetrieved⟩ := indexed.exists_retrieve storedOrders (text "Hi there")
  obtain ⟨fuel, built⟩ := exists_buildRemoteMessages (builds_chattingMessages retrieved.context)
  obtain ⟨posted, after, posts⟩ := exists_posted_chatting
  obtain ⟨asked, isAsked⟩ : ∃ asked, asked =
      persistedChatter.ask standardContext (text "Hi there") retrieved := ⟨_, rfl⟩
  have settings : asked.toAgentSettings = chatter.toAgentSettings := by
    rw [isAsked]
    rfl
  have postsAsked : asked.postRequest standardLink.state ClientState.plainCall.random
      chattingMessages soleSource .written = (.ok posted, after) := by
    rw [postRequest_congr settings]
    exact posts
  have enters : persistedChatter.enter standardContext (.chat (text "Hi there") streamed)
      (.prompted ⟨storedOrders, fuel, fun _ => 0, ClientState.plainCall.random, soleSource,
        .written⟩) = some (asked, .waits (.reply posted streamed)) := by
    have retrieves : (persistedChatter.toIndexedAgent.pushUser standardContext.library.unicode
        (text "Hi there")).retrieve standardContext.library storedOrders (text "Hi there") =
          some retrieved := isRetrieved
    have builds : buildRemoteMessages fuel standardContext.engine (fun _ => 0)
        ((persistedChatter.toIndexedAgent.pushUser standardContext.library.unicode
          (text "Hi there")).promptSource retrieved)
        (persistedChatter.toIndexedAgent.pushUser standardContext.library.unicode
          (text "Hi there")).redactor = some chattingMessages := built
    have same : standardContext.state = standardLink.state := rfl
    simp only [PersistedAgent.enter, PersistedAgent.post, retrieves, builds, Option.bind_some,
      Option.map_some, ← isAsked, same, postsAsked]
  exact ⟨_, posted, after, asked, enters, settings, postsAsked⟩

/-- It is answered. -/
theorem exists_heard {asked : PersistedAgent ℝ} {posted : Posted} {after : FileTicketSource}
    (settings : asked.toAgentSettings = chatter.toAgentSettings)
    (posts : asked.postRequest standardLink.state ClientState.plainCall.random chattingMessages
      soleSource .written = (.ok posted, after)) (streamed : Bool) : ∃ answer object,
    asked.resume standardContext (.reply posted streamed) (.replied [] answer .written) =
      some (object, Pause.deliver streamed (.ok (text "Hello"))) := by
  have isKey : asked.gatewayPublicBytes = standardLink.state.keypair.publicBytes
      standardLink.state.primitives := by
    rw [settings]
    rfl
  have short : (GatewayEnvelopePayload.ok ⟨ClientState.plainCall.random.requestId, asked.model,
      text "Hello", asked.tokenClass, none⟩).toVec.length ≤
      asked.tokenClass.envelopeResponsePlaintextBytes := by
    rw [settings]
    decide +kernel
  obtain ⟨answer, received⟩ : ∃ answer, asked.receiveResponse standardContext.replies
      standardContext.state posted [] answer =
        .ok (asked.redactor.rehydrate [] (text "Hello")) :=
    exists_answer works_standardLink isKey posts short
  have unchanged : asked.redactor.rehydrate [] (text "Hello") = text "Hello" := by
    simp [Redactor.rehydrate]
  rw [unchanged] at received
  have without : standardContext.localAi = false := rfl
  refine ⟨answer, ?_⟩
  simp only [PersistedAgent.resume, PersistedAgent.receive, received, without, Bool.false_eq_true,
    if_false]
  exact ⟨_, rfl⟩

/-- The chat of a server: the lock once it waits for the reply, and once it has it. -/
theorem exists_chatted (streamed : Bool) : ∃ draw answer, ∀ {server : ApiServer ℝ}
    {lock : AgentLock ℝ} {n : Nat} {rest : List (Nat × AgentOp)},
    server.agents (text "default") = some lock → lock.object = persistedChatter →
    lock.holder = none → lock.queue = (n, .chat (text "Hi there") streamed) :: rest →
    ∃ asked posted object asks heard,
      asks = ({ lock with queue := rest } : AgentLock ℝ).settle n (.chat (text "Hi there") streamed)
        [.prompted draw] (asked, .waits (.reply posted streamed)) ∧
      heard = asks.settle n (.chat (text "Hi there") streamed)
        ([.prompted draw] ++ [.replied [] answer .written])
        (object, Pause.deliver streamed (.ok (text "Hello"))) ∧
      server.step keyedApi standardContext (.enter (text "default") (.prompted draw)) =
        some (server.setAgent (text "default") asks) ∧
      (server.setAgent (text "default") asks).step keyedApi standardContext
          (.resume (text "default") (.replied [] answer .written)) =
        some ((server.setAgent (text "default") asks).setAgent (text "default") heard) := by
  obtain ⟨draw, posted, after, asked, entered, settings, posts⟩ := exists_asked streamed
  obtain ⟨answer, object, resumed⟩ := exists_heard settings posts streamed
  refine ⟨draw, answer, fun {server lock n rest} isLoaded isObject isFree isQueue => ?_⟩
  obtain ⟨asks, isAsks⟩ : ∃ asks, asks = ({ lock with queue := rest } : AgentLock ℝ).settle n
      (.chat (text "Hi there") streamed) [.prompted draw]
      (asked, .waits (.reply posted streamed)) := ⟨_, rfl⟩
  have isHolder : asks.holder = some ⟨n, .chat (text "Hi there") streamed, [.prompted draw],
      .reply posted streamed⟩ := by
    rw [isAsks]
    rfl
  have isAsked : asks.object = asked := by
    rw [isAsks]
    rfl
  rw [← isObject] at entered
  rw [← isAsked] at resumed
  refine ⟨asked, posted, object, asks, _, isAsks, rfl, ?_, ApiServer.step_resume keyedApi
    (ApiServer.agents_setAgent ..) isHolder resumed⟩
  rw [isAsks]
  exact ApiServer.step_enter keyedApi isLoaded isFree isQueue entered

noncomputable def chattingServer : ApiServer ℝ where
  agents := Function.update (fun _ => none) (text "default") (some (.fresh persistedChatter))
  requests _ := none
  refusals _ := none

theorem init_chattingServer : (ApiServer.system keyedApi standardContext).init chattingServer :=
  ApiServer.init_of_single keyedApi standardContext rfl (by decide) (fun _ => rfl) fun _ => rfl

/-- A chat, and a note that waits for it. -/
def chattingRequests : List (ApiEvent ℝ) := [
  .request 0 ⟨some (utf8 (text "key")), none, .postChat (text "Hi there")⟩
    (.error ⟨.loadSession, []⟩),
  .request 1 ⟨some (utf8 (text "key")), none, .postMemory (text "Tea") none⟩
    (.error ⟨.loadSession, []⟩)]

def chattingEvents (draw : PromptDraw ℝ) (answer : HttpAnswer) : List (ApiEvent ℝ) := [
  .enter (text "default") (.prompted draw),
  .resume (text "default") (.replied [] answer .written),
  .enter (text "default") (.remembered (Block.replicate 16 0) 0 .written)]

/-- Both have come to the lock. -/
theorem exists_queued : ∃ server lock,
    (ApiServer.system keyedApi standardContext).run chattingServer chattingRequests =
        some server ∧
      server.agents (text "default") = some lock ∧ lock.object = persistedChatter ∧
      lock.holder = none ∧
      lock.queue = [(0, .chat (text "Hi there") false), (1, .remember (text "Tea") [])] := by
  refine ⟨_, _, rfl, rfl, rfl, rfl, rfl⟩

/-- Both are recorded. -/
theorem recorded_chatting : ∃ draw answer server lock,
    (ApiServer.system keyedApi standardContext).run chattingServer
        (chattingRequests ++ chattingEvents draw answer) = some server ∧
      server.agents (text "default") = some lock ∧
      lock.results 0 = some (.chat (.ok (text "Hello"))) ∧ lock.results 1 = some .ok ∧
      Recorded lock := by
  obtain ⟨draw, answer, chatted⟩ := exists_chatted false
  obtain ⟨server, lock, queued, isLoaded, isObject, isFree, isQueue⟩ := exists_queued
  obtain ⟨asked, posted, object, asks, heard, isAsks, isHeard, first, second⟩ :=
    chatted isLoaded isObject isFree isQueue
  have heardFree : heard.holder = none := by
    rw [isHeard]
    rfl
  have heardQueue : heard.queue = [(1, .remember (text "Tea") [])] := by
    rw [isHeard, isAsks]
    rfl
  obtain ⟨noted, entered⟩ : ∃ noted, heard.object.enter standardContext
      (.remember (text "Tea") []) (.remembered (Block.replicate 16 0) 0 .written) =
        some (noted, .returns .ok) := ⟨_, rfl⟩
  have third := ApiServer.step_enter keyedApi (ApiServer.agents_setAgent
    (server.setAgent (text "default") asks) (text "default") heard) heardFree heardQueue entered
  have steps : (ApiServer.system keyedApi standardContext).step =
      ApiServer.step keyedApi standardContext := rfl
  rw [← steps] at first second third
  have replayed : (ApiServer.system keyedApi standardContext).run chattingServer
      (chattingRequests ++ chattingEvents draw answer) = _ :=
    System.run_concat (System.run_concat (System.run_concat queued first) second) third
  have reachable := System.Reachable.of_run (.start init_chattingServer)
    (System.admits_of_forall (fun _ _ _ => trivial) chattingServer) replayed
  refine ⟨draw, answer, _, _, replayed, ApiServer.agents_setAgent .., ?_, ?_,
    (recorded_of_reachable reachable (ApiServer.agents_setAgent ..)).1⟩
  · rw [isHeard]
    rfl
  · rfl

end ZkLlmGateway.Client
